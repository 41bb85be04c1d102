import Scaffold.Proofs.Expr.Passage

/-!
# Passages within a block

A passage that stands between braces is hidden from what is read around them, if the braces are no
object literal and their contents are passed over as a whole (`Versions.Block`).  Then everything in
front of the block and behind it is read as before, also an expression that the block is a part of
(`Versions.Block.around`); only texts that the passage is a part of may differ.

What a `<` in front of the block opens has to end there, if it is taken for type arguments
(`TypesSettled`).
-/

namespace Scaffold

namespace Expr

variable {t t' u : Token} {ts ts' us rest rest' : List Token} {k : Nat}

/-! ### Passing over a block -/

/-- What is passed over ends in front of the tokens behind `us`, whatever they are, or `us` is
passed and what stands behind it is passed over from there. -/
theorem skipBalanced_append_cases (stack : List Text) (operand : Bool) (us : List Token) :
    (∃ skipped left, left ≠ [] ∧ us = skipped ++ left ∧
        ∀ ts, skipBalanced stack operand (us ++ ts) = (skipped, left ++ ts)) ∨
      ∃ stack' operand', ∀ ts, skipBalanced stack operand (us ++ ts) =
        (us ++ (skipBalanced stack' operand' ts).1, (skipBalanced stack' operand' ts).2) := by
  induction us generalizing stack operand with
  | nil => exact .inr ⟨stack, operand, fun _ => rfl⟩
  | cons u us ih =>
    cases hawaited : awaited stack operand u with
    | none =>
      refine .inl ⟨[], u :: us, List.cons_ne_nil _ _, rfl, fun ts => ?_⟩
      rw [List.cons_append, skipBalanced, hawaited]
    | some stack' =>
      rcases ih stack' (expectsOperand u) with ⟨skipped, left, hne, rfl, h⟩ | ⟨stack'', operand', h⟩
      · refine .inl ⟨u :: skipped, left, hne, rfl, fun ts => ?_⟩
        rw [List.cons_append, skipBalanced_cons hawaited, h]
      · refine .inr ⟨stack'', operand', fun ts => ?_⟩
        rw [List.cons_append, skipBalanced_cons hawaited, h, List.cons_append]

/-- Brackets with balanced contents are passed over. -/
theorem skipBalanced_brackets {o c : Token} {w : Region} {p : Place} (h : Brackets o c)
    (hinner : Balanced w p us) (hp : p ≠ .operator) (stack : List Text) (operand : Bool)
    (ts : List Token) : skipBalanced stack operand (o :: (us ++ c :: ts)) =
      (o :: (us ++ c :: (skipBalanced stack false ts).1), (skipBalanced stack false ts).2) := by
  obtain ⟨hopens, hcloses⟩ := awaited_of_brackets h stack operand
  have hcloses' := (awaited_of_brackets h stack false).2
  have hstack : (c.value :: stack).head? ≠ some ">" := by simp [h.closer_ne]
  rw [skipBalanced_cons hopens, hinner.skipBalanced (fun _ => hp) hstack
    (fun _ => List.cons_ne_nil _ _)
    h.closer_not_less, skipBalanced_cons hcloses', h.expectsOperand.2]

/-- Whether type arguments are passed over does not depend on what stands behind the tokens. -/
def TypesSettled (us : List Token) : Prop :=
  (∃ left, skipTypeArguments 0 us = some left) ∨ ∀ ts, skipTypeArguments 0 (us ++ ts) = none

namespace Versions

/-- Braces around the passage, and the tokens in front of them and behind them. -/
structure Block (v : Versions) where
  /-- The tokens in front of the block. -/
  ahead : List Token
  /-- The opening brace. -/
  opener : Token
  /-- The tokens between the braces, in the first text. -/
  inner : List Token
  /-- The tokens between the braces, in the second text. -/
  inner' : List Token
  /-- The closing brace, at its offset in the text behind the passage. -/
  closer : Token
  /-- The tokens behind the block, at their offsets in the text behind the passage. -/
  behind : List Token
  stops_le : ∀ t ∈ ahead ++ [opener], v.Ahead t
  sealed_behind : Sealed behind
  isPunct_opener : opener.isPunct "\x7b" = true
  isPunct_closer : closer.isPunct "\x7d" = true
  balanced_inner : Balanced .items .operand inner
  balanced_inner' : Balanced .items .operand inner'
  /-- No expression is read at the opening brace. -/
  not_leads : ∀ t ∈ ahead.getLast?, t.kind = .punct → t.value ∉ leadingMarks
  /-- No type arguments go on into the block. -/
  typesSettled : ∀ us, us <:+ ahead → nextIs us "<" = true → TypesSettled us

namespace Block

variable {v : Versions} (b : v.Block)

/-- The tokens from the block on, in the first text. -/
def before : List Token := b.opener :: (b.inner ++ v.inBefore (b.closer :: b.behind))

/-- The tokens from the block on, in the second text. -/
def after : List Token := b.opener :: (b.inner' ++ v.inAfter (b.closer :: b.behind))

/-- The lists begin with the same token in front of the block or with its brace, or behind it. -/
inductive Near : List Token → List Token → Prop
  /-- In front of the block. -/
  | ahead {us : List Token} (h : us <:+ b.ahead) : Near (us ++ b.before) (us ++ b.after)
  /-- Behind it. -/
  | behind {ts ts' : List Token} (h : v.Moved b.behind ts ts') : Near ts ts'

variable {b}

theorem kind_opener : b.opener.kind = .punct := (isPunct_eq_true.1 b.isPunct_opener).1

theorem value_opener : b.opener.value = "\x7b" := (isPunct_eq_true.1 b.isPunct_opener).2

theorem isPunct_opener_of_ne {mark : Text} (h : mark ≠ "\x7b") : b.opener.isPunct mark = false :=
  Bool.eq_false_iff.2 fun hp => h ((isPunct_eq_true.1 hp).2.symm.trans b.value_opener)

theorem Near.head (h : b.Near ts ts') :
    ∃ t rest t' rest', ts = t :: rest ∧ ts' = t' :: rest' ∧ v.Twins t t' := by
  cases h with
  | @ahead us hus =>
    cases us with
    | nil => exact ⟨_, _, _, _, rfl, rfl, .ahead (b.stops_le _ (by simp))⟩
    | cons u us =>
      exact ⟨_, _, _, _, rfl, rfl,
        .ahead (b.stops_le _ (List.mem_append_left _ (hus.subset List.mem_cons_self)))⟩
  | behind hmoved =>
    obtain ⟨t, rest, t', rest', rfl, rfl, hshifted⟩ := hmoved.head
    exact ⟨_, _, _, _, rfl, rfl, .behind hshifted⟩

theorem Near.twins (h : b.Near (t :: rest) (t' :: rest')) : v.Twins t t' := by
  obtain ⟨_, _, _, _, h₁, h₂, htwins⟩ := h.head
  obtain ⟨rfl, -⟩ := List.cons.inj h₁
  obtain ⟨rfl, -⟩ := List.cons.inj h₂
  exact htwins

theorem Near.nextKind_eq (h : b.Near ts ts') (kind : TokenKind) :
    nextKind ts' kind = nextKind ts kind := by
  obtain ⟨t, rest, t', rest', rfl, rfl, htwins⟩ := h.head
  have hkind : t.kind = t'.kind := congrArg Prod.fst htwins.lexeme_eq
  simp [nextKind, hkind]

/-- The lists begin with the brace of the block, or stand in front of it or behind it. -/
theorem Near.cases (h : b.Near (t :: rest) (t' :: rest')) :
    (t = b.opener ∧ rest = b.inner ++ v.inBefore (b.closer :: b.behind)) ∨
      (∃ us, t :: us <:+ b.ahead ∧ rest = us ++ b.before ∧ rest' = us ++ b.after) ∨
        v.Moved b.behind (t :: rest) (t' :: rest') := by
  generalize hl : t :: rest = l at h
  generalize hl' : t' :: rest' = l' at h
  cases h with
  | @ahead us hus =>
    cases us with
    | nil => exact .inl (List.cons.inj hl)
    | cons u us =>
      obtain ⟨rfl, rfl⟩ := List.cons.inj hl
      exact .inr (.inl ⟨us, hus, rfl, (List.cons.inj hl').2⟩)
  | behind hmoved =>
    subst hl
    subst hl'
    exact .inr (.inr hmoved)

theorem Near.pass (h : b.Near (t :: rest) (t' :: rest')) (hkind : t.kind ≠ .eof)
    (hopener : ¬ (t = b.opener ∧ rest = b.inner ++ v.inBefore (b.closer :: b.behind))) :
    b.Near rest rest' := by
  rcases h.cases with hbrace | ⟨us, hus, rfl, rfl⟩ | hmoved
  · exact absurd hbrace hopener
  · exact .ahead ((List.suffix_cons t us).trans hus)
  · exact .behind (hmoved.pass b.sealed_behind hkind)

theorem Near.pass_of_isPunct {mark : Text} (h : b.Near (t :: rest) (t' :: rest'))
    (ht : t.isPunct mark = true) (hmark : mark ≠ "\x7b") : b.Near rest rest' := by
  obtain ⟨hkind, hvalue⟩ := isPunct_eq_true.1 ht
  refine h.pass (by simp [hkind]) ?_
  rintro ⟨rfl, -⟩
  exact hmark (hvalue.symm.trans b.value_opener)

theorem Near.pass_of_point (h : b.Near (t :: rest) (t' :: rest'))
    (ht : t.isPunct "." = true ∨ t.isPunct "?." = true) : b.Near rest rest' := by
  rcases ht with ht | ht
  · exact h.pass_of_isPunct ht (by decide)
  · exact h.pass_of_isPunct ht (by decide)

/-- The block is passed over, and what stands behind it is passed over from there. -/
theorem skipBalanced_block (stack : List Text) (operand : Bool) (f : Nat → Nat) {inner : List Token}
    (h : Balanced .items .operand inner) :
    skipBalanced stack operand (b.opener ::
        (inner ++ (b.closer :: b.behind).map (Token.relocated f))) =
      (b.opener :: (inner ++
          (b.closer :: (skipBalanced stack false b.behind).1).map (Token.relocated f)),
        (skipBalanced stack false b.behind).2.map (Token.relocated f)) := by
  have hbrackets : Brackets b.opener (b.closer.relocated f) :=
    .braces b.isPunct_opener b.isPunct_closer
  rw [List.map_cons, skipBalanced_brackets hbrackets h nofun, skipBalanced_relocated]
  rfl

/-- **The block is passed over** in both texts, up to the same end. -/
theorem Near.skips (h : b.Near ts ts') (stack : List Text) (operand : Bool) :
    Option.Rel v.Twins (skipBalanced stack operand ts).1.getLast?
        (skipBalanced stack operand ts').1.getLast? ∧
      b.Near (skipBalanced stack operand ts).2 (skipBalanced stack operand ts').2 := by
  cases h with
  | behind hmoved =>
    obtain ⟨hlast, hrest⟩ := hmoved.skips b.sealed_behind stack operand
    refine ⟨?_, .behind hrest⟩
    generalize (skipBalanced stack operand ts).1.getLast? = o at hlast
    generalize (skipBalanced stack operand ts').1.getLast? = o' at hlast
    cases hlast with
    | none => exact .none
    | some hshifted => exact .some (.behind hshifted)
  | @ahead us hus =>
    rcases skipBalanced_append_cases stack operand us with
      ⟨skipped, left, -, rfl, hskip⟩ | ⟨stack', operand', hskip⟩
    · rw [hskip, hskip]
      refine ⟨?_, .ahead ((List.suffix_append _ _).trans hus)⟩
      cases hlast : skipped.getLast? with
      | none => exact .none
      | some u =>
        have hmem : u ∈ b.ahead :=
          hus.subset (List.mem_append_left _ (List.mem_of_mem_getLast? hlast))
        exact .some (.ahead (b.stops_le u (List.mem_append_left _ hmem)))
    · -- the block is reached with the same brackets open in both lists, and left with them
      rw [hskip, hskip, before, after, inBefore, inAfter, skipBalanced_block _ _ _ b.balanced_inner,
        skipBalanced_block _ _ _ b.balanced_inner']
      constructor
      · have hlast : ∀ (inner : List Token) (f : Nat → Nat), (us ++ b.opener :: (inner ++
            (b.closer :: (skipBalanced stack' false b.behind).1).map
            (Token.relocated f))).getLast? =
              (b.closer :: (skipBalanced stack' false b.behind).1).getLast?.map
                (Token.relocated f) := fun inner f => by
          rw [← List.getLast?_map, List.append_cons, ← List.append_assoc,
            List.getLast?_append_of_ne_nil _ (by simp)]
        rw [hlast, hlast]
        cases (b.closer :: (skipBalanced stack' false b.behind).1).getLast? with
        | none => exact .none
        | some u => exact .some (.behind ⟨u, rfl, rfl⟩)
      · exact .behind ⟨_, b.sealed_behind.skipBalanced_ne_nil _ _,
          ⟨_, skipBalanced_append stack' false b.behind⟩, rfl, rfl⟩

theorem Near.types (h : b.Near ts ts') (hless : nextIs ts "<" = true) :
    Option.Rel b.Near (skipTypeArguments 0 ts) (skipTypeArguments 0 ts') := by
  cases h with
  | behind hmoved =>
    have htypes := hmoved.types 0
    generalize skipTypeArguments 0 ts = o at htypes
    generalize skipTypeArguments 0 ts' = o' at htypes
    cases htypes with
    | none => exact .none
    | some hrest => exact .some (.behind hrest)
  | @ahead us hus =>
    have hfirst : nextIs us "<" = true := by
      cases us with
      | nil =>
        have hopener : b.opener.isPunct "<" = false := isPunct_opener_of_ne (by decide)
        cases hopener.symm.trans hless
      | cons u us => exact hless
    rcases b.typesSettled us hus hfirst with ⟨left, hleft⟩ | hnone
    · rw [skipTypeArguments_append hleft, skipTypeArguments_append hleft]
      exact .some (.ahead ((skipTypeArguments_suffix hleft).trans hus))
    · rw [hnone, hnone]
      exact .none

theorem length_inBefore (us : List Token) : (v.inBefore us).length = us.length := List.length_map _

/-- Behind a leading mark no block begins. -/
theorem Near.leads (h : b.Near (t :: rest) (t' :: rest')) (hkind : t.kind = .punct)
    (hvalue : t.value ∈ leadingMarks) : rest ≠ b.before := by
  rintro rfl
  rcases h.cases with ⟨rfl, -⟩ | ⟨us, hus, hrest, -⟩ | ⟨us, -, hus, hts, -⟩
  · rw [b.value_opener] at hvalue
    exact absurd hvalue (by decide)
  · -- the mark is the last token in front of the block
    have hnil : us = [] := by
      have hlength := congrArg List.length hrest
      rw [List.length_append] at hlength
      exact List.length_eq_zero_iff.1 (by omega)
    rw [hnil] at hus
    obtain ⟨ws, hws⟩ := hus
    exact b.not_leads t (by simp [← hws]) hkind hvalue
  · have hlength := congrArg List.length hts
    have hle := hus.length_le
    simp only [before, List.length_cons, List.length_append, length_inBefore] at hlength
    omega

variable (b) in
/-- **Around the block everything is read as before**, up to texts that the passage is a part of. -/
def around {hides : Span → Prop} (hhides : ∀ s, v.Encloses s → hides s) :
    Mirror v.before v.after hides where
  twin := v.Twins
  near _ := b.Near
  begins ts := ts ≠ b.before
  lexeme h := h.lexeme_eq
  slices ht hu := (ht.slices hu).imp_right (hhides _)
  head h := h.head
  pass h hkind hbracket := by
    refine h.pass hkind ?_
    rintro ⟨rfl, -⟩
    exact hbracket ⟨b.kind_opener, .inl (by rw [b.value_opener]; rfl)⟩
  point h ht := (h.pass_of_point ht).nextKind_eq _
  access h ht hu := by
    have hrest := h.pass_of_point ht
    refine ⟨hrest.twins, hrest.pass (by simp [hu]) ?_⟩
    rintro ⟨rfl, -⟩
    cases b.kind_opener.symm.trans hu
  parenthesis h ht := h.pass_of_isPunct ht (by decide)
  square h ht := h.pass_of_isPunct ht (by decide)
  brace h ht hbegins := by
    refine h.pass (by simp [(isPunct_eq_true.1 ht).1]) ?_
    rintro ⟨rfl, rfl⟩
    exact hbegins rfl
  closes h hkind ht := by
    refine h.pass (by simp [hkind]) ?_
    rintro ⟨rfl, -⟩
    rw [b.value_opener] at ht
    exact absurd ht (by decide)
  leads h hkind hvalue := h.leads hkind hvalue
  skips h := h.skips [] true
  types h hless := h.types hless

end Block

end Versions

end Expr

end Scaffold
