import Scaffold.Proofs.Expr.Mirror
import Scaffold.Proofs.Expr.Placement
import Scaffold.Proofs.Expr.Provenance

/-!
# Passages that the readers do not look at

Two texts that differ in one passage only (`Versions`) have the same tokens in front of the passage
and, at other offsets, behind it (`Versions.Twins`).

* What stands behind the passage is read as before (`Versions.behind`).
* So is what ends in front of it (`Finished`, `Versions.ahead`).
-/

namespace Scaffold

theorem Text.slice_append_left {t : Text} {y : Nat} (hy : y ≤ t.length) (more : Text) (x : Nat) :
    (t ++ more).slice x y = t.slice x y := by
  rcases Nat.le_total x t.length with hx | hx
  · rw [Text.slice, Text.slice, List.drop_append_of_le_length hx,
      List.take_append_of_le_length (by rw [List.length_drop]; omega)]
  · rw [Text.slice, Text.slice, Nat.sub_eq_zero_of_le (Nat.le_trans hy hx), List.take_zero,
      List.take_zero]

theorem Text.slice_append_right (t more : Text) (x y : Nat) :
    (t ++ more).slice (t.length + x) (t.length + y) = more.slice x y := by
  rw [Text.slice, Text.slice, List.drop_append, Nat.add_sub_cancel_left,
    List.drop_eq_nil_of_le (Nat.le_add_right _ _), List.nil_append, Nat.add_sub_add_left]

theorem Text.slice_eq_nil (t : Text) {x y : Nat} (h : y ≤ x) : t.slice x y = [] := by
  rw [Text.slice, Nat.sub_eq_zero_of_le h, List.take_zero]

namespace Expr

variable {t t' u u' : Token} {ts ts' us vs rest rest' : List Token} {k : Nat}

/-! ### Tokens that move -/

section Moved

variable {f : Nat → Nat}

/-- What is passed over moves with the tokens. -/
theorem skipBalanced_relocated (stack : List Text) (operand : Bool) (ts : List Token) :
    skipBalanced stack operand (ts.map (Token.relocated f)) =
      ((skipBalanced stack operand ts).1.map (Token.relocated f),
        (skipBalanced stack operand ts).2.map (Token.relocated f)) := by
  induction ts generalizing stack operand with
  | nil => rfl
  | cons t ts ih =>
    have hawaited : awaited stack operand (t.relocated f) = awaited stack operand t := rfl
    have hexpects : expectsOperand (t.relocated f) = expectsOperand t := rfl
    rw [List.map_cons, skipBalanced, skipBalanced, hawaited]
    cases awaited stack operand t with
    | none => rfl
    | some stack' => simp only [hexpects, ih, List.map_cons]

theorem nextIs_relocated (ts : List Token) (mark : Text) :
    nextIs (ts.map (Token.relocated f)) mark = nextIs ts mark := by
  cases ts <;> rfl

theorem nextKind_relocated (ts : List Token) (kind : TokenKind) :
    nextKind (ts.map (Token.relocated f)) kind = nextKind ts kind := by
  cases ts <;> rfl

/-- So do type arguments. -/
theorem skipTypeArguments_relocated (depth : Int) (ts : List Token) :
    skipTypeArguments depth (ts.map (Token.relocated f)) =
      (skipTypeArguments depth ts).map (List.map (Token.relocated f)) := by
  induction ts generalizing depth with
  | nil => rfl
  | cons t ts ih =>
    rw [List.map_cons, skipTypeArguments, skipTypeArguments]
    simp only [Token.kind_relocated, Token.isPunct_relocated, nextIs_relocated, ih]
    split_ifs <;> rfl

end Moved

/-- The end of a source is the last of the tokens, and nowhere else among them. -/
def Sealed (ts : List Token) : Prop :=
  ∃ us e, ts = us ++ [e] ∧ e.kind = .eof ∧ ∀ u ∈ us, u.kind ≠ .eof

theorem sealed_of_tokenize {source : Text} (h : tokenize source = .ok ts) : Sealed ts := by
  obtain ⟨tokens, rfl, haccounts⟩ := (covers_of_tokensFrom h).accounts [] rfl
  exact ⟨tokens, _, rfl, rfl, fun t ht => (haccounts.written t ht).kind_ne_eof⟩

theorem Sealed.suffix (h : Sealed ts) (hus : us <:+ ts) (hne : us ≠ []) : Sealed us := by
  obtain ⟨vs, e, rfl, he, hvs⟩ := h
  rcases List.suffix_concat_iff.1 hus with rfl | ⟨ws, rfl, hws⟩
  · exact absurd rfl hne
  · exact ⟨ws, e, rfl, he, fun u hu => hvs u (hws.subset hu)⟩

theorem Sealed.tail_ne_nil (h : Sealed (t :: rest)) (ht : t.kind ≠ .eof) : rest ≠ [] := by
  rintro rfl
  obtain ⟨us, e, heq, he, -⟩ := h
  cases us with
  | nil => exact ht ((List.cons.inj heq).1 ▸ he)
  | cons u us => simp at heq

/-- The end is not passed over. -/
theorem Sealed.skipBalanced_ne_nil (h : Sealed ts) (stack : List Text) (operand : Bool) :
    (skipBalanced stack operand ts).2 ≠ [] := by
  induction ts generalizing stack operand with
  | nil => obtain ⟨us, e, heq, -⟩ := h; simp at heq
  | cons t ts ih =>
    rw [skipBalanced]
    cases hawaited : awaited stack operand t with
    | none => exact List.cons_ne_nil _ _
    | some stack' =>
      have hkind : t.kind ≠ .eof := fun hk => by
        rw [awaited.eq_def, if_pos hk] at hawaited
        cases hawaited
      have hne := h.tail_ne_nil hkind
      exact ih (h.suffix (List.suffix_cons t ts) hne) _ _

theorem skipTypeArguments_ne_nil {depth : Int} (h : skipTypeArguments depth ts = some rest) :
    rest ≠ [] := by
  rintro rfl
  fun_induction skipTypeArguments depth ts with
  | case4 ts _ _ _ _ hnext =>
    obtain rfl := Option.some.inj h
    cases hnext
  | case1 | case2 | case5 | case7 => cases h
  | case3 _ _ _ _ _ ih | case6 _ _ _ _ _ _ _ ih | case8 _ _ _ _ _ _ _ ih => exact ih h

/-! ### Two versions of a text -/

/-- Two texts that differ in one passage only. -/
structure Versions where
  /-- The text in front of the passage. -/
  front : Text
  /-- The passage in the first text. -/
  old : Text
  /-- The passage in the second text. -/
  new : Text
  /-- The text behind the passage. -/
  back : Text

namespace Versions

variable (v : Versions)

/-- The first text. -/
def before : Text := v.front ++ v.old ++ v.back

/-- The second text. -/
def after : Text := v.front ++ v.new ++ v.back

/-- Tokens of the text behind the passage, as they stand in the first text. -/
def inBefore (us : List Token) : List Token :=
  us.map (Token.relocated ((v.front ++ v.old).length + ·))

/-- Tokens of the text behind the passage, as they stand in the second text. -/
def inAfter (us : List Token) : List Token :=
  us.map (Token.relocated ((v.front ++ v.new).length + ·))

/-- The passage lies in the span. -/
def Encloses (s : Span) : Prop :=
  s.start ≤ v.front.length ∧ (v.front ++ v.old).length ≤ s.stop

/-- The token stands in front of the passage. -/
def Ahead (t : Token) : Prop := t.start ≤ v.front.length ∧ t.stop ≤ v.front.length

/-- The token stands behind the passage in both texts. -/
def Shifted (t t' : Token) : Prop := ∃ u : Token,
  t = u.relocated ((v.front ++ v.old).length + ·) ∧ t' = u.relocated ((v.front ++ v.new).length + ·)

/-- The token stands in both texts. -/
inductive Twins : Token → Token → Prop
  /-- In front of the passage, at the same offsets. -/
  | ahead {t : Token} (h : v.Ahead t) : Twins t t
  /-- Behind it. -/
  | behind {t t' : Token} (h : v.Shifted t t') : Twins t t'

variable {v}

theorem Shifted.lexeme_eq (h : v.Shifted t t') : t.lexeme = t'.lexeme := by
  obtain ⟨u, rfl, rfl⟩ := h
  rfl

theorem Twins.lexeme_eq (h : v.Twins t t') : t.lexeme = t'.lexeme := by
  cases h with
  | ahead => rfl
  | behind h => exact h.lexeme_eq

/-- In front of the passage nothing changes. -/
theorem slice_ahead (x : Nat) {y : Nat} (hy : y ≤ v.front.length) :
    v.before.slice x y = v.after.slice x y := by
  rw [before, after, List.append_assoc, List.append_assoc, Text.slice_append_left hy,
    Text.slice_append_left hy]

/-- Behind it the same text stands at other offsets. -/
theorem slice_behind (x y : Nat) :
    v.before.slice ((v.front ++ v.old).length + x) ((v.front ++ v.old).length + y) =
      v.after.slice ((v.front ++ v.new).length + x) ((v.front ++ v.new).length + y) := by
  rw [before, after, Text.slice_append_right, Text.slice_append_right]

theorem Shifted.slices (ht : v.Shifted t t') (hu : v.Shifted u u') :
    v.before.slice t.start u.stop = v.after.slice t'.start u'.stop := by
  obtain ⟨t, rfl, rfl⟩ := ht
  obtain ⟨u, rfl, rfl⟩ := hu
  exact slice_behind _ _

/-- The same text stands from twins to twins, unless the passage lies between them. -/
theorem Twins.slices (ht : v.Twins t t') (hu : v.Twins u u') :
    v.before.slice t.start u.stop = v.after.slice t'.start u'.stop ∨
      v.Encloses ⟨t.start, u.stop⟩ := by
  cases ht with
  | ahead ht =>
    cases hu with
    | ahead hu => exact .inl (slice_ahead _ hu.2)
    | behind hu =>
      obtain ⟨w, rfl, rfl⟩ := hu
      exact .inr ⟨ht.1, Nat.le_add_right _ _⟩
  | behind ht =>
    cases hu with
    | ahead hu =>
      -- no text stands between them
      obtain ⟨w, rfl, rfl⟩ := ht
      have hle : ∀ more : Text, u.stop ≤ (v.front ++ more).length + w.start := fun more => by
        have := hu.2
        rw [List.length_append]
        omega
      exact .inl ((Text.slice_eq_nil _ (hle v.old)).trans (Text.slice_eq_nil _ (hle v.new)).symm)
    | behind hu => exact .inl (ht.slices hu)

/-! ### What stands behind the passage -/

variable (v) in
/-- The lists are an end of `tokens`, the tokens behind the passage, in the two texts. -/
def Moved (tokens ts ts' : List Token) : Prop :=
  ∃ us, us ≠ [] ∧ us <:+ tokens ∧ ts = v.inBefore us ∧ ts' = v.inAfter us

namespace Moved

variable {tokens : List Token}

theorem head (h : v.Moved tokens ts ts') :
    ∃ t rest t' rest', ts = t :: rest ∧ ts' = t' :: rest' ∧ v.Shifted t t' := by
  obtain ⟨us, hne, -, rfl, rfl⟩ := h
  obtain ⟨u, us, rfl⟩ := List.exists_cons_of_ne_nil hne
  exact ⟨_, _, _, _, rfl, rfl, u, rfl, rfl⟩

theorem shifted (h : v.Moved tokens (t :: rest) (t' :: rest')) : v.Shifted t t' := by
  obtain ⟨_, _, _, _, h₁, h₂, hshifted⟩ := h.head
  obtain ⟨rfl, -⟩ := List.cons.inj h₁
  obtain ⟨rfl, -⟩ := List.cons.inj h₂
  exact hshifted

theorem pass (hsealed : Sealed tokens) (h : v.Moved tokens (t :: rest) (t' :: rest'))
    (ht : t.kind ≠ .eof) : v.Moved tokens rest rest' := by
  obtain ⟨us, hne, hus, hts, hts'⟩ := h
  obtain ⟨u, us, rfl⟩ := List.exists_cons_of_ne_nil hne
  obtain ⟨rfl, rfl⟩ := List.cons.inj hts
  obtain ⟨-, rfl⟩ := List.cons.inj hts'
  exact ⟨us, (hsealed.suffix hus hne).tail_ne_nil ht, (List.suffix_cons u us).trans hus, rfl, rfl⟩

theorem pass_of_punct (hsealed : Sealed tokens) (h : v.Moved tokens (t :: rest) (t' :: rest'))
    (ht : t.kind = .punct) : v.Moved tokens rest rest' :=
  h.pass hsealed (by rw [ht]; nofun)

theorem tail {mark : Text} (hsealed : Sealed tokens) (h : v.Moved tokens ts ts')
    (hmark : nextIs ts mark = true) : v.Moved tokens ts.tail ts'.tail := by
  obtain ⟨t, rest, t', rest', rfl, rfl, -⟩ := h.head
  exact h.pass_of_punct hsealed (isPunct_eq_true.1 (show t.isPunct mark = true from hmark)).1

/-- A name behind a point, or none. -/
theorem point (hsealed : Sealed tokens) (h : v.Moved tokens (t :: rest) (t' :: rest'))
    (ht : t.isPunct "." = true ∨ t.isPunct "?." = true) : v.Moved tokens rest rest' :=
  h.pass_of_punct hsealed (ht.elim (fun h => (isPunct_eq_true.1 h).1)
    fun h => (isPunct_eq_true.1 h).1)

theorem nextKind_eq (h : v.Moved tokens ts ts') (kind : TokenKind) :
    nextKind ts' kind = nextKind ts kind := by
  obtain ⟨us, -, -, rfl, rfl⟩ := h
  rw [inBefore, inAfter, nextKind_relocated, nextKind_relocated]

theorem skips (hsealed : Sealed tokens) (h : v.Moved tokens ts ts') (stack : List Text)
    (operand : Bool) : Option.Rel v.Shifted (skipBalanced stack operand ts).1.getLast?
        (skipBalanced stack operand ts').1.getLast? ∧
      v.Moved tokens (skipBalanced stack operand ts).2 (skipBalanced stack operand ts').2 := by
  obtain ⟨us, hne, hus, rfl, rfl⟩ := h
  rw [inBefore, inAfter, skipBalanced_relocated, skipBalanced_relocated]
  constructor
  · rw [List.getLast?_map, List.getLast?_map]
    cases (skipBalanced stack operand us).1.getLast? with
    | none => exact .none
    | some u => exact .some ⟨u, rfl, rfl⟩
  · exact ⟨_, (hsealed.suffix hus hne).skipBalanced_ne_nil _ _,
      (List.IsSuffix.trans ⟨_, skipBalanced_append stack operand us⟩ hus), rfl, rfl⟩

theorem types (h : v.Moved tokens ts ts') (depth : Int) :
    Option.Rel (v.Moved tokens) (skipTypeArguments depth ts) (skipTypeArguments depth ts') := by
  obtain ⟨us, hne, hus, rfl, rfl⟩ := h
  rw [inBefore, inAfter, skipTypeArguments_relocated, skipTypeArguments_relocated]
  cases hafter : skipTypeArguments depth us with
  | none => exact .none
  | some after => exact .some ⟨after, skipTypeArguments_ne_nil hafter,
      (skipTypeArguments_suffix hafter).trans hus, rfl, rfl⟩

end Moved

variable (v) in
/-- **Behind the passage everything is read as before.** -/
def behind (hides : Span → Prop) {tokens : List Token} (hsealed : Sealed tokens) :
    Mirror v.before v.after hides where
  twin := v.Shifted
  near _ := v.Moved tokens
  begins _ := True
  lexeme h := h.lexeme_eq
  slices ht hu := .inl (ht.slices hu)
  head h := h.head
  pass h ht _ := h.pass hsealed ht
  point h ht := (h.point hsealed ht).nextKind_eq _
  access h ht hu := by
    have hrest := h.point hsealed ht
    exact ⟨hrest.shifted, hrest.pass hsealed (by rw [hu]; nofun)⟩
  parenthesis h ht := h.pass_of_punct hsealed (isPunct_eq_true.1 ht).1
  square h ht := h.pass_of_punct hsealed (isPunct_eq_true.1 ht).1
  brace h ht _ := h.pass_of_punct hsealed (isPunct_eq_true.1 ht).1
  closes h ht _ := h.pass_of_punct hsealed ht
  leads _ _ _ := trivial
  skips h := h.skips hsealed [] true
  types h _ := h.types 0

end Versions

/-! ### What ends in front of the passage -/

/-- The closing brackets that are awaited before the tokens, the nearest first; nothing if their
brackets do not match. -/
def pending : List Token → Option (List Text)
  | [] => some []
  | t :: ts =>
    match pending ts with
    | none => none
    | some closers =>
      if t.kind = .punct then
        match closerOf? t.value, closers with
        | some c, c' :: closers => if c = c' then some closers else none
        | some _, [] => none
        | none, closers => some (if isCloser t.value = true then t.value :: closers else closers)
      else some closers

theorem pending_cons_of_not_isBracket (ht : ¬ IsBracket t) (ts : List Token) :
    pending (t :: ts) = pending ts := by
  rw [pending]
  cases pending ts with
  | none => rfl
  | some closers =>
    by_cases hkind : t.kind = .punct
    · have hopener : closerOf? t.value = none := Option.not_isSome_iff_eq_none.1 fun h =>
        ht ⟨hkind, .inl h⟩
      have hcloser : ¬ isCloser t.value = true := fun h => ht ⟨hkind, .inr h⟩
      simp [hkind, hopener, hcloser]
    · simp [hkind]

theorem pending_of_opener {c : Text} {closers : List Text} (hkind : t.kind = .punct)
    (ht : closerOf? t.value = some c) (h : pending (t :: ts) = some closers) :
    pending ts = some (c :: closers) := by
  rw [pending] at h
  cases hts : pending ts with
  | none => simp [hts] at h
  | some all =>
    cases all with
    | nil => simp [hts, hkind, ht] at h
    | cons c' all =>
      simp only [hts, hkind, ht, if_true] at h
      split_ifs at h with heq
      rw [heq, Option.some.inj h]

theorem closerOf?_of_isCloser {value : Text} (h : isCloser value = true) :
    closerOf? value = none := by
  have hvalue : value = ")" ∨ value = "]" ∨ value = "\x7d" := by
    simpa [isCloser, or_assoc] using h
  rcases hvalue with rfl | rfl | rfl <;> decide

theorem pending_of_closer {closers : List Text} (hkind : t.kind = .punct)
    (ht : isCloser t.value = true) (h : pending (t :: ts) = some closers) :
    ∃ more, closers = t.value :: more ∧ pending ts = some more := by
  rw [pending] at h
  cases hts : pending ts with
  | none => simp [hts] at h
  | some more =>
    simp only [hts, hkind, closerOf?_of_isCloser ht, ht, if_true, Option.some.injEq] at h
    exact ⟨more, h.symm, rfl⟩

theorem skipBalanced_append_of_rest {stack : List Text} {operand : Bool}
    (h : skipBalanced stack operand ts = (us, rest)) (hrest : rest ≠ []) (vs : List Token) :
    skipBalanced stack operand (ts ++ vs) = (us, rest ++ vs) := by
  induction ts generalizing stack operand us with
  | nil =>
    rw [skipBalanced] at h
    exact absurd (Prod.mk.inj h).2.symm hrest
  | cons t ts ih =>
    rw [skipBalanced] at h
    rw [List.cons_append, skipBalanced]
    cases hawaited : awaited stack operand t with
    | none =>
      rw [hawaited] at h
      obtain ⟨rfl, rfl⟩ := Prod.mk.inj h
      rfl
    | some stack' =>
      simp only [hawaited] at h
      obtain ⟨hus, hleft⟩ := Prod.mk.inj h
      simp only [ih (Prod.ext rfl hleft), hus]

theorem skipTypeArguments_append {depth : Int} (h : skipTypeArguments depth ts = some rest)
    (vs : List Token) : skipTypeArguments depth (ts ++ vs) = some (rest ++ vs) := by
  fun_induction skipTypeArguments depth ts with
  | case1 | case2 | case5 | case7 => cases h
  | case3 _ _ _ hend hopens ih =>
    rw [List.cons_append, skipTypeArguments, if_neg hend, if_pos hopens, ih h]
  | case4 t ts hend hopens hcloses hnext =>
    obtain rfl := Option.some.inj h
    obtain ⟨u, us, rfl⟩ : ∃ u us, ts = u :: us := by
      cases ts with
      | nil => cases hnext
      | cons u us => exact ⟨u, us, rfl⟩
    rw [List.cons_append, skipTypeArguments, if_neg hend, if_neg hopens, if_pos hcloses, if_pos rfl]
    exact if_pos hnext
  | case6 _ _ _ hend hopens hcloses hdepth ih =>
    rw [List.cons_append, skipTypeArguments, if_neg hend, if_neg hopens, if_pos hcloses,
      if_neg hdepth, ih h]
  | case8 _ _ _ hend hopens hcloses harrow ih =>
    rw [List.cons_append, skipTypeArguments, if_neg hend, if_neg hopens, if_neg hcloses,
      if_neg harrow, ih h]

/-- The marks that a chain goes on with. -/
def linkMarks : List Text := [".", "?.", "<", "("]

/-- Tokens that are read up to the token `stop` behind them at most: their brackets are nested, and
neither an expression between them nor type arguments go on behind them. -/
structure Finished (us : List Token) (stop : Token) (rest : List Token) : Prop where
  /-- The brackets are nested. -/
  nested : pending us = some []
  /-- No chain goes on at `stop`. -/
  ends : stop.kind = .punct → stop.value ∉ linkMarks
  /-- No point stands before `stop`. -/
  point : ∀ t ∈ us.getLast?, t.isPunct "." = false ∧ t.isPunct "?." = false
  /-- An expression between brackets ends between the same brackets. -/
  skips : ∀ ts c closers, ts <:+ us → pending ts = some (c :: closers) →
    ∃ skipped left closers', ts = skipped ++ left ∧ skipBalanced [] true ts = (skipped, left) ∧
      pending left = some closers' ∧ closers'.length = closers.length + 1
  /-- So do type arguments, if there are any. -/
  types : ∀ ts, ts <:+ us → nextIs ts "<" = true →
    skipTypeArguments 0 (ts ++ stop :: rest) = none ∨ ∃ left, skipTypeArguments 0 ts = some left ∧
      (pending left).map List.length = (pending ts).map List.length

namespace Finished

variable {stop : Token}

/-- The lists are an end of `us` that `depth` brackets are open before, with two different
continuations behind it. -/
def Near (us : List Token) (stop : Token) (rest rest' : List Token) (depth : Nat)
    (ts ts' : List Token) : Prop :=
  ∃ vs closers, vs <:+ us ∧ pending vs = some closers ∧ closers.length = depth ∧
    ts = vs ++ stop :: rest ∧ ts' = vs ++ stop :: rest'

/-- Either the lists begin with a token of `us`, or with `stop` and no bracket is open. -/
theorem Near.cases {more more' : List Token}
    (h : Near us stop rest rest' k (t :: more) (t' :: more')) :
    t' = t ∧ ((∃ vs closers, t :: vs <:+ us ∧ pending (t :: vs) = some closers ∧
      closers.length = k ∧ more = vs ++ stop :: rest ∧ more' = vs ++ stop :: rest') ∨
        k = 0 ∧ t = stop) := by
  obtain ⟨vs, closers, hvs, hpending, hlength, hts, hts'⟩ := h
  cases vs with
  | nil =>
    obtain rfl : [] = closers := Option.some.inj hpending
    exact ⟨(List.cons.inj hts').1.trans (List.cons.inj hts).1.symm, .inr ⟨hlength.symm,
      (List.cons.inj hts).1⟩⟩
  | cons v vs =>
    obtain ⟨rfl, rfl⟩ := List.cons.inj hts
    obtain ⟨rfl, rfl⟩ := List.cons.inj hts'
    exact ⟨rfl, .inl ⟨vs, closers, hvs, hpending, hlength, rfl, rfl⟩⟩

/-- Between brackets the lists begin with a token of `us`. -/
theorem Near.inside {more more' : List Token}
    (h : Near us stop rest rest' (k + 1) (t :: more) (t' :: more')) :
    ∃ vs closers, vs <:+ us ∧ pending (t :: vs) = some closers ∧ closers.length = k + 1 ∧
      more = vs ++ stop :: rest ∧ more' = vs ++ stop :: rest' := by
  obtain ⟨-, ⟨vs, closers, hvs, hrest⟩ | ⟨hk, -⟩⟩ := h.cases
  · exact ⟨vs, closers, (List.suffix_cons t vs).trans hvs, hrest⟩
  · cases hk

theorem Near.opener {more more' : List Token} {c : Text} (hkind : t.kind = .punct)
    (ht : closerOf? t.value = some c)
    (h : Near us stop rest rest' (k + 1) (t :: more) (t' :: more')) :
    Near us stop rest rest' (k + 2) more more' := by
  obtain ⟨vs, closers, hvs, hpending, hlength, rfl, rfl⟩ := h.inside
  exact ⟨vs, _, hvs, pending_of_opener hkind ht hpending, congrArg Nat.succ hlength, rfl, rfl⟩

/-- A point stands before the last token of `us`, and no bracket is passed. -/
theorem Near.behind_point {more more' : List Token} (hfinished : Finished us stop rest)
    (h : Near us stop rest rest' k (t :: more) (t' :: more'))
    (ht : t.isPunct "." = true ∨ t.isPunct "?." = true) :
    ∃ u vs closers, u :: vs <:+ us ∧ pending (u :: vs) = some closers ∧ closers.length = k ∧
      more = u :: (vs ++ stop :: rest) ∧ more' = u :: (vs ++ stop :: rest') := by
  obtain ⟨hkind, hvalue⟩ : t.kind = .punct ∧ (t.value = "." ∨ t.value = "?.") := by
    rcases ht with ht | ht <;> obtain ⟨hk, hv⟩ := isPunct_eq_true.1 ht
    · exact ⟨hk, .inl hv⟩
    · exact ⟨hk, .inr hv⟩
  obtain ⟨-, ⟨vs, closers, hvs, hpending, hlength, rfl, rfl⟩ | ⟨-, rfl⟩⟩ := h.cases
  · have hbracket : ¬ IsBracket t := by
      rintro ⟨-, hb⟩
      rcases hvalue with hv | hv <;> rw [hv] at hb <;> exact absurd hb (by decide)
    rw [pending_cons_of_not_isBracket hbracket] at hpending
    cases vs with
    | nil =>
      have hlast : us.getLast? = some t := by
        obtain ⟨ws, rfl⟩ := hvs
        simp
      obtain ⟨h₁, h₂⟩ := hfinished.point t hlast
      rcases ht with ht | ht
      · rw [ht] at h₁
        cases h₁
      · rw [ht] at h₂
        cases h₂
    | cons u vs =>
      exact ⟨u, vs, closers, (List.suffix_cons t _).trans hvs, hpending, hlength, rfl, rfl⟩
  · refine absurd ?_ (hfinished.ends hkind)
    rcases hvalue with hv | hv <;> rw [hv] <;> decide

end Finished

/-! ### Tokens without `<` -/

theorem awaited_of_not_isBracket {stack : List Text} {operand : Bool} (heof : t.kind ≠ .eof)
    (ht : ¬ IsBracket t) (hless : t.isPunct "<" = false) (hstack : Text.ofString ">" ∉ stack) :
    awaited stack operand t = some stack ∨ stack = [] ∧ awaited stack operand t = none := by
  by_cases hkind : t.kind = .punct
  · have hopener : closerOf? t.value = none := Option.not_isSome_iff_eq_none.1 fun h =>
      ht ⟨hkind, .inl h⟩
    have hcloser : ¬ isCloser t.value = true := fun h => ht ⟨hkind, .inr h⟩
    have hopen : ¬ (t.value = "<" ∧ operand = true) := fun h => by
      rw [isPunct_eq_true.2 ⟨hkind, h.1⟩] at hless
      cases hless
    have hclose : ¬ (t.value = ">" ∧ stack.head? = some ">") := fun h =>
      hstack (List.mem_of_mem_head? h.2)
    unfold awaited
    rw [if_neg heof, if_pos hkind, if_neg hopen, if_neg hclose, hopener]
    simp only [if_neg hcloser]
    split
    · rename_i hends
      exact .inr ⟨hends.2, rfl⟩
    · exact .inl rfl
  · unfold awaited
    rw [if_neg heof, if_neg hkind]
    exact .inl rfl

theorem closerOf?_ne {value c : Text} (h : closerOf? value = some c) : c ≠ ">" := by
  unfold closerOf? at h
  split_ifs at h <;> rw [← Option.some.inj h] <;> decide

theorem awaited_of_opener {stack : List Text} {operand : Bool} {c : Text} (hkind : t.kind = .punct)
    (h : closerOf? t.value = some c) : awaited stack operand t = some (c :: stack) := by
  have heof : ¬ t.kind = .eof := by
    rw [hkind]
    nofun
  have hne : ∀ mark : Text, closerOf? mark = none → t.value ≠ mark := fun mark hmark hvalue => by
    rw [hvalue, hmark] at h
    cases h
  unfold awaited
  rw [if_neg heof, if_pos hkind, if_neg fun hl => hne "<" (by decide) hl.1,
    if_neg fun hl => hne ">" (by decide) hl.1, h]

theorem awaited_of_closer {stack : List Text} {operand : Bool} (hkind : t.kind = .punct)
    (h : isCloser t.value = true) : awaited (t.value :: stack) operand t = some stack ∧
      awaited [] operand t = none := by
  have hvalue : t.value = ")" ∨ t.value = "]" ∨ t.value = "\x7d" := by
    simpa [isCloser, or_assoc] using h
  unfold awaited
  rcases hvalue with hvalue | hvalue | hvalue <;>
    simp +decide [hkind, hvalue, closerOf?, isCloser]

/-- Without a `<`, what is passed over ends between the brackets that it begins between. -/
theorem exists_skipBalanced_of_pending {c : Text} {closers stack : List Text} {operand : Bool}
    (hplain : ∀ t ∈ ts, t.kind ≠ .eof ∧ t.isPunct "<" = false)
    (h : pending ts = some (stack ++ c :: closers)) (hstack : Text.ofString ">" ∉ stack) :
    ∃ skipped left, ts = skipped ++ left ∧ skipBalanced stack operand ts = (skipped, left) ∧
      pending left = some (c :: closers) := by
  induction ts generalizing stack operand with
  | nil =>
    rw [pending] at h
    simp at h
  | cons t ts ih =>
    obtain ⟨⟨heof, hless⟩, hts⟩ := List.forall_mem_cons.1 hplain
    have hpass : ∀ {stack' : List Text}, awaited stack operand t = some stack' →
        pending ts = some (stack' ++ c :: closers) → Text.ofString ">" ∉ stack' →
          ∃ skipped left, t :: ts = skipped ++ left ∧
            skipBalanced stack operand (t :: ts) = (skipped, left) ∧
              pending left = some (c :: closers) := by
      intro stack' hawaited hpending hstack'
      obtain ⟨skipped, left, rfl, hskip, hleft⟩ := ih hts hpending hstack'
      exact ⟨t :: skipped, left, rfl, by rw [skipBalanced_cons hawaited, hskip], hleft⟩
    have hends : awaited stack operand t = none → stack = [] →
        ∃ skipped left, t :: ts = skipped ++ left ∧
          skipBalanced stack operand (t :: ts) = (skipped, left) ∧
            pending left = some (c :: closers) := by
      rintro hawaited rfl
      exact ⟨[], t :: ts, rfl, by rw [skipBalanced, hawaited], h⟩
    by_cases hbracket : IsBracket t
    · obtain ⟨hkind, hopens | hcloses⟩ := hbracket
      · obtain ⟨c', hc'⟩ := Option.isSome_iff_exists.1 hopens
        refine hpass (awaited_of_opener hkind hc') (pending_of_opener hkind hc' h) ?_
        simp [hstack, (closerOf?_ne hc').symm]
      · obtain ⟨more, heq, hmore⟩ := pending_of_closer hkind hcloses h
        cases stack with
        | nil => exact hends (@awaited_of_closer t [] operand hkind hcloses).2 rfl
        | cons s stack =>
          obtain ⟨rfl, rfl⟩ := List.cons.inj heq
          exact hpass (awaited_of_closer hkind hcloses).1 hmore
            fun hmem => hstack (List.mem_cons_of_mem _ hmem)
    · rw [pending_cons_of_not_isBracket hbracket] at h
      rcases awaited_of_not_isBracket heof hbracket hless hstack with hawaited | ⟨rfl, hawaited⟩
      · exact hpass hawaited h hstack
      · rw [← pending_cons_of_not_isBracket hbracket] at h
        exact hends hawaited rfl

/-- Nested brackets without a `<` end where they end. -/
theorem finished_of_plain {stop : Token} (hnested : pending us = some [])
    (hplain : ∀ t ∈ us, t.kind ≠ .eof ∧ t.isPunct "<" = false)
    (hends : stop.kind = .punct → stop.value ∉ linkMarks)
    (hpoint : ∀ t ∈ us.getLast?, t.isPunct "." = false ∧ t.isPunct "?." = false)
    (rest : List Token) : Finished us stop rest where
  nested := hnested
  ends := hends
  point := hpoint
  skips ts c closers hts hpending := by
    obtain ⟨skipped, left, heq, hskip, hleft⟩ :=
      @exists_skipBalanced_of_pending ts c closers [] true
      (fun t ht => hplain t (hts.subset ht)) hpending (by simp)
    exact ⟨skipped, left, c :: closers, heq, hskip, hleft, rfl⟩
  types ts hts hless := by
    cases ts with
    | nil => cases hless
    | cons t ts =>
      have hnot := (hplain t (hts.subset List.mem_cons_self)).2
      cases hnot.symm.trans (show t.isPunct "<" = true from hless)

/-- **What ends in front of the passage is read as before**, whatever stands behind it. -/
def Versions.ahead (v : Versions) (hides : Span → Prop) {stop : Token}
    (hahead : ∀ t ∈ us ++ [stop], v.Ahead t) (h : Finished us stop rest)
    (h' : Finished us stop rest') : Mirror v.before v.after hides where
  twin t t' := t' = t ∧ v.Ahead t
  near := Finished.Near us stop rest rest'
  begins _ := True
  lexeme h := congrArg Token.lexeme h.1.symm
  slices := by
    rintro t _ u _ ⟨rfl, -⟩ ⟨rfl, hu⟩
    exact .inl (Versions.slice_ahead _ hu.2)
  head := by
    rintro k ts ts' ⟨vs, closers, hvs, -, -, rfl, rfl⟩
    cases vs with
    | nil => exact ⟨_, _, _, _, rfl, rfl, rfl, hahead stop (by simp)⟩
    | cons u vs =>
      exact ⟨_, _, _, _, rfl, rfl, rfl,
        hahead u (List.mem_append_left _ (hvs.subset List.mem_cons_self))⟩
  pass hnear _ hbracket := by
    obtain ⟨vs, closers, hvs, hpending, hlength, rfl, rfl⟩ := hnear.inside
    rw [pending_cons_of_not_isBracket hbracket] at hpending
    exact ⟨vs, closers, hvs, hpending, hlength, rfl, rfl⟩
  point hnear ht := by
    obtain ⟨u, vs, closers, -, -, -, rfl, rfl⟩ := hnear.behind_point h ht
    rfl
  access hnear ht hu := by
    obtain ⟨w, vs, closers, hvs, hpending, hlength, hmore, hmore'⟩ := hnear.behind_point h ht
    obtain ⟨rfl, rfl⟩ := List.cons.inj hmore
    obtain ⟨rfl, rfl⟩ := List.cons.inj hmore'
    have hbracket : ¬ IsBracket _ := Mirror.not_isBracket_of_kind (by rw [hu]; nofun)
    rw [pending_cons_of_not_isBracket hbracket] at hpending
    exact ⟨⟨rfl, hahead _ (List.mem_append_left _ (hvs.subset List.mem_cons_self))⟩, vs, closers,
      (List.suffix_cons _ vs).trans hvs, hpending, hlength, rfl, rfl⟩
  parenthesis hnear ht := by
    obtain ⟨hkind, hvalue⟩ := isPunct_eq_true.1 ht
    obtain ⟨-, ⟨vs, closers, hvs, hpending, hlength, rfl, rfl⟩ | ⟨-, rfl⟩⟩ := hnear.cases
    · exact ⟨vs, _, (List.suffix_cons _ vs).trans hvs,
        pending_of_opener hkind (by rw [hvalue]; rfl) hpending, congrArg Nat.succ hlength, rfl, rfl⟩
    · exact absurd (by rw [hvalue]; decide) (h.ends hkind)
  square hnear ht := by
    obtain ⟨hkind, hvalue⟩ := isPunct_eq_true.1 ht
    exact hnear.opener (c := "]") hkind (by rw [hvalue]; rfl)
  brace hnear ht _ := by
    obtain ⟨hkind, hvalue⟩ := isPunct_eq_true.1 ht
    exact hnear.opener (c := "\x7d") hkind (by rw [hvalue]; rfl)
  closes hnear hkind ht := by
    obtain ⟨vs, closers, hvs, hpending, hlength, rfl, rfl⟩ := hnear.inside
    obtain ⟨more, rfl, hmore⟩ := pending_of_closer hkind ht hpending
    exact ⟨vs, more, hvs, hmore, Nat.succ.inj hlength, rfl, rfl⟩
  leads _ _ _ := trivial
  skips := by
    rintro k ts ts' ⟨vs, closers, hvs, hpending, hlength, rfl, rfl⟩
    obtain ⟨c, closers, rfl⟩ := List.exists_cons_of_length_eq_add_one hlength
    obtain ⟨skipped, left, closers', rfl, hskip, hleft, hlength'⟩ :=
      h.skips vs c closers hvs hpending
    have hne : left ≠ [] := by
      rintro rfl
      obtain rfl : [] = closers' := Option.some.inj hleft
      cases hlength'
    rw [skipBalanced_append_of_rest hskip hne, skipBalanced_append_of_rest hskip hne]
    constructor
    · cases hlast : skipped.getLast? with
      | none => exact .none
      | some u => exact .some ⟨rfl, hahead u (List.mem_append_left _ (hvs.subset
          (List.mem_append_left _ (List.mem_of_mem_getLast? hlast))))⟩
    · exact ⟨left, closers', (List.suffix_append _ _).trans hvs, hleft,
        hlength'.trans hlength, rfl, rfl⟩
  types := by
    rintro k ts ts' ⟨vs, closers, hvs, hpending, hlength, rfl, rfl⟩ hless
    have hfirst : nextIs vs "<" = true := by
      cases vs with
      | nil =>
        have hstop : stop.isPunct "<" = true := hless
        obtain ⟨hkind, hvalue⟩ := isPunct_eq_true.1 hstop
        exact absurd (by rw [hvalue]; decide) (h.ends hkind)
      | cons u vs => exact hless
    have hsome : ∀ {left : List Token}, skipTypeArguments 0 vs = some left →
        (pending left).map List.length = (pending vs).map List.length →
          Finished.Near us stop rest rest' k (left ++ stop :: rest) (left ++ stop :: rest') := by
      intro left hleft hdepth
      rw [hpending, Option.map_some, hlength] at hdepth
      obtain ⟨closers', hclosers', hlength'⟩ := Option.map_eq_some_iff.1 hdepth
      exact ⟨left, closers', (skipTypeArguments_suffix hleft).trans hvs, hclosers', hlength', rfl,
        rfl⟩
    rcases h.types vs hvs hfirst with hnone | ⟨left, hleft, hdepth⟩
    · rcases h'.types vs hvs hfirst with hnone' | ⟨left, hleft, hdepth⟩
      · rw [hnone, hnone']
        exact .none
      · rw [skipTypeArguments_append hleft, skipTypeArguments_append hleft]
        exact .some (hsome hleft hdepth)
    · rw [skipTypeArguments_append hleft, skipTypeArguments_append hleft]
      exact .some (hsome hleft hdepth)

end Expr

end Scaffold
