import Scaffold.Proofs.Expr.Parts

/-!
# Comparisons among parts

A part of a listing is replaced by a comparison `a < b` (`Comparison`), at another place of the text
(`Replacement`).  As long as every `<` compares (`Compares`), the comparison is kept verbatim and
each other part is read as before, but for its offsets (`Replacement.Replaces.read_comparison`).

A `<` behind a name is taken for the beginning of type arguments if a `>` and a parenthesis follow
anywhere before a semicolon or an arrow.  Then the comparison swallows the parts up to there
(`read_swallows_total`).
-/

namespace Scaffold

/-- The key and the expression of a property. -/
def Member.part? : Member → Option (Option Text × Node)
  | .property key n => some (some key, n)
  | .spread _ => none

/-- The parts of an object literal or an array, with the keys of properties. -/
def Node.parts? : Node → Option (List (Option Text × Node))
  | .object _ ms => some (ms.filterMap Member.part?)
  | .array _ ns => some (ns.map fun n => (none, n))
  | _ => none

namespace Expr

variable {t u : Token} {ts us rest rest' : List Token} {source : Text}

/-! ### The replaced passage -/

/-- A text of which one passage is replaced. -/
structure Replacement where
  /-- The text in front of the passage. -/
  front : Text
  /-- The passage. -/
  old : Text
  /-- What stands in its place. -/
  new : Text
  /-- The text behind the passage. -/
  back : Text
  /-- The passage is not empty. -/
  old_ne : old ≠ []

namespace Replacement

variable {r : Replacement} {x y : Nat}

/-- The text before. -/
def before (r : Replacement) : Text := r.front ++ r.old ++ r.back

/-- The text after. -/
def after (r : Replacement) : Text := r.front ++ r.new ++ r.back

/-- Where an offset outside of the passage is found after. -/
def offset (r : Replacement) (x : Nat) : Nat :=
  if x ≤ r.front.length then x else x - r.old.length + r.new.length

/-- The tokens stand in front of the passage. -/
def Follows (r : Replacement) (ts : List Token) : Prop := ∀ x ∈ offsets ts, x ≤ r.front.length

/-- The tokens stand behind the passage. -/
def Precedes (r : Replacement) (ts : List Token) : Prop :=
  ∀ x ∈ offsets ts, r.front.length + r.old.length ≤ x

/-- In front of the passage, nothing changes. -/
theorem Follows.slice (h : r.Follows ts) :
    ∀ x ∈ offsets ts, ∀ y ∈ offsets ts, r.after.slice (r.offset x) (r.offset y) =
      r.before.slice x y := by
  intro x hx y hy
  have hlocal : ∀ more : Text, (r.front ++ more).slice x y = r.front.slice x y := fun more => by
    have hy := h y hy
    rw [Text.slice, Text.slice, List.drop_append_of_le_length (h x hx),
      List.take_append_of_le_length (by rw [List.length_drop]; omega)]
  rw [offset, offset, if_pos (h x hx), if_pos (h y hy), after, before, List.append_assoc,
    List.append_assoc, hlocal, hlocal]

/-- Behind the passage, the same text stands at other offsets. -/
theorem Precedes.slice (h : r.Precedes ts) :
    ∀ x ∈ offsets ts, ∀ y ∈ offsets ts, r.after.slice (r.offset x) (r.offset y) =
      r.before.slice x y := by
  intro x hx y hy
  have hlocal : ∀ (passage : Text) {x y : Nat}, passage.length ≤ x →
      (passage ++ r.back).slice x y =
        r.back.slice (x - passage.length) (y - passage.length) := fun passage {x y} hx => by
    have hdrop : (passage ++ r.back).drop x = r.back.drop (x - passage.length) := by
      rw [List.drop_append, List.drop_eq_nil_of_le hx, List.nil_append]
    rw [Text.slice, Text.slice, hdrop]
    congr 1
    omega
  have hold := List.length_pos_of_ne_nil r.old_ne
  have hx := h x hx
  have hy := h y hy
  rw [offset, offset, if_neg (by omega), if_neg (by omega), after, before,
    hlocal _ (by rw [List.length_append]; omega), hlocal _ (by rw [List.length_append]; omega)]
  simp only [List.length_append]
  congr 1 <;> omega

end Replacement

/-! ### The comparison -/

/-- A comparison of two names or number literals. -/
structure Comparison where
  /-- What is compared. -/
  left : Token
  /-- The mark. -/
  less : Token
  /-- What it is compared with. -/
  right : Token
  /-- The mark is a `<`. -/
  less_isPunct : less.isPunct "<" = true
  /-- A name or a number stands in front of it. -/
  left_kind : left.kind = .ident ∨ left.kind = .number ∧ ∃ n, Numeral.read left.value = .ok n
  /-- A name or a number stands behind it. -/
  right_kind : right.kind = .ident ∨ right.kind = .number

namespace Comparison

/-- The tokens of the comparison. -/
def tokens (c : Comparison) : List Token := [c.left, c.less, c.right]

/-- The comparison, kept verbatim. -/
def node (c : Comparison) (source : Text) : Node :=
  .verbatim ⟨c.left.start, c.right.stop⟩ (source.slice c.left.start c.right.stop)

theorem balanced (c : Comparison) : Balanced .expression .operand c.tokens := by
  have hleft : c.left.kind ≠ .punct ∧ c.left.kind ≠ .eof := by
    rcases c.left_kind with h | ⟨h, -⟩ <;> simp [h]
  have hright : c.right.kind ≠ .punct ∧ c.right.kind ≠ .eof := by
    rcases c.right_kind with h | h <;> simp [h]
  obtain ⟨hkind, hvalue⟩ := isPunct_eq_true.1 c.less_isPunct
  have hless : IsPlain c.less := by
    constructor <;> simp +decide [hkind, hvalue, closerOf?]
  refine .plain (isPlain_of_ne_punct hleft.1 hleft.2)
    (fun h => absurd (isPunct_eq_true.1 h).1 hleft.1) (.plain hless (fun _ => ?_)
      (.plain (isPlain_of_ne_punct hright.1 hright.2)
        (fun h => absurd (isPunct_eq_true.1 h).1 hright.1) .nil))
  exact Place.next_of_kind hleft.1 .operand (by decide)

/-- The literal or the name in front of the mark is found first. -/
theorem exists_found (c : Comparison) (source : Text) (rest : List Token)
    (h : c.left.kind = .ident → skipTypeArguments 0 (c.less :: rest) = none) :
    ∃ n, found (readPrimary source (c.left :: c.less :: rest)) =
      .ok (some (n, c.less :: rest)) := by
  have hnot : ∀ mark : Text, mark ≠ "<" → nextIs (c.less :: rest) mark = false := fun mark hmark =>
    Bool.eq_false_iff.2 fun h =>
      hmark ((isPunct_eq_true.1 h).2.symm.trans (isPunct_eq_true.1 c.less_isPunct).2)
  have hpoint := hnot "." (by decide)
  have hparen := hnot "(" (by decide)
  rcases c.left_kind with hkind | ⟨hkind, n, hn⟩
  · cases hname : literalName? c.left.value with
    | some v => exact ⟨_, found_readPrimary_name hkind hname (by rw [hpoint, hparen]; rfl)⟩
    | none =>
      have hsegments : found (readSegments source c.left.stop (c.less :: rest)) = _ :=
        found_readSegments_nil (by rw [hpoint, hnot "?." (by decide)]; rfl) (fun _ => h hkind)
          hparen
      rw [found_readPrimary_chain hkind (.inl hname), hsegments]
      exact ⟨_, rfl⟩
  · rw [found_readPrimary_number hkind, hn]
    exact ⟨_, rfl⟩

/-- **A comparison is kept verbatim** if its mark is not taken for the beginning of type
arguments. -/
theorem reads (c : Comparison) (source : Text) : Reads source c.tokens (.ok (c.node source)) := by
  intro t rest ht hcompares
  obtain ⟨n, hn⟩ := c.exists_found source (c.right :: t :: rest) fun hkind =>
    hcompares [] c.left c.less [c.right] rfl (.inl hkind) c.less_isPunct
  have hskip : skipBalanced [] true (c.left :: c.less :: c.right :: t :: rest) =
      (c.tokens, t :: rest) := c.balanced.skip_expression (by decide) ht rest
  have hless : ¬ Stops c.less.lexeme := by
    rw [isPunct_iff.1 c.less_isPunct]
    decide
  have hconst : skipAsConst (c.less :: c.right :: t :: rest) = c.less :: c.right :: t :: rest :=
    skipAsConst_of_not_const (fun h => by
      have hident : c.less.lexeme = _ := (List.cons.inj h).1
      rw [isPunct_iff.1 c.less_isPunct] at hident
      cases hident) _
  have hends : ¬ atTerminator (skipAsConst (c.less :: c.right :: t :: rest)) = true := by
    rw [hconst, atTerminator_iff]
    exact hless
  change outcome (read source (c.left :: c.less :: c.right :: t :: rest)) = _
  rw [outcome_read, hn]
  simp only [Except.map, settle, if_neg hends, verbatim, readVerbatim, hskip]
  rfl

end Comparison

/-! ### What is read of a form -/

/-- The parts that are read where a form begins, and the tokens behind it. -/
def Form.read (form : Form) (source : Text) (ts : List Token) :
    Except NumeralError (Option (List (Option Text × Node)) × List Token) :=
  match form with
  | .arguments =>
    (readArguments source ts).map fun r => (r.1.map (List.map fun n => (none, n)), r.2)
  | .object | .array => (outcome (Expr.read source ts)).map fun r => (r.1.parts?, r.2)

/-- An object literal or an array is an expression, which has to end behind it. -/
def Form.Ends : Form → List Token → Prop
  | .arguments, _ => True
  | .object, rest | .array, rest => ∃ t more, rest = t :: more ∧ Stops t.lexeme

theorem readArguments_eq {x : Except NumeralError (List Node)} {stop : Nat} (o : Token)
    (h : found (readItems source ")" false ts) = x.map fun ns => some ((ns, stop), rest)) :
    readArguments source (o :: ts) = x.map fun ns => (some ns, rest) := by
  rw [readArguments, List.tail_cons]
  cases hp : readItems source ")" false ts with
  | error e =>
    rw [hp] at h
    rw [Except.map_eq_error_iff.1 h.symm]
    rfl
  | ok p =>
    rw [hp] at h
    obtain ⟨ns, rfl, hns⟩ := Except.map_eq_ok_iff.1 h.symm
    obtain ⟨r, hvalue, hr⟩ := Option.map_eq_some_iff.1 hns.symm
    cases hr
    simp [Except.map, hvalue]

namespace Listing

variable {form : Form} {l : Listing form} {γ : Type} {items : List γ} {toPart : γ → Part form}
  {answer : γ → Except NumeralError Node}

theorem found_readItems_eq (holes : Bool) (hform : form ≠ .object)
    (hitems : l.parts = items.map toPart)
    (hreads : ∀ i ∈ items, Reads source (toPart i).value (answer i))
    (hcompares : Compares l.body (l.closer :: rest)) :
    found (readItems source form.closer holes (l.body ++ l.closer :: rest)) =
      (items.mapM answer).map fun ns => some ((ns, l.closer.stop), rest) :=
  l.list_eq (readsParts_items source form.closer holes) hitems
    (fun i hi => (toPart i).readsPart_item hform form.isCloser_closer (hreads i hi)) hcompares

/-- Items stand without keys. -/
theorem mapM_items (toPart : γ → Part form) (hform : form ≠ .object) :
    (items.mapM fun i => (answer i).map fun n => ((toPart i).key, n)) =
      (items.mapM answer).map (List.map fun n => (none, n)) := by
  have hmap : (items.mapM answer).map (List.filterMap fun n => some ((none : Option Text), n)) =
      items.mapM fun i => (answer i).map fun n => ((toPart i).key, n) :=
    Except.mapM_filterMap fun i _ => by
      rw [(toPart i).key_eq_none hform]
      cases answer i <;> rfl
  have hfilter : List.filterMap (fun n : Node => some ((none : Option Text), n)) =
      List.map fun n => (none, n) := List.filterMap_eq_map
  rw [← hmap, hfilter]

/-- **What is read of a form** is the key of each part with what is read of its expression. -/
theorem read_eq (hitems : l.parts = items.map toPart)
    (hreads : ∀ i ∈ items, Reads source (toPart i).value (answer i)) (hends : form.Ends rest)
    (hcompares : Compares l.body (l.closer :: rest)) : form.read source (l.tokens rest) =
      (items.mapM fun i => (answer i).map fun n => ((toPart i).key, n)).map fun parts =>
        (some parts, rest) := by
  cases form with
  | object =>
    obtain ⟨t, rest, rfl, ht⟩ := hends
    choose key hkey hpart using Part.exists_key
    have hmembers := l.list_eq (readsParts_members source) hitems
      (fun i hi => hpart (toPart i) (hreads i hi)) hcompares
    change (outcome (Expr.read source (l.opener :: (l.body ++ l.closer :: t :: rest)))).map _ = _
    rw [outcome_read_of_list .object ht (found_readPrimary_object l.opens _) hmembers,
      ← Except.mapM_filterMap (g := Member.part?)
      (f := fun i => (answer i).map (Member.property (key (toPart i))))]
    · cases List.mapM (m := Except NumeralError) _ items <;> rfl
    · intro i _
      rw [hkey]
      cases answer i <;> rfl
  | array =>
    obtain ⟨t, rest, rfl, ht⟩ := hends
    have hlist := found_readItems_eq (l := l) true nofun hitems hreads hcompares
    change (outcome (Expr.read source (l.opener :: (l.body ++ l.closer :: t :: rest)))).map _ = _
    rw [outcome_read_of_list .array ht (found_readPrimary_array l.opens _) hlist,
      mapM_items toPart nofun]
    cases items.mapM answer <;> rfl
  | arguments =>
    have hlist := found_readItems_eq (l := l) false nofun hitems hreads hcompares
    change (readArguments source (l.opener :: (l.body ++ l.closer :: rest))).map _ = _
    rw [readArguments_eq l.opener hlist, mapM_items toPart nofun]
    cases items.mapM answer <;> rfl

end Listing

/-! ### The replaced part -/

namespace Part

variable {form : Form} {f : Nat → Nat}

/-- The part, at other offsets. -/
def relocated (f : Nat → Nat) (q : Part form) : Part form where
  label := q.label.map (Token.relocated f)
  value := q.value.map (Token.relocated f)
  labels := by
    obtain ⟨label, value, hlabel, _, _⟩ := q
    cases hlabel with
    | property hk hcolon => exact .property hk hcolon
    | item hform => exact .item hform
  balanced := q.balanced.relocated
  value_ne := List.map_eq_nil_iff.not.2 q.value_ne

/-- The part with a comparison in the place of its expression. -/
def compared (q : Part form) (c : Comparison) : Part form :=
  { q with value := c.tokens, balanced := c.balanced, value_ne := nofun }

@[simp] theorem key_relocated (q : Part form) : (q.relocated f).key = q.key := by
  cases h : q.label <;> simp [key, relocated, h]

@[simp] theorem key_compared (q : Part form) (c : Comparison) : (q.compared c).key = q.key := by
  simp only [key, compared]

end Part

namespace Replacement

variable {r : Replacement} {c : Comparison} {form : Form} {l l' : Listing form}
  {q : Part form} {ps ps₁ ps₂ : List (Part form)} {parts : List (Option Text × Node)}

/-- A comparison stands in the place of the expression of one part, and the other parts stand in
front of the passage or behind it. -/
structure Replaces (r : Replacement) (c : Comparison) (l l' : Listing form)
    (ps₁ : List (Part form)) (q : Part form) (ps₂ : List (Part form)) : Prop where
  /-- The parts before. -/
  parts : l.parts = ps₁ ++ q :: ps₂
  /-- The parts after. -/
  compared : l'.parts = ps₁.map (Part.relocated r.offset) ++
    (q.relocated r.offset).compared c :: ps₂.map (Part.relocated r.offset)
  /-- The first ones stand in front of the passage. -/
  follows : ∀ p ∈ ps₁, r.Follows p.value
  /-- The last ones stand behind it. -/
  precedes : ∀ p ∈ ps₂, r.Precedes p.value

/-- The keys of the parts that are read. -/
theorem keys_of_mapM {answer : Part form → Except NumeralError Node}
    (h : (ps.mapM fun q => (answer q).map fun n => (q.key, n)) = .ok parts) :
    parts.map Prod.fst = ps.map Part.key := by
  rw [Except.mapM_eq_ok_iff] at h
  induction h with
  | nil => rfl
  | cons hp _ ih =>
    obtain ⟨n, -, rfl⟩ := Except.map_eq_ok_iff.1 hp
    rw [List.map_cons, List.map_cons, ih]

/-- A part elsewhere, with what is read of it there. -/
def moved (r : Replacement) (reading : Part form → Except NumeralError Node) (p : Part form) :
    Part form × Except NumeralError Node :=
  (p.relocated r.offset, (reading p).map (Node.relocated r.offset))

/-- Parts elsewhere are read as before, but for the offsets. -/
theorem mapM_moved {reading : Part form → Except NumeralError Node}
    (h : (ps.mapM fun p => (reading p).map fun n => (p.key, n)) = .ok parts) :
    ((ps.map (r.moved reading)).mapM fun i => i.2.map fun n => (i.1.key, n)) =
      .ok (parts.map (Prod.map id (Node.relocated r.offset))) := by
  rw [Except.mapM_eq_ok_iff] at h ⊢
  rw [List.forall₂_map_left_iff, List.forall₂_map_right_iff]
  refine h.imp fun p part hpart => ?_
  obtain ⟨n, hn, rfl⟩ := Except.map_eq_ok_iff.1 hpart
  simp [moved, hn, Except.map]

/-- **A comparison does not swallow its siblings**, as long as no `<` is taken for the beginning of
type arguments: the keys stay, and what is read of the other parts is what was read of them, but for
the offsets. -/
theorem Replaces.read_comparison {answer : Option (List (Option Text × Node)) × List Token}
    (h : r.Replaces c l l' ps₁ q ps₂) (hends : form.Ends rest) (hends' : form.Ends rest')
    (hless : Compares l.body (l.closer :: rest)) (hless' : Compares l'.body (l'.closer :: rest'))
    (hread : form.read r.before (l.tokens rest) = .ok answer) : ∃ parts₁ n parts₂,
      answer = (some (parts₁ ++ (q.key, n) :: parts₂), rest) ∧
      form.read r.after (l'.tokens rest') =
        .ok (some (parts₁.map (Prod.map id (Node.relocated r.offset)) ++
          (q.key, c.node r.after) :: parts₂.map (Prod.map id (Node.relocated r.offset))), rest') ∧
      parts₁.map Prod.fst = ps₁.map Part.key ∧ parts₂.map Prod.fst = ps₂.map Part.key := by
  choose reading hreading using fun p : Part form => exists_answers r.before p.balanced p.value_ne
  -- what was read of the parts before
  rw [l.read_eq (List.map_id _).symm (fun p _ => (hreading p).reads) hends hless, h.parts,
    Except.map_eq_ok_iff] at hread
  obtain ⟨parts, hparts, rfl⟩ := hread
  obtain ⟨parts₁, part, parts₂, hparts₁, hpart, hparts₂, rfl⟩ :=
    Except.mapM_append_cons_eq_ok_iff.1 hparts
  obtain ⟨n, -, rfl⟩ := Except.map_eq_ok_iff.1 hpart
  -- what is read of them after
  let items := ps₁.map (r.moved reading) ++
    ((q.relocated r.offset).compared c, .ok (c.node r.after)) :: ps₂.map (r.moved reading)
  have hitems : l'.parts = items.map Prod.fst := by
    simp [items, h.compared, moved, Function.comp_def]
  have hreads : ∀ i ∈ items, Reads r.after i.1.value i.2 := by
    simp only [items, List.forall_mem_append, List.forall_mem_cons, List.forall_mem_map]
    exact ⟨fun p hp => (hreading p).relocated _ _ (h.follows p hp).slice, c.reads r.after,
      fun p hp => (hreading p).relocated _ _ (h.precedes p hp).slice⟩
  refine ⟨parts₁, n, parts₂, rfl, ?_, keys_of_mapM hparts₁, keys_of_mapM hparts₂⟩
  rw [l'.read_eq hitems hreads hends' hless', Except.mapM_append_cons_eq_ok_iff.2
    ⟨_, _, _, mapM_moved hparts₁, rfl, mapM_moved hparts₂, rfl⟩]
  simp [Except.map]

end Replacement

/-- A sibling that has a `>` of its own is read as before. -/
theorem read_comparison_flag :
    let r : Replacement := ⟨"\x7b flag: ", "x", "a < b", ", total: c > d \x7d", nofun⟩
    let body : List Token := [⟨.ident, "flag", 2, 6⟩, ⟨.punct, ":", 6, 7⟩, ⟨.ident, "x", 8, 9⟩,
      ⟨.punct, ",", 9, 10⟩, ⟨.ident, "total", 11, 16⟩, ⟨.punct, ":", 16, 17⟩, ⟨.ident, "c", 18, 19⟩,
      ⟨.punct, ">", 20, 21⟩, ⟨.ident, "d", 22, 23⟩]
    let body' : List Token := [⟨.ident, "flag", 2, 6⟩, ⟨.punct, ":", 6, 7⟩, ⟨.ident, "a", 8, 9⟩,
      ⟨.punct, "<", 10, 11⟩, ⟨.ident, "b", 12, 13⟩, ⟨.punct, ",", 13, 14⟩,
      ⟨.ident, "total", 15, 20⟩, ⟨.punct, ":", 20, 21⟩, ⟨.ident, "c", 22, 23⟩,
      ⟨.punct, ">", 24, 25⟩, ⟨.ident, "d", 26, 27⟩]
    let ts : List Token := ⟨.punct, "\x7b", 0, 1⟩ ::
      (body ++ [⟨.punct, "\x7d", 24, 25⟩, ⟨.eof, [], 25, 25⟩])
    let ts' : List Token := ⟨.punct, "\x7b", 0, 1⟩ ::
      (body' ++ [⟨.punct, "\x7d", 28, 29⟩, ⟨.eof, [], 29, 29⟩])
    tokenize r.before = .ok ts ∧ tokenize r.after = .ok ts' ∧ ∃ n m : Node,
      Form.object.read r.before ts =
        .ok (some [(some "flag", n), (some "total", m)], [⟨.eof, [], 25, 25⟩]) ∧
      Form.object.read r.after ts' = .ok (some [(some "flag", .verbatim ⟨8, 13⟩ "a < b"),
        (some "total", m.relocated r.offset)], [⟨.eof, [], 29, 29⟩]) := by
  intro r body body' ts ts'
  refine ⟨Except.eq_ok_of_toOption (by decide +kernel),
    Except.eq_ok_of_toOption (by decide +kernel), ?_⟩
  have hident : ∀ {v : Text} {x y : Nat}, IsPlain ⟨.ident, v, x, y⟩ :=
    isPlain_of_ne_punct nofun nofun
  have hgreater : IsPlain ⟨.punct, ">", 20, 21⟩ :=
    ⟨nofun, fun _ => rfl, fun _ => rfl, fun _ => by decide⟩
  let flag : Part .object := ⟨[⟨.ident, "flag", 2, 6⟩, ⟨.punct, ":", 6, 7⟩], [⟨.ident, "x", 8, 9⟩],
    .property (.inl rfl) rfl, .plain hident nofun .nil, nofun⟩
  let total : Part .object := ⟨[⟨.ident, "total", 11, 16⟩, ⟨.punct, ":", 16, 17⟩],
    [⟨.ident, "c", 18, 19⟩, ⟨.punct, ">", 20, 21⟩, ⟨.ident, "d", 22, 23⟩],
    .property (.inl rfl) rfl,
    .plain hident nofun (.plain hgreater (fun _ => rfl) (.plain hident nofun .nil)), nofun⟩
  let c : Comparison := ⟨⟨.ident, "a", 8, 9⟩, ⟨.punct, "<", 10, 11⟩, ⟨.ident, "b", 12, 13⟩, rfl,
    .inl rfl, .inl rfl⟩
  let flag' : Part .object := (flag.relocated r.offset).compared c
  let total' : Part .object := total.relocated r.offset
  let l : Listing .object := ⟨⟨.punct, "\x7b", 0, 1⟩, [flag, total], body,
    ⟨.punct, "\x7d", 24, 25⟩, rfl,
    @Separated.cons flag.tokens ⟨.punct, ",", 9, 10⟩ _ total.tokens rfl .last, rfl⟩
  let l' : Listing .object := ⟨⟨.punct, "\x7b", 0, 1⟩, [flag', total'], body',
    ⟨.punct, "\x7d", 28, 29⟩, rfl,
    @Separated.cons flag'.tokens ⟨.punct, ",", 13, 14⟩ _ total'.tokens rfl .last, rfl⟩
  have hreplaces : r.Replaces c l l' [] flag [total] := by
    refine ⟨rfl, rfl, nofun, fun p hp => ?_⟩
    obtain rfl := List.mem_singleton.1 hp
    exact show ∀ x ∈ [18, 19, 20, 21, 22, 23], 9 ≤ x by decide
  obtain ⟨p, hread⟩ := exists_read r.before ts (by decide)
  have hread : Form.object.read r.before (l.tokens [⟨.eof, [], 25, 25⟩]) =
      .ok (p.value.parts?, p.rest) := by
    change (outcome (Expr.read r.before ts)).map _ = _
    rw [hread]
    rfl
  obtain ⟨parts₁, n, parts₂, hanswer, hread', hkeys₁, hkeys₂⟩ := hreplaces.read_comparison
    ⟨_, _, rfl, .inl rfl⟩
    (show Form.object.Ends [⟨.eof, [], 29, 29⟩] from ⟨_, _, rfl, .inl rfl⟩)
    (show Compares body [⟨.punct, "\x7d", 24, 25⟩, ⟨.eof, [], 25, 25⟩] by decide)
    (show Compares body' [⟨.punct, "\x7d", 28, 29⟩, ⟨.eof, [], 29, 29⟩] by decide) hread
  obtain rfl := List.map_eq_nil_iff.1 hkeys₁
  match parts₂, hkeys₂ with
  | [(k, m)], hkeys₂ =>
    obtain rfl : k = some "total" := (List.cons.inj hkeys₂).1
    rw [hanswer] at hread
    exact ⟨n, m, hread, hread'⟩

/-- If a parenthesis follows that `>`, the sibling is taken for type arguments and for the arguments
of a call, and its key is lost. -/
theorem read_swallows_total :
    let source : Text := "\x7b flag: a, total: c > (d) \x7d"
    let source' : Text := "\x7b flag: a < b, total: c > (d) \x7d"
    ∃ ts ts', tokenize source = .ok ts ∧ tokenize source' = .ok ts' ∧
      Form.object.read source ts = .ok (some [(some "flag", .chain ⟨8, 9⟩ "a" [] "a"),
        (some "total", .verbatim ⟨18, 25⟩ "c > (d)")], [⟨.eof, [], 27, 27⟩]) ∧
      Form.object.read source' ts' = .ok (some [(some "flag", .chain ⟨8, 29⟩ "a"
        [.call [.chain ⟨27, 28⟩ "d" [] "d"]] "a < b, total: c > (d)")], [⟨.eof, [], 31, 31⟩]) := by
  intro source source'
  let ts : List Token := [⟨.punct, "\x7b", 0, 1⟩, ⟨.ident, "flag", 2, 6⟩, ⟨.punct, ":", 6, 7⟩,
    ⟨.ident, "a", 8, 9⟩, ⟨.punct, ",", 9, 10⟩, ⟨.ident, "total", 11, 16⟩, ⟨.punct, ":", 16, 17⟩,
    ⟨.ident, "c", 18, 19⟩, ⟨.punct, ">", 20, 21⟩, ⟨.punct, "(", 22, 23⟩, ⟨.ident, "d", 23, 24⟩,
    ⟨.punct, ")", 24, 25⟩, ⟨.punct, "\x7d", 26, 27⟩, ⟨.eof, [], 27, 27⟩]
  let ts' : List Token := [⟨.punct, "\x7b", 0, 1⟩, ⟨.ident, "flag", 2, 6⟩, ⟨.punct, ":", 6, 7⟩,
    ⟨.ident, "a", 8, 9⟩, ⟨.punct, "<", 10, 11⟩, ⟨.ident, "b", 12, 13⟩,
    ⟨.punct, ",", 13, 14⟩, ⟨.ident, "total", 15, 20⟩, ⟨.punct, ":", 20, 21⟩,
    ⟨.ident, "c", 22, 23⟩, ⟨.punct, ">", 24, 25⟩, ⟨.punct, "(", 26, 27⟩, ⟨.ident, "d", 27, 28⟩,
    ⟨.punct, ")", 28, 29⟩, ⟨.punct, "\x7d", 30, 31⟩, ⟨.eof, [], 31, 31⟩]
  refine ⟨ts, ts', Except.eq_ok_of_toOption (by decide +kernel),
    Except.eq_ok_of_toOption (by decide +kernel), ?_, ?_⟩
  · have hskip : skipBalanced [] true (ts.drop 7) = ((ts.drop 7).take 5, ts.drop 12) := rfl
    have ha : source.slice 8 9 = "a" := rfl
    have hc : source.slice 18 19 = "c" := rfl
    have hd : source.slice 18 25 = "c > (d)" := rfl
    change (outcome (Expr.read source ts)).map _ = _
    simp only [ts, List.drop, List.take] at hskip
    simp +decide [ts, outcome, hskip, ha, hc, hd, Expr.read, readPrimary, readChain, readSegments,
      literalName?, readMembers, readMember, Parsed.lift, Except.map, skipAsConst, readVerbatim,
      startOf, Node.parts?, Member.part?]
  · change (outcome (Expr.read source' ts')).map _ = _
    have ha : source'.slice 8 29 = "a < b, total: c > (d)" := rfl
    have hd : source'.slice 27 28 = "d" := rfl
    simp +decide [ts', outcome, ha, hd, Expr.read, readPrimary, readChain, readSegments,
      skipTypeArguments, literalName?, readMembers, readMember, readItems, Parsed.lift, Except.map,
      skipAsConst, Node.parts?, Member.part?]

end Expr

end Scaffold
