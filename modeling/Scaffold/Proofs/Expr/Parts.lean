import Scaffold.Proofs.Expr.Provenance
import Scaffold.Proofs.Expr.Settling

/-!
# Lists of parts

Parts with commas between them are read part by part (`ReadsParts.separated`): what is read of one
does not depend on the others.

In an object literal whose values are balanced, every value is read for itself, and none swallows or
drops a sibling (`read_object_literal`).
-/

namespace Scaffold

namespace Expr

variable {α β : Type} {c t u k colon : Token} {ts us value rest : List Token}
  {uss : List (List Token)} {source close : Text}

/-! ### What is read of an expression -/

/-- The reader answers `r` for the tokens, up to what ends an expression. -/
def Reads (source : Text) (us : List Token) (r : Except NumeralError Node) : Prop :=
  ∀ (t : Token) (rest : List Token), Stops t.lexeme → Compares us (t :: rest) →
    outcome (read source (us ++ t :: rest)) = r.map fun n => (n, t :: rest)

/-- The reader answers `r` for the tokens, and the same for them elsewhere. -/
structure Answers (source : Text) (us : List Token) (r : Except NumeralError Node) : Prop where
  /-- What is read reaches over the tokens. -/
  covers : ∀ n, r = .ok n → Covers us n
  /-- Where the same text stands, the same is read. -/
  relocated : ∀ (text : Text) (f : Nat → Nat), (∀ x ∈ offsets us, ∀ y ∈ offsets us,
    text.slice (f x) (f y) = source.slice x y) →
      Reads text (us.map (Token.relocated f)) (r.map (Node.relocated f))

theorem exists_answers (source : Text) (hus : Balanced .expression .operand us) (hne : us ≠ []) :
    ∃ r, Answers source us r := by
  obtain ⟨r, hcovers, hr⟩ := readSettles source hus hne
  refine ⟨r, hcovers, fun text f hslices t rest ht hcompares => ?_⟩
  let s : Placement := ⟨text, f, t :: rest⟩
  have hread : outcome (read s.text (s.tokens us)) = _ :=
    hr s ⟨t, rest, rfl, ht⟩ ⟨hslices, hcompares⟩
  refine hread.trans ?_
  cases r <;> rfl

theorem Answers.reads {r : Except NumeralError Node} (h : Answers source us r) :
    Reads source us r := by
  have hmoved := h.relocated source id fun _ _ _ _ => rfl
  have htokens : us.map (Token.relocated id) = us := List.map_id us
  have hnode : Node.relocated id = id := funext Node.relocated_id
  have hr : r.map (Node.relocated id) = r := by
    rw [hnode]
    cases r <;> rfl
  rwa [htokens, hr] at hmoved

/-! ### Lists -/

/-- The parts one after the other, with a comma behind each, which may be left out behind the
last. -/
inductive Separated : List (List Token) → List Token → Prop
  /-- No parts. -/
  | nil : Separated [] []
  /-- The last part, without a comma. -/
  | last {us : List Token} : Separated [us] us
  /-- A part, a comma and the parts behind it. -/
  | cons {us : List Token} {t : Token} {uss : List (List Token)} {ts : List Token}
    (ht : t.isPunct "," = true) (h : Separated uss ts) : Separated (us :: uss) (us ++ t :: ts)

theorem Separated.mem (h : Separated uss ts) (hu : u ∈ ts) :
    u.isPunct "," = true ∨ ∃ us ∈ uss, u ∈ us := by
  induction h with
  | nil => cases hu
  | last => exact .inr ⟨_, List.mem_cons_self, hu⟩
  | cons ht _ ih =>
    rcases List.mem_append.1 hu with hu | hu
    · exact .inr ⟨_, List.mem_cons_self, hu⟩
    · rcases List.mem_cons.1 hu with rfl | hu
      · exact .inl ht
      · exact (ih hu).imp_right fun ⟨us, hus, hu⟩ => ⟨us, List.mem_cons_of_mem _ hus, hu⟩

/-- The tokens are read as one part, up to what ends an expression. -/
structure ReadsPart (close : Text)
    (part : List Token → Except NumeralError (List α × List Token)) (us : List Token)
    (r : Except NumeralError α) : Prop where
  /-- They begin neither with the closing bracket nor with the end of the source. -/
  goesOn : ∀ rest, GoesOn close (us ++ rest)
  /-- The part, and what is left. -/
  read : ∀ {t : Token} {rest : List Token}, Stops t.lexeme → Compares us (t :: rest) →
    part (us ++ t :: rest) = r.map fun a => ([a], t :: rest)

variable {part : List Token → Except NumeralError (List α × List Token)}
  {list : List Token → FoundParts α}

/-- **A list is read part by part**, up to the closing bracket. -/
theorem ReadsParts.separated {rs : List (Except NumeralError α)} (h : ReadsParts close part list)
    (hclose : isCloser close = true) (hc : c.isPunct close = true) (hts : Separated uss ts)
    (hparts : List.Forall₂ (ReadsPart close part) uss rs) (hcompares : Compares ts (c :: rest)) :
    list (ts ++ c :: rest) = (rs.mapM id).map fun as => some ((as, c.stop), rest) := by
  have hcomma : c.isPunct "," = false := Bool.eq_false_iff.2 fun hcomma => by
    rw [not_isPunct_of_separator (.inl hcomma) hclose] at hc
    cases hc
  induction hts generalizing rs with
  | nil =>
    cases hparts
    exact h.ends rest hc
  | last =>
    obtain ⟨r, rs, hr, hnil, rfl⟩ := List.forall₂_cons_left_iff.1 hparts
    cases hnil
    rw [h.part_of_goesOn (hr.goesOn _), hr.read (stops_closer hclose hc) hcompares]
    cases r with
    | error e => rfl
    | ok a => simp [Except.map, Except.bind, goOn, hcomma, hc, pure, Except.pure, bind]
  | @cons us t uss ts ht _ ih =>
    obtain ⟨r, rs, hr, hrs, rfl⟩ := List.forall₂_cons_left_iff.1 hparts
    have hleft : Compares us (t :: (ts ++ c :: rest)) := hcompares.left
    have hright : Compares ts (c :: rest) :=
      (List.append_cons us t ts ▸ hcompares).right _
    rw [List.append_assoc, List.cons_append, h.part_of_goesOn (hr.goesOn _),
      hr.read (stops_comma ht) hleft, List.mapM_cons]
    cases r with
    | error e => rfl
    | ok a =>
      have hbehind := ih hrs hright
      simp only [Except.map, Except.bind, goOn, ht, if_true, hbehind]
      cases rs.mapM id <;> simp [Except.bind, bind, pure, Except.pure]

/-- The value of a property is read as an expression. -/
theorem Reads.property {r : Except NumeralError Node} (h : Reads source value r) (hk : IsKey k)
    (hcolon : colon.isPunct ":" = true) : ReadsPart "\x7d" (memberPart source)
      (k :: colon :: value) (r.map (Member.property k.value)) where
  goesOn rest := by
    refine ⟨k, colon :: (value ++ rest), rfl, Bool.eq_false_iff.2 fun hclose => ?_, fun heof => ?_⟩
    · simp [IsKey, (isPunct_eq_true.1 hclose).1] at hk
    · simp [IsKey, heof] at hk
  read {t rest} ht hcompares := by
    rw [List.cons_append, List.cons_append, memberPart, outcome_readMember_property hk hcolon,
      h t rest ht (hcompares.right [k, colon])]
    cases r <;> rfl

/-- So is an item. -/
theorem Reads.item {r : Except NumeralError Node} {holes : Bool} (h : Reads source us r)
    (hus : Balanced .expression .operand us) (hne : us ≠ []) (hclose : isCloser close = true) :
    ReadsPart close (itemPart source holes) us r := by
  obtain ⟨u, us, rfl⟩ := List.exists_cons_of_ne_nil hne
  have hu := hus.begins
  refine ⟨fun rest => ⟨u, us ++ rest, rfl, hu.not_isPunct (.inr hclose), hu.kind_ne⟩,
    fun {t rest} ht hcompares => ?_⟩
  have hhole : ¬ (holes && nextIs (u :: us ++ t :: rest) ",") = true := fun hhole => by
    have hcomma : u.isPunct "," = true := (Bool.and_eq_true_iff.1 hhole).2
    rw [hu.not_isPunct (.inl rfl)] at hcomma
    cases hcomma
  rw [itemPart, if_neg hhole, h t rest ht hcompares]
  cases r <;> rfl

/-! ### Parts of a form -/

/-- What holds a list of parts between brackets. -/
inductive Form where
  /-- The properties of an object literal. -/
  | object
  /-- The elements of an array. -/
  | array
  /-- The arguments of a call. -/
  | arguments

/-- What a part begins with: the key of a property and a colon, and nothing in front of an item. -/
inductive Form.Labels : Form → List Token → Prop
  /-- A property. -/
  | property {k colon : Token} (hk : IsKey k) (hcolon : colon.isPunct ":" = true) :
    Labels .object [k, colon]
  /-- An item. -/
  | item {form : Form} (h : form ≠ .object) : Labels form []

/-- A part: a label, and an expression behind it. -/
structure Part (form : Form) where
  /-- The tokens of the label. -/
  label : List Token
  /-- The tokens of the expression. -/
  value : List Token
  /-- The label is one of the form. -/
  labels : form.Labels label
  /-- The brackets of the expression are nested, and no separator stands outside of them. -/
  balanced : Balanced .expression .operand value
  /-- There is an expression. -/
  value_ne : value ≠ []

namespace Part

variable {form : Form}

/-- The tokens of the part. -/
def tokens (q : Part form) : List Token := q.label ++ q.value

/-- The key of a property. -/
def key (q : Part form) : Option Text := q.label.head?.map Token.value

theorem not_less_of_mem_label (q : Part form) (hu : u ∈ q.label) : u.isPunct "<" = false := by
  obtain ⟨label, value, hlabel, _, _⟩ := q
  cases hlabel with
  | property hk hcolon =>
    rcases List.mem_pair.1 hu with rfl | rfl
    · refine Bool.eq_false_iff.2 fun hless => ?_
      simp [IsKey, (isPunct_eq_true.1 hless).1] at hk
    · simp +decide [Token.isPunct, (isPunct_eq_true.1 hcolon).2]
  | item => cases hu

/-- The property that is read of a part: its key, with an expression over its tokens. -/
inductive IsRead (q : Part .object) : Member → Prop
  /-- The expression may stop before `as const`. -/
  | property {key : Text} {n : Node} (hkey : q.key = some key) (hn : Covers q.value n) :
    IsRead q (.property key n)

/-- A property has a key, and is read if its value is. -/
theorem exists_key (q : Part .object) : ∃ key, q.key = some key ∧
    ∀ {source : Text} {r : Except NumeralError Node}, Reads source q.value r →
      ReadsPart "\x7d" (memberPart source) q.tokens (r.map (Member.property key)) := by
  obtain ⟨label, value, hlabel, _, _⟩ := q
  cases hlabel with
  | property hk hcolon => exact ⟨_, rfl, fun h => Reads.property h hk hcolon⟩
  | item hform => exact absurd rfl hform

/-- An item has no key. -/
theorem key_eq_none (q : Part form) (hform : form ≠ .object) : q.key = none := by
  obtain ⟨label, value, hlabel, _, _⟩ := q
  cases hlabel with
  | property => exact absurd rfl hform
  | item => rfl

/-- An item is read if its expression is. -/
theorem readsPart_item {holes : Bool} {r : Except NumeralError Node} (q : Part form)
    (hform : form ≠ .object) (hclose : isCloser close = true) (h : Reads source q.value r) :
    ReadsPart close (itemPart source holes) q.tokens r := by
  obtain ⟨label, value, hlabel, hbalanced, hne⟩ := q
  have h : Reads source value r := h
  cases hlabel with
  | property => exact absurd rfl hform
  | item => exact h.item hbalanced hne hclose

end Part

/-! ### Listings -/

/-- The opening bracket of a form. -/
def Form.opener : Form → Text
  | .object => "\x7b"
  | .array => "["
  | .arguments => "("

/-- The closing bracket of a form. -/
def Form.closer : Form → Text
  | .object => "\x7d"
  | .array => "]"
  | .arguments => ")"

theorem Form.isCloser_closer (form : Form) : isCloser form.closer = true := by
  cases form <;> rfl

/-- Brackets with parts between them. -/
structure Listing (form : Form) where
  /-- The opening bracket. -/
  opener : Token
  /-- The parts. -/
  parts : List (Part form)
  /-- The tokens of the parts, and the commas. -/
  body : List Token
  /-- The closing bracket. -/
  closer : Token
  /-- The form begins with the opening bracket. -/
  opens : opener.isPunct form.opener = true
  /-- A comma stands between two parts. -/
  separated : Separated (parts.map Part.tokens) body
  /-- The form ends with the closing bracket. -/
  closes : closer.isPunct form.closer = true

namespace Listing

variable {form : Form} {l : Listing form}

/-- The tokens of the listing, before others. -/
def tokens (l : Listing form) (rest : List Token) : List Token :=
  l.opener :: (l.body ++ l.closer :: rest)

/-- No `<` stands among the parts if none stands in their expressions. -/
theorem compares_of_not_less (hless : ∀ q ∈ l.parts, ∀ u ∈ q.value, u.isPunct "<" = false)
    (rest : List Token) : Compares l.body rest := by
  refine Expr.compares_of_not_less (fun u hu => ?_) rest
  rcases l.separated.mem hu with hcomma | ⟨us, hus, hu⟩
  · simp +decide [Token.isPunct, (isPunct_eq_true.1 hcomma).2]
  · obtain ⟨q, hq, rfl⟩ := List.mem_map.1 hus
    exact (List.mem_append.1 hu).elim q.not_less_of_mem_label (hless q hq u)

/-- What is read of a listing is what is read of its parts. -/
theorem list_eq {γ : Type} {items : List γ} {toPart : γ → Part form}
    {answer : γ → Except NumeralError α} (hlist : ReadsParts form.closer part list)
    (hitems : l.parts = items.map toPart)
    (hparts : ∀ i ∈ items, ReadsPart form.closer part (toPart i).tokens (answer i))
    (hcompares : Compares l.body (l.closer :: rest)) : list (l.body ++ l.closer :: rest) =
      (items.mapM answer).map fun as => some ((as, l.closer.stop), rest) := by
  have hall : List.Forall₂ (ReadsPart form.closer part) (l.parts.map Part.tokens)
      (items.map answer) := by
    rw [hitems, List.forall₂_map_left_iff, List.forall₂_map_left_iff, List.forall₂_map_right_iff,
      List.forall₂_same]
    exact hparts
  rw [hlist.separated form.isCloser_closer l.closes l.separated hall hcompares, List.mapM_map]
  rfl

end Listing

/-! ### Object literals -/

/-- What is found is the expression, if it ends there. -/
theorem outcome_read_of_found {x : Except NumeralError Node} (ht : Stops t.lexeme)
    (h : found (readPrimary source ts) = x.map fun n => some (n, t :: rest)) :
    outcome (read source ts) = x.map fun n => (n, t :: rest) := by
  rw [outcome_read, h]
  cases x with
  | error e => rfl
  | ok n => simp [Except.map, settle, skipAsConst_of_stops ht, atTerminator_iff.2 ht]

/-- A list between brackets is the expression, if it ends behind them. -/
theorem outcome_read_of_list (make : Span → List α → Node) {x : Except NumeralError (List α)}
    {list : FoundParts α} {o : Token} {stop : Nat} (ht : Stops t.lexeme)
    (hfound : found (readPrimary source (o :: ts)) =
      list.map (Option.map fun r => (make ⟨o.start, r.1.2⟩ r.1.1, r.2)))
    (h : list = x.map fun as => some ((as, stop), t :: rest)) :
    outcome (read source (o :: ts)) = x.map fun as => (make ⟨o.start, stop⟩ as, t :: rest) := by
  rw [outcome_read_of_found (x := x.map (make ⟨o.start, stop⟩)) ht]
  · cases x <;> rfl
  · rw [hfound, h]
    cases x <;> rfl

/-- **An object literal is read member by member.**  Whatever its values are, as long as their
brackets are nested and neither a comma or semicolon outside of brackets nor a `<` stands in them:
the members that are read are one property for each part, in their order, with the key of the part
and an expression over its tokens, and the tokens behind the brace are left. -/
theorem read_object_literal {l : Listing .object} {p : Parsed Node (l.tokens (t :: rest))}
    (ht : Stops t.lexeme) (hless : ∀ q ∈ l.parts, ∀ u ∈ q.value, u.isPunct "<" = false)
    (hread : read source (l.tokens (t :: rest)) = .ok p) :
    ∃ ms, p.value = .object ⟨l.opener.start, l.closer.stop⟩ ms ∧
      List.Forall₂ Part.IsRead l.parts ms ∧ p.rest = t :: rest := by
  choose answer hanswer using fun q : Part .object => exists_answers source q.balanced q.value_ne
  choose key hkey hpart using Part.exists_key
  have hmembers : found (readMembers source (l.body ++ l.closer :: t :: rest)) = _ :=
    l.list_eq (readsParts_members source) (List.map_id _).symm
    (fun q _ => hpart q (hanswer q).reads)
      (l.compares_of_not_less hless _)
  have houtcome := outcome_read_of_list .object ht (found_readPrimary_object l.opens _)
    hmembers
  have hp : outcome (read source (l.tokens (t :: rest))) = .ok (p.value, p.rest) := by
    rw [hread]
    rfl
  obtain ⟨ms, hms, heq⟩ := Except.map_eq_ok_iff.1 (houtcome.symm.trans hp)
  obtain ⟨hvalue, hrest⟩ := Prod.mk.inj heq
  refine ⟨ms, hvalue.symm, (Except.mapM_eq_ok_iff.1 hms).imp fun q m hm => ?_, hrest.symm⟩
  obtain ⟨n, hn, rfl⟩ := Except.map_eq_ok_iff.1 hm
  exact .property (hkey q) ((hanswer q).covers n hn)

/-- Neither an arrow function nor `as const` takes the next member away. -/
theorem read_object_literal_arrow :
    let source : Text := "\x7b a: (x) => y, 'b': z as const, \x7d"
    let arrow : List Token := [⟨.punct, "(", 5, 6⟩, ⟨.ident, "x", 6, 7⟩, ⟨.punct, ")", 7, 8⟩,
      ⟨.punct, "=>", 9, 11⟩, ⟨.ident, "y", 12, 13⟩]
    let name : List Token :=
      [⟨.ident, "z", 20, 21⟩, ⟨.ident, "as", 22, 24⟩, ⟨.ident, "const", 25, 30⟩]
    let ts : List Token := ⟨.punct, "\x7b", 0, 1⟩ :: ⟨.ident, "a", 2, 3⟩ :: ⟨.punct, ":", 3, 4⟩ ::
      arrow ++ ⟨.punct, ",", 13, 14⟩ :: ⟨.string, "b", 15, 18⟩ :: ⟨.punct, ":", 18, 19⟩ ::
      name ++ [⟨.punct, ",", 30, 31⟩, ⟨.punct, "\x7d", 32, 33⟩, ⟨.eof, [], 33, 33⟩]
    tokenize source = .ok ts ∧ ∃ (p : Parsed Node ts) (n₁ n₂ : Node), read source ts = .ok p ∧
      p.value = .object ⟨0, 33⟩ [.property "a" n₁, .property "b" n₂] ∧
      Covers arrow n₁ ∧ Covers name n₂ ∧ p.rest = [⟨.eof, [], 33, 33⟩] := by
  intro source arrow name ts
  have hident : ∀ {v : Text} {x y : Nat}, IsPlain ⟨.ident, v, x, y⟩ :=
    isPlain_of_ne_punct nofun nofun
  have harrow : Balanced .expression .operand arrow :=
    @Balanced.group _ _ _ ⟨.punct, ")", 7, 8⟩ [⟨.ident, "x", 6, 7⟩] _ (.parentheses rfl rfl)
      (.plain hident nofun .nil)
      (.plain ⟨nofun, fun _ => rfl, fun _ => rfl, fun _ => by decide⟩ (fun _ => rfl)
        (.plain hident nofun .nil))
  have hname : Balanced .expression .operand name :=
    .plain hident nofun (.plain hident nofun (.plain hident nofun .nil))
  let a : Part .object := ⟨[⟨.ident, "a", 2, 3⟩, ⟨.punct, ":", 3, 4⟩], arrow,
    .property (.inl rfl) rfl, harrow, nofun⟩
  let b : Part .object := ⟨[⟨.string, "b", 15, 18⟩, ⟨.punct, ":", 18, 19⟩], name,
    .property (.inr (.inl rfl)) rfl, hname, nofun⟩
  let l : Listing .object := ⟨⟨.punct, "\x7b", 0, 1⟩, [a, b], _, ⟨.punct, "\x7d", 32, 33⟩, rfl,
    .cons (t := ⟨.punct, ",", 13, 14⟩) rfl (.cons (t := ⟨.punct, ",", 30, 31⟩) rfl .nil), rfl⟩
  have hless : ∀ q ∈ l.parts, ∀ u ∈ q.value, u.isPunct "<" = false := by
    change ∀ q ∈ [a, b], _
    rw [List.forall_mem_cons, List.forall_mem_singleton]
    exact ⟨show ∀ u ∈ arrow, _ by decide, show ∀ u ∈ name, _ by decide⟩
  obtain ⟨p, hread⟩ := exists_read source ts (by decide)
  obtain ⟨ms, hvalue, hms, hrest⟩ := read_object_literal (l := l) (.inl rfl) hless hread
  refine ⟨Except.eq_ok_of_toOption (by decide +kernel), p, ?_⟩
  obtain ⟨m₁, ms, h₁, hmore, rfl⟩ := List.forall₂_cons_left_iff.1 hms
  obtain ⟨m₂, ms, h₂, hnil, rfl⟩ := List.forall₂_cons_left_iff.1 hmore
  cases hnil
  cases h₁ with
  | property hkey₁ hn₁ =>
    cases h₂ with
    | property hkey₂ hn₂ =>
      cases hkey₁
      cases hkey₂
      exact ⟨_, _, hread, hvalue, hn₁, hn₂, hrest⟩

end Expr

end Scaffold
