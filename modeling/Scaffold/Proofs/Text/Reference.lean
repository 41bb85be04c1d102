import Scaffold.Number.Numeral
import Scaffold.Proofs.Text.Word
import Scaffold.Value.Source

/-!
# Texts in the attributes of an element

The value of an attribute is what stands between its quotes, up to the next quote of that sort.
A backslash means nothing there, but a character reference such as `&lt;`, `&#60;` or `&#x3c;`
stands for the code point that it names (`References.decode`).  Which names there are is a table
that the reader of the page brings along (`References`).

* `References.value?_literal` : a string literal in single quotes is read as what it was written for
  exactly if it has nothing to escape and no reference in it.
* `References.value?_markup` : a text that is written as it is between tags is read as what it was
  written for in double quotes exactly if it has no double quote and no reference in it.

Both count `&` and `;`, which are fewer in what is read than in what is written as soon as there is
a reference, and which no escape adds.
-/

namespace Scaffold

open CodePoint

/-- What stands before the first `mark`, and what stands behind it. -/
def Text.upTo? (mark : CodePoint) : Text → Option (Text × Text)
  | [] => none
  | c :: t =>
    if c = mark then some ([], t)
    else (upTo? mark t).map fun (before, rest) => (c :: before, rest)

theorem Text.upTo?_eq_some_iff {mark : CodePoint} {t before rest : Text} :
    Text.upTo? mark t = some (before, rest) ↔ t = before ++ mark :: rest ∧ mark ∉ before := by
  induction t generalizing before with
  | nil => simp [Text.upTo?]
  | cons c t ih =>
    rw [Text.upTo?]
    split_ifs with hc
    · subst hc
      cases before with
      | nil => simp
      | cons d before =>
        refine iff_of_false (by simp) ?_
        rintro ⟨h, hmark⟩
        exact hmark ((List.cons.inj h).1 ▸ List.mem_cons_self)
    · constructor
      · intro h
        obtain ⟨⟨before', rest'⟩, hsplit, heq⟩ := Option.map_eq_some_iff.1 h
        obtain ⟨rfl, rfl⟩ := Prod.mk.inj heq
        obtain ⟨rfl, hmark⟩ := ih.1 hsplit
        refine ⟨rfl, fun hmem => ?_⟩
        exact (List.mem_cons.1 hmem).elim (fun heq => hc heq.symm) hmark
      · rintro ⟨h, hmark⟩
        cases before with
        | nil => exact absurd (List.cons.inj h).1 hc
        | cons d before =>
          obtain ⟨rfl, rfl⟩ := List.cons.inj h
          rw [ih.2 ⟨rfl, fun hmem => hmark (List.mem_cons_of_mem _ hmem)⟩]
          rfl

theorem Text.upTo?_append {mark : CodePoint} {before : Text} (h : mark ∉ before) (rest : Text) :
    Text.upTo? mark (before ++ mark :: rest) = some (before, rest) :=
  upTo?_eq_some_iff.2 ⟨rfl, h⟩

/-! ### String literals -/

/-- A string literal shows every code point of the text as it is. -/
def Text.IsShown (t : Text) : Prop := ∀ c ∈ t, c ∉ Text.ofString "\\'\n\r"

instance : DecidablePred Text.IsShown := fun t =>
  inferInstanceAs (Decidable (∀ c ∈ t, c ∉ Text.ofString "\\'\n\r"))

/-- A code point is shown as it is, or behind a backslash. -/
theorem Text.literalPart_cases (c : CodePoint) :
    c ∉ ofString "\\'\n\r" ∧ literalPart c = [c] ∨
      c ∈ ofString "\\'\n\r" ∧ ∃ d ∈ ofString "\\'nr", literalPart c = [.scalar '\\', d] := by
  by_cases hc : c ∈ ofString "\\'\n\r"
  · have hall : ∀ c ∈ ofString "\\'\n\r", ∃ d ∈ ofString "\\'nr",
        literalPart c = [.scalar '\\', d] := by decide
    exact .inr ⟨hc, hall c hc⟩
  · have hne (d : CodePoint) (hd : d ∈ ofString "\\'\n\r") : c ≠ d := fun heq => hc (heq ▸ hd)
    refine .inl ⟨hc, ?_⟩
    rw [literalPart, if_neg (hne _ (by decide)), if_neg (hne _ (by decide)),
      if_neg (hne _ (by decide)), if_neg (hne _ (by decide))]

theorem Text.isInline_literal (t : Text) : t.literal.IsInline := by
  rw [literal, isInline_append, isInline_append]
  refine ⟨⟨by decide, fun hmem => ?_⟩, by decide⟩
  obtain ⟨c, -, hc⟩ := List.mem_flatMap.1 hmem
  rcases literalPart_cases c with ⟨hshown, hpart⟩ | ⟨-, d, hd, hpart⟩
  · rw [hpart, List.mem_singleton] at hc
    exact hshown (hc ▸ by decide)
  · rw [hpart, List.mem_cons, List.mem_singleton] at hc
    rcases hc with hc | rfl
    · cases hc
    · exact absurd hd (by decide)

theorem Text.length_le_flatMap_literalPart (t : Text) :
    t.length ≤ (t.flatMap literalPart).length := by
  induction t with
  | nil => exact Nat.le_refl _
  | cons c t ih =>
    rw [List.flatMap_cons, List.length_append, List.length_cons]
    rcases literalPart_cases c with ⟨-, hc⟩ | ⟨-, d, -, hc⟩ <;>
    · rw [hc]
      simp only [List.length_cons, List.length_nil]
      omega

theorem Text.flatMap_literalPart_eq_self_iff {t : Text} :
    t.flatMap literalPart = t ↔ t.IsShown := by
  induction t with
  | nil => exact iff_of_true rfl nofun
  | cons c t ih =>
    rw [IsShown, List.forall_mem_cons, List.flatMap_cons]
    rcases literalPart_cases c with ⟨hshown, hc⟩ | ⟨hescaped, d, -, hc⟩
    · rw [hc, List.singleton_append, List.cons_inj_right, ih]
      exact (and_iff_right hshown).symm
    · refine iff_of_false (fun h => ?_) fun h => h.1 hescaped
      have hlength := congrArg List.length h
      have hle := length_le_flatMap_literalPart t
      rw [hc] at hlength
      simp only [List.length_append, List.length_cons, List.length_nil] at hlength
      omega

theorem Text.quote_notMem_flatMap_literalPart {t : Text} (h : CodePoint.scalar '\'' ∉ t) :
    CodePoint.scalar '\'' ∉ t.flatMap literalPart := fun hmem => by
  obtain ⟨c, hct, hc⟩ := List.mem_flatMap.1 hmem
  rcases literalPart_cases c with ⟨-, hpart⟩ | ⟨hescaped, d, hd, hpart⟩
  · rw [hpart, List.mem_singleton] at hc
    exact h (hc ▸ hct)
  · rw [hpart, List.mem_cons, List.mem_singleton] at hc
    rcases hc with hc | rfl
    · cases hc
    · -- only a quote is written with a quote
      have hquote : ∀ c ∈ ofString "\\'\n\r", literalPart c = [.scalar '\\', .scalar '\''] →
        c = .scalar '\'' := by decide
      exact h (hquote c hescaped hpart ▸ hct)

/-! ### Character references -/

/-- The character references that have a name. -/
structure References where
  /-- The code point that a name stands for. -/
  named? : Text → Option CodePoint
  /-- The less-than sign has a name. -/
  lt : named? "lt" = some (.scalar '<')
  /-- So has the greater-than sign. -/
  gt : named? "gt" = some (.scalar '>')

/-- A code point that may stand between the marks of a character reference. -/
def isReferencePart (c : CodePoint) : Bool := c.isWordLetter || c = .scalar '#'

/-- The code point of a number that is written with digits below `radix`. -/
def numbered? (radix : Nat) (digits : Text) : Option CodePoint :=
  if digits = [] then none
  else (digits.mapM (Numeral.digitBelow? radix)).bind fun values =>
    CodePoint.ofNat? (values.foldl (radix * · + ·) 0)

namespace References

variable (names : References)

/-- The code point that a decimal number, a hexadecimal number or a name stands for. -/
def pointed? : Text → Option CodePoint
  | .scalar '#' :: .scalar 'x' :: digits => numbered? 16 digits
  | .scalar '#' :: digits => numbered? 10 digits
  | name => names.named? name

/-- The code point that a character reference stands for, by what is between its marks. -/
def decoded? (body : Text) : Option CodePoint :=
  if body.all isReferencePart then names.pointed? body else none

/-- The character reference that a text behind `&` begins with, and what follows it. -/
def reference? (t : Text) : Option (CodePoint × Text) :=
  (Text.upTo? (.scalar ';') t).bind fun (body, rest) => (names.decoded? body).map (·, rest)

variable {names} {c d : CodePoint} {t u body rest : Text}

theorem isReferencePart_of_decoded? (h : names.decoded? body = some d) :
    ∀ c ∈ body, isReferencePart c = true := by
  rw [decoded?] at h
  split_ifs at h with hall
  exact List.all_eq_true.1 hall

/-- The marks of references, and what is written with references, stand in no reference. -/
theorem not_mem_of_isReferencePart (h : isReferencePart c = true) :
    c ∉ Text.ofString "&;\x7b\x7d<>" := by
  rcases Bool.or_eq_true_iff.1 h with h | h
  · exact of_isWordLetter (P := fun c => c ∉ Text.ofString "&;\x7b\x7d<>") (by decide +kernel) h
  · rw [of_decide_eq_true h]
    decide

theorem reference?_eq_some_iff : names.reference? t = some (d, rest) ↔
    ∃ body, t = body ++ .scalar ';' :: rest ∧ names.decoded? body = some d := by
  rw [reference?, Option.bind_eq_some_iff]
  constructor
  · rintro ⟨⟨body, rest'⟩, hsplit, hdecoded⟩
    obtain ⟨d', hd, heq⟩ := Option.map_eq_some_iff.1 hdecoded
    obtain ⟨rfl, rfl⟩ := Prod.mk.inj heq
    exact ⟨body, (Text.upTo?_eq_some_iff.1 hsplit).1, hd⟩
  · rintro ⟨body, ht, hd⟩
    have hmark : CodePoint.scalar ';' ∉ body := fun hmem =>
      not_mem_of_isReferencePart (isReferencePart_of_decoded? hd _ hmem) (by decide)
    exact ⟨(body, rest), Text.upTo?_eq_some_iff.2 ⟨ht, hmark⟩,
      Option.map_eq_some_iff.2 ⟨d, hd, rfl⟩⟩

theorem length_reference? (h : names.reference? t = some (d, rest)) : rest.length < t.length := by
  obtain ⟨body, rfl, -⟩ := reference?_eq_some_iff.1 h
  simp only [List.length_append, List.length_cons]
  omega

variable (names) in
/-- A text with its character references read. -/
def decode (t : Text) : Text :=
  match t with
  | [] => []
  | c :: t =>
    if c = .scalar '&' then
      match h : names.reference? t with
      | some (d, rest) =>
        have := length_reference? h
        d :: decode rest
      | none => c :: decode t
    else c :: decode t
termination_by t.length

variable (names) in
/-- There is a character reference in the text. -/
def IsIn (t : Text) : Prop :=
  ∃ before t', t = before ++ .scalar '&' :: t' ∧ (names.reference? t').isSome = true

theorem isIn_cons : names.IsIn (c :: t) ↔
    c = .scalar '&' ∧ (names.reference? t).isSome = true ∨ names.IsIn t := by
  constructor
  · rintro ⟨before, t', h, hsome⟩
    cases before with
    | nil =>
      obtain ⟨rfl, rfl⟩ := List.cons.inj h
      exact .inl ⟨rfl, hsome⟩
    | cons b before =>
      obtain ⟨rfl, rfl⟩ := List.cons.inj h
      exact .inr ⟨before, t', rfl, hsome⟩
  · rintro (⟨rfl, hsome⟩ | ⟨before, t', rfl, hsome⟩)
    · exact ⟨[], t, rfl, hsome⟩
    · exact ⟨c :: before, t', rfl, hsome⟩

/-- A text without `&` has no character reference. -/
theorem not_isIn_of_notMem (h : CodePoint.scalar '&' ∉ t) : ¬ names.IsIn t := by
  rintro ⟨before, t', rfl, -⟩
  exact h (by simp)

/-- The references that every page has, and no other names. -/
def common : References where
  named? name :=
    if name = Text.ofString "lt" then some (.scalar '<')
    else if name = Text.ofString "gt" then some (.scalar '>')
    else if name = Text.ofString "amp" then some (.scalar '&')
    else if name = Text.ofString "quot" then some (.scalar '"')
    else if name = Text.ofString "apos" then some (.scalar '\'')
    else none
  lt := by decide
  gt := by decide

/-! ### What reading loses -/

/-- The number of `&` and `;`. -/
def marks (t : Text) : Nat := t.countP fun c => c = .scalar '&' ∨ c = .scalar ';'

theorem marks_append (t u : Text) : marks (t ++ u) = marks t + marks u := List.countP_append

theorem marks_cons_le (c : CodePoint) (t : Text) : marks (c :: t) ≤ marks t + 1 := by
  rw [marks, List.countP_cons]
  exact Nat.add_le_add_left (by split_ifs <;> omega) _

/-- There are no more marks when a text is read, and fewer if there is a reference in it. -/
theorem marks_decode (t : Text) :
    marks (names.decode t) ≤ marks t ∧ (names.IsIn t → marks (names.decode t) < marks t) := by
  fun_induction decode names t with
  | case1 => exact ⟨Nat.le_refl _, by rintro ⟨_ | _, _, h, -⟩ <;> cases h⟩
  | case2 t d rest hreference _ ih =>
    obtain ⟨body, rfl, -⟩ := reference?_eq_some_iff.1 hreference
    -- the two marks of the reference make way for one code point
    have hwritten : marks (.scalar '&' :: (body ++ .scalar ';' :: rest)) =
        marks body + marks rest + 2 := by
      simp [marks, List.countP_append]
      omega
    have hread := marks_cons_le d (names.decode rest)
    omega
  | case3 t hnone ih =>
    have hcons (u : Text) : marks (.scalar '&' :: u) = marks u + 1 := by simp [marks]
    rw [hcons, hcons, isIn_cons, hnone]
    refine ⟨by omega, ?_⟩
    rintro (⟨-, h⟩ | h)
    · cases h
    · have := ih.2 h
      omega
  | case4 c t hc ih =>
    have hcons (u : Text) : marks (c :: u) = marks u + marks [c] := by
      simp [marks, List.countP_cons]
    rw [hcons, hcons t, isIn_cons]
    refine ⟨by omega, ?_⟩
    rintro (⟨h, -⟩ | h)
    · exact absurd h hc
    · have := ih.2 h
      omega

theorem decode_of_not_isIn (h : ¬ names.IsIn t) : names.decode t = t := by
  fun_induction decode names t with
  | case1 => rfl
  | case2 t d rest hreference =>
    exact absurd (isIn_cons.2 (.inl ⟨rfl, by rw [hreference]; rfl⟩)) h
  | case3 t _ ih => rw [ih fun hin => h (isIn_cons.2 (.inr hin))]
  | case4 c t _ ih => rw [ih fun hin => h (isIn_cons.2 (.inr hin))]

/-- What is read has as many marks as what is written only if nothing changes. -/
theorem eq_of_decode_eq (h : names.decode t = u) (hmarks : marks t ≤ marks u) :
    t = u ∧ ¬ names.IsIn t := by
  have hnone : ¬ names.IsIn t := fun hin => by
    have := (marks_decode t).2 hin
    rw [h] at this
    omega
  exact ⟨(decode_of_not_isIn hnone).symm.trans h, hnone⟩

theorem decode_eq_self_iff : names.decode t = t ↔ ¬ names.IsIn t :=
  ⟨fun h => (eq_of_decode_eq h (Nat.le_refl _)).2, decode_of_not_isIn⟩

/-! ### Values in quotes -/

variable (names) in
/-- The value of an attribute that a text begins with, which is in quotes, and what follows it. -/
def value? : Text → Option (Text × Text)
  | [] => none
  | quote :: t =>
    if quote = .scalar '\'' ∨ quote = .scalar '"' then
      (Text.upTo? quote t).map fun (body, rest) => (names.decode body, rest)
    else none

theorem value?_quote {quote : CodePoint} (hquote : quote = .scalar '\'' ∨ quote = .scalar '"')
    (hbody : quote ∉ body) (rest : Text) :
    names.value? (quote :: (body ++ quote :: rest)) = some (names.decode body, rest) := by
  rw [value?, if_pos hquote, Text.upTo?_eq_some_iff.2 ⟨rfl, hbody⟩]
  rfl

theorem length_value? {v : Text} (h : names.value? t = some (v, rest)) :
    rest.length < t.length := by
  cases t with
  | nil => cases h
  | cons quote t =>
    rw [value?] at h
    split_ifs at h
    obtain ⟨⟨body, rest'⟩, hsplit, heq⟩ := Option.map_eq_some_iff.1 h
    obtain ⟨-, rfl⟩ := Prod.mk.inj heq
    rw [(Text.upTo?_eq_some_iff.1 hsplit).1]
    simp only [List.length_cons, List.length_append]
    omega

/-- A text that is written as `written` is read as itself exactly if it is plain, and then what is
read ends where the text was meant to end. -/
def Reads (names : References) (written : Text → Text) (plain : Text → Prop) : Prop :=
  ∀ t rest, ∃ v rest', names.value? (written t ++ rest) = some (v, rest') ∧
    (v = t ↔ plain t) ∧ (plain t → rest' = rest)

theorem Reads.value?_eq_iff {written : Text → Text} {plain : Text → Prop}
    (h : names.Reads written plain) (t rest : Text) :
    names.value? (written t ++ rest) = some (t, rest) ↔ plain t := by
  obtain ⟨v, rest', hvalue, hplain, hends⟩ := h t rest
  rw [hvalue, Option.some_inj, Prod.mk.injEq, hplain]
  exact and_iff_left_of_imp hends

/-! ### String literals -/

theorem marks_literal (t : Text) : marks (t.flatMap Text.literalPart) = marks t := by
  induction t with
  | nil => rfl
  | cons c t ih =>
    have hpart : marks (Text.literalPart c) = marks [c] := by
      rcases Text.literalPart_cases c with ⟨-, hc⟩ | ⟨hescaped, -⟩
      · rw [hc]
      · have hall : ∀ c ∈ Text.ofString "\\'\n\r", marks (Text.literalPart c) = marks [c] := by
          decide
        exact hall c hescaped
    rw [List.flatMap_cons, marks_append, ih, hpart, ← marks_append, List.singleton_append]

/-- **A string literal as the value of an attribute** is read as the text that it was written for
exactly if it shows the text as it is, and no character reference is in it. -/
theorem reads_literal (names : References) :
    names.Reads Text.literal fun t => t.IsShown ∧ ¬ names.IsIn t := by
  intro t rest
  have hwritten : t.literal ++ rest =
      .scalar '\'' :: (t.flatMap Text.literalPart ++ .scalar '\'' :: rest) := by
    simp [Text.literal, Text.ofString]
  rw [hwritten]
  by_cases hquote : CodePoint.scalar '\'' ∈ t
  · -- the value ends behind the backslash in front of the first quote in the text
    obtain ⟨before, after, rfl, hbefore⟩ := List.eq_append_cons_of_mem hquote
    have hnot : ¬ Text.IsShown (before ++ .scalar '\'' :: after) := fun h =>
      h (.scalar '\'') (by simp) (by decide)
    have hbody : CodePoint.scalar '\'' ∉ before.flatMap Text.literalPart ++ [.scalar '\\'] :=
      fun hmem => (List.mem_append.1 hmem).elim (Text.quote_notMem_flatMap_literalPart hbefore)
        (by decide)
    refine ⟨names.decode (before.flatMap Text.literalPart ++ [.scalar '\\']),
      after.flatMap Text.literalPart ++ .scalar '\'' :: rest, ?_, ?_, fun h => absurd h.1 hnot⟩
    · rw [← value?_quote (.inl rfl) hbody]
      simp [Text.literalPart, Text.ofString]
    · refine iff_of_false (fun h => ?_) fun h => hnot h.1
      have hmarks : marks (before.flatMap Text.literalPart ++ [.scalar '\\']) ≤
          marks (before ++ .scalar '\'' :: after) := by
        rw [marks_append, marks_append, marks_literal]
        exact Nat.add_le_add_left (Nat.zero_le _) _
      rw [(eq_of_decode_eq h hmarks).1] at hbody
      exact hbody hquote
  · refine ⟨_, rest, value?_quote (.inl rfl) (Text.quote_notMem_flatMap_literalPart hquote) rest,
      ?_, fun _ => rfl⟩
    dsimp only
    rw [← Text.flatMap_literalPart_eq_self_iff]
    constructor
    · intro h
      obtain ⟨hself, hnone⟩ := eq_of_decode_eq h (marks_literal t).le
      rw [hself] at hnone
      exact ⟨hself, hnone⟩
    · rintro ⟨hself, hnone⟩
      rw [hself]
      exact decode_of_not_isIn hnone

/-! ### Texts as between tags -/

theorem decode_cons_of_ne (hc : c ≠ .scalar '&') (t : Text) :
    names.decode (c :: t) = c :: names.decode t := by
  rw [decode, if_neg hc]

theorem decode_of_reference? (h : names.reference? t = some (d, rest)) :
    names.decode (.scalar '&' :: t) = d :: names.decode rest := by
  rw [decode, if_pos rfl]
  split
  · rename_i d' rest' h'
    rw [h] at h'
    cases h'
    rfl
  · rename_i h'
    rw [h] at h'
    cases h'

theorem decode_of_reference?_eq_none (h : names.reference? t = none) :
    names.decode (.scalar '&' :: t) = .scalar '&' :: names.decode t := by
  rw [decode, if_pos rfl]
  split
  · rename_i h'
    rw [h] at h'
    cases h'
  · rfl

/-- A code point is written as it is, or as a reference to it. -/
theorem markupPart_cases (names : References) (c : CodePoint) :
    c ∉ Text.ofString "\x7b\x7d<>" ∧ Text.markupPart c = [c] ∨
      c ∈ Text.ofString "\x7b\x7d<>" ∧ ∃ body,
        Text.markupPart c = .scalar '&' :: (body ++ [.scalar ';']) ∧
          names.decoded? body = some c := by
  rw [Text.markupPart]
  split_ifs with hopening hclosing hless hgreater
  · exact .inr ⟨hopening ▸ by decide, "#123", rfl, hopening ▸ rfl⟩
  · exact .inr ⟨hclosing ▸ by decide, "#125", rfl, hclosing ▸ rfl⟩
  · exact .inr ⟨hless ▸ by decide, "lt", rfl, hless ▸ names.lt⟩
  · exact .inr ⟨hgreater ▸ by decide, "gt", rfl, hgreater ▸ names.gt⟩
  · refine .inl ⟨fun hmem => ?_, rfl⟩
    have hall : ∀ c ∈ Text.ofString "\x7b\x7d<>", c = .scalar '\x7b' ∨ c = .scalar '\x7d' ∨
        c = .scalar '<' ∨ c = .scalar '>' := by decide
    exact (hall c hmem).elim hopening fun h => h.elim hclosing fun h => h.elim hless hgreater

/-- What a text as between tags begins with and has no `&` the text itself begins with. -/
theorem exists_of_markup_eq_append (names : References) {u : Text}
    (hbody : CodePoint.scalar '&' ∉ body) (h : t.markup = body ++ u) :
    ∃ t', t = body ++ t' ∧ t'.markup = u := by
  induction body generalizing t with
  | nil => exact ⟨t, rfl, h⟩
  | cons b body ih =>
    rw [List.mem_cons, not_or] at hbody
    cases t with
    | nil => cases h
    | cons c t =>
      rw [Text.markup, List.flatMap_cons] at h
      rcases markupPart_cases names c with ⟨-, hc⟩ | ⟨-, _, hc, -⟩
      · rw [hc] at h
        obtain ⟨rfl, htail⟩ := List.cons.inj h
        obtain ⟨t', rfl, hu⟩ := ih (t := t) hbody.2 htail
        exact ⟨t', rfl, hu⟩
      · rw [hc] at h
        exact absurd (List.cons.inj h).1 hbody.1

/-- A reference has nothing to protect. -/
theorem markup_of_decoded? (h : names.decoded? body = some d) : body.markup = body := by
  have hpart : ∀ c ∈ body, Text.markupPart c = [c] := fun c hc => by
    have hplain := not_mem_of_isReferencePart (isReferencePart_of_decoded? h c hc)
    refine ((markupPart_cases names c).resolve_right fun hspecial => hplain ?_).2
    exact List.mem_append_right (Text.ofString "&;") hspecial.1
  calc body.flatMap Text.markupPart = body.flatMap fun c => [c] := List.flatMap_congr hpart
    _ = body := List.flatMap_singleton' body

/-- A text is read from what stands between tags as it is read itself. -/
theorem decode_markup (t : Text) : names.decode t.markup = names.decode t := by
  have hcons (c : CodePoint) (t : Text) : Text.markup (c :: t) = Text.markupPart c ++ t.markup :=
    List.flatMap_cons
  fun_induction decode names t with
  | case1 => rw [Text.markup, List.flatMap_nil, decode]
  | case2 t d rest hreference _ ih =>
    obtain ⟨body, rfl, hdecoded⟩ := reference?_eq_some_iff.1 hreference
    have hmarkup : Text.markup (body ++ .scalar ';' :: rest) =
        body ++ .scalar ';' :: rest.markup := by
      rw [Text.markup, List.flatMap_append, List.flatMap_cons]
      exact congrArg (· ++ .scalar ';' :: rest.markup) (markup_of_decoded? hdecoded)
    rw [hcons, hmarkup]
    exact (decode_of_reference? (reference?_eq_some_iff.2 ⟨body, rfl, hdecoded⟩)).trans
      (congrArg _ ih)
  | case3 t hnone ih =>
    have hmarkup : names.reference? (Text.markup t) = none := by
      refine Option.eq_none_iff_forall_ne_some.2 fun ⟨d, rest⟩ hsome => ?_
      obtain ⟨body, ht, hdecoded⟩ := reference?_eq_some_iff.1 hsome
      -- the reference would be one in the text itself
      have hbody : CodePoint.scalar '&' ∉ body ++ [.scalar ';'] := fun hmem =>
        (List.mem_append.1 hmem).elim (fun hmem => not_mem_of_isReferencePart
          (isReferencePart_of_decoded? hdecoded _ hmem) (by decide)) (by decide)
      obtain ⟨t', rfl, -⟩ := exists_of_markup_eq_append names hbody
        (show Text.markup t = body ++ [.scalar ';'] ++ rest by simp [ht])
      have hread : names.reference? (body ++ [.scalar ';'] ++ t') = some (d, t') :=
        reference?_eq_some_iff.2 ⟨body, by simp, hdecoded⟩
      rw [hnone] at hread
      cases hread
    rw [hcons]
    exact (decode_of_reference?_eq_none hmarkup).trans (congrArg _ ih)
  | case4 c t hc ih =>
    rw [hcons]
    rcases markupPart_cases names c with ⟨-, hpart⟩ | ⟨-, body, hpart, hdecoded⟩
    · rw [hpart, List.singleton_append, decode_cons_of_ne hc, ih]
    · rw [hpart, List.cons_append, List.append_assoc, List.singleton_append,
        decode_of_reference? (reference?_eq_some_iff.2 ⟨body, rfl, hdecoded⟩), ih]

theorem quotes_notMem_markup (names : References) (h : CodePoint.scalar '"' ∉ t) :
    CodePoint.scalar '"' ∉ t.markup := fun hmem => by
  obtain ⟨c, hct, hc⟩ := List.mem_flatMap.1 hmem
  rcases markupPart_cases names c with ⟨-, hpart⟩ | ⟨-, body, hpart, hdecoded⟩
  · rw [hpart, List.mem_singleton] at hc
    exact h (hc ▸ hct)
  · rw [hpart, List.mem_cons, List.mem_append, List.mem_singleton] at hc
    rcases hc with hc | hc | hc
    · cases hc
    · exact absurd (isReferencePart_of_decoded? hdecoded _ hc) (by decide)
    · cases hc

/-- **A text as between tags as the value of an attribute** in double quotes is read as the text
that it was written for exactly if the text has no double quote and no character reference in it. -/
theorem reads_markup (names : References) :
    names.Reads (fun t => "\"" ++ t.markup ++ "\"")
      fun t => CodePoint.scalar '"' ∉ t ∧ ¬ names.IsIn t := by
  intro t rest
  have hwritten : "\"" ++ t.markup ++ "\"" ++ rest =
      CodePoint.scalar '"' :: (t.markup ++ .scalar '"' :: rest) := by
    simp [Text.ofString]
  dsimp only
  rw [hwritten]
  by_cases hquote : CodePoint.scalar '"' ∈ t
  · -- the value ends in front of the first quote in the text
    obtain ⟨before, after, rfl, hbefore⟩ := List.eq_append_cons_of_mem hquote
    refine ⟨names.decode (Text.markup before), Text.markup after ++ .scalar '"' :: rest, ?_, ?_,
      fun h => absurd hquote h.1⟩
    · rw [← value?_quote (.inr rfl) (quotes_notMem_markup names hbefore)]
      simp [Text.markup, Text.markupPart]
    · refine iff_of_false (fun h => ?_) fun h => h.1 hquote
      rw [decode_markup] at h
      have hmarks : marks before ≤ marks (before ++ .scalar '"' :: after) := by
        rw [marks_append]
        exact Nat.le_add_right _ _
      rw [(eq_of_decode_eq h hmarks).1] at hbefore
      exact hbefore hquote
  · refine ⟨_, rest, value?_quote (.inr rfl) (quotes_notMem_markup names hquote) rest, ?_,
      fun _ => rfl⟩
    rw [decode_markup, decode_eq_self_iff]
    exact (and_iff_right hquote).symm

end References

end Scaffold
