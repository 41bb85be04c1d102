import Scaffold.Proofs.Hub.Lines
import Scaffold.Proofs.Hub.Presence
import Scaffold.Proofs.Token.Lexing

/-!
# Lists of icons

The import of icons in the navigation, written over several lines (`IconList`): the opening brace,
one name on each line with commas between them, and the closing brace.

* The text between the braces is read as the names, with commas between them
  (`IconList.lexesAs_inside`).
* A word that stands between the braces stands on the line of one of the names, and is this name or
  something in front of it (`IconList.hasWord_inside`).
* A line with one more name may be put in front of the closing brace if a comma stands there
  (`IconList.opening_put`).
-/

namespace Scaffold

open CodePoint

namespace Text

/-- Blanks and tabulators. -/
def IsIndent (t : Text) : Prop := ∀ c ∈ t, c = .scalar ' ' ∨ c = .scalar '\t'

instance (t : Text) : Decidable t.IsIndent :=
  inferInstanceAs (Decidable (∀ c ∈ t, c = .scalar ' ' ∨ c = .scalar '\t'))

end Text

open Text

/-- A name on a line of its own in an import. -/
structure ImportedName where
  /-- The blanks in front. -/
  indent : Text
  /-- The blanks behind the word `type`, where this stands in front of the name. -/
  gap? : Option Text
  /-- The name. -/
  name : Text
  /-- The end of the line. -/
  ending : LineEnd
  isIndent : indent.IsIndent
  isGap : ∀ gap ∈ gap?, gap ≠ [] ∧ gap.IsIndent
  isIdent : name.isIdent = true

namespace ImportedName

/-- What stands in front of the name. -/
def modifier (m : ImportedName) : Text :=
  match m.gap? with
  | some gap => "type" ++ gap
  | none => ""

/-- What follows the name: a comma or none, and the end of the line. -/
def separator (m : ImportedName) : (comma : Bool) → Text
  | true => "," ++ m.ending.text
  | false => m.ending.text

/-- The name and what follows it. -/
def rest (m : ImportedName) (comma : Bool) : Text := m.name ++ m.separator comma

/-- The line of a name, with or without a comma behind the name. -/
def text (m : ImportedName) (comma : Bool) : Text := m.indent ++ (m.modifier ++ m.rest comma)

/-- The words of the line. -/
def words (m : ImportedName) : List Text :=
  match m.gap? with
  | some _ => ["type", m.name]
  | none => [m.name]

/-- The tokens of the line, without the comma. -/
def lexemes (m : ImportedName) : List Lexeme := m.words.map (TokenKind.ident, ·)

end ImportedName

/-- An import of icons over several lines. -/
structure IconList where
  /-- The end of the line of the opening brace. -/
  ending : LineEnd
  /-- The names between the braces. -/
  names : List ImportedName
  /-- A comma stands behind the last name. -/
  trailing : Bool

namespace IconList

/-- A comma. -/
def comma : Lexeme := (.punct, ",")

/-- The lines of names. -/
def linesOf (trailing : Bool) : List ImportedName → Text
  | [] => []
  | [m] => m.text trailing
  | m :: ms => m.text true ++ linesOf trailing ms

/-- The tokens of names, with commas between them. -/
def lexemesOf (trailing : Bool) : List ImportedName → List Lexeme
  | [] => []
  | [m] => m.lexemes ++ (if trailing then [comma] else [])
  | m :: ms => m.lexemes ++ [comma] ++ lexemesOf trailing ms

/-- What stands between the braces. -/
def inside (L : IconList) : Text := L.ending.text ++ linesOf L.trailing L.names

/-- The tokens between the braces. -/
def lexemes (L : IconList) : List Lexeme := lexemesOf L.trailing L.names

/-- The lines above the closing brace. -/
def opening (L : IconList) : Text := "import \x7b" ++ L.inside

/-- What ends the import, up to its source. -/
def closing : Text := "\x7d from 'lucide-react'"

/-- The whole import, without the end of its last line. -/
def text (L : IconList) : Text := L.opening ++ closing

end IconList

/-! ### Tokens -/

theorem lexesAs_blanks {t : Text} (h : ∀ c ∈ t, c.isBlank = true) :
    LexesAs (fun _ => True) t [] := by
  induction t with
  | nil => exact .nil
  | cons c t ih =>
    obtain ⟨hc, ht⟩ := List.forall_mem_cons.1 h
    exact (lexesAs_blank hc).append_anywhere (ih ht)

theorem Text.IsIndent.isBlank {t : Text} (h : t.IsIndent) : ∀ c ∈ t, c.isBlank = true := by
  intro c hc
  rcases h c hc with rfl | rfl <;> decide

theorem LineEnd.isBlank (e : LineEnd) : ∀ c ∈ e.text, c.isBlank = true := by
  cases e <;> decide

namespace ImportedName

variable (m : ImportedName)

/-- A name and the end of its line, with or without a comma between them. -/
theorem lexesAs_rest (comma : Bool) :
    LexesAs (fun _ => True) (m.rest comma)
      ((.ident, m.name) :: if comma then [IconList.comma] else []) := by
  have hending := lexesAs_blanks m.ending.isBlank
  have hname := lexesAs_ident m.isIdent
  cases comma with
  | true =>
    have hcomma := (lexesAs_bracket (c := .scalar ',') (by decide)).append_anywhere hending
    exact hname.append_cons (by decide) hcomma
  | false =>
    -- the end of the line ends the name
    obtain ⟨c, u, hu, hc⟩ : ∃ c u, m.ending.text = c :: u ∧ isIdentPart c = false := by
      cases m.ending
      · exact ⟨_, _, rfl, by decide⟩
      · exact ⟨_, _, rfl, by decide⟩
    rw [hu] at hending
    rw [rest, separator, hu]
    exact hname.append_cons hc hending

/-- The line of a name is read as the name, wherever it stands. -/
theorem lexesAs_text (comma : Bool) :
    LexesAs (fun _ => True) (m.text comma)
      (m.lexemes ++ if comma then [IconList.comma] else []) := by
  have hindent := lexesAs_blanks m.isIndent.isBlank
  refine hindent.append_anywhere ?_
  rw [modifier, lexemes, words]
  cases hgap : m.gap? with
  | none => exact m.lexesAs_rest comma
  | some gap =>
    obtain ⟨hne, hblanks⟩ := m.isGap gap hgap
    obtain ⟨c, gap, rfl⟩ := List.exists_cons_of_ne_nil hne
    have hc : isIdentPart c = false := by
      rcases hblanks c List.mem_cons_self with rfl | rfl <;> decide
    have hrest := (lexesAs_blanks hblanks.isBlank).append_anywhere (m.lexesAs_rest comma)
    have htype : Text.isIdent "type" = true := by decide
    exact (lexesAs_ident htype).append_cons hc hrest

end ImportedName

namespace IconList

theorem lexesAs_linesOf (trailing : Bool) (ms : List ImportedName) :
    LexesAs (fun _ => True) (linesOf trailing ms) (lexemesOf trailing ms) := by
  induction ms with
  | nil => exact .nil
  | cons m ms ih =>
    cases ms with
    | nil => exact m.lexesAs_text trailing
    | cons m' ms => exact (m.lexesAs_text true).append_anywhere ih

/-- What stands between the braces is read as the names, wherever the import stands. -/
theorem lexesAs_inside (L : IconList) : LexesAs (fun _ => True) L.inside L.lexemes :=
  (lexesAs_blanks L.ending.isBlank).append_anywhere (lexesAs_linesOf L.trailing L.names)

end IconList

/-! ### Code points -/

/-- The code points of names and of what stands between them. -/
def IsListed (c : CodePoint) : Prop := c ≠ .scalar '\x7d' ∧ c ≠ .scalar '/'

instance : DecidablePred IsListed := fun c =>
  inferInstanceAs (Decidable (c ≠ .scalar '\x7d' ∧ c ≠ .scalar '/'))

instance (t : Text) : Decidable (t.Consists IsListed) :=
  inferInstanceAs (Decidable (∀ c ∈ t, IsListed c))

theorem Text.IsIndent.consists {t : Text} (h : t.IsIndent) : t.Consists IsListed := by
  intro c hc
  rcases h c hc with rfl | rfl <;> exact ⟨by decide, by decide⟩

theorem LineEnd.consists_isListed (e : LineEnd) : e.text.Consists IsListed := by
  cases e
  · exact fun c hc => by rw [List.mem_singleton.1 hc]; exact ⟨by decide, by decide⟩
  · intro c hc
    rcases List.mem_pair.1 hc with rfl | rfl <;> exact ⟨by decide, by decide⟩

theorem consists_isListed_of_isIdent {w : Text} (h : w.isIdent = true) : w.Consists IsListed := by
  have hpart {c : CodePoint} (hc : isIdentPart c = true) : IsListed c :=
    of_isIdentPart (P := IsListed) ⟨by decide, by decide⟩ (by decide +kernel) hc
  cases w with
  | nil => nofun
  | cons c w =>
    rw [Text.isIdent, Bool.and_eq_true, List.all_eq_true] at h
    exact List.forall_mem_cons.2
      ⟨hpart (isIdentPart_of_isIdentStart h.1), fun d hd => hpart (h.2 d hd)⟩

namespace ImportedName

variable (m : ImportedName)

theorem consists_text (comma : Bool) : (m.text comma).Consists IsListed := by
  have hmodifier : m.modifier.Consists IsListed := by
    rw [modifier]
    cases hgap : m.gap? with
    | none => nofun
    | some gap =>
      have htype : Text.Consists IsListed "type" := consists_isListed_of_isIdent (by decide)
      exact consists_append.2 ⟨htype, (m.isGap gap hgap).2.consists⟩
  have hseparator : (m.separator comma).Consists IsListed := by
    cases comma with
    | true =>
      have hcomma : Text.Consists IsListed "," := by decide
      exact consists_append.2 ⟨hcomma, m.ending.consists_isListed⟩
    | false => exact m.ending.consists_isListed
  have hname := consists_isListed_of_isIdent m.isIdent
  exact consists_append.2 ⟨m.isIndent.consists,
    consists_append.2 ⟨hmodifier, consists_append.2 ⟨hname, hseparator⟩⟩⟩

theorem separator_ne_nil (comma : Bool) : m.separator comma ≠ [] := by
  cases comma with
  | true => exact List.cons_ne_nil _ _
  | false => exact m.ending.text_ne_nil

/-- A word of a line stands in front of the end of the line. -/
theorem hasWord_text {w : Text} (hw : w.IsWord) (comma : Bool) {t : Text} :
    (m.text comma ++ t).HasWord w ↔ (m.modifier ++ m.name).HasWord w ∨ t.HasWord w := by
  have hindent : ∀ c ∈ m.indent, c.isWordPart = false := by
    intro c hc
    rcases m.isIndent c hc with rfl | rfl <;> decide
  have hseparator : ∀ c ∈ m.separator comma, c.isWordPart = false := by
    rw [separator.eq_def]
    cases comma <;> cases m.ending <;> decide
  have htext : m.text comma ++ t =
      m.indent ++ ((m.modifier ++ m.name) ++ (m.separator comma ++ t)) := by
    simp only [text, rest, List.append_assoc]
  rw [htext, hasWord_append_of_not hw hindent,
    hasWord_append hw (m.separator_ne_nil comma) hseparator]

/-- The name is a word of its line, whatever stands in front of it. -/
theorem hasWord_name : (m.modifier ++ m.name).HasWord m.name := by
  refine ⟨m.modifier, [], by rw [List.append_nil], ?_, rfl⟩
  rw [modifier]
  cases hgap : m.gap? with
  | none => rfl
  | some gap =>
    obtain ⟨hne, hgap⟩ := m.isGap gap hgap
    obtain ⟨u, c, rfl⟩ := (List.eq_nil_or_concat' gap).resolve_left hne
    dsimp only
    rw [← List.append_assoc, List.getLast?_concat]
    rcases hgap c (by simp) with rfl | rfl <;> rfl

end ImportedName

namespace IconList

theorem hasWord_linesOf {w : Text} (hw : w.IsWord) (trailing : Bool) (ms : List ImportedName) :
    (linesOf trailing ms).HasWord w ↔ ∃ m ∈ ms, (m.modifier ++ m.name).HasWord w := by
  induction ms with
  | nil => simpa [linesOf] using not_hasWord_nil hw
  | cons m ms ih =>
    rw [List.exists_mem_cons_iff]
    cases ms with
    | nil =>
      have hline := m.hasWord_text hw trailing (t := [])
      rw [List.append_nil] at hline
      simpa [not_hasWord_nil hw, linesOf] using hline
    | cons m' ms => exact (m.hasWord_text hw true).trans (or_congr_right ih)

/-- The words between the braces are those of the lines. -/
theorem hasWord_inside {w : Text} (hw : w.IsWord) (L : IconList) :
    L.inside.HasWord w ↔ ∃ m ∈ L.names, (m.modifier ++ m.name).HasWord w := by
  rw [inside, hasWord_append_of_not hw, hasWord_linesOf hw]
  cases L.ending <;> decide

theorem consists_linesOf (trailing : Bool) (ms : List ImportedName) :
    (linesOf trailing ms).Consists IsListed := by
  induction ms with
  | nil => nofun
  | cons m ms ih =>
    cases ms with
    | nil => exact m.consists_text trailing
    | cons m' ms => exact consists_append.2 ⟨m.consists_text true, ih⟩

theorem consists_opening (L : IconList) : L.opening.Consists IsListed := by
  have himport : Text.Consists IsListed "import \x7b" := by decide
  exact consists_append.2 ⟨himport,
    consists_append.2 ⟨L.ending.consists_isListed, consists_linesOf L.trailing L.names⟩⟩

/-- The closing brace is on a line of its own. -/
theorem isClosed_opening (L : IconList) : L.opening.IsClosed := by
  have hline (m : ImportedName) (comma : Bool) : (m.text comma).IsClosed := by
    have hseparator : (m.separator comma).IsClosed := by
      cases comma with
      | true => exact isClosed_append m.ending.isClosed_text fun h => absurd h m.ending.text_ne_nil
      | false => exact m.ending.isClosed_text
    refine isClosed_append (isClosed_append (isClosed_append hseparator ?_) ?_) ?_ <;>
      simp [ImportedName.rest, m.separator_ne_nil comma]
  have hlines (ms : List ImportedName) : (linesOf L.trailing ms).IsClosed := by
    induction ms with
    | nil => exact isClosed_nil
    | cons m ms ih =>
      cases ms with
      | nil => exact hline m L.trailing
      | cons m' ms => exact (hline m true).append ih
  exact isClosed_append (L.ending.isClosed_text.append (hlines L.names))
    fun h => absurd (List.append_eq_nil_iff.1 h).1 L.ending.text_ne_nil

/-! ### One more name -/

/-- The list with one more name at its end. -/
def put (L : IconList) (m : ImportedName) : IconList :=
  { L with names := L.names ++ [m], trailing := true }

theorem linesOf_true (ms : List ImportedName) :
    linesOf true ms = ms.flatMap fun m => m.text true := by
  induction ms with
  | nil => rfl
  | cons m ms ih =>
    rw [List.flatMap_cons, ← ih]
    cases ms with
    | nil => exact (List.append_nil _).symm
    | cons m' ms => rfl

/-- One more name is put in front of the closing brace, if a comma stands there or the list is
empty. -/
theorem opening_put {L : IconList} (hL : L.names = [] ∨ L.trailing = true) (m : ImportedName) :
    (L.put m).opening = L.opening ++ m.text true := by
  -- the line of the old last name stays as it is, since a comma stands behind the name already
  have hlines : linesOf true (L.names ++ [m]) = linesOf L.trailing L.names ++ m.text true := by
    rcases hL with hL | hL
    · rw [hL]
      rfl
    · rw [hL, linesOf_true, linesOf_true, List.flatMap_append, List.flatMap_singleton]
  change "import \x7b" ++ (L.ending.text ++ linesOf true (L.names ++ [m])) = _
  rw [hlines, opening, inside]
  simp only [List.append_assoc]

end IconList

end Scaffold
