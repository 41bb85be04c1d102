import Scaffold.Proofs.Token.Lexing

/-!
# The lexemes of plain data

Plain data (`Value.IsData`) is written as an expression that lexes as the lexemes of the data
(`Value.lexesAs_source`), before whatever ends a value.
-/

namespace Scaffold

open CodePoint

/-- The code point goes on with neither a name nor a number. -/
def EndsValue (c : CodePoint) : Prop := isIdentPart c = false ∧ EndsNumber c

instance (c : CodePoint) : Decidable (EndsValue c) :=
  inferInstanceAs (Decidable (isIdentPart c = false ∧ EndsNumber c))

namespace Value

mutual

/-- The value is plain data that can be read again: its numbers are integers that are not too long,
and the keys of an object are names, each of them there once. -/
def IsData : Value → Prop
  | null | bool _ | text _ => True
  | number (.integer i) => (Text.ofNat i.natAbs).length ≤ Numeral.maxDigits
  | number (.double _) => False
  | list vs => AllData vs
  | object m => (Members.keys m).Nodup ∧ AllMembersData m

/-- So are the items of a list. -/
def AllData : List Value → Prop
  | [] => True
  | v :: vs => IsData v ∧ AllData vs

/-- So are the members of an object, and their keys are names. -/
def AllMembersData : List (Text × Value) → Prop
  | [] => True
  | (k, v) :: m => k.isIdent = true ∧ IsData v ∧ AllMembersData m

end

end Value

/-- The lexemes of several parts, with commas between them. -/
def separated : List (List Lexeme) → List Lexeme
  | [] => []
  | [ls] => ls
  | ls :: ms :: lss => ls ++ (TokenKind.punct, Text.ofString ",") :: separated (ms :: lss)

/-- The lexemes of the member of an object whose value has the lexemes `ls`. -/
def keyed (key : Text) (ls : List Lexeme) : List Lexeme :=
  (TokenKind.ident, key) :: (TokenKind.punct, Text.ofString ":") :: ls

/-- The lexemes in brackets. -/
def bracketed (opener closer : Text) (ls : List Lexeme) : List Lexeme :=
  (TokenKind.punct, opener) :: (ls ++ [(TokenKind.punct, closer)])

namespace Value

mutual

/-- The lexemes of plain data. -/
def lexemes : Value → List Lexeme
  | null => [(.ident, "undefined")]
  | bool b => [(.ident, if b then "true" else "false")]
  | number (.integer (.ofNat n)) => [(.number, Text.ofNat n)]
  | number (.integer (.negSucc n)) => [(.punct, "-"), (.number, Text.ofNat (n + 1))]
  | number (.double _) => []
  | text t => [(.string, t)]
  | list vs => bracketed "[" "]" (separated (itemLexemes vs))
  | object m => bracketed "\x7b" "\x7d" (separated (memberLexemes m))

/-- The lexemes of each item of a list. -/
def itemLexemes : List Value → List (List Lexeme)
  | [] => []
  | v :: vs => lexemes v :: itemLexemes vs

/-- The lexemes of each member of an object. -/
def memberLexemes : List (Text × Value) → List (List Lexeme)
  | [] => []
  | (k, v) :: m => keyed k (lexemes v) :: memberLexemes m

end

theorem itemLexemes_eq (vs : List Value) : itemLexemes vs = vs.map lexemes := by
  induction vs with
  | nil => rfl
  | cons v vs ih => rw [itemLexemes, ih, List.map_cons]

theorem memberLexemes_eq (m : List (Text × Value)) :
    memberLexemes m = m.map fun e => keyed e.1 e.2.lexemes := by
  induction m with
  | nil => rfl
  | cons e m ih => rw [memberLexemes, ih, List.map_cons]

theorem sourceItems_eq (vs : List Value) : sourceItems vs = Text.join ", " (vs.map source) := by
  induction vs with
  | nil => rfl
  | cons v vs ih =>
    cases vs with
    | nil => rfl
    | cons w vs => simp only [sourceItems, ih, List.map_cons, Text.join]

theorem sourceMembers_eq (m : List (Text × Value)) :
    sourceMembers m = Text.join ", " (m.map fun e => e.1 ++ ": " ++ e.2.source) := by
  induction m with
  | nil => rfl
  | cons e m ih =>
    cases m with
    | nil => rfl
    | cons d m => simp only [sourceMembers, ih, List.map_cons, Text.join]

theorem allMembersData_iff {m : List (Text × Value)} :
    AllMembersData m ↔ ∀ e ∈ m, e.1.isIdent = true ∧ e.2.IsData := by
  induction m with
  | nil => simp [AllMembersData]
  | cons e m ih => rw [AllMembersData, ih, List.forall_mem_cons, and_assoc]

end Value

/-! ### Written parts -/

theorem lexesAs_comma : LexesAs (fun _ => True) ", " [(.punct, ",")] :=
  (lexesAs_bracket (by decide)).append_anywhere (lexesAs_blank (by decide))

theorem lexesAs_colon : LexesAs (fun _ => True) ": " [(.punct, ":")] :=
  (lexesAs_bracket (by decide)).append_anywhere (lexesAs_blank (by decide))

/-- Parts that a comma may follow lex one after the other. -/
theorem lexesAs_join {α : Type} {p : CodePoint → Prop} {src : α → Text} {lex : α → List Lexeme}
    {parts : List α} (hp : p (.scalar ','))
    (h : ∀ a ∈ parts, LexesAs p (src a) (lex a)) :
    LexesAs p (Text.join ", " (parts.map src)) (separated (parts.map lex)) := by
  induction parts with
  | nil => exact .nil
  | cons a parts ih =>
    rw [List.forall_mem_cons] at h
    cases parts with
    | nil => exact h.1
    | cons b parts =>
      have hrest := lexesAs_comma.append_anywhere (ih h.2)
      rw [List.map_cons, List.map_cons, Text.join, ← List.map_cons, List.append_assoc]
      exact h.1.append_cons hp hrest

theorem lexesAs_key {k src : Text} {p : CodePoint → Prop} {ls : List Lexeme}
    (hk : k.isIdent = true) (h : LexesAs p src ls) :
    LexesAs p (k ++ ": " ++ src) (keyed k ls) :=
  ((lexesAs_ident hk).append_cons (by decide) lexesAs_colon).append_anywhere h

/-! ### Written data -/

namespace Value

theorem lexesAs_ofInt (i : Int) :
    LexesAs EndsNumber (Text.ofInt i) (number (.integer i)).lexemes := by
  cases i with
  | ofNat n =>
    rw [lexemes]
    exact lexesAs_ofNat n
  | negSucc n =>
    have hdigits : ∀ rest : Text, ∀ c ∈ (Text.ofNat (n + 1) ++ rest).head?,
        c.isAsciiDigit = true := by
      intro rest c hc
      obtain ⟨d, ds, hd⟩ := List.exists_cons_of_ne_nil (Nat.toDigits_ne_nil (b := 10) (n := n + 1))
      rw [Text.ofNat, hd, List.map_cons, List.cons_append, List.head?_cons,
        Option.mem_some_iff] at hc
      rw [← hc]
      exact Nat.isDigit_of_mem_toDigits (b := 10) (n := n + 1) (by decide) (by decide)
        (hd ▸ List.mem_cons_self)
    rw [lexemes]
    exact lexesAs_minus.append (lexesAs_ofNat (n + 1)) fun rest _ => hdigits rest

theorem lexesAs_name {w : Text} (hw : w.isIdent = true) : LexesAs EndsValue w [(.ident, w)] :=
  (lexesAs_ident hw).mono fun _ h => h.1

theorem lexesAs_list {vs : List Value} (h : ∀ v ∈ vs, LexesAs EndsValue v.source v.lexemes) :
    LexesAs EndsValue (list vs).source (list vs).lexemes := by
  have hopen : LexesAs (fun _ => True) "[" [(.punct, "[")] := lexesAs_bracket (by decide)
  have hclose : LexesAs EndsValue "]" [(.punct, "]")] :=
    (lexesAs_bracket (by decide)).mono fun _ _ => trivial
  rw [source, lexemes, sourceItems_eq, itemLexemes_eq]
  exact (hopen.append_anywhere (lexesAs_join (by decide) h)).append_cons (by decide) hclose

theorem lexesAs_object {m : List (Text × Value)}
    (h : ∀ e ∈ m, LexesAs EndsValue (e.1 ++ ": " ++ e.2.source) (keyed e.1 e.2.lexemes)) :
    LexesAs EndsValue (object m).source (object m).lexemes := by
  have hopen : LexesAs (fun _ => True) "\x7b" [(.punct, "\x7b")] := lexesAs_bracket (by decide)
  have hclose : LexesAs EndsValue "\x7d" [(.punct, "\x7d")] :=
    (lexesAs_bracket (by decide)).mono fun _ _ => trivial
  rw [lexemes, memberLexemes_eq]
  cases m with
  | nil =>
    rw [source]
    exact hopen.append_anywhere hclose
  | cons e m =>
    have hopen' := hopen.append_anywhere (lexesAs_blank (c := .scalar ' ') (by decide))
    have hclose' := (lexesAs_blank (c := .scalar ' ') (by decide)).append_anywhere hclose
    rw [source, sourceMembers_eq]
    exact (hopen'.append_anywhere (lexesAs_join (by decide) h)).append_cons (by decide) hclose'

mutual

/-- **Plain data lexes as its lexemes.** -/
theorem lexesAs_source : (v : Value) → v.IsData → LexesAs EndsValue v.source v.lexemes
  | null, _ => by
    rw [source, lexemes]
    exact lexesAs_name (w := Text.ofString "undefined") (by decide)
  | bool true, _ => by
    rw [source, lexemes]
    exact lexesAs_name (w := Text.ofString "true") (by decide)
  | bool false, _ => by
    rw [source, lexemes]
    exact lexesAs_name (w := Text.ofString "false") (by decide)
  | number (.integer i), _ => by
    rw [source, Number.source]
    exact (lexesAs_ofInt i).mono fun _ h => h.2
  | number (.double _), h => by
    rw [IsData] at h
    exact h.elim
  | text t, _ => by
    rw [source, lexemes]
    exact (lexesAs_literal t).mono fun _ _ => trivial
  | list vs, h => by
    rw [IsData] at h
    exact lexesAs_list (lexesAs_items vs h)
  | object m, h => by
    rw [IsData] at h
    exact lexesAs_object (lexesAs_members m h.2)

/-- So does each item of a list. -/
theorem lexesAs_items : (vs : List Value) → AllData vs →
    ∀ v ∈ vs, LexesAs EndsValue v.source v.lexemes
  | [], _ => fun _ h => nomatch h
  | v :: vs, h => by
    rw [AllData] at h
    exact List.forall_mem_cons.2 ⟨lexesAs_source v h.1, lexesAs_items vs h.2⟩

/-- So does each member of an object. -/
theorem lexesAs_members : (m : List (Text × Value)) → AllMembersData m →
    ∀ e ∈ m, LexesAs EndsValue (e.1 ++ ": " ++ e.2.source) (keyed e.1 e.2.lexemes)
  | [], _ => fun _ h => nomatch h
  | (k, v) :: m, h => by
    rw [AllMembersData] at h
    exact List.forall_mem_cons.2
      ⟨lexesAs_key h.1 (lexesAs_source v h.2.1), lexesAs_members m h.2.2⟩

end

end Value

end Scaffold
