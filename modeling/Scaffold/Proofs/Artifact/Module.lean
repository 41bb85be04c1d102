import Scaffold.Artifact.Code
import Scaffold.Proofs.Hub.Importing
import Scaffold.Proofs.Text.Capitals
import Scaffold.Token.Lexer

/-!
# What a module imports and exports

A text of generated code is read as a module: its imports are at its beginning, behind comments
(`Code.imports`), its exports are the declarations that begin lines with `export`
(`Code.exports`), and a line of a hub passes on what another module exports (`Code.reexport?`).

Names are made of the letters of identifiers (`CodePoint.isNamePart`), and everything else stands
between names.  An import line that is written with `importLine` is read again
(`Code.imports_importLine`), as is a declaration (`Code.mem_exports_unlines`).
-/

namespace Scaffold

/-! ### Names -/

/-- A code point that may stand in an identifier: a letter, a digit, `_` or `$`, or beyond ASCII. -/
def CodePoint.isNamePart (c : CodePoint) : Bool := isIdentPart c || 128 ≤ c.toNat

theorem CodePoint.isNamePart_of_isCapitalOrWide {c : CodePoint} (h : IsCapitalOrWide c.toNat) :
    c.isNamePart = true := by
  rcases h with ⟨hfirst, hlast⟩ | h
  · cases c with
    | surrogate u =>
      rw [toNat] at hlast
      omega
    | scalar c =>
      have hupper : c.isUpper = true := decide_eq_true
        ⟨UInt32.le_iff_toNat_le.2 hfirst, UInt32.le_iff_toNat_le.2 hlast⟩
      have hletter : c.isAlpha = true := Bool.or_eq_true_iff.2 (.inl hupper)
      simp [isNamePart, isIdentPart, isIdentStart, isAsciiLetter, satisfies, hletter]
  · simp [isNamePart, h]

namespace Text

open CodePoint

/-- The text is a name; every identifier is one. -/
def IsName (t : Text) : Prop := t ≠ [] ∧ ∀ c ∈ t, c.isNamePart = true

instance (t : Text) : Decidable t.IsName :=
  inferInstanceAs (Decidable (t ≠ [] ∧ ∀ c ∈ t, c.isNamePart = true))

variable {s t : Text} {c : CodePoint}

theorem isName_of_isIdent (h : t.isIdent = true) : t.IsName := by
  cases t with
  | nil => cases h
  | cons c t =>
    rw [isIdent, Bool.and_eq_true, List.all_eq_true] at h
    refine ⟨List.cons_ne_nil c t, fun d hd => ?_⟩
    have hpart : isIdentPart d = true := by
      rcases List.mem_cons.1 hd with rfl | hd
      · rw [isIdentPart, h.1, Bool.true_or]
      · exact h.2 d hd
    rw [isNamePart, hpart, Bool.true_or]

theorem IsName.not_mem (h : t.IsName) (hc : c.isNamePart = false) : c ∉ t := fun hm => by
  rw [h.2 c hm] at hc
  cases hc

theorem IsName.append (hs : s.IsName) (ht : t.IsName) : (s ++ t).IsName :=
  ⟨by simp [hs.1], fun c hc => (List.mem_append.1 hc).elim (hs.2 c) (ht.2 c)⟩

theorem IsName.isInline (h : t.IsName) : t.IsInline := h.not_mem (by decide)

/-- A name with a capital first letter is a name. -/
theorem IsName.capitalize (h : t.IsName) : t.capitalize.IsName :=
  ⟨capitalize_ne_nil h.1, fun c hc =>
    (mem_capitalize_ascii hc).elim (h.2 c) isNamePart_of_isCapitalOrWide⟩

end Text

namespace Code

open CodePoint Text

/-- The names in a text, in their order. -/
def nameWords (t : Text) : List Text := (t.splitOnP (!·.isNamePart)).filter (· ≠ [])

theorem nameWords_of_break {c : CodePoint} (hc : c.isNamePart = false) (s t : Text) :
    nameWords (s ++ c :: t) = nameWords s ++ nameWords t := by
  rw [nameWords, List.splitOnP_append_cons s t (by simp [hc]), List.filter_append]
  rfl

theorem nameWords_of_isName {t : Text} (h : t.IsName) : nameWords t = [t] := by
  rw [nameWords, List.splitOnP_eq_singleton fun c hc => by simp [h.2 c hc]]
  simp [h.1]

theorem nameWords_spaced (t : Text) : nameWords (spaced t) = nameWords t := by
  have hspaced : spaced t = [] ++ .scalar '\x7b' :: ([] ++ .scalar ' ' ::
      (t ++ .scalar ' ' :: ([] ++ .scalar '\x7d' :: []))) := by
    simp [spaced, ofString]
  rw [hspaced, nameWords_of_break rfl, nameWords_of_break rfl, nameWords_of_break rfl,
    nameWords_of_break rfl]
  exact List.append_nil _

/-! ### Clauses -/

/-- The name that a part of an import clause stands for: behind the word `type`, if it is there, and
before the words that rename it. -/
def specifier? : List Text → Option Text
  | [] => none
  | [name] => some name
  | word :: name :: _ => some (if word = Text.ofString "type" then name else word)

/-- The names in an import clause. -/
def clauseNames (clause : Text) : List Text :=
  (clause.splitOnP (· = .scalar ',')).filterMap fun part => specifier? (nameWords part)

/-- A clause and the source behind it. -/
def clause? (t : Text) : Option (Text × Text) :=
  (cut? " from '" t).map fun (clause, rest) => (clause, rest.takeWhile (· ≠ .scalar '\''))

/-- The text stays on one line and between quotes. -/
def IsBare (t : Text) : Prop := .scalar '\'' ∉ t ∧ t.IsInline

instance (t : Text) : Decidable (IsBare t) :=
  inferInstanceAs (Decidable (.scalar '\'' ∉ t ∧ t.IsInline))

variable {s t x y clause source : Text} {ls : List Text}

theorem isBare_append : IsBare (s ++ t) ↔ IsBare s ∧ IsBare t := by
  simp only [IsBare, isInline_append, List.mem_append, not_or]
  tauto

theorem isBare_of_isName (h : t.IsName) : IsBare t := ⟨h.not_mem (by decide), h.isInline⟩

theorem isBare_around (hs : IsBare s) (hx : x.IsName) (ht : IsBare t) : IsBare (s ++ x ++ t) :=
  isBare_append.2 ⟨isBare_append.2 ⟨hs, isBare_of_isName hx⟩, ht⟩

theorem isBare_fixed {cs : List Char} (h : IsBare (cs.map .scalar)) :
    IsBare (String.ofList cs) := of_ofList IsBare h

theorem isBare_spaced (h : IsBare t) : IsBare (spaced t) :=
  isBare_append.2 ⟨isBare_append.2 ⟨by decide, h⟩, by decide⟩

theorem clause?_append (hclause : IsBare clause) (hsource : IsBare source) (rest : Text) :
    clause? (clause ++ (" from '" ++ (source ++ ("'" ++ rest)))) = some (clause, source) := by
  have hcut : cut? " from '" (clause ++ (" from '" ++ (source ++ ("'" ++ rest)))) =
      some (clause, source ++ ("'" ++ rest)) := by
    refine Text.cut?_of_first (List.cons_ne_nil _ _) ?_
    -- the quote of the word is the first one
    rw [Bool.eq_false_iff, ne_eq, includes_eq_true]
    intro h
    have hquote : CodePoint.scalar '\'' ∈ clause ++ ofString " from " := h.subset (by decide)
    exact (List.mem_append.1 hquote).elim hclause.1 (by decide)
  have hsource' :
      (source ++ (Text.ofString "'" ++ rest)).takeWhile (· ≠ .scalar '\'') = source := by
    rw [List.takeWhile_append_of_pos fun c hc => by
      simpa using fun h : c = .scalar '\'' => hsource.1 (h ▸ hc)]
    exact List.append_nil _
  rw [clause?, hcut]
  exact congrArg (fun source => some (clause, source)) hsource'

theorem clauseNames_of_not_mem (h : .scalar ',' ∉ clause) :
    clauseNames clause = (specifier? (nameWords clause)).toList := by
  have hsplit : clause.splitOnP (· = .scalar ',') = [clause] :=
    List.splitOnP_eq_singleton fun c hc => by simpa using fun he : c = .scalar ',' => h (he ▸ hc)
  rw [clauseNames, hsplit]
  cases hs : specifier? (nameWords clause) <;> simp [hs]

theorem comma_not_mem_spaced (h : .scalar ',' ∉ t) : .scalar ',' ∉ spaced t := by
  simpa [spaced, ofString] using h

theorem clauseNames_name (hx : x.IsName) : clauseNames (spaced x) = [x] := by
  rw [clauseNames_of_not_mem (comma_not_mem_spaced (hx.not_mem (by decide))), nameWords_spaced,
    nameWords_of_isName hx]
  rfl

theorem clauseNames_fixed {cs : List Char} {names : List Text}
    (h : clauseNames (spaced (cs.map .scalar)) = names) :
    clauseNames (spaced (String.ofList cs)) = names := by
  rw [ofString_ofList, h]

/-- A name that is imported under another one. -/
theorem clauseNames_renamed (hx : x.IsName) (htype : x ≠ Text.ofString "type") (hy : y.IsName) :
    clauseNames (spaced (x ++ " as " ++ y)) = [x] := by
  have hcomma : .scalar ',' ∉ x ++ " as " ++ y := by
    simp only [List.mem_append, not_or]
    exact ⟨⟨hx.not_mem (by decide), by decide⟩, hy.not_mem (by decide)⟩
  have hsplit : x ++ Text.ofString " as " ++ y =
      x ++ .scalar ' ' :: (Text.ofString "as" ++ .scalar ' ' :: y) := by
    simp [ofString]
  rw [clauseNames_of_not_mem (comma_not_mem_spaced hcomma), nameWords_spaced, hsplit,
    nameWords_of_break rfl, nameWords_of_break rfl, nameWords_of_isName hx, nameWords_of_isName hy,
    nameWords_of_isName (by decide)]
  simp [specifier?, htype]

theorem nameWords_type {t : Text} (ht : nameWords t = [x]) :
    nameWords ("type " ++ t) = [Text.ofString "type", x] := by
  have hsplit : Text.ofString "type " ++ t = Text.ofString "type" ++ .scalar ' ' :: t := by
    simp [ofString]
  rw [hsplit, nameWords_of_break rfl, nameWords_of_isName (by decide), ht]
  rfl

theorem clauseNames_type (hx : x.IsName) : clauseNames ("type " ++ spaced x) = [x] := by
  have hcomma : .scalar ',' ∉ Text.ofString "type " ++ spaced x := by
    rw [List.mem_append, not_or]
    exact ⟨by decide, comma_not_mem_spaced (hx.not_mem (by decide))⟩
  rw [clauseNames_of_not_mem hcomma, nameWords_type (by
    rw [nameWords_spaced, nameWords_of_isName hx])]
  simp [specifier?]

theorem clauseNames_comma (s t : Text) :
    clauseNames (s ++ .scalar ',' :: t) = clauseNames s ++ clauseNames t := by
  rw [clauseNames, List.splitOnP_append_cons s t (by simp), List.filterMap_append]
  rfl

/-- A name and the name of a type. -/
theorem clauseNames_with_type (hx : x.IsName) (hy : y.IsName) :
    clauseNames (spaced (x ++ ", type " ++ y)) = [x, y] := by
  have hsplit : spaced (x ++ ", type " ++ y) = (Text.ofString "\x7b " ++ x) ++
      .scalar ',' :: (Text.ofString " type " ++ (y ++ Text.ofString " \x7d")) := by
    simp [spaced, ofString]
  have hname : nameWords (Text.ofString "\x7b " ++ x) = [x] := by
    have hbreaks : Text.ofString "\x7b " ++ x = [] ++ .scalar '\x7b' :: ([] ++ .scalar ' ' :: x) :=
      rfl
    rw [hbreaks, nameWords_of_break rfl, nameWords_of_break rfl, nameWords_of_isName hx]
    rfl
  have htype : nameWords (Text.ofString " type " ++ (y ++ Text.ofString " \x7d")) =
      [Text.ofString "type", y] := by
    have hbreaks : Text.ofString " type " ++ (y ++ Text.ofString " \x7d") = [] ++ .scalar ' ' ::
        (Text.ofString "type " ++ (y ++ .scalar ' ' :: Text.ofString "\x7d")) := rfl
    rw [hbreaks, nameWords_of_break rfl, nameWords_type (x := y)]
    · rfl
    · rw [nameWords_of_break rfl, nameWords_of_isName hy]
      rfl
  have hcomma : .scalar ',' ∉ Text.ofString "\x7b " ++ x :=
    List.not_mem_append (by decide) (hx.not_mem (by decide))
  have hcomma' : .scalar ',' ∉ Text.ofString " type " ++ (y ++ Text.ofString " \x7d") :=
    List.not_mem_append (by decide) (List.not_mem_append (hy.not_mem (by decide)) (by decide))
  rw [hsplit, clauseNames_comma, clauseNames_of_not_mem hcomma, clauseNames_of_not_mem hcomma',
    hname, htype]
  simp [specifier?]

theorem nameWords_of_breaks {s : Text} (h : ∀ c ∈ s, c.isNamePart = false) (t : Text) :
    nameWords (s ++ t) = nameWords t := by
  induction s with
  | nil => rfl
  | cons c s ih =>
    rw [List.forall_mem_cons] at h
    exact (nameWords_of_break h.1 [] (s ++ t)).trans (ih h.2)

/-- The clause of an import has the names that it is written for. -/
theorem clauseNames_join {names : List Text} (hne : names ≠ []) (h : ∀ x ∈ names, x.IsName) :
    clauseNames (spaced (Text.join ", " names)) = names := by
  -- the names behind the first one have a blank in front of them and no brace
  have hbehind : ∀ (x : Text) (xs : List Text) (before : Text),
      (∀ c ∈ before, c.isNamePart = false) → .scalar ',' ∉ before → (∀ y ∈ x :: xs, y.IsName) →
      clauseNames (before ++ (Text.join ", " (x :: xs) ++ " \x7d")) = x :: xs := by
    intro x xs
    induction xs generalizing x with
    | nil =>
      intro before hbreaks hcomma hx
      obtain ⟨hx, -⟩ := List.forall_mem_cons.1 hx
      have hclause : .scalar ',' ∉ before ++ (Text.join ", " [x] ++ " \x7d") :=
        List.not_mem_append hcomma (List.not_mem_append (hx.not_mem (by decide)) (by decide))
      have hend : Text.join ", " [x] ++ Text.ofString " \x7d" = x ++ .scalar ' ' :: "\x7d" := rfl
      rw [clauseNames_of_not_mem hclause, nameWords_of_breaks hbreaks, hend, nameWords_of_break rfl,
        nameWords_of_isName hx]
      rfl
    | cons y ys ih =>
      intro before hbreaks hcomma hx
      obtain ⟨hx, hys⟩ := List.forall_mem_cons.1 hx
      have hsplit : before ++ (Text.join ", " (x :: y :: ys) ++ " \x7d") =
          (before ++ x) ++ CodePoint.scalar ',' ::
            (Text.ofString " " ++ (Text.join ", " (y :: ys) ++ Text.ofString " \x7d")) := by
        simp [Text.join, ofString]
      rw [hsplit, clauseNames_comma, ih y " " (by decide) (by decide) hys,
        clauseNames_of_not_mem (List.not_mem_append hcomma (hx.not_mem (by decide))),
        nameWords_of_breaks hbreaks, nameWords_of_isName hx]
      rfl
  obtain ⟨x, xs, rfl⟩ := List.exists_cons_of_ne_nil hne
  have hspaced : spaced (Text.join ", " (x :: xs)) =
      "\x7b " ++ (Text.join ", " (x :: xs) ++ " \x7d") := by
    simp [spaced]
  rw [hspaced]
  exact hbehind x xs _ (by decide) (by decide) h

/-! ### Imports -/

/-- An import of a module. -/
structure Import where
  /-- The names, as the other module exports them. -/
  names : List Text
  /-- The other module. -/
  source : Text
  deriving DecidableEq, Repr

/-- The import at the beginning of a text, if its source is there. -/
def importAt? (t : Text) : Option Import :=
  (dropStart? "import " t).bind fun rest =>
    (clause? rest).map fun (clause, source) => ⟨clauseNames clause, source⟩

/-- The imports at the beginning of some lines; the text before them is the beginning of an import
that is not complete. -/
def importsFrom : Text → List Text → List Import
  | _, [] => []
  | before, line :: lines =>
    let t := before ++ line
    if t.startsWith "//" then importsFrom [] lines
    else if t.startsWith "import " then
      match importAt? t with
      | some i => i :: importsFrom [] lines
      | none => importsFrom t lines
    else []

/-- The imports of a module. -/
def imports (t : Text) : List Import := importsFrom [] t.lines

theorem importsFrom_of_some {before line : Text} {i : Import}
    (hcomment : (before ++ line).startsWith "//" = false)
    (himport : (before ++ line).startsWith "import " = true)
    (h : importAt? (before ++ line) = some i) (lines : List Text) :
    importsFrom before (line :: lines) = i :: importsFrom [] lines := by
  rw [importsFrom, hcomment, himport, h]
  rfl

theorem importsFrom_of_none {before line : Text}
    (hcomment : (before ++ line).startsWith "//" = false)
    (himport : (before ++ line).startsWith "import " = true)
    (h : importAt? (before ++ line) = none) (lines : List Text) :
    importsFrom before (line :: lines) = importsFrom (before ++ line) lines := by
  rw [importsFrom, hcomment, himport, h]
  rfl

theorem imports_unlines_cons {line : Text} (h : line.IsInline) (ls : List Text) :
    imports (unlines (line :: ls)) =
      importsFrom [] ((line ++ [newline]) :: (unlines ls).lines) := by
  rw [imports, unlines_cons, lines_inline_append h]

theorem imports_header (ls : List Text) :
    imports (unlines (header :: ls)) = imports (unlines ls) := by
  rw [imports_unlines_cons (by decide)]
  rfl

/-- The imports end at an empty line. -/
theorem imports_empty_line (ls : List Text) : imports (unlines ([] :: ls)) = [] := by
  rw [imports_unlines_cons isInline_nil]
  rfl

theorem imports_clause (hclause : IsBare clause) (hsource : IsBare source) (ls : List Text) :
    imports (unlines (("import " ++ clause ++ " from '" ++ source ++ "'") :: ls)) =
      ⟨clauseNames clause, source⟩ :: imports (unlines ls) := by
  have hinline : IsInline ("import " ++ clause ++ " from '" ++ source ++ "'") := by
    simp only [isInline_append]
    exact ⟨⟨⟨⟨by decide, hclause.2⟩, by decide⟩, hsource.2⟩, by decide⟩
  have hsplit : Text.ofString "import " ++ clause ++ " from '" ++ source ++ "'" ++ [newline] =
      "import " ++ (clause ++ (" from '" ++ (source ++ ("'" ++ [newline])))) := by
    simp only [List.append_assoc]
  rw [imports_unlines_cons hinline]
  refine importsFrom_of_some ?_ ?_ ?_ _ <;> rw [List.nil_append, hsplit]
  · rfl
  · exact startsWith_iff.2 (List.prefix_append _ _)
  · rw [importAt?, dropStart?_append, Option.bind_some, clause?_append hclause hsource]
    rfl

theorem imports_importLine {names : Text} (hnames : IsBare names) (hsource : IsBare source)
    (ls : List Text) :
    imports (unlines (importLine names source :: ls)) =
      ⟨clauseNames (spaced names), source⟩ :: imports (unlines ls) := by
  rw [importLine]
  exact imports_clause (isBare_spaced hnames) hsource ls

/-- One name from another module, both of them fixed. -/
theorem imports_fixed {name source : List Char} (hname : IsName (name.map .scalar))
    (hsource : IsBare (source.map .scalar)) (ls : List Text) :
    imports (unlines (importLine (String.ofList name) (String.ofList source) :: ls)) =
      ⟨[Text.ofString (String.ofList name)], Text.ofString (String.ofList source)⟩ ::
        imports (unlines ls) := by
  have hname' : IsName (String.ofList name) := of_ofList IsName hname
  rw [imports_importLine (isBare_of_isName hname') (of_ofList IsBare hsource),
    clauseNames_name hname']

theorem imports_importTypeLine {names : Text} (hnames : IsBare names) (hsource : IsBare source)
    (ls : List Text) :
    imports (unlines (importTypeLine names source :: ls)) =
      ⟨clauseNames ("type " ++ spaced names), source⟩ :: imports (unlines ls) := by
  have hsplit : importTypeLine names source =
      "import " ++ ("type " ++ spaced names) ++ " from '" ++ source ++ "'" := by
    simp [importTypeLine, ofString]
  rw [hsplit]
  exact imports_clause (isBare_append.2 ⟨by decide, isBare_spaced hnames⟩) hsource ls

/-! ### Exports -/

/-- The kinds of declarations. -/
def declarationKinds : List Text := ["const ", "type ", "function "]

/-- The name that a line declares and exports. -/
def exportedName? (line : Text) : Option Text :=
  (declarationKinds.findSome? fun kind => dropStart? ("export " ++ kind) line).map
    (·.takeWhile isNamePart)

/-- The names that a module declares and exports. -/
def exports (t : Text) : List Text := t.lines.filterMap exportedName?

theorem exportedName?_append {kind rest : Text} (hkind : kind ∈ declarationKinds) (hx : x.IsName)
    (hrest : ∀ c ∈ rest.head?, c.isNamePart = false) :
    exportedName? ("export " ++ kind ++ (x ++ rest)) = some x := by
  have hfound : (declarationKinds.findSome? fun k => dropStart? ("export " ++ k)
      ("export " ++ kind ++ (x ++ rest))) = some (x ++ rest) := by
    simp only [declarationKinds, List.mem_cons, List.not_mem_nil, or_false] at hkind
    rcases hkind with rfl | rfl | rfl <;> rfl
  have hname : (x ++ rest).takeWhile isNamePart = x := by
    rw [List.takeWhile_append_of_pos hx.2]
    cases rest with
    | nil => exact List.append_nil _
    | cons c rest => rw [List.takeWhile_cons_of_neg (by simp [hrest c rfl]), List.append_nil]
  rw [exportedName?, hfound, Option.map_some, hname]

/-- A line that declares a name exports it, whatever the other lines are. -/
theorem mem_exports_unlines {kind rest : Text} (hkind : kind ∈ declarationKinds) (hx : x.IsName)
    (hrest : ∀ c ∈ rest.head?, c.isNamePart = false) (hline : rest.IsInline)
    (h : Text.ofString "export " ++ kind ++ (x ++ rest) ∈ ls) : x ∈ exports (unlines ls) := by
  obtain ⟨above, below, habove, hls⟩ := Hub.exists_of_mem_unlines h
  have hinline : IsInline (Text.ofString "export " ++ kind ++ (x ++ rest)) := by
    have hkind' : ∀ kind ∈ declarationKinds, kind.IsInline := by decide
    simp only [isInline_append]
    exact ⟨⟨by decide, hkind' kind hkind⟩, hx.isInline, hline⟩
  rw [exports, hls, lines_append habove, lines_inline_append hinline, List.filterMap_append,
    List.mem_append]
  refine .inr (List.mem_filterMap.2 ⟨_, List.mem_cons_self, ?_⟩)
  rw [List.append_assoc, List.append_assoc x]
  refine exportedName?_append hkind hx fun c hc => ?_
  cases rest with
  | nil =>
    obtain rfl := Option.some.inj hc
    decide
  | cons d rest => exact hrest c hc

/-! ### Names that are passed on -/

/-- What a line passes on of another module: some names, or all of them. -/
structure Reexport where
  /-- The names, if not all are passed on. -/
  names : Option (List Text)
  /-- The other module. -/
  source : Text
  deriving DecidableEq, Repr

/-- What a line passes on. -/
def reexport? (line : Text) : Option Reexport :=
  (dropStart? "export " line).bind fun rest =>
    (clause? rest).map fun (clause, source) =>
      ⟨if clause = Text.ofString "*" then none else some (clauseNames clause), source⟩

theorem reexport?_clause (hclause : IsBare clause) (hsource : IsBare source) :
    reexport? ("export " ++ clause ++ " from '" ++ source ++ "'") =
      some ⟨if clause = Text.ofString "*" then none else some (clauseNames clause), source⟩ := by
  have hclause? := clause?_append hclause hsource []
  rw [List.append_nil] at hclause?
  rw [reexport?, List.append_assoc, List.append_assoc, List.append_assoc, dropStart?_append,
    Option.bind_some, hclause?]
  rfl

end Code

end Scaffold
