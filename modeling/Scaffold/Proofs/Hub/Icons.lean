import Scaffold.Proofs.Hub.Binding
import Scaffold.Proofs.Hub.IconList
import Scaffold.Proofs.Hub.Layouts

/-!
# The icons of the navigation

The navigation imports the icons of its entries.  Where the import is a list over several lines
(`IconList.IsImportIn`), the rule for icons finds the words of the list
(`IconList.IsImportIn.imports_iff`) and puts an icon that is missing in front of the closing brace
(`IconList.IsImportIn.insert`); the entry goes above the import or below it
(`IconList.insertEntry_text`).  So the list stays a list with the old names and the icon
(`Hub.update_icons`).

The rule looks at words and not at names, and it does not look at the line above the closing brace:
where the last name has no comma behind it, what it leaves between the braces is no list
(`Hub.navigation_puts_no_comma`).
-/

namespace Scaffold

open CodePoint

namespace Hub

open Text Probe

/-! ### Lines that are put into a part of a text -/

section Parts

variable {h : Hub} {e : LineEnd} {n : Nat} {ls us : List Text} {s t u x : Text}

theorem firstLine?_append (p : Text → Bool) (ls us : List Text) :
    firstLine? p (ls ++ us) = (firstLine? p ls).or ((firstLine? p us).map (ls.length + ·)) := by
  simp only [firstLine?, List.findIdx?_append, Nat.add_comm]

theorem insertAt_append_left (hn : n ≤ ls.length) :
    insertAt e (ls ++ us) n x = insertAt e ls n x ++ us := by
  rw [insertAt, insertAt, List.take_append_of_le_length hn, List.drop_append_of_le_length hn,
    List.append_assoc _ _ us]

/-- A line that goes below a closed text goes into the rest. -/
theorem flatten_insertAt_append (hs : s.IsClosed) (us : List Text) (k : Nat) (x : Text) :
    (insertAt e (s.lines ++ us) (s.lines.length + k) x).flatten =
      s ++ (insertAt e us k x).flatten := by
  have hended : (s.lines.map (ended e)).flatten = s := by
    have hmap := flatten_map_ended e s s.lines.length
    rwa [List.take_length, flatten_lines, if_pos hs] at hmap
  rw [insertAt, insertAt, List.take_length_add_append, List.drop_length_add_append,
    List.map_append]
  simp only [List.flatten_append, hended, List.append_assoc]

/-- The marker of a text is the one of its first part, if there is one. -/
theorem insertEntry_append_left (hs : s.IsClosed)
    (h₁ : firstLine? (·.includes h.marker) s.lines = some n) :
    h.insertEntry e (s ++ u) x = h.insertEntry e s x ++ u := by
  have hn : n < s.lines.length := (List.findIdx?_eq_some_iff_getElem.1 h₁).1
  rw [insertEntry, insertEntry, lines_append hs, firstLine?_append, h₁]
  dsimp only [Option.some_or]
  rw [insertAt_append_left hn, List.flatten_append, flatten_lines]

/-- A first part without the marker stays as it is. -/
theorem insertEntry_append_right (hs : s.IsClosed)
    (h₁ : firstLine? (·.includes h.marker) s.lines = none) :
    h.insertEntry e (s ++ u) x = s ++ h.insertEntry e u x := by
  rw [insertEntry, insertEntry, lines_append hs, firstLine?_append, h₁, Option.none_or]
  cases firstLine? (·.includes h.marker) u.lines with
  | none => rfl
  | some n => exact flatten_insertAt_append hs _ (n + 1) _

/-- What stands in front of a text on its first line, and does not take part in the marker, stays
there. -/
theorem insertEntry_isInline_append {c : CodePoint} {w : Text} (hw : h.marker = c :: w)
    (hs : s.IsInline) (hne : s ≠ []) (hc : c ∉ s) :
    h.insertEntry e (s ++ u) x = s ++ h.insertEntry e u x := by
  -- the marker does not begin in `s`, so the same line has it with `s` and without
  have hbody (l : Text) : includes (s ++ l).lineBody h.marker = l.lineBody.includes h.marker := by
    rw [lineBody_isInline_append hs, hw, includes_append_of_not_mem hc]
  have hnone : includes s h.marker = false := by
    have happend := includes_append_of_not_mem (w := w) hc []
    rw [List.append_nil] at happend
    rw [hw, happend, includes_nil (List.cons_ne_nil c w)]
  rw [insertEntry, insertEntry, lines_isInline_append hs hne]
  cases hlines : u.lines with
  | nil =>
    have hu : u = [] := by rw [← flatten_lines u, hlines]; rfl
    simp [firstLine?, List.findIdx?_cons, lineBody_of_isInline hs, hnone, hu]
  | cons l ls =>
    have hfirst : firstLine? (·.includes h.marker) ((s ++ l) :: ls) =
        firstLine? (·.includes h.marker) (l :: ls) := by
      rw [firstLine?, firstLine?, List.findIdx?_cons, List.findIdx?_cons, hbody]
    have hl : l ≠ [] := ne_nil_of_mem_lines (hlines ▸ List.mem_cons_self)
    have hended : ended e (s ++ l) = s ++ ended e l := by
      rw [ended, ended, isEnded, isEnded, List.getLast?_append_of_ne_nil _ hl]
      split
      · rfl
      · exact List.append_assoc _ _ _
    rw [List.headD_cons, List.tail_cons, hfirst]
    cases firstLine? (·.includes h.marker) (l :: ls) with
    | none => rfl
    | some n => simp [insertAt, hended]

end Parts

end Hub

/-! ### The import in its text -/

open Text Probe Hub

/-- An import of icons begins here. -/
def beginsIconImport (t : Text) : Bool := (importBrace? t).any (closesFrom (some "lucide-react"))

theorem any_isWordPart_or_brace {o : Option CodePoint} :
    (o.or (some (.scalar '\x7b'))).any isWordPart = o.any isWordPart := by
  cases o <;> rfl

/-- A word that an import imports stands between its braces. -/
theorem Probe.exists_of_imports {name t : Text} {source? : Option Text} (hn : name.IsWord)
    (h : imports name source? t = true) :
    ∃ s u x y, s.IsClosed ∧ t = s ++ u ∧ importBrace? u = some (x ++ (name ++ y)) ∧
      (∀ c ∈ x, isClosing c = false) ∧ x.getLast?.any isWordPart = false ∧
      y.head?.any isWordPart = false ∧ closesFrom source? y = true := by
  obtain ⟨s, u, hs, rfl, hline⟩ := anyLine_eq_true.1 h
  cases hbrace : importBrace? u with
  | none => simp [hbrace] at hline
  | some inside =>
    simp only [hbrace] at hline
    obtain ⟨x, v, rfl, hx, hnamed⟩ := exists_of_anyUpTo hline
    split at hnamed
    · rename_i y hdrop
      obtain rfl := eq_of_dropWord? hdrop
      obtain ⟨hbefore, hafter⟩ := not_isWordPart_of_dropWord? hn hdrop
      rw [any_isWordPart_or_brace] at hbefore
      exact ⟨s, u, x, y, hs, rfl, hbrace, hx, hbefore, hafter, hnamed⟩
    · cases hnamed

namespace IconList

variable {L : IconList} {before after : Text}

/-- The list is the import of icons of a text, between `before` and `after`. -/
structure IsImportIn (L : IconList) (before after : Text) : Prop where
  /-- The import begins a line. -/
  isClosed : before.IsClosed
  /-- No other line begins an import of icons. -/
  only : anyLine (fun u => beginsIconImport u && decide (u ≠ L.text ++ after))
    (before ++ (L.text ++ after)) = false
  /-- No line above it looks like the end of one. -/
  first : ∀ l ∈ before.lines, Hub.isIconImportEnd l.lineBody = false

theorem importBrace?_text (L : IconList) (after : Text) :
    importBrace? (L.text ++ after) = some (L.inside ++ (closing ++ after)) := by
  have htext : L.text ++ after = "import \x7b" ++ (L.inside ++ (closing ++ after)) := by
    simp only [text, opening, List.append_assoc]
  rw [htext]
  rfl

theorem brace_not_mem_inside (L : IconList) : .scalar '\x7d' ∉ L.inside := fun hm =>
  (L.consists_opening _ (List.mem_append_right _ hm)).1 rfl

/-- A word that the probe finds stands in the list. -/
theorem IsImportIn.hasWord_of_imports (hL : L.IsImportIn before after) {w : Text} (hw : w.IsWord)
    (h : imports w (some "lucide-react") (before ++ (L.text ++ after)) = true) :
    L.inside.HasWord w := by
  obtain ⟨s, u, x, y, hs, ht, hbrace, hx, hbefore, hafter, hcloses⟩ := exists_of_imports hw h
  have hopen : .scalar '\x7d' ∉ x ++ w := fun hm => by
    rcases List.mem_append.1 hm with hm | hm
    · cases hx _ hm
    · exact hw.not_mem (by decide) hm
  -- what the word stands in is an import of icons, and so the list
  have hu : u = L.text ++ after := by
    by_contra hne
    have hbegins : beginsIconImport u = true := by
      rw [beginsIconImport, hbrace, Option.any_some, ← List.append_assoc,
        closesFrom_append_left hopen, hcloses]
    have honly := hL.only
    rw [Bool.eq_false_iff, ne_eq, anyLine_eq_true] at honly
    exact honly ⟨s, u, hs, ht, by simp [hbegins, hne]⟩
  rw [hu, importBrace?_text] at hbrace
  exact hasWord_of_delimited hopen (Option.some.inj hbrace) hbefore hafter

/-- A word that stands in the list is found by the probe. -/
theorem IsImportIn.imports_of_hasWord (hL : L.IsImportIn before after) {w : Text} (hw : w.IsWord)
    (h : L.inside.HasWord w) :
    imports w (some "lucide-react") (before ++ (L.text ++ after)) = true := by
  obtain ⟨x, y, hinside, hbefore, hafter⟩ := h
  have hopen := L.brace_not_mem_inside
  rw [hinside, List.mem_append, List.mem_append, not_or, not_or] at hopen
  have hbrace := importBrace?_text L after
  rw [hinside, List.append_assoc, List.append_assoc] at hbrace
  refine imports_of_brace hL.isClosed hbrace (fun c hc => ?_) hw.isWhole ?_ ?_
    (closesFrom_append hopen.2.2 after)
  · simpa [isClosing] using fun h : c = .scalar '\x7d' => hopen.1 (h ▸ hc)
  · rwa [any_isWordPart_or_brace]
  · cases y with
    | nil => rfl
    | cons c y => exact hafter

/-- **The probe finds the words of the list**, names or not. -/
theorem IsImportIn.imports_iff (hL : L.IsImportIn before after) {w : Text} (hw : w.IsWord) :
    imports w (some "lucide-react") (before ++ (L.text ++ after)) = true ↔
      ∃ m ∈ L.names, (m.modifier ++ m.name).HasWord w := by
  rw [← hasWord_inside hw]
  exact ⟨hL.hasWord_of_imports hw, hL.imports_of_hasWord hw⟩

/-! ### One more icon -/

variable {e : LineEnd} {name x : Text} {h : Hub}

/-- The names of the list, each with whether the word `type` stands in front of it. -/
def members (L : IconList) : List (Bool × Text) := L.names.map fun m => (m.gap?.isSome, m.name)

/-- No line of the list has the word, unless it names it. -/
def Distinguishes (L : IconList) (w : Text) : Prop :=
  ∀ m ∈ L.names, (m.modifier ++ m.name).HasWord w → m.name = w

/-- The list has the names of `L` and, behind them, `name` if it was not among them. -/
structure Extends (L' L : IconList) (name : Text) : Prop where
  /-- The name was among them. -/
  kept : name ∈ L.names.map ImportedName.name → L'.members = L.members
  /-- The name was not among them. -/
  added : name ∉ L.names.map ImportedName.name → L'.members = L.members ++ [(false, name)]

theorem lines_text (hL : L.IsImportIn before after) :
    (before ++ (L.text ++ after)).lines =
      (before ++ L.opening).lines ++ (closing ++ after).lines := by
  have hopening := hL.isClosed.append L.isClosed_opening
  rw [← lines_append hopening]
  simp only [text, List.append_assoc]

/-- A line with an icon goes in front of the closing brace. -/
theorem IsImportIn.place? (hL : L.IsImportIn before after) {rule : ReferenceLine}
    (hp : rule.position = .aboveFirst) (hanchor : rule.isAnchor = isIconImportEnd) :
    rule.place? (before ++ (L.text ++ after)).lines = some (before ++ L.opening).lines.length := by
  -- no line of the list begins with a brace but the closing one
  have habove : firstLine? isIconImportEnd (before ++ L.opening).lines = none := by
    rw [lines_append hL.isClosed, firstLine?_append]
    have hopening : firstLine? isIconImportEnd L.opening.lines = none := by
      refine List.findIdx?_eq_none_iff.2 fun l hl => isIconImportEnd_eq_false fun hbrace => ?_
      have hmem := mem_of_mem_lineBody hl (List.mem_of_mem_head? hbrace)
      exact (L.consists_opening _ hmem).1 rfl
    rw [hopening]
    have hbefore : firstLine? isIconImportEnd before.lines = none :=
      List.findIdx?_eq_none_iff.2 hL.first
    rw [hbefore]
    rfl
  have hclosing : firstLine? isIconImportEnd (closing ++ after).lines = some 0 := by
    have hinline : closing.IsInline := by decide
    have hend : isIconImportEnd (lineBody (closing ++ after.lines.headD [])) = true := by
      rw [lineBody_isInline_append hinline, isIconImportEnd, startsWith_iff]
      exact List.prefix_append _ _
    rw [lines_isInline_append hinline (by decide), firstLine?, List.findIdx?_cons, hend]
    rfl
  rw [ReferenceLine.place?, hp, hanchor, lines_text hL, firstLine?_append, habove, hclosing]
  rfl

/-- The line of an icon. -/
def iconLine (e : LineEnd) (hname : name.isIdent = true) : ImportedName where
  indent := "  "
  gap? := none
  name := name
  ending := e
  isIndent := by decide
  isGap _ h := by cases h
  isIdent := hname

theorem text_iconLine (hname : name.isIdent = true) :
    (iconLine e hname).text true = "  " ++ name ++ "," ++ e.text := by
  simp [ImportedName.text, ImportedName.modifier, ImportedName.rest, ImportedName.separator,
    iconLine, ofString]

/-- The icon becomes the last name of the list. -/
theorem IsImportIn.insert (hL : L.IsImportIn before after)
    (hcomma : L.names = [] ∨ L.trailing = true) (hname : name.isIdent = true) :
    (insertAt e (before ++ (L.text ++ after)).lines (before ++ L.opening).lines.length
      ("  " ++ name ++ ",")).flatten = before ++ ((L.put (iconLine e hname)).text ++ after) := by
  have hinsert := flatten_insertAt_append (e := e) (hL.isClosed.append L.isClosed_opening)
    (closing ++ after).lines 0 ("  " ++ name ++ ",")
  rw [Nat.add_zero] at hinsert
  rw [lines_text hL, hinsert, text, opening_put hcomma, text_iconLine]
  simp [insertAt]

/-! ### The entry -/

/-- The entry goes above the import or below it. -/
theorem insertEntry_text (hmarker : h.marker = navigationMarker) (hbefore : before.IsClosed) :
    h.insertEntry e (before ++ (L.text ++ after)) x =
        h.insertEntry e before x ++ (L.text ++ after) ∨
      h.insertEntry e (before ++ (L.text ++ after)) x =
        before ++ (L.text ++ h.insertEntry e after x) := by
  cases hfirst : firstLine? (·.includes h.marker) before.lines with
  | some n => exact .inl (insertEntry_append_left hbefore hfirst)
  | none =>
    have hopening : firstLine? (·.includes h.marker) L.opening.lines = none := by
      refine List.findIdx?_eq_none_iff.2 fun l hl => ?_
      rw [hmarker]
      refine isMarker_navigationMarker.includes_eq_false (.inr fun hslash => ?_)
      exact (L.consists_opening _ (mem_of_mem_lineBody hl hslash)).2 rfl
    obtain ⟨c, w, hw, hc⟩ : ∃ c w, h.marker = c :: w ∧ c ∉ closing :=
      ⟨.scalar '/', _, hmarker, by decide⟩
    refine .inr ?_
    rw [insertEntry_append_right hbefore hfirst, text, List.append_assoc,
      insertEntry_append_right L.isClosed_opening hopening,
      insertEntry_isInline_append hw (by decide) (by decide) hc, List.append_assoc]

end IconList

namespace Hub

variable {L : IconList} {before after t : Text} {e : LineEnd} {s : Settings} {r : Resource}

/-- The rule of the navigation puts the icon into the list, unless it is there. -/
theorem refer_icon (hL : L.IsImportIn before after) (hword : (iconOf s r).IsWord)
    (hname : (iconOf s r).isIdent = true) (hdistinguishes : L.Distinguishes (iconOf s r))
    (hcomma : iconOf s r ∈ L.names.map ImportedName.name ∨ L.names = [] ∨ L.trailing = true) :
    ∃ L' : IconList, L'.Extends L (iconOf s r) ∧
      ((navigation s).referAll r e (before ++ (L.text ++ after)) (navigation s).references).1 =
        before ++ (L'.text ++ after) := by
  obtain ⟨rule, hrule, hposition, hanchor, hline, hneeded, hthere⟩ :
      ∃ rule, (navigation s).references = [rule] ∧ rule.position = .aboveFirst ∧
        rule.isAnchor = isIconImportEnd ∧ rule.line r = "  " ++ iconOf s r ++ "," ∧
        rule.applies r = true ∧
        ∀ t, rule.isThere r t = imports (iconOf s r) (some "lucide-react") t :=
    ⟨_, rfl, rfl, rfl, rfl, rfl, fun _ => rfl⟩
  have hfound : rule.isThere r (before ++ (L.text ++ after)) = true ↔
      iconOf s r ∈ L.names.map ImportedName.name := by
    rw [hthere, hL.imports_iff hword, List.mem_map]
    constructor
    · rintro ⟨m, hm, hshows⟩
      exact ⟨m, hm, hdistinguishes m hm hshows⟩
    · rintro ⟨m, hm, hicon⟩
      exact ⟨m, hm, hicon ▸ m.hasWord_name⟩
  rw [hrule, referAll_cons, referAll_nil]
  by_cases hmem : iconOf s r ∈ L.names.map ImportedName.name
  · refine ⟨L, ⟨fun _ => rfl, fun hnot => absurd hmem hnot⟩, ?_⟩
    rw [refer_of_not_needed _ _ (.inr (hfound.2 hmem))]
  · have hmissing : rule.isThere r (before ++ (L.text ++ after)) = false :=
      Bool.eq_false_iff.2 fun h => hmem (hfound.1 h)
    refine ⟨L.put (IconList.iconLine e hname), ⟨fun h => absurd h hmem, fun _ => ?_⟩, ?_⟩
    · exact List.map_append
    · rw [refer, hneeded, hmissing, hL.place? hposition hanchor, hline]
      exact hL.insert (hcomma.resolve_left hmem) hname

/-- **The import of icons stays a list.**  The text between its braces is read as a list of names
with commas between them, which are the old ones and, at the end, the icon of the resource if it was
not among them; nothing else of the text changes but for the entry, which goes above the import or
below it.

For this, the icon has to be a name, a comma has to stand behind the last name of a list that lacks
the icon, and no line of the list may show the icon without naming it: the rule does not look at the
line above the closing brace, and it takes the word `type` in front of a name, or a part of a name
with a dollar sign, for the icon. -/
theorem update_icons (hL : L.IsImportIn before after) (hword : (iconOf s r).IsWord)
    (hname : (iconOf s r).isIdent = true) (hdistinguishes : L.Distinguishes (iconOf s r))
    (hcomma : iconOf s r ∈ L.names.map ImportedName.name ∨ L.names = [] ∨ L.trailing = true)
    (hwrite : ((navigation s).update r (some (before ++ (L.text ++ after)))).1 = .write t) :
    ∃ (before' after' : Text) (L' : IconList), t = before' ++ (L'.text ++ after') ∧
      LexesAs (fun _ => True) L'.inside L'.lexemes ∧
      L'.Extends L (iconOf s r) ∧
      let entered (u : Text) : Text := (navigation s).insertEntry
        (LineEnd.of (before ++ (L.text ++ after))) u ((navigation s).entry r)
      (before' = entered before ∧ after' = after ∨ before' = before ∧ after' = entered after) := by
  have hregister : ((navigation s).register r (before ++ (L.text ++ after))).1 = t := by
    rw [update] at hwrite
    split at hwrite
    · cases hwrite
    · dsimp only at hwrite
      split at hwrite
      · cases hwrite
      · exact Decision.write.inj hwrite
  -- what the rule leaves has an import of the same form, so the entry goes around it
  obtain ⟨L', hextends, hrefer⟩ := refer_icon (e := LineEnd.of (before ++ (L.text ++ after)))
    hL hword hname hdistinguishes hcomma
  rw [register] at hregister
  dsimp only at hregister
  rw [hrefer] at hregister
  have hmarker : (navigation s).marker = navigationMarker := rfl
  rcases IconList.insertEntry_text (L := L') hmarker hL.isClosed with hentry | hentry
  · exact ⟨_, after, L', hregister.symm.trans hentry, L'.lexesAs_inside, hextends,
      .inl ⟨rfl, rfl⟩⟩
  · exact ⟨before, _, L', hregister.symm.trans hentry, L'.lexesAs_inside, hextends,
      .inr ⟨rfl, rfl⟩⟩

/-- The list of the skeleton gets the icon that resources have by default. -/
theorem update_icons_skeleton :
    let L : IconList := ⟨.lineFeed, [⟨"  ", some " ", "LucideIcon", .lineFeed, by decide, by decide,
      by decide⟩], true⟩
    let after : Text := "\n\n// === RESOURCE NAV ITEMS ===\n"
    let r : Resource := { name := "truck", pluralName := "trucks", varName := "truck" }
    let t := ((navigation .standard).register r (L.text ++ after)).1
    L.IsImportIn [] after ∧ (iconOf .standard r).IsWord ∧ (iconOf .standard r).isIdent = true ∧
      L.Distinguishes (iconOf .standard r) ∧
      ((navigation .standard).update r (some (L.text ++ after))).1 = .write t ∧
      ∃ (before' after' : Text) (L' : IconList), t = before' ++ (L'.text ++ after') ∧
        L'.members = [(true, Text.ofString "LucideIcon"), (false, Text.ofString "Package")] := by
  intro L after r t
  have hL : L.IsImportIn [] after := ⟨by decide, by decide +kernel, by decide⟩
  have hword : (iconOf .standard r).IsWord := by decide +kernel
  have hname : (iconOf .standard r).isIdent = true := by decide +kernel
  have hdistinguishes : L.Distinguishes (iconOf .standard r) := by
    rintro m hm ⟨x, y, hshows, -, -⟩
    obtain rfl := List.mem_singleton.1 hm
    have hinfix := includes_eq_true.2 ⟨x, y, (hshows.trans (List.append_assoc x _ y).symm).symm⟩
    revert hinfix
    decide +kernel
  have hwrite : ((navigation .standard).update r (some (L.text ++ after))).1 = .write t := by
    decide +kernel
  obtain ⟨before', after', L', ht, -, hextends, -⟩ :=
    update_icons hL hword hname hdistinguishes (.inr (.inr rfl)) hwrite
  exact ⟨hL, hword, hname, hdistinguishes, hwrite, before', after', L', ht,
    hextends.added (by decide +kernel)⟩

/-- Behind a name without a comma, the icon is put without one: no list is read between the
braces. -/
theorem navigation_puts_no_comma :
    let L : IconList := ⟨.lineFeed, [⟨"  ", none, "Truck", .lineFeed, by decide, by decide,
      by decide⟩], false⟩
    let after : Text := "\n\n// === RESOURCE NAV ITEMS ===\n"
    let r : Resource := { name := "truck", pluralName := "trucks", varName := "truck" }
    let inside : Text := "\n  Truck\n  Package,\n"
    let lexemes : List Lexeme := [(.ident, "Truck"), (.ident, "Package"), (.punct, ",")]
    L.IsImportIn [] after ∧ (iconOf .standard r).IsWord ∧
      (∃ rest : Text, ((navigation .standard).update r (some (L.text ++ after))).1 =
        .write ("import \x7b" ++ (inside ++ (IconList.closing ++ rest)))) ∧
      LexesAs (fun _ => True) inside lexemes ∧ ∀ L' : IconList, L'.lexemes ≠ lexemes := by
  intro L after r inside lexemes
  refine ⟨⟨by decide, by decide +kernel, by decide⟩, by decide +kernel,
    ⟨(navigation .standard).insertEntry .lineFeed after ((navigation .standard).entry r), by
      decide +kernel⟩, ?_, ?_⟩
  · have hname : Text.isIdent "Package" = true := by decide
    exact L.lexesAs_inside.append_anywhere ((IconList.iconLine .lineFeed hname).lexesAs_text true)
  · -- behind the first name of a list comes a comma or nothing
    rintro ⟨_, names, trailing⟩ h
    have hbegins : ∀ m ms, ∃ rest, IconList.lexemesOf trailing (m :: ms) = m.lexemes ++ rest ∧
        ∀ l ∈ rest.head?, l = IconList.comma := by
      rintro m (_ | ⟨m', ms⟩)
      · exact ⟨_, rfl, by cases trailing <;> decide⟩
      · exact ⟨_, List.append_assoc _ _ _, by simp⟩
    cases names with
    | nil => exact absurd h.symm (List.cons_ne_nil _ _)
    | cons m ms =>
      obtain ⟨rest, hrest, hcomma⟩ := hbegins m ms
      have h : m.lexemes ++ rest = lexemes := hrest.symm.trans h
      rw [ImportedName.lexemes, ImportedName.words] at h
      cases hgap : m.gap? with
      | none =>
        rw [hgap] at h
        obtain rfl := (List.cons.inj h).2
        exact absurd (hcomma _ rfl) (by decide)
      | some gap =>
        rw [hgap] at h
        exact absurd (List.cons.inj h).1 (by decide)

end Hub

end Scaffold
