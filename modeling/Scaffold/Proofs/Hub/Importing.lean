import Scaffold.Proofs.Hub.Ledger

/-!
# Ledgers with imports

The registry, the database client and the navigation import what their entries name.  A name that is
imported already is found (`Probe.imports_of_brace`), and an import goes among the imports
(`HubLayout.IsSound.refer_text`), so no name is imported twice and nothing else is added.
-/

namespace Scaffold

open CodePoint

namespace Probe

open Text

theorem wordBoundary_eq_true {before after : Option CodePoint}
    (h : before.any isWordPart = !after.any isWordPart) : wordBoundary before after = true := by
  rw [wordBoundary, h]
  cases after.any isWordPart <;> rfl

theorem dropWord?_whole_append {w t : Text} {before : Option CodePoint} (hw : w.IsWhole)
    (h₁ : before.any isWordPart = false) (h₂ : t.head?.any isWordPart = false) :
    dropWord? w before (w ++ t) = some t := by
  obtain ⟨hfirst, hlast⟩ := hw
  obtain ⟨c, hc, hfirst⟩ := (Option.any_eq_true _ _).1 hfirst
  obtain ⟨d, hd, hlast⟩ := (Option.any_eq_true _ _).1 hlast
  refine dropWord?_append (wordBoundary_eq_true ?_) (wordBoundary_eq_true ?_)
  · rw [h₁, List.head?_append, hc, Option.some_or, Option.any_some, hfirst]
    rfl
  · rw [h₂, hd, Option.some_or, Option.any_some, hlast]
    rfl

/-- A name between the braces of an import is imported. -/
theorem imports_of_brace {name above line s u : Text} {source? : Option Text} (ha : above.IsClosed)
    (hb : importBrace? line = some (s ++ (name ++ u))) (hs : ∀ c ∈ s, isClosing c = false)
    (hn : name.IsWhole) (h₁ : (s.getLast?.or (some (.scalar '\x7b'))).any isWordPart = false)
    (h₂ : u.head?.any isWordPart = false) (hc : closesFrom source? u = true) :
    imports name source? (above ++ line) = true := by
  refine anyLine_eq_true.2 ⟨above, line, ha, rfl, ?_⟩
  simp only [hb]
  refine anyUpTo_append hs ?_
  simp only [dropWord?_whole_append hn h₁ h₂, hc]

end Probe

/-! ### Putting in an import -/

namespace HubLayout

open Text

variable {L : HubLayout} {Good : Resource → Prop} {added : List (Text × Text)}
  {rs seen : List Resource} {r r' : Resource} {rule : ReferenceLine} {x : Text × Text}

theorem Imports.insert (ha : L.Imports seen added) (hr : r ∈ seen) (hx : x ∈ L.needs r)
    (hnew : x.1 ∉ L.imported ++ added.map Prod.fst) (i : Nat) :
    L.Imports seen (added.take i ++ x :: added.drop i) where
  needed y hy := by
    simp only [List.mem_append, List.mem_cons] at hy
    rcases hy with hy | rfl | hy
    · exact ha.needed y (List.mem_of_mem_take hy)
    · exact ⟨r, hr, hx⟩
    · exact ha.needed y (List.mem_of_mem_drop hy)
  nodup := by
    have hperm : (L.imported ++ (added.take i ++ x :: added.drop i).map Prod.fst).Perm
        (x.1 :: (L.imported ++ added.map Prod.fst)) := by
      rw [List.map_append, List.map_cons, ← List.append_assoc]
      refine List.perm_middle.trans (List.Perm.cons _ ?_)
      rw [List.append_assoc, ← List.map_append, List.take_append_drop]
    exact hperm.nodup_iff.2 (List.nodup_cons.2 ⟨hnew, ha.nodup⟩)

/-- A reference line that has its place among the imports goes there, if the name is new. -/
theorem IsSound.refer_text (hL : L.IsSound Good) (rule : ReferenceLine) (hrs : ∀ r ∈ rs, Good r)
    (hseen : ∀ r ∈ seen, Good r) (ha : L.Imports seen added) (hr : r ∈ seen)
    (hneeds : rule.applies r = true → x ∈ L.needs r ∧ rule.line r = L.importLine x ∧
      (∃ i ≤ added.length, rule.place? (unlines (L.lines added rs)).lines =
        some (L.front.length + i)) ∧
      (x.1 ∈ L.imported ++ added.map Prod.fst → rule.isThere r (L.text added rs) = true)) :
    ∃ added', L.Imports seen added' ∧
      (∀ y, y ∈ added' ↔ y ∈ added ∨
        y = x ∧ rule.applies r = true ∧ rule.isThere r (L.text added rs) = false) ∧
      (L.hub.refer r .lineFeed (L.text added rs) rule).1 = L.text added' rs := by
  by_cases hnot : rule.applies r = false ∨ rule.isThere r (L.text added rs) = true
  · refine ⟨added, ha, fun y => ⟨.inl, fun hy => hy.elim id ?_⟩, Hub.refer_of_not_needed _ _ hnot⟩
    rintro ⟨-, happ, hthere⟩
    simp [happ, hthere] at hnot
  · rw [not_or, Bool.not_eq_false, Bool.not_eq_true] at hnot
    obtain ⟨hx, hline, ⟨i, hi, hplace⟩, hthere⟩ := hneeds hnot.1
    have hnew : x.1 ∉ L.imported ++ added.map Prod.fst := fun hm => by
      rw [hthere hm] at hnot
      cases hnot.2
    have hmem : ∀ y, y ∈ added.take i ++ x :: added.drop i ↔ y ∈ added ∨
        y = x ∧ rule.applies r = true ∧ rule.isThere r (L.text added rs) = false := by
      intro y
      rw [List.perm_middle.mem_iff, List.take_append_drop, List.mem_cons]
      simp [hnot, or_comm]
    refine ⟨added.take i ++ x :: added.drop i, ha.insert hr hx hnew i, hmem, ?_⟩
    have htext : L.text added rs = unlines (L.lines added rs) := hL.text_eq hrs
    have hinline : ∀ l ∈ L.lines added rs, l.IsInline := fun l hl =>
      (hL.isPlainLine hrs hseen ha l hl).1
    rw [htext] at hnot ⊢
    rw [Hub.refer_unlines hinline hnot.1 hnot.2 hplace, hL.text_eq hrs, hline]
    congr 1
    have hsplit : L.lines added rs = L.front ++ (added.map L.importLine ++ L.rest rs) := by
      rw [lines, List.append_assoc]
    have hlen : i ≤ (added.map L.importLine).length := by rwa [List.length_map]
    rw [hsplit, List.take_length_add_append, List.drop_length_add_append,
      List.take_append_of_le_length hlen, List.drop_append_of_le_length hlen, lines,
      List.map_append, List.map_cons, List.map_take, List.map_drop]
    simp only [List.append_assoc, List.cons_append]

end HubLayout

namespace Hub

open Text Probe

variable {r : Resource} {rs : List Resource} {added : List (Text × Text)} {x : Text × Text}

/-! ### Imports on one line -/

/-- The line that imports a name from a source. -/
def importOf (x : Text × Text) : Text := "import \x7b " ++ x.1 ++ " \x7d from '" ++ x.2 ++ "'"

theorem exists_of_mem_unlines {ls : List Text} {l : Text} (h : l ∈ ls) :
    ∃ above rest : Text, above.IsClosed ∧ unlines ls = above ++ (l ++ newline :: rest) := by
  obtain ⟨ls₁, ls₂, rfl⟩ := List.append_of_mem h
  exact ⟨unlines ls₁, unlines ls₂, isClosed_unlines _, by rw [unlines_append, unlines_cons]⟩

theorem isPlainLine_importOf (h₁ : x.1.IsWord) (h₂ : x.2.IsPlainLine) :
    (importOf x).IsPlainLine := by
  have hword := h₁.isPlainLine
  simp only [IsPlainLine, importOf, List.mem_append, not_or] at h₂ hword ⊢
  exact ⟨⟨⟨⟨⟨by decide, hword.1⟩, by decide⟩, h₂.1⟩, by decide⟩,
    ⟨⟨⟨by decide, hword.2⟩, by decide⟩, h₂.2⟩, by decide⟩

/-- The name of an import is imported. -/
theorem imports_importOf {ls : List Text} (hx : x.1.IsWord) (h : importOf x ∈ ls) :
    imports x.1 none (unlines ls) = true := by
  obtain ⟨above, rest, ha, he⟩ := exists_of_mem_unlines h
  have hline : importOf x ++ newline :: rest =
      "import \x7b" ++ (" " ++ (x.1 ++ (" \x7d from '" ++ (x.2 ++ ("'" ++ newline :: rest))))) := by
    simp [importOf, ofString]
  rw [he, hline]
  exact imports_of_brace (s := " ") ha rfl (by decide) hx.isWhole rfl rfl rfl

/-- No sign of a resource's names and of import lines is in the text. -/
theorem not_mem_importOf {c : CodePoint} (hc : c.isWordLetter = false) (hx : x.1.IsWord)
    (h₂ : c ∉ x.2) (hi : c ∉ ofString "import \x7b " ++ ofString " \x7d from '" ++ "'") :
    c ∉ importOf x := by
  simp only [List.mem_append, not_or] at hi
  simp only [importOf, List.mem_append, not_or]
  exact ⟨⟨⟨⟨hi.1.1, hx.not_mem hc⟩, hi.1.2⟩, h₂⟩, hi.2⟩

theorem isImport_eq_false {l : Text} (h : l.head? ≠ some (.scalar 'i')) : isImport l = false := by
  have hdrop : dropStart? "import " l = none := by
    refine Option.eq_none_iff_forall_ne_some.2 fun rest hr => h ?_
    rw [dropStart?_eq_some_iff.1 hr]
    rfl
  rw [isImport, hdrop]

theorem includes_eq_false_of_at {l w : Text} (hw : .scalar '@' ∈ w) (h : .scalar '@' ∉ l) :
    l.includes w = false := by
  rw [Bool.eq_false_iff, ne_eq, includes_eq_true]
  exact fun hi => h (hi.subset hw)

/-! ### The registry -/

/-- The registry, by its lines. -/
def registryLayout : HubLayout where
  hub := registry .standard
  front := [heading, "", "import type \x7b ResourceConfig \x7d from '@/schemas/_resource.schema'"]
  back := ["",
    "export type ResourceEntry = \x7b",
    "  config: ResourceConfig & \x7b pluralName: string \x7d",
    "  collection?: unknown",
    "  dataSource: 'json' | 'parquet'",
    "  routes: \x7b",
    "    list: string",
    "    new: string",
    "    edit: (id: string) => string",
    "  \x7d",
    "\x7d",
    "",
    "export const resourceRegistry: Record<string, ResourceEntry> = \x7b"]
  markerLine := "  " ++ registryMarker
  below := ["\x7d"]
  key := Resource.name
  entryLines := registryLines
  imported := ["ResourceConfig"]
  needs r := (r.varName, "@/schemas/" ++ r.name ++ ".schema") ::
    if r.isParquet then [] else [(r.collectionName, "@/collections")]
  importLine := importOf

theorem needs_registryLayout (hr : r.HasWords) (hx : x ∈ registryLayout.needs r) :
    x.1.IsWord ∧ x.2.IsPlainLine ∧ .scalar '=' ∉ x.2 := by
  simp only [registryLayout, List.mem_cons] at hx
  rcases hx with rfl | hx
  · refine ⟨hr.varName, isPlainLine_iff.2 ?_, ?_⟩
    · exact hr.gives.around hr.gives.name (by decide) (by decide)
    · simp only [List.mem_append, not_or]
      exact ⟨⟨by decide, hr.name.not_mem (by decide)⟩, by decide⟩
  · split at hx
    · cases hx
    · have hsource : IsPlainLine "@/collections" ∧ .scalar '=' ∉ ofString "@/collections" := by
        decide
      obtain rfl := List.mem_singleton.1 hx
      exact ⟨hr.collectionName, hsource⟩

theorem isMarker_registryMarker : IsMarker registryMarker := isMarker_ofList (by decide)

theorem isSound_registryLayout : registryLayout.IsSound Resource.HasWords where
  marker := IsMarker.isInline_and_ne_nil isMarker_registryMarker
  skeleton := rfl
  entry r _ := ⟨rfl, List.cons_ne_nil _ _⟩
  fixedPlain := by
    simp only [registryLayout, IsPlainLine, List.cons_append, List.nil_append, List.mem_append,
      not_or, List.forall_mem_cons, List.not_mem_nil, false_implies, implies_true, and_true]
    and_intros <;> exact not_mem_ofList (by decide)
  entryPlain r hr l hl := isPlainLine_iff.2 (hr.gives.registryLines l hl)
  importPlain r hr x hx := by
    obtain ⟨h₁, h₂, h₃⟩ := needs_registryLayout hr hx
    have hsign : .scalar '=' ∉ importOf x := not_mem_importOf (by decide) h₁ h₃ (by decide)
    exact ⟨isPlainLine_importOf h₁ h₂,
      IsMarker.includes_eq_false isMarker_registryMarker (.inl hsign)⟩
  marked := includes_eq_true.2 (List.suffix_append _ _).isInfix
  unmarked l hl := by
    refine IsMarker.includes_eq_false isMarker_registryMarker ?_
    revert l
    simp only [registryLayout, List.cons_append, List.nil_append, List.forall_mem_cons,
      List.not_mem_nil, false_implies, implies_true, and_true]
    and_intros <;>
      first
      | exact .inl (not_mem_ofList (by decide))
      | exact .inr (not_mem_ofList (by decide))

/-! ### What the registry lists -/

/-- What is below the marker of the registry. -/
theorem belowMarker_text (hrs : ∀ r ∈ rs, r.HasWords) (ha : registryLayout.Imports rs added) :
    belowMarker registryMarker (registryLayout.text added rs) =
      unlines (registryMarker :: (rs.flatMap registryLines ++ registryLayout.below)) := by
  have hsound := isSound_registryLayout
  have hmarker : registryMarker.IsInline ∧ registryMarker ≠ [] := hsound.marker
  let above := registryLayout.front ++ added.map importOf ++ registryLayout.back
  have hlines : registryLayout.lines added rs =
      above ++ ("  " ++ registryMarker) :: (rs.flatMap registryLines ++ registryLayout.below) := by
    simp only [above, HubLayout.lines, HubLayout.rest, List.append_assoc]
    rfl
  have habove : ∀ l ∈ above, l.includes registryMarker = false := by
    intro l hl
    simp only [above, List.mem_append, List.mem_map] at hl
    rcases hl with (hl | ⟨x, hx, rfl⟩) | hl
    · exact hsound.unmarked l (by simp [hl])
    · obtain ⟨r, hr, hx⟩ := ha.needed x hx
      exact (hsound.importPlain r (hrs r hr) x hx).2
    · exact hsound.unmarked l (by simp [hl])
  have hfirst : (unlines above ++ "  " ++ registryMarker.dropLast).includes registryMarker =
    false := by
    rw [List.append_assoc (unlines above), includes_append_of_isClosed hmarker.1 hmarker.2
      (isClosed_unlines _), includes_unlines hmarker.1 hmarker.2, Bool.or_eq_false_iff]
    exact ⟨List.any_eq_false.2 fun l hl => by simp [habove l hl], by decide⟩
  have hcut := cut?_of_first
    (u := newline :: unlines (rs.flatMap registryLines ++ registryLayout.below))
    hmarker.2 hfirst
  have htext : registryLayout.text added rs = unlines above ++ "  " ++ (registryMarker ++
      newline :: unlines (rs.flatMap registryLines ++ registryLayout.below)) := by
    rw [hsound.text_eq hrs, hlines, unlines_append, unlines_cons]
    simp only [List.append_assoc]
  rw [htext, belowMarker, hcut, unlines_cons]

/-- Behind two blanks comes a letter, where a key stands there. -/
theorem isWordLetter_third {key l : Text} {a b c : CodePoint} (hk : key.IsWord)
    (h : ("  " : Text) ++ key <+: a :: b :: c :: l) : c.isWordLetter = true := by
  obtain ⟨d, u, rfl, hd⟩ := hk.exists_cons
  change .scalar ' ' :: .scalar ' ' :: d :: u <+: _ at h
  simp only [List.cons_prefix_cons] at h
  exact h.2.2.1 ▸ hd

theorem keyOf?_of_key {indent key u : Text} (hi : ∀ c ∈ indent, c.isBlank = true)
    (hk : key.IsWord) :
    keyOf? (indent ++ key ++ (":" ++ u)) = some key := by
  have hline : indent ++ key ++ (":" ++ u) ++ newline :: [] =
      indent ++ (key ++ (":" ++ (u ++ [newline]))) := by simp
  exact keyOf?_eq hi hk (List.prefix_append _ _) hline rfl

/-- An object that is keyed in the entries of the registry is the entry of a resource. -/
theorem mem_of_key_registryLines {key l : Text} (hr : r.HasWords) (hk : key.IsWord)
    (hl : l ∈ registryLines r) (hp : ("  " : Text) ++ key <+: l) (he : keyOf? l = some key) :
    key = r.name := by
  have hblank : ∀ u : Text, ¬ ("  " : Text) ++ key <+: "   " ++ u := fun u h => by
    have := isWordLetter_third hk h
    cases this
  have hclose : ¬ ("  " : Text) ++ key <+: "  \x7d," := fun h => by
    have := isWordLetter_third hk h
    cases this
  simp only [registryLines, List.flatten_cons, List.flatten_nil, List.mem_append, List.mem_cons,
    List.not_mem_nil, or_false] at hl
  rcases hl with (rfl | rfl) | hl | rfl | rfl | rfl | rfl | rfl | rfl | rfl
  · have hname : keyOf? ("  " ++ r.name ++ ": \x7b") = some r.name :=
      keyOf?_of_key (u := " \x7b") (by decide) hr.name
    exact (Option.some.inj (hname.symm.trans he)).symm
  · exact absurd hp (hblank _)
  · split at hl
    · cases hl
    · rw [List.mem_singleton.1 hl] at hp
      exact absurd hp (hblank _)
  · exact absurd hp (hblank _)
  · exact absurd hp (hblank _)
  · exact absurd hp (hblank _)
  · exact absurd hp (hblank _)
  · exact absurd hp (hblank _)
  · exact absurd hp (hblank _)
  · exact absurd hp hclose

theorem registered_registryLayout (hrs : ∀ r ∈ rs, r.HasWords)
    (ha : registryLayout.Imports rs added)
    (hr : r.HasWords) : registryLayout.hub.isRegistered r (registryLayout.text added rs) = true ↔
      r.name ∈ rs.map Resource.name := by
  have hsound := isSound_registryLayout
  have hprobe : ∀ r t, registryLayout.hub.isRegistered r t =
      keysObject r.name (belowMarker registryMarker t) := fun _ _ => rfl
  constructor
  · intro h
    rw [hprobe, belowMarker_text hrs ha] at h
    have hinline : ∀ l ∈ registryMarker :: (rs.flatMap registryLines ++ registryLayout.below),
        l.IsInline := by
      intro l hl
      simp only [List.mem_cons, List.mem_append, List.mem_flatMap] at hl
      rcases hl with rfl | ⟨r', hr', hl⟩ | hl
      · exact hsound.marker.1
      · exact (hsound.entryPlain r' (hrs r' hr') l hl).1
      · exact (hsound.fixedPlain l (by simp [hl])).1
    obtain ⟨l, hl, hp, hkey⟩ := exists_key_of_keysObject hinline hr.name h
    simp only [List.mem_cons, List.mem_append, List.mem_flatMap] at hl
    rcases hl with rfl | ⟨r', hr', hl⟩ | hl
    · have := isWordLetter_third hr.name hp
      cases this
    · rw [mem_of_key_registryLines (hrs r' hr') hr.name hl hp hkey]
      exact List.mem_map_of_mem hr'
    · obtain ⟨u, hu⟩ := hp
      obtain rfl := List.mem_singleton.1 hl
      cases hu
  · intro h
    obtain ⟨r', hr', hkey⟩ := List.mem_map.1 h
    have hlists : registryLayout.hub.isRegistered r' (registryLayout.text added rs) = true :=
      isRegistered_registry (hrs r' hr').hasInlineNames (hsound.liesBelow hr')
    rwa [hprobe, hkey, ← hprobe] at hlists

/-! ### What the registry imports -/

theorem place?_of_anchor {rule : ReferenceLine} {lines : List Text} {n : Nat}
    (hp : rule.position = .belowLast) (h : lastLine? rule.isAnchor lines = some n) :
    rule.place? lines = some n := by
  rw [ReferenceLine.place?, hp]
  simp only [h]

theorem place?_of_fallback {rule : ReferenceLine} {lines : List Text} {n : Nat}
    (hp : rule.position = .belowLast) (ha : lastLine? rule.isAnchor lines = none)
    (h : lastLine? rule.isFallback lines = some n) : rule.place? lines = some n := by
  rw [ReferenceLine.place?, hp]
  simp only [ha, h]

theorem registryLines_not_import (hr : r.HasWords) :
    ∀ l ∈ registryLines r, .scalar '@' ∉ l ∧ l.head? ≠ some (.scalar 'i') := by
  intro l hl
  have hword : ∀ {w : Text}, w.IsWord → .scalar '@' ∉ w := fun hw => hw.not_mem (by decide)
  simp only [registryLines, List.flatten_cons, List.flatten_nil, List.mem_append, List.mem_cons,
    List.not_mem_nil, or_false] at hl
  rcases hl with (rfl | rfl) | hl | rfl | rfl | rfl | rfl | rfl | rfl | rfl
  · simp [hword hr.name, ofString]
  · simp [hword hr.varName, ofString]
  · split at hl
    · cases hl
    · rw [List.mem_singleton.1 hl]
      simp [hword hr.collectionName, ofString]
  · simp [hword hr.dataSource, ofString]
  · simp [ofString]
  · simp [hword hr.pluralName, ofString]
  · simp [hword hr.pluralName, ofString]
  · simp [hword hr.pluralName, ofString]
  · simp [ofString]
  · simp [ofString]

/-- Below the imports of the registry, no line is taken for an import. -/
theorem rest_registryLayout (hrs : ∀ r ∈ rs, r.HasWords) :
    ∀ l ∈ registryLayout.rest rs, .scalar '@' ∉ l ∧ l.head? ≠ some (.scalar 'i') := by
  intro l hl
  simp only [HubLayout.rest, List.mem_append, List.mem_cons, List.mem_flatMap] at hl
  rcases hl with hl | rfl | ⟨r, hr, hl⟩ | hl
  · revert l
    simp only [registryLayout, List.forall_mem_cons, List.not_mem_nil, false_implies, implies_true,
      and_true]
    and_intros <;> first | exact not_mem_ofList (by decide) | exact head?_ofList_ne (by decide)
  · refine ⟨fun hm => ?_, by decide⟩
    exact (List.mem_append.1 hm).elim (not_mem_ofList (by decide)) (not_mem_ofList (by decide))
  · exact registryLines_not_import (hrs r hr) l hl
  · rw [List.mem_singleton.1 hl]
    exact ⟨not_mem_ofList (by decide), head?_ofList_ne (by decide)⟩

/-- Every name that the registry imports is found. -/
theorem imports_registryLayout (hrs : ∀ r ∈ rs, r.HasWords) {seen : List Resource}
    (hseen : ∀ r ∈ seen, r.HasWords) (ha : registryLayout.Imports seen added) {name : Text}
    (h : name ∈ registryLayout.imported ++ added.map Prod.fst) :
    imports name none (registryLayout.text added rs) = true := by
  have hsound := isSound_registryLayout
  rw [hsound.text_eq hrs]
  rcases List.mem_append.1 h with h | h
  · obtain rfl := List.mem_singleton.1 h
    have hline : ofString "import type \x7b ResourceConfig \x7d from '@/schemas/_resource.schema'" =
        "import type \x7b " ++ ("ResourceConfig" ++ ofString
          " \x7d from '@/schemas/_resource.schema'") := by
      simp [ofString]
    have hmem : ofString "import type \x7b ResourceConfig \x7d from '@/schemas/_resource.schema'" ∈
        registryLayout.lines added rs := by
      simp only [HubLayout.lines, registryLayout, List.mem_append, List.mem_cons, true_or, or_true]
    rw [hline] at hmem
    obtain ⟨above, rest, habove, he⟩ := exists_of_mem_unlines hmem
    rw [he]
    exact imports_of_brace (s := " ") habove rfl (by decide) (by decide) rfl rfl rfl
  · obtain ⟨x, hx, rfl⟩ := List.mem_map.1 h
    obtain ⟨r, hr, hneeds⟩ := ha.needed x hx
    refine imports_importOf (needs_registryLayout (hseen r hr) hneeds).1 ?_
    simp only [HubLayout.lines, List.mem_append, List.mem_map]
    exact .inl (.inr ⟨x, hx, rfl⟩)

/-- A line goes among the imports of the registry, if it goes below one that is an anchor. -/
theorem exists_place_registryLayout {rule : ReferenceLine} (hp : rule.position = .belowLast)
    (hrs : ∀ r ∈ rs, r.HasWords) {seen : List Resource} (hseen : ∀ r ∈ seen, r.HasWords)
    (ha : registryLayout.Imports seen added)
    (hanchor : rule.isAnchor
      "import type \x7b ResourceConfig \x7d from '@/schemas/_resource.schema'")
    (hrest : ∀ l : Text, .scalar '@' ∉ l ∧ l.head? ≠ some (.scalar 'i') → rule.isAnchor l = false) :
    ∃ i ≤ added.length, rule.place? (unlines (registryLayout.lines added rs)).lines =
      some (registryLayout.front.length + i) := by
  have hsound := isSound_registryLayout
  have hinline : ∀ l ∈ registryLayout.lines added rs, l.IsInline := fun l hl =>
    (hsound.isPlainLine hrs hseen ha l hl).1
  have hlines : registryLayout.lines added rs = [heading, ofString ""] ++
      ofString "import type \x7b ResourceConfig \x7d from '@/schemas/_resource.schema'" ::
        added.map importOf ++ registryLayout.rest rs := rfl
  rw [hlines] at hinline ⊢
  obtain ⟨i, hi, hlast⟩ := exists_lastLine? hinline hanchor
    fun l hl => hrest l (rest_registryLayout hrs l hl)
  exact ⟨i, by simpa using hi, place?_of_anchor hp hlast⟩

theorem line_schemaImport (r : Resource) :
    schemaImport.line r = importOf (r.varName, "@/schemas/" ++ r.name ++ ".schema") := by
  simp [schemaImport, importOf, ofString]

theorem line_collectionImport (isAnchor isFallback : Text → Bool) (r : Resource) :
    (collectionImport isAnchor isFallback).line r =
      importOf (r.collectionName, "@/collections") := by
  simp [collectionImport, importOf, ofString]

theorem refers_schemaImport (hrs : ∀ r ∈ rs, r.HasWords) {seen : List Resource}
    (hseen : ∀ r ∈ seen, r.HasWords) (ha : registryLayout.Imports seen added) (hr : r ∈ seen) :
    ∃ added', registryLayout.Imports seen added' ∧
      (∀ y, y ∈ added' ↔ y ∈ added ∨ y = (r.varName, "@/schemas/" ++ r.name ++ ".schema") ∧
        imports r.varName none (registryLayout.text added rs) = false) ∧
      (registryLayout.hub.refer r .lineFeed (registryLayout.text added rs) schemaImport).1 =
        registryLayout.text added' rs := by
  have hsound := isSound_registryLayout
  have hprobe : ∀ t, schemaImport.isThere r t = imports r.varName none t := fun _ => rfl
  obtain ⟨added', ha', hmem, htext⟩ := hsound.refer_text schemaImport
    (x := (r.varName, "@/schemas/" ++ r.name ++ ".schema")) hrs hseen ha hr fun _ => by
      refine ⟨List.mem_cons_self, ?_, ?_, fun hm => ?_⟩
      · exact line_schemaImport r
      · refine exists_place_registryLayout rfl hrs hseen ha ?_ fun l hl => ?_
        · simp only [schemaImport, isSchemaImport, includes_eq_true]
          exact ⟨"import type \x7b ResourceConfig \x7d ", "/_resource.schema'", by simp [ofString]⟩
        · exact includes_eq_false_of_at (by decide) hl.1
      · rw [hprobe]
        exact imports_registryLayout hrs hseen ha hm
  refine ⟨added', ha', fun y => ?_, htext⟩
  rw [hmem, hprobe]
  exact or_congr_right (and_congr_right fun _ => and_iff_right rfl)

/-- The import of a collection in the registry, which holds those that are no Parquet files. -/
theorem refers_collectionImport (hrs : ∀ r ∈ rs, r.HasWords) {seen : List Resource}
    (hseen : ∀ r ∈ seen, r.HasWords) (ha : registryLayout.Imports seen added) (hr : r ∈ seen)
    {rule : ReferenceLine} (hrule : rule = { collectionImport isImport (fun _ => false) with
      applies := fun r => !r.isParquet }) :
    ∃ added', registryLayout.Imports seen added' ∧
      (∀ y, y ∈ added' ↔ y ∈ added ∨ y = (r.collectionName, ("@/collections" : Text)) ∧
        r.isParquet = false ∧
          imports r.collectionName none (registryLayout.text added rs) = false) ∧
      (registryLayout.hub.refer r .lineFeed (registryLayout.text added rs) rule).1 =
        registryLayout.text added' rs := by
  have hsound := isSound_registryLayout
  have hprobe : ∀ t, rule.isThere r t = imports r.collectionName none t := fun t => by
    rw [hrule]
    rfl
  have happlies : rule.applies r = true ↔ r.isParquet = false := by simp [hrule]
  obtain ⟨added', ha', hmem, htext⟩ := hsound.refer_text rule
    (x := (r.collectionName, "@/collections")) hrs hseen ha hr fun happ => by
      refine ⟨?_, ?_, ?_, fun hm => ?_⟩
      · simp [registryLayout, happlies.1 happ]
      · rw [hrule]
        exact line_collectionImport isImport (fun _ => false) r
      · rw [hrule]
        exact exists_place_registryLayout rfl hrs hseen ha rfl fun l hl => isImport_eq_false hl.2
      · rw [hprobe]
        exact imports_registryLayout hrs hseen ha hm
  refine ⟨added', ha', fun y => ?_, htext⟩
  rw [hmem, hprobe, happlies]

theorem references_registryLayout : registryLayout.hub.references = [schemaImport,
    { collectionImport isImport (fun _ => false) with applies := fun r => !r.isParquet }] := rfl

theorem keepsLedger_registryLayout : registryLayout.KeepsLedger Resource.HasWords where
  toIsSound := isSound_registryLayout
  registered added rs r ha hrs hr := registered_registryLayout hrs ha hr
  refers added rs r ha hrs hr _ := by
    have hseen : ∀ r' ∈ r :: rs, r'.HasWords := List.forall_mem_cons.2 ⟨hr, hrs⟩
    obtain ⟨added₁, ha₁, -, h₁⟩ := refers_schemaImport hrs hseen (ha.cons r) List.mem_cons_self
    obtain ⟨added₂, ha₂, -, h₂⟩ := refers_collectionImport hrs hseen ha₁ List.mem_cons_self rfl
    refine ⟨added₂, ha₂, ?_⟩
    rw [references_registryLayout, referAll_cons, referAll_cons, referAll_nil, h₁, h₂]

end Hub

end Scaffold
