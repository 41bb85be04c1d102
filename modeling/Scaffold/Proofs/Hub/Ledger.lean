import Scaffold.Proofs.Hub.Exactness
import Scaffold.Proofs.Hub.Layout
import Scaffold.Proofs.Hub.Recognition

/-!
# The standard hubs are ledgers

For resources whose names are words (`Resource.IsWordy`), each of the standard hubs lists the first
resource under each key, and imports each name once: the layouts are in `Hub.layouts`, and
`Hub.keepsLedger_layouts` says that the hubs keep to them.
-/

namespace Scaffold

open CodePoint

theorem Text.IsWord.isScalar {w : Text} (hw : w.IsWord) : w.IsScalar := by
  intro c hc
  have hletter := hw.2 c hc
  cases c with
  | scalar c => trivial
  | surrogate u => cases hletter

/-- What the hubs take from a resource are words, and the name is not that of the base schema. -/
structure Resource.IsWordy (r : Resource) : Prop where
  /-- The name is a word. -/
  name : r.name.IsWord
  /-- The plural name is a word. -/
  pluralName : r.pluralName.IsWord
  /-- The variable is a word. -/
  varName : r.varName.IsWord
  /-- The data source is a word. -/
  dataSource : r.dataSource.IsWord
  /-- The icon is a word, if there is one. -/
  icon : ∀ icon ∈ r.icon?, icon.IsWord
  /-- The schema is not the base schema. -/
  notBase : r.name ≠ Text.ofString "_resource"

/-- What the hubs take from a resource are words, whatever its name is. -/
structure Resource.HasWords (r : Resource) : Prop where
  /-- The name is a word. -/
  name : r.name.IsWord
  /-- The plural name is a word. -/
  pluralName : r.pluralName.IsWord
  /-- The variable is a word. -/
  varName : r.varName.IsWord
  /-- The data source is a word. -/
  dataSource : r.dataSource.IsWord
  /-- The icon is a word, if there is one. -/
  icon : ∀ icon ∈ r.icon?, icon.IsWord

namespace Resource.HasWords

open Text

variable {r : Resource} (h : r.HasWords)

include h

theorem hasInlineNames : r.HasInlineNames :=
  ⟨h.name.isPlainLine.1, h.pluralName.isPlainLine.1, h.varName.isPlainLine.1⟩

theorem isPlain : r.IsPlain :=
  ⟨h.name.isPlainLine, h.pluralName.isPlainLine, h.varName.isPlainLine, h.dataSource.isPlainLine,
    fun icon hi => (h.icon icon hi).isPlainLine⟩

theorem iconOf : (Hub.iconOf .standard r).IsWord := by
  rw [Hub.iconOf]
  cases hi : r.icon? with
  | none => decide
  | some icon => exact h.icon icon hi

theorem gives : Hub.Gives (fun c => c ≠ newline ∧ c ≠ carriageReturn) .standard r :=
  Hub.gives_noLineEnd (by decide) h.isPlain

theorem givesNames_scalar : Hub.GivesNames CodePoint.IsScalar .standard r :=
  Hub.givesNames (fun _ _ _ _ => trivial) (fun _ hc => hc.1) h.name.isScalar h.pluralName.isScalar
    h.varName.isScalar h.dataSource.isScalar h.iconOf.isScalar

theorem collectionName : r.collectionName.IsWord := h.pluralName.append (by decide)

end Resource.HasWords

namespace Resource.IsWordy

open Text

variable {r : Resource} (h : r.IsWordy)

include h

theorem hasWords : r.HasWords := ⟨h.name, h.pluralName, h.varName, h.dataSource, h.icon⟩

theorem hasInlineNames : r.HasInlineNames := h.hasWords.hasInlineNames

theorem iconOf : (Hub.iconOf .standard r).IsWord := h.hasWords.iconOf

theorem gives : Hub.Gives (fun c => c ≠ newline ∧ c ≠ carriageReturn) .standard r :=
  h.hasWords.gives

theorem collectionName : r.collectionName.IsWord := h.hasWords.collectionName

end Resource.IsWordy

namespace HubLayout

open Text

variable {L : HubLayout} {Good : Resource → Prop} {added : List (Text × Text)} {rs : List Resource}
  {r : Resource}

/-- What holds of more resources holds of fewer. -/
theorem IsSound.mono (hL : L.IsSound Good) {Good' : Resource → Prop}
    (hgood : ∀ r, Good' r → Good r) : L.IsSound Good' where
  marker := hL.marker
  skeleton := hL.skeleton
  entry r hr := hL.entry r (hgood r hr)
  fixedPlain := hL.fixedPlain
  entryPlain r hr := hL.entryPlain r (hgood r hr)
  importPlain r hr := hL.importPlain r (hgood r hr)
  marked := hL.marked
  unmarked := hL.unmarked

theorem KeepsLedger.mono (hL : L.KeepsLedger Good) {Good' : Resource → Prop}
    (hgood : ∀ r, Good' r → Good r) : L.KeepsLedger Good' where
  toIsSound := hL.toIsSound.mono hgood
  registered added rs r ha hrs hr :=
    hL.registered added rs r ha (fun r hr => hgood r (hrs r hr)) (hgood r hr)
  refers added rs r ha hrs hr :=
    hL.refers added rs r ha (fun r hr => hgood r (hrs r hr)) (hgood r hr)

/-- An entry that is listed lies below the marker. -/
theorem IsSound.liesBelow (hL : L.IsSound Good) (hr : r ∈ rs) :
    Hub.LiesBelow L.hub.marker
      ((L.hub.entry r).replaceAll '\n' LineEnd.lineFeed.text ++ LineEnd.lineFeed.text)
      (L.text added rs) := by
  obtain ⟨rs₁, rs₂, rfl⟩ := List.append_of_mem hr
  refine ⟨unlines (L.front ++ added.map L.importLine ++ L.back ++
      L.markerLine :: rs₁.map L.hub.entry), unlines (rs₂.map L.hub.entry ++ L.below), ?_,
    isClosed_unlines _, ?_⟩
  · have hreplace : (L.hub.entry r).replaceAll '\n' LineEnd.lineFeed.text = L.hub.entry r :=
      replaceAll_self _ _
    rw [hreplace, text]
    simp [unlines_append, unlines_cons, LineEnd.text, ofString]
  · rw [includes_unlines hL.marker.1 hL.marker.2]
    simp [hL.marked]

theorem Imports.eq_nil (ha : L.Imports rs added) (hn : ∀ r, L.needs r = []) : added = [] := by
  refine List.eq_nil_iff_forall_not_mem.2 fun x hx => ?_
  obtain ⟨r, -, hx⟩ := ha.needed x hx
  rw [hn r] at hx
  cases hx

theorem Imports.cons (ha : L.Imports rs added) (r : Resource) : L.Imports (r :: rs) added where
  needed x hx := by
    obtain ⟨r', hr', hx⟩ := ha.needed x hx
    exact ⟨r', List.mem_cons_of_mem _ hr', hx⟩
  nodup := ha.nodup

/-- Lines in which a word occurs. -/
theorem IsSound.exists_line (hL : L.IsSound Good) (hrs : ∀ r ∈ rs, Good r) {w : Text}
    (hw : w.IsInline) (hne : w ≠ []) (h : w <:+: L.text added rs) :
    ∃ l ∈ L.lines added rs, w <:+: l := by
  rw [hL.text_eq hrs, ← includes_eq_true, includes_unlines hw hne, List.any_eq_true] at h
  obtain ⟨l, hl, h⟩ := h
  exact ⟨l, hl, includes_eq_true.1 h⟩

end HubLayout

namespace Hub

open Text Probe

variable {r r' : Resource}

/-! ### Exports -/

instance (c : CodePoint) : Decidable (IsQuote c) :=
  inferInstanceAs (Decidable (c = .scalar '\'' ∨ c = .scalar '"'))

/-- The text has no quotes. -/
def IsQuoteFree (t : Text) : Prop := ∀ c ∈ t, ¬ IsQuote c

instance (t : Text) : Decidable (IsQuoteFree t) :=
  inferInstanceAs (Decidable (∀ c ∈ t, ¬ IsQuote c))

theorem isQuoteFree_append {s t : Text} :
    IsQuoteFree (s ++ t) ↔ IsQuoteFree s ∧ IsQuoteFree t :=
  List.forall_mem_append

theorem isQuoteFree_ofList {cs : List Char} (h : '\'' ∉ cs ∧ '"' ∉ cs) :
    IsQuoteFree (ofString (String.ofList cs)) := by
  rintro c hc (rfl | rfl)
  · exact not_mem_ofList h.1 hc
  · exact not_mem_ofList h.2 hc

theorem isQuoteFree_of_isWord {w : Text} (h : w.IsWord) : IsQuoteFree w := by
  rintro c hc (rfl | rfl)
  · exact h.not_mem (by decide) hc
  · exact h.not_mem (by decide) hc

theorem isQuoteFree_typeName (h : r.name.IsWord) : IsQuoteFree r.typeName := by
  have hq := isQuoteFree_of_isWord h
  rintro c hc (rfl | rfl)
  · exact not_mem_capitalize (fun hm => hq _ hm (.inl rfl)) (by decide) hc
  · exact not_mem_capitalize (fun hm => hq _ hm (.inr rfl)) (by decide) hc

/-- The line of an export names one module. -/
theorem module_eq_of_infix {names module module' : Text} {q q' : CodePoint}
    (hn : IsQuoteFree names) (hm : IsQuoteFree module) (hm' : IsQuoteFree module')
    (hq : IsQuote q) (hq' : IsQuote q')
    (h : q :: ("./" ++ module' ++ [q']) <:+: "export " ++ names ++ " from './" ++ module ++ "'") :
    module' = module := by
  have hdot : IsQuoteFree "./" := by decide
  have hsplit : "export " ++ names ++ " from './" ++ module ++ "'" =
      ("export " ++ names ++ " from ") ++
        CodePoint.scalar '\'' :: (("./" ++ module) ++ CodePoint.scalar '\'' :: []) := by
    simp [ofString]
  rw [hsplit] at h
  have := eq_of_infix_delimited (Q := IsQuote)
    (isQuoteFree_append.2 ⟨isQuoteFree_append.2 ⟨by decide, hn⟩, by decide⟩) (by simp)
    (isQuoteFree_append.2 ⟨hdot, hm⟩) (isQuoteFree_append.2 ⟨hdot, hm'⟩) (.inl rfl) hq hq' h
  exact List.append_cancel_left this

/-- The exports of all schemas, by their lines. -/
def schemasLayout : HubLayout where
  hub := schemas .standard
  front := [heading, "export * from './_resource.schema'", ""]
  back := []
  markerLine := schemasMarker
  below := []
  key := Resource.name
  entryLines r := [(schemas .standard).entry r]

/-- The exports of all collections, by their lines. -/
def collectionsLayout : HubLayout where
  hub := collections .standard
  front := [heading, ""]
  back := []
  markerLine := collectionsMarker
  below := []
  key := Resource.pluralName
  entryLines r := [(collections .standard).entry r]

/-- A marker has signs that no other line of a skeleton has together. -/
structure IsMarker (w : Text) : Prop where
  /-- The marker is on one line. -/
  isInline : w.IsInline
  /-- It has an equals sign, -/
  equals : .scalar '=' ∈ w
  /-- and a slash. -/
  slash : .scalar '/' ∈ w

theorem isMarker_ofList {cs : List Char} (h : '\n' ∉ cs ∧ '=' ∈ cs ∧ '/' ∈ cs) :
    IsMarker (ofString (String.ofList cs)) :=
  ⟨not_mem_ofList h.1, mem_ofList h.2.1, mem_ofList h.2.2⟩

theorem IsMarker.isInline_and_ne_nil {w : Text} (hw : IsMarker w) : w.IsInline ∧ w ≠ [] :=
  ⟨hw.isInline, List.ne_nil_of_mem hw.slash⟩

/-- A marker is not on a line without one of its signs. -/
theorem IsMarker.includes_eq_false {w l : Text} (hw : IsMarker w)
    (h : .scalar '=' ∉ l ∨ .scalar '/' ∉ l) : l.includes w = false := by
  rw [Bool.eq_false_iff, ne_eq, includes_eq_true]
  intro hi
  rcases h with h | h
  · exact h (hi.subset hw.equals)
  · exact h (hi.subset hw.slash)

theorem isMarker_schemasMarker : IsMarker schemasMarker := isMarker_ofList (by decide)

theorem isMarker_collectionsMarker : IsMarker collectionsMarker := isMarker_ofList (by decide)

theorem isSound_schemasLayout : schemasLayout.IsSound Resource.IsWordy where
  marker := IsMarker.isInline_and_ne_nil isMarker_schemasMarker
  skeleton := by
    have hbase : ("export * from './" : Text) ++
        dropEnd Settings.standard.baseSchema ".ts" ++ "'" =
          "export * from './_resource.schema'" := by
      simp [dropEnd, endsWith, Settings.standard, ofString]
    simp only [schemasLayout, schemas, hbase]
    rfl
  entry r _ := ⟨rfl, List.cons_ne_nil _ _⟩
  fixedPlain := by
    simp only [schemasLayout, IsPlainLine, List.cons_append, List.nil_append,
      List.forall_mem_cons, List.not_mem_nil, false_implies, implies_true, and_true]
    and_intros <;> exact not_mem_ofList (by decide)
  entryPlain r hr l hl := by
    rw [List.mem_singleton.1 hl]
    exact isPlainLine_iff.2 hr.gives.schemas_entry
  importPlain r _ x hx := absurd hx List.not_mem_nil
  marked := includes_eq_true.2 List.infix_rfl
  unmarked l hl := by
    refine IsMarker.includes_eq_false isMarker_schemasMarker (.inl ?_)
    revert l
    simp only [schemasLayout, List.append_nil, List.forall_mem_cons, List.not_mem_nil,
      false_implies, implies_true, and_true]
    and_intros <;> exact not_mem_ofList (by decide)

theorem isSound_collectionsLayout : collectionsLayout.IsSound Resource.IsWordy where
  marker := IsMarker.isInline_and_ne_nil isMarker_collectionsMarker
  skeleton := rfl
  entry r _ := ⟨rfl, List.cons_ne_nil _ _⟩
  fixedPlain := by
    simp only [collectionsLayout, IsPlainLine, List.cons_append, List.nil_append,
      List.forall_mem_cons, List.not_mem_nil, false_implies, implies_true, and_true]
    and_intros <;> exact not_mem_ofList (by decide)
  entryPlain r hr l hl := by
    rw [List.mem_singleton.1 hl]
    exact isPlainLine_iff.2 hr.gives.collections_entry
  importPlain r _ x hx := absurd hx List.not_mem_nil
  marked := includes_eq_true.2 List.infix_rfl
  unmarked l hl := by
    refine IsMarker.includes_eq_false isMarker_collectionsMarker (.inl ?_)
    revert l
    simp only [collectionsLayout, List.append_nil, List.forall_mem_cons, List.not_mem_nil,
      false_implies, implies_true, and_true]
    and_intros <;> exact not_mem_ofList (by decide)

/-- What is re-exported from a hub of exports is listed in it. -/
theorem key_mem_of_reexports {L : HubLayout} {added : List (Text × Text)} {rs : List Resource}
    (ending : Text) (hL : L.IsSound Resource.IsWordy) (hrs : ∀ r ∈ rs, r.IsWordy)
    (hadded : added = []) (hending : IsQuoteFree ending ∧ ending.IsInline)
    (hkey : ∀ r : Resource, r.IsWordy → (L.key r).IsWord)
    (hentry : ∀ r : Resource, r.IsWordy → ∃ names, IsQuoteFree names ∧ L.entryLines r =
      ["export " ++ names ++ " from './" ++ (L.key r ++ ending) ++ "'"])
    (hr : r.IsWordy)
    (hfixed : ∀ l ∈ L.front ++ L.back ++ L.markerLine :: L.below, ∀ q q', IsQuote q → IsQuote q' →
      ¬ q :: ("./" ++ (L.key r ++ ending) ++ [q']) <:+: l)
    (h : reexports (L.key r ++ ending) (L.text added rs) = true) : L.key r ∈ rs.map L.key := by
  obtain ⟨q, q', hq, hq', h⟩ := exists_quotes_of_reexports h
  have hmodule : ∀ r : Resource, r.IsWordy → IsQuoteFree (L.key r ++ ending) := fun r hr =>
    isQuoteFree_append.2 ⟨isQuoteFree_of_isWord (hkey r hr), hending.1⟩
  have hquote : ∀ {c : CodePoint}, IsQuote c → c ≠ newline := by
    rintro c (rfl | rfl) <;> decide
  have hinline : IsInline (q :: ("./" ++ (L.key r ++ ending) ++ [q'])) := by
    refine isInline_cons.2 ⟨hquote hq, isInline_append.2 ⟨isInline_append.2 ⟨by decide, ?_⟩, ?_⟩⟩
    · exact isInline_append.2 ⟨(hkey r hr).isPlainLine.1, hending.2⟩
    · exact isInline_cons.2 ⟨hquote hq', isInline_nil⟩
  obtain ⟨l, hl, h⟩ := hL.exists_line hrs hinline (List.cons_ne_nil _ _) h
  simp only [HubLayout.lines, HubLayout.rest, hadded, List.map_nil, List.append_nil,
    List.mem_append, List.mem_cons, List.mem_flatMap] at hl
  rcases hl with hl | hl | rfl | ⟨r', hr', hl⟩ | hl
  · exact absurd h (hfixed l (by simp [hl]) q q' hq hq')
  · exact absurd h (hfixed l (by simp [hl]) q q' hq hq')
  · exact absurd h (hfixed _ (by simp) q q' hq hq')
  · obtain ⟨names, hnames, hlines⟩ := hentry r' (hrs r' hr')
    rw [hlines, List.mem_singleton] at hl
    rw [hl] at h
    have := module_eq_of_infix hnames (hmodule r' (hrs r' hr')) (hmodule r hr) hq hq' h
    exact List.mem_map.2 ⟨r', hr', (List.append_cancel_right this).symm⟩
  · exact absurd h (hfixed l (by simp [hl]) q q' hq hq')

theorem not_infix_of_isQuoteFree {q : CodePoint} {w l : Text} (hq : IsQuote q)
    (hl : IsQuoteFree l) : ¬ q :: w <:+: l := fun h => hl q (h.subset (by simp)) hq

theorem registered_schemasLayout {added : List (Text × Text)} {rs : List Resource}
    (ha : schemasLayout.Imports rs added) (hrs : ∀ r ∈ rs, r.IsWordy) (hr : r.IsWordy) :
    schemasLayout.hub.isRegistered r (schemasLayout.text added rs) = true ↔
      schemasLayout.key r ∈ rs.map schemasLayout.key := by
  have hsound := isSound_schemasLayout
  have hprobe : ∀ r t, schemasLayout.hub.isRegistered r t =
      reexports (schemasLayout.key r ++ ".schema") t := fun _ _ => rfl
  rw [hprobe]
  constructor
  · refine key_mem_of_reexports ".schema" hsound hrs
      (ha.eq_nil fun _ => rfl) ⟨by decide, by decide⟩ (fun r hr => hr.name) (fun r hr => ?_) hr ?_
    · refine ⟨"\x7b " ++ r.varName ++ " \x7d", ?_, ?_⟩
      · exact isQuoteFree_append.2 ⟨isQuoteFree_append.2 ⟨by decide,
          isQuoteFree_of_isWord hr.varName⟩, by decide⟩
      · simp only [schemasLayout, schemas]
        simp [ofString]
    · have hbase : ∀ l ∈ schemasLayout.front ++ schemasLayout.back ++
          schemasLayout.markerLine :: schemasLayout.below, IsQuoteFree l ∨
            l = "export * from './_resource.schema'" := by
        simp only [schemasLayout, List.cons_append, List.nil_append, List.forall_mem_cons,
          List.not_mem_nil, false_implies, implies_true, and_true, or_true, true_and]
        and_intros <;> exact .inl (isQuoteFree_ofList (by decide))
      have hsplit : ofString "export * from './_resource.schema'" =
          "export " ++ "*" ++ " from './" ++ ("_resource" ++ ".schema") ++ "'" := by
        simp [ofString]
      rintro l hl q q' hq hq' h
      rcases hbase l hl with hfree | rfl
      · exact not_infix_of_isQuoteFree hq hfree h
      · rw [hsplit] at h
        have hname : r.name ++ ofString ".schema" = "_resource" ++ ".schema" :=
          module_eq_of_infix (by decide) (by decide)
            (isQuoteFree_append.2 ⟨isQuoteFree_of_isWord hr.name, by decide⟩) hq hq' h
        exact hr.notBase (List.append_cancel_right hname)
  · intro h
    obtain ⟨r', hr', hkey⟩ := List.mem_map.1 h
    have hlists : (schemas .standard).isRegistered r' (schemasLayout.text added rs) = true :=
      isRegistered_schemas (hrs r' hr').hasInlineNames (hsound.liesBelow hr')
    rw [← hkey, ← hprobe]
    exact hlists

theorem keepsLedger_schemasLayout : schemasLayout.KeepsLedger Resource.IsWordy where
  toIsSound := isSound_schemasLayout
  registered _ _ _ ha hrs hr := registered_schemasLayout ha hrs hr
  refers added _ r ha _ _ _ := ⟨added, ha.cons r, rfl⟩

theorem registered_collectionsLayout {added : List (Text × Text)} {rs : List Resource}
    (ha : collectionsLayout.Imports rs added) (hrs : ∀ r ∈ rs, r.IsWordy) (hr : r.IsWordy) :
    collectionsLayout.hub.isRegistered r (collectionsLayout.text added rs) = true ↔
      collectionsLayout.key r ∈ rs.map collectionsLayout.key := by
  have hsound := isSound_collectionsLayout
  have hprobe : ∀ r t, collectionsLayout.hub.isRegistered r t =
      reexports (collectionsLayout.key r ++ ".collection") t := fun _ _ => rfl
  rw [hprobe]
  constructor
  · refine key_mem_of_reexports ".collection" hsound hrs
      (ha.eq_nil fun _ => rfl) ⟨by decide, by decide⟩ (fun r hr => hr.pluralName)
      (fun r hr => ?_) hr ?_
    · let names : Text := if r.isParquet then "*"
        else "\x7b " ++ r.collectionName ++ ", type " ++ r.typeName ++ " \x7d"
      refine ⟨names, ?_, ?_⟩
      · simp only [names]
        split
        · decide
        · simp +decide only [isQuoteFree_append, isQuoteFree_of_isWord hr.collectionName,
            isQuoteFree_typeName hr.name]
      · simp only [collectionsLayout, collections]
        simp [names, ofString]
    · have hfree : ∀ l ∈ collectionsLayout.front ++ collectionsLayout.back ++
          collectionsLayout.markerLine :: collectionsLayout.below, IsQuoteFree l := by
        simp only [collectionsLayout, List.cons_append, List.nil_append, List.forall_mem_cons,
          List.not_mem_nil, false_implies, implies_true, and_true]
        and_intros <;> exact isQuoteFree_ofList (by decide)
      exact fun l hl q q' hq _ => not_infix_of_isQuoteFree hq (hfree l hl)
  · intro h
    obtain ⟨r', hr', hkey⟩ := List.mem_map.1 h
    have hlists : (collections .standard).isRegistered r' (collectionsLayout.text added rs) =
      true :=
      isRegistered_collections (hrs r' hr').hasInlineNames (hsound.liesBelow hr')
    rw [← hkey, ← hprobe]
    exact hlists

theorem keepsLedger_collectionsLayout : collectionsLayout.KeepsLedger Resource.IsWordy where
  toIsSound := isSound_collectionsLayout
  registered _ _ _ ha hrs hr := registered_collectionsLayout ha hrs hr
  refers added _ r ha _ _ _ := ⟨added, ha.cons r, rfl⟩

end Hub

end Scaffold
