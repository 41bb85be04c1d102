import Scaffold.Proofs.Artifact.Planning
import Scaffold.Proofs.Project.Ledger
import Scaffold.Proofs.Project.Selection

/-!
# The files of a new project

Where nothing stands at the place of a planned file or on the way to it, a run that overwrites files
writes this one (`Disk.IsProject.ends_executeOne_of_free`).  So it goes through all files of a
resource without the disk refusing one, if they lie apart from each other: each is written, unless
its maker fails or makes nothing (`Disk.IsProject.ends_execute_of_free`).

What is written has to have bytes.  The standard files of a resource have, if the schema gives the
resource a name that has and nothing else (`Resource.IsBare.isScalar_of_maker`).
-/

namespace Scaffold

open Work

namespace PlannedFile

/-- What becomes of a file that the disk does not refuse. -/
def freeStatus (f : PlannedFile) (r : Resource) : WriteStatus :=
  match f.maker r with
  | .error reason => .failed ("producer error: " ++ reason)
  | .ok none => .omitted
  | .ok (some _) => .written

/-- The place of the file is a path into the project that the disk accepts. -/
structure FitsIn (f : PlannedFile) (root : Path) : Prop where
  /-- The place is relative. -/
  relative : (Path.read f.destination).start = .here
  /-- The place has a name. -/
  named : f.names ≠ []
  /-- The disk accepts the path. -/
  admits : root.Admits f.names

instance (f : PlannedFile) (root : Path) : Decidable (f.FitsIn root) :=
  decidable_of_iff ((Path.read f.destination).start = .here ∧ f.names ≠ [] ∧ root.Admits f.names)
    ⟨fun h => ⟨h.1, h.2.1, h.2.2⟩, fun h => ⟨h.relative, h.named, h.admits⟩⟩

end PlannedFile

namespace Disk

variable {d d' : Disk} {root : Path} {p q : Place} {r : Resource} {f : PlannedFile}

/-! ### Free places -/

instance (d : Disk) (q : Place) : Decidable (d.Passes q) :=
  decidable_of_iff (∀ u ∈ q.inits, d.bytes? u = none) (by simp only [List.mem_inits, passes_iff])

instance (d : Disk) (q : Place) : Decidable (d.Holds q none) :=
  inferInstanceAs (Decidable (d.find? q = none ∧ d.Passes q))

/-! ### One file -/

/-- Saving makes the directories first, and then writes. -/
theorem exists_writeText_of_save {path : Path} {t : Text} (h : d.save path t = (.ok (), d')) :
    ∃ d₁, d.makeDirectories path.parent = (.ok (), d₁) ∧ d₁.writeText path t = (.ok (), d') := by
  obtain ⟨x, d₁, hmake⟩ : ∃ x d₁, d.makeDirectories path.parent = (x, d₁) := ⟨_, _, rfl⟩
  rw [save, hmake] at h
  cases x with
  | error e => cases h
  | ok x => exact ⟨d₁, hmake, h⟩

/-- Where a text can be written, the disk tells whether something is there. -/
theorem exists_isThere_of_writeText {path : Path} {t : Text}
    (h : d.writeText path t = (.ok (), d')) : ∃ there, d.isThere path = .ok there := by
  cases hreach : d.reach path with
  | error e =>
    rw [writeText, hreach] at h
    cases h
  | ok found => exact ⟨found.2.isSome, by rw [isThere, look, hreach]; rfl⟩

/-- What can be saved is written by a run that overwrites. -/
theorem ends_writeGenerated_of_save {path kind t : Text}
    (h : d.save (root.join (.read path)) t = (.ok (), d')) :
    (writeGenerated root path kind t true).Ends d (.ok ⟨path, kind, .written⟩) d' := by
  obtain ⟨d₁, hmake, hwrite⟩ := exists_writeText_of_save h
  obtain ⟨there, hthere⟩ := exists_isThere_of_writeText hwrite
  exact ends_writeGenerated_of_free hmake hthere (by simp) hwrite

/-- **A file at a free place is written**, if it is made, and nothing apart from it changes. -/
theorem IsProject.ends_executeOne_of_free (hp : d.IsProject root p) (hf : f.FitsIn root)
    (hfree : d.Holds (p ++ f.names) none) (hs : ∀ t, f.maker r = .ok (some t) → t.IsScalar) :
    ∃ d', (executeOne r root true f).Ends d (.ok ⟨f.destination, f.kind, f.freeStatus r⟩) d' ∧
      d'.IsProject root p ∧ ∀ q, Apart (p ++ f.names) q → d.SameAt d' q := by
  rw [PlannedFile.freeStatus]
  cases hm : f.maker r with
  | error reason =>
    exact ⟨d, PlannedFile.ends_executeOne_of_error hm, hp, fun q _ => .refl d q⟩
  | ok made =>
    cases made with
    | none => exact ⟨d, PlannedFile.ends_executeOne_of_none hm, hp, fun q _ => .refl d q⟩
    | some t =>
      obtain ⟨b, hb, -⟩ := Utf8.exists_encode (hs t hm)
      -- nothing stands on the way to the last name, so the directories there can be made
      obtain ⟨names, name, hn⟩ := (List.eq_nil_or_concat' f.names).resolve_left hf.named
      have ha := hf.admits
      rw [hn] at ha hfree ⊢
      have hpass : d.Passes (p ++ names) := hfree.2.above (by simp [← List.append_assoc])
      have hdir : d.find? (p ++ (names ++ [name])) ≠ some .directory := by simp [hfree.1]
      obtain ⟨d', hsave, hputs⟩ := hp.save ha hpass hdir hb
      have hsave' : d.save (root.join (.read f.destination)) t = (.ok (), d') := by
        rw [← hn, ← PlannedFile.pathIn_eq hf.relative] at hsave
        exact hsave
      refine ⟨d', ?_, hputs.isProject hp fun hd => absurd hd hdir, fun q hq => ?_⟩
      · rw [PlannedFile.executeOne_of_some hm]
        exact PlannedFile.ends_writePlanned_of_ok (ends_writeGenerated_of_save hsave')
      · rw [← List.append_assoc] at hputs hq
        exact hputs.sameAt hpass hq

/-! ### All files -/

/-- **Files at free places are written**, those that are made. -/
theorem IsProject.ends_execute_of_free {files : List PlannedFile} (hp : d.IsProject root p)
    (hf : ∀ f ∈ files, f.FitsIn root) (hapart : files.Pairwise fun f g => Apart f.names g.names)
    (hfree : ∀ f ∈ files, d.Holds (p ++ f.names) none)
    (hs : ∀ f ∈ files, ∀ t, f.maker r = .ok (some t) → t.IsScalar) :
    ∃ d', (execute files r root true).Ends d
        (.ok (files.map fun f => ⟨f.destination, f.kind, f.freeStatus r⟩)) d' ∧
      d'.IsProject root p ∧ ∀ q, (∀ f ∈ files, Apart (p ++ f.names) q) → d.SameAt d' q := by
  induction files generalizing d with
  | nil => exact ⟨d, ends_each_nil _ d, hp, fun q _ => .refl d q⟩
  | cons f files ih =>
    rw [List.forall_mem_cons] at hf hfree hs
    rw [List.pairwise_cons] at hapart
    obtain ⟨d₁, hends, hp₁, hsame₁⟩ := hp.ends_executeOne_of_free hf.1 hfree.1 hs.1
    -- the other files lie apart from the first, and so their places are still free
    have hnext : ∀ g ∈ files, d₁.Holds (p ++ g.names) none := fun g hg =>
      (hsame₁ _ ((apart_append p).2 (hapart.1 g hg))).holds (hfree.2 g hg)
    obtain ⟨d₂, hends₂, hp₂, hsame₂⟩ := ih hp₁ hf.2 hapart.2 hnext hs.2
    refine ⟨d₂, Ends.each_cons (f := executeOne r root true) hends hends₂, hp₂, fun q hq => ?_⟩
    rw [List.forall_mem_cons] at hq
    exact (hsame₁ q hq.1).trans (hsame₂ q hq.2)

end Disk

/-! ### The files of a bare resource -/

namespace Text

variable {s t : Text}

theorem isScalar_nil : IsScalar [] := nofun

theorem isScalar_append : (s ++ t).IsScalar ↔ s.IsScalar ∧ t.IsScalar := consists_append

theorem IsScalar.unlines {lines : List Text} (h : ∀ line ∈ lines, line.IsScalar) :
    (Text.unlines lines).IsScalar :=
  Consists.unlines (P := CodePoint.IsScalar) trivial h

theorem IsScalar.literal (h : t.IsScalar) : t.literal.IsScalar :=
  Consists.literal (P := CodePoint.IsScalar) (ofString_isScalar _) fun c hc _ _ => h c hc

theorem IsScalar.capitalize (h : t.IsScalar) : t.capitalize.IsScalar :=
  Hub.Consists.capitalize (fun _ hc => hc.1) h

theorem IsScalar.markup (h : t.IsScalar) : t.markup.IsScalar := by
  intro c hc
  obtain ⟨d, hd, hc⟩ := List.mem_flatMap.1 hc
  rw [markupPart] at hc
  split_ifs at hc
  · exact ofString_isScalar _ c hc
  · exact ofString_isScalar _ c hc
  · exact ofString_isScalar _ c hc
  · exact ofString_isScalar _ c hc
  · exact List.mem_singleton.1 hc ▸ h d hd

end Text

/-- The schema gives the resource a name and nothing else, and its names have bytes. -/
structure Resource.IsBare (r : Resource) : Prop where
  /-- There are no fields. -/
  fields : r.fields = []
  /-- Nothing is configured but the name. -/
  config : ∀ key : Text, key ≠ "name" → r.config.get? key = none
  /-- The name has bytes. -/
  name : r.name.IsScalar
  /-- The plural name has bytes. -/
  pluralName : r.pluralName.IsScalar
  /-- The variable has bytes. -/
  varName : r.varName.IsScalar

namespace Resource.IsBare

open Artifact Code Text

variable {r : Resource}

theorem text? (h : r.IsBare) {key : Text} (hkey : key ≠ "name") : r.config.text? key = none := by
  rw [Members.text?, h.config key hkey]

theorem isParquet (h : r.IsBare) : r.isParquet = false := by
  rw [Resource.isParquet, dataSource, h.text? (by decide)]
  decide

theorem primaryKey (h : r.IsBare) : r.primaryKey = "id" := by
  rw [Resource.primaryKey, h.text? (by decide)]
  rfl

theorem apiBasePath (h : r.IsBare) : r.apiBasePath.IsScalar := by
  rw [Resource.apiBasePath, h.text? (by decide)]
  exact isScalar_append.2 ⟨ofString_isScalar _, h.pluralName⟩

theorem describe (h : r.IsBare) : r.describe.IsScalar := by
  rw [Resource.describe, description?, h.text? (by decide)]
  exact isScalar_append.2 ⟨ofString_isScalar _, h.pluralName⟩

theorem typeName (h : r.IsBare) : r.typeName.IsScalar := h.name.capitalize

theorem displayName (h : r.IsBare) : r.displayName.IsScalar := h.pluralName.capitalize

theorem isScalar_collection (h : r.IsBare) : (collection r).IsScalar := by
  have hmode : r.config.get? "syncMode" = none := h.config _ (by decide)
  refine IsScalar.unlines ?_
  rw [if_neg (by simp [h.isParquet]), apiCollection, hmode, h.primaryKey]
  simp [header, importLine, spaced, schemaModule, recordAddress, Resource.collectionName,
    isScalar_append, isScalar_nil, ofString_isScalar, h.name, h.pluralName, h.varName, h.typeName,
    h.pluralName.literal, h.apiBasePath, h.apiBasePath.literal]

theorem isScalar_listPage (h : r.IsBare) : (listPage r).IsScalar := by
  refine IsScalar.unlines ?_
  simp [header, importLine, spaced, columnsModule, collectionImport, pageHeaderImport, routeLine,
    Resource.collectionName, isScalar_append, isScalar_nil, ofString_isScalar, h.isParquet, h.name,
    h.pluralName, h.name.markup, h.displayName, h.displayName.markup, h.describe.markup]

theorem isScalar_newPage (h : r.IsBare) : (newPage r).IsScalar := by
  refine IsScalar.unlines ?_
  simp [header, importLine, spaced, formModule, formPageImports, collectionImport,
    pageHeaderImport, routeLine, navigateLine, Resource.collectionName, isScalar_append,
    isScalar_nil, ofString_isScalar, h.name, h.pluralName, h.name.markup, h.typeName, h.primaryKey]

theorem isScalar_editPage (h : r.IsBare) : (editPage r).IsScalar := by
  refine IsScalar.unlines ?_
  simp [header, importLine, spaced, formModule, formPageImports, collectionImport,
    pageHeaderImport, routeLine, navigateLine, recordParameter, Resource.collectionName,
    isScalar_append, isScalar_nil, ofString_isScalar, h.name, h.pluralName, h.name.markup,
    h.typeName, h.typeName.markup, h.primaryKey]

theorem isScalar_form (h : r.IsBare) : (form r).IsScalar := by
  have hsections : formSections r = [⟨.text "Details", none, []⟩] := by
    rw [formSections, h.config _ (by decide), visibleFields, h.fields]
    rfl
  have htitle : (Value.text "Details").display.markup.IsScalar :=
    (ofString_isScalar "Details").markup
  refine IsScalar.unlines ?_
  simp [header, importLine, importTypeLine, spaced, schemaModule, collectionModule, hsections,
    formSection, htitle, isScalar_append, isScalar_nil, ofString_isScalar, h.name, h.pluralName,
    h.varName, h.typeName]

theorem isScalar_columns (h : r.IsBare) : (columns r).IsScalar := by
  have hfields : columnFields r = [] := by
    rw [columnFields, h.config _ (by decide), visibleFields, h.fields]
    rfl
  refine IsScalar.unlines ?_
  simp [header, importLine, importTypeLine, spaced, collectionModule, hfields, cellHelpers,
    Text.join, isScalar_append, isScalar_nil, ofString_isScalar, h.name, h.pluralName, h.typeName]

/-- **The standard files of a bare resource have bytes.** -/
theorem isScalar_of_maker (h : r.IsBare) :
    ∀ f ∈ standardFiles r, ∀ t, f.maker r = .ok (some t) → t.IsScalar := by
  intro f hf t ht
  simp only [standardFiles, List.mem_cons, List.not_mem_nil, or_false] at hf
  rcases hf with rfl | rfl | rfl | rfl | rfl | rfl | rfl
  · exact eq_of_always ht ▸ h.isScalar_collection
  · exact eq_of_always ht ▸ h.isScalar_listPage
  · exact eq_of_always ht ▸ h.isScalar_newPage
  · exact eq_of_always ht ▸ h.isScalar_editPage
  · -- there is no dashboard, so nothing is made
    have hpage : analyticsPage? r = none := if_neg (by simp [analyticsEnabled, h.isParquet])
    cases hpage.symm.trans (eq_of_showing ht)
  · exact eq_of_showing_some ht ▸ h.isScalar_form
  · exact eq_of_showing_some ht ▸ h.isScalar_columns

end Resource.IsBare

end Scaffold
