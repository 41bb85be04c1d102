import Scaffold.Proofs.Project.Locality

/-!
# A disk without one of its files

`Disk.Lacks s d d'` says that `d'` is the disk `d` without the file at the place `s`.  A file
operation on a path that has `s` neither at its end nor on its way cannot tell the two apart: it
answers the same on both, and afterwards they still differ in this file alone
(`Disk.Lacks.makeDirectories`, `Disk.Lacks.writeText`, `Disk.Lacks.save`).

A path that does have `s` on its way leads to `s` or nowhere, on either disk
(`Disk.Sound.reach_of_mem_onWay`).
-/

namespace Scaffold

namespace Disk

variable {s p q : Place} {d d' d₁ : Disk} {path : Path} {names : List Text}

/-- The disk `d'` is the disk `d` without the file at the place `s`. -/
structure Lacks (s : Place) (d d' : Disk) : Prop where
  /-- The current directory is the same. -/
  here : d'.here = d.here
  /-- Everything else is the same. -/
  find? : ∀ q, q ≠ s → d'.find? q = d.find? q
  /-- The first disk has the file. -/
  file : ∃ b, d.find? s = some (.file b)
  /-- The second one has nothing there. -/
  free : d'.find? s = none

theorem lookup_erase (s q : Place) (es : List (Place × Entry)) :
    (es.filter fun x => x.1 ≠ s).lookup q = if q = s then none else es.lookup q := by
  induction es with
  | nil => simp
  | cons x es ih =>
    obtain ⟨u, e⟩ := x
    by_cases hu : u = s
    · rw [List.filter_cons_of_neg (by simpa using hu), ih]
      by_cases hq : q = s
      · rw [if_pos hq, if_pos hq]
      · have hne : (q == u) = false := by simpa [hu] using hq
        rw [if_neg hq, if_neg hq, List.lookup_cons, hne]
    · rw [List.filter_cons_of_pos (by simpa using hu), List.lookup_cons, List.lookup_cons, ih]
      by_cases hq : q = u
      · simp [hq, hu]
      · have hne : (q == u) = false := by simpa using hq
        rw [hne]

/-- Where a file stands, the disk without it lacks it. -/
theorem lacks_erase {b : Bytes} (h : d.find? s = some (.file b)) : Lacks s d (d.erase s) where
  here := rfl
  find? q hq := by
    have hlookup := lookup_erase s q d.entries
    rw [if_neg hq] at hlookup
    rw [Disk.find?, Disk.find?]
    split
    · rfl
    · exact hlookup
  file := ⟨b, h⟩
  free := by
    have hs : s ≠ [] := by
      rintro rfl
      cases h
    have hlookup := lookup_erase s s d.entries
    rw [if_pos rfl] at hlookup
    rw [Disk.find?, if_neg hs]
    exact hlookup

namespace Lacks

theorem ne_directory (h : Lacks s d d') : d.find? s ≠ some .directory := by
  obtain ⟨b, hb⟩ := h.file
  simp [hb]

theorem sound (h : Lacks s d d') (hd : d.Sound) : d'.Sound where
  above q name e he := by
    have hne : q ++ [name] ≠ s := by
      rintro rfl
      rw [h.free] at he
      cases he
    rw [h.find? _ hne] at he
    have hdir := hd.above q name e he
    rwa [h.find? q fun hq => h.ne_directory (hq ▸ hdir)]
  here := by
    rw [h.here, h.find? _ fun hs => h.ne_directory (hs ▸ hd.here)]
    exact hd.here

/-- The current directories change alike. -/
theorem inDirectory (h : Lacks s d d') (here : Place) :
    Lacks s { d with here } { d' with here } where
  here := rfl
  find? := h.find?
  file := h.file
  free := h.free

/-- The same is put at another place. -/
theorem put (h : Lacks s d d') (hq : q ≠ []) (hs : q ≠ s) (e : Entry) :
    Lacks s (d.put q e) (d'.put q e) where
  here := h.here
  find? u hu := by rw [find?_put _ u e hq, find?_put _ u e hq, h.find? u hu]
  file := by
    rw [find?_put _ s e hq, if_neg hs.symm]
    exact h.file
  free := by rw [find?_put _ s e hq, if_neg hs.symm, h.free]

/-! ### Looking -/

/-- Names that do not lead over the file lead to the same. -/
theorem walk_eq (h : Lacks s d d') (hs : ∀ ks, ks <+: names → Path.resolveNames p ks ≠ s) :
    d'.walk p names = d.walk p names := by
  induction names generalizing p with
  | nil => rfl
  | cons name names ih =>
    have hrest : ∀ ks, ks <+: names → Path.resolveNames p (name :: ks) ≠ s := fun ks hks =>
      hs (name :: ks) (List.cons_prefix_cons.2 ⟨rfl, hks⟩)
    rw [walk, walk]
    by_cases hup : name = Text.ofString ".."
    · rw [if_pos hup, if_pos hup]
      simp only [Path.resolveNames, if_pos hup] at hrest
      exact ih hrest
    · simp only [Path.resolveNames, if_neg hup] at hrest
      have hnext : p ++ [name] ≠ s := hrest [] List.nil_prefix
      rw [if_neg hup, if_neg hup, h.find? _ hnext, ih hrest]

theorem reach_eq (h : Lacks s d d') (hs : s ∉ path.onWay d.here) :
    d'.reach path = d.reach path := by
  have hwalk : d'.walk (d.startOf path) path.names = d.walk (d.startOf path) path.names :=
    h.walk_eq fun ks hks heq => hs ⟨ks, hks, heq.symm⟩
  rw [reach, reach, locate, locate, h.here]
  rw [startOf] at hwalk
  rw [hwalk]

theorem look_eq (h : Lacks s d d') (hs : s ∉ path.onWay d.here) : d'.look path = d.look path := by
  rw [look, look, h.reach_eq hs]

theorem isFile_eq (h : Lacks s d d') (hs : s ∉ path.onWay d.here) :
    d'.isFile path = d.isFile path := by
  rw [isFile, isFile, h.look_eq hs]

theorem isDirectory_eq (h : Lacks s d d') (hs : s ∉ path.onWay d.here) :
    d'.isDirectory path = d.isDirectory path := by
  rw [isDirectory, isDirectory, h.look_eq hs]

theorem isThere_eq (h : Lacks s d d') (hs : s ∉ path.onWay d.here) :
    d'.isThere path = d.isThere path := by
  rw [isThere, isThere, h.look_eq hs]

theorem readText_eq (h : Lacks s d d') (hs : s ∉ path.onWay d.here) :
    d'.readText path = d.readText path := by
  rw [readText, readText, readBytes, readBytes, h.reach_eq hs]

theorem readLines_eq (h : Lacks s d d') (hs : s ∉ path.onWay d.here) :
    d'.readLines path = d.readLines path := by
  rw [readLines, readLines, h.readText_eq hs]

/-! ### Making directories and writing -/

/-- Both disks refuse to make a directory, or both make it. -/
theorem makeDirectory (h : Lacks s d d') (hs : s ∉ path.onWay d.here) :
    (∃ e, d.makeDirectory path = .error e ∧ d'.makeDirectory path = .error e) ∨
    ∃ d₁ d₁', d.makeDirectory path = .ok d₁ ∧ d'.makeDirectory path = .ok d₁' ∧
      Lacks s d₁ d₁' := by
  have hreach := h.reach_eq hs
  rw [Disk.makeDirectory, Disk.makeDirectory, hreach]
  cases hr : d.reach path with
  | error e => exact .inl ⟨e, rfl, rfl⟩
  | ok found =>
    obtain ⟨q, _ | e⟩ := found
    · have hq := (find?_of_walk (reach_eq_ok_iff.1 hr).2.2 (by simp)).1
      have hqs : q ≠ s := by
        rintro rfl
        exact hs (place_eq_of_reach hr ▸ path.place_mem_onWay d.here)
      exact .inr ⟨_, _, rfl, rfl, h.put hq hqs .directory⟩
    · exact .inl ⟨_, rfl, rfl⟩

theorem unlessDirectory_eq (h : Lacks s d d') (hs : s ∉ path.onWay d.here) (e : FileError) :
    d'.unlessDirectory path e = d.unlessDirectory path e := by
  rw [unlessDirectory, unlessDirectory, h.isDirectory_eq hs]

theorem makeDirectoriesAt {start : PathStart} (h : Lacks s d d')
    (hs : s ∉ (⟨start, names.reverse⟩ : Path).onWay d.here) :
    (makeDirectoriesAt start d' names).1 = (makeDirectoriesAt start d names).1 ∧
      Lacks s (makeDirectoriesAt start d names).2 (makeDirectoriesAt start d' names).2 := by
  -- on the names, from the directory up: those above are made first
  induction names with
  | nil =>
    rcases h.makeDirectory hs with ⟨e, hm, hm'⟩ | ⟨d₁, d₁', hm, hm', h₁⟩
    · simp only [List.reverse_nil] at hm hm' hs
      simp only [Disk.makeDirectoriesAt, hm, hm']
      exact ⟨h.unlessDirectory_eq hs e, h⟩
    · simp only [List.reverse_nil] at hm hm'
      simp only [Disk.makeDirectoriesAt, hm, hm']
      exact ⟨trivial, h₁⟩
  | cons name names ih =>
    have hprefix : names.reverse <+: (name :: names).reverse := by
      rw [List.reverse_cons]
      exact List.prefix_append _ _
    have habove : s ∉ (⟨start, names.reverse⟩ : Path).onWay d.here := fun hmem =>
      hs (Path.onWay_subset_of_prefix hprefix hmem)
    obtain ⟨hx, hrun⟩ := ih habove
    rcases h.makeDirectory hs with ⟨e, hm, hm'⟩ | ⟨d₁, d₁', hm, hm', h₁⟩
    · by_cases he : ∃ u, e = .refused .notFound u
      · obtain ⟨u, rfl⟩ := he
        simp only [Disk.makeDirectoriesAt, hm, hm']
        cases hmade : Disk.makeDirectoriesAt start d names with
        | mk x d₁ =>
          cases hmade' : Disk.makeDirectoriesAt start d' names with
          | mk x' d₁' =>
            have hhere := (changes_makeDirectoriesAt hmade).here
            rw [hmade, hmade'] at hx hrun
            obtain rfl : x' = x := hx
            cases x' with
            | error e => exact ⟨rfl, hrun⟩
            | ok x =>
              have hs₁ : s ∉ (⟨start, (name :: names).reverse⟩ : Path).onWay d₁.here := by
                rw [hhere]
                exact hs
              rcases hrun.makeDirectory hs₁ with ⟨e, hl, hl'⟩ | ⟨d₂, d₂', hl, hl', h₂⟩
              · simp only [hl, hl', hrun.unlessDirectory_eq hs₁ e]
                exact ⟨trivial, hrun⟩
              · simp only [hl, hl']
                exact ⟨trivial, h₂⟩
      · rw [makeDirectoriesAt_of_error hm fun u hu => he ⟨u, hu⟩,
          makeDirectoriesAt_of_error hm' fun u hu => he ⟨u, hu⟩]
        exact ⟨h.unlessDirectory_eq hs e, h⟩
    · simp only [Disk.makeDirectoriesAt, hm, hm']
      exact ⟨trivial, h₁⟩

/-- Directories are made alike. -/
theorem makeDirectories (h : Lacks s d d') (hs : s ∉ path.onWay d.here) :
    (d'.makeDirectories path).1 = (d.makeDirectories path).1 ∧
      Lacks s (d.makeDirectories path).2 (d'.makeDirectories path).2 :=
  h.makeDirectoriesAt (by rwa [List.reverse_reverse])

/-- A text is written alike. -/
theorem writeText (h : Lacks s d d') (hs : s ∉ path.onWay d.here) (t : Text) :
    (d'.writeText path t).1 = (d.writeText path t).1 ∧
      Lacks s (d.writeText path t).2 (d'.writeText path t).2 := by
  have hreach := h.reach_eq hs
  refine ⟨writeText_congr hreach t, ?_⟩
  rw [Disk.writeText, Disk.writeText, hreach]
  split
  · exact h
  · exact h
  · rename_i q e he hr
    have hq := (find?_of_walk (reach_eq_ok_iff.1 hr).2.2 he).1
    have hqs : q ≠ s := by
      rintro rfl
      exact hs (place_eq_of_reach hr ▸ path.place_mem_onWay d.here)
    split
    · exact h.put hq hqs _
    · exact h.put hq hqs _

/-- A text is saved alike. -/
theorem save (h : Lacks s d d') (hs : s ∉ path.onWay d.here) (t : Text) :
    (d'.save path t).1 = (d.save path t).1 ∧ Lacks s (d.save path t).2 (d'.save path t).2 := by
  have hparent : s ∉ path.parent.onWay d.here := fun hmem => hs (Path.onWay_parent_subset _ _ hmem)
  obtain ⟨hx, hmade⟩ := h.makeDirectories hparent
  rw [Disk.save, Disk.save]
  cases hmake : d.makeDirectories path.parent with
  | mk x d₁ =>
    cases hmake' : d'.makeDirectories path.parent with
    | mk x' d₁' =>
      have hhere := (changes_makeDirectories hmake).here
      rw [hmake, hmake'] at hx hmade
      obtain rfl : x' = x := hx
      cases x' with
      | error e => exact ⟨rfl, hmade⟩
      | ok x =>
        refine hmade.writeText ?_ t
        rw [hhere]
        exact hs

end Lacks

/-! ### Paths over a place -/

/-- A path over a place where no directory stands leads there, or nowhere. -/
theorem Sound.reach_of_mem_onWay (hd : d.Sound) (hs : s ∈ path.onWay d.here)
    (hne : d.find? s ≠ some .directory) {e : Option Entry} (h : d.reach path = .ok (q, e)) :
    q = s ∧ e = d.find? s := by
  obtain ⟨ks, ⟨rest, hrest⟩, rfl⟩ := hs
  have hwalk := (reach_eq_ok_iff.1 h).2.2
  rw [← hrest, walk_append] at hwalk
  cases hw : d.walk (d.startOf path) ks with
  | error r =>
    rw [hw] at hwalk
    cases hwalk
  | ok found =>
    obtain ⟨u, f⟩ := found
    have hu : u = (⟨path.start, ks⟩ : Path).place d.here := (leads_of_walk hw).place_eq
    have hf : f ≠ some .directory := by
      rintro rfl
      exact hne (hu ▸ hd.find?_of_walk (hd.find?_startOf path) hw)
    have hfind := (Disk.find?_of_walk hw hf).2
    -- the walk cannot go on from there
    have hlast : q = u ∧ e = f := by
      rw [hw] at hwalk
      match f, hf with
      | none, _ | some (.file _), _ =>
        dsimp only at hwalk
        split at hwalk
        · obtain ⟨rfl, rfl⟩ := Prod.mk.inj (Except.ok.inj hwalk)
          exact ⟨rfl, rfl⟩
        · cases hwalk
    obtain ⟨rfl, rfl⟩ := hlast
    exact ⟨hu, hu ▸ hfind.symm⟩

end Disk

end Scaffold
