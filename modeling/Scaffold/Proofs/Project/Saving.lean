import Scaffold.Proofs.Project.Change

/-!
# What saving a file does to a disk

Saving makes the directories above the file first.  On a project where no file stands in the way it
succeeds, and changes the place of the file and the places above it, nothing else
(`Disk.IsProject.save`); the disk stays sound, and the project is still there
(`Disk.Puts.isProject`).  Where something stands in the way, the disk stays as it is
(`Disk.IsProject.save_of_barred`).
-/

namespace Scaffold

namespace Disk

variable {d d' d'' : Disk} {root : Path} {p q : Place} {names : List Text} {name : Text} {e : Entry}

/-- `d'` is `d` with the entry `e` at the place `q`, and with the directories above it. -/
structure Puts (d d' : Disk) (q : Place) (e : Entry) : Prop where
  /-- The current directory is the same. -/
  here : d'.here = d.here
  /-- What stands at a place. -/
  find? : ∀ u, d'.find? u =
    if u = q then some e else if u <+: q then some .directory else d.find? u

theorem Puts.find?_self (h : d.Puts d' q e) : d'.find? q = some e := by
  rw [h.find?, if_pos rfl]

theorem Puts.find?_elsewhere (h : d.Puts d' q e) {u : Place} (hu : ¬ u <+: q) :
    d'.find? u = d.find? u := by
  have hne : u ≠ q := by
    rintro rfl
    exact hu List.prefix_rfl
  rw [h.find?, if_neg hne, if_neg hu]

theorem Puts.find?_directory (h : d.Puts d' q e)
    (he : d.find? q = some .directory → e = .directory) {u : Place}
    (hu : d.find? u = some .directory) : d'.find? u = some .directory := by
  rw [h.find?]
  split
  · rename_i hq
    rw [he (hq ▸ hu)]
  · split
    · rfl
    · exact hu

/-- The project is still there, on a sound disk. -/
theorem Puts.isProject (h : d.Puts d' q e) (hp : d.IsProject root p)
    (he : d.find? q = some .directory → e = .directory) : d'.IsProject root p where
  sound :=
    { above := fun u name f hf => by
        by_cases hu : u ++ [name] <+: q
        · have hne : u ≠ q := by
            rintro rfl
            have := hu.length_le
            simp only [List.length_append, List.length_singleton] at this
            omega
          rw [h.find?, if_neg hne, if_pos ((List.prefix_append u [name]).trans hu)]
        · rw [h.find?_elsewhere hu] at hf
          exact h.find?_directory he (hp.sound.above u name f hf)
      here := by
        rw [h.here]
        exact h.find?_directory he hp.sound.here }
  reach := by
    obtain ⟨hf, hl, hw⟩ := reach_eq_ok_iff.1 hp.reach
    have hstart : d'.startOf root = d.startOf root := by rw [startOf, startOf, h.here]
    exact reach_eq_ok_iff.2 ⟨hf, hl, hstart ▸ walk_mono (fun u hu => h.find?_directory he hu) hw⟩

theorem Puts.refl (hs : d.Sound) (h : d.find? q = some .directory) : d.Puts d q .directory where
  here := rfl
  find? u := by
    split
    · rename_i hu
      rw [hu, h]
    · split
      · exact hs.find?_above h ‹_› ‹_›
      · rfl

/-- An entry comes into a directory that was made for it. -/
theorem Puts.put (h : d.Puts d' q .directory) (name : Text) (e : Entry) :
    d.Puts (d'.put (q ++ [name]) e) (q ++ [name]) e where
  here := h.here
  find? u := by
    rw [find?_put d' u e (by simp), h.find?]
    by_cases h₁ : u = q ++ [name]
    · rw [if_pos h₁, if_pos h₁]
    · rw [if_neg h₁, if_neg h₁]
      by_cases h₂ : u = q
      · simp [h₂]
      · simp [h₁, h₂, List.prefix_concat_iff]

/-! ### Making directories -/

/-- Where a directory cannot be made for another reason than that those above it are missing, none
is made. -/
theorem makeDirectoriesAt_of_error {start : PathStart} {l : List Text} {e : FileError}
    (h : d.makeDirectory ⟨start, l.reverse⟩ = .error e) (he : ∀ path, e ≠ .refused .notFound path) :
    makeDirectoriesAt start d l = (d.unlessDirectory ⟨start, l.reverse⟩ e, d) := by
  cases l with
  | nil =>
    rw [List.reverse_nil] at h
    rw [makeDirectoriesAt, h]
    rfl
  | cons name l =>
    rw [makeDirectoriesAt, h]
    split
    · cases ‹_›
    · rename_i path hpath
      exact absurd (Except.error.inj hpath) (he path)
    · rename_i hpath
      rw [Except.error.inj hpath]

theorem makeDirectoriesAt_of_directory {start : PathStart} {l : List Text}
    (h : d.reach ⟨start, l.reverse⟩ = .ok (q, some .directory)) :
    makeDirectoriesAt start d l = (.ok (), d) := by
  have hm : d.makeDirectory ⟨start, l.reverse⟩ = .error (.refused .taken ⟨start, l.reverse⟩) := by
    rw [makeDirectory, h]
  rw [makeDirectoriesAt_of_error hm (by simp)]
  simp [unlessDirectory, FileError.isRefusal, isDirectory, look, h, Except.map]

theorem IsProject.reach_concat (hp : d.IsProject root p) (ha : root.Admits (names ++ [name]))
    (hd : d.find? (p ++ names) = some .directory) :
    d.reach (root.below (names ++ [name])) =
      .ok (p ++ (names ++ [name]), d.find? (p ++ (names ++ [name]))) := by
  rw [hp.reach_below ha, walk_concat hp.sound ha.plain hp.find?_eq hd]
  rfl

theorem makeDirectories_of_reach {path : Path} (h : d.reach path = .ok (q, some .directory)) :
    d.makeDirectories path = (.ok (), d) :=
  makeDirectoriesAt_of_directory (by rwa [List.reverse_reverse])

/-- The directories of a project can be made where no file stands in the way. -/
theorem IsProject.makeDirectoriesAt (hp : d.IsProject root p) (ha : root.Admits names)
    (hw : d.Passes (p ++ names)) :
    ∃ d', Disk.makeDirectoriesAt root.start d (root.names ++ names).reverse = (.ok (), d') ∧
      d.Puts d' (p ++ names) .directory := by
  induction names using List.reverseRecOn with
  | nil =>
    refine ⟨d, makeDirectoriesAt_of_directory (q := p) ?_, Puts.refl hp.sound ?_⟩
    · simpa using hp.reach
    · simpa using hp.find?_eq
  | append_singleton names name ih =>
    have hpath : (⟨root.start, (name :: (root.names ++ names).reverse).reverse⟩ : Path) =
        root.below (names ++ [name]) := by
      simp [Path.below]
    have hcons : (root.names ++ (names ++ [name])).reverse =
        name :: (root.names ++ names).reverse := by
      simp
    rw [hcons]
    by_cases hd : d.find? (p ++ (names ++ [name])) = some .directory
    · refine ⟨d, makeDirectoriesAt_of_directory (q := p ++ (names ++ [name])) ?_,
        Puts.refl hp.sound hd⟩
      rw [hpath]
      exact hp.reach_of_find? ha hd
    · have hnone := hw.eq_none hd
      rw [Disk.makeDirectoriesAt, hpath]
      by_cases hq : d.find? (p ++ names) = some .directory
      · have hm : d.makeDirectory (root.below (names ++ [name])) =
            .ok (d.put (p ++ (names ++ [name])) .directory) := by
          rw [makeDirectory, hp.reach_concat ha hq, hnone]
        simp only [hm]
        exact ⟨_, rfl, by simpa using (Puts.refl hp.sound hq).put name .directory⟩
      · -- the directory above is missing too: it is made first
        have hw' : d.Passes (p ++ names) := hw.above (by simp [← List.append_assoc])
        have hm : d.makeDirectory (root.below (names ++ [name])) =
            .error (.refused .notFound (root.below (names ++ [name]))) := by
          rw [makeDirectory, hp.reach_below ha,
            walk_concat_of_passes hp.sound ha.plain hp.find?_eq hq hw']
          rfl
        obtain ⟨d', hrun, hputs⟩ := ih ha.of_append hw'
        have hp' := hputs.isProject hp fun _ => rfl
        have hnone' : d'.find? (p ++ (names ++ [name])) = none := by
          rw [hputs.find?_elsewhere, hnone]
          intro hpre
          have := hpre.length_le
          simp only [List.length_append, List.length_singleton] at this
          omega
        have hm' : d'.makeDirectory (root.below (names ++ [name])) =
            .ok (d'.put (p ++ (names ++ [name])) .directory) := by
          rw [makeDirectory, hp'.reach_concat ha hputs.find?_self, hnone']
        simp only [hm, hrun, hm']
        exact ⟨_, rfl, by simpa using hputs.put name .directory⟩

/-! ### Saving a file -/

theorem parent_below (root : Path) (names : List Text) (name : Text) :
    (root.below (names ++ [name])).parent = root.below names := by
  simp [Path.parent, Path.below, ← List.append_assoc]

/-- **A file can be saved where nothing stands in the way**, and nothing else changes but the
directories above it. -/
theorem IsProject.save (hp : d.IsProject root p) (ha : root.Admits (names ++ [name]))
    (hw : d.Passes (p ++ names)) (hd : d.find? (p ++ (names ++ [name])) ≠ some .directory)
    {t : Text} {b : Bytes} (hb : Utf8.encode t = .ok b) :
    ∃ d', d.save (root.below (names ++ [name])) t = (.ok (), d') ∧
      d.Puts d' (p ++ (names ++ [name])) (.file b) := by
  obtain ⟨d', hrun, hputs⟩ := hp.makeDirectoriesAt ha.of_append hw
  have hp' := hputs.isProject hp fun _ => rfl
  -- the directories do not change what stands at the place
  have hd' : d'.find? (p ++ (names ++ [name])) = d.find? (p ++ (names ++ [name])) := by
    refine hputs.find?_elsewhere fun hpre => ?_
    have := hpre.length_le
    simp only [List.length_append, List.length_singleton] at this
    omega
  have hreach := hp'.reach_concat ha hputs.find?_self
  have hmake : d.makeDirectories (root.below names) = (.ok (), d') := hrun
  have hwrite : d'.writeText (root.below (names ++ [name])) t =
      (.ok (), d'.put (p ++ (names ++ [name])) (.file b)) := by
    rw [writeText, hreach, hd']
    cases hf : d.find? (p ++ (names ++ [name])) with
    | none => simp only [hb]
    | some e =>
      cases e with
      | directory => exact absurd hf hd
      | file c => simp only [hb]
  refine ⟨_, ?_, by simpa using hputs.put name (.file b)⟩
  rw [Disk.save, parent_below, hmake]
  exact hwrite

/-- Why no directory can be made at a place along a file. -/
def barredBy (d : Disk) (q : Place) : Refusal :=
  if (d.bytes? q).isSome then .taken else .notDirectory

/-- Directories cannot be made along a file. -/
theorem IsProject.makeDirectories_of_not_passes (hp : d.IsProject root p)
    (ha : root.Admits names) (hw : ¬ d.Passes (p ++ names)) :
    d.makeDirectories (root.below names) =
      (.error (.refused (d.barredBy (p ++ names)) (root.below names)), d) := by
  have hpath : (⟨root.start, (root.names ++ names).reverse.reverse⟩ : Path) = root.below names := by
    rw [List.reverse_reverse, Path.below]
  obtain ⟨names, name, rfl⟩ : ∃ ms m, names = ms ++ [m] := by
    refine (List.eq_nil_or_concat' names).resolve_left ?_
    rintro rfl
    exact hw (hp.sound.passes (by simpa using hp.find?_eq))
  rw [makeDirectories, barredBy]
  -- the file stands at the place itself, or above it
  cases hf : d.find? (p ++ (names ++ [name])) with
  | some e =>
    cases e with
    | directory => exact absurd (hp.sound.passes hf) hw
    | file b =>
      have hreach := hp.reach_of_find? ha hf
      have hm : d.makeDirectory (root.below (names ++ [name])) =
          .error (.refused .taken (root.below (names ++ [name]))) := by
        rw [makeDirectory, hreach]
      rw [bytes?_eq_some.2 hf]
      refine (makeDirectoriesAt_of_error (hpath ▸ hm) (by simp)).trans ?_
      rw [hpath]
      simp [unlessDirectory, FileError.isRefusal, isDirectory, look, hreach, Except.map]
  | none =>
    have hnone : d.bytes? (p ++ (names ++ [name])) = none := bytes?_eq_none.2 (by simp [hf])
    rw [hnone]
    rw [← List.append_assoc] at hw hf
    have hw' : ¬ d.Passes (p ++ names) := fun hpass => hw (hpass.concat hf)
    have hreach : d.reach (root.below (names ++ [name])) =
        .error (.refused .notDirectory (root.below (names ++ [name]))) := by
      rw [hp.reach_below ha, walk_concat_of_not_passes hp.sound ha.plain hp.find?_eq hw']
      rfl
    have hm : d.makeDirectory (root.below (names ++ [name])) =
        .error (.refused .notDirectory (root.below (names ++ [name]))) := by
      rw [makeDirectory, hreach]
    refine (makeDirectoriesAt_of_error (hpath ▸ hm) (by simp)).trans ?_
    rw [hpath]
    simp [unlessDirectory, FileError.isRefusal, isDirectory, look, hreach, Except.map]

/-- Where something stands in the way, nothing is changed. -/
theorem IsProject.save_of_barred (hp : d.IsProject root p) (ha : root.Admits (names ++ [name]))
    (h : ¬ d.Passes (p ++ names) ∨ d.find? (p ++ (names ++ [name])) = some .directory) (t : Text) :
    ∃ reason path, d.save (root.below (names ++ [name])) t =
      (.error (.refused reason path), d) := by
  by_cases hw : d.Passes (p ++ names)
  · have hd := h.resolve_left (not_not_intro hw)
    have hd' : d.find? (p ++ names) = some .directory :=
      hp.sound.above (p ++ names) name .directory (by simpa using hd)
    have hmake := makeDirectories_of_reach (hp.reach_of_find? ha.of_append hd')
    refine ⟨.isDirectory, root.below (names ++ [name]), ?_⟩
    rw [Disk.save, parent_below, hmake]
    simp only [writeText, hp.reach_of_find? ha hd]
  · have hmake := hp.makeDirectories_of_not_passes ha.of_append hw
    exact ⟨_, _, by rw [Disk.save, parent_below, hmake]⟩

/-- What is saved is read. -/
theorem readText_save {path : Path} {t : Text} (h : d.save path t = (.ok (), d')) :
    d'.readText path = .ok t := by
  cases wrote_save h with
  | written hb hreach =>
    exact readText_eq_ok_iff.2 ⟨_, readBytes_eq_ok_iff.2 ⟨_, hreach⟩, Utf8.decode_of_encode hb⟩

end Disk

end Scaffold
