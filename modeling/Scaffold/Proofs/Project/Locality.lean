import Scaffold.Proofs.Project.Saving

/-!
# What a file operation depends on

In a project, looking at a path without `..` and saving a file there depend only on what stands at
the place and on the files in its way (`Disk.SameOn`): on two disks where these are the same, they
answer the same (`Disk.IsProject.look_congr`, `Disk.IsProject.save_congr`).  Changes apart from a
place leave them alone (`Disk.IsProject.sameOn_of_changes`).
-/

namespace Scaffold

/-! ### Places in a project -/

theorem Path.resolveNames_append (done u v : List Text) :
    resolveNames done (u ++ v) = resolveNames (resolveNames done u) v := by
  induction u generalizing done with
  | nil => rfl
  | cons name u ih =>
    rw [List.cons_append, resolveNames, resolveNames]
    split
    · exact ih _
    · exact ih _

theorem Path.resolveNames_eq_append {names : List Text}
    (h : ∀ name ∈ names, name ≠ Text.ofString "..") (done : List Text) :
    resolveNames done names = done ++ names := by
  induction names generalizing done with
  | nil => simp [resolveNames]
  | cons name names ih =>
    rw [List.forall_mem_cons] at h
    rw [resolveNames, if_neg h.1, ih h.2, List.append_assoc, List.singleton_append]

namespace Disk

variable {d d' d'' : Disk} {root path : Path} {p q u : Place} {names : List Text} {name : Text}
  {S M : Set Place}

theorem IsProject.place_below (hp : d.IsProject root p)
    (hn : ∀ name ∈ names, name ≠ Text.ofString "..") :
    (root.below names).place d.here = p ++ names := by
  have hroot : p = root.place d.here := place_eq_of_reach hp.reach
  rw [Path.place, Path.normal, Path.below] at *
  rw [Path.resolveNames_append, Path.resolveNames_eq_append hn, hroot]
  rfl

/-- The way to a project is there. -/
theorem IsProject.find?_of_onWay (hp : d.IsProject root p) (hu : u ∈ root.onWay d.here) :
    d.find? u = some .directory := by
  obtain ⟨ks, ⟨rest, hrest⟩, rfl⟩ := hu
  have hw := (reach_eq_ok_iff.1 hp.reach).2.2
  rw [← hrest, walk_append] at hw
  -- a walk that goes on has come to a directory
  have hdir : ∃ v, d.walk (d.startOf root) ks = .ok (v, some .directory) := by
    split at hw
    · cases hw
    · exact ⟨_, ‹_›⟩
    · split at hw <;> cases hw
    · split at hw <;> cases hw
  obtain ⟨v, hv⟩ := hdir
  have hplace : v = (⟨root.start, ks⟩ : Path).place d.here := (leads_of_walk hv).place_eq
  rw [← hplace]
  exact hp.sound.find?_of_walk (hp.sound.find?_startOf root) hv

/-- What is on the way to a place in a project is there, or lies in the project. -/
theorem IsProject.onWay_below (hp : d.IsProject root p)
    (hn : ∀ name ∈ names, name ≠ Text.ofString "..")
    (hu : u ∈ (root.below names).onWay d.here) :
    d.find? u = some .directory ∨ ∃ ns, ns <+: names ∧ u = p ++ ns := by
  obtain ⟨ks, hks, rfl⟩ := hu
  -- the way leads to the project first, and then into it
  rcases List.prefix_or_prefix_of_prefix hks (List.prefix_append root.names names) with
    hbefore | ⟨ns, rfl⟩
  · exact .inl (hp.find?_of_onWay ⟨ks, hbefore, rfl⟩)
  · have hns : ns <+: names := (List.prefix_append_right_inj _).1 hks
    exact .inr ⟨ns, hns, hp.place_below fun name hm => hn name (hns.subset hm)⟩

/-! ### The same on the way to a place -/

/-- What stands at a place, and every file in its way, is the same. -/
structure SameOn (d d' : Disk) (q : Place) : Prop where
  /-- The same stands there. -/
  find? : d'.find? q = d.find? q
  /-- The files in the way are the same. -/
  files : ∀ u, u <+: q → d'.bytes? u = d.bytes? u

theorem SameOn.refl (d : Disk) (q : Place) : d.SameOn d q := ⟨rfl, fun _ _ => rfl⟩

theorem SameOn.symm (h : d.SameOn d' q) : d'.SameOn d q :=
  ⟨h.find?.symm, fun u hu => (h.files u hu).symm⟩

theorem SameOn.trans (h : d.SameOn d' q) (h' : d'.SameOn d'' q) : d.SameOn d'' q :=
  ⟨h'.find?.trans h.find?, fun u hu => (h'.files u hu).trans (h.files u hu)⟩

theorem passes_iff : d.Passes q ↔ ∀ u, u <+: q → d.bytes? u = none :=
  forall₂_congr fun _ _ => bytes?_eq_none.symm

theorem find?_eq_of_bytes? (hb : d'.bytes? u = d.bytes? u)
    (hd : d'.find? u = some .directory ↔ d.find? u = some .directory) : d'.find? u = d.find? u := by
  cases hf : d.find? u with
  | none =>
    rw [bytes?_eq_none.2 (by simp [hf] : ∀ b, d.find? u ≠ some (.file b)), bytes?_eq_none] at hb
    cases hf' : d'.find? u with
    | none => rfl
    | some e =>
      cases e with
      | directory => rw [hf, hf'] at hd; simp at hd
      | file b => exact absurd hf' (hb b)
  | some e =>
    cases e with
    | directory => exact hd.2 hf
    | file b => rw [bytes?_eq_some.2 hf, bytes?_eq_some] at hb; exact hb

theorem Changes.isProject (h : d.Changes d' S M) (hp : d.IsProject root p) :
    d'.IsProject root p where
  sound := h.sound hp.sound
  reach := by
    obtain ⟨hf, hl, hw⟩ := reach_eq_ok_iff.1 hp.reach
    have hstart : d'.startOf root = d.startOf root := by rw [startOf, startOf, h.here]
    exact reach_eq_ok_iff.2 ⟨hf, hl, hstart ▸ walk_mono h.directory hw⟩

/-- Changes of other files, with directories made for them, leave a place alone that is not on their
way. -/
theorem IsProject.sameOn_of_changes (hp : d.IsProject root p)
    (hn : ∀ name ∈ names, name ≠ Text.ofString "..")
    (hc : d.Changes d' S ((root.below names).onWay d.here)) (hS : ∀ v ∈ S, ¬ v <+: u)
    (hu : ¬ u <+: p ++ names) : d.SameOn d' u where
  find? := by
    refine find?_eq_of_bytes? (hc.bytes? u fun h => hS u h List.prefix_rfl)
      ⟨fun hd => (hc.made u hd).elim id fun hm => ?_, hc.directory u⟩
    rcases hp.onWay_below hn hm with hd | ⟨ns, hns, rfl⟩
    · exact hd
    · exact absurd ((List.prefix_append_right_inj p).2 hns) hu
  files v hv := hc.bytes? v fun h => hS v h hv

/-- The directories on the way to a place do not make it one. -/
theorem IsProject.find?_of_changes (hp : d.IsProject root p)
    (hn : ∀ name ∈ names, name ≠ Text.ofString "..")
    (hc : d.Changes d' ∅ ((root.below names).parent.onWay d.here)) :
    d'.find? (p ++ names) = d.find? (p ++ names) := by
  rcases List.eq_nil_or_concat' names with rfl | ⟨names, name, rfl⟩
  · rw [List.append_nil, hp.find?_eq, (hc.isProject hp).find?_eq]
  · rw [parent_below] at hc
    refine (hp.sameOn_of_changes (fun m hm => hn m (by simp [hm])) hc (by simp)
      fun hpre => ?_).find?
    have := hpre.length_le
    simp only [List.length_append, List.length_singleton] at this
    omega

/-! ### Looking -/

/-- A path into a project is at fault, too long, or accepted. -/
theorem admits_cases (hn : ∀ name ∈ names, IsPlainName name) :
    (∃ e, ∀ d : Disk, d.reach (root.below names) = .error e ∧
      (e.isRefusal = false ∨ e = .refused .nameTooLong (root.below names))) ∨
    root.Admits names := by
  cases hf : (root.below names).fault? with
  | some e => exact .inl ⟨e, fun d => ⟨by rw [reach, hf], .inl (Path.isRefusal_of_fault? hf)⟩⟩
  | none =>
    cases hl : takesOver 4095 (root.below names).written with
    | true =>
      refine .inl ⟨_, fun d => ⟨?_, .inr rfl⟩⟩
      rw [reach, hf]
      dsimp only
      rw [locate, if_pos hl]
      rfl
    | false => exact .inr ⟨hf, hl, hn⟩

/-- Looking depends on what stands at the place. -/
theorem IsProject.look_congr (hp : d.IsProject root p) (hp' : d'.IsProject root p)
    (hn : ∀ name ∈ names, IsPlainName name) (h : d'.find? (p ++ names) = d.find? (p ++ names)) :
    d'.look (root.below names) = d.look (root.below names) := by
  rcases admits_cases hn with ⟨e, he⟩ | ha
  · rw [look, look, (he d).1, (he d').1]
  · rw [hp.look_below ha, hp'.look_below ha, h]

/-! ### Saving -/

theorem makeDirectories_of_error {e : FileError} (h : d.reach path = .error e)
    (he : e.isRefusal = false ∨ e = .refused .nameTooLong path) :
    d.makeDirectories path = (.error e, d) := by
  have hm : d.makeDirectory ⟨path.start, path.names.reverse.reverse⟩ = .error e := by
    rw [List.reverse_reverse, makeDirectory, h]
  have hstop : makeDirectoriesAt path.start d path.names.reverse = _ :=
    makeDirectoriesAt_of_error hm fun q hq => by
      subst hq
      simp [FileError.isRefusal] at he
  rw [makeDirectories, hstop, List.reverse_reverse]
  rcases he with he | rfl
  · simp [unlessDirectory, he]
  · simp [unlessDirectory, FileError.isRefusal, isDirectory, look, h, Except.map]

/-- Whether directories can be made depends on the files in the way. -/
theorem IsProject.makeDirectories_congr (hp : d.IsProject root p) (hp' : d'.IsProject root p)
    (hn : ∀ name ∈ names, IsPlainName name)
    (h : ∀ u, u <+: p ++ names → d'.bytes? u = d.bytes? u) :
    (d'.makeDirectories (root.below names)).1 = (d.makeDirectories (root.below names)).1 := by
  rcases admits_cases hn with ⟨e, he⟩ | ha
  · rw [makeDirectories_of_error (he d).1 (he d).2, makeDirectories_of_error (he d').1 (he d').2]
  · have hpasses : d'.Passes (p ++ names) ↔ d.Passes (p ++ names) := by
      rw [passes_iff, passes_iff]
      exact forall₂_congr fun u hu => by rw [h u hu]
    by_cases hw : d.Passes (p ++ names)
    · obtain ⟨_, hmake, -⟩ := hp.makeDirectoriesAt ha hw
      obtain ⟨_, hmake', -⟩ := hp'.makeDirectoriesAt ha (hpasses.2 hw)
      exact (congrArg Prod.fst hmake').trans (congrArg Prod.fst hmake).symm
    · rw [hp.makeDirectories_of_not_passes ha hw,
        hp'.makeDirectories_of_not_passes ha (mt hpasses.1 hw), barredBy, barredBy,
        h _ List.prefix_rfl]

theorem reach_of_makeDirectory (h : d.makeDirectory path = .ok d') :
    ∃ u, d'.reach path = .ok (u, some .directory) := by
  rw [makeDirectory] at h
  split at h
  · cases h
  · cases h
  · rename_i u hr
    obtain rfl := Except.ok.inj h
    obtain ⟨hf, hl, hw⟩ := reach_eq_ok_iff.1 hr
    exact ⟨u, reach_eq_ok_iff.2 ⟨hf, hl, walk_put hw (by simp) .directory⟩⟩

theorem reach_of_isDirectory {path : Path} (h : d.isDirectory path = .ok true) :
    ∃ q, d.reach path = .ok (q, some .directory) := by
  obtain ⟨e, hlook, he⟩ := Except.map_eq_ok_iff.1 h
  rw [look] at hlook
  split at hlook
  · rename_i q f hr
    obtain rfl := Except.ok.inj hlook
    split at he
    · exact ⟨q, hr⟩
    · cases he
  · cases hlook
  · obtain rfl := Except.ok.inj hlook
    cases he

theorem reach_of_unlessDirectory {e : FileError} (h : d.unlessDirectory path e = .ok ()) :
    ∃ u, d.reach path = .ok (u, some .directory) := by
  rw [unlessDirectory] at h
  split at h
  · split at h
    · cases h
    · rename_i hdir
      exact reach_of_isDirectory hdir
    · cases h
  · cases h

/-- Where directories were made, one stands at the path. -/
theorem reach_of_makeDirectories (h : d.makeDirectories path = (.ok (), d')) :
    ∃ u, d'.reach path = .ok (u, some .directory) := by
  obtain ⟨start, names⟩ := path
  rw [makeDirectories] at h
  rw [← List.reverse_reverse names]
  -- only the last step counts
  cases hl : names.reverse with
  | nil =>
    rw [hl, makeDirectoriesAt] at h
    split at h
    · rename_i hm
      obtain ⟨-, rfl⟩ := Prod.mk.inj h
      exact reach_of_makeDirectory hm
    · obtain ⟨hx, rfl⟩ := Prod.mk.inj h
      exact reach_of_unlessDirectory hx
  | cons name above =>
    rw [hl, makeDirectoriesAt] at h
    split at h
    · rename_i hm
      obtain ⟨-, rfl⟩ := Prod.mk.inj h
      exact reach_of_makeDirectory hm
    · split at h
      · cases (Prod.mk.inj h).1
      · split at h
        · rename_i hm
          obtain ⟨-, rfl⟩ := Prod.mk.inj h
          exact reach_of_makeDirectory hm
        · obtain ⟨hx, rfl⟩ := Prod.mk.inj h
          split at hx
          · cases hx
          · exact reach_of_unlessDirectory hx
    · obtain ⟨hx, rfl⟩ := Prod.mk.inj h
      exact reach_of_unlessDirectory hx

theorem writeText_congr (h : d'.reach path = d.reach path) (t : Text) :
    (d'.writeText path t).1 = (d.writeText path t).1 := by
  rw [writeText, writeText, h]
  split
  · rfl
  · rfl
  · split <;> rfl

theorem IsProject.find?_of_makeDirectories (hp : d.IsProject root p)
    (hn : ∀ m ∈ names, m ≠ Text.ofString "..")
    (h : d.makeDirectories (root.below names) = (.ok (), d')) :
    d'.find? (p ++ names) = some .directory := by
  have hp' := (changes_makeDirectories h).isProject hp
  obtain ⟨u, hu⟩ := reach_of_makeDirectories h
  rw [← hp'.place_below hn, ← place_eq_of_reach hu]
  exact hp'.sound.find?_of_walk (hp'.sound.find?_startOf _) (reach_eq_ok_iff.1 hu).2.2

/-- Where the directories on the way were made, a path leads to what stood at its place. -/
theorem IsProject.reach_concat_of_makeDirectories (hp : d.IsProject root p)
    (ha : root.Admits (names ++ [name]))
    (hmake : d.makeDirectories (root.below names) = (.ok (), d₁)) :
    d₁.reach (root.below (names ++ [name])) =
      .ok (p ++ (names ++ [name]), d.find? (p ++ (names ++ [name]))) := by
  have hup : ∀ m ∈ names ++ [name], m ≠ Text.ofString ".." := fun m hm => (ha.plain m hm).1
  have hdir := hp.find?_of_makeDirectories (fun m hm => hup m (by simp [hm])) hmake
  have hchanges := changes_makeDirectories hmake
  rw [← parent_below root names name] at hchanges
  rw [(hchanges.isProject hp).reach_concat ha hdir, hp.find?_of_changes hup hchanges]

/-- Whether a text can be saved depends on what stands at the place and on the files in the way. -/
theorem IsProject.save_congr (hp : d.IsProject root p) (hp' : d'.IsProject root p)
    (hn : ∀ m ∈ names ++ [name], IsPlainName m) (h : d.SameOn d' (p ++ (names ++ [name])))
    (t : Text) : (d'.save (root.below (names ++ [name])) t).1 =
      (d.save (root.below (names ++ [name])) t).1 := by
  have hmake := hp.makeDirectories_congr hp' (fun m hm => hn m (by simp [hm])) fun u hu =>
    h.files u (hu.trans ((List.prefix_append_right_inj p).2 (List.prefix_append names [name])))
  rw [Disk.save, Disk.save, parent_below]
  cases hx : d.makeDirectories (root.below names) with
  | mk x d₁ =>
    cases hx' : d'.makeDirectories (root.below names) with
    | mk x' d₁' =>
      rw [hx, hx'] at hmake
      obtain rfl : x' = x := hmake
      cases x' with
      | error e => rfl
      | ok x =>
        -- the directories do not change what stands at the place
        refine writeText_congr ?_ t
        rcases admits_cases hn with ⟨e, he⟩ | ha
        · rw [(he d₁).1, (he d₁').1]
        · rw [hp.reach_concat_of_makeDirectories ha hx,
            hp'.reach_concat_of_makeDirectories ha hx', h.find?]

end Disk

end Scaffold
