import Scaffold.Proofs.Project.Walk

/-!
# What a disk refuses

A path is at fault on every disk, or the disk refuses it (`FileError.isRefusal`).  Looking fails
only for what is too long; reading what is a file fails only where its bytes are no text; and
directories whose path is not at fault can be made, unless the disk refuses
(`Disk.isRefusal_of_makeDirectories`).
-/

namespace Scaffold

namespace Disk

variable {d d' : Disk} {path : Path} {e : FileError}

/-! ### Looking and reading -/

theorem eq_nameTooLong_of_look (h : d.look path = .error e) : e = .refused .nameTooLong path := by
  rw [look] at h
  split at h
  · cases h
  · rename_i q hreach
    obtain rfl := Except.error.inj h
    rw [reach] at hreach
    split at hreach
    · rename_i e he
      obtain rfl := Except.error.inj hreach
      cases Path.isRefusal_of_fault? he
    · obtain ⟨r, -, heq⟩ := Except.mapError_eq_error_iff.1 hreach
      exact heq.symm.trans (by rw [(FileError.refused.inj heq).1])
  · cases h

theorem eq_nameTooLong_of_isFile (h : d.isFile path = .error e) :
    e = .refused .nameTooLong path :=
  eq_nameTooLong_of_look (Except.map_eq_error_iff.1 h)

theorem exists_readBytes (hfile : d.isFile path = .ok true) : ∃ b, d.readBytes path = .ok b := by
  obtain ⟨entry, hlook, hentry⟩ := Except.map_eq_ok_iff.1 hfile
  obtain ⟨b, rfl⟩ : ∃ b, entry = some (.file b) := by
    split at hentry
    · exact ⟨_, rfl⟩
    · cases hentry
  rw [look] at hlook
  split at hlook
  · rename_i place entry hreach
    obtain rfl := Except.ok.inj hlook
    exact ⟨b, by rw [readBytes, hreach]; rfl⟩
  · cases hlook
  · cases hlook

/-- A file can only lack a text. -/
theorem undecodable_of_readText (hfile : d.isFile path = .ok true)
    (h : d.readText path = .error e) :
    ∃ b fault, d.readBytes path = .ok b ∧ Utf8.decode b = .error fault ∧
      e = .undecodable fault := by
  obtain ⟨b, hbytes⟩ := exists_readBytes hfile
  rw [readText, hbytes] at h
  obtain ⟨fault, hfault, rfl⟩ := Except.mapError_eq_error_iff.1 h
  exact ⟨b, fault, hbytes, hfault, rfl⟩

/-- Where the path is not at fault, only the disk can refuse. -/
theorem isRefusal_of_reach (hf : path.fault? = none) (h : d.reach path = .error e) :
    e.isRefusal = true := by
  rw [reach, hf] at h
  obtain ⟨r, -, rfl⟩ := Except.mapError_eq_error_iff.1 h
  rfl

/-! ### Making directories -/

theorem isRefusal_of_makeDirectory (hf : path.fault? = none)
    (h : d.makeDirectory path = .error e) : e.isRefusal = true := by
  rw [makeDirectory] at h
  split at h
  · rename_i hreach
    obtain rfl := Except.error.inj h
    exact isRefusal_of_reach hf hreach
  · obtain rfl := Except.error.inj h
    rfl
  · cases h

/-- A directory that cannot be made is looked at, and that is refused by the disk alone. -/
theorem isRefusal_of_unlessDirectory {e' : FileError} (he : e.isRefusal = true)
    (h : d.unlessDirectory path e = .error e') : e'.isRefusal = true := by
  rw [unlessDirectory, if_pos he] at h
  split at h
  · rename_i hdir
    obtain rfl := Except.error.inj h
    rw [eq_nameTooLong_of_look (Except.map_eq_error_iff.1 hdir)]
    rfl
  · cases h
  · obtain rfl := Except.error.inj h
    exact he

theorem isRefusal_of_makeDirectoriesAt {start : PathStart} {names : List Text}
    (hf : (⟨start, names.reverse⟩ : Path).fault? = none)
    (h : makeDirectoriesAt start d names = (.error e, d')) : e.isRefusal = true := by
  -- on the names, from the directory up: those above are not at fault either
  induction names generalizing d' e with
  | nil =>
    rw [makeDirectoriesAt] at h
    split at h
    · cases h
    · rename_i hm
      exact isRefusal_of_unlessDirectory (isRefusal_of_makeDirectory hf hm) (Prod.mk.inj h).1
  | cons name names ih =>
    have hmake : ∀ {d : Disk} {e : FileError},
        d.makeDirectory ⟨start, (name :: names).reverse⟩ = .error e → e.isRefusal = true :=
      isRefusal_of_makeDirectory hf
    rw [makeDirectoriesAt] at h
    split at h
    · cases h
    · split at h
      · rename_i e₁ d₁ habove
        obtain rfl := Except.error.inj (Prod.mk.inj h).1
        rw [List.reverse_cons] at hf
        exact ih (Path.fault?_of_append hf) habove
      · split at h
        · cases h
        · rename_i e₁ hm
          split at h
          · obtain rfl := Except.error.inj (Prod.mk.inj h).1
            exact hmake hm
          · exact isRefusal_of_unlessDirectory (hmake hm) (Prod.mk.inj h).1
    · rename_i hm
      exact isRefusal_of_unlessDirectory (hmake hm) (Prod.mk.inj h).1

theorem isRefusal_of_makeDirectories (hf : path.fault? = none)
    (h : d.makeDirectories path = (.error e, d')) : e.isRefusal = true :=
  isRefusal_of_makeDirectoriesAt (by rwa [List.reverse_reverse]) h

end Disk

end Scaffold
