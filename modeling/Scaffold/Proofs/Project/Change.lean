import Mathlib.Data.Set.Insert
import Scaffold.Project.Writing
import Scaffold.Proofs.Project.Refusal
import Scaffold.Proofs.Project.Work
import Scaffold.Proofs.Text.Encoding

/-!
# What writing a file changes

`Disk.Changes d d' files directories` says that from `d` to `d'` only the given files are changed
and only the given directories are made; nothing is removed.  Changes follow one another
(`Disk.Changes.trans`), and a file that is not among the changed ones is found and read as before
(`Disk.Changes.reach_of_notMem`).

A text that is written to a path changes the file there and makes the directories on the way, on
every disk and for every path (`Disk.Wrote`).  If that fails, no file is changed, unless the text
has no bytes: then the file may be empty afterwards (`write_keeps_or_empties`).
-/

namespace Scaffold

/-! ### The place of a path -/

namespace Path

/-- The place that a path means in the directory `here`, whatever stands on the way. -/
def place (here : Place) (p : Path) : Place := (p.normal here).names

/-- The places that the beginnings of a path mean. -/
def onWay (here : Place) (p : Path) : Set Place :=
  {q | ∃ ns, ns <+: p.names ∧ q = (⟨p.start, ns⟩ : Path).place here}

theorem place_mem_onWay (here : Place) (p : Path) : p.place here ∈ p.onWay here :=
  ⟨p.names, List.prefix_rfl, rfl⟩

theorem onWay_subset_of_prefix {here : Place} {start : PathStart} {ms ns : List Text}
    (h : ms <+: ns) : (⟨start, ms⟩ : Path).onWay here ⊆ (⟨start, ns⟩ : Path).onWay here :=
  fun _ ⟨ks, hks, hq⟩ => ⟨ks, hks.trans h, hq⟩

theorem onWay_parent_subset (here : Place) (p : Path) : p.parent.onWay here ⊆ p.onWay here :=
  onWay_subset_of_prefix p.names.dropLast_prefix

end Path

namespace Disk

variable {d d' d'' : Disk} {path : Path} {q : Place} {e : Option Entry}

theorem place_eq_of_reach (h : d.reach path = .ok (q, e)) : q = path.place d.here :=
  (leads_of_walk (reach_eq_ok_iff.1 h).2.2).place_eq

theorem reach_replace (hhere : d'.here = d.here)
    (hd : ∀ u, d.find? u = some .directory → d'.find? u = some .directory)
    (h : d.reach path = .ok (q, e)) (he : e ≠ some .directory) :
    d'.reach path = .ok (q, d'.find? q) := by
  obtain ⟨hf, hl, hw⟩ := reach_eq_ok_iff.1 h
  have hstart : d'.startOf path = d.startOf path := by rw [startOf, startOf, hhere]
  exact reach_eq_ok_iff.2 ⟨hf, hl, hstart ▸ walk_replace hd hw he⟩

theorem Sound.find?_startOf (hs : d.Sound) (path : Path) :
    d.find? (d.startOf path) = some .directory := by
  rw [startOf]
  split
  · rfl
  · exact hs.here

/-! ### Files -/

/-- The contents of the file at a place. -/
def bytes? (d : Disk) (q : Place) : Option Bytes :=
  match d.find? q with
  | some (.file b) => some b
  | _ => none

theorem bytes?_eq_some {b : Bytes} : d.bytes? q = some b ↔ d.find? q = some (.file b) := by
  rw [bytes?]
  split <;> simp_all

theorem bytes?_eq_none : d.bytes? q = none ↔ ∀ b, d.find? q ≠ some (.file b) := by
  rw [bytes?]
  split <;> simp_all

theorem bytes?_put (hq : q ≠ []) (f : Entry) {u : Place} (hu : u ≠ q) :
    (d.put q f).bytes? u = d.bytes? u := by
  rw [bytes?, bytes?, find?_put d u f hq, if_neg hu]

/-! ### Changes -/

/-- From `d` to `d'` only the files at the places `files` are changed, and directories are made only
at the places `directories`. -/
structure Changes (d d' : Disk) (files directories : Set Place) : Prop where
  /-- The current directory is the same. -/
  here : d'.here = d.here
  /-- A sound disk stays sound. -/
  sound : d.Sound → d'.Sound
  /-- Directories stay. -/
  directory : ∀ q, d.find? q = some .directory → d'.find? q = some .directory
  /-- Directories are made here. -/
  made : ∀ q, d'.find? q = some .directory → d.find? q = some .directory ∨ q ∈ directories
  /-- The other files are the same. -/
  bytes? : ∀ q, q ∉ files → d'.bytes? q = d.bytes? q

variable {S S' M M' : Set Place}

theorem Changes.refl (d : Disk) (S M : Set Place) : d.Changes d S M :=
  ⟨rfl, id, fun _ => id, fun _ => .inl, fun _ _ => rfl⟩

theorem Changes.trans (h : d.Changes d' S M) (h' : d'.Changes d'' S' M') :
    d.Changes d'' (S ∪ S') (M ∪ M') where
  here := h'.here.trans h.here
  sound := h'.sound ∘ h.sound
  directory q hq := h'.directory q (h.directory q hq)
  made q hq := (h'.made q hq).elim (fun hq => (h.made q hq).imp_right (Set.mem_union_left M'))
    fun hq => .inr (Set.mem_union_right M hq)
  bytes? q hq := by
    rw [Set.mem_union, not_or] at hq
    rw [h'.bytes? q hq.2, h.bytes? q hq.1]

theorem Changes.mono (h : d.Changes d' S M) (hS : S ⊆ S') (hM : M ⊆ M') : d.Changes d' S' M' where
  here := h.here
  sound := h.sound
  directory := h.directory
  made q hq := (h.made q hq).imp_right fun hq => hM hq
  bytes? q hq := h.bytes? q fun hS' => hq (hS hS')

/-- A file that is not changed is found as before. -/
theorem Changes.reach_of_notMem (h : d.Changes d' S M) {b : Bytes}
    (hr : d.reach path = .ok (q, some (.file b))) (hq : q ∉ S) :
    d'.reach path = .ok (q, some (.file b)) := by
  have hfind := (find?_of_walk (reach_eq_ok_iff.1 hr).2.2 (by simp)).2
  rw [reach_replace h.here h.directory hr (by simp)]
  rw [← bytes?_eq_some, ← h.bytes? q hq, bytes?_eq_some] at hfind
  rw [hfind]

theorem readBytes_eq_ok_iff {b : Bytes} :
    d.readBytes path = .ok b ↔ ∃ q, d.reach path = .ok (q, some (.file b)) := by
  rw [readBytes]
  cases hr : d.reach path with
  | error e =>
    constructor
    · intro h
      cases h
    · rintro ⟨q, h⟩
      cases h
  | ok found =>
    obtain ⟨q, e⟩ := found
    constructor
    · intro h
      rcases e with _ | c | _
      · cases h
      · obtain rfl : c = b := Except.ok.inj h
        exact ⟨q, rfl⟩
      · cases h
    · rintro ⟨u, hu⟩
      obtain ⟨-, rfl⟩ := Prod.mk.inj (Except.ok.inj hu)
      rfl

theorem readText_eq_ok_iff {t : Text} :
    d.readText path = .ok t ↔ ∃ b, d.readBytes path = .ok b ∧ Utf8.decode b = .ok t := by
  rw [readText, Except.bind_eq_ok_iff]
  exact exists_congr fun b => and_congr_right fun _ => Except.mapError_eq_ok_iff

theorem isFile_of_readBytes {b : Bytes} (h : d.readBytes path = .ok b) :
    d.isFile path = .ok true := by
  obtain ⟨q, hr⟩ := readBytes_eq_ok_iff.1 h
  rw [isFile, look, hr]
  rfl

/-- A file that is not changed is read as before. -/
theorem Changes.readBytes_of_notMem (h : d.Changes d' S M) {b : Bytes}
    (hb : d.readBytes path = .ok b) (hq : path.place d.here ∉ S) : d'.readBytes path = .ok b := by
  obtain ⟨q, hr⟩ := readBytes_eq_ok_iff.1 hb
  exact readBytes_eq_ok_iff.2 ⟨q, h.reach_of_notMem hr (place_eq_of_reach hr ▸ hq)⟩

/-- Something is put where no directory is. -/
theorem changes_put (hr : d.reach path = .ok (q, e)) (he : e ≠ some .directory) (f : Entry) :
    d.Changes (d.put q f) {q} {u | u = q ∧ f = .directory} := by
  have hw := (reach_eq_ok_iff.1 hr).2.2
  obtain ⟨hq, hf⟩ := find?_of_walk hw he
  -- no directory is where the entry goes, so none is lost
  have hother : ∀ u, d.find? u = some .directory → u ≠ q := by
    rintro u hu rfl
    exact he (hf.symm.trans hu)
  have hdir : ∀ u, d.find? u = some .directory → (d.put q f).find? u = some .directory := by
    intro u hu
    rw [find?_put d u f hq, if_neg (hother u hu), hu]
  refine ⟨rfl, fun hs => ⟨fun u name g hg => hdir u ?_, hdir _ hs.here⟩, hdir, fun u hu => ?_,
    fun u hu => bytes?_put hq f hu⟩
  · by_cases hn : u ++ [name] = q
    · have hd := hs.find?_dropLast_of_walk (hs.find?_startOf path) hw
      rwa [← hn, List.dropLast_concat] at hd
    · rw [find?_put d _ f hq, if_neg hn] at hg
      exact hs.above u name g hg
  · rw [find?_put d u f hq] at hu
    split at hu
    · exact .inr ⟨‹_›, Option.some.inj hu⟩
    · exact .inl hu

/-! ### Making directories -/

theorem changes_makeDirectory (h : d.makeDirectory path = .ok d') :
    d.Changes d' ∅ (path.onWay d.here) := by
  rw [makeDirectory] at h
  split at h
  · cases h
  · cases h
  · rename_i q hr
    obtain rfl := Except.ok.inj h
    have hput := changes_put hr (by simp) .directory
    obtain ⟨hq, hf⟩ := find?_of_walk (reach_eq_ok_iff.1 hr).2.2 (by simp)
    refine ⟨hput.here, hput.sound, hput.directory, fun u hu => (hput.made u hu).imp_right ?_,
      fun u _ => ?_⟩
    · rintro ⟨rfl, -⟩
      rw [place_eq_of_reach hr]
      exact path.place_mem_onWay d.here
    · by_cases hu : u = q
      · -- there was no file before, and there is none now
        subst hu
        rw [bytes?, bytes?, find?_put d u _ hq, if_pos rfl, hf]
      · exact bytes?_put hq _ hu

theorem changes_makeDirectoriesAt {start : PathStart} {names : List Text}
    {x : Except FileError Unit} (h : makeDirectoriesAt start d names = (x, d')) :
    d.Changes d' ∅ ((⟨start, names.reverse⟩ : Path).onWay d.here) := by
  -- on the names, from the directory up: those above are made first
  induction names generalizing d' x with
  | nil =>
    rw [makeDirectoriesAt] at h
    split at h
    · rename_i hm
      obtain ⟨-, rfl⟩ := Prod.mk.inj h
      exact changes_makeDirectory hm
    · obtain ⟨-, rfl⟩ := Prod.mk.inj h
      exact .refl ..
  | cons name names ih =>
    have habove : (⟨start, names.reverse⟩ : Path).onWay d.here ⊆
        (⟨start, (name :: names).reverse⟩ : Path).onWay d.here :=
      Path.onWay_subset_of_prefix (by rw [List.reverse_cons]; exact List.prefix_append _ _)
    rw [makeDirectoriesAt] at h
    split at h
    · rename_i hm
      obtain ⟨-, rfl⟩ := Prod.mk.inj h
      exact changes_makeDirectory hm
    · split at h
      · rename_i e d₁ hrun
        obtain ⟨-, rfl⟩ := Prod.mk.inj h
        exact (ih hrun).mono subset_rfl habove
      · rename_i d₁ hrun
        have hfirst := (ih hrun).mono subset_rfl habove
        split at h
        · rename_i hm
          obtain ⟨-, rfl⟩ := Prod.mk.inj h
          have hlast := changes_makeDirectory hm
          rw [hfirst.here] at hlast
          simpa using hfirst.trans hlast
        · obtain ⟨-, rfl⟩ := Prod.mk.inj h
          exact hfirst
    · obtain ⟨-, rfl⟩ := Prod.mk.inj h
      exact .refl ..

theorem changes_makeDirectories {x : Except FileError Unit}
    (h : d.makeDirectories path = (x, d')) : d.Changes d' ∅ (path.onWay d.here) := by
  have hchanges := changes_makeDirectoriesAt h
  rwa [List.reverse_reverse] at hchanges

/-! ### Writing a text -/

/-- How the writing of the text `t` to a path on the disk `d` ends: with a result and a disk. -/
inductive Wrote (d : Disk) (path : Path) (t : Text) : Except FileError Unit → Disk → Prop where
  /-- The file has the bytes of the text. -/
  | written {q : Place} {b : Bytes} {d' : Disk} (bytes : Utf8.encode t = .ok b)
      (reach : d'.reach path = .ok (q, some (.file b)))
      (changes : d.Changes d' {q} (path.parent.onWay d.here)) : Wrote d path t (.ok ()) d'
  /-- The disk refuses, or the path is at fault; no file is changed. -/
  | kept {e : FileError} {d' : Disk} (cause : e.isRefusal = true ∨ path.fault? ≠ none)
      (changes : d.Changes d' ∅ (path.parent.onWay d.here)) : Wrote d path t (.error e) d'
  /-- The text has no bytes, and the file has none any more. -/
  | emptied {q : Place} {fault : Utf8.EncodeError} {d' : Disk}
      (noBytes : Utf8.encode t = .error fault) (reach : d'.reach path = .ok (q, some (.file [])))
      (changes : d.Changes d' {q} (path.parent.onWay d.here)) :
      Wrote d path t (.error (.unencodable fault)) d'

variable {t : Text} {x : Except FileError Unit}

theorem wrote_writeText (h : d.writeText path t = (x, d')) : d.Wrote path t x d' := by
  rw [writeText] at h
  cases hr : d.reach path with
  | error e =>
    rw [hr] at h
    obtain ⟨rfl, rfl⟩ := Prod.mk.inj h
    refine .kept ?_ (.refl ..)
    by_cases hf : path.fault? = none
    · exact .inl (isRefusal_of_reach hf hr)
    · exact .inr hf
  | ok found =>
    obtain ⟨q, e⟩ := found
    by_cases he : e = some .directory
    · subst he
      rw [hr] at h
      obtain ⟨rfl, rfl⟩ := Prod.mk.inj h
      exact .kept (.inl rfl) (.refl ..)
    · have hput : ∀ b, d.Changes (d.put q (.file b)) {q} (path.parent.onWay d.here) := fun b =>
        (changes_put hr he (.file b)).mono subset_rfl (by simp)
      have hreach : ∀ f, (d.put q f).reach path = .ok (q, some f) := fun f => by
        obtain ⟨hf, hl, hw⟩ := reach_eq_ok_iff.1 hr
        exact reach_eq_ok_iff.2 ⟨hf, hl, walk_put hw he f⟩
      cases ht : Utf8.encode t with
      | ok b =>
        obtain ⟨rfl, rfl⟩ : .ok () = x ∧ d.put q (.file b) = d' := by
          rcases e with _ | _ | _ <;> simp_all
        exact .written ht (hreach _) (hput _)
      | error fault =>
        obtain ⟨rfl, rfl⟩ : .error (.unencodable fault) = x ∧ d.put q (.file []) = d' := by
          rcases e with _ | _ | _ <;> simp_all
        exact .emptied ht (hreach _) (hput _)

/-- Directories that were made before a text is written are part of the change. -/
theorem Changes.wrote (h : d.Changes d' ∅ (path.parent.onWay d.here)) (hw : d'.Wrote path t x d'') :
    d.Wrote path t x d'' := by
  have hway : ∀ {S : Set Place}, d'.Changes d'' S (path.parent.onWay d'.here) →
      d.Changes d'' S (path.parent.onWay d.here) := by
    intro S hc
    rw [h.here] at hc
    exact (h.trans hc).mono (by simp) (by simp)
  cases hw with
  | written bytes reach changes => exact .written bytes reach (hway changes)
  | kept cause changes => exact .kept cause (hway changes)
  | emptied noBytes reach changes => exact .emptied noBytes reach (hway changes)

/-- Where the directories on the way cannot be made, nothing is written. -/
theorem wrote_of_makeDirectories {e : FileError}
    (h : d.makeDirectories path.parent = (.error e, d')) : d.Wrote path t (.error e) d' := by
  refine .kept ?_ (changes_makeDirectories h)
  by_cases hf : path.fault? = none
  · exact .inl (isRefusal_of_makeDirectories (Path.fault?_parent hf) h)
  · exact .inr hf

theorem wrote_save (h : d.save path t = (x, d')) : d.Wrote path t x d' := by
  rw [save] at h
  split at h
  · rename_i e d₁ hmake
    obtain ⟨rfl, rfl⟩ := Prod.mk.inj h
    exact wrote_of_makeDirectories hmake
  · rename_i d₁ hmake
    exact (changes_makeDirectories hmake).wrote (wrote_writeText h)

/-- A written text changes at most the file at the path. -/
theorem Wrote.changes_place {t : Text} {x : Except FileError Unit} (h : d.Wrote path t x d') :
    d.Changes d' {path.place d.here} (path.parent.onWay d.here) := by
  cases h with
  | written _ reach changes =>
    have hplace := place_eq_of_reach reach
    rw [changes.here] at hplace
    exact hplace ▸ changes
  | kept _ changes => exact changes.mono (Set.empty_subset _) subset_rfl
  | emptied _ reach changes =>
    have hplace := place_eq_of_reach reach
    rw [changes.here] at hplace
    exact hplace ▸ changes

/-- Where the path is not at fault and the text has bytes, only the disk can refuse. -/
theorem Wrote.isRefusal {e : FileError} (h : d.Wrote path t (.error e) d')
    (hf : path.fault? = none) (ht : t.IsScalar) : e.isRefusal = true := by
  cases h with
  | kept cause _ => exact cause.resolve_right (not_not_intro hf)
  | emptied noBytes =>
    obtain ⟨b, hb, -⟩ := Utf8.exists_encode ht
    rw [hb] at noBytes
    cases noBytes

end Disk

/-! ### Generated files -/

open Work

section Steps

variable {root : Path} {path kind t : Text} {force : Bool} {d d₁ d₂ : Disk}

theorem ends_writeGenerated_of_error {e : FileError}
    (hmake : d.makeDirectories (root.join (.read path)).parent = (.error e, d₁)) :
    (writeGenerated root path kind t force).Ends d (.error e) d₁ :=
  (ends_change (f := (·.makeDirectories (root.join (.read path)).parent)) hmake).bind_error

theorem ends_writeGenerated_of_unseen {e : FileError}
    (hmake : d.makeDirectories (root.join (.read path)).parent = (.ok (), d₁))
    (hthere : d₁.isThere (root.join (.read path)) = .error e) :
    (writeGenerated root path kind t force).Ends d (.error e) d₁ :=
  (ends_change (f := (·.makeDirectories (root.join (.read path)).parent)) hmake).bind
    (ends_ask hthere).bind_error

theorem ends_writeGenerated_of_there
    (hmake : d.makeDirectories (root.join (.read path)).parent = (.ok (), d₁))
    (hthere : d₁.isThere (root.join (.read path)) = .ok true) :
    (writeGenerated root path kind t false).Ends d (.ok ⟨path, kind, .skipped⟩) d₁ := by
  refine (ends_change (f := (·.makeDirectories (root.join (.read path)).parent)) hmake).bind
    ((ends_ask hthere).bind ?_)
  rw [if_pos (by rfl : (true && !false) = true)]
  exact (ends_report _ d₁).bind (ends_pure _ d₁)

theorem ends_writeGenerated_of_free {there : Bool} {x : Except FileError Unit}
    (hmake : d.makeDirectories (root.join (.read path)).parent = (.ok (), d₁))
    (hthere : d₁.isThere (root.join (.read path)) = .ok there) (hfree : (there && !force) = false)
    (hwrite : d₁.writeText (root.join (.read path)) t = (x, d₂)) :
    (writeGenerated root path kind t force).Ends d (x.map fun _ => ⟨path, kind, .written⟩) d₂ := by
  refine (ends_change (f := (·.makeDirectories (root.join (.read path)).parent)) hmake).bind
    ((ends_ask hthere).bind ?_)
  rw [hfree, if_neg Bool.false_ne_true]
  cases x with
  | error e => exact (ends_change hwrite).bind_error
  | ok x => exact (ends_change hwrite).bind ((ends_report _ d₂).bind (ends_pure _ d₂))

end Steps

/-- A generated file is written, or skipped where it may not be overwritten. -/
theorem writeGenerated_cases (root : Path) (path kind t : Text) (force : Bool) (d : Disk) :
    (∃ x d', (writeGenerated root path kind t force).Ends d
        (x.map fun _ => ⟨path, kind, .written⟩) d' ∧ d.Wrote (root.join (.read path)) t x d') ∨
    force = false ∧ ∃ d', (writeGenerated root path kind t force).Ends d
        (.ok ⟨path, kind, .skipped⟩) d' ∧
      d.Changes d' ∅ ((root.join (.read path)).parent.onWay d.here) := by
  obtain ⟨x, d₁, hmake⟩ : ∃ x d₁, d.makeDirectories (root.join (.read path)).parent = (x, d₁) :=
    ⟨_, _, rfl⟩
  have hchanges := Disk.changes_makeDirectories hmake
  -- the directories are made even for a file that is skipped
  cases x with
  | error e =>
    exact .inl ⟨.error e, d₁, ends_writeGenerated_of_error hmake,
      Disk.wrote_of_makeDirectories hmake⟩
  | ok x =>
    cases hthere : d₁.isThere (root.join (.read path)) with
    | error e =>
      refine .inl ⟨.error e, d₁, ends_writeGenerated_of_unseen hmake hthere,
        .kept (.inl ?_) hchanges⟩
      rw [Disk.eq_nameTooLong_of_look (Except.map_eq_error_iff.1 hthere)]
      rfl
    | ok there =>
      cases hskip : there && !force with
      | true =>
        obtain ⟨rfl, rfl⟩ : there = true ∧ force = false := by simpa using hskip
        exact .inr ⟨rfl, d₁, ends_writeGenerated_of_there hmake hthere, hchanges⟩
      | false =>
        obtain ⟨y, d₂, hwrite⟩ : ∃ y d₂, d₁.writeText (root.join (.read path)) t = (y, d₂) :=
          ⟨_, _, rfl⟩
        exact .inl ⟨y, d₂, ends_writeGenerated_of_free hmake hthere hskip hwrite,
          hchanges.wrote (Disk.wrote_writeText hwrite)⟩

/-! ### Failed writes -/

/-- What is left of the files on `d` when the writing of the text `t` to a path has ended on
`d'`. -/
def KeepsOrEmpties (d d' : Disk) (path : Path) (t : Text) : Except FileError Unit → Prop
  | .ok () => ∃ b, Utf8.encode t = .ok b ∧ d'.readBytes path = .ok b
  | .error e =>
    (∀ p b, d.readBytes p = .ok b → d'.readBytes p = .ok b) ∨
    ∃ fault, Utf8.encode t = .error fault ∧ e = .unencodable fault ∧ d'.readBytes path = .ok [] ∧
      ∀ q, q ≠ path.place d.here → d'.bytes? q = d.bytes? q

theorem Disk.Wrote.keepsOrEmpties {d d' : Disk} {path : Path} {t : Text}
    {x : Except FileError Unit} (h : d.Wrote path t x d') : KeepsOrEmpties d d' path t x := by
  cases h with
  | written bytes reach _ => exact ⟨_, bytes, Disk.readBytes_eq_ok_iff.2 ⟨_, reach⟩⟩
  | kept _ changes => exact .inl fun p b hb => changes.readBytes_of_notMem hb (Set.notMem_empty _)
  | emptied noBytes reach changes =>
    refine .inr ⟨_, noBytes, rfl, Disk.readBytes_eq_ok_iff.2 ⟨_, reach⟩, fun u hu => ?_⟩
    refine changes.bytes? u ?_
    rwa [Set.mem_singleton_iff, Disk.place_eq_of_reach reach, changes.here]

/-- **A failed write loses nothing, unless the text has no bytes.**  When a hub or a generated file
is written over whatever is there and that fails, every file has the bytes it had before; or the
text has no bytes, and the file is empty. -/
theorem write_keeps_or_empties (d : Disk) (t : Text) :
    (∀ path, ∃ x d', d.save path t = (x, d') ∧ KeepsOrEmpties d d' path t x) ∧
    ∀ root path kind, ∃ x d', (writeGenerated root path kind t true).Ends d
        (x.map fun _ => ⟨path, kind, .written⟩) d' ∧
      KeepsOrEmpties d d' (root.join (.read path)) t x := by
  refine ⟨fun path => ⟨_, _, rfl, (Disk.wrote_save rfl).keepsOrEmpties⟩, fun root path kind => ?_⟩
  rcases writeGenerated_cases root path kind t true d with ⟨x, d', hends, hwrote⟩ | ⟨hforce, -⟩
  · exact ⟨x, d', hends, hwrote.keepsOrEmpties⟩
  · cases hforce

/-- A text of one surrogate is written over a file: that fails, and the file is empty. -/
theorem write_loses_surrogate :
    let d : Disk := ⟨[(["hub.ts"], .file [0x61])], []⟩
    let root : Path := ⟨.top, []⟩
    let t : Text := [.surrogate 0]
    d.readBytes (root.join (.read "hub.ts")) = .ok [0x61] ∧
    (∃ e d', d.save (root.join (.read "hub.ts")) t = (.error e, d') ∧
      d'.readBytes (root.join (.read "hub.ts")) = .ok []) ∧
    ∃ e d', (writeGenerated root "hub.ts" "hub" t true).Ends d (.error e) d' ∧
      d'.readBytes (root.join (.read "hub.ts")) = .ok [] :=
  ⟨rfl, ⟨_, _, rfl, rfl⟩, _, _, ⟨rfl, rfl⟩, rfl⟩

end Scaffold
