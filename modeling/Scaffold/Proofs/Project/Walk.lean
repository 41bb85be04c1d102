import Mathlib.Data.List.Basic
import Mathlib.Data.List.Infix
import Scaffold.Project.Files
import Scaffold.Proofs.Outcome

/-!
# Following names on a disk

On a sound disk everything stands in a directory (`Disk.Sound`).  There, names without `..` lead
from a directory to the place with these names behind its own, and what stands at that place and on
the way decides how the walk ends (`Disk.walk_of_find?_eq_some`, `Disk.walk_concat_of_passes`,
`Disk.walk_concat_of_not_passes`).

A project is a directory that a path leads to (`Disk.IsProject`); a path into it that the disk
accepts (`Path.Admits`) is followed from there (`Disk.IsProject.reach_below`).
-/

namespace Scaffold

/-! ### Written paths -/

namespace Path

theorem faultFrom_eq_none (pos : Nat) {t : Text} :
    faultFrom pos t = none ↔ ∀ c ∈ t, c.IsScalar ∨ c.isByte = true := by
  fun_induction faultFrom pos t with
  | case1 => simp
  | case2 pos c t ih => simp [ih, CodePoint.IsScalar]
  | case3 pos u t hb ih => simp [ih, hb]
  | case4 pos u t hb => simp [hb, CodePoint.IsScalar]

theorem faultOf_eq_none {t : Text} :
    faultOf t = none ↔ (∀ c ∈ t, c.IsScalar ∨ c.isByte = true) ∧ .scalar '\x00' ∉ t := by
  rw [← faultFrom_eq_none 0, faultOf]
  cases faultFrom 0 t <;> simp

theorem prefix_join (between : Text) (ms ns : List Text) :
    Text.join between ms <+: Text.join between (ms ++ ns) := by
  induction ms with
  | nil => exact List.nil_prefix
  | cons m ms ih =>
    cases ms with
    | nil =>
      cases ns with
      | nil => simp
      | cons n ns => simp [Text.join]
    | cons k ms => simpa [Text.join] using ih

/-- A beginning of a path is written as a beginning of it, or as a point. -/
theorem prefix_written (start : PathStart) (ms ns : List Text) :
    (⟨start, ms⟩ : Path).written = "." ∨
      (⟨start, ms⟩ : Path).written <+: (⟨start, ms ++ ns⟩ : Path).written := by
  by_cases h : start = .here ∧ ms = []
  · exact .inl (by rw [written, if_pos h])
  · have h' : ¬ (start = .here ∧ ms ++ ns = []) := fun h' =>
      h ⟨h'.1, (List.append_eq_nil_iff.1 h'.2).1⟩
    refine .inr ?_
    rw [written, written, if_neg h, if_neg h']
    exact (List.prefix_append_right_inj _).2 (prefix_join _ _ _)

/-- A path is at fault whatever disk is asked. -/
theorem isRefusal_of_fault? {p : Path} {e : FileError} (h : p.fault? = some e) :
    e.isRefusal = false := by
  rw [fault?, faultOf] at h
  split at h
  · obtain rfl := Option.some.inj h
    rfl
  · split at h
    · obtain rfl := Option.some.inj h
      rfl
    · cases h

theorem fault?_of_append {start : PathStart} {ms ns : List Text}
    (h : (⟨start, ms ++ ns⟩ : Path).fault? = none) : (⟨start, ms⟩ : Path).fault? = none := by
  rw [fault?] at h ⊢
  rcases prefix_written start ms ns with hw | hw
  · rw [hw]
    rfl
  · obtain ⟨hs, hz⟩ := faultOf_eq_none.1 h
    exact faultOf_eq_none.2 ⟨fun c hc => hs c (hw.subset hc), fun hc => hz (hw.subset hc)⟩

theorem fault?_parent {p : Path} (h : p.fault? = none) : p.parent.fault? = none := by
  obtain ⟨start, names⟩ := p
  obtain ⟨last, hlast⟩ := names.dropLast_prefix
  rw [← hlast] at h
  exact fault?_of_append h

end Path

namespace Disk

theorem le_foldl_nameBytes (n : Nat) (t : Text) :
    n ≤ t.foldl (fun n c => n + nameBytes c) n := by
  induction t generalizing n with
  | nil => exact Nat.le_refl n
  | cons c t ih => exact Nat.le_trans (Nat.le_add_right n (nameBytes c)) (ih _)

theorem takesOver_of_append {limit : Nat} {start : PathStart} {ms ns : List Text} (hl : 0 < limit)
    (h : takesOver limit (⟨start, ms ++ ns⟩ : Path).written = false) :
    takesOver limit (⟨start, ms⟩ : Path).written = false := by
  rw [takesOver, decide_eq_false_iff_not, Nat.not_lt] at h ⊢
  rcases Path.prefix_written start ms ns with hw | ⟨u, hu⟩
  · rw [hw]
    exact hl
  · rw [← hu, List.foldl_append] at h
    exact Nat.le_trans (le_foldl_nameBytes _ u) h

/-! ### Sound disks -/

/-- Everything stands in a directory. -/
structure Sound (d : Disk) : Prop where
  /-- The place above an entry is a directory. -/
  above : ∀ (q : Place) (name : Text) (e : Entry), d.find? (q ++ [name]) = some e →
    d.find? q = some .directory
  /-- The current directory is one. -/
  here : d.find? d.here = some .directory

variable {d d' : Disk} {p q : Place} {names : List Text}

theorem mem_entries_of_find? {e : Entry} (h : d.find? q = some e) (hq : q ≠ []) :
    (q, e) ∈ d.entries := by
  rw [find?, if_neg hq, List.lookup_eq_some_iff] at h
  obtain ⟨l₁, l₂, he, -⟩ := h
  simp [he]

/-- A disk is sound if it has the directory above each entry. -/
theorem sound_of_entries (h : ∀ x ∈ d.entries, d.find? x.1.dropLast = some .directory)
    (hh : d.find? d.here = some .directory) : d.Sound where
  above q name e he := by
    have := h _ (mem_entries_of_find? he (by simp))
    rwa [List.dropLast_concat] at this
  here := hh

theorem Sound.find?_dropLast (h : d.Sound) (hq : d.find? q = some .directory) :
    d.find? q.dropLast = some .directory := by
  rcases List.eq_nil_or_concat' q with rfl | ⟨q, name, rfl⟩
  · rfl
  · rw [List.dropLast_concat]
    exact h.above q name _ hq

/-- Everything on the way to an entry is a directory. -/
theorem Sound.find?_above (h : d.Sound) {e : Entry} (hq : d.find? q = some e) (hp : p <+: q)
    (hne : p ≠ q) : d.find? p = some .directory := by
  obtain ⟨u, rfl⟩ := hp
  -- from the last name up, as soundness is about the directory above
  induction u using List.reverseRecOn generalizing e with
  | nil => simp at hne
  | append_singleton u name ih =>
    rw [← List.append_assoc] at hq
    have hd := h.above _ _ _ hq
    by_cases hu : u = []
    · simpa [hu] using hd
    · exact ih hd (by simpa using hu)

/-! ### Walks -/

/-- A walk goes on where an earlier one ends. -/
theorem walk_append (d : Disk) (p : Place) (u v : List Text) :
    d.walk p (u ++ v) = match d.walk p u with
      | .error e => .error e
      | .ok (q, some .directory) => d.walk q v
      | .ok (q, some (.file b)) =>
        if v = [] then .ok (q, some (.file b)) else .error .notDirectory
      | .ok (q, none) => if v = [] then .ok (q, none) else .error .notFound := by
  -- both walks take the same first step, from wherever they are
  induction u generalizing p with
  | nil => rfl
  | cons name u ih =>
    rw [List.cons_append, walk, walk]
    by_cases h₁ : name = Text.ofString ".."
    · rw [if_pos h₁, if_pos h₁]
      exact ih _
    · rw [if_neg h₁, if_neg h₁]
      by_cases h₂ : isTooLong name = true
      · rw [if_pos h₂, if_pos h₂]
      · rw [if_neg h₂, if_neg h₂]
        cases d.find? (p ++ [name]) with
        | none => by_cases hu : u = [] <;> simp [hu]
        | some e =>
          cases e with
          | directory => exact ih _
          | file b => by_cases hu : u = [] <;> simp [hu]

/-- A name that can be followed: not `..`, and not too long. -/
def IsPlainName (name : Text) : Prop := name ≠ Text.ofString ".." ∧ isTooLong name = false

instance (name : Text) : Decidable (IsPlainName name) :=
  inferInstanceAs (Decidable (name ≠ Text.ofString ".." ∧ isTooLong name = false))

/-- The names lead from the directory `p` to the place `q`, and `e` stands there. -/
inductive Leads (d : Disk) : Place → List Text → Place → Option Entry → Prop where
  /-- No name is left. -/
  | here (p : Place) : Leads d p [] p (some .directory)
  /-- Back to the directory above. -/
  | up {p q : Place} {names : List Text} {e : Option Entry}
      (rest : Leads d p.dropLast names q e) : Leads d p (Text.ofString ".." :: names) q e
  /-- Through a directory. -/
  | through {p q : Place} {name : Text} {names : List Text} {e : Option Entry}
      (plain : IsPlainName name) (directory : d.find? (p ++ [name]) = some .directory)
      (rest : Leads d (p ++ [name]) names q e) : Leads d p (name :: names) q e
  /-- To what is no directory, with the last name. -/
  | last {p : Place} {name : Text} (plain : IsPlainName name)
      (other : d.find? (p ++ [name]) ≠ some .directory) :
      Leads d p [name] (p ++ [name]) (d.find? (p ++ [name]))

theorem Leads.walk_eq {e : Option Entry} (h : d.Leads p names q e) :
    d.walk p names = .ok (q, e) := by
  induction h with
  | here p => rfl
  | up _ ih => rw [walk, if_pos rfl, ih]
  | through plain directory _ ih =>
    rw [walk, if_neg plain.1, plain.2, if_neg Bool.false_ne_true, directory]
    exact ih
  | @last p name plain other =>
    rw [walk, if_neg plain.1, plain.2, if_neg Bool.false_ne_true]
    cases hf : d.find? (p ++ [name]) with
    | none => rfl
    | some e =>
      cases e with
      | directory => exact absurd hf other
      | file b => rfl

theorem leads_of_walk {e : Option Entry} (h : d.walk p names = .ok (q, e)) :
    d.Leads p names q e := by
  induction names generalizing p with
  | nil =>
    rw [walk, Except.ok.injEq, Prod.mk.injEq] at h
    obtain ⟨rfl, rfl⟩ := h
    exact .here p
  | cons name names ih =>
    rw [walk] at h
    by_cases h₁ : name = Text.ofString ".."
    · rw [if_pos h₁] at h
      exact h₁ ▸ .up (ih h)
    · rw [if_neg h₁] at h
      by_cases h₂ : isTooLong name = true
      · rw [if_pos h₂] at h
        cases h
      · rw [if_neg h₂] at h
        have plain : IsPlainName name := ⟨h₁, by simpa using h₂⟩
        cases hf : d.find? (p ++ [name]) with
        | none =>
          rw [hf] at h
          dsimp only at h
          split at h
          · cases h
            subst names
            exact hf ▸ .last plain (by simp [hf])
          · cases h
        | some f =>
          rw [hf] at h
          cases f with
          | directory => exact .through plain hf (ih h)
          | file b =>
            dsimp only at h
            split at h
            · cases h
              subst names
              exact hf ▸ .last plain (by simp [hf])
            · cases h

theorem walk_eq_ok_iff {e : Option Entry} : d.walk p names = .ok (q, e) ↔ d.Leads p names q e :=
  ⟨leads_of_walk, Leads.walk_eq⟩

/-- Where names lead does not depend on the disk. -/
theorem Leads.place_eq {e : Option Entry} (h : d.Leads p names q e) :
    q = Path.resolveNames p names := by
  induction h with
  | here p => rfl
  | up _ ih => rwa [Path.resolveNames, if_pos rfl]
  | through plain _ _ ih => rwa [Path.resolveNames, if_neg plain.1]
  | last plain _ => rw [Path.resolveNames, if_neg plain.1, Path.resolveNames]

/-- Names that lead somewhere are short. -/
theorem Leads.short {e : Option Entry} (h : d.Leads p names q e) :
    ∀ name ∈ names, isTooLong name = false := by
  induction h with
  | here p => simp
  | up _ ih => exact List.forall_mem_cons.2 ⟨by decide, ih⟩
  | through plain _ _ ih => exact List.forall_mem_cons.2 ⟨plain.2, ih⟩
  | last plain _ => simpa using plain.2

/-- Directories that stay where they are are found again. -/
theorem walk_mono (hd : ∀ q, d.find? q = some .directory → d'.find? q = some .directory)
    (h : d.walk p names = .ok (q, some .directory)) :
    d'.walk p names = .ok (q, some .directory) := by
  rw [walk_eq_ok_iff] at h ⊢
  -- the induction needs a variable for what stands at the end
  generalize he : some Entry.directory = e at h ⊢
  induction h with
  | here p => exact .here p
  | up _ ih => exact .up (ih he)
  | through plain directory _ ih => exact .through plain (hd _ directory) (ih he)
  | last _ other => exact absurd he.symm other

/-- A walk that ends at a directory ends at one of the disk. -/
theorem Sound.find?_of_walk (hs : d.Sound) (hp : d.find? p = some .directory)
    (h : d.walk p names = .ok (q, some .directory)) : d.find? q = some .directory := by
  rw [walk_eq_ok_iff] at h
  generalize he : some Entry.directory = e at h
  induction h with
  | here p => exact hp
  | up _ ih => exact ih (hs.find?_dropLast hp) he
  | through _ directory _ ih => exact ih directory he
  | last _ other => exact absurd he.symm other

/-- On a sound disk a directory stands above whatever a walk ends at. -/
theorem Sound.find?_dropLast_of_walk (hs : d.Sound) (hp : d.find? p = some .directory)
    {e : Option Entry} (h : d.walk p names = .ok (q, e)) :
    d.find? q.dropLast = some .directory := by
  rw [walk_eq_ok_iff] at h
  induction h with
  | here p => exact hs.find?_dropLast hp
  | up _ ih => exact ih (hs.find?_dropLast hp)
  | through _ directory _ ih => exact ih directory
  | last _ _ => rwa [List.dropLast_concat]

/-- A walk that ends elsewhere than at a directory ends at what stands there. -/
theorem find?_of_walk {e : Option Entry} (h : d.walk p names = .ok (q, e))
    (he : e ≠ some .directory) : q ≠ [] ∧ d.find? q = e := by
  rw [walk_eq_ok_iff] at h
  induction h with
  | here p => exact absurd rfl he
  | up _ ih => exact ih he
  | through _ _ _ ih => exact ih he
  | last _ _ => exact ⟨by simp, rfl⟩

/-- A walk to something else than a directory finds whatever stands there later, as long as the
directories stay where they are. -/
theorem walk_replace (hd : ∀ q, d.find? q = some .directory → d'.find? q = some .directory)
    {e : Option Entry} (h : d.walk p names = .ok (q, e)) (he : e ≠ some .directory) :
    d'.walk p names = .ok (q, d'.find? q) := by
  rw [walk_eq_ok_iff] at h ⊢
  induction h with
  | here p => exact absurd rfl he
  | up _ ih => exact .up (ih he)
  | through plain directory _ ih => exact .through plain (hd _ directory) (ih he)
  | @last p name plain _ =>
    -- a directory at the end is walked through, to nowhere
    by_cases hdir : d'.find? (p ++ [name]) = some .directory
    · exact hdir ▸ .through plain hdir (.here _)
    · exact .last plain hdir

/-- A walk to a place that is no directory finds what is put there. -/
theorem walk_put {e : Option Entry} (h : d.walk p names = .ok (q, e)) (he : e ≠ some .directory)
    (f : Entry) : (d.put q f).walk p names = .ok (q, some f) := by
  obtain ⟨hq, hfq⟩ := find?_of_walk h he
  have hd : ∀ u, d.find? u = some .directory → (d.put q f).find? u = some .directory := by
    intro u hu
    have hne : u ≠ q := by
      rintro rfl
      exact he (hfq.symm.trans hu)
    rw [find?_put d u f hq, if_neg hne, hu]
  rw [walk_replace hd h he, find?_put d q f hq, if_pos rfl]

theorem walk_singleton {name : Text} (h : IsPlainName name) :
    d.walk p [name] = .ok (p ++ [name], d.find? (p ++ [name])) := by
  rw [walk, if_neg h.1, h.2, if_neg Bool.false_ne_true]
  cases hf : d.find? (p ++ [name]) with
  | none => simp
  | some e => cases e <;> simp [walk]

theorem walk_of_find?_eq_some (hs : d.Sound) (hn : ∀ name ∈ names, IsPlainName name)
    (hp : d.find? p = some .directory) {e : Entry} (h : d.find? (p ++ names) = some e) :
    d.walk p names = .ok (p ++ names, some e) := by
  induction names using List.reverseRecOn generalizing e with
  | nil =>
    rw [List.append_nil, hp, Option.some.injEq] at h
    rw [walk, List.append_nil, h]
  | append_singleton names name ih =>
    rw [← List.append_assoc] at h
    have hd := hs.above _ _ _ h
    rw [walk_append, ih (fun n hm => hn n (by simp [hm])) hd]
    dsimp only
    rw [walk_singleton (hn name (by simp)), h, List.append_assoc]

/-- No file stands at the place or on the way to it. -/
def Passes (d : Disk) (q : Place) : Prop := ∀ u, u <+: q → ∀ b, d.find? u ≠ some (.file b)

theorem Passes.above {u : Place} (h : d.Passes q) (hu : u <+: q) : d.Passes u :=
  fun v hv => h v (hv.trans hu)

theorem Passes.eq_none (h : d.Passes q) (hd : d.find? q ≠ some .directory) : d.find? q = none := by
  cases hf : d.find? q with
  | none => rfl
  | some e =>
    cases e with
    | directory => exact absurd hf hd
    | file b => exact absurd hf (h q List.prefix_rfl b)

theorem Sound.passes (hs : d.Sound) (h : d.find? q = some .directory) : d.Passes q := by
  intro u hu b hb
  by_cases he : u = q
  · rw [he, h] at hb
    cases hb
  · rw [hs.find?_above h hu he] at hb
    cases hb

variable {name : Text}

theorem Passes.concat (h : d.Passes q) (hf : d.find? (q ++ [name]) = none) :
    d.Passes (q ++ [name]) := by
  intro u hu b hb
  rw [List.prefix_concat_iff] at hu
  rcases hu with rfl | hu
  · rw [hf] at hb
    cases hb
  · exact h u hu b hb

/-- A walk through a directory ends at the next name, whatever stands there. -/
theorem walk_concat (hs : d.Sound) (hn : ∀ m ∈ names ++ [name], IsPlainName m)
    (hp : d.find? p = some .directory) (h : d.find? (p ++ names) = some .directory) :
    d.walk p (names ++ [name]) =
      .ok (p ++ (names ++ [name]), d.find? (p ++ (names ++ [name]))) := by
  rw [walk_append, walk_of_find?_eq_some hs (fun n hm => hn n (by simp [hm])) hp h]
  dsimp only
  rw [walk_singleton (hn name (by simp)), List.append_assoc]

/-- A walk stops where a directory is missing. -/
theorem walk_concat_of_passes (hs : d.Sound) (hn : ∀ m ∈ names ++ [name], IsPlainName m)
    (hp : d.find? p = some .directory) (h : d.find? (p ++ names) ≠ some .directory)
    (hw : d.Passes (p ++ names)) : d.walk p (names ++ [name]) = .error .notFound := by
  induction names using List.reverseRecOn generalizing name with
  | nil => exact absurd (by simpa using hp) h
  | append_singleton names m ih =>
    have hn' : ∀ k ∈ names ++ [m], IsPlainName k := fun k hk => hn k (List.mem_append_left _ hk)
    rw [walk_append]
    by_cases hd : d.find? (p ++ names) = some .directory
    · rw [walk_concat hs hn' hp hd, hw.eq_none h]
      simp
    · have hw' : d.Passes (p ++ names) := hw.above (by simp [← List.append_assoc])
      rw [ih hn' hd hw']

/-- A walk stops where a file stands in the way. -/
theorem walk_concat_of_not_passes (hs : d.Sound) (hn : ∀ m ∈ names ++ [name], IsPlainName m)
    (hp : d.find? p = some .directory) (hw : ¬ d.Passes (p ++ names)) :
    d.walk p (names ++ [name]) = .error .notDirectory := by
  induction names using List.reverseRecOn generalizing name with
  | nil => exact absurd (hs.passes (by simpa using hp)) hw
  | append_singleton names m ih =>
    have hn' : ∀ k ∈ names ++ [m], IsPlainName k := fun k hk => hn k (List.mem_append_left _ hk)
    rw [walk_append]
    cases hf : d.find? (p ++ (names ++ [m])) with
    | some e =>
      cases e with
      | directory => exact absurd (hs.passes hf) hw
      | file b =>
        rw [walk_of_find?_eq_some hs hn' hp hf]
        simp
    | none =>
      rw [← List.append_assoc] at hw hf
      have hw' : ¬ d.Passes (p ++ names) := fun hpass => hw (hpass.concat hf)
      rw [ih hn' hw']

end Disk

/-! ### Paths into a project -/

/-- The path that goes on along names. -/
def Path.below (root : Path) (names : List Text) : Path := ⟨root.start, root.names ++ names⟩

/-- The disk accepts the path along names, wherever it leads. -/
structure Path.Admits (root : Path) (names : List Text) : Prop where
  /-- The path has bytes, and no zero byte. -/
  fault : (root.below names).fault? = none
  /-- The path is not too long. -/
  short : Disk.takesOver 4095 (root.below names).written = false
  /-- Its names can be followed. -/
  plain : ∀ name ∈ names, Disk.IsPlainName name

instance (root : Path) (names : List Text) : Decidable (root.Admits names) :=
  decidable_of_iff ((root.below names).fault? = none ∧
      Disk.takesOver 4095 (root.below names).written = false ∧
      ∀ name ∈ names, Disk.IsPlainName name)
    ⟨fun h => ⟨h.1, h.2.1, h.2.2⟩, fun h => ⟨h.fault, h.short, h.plain⟩⟩

theorem Path.Admits.of_append {root : Path} {ms ns : List Text} (h : root.Admits (ms ++ ns)) :
    root.Admits ms where
  fault := fault?_of_append (by simpa [below] using h.fault)
  short := Disk.takesOver_of_append (by decide) (by simpa [below] using h.short)
  plain name hm := h.plain name (List.mem_append_left _ hm)

namespace Disk

variable {d : Disk} {root : Path} {p : Place} {names : List Text}

/-- The path leads to the directory `p`. -/
structure IsProject (d : Disk) (root : Path) (p : Place) : Prop where
  /-- The disk is sound. -/
  sound : d.Sound
  /-- The path leads there. -/
  reach : d.reach root = .ok (p, some .directory)

/-- Where walks along a path begin. -/
def startOf (d : Disk) (p : Path) : Place := if p.isAbsolute then [] else d.here

theorem reach_eq_ok_iff {path : Path} {q : Place} {e : Option Entry} :
    d.reach path = .ok (q, e) ↔ path.fault? = none ∧ takesOver 4095 path.written = false ∧
      d.walk (d.startOf path) path.names = .ok (q, e) := by
  rw [reach, startOf]
  cases path.fault? with
  | some e => simp
  | none =>
    rw [locate]
    by_cases hl : takesOver 4095 path.written = true
    · simp [hl, Except.mapError]
    · simp only [hl]
      cases d.walk (if path.isAbsolute = true then [] else d.here) path.names <;>
        simp [Except.mapError]

theorem short_of_reach {path : Path} {q : Place} {e : Option Entry}
    (h : d.reach path = .ok (q, e)) :
    ∀ name ∈ path.names, isTooLong name = false :=
  (leads_of_walk (reach_eq_ok_iff.1 h).2.2).short

theorem IsProject.find?_eq (h : d.IsProject root p) : d.find? p = some .directory := by
  obtain ⟨-, -, hw⟩ := reach_eq_ok_iff.1 h.reach
  refine h.sound.find?_of_walk ?_ hw
  rw [startOf]
  split
  · rfl
  · exact h.sound.here

/-- A path into the project is followed from its directory. -/
theorem IsProject.reach_below (h : d.IsProject root p) (ha : root.Admits names) :
    d.reach (root.below names) = (d.walk p names).mapError (.refused · (root.below names)) := by
  obtain ⟨-, -, hw⟩ := reach_eq_ok_iff.1 h.reach
  have hstart : d.startOf (root.below names) = d.startOf root := rfl
  rw [Disk.reach, ha.fault]
  dsimp only
  rw [locate, if_neg (by rw [ha.short]; exact Bool.false_ne_true)]
  change (d.walk (d.startOf (root.below names)) (root.names ++ names)).mapError _ = _
  rw [hstart, walk_append, hw]

theorem IsProject.reach_of_find? (h : d.IsProject root p) (ha : root.Admits names) {e : Entry}
    (he : d.find? (p ++ names) = some e) :
    d.reach (root.below names) = .ok (p ++ names, some e) := by
  rw [h.reach_below ha, walk_of_find?_eq_some h.sound ha.plain h.find?_eq he]
  rfl

/-- Looking along names finds what stands at the place. -/
theorem IsProject.look_below (hp : d.IsProject root p) (ha : root.Admits names) :
    d.look (root.below names) = .ok (d.find? (p ++ names)) := by
  cases hf : d.find? (p ++ names) with
  | some e => rw [look, hp.reach_of_find? ha hf]
  | none =>
    obtain ⟨names, name, rfl⟩ : ∃ ms m, names = ms ++ [m] := by
      refine (List.eq_nil_or_concat' names).resolve_left ?_
      rintro rfl
      rw [List.append_nil, hp.find?_eq] at hf
      cases hf
    rw [look, hp.reach_below ha]
    by_cases hd : d.find? (p ++ names) = some .directory
    · rw [walk_concat hp.sound ha.plain hp.find?_eq hd, hf]
      rfl
    · by_cases hw : d.Passes (p ++ names)
      · rw [walk_concat_of_passes hp.sound ha.plain hp.find?_eq hd hw]
        rfl
      · rw [walk_concat_of_not_passes hp.sound ha.plain hp.find?_eq hw]
        rfl

end Disk

end Scaffold
