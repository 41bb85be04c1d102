import Scaffold.Project.Wiring
import Scaffold.Proofs.Hub.Next
import Scaffold.Proofs.Project.Refusal
import Scaffold.Proofs.Project.Work

/-!
# What a registration in a hub comes to

`Hub.MergesTo` says how a registration in one hub ends on a disk: the resource does not belong into
the hub, the hub cannot be read, there is nothing to write, a text is saved, or it cannot be.  Every
registration ends so (`Hub.exists_mergesTo`), and its outcome tells how (`Hub.of_ends_merge`).
-/

namespace Scaffold

namespace Hub

open Work

variable {h : Hub} {r : Resource} {root path : Path} {d d' : Disk} {current : Option Text}

/-- The path of the hub in a project. -/
def pathIn (h : Hub) (root : Path) : Path := root.join (.read h.place)

/-! ### Reading a hub -/

/-- A hub is read where a file stands, and is absent where none does. -/
theorem ends_current? (path : Path) (d : Disk) :
    (current? path).Ends d
      (match d.isFile path with
      | .error e => .error e
      | .ok false => .ok none
      | .ok true => (d.readText path).map some)
      d := by
  cases hfile : d.isFile path with
  | error e => exact (ends_ask (f := (·.isFile path)) hfile).bind_error
  | ok there =>
    refine (ends_ask (f := (·.isFile path)) hfile).bind ?_
    cases there with
    | false => exact ends_pure none d
    | true =>
      cases hread : d.readText path with
      | error e => exact (ends_ask (f := (·.readText path)) hread).bind_error
      | ok t => exact (ends_ask (f := (·.readText path)) hread).bind (ends_pure (some t) d)

/-- Reading a hub changes nothing. -/
theorem of_ends_current? (hc : (current? path).Ends d (.ok current) d') :
    d = d' ∧ (∀ t ∈ current, d.readText path = .ok t) ∧
      (current = none → d.isFile path = .ok false) := by
  obtain ⟨hx, rfl⟩ := (ends_current? path d).unique hc
  refine ⟨rfl, ?_⟩
  split at hx
  · cases hx
  · rename_i hfile
    obtain rfl := Except.ok.inj hx
    exact ⟨by simp, fun _ => hfile⟩
  · obtain ⟨t, hread, rfl⟩ := Except.map_eq_ok_iff.1 hx
    exact ⟨by simpa using hread, by simp⟩

/-- A hub is not read where the disk refuses, or where its bytes are no text. -/
theorem unread_cases {e : FileError} (hc : (current? path).Ends d (.error e) d) :
    e.isRefusal = true ∨
      ∃ b fault, d.readBytes path = .ok b ∧ Utf8.decode b = .error fault ∧
        e = .undecodable fault := by
  obtain ⟨hx, -⟩ := (ends_current? path d).unique hc
  split at hx
  · rename_i hfile
    obtain rfl := Except.error.inj hx
    rw [Disk.eq_nameTooLong_of_isFile hfile]
    exact .inl rfl
  · cases hx
  · rename_i hfile
    exact .inr (Disk.undecodable_of_readText hfile (Except.map_eq_error_iff.1 hx))

/-! ### What a registration answers -/

/-- What a registration answers for a hub that the disk lets it read and write. -/
def statusOf (h : Hub) (r : Resource) (current : Option Text) : HubStatus :=
  if h.applies r then
    match (h.update r current).1 with
    | .registered => .unchanged
    | .noMarker => .noMarker h.marker
    | .write _ => if current.isSome then .updated else .created
  else .notApplicable

/-- A hub that is not there is made, if its skeleton has the marker. -/
theorem statusOf_none (ha : h.applies r = true) (hm : h.skeleton.includes h.marker = true) :
    h.statusOf r none = .created := by
  simp [statusOf, update, ha, hm]

/-- A registration that writes nothing does not claim to have written. -/
theorem statusOf_of_written?_eq_none (hw : h.written? r current = none) :
    h.statusOf r current ≠ .created ∧ h.statusOf r current ≠ .updated := by
  rw [written?] at hw
  rw [statusOf]
  split
  · rw [if_pos ‹_›] at hw
    cases hd : (h.update r current).1 with
    | registered => simp
    | noMarker => simp
    | write t => simp [hd] at hw
  · simp

/-- A registration that writes says so. -/
theorem statusOf_of_written?_eq_some {t : Text} (hw : h.written? r current = some t) :
    h.statusOf r current = if current.isSome then .updated else .created := by
  rw [written?] at hw
  rw [statusOf]
  split
  · rw [if_pos ‹_›] at hw
    cases hd : (h.update r current).1 with
    | registered => simp [hd] at hw
    | noMarker => simp [hd] at hw
    | write t => rfl
  · rw [if_neg ‹_›] at hw
    cases hw

/-- Only the disk makes a registration fail. -/
theorem statusOf_ne_failed (h : Hub) (r : Resource) (current : Option Text) (reason : Text) :
    h.statusOf r current ≠ .failed reason := by
  rw [statusOf]
  split
  · split
    · simp
    · simp
    · split <;> simp
  · simp

theorem ends_mergeAt_of_not_applies (ha : h.applies r = false) :
    (h.mergeAt r root).Ends d (.ok .notApplicable) d := by
  rw [mergeAt, ha]
  exact ends_pure _ d

theorem ends_mergeAt_of_unread {e : FileError} (ha : h.applies r = true)
    (hc : (current? (h.pathIn root)).Ends d (.error e) d) :
    (h.mergeAt r root).Ends d (.error e) d := by
  rw [mergeAt, ha]
  exact Ends.bind_error hc

theorem ends_mergeAt_of_eq_none (hc : (current? (h.pathIn root)).Ends d (.ok current) d)
    (hw : h.written? r current = none) :
    (h.mergeAt r root).Ends d (.ok (h.statusOf r current)) d := by
  rw [written?] at hw
  rw [mergeAt, statusOf]
  by_cases ha : h.applies r = true
  · rw [if_pos ha] at hw ⊢
    simp only [ha, Bool.not_true, Bool.false_eq_true, if_false]
    refine hc.bind (Ends.bind (ends_reportAll _ d) ?_)
    cases hd : (h.update r current).1 with
    | registered => exact ends_pure _ d
    | noMarker => exact ends_pure _ d
    | write t => simp [hd] at hw
  · rw [if_neg ha]
    simp only [ha]
    exact ends_pure _ d

theorem ends_mergeAt_of_eq_some {t : Text} {x : Except FileError Unit}
    (hc : (current? (h.pathIn root)).Ends d (.ok current) d)
    (hw : h.written? r current = some t) (hs : d.save (h.pathIn root) t = (x, d')) :
    (h.mergeAt r root).Ends d (x.map fun _ => h.statusOf r current) d' := by
  rw [written?] at hw
  rw [mergeAt, statusOf]
  by_cases ha : h.applies r = true
  · rw [if_pos ha] at hw ⊢
    simp only [ha, Bool.not_true, Bool.false_eq_true, if_false]
    refine hc.bind (Ends.bind (ends_reportAll _ d) ?_)
    cases hd : (h.update r current).1 with
    | registered => simp [hd] at hw
    | noMarker => simp [hd] at hw
    | write u =>
      obtain rfl : u = t := by simpa [hd] using hw
      cases x with
      | error e => exact Ends.bind_error (ends_change hs)
      | ok x =>
        refine (ends_change hs).bind ?_
        cases current with
        | none => exact (ends_report _ d').bind (ends_pure _ d')
        | some u => exact (ends_report _ d').bind (ends_pure _ d')
  · rw [if_neg ha] at hw
    cases hw

/-- What a registration in the hub comes to on the disk `d`: a status or an error, and the disk
afterwards. -/
inductive MergesTo (h : Hub) (r : Resource) (root : Path) (d : Disk) :
    Except FileError HubStatus → Disk → Prop where
  /-- The resource does not belong into the hub. -/
  | exempt (exempt : h.applies r = false) : MergesTo h r root d (.ok .notApplicable) d
  /-- The hub cannot be read. -/
  | unread {e : FileError} (applies : h.applies r = true)
      (read : (current? (h.pathIn root)).Ends d (.error e) d) : MergesTo h r root d (.error e) d
  /-- There is nothing to write. -/
  | settled {current : Option Text} (applies : h.applies r = true)
      (read : (current? (h.pathIn root)).Ends d (.ok current) d)
      (written : h.written? r current = none) :
      MergesTo h r root d (.ok (h.statusOf r current)) d
  /-- A text is saved. -/
  | saved {current : Option Text} {t : Text} {d' : Disk}
      (read : (current? (h.pathIn root)).Ends d (.ok current) d)
      (written : h.written? r current = some t) (save : d.save (h.pathIn root) t = (.ok (), d')) :
      MergesTo h r root d (.ok (h.statusOf r current)) d'
  /-- A text is to be saved, and cannot be. -/
  | unsaved {current : Option Text} {t : Text} {e : FileError} {d' : Disk}
      (read : (current? (h.pathIn root)).Ends d (.ok current) d)
      (written : h.written? r current = some t) (save : d.save (h.pathIn root) t = (.error e, d')) :
      MergesTo h r root d (.error e) d'

variable {x : Except FileError HubStatus}

theorem exists_mergesTo (h : Hub) (r : Resource) (root : Path) (d : Disk) :
    ∃ x d', (h.mergeAt r root).Ends d x d' ∧ h.MergesTo r root d x d' := by
  -- the steps of a registration in order, each of which can end it
  cases ha : h.applies r with
  | false => exact ⟨_, d, ends_mergeAt_of_not_applies ha, .exempt ha⟩
  | true =>
    obtain ⟨y, hy⟩ : ∃ y, (current? (h.pathIn root)).Ends d y d := ⟨_, ends_current? _ d⟩
    cases y with
    | error e => exact ⟨_, d, ends_mergeAt_of_unread ha hy, .unread ha hy⟩
    | ok current =>
      cases hw : h.written? r current with
      | none => exact ⟨_, d, ends_mergeAt_of_eq_none hy hw, .settled ha hy hw⟩
      | some t =>
        obtain ⟨z, d', hsave⟩ : ∃ z d', d.save (h.pathIn root) t = (z, d') := ⟨_, _, rfl⟩
        have hends := ends_mergeAt_of_eq_some hy hw hsave
        cases z with
        | ok z => exact ⟨_, d', hends, .saved hy hw hsave⟩
        | error e => exact ⟨_, d', hends, .unsaved hy hw hsave⟩

/-! ### Outcomes -/

theorem ends_merge_of_ok {status : HubStatus} (hm : (h.mergeAt r root).Ends d (.ok status) d') :
    (Hub.merge r root h).Ends d (.ok ⟨h.name, h.place, status⟩) d' :=
  (Ends.attempt hm).bind (ends_pure _ d')

theorem ends_merge_of_refused {e : FileError} (he : e.isRefusal = true)
    (hm : (h.mergeAt r root).Ends d (.error e) d') :
    (Hub.merge r root h).Ends d (.ok ⟨h.name, h.place, .failed e.message⟩) d' := by
  refine (Ends.attempt hm).bind ?_
  simp only [he, if_true]
  exact (ends_report _ d').bind (ends_pure _ d')

theorem ends_merge_of_broken {e : FileError} (he : e.isRefusal = false)
    (hm : (h.mergeAt r root).Ends d (.error e) d') : (Hub.merge r root h).Ends d (.error e) d' := by
  refine (Ends.attempt hm).bind ?_
  simp only [he]
  exact ends_fail e d'

/-- An outcome tells what the registration in the hub came to. -/
theorem of_ends_merge {o : HubOutcome} (hm : (Hub.merge r root h).Ends d (.ok o) d') :
    (∃ status, h.MergesTo r root d (.ok status) d' ∧ o = ⟨h.name, h.place, status⟩) ∨
    ∃ e, e.isRefusal = true ∧ h.MergesTo r root d (.error e) d' ∧
      o = ⟨h.name, h.place, .failed e.message⟩ := by
  obtain ⟨x, d₁, hends, hto⟩ := exists_mergesTo h r root d
  cases x with
  | ok status =>
    obtain ⟨ho, rfl⟩ := (ends_merge_of_ok hends).unique hm
    exact .inl ⟨status, hto, (Except.ok.inj ho).symm⟩
  | error e =>
    by_cases he : e.isRefusal = true
    · obtain ⟨ho, rfl⟩ := (ends_merge_of_refused he hends).unique hm
      exact .inr ⟨e, he, hto, (Except.ok.inj ho).symm⟩
    · cases ((ends_merge_of_broken (by simpa using he) hends).unique hm).1

end Hub

end Scaffold
