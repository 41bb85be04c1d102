import Scaffold.Project.Work
import Scaffold.Proofs.Outcome

/-!
# How work ends

`m.Ends d x d'` says that the work `m` on the disk `d` ends with the result or error `x` and the
disk `d'`.  Work that is put together ends as its parts do, one after the other (`Work.Ends.bind`,
`Work.Ends.each_append`).
-/

namespace Scaffold

namespace Work

variable {ε ε' α β : Type} {d d' d'' : Disk}

/-- On the disk `d` the work ends with `x` and the disk `d'`. -/
def Ends (m : Work ε α) (d : Disk) (x : Except ε α) (d' : Disk) : Prop :=
  (m d).result = x ∧ (m d).disk = d'

theorem Ends.unique {m : Work ε α} {x y : Except ε α} (h : m.Ends d x d') (h' : m.Ends d y d'') :
    x = y ∧ d' = d'' :=
  ⟨h.1.symm.trans h'.1, h.2.symm.trans h'.2⟩

theorem ends_pure (x : α) (d : Disk) : (pure x : Work ε α).Ends d (.ok x) d := ⟨rfl, rfl⟩

theorem ends_fail (e : ε) (d : Disk) : (fail e : Work ε α).Ends d (.error e) d := ⟨rfl, rfl⟩

theorem ends_report (r : LogRecord) (d : Disk) : (report r : Work ε Unit).Ends d (.ok ()) d :=
  ⟨rfl, rfl⟩

theorem ends_reportAll (log : Log) (d : Disk) :
    (reportAll log : Work ε Unit).Ends d (.ok ()) d := ⟨rfl, rfl⟩

theorem ends_ask {f : Disk → Except ε α} {x : Except ε α} (h : f d = x) : (ask f).Ends d x d :=
  ⟨h, rfl⟩

theorem ends_ofExcept (x : Except ε α) (d : Disk) : (ofExcept x).Ends d x d := ⟨rfl, rfl⟩

theorem ends_change {f : Disk → Except ε α × Disk} {x : Except ε α} (h : f d = (x, d')) :
    (change f).Ends d x d' :=
  ⟨congrArg Prod.fst h, congrArg Prod.snd h⟩

theorem Ends.bind {m : Work ε α} {f : α → Work ε β} {x : α} {y : Except ε β}
    (hm : m.Ends d (.ok x) d') (hf : (f x).Ends d' y d'') : (m >>= f).Ends d y d'' := by
  obtain ⟨hx, rfl⟩ := hm
  change (andThen m f d).result = y ∧ (andThen m f d).disk = d''
  rw [andThen]
  cases hr : m d with
  | mk result disk log =>
    rw [hr] at hx hf
    obtain rfl : result = .ok x := hx
    exact hf

theorem Ends.bind_error {m : Work ε α} {f : α → Work ε β} {e : ε}
    (hm : m.Ends d (.error e) d') : (m >>= f).Ends d (.error e) d' := by
  obtain ⟨hx, rfl⟩ := hm
  change (andThen m f d).result = _ ∧ (andThen m f d).disk = _
  rw [andThen]
  cases hr : m d with
  | mk result disk log =>
    rw [hr] at hx
    obtain rfl : result = .error e := hx
    exact ⟨rfl, rfl⟩

/-- Work that succeeds does so part by part. -/
theorem Ends.of_bind {m : Work ε α} {f : α → Work ε β} {y : β}
    (h : (m >>= f).Ends d (.ok y) d'') :
    ∃ x d', m.Ends d (.ok x) d' ∧ (f x).Ends d' (.ok y) d'' := by
  obtain ⟨hy, rfl⟩ := h
  change (andThen m f d).result = _ at hy
  change ∃ x d', m.Ends d (.ok x) d' ∧ (f x).Ends d' (.ok y) (andThen m f d).disk
  rw [andThen] at hy ⊢
  cases hr : m d with
  | mk result disk log =>
    rw [hr] at hy
    cases result with
    | error e => cases hy
    | ok x => exact ⟨x, disk, ⟨by rw [hr], by rw [hr]⟩, hy, rfl⟩

theorem Ends.mapError {m : Work ε α} {x : Except ε α} {g : ε → ε'} (h : m.Ends d x d') :
    (mapError g m).Ends d (x.mapError g) d' :=
  ⟨congrArg (Except.mapError g) h.1, h.2⟩

theorem ends_mapError_iff {m : Work ε α} {x : α} {g : ε → ε'} :
    (Work.mapError g m).Ends d (.ok x) d' ↔ m.Ends d (.ok x) d' :=
  and_congr_left' Except.mapError_eq_ok_iff

theorem Ends.attempt {m : Work ε α} {x : Except ε α} (h : m.Ends d x d') :
    (attempt m : Work ε' (Except ε α)).Ends d (.ok x) d' :=
  ⟨congrArg Except.ok h.1, h.2⟩

theorem Ends.inDirectory {m : Work ε α} {here : Place} {x : Except ε α}
    (h : m.Ends { d with here } x d') :
    (inDirectory here m).Ends d x { d' with here := d.here } :=
  ⟨h.1, congrArg (fun u : Disk => { u with here := d.here }) h.2⟩

/-- A report changes nothing but the log. -/
theorem ends_report_bind_iff {rec : LogRecord} {m : Unit → Work ε α} {x : Except ε α} :
    (report rec >>= m).Ends d x d' ↔ (m ()).Ends d x d' := Iff.rfl

variable {f : α → Work ε β}

theorem ends_each_nil (f : α → Work ε β) (d : Disk) : (each f []).Ends d (.ok []) d := ⟨rfl, rfl⟩

theorem Ends.each_cons {x : α} {y : β} {xs : List α} {ys : List β} (h : (f x).Ends d (.ok y) d')
    (hs : (each f xs).Ends d' (.ok ys) d'') : (each f (x :: xs)).Ends d (.ok (y :: ys)) d'' :=
  h.bind (hs.bind (ends_pure (y :: ys) d''))

/-- Work for every item that leaves the disk as it is. -/
theorem ends_each_same {xs : List α} {P : β → Prop}
    (h : ∀ x ∈ xs, ∃ y, (f x).Ends d (.ok y) d ∧ P y) :
    ∃ ys, (each f xs).Ends d (.ok ys) d ∧ ys.length = xs.length ∧ ∀ y ∈ ys, P y := by
  induction xs with
  | nil => exact ⟨[], ends_each_nil f d, rfl, by simp⟩
  | cons x xs ih =>
    rw [List.forall_mem_cons] at h
    obtain ⟨⟨y, hy, hP⟩, hxs⟩ := h
    obtain ⟨ys, hys, hlen, hPs⟩ := ih hxs
    exact ⟨y :: ys, hy.each_cons hys, congrArg (· + 1) hlen, List.forall_mem_cons.2 ⟨hP, hPs⟩⟩

theorem Ends.of_each_cons {x : α} {xs : List α} {ys : List β}
    (h : (each f (x :: xs)).Ends d (.ok ys) d'') : ∃ y zs d', ys = y :: zs ∧
      (f x).Ends d (.ok y) d' ∧ (each f xs).Ends d' (.ok zs) d'' := by
  have h : (f x >>= fun y => each f xs >>= fun ys => pure (y :: ys)).Ends d (.ok ys) d'' := h
  obtain ⟨y, d', hy, h⟩ := h.of_bind
  obtain ⟨zs, e, hzs, hpure, rfl⟩ := h.of_bind
  exact ⟨y, zs, d', (Except.ok.inj hpure).symm, hy, hzs⟩

theorem Ends.each_append {xs xs' : List α} {ys ys' : List β} (h : (each f xs).Ends d (.ok ys) d')
    (h' : (each f xs').Ends d' (.ok ys') d'') :
    (each f (xs ++ xs')).Ends d (.ok (ys ++ ys')) d'' := by
  induction xs generalizing d ys with
  | nil =>
    obtain ⟨hy, rfl⟩ := h
    obtain rfl : [] = ys := Except.ok.inj hy
    exact h'
  | cons x xs ih =>
    obtain ⟨y, zs, e, rfl, hx, hs⟩ := h.of_each_cons
    exact hx.each_cons (ih hs)

theorem Ends.disk_each_cons {x : α} {xs : List α} {y : β}
    (h : (f x).Ends d (.ok y) d') :
    (each f (x :: xs) d).disk = (each f xs d').disk := by
  obtain ⟨hy, rfl⟩ := h
  cases hxs : (each f xs (f x d).disk).result with
  | error e =>
    have hends : (each f (x :: xs)).Ends d (.error e) (each f xs (f x d).disk).disk :=
      Ends.bind ⟨hy, rfl⟩ (Ends.bind_error ⟨hxs, rfl⟩)
    exact hends.2
  | ok ys => exact (Ends.each_cons ⟨hy, rfl⟩ ⟨hxs, rfl⟩).2

theorem Ends.disk_each_append {xs xs' : List α} {ys : List β}
    (h : (each f xs).Ends d (.ok ys) d') :
    (each f (xs ++ xs') d).disk = (each f xs' d').disk := by
  induction xs generalizing d ys with
  | nil =>
    obtain ⟨-, rfl⟩ := h
    rfl
  | cons x xs ih =>
    obtain ⟨y, zs, d₁, -, hx, hs⟩ := h.of_each_cons
    rw [List.cons_append, hx.disk_each_cons, ih hs]

/-- What every item keeps is kept, however the work ends. -/
theorem each_keeps {P : Disk → Prop} {xs : List α}
    (h : ∀ x ∈ xs, ∀ d, P d → P (f x d).disk) (hd : P d) :
    P (each f xs d).disk := by
  induction xs generalizing d with
  | nil => exact hd
  | cons x xs ih =>
    rw [List.forall_mem_cons] at h
    have hfirst := h.1 d hd
    cases hx : (f x d).result with
    | error e =>
      have hends : (each f (x :: xs)).Ends d (.error e) (f x d).disk := Ends.bind_error ⟨hx, rfl⟩
      rwa [hends.2]
    | ok y =>
      have hends : (f x).Ends d (.ok y) (f x d).disk := ⟨hx, rfl⟩
      rw [hends.disk_each_cons]
      exact ih h.2 hfirst

end Work

end Scaffold
