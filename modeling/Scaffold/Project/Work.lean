import Scaffold.Log.Record
import Scaffold.Project.Disk

/-!
# Work on a disk

A piece of work starts from a disk and ends with a result or an error, a disk, and the records it
reported (`Run`).  What it did to the disk before an error stays done.

Pieces of work follow one another in the monad `Work`; `Work.each` does one piece for every item of
a list, in order, up to the first error, and `Work.attempt` turns an error into a result.
-/

namespace Scaffold

/-- How a piece of work ends. -/
structure Run (ε α : Type) where
  /-- The result or the error. -/
  result : Except ε α
  /-- The disk afterwards. -/
  disk : Disk
  /-- What was reported. -/
  log : Log

/-- A piece of work on a disk. -/
def Work (ε α : Type) : Type := Disk → Run ε α

namespace Work

variable {ε ε' α β : Type}

/-- Work that does nothing. -/
def done (x : α) : Work ε α := fun d => ⟨.ok x, d, []⟩

/-- Does `m`, then what follows from its result. -/
def andThen (m : Work ε α) (f : α → Work ε β) : Work ε β := fun d =>
  match m d with
  | ⟨.error e, d', log⟩ => ⟨.error e, d', log⟩
  | ⟨.ok x, d', log⟩ =>
    let r := f x d'
    ⟨r.result, r.disk, log ++ r.log⟩

instance : Monad (Work ε) where
  pure := done
  bind := andThen

/-- Ends with an error. -/
def fail (e : ε) : Work ε α := fun d => ⟨.error e, d, []⟩

/-- Goes on with a result, or ends with an error. -/
def ofExcept (x : Except ε α) : Work ε α := fun d => ⟨x, d, []⟩

/-- Reports a record. -/
def report (r : LogRecord) : Work ε Unit := fun d => ⟨.ok (), d, [r]⟩

/-- Reports records. -/
def reportAll (log : Log) : Work ε Unit := fun d => ⟨.ok (), d, log⟩

/-- Looks at the disk. -/
def ask (f : Disk → Except ε α) : Work ε α := fun d => ⟨f d, d, []⟩

/-- Changes the disk. -/
def change (f : Disk → Except ε α × Disk) : Work ε α := fun d => ⟨(f d).1, (f d).2, []⟩

/-- Does `m` and goes on with its error as with a result. -/
def attempt (m : Work ε α) : Work ε' (Except ε α) := fun d =>
  let r := m d
  ⟨.ok r.result, r.disk, r.log⟩

/-- Turns errors into others. -/
def mapError (f : ε → ε') (m : Work ε α) : Work ε' α := fun d =>
  let r := m d
  ⟨r.result.mapError f, r.disk, r.log⟩

/-- Does the work for every item, in order, and collects the results. -/
def each (f : α → Work ε β) : List α → Work ε (List β)
  | [] => done []
  | x :: xs => andThen (f x) fun y => andThen (each f xs) fun ys => done (y :: ys)

/-- Does `m` in another current directory. -/
def inDirectory (here : Place) (m : Work ε α) : Work ε α := fun d =>
  let r := m { d with here }
  { r with disk := { r.disk with here := d.here } }

end Work

end Scaffold
