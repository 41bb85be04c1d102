import Scaffold.Text.Utf8
import Scaffold.Value.Basic

/-!
# Values for exchange

An object that is handed to another program has keys that every program can read.

* `Members.exchanged` mends the keys of the object itself: three replacement characters stand for a
  surrogate (`Text.mended`).  Keys that become the same are one.
* The keys of objects further inside are not mended, and the first one with a surrogate is a fault
  (`Value.keyFault?`).

Texts that are no keys go as they are.
-/

namespace Scaffold

/-- The text with three replacement characters for every surrogate, one for each byte that a
surrogate would have. -/
def Text.mended (t : Text) : Text :=
  t.flatMap fun c => if c.IsScalar then [c] else List.replicate 3 (.scalar '\uFFFD')

mutual

/-- What is wrong with the first key inside a value that has no bytes. -/
def Value.keyFault? : Value → Option Utf8.EncodeError
  | .list vs => keyFaultOfItems? vs
  | .object m => keyFaultOfMembers? m
  | _ => none

/-- What is wrong with the first such key inside the items of a list. -/
def Value.keyFaultOfItems? : List Value → Option Utf8.EncodeError
  | [] => none
  | v :: vs =>
    match keyFault? v with
    | some e => some e
    | none => keyFaultOfItems? vs

/-- What is wrong with the first such key among the members of an object and inside them. -/
def Value.keyFaultOfMembers? : List (Text × Value) → Option Utf8.EncodeError
  | [] => none
  | (k, v) :: m =>
    match Utf8.encode k with
    | .error e => some e
    | .ok _ =>
      match keyFault? v with
      | some e => some e
      | none => keyFaultOfMembers? m

end

/-- The members of an object that is handed over. -/
def Members.exchanged (m : Members) : Except Utf8.EncodeError Members :=
  match Value.keyFaultOfItems? (m.map (·.2)) with
  | some e => .error e
  | none => .ok (Members.ofList (m.map fun (k, v) => (k.mended, v)))

example : Text.mended [.scalar 'k', .surrogate 0] = "k\uFFFD\uFFFD\uFFFD" := by decide +kernel

end Scaffold
