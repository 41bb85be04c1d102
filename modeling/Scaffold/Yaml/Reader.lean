import Scaffold.Yaml.Node
import Scaffold.Yaml.Plain

/-!
# Reading configuration documents

`Yaml.read` reads a document: one piece of data in blocks set apart by indentation or in brackets;
an empty document is nothing.  The nodes of the document become data from the outside to the inside,
so of several scalars without a value the one nearest to the root is the fault, and of those the
first one (`Built`).

The key `<<` gives its mapping the entries of another mapping, or of a list of them, as far as it
has no entries of its own for their keys; of the mappings in a list the first one wins.
-/

namespace Scaffold

namespace Yaml

/-! ### Faults by depth -/

/-- A fault and how far below the root of what is built it is. -/
structure DeepError where
  /-- The levels above it. -/
  depth : Nat
  /-- What is wrong. -/
  error : YamlError
  deriving DecidableEq, Repr

/-- What is built of a node, or the fault that is found first. -/
abbrev Built (α : Type) := Except DeepError α

namespace Built

variable {α β : Type}

/-- A fault at the root of what is built. -/
def ofExcept (x : Except YamlError α) : Built α := x.mapError (⟨0, ·⟩)

/-- The same one level down. -/
def under (x : Built α) : Built α := x.mapError fun e => { e with depth := e.depth + 1 }

/-- Both of two parts; of two faults the one that is less deep, or else the first. -/
def both (x : Built α) (y : Built β) : Built (α × β) :=
  match x, y with
  | .ok a, .ok b => .ok (a, b)
  | .error e, .error f => .error (if f.depth < e.depth then f else e)
  | .error e, .ok _ => .error e
  | .ok _, .error f => .error f

/-- All parts. -/
def all : List (Built α) → Built (List α)
  | [] => .ok []
  | x :: xs => (both x (all xs)).map fun (a, as) => a :: as

end Built

/-! ### Merged mappings -/

/-- The mark of merged mappings. -/
def isMerge : YamlNode → Bool
  | .scalar true t => t = Text.ofString "<<"
  | _ => false

/-- A node as a key.  The mark of a default value is a text there. -/
def asKey : YamlNode → YamlNode
  | .scalar true t => .scalar (t ≠ Text.ofString "=") t
  | n => n

mutual

/-- The entries of a mapping: those that it merges, and its own. -/
def entriesOf : List (YamlNode × YamlNode) →
    Except YamlError (List (YamlNode × YamlNode) × List (YamlNode × YamlNode))
  | [] => .ok ([], [])
  | (k, v) :: rest => do
    let (merged, own) ← entriesOf rest
    if isMerge k then return ((← mergedOf v) ++ merged, own)
    else return (merged, (asKey k, v) :: own)

/-- The entries that a mapping gets from the value of its mark of merged mappings. -/
def mergedOf : YamlNode → Except YamlError (List (YamlNode × YamlNode))
  | .mapping entries => do
    let (merged, own) ← entriesOf entries
    return merged ++ own
  | .list ns => mergedOfItems ns
  | .scalar .. => .error .malformed

/-- The entries of mappings, those of the last one first. -/
def mergedOfItems : List YamlNode → Except YamlError (List (YamlNode × YamlNode))
  | [] => .ok []
  | .mapping entries :: ns => do
    let later ← mergedOfItems ns
    let (merged, own) ← entriesOf entries
    return later ++ merged ++ own
  | _ => .error .malformed

end

/-! ### Data -/

/-- The scalar that is written. -/
def scalarOf (isPlain : Bool) (t : Text) : Except YamlError Scalar :=
  if isPlain then Scalar.ofPlain t else .ok (.text t)

/-- The key that a node is; lists and mappings are no keys. -/
def keyOf : YamlNode → Except YamlError Scalar
  | .scalar isPlain t => scalarOf isPlain t
  | _ => .error .malformed

/-- The data of a node that is no more than `fuel` levels deep. -/
def build : (fuel : Nat) → YamlNode → Built Yaml
  | 0, _ => .ofExcept (.error .malformed)
  | _ + 1, .scalar isPlain t => .ofExcept ((scalarOf isPlain t).map scalar)
  | fuel + 1, .list ns => Built.under ((Built.all (ns.map (build fuel))).map list)
  | fuel + 1, .mapping entries =>
    match entriesOf entries with
    | .error e => Built.under (.ofExcept (.error e))
    | .ok (merged, own) =>
      let parts := (merged ++ own).map fun (k, v) =>
        Built.both (.ofExcept (keyOf k)) (build fuel v)
      Built.under ((Built.all parts).map ofEntries)

/-- Code points that may stand in a document. -/
def isAllowed (c : CodePoint) : Bool :=
  let n := c.toNat
  n = 0x9 || n = 0xA || n = 0xD || (0x20 ≤ n && n ≤ 0x7E) || n = 0x85
    || (0xA0 ≤ n && n ≤ 0xD7FF) || (0xE000 ≤ n && n ≤ 0xFFFD) || 0x10000 ≤ n

/-- The data of a document, which has more code points than levels. -/
def read (document : Text) : Except YamlError Yaml := do
  if !document.all isAllowed then throw .malformed
  match ← YamlNode.ofDocument document with
  | none => return scalar .null
  | some root => (build (document.length + 1) root).mapError (·.error)

end Yaml

end Scaffold
