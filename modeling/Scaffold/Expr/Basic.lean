import Scaffold.Value.Basic

/-!
# Expressions

The part of an expression that a schema is read through: literals, and chains of member accesses and
calls such as `z.string().optional()`.  Every other expression is kept as its source text
(`Node.verbatim`); nothing is executed.

* `Node.evaluate` turns an expression into plain data: chains and verbatim expressions become their
  source text, spreads are left out.
* `Node.callsOf` and `Node.memberNames` read a chain.
-/

namespace Scaffold

/-- The offsets of an expression in its source, the end excluded. -/
structure Span where
  /-- The offset of the first code point. -/
  start : Nat
  /-- The offset after the last code point. -/
  stop : Nat
  deriving DecidableEq, Repr

mutual

/-- An expression. -/
inductive Node where
  /-- A literal with its value. -/
  | literal (span : Span) (value : Value)
  /-- An array literal. -/
  | array (span : Span) (elements : List Node)
  /-- An object literal. -/
  | object (span : Span) (members : List Member)
  /-- A name followed by member accesses and calls; `text` is its source. -/
  | chain (span : Span) (head : Text) (segments : List Segment) (text : Text)
  /-- Any other expression; `text` is its source. -/
  | verbatim (span : Span) (text : Text)

/-- A member of an object literal. -/
inductive Member where
  /-- A key with its value. -/
  | property (key : Text) (value : Node)
  /-- A spread, of which only the source is kept. -/
  | spread (text : Text)

/-- A link of a chain. -/
inductive Segment where
  /-- A member access. -/
  | access (name : Text)
  /-- A call with its arguments. -/
  | call (arguments : List Node)

end

instance : Inhabited Node := ⟨.verbatim ⟨0, 0⟩ []⟩

namespace Node

/-- The span of an expression. -/
def span : Node → Span
  | literal s _ | array s _ | object s _ | chain s _ _ _ | verbatim s _ => s

mutual

/-- The plain data of an expression. -/
def evaluate : Node → Value
  | literal _ v => v
  | array _ elements => .list (evaluateAll elements)
  | object _ members => .object (Members.ofList (evaluateMembers members))
  | chain _ _ _ text => .text text
  | verbatim _ text => .text text

/-- The plain data of several expressions. -/
def evaluateAll : List Node → List Value
  | [] => []
  | n :: ns => evaluate n :: evaluateAll ns

/-- The keys and the plain data of the properties among members, in source order. -/
def evaluateMembers : List Member → List (Text × Value)
  | [] => []
  | .property key value :: ms => (key, evaluate value) :: evaluateMembers ms
  | .spread _ :: ms => evaluateMembers ms

end

/-- The plain data of an object literal with these members. -/
def evaluateObject (members : List Member) : Members := Members.ofList (evaluateMembers members)

/-- The names accessed along a chain. -/
def memberNames (segments : List Segment) : List Text :=
  segments.filterMap fun
    | .access name => some name
    | .call _ => none

/-- The calls along a chain: the name called, which is the last one accessed before the call or
`last` if there is none, and the arguments. -/
def callsOf (last : Text) : List Segment → List (Text × List Node)
  | [] => []
  | .access name :: rest => callsOf name rest
  | .call arguments :: rest => (last, arguments) :: callsOf last rest

end Node

namespace Member

/-- The properties among members, in source order. -/
def properties (ms : List Member) : List (Text × Node) :=
  ms.filterMap fun
    | .property key value => some (key, value)
    | .spread _ => none

/-- The sources of the spreads among members. -/
def spreads (ms : List Member) : List Text :=
  ms.filterMap fun
    | .property _ _ => none
    | .spread text => some text

end Member

end Scaffold
