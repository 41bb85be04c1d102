import Scaffold.Yaml.Token

/-!
# Nodes of a document

A document is one node: a scalar as it is written, a list, or a mapping whose keys may be any nodes.
`YamlNode.ofDocument` makes the node of the tokens of a document.

An item, a key or a value that is left out is an empty plain scalar.  A list that is the value of a
key may stand in the column of the key, and then no token opens or closes it.
-/

namespace Scaffold

/-- A node of a document. -/
inductive YamlNode where
  /-- A scalar, plain or in quotes. -/
  | scalar (isPlain : Bool) (t : Text)
  /-- A list. -/
  | list (items : List YamlNode)
  /-- A mapping. -/
  | mapping (entries : List (YamlNode × YamlNode))
  deriving Inhabited

namespace YamlNode

/-- What is left out. -/
def empty : YamlNode := scalar true []

/-- The fault that the tokens go on otherwise than they should. -/
def unexpected {α : Type} : List YamlToken → Except YamlError α
  | .broken e :: _ => .error e
  | _ => .error .malformed

/-- Passes a token that has to come next. -/
def expect (t : YamlToken) (ts : List YamlToken) : Except YamlError (List YamlToken) :=
  match ts with
  | u :: rest => if u = t then .ok rest else unexpected ts
  | [] => unexpected ts

/-- One of the tokens `stops` comes next. -/
def stopsAt (stops : List YamlToken) (ts : List YamlToken) : Bool :=
  ts.head?.any fun t => stops.contains t

/-- The tokens that come behind a key or a value in a block that is left out. -/
def blockStops : List YamlToken := [.key, .value, .close]

mutual

/-- The node that begins here; `inBlock` tells whether it may be a block, and `asValue` whether it
may be a list that no token opens. -/
def node (inBlock asValue : Bool) : (fuel : Nat) → List YamlToken →
    Except YamlError (YamlNode × List YamlToken)
  | 0, ts => unexpected ts
  | fuel + 1, ts =>
    match ts with
    | .scalar isPlain t :: rest => .ok (scalar isPlain t, rest)
    | .openBracket :: rest => do
      let (items, rest) ← bracketItems fuel rest
      return (list items, rest)
    | .openBrace :: rest => do
      let (entries, rest) ← braceEntries fuel rest
      return (mapping entries, rest)
    | .openList :: rest =>
      if inBlock then do
        let (items, rest) ← blockItems [.item, .close] fuel rest
        return (list items, ← expect .close rest)
      else unexpected ts
    | .openMapping :: rest =>
      if inBlock then do
        let (entries, rest) ← blockEntries fuel rest
        return (mapping entries, ← expect .close rest)
      else unexpected ts
    | .item :: _ =>
      if asValue then do
        let (items, rest) ← blockItems (.item :: blockStops) fuel ts
        return (list items, rest)
      else unexpected ts
    | ts => unexpected ts
  termination_by structural fuel => fuel

/-- A node in brackets, or an empty one in front of one of the tokens `stops`. -/
def nodeBefore (stops : List YamlToken) : (fuel : Nat) → List YamlToken →
    Except YamlError (YamlNode × List YamlToken)
  | 0, ts => unexpected ts
  | fuel + 1, ts => if stopsAt stops ts then .ok (empty, ts) else node false false fuel ts
  termination_by structural fuel => fuel

/-- The value in brackets, if its mark comes next, and an empty one otherwise. -/
def valueBefore (stops : List YamlToken) : (fuel : Nat) → List YamlToken →
    Except YamlError (YamlNode × List YamlToken)
  | 0, ts => unexpected ts
  | fuel + 1, ts =>
    match ts with
    | .value :: rest => nodeBefore stops fuel rest
    | .broken e :: _ => .error e
    | ts => .ok (empty, ts)
  termination_by structural fuel => fuel

/-- A key or a value in a block, which may be empty. -/
def blockPart : (fuel : Nat) → List YamlToken →
    Except YamlError (YamlNode × List YamlToken)
  | 0, ts => unexpected ts
  | fuel + 1, ts => if stopsAt blockStops ts then .ok (empty, ts) else node true true fuel ts
  termination_by structural fuel => fuel

/-- The items of a block list; an item in front of one of the tokens `stops` is empty. -/
def blockItems (stops : List YamlToken) : (fuel : Nat) → List YamlToken →
    Except YamlError (List YamlNode × List YamlToken)
  | 0, ts => unexpected ts
  | fuel + 1, ts =>
    match ts with
    | .item :: rest => do
      let (first, rest) ←
        if stopsAt stops rest then pure (empty, rest) else node true false fuel rest
      let (items, rest) ← blockItems stops fuel rest
      return (first :: items, rest)
    | ts => .ok ([], ts)
  termination_by structural fuel => fuel

/-- The entries of a block mapping. -/
def blockEntries : (fuel : Nat) → List YamlToken →
    Except YamlError (List (YamlNode × YamlNode) × List YamlToken)
  | 0, ts => unexpected ts
  | fuel + 1, ts =>
    match ts with
    | .key :: rest => do
      let (k, rest) ← blockPart fuel rest
      let (v, rest) ←
        match rest with
        | .value :: rest => blockPart fuel rest
        | .broken e :: _ => throw e
        | rest => pure (empty, rest)
      let (entries, rest) ← blockEntries fuel rest
      return ((k, v) :: entries, rest)
    | ts => .ok ([], ts)
  termination_by structural fuel => fuel

/-- The items of a list in brackets and the bracket behind them.  A key makes its item a mapping. -/
def bracketItems : (fuel : Nat) → List YamlToken →
    Except YamlError (List YamlNode × List YamlToken)
  | 0, ts => unexpected ts
  | fuel + 1, ts => do
    match ts with
    | .closeBracket :: rest => return ([], rest)
    | _ =>
      let (first, rest) ←
        match ts with
        | .key :: rest => do
          let (k, rest) ← nodeBefore [.value, .comma, .closeBracket] fuel rest
          let (v, rest) ← valueBefore [.comma, .closeBracket] fuel rest
          pure (mapping [(k, v)], rest)
        | ts => node false false fuel ts
      match rest with
      | .comma :: rest =>
        let (items, rest) ← bracketItems fuel rest
        return (first :: items, rest)
      | rest => return ([first], ← expect .closeBracket rest)
  termination_by structural fuel => fuel

/-- The entries of a mapping in braces and the brace behind them.  A node without the mark of a key
has no value. -/
def braceEntries : (fuel : Nat) → List YamlToken →
    Except YamlError (List (YamlNode × YamlNode) × List YamlToken)
  | 0, ts => unexpected ts
  | fuel + 1, ts => do
    match ts with
    | .closeBrace :: rest => return ([], rest)
    | _ =>
      let (first, rest) ←
        match ts with
        | .key :: rest => do
          let (k, rest) ← nodeBefore [.value, .comma, .closeBrace] fuel rest
          let (v, rest) ← valueBefore [.comma, .closeBrace] fuel rest
          pure ((k, v), rest)
        | ts => do
          let (k, rest) ← node false false fuel ts
          pure ((k, empty), rest)
      match rest with
      | .comma :: rest =>
        let (entries, rest) ← braceEntries fuel rest
        return (first :: entries, rest)
      | rest => return ([first], ← expect .closeBrace rest)
  termination_by structural fuel => fuel

end

/-- Nothing but marks of the end of the document follows. -/
def checkEnd (ts : List YamlToken) : Except YamlError Unit :=
  match ts.dropWhile (· = .documentEnd) with
  | [.done] => .ok ()
  | ts => unexpected ts

/-- The node of the tokens of a document; none if nothing is written.  Every call reads a token, or
follows one that did by two calls at most. -/
def ofTokens (ts : List YamlToken) : Except YamlError (Option YamlNode) := do
  match ts with
  | .done :: _ => return none
  | _ =>
    let fuel := 3 * ts.length + 3
    let (root, rest) ←
      match ts with
      | .documentStart :: rest =>
        if stopsAt [.documentStart, .documentEnd, .done] rest then pure (empty, rest)
        else node true false fuel rest
      | ts => node true false fuel ts
    checkEnd rest
    return some root

/-- The node of a document; none if nothing is written. -/
def ofDocument (t : Text) : Except YamlError (Option YamlNode) := ofTokens (YamlToken.ofDocument t)

end YamlNode

end Scaffold
