import Scaffold.Expr.Reader

/-!
# Declarations in a token list

A schema file declares its resource by one call of a factory function, usually the value of a
`const`.  `callSites` finds the calls of the factory, `CallSite.assignedName?` the variable that a
call is the value of, and `collectConstants` the chains that names stand for.
-/

namespace Scaffold

/-- A call of the factory. -/
structure CallSite where
  /-- The tokens before the name of the factory, the nearest first. -/
  before : List Token
  /-- The tokens behind the name. -/
  after : List Token

/-- The keywords of a declaration. -/
def declarationKeywords : List Text := ["const", "let", "var"]

/-- The token begins a declaration. -/
def Token.isDeclarationKeyword (t : Token) : Bool :=
  t.kind = .ident && declarationKeywords.contains t.value

/-- The token before a name shows that the name is declared as a function or is a member, and not
called by itself. -/
def Token.qualifies (t : Token) : Bool :=
  t.isIdent "function" || t.isPunct "." || t.isPunct "?."

/-- The calls of `factory` in the tokens `ts`, before which stand the tokens `before`. -/
def callSitesFrom (factory : Text) (before : List Token) : List Token → List CallSite
  | [] => []
  | t :: ts =>
    let sites := callSitesFrom factory (t :: before) ts
    if t.isIdent factory && !before.head?.any Token.qualifies &&
        (Expr.nextIs ts "(" || Expr.nextIs ts "<") then
      ⟨before, ts⟩ :: sites
    else sites

/-- The calls of `factory`, in source order. -/
def callSites (factory : Text) (ts : List Token) : List CallSite := callSitesFrom factory [] ts

namespace CallSite

/-- The tokens from the parenthesis of the call on.  Type arguments before it are passed over. -/
def fromParenthesis (s : CallSite) : List Token :=
  if Expr.nextIs s.after "<" then (Expr.skipTypeArguments 0 s.after).getD s.after else s.after

/-- The variable that the call is assigned to where it is declared. -/
def assignedName? (s : CallSite) : Option Text :=
  match s.before with
  | eq :: ident :: keyword :: _ =>
    if eq.isPunct "=" && ident.kind = .ident && keyword.isDeclarationKeyword then
      some ident.value
    else none
  | _ => none

end CallSite

/-- A chain: a name, and the links behind it. -/
structure Chain where
  /-- The name that the chain begins with. -/
  head : Text
  /-- The member accesses and calls behind it. -/
  segments : List Segment

/-- The chain that an expression is. -/
def Node.chain? : Node → Option Chain
  | .chain _ head segments _ => some ⟨head, segments⟩
  | _ => none

namespace Chain

/-- The calls along the chain, with the name called and the arguments. -/
def calls (c : Chain) : List (Text × List Node) := Node.callsOf c.head c.segments

/-- The names accessed along the chain. -/
def names (c : Chain) : List Text := Node.memberNames c.segments

end Chain

/-- Chains by the name that stands for them. -/
abbrev Constants := List (Text × Chain)

namespace Constants

/-- The chain of a name; the last declaration of a name counts. -/
def get? (cs : Constants) (name : Text) : Option Chain :=
  (cs.reverse.find? (·.1 = name)).map (·.2)

/-- The chains of the other names. -/
def without (cs : Constants) (name : Text) : Constants := cs.filter (·.1 ≠ name)

theorem length_without_lt {cs : Constants} {name : Text} {c : Chain}
    (h : cs.get? name = some c) : (cs.without name).length < cs.length := by
  obtain ⟨e, he, -⟩ := Option.map_eq_some_iff.1 h
  have hm : e ∈ cs := List.mem_reverse.1 (List.mem_of_find?_eq_some he)
  have hn : e.1 = name := by simpa using List.find?_some he
  refine List.length_filter_lt_length_iff_exists.2 ⟨e, hm, ?_⟩
  simp [hn]

end Constants

/-- The declarations `const name = chain` in the tokens. -/
def collectConstants (source : Text) : List Token → Except NumeralError Constants
  | [] => .ok []
  | t :: ts => do
    let found ←
      match ts with
      | name :: eq :: value =>
        if t.isDeclarationKeyword && name.kind = .ident && eq.isPunct "=" then
          (Expr.readLeadingChain source value).map fun (node, _) =>
            ((node.bind Node.chain?).map fun c => (name.value, c)).toList
        else .ok []
      | _ => .ok []
    return found ++ (← collectConstants source ts)

end Scaffold
