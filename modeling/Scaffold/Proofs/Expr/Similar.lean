import Mathlib.Data.List.Forall2
import Scaffold.Expr.Basic

/-!
# Similar expressions

Expressions are similar (`Node.Similar`) if they differ in their spans, and in the source texts that
are kept for some of the spans, of which `hides` tells.

Plain data is the same for similar expressions whose own texts are not among these
(`Node.Similar.evaluate_eq`).
-/

namespace Scaffold

mutual

/-- The expressions are the same, but for their spans and for the texts kept for a span that
`hides` tells of. -/
def Node.Similar (hides : Span → Prop) : Node → Node → Prop
  | .literal _ v, .literal _ v' => v = v'
  | .array _ ns, .array _ ns' => Node.AllSimilar hides ns ns'
  | .object _ ms, .object _ ms' => Member.AllSimilar hides ms ms'
  | .chain s head segments text, .chain _ head' segments' text' =>
    head = head' ∧ Segment.AllSimilar hides segments segments' ∧ (text = text' ∨ hides s)
  | .verbatim s text, .verbatim _ text' => text = text' ∨ hides s
  | _, _ => False
termination_by structural n => n

/-- The expressions are similar one by one. -/
def Node.AllSimilar (hides : Span → Prop) : List Node → List Node → Prop
  | [], [] => True
  | n :: ns, n' :: ns' => n.Similar hides n' ∧ Node.AllSimilar hides ns ns'
  | _, _ => False
termination_by structural n => n

/-- The members have the same key and similar values, or are spreads. -/
def Member.Similar (hides : Span → Prop) : Member → Member → Prop
  | .property key n, .property key' n' => key = key' ∧ n.Similar hides n'
  | .spread _, .spread _ => True
  | _, _ => False
termination_by structural n => n

/-- The members are similar one by one. -/
def Member.AllSimilar (hides : Span → Prop) : List Member → List Member → Prop
  | [], [] => True
  | m :: ms, m' :: ms' => m.Similar hides m' ∧ Member.AllSimilar hides ms ms'
  | _, _ => False
termination_by structural n => n

/-- The links access the same name, or are calls with similar arguments. -/
def Segment.Similar (hides : Span → Prop) : Segment → Segment → Prop
  | .access name, .access name' => name = name'
  | .call ns, .call ns' => Node.AllSimilar hides ns ns'
  | _, _ => False
termination_by structural n => n

/-- The links are similar one by one. -/
def Segment.AllSimilar (hides : Span → Prop) : List Segment → List Segment → Prop
  | [], [] => True
  | s :: ss, s' :: ss' => s.Similar hides s' ∧ Segment.AllSimilar hides ss ss'
  | _, _ => False
termination_by structural n => n

end

variable {hides : Span → Prop}

theorem Node.allSimilar_iff {ns ns' : List Node} :
    Node.AllSimilar hides ns ns' ↔ List.Forall₂ (Node.Similar hides) ns ns' := by
  induction ns generalizing ns' with
  | nil => cases ns' <;> simp [Node.AllSimilar]
  | cons n ns ih => cases ns' <;> simp [Node.AllSimilar, ih]

theorem Member.allSimilar_iff {ms ms' : List Member} :
    Member.AllSimilar hides ms ms' ↔ List.Forall₂ (Member.Similar hides) ms ms' := by
  induction ms generalizing ms' with
  | nil => cases ms' <;> simp [Member.AllSimilar]
  | cons m ms ih => cases ms' <;> simp [Member.AllSimilar, ih]

theorem Segment.allSimilar_iff {ss ss' : List Segment} :
    Segment.AllSimilar hides ss ss' ↔ List.Forall₂ (Segment.Similar hides) ss ss' := by
  induction ss generalizing ss' with
  | nil => cases ss' <;> simp [Segment.AllSimilar]
  | cons s ss ih => cases ss' <;> simp [Segment.AllSimilar, ih]

/-! ### Plain data -/

mutual

/-- No text that the plain data of the expression is made of is kept for a span that `hides` tells
of. -/
def Node.Shown (hides : Span → Prop) : Node → Prop
  | .literal _ _ => True
  | .array _ ns => Node.AllShown hides ns
  | .object _ ms => Member.AllShown hides ms
  | .chain s _ _ _ | .verbatim s _ => ¬ hides s

/-- All the expressions are shown. -/
def Node.AllShown (hides : Span → Prop) : List Node → Prop
  | [] => True
  | n :: ns => n.Shown hides ∧ Node.AllShown hides ns

/-- The values of all the members are shown. -/
def Member.AllShown (hides : Span → Prop) : List Member → Prop
  | [] => True
  | .property _ n :: ms => n.Shown hides ∧ Member.AllShown hides ms
  | .spread _ :: ms => Member.AllShown hides ms

end

mutual

/-- Similar expressions that are shown have the same plain data. -/
theorem Node.Similar.evaluate_eq : {n n' : Node} → n.Similar hides n' → n.Shown hides →
    n.evaluate = n'.evaluate
  | .literal _ _, .literal _ _, h, _ => h
  | .array _ ns, .array _ ns', h, hshown =>
    congrArg Value.list (Node.evaluateAll_eq ns ns' h hshown)
  | .object _ ms, .object _ ms', h, hshown => by
    rw [Node.evaluate, Node.evaluate, Node.evaluateMembers_eq_of_similar ms ms' h hshown]
  | .chain .., .chain .., ⟨_, _, h⟩, hshown => congrArg Value.text (h.resolve_right hshown)
  | .verbatim .., .verbatim .., h, hshown => congrArg Value.text (h.resolve_right hshown)

theorem Node.evaluateAll_eq : (ns ns' : List Node) → Node.AllSimilar hides ns ns' →
    Node.AllShown hides ns → Node.evaluateAll ns = Node.evaluateAll ns'
  | [], [], _, _ => rfl
  | _ :: ns, _ :: ns', ⟨h, hs⟩, ⟨hshown, hsshown⟩ =>
    congrArg₂ List.cons (h.evaluate_eq hshown) (Node.evaluateAll_eq ns ns' hs hsshown)

theorem Node.evaluateMembers_eq_of_similar : (ms ms' : List Member) →
    Member.AllSimilar hides ms ms' → Member.AllShown hides ms →
      Node.evaluateMembers ms = Node.evaluateMembers ms'
  | [], [], _, _ => rfl
  | .property _ _ :: ms, .property _ _ :: ms', ⟨⟨hkey, h⟩, hs⟩, ⟨hshown, hsshown⟩ => by
    rw [Node.evaluateMembers, Node.evaluateMembers, hkey, h.evaluate_eq hshown,
      Node.evaluateMembers_eq_of_similar ms ms' hs hsshown]
  | .spread _ :: ms, .spread _ :: ms', ⟨_, hs⟩, hsshown => by
    rw [Node.evaluateMembers, Node.evaluateMembers,
      Node.evaluateMembers_eq_of_similar ms ms' hs hsshown]

end

mutual

/-- Where nothing is hidden, every expression is shown. -/
theorem Node.shown_of_never (hnever : ∀ s, ¬ hides s) : (n : Node) → n.Shown hides
  | .literal _ _ => trivial
  | .array _ ns => Node.allShown_of_never hnever ns
  | .object _ ms => Member.allShown_of_never hnever ms
  | .chain s _ _ _ | .verbatim s _ => hnever s

theorem Node.allShown_of_never (hnever : ∀ s, ¬ hides s) : (ns : List Node) →
    Node.AllShown hides ns
  | [] => trivial
  | n :: ns => ⟨Node.shown_of_never hnever n, Node.allShown_of_never hnever ns⟩

theorem Member.allShown_of_never (hnever : ∀ s, ¬ hides s) : (ms : List Member) →
    Member.AllShown hides ms
  | [] => trivial
  | .property _ n :: ms => ⟨Node.shown_of_never hnever n, Member.allShown_of_never hnever ms⟩
  | .spread _ :: ms => Member.allShown_of_never hnever ms

end

end Scaffold
