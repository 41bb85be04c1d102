import Scaffold.Proofs.Expr.Reading
import Scaffold.Proofs.Schema.Written

/-!
# Reading field types

Tokens with the lexemes of a written type are read as a chain with the head and the calls of the
type (`WrittenType.readsAs_lexemes`).  A chain goes on as long as a point, type arguments or a
parenthesis follow (`Expr.Continues`), so it ends where a declaration or the end of the source
follows as well as where an expression does (`WrittenType.finds_readChain`).
-/

namespace Scaffold

/-- The links of a chain are the calls. -/
inductive WrittenCall.AllReadAs : List WrittenCall → List Segment → Prop
  | nil : AllReadAs [] []
  | cons {c : WrittenCall} {cs : List WrittenCall} {ns : List Node} {segments : List Segment}
    (h : List.Forall₂ Value.ReadAs c.arguments ns) (hs : AllReadAs cs segments) :
    AllReadAs (c :: cs) (.access c.name :: .call ns :: segments)

/-- The chain is the type. -/
structure WrittenType.ReadAs (t : WrittenType) (c : Chain) : Prop where
  /-- It begins with the same name. -/
  head : c.head = t.head
  /-- It has the same calls. -/
  calls : WrittenCall.AllReadAs t.calls c.segments

namespace Expr

variable {source : Text} {t u : Token} {ts us rest : List Token}

/-- A chain goes on with the lexeme. -/
def Continues (l : Lexeme) : Prop := l.1 = .punct ∧ (l.2 = "." ∨ l.2 = "?." ∨ l.2 = "<" ∨ l.2 = "(")

instance (l : Lexeme) : Decidable (Continues l) :=
  inferInstanceAs (Decidable (l.1 = .punct ∧ (l.2 = "." ∨ l.2 = "?." ∨ l.2 = "<" ∨ l.2 = "(")))

/-- No chain goes on with these tokens. -/
def EndsChain (ts : List Token) : Prop := ∀ t ∈ ts.head?, ¬ Continues t.lexeme

theorem endsChain_of_kind (h : t.kind ≠ .punct) : EndsChain (t :: ts) := by
  rintro _ ⟨⟩ hc
  exact h hc.1

theorem endsChain_of_stops (h : Stops t.lexeme) : EndsChain (t :: ts) := by
  rintro _ ⟨⟩ hc
  rcases h with he | ⟨-, he | he | he⟩
  · exact absurd (he.symm.trans hc.1) nofun
  all_goals
    rcases hc.2 with hm | hm | hm | hm <;> rw [hm] at he <;> exact absurd he (by decide)

theorem finds_readSegments_nil {stop : Nat} (h : EndsChain rest) :
    Finds (readSegments source stop rest) (Holds fun r => WrittenCall.AllReadAs [] r.1) rest := by
  refine ⟨⟨some ([], stop), rest, Nat.le_refl _⟩, ?_, ⟨_, rfl, .nil⟩, rfl⟩
  cases rest with
  | nil => rw [readSegments]
  | cons t rest =>
    have hnot : ∀ mark : Text, Continues (.punct, mark) → t.isPunct mark = false := by
      intro mark hm
      refine Bool.eq_false_iff.2 fun hp => h t rfl ?_
      rwa [isPunct_iff.1 hp]
    rw [readSegments.eq_def]
    simp only
    rw [if_neg (by simp [hnot "." (by decide), hnot "?." (by decide)]), if_neg
      (by simp [hnot "<" (by decide)]), if_neg (by simp [hnot "(" (by decide)])]

/-- A member access, and the links behind it. -/
theorem finds_readSegments_access {stop : Nat} {P Q : List Segment → Prop}
    (ht : t.isPunct "." = true) (hu : u.kind = .ident)
    (h : Finds (readSegments source u.stop us) (Holds fun r => P r.1) rest)
    (hq : ∀ segments, P segments → Q (.access u.value :: segments)) :
    Finds (readSegments source stop (t :: u :: us)) (Holds fun r => Q r.1) rest := by
  rw [readSegments, if_pos (by simp [ht, nextKind, hu])]
  refine h.lift _ ?_
  rintro _ ⟨r, rfl, hr⟩
  exact ⟨_, rfl, hq r.1 hr⟩

/-- A call with its arguments, and the links behind it. -/
theorem finds_readSegments_call {stop : Nat} {P Q : List Segment → Prop} {A : List Node → Prop}
    (ht : t.isPunct "(" = true)
    (hitems : Finds (readItems source ")" false ts) (Holds fun r => A r.1) us)
    (h : ∀ stop, Finds (readSegments source stop us) (Holds fun r => P r.1) rest)
    (hq : ∀ ns segments, A ns → P segments → Q (.call ns :: segments)) :
    Finds (readSegments source stop (t :: ts)) (Holds fun r => Q r.1) rest := by
  obtain ⟨⟨_, us', hle⟩, hp, ⟨⟨ns, stop'⟩, rfl, hns⟩, hus⟩ := hitems
  obtain rfl : us' = us := hus
  have hnot : ∀ mark : Text, mark ≠ "(" → t.isPunct mark = false := by
    intro mark hm
    refine Bool.eq_false_iff.2 fun hp => hm ?_
    rw [isPunct_iff, isPunct_iff.1 hp, Prod.mk.injEq] at ht
    exact ht.2
  rw [readSegments.eq_def]
  simp only
  rw [if_neg (by simp [hnot "." (by decide), hnot "?." (by decide)]),
    if_neg (by simp [hnot "<" (by decide)]), if_pos ht, hp]
  refine (h stop').lift _ ?_
  rintro _ ⟨r, rfl, hr⟩
  exact ⟨_, rfl, hq ns r.1 hns hr⟩

/-- A written call, and the links behind it. -/
theorem finds_readSegments_cons {stop : Nat} {c : WrittenCall} {cs : List WrittenCall}
    (hc : c.IsWritten) (hts : ts.map Token.lexeme = c.lexemes)
    (h : ∀ stop, Finds (readSegments source stop us)
      (Holds fun r => WrittenCall.AllReadAs cs r.1) rest) :
    Finds (readSegments source stop (ts ++ us))
      (Holds fun r => WrittenCall.AllReadAs (c :: cs) r.1) rest := by
  obtain ⟨start₁, stop₁, _, rfl, hname⟩ := exists_of_map_cons hts
  obtain ⟨start₂, stop₂, _, rfl, hparen⟩ := exists_of_map_cons hname
  obtain ⟨start₃, stop₃, vs, u, rfl, hvs, hu⟩ := exists_of_map_bracketed hparen
  have hitems : Finds (readItems source ")" false (vs ++ u :: us))
      (Holds fun r => List.Forall₂ Value.ReadAs c.arguments r.1) us :=
    finds_readItems (by decide) (fun v hv => Value.readsAs_lexemes v (hc.arguments v hv)) hvs hu
  rw [List.cons_append, List.cons_append, List.cons_append, List.append_assoc,
    List.singleton_append]
  refine finds_readSegments_access (P := fun segments => WrittenCall.AllReadAs (c :: cs)
    (.access c.name :: segments)) (Q := WrittenCall.AllReadAs (c :: cs)) rfl rfl ?_ fun _ h => h
  exact finds_readSegments_call (P := WrittenCall.AllReadAs cs) (Q := fun segments =>
    WrittenCall.AllReadAs (c :: cs) (.access c.name :: segments)) rfl hitems h
    fun _ _ hns hs => .cons hns hs

/-- **Calls are read one by one**, up to where no chain goes on. -/
theorem finds_readSegments {stop : Nat} {cs : List WrittenCall} (hcs : ∀ c ∈ cs, c.IsWritten)
    (hts : ts.map Token.lexeme = cs.flatMap WrittenCall.lexemes) (hrest : EndsChain rest) :
    Finds (readSegments source stop (ts ++ rest))
      (Holds fun r => WrittenCall.AllReadAs cs r.1) rest := by
  induction cs generalizing ts stop with
  | nil =>
    obtain rfl := List.map_eq_nil_iff.1 hts
    exact finds_readSegments_nil hrest
  | cons c cs ih =>
    rw [List.forall_mem_cons] at hcs
    rw [List.flatMap_cons] at hts
    obtain ⟨us, vs, rfl, hus, hvs⟩ := List.map_eq_append_iff.1 hts
    rw [List.append_assoc]
    exact finds_readSegments_cons hcs.1 hus fun stop => ih hcs.2 hvs

end Expr

namespace WrittenType

variable {source : Text} {names : List Text} {t : WrittenType} {u : Token} {ts rest : List Token}

open Scaffold.Expr

/-- The calls behind the head of a type make a chain of it. -/
theorem finds_readChain (ht : t.IsWritten names) (hu : u.value = t.head)
    (hts : ts.map Token.lexeme = t.calls.flatMap WrittenCall.lexemes) (hrest : EndsChain rest) :
    Finds (readChain source u (ts ++ rest)) (Holds fun n => Holds t.ReadAs n.chain?) rest := by
  rw [readChain]
  refine (finds_readSegments ht.calls hts hrest).lift _ ?_
  rintro _ ⟨⟨segments, stop⟩, rfl, hr⟩
  exact ⟨_, rfl, _, rfl, hu, hr⟩

/-- **A type is read as a chain that is the type.** -/
theorem readsAs_lexemes (ht : t.IsWritten names) (hhead : literalName? t.head = none) :
    ReadsAs source t.lexemes fun n => Holds t.ReadAs n.chain? := by
  refine .of_readPrimary (begins_of_ne_punct nofun nofun) fun ts u rest hts hu => ?_
  obtain ⟨start, stop, us, rfl, hus⟩ := exists_of_map_cons hts
  rw [List.cons_append, readPrimary.eq_def]
  simp only [hhead]
  have hends : EndsChain (u :: rest) := endsChain_of_stops hu
  exact (finds_readChain ht rfl hus hends).lift _ fun _ h => h

end WrittenType

end Scaffold
