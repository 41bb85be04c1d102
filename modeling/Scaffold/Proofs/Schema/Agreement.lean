import Scaffold.Proofs.Expr.Similar
import Scaffold.Proofs.Schema.Extraction

/-!
# Declarations with the same fields

What a field is depends on its expression, and on the constants that this leads to
(`Declaration.LeadsTo`).  Two declarations have the same fields if the expressions are similar, and
similar chains stand for the constants that the first one leads to (`Declaration.fields_eq`).
Declarations of other names do not matter.
-/

namespace Scaffold

variable {hides : Span → Prop} {P : Text → Prop}

/-! ### Similar chains -/

/-- The chains begin with the same name and have similar links. -/
def Chain.Similar (hides : Span → Prop) (c c' : Chain) : Prop :=
  c.head = c'.head ∧ Segment.AllSimilar hides c.segments c'.segments

/-- The calls have the same name and similar arguments. -/
def CallSimilar (hides : Span → Prop) (call call' : Text × List Node) : Prop :=
  call.1 = call'.1 ∧ List.Forall₂ (Node.Similar hides) call.2 call'.2

theorem Node.Similar.chain? {n n' : Node} (h : n.Similar hides n') :
    Option.Rel (Chain.Similar hides) n.chain? n'.chain? := by
  cases n <;> cases n' <;> first
    | exact h.elim
    | exact .none
    | exact .some ⟨h.1, h.2.1⟩

theorem Segment.AllSimilar.memberNames_eq {ss ss' : List Segment} (h : AllSimilar hides ss ss') :
    Node.memberNames ss = Node.memberNames ss' := by
  induction Segment.allSimilar_iff.1 h with
  | nil => rfl
  | @cons s s' ss ss' hs hss ih =>
    have ih := ih (Segment.allSimilar_iff.2 hss)
    cases s <;> cases s' <;> simp_all [Node.memberNames, Segment.Similar]

theorem Segment.AllSimilar.callsOf {ss ss' : List Segment} (h : AllSimilar hides ss ss')
    (last : Text) :
    List.Forall₂ (CallSimilar hides) (Node.callsOf last ss) (Node.callsOf last ss') := by
  have hall := Segment.allSimilar_iff.1 h
  clear h
  induction hall generalizing last with
  | nil => exact .nil
  | @cons s s' ss ss' hs hss ih =>
    cases s with
    | access name =>
      cases s' with
      | access name' =>
        obtain rfl : name = name' := hs
        exact ih name
      | call => exact hs.elim
    | call ns =>
      cases s' with
      | access => exact hs.elim
      | call ns' => exact .cons ⟨rfl, Node.allSimilar_iff.1 hs⟩ (ih last)

namespace Chain.Similar

variable {c c' : Chain}

theorem names_eq (h : c.Similar hides c') : c.names = c'.names := h.2.memberNames_eq

theorem calls (h : c.Similar hides c') : List.Forall₂ (CallSimilar hides) c.calls c'.calls := by
  rw [Chain.calls, Chain.calls, ← h.1]
  exact h.2.callsOf _

end Chain.Similar

/-! ### Constants -/

namespace Constants

/-- Similar chains stand for the names of which `P` tells. -/
def Agree (hides : Span → Prop) (P : Text → Prop) (cs cs' : Constants) : Prop :=
  ∀ name, P name → Option.Rel (Chain.Similar hides) (cs.get? name) (cs'.get? name)

variable {as as' bs bs' cs cs' : Constants} {name : Text}

theorem get?_append (name : Text) : (as ++ bs).get? name = (bs.get? name).or (as.get? name) := by
  rw [get?, get?, get?, List.reverse_append, List.find?_append, Option.map_or]

theorem get?_eq_none (h : ∀ e ∈ cs, e.1 ≠ name) : cs.get? name = none := by
  rw [get?, Option.map_eq_none_iff, List.find?_eq_none]
  exact fun e he => by simpa using h e (List.mem_reverse.1 he)

theorem get?_without_self (cs : Constants) (name : Text) : (cs.without name).get? name = none :=
  get?_eq_none fun _ he => by simpa using (List.mem_filter.1 he).2

namespace Agree

/-- Names of which `P` does not tell do not matter. -/
theorem of_not (h : ∀ e ∈ as, ¬ P e.1) (h' : ∀ e ∈ as', ¬ P e.1) : Agree hides P as as' := by
  intro name hname
  rw [get?_eq_none fun e he => fun heq => h e he (heq ▸ hname),
    get?_eq_none fun e he => fun heq => h' e he (heq ▸ hname)]
  exact .none

theorem append (h : Agree hides P as as') (h' : Agree hides P bs bs') :
    Agree hides P (as ++ bs) (as' ++ bs') := by
  intro name hname
  rw [get?_append, get?_append]
  have hbs := h' name hname
  generalize bs.get? name = o at hbs ⊢
  generalize bs'.get? name = o' at hbs ⊢
  cases hbs with
  | none => exact h name hname
  | some hc => exact .some hc

/-- Constants that correspond one by one. -/
theorem of_forall₂ (h : List.Forall₂ (fun e e' => e.1 = e'.1 ∧ e.2.Similar hides e'.2) cs cs') :
    Agree hides P cs cs' := by
  induction h with
  | nil => exact fun _ _ => .none
  | @cons e e' cs cs' he _ ih =>
    have hfirst : Agree hides P [e] [e'] := by
      intro name _
      rw [get?, get?, List.reverse_singleton, List.reverse_singleton, List.find?_singleton,
        List.find?_singleton, ← he.1]
      by_cases hname : e.1 = name
      · simpa [hname] using Option.Rel.some he.2
      · simp [hname]
    exact hfirst.append ih

theorem without (h : Agree hides P cs cs') (name : Text) :
    Agree hides P (cs.without name) (cs'.without name) := by
  intro key hkey
  by_cases heq : key = name
  · rw [heq, get?_without_self, get?_without_self]
    exact .none
  · rw [get?_without heq, get?_without heq]
    exact h key hkey

end Agree

end Constants

theorem resolveChain_of_namespace {cs : Constants} {c : Chain} (h : c.head = schemaNamespace) :
    resolveChain cs c = [c] := by
  rw [resolveChain, if_pos h]

theorem resolveChain_of_get? {cs : Constants} {c next : Chain} (hz : c.head ≠ schemaNamespace)
    (h : cs.get? c.head = some next) :
    resolveChain cs c = c :: resolveChain (cs.without c.head) next := by
  rw [resolveChain.eq_def cs, if_neg hz]
  split
  · rename_i hnone
    cases hnone.symm.trans h
  · rename_i next' hnext
    obtain rfl : next' = next := Option.some.inj (hnext.symm.trans h)
    rfl

theorem resolveChain_of_get?_eq_none {cs : Constants} {c : Chain} (hz : c.head ≠ schemaNamespace)
    (h : cs.get? c.head = none) : resolveChain cs c = [c] := by
  rw [resolveChain.eq_def cs, if_neg hz]
  split
  · rfl
  · rename_i next hnext
    cases hnext.symm.trans h

/-- **Similar chains are followed to similar chains**, if similar chains stand for the constants on
the way. -/
theorem Chain.Similar.resolveChain {cs cs' : Constants} {c c' : Chain} (h : cs.Agree hides P cs')
    (hc : c.Similar hides c')
    (hway : ∀ next ∈ Scaffold.resolveChain cs c, next.head ≠ schemaNamespace → P next.head) :
    List.Forall₂ (Chain.Similar hides) (Scaffold.resolveChain cs c)
      (Scaffold.resolveChain cs' c') := by
  fun_induction Scaffold.resolveChain cs c generalizing cs' c' with
  | case1 cs c hz =>
    rw [resolveChain_of_namespace (hc.1.symm.trans hz)]
    exact .cons hc .nil
  | case2 cs c hz hnone =>
    have hhead := h c.head (hway c List.mem_cons_self hz)
    rw [hnone, hc.1] at hhead
    rw [hc.1] at hz
    generalize hget : cs'.get? c'.head = o at hhead
    cases hhead
    rw [resolveChain_of_get?_eq_none hz hget]
    exact .cons hc .nil
  | case3 cs c hz next hnext _ ih =>
    rw [List.forall_mem_cons] at hway
    have hhead := h c.head (hway.1 hz)
    rw [hnext, hc.1] at hhead
    have hz' : c'.head ≠ schemaNamespace := hc.1 ▸ hz
    generalize hget : cs'.get? c'.head = o at hhead
    obtain ⟨hsimilar⟩ := hhead
    rw [resolveChain_of_get? hz' hget, ← hc.1]
    exact .cons hc (ih (h.without _) hsimilar hway.2)

/-! ### Fields -/

/-- The texts in the metadata that the chain gives are not among those that may differ. -/
def Chain.MetadataShown (hides : Span → Prop) (c : Chain) : Prop :=
  ∀ call ∈ (c.calls.filter fun call => call.1 = ("meta" : Text)).getLast?, ∀ s ms more,
    call.2 = .object s ms :: more → Member.AllShown hides ms

theorem filterMap_eq_of_forall₂ {α β : Type} {R : α → α → Prop} {f : α → Option β} {as bs : List α}
    (h : List.Forall₂ R as bs) (hf : ∀ a b, R a b → f a = f b) :
    as.filterMap f = bs.filterMap f := by
  induction h with
  | nil => rfl
  | cons hab _ ih => rw [List.filterMap_cons, List.filterMap_cons, hf _ _ hab, ih]

theorem rawMetadata_congr {c c' : Chain} (h : c.Similar hides c') (hshown : c.MetadataShown hides) :
    rawMetadata c = rawMetadata c' := by
  have hmeta : List.Forall₂ (CallSimilar hides)
      (c.calls.filter fun call => call.1 = ("meta" : Text))
      (c'.calls.filter fun call => call.1 = ("meta" : Text)) :=
    List.rel_filter (fun _ _ hcall => by simp [hcall.1]) h.calls
  have hlast := getLast?_of_forall₂ hmeta
  unfold rawMetadata
  rw [Chain.MetadataShown] at hshown
  generalize (c.calls.filter _).getLast? = o at hlast hshown
  generalize (c'.calls.filter _).getLast? = o' at hlast
  cases hlast with
  | none => rfl
  | @some call call' hcall =>
    obtain ⟨name, ns⟩ := call
    obtain ⟨name', ns'⟩ := call'
    obtain ⟨-, hns⟩ := hcall
    have hshown := hshown _ rfl
    dsimp only at hns hshown ⊢
    cases hns with
    | nil => rfl
    | @cons n n' ns ns' hn _ =>
      cases n <;> cases n' <;> first
        | exact hn.elim
        | rfl
        | exact congrArg _ (Node.evaluateMembers_eq_of_similar _ _ hn (hshown _ _ _ rfl))

theorem enumChoices_congr {ns ns' : List Node} (typeName : Text)
    (h : List.Forall₂ (Node.Similar hides) ns ns') :
    enumChoices typeName ns = enumChoices typeName ns' := by
  unfold enumChoices
  split
  · cases h with
    | nil => rfl
    | @cons n n' _ _ hn _ =>
      cases n <;> cases n' <;> first
        | exact hn.elim
        | rfl
        | skip
      refine filterMap_eq_of_forall₂ (Node.allSimilar_iff.1 hn) fun m m' hm => ?_
      cases m <;> cases m' <;> first
        | exact hm.elim
        | rfl
        | obtain rfl := hm; cases ‹Value› <;> rfl
  · rfl

theorem constructorOfChain?_similar {c c' : Chain} (h : c.Similar hides c') :
    Option.Rel (CallSimilar hides) (constructorOfChain? c) (constructorOfChain? c') := by
  unfold constructorOfChain?
  rw [← h.1, ← h.names_eq]
  split
  · split
    · exact .none
    · rename_i name _ _
      refine .some ⟨rfl, ?_⟩
      have hfind : Option.Rel (CallSimilar hides) (c.calls.find? (·.1 = name))
          (c'.calls.find? (·.1 = name)) := by
        have hcalls := h.calls
        generalize c.calls = calls at hcalls
        generalize c'.calls = calls' at hcalls
        induction hcalls with
        | nil => exact .none
        | @cons call call' _ _ hcall _ ih =>
          rw [List.find?_cons, List.find?_cons, ← hcall.1]
          by_cases hname : call.1 = name
          · simpa [hname] using Option.Rel.some hcall
          · simpa [hname] using ih
      generalize c.calls.find? _ = o at hfind ⊢
      generalize c'.calls.find? _ = o' at hfind ⊢
      cases hfind with
      | none => exact .nil
      | some hcall => exact hcall.2
  · exact .none

theorem constructorOf_similar {chains chains' : List Chain}
    (h : List.Forall₂ (Chain.Similar hides) chains chains') :
    CallSimilar hides (constructorOf chains) (constructorOf chains') := by
  have hfind : Option.Rel (CallSimilar hides) (chains.reverse.findSome? constructorOfChain?)
      (chains'.reverse.findSome? constructorOfChain?) := by
    have hreverse := List.rel_reverse h
    generalize chains.reverse = cs at hreverse
    generalize chains'.reverse = cs' at hreverse
    induction hreverse with
    | nil => exact .none
    | @cons c c' _ _ hc _ ih =>
      have hmade := constructorOfChain?_similar hc
      rw [List.findSome?_cons, List.findSome?_cons]
      generalize constructorOfChain? c = o at hmade ⊢
      generalize constructorOfChain? c' = o' at hmade ⊢
      cases hmade with
      | none => exact ih
      | some hcall => exact .some hcall
  unfold constructorOf
  generalize chains.reverse.findSome? _ = o at hfind ⊢
  generalize chains'.reverse.findSome? _ = o' at hfind ⊢
  cases hfind with
  | none => exact ⟨rfl, .nil⟩
  | some hcall => exact hcall

/-- **Similar expressions describe the same field**, if similar chains stand for the constants that
the first leads to. -/
theorem readField_eq {cs cs' : Constants} {n n' : Node} (h : cs.Agree hides P cs')
    (hn : n.Similar hides n')
    (hway : ∀ c ∈ n.chain?, ∀ next ∈ resolveChain cs c, next.head ≠ schemaNamespace → P next.head)
    (hshown : ∀ c ∈ n.chain?, c.MetadataShown hides) (name : Text) :
    (readField cs name n).1 = (readField cs' name n').1 := by
  have hchain := hn.chain?
  unfold readField
  generalize n.chain? = o at hchain hway hshown ⊢
  generalize n'.chain? = o' at hchain ⊢
  cases hchain with
  | none => rfl
  | @some c c' hc =>
    have hchains := hc.resolveChain h (hway c rfl)
    obtain ⟨htype, harguments⟩ := constructorOf_similar hchains
    have hoptional : ((resolveChain cs c).any fun c => c.calls.any fun call =>
        optionalModifiers.contains call.1) = ((resolveChain cs' c').any fun c => c.calls.any
          fun call => optionalModifiers.contains call.1) := by
      rw [Bool.eq_iff_iff]
      refine ((any_iff_of_forall₂ hchains (P := fun c => (c.calls.any fun call =>
        optionalModifiers.contains call.1) = true) fun a b hab => ?_).trans
          List.any_eq_true.symm).symm
      refine (any_iff_of_forall₂ hab.calls (P := fun call =>
        optionalModifiers.contains call.1 = true) fun _ _ hcall => by rw [hcall.1]).trans
          List.any_eq_true.symm
    simp only [readMetadata, rawMetadata_congr hc (hshown c rfl), htype,
      enumChoices_congr (constructorOf (resolveChain cs' c')).1 harguments, hoptional]

namespace Declaration

variable {d d' : Declaration}

/-- A field of the declaration is described by means of the constant. -/
def LeadsTo (d : Declaration) (name : Text) : Prop :=
  name ≠ schemaNamespace ∧ ∃ f ∈ Member.properties d.fields, ∃ c ∈ f.2.chain?,
    ∃ next ∈ resolveChain d.constants c, next.head = name

/-- The texts in the metadata of the fields are not among those that may differ. -/
def MetadataShown (hides : Span → Prop) (d : Declaration) : Prop :=
  ∀ f ∈ Member.properties d.fields, ∀ c ∈ f.2.chain?, c.MetadataShown hides

theorem metadataShown_of_never (hnever : ∀ s, ¬ hides s) : d.MetadataShown hides :=
  fun _ _ _ _ _ _ _ ms _ _ => Member.allShown_of_never hnever ms

theorem forall₂_properties {ms ms' : List Member} (h : Member.AllSimilar hides ms ms') :
    List.Forall₂ (fun f f' => f.1 = f'.1 ∧ f.2.Similar hides f'.2) (Member.properties ms)
      (Member.properties ms') := by
  induction Member.allSimilar_iff.1 h with
  | nil => exact .nil
  | @cons m m' ms ms' hm hms ih =>
    have ih := ih (Member.allSimilar_iff.2 hms)
    cases m <;> cases m' <;> first
      | exact hm.elim
      | exact .cons hm ih
      | exact ih

/-- **The declarations have the same fields**: their expressions are similar, and similar chains
stand for the constants that the fields of the first lead to. -/
theorem fields_eq (hfields : Member.AllSimilar hides d.fields d'.fields)
    (hconstants : d.constants.Agree hides d.LeadsTo d'.constants)
    (hshown : d.MetadataShown hides) (origin : Text) :
    (d.resource origin).fields = (d'.resource origin).fields := by
  refine List.forall₂_eq_eq_eq ▸ List.forall₂_map_left_iff.2 (List.forall₂_map_right_iff.2 ?_)
  have hall := forall₂_properties hfields
  refine ((List.forall₂_and_left _ _).2 ⟨fun f hf => hf, hall⟩).imp
    fun f f' ⟨hf, hkey, hvalue⟩ => ?_
  dsimp only
  rw [← hkey]
  exact readField_eq hconstants hvalue
    (fun c hc next hnext hz => ⟨hz, f, hf, c, hc, next, hnext, rfl⟩) (hshown f hf) f.1

end Declaration

end Scaffold
