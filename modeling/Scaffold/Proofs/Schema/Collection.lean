import Scaffold.Proofs.Expr.Passage
import Scaffold.Proofs.Schema.Agreement

/-!
# The constants of two versions

Constants are collected token by token: a declaration gives the constant that its keyword, its name
and its equals sign stand in front of (`declaredAt`).  In two sources that differ in one passage

* the constants declared behind the passage are the same (`Versions.related_collectConstants`);
* so are those in front of it whose values are read alike (`Versions.ValueAlike`), such as those
  that end there (`Settled`);
* all in all they agree on the names that are not declared in the passage
  (`Versions.agree_constants`).
-/

namespace Scaffold

open Scaffold.Expr

variable {source source' : Text} {hides : Span → Prop} {N : Text → Prop}
  {t : Token} {ts ts' us rest rest' tokens : List Token} {cs cs' : Constants}

/-! ### Where constants are declared -/

/-- The tokens begin a declaration: a keyword, a name and an equals sign. -/
def declares (keyword name eq : Token) : Bool :=
  keyword.isDeclarationKeyword && name.kind = .ident && eq.isPunct "="

/-- The name of the declaration that the tokens begin with. -/
def declaredName? : List Token → Option Text
  | keyword :: name :: eq :: _ => if declares keyword name eq then some name.value else none
  | _ => none

/-- The constant that a name stands for, given the expression behind the equals sign. -/
def constantOf (name : Text) (value : Option Node) : Constants :=
  ((value.bind Node.chain?).map fun c => (name, c)).toList

/-- The constant that the declaration at the beginning of the tokens gives. -/
def declaredAt (source : Text) : List Token → Except NumeralError Constants
  | keyword :: name :: eq :: value =>
    if declares keyword name eq then
      ((readLeadingChain source value).map (·.1)).map (constantOf name.value)
    else .ok []
  | _ => .ok []

theorem collectConstants_cons (source : Text) (t : Token) (ts : List Token) :
    collectConstants source (t :: ts) =
      (declaredAt source (t :: ts)).bind fun found =>
        (collectConstants source ts).map (found ++ ·) := by
  rw [collectConstants.eq_def]
  simp only [bind]
  rcases ts with _ | ⟨name, _ | ⟨eq, value⟩⟩
  · rfl
  · rfl
  · rw [declaredAt, declares]
    dsimp only
    split
    · cases readLeadingChain source value <;> rfl
    · rfl

theorem declaredAt_of_declares {keyword name eq : Token} (h : declares keyword name eq = true)
    (source : Text) (value : List Token) : declaredAt source (keyword :: name :: eq :: value) =
      ((readLeadingChain source value).map (·.1)).map (constantOf name.value) :=
  if_pos h

theorem declaredAt_of_not_declares {keyword name eq : Token} (h : ¬ declares keyword name eq = true)
    (source : Text) (value : List Token) :
    declaredAt source (keyword :: name :: eq :: value) = .ok [] :=
  if_neg h

theorem declaredName?_of_mem {as : Constants} {e : Text × Chain} (h : declaredAt source ts = .ok as)
    (he : e ∈ as) : declaredName? ts = some e.1 := by
  rcases ts with _ | ⟨keyword, _ | ⟨name, _ | ⟨eq, value⟩⟩⟩ <;> rw [declaredAt] at h
  case cons.cons.cons =>
    rw [declaredName?]
    split at h
    · rename_i hdeclares
      rw [if_pos hdeclares]
      obtain ⟨node, -, rfl⟩ := Except.map_eq_ok_iff.1 h
      rw [constantOf, Option.mem_toList, Option.map_eq_some_iff] at he
      obtain ⟨c, -, rfl⟩ := he
      rfl
    · cases h
      cases he
  all_goals
    cases h
    cases he

theorem kind_of_isDeclarationKeyword (h : t.isDeclarationKeyword = true) : t.kind = .ident :=
  of_decide_eq_true (Bool.and_eq_true_iff.1 h).1

theorem isPunct_of_isDeclarationKeyword (h : t.isDeclarationKeyword = true) (mark : Text) :
    t.isPunct mark = false :=
  Bool.and_eq_false_iff.2 (.inl (by simp [kind_of_isDeclarationKeyword h]))

/-- What the declaration that the tokens begin with is made of. -/
theorem exists_of_declaredName? {name : Text} (h : declaredName? ts = some name) :
    ∃ keyword x eq value, ts = keyword :: x :: eq :: value ∧ keyword.kind = .ident ∧
      keyword.isDeclarationKeyword = true ∧ x.kind = .ident ∧ eq.isPunct "=" = true ∧
        x.value = name := by
  rcases ts with _ | ⟨keyword, _ | ⟨x, _ | ⟨eq, value⟩⟩⟩
  case cons.cons.cons =>
    rw [declaredName?] at h
    split at h
    · rename_i hdeclares
      obtain ⟨hnamed, heq⟩ := Bool.and_eq_true_iff.1 hdeclares
      obtain ⟨hkeyword, hx⟩ := Bool.and_eq_true_iff.1 hnamed
      exact ⟨keyword, x, eq, value, rfl, kind_of_isDeclarationKeyword hkeyword, hkeyword,
        of_decide_eq_true hx, heq, Option.some.inj h⟩
    · cases h
  all_goals cases h

theorem exists_cons_of_nextIs {mark : Text} (h : nextIs ts mark = true) :
    ∃ t rest, ts = t :: rest ∧ t.kind = .punct ∧ t.isPunct mark = true := by
  cases ts with
  | nil => cases h
  | cons t rest =>
    have ht : t.isPunct mark = true := h
    exact ⟨t, rest, rfl, (isPunct_eq_true.1 ht).1, ht⟩

theorem ne_nil_of_nextIs {mark : Text} (h : nextIs ts mark = true) : ts ≠ [] := by
  obtain ⟨t, rest, rfl, -⟩ := exists_cons_of_nextIs h
  exact List.cons_ne_nil _ _

/-- A mark is no other one. -/
theorem isPunct_of_ne {mark other : Text} (h : t.kind = .punct ∧ t.value = mark)
    (hne : mark ≠ other) : t.isPunct other = false :=
  Bool.eq_false_iff.2 fun hp => hne (h.2.symm.trans (isPunct_eq_true.1 hp).2)

/-- A declaration that begins right before a mark gives the name before the mark. -/
theorem exists_of_declaredName?_append_mark {vs : List Token} {name : Text}
    (hlength : vs.length ≤ 2)
    (hkind : t.kind = .punct) (h : declaredName? (vs ++ t :: rest) = some name) :
    ∃ keyword x, vs = [keyword, x] ∧ keyword.isDeclarationKeyword = true ∧ x.value = name ∧
      t.isPunct "=" = true := by
  obtain ⟨keyword, x, eq, value, hvs, hkeyword, hdeclares, hx, heq, hname⟩ :=
    exists_of_declaredName? h
  rcases vs with _ | ⟨a, _ | ⟨b, _ | ⟨c, vs⟩⟩⟩
  · obtain ⟨rfl, -⟩ := List.cons.inj hvs
    cases hkind.symm.trans hkeyword
  · obtain ⟨-, hvs⟩ := List.cons.inj hvs
    obtain ⟨rfl, -⟩ := List.cons.inj hvs
    cases hkind.symm.trans hx
  · simp only [List.cons_append, List.nil_append, List.cons.injEq] at hvs
    obtain ⟨rfl, rfl, rfl, -⟩ := hvs
    exact ⟨_, _, rfl, hdeclares, hname, heq⟩
  · simp at hlength

/-- No declaration reaches from in front of a mark other than the equals sign to behind it. -/
theorem declaredName?_append_mark {vs : List Token} (hlength : vs.length ≤ 2)
    (hkind : t.kind = .punct) (ht : t.isPunct "=" = false) :
    declaredName? (vs ++ t :: rest) = none := by
  rw [Option.eq_none_iff_forall_ne_some]
  intro name hname
  obtain ⟨-, -, -, -, -, heq⟩ := exists_of_declaredName?_append_mark hlength hkind hname
  cases ht.symm.trans heq

/-- Constants are declared at one of the first tokens or behind them. -/
theorem exists_names_of_collectConstants (h : collectConstants source (us ++ rest) = .ok cs) :
    ∃ as bs, cs = as ++ bs ∧ collectConstants source rest = .ok bs ∧
      ∀ e ∈ as, ∃ vs, vs <:+ us ∧ vs ≠ [] ∧ declaredName? (vs ++ rest) = some e.1 := by
  induction us generalizing cs with
  | nil => exact ⟨[], cs, rfl, h, nofun⟩
  | cons u us ih =>
    rw [List.cons_append, collectConstants_cons] at h
    obtain ⟨found, hfound, h⟩ := Except.bind_eq_ok_iff.1 h
    obtain ⟨others, hothers, rfl⟩ := Except.map_eq_ok_iff.1 h
    obtain ⟨as, bs, rfl, hbs, has⟩ := ih hothers
    refine ⟨found ++ as, bs, (List.append_assoc _ _ _).symm, hbs, fun e he => ?_⟩
    rcases List.mem_append.1 he with he | he
    · exact ⟨u :: us, List.suffix_refl _, List.cons_ne_nil _ _, declaredName?_of_mem hfound he⟩
    · obtain ⟨vs, hvs, hne, hname⟩ := has e he
      exact ⟨vs, hvs.trans (List.suffix_cons u us), hne, hname⟩

/-- The constants of two sources agree if those declared at the same tokens do, and those behind. -/
theorem Constants.Agree.collected
    (hat : ∀ vs as as', vs <:+ us → vs ≠ [] → declaredAt source (vs ++ rest) = .ok as →
      declaredAt source' (vs ++ rest') = .ok as' → Agree hides N as as')
    (hrest : ∀ bs bs', collectConstants source rest = .ok bs →
      collectConstants source' rest' = .ok bs' → Agree hides N bs bs')
    (h : collectConstants source (us ++ rest) = .ok cs)
    (h' : collectConstants source' (us ++ rest') = .ok cs') : Agree hides N cs cs' := by
  induction us generalizing cs cs' with
  | nil => exact hrest _ _ h h'
  | cons u us ih =>
    rw [List.cons_append, collectConstants_cons] at h h'
    obtain ⟨as, has, h⟩ := Except.bind_eq_ok_iff.1 h
    obtain ⟨as', has', h'⟩ := Except.bind_eq_ok_iff.1 h'
    obtain ⟨bs, hbs, rfl⟩ := Except.map_eq_ok_iff.1 h
    obtain ⟨bs', hbs', rfl⟩ := Except.map_eq_ok_iff.1 h'
    refine .append (hat (u :: us) as as' (List.suffix_refl _) (List.cons_ne_nil _ _) has has') ?_
    exact ih (fun vs as as' hvs => hat vs as as' (hvs.trans (List.suffix_cons u us))) hbs hbs'

/-- A declaration whose value is read alike gives similar constants. -/
theorem related_constantOf {x x' : Except NumeralError (Option Node)}
    (h : Except.Related (Option.Rel (Node.Similar hides)) x x') (name : Text) :
    Except.Related (List.Forall₂ fun e e' => e.1 = e'.1 ∧ e.2.Similar hides e'.2)
      (x.map (constantOf name)) (x'.map (constantOf name)) := by
  refine h.map fun n n' hn => ?_
  unfold constantOf
  cases hn with
  | none => exact .nil
  | @some n n' hn =>
    have hchain := hn.chain?
    rw [Option.bind_some, Option.bind_some]
    generalize n.chain? = o at hchain ⊢
    generalize n'.chain? = o' at hchain ⊢
    cases hchain with
    | none => exact .nil
    | some hc => exact .cons ⟨rfl, hc⟩ .nil

/-- Anything but a chain makes no constant. -/
theorem map_readLeadingChain_of_not_chain (h : ¬ (t.kind = .ident ∧ literalName? t.value = none))
    (source : Text) (ts : List Token) :
    (readLeadingChain source (t :: ts)).map (·.1) = .ok none := by
  rw [readLeadingChain, if_neg h]
  rfl

/-! ### Behind the passage -/

namespace Expr.Versions

variable {v : Versions}

variable (hides v) in
theorem related_leadingChain (hsealed : Sealed tokens) (hus : us <:+ tokens) (hne : us ≠ []) :
    Except.Related (Option.Rel (Node.Similar hides))
      ((readLeadingChain v.before (v.inBefore us)).map (·.1))
      ((readLeadingChain v.after (v.inAfter us)).map (·.1)) := by
  obtain ⟨u, us, rfl⟩ := List.exists_cons_of_ne_nil hne
  have hmoved : v.Moved tokens (v.inBefore (u :: us)) (v.inAfter (u :: us)) :=
    ⟨_, hne, hus, rfl, rfl⟩
  by_cases heof : u.kind = .eof
  · have hchain : ∀ f, ¬ ((u.relocated f).kind = .ident ∧
        literalName? (u.relocated f).value = none) := fun f h => by cases heof.symm.trans h.1
    have hnone : ∀ (source : Text) (f : Nat → Nat),
        (readLeadingChain source ((u :: us).map (Token.relocated f))).map (·.1) = .ok none :=
      fun source f => @map_readLeadingChain_of_not_chain (u.relocated f) (hchain f) source _
    rw [inBefore, inAfter, hnone, hnone]
    exact .none
  · exact (v.behind hides hsealed).related_leadingChain (k := 0) hmoved.shifted
      (hmoved.pass hsealed heof)

variable (hides v) in
theorem related_declaredAt (hsealed : Sealed tokens) (hus : us <:+ tokens) :
    Except.Related (List.Forall₂ fun e e' => e.1 = e'.1 ∧ e.2.Similar hides e'.2)
      (declaredAt v.before (v.inBefore us)) (declaredAt v.after (v.inAfter us)) := by
  rcases us with _ | ⟨keyword, _ | ⟨name, _ | ⟨eq, value⟩⟩⟩
  case cons.cons.cons =>
    have hrelocated : ∀ f : Nat → Nat, declares (keyword.relocated f) (name.relocated f)
        (eq.relocated f) = declares keyword name eq := fun f => rfl
    rw [inBefore, inAfter, List.map_cons, List.map_cons, List.map_cons, List.map_cons,
      List.map_cons, List.map_cons]
    by_cases hdeclares : declares keyword name eq = true
    · have hdeclares' : ∀ f : Nat → Nat, declares (keyword.relocated f) (name.relocated f)
          (eq.relocated f) = true := fun f => (hrelocated f).trans hdeclares
      rw [declaredAt_of_declares (hdeclares' _), declaredAt_of_declares (hdeclares' _)]
      refine related_constantOf ?_ name.value
      have heq : eq.isPunct "=" = true := (Bool.and_eq_true_iff.1 hdeclares).2
      have hsuffix : eq :: value <:+ tokens :=
        List.IsSuffix.trans ⟨[keyword, name], rfl⟩ hus
      refine related_leadingChain hides v hsealed ((List.suffix_cons eq value).trans hsuffix) ?_
      exact (hsealed.suffix hsuffix (List.cons_ne_nil _ _)).tail_ne_nil
        (by simp [(isPunct_eq_true.1 heq).1])
    · have hnot : ∀ f : Nat → Nat, ¬ declares (keyword.relocated f) (name.relocated f)
          (eq.relocated f) = true := fun f => by rwa [hrelocated f]
      rw [declaredAt_of_not_declares (hnot _), declaredAt_of_not_declares (hnot _)]
      exact .nil
  all_goals exact .nil

variable (hides v) in
/-- **Behind the passage the same constants are declared.** -/
theorem related_collectConstants (hsealed : Sealed tokens) (hus : us <:+ tokens) :
    Except.Related (List.Forall₂ fun e e' => e.1 = e'.1 ∧ e.2.Similar hides e'.2)
      (collectConstants v.before (v.inBefore us)) (collectConstants v.after (v.inAfter us)) := by
  induction us with
  | nil => exact .nil
  | cons u us ih =>
    have hdeclared := related_declaredAt hides v hsealed hus
    rw [inBefore, inAfter, List.map_cons, List.map_cons] at hdeclared ⊢
    rw [collectConstants_cons, collectConstants_cons]
    refine hdeclared.bind fun as as' _ has => ?_
    exact (ih ((List.suffix_cons u us).trans hus)).map fun bs bs' hbs => List.rel_append has hbs

end Expr.Versions

/-! ### In front of the passage -/

/-- The links of a chain end within the tokens, whether `rest` or `rest'` stands behind them. -/
inductive LinksEndWithin (rest rest' : List Token) : List Token → Prop
  /-- They end before `stop`. -/
  | intro {stop : Token} {us more : List Token} (h : Finished us stop (more ++ rest))
    (h' : Finished us stop (more ++ rest')) : LinksEndWithin rest rest' (us ++ stop :: more)

/-- The value of a declaration ends within the tokens. -/
inductive EndsWithin (rest rest' : List Token) : List Token → Prop
  /-- The value is no chain. -/
  | other {t : Token} {ts : List Token} (h : ¬ (t.kind = .ident ∧ literalName? t.value = none)) :
    EndsWithin rest rest' (t :: ts)
  /-- The value is a chain. -/
  | chain {head : Token} {ts : List Token} (h : LinksEndWithin rest rest' ts) :
    EndsWithin rest rest' (head :: ts)

/-- The values declared in the tokens for names that `N` tells of are as `P` tells. -/
def DeclaredValues (P : List Token → Prop) (N : Text → Prop) (us : List Token) : Prop :=
  ∀ keyword name eq value, keyword :: name :: eq :: value <:+ us →
    declaredName? (keyword :: name :: eq :: value) = some name.value → N name.value → P value

/-- The constants declared in the tokens whose names `N` tells of have values that end within the
tokens. -/
def Settled (N : Text → Prop) (us rest rest' : List Token) : Prop :=
  ∀ keyword name eq value, keyword :: name :: eq :: value <:+ us →
    declaredName? (keyword :: name :: eq :: value) = some name.value → N name.value →
      EndsWithin rest rest' value

theorem Settled.cons (hs : Settled N us rest rest')
    (h : t.isDeclarationKeyword = true → ∀ name eq value, us = name :: eq :: value →
      EndsWithin rest rest' value) : Settled N (t :: us) rest rest' := by
  intro keyword name eq value hsuffix hdeclared hname
  rcases List.suffix_cons_iff.1 hsuffix with heq | hsuffix
  · obtain ⟨rfl, hus⟩ := List.cons.inj heq
    refine h ?_ name eq value hus.symm
    by_contra hnot
    rw [declaredName?, declares, Bool.eq_false_iff.2 hnot] at hdeclared
    cases hdeclared
  · exact hs keyword name eq value hsuffix hdeclared hname

/-- Nothing is declared without a keyword. -/
theorem Settled.append (h : ∀ u ∈ us, u.isDeclarationKeyword = false)
    (hs : Settled N ts rest rest') : Settled N (us ++ ts) rest rest' := by
  induction us with
  | nil => exact hs
  | cons u us ih =>
    rw [List.forall_mem_cons] at h
    exact (ih h.2).cons fun hkeyword => absurd (h.1.symm.trans hkeyword) nofun

theorem Settled.nil : Settled N [] rest rest' := fun _ _ _ _ hsuffix =>
  absurd (List.suffix_nil.1 hsuffix) (List.cons_ne_nil _ _)

namespace Expr.Versions

variable {v : Versions}

/-- Links that end in front of the passage are read alike. -/
theorem exists_mirror (hides : Span → Prop)
    (h : LinksEndWithin rest rest' ts) (hahead : ∀ u ∈ ts, v.Ahead u) :
    ∃ m : Mirror v.before v.after hides, (∀ u, v.Ahead u → m.twin u u) ∧
      m.near 0 (ts ++ rest) (ts ++ rest') := by
  obtain @⟨stop, us, more, hfinished, hfinished'⟩ := h
  refine ⟨v.ahead hides (fun u hu => hahead u ?_) hfinished hfinished', fun u hu => ⟨rfl, hu⟩,
    us, [], List.suffix_refl _, hfinished.nested, rfl, by simp, by simp⟩
  rw [List.mem_append, List.mem_singleton] at hu
  rcases hu with hu | rfl
  · exact List.mem_append_left _ hu
  · simp

variable (hides v) in
/-- The values are read alike, with `rest` or `rest'` behind them. -/
def ValueAlike (rest rest' value : List Token) : Prop :=
  Except.Related (Option.Rel (Node.Similar hides))
    ((readLeadingChain v.before (value ++ rest)).map (·.1))
    ((readLeadingChain v.after (value ++ rest')).map (·.1))

/-- Values that end in front of the passage are read alike. -/
theorem valueAlike_of_endsWithin {value : List Token} (h : EndsWithin rest rest' value)
    (hahead : ∀ u ∈ value, v.Ahead u) : v.ValueAlike hides rest rest' value := by
  cases h with
  | other hother =>
    rw [ValueAlike, List.cons_append, List.cons_append, map_readLeadingChain_of_not_chain hother,
      map_readLeadingChain_of_not_chain hother]
    exact .none
  | @chain head ts hlinks =>
    obtain ⟨m, hm, hnear⟩ := exists_mirror hides hlinks fun u hu => hahead u (.tail _ hu)
    exact m.related_leadingChain (hm _ (hahead head List.mem_cons_self)) hnear

theorem declaredValues_of_settled (hsettled : Settled N us rest rest')
    (hahead : ∀ u ∈ us, v.Ahead u) : DeclaredValues (v.ValueAlike hides rest rest') N us := by
  intro keyword name eq value hsuffix hdeclared hname
  have hvalue : value <:+ us := List.IsSuffix.trans ⟨[keyword, name, eq], rfl⟩ hsuffix
  exact valueAlike_of_endsWithin (hsettled keyword name eq value hsuffix hdeclared hname)
    fun u hu => hahead u (hvalue.subset hu)

/-- **In front of the passage the same constants are declared**, as far as their values are read
alike and their names are written there. -/
theorem agree_declaredAt {as as' : Constants}
    (hvalues : DeclaredValues (v.ValueAlike hides rest rest') N us)
    (hlast : ∀ vs name, vs <:+ us → vs ≠ [] → vs.length ≤ 2 →
      declaredName? (vs ++ rest) = some name ∨ declaredName? (vs ++ rest') = some name → ¬ N name)
    (hts : ts <:+ us) (hne : ts ≠ []) (h : declaredAt v.before (ts ++ rest) = .ok as)
    (h' : declaredAt v.after (ts ++ rest') = .ok as') : as.Agree hides N as' := by
  have hunnamed : (∀ name, declaredName? (ts ++ rest) = some name ∨
      declaredName? (ts ++ rest') = some name → ¬ N name) → as.Agree hides N as' := fun hnot =>
    .of_not (fun e he => hnot e.1 (.inl (declaredName?_of_mem h he)))
      fun e he => hnot e.1 (.inr (declaredName?_of_mem h' he))
  rcases ts with _ | ⟨keyword, _ | ⟨name, _ | ⟨eq, value⟩⟩⟩
  case cons.cons.cons =>
    by_cases hdeclared : declaredName? (keyword :: name :: eq :: value) = some name.value ∧
        N name.value
    · have hdeclares : declares keyword name eq = true := by
        by_contra hnot
        have hname := hdeclared.1
        rw [declaredName?, if_neg hnot] at hname
        cases hname
      rw [List.cons_append, List.cons_append, List.cons_append,
        declaredAt_of_declares hdeclares] at h h'
      have hread := hvalues keyword name eq value hts hdeclared.1 hdeclared.2
      have hrelated := related_constantOf hread name.value
      rw [h, h'] at hrelated
      exact .of_forall₂ hrelated
    · refine hunnamed fun n hn => ?_
      have hname : declaredName? (keyword :: name :: eq :: value) = some n := by
        rcases hn with hn | hn <;> exact hn
      have hvalue : n = name.value := by
        rw [declaredName?] at hname
        split at hname
        · exact (Option.some.inj hname).symm
        · cases hname
      exact hvalue ▸ fun hN => hdeclared ⟨hvalue ▸ hname, hN⟩
  all_goals exact hunnamed fun n hn => hlast _ n hts hne (by simp) hn

end Expr.Versions

/-- A declaration begins at one of the tokens and gives the name. -/
def DeclaredIn (us rest : List Token) (name : Text) : Prop :=
  ∃ vs, vs <:+ us ∧ vs ≠ [] ∧ declaredName? (vs ++ rest) = some name

/-- **The constants of both versions agree** on the names that no declaration reaches from in front
of the passage into it, and none in the passage gives. -/
theorem Expr.Versions.agree_constants {v : Versions} {old new : List Token}
    (hsealed : Sealed tokens)
    (hvalues : DeclaredValues
      (v.ValueAlike hides (old ++ v.inBefore tokens) (new ++ v.inAfter tokens)) N us)
    (hlast : ∀ vs name, vs <:+ us → vs ≠ [] → vs.length ≤ 2 →
      declaredName? (vs ++ (old ++ v.inBefore tokens)) = some name ∨
        declaredName? (vs ++ (new ++ v.inAfter tokens)) = some name → ¬ N name)
    (hold : ∀ name, DeclaredIn old (v.inBefore tokens) name → ¬ N name)
    (hnew : ∀ name, DeclaredIn new (v.inAfter tokens) name → ¬ N name)
    (h : collectConstants v.before (us ++ (old ++ v.inBefore tokens)) = .ok cs)
    (h' : collectConstants v.after (us ++ (new ++ v.inAfter tokens)) = .ok cs') :
    cs.Agree hides N cs' := by
  refine .collected (fun vs as as' hvs hne => v.agree_declaredAt hvalues hlast hvs hne)
    (fun bs bs' hbs hbs' => ?_) h h'
  obtain ⟨as, ds, rfl, hds, has⟩ := exists_names_of_collectConstants hbs
  obtain ⟨as', ds', rfl, hds', has'⟩ := exists_names_of_collectConstants hbs'
  refine .append (.of_not (fun e he => hold _ (has e he)) fun e he => hnew _ (has' e he)) ?_
  have hbehind := v.related_collectConstants hides hsealed (List.suffix_refl tokens)
  rw [hds, hds'] at hbehind
  exact .of_forall₂ hbehind

end Scaffold
