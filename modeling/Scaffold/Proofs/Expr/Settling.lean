import Scaffold.Proofs.Expr.Placement

/-!
# What is read of balanced tokens

Balanced tokens are read as one expression, up to the token that ends it, wherever they stand
(`readSettles`).  It reaches from the first token to the last, but for `as const` (`Covers`).

The reader looks for a literal or a chain first (`primarySettles`), whose items, members and
arguments are read in the same way.  Where this stops half-way, the tokens are passed over from the
beginning, up to the same token (`verbatim_tokens`).
-/

namespace Scaffold

namespace Expr

variable {p : Place} {t u c : Token} {ts us vs rest : List Token} {source close : Text}

/-! ### What is kept verbatim -/

theorem slice_self (source : Text) (x : Nat) : source.slice x x = [] := by
  simp [Text.slice]

/-- Before what ends an expression, an empty one is read. -/
theorem outcome_read_stops (ht : Stops t.lexeme) (source : Text) (rest : List Token) :
    outcome (read source (t :: rest)) = .ok (.verbatim ⟨t.start, t.start⟩ [], t :: rest) := by
  have hprimary : found (readPrimary source (t :: rest)) = .ok none := by
    by_cases hkind : t.kind = .eof
    · exact found_readPrimary_other (by simp [hkind]) rest
    · have hpunct : t.kind = .punct := (ht.resolve_left hkind).1
      refine found_readPrimary_punct hpunct (fun hvalue => ?_) rest
      have hnot : ∀ v ∈ [Text.ofString "-", "[", "\x7b"], ¬ Stops (.punct, v) := by decide
      have hlexeme : t.lexeme = (.punct, t.value) := by rw [← hpunct]; rfl
      exact hnot t.value hvalue (hlexeme ▸ ht)
  have hskip : skipBalanced [] true (t :: rest) = ([], t :: rest) :=
    (Balanced.nil : Balanced .expression .operand []).skip_expression (by decide) ht rest
  rw [outcome_read, hprimary]
  simp [Except.map, verbatim, readVerbatim, hskip, startOf, slice_self]

/-- The tokens of an expression that is kept verbatim. -/
theorem verbatim_tokens {s : Placement} {first last : Token} (h : Balanced .expression p us)
    (hp : p ≠ .operator) (hends : s.Ends) (hshows : s.Shows source us)
    (hfirst : us.head? = some first) (hlast : us.getLast? = some last) :
    verbatim s.text (s.tokens us) =
      ((Node.verbatim ⟨first.start, last.stop⟩ (source.slice first.start last.stop)).relocated
        s.offset, s.behind) := by
  obtain ⟨t, rest, hbehind, ht⟩ := hends
  have hskip : skipBalanced [] true (s.tokens us) =
    (us.map (Token.relocated s.offset), s.behind) := by
    rw [Placement.tokens, hbehind]
    exact h.relocated.skip_expression hp ht rest
  have hstart : startOf (s.tokens us) = s.offset first.start := by
    simp [startOf, Placement.tokens, List.head?_append, hfirst]
  have hslice := hshows.slices first.start (mem_offsets_start (List.mem_of_mem_head? hfirst))
    last.stop (mem_offsets_stop (List.mem_of_mem_getLast? hlast))
  simp [verbatim, readVerbatim, hskip, hstart, List.getLast?_map, hlast, hslice, Node.relocated,
    Span.relocated]

/-- The tokens are `as const`. -/
def IsAsConst (ts : List Token) : Prop :=
  ts.map Token.lexeme = [(.ident, Text.ofString "as"), (.ident, "const")]

instance (ts : List Token) : Decidable (IsAsConst ts) :=
  inferInstanceAs (Decidable (ts.map Token.lexeme = _))

theorem skipAsConst_of_not_const {a b : Token} (h : ¬ IsAsConst [a, b]) (ts : List Token) :
    skipAsConst (a :: b :: ts) = a :: b :: ts := by
  rw [skipAsConst, if_neg]
  rintro ⟨ha, hb⟩
  exact h (by simp [IsAsConst, isIdent_iff.1 ha, isIdent_iff.1 hb])

/-- What is left behind an expression belongs to it, unless it is `as const`. -/
theorem settle_tokens {s : Placement} {more : List Token}
    (hmore : Balanced .expression .operator more)
    (hends : s.Ends) (ts : List Token) (n : Node) : settle source ts n (s.tokens more) =
      if more = [] ∨ IsAsConst more then (n, s.behind) else verbatim source ts := by
  obtain ⟨t, rest, hbehind, ht⟩ := hends
  have hends : atTerminator s.behind = true := hbehind ▸ atTerminator_iff.2 ht
  have hgoes : ∀ {u : Token} {us : List Token}, Balanced .expression .operator (u :: us) →
      ¬ atTerminator (s.tokens (u :: us)) = true := fun {u us} h hterm =>
    have hstops : Stops (u.relocated s.offset).lexeme := atTerminator_iff.1 hterm
    h.begins hstops
  unfold settle
  match more, hmore with
  | [], _ =>
    have hskip : skipAsConst (s.tokens []) = s.behind := by
      rw [Placement.tokens_nil, hbehind, skipAsConst_of_stops ht]
    rw [hskip, if_pos hends, if_pos (.inl rfl)]
  | [a], hmore =>
    have hconst : ¬ IsAsConst [a.relocated s.offset, t] := fun h => by
      have hlexeme : t.lexeme = (.ident, Text.ofString "const") := (List.cons.inj
        (List.cons.inj h).2).1
      rw [hlexeme] at ht
      exact absurd ht (by decide)
    have hskip : skipAsConst (s.tokens [a]) = s.tokens [a] := by
      rw [Placement.tokens_cons, Placement.tokens_nil, hbehind, skipAsConst_of_not_const hconst]
    rw [hskip, if_neg (hgoes hmore), if_neg (by simp [IsAsConst])]
  | a :: b :: more, hmore =>
    by_cases hconst : IsAsConst [a, b]
    · obtain ⟨ha, hb⟩ := List.cons.inj hconst
      have hb := (List.cons.inj hb).1
      have hmore' : Balanced .expression .operator more := by
        have hkind : ∀ {u : Token} {v : Text}, u.lexeme = (.ident, v) → u.kind ≠ .punct :=
          fun h hk => by
            have := congrArg Prod.fst h
            rw [Token.lexeme, hk] at this
            cases this
        exact (hmore.tail (hkind ha) (by decide)).tail (hkind hb) (by decide)
      have hskip : skipAsConst (s.tokens (a :: b :: more)) = s.tokens more := by
        rw [Placement.tokens_cons, Placement.tokens_cons, skipAsConst,
          if_pos ⟨isIdent_iff.2 ha, isIdent_iff.2 hb⟩]
      rw [hskip]
      cases more with
      | nil => rw [Placement.tokens_nil, if_pos hends, if_pos (.inr hconst)]
      | cons u more => rw [if_neg (hgoes hmore'), if_neg (by simp [IsAsConst])]
    · have hskip : skipAsConst (s.tokens (a :: b :: more)) = s.tokens (a :: b :: more) :=
        skipAsConst_of_not_const (a := a.relocated s.offset) (b := b.relocated s.offset) hconst _
      have hnot : ¬ (a :: b :: more = [] ∨ IsAsConst (a :: b :: more)) := by
        rintro (h | h)
        · cases h
        · cases more with
          | nil => exact hconst h
          | cons => simp [IsAsConst] at h
      rw [hskip, if_neg (hgoes hmore), if_neg hnot]

/-! ### Chains -/

/-- Of the tokens, those up to the offset `stop` are read, and `more` are left. -/
def Leaves (ts more : List Token) (stop : Nat) : Prop :=
  ∃ read last, ts = read ++ more ∧ read.getLast? = some last ∧ stop = last.stop ∧
    Balanced .expression .operator more

theorem Leaves.append {more : List Token} {stop : Nat} (h : Leaves ts more stop)
    (us : List Token) : Leaves (us ++ ts) more stop := by
  obtain ⟨read, last, rfl, hlast, hstop, hmore⟩ := h
  refine ⟨us ++ read, last, (List.append_assoc _ _ _).symm, ?_, hstop, hmore⟩
  rw [List.getLast?_append, hlast, Option.some_or]

theorem leaves_singleton (h : Balanced .expression .operator us) (t : Token) :
    Leaves (t :: us) us t.stop :=
  ⟨[t], t, rfl, rfl, rfl, h⟩

/-- Which links are read behind `t`, wherever the tokens stand. -/
def LinksSettle (source : Text) (t : Token) (us : List Token) : Prop :=
  ∃ r : Except NumeralError (Option ((List Segment × Nat) × List Token)),
    (∀ ss stop more, r = .ok (some ((ss, stop), more)) → Leaves (t :: us) more stop) ∧
    ∀ s : Placement, s.Ends → s.Shows source (t :: us) →
      found (readSegments s.text (s.offset t.stop) (s.tokens us)) = r.map (Option.map fun r =>
        ((r.1.1.map (Segment.relocated s.offset), s.offset r.1.2), s.tokens r.2))

/-- Where no link begins, the chain ends. -/
theorem linksSettle_nil (hus : Balanced .expression .operator us) (ht : IsCallable t)
    (hpoint : ((nextIs us "." || nextIs us "?.") && nextKind us.tail .ident) = false)
    (hparen : nextIs us "(" = false) : LinksSettle source t us := by
  refine ⟨.ok (some (([], t.stop), us)), ?_, fun s hends hshows => ?_⟩
  · rintro ss stop more h
    cases h
    exact leaves_singleton hus t
  · refine found_readSegments_nil ?_ (fun hless => ?_) ?_
    · rw [hends.nextIs_tokens (by decide), hends.nextIs_tokens (by decide)]
      cases us with
      | nil => rfl
      | cons u us =>
        rw [Placement.tokens_cons, List.tail_cons,
          hends.nextKind_tokens .ident (by decide) (by decide)]
        exact hpoint
    · rw [hends.nextIs_tokens (by decide)] at hless
      cases us with
      | nil => cases hless
      | cons u us => exact hshows.compares [] _ _ _ rfl ht hless
    · rw [hends.nextIs_tokens (by decide)]
      exact hparen

/-- A name behind a point, and the links behind it. -/
theorem LinksSettle.access {v : Token} (h : LinksSettle source v us)
    (hu : u.isPunct "." = true ∨ u.isPunct "?." = true) (hv : v.kind = .ident) :
    LinksSettle source t (u :: v :: us) := by
  obtain ⟨r, hleaves, hr⟩ := h
  refine ⟨r.map (Option.map fun r => ((.access v.value :: r.1.1, r.1.2), r.2)), ?_, ?_⟩
  · rintro ss stop more hsome
    obtain ⟨⟨⟨ss, stop⟩, more⟩, hr, heq⟩ := Except.map_map_eq_ok_some_iff.1 hsome
    cases heq
    exact (hleaves ss stop more hr).append [t, u]
  · intro s hends hshows
    have hu' : (u.relocated s.offset).isPunct "." = true ∨
        (u.relocated s.offset).isPunct "?." = true := hu
    have hv' : (v.relocated s.offset).kind = .ident := hv
    rw [Placement.tokens_cons, Placement.tokens_cons, found_readSegments_access hu' hv',
      Token.stop_relocated, hr s hends (hshows.right [t, u])]
    cases r with
    | error e => rfl
    | ok o => cases o <;> rfl

/-- A call, and the links behind it. -/
theorem LinksSettle.call {body : List Token} (h : LinksSettle source c us)
    (hu : u.isPunct "(" = true) (hitems : ListSettles
      (fun text ts => found (readItems text ")" false ts)) Node.relocated source body c) :
    LinksSettle source t (u :: (body ++ c :: us)) := by
  obtain ⟨r, hr⟩ := hitems
  obtain ⟨r', hleaves, hr'⟩ := h
  refine ⟨r.bind fun
    | none => .ok none
    | some ns => r'.map (Option.map fun r => ((.call ns :: r.1.1, r.1.2), r.2)), ?_, ?_⟩
  · rintro ss stop more hsome
    obtain ⟨o, rfl, ho⟩ := Except.bind_eq_ok_iff.1 hsome
    cases o with
    | none => cases ho
    | some ns =>
      obtain ⟨⟨⟨ss, stop⟩, more⟩, hr', heq⟩ := Except.map_map_eq_ok_some_iff.1 ho
      cases heq
      simpa using (hleaves ss stop more hr').append (t :: u :: body)
  · intro s hends hshows
    have hu' : (u.relocated s.offset).isPunct "(" = true := hu
    have hsplit : body ++ c :: us = body ++ [c] ++ us := by simp
    have hbehind := hr' s hends (hshows.right (t :: u :: body))
    rw [hsplit] at hshows ⊢
    have hinside : found (readItems s.text ")" false ((s.before us).tokens (body ++ [c]))) = _ :=
      hr (s.before us) (hshows.right [t, u]).left
    rw [Placement.tokens_cons, found_readSegments_call hu', s.tokens_append, hinside]
    cases r with
    | error e => rfl
    | ok o =>
      cases o with
      | none => rfl
      | some ns =>
        change Except.map _ (found (readSegments s.text (s.offset c.stop) (s.tokens us))) = _
        rw [hbehind]
        cases r' with
        | error e => rfl
        | ok o => cases o <;> simp [Except.map, Except.bind, Segment.relocated, Placement.before,
            Node.relocatedAll_eq]

/-- **The links of a chain are read**, wherever they stand, if the arguments of its calls are. -/
theorem linksSettle {n : Nat} (hitems : ∀ body c, body.length < n → c.isPunct ")" = true →
      Balanced .items .operand body → ListSettles
        (fun text ts => found (readItems text ")" false ts)) Node.relocated source body c)
    (hus : Balanced .expression .operator us) (hlength : us.length < n) (ht : IsCallable t) :
    LinksSettle source t us := by
  induction hm : us.length using Nat.strong_induction_on generalizing us t with
  | _ m ih =>
  subst hm
  have hus' := hus
  cases hus with
  | nil => exact linksSettle_nil .nil ht rfl rfl
  | comma hw => exact absurd rfl hw
  | semicolon hw => exact absurd rfl hw
  | @plain _ _ u us hu hless h =>
    by_cases haccess : ((nextIs (u :: us) "." || nextIs (u :: us) "?.") &&
        nextKind us .ident) = true
    · obtain ⟨hmark, hname⟩ := Bool.and_eq_true_iff.1 haccess
      have hpoint : u.isPunct "." = true ∨ u.isPunct "?." = true := Bool.or_eq_true_iff.1 hmark
      have hnext : Place.next .operator u = .operator := by
        rcases hpoint with hp | hp <;> obtain ⟨hpunct, hvalue⟩ := isPunct_eq_true.1 hp <;>
          simp +decide [Place.next, expectsOperand, Token.isPunct, hvalue]
      cases us with
      | nil => cases hname
      | cons v us =>
        have hkind : v.kind = .ident := of_decide_eq_true hname
        have hrest := h.tail (by rw [hkind]; decide) (by rw [hnext]; decide)
        simp only [List.length_cons] at hlength ih
        exact (ih us.length (by omega) hrest (by omega) (.inl hkind) rfl).access hpoint hkind
    · exact linksSettle_nil hus' ht (Bool.eq_false_iff.2 haccess) (hu.not_opener "(" (by decide))
  | @group _ _ o c body us hbrackets hbody h =>
    by_cases hparen : o.isPunct "(" = true
    · have hvalue := (isPunct_eq_true.1 hparen).2
      rw [Region.inside, if_neg (by rw [hvalue]; decide)] at hbody
      simp only [List.length_cons, List.length_append] at hlength ih
      have hc : c.isPunct ")" = true := hbrackets.closer_of_opener hvalue rfl
      exact (ih us.length (by omega) h (by omega) (.inr hc) rfl).call hparen
        (hitems body c (by omega) hc hbody)
    · refine linksSettle_nil hus' ht (Bool.and_eq_false_iff.2 (.inl ?_))
        (Bool.eq_false_iff.2 hparen)
      exact Bool.or_eq_false_iff.2 ⟨hbrackets.not_isPunct "." rfl, hbrackets.not_isPunct "?." rfl⟩

/-! ### Literals and chains -/

/-- Which literal or chain is found at the beginning of the tokens, wherever they stand. -/
def PrimarySettles (source : Text) (us : List Token) : Prop :=
  ∃ r : Except NumeralError (Option (Node × List Token)),
    (∀ n more, r = .ok (some (n, more)) →
      us.head?.map Token.start = some n.span.start ∧ Leaves us more n.span.stop) ∧
    ∀ s : Placement, s.Ends → s.Shows source us → found (readPrimary s.text (s.tokens us)) =
      r.map (Option.map fun r => (r.1.relocated s.offset, s.tokens r.2))

theorem primarySettles_none (h : ∀ s : Placement, s.Ends →
    found (readPrimary s.text (s.tokens us)) = .ok none) : PrimarySettles source us :=
  ⟨.ok none, nofun, fun s hends _ => h s hends⟩

/-- A literal. -/
theorem primarySettles_literal {more : List Token} {stop : Nat} {v : Except NumeralError Value}
    (hleaves : Leaves (t :: us) more stop) (h : ∀ s : Placement, s.Ends →
      found (readPrimary s.text (s.tokens (t :: us))) = v.map fun v =>
        some (.literal ⟨s.offset t.start, s.offset stop⟩ v, s.tokens more)) :
    PrimarySettles source (t :: us) := by
  refine ⟨v.map fun v => some (.literal ⟨t.start, stop⟩ v, more), ?_, fun s hends _ => ?_⟩
  · rintro n more' hsome
    obtain ⟨v, -, heq⟩ := Except.map_eq_ok_iff.1 hsome
    cases heq
    exact ⟨rfl, hleaves⟩
  · rw [h s hends]
    cases v <;> rfl

theorem Leaves.stop_mem {more : List Token} {stop : Nat} (h : Leaves ts more stop) :
    stop ∈ offsets ts := by
  obtain ⟨read, last, rfl, hlast, rfl, -⟩ := h
  exact mem_offsets_stop (List.mem_append_left _ (List.mem_of_mem_getLast? hlast))

theorem LinksSettle.primarySettles (h : LinksSettle source t us) (ht : t.kind = .ident)
    (hname : literalName? t.value = none ∨ (nextIs us "." || nextIs us "(") = true) :
    PrimarySettles source (t :: us) := by
  obtain ⟨r, hleaves, hr⟩ := h
  refine ⟨r.map (Option.map fun r =>
    (.chain ⟨t.start, r.1.2⟩ t.value r.1.1 (source.slice t.start r.1.2), r.2)), ?_, ?_⟩
  · rintro n more hsome
    obtain ⟨⟨⟨ss, stop⟩, more⟩, hr, heq⟩ := Except.map_map_eq_ok_some_iff.1 hsome
    cases heq
    exact ⟨rfl, hleaves ss stop more hr⟩
  · intro s hends hshows
    have ht' : (t.relocated s.offset).kind = .ident := ht
    rw [Placement.tokens_cons, found_readPrimary_chain ht', Token.stop_relocated,
      hr s hends hshows]
    · cases r with
      | error e => rfl
      | ok o =>
        cases o with
        | none => rfl
        | some r =>
          have hslice := hshows.slices t.start (mem_offsets_start List.mem_cons_self) r.1.2
            (hleaves _ _ _ rfl).stop_mem
          simp [Except.map, Node.relocated, Span.relocated, Segment.relocatedAll_eq, hslice]
    · rw [hends.nextIs_tokens (by decide), hends.nextIs_tokens (by decide)]
      exact hname

/-- A list between brackets. -/
theorem ListSettles.primarySettles {α : Type} {list : Text → List Token → FoundParts α}
    {g : (Nat → Nat) → α → α} {make : Span → List α → Node} {opener : Text} {body : List Token}
    (h : ListSettles list g source body c) (ht : t.isPunct opener = true)
    (hus : Balanced .expression .operator us) (hspan : ∀ s as, (make s as).span = s)
    (hmake : ∀ f s as, (make s as).relocated f = make (s.relocated f) (as.map (g f)))
    (hfound : ∀ {text : Text} {t : Token}, t.isPunct opener = true → ∀ rest,
      found (readPrimary text (t :: rest)) =
        (list text rest).map (Option.map fun r => (make ⟨t.start, r.1.2⟩ r.1.1, r.2))) :
    PrimarySettles source (t :: (body ++ c :: us)) := by
  obtain ⟨r, hr⟩ := h
  refine ⟨r.map (Option.map fun as => (make ⟨t.start, c.stop⟩ as, us)), ?_, fun s _ hshows => ?_⟩
  · rintro n more hsome
    obtain ⟨as, -, heq⟩ := Except.map_map_eq_ok_some_iff.1 hsome
    cases heq
    rw [hspan]
    exact ⟨rfl, (leaves_singleton hus c).append (t :: body)⟩
  · have ht' : (t.relocated s.offset).isPunct opener = true := ht
    have hsplit : body ++ c :: us = body ++ [c] ++ us := by simp
    rw [hsplit] at hshows ⊢
    have hinside : list s.text ((s.before us).tokens (body ++ [c])) = _ :=
      hr (s.before us) (hshows.right [t]).left
    rw [Placement.tokens_cons, hfound ht', s.tokens_append, hinside]
    cases r with
    | error e => rfl
    | ok o => cases o <;> simp [Except.map, hmake, Span.relocated, Placement.before]

/-- The items between brackets of up to `n` tokens are read as a list, wherever they stand. -/
def ItemsSettle (source : Text) (n : Nat) : Prop :=
  ∀ (close : Text) (holes : Bool) (body : List Token) (c : Token), body.length < n →
    isCloser close = true → c.isPunct close = true → Balanced .items .operand body →
      ListSettles (fun text ts => found (readItems text close holes ts)) Node.relocated source
        body c

/-- So are the members between braces. -/
def MembersSettle (source : Text) (n : Nat) : Prop :=
  ∀ (body : List Token) (c : Token), body.length < n → c.isPunct "\x7d" = true →
    Balanced .members .member body →
      ListSettles (fun text ts => found (readMembers text ts)) Member.relocated source body c

/-- A minus sign begins a literal if a number follows. -/
theorem primarySettles_minus (ht : t.isPunct "-" = true)
    (hus : Balanced .expression (Place.next .operand t) us) : PrimarySettles source (t :: us) := by
  by_cases hnumber : nextKind us .number = true
  · cases us with
    | nil => cases hnumber
    | cons u us =>
      have hu : u.kind = .number := of_decide_eq_true hnumber
      have hnext : Place.next .operand t ≠ .member := by
        unfold Place.next
        split_ifs <;> decide
      have hmore := hus.tail (by rw [hu]; decide) hnext
      refine primarySettles_literal (v := (Numeral.read u.value).map fun n => .number n.neg)
        ((leaves_singleton hmore u).append [t]) fun s _ => ?_
      have ht' : (t.relocated s.offset).isPunct "-" = true := ht
      have hu' : (u.relocated s.offset).kind = .number := hu
      rw [Placement.tokens_cons, Placement.tokens_cons, found_readPrimary_minus ht' hu',
        Token.value_relocated]
      cases Numeral.read u.value <;> rfl
  · refine primarySettles_none fun s hends => ?_
    have hnext : nextKind (s.tokens us) .number = false := by
      rw [hends.nextKind_tokens .number (by decide) (by decide)]
      exact Bool.eq_false_iff.2 hnumber
    exact found_readPrimary_sign (t := t.relocated s.offset) ht hnext

/-- A name begins a chain, or is a literal. -/
theorem primarySettles_name {n : Nat} (hitems : ItemsSettle source n)
    (hus : Balanced .expression .operator us) (hlength : us.length < n) (ht : t.kind = .ident) :
    PrimarySettles source (t :: us) := by
  by_cases hchain : literalName? t.value = none ∨ (nextIs us "." || nextIs us "(") = true
  · refine LinksSettle.primarySettles (linksSettle (n := n) ?_ hus hlength (.inl ht)) ht hchain
    exact fun body c hbody hc => hitems ")" false body c hbody (by decide) hc
  · obtain ⟨hname, hnext⟩ := not_or.1 hchain
    obtain ⟨v, hv⟩ := Option.ne_none_iff_exists'.1 hname
    refine primarySettles_literal (v := .ok v) (leaves_singleton hus t) fun s hends => ?_
    have ht' : (t.relocated s.offset).kind = .ident := ht
    rw [Placement.tokens_cons, found_readPrimary_name ht' hv]
    · rfl
    · rw [hends.nextIs_tokens (by decide), hends.nextIs_tokens (by decide)]
      exact Bool.eq_false_iff.2 hnext

/-- **What is found at the beginning of balanced tokens** does not depend on where they stand. -/
theorem primarySettles {n : Nat} (hitems : ItemsSettle source n) (hmembers : MembersSettle source n)
    (hus : Balanced .expression .operand us) (hne : us ≠ []) (hlength : us.length ≤ n) :
    PrimarySettles source us := by
  have hus' := hus
  cases hus with
  | nil => exact absurd rfl hne
  | comma hw => exact absurd rfl hw
  | semicolon hw => exact absurd rfl hw
  | @plain _ _ u us hu hless h =>
    have hmore : u.kind ≠ .punct → Balanced .expression .operator us := fun hkind =>
      hus'.tail hkind (by decide)
    match hkind : u.kind with
    | .string | .template false =>
      refine primarySettles_literal (v := .ok (.text u.value))
        (leaves_singleton (hmore (by rw [hkind]; decide)) u) fun s _ => ?_
      exact found_readPrimary_text (t := u.relocated s.offset) (by simp [hkind]) _
    | .number =>
      refine primarySettles_literal (v := (Numeral.read u.value).map .number)
        (leaves_singleton (hmore (by rw [hkind]; decide)) u) fun s _ => ?_
      rw [Placement.tokens_cons, found_readPrimary_number (t := u.relocated s.offset) hkind,
        Token.value_relocated]
      cases Numeral.read u.value <;> rfl
    | .ident =>
      exact primarySettles_name hitems (hmore (by rw [hkind]; decide)) (Nat.lt_of_lt_of_le
        (Nat.lt_succ_self _) hlength) hkind
    | .punct =>
      by_cases hminus : u.value = "-"
      · exact primarySettles_minus (isPunct_eq_true.2 ⟨hkind, hminus⟩) h
      · have hnot : u.value ∉ [Text.ofString "-", "[", "\x7b"] := by
          have hopener := hu.opener hkind
          simp only [List.mem_cons, List.not_mem_nil, or_false, not_or]
          refine ⟨hminus, fun hvalue => ?_, fun hvalue => ?_⟩ <;> rw [hvalue] at hopener <;>
            exact absurd hopener (by decide)
        exact primarySettles_none fun s _ =>
          found_readPrimary_punct (t := u.relocated s.offset) hkind hnot _
    | .template true | .regex | .eof =>
      exact primarySettles_none fun s _ =>
        found_readPrimary_other (t := u.relocated s.offset) (by simp [hkind]) _
  | @group _ _ o c body us hbrackets hbody h =>
    simp only [List.length_cons, List.length_append] at hlength
    cases hbrackets with
    | parentheses ho _ =>
      obtain ⟨hkind, hvalue⟩ := isPunct_eq_true.1 ho
      refine primarySettles_none fun s _ =>
        found_readPrimary_punct (t := o.relocated s.offset) hkind ?_ _
      rw [Token.value_relocated, hvalue]
      decide
    | square ho hc =>
      rw [Region.inside, if_neg (by rw [(isPunct_eq_true.1 ho).2]; decide)] at hbody
      exact (hitems "]" true body c (by omega) (by decide) hc hbody).primarySettles ho h
        (fun _ _ => rfl) (fun _ _ ns => by rw [Node.relocated, Node.relocatedAll_eq])
        found_readPrimary_array
    | braces ho hc =>
      rw [Region.inside, if_pos (isPunct_eq_true.1 ho).2] at hbody
      exact (hmembers body c (by omega) hc hbody).primarySettles ho h
        (fun _ _ => rfl) (fun _ _ ms => by rw [Node.relocated, Member.relocatedAll_eq])
        found_readPrimary_object

/-! ### Expressions -/

/-- The expression reaches from the first of the tokens to the last, or to `as const` behind it. -/
def Covers (us : List Token) (n : Node) : Prop :=
  ∃ read more first last, us = read ++ more ∧ (more = [] ∨ IsAsConst more) ∧
    read.head? = some first ∧ read.getLast? = some last ∧ n.span = ⟨first.start, last.stop⟩

theorem Covers.stop_mem {n : Node} (h : Covers us n) : n.span.stop ∈ offsets us := by
  obtain ⟨read, more, first, last, rfl, -, -, hlast, hspan⟩ := h
  rw [hspan]
  exact mem_offsets_stop (List.mem_append_left _ (List.mem_of_mem_getLast? hlast))

/-- The literal or the chain that was found, or what is kept verbatim where it stops half-way. -/
def foundOr (kept : Node) : Option (Node × List Token) → Node
  | none => kept
  | some (n, more) => if more = [] ∨ IsAsConst more then n else kept

/-- Which expression is read, wherever the tokens stand, up to what ends it. -/
def ReadSettles (source : Text) (us : List Token) : Prop :=
  ∃ r : Except NumeralError Node, (∀ n, r = .ok n → Covers us n) ∧
    ∀ s : Placement, s.Ends → s.Shows source us → outcome (read s.text (s.tokens us)) =
      r.map fun n => (n.relocated s.offset, s.behind)

theorem PrimarySettles.readSettles (h : PrimarySettles source us)
    (hus : Balanced .expression .operand us) (hne : us ≠ []) : ReadSettles source us := by
  obtain ⟨r, hcovers, hr⟩ := h
  obtain ⟨first, hfirst⟩ : ∃ first, us.head? = some first := ⟨_, List.head?_eq_some_head hne⟩
  obtain ⟨last, hlast⟩ : ∃ last, us.getLast? = some last := ⟨_, List.getLast?_eq_some_getLast hne⟩
  let kept : Node := .verbatim ⟨first.start, last.stop⟩ (source.slice first.start last.stop)
  have hkept : Covers us kept :=
    ⟨us, [], first, last, (List.append_nil us).symm, .inl rfl, hfirst, hlast, rfl⟩
  refine ⟨r.map (foundOr kept), ?_, ?_⟩
  · intro n hn
    obtain ⟨o, hr, rfl⟩ := Except.map_eq_ok_iff.1 hn
    cases o with
    | none => exact hkept
    | some o =>
      obtain ⟨n, more⟩ := o
      rw [foundOr]
      split_ifs with hmore
      · obtain ⟨hstart, read, last, rfl, hlast, hstop, -⟩ := hcovers n more hr
        refine ⟨read, more, first, last, rfl, hmore, ?_, hlast, ?_⟩
        · obtain ⟨u, read, rfl⟩ := List.exists_cons_of_ne_nil (l := read)
            (by rintro rfl; cases hlast)
          exact hfirst
        · rw [hfirst, Option.map_some, Option.some.injEq] at hstart
          rw [← hstop, hstart]
      · exact hkept
  · intro s hends hshows
    have hverbatim : verbatim s.text (s.tokens us) = (kept.relocated s.offset, s.behind) :=
      verbatim_tokens hus (by decide) hends hshows hfirst hlast
    rw [outcome_read, hr s hends hshows]
    cases r with
    | error e => rfl
    | ok o =>
      cases o with
      | none => exact congrArg Except.ok hverbatim
      | some o =>
        obtain ⟨n, more⟩ := o
        obtain ⟨-, -, -, -, -, -, hmore⟩ := hcovers n more rfl
        simp only [Except.map, Option.map_some, settle_tokens hmore hends, hverbatim, foundOr]
        split_ifs <;> rfl

/-- The expression before `t`, which may be an empty one. -/
theorem readSettles_before (h : us ≠ [] → ReadSettles source us) (ht : Stops t.lexeme) :
    ∃ r : Except NumeralError Node, (∀ n, r = .ok n → n.span.stop ∈ offsets (us ++ [t])) ∧
      ∀ s : Placement, s.Shows source (us ++ [t]) →
        outcome (read s.text (s.tokens (us ++ [t]))) =
          r.map fun n => (n.relocated s.offset, s.tokens [t]) := by
  by_cases hne : us = []
  · subst hne
    refine ⟨.ok (.verbatim ⟨t.start, t.start⟩ []), ?_, fun s _ => ?_⟩
    · rintro n ⟨⟩
      exact mem_offsets_start List.mem_cons_self
    · exact outcome_read_stops (t := t.relocated s.offset) ht s.text s.behind
  · obtain ⟨r, hcovers, hr⟩ := h hne
    refine ⟨r, fun n hn => ?_, fun s hs => ?_⟩
    · rw [offsets, List.flatMap_append]
      exact List.mem_append_left _ (hcovers n hn).stop_mem
    · rw [s.tokens_append]
      exact hr (s.before [t]) ⟨t.relocated s.offset, s.behind, rfl, ht⟩ hs.left

/-- An item. -/
theorem partSettles_item {holes : Bool} (hus : Balanced .expression .operand us)
    (h : us ≠ [] → ReadSettles source us) (ht : Stops t.lexeme) :
    PartSettles (fun text ts => itemPart text holes ts) Node.relocated source us t := by
  by_cases hhole : (holes && nextIs (us ++ [t]) ",") = true
  · have hnil : us = [] := by
      cases us with
      | nil => rfl
      | cons u us =>
        have hnot : u.isPunct "," = false := hus.begins.not_isPunct (.inl rfl)
        have hcomma : u.isPunct "," = true := (Bool.and_eq_true_iff.1 hhole).2
        rw [hnot] at hcomma
        cases hcomma
    subst hnil
    exact ⟨.ok [], fun s _ => if_pos hhole⟩
  · obtain ⟨r, -, hr⟩ := readSettles_before h ht
    refine ⟨r.map ([·]), fun s hs => ?_⟩
    have hhole' : ¬ (holes && nextIs (s.tokens (us ++ [t])) ",") = true := by
      cases us <;> exact hhole
    change itemPart s.text holes (s.tokens (us ++ [t])) = _
    rw [itemPart, if_neg hhole', hr s hs]
    cases r <;> rfl

/-- What stands in the place of a member is passed over. -/
theorem partSettles_skipped (h : ∀ s : Placement,
    outcome (readMember s.text (s.tokens (us ++ [t]))) = .ok (none, s.tokens [t])) :
    PartSettles memberPart Member.relocated source us t :=
  ⟨.ok [], fun s _ => by rw [memberPart, h s]; rfl⟩

theorem skipBalanced_tokens (hus : Balanced .expression p us) (hp : p ≠ .operator)
    (ht : Stops t.lexeme) (s : Placement) :
    (skipBalanced [] true (s.tokens (us ++ [t]))).2 = s.tokens [t] := by
  rw [s.tokens_append]
  exact congrArg Prod.snd (hus.relocated.skip_expression (t := t.relocated s.offset) hp ht s.behind)

/-- A key alone, before what ends the member. -/
theorem partSettles_shorthand (hu : IsKey u) (ht : Stops t.lexeme) :
    PartSettles memberPart Member.relocated source [u] t := by
  have hu' : ∀ s : Placement, IsKey (u.relocated s.offset) := fun _ => hu
  by_cases hend : t.isPunct "," = true ∨ t.isPunct "\x7d" = true
  · refine ⟨.ok [.property u.value (.verbatim ⟨u.start, u.stop⟩ u.value)], fun s _ => ?_⟩
    have hend' : (t.relocated s.offset).isPunct "," = true ∨
        (t.relocated s.offset).isPunct "\x7d" = true := hend
    have hread : outcome (readMember s.text
        (u.relocated s.offset :: t.relocated s.offset :: s.behind)) = _ :=
      outcome_readMember_shorthand (hu' s) hend' s.behind
    change memberPart s.text (u.relocated s.offset :: t.relocated s.offset :: s.behind) = _
    rw [memberPart, hread]
    rfl
  · refine partSettles_skipped fun s => ?_
    have hnil : Balanced .expression .operand [] := .nil
    have hskip := skipBalanced_tokens hnil (by decide) ht s
    have hcolon : (t.relocated s.offset).isPunct ":" = false :=
      not_isPunct_of_stops ht (by decide)
    have hread : outcome (readMember s.text
        (u.relocated s.offset :: t.relocated s.offset :: s.behind)) = _ :=
      outcome_readMember_method (hu' s) hcolon hend s.behind
    exact hread.trans (congrArg (fun r => Except.ok (none, r)) hskip)

/-- Behind a key stands the value of a property, or what is passed over. -/
theorem partSettles_key {k : Token} (hk : IsKey k) (hus : Balanced .expression .key us)
    (h : ∀ vs : List Token, vs.length ≤ us.length → vs ≠ [] → Balanced .expression .operand vs →
      ReadSettles source vs) (ht : Stops t.lexeme) :
    PartSettles memberPart Member.relocated source (k :: us) t := by
  have hk' : ∀ s : Placement, IsKey (k.relocated s.offset) := fun _ => hk
  cases us with
  | nil => exact partSettles_shorthand hk ht
  | cons u us =>
    by_cases hcolon : u.isPunct ":" = true
    · have hvalue := (isPunct_eq_true.1 hcolon).2
      have hexpects : expectsOperand u = true := by
        simp +decide [expectsOperand, (isPunct_eq_true.1 hcolon).1, hvalue]
      have hus : Balanced .expression .operand us := by
        have := hus.behind fun _ => by rw [hvalue]; rfl
        rwa [Place.next, if_pos (.inl hexpects)] at this
      obtain ⟨r, -, hr⟩ := readSettles_before (fun hne => h us (Nat.le_succ _) hne hus) ht
      refine ⟨r.map fun n => [.property k.value n], fun s hs => ?_⟩
      have hcolon' : (u.relocated s.offset).isPunct ":" = true := hcolon
      simp only [List.cons_append, Placement.tokens_cons]
      rw [memberPart, outcome_readMember_property (hk' s) hcolon', hr s (hs.right [k, u])]
      cases r <;> simp [Except.map, Member.relocated]
    · have hnot : ¬ (u.isPunct "," = true ∨ u.isPunct "\x7d" = true) := by
        rw [hus.begins.not_isPunct (.inl rfl), hus.begins.not_isPunct (.inr rfl)]
        simp
      refine partSettles_skipped fun s => ?_
      have hskip := skipBalanced_tokens hus (by decide) ht s
      simp only [List.cons_append, Placement.tokens_cons] at hskip ⊢
      rw [outcome_readMember_method (hk' s) (u := u.relocated s.offset)
        (Bool.eq_false_iff.2 hcolon) hnot, hskip]

/-- A spread keeps the source of its expression. -/
theorem partSettles_spread (hu : u.isPunct "..." = true)
    (h : us ≠ [] → ReadSettles source us) (ht : Stops t.lexeme) :
    PartSettles memberPart Member.relocated source (u :: us) t := by
  obtain ⟨r, hstop, hr⟩ := readSettles_before h ht
  refine ⟨r.map fun n => [.spread (source.slice u.start n.span.stop)], fun s hs => ?_⟩
  have hu' : (u.relocated s.offset).isPunct "..." = true := hu
  simp only [List.cons_append, Placement.tokens_cons]
  rw [memberPart, outcome_readMember_spread hu', hr s (hs.right [u])]
  cases r with
  | error e => rfl
  | ok n =>
    have hslice := hs.slices u.start (mem_offsets_start List.mem_cons_self) n.span.stop
      (List.mem_append_right [u.start, u.stop] (hstop n rfl))
    simp [Except.map, Member.relocated, Node.span_relocated, Span.relocated, hslice]

/-- A member, or what is passed over in the place of one. -/
theorem partSettles_member (hus : Balanced .expression .member us)
    (h : ∀ vs : List Token, vs.length < us.length → vs ≠ [] → Balanced .expression .operand vs →
      ReadSettles source vs) (ht : Stops t.lexeme) :
    PartSettles memberPart Member.relocated source us t := by
  have hother : ∀ {v : Token} {vs : List Token}, us ++ [t] = v :: vs → v.isPunct "..." = false →
      ¬ IsKey v → PartSettles memberPart Member.relocated source us t := by
    intro v vs hfirst hspread hkey
    refine partSettles_skipped fun s => ?_
    rw [← skipBalanced_tokens hus (by decide) ht s, hfirst]
    exact outcome_readMember_other (t := v.relocated s.offset) hspread hkey (s.tokens vs)
  cases us with
  | nil =>
    refine hother rfl (not_isPunct_of_stops ht (by decide)) fun hkey => ?_
    rcases ht with hkind | ⟨hkind, -⟩ <;>
      simp [IsKey, show t.kind = _ from hkind] at hkey
  | cons u us =>
    by_cases hspread : u.isPunct "..." = true
    · have hus' : Balanced .expression .operand us := by
        have := hus.behind fun _ => by rw [(isPunct_eq_true.1 hspread).2]; rfl
        rwa [Place.next, if_pos (.inr hspread)] at this
      exact partSettles_spread hspread (fun hne => h us (Nat.lt_succ_self _) hne hus') ht
    · by_cases hkey : IsKey u
      · have hus' : Balanced .expression .key us := by
          have hkind : u.kind ≠ .punct := fun hk => by simp [IsKey, hk] at hkey
          exact Place.next_of_isKey hkey ▸ hus.behind fun hk => absurd hk hkind
        exact partSettles_key hkey hus' (fun vs hle => h vs (Nat.lt_succ_of_le hle)) ht
      · exact hother rfl (Bool.eq_false_iff.2 hspread) hkey

/-- **Balanced tokens are read as one expression**, up to what ends it and wherever they stand. -/
theorem readSettles (source : Text) {us : List Token} (hus : Balanced .expression .operand us)
    (hne : us ≠ []) : ReadSettles source us := by
  induction hn : us.length using Nat.strong_induction_on generalizing us with
  | _ n ih =>
  subst hn
  have hread : ∀ m < us.length, ∀ vs : List Token, vs.length ≤ m → vs ≠ [] →
      Balanced .expression .operand vs → ReadSettles source vs := fun m hm vs hle hne hvs =>
    ih vs.length (by omega) hvs hne rfl
  have hitems : ItemsSettle source us.length := fun close holes body c hlength hclose hc hbody =>
    exists_list (w := .items) (fun text => readsParts_items text close holes) hclose hc
      (fun vs t hle hvs ht _ => partSettles_item hvs
        (fun hne => hread _ hlength vs hle hne hvs) ht) hbody
  have hmembers : MembersSettle source us.length := fun body c hlength hc hbody =>
    exists_list (w := .members) readsParts_members (by decide) hc
      (fun vs t hle hvs ht _ => partSettles_member hvs
        (fun xs hlt => hread _ hlength xs (by omega)) ht) hbody
  exact (primarySettles hitems hmembers hus hne (Nat.le_refl _)).readSettles hus hne

end Expr

end Scaffold
