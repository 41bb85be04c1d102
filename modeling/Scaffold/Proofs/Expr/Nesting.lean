import Scaffold.Proofs.Expr.Passage

/-!
# Expressions in their source

What is read from the tokens of a source has its place in the source: an expression begins where its
first token does and ends before the token that stops it, and the expressions inside it lie one
behind the other between its ends (`Node.LiesIn`).

* `IsSequence`: tokens that lie one behind the other, with the end of the source as the last.  The
  tokens of a source do (`isSequence_of_tokenize`), and so do all that a reader leaves.
* `Node.InRow`: expressions that lie one behind the other between two offsets.  Each reader of a
  list returns such a row (`Rows`), and each reader of an expression one that lies in the source
  (`Stands`).
* `read_stands`: a reading that begins at any token ends at a terminator, at the token itself or
  behind it, or fails at a number literal.
-/

namespace Scaffold

/-! ### Expressions inside others -/

/-- The expressions in a link of a chain. -/
def Segment.inner : Segment → List Node
  | .access _ => []
  | .call arguments => arguments

/-- The expressions in a member of an object. -/
def Member.inner : Member → List Node
  | .property _ value => [value]
  | .spread _ => []

namespace Node

/-- The expressions directly inside an expression: elements, values of properties and arguments. -/
def inner : Node → List Node
  | literal _ _ => []
  | array _ elements => elements
  | object _ members => members.flatMap Member.inner
  | chain _ _ segments _ => segments.flatMap Segment.inner
  | verbatim _ _ => []

/-- The expression lies in the source as its span says: the expressions inside it lie between its
ends, one behind the other, and a chain has the text of its span. -/
inductive LiesIn (source : Text) : Node → Prop
  /-- An expression whose inner expressions lie in the source. -/
  | intro {n : Node} (ordered : n.span.start ≤ n.span.stop)
    (text : ∀ span head segments text, n = .chain span head segments text →
      text = source.slice span.start span.stop)
    (inside : ∀ m ∈ n.inner, n.span.start ≤ m.span.start ∧ m.span.stop ≤ n.span.stop)
    (apart : n.inner.Pairwise fun m m' => m.span.stop ≤ m'.span.start)
    (lie : ∀ m ∈ n.inner, LiesIn source m) : LiesIn source n

/-- The expressions lie in the source between two offsets, one behind the other. -/
inductive InRow (source : Text) : (start stop : Nat) → List Node → Prop
  /-- No expression. -/
  | nil {start stop : Nat} (h : start ≤ stop) : InRow source start stop []
  /-- An expression, and others behind it. -/
  | cons {start stop : Nat} {n : Node} {ns : List Node} (hstart : start ≤ n.span.start)
    (hn : n.LiesIn source) (hns : InRow source n.span.stop stop ns) :
    InRow source start stop (n :: ns)

variable {source : Text} {start stop stop' : Nat} {n : Node} {ns ms : List Node}

theorem LiesIn.le (h : n.LiesIn source) : n.span.start ≤ n.span.stop := by
  cases h
  assumption

namespace InRow

theorem le (h : InRow source start stop ns) : start ≤ stop := by
  induction h with
  | nil h => exact h
  | cons hstart hn _ ih => exact (hstart.trans hn.le).trans ih

theorem from_le (h : InRow source start stop ns) {start' : Nat} (hle : start' ≤ start) :
    InRow source start' stop ns := by
  cases h with
  | nil h => exact .nil (hle.trans h)
  | cons hstart hn hns => exact .cons (hle.trans hstart) hn hns

theorem to_le (h : InRow source start stop ns) {stop' : Nat} (hle : stop ≤ stop') :
    InRow source start stop' ns := by
  induction h with
  | nil h => exact .nil (h.trans hle)
  | cons hstart hn _ ih => exact .cons hstart hn (ih hle)

theorem append (h : InRow source start stop ns) (h' : InRow source stop stop' ms) :
    InRow source start stop' (ns ++ ms) := by
  induction h with
  | nil h => exact h'.from_le h
  | cons hstart hn _ ih => exact .cons hstart hn (ih h')

theorem inside (h : InRow source start stop ns) :
    ∀ n ∈ ns, start ≤ n.span.start ∧ n.span.stop ≤ stop := by
  induction h with
  | nil => exact nofun
  | @cons start stop n ns hstart hn hns ih =>
    refine List.forall_mem_cons.2 ⟨⟨hstart, hns.le⟩, fun m hm => ?_⟩
    exact ⟨(hstart.trans hn.le).trans (ih m hm).1, (ih m hm).2⟩

theorem apart (h : InRow source start stop ns) :
    ns.Pairwise fun n m => n.span.stop ≤ m.span.start := by
  induction h with
  | nil => exact .nil
  | cons _ _ hns ih => exact List.pairwise_cons.2 ⟨fun m hm => (hns.inside m hm).1, ih⟩

theorem lie (h : InRow source start stop ns) : ∀ n ∈ ns, n.LiesIn source := by
  induction h with
  | nil => exact nofun
  | cons _ hn _ ih => exact List.forall_mem_cons.2 ⟨hn, ih⟩

end InRow

/-- An expression lies in the source where those inside it are in a row between its ends. -/
theorem liesIn_of_inRow (h : InRow source n.span.start n.span.stop n.inner)
    (htext : ∀ span head segments text, n = .chain span head segments text →
      text = source.slice span.start span.stop) : n.LiesIn source :=
  .intro h.le htext h.inside h.apart h.lie

theorem liesIn_literal {span : Span} (h : span.start ≤ span.stop) (v : Value) :
    (literal span v).LiesIn source :=
  liesIn_of_inRow (.nil h) nofun

theorem liesIn_verbatim {span : Span} (h : span.start ≤ span.stop) (text : Text) :
    (verbatim span text).LiesIn source :=
  liesIn_of_inRow (.nil h) nofun

end Node

/-! ### Tokens one behind the other -/

namespace Expr

/-- The tokens lie one behind the other, and the last of them is the end of the source. -/
structure IsSequence (ts : List Token) : Prop where
  /-- No token ends before it begins. -/
  spans : ∀ t ∈ ts, t.start ≤ t.stop
  /-- A token ends before the next ones begin. -/
  ordered : ts.Pairwise fun t u => t.stop ≤ u.start
  /-- The last one is the end of the source. -/
  ends : Sealed ts

variable {source close : Text} {t u : Token} {ts us rest : List Token}

/-- The tokens of a source lie one behind the other. -/
theorem isSequence_of_tokenize (h : tokenize source = .ok ts) : IsSequence ts := by
  obtain ⟨tokens, rfl, haccounts⟩ := (covers_of_tokensFrom h).accounts [] rfl
  refine ⟨fun t ht => ?_, ?_, sealed_of_tokenize h⟩
  · rcases List.mem_append.1 ht with ht | ht
    · exact Nat.le_of_lt (haccounts.spans t ht).2.1
    · rw [List.mem_singleton.1 ht]
      exact Nat.le_refl _
  · refine List.pairwise_append.2 ⟨haccounts.ordered, List.pairwise_singleton _ _, ?_⟩
    intro t ht u hu
    rw [List.mem_singleton.1 hu]
    exact (haccounts.spans t ht).2.2

namespace IsSequence

theorem ne_nil (h : IsSequence ts) : ts ≠ [] := by
  rintro rfl
  obtain ⟨us, e, heq, -⟩ := h.ends
  exact List.append_ne_nil_of_right_ne_nil us (List.cons_ne_nil e []) heq.symm

/-- An end of the tokens lies one behind the other as well. -/
theorem of_suffix (h : IsSequence ts) (hsuffix : us <:+ ts) (hne : us ≠ []) : IsSequence us where
  spans t ht := h.spans t (hsuffix.subset ht)
  ordered := h.ordered.sublist hsuffix.sublist
  ends := h.ends.suffix hsuffix hne

/-- Something stands behind a token that is not the end of the source. -/
theorem tail (h : IsSequence (t :: ts)) (ht : t.kind ≠ .eof) : IsSequence ts :=
  h.of_suffix (List.suffix_cons t ts) (h.ends.tail_ne_nil ht)

theorem startOf_le (h : IsSequence ts) (ht : t ∈ ts) : startOf ts ≤ t.start := by
  cases ts with
  | nil => cases ht
  | cons u us =>
    rcases List.mem_cons.1 ht with rfl | ht
    · exact Nat.le_refl _
    · exact (h.spans u List.mem_cons_self).trans (List.rel_of_pairwise_cons h.ordered ht)

theorem startOf_le_startOf (h : IsSequence ts) (hus : IsSequence us) (hsuffix : us <:+ ts) :
    startOf ts ≤ startOf us := by
  obtain ⟨u, us, rfl⟩ := List.exists_cons_of_ne_nil hus.ne_nil
  exact h.startOf_le (hsuffix.subset List.mem_cons_self)

/-- What stands behind a token begins where it ends, or further behind. -/
theorem stop_le (h : IsSequence (t :: ts)) (ht : t.kind ≠ .eof) : t.stop ≤ startOf ts := by
  obtain ⟨u, us, rfl⟩ := List.exists_cons_of_ne_nil (h.tail ht).ne_nil
  exact List.rel_of_pairwise_cons h.ordered List.mem_cons_self

theorem start_le_stop (h : IsSequence (t :: ts)) : t.start ≤ t.stop :=
  h.spans t List.mem_cons_self

/-- What is skipped lies between the beginning of the tokens and what is left of them. -/
theorem last_stop_le (h : IsSequence (us ++ rest)) (hrest : rest ≠ []) :
    startOf (us ++ rest) ≤ (us.getLast?.map (·.stop)).getD (startOf (us ++ rest)) ∧
      (us.getLast?.map (·.stop)).getD (startOf (us ++ rest)) ≤ startOf rest := by
  obtain ⟨u, rest, rfl⟩ := List.exists_cons_of_ne_nil hrest
  cases hlast : us.getLast? with
  | none =>
    rw [List.getLast?_eq_none_iff.1 hlast]
    exact ⟨Nat.le_refl _, Nat.le_refl _⟩
  | some t =>
    have ht : t ∈ us := List.mem_of_getLast? hlast
    refine ⟨(h.startOf_le (List.mem_append_left _ ht)).trans (h.spans t ?_), ?_⟩
    · exact List.mem_append_left _ ht
    · exact (List.pairwise_append.1 h.ordered).2.2 t ht u List.mem_cons_self

end IsSequence

theorem kind_ne_eof_of_isPunct {mark : Text} (h : t.isPunct mark = true) : t.kind ≠ .eof := by
  rw [(isPunct_eq_true.1 h).1]
  nofun

theorem kind_ne_eof_of_isIdent {w : Text} (h : t.isIdent w = true) : t.kind ≠ .eof := by
  rw [Token.isIdent, Bool.and_eq_true, decide_eq_true_eq] at h
  rw [h.1]
  decide

/-! ### What is passed over -/

/-- Skipping stops at a terminator. -/
theorem atTerminator_of_awaited {stack : List Text} {operand : Bool}
    (h : awaited stack operand t = none) (ts : List Token) : atTerminator (t :: ts) = true := by
  rw [awaited.eq_def] at h
  rw [atTerminator, Bool.or_eq_true, decide_eq_true_eq]
  split at h
  · exact .inl ‹_›
  · refine .inr ?_
    split at h
    · rename_i hpunct
      simp only [hpunct, decide_true, Bool.true_and, Bool.or_eq_true, decide_eq_true_eq]
      split at h
      · cases h
      · split at h
        · cases h
        · split at h
          · cases h
          · split at h
            · exact .inr ‹_›
            · split at h
              · rename_i hseparator
                exact .inl hseparator.1
              · cases h
    · cases h

/-- Skipping stops before the end of the source, at a terminator. -/
theorem atTerminator_skipBalanced (hts : IsSequence ts) (stack : List Text) (operand : Bool) :
    atTerminator (skipBalanced stack operand ts).2 = true := by
  induction ts generalizing stack operand with
  | nil => exact absurd rfl hts.ne_nil
  | cons t ts ih =>
    rw [skipBalanced]
    cases hawaited : awaited stack operand t with
    | none => exact atTerminator_of_awaited hawaited ts
    | some stack' =>
      have hkind : t.kind ≠ .eof := fun h => by
        rw [awaited.eq_def, if_pos h] at hawaited
        cases hawaited
      exact ih (hts.tail hkind) stack' _

theorem isSequence_skipBalanced (hts : IsSequence ts) (stack : List Text) (operand : Bool) :
    IsSequence (skipBalanced stack operand ts).2 :=
  hts.of_suffix (skipBalanced_suffix stack operand ts) (hts.ends.skipBalanced_ne_nil stack operand)

theorem isSequence_skipAsConst (hts : IsSequence ts) : IsSequence (skipAsConst ts) := by
  refine hts.of_suffix (skipAsConst_suffix ts) ?_
  rw [skipAsConst.eq_def]
  split
  · split
    · rename_i h
      have hone := hts.tail (kind_ne_eof_of_isIdent h.1)
      exact (hone.tail (kind_ne_eof_of_isIdent h.2)).ne_nil
    · exact List.cons_ne_nil _ _
  · exact hts.ne_nil

/-! ### What is read -/

/-- The expression is read at the beginning of the tokens `ts`, with `rest` behind it: it begins
with their first token, lies in the source and ends in front of `rest`. -/
structure Stands (source : Text) (ts : List Token) (n : Node) (rest : List Token) : Prop where
  /-- The expression begins with the first token. -/
  start_eq : n.span.start = startOf ts
  /-- It lies in the source. -/
  lies : n.LiesIn source
  /-- It ends in front of what is left. -/
  stop_le : n.span.stop ≤ startOf rest
  /-- What is left lies one behind the other. -/
  left : IsSequence rest

/-- The expression that is read, if there is one, stands at the beginning of the tokens `us`. -/
def StandsIfRead (source : Text) (us : List Token) :
    Except NumeralError (Parsed (Option Node) ts) → Prop
  | .ok p => ∀ n, p.value = some n → Stands source us n p.rest
  | .error _ => True

theorem Stands.some {n : Node} (h : Stands source us n rest) (hle : rest.length ≤ ts.length) :
    StandsIfRead source us (.ok (⟨some n, rest, hle⟩ : Parsed (Option Node) ts)) := by
  intro m hm
  rwa [← Option.some.inj hm]

theorem StandsIfRead.lift {x : Except NumeralError (Parsed (Option Node) ts)}
    (h : StandsIfRead source us x) {vs : List Token} (hle : ts.length ≤ vs.length) :
    StandsIfRead source us (x.map (Parsed.lift id hle)) := by
  cases x with
  | error e => trivial
  | ok p => exact h

/-- The list that is read, if there is one, lies in the source between two offsets, the second not
behind the tokens that are left; `inner` are the expressions in one of its elements. -/
def Rows {α : Type} (source : Text) (inner : α → List Node) (start : Nat) :
    Except NumeralError (Parsed (Option (List α × Nat)) ts) → Prop
  | .ok p => ∀ xs stop, p.value = some (xs, stop) →
    Node.InRow source start stop (xs.flatMap inner) ∧ stop ≤ startOf p.rest ∧ IsSequence p.rest
  | .error _ => True

section Rows

variable {α : Type} {inner : α → List Node} {start start' stop : Nat} {xs : List α}
  {x : Except NumeralError (Parsed (Option (List α × Nat)) ts)}

theorem rows_some (hxs : Node.InRow source start stop (xs.flatMap inner))
    (hstop : stop ≤ startOf rest) (hrest : IsSequence rest) (hle : rest.length ≤ ts.length) :
    Rows source inner start
      (.ok (⟨some (xs, stop), rest, hle⟩ : Parsed (Option (List α × Nat)) ts)) := by
  intro ys stop' heq
  obtain ⟨rfl, rfl⟩ := Prod.mk.inj (Option.some.inj heq)
  exact ⟨hxs, hstop, hrest⟩

/-- A list with elements put in front of it. -/
theorem Rows.append (h : Rows source inner start' x)
    (hxs : Node.InRow source start start' (xs.flatMap inner)) (hle : ts.length ≤ us.length) :
    Rows source inner start
      (x.map (Parsed.lift (Option.map fun (ys, stop) => (xs ++ ys, stop)) hle)) := by
  cases x with
  | error e => trivial
  | ok p =>
    intro zs stop hzs
    obtain ⟨⟨ys, _⟩, hys, heq⟩ := Option.map_eq_some_iff.1 hzs
    obtain ⟨rfl, rfl⟩ := Prod.mk.inj heq
    obtain ⟨hrow, hrest⟩ := h ys _ hys
    rw [List.flatMap_append]
    exact ⟨hxs.append hrow, hrest⟩

/-- A list that is read further behind. -/
theorem Rows.lift (h : Rows source inner start' x) (hstart : start ≤ start')
    (hle : ts.length ≤ us.length) : Rows source inner start (x.map (Parsed.lift id hle)) := by
  cases x with
  | error e => trivial
  | ok p =>
    intro xs stop hxs
    obtain ⟨hrow, hrest⟩ := h xs stop hxs
    exact ⟨hrow.from_le hstart, hrest⟩

/-- An expression that is made of a list lies in the source where the list does. -/
theorem Rows.node (h : Rows source inner start' x) (us : List Token)
    (make : List α → Nat → Node) (hspan : ∀ xs stop, (make xs stop).span = ⟨startOf us, stop⟩)
    (hinner : ∀ xs stop, (make xs stop).inner = xs.flatMap inner)
    (htext : ∀ xs stop span head segments text, make xs stop = .chain span head segments text →
      text = source.slice span.start span.stop)
    (hstart : startOf us ≤ start') {vs : List Token} (hle : ts.length ≤ vs.length) :
    StandsIfRead source us
      (x.map (Parsed.lift (Option.map fun (xs, stop) => make xs stop) hle)) := by
  cases x with
  | error e => trivial
  | ok p =>
    intro n hn
    obtain ⟨⟨xs, stop⟩, hxs, rfl⟩ := Option.map_eq_some_iff.1 hn
    obtain ⟨hrow, hstop, hrest⟩ := h xs stop hxs
    have hlies : (make xs stop).LiesIn source := by
      refine Node.liesIn_of_inRow ?_ (htext xs stop)
      rw [hspan, hinner]
      exact hrow.from_le hstart
    refine ⟨by rw [hspan], hlies, ?_, hrest⟩
    rw [hspan]
    exact hstop

end Rows

/-- What is kept verbatim stands at the beginning of the tokens. -/
theorem stands_readVerbatim (source : Text) (hts : IsSequence ts) :
    Stands source ts (readVerbatim source ts).value (readVerbatim source ts).rest := by
  have hrest := isSequence_skipBalanced hts [] true
  have hlast : IsSequence ((skipBalanced [] true ts).1 ++ (skipBalanced [] true ts).2) := by
    rwa [skipBalanced_append]
  obtain ⟨hstart, hstop⟩ := hlast.last_stop_le hrest.ne_nil
  rw [skipBalanced_append] at hstart hstop
  exact ⟨rfl, Node.liesIn_verbatim hstart _, hstop, hrest⟩

mutual

theorem stands_read (source : Text) {ts : List Token} (hts : IsSequence ts)
    {p : Parsed Node ts} (h : read source ts = .ok p) :
    Stands source ts p.value p.rest ∧ atTerminator p.rest = true := by
  have hverbatim : Stands source ts (readVerbatim source ts).value (readVerbatim source ts).rest ∧
      atTerminator (readVerbatim source ts).rest = true :=
    ⟨stands_readVerbatim source hts, atTerminator_skipBalanced hts [] true⟩
  have hprimary := stands_readPrimary source hts
  rw [read] at h
  split at h
  · cases h
  · rename_i q hq
    rw [hq] at hprimary
    split at h
    · cases h
      exact hverbatim
    · rename_i n hn
      split at h
      · -- the expression ends at a terminator, with `as const` in front of it or not
        rename_i hterminator
        cases h
        have hstands : Stands source ts n q.rest := hprimary n hn
        have hrest := isSequence_skipAsConst hstands.left
        have hle := hstands.left.startOf_le_startOf hrest (skipAsConst_suffix q.rest)
        exact ⟨⟨hstands.start_eq, hstands.lies, hstands.stop_le.trans hle, hrest⟩, hterminator⟩
      · cases h
        exact hverbatim
termination_by (ts.length, 2)

theorem stands_readPrimary (source : Text) {ts : List Token} (hts : IsSequence ts) :
    StandsIfRead source ts (readPrimary source ts) := by
  cases ts with
  | nil => exact absurd rfl hts.ne_nil
  | cons t rest =>
    have hliteral {kind : TokenKind} (hkind : t.kind = kind) (hne : kind ≠ .eof) (v : Value) :
        Stands source (t :: rest) (.literal ⟨t.start, t.stop⟩ v) rest :=
      ⟨rfl, Node.liesIn_literal hts.start_le_stop v, hts.stop_le (hkind ▸ hne),
        hts.tail (hkind ▸ hne)⟩
    -- a string, a template, a number, a mark, a name, or anything else
    rw [readPrimary.eq_def]
    dsimp only
    split
    · rename_i hkind
      exact (hliteral hkind nofun _).some _
    · rename_i hkind
      exact (hliteral hkind nofun _).some _
    · rename_i hkind
      split
      · trivial
      · exact (hliteral hkind nofun _).some _
    · rename_i hkind
      have hne : t.kind ≠ .eof := hkind ▸ nofun
      have hrest := hts.tail hne
      have hstop := hts.start_le_stop.trans (hts.stop_le hne)
      split
      · -- a sign, which belongs to the number behind it
        cases rest with
        | nil => nofun
        | cons num rest =>
          dsimp only
          split
          · rename_i hnum
            have hnum : num.kind ≠ .eof := hnum ▸ nofun
            split
            · trivial
            · have hlies (v : Value) : (Node.literal ⟨t.start, num.stop⟩ v).LiesIn source :=
                Node.liesIn_literal (hstop.trans hrest.start_le_stop) v
              exact Stands.some ⟨rfl, hlies _, hrest.stop_le hnum, hrest.tail hnum⟩ _
          · nofun
      · split
        · exact (rows_readItems source "]" true hrest).node
            (t :: rest) (fun ns stop => .array ⟨t.start, stop⟩ ns) (fun _ _ => rfl)
            (fun ns _ => (List.flatMap_singleton' ns).symm) nofun hstop _
        · split
          · exact (rows_readMembers source hrest).node
              (t :: rest) (fun ms stop => .object ⟨t.start, stop⟩ ms) (fun _ _ => rfl)
              (fun _ _ => rfl) nofun hstop _
          · nofun
    · rename_i hkind
      have hchain := stands_readChain source hts (hkind ▸ nofun)
      split
      · split
        · exact hchain.lift _
        · exact (hliteral hkind nofun _).some _
      · exact hchain.lift _
    · nofun
termination_by (ts.length, 1)
decreasing_by all_goals subst_vars; decreasing_tactic

theorem stands_readChain (source : Text) {head : Token} {ts : List Token}
    (hts : IsSequence (head :: ts)) (hhead : head.kind ≠ .eof) :
    StandsIfRead source (head :: ts) (readChain source head ts) := by
  rw [readChain]
  refine (rows_readSegments source (hts.tail hhead) (hts.stop_le hhead)).node
    (head :: ts) (fun segments stop =>
      .chain ⟨head.start, stop⟩ head.value segments (source.slice head.start stop))
    (fun _ _ => rfl) (fun _ _ => rfl) ?_ hts.start_le_stop _
  intro _ _ _ _ _ _ h
  cases h
  rfl
termination_by (ts.length, 4)

theorem rows_readSegments (source : Text) {stop : Nat} {ts : List Token} (hts : IsSequence ts)
    (hstop : stop ≤ startOf ts) :
    Rows source Segment.inner stop (readSegments source stop ts) := by
  have hnone : Rows source Segment.inner stop
      (.ok (⟨some ([], stop), ts, Nat.le_refl _⟩ : Parsed (Option (List Segment × Nat)) ts)) :=
    rows_some (.nil (Nat.le_refl stop)) hstop hts _
  cases ts with
  | nil => exact absurd rfl hts.ne_nil
  | cons t rest =>
    have hstart : stop ≤ t.stop := hstop.trans hts.start_le_stop
    -- an access, type arguments of a call, a call, or the end of the chain
    rw [readSegments.eq_def]
    dsimp only
    split
    · rename_i haccess
      obtain ⟨hdot, hident⟩ := Bool.and_eq_true_iff.1 haccess
      have hrest : IsSequence rest := hts.tail <| by
        rcases Bool.or_eq_true_iff.1 hdot with h | h <;> exact kind_ne_eof_of_isPunct h
      cases rest with
      | nil => exact absurd rfl hrest.ne_nil
      | cons name rest =>
        have hname : name.kind ≠ .eof := by
          rw [show name.kind = .ident by simpa [nextKind] using hident]
          nofun
        have hle : t.stop ≤ name.start := List.rel_of_pairwise_cons hts.ordered List.mem_cons_self
        have haccess : Node.InRow source stop name.stop
            ([Segment.access name.value].flatMap Segment.inner) :=
          .nil (hstart.trans (hle.trans hrest.start_le_stop))
        exact (rows_readSegments source (hrest.tail hname) (hrest.stop_le hname)).append haccess _
    · split
      · split
        · rename_i after h
          have := length_skipTypeArguments h
          have hsuffix := skipTypeArguments_suffix h
          have hafter := hts.of_suffix hsuffix (skipTypeArguments_ne_nil h)
          have hle := hts.startOf_le_startOf hafter hsuffix
          exact (rows_readSegments source hafter (hstop.trans hle)).lift (Nat.le_refl stop) _
        · exact hnone
      · split
        · rename_i hparen
          have hkind := kind_ne_eof_of_isPunct hparen
          have hitems := rows_readItems source ")" false (hts.tail hkind)
          split
          · trivial
          · rename_i p hp
            rw [hp] at hitems
            have := p.le
            split
            · nofun
            · rename_i arguments stop' hp'
              obtain ⟨hrow, hle, hrest⟩ := hitems arguments stop' hp'
              rw [List.flatMap_singleton'] at hrow
              have hcall : Node.InRow source stop stop'
                  ([Segment.call arguments].flatMap Segment.inner) := by
                rw [List.flatMap_singleton]
                exact hrow.from_le (hstart.trans (hts.stop_le hkind))
              exact (rows_readSegments source hrest hle).append hcall _
        · exact hnone
termination_by (ts.length, 3)
decreasing_by all_goals subst_vars; decreasing_tactic

theorem rows_readItems (source close : Text) (holes : Bool) {ts : List Token}
    (hts : IsSequence ts) :
    Rows source (fun n => [n]) (startOf ts) (readItems source close holes ts) := by
  cases ts with
  | nil => exact absurd rfl hts.ne_nil
  | cons t rest =>
    rw [readItems]
    split
    · rename_i hclose
      have hkind := kind_ne_eof_of_isPunct hclose
      exact rows_some (.nil hts.start_le_stop) (hts.stop_le hkind) (hts.tail hkind) _
    · split
      · nofun
      · rename_i hkind
        split
        · exact (rows_readItems source close holes (hts.tail hkind)).lift
            (hts.start_le_stop.trans (hts.stop_le hkind)) _
        · split
          · trivial
          · rename_i p hp
            obtain ⟨⟨hfirst, hlies, hstop, hleft⟩, -⟩ := stands_read source hts hp
            have hle := p.le
            split
            · nofun
            · rename_i u after hrest
              rw [hrest] at hstop hleft hle
              have hlength : after.length ≤ rest.length := Nat.le_of_lt_succ hle
              have hvalue {stop : Nat} (hle : u.start ≤ stop) :
                  Node.InRow source (startOf (t :: rest)) stop ([p.value].flatMap fun n => [n]) :=
                .cons hfirst.ge hlies (.nil (Nat.le_trans hstop hle))
              split
              · rename_i hcomma
                have hkind := kind_ne_eof_of_isPunct hcomma
                exact (rows_readItems source close holes (hleft.tail hkind)).append
                  (hvalue (hleft.start_le_stop.trans (hleft.stop_le hkind))) _
              · split
                · rename_i hclose
                  have hkind := kind_ne_eof_of_isPunct hclose
                  exact rows_some (hvalue hleft.start_le_stop) (hleft.stop_le hkind)
                    (hleft.tail hkind) _
                · nofun
termination_by (ts.length, 3)
decreasing_by all_goals subst_vars; decreasing_tactic

theorem rows_readMember (source : Text) {ts : List Token} (hts : IsSequence ts)
    {p : Parsed (Option Member) ts} (h : readMember source ts = .ok p) :
    Node.InRow source (startOf ts) (startOf p.rest) (p.value.toList.flatMap Member.inner) ∧
      IsSequence p.rest := by
  cases ts with
  | nil => exact absurd rfl hts.ne_nil
  | cons t rest =>
    -- no expression lies between the first token and the tokens `us` behind it
    have hnone {us : List Token} (hus : us <:+ t :: rest) (hsequence : IsSequence us) :
        Node.InRow source (startOf (t :: rest)) (startOf us) [] ∧ IsSequence us :=
      ⟨.nil (hts.startOf_le_startOf hsequence hus), hsequence⟩
    rw [readMember.eq_def] at h
    dsimp only at h
    split at h
    · rename_i hspread
      obtain ⟨q, hq, rfl⟩ := Except.map_eq_ok_iff.1 h
      have hrest := hts.tail (kind_ne_eof_of_isPunct hspread)
      have hwithin := within_read source rest
      rw [hq] at hwithin
      exact hnone (List.IsSuffix.trans hwithin (List.suffix_cons t rest))
        (stands_read source hrest hq).1.left
    · split at h
      · rename_i hkey
        have hkind : t.kind ≠ .eof := by
          rcases hkey with h | h | h <;> exact h ▸ nofun
        have hstop := hts.stop_le hkind
        have hrest := hts.tail hkind
        cases rest with
        | nil => exact absurd rfl hrest.ne_nil
        | cons u after =>
          dsimp only at h
          split at h
          · rename_i hcolon
            have hcolon := kind_ne_eof_of_isPunct hcolon
            obtain ⟨q, hq, rfl⟩ := Except.map_eq_ok_iff.1 h
            obtain ⟨⟨hfirst, hlies, hlast, hleft⟩, -⟩ := stands_read source (hrest.tail hcolon) hq
            have hbefore : t.start ≤ q.value.span.start :=
              calc t.start ≤ t.stop := hts.start_le_stop
                _ ≤ u.start := hstop
                _ ≤ u.stop := hrest.start_le_stop
                _ ≤ startOf after := hrest.stop_le hcolon
                _ = q.value.span.start := hfirst.symm
            exact ⟨.cons hbefore hlies (.nil hlast), hleft⟩
          · split at h
            · cases h
              have hlies : (Node.verbatim ⟨t.start, t.stop⟩ t.value).LiesIn source :=
                Node.liesIn_verbatim hts.start_le_stop t.value
              exact ⟨.cons (Nat.le_refl _) hlies (.nil hstop), hrest⟩
            · cases h
              exact hnone ((skipBalanced_suffix [] true _).trans (List.suffix_cons t _))
                (isSequence_skipBalanced hrest [] true)
      · cases h
        exact hnone (skipBalanced_suffix [] true _) (isSequence_skipBalanced hts [] true)
termination_by (ts.length, 3)
decreasing_by all_goals subst_vars; decreasing_tactic

theorem rows_readMembers (source : Text) {ts : List Token} (hts : IsSequence ts) :
    Rows source Member.inner (startOf ts) (readMembers source ts) := by
  cases ts with
  | nil => exact absurd rfl hts.ne_nil
  | cons t rest =>
    rw [readMembers]
    split
    · rename_i hclose
      have hkind := kind_ne_eof_of_isPunct hclose
      exact rows_some (.nil hts.start_le_stop) (hts.stop_le hkind) (hts.tail hkind) _
    · split
      · nofun
      · split
        · trivial
        · rename_i p hp
          obtain ⟨hrow, hleft⟩ := rows_readMember source hts hp
          have hle := p.le
          split
          · nofun
          · rename_i u after hrest
            rw [hrest] at hrow hleft hle
            have hlength : after.length ≤ rest.length := Nat.le_of_lt_succ hle
            split
            · rename_i hcomma
              have hkind := kind_ne_eof_of_isPunct hcomma
              exact (rows_readMembers source (hleft.tail hkind)).append
                (hrow.to_le (hleft.start_le_stop.trans (hleft.stop_le hkind))) _
            · split
              · rename_i hclose
                have hkind := kind_ne_eof_of_isPunct hclose
                exact rows_some (hrow.to_le hleft.start_le_stop) (hleft.stop_le hkind)
                  (hleft.tail hkind) _
              · nofun
termination_by (ts.length, 4)
decreasing_by all_goals subst_vars; decreasing_tactic

end

/-! ### Reading at any token -/

/-- The token ends an expression: a comma, a semicolon, a closing bracket or the end. -/
def EndsExpression (t : Token) : Prop :=
  t.kind = .eof ∨ t.kind = .punct ∧ t.value ∈ ([",", ";", ")", "]", "\x7d"] : List Text)

theorem endsExpression_of_atTerminator (h : atTerminator (t :: ts) = true) : EndsExpression t := by
  rw [atTerminator, Bool.or_eq_true, decide_eq_true_eq] at h
  refine h.imp_right fun h => ?_
  simpa [isCloser, or_assoc] using h

/-- Reading at any token of a source ends.  It fails only at a number literal that is refused;
otherwise it ends at a terminator, the token itself or one behind it, and what is read begins where
the token does, ends in front of the terminator and lies in the source. -/
theorem read_stands {source : Text} {tokens : List Token} (h : tokenize source = .ok tokens)
    {i : Nat} (hi : i < tokens.length) :
    (∃ p, read source (tokens.drop i) = .ok p ∧
      ∃ j, ∃ hj : j < tokens.length, i ≤ j ∧ p.rest = tokens.drop j ∧ EndsExpression tokens[j] ∧
        p.value.span.start = tokens[i].start ∧ p.value.span.start ≤ p.value.span.stop ∧
        p.value.span.stop ≤ tokens[j].start ∧ p.value.LiesIn source) ∨
      ∃ e, read source (tokens.drop i) = .error e ∧ RefusesNumber (tokens.drop i) e := by
  have hfirst : startOf (tokens.drop i) = tokens[i].start := by
    rw [List.drop_eq_getElem_cons hi]
    rfl
  have hts : IsSequence (tokens.drop i) :=
    (isSequence_of_tokenize h).of_suffix (List.drop_suffix i tokens)
      (List.drop_eq_nil_iff.not.2 (Nat.not_le_of_lt hi))
  have hwithin := within_read source (tokens.drop i)
  cases hread : read source (tokens.drop i) with
  | error e =>
    rw [hread] at hwithin
    exact .inr ⟨e, rfl, hwithin⟩
  | ok p =>
    obtain ⟨⟨hstart, hlies, hstop, hleft⟩, hterminator⟩ := stands_read source hts hread
    rw [hread] at hwithin
    obtain ⟨passed, hpassed⟩ : p.rest <:+ tokens.drop i := hwithin
    have hrest : p.rest = tokens.drop (i + passed.length) :=
      calc p.rest = (passed ++ p.rest).drop passed.length := List.drop_left.symm
        _ = tokens.drop (i + passed.length) := by rw [hpassed, List.drop_drop]
    have hj : i + passed.length < tokens.length := by
      by_contra hge
      rw [List.drop_eq_nil_of_le (Nat.le_of_not_lt hge)] at hrest
      exact hleft.ne_nil hrest
    rw [hrest, List.drop_eq_getElem_cons hj] at hstop hterminator
    exact .inl ⟨p, rfl, i + passed.length, hj, Nat.le_add_right _ _, hrest,
      endsExpression_of_atTerminator hterminator, hstart.trans hfirst, hlies.le, hstop, hlies⟩

/-- The argument of a call, a list with a call in it, is read at its bracket. -/
theorem read_stands_argument :
    let source : Text := "f([g(a), -1])"
    ∃ (tokens : List Token) (p : Parsed Node (tokens.drop 2)), tokenize source = .ok tokens ∧
      read source (tokens.drop 2) = .ok p ∧
      p.value = .array ⟨2, 12⟩ [.chain ⟨3, 7⟩ "g" [.call [.chain ⟨5, 6⟩ "a" [] "a"]] "g(a)",
        .literal ⟨9, 11⟩ (.number (.integer (-1)))] ∧
      ∃ (h : 2 < tokens.length) (j : Nat) (hj : j < tokens.length), 2 ≤ j ∧
        p.rest = tokens.drop j ∧ EndsExpression tokens[j] ∧
        p.value.span.start = tokens[2].start ∧ p.value.span.start ≤ p.value.span.stop ∧
        p.value.span.stop ≤ tokens[j].start ∧ p.value.LiesIn source := by
  intro source
  let behind : List Token := [⟨.punct, "[", 2, 3⟩, ⟨.ident, "g", 3, 4⟩, ⟨.punct, "(", 4, 5⟩,
    ⟨.ident, "a", 5, 6⟩, ⟨.punct, ")", 6, 7⟩, ⟨.punct, ",", 7, 8⟩, ⟨.punct, "-", 9, 10⟩,
    ⟨.number, "1", 10, 11⟩, ⟨.punct, "]", 11, 12⟩, ⟨.punct, ")", 12, 13⟩, Token.endOf 13]
  let tokens : List Token := ⟨.ident, "f", 0, 1⟩ :: ⟨.punct, "(", 1, 2⟩ :: behind
  have h : tokenize source = .ok tokens := Except.eq_ok_of_toOption (by decide +kernel)
  have hvalue : (read source (tokens.drop 2)).map (·.value) =
      .ok (.array ⟨2, 12⟩ [.chain ⟨3, 7⟩ "g" [.call [.chain ⟨5, 6⟩ "a" [] "a"]] "g(a)",
        .literal ⟨9, 11⟩ (.number (.integer (-1)))]) := by
    have hone : Numeral.read "1" = .ok (.integer 1) := Except.eq_ok_of_toOption (by decide +kernel)
    have ha : source.slice 5 6 = "a" := rfl
    have hg : source.slice 3 7 = "g(a)" := rfl
    change (read source behind).map _ = _
    generalize source = source at ha hg
    simp +decide [behind, hone, ha, hg, read, readPrimary, readItems, readChain, readSegments,
      Parsed.lift, Except.map, skipAsConst, literalName?, Number.neg]
  rcases read_stands h (by decide : 2 < tokens.length) with ⟨p, hread, hstands⟩ | ⟨e, hread, -⟩
  · rw [hread] at hvalue
    exact ⟨tokens, p, h, hread, Except.ok.inj hvalue, by decide, hstands⟩
  · rw [hread] at hvalue
    cases hvalue

end Expr

end Scaffold
