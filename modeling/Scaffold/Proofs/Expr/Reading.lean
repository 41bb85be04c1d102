import Scaffold.Expr.Reader
import Scaffold.Proofs.Value.Lexemes

/-!
# Reading plain data

Tokens with the lexemes of plain data are read as an expression that is this data
(`Value.readsAs_lexemes`), whatever their spans and whatever stands behind the token that ends the
expression.

How parts with commas between them are read does not depend on what the parts are:
`finds_readItems` and `finds_readMembers` are about any parts that can be read.
-/

namespace Scaffold

/-! ### What a reader finds -/

/-- The reader finds something that satisfies `P`, and leaves `rest`. -/
def Finds {α : Type} {ts : List Token} (x : Except NumeralError (Parsed α ts)) (P : α → Prop)
    (rest : List Token) : Prop :=
  ∃ p, x = .ok p ∧ P p.value ∧ p.rest = rest

theorem Finds.lift {α β : Type} {ts us : List Token} {x : Except NumeralError (Parsed α ts)}
    {P : α → Prop} {Q : β → Prop} {rest : List Token} {f : α → β} (h : Finds x P rest)
    (hle : ts.length ≤ us.length) (hf : ∀ a, P a → Q (f a)) :
    Finds (x.map (Parsed.lift f hle)) Q rest := by
  obtain ⟨p, rfl, hp, rfl⟩ := h
  exact ⟨p.lift f hle, rfl, hf _ hp, rfl⟩

theorem Finds.mono {α : Type} {ts : List Token} {x : Except NumeralError (Parsed α ts)}
    {P Q : α → Prop} {rest : List Token} (h : Finds x P rest) (hq : ∀ a, P a → Q a) :
    Finds x Q rest := by
  obtain ⟨p, hx, hp, hrest⟩ := h
  exact ⟨p, hx, hq _ hp, hrest⟩

/-- The option holds something that satisfies `P`. -/
def Holds {α : Type} (P : α → Prop) (o : Option α) : Prop := ∃ a, o = some a ∧ P a

theorem Holds.mono {α : Type} {P Q : α → Prop} {o : Option α} (h : Holds P o)
    (hq : ∀ a, P a → Q a) : Holds Q o := by
  obtain ⟨a, rfl, ha⟩ := h
  exact ⟨a, rfl, hq a ha⟩

namespace Expr

variable {source close : Text} {P : Node → Prop} {t u : Token} {ts us rest : List Token}

/-- The lexeme ends an expression: it is a comma, a semicolon, a closing bracket or the end of the
source. -/
def Stops (l : Lexeme) : Prop :=
  l.1 = .eof ∨ l.1 = .punct ∧ (l.2 = "," ∨ l.2 = ";" ∨ isCloser l.2 = true)

/-- The lexeme begins an expression: it ends none. -/
def Begins (l : Lexeme) : Prop := ¬ Stops l

instance (l : Lexeme) : Decidable (Stops l) :=
  inferInstanceAs
    (Decidable (l.1 = .eof ∨ l.1 = .punct ∧ (l.2 = "," ∨ l.2 = ";" ∨ isCloser l.2 = true)))

instance (l : Lexeme) : Decidable (Begins l) := inferInstanceAs (Decidable (¬ Stops l))

theorem isPunct_iff {mark : Text} : t.isPunct mark = true ↔ t.lexeme = (.punct, mark) := by
  simp [Token.isPunct, Token.lexeme]

theorem isIdent_iff {name : Text} : t.isIdent name = true ↔ t.lexeme = (.ident, name) := by
  simp [Token.isIdent, Token.lexeme]

theorem isPunct_eq_true {mark : Text} :
    t.isPunct mark = true ↔ t.kind = .punct ∧ t.value = mark := by
  simp [Token.isPunct]

theorem isIdent_eq_true {name : Text} :
    t.isIdent name = true ↔ t.kind = .ident ∧ t.value = name := by
  simp [Token.isIdent]

theorem stops_comma (h : t.isPunct "," = true) : Stops t.lexeme := by
  rw [isPunct_iff.1 h]
  exact .inr ⟨rfl, .inl rfl⟩

theorem stops_closer (hclose : isCloser close = true) (h : t.isPunct close = true) :
    Stops t.lexeme := by
  rw [isPunct_iff.1 h]
  exact .inr ⟨rfl, .inr (.inr hclose)⟩

theorem not_nextIs {mark : Text} (ht : Stops t.lexeme) (hm : ¬ Stops (.punct, mark)) :
    nextIs (t :: rest) mark = false := by
  refine Bool.eq_false_iff.2 fun h => hm ?_
  have hp : t.isPunct mark = true := h
  rw [← isPunct_iff.1 hp]
  exact ht

theorem begins_of_ne_punct {l : Lexeme} (hp : l.1 ≠ .punct) (he : l.1 ≠ .eof) : Begins l :=
  fun h => h.elim he fun h => hp h.1

theorem Begins.kind_ne (h : Begins t.lexeme) : t.kind ≠ .eof := fun he => h (.inl he)

theorem Begins.not_isPunct {mark : Text} (h : Begins t.lexeme)
    (hm : mark = "," ∨ isCloser mark = true) : t.isPunct mark = false := by
  refine Bool.eq_false_iff.2 fun hp => h ?_
  rw [isPunct_iff.1 hp]
  exact .inr ⟨rfl, hm.imp_right .inr⟩

theorem atTerminator_iff : atTerminator (t :: rest) = true ↔ Stops t.lexeme := by
  simp [atTerminator, Stops, Token.lexeme, or_assoc]

/-- The first token is its lexeme and a span. -/
theorem exists_of_map_cons {l : Lexeme} {ls : List Lexeme} (h : ts.map Token.lexeme = l :: ls) :
    ∃ start stop us, ts = ⟨l.1, l.2, start, stop⟩ :: us ∧ us.map Token.lexeme = ls := by
  obtain ⟨⟨_, _, start, stop⟩, us, rfl, rfl, hus⟩ := List.map_eq_cons_iff.1 h
  exact ⟨start, stop, us, rfl, hus⟩

theorem exists_of_map_bracketed {opener closer : Text} {ls : List Lexeme}
    (h : ts.map Token.lexeme = bracketed opener closer ls) :
    ∃ start stop us t, ts = ⟨.punct, opener, start, stop⟩ :: (us ++ [t]) ∧
      us.map Token.lexeme = ls ∧ t.isPunct closer = true := by
  obtain ⟨start, stop, us, rfl, hus⟩ := exists_of_map_cons h
  obtain ⟨us, vs, rfl, hls, hvs⟩ := List.map_eq_append_iff.1 hus
  obtain ⟨t, _, rfl, ht, hnil⟩ := List.map_eq_cons_iff.1 hvs
  obtain rfl := List.map_eq_nil_iff.1 hnil
  exact ⟨start, stop, us, t, rfl, hls, isPunct_iff.2 ht⟩

theorem skipAsConst_of_stops (ht : Stops t.lexeme) (rest : List Token) :
    skipAsConst (t :: rest) = t :: rest := by
  have has : t.isIdent "as" = false := by
    have hkind : t.kind ≠ .ident := fun hk => by
      simp [Stops, Token.lexeme, hk] at ht
    simp [Token.isIdent, hkind]
  cases rest with
  | nil => rfl
  | cons c rest => rw [skipAsConst, if_neg (by simp [has])]

/-- A literal or a chain that ends where an expression does is the expression. -/
theorem finds_read (h : Finds (readPrimary source ts) (Holds P) (t :: rest))
    (ht : Stops t.lexeme) : Finds (read source ts) P (t :: rest) := by
  obtain ⟨⟨_, _, hle⟩, hp, ⟨node, rfl, hnode⟩, rfl⟩ := h
  have hskip : skipAsConst (t :: rest) = t :: rest := skipAsConst_of_stops ht rest
  have hend : atTerminator (t :: rest) = true := atTerminator_iff.2 ht
  refine ⟨⟨node, t :: rest, hle⟩, ?_, hnode, rfl⟩
  rw [read, hp]
  simp only [hskip, hend, if_true]

/-- Tokens with the lexemes `ls` are read as an expression that satisfies `P`, before what ends
one. -/
structure ReadsAs (source : Text) (ls : List Lexeme) (P : Node → Prop) : Prop where
  /-- The lexemes begin an expression. -/
  begins : Holds Begins ls.head?
  /-- They are read up to the end of the expression. -/
  reads : ∀ (ts : List Token) (t : Token) (rest : List Token), ts.map Token.lexeme = ls →
    Stops t.lexeme → Finds (read source (ts ++ t :: rest)) P (t :: rest)

theorem ReadsAs.mono {ls : List Lexeme} {Q : Node → Prop} (h : ReadsAs source ls P)
    (hq : ∀ n, P n → Q n) : ReadsAs source ls Q :=
  ⟨h.begins, fun ts t rest hts ht => (h.reads ts t rest hts ht).mono hq⟩

/-- What is read as a literal or a chain is read as an expression. -/
theorem ReadsAs.of_readPrimary {l : Lexeme} {ls : List Lexeme} (hl : Begins l)
    (h : ∀ (ts : List Token) (t : Token) (rest : List Token), ts.map Token.lexeme = l :: ls →
      Stops t.lexeme → Finds (readPrimary source (ts ++ t :: rest)) (Holds P) (t :: rest)) :
    ReadsAs source (l :: ls) P :=
  ⟨⟨l, rfl, hl⟩, fun ts t rest hts ht => finds_read (h ts t rest hts ht) ht⟩

theorem ReadsAs.of_singleton {l : Lexeme} (hl : Begins l)
    (h : ∀ (start stop : Nat) (t : Token) (rest : List Token), Stops t.lexeme →
      Finds (readPrimary source (⟨l.1, l.2, start, stop⟩ :: t :: rest)) (Holds P) (t :: rest)) :
    ReadsAs source [l] P :=
  .of_readPrimary hl fun ts t rest hts ht => by
    obtain ⟨start, stop, us, rfl, hus⟩ := exists_of_map_cons hts
    obtain rfl := List.map_eq_nil_iff.1 hus
    exact h start stop t rest ht

/-! ### Items -/

/-- The last item, before the closing bracket. -/
theorem finds_readItems_last {holes : Bool} (hu : Begins u.lexeme) (hclose : isCloser close = true)
    (h : Finds (read source (u :: us)) P (t :: rest)) (ht : t.isPunct close = true) :
    Finds (readItems source close holes (u :: us))
      (Holds fun r => ∃ n, P n ∧ r.1 = [n]) rest := by
  obtain ⟨⟨n, _, hle⟩, hp, hn, rfl⟩ := h
  have hcomma : t.isPunct "," = false := by
    refine Bool.eq_false_iff.2 fun hc => ?_
    rw [isPunct_iff, isPunct_iff.1 hc, Prod.mk.injEq] at ht
    rw [← ht.2] at hclose
    exact absurd hclose (by decide)
  rw [readItems, if_neg (by simp [hu.not_isPunct (.inr hclose)]), if_neg hu.kind_ne,
    if_neg (by simp [hu.not_isPunct (.inl rfl)]), hp]
  refine ⟨⟨some ([n], t.stop), rest, ?_⟩, ?_, ⟨_, rfl, n, hn, rfl⟩, rfl⟩
  · exact Nat.le_of_succ_le hle
  · simp only [hcomma, ht, if_true, Bool.false_eq_true, if_false]

/-- An item before a comma, and the items behind it. -/
theorem finds_readItems_cons {holes : Bool} {Q : List Node → Prop} {more : List Token}
    (hu : Begins u.lexeme) (hclose : isCloser close = true)
    (h : Finds (read source (u :: us)) P (t :: more)) (ht : t.isPunct "," = true)
    (hmore : Finds (readItems source close holes more) (Holds fun r => Q r.1) rest) :
    Finds (readItems source close holes (u :: us))
      (Holds fun r => ∃ n ns, P n ∧ Q ns ∧ r.1 = n :: ns) rest := by
  obtain ⟨⟨n, _, hle⟩, hp, hn, rfl⟩ := h
  rw [readItems, if_neg (by simp [hu.not_isPunct (.inr hclose)]), if_neg hu.kind_ne,
    if_neg (by simp [hu.not_isPunct (.inl rfl)]), hp]
  simp only [ht, if_true]
  refine hmore.lift _ ?_
  rintro _ ⟨r, rfl, hr⟩
  exact ⟨_, rfl, n, r.1, hn, hr, rfl⟩

/-- Tokens of several parts with commas between them are those of the first part and of the others,
or of the only part. -/
theorem exists_of_map_separated {ls : List Lexeme} {lss : List (List Lexeme)}
    (h : ts.map Token.lexeme = separated (ls :: lss)) :
    ∃ us vs, us.map Token.lexeme = ls ∧ ts = us ++ vs ∧ (lss = [] ∧ vs = [] ∨
      lss ≠ [] ∧ ∃ t ws, vs = t :: ws ∧ t.isPunct "," = true ∧
        ws.map Token.lexeme = separated lss) := by
  cases lss with
  | nil => exact ⟨ts, [], h, (List.append_nil ts).symm, .inl ⟨rfl, rfl⟩⟩
  | cons ms lss =>
    rw [separated] at h
    obtain ⟨us, vs, rfl, hus, hvs⟩ := List.map_eq_append_iff.1 h
    obtain ⟨t, ws, rfl, ht, hws⟩ := List.map_eq_cons_iff.1 hvs
    exact ⟨us, t :: ws, hus, rfl, .inr ⟨by simp, t, ws, rfl, isPunct_iff.2 ht, hws⟩⟩

theorem ReadsAs.exists_cons {ls : List Lexeme} (h : ReadsAs source ls P)
    (hts : ts.map Token.lexeme = ls) : ∃ u us, ts = u :: us ∧ Begins u.lexeme := by
  obtain ⟨l, hl, hbegins⟩ := h.begins
  cases ts with
  | nil =>
    rw [← hts] at hl
    cases hl
  | cons u us =>
    rw [← hts, List.map_cons, List.head?_cons, Option.some.injEq] at hl
    exact ⟨u, us, rfl, hl ▸ hbegins⟩

/-- **Parts with commas between them are read one by one**, up to the closing bracket. -/
theorem finds_readItems {α : Type} {lex : α → List Lexeme} {R : α → Node → Prop} {parts : List α}
    {holes : Bool} (hclose : isCloser close = true)
    (h : ∀ a ∈ parts, ReadsAs source (lex a) (R a))
    (hts : ts.map Token.lexeme = separated (parts.map lex)) (ht : t.isPunct close = true) :
    Finds (readItems source close holes (ts ++ t :: rest))
      (Holds fun r => List.Forall₂ R parts r.1) rest := by
  induction parts generalizing ts with
  | nil =>
    obtain rfl := List.map_eq_nil_iff.1 hts
    rw [List.nil_append]
    refine ⟨⟨some ([], t.stop), rest, Nat.le_succ _⟩, ?_, ⟨_, rfl, .nil⟩, rfl⟩
    rw [readItems, if_pos ht]
  | cons a parts ih =>
    rw [List.forall_mem_cons] at h
    obtain ⟨us, vs, hus, rfl, hvs⟩ := exists_of_map_separated hts
    obtain ⟨u, us, rfl, hu⟩ := h.1.exists_cons hus
    rcases hvs with ⟨hnil, rfl⟩ | ⟨-, c, ws, rfl, hc, hws⟩
    · obtain rfl := List.map_eq_nil_iff.1 hnil
      have hread := h.1.reads _ t rest hus (stops_closer hclose ht)
      rw [List.append_nil]
      refine (finds_readItems_last hu hclose hread ht).mono fun _ h => h.mono ?_
      rintro r ⟨n, hn, hr⟩
      rw [hr]
      exact .cons hn .nil
    · have hread := h.1.reads _ c (ws ++ t :: rest) hus (stops_comma hc)
      rw [List.append_assoc, List.cons_append]
      refine (finds_readItems_cons hu hclose hread hc (ih h.2 hws)).mono fun _ h => h.mono ?_
      rintro r ⟨n, ns, hn, hns, hr⟩
      rw [hr]
      exact .cons hn hns

/-! ### Members -/

/-- The member is a property with the key of the part, and its value is as the part wants it. -/
inductive IsProperty {α : Type} (R : α → Node → Prop) : Text × α → Member → Prop
  | property {k : Text} {a : α} {n : Node} (h : R a n) : IsProperty R (k, a) (.property k n)

/-- A key, and behind the colon an expression. -/
theorem finds_readMember {key : Text} {c : Token} (hu : u.lexeme = (.ident, key))
    (hc : c.isPunct ":" = true) (h : Finds (read source us) P rest) :
    Finds (readMember source (u :: c :: us)) (Holds fun m => ∃ n, P n ∧ m = .property key n)
      rest := by
  have hkind : u.kind = .ident := congrArg Prod.fst hu
  have hvalue : u.value = key := congrArg Prod.snd hu
  have hspread : u.isPunct "..." = false := by simp [Token.isPunct, hkind]
  rw [readMember, if_neg (by simp [hspread]), if_pos (.inl hkind)]
  simp only [hc, if_true]
  exact h.lift _ fun n hn => ⟨_, rfl, n, hn, by rw [hvalue]⟩

/-- The last member, before the closing brace. -/
theorem finds_readMembers_last {Q : Member → Prop} (hu : u.kind = .ident)
    (h : Finds (readMember source (u :: us)) (Holds Q) (t :: rest)) (ht : t.isPunct "\x7d" = true) :
    Finds (readMembers source (u :: us)) (Holds fun r => ∃ m, Q m ∧ r.1 = [m]) rest := by
  obtain ⟨⟨_, _, hle⟩, hp, ⟨m, rfl, hm⟩, rfl⟩ := h
  have hcomma : t.isPunct "," = false := by
    refine Bool.eq_false_iff.2 fun hc => ?_
    rw [isPunct_iff, isPunct_iff.1 hc, Prod.mk.injEq] at ht
    exact absurd ht.2 (by decide)
  rw [readMembers, if_neg (by simp [Token.isPunct, hu]), if_neg (by simp [hu]), hp]
  refine ⟨⟨some ([m], t.stop), rest, ?_⟩, ?_, ⟨_, rfl, m, hm, rfl⟩, rfl⟩
  · exact Nat.le_of_succ_le hle
  · simp only [hcomma, ht, if_true, Bool.false_eq_true, if_false, Option.toList]

/-- A member before a comma, and the members behind it. -/
theorem finds_readMembers_cons {Q : Member → Prop} {Q' : List Member → Prop} {more : List Token}
    (hu : u.kind = .ident) (h : Finds (readMember source (u :: us)) (Holds Q) (t :: more))
    (ht : t.isPunct "," = true)
    (hmore : Finds (readMembers source more) (Holds fun r => Q' r.1) rest) :
    Finds (readMembers source (u :: us))
      (Holds fun r => ∃ m ms, Q m ∧ Q' ms ∧ r.1 = m :: ms) rest := by
  obtain ⟨⟨_, _, hle⟩, hp, ⟨m, rfl, hm⟩, rfl⟩ := h
  rw [readMembers, if_neg (by simp [Token.isPunct, hu]), if_neg (by simp [hu]), hp]
  simp only [ht, if_true]
  refine hmore.lift _ ?_
  rintro _ ⟨r, rfl, hr⟩
  exact ⟨_, rfl, m, r.1, hm, hr, rfl⟩

/-- **Members with commas between them are read one by one**, up to the closing brace. -/
theorem finds_readMembers {α : Type} {lex : α → List Lexeme} {R : α → Node → Prop}
    {parts : List (Text × α)} (h : ∀ e ∈ parts, ReadsAs source (lex e.2) (R e.2))
    (hts : ts.map Token.lexeme = separated (parts.map fun e => keyed e.1 (lex e.2)))
    (ht : t.isPunct "\x7d" = true) :
    Finds (readMembers source (ts ++ t :: rest))
      (Holds fun r => List.Forall₂ (IsProperty R) parts r.1) rest := by
  induction parts generalizing ts with
  | nil =>
    obtain rfl := List.map_eq_nil_iff.1 hts
    rw [List.nil_append]
    refine ⟨⟨some ([], t.stop), rest, Nat.le_succ _⟩, ?_, ⟨_, rfl, .nil⟩, rfl⟩
    rw [readMembers, if_pos ht]
  | cons e parts ih =>
    obtain ⟨k, a⟩ := e
    rw [List.forall_mem_cons] at h
    obtain ⟨us, vs, hus, rfl, hvs⟩ := exists_of_map_separated hts
    obtain ⟨u, us, rfl, hu, hus⟩ := List.map_eq_cons_iff.1 hus
    obtain ⟨d, us, rfl, hd, hus⟩ := List.map_eq_cons_iff.1 hus
    have hkind : u.kind = .ident := congrArg Prod.fst hu
    rcases hvs with ⟨hnil, rfl⟩ | ⟨-, c, ws, rfl, hc, hws⟩
    · obtain rfl := List.map_eq_nil_iff.1 hnil
      have hread := h.1.reads us t rest hus (stops_closer (by decide) ht)
      have hmember := finds_readMember hu (isPunct_iff.2 hd) hread
      rw [List.append_nil]
      refine (finds_readMembers_last hkind hmember ht).mono fun _ h => h.mono ?_
      rintro r ⟨_, ⟨n, hn, rfl⟩, hr⟩
      rw [hr]
      exact .cons (.property hn) .nil
    · have hread := h.1.reads us c (ws ++ t :: rest) hus (stops_comma hc)
      have hmember := finds_readMember hu (isPunct_iff.2 hd) hread
      rw [List.append_assoc, List.cons_append]
      refine (finds_readMembers_cons hkind hmember hc (ih h.2 hws)).mono fun _ h => h.mono ?_
      rintro r ⟨_, ms, ⟨n, hn, rfl⟩, hms, hr⟩
      rw [hr]
      exact .cons (.property hn) hms

end Expr

/-! ### Data -/

namespace Members

theorem set_of_notMem {m : Members} {key : Text} (h : key ∉ m.keys) (v : Value) :
    m.set key v = m ++ [(key, v)] := by
  induction m with
  | nil => rfl
  | cons e m ih =>
    obtain ⟨k, w⟩ := e
    rw [keys, List.map_cons, List.mem_cons, not_or] at h
    rw [set, if_neg (Ne.symm h.1), ih h.2, List.cons_append]

theorem foldl_set_of_nodup {m acc : Members} (h : (acc ++ m).keys.Nodup) :
    m.foldl (fun m (k, v) => m.set k v) acc = acc ++ m := by
  induction m generalizing acc with
  | nil => exact (List.append_nil acc).symm
  | cons e m ih =>
    obtain ⟨k, v⟩ := e
    have hk : k ∉ acc.keys := by
      rw [keys, List.map_append, List.nodup_append] at h
      exact fun hk => h.2.2 k hk k List.mem_cons_self rfl
    have hset : acc.set k v = acc ++ [(k, v)] := set_of_notMem hk v
    change m.foldl _ (acc.set k v) = _
    rw [hset, ih (by rwa [List.append_assoc]), List.append_assoc]
    rfl

/-- Members with different keys stay as they are. -/
theorem ofList_of_nodup {m : Members} (h : m.keys.Nodup) : ofList m = m :=
  foldl_set_of_nodup h

end Members

namespace Value

/-- The expression is the data. -/
inductive ReadAs : Value → Node → Prop
  | null {s : Span} : ReadAs null (.literal s null)
  | bool {s : Span} {b : Bool} : ReadAs (bool b) (.literal s (bool b))
  | number {s : Span} {n : Number} : ReadAs (number n) (.literal s (number n))
  | text {s : Span} {t : Text} : ReadAs (text t) (.literal s (text t))
  | list {s : Span} {vs : List Value} {ns : List Node} (h : List.Forall₂ ReadAs vs ns) :
    ReadAs (list vs) (.array s ns)
  | object {s : Span} {m : List (Text × Value)} {ms : List Member}
    (h : List.Forall₂ (Expr.IsProperty ReadAs) m ms) : ReadAs (object m) (.object s ms)

/-! ### Reading data -/

section Reading

variable {source : Text}

open Scaffold.Expr

theorem readsAs_name {w : Text} {v : Value} (hw : literalName? w = some v) :
    ReadsAs source [(.ident, w)] fun n => ∃ s, n = .literal s v := by
  refine .of_singleton (begins_of_ne_punct nofun nofun) fun start stop t rest ht => ?_
  have hpoint : nextIs (t :: rest) "." = false := not_nextIs ht (by decide)
  have hparen : nextIs (t :: rest) "(" = false := not_nextIs ht (by decide)
  refine ⟨⟨some (.literal ⟨start, stop⟩ v), t :: rest, Nat.le_succ _⟩, ?_, ⟨_, rfl, _, rfl⟩, rfl⟩
  rw [readPrimary]
  simp only [hw, hpoint, hparen, Bool.or_self, Bool.false_eq_true, if_false]

theorem readsAs_text (v : Text) : ReadsAs source [(.string, v)] (text v).ReadAs := by
  refine .of_singleton (begins_of_ne_punct nofun nofun) fun start stop t rest _ => ?_
  refine ⟨⟨some (.literal ⟨start, stop⟩ (.text v)), t :: rest, Nat.le_succ _⟩, ?_,
    ⟨_, rfl, .text⟩, rfl⟩
  rw [readPrimary]

theorem readsAs_ofNat {n : Nat} (hn : (Text.ofNat n).length ≤ Numeral.maxDigits) :
    ReadsAs source [(.number, Text.ofNat n)] (number (.integer n)).ReadAs := by
  refine .of_singleton (begins_of_ne_punct nofun nofun) fun start stop t rest _ => ?_
  refine ⟨⟨some (.literal ⟨start, stop⟩ (.number (.integer n))), t :: rest, Nat.le_succ _⟩, ?_,
    ⟨_, rfl, .number⟩, rfl⟩
  rw [readPrimary]
  simp only [Numeral.read_ofNat hn]

theorem readsAs_negSucc {n : Nat} (hn : (Text.ofNat (n + 1)).length ≤ Numeral.maxDigits) :
    ReadsAs source [(.punct, "-"), (.number, Text.ofNat (n + 1))]
      (number (.integer (.negSucc n))).ReadAs := by
  refine .of_readPrimary (by decide) fun ts t rest hts _ => ?_
  obtain ⟨start, stop, us, rfl, hus⟩ := exists_of_map_cons hts
  obtain ⟨start', stop', us, rfl, hnil⟩ := exists_of_map_cons hus
  obtain rfl := List.map_eq_nil_iff.1 hnil
  refine ⟨⟨some (.literal ⟨start, stop'⟩ (.number (.integer (.negSucc n)))), t :: rest, ?_⟩, ?_,
    ⟨_, rfl, .number⟩, rfl⟩
  · exact Nat.le_trans (Nat.le_succ _) (Nat.le_succ _)
  · simp only [List.cons_append, List.nil_append]
    rw [readPrimary]
    simp only [Numeral.read_ofNat hn, if_true]
    rfl

theorem readsAs_list {vs : List Value} (h : ∀ v ∈ vs, ReadsAs source v.lexemes v.ReadAs) :
    ReadsAs source (list vs).lexemes (list vs).ReadAs := by
  rw [lexemes, itemLexemes_eq]
  refine .of_readPrimary (by decide) fun ts t rest hts _ => ?_
  obtain ⟨start, stop, us, c, rfl, hus, hc⟩ := exists_of_map_bracketed hts
  have hitems : Finds (readItems source "]" true (us ++ c :: t :: rest))
      (Holds fun r => List.Forall₂ ReadAs vs r.1) (t :: rest) :=
    finds_readItems (by decide) h hus hc
  rw [List.cons_append, List.append_assoc, List.singleton_append, readPrimary.eq_def]
  simp only [if_true]
  rw [if_neg (by decide)]
  refine hitems.lift _ ?_
  rintro _ ⟨⟨ns, stop⟩, rfl, hns⟩
  exact ⟨_, rfl, .list hns⟩

/-- An object literal is read member by member. -/
theorem readsAs_properties {α : Type} {lex : α → List Lexeme} {R : α → Node → Prop}
    {parts : List (Text × α)} (h : ∀ e ∈ parts, ReadsAs source (lex e.2) (R e.2)) :
    ReadsAs source
      (bracketed "\x7b" "\x7d" (separated (parts.map fun e => keyed e.1 (lex e.2))))
      fun n => ∃ s ms, n = .object s ms ∧ List.Forall₂ (IsProperty R) parts ms := by
  refine .of_readPrimary (by decide) fun ts t rest hts _ => ?_
  obtain ⟨start, stop, us, c, rfl, hus, hc⟩ := exists_of_map_bracketed hts
  have hmembers : Finds (readMembers source (us ++ c :: t :: rest))
      (Holds fun r => List.Forall₂ (IsProperty R) parts r.1) (t :: rest) :=
    finds_readMembers h hus hc
  rw [List.cons_append, List.append_assoc, List.singleton_append, readPrimary.eq_def]
  simp only [if_true]
  rw [if_neg (by decide), if_neg (by decide)]
  refine hmembers.lift _ ?_
  rintro _ ⟨⟨ms, stop⟩, rfl, hms⟩
  exact ⟨_, rfl, _, ms, rfl, hms⟩

mutual

/-- **Plain data is read as itself.** -/
theorem readsAs_lexemes : (v : Value) → v.IsData → ReadsAs source v.lexemes v.ReadAs
  | null, _ => by
    rw [lexemes]
    exact (readsAs_name rfl).mono fun _ ⟨_, h⟩ => h ▸ .null
  | bool true, _ => by
    rw [lexemes]
    exact (readsAs_name rfl).mono fun _ ⟨_, h⟩ => h ▸ .bool
  | bool false, _ => by
    rw [lexemes]
    exact (readsAs_name rfl).mono fun _ ⟨_, h⟩ => h ▸ .bool
  | number (.integer (.ofNat n)), h => by
    rw [IsData] at h
    rw [lexemes]
    exact readsAs_ofNat h
  | number (.integer (.negSucc n)), h => by
    rw [IsData] at h
    rw [lexemes]
    exact readsAs_negSucc h
  | number (.double _), h => by
    rw [IsData] at h
    exact h.elim
  | text t, _ => by
    rw [lexemes]
    exact readsAs_text t
  | list vs, h => by
    rw [IsData] at h
    exact readsAs_list (readsAs_items vs h)
  | object m, h => by
    rw [IsData] at h
    rw [lexemes, memberLexemes_eq]
    refine (readsAs_properties (readsAs_values m h.2)).mono ?_
    rintro _ ⟨s, ms, rfl, hms⟩
    exact .object hms

/-- So is each item of a list. -/
theorem readsAs_items : (vs : List Value) → AllData vs →
    ∀ v ∈ vs, ReadsAs source v.lexemes v.ReadAs
  | [], _ => fun _ h => nomatch h
  | v :: vs, h => by
    rw [AllData] at h
    exact List.forall_mem_cons.2 ⟨readsAs_lexemes v h.1, readsAs_items vs h.2⟩

/-- So is the value of each member of an object. -/
theorem readsAs_values : (m : List (Text × Value)) → AllMembersData m →
    ∀ e ∈ m, ReadsAs source e.2.lexemes e.2.ReadAs
  | [], _ => fun _ h => nomatch h
  | (_, v) :: m, h => by
    rw [AllMembersData] at h
    exact List.forall_mem_cons.2 ⟨readsAs_lexemes v h.2.1, readsAs_values m h.2.2⟩

end

end Reading

/-! ### The value of what was read -/

mutual

/-- **The value of an expression that is plain data is this data.** -/
theorem evaluate_of_readAs : (v : Value) → v.IsData → ∀ {n : Node}, v.ReadAs n → n.evaluate = v
  | null, _, _, h => by
    cases h
    rfl
  | bool _, _, _, h => by
    cases h
    rfl
  | number _, _, _, h => by
    cases h
    rfl
  | text _, _, _, h => by
    cases h
    rfl
  | list vs, hv, _, h => by
    rw [IsData] at hv
    cases h with
    | list h => rw [Node.evaluate, evaluateAll_of_readAs vs hv h]
  | object m, hm, _, h => by
    rw [IsData] at hm
    cases h with
    | object h =>
      rw [Node.evaluate, evaluateMembers_of_readAs m hm.2 h, Members.ofList_of_nodup hm.1]

/-- The values of several expressions that are plain data. -/
theorem evaluateAll_of_readAs : (vs : List Value) → AllData vs →
    ∀ {ns : List Node}, List.Forall₂ ReadAs vs ns → Node.evaluateAll ns = vs
  | [], _, _, h => by
    cases h
    rfl
  | v :: vs, hvs, _, h => by
    rw [AllData] at hvs
    cases h with
    | cons h hs =>
      rw [Node.evaluateAll, evaluate_of_readAs v hvs.1 h, evaluateAll_of_readAs vs hvs.2 hs]

/-- The keys and values of properties that are plain data. -/
theorem evaluateMembers_of_readAs : (m : List (Text × Value)) → AllMembersData m →
    ∀ {ms : List Member}, List.Forall₂ (Expr.IsProperty ReadAs) m ms → Node.evaluateMembers ms = m
  | [], _, _, h => by
    cases h
    rfl
  | (k, v) :: m, hm, _, h => by
    rw [AllMembersData] at hm
    cases h with
    | cons h hs =>
      cases h with
      | property h =>
        rw [Node.evaluateMembers, evaluate_of_readAs v hm.2.1 h,
          evaluateMembers_of_readAs m hm.2.2 hs]

end

/-- The items of a list that are texts. -/
theorem texts_of_readAs {vs : List Value} {ns : List Node} (h : List.Forall₂ ReadAs vs ns) :
    (ns.filterMap fun
      | .literal _ (.text t) => some t
      | _ => none) = vs.filterMap Value.text? := by
  induction h with
  | nil => rfl
  | cons h _ ih => cases h <;> simp [ih, Value.text?, List.filterMap_cons]

end Value

end Scaffold
