import Scaffold.Proofs.Expr.Similar
import Scaffold.Proofs.Expr.Steps

/-!
# Readers side by side

Two lists of tokens that the readers cannot tell apart stand in a relation that every step of a
reader keeps (`Mirror`).  The step lemmas are put together to one theorem for each reader: what is
read of such lists is similar, and what is left of them stands in the relation again
(`Mirror.related_read`, `Mirror.related_links`, `Mirror.related_items`).

The relation is given for each number of brackets that are open, since a reader inside brackets does
not look behind the bracket that closes them.
-/

namespace Scaffold

namespace Expr

/-- The token is one of the brackets `(`, `[`, `{` and `}`, `]`, `)`. -/
def IsBracket (t : Token) : Prop :=
  t.kind = .punct ∧ ((closerOf? t.value).isSome = true ∨ isCloser t.value = true)

instance : DecidablePred IsBracket := fun _ => inferInstanceAs (Decidable (_ ∧ _))

/-- The marks behind which an expression is read. -/
def leadingMarks : List Text := ["(", "[", ",", ":", "..."]

/-- Lists of tokens in two sources that the readers cannot tell apart: `near depth` relates those
behind `depth` open brackets.  The texts of spans that `hides` tells of may differ. -/
structure Mirror (source source' : Text) (hides : Span → Prop) where
  /-- The tokens stand for each other. -/
  twin : Token → Token → Prop
  /-- The lists stand for each other. -/
  near : Nat → List Token → List Token → Prop
  /-- An expression may be read at the first token. -/
  begins : List Token → Prop
  /-- Twins are the same lexeme. -/
  lexeme : ∀ {t t'}, twin t t' → t.lexeme = t'.lexeme
  /-- The same text stands from twins to twins. -/
  slices : ∀ {t t' u u'}, twin t t' → twin u u' →
    source.slice t.start u.stop = source'.slice t'.start u'.stop ∨ hides ⟨t.start, u.stop⟩
  /-- The lists begin with twins. -/
  head : ∀ {k ts ts'}, near k ts ts' →
    ∃ t rest t' rest', ts = t :: rest ∧ ts' = t' :: rest' ∧ twin t t'
  /-- Between brackets, a token that is none is passed. -/
  pass : ∀ {k t rest t' rest'}, near (k + 1) (t :: rest) (t' :: rest') → t.kind ≠ .eof →
    ¬ IsBracket t → near (k + 1) rest rest'
  /-- A point is followed by a name in both lists or in none. -/
  point : ∀ {k t rest t' rest'}, near k (t :: rest) (t' :: rest') →
    t.isPunct "." = true ∨ t.isPunct "?." = true → nextKind rest' .ident = nextKind rest .ident
  /-- A point and a name behind it are passed. -/
  access : ∀ {k t u rest t' u' rest'}, near k (t :: u :: rest) (t' :: u' :: rest') →
    t.isPunct "." = true ∨ t.isPunct "?." = true → u.kind = .ident → twin u u' ∧ near k rest rest'
  /-- A parenthesis that opens is passed. -/
  parenthesis : ∀ {k t rest t' rest'}, near k (t :: rest) (t' :: rest') → t.isPunct "(" = true →
    near (k + 1) rest rest'
  /-- Between brackets, so is a square bracket. -/
  square : ∀ {k t rest t' rest'}, near (k + 1) (t :: rest) (t' :: rest') → t.isPunct "[" = true →
    near (k + 2) rest rest'
  /-- So is a brace, where an expression may be read. -/
  brace : ∀ {k t rest t' rest'}, near (k + 1) (t :: rest) (t' :: rest') →
    t.isPunct "\x7b" = true → begins (t :: rest) → near (k + 2) rest rest'
  /-- A closing bracket is passed. -/
  closes : ∀ {k t rest t' rest'}, near (k + 1) (t :: rest) (t' :: rest') → t.kind = .punct →
    isCloser t.value = true → near k rest rest'
  /-- An expression may be read behind a leading mark. -/
  leads : ∀ {k t rest t' rest'}, near k (t :: rest) (t' :: rest') → t.kind = .punct →
    t.value ∈ leadingMarks → begins rest
  /-- What is passed over ends with twins, and leaves lists that stand for each other. -/
  skips : ∀ {k ts ts'}, near (k + 1) ts ts' →
    Option.Rel twin (skipBalanced [] true ts).1.getLast? (skipBalanced [] true ts').1.getLast? ∧
      near (k + 1) (skipBalanced [] true ts).2 (skipBalanced [] true ts').2
  /-- So do type arguments. -/
  types : ∀ {k ts ts'}, near k ts ts' → nextIs ts "<" = true →
    Option.Rel (near k) (skipTypeArguments 0 ts) (skipTypeArguments 0 ts')

namespace Mirror

variable {source source' : Text} {hides : Span → Prop} (m : Mirror source source' hides)
  {k : Nat} {t t' u u' : Token} {ts ts' rest rest' : List Token}

/-- The offsets are the ends of twins. -/
def Ends (x x' : Nat) : Prop := ∃ t t', m.twin t t' ∧ x = t.stop ∧ x' = t'.stop

variable {m}

theorem kind_eq (h : m.twin t t') : t'.kind = t.kind := (congrArg Prod.fst (m.lexeme h)).symm

theorem value_eq (h : m.twin t t') : t'.value = t.value := (congrArg Prod.snd (m.lexeme h)).symm

theorem isPunct_eq (h : m.twin t t') (mark : Text) : t'.isPunct mark = t.isPunct mark := by
  rw [Token.isPunct, Token.isPunct, kind_eq h, value_eq h]

theorem isIdent_eq (h : m.twin t t') (name : Text) : t'.isIdent name = t.isIdent name := by
  rw [Token.isIdent, Token.isIdent, kind_eq h, value_eq h]

theorem nextIs_eq (h : m.near k ts ts') (mark : Text) : nextIs ts' mark = nextIs ts mark := by
  obtain ⟨t, rest, t', rest', rfl, rfl, htwin⟩ := m.head h
  exact isPunct_eq htwin mark

theorem nextKind_eq (h : m.near k ts ts') (kind : TokenKind) :
    nextKind ts' kind = nextKind ts kind := by
  obtain ⟨t, rest, t', rest', rfl, rfl, htwin⟩ := m.head h
  simp [nextKind, kind_eq htwin]

theorem atTerminator_eq (h : m.near k ts ts') : atTerminator ts' = atTerminator ts := by
  obtain ⟨t, rest, t', rest', rfl, rfl, htwin⟩ := m.head h
  rw [atTerminator, atTerminator, kind_eq htwin, value_eq htwin]

theorem not_isBracket_of_kind (h : t.kind ≠ .punct) : ¬ IsBracket t := fun hb => h hb.1

/-- A token of another kind than marks is passed. -/
theorem pass_of_kind (h : m.near (k + 1) (t :: rest) (t' :: rest')) (heof : t.kind ≠ .eof)
    (hpunct : t.kind ≠ .punct) : m.near (k + 1) rest rest' :=
  m.pass h heof (not_isBracket_of_kind hpunct)

theorem pass_of_isPunct {mark : Text} (h : m.near (k + 1) (t :: rest) (t' :: rest'))
    (ht : t.isPunct mark = true) (hopener : (closerOf? mark).isSome = false)
    (hcloser : isCloser mark = false) : m.near (k + 1) rest rest' := by
  obtain ⟨hkind, rfl⟩ := isPunct_eq_true.1 ht
  refine m.pass h (by rw [hkind]; nofun) ?_
  rintro ⟨-, hb | hb⟩
  · rw [hopener] at hb
    cases hb
  · rw [hcloser] at hb
    cases hb

/-- `as const` is passed in both lists or in none. -/
theorem near_skipAsConst (h : m.near (k + 1) ts ts') :
    m.near (k + 1) (skipAsConst ts) (skipAsConst ts') := by
  obtain ⟨a, rest, a', rest', rfl, rfl, ha⟩ := m.head h
  by_cases has : a.isIdent "as" = true
  · have hkind := (isIdent_eq_true.1 has).1
    have hrest := pass_of_kind h (by rw [hkind]; nofun) (by rw [hkind]; nofun)
    obtain ⟨c, more, c', more', rfl, rfl, hc⟩ := m.head hrest
    by_cases hconst : c.isIdent "const" = true
    · have hkind := (isIdent_eq_true.1 hconst).1
      rw [skipAsConst, skipAsConst, if_pos ⟨has, hconst⟩,
        if_pos ⟨isIdent_eq ha "as" ▸ has, isIdent_eq hc "const" ▸ hconst⟩]
      exact pass_of_kind hrest (by rw [hkind]; nofun) (by rw [hkind]; nofun)
    · rw [skipAsConst, skipAsConst, if_neg fun h => hconst h.2,
        if_neg fun h => hconst (isIdent_eq hc "const" ▸ h.2)]
      exact h
  · have hstays : ∀ {b : Token} {us : List Token}, ¬ b.isIdent "as" = true →
        skipAsConst (b :: us) = b :: us := by
      rintro b (_ | ⟨c, us⟩) hb
      · rfl
      · rw [skipAsConst, if_neg fun h => hb h.1]
    rw [hstays has, hstays (isIdent_eq ha "as" ▸ has)]
    exact h

/-! ### What is kept verbatim -/

theorem similar_verbatim (h : m.near (k + 1) ts ts') :
    (verbatim source ts).1.Similar hides (verbatim source' ts').1 ∧
      m.near (k + 1) (verbatim source ts).2 (verbatim source' ts').2 := by
  obtain ⟨hlast, hrest⟩ := m.skips h
  refine ⟨?_, hrest⟩
  obtain ⟨t, rest, t', rest', rfl, rfl, htwin⟩ := m.head h
  rw [verbatim, verbatim, readVerbatim, readVerbatim]
  simp only [startOf, List.head?_cons, Option.map_some, Option.getD_some, Node.Similar]
  generalize (skipBalanced [] true (t :: rest)).1.getLast? = o at hlast
  generalize (skipBalanced [] true (t' :: rest')).1.getLast? = o' at hlast
  cases hlast with
  | none => exact .inl (by simp [Text.slice])
  | some hlast => exact m.slices htwin hlast

/-- An expression that was found ends in both lists, or is kept verbatim in both. -/
theorem similar_settle {n n' : Node} (h : m.near (k + 1) ts ts') (hn : n.Similar hides n')
    (hrest : m.near (k + 1) rest rest') :
    (settle source ts n rest).1.Similar hides (settle source' ts' n' rest').1 ∧
      m.near (k + 1) (settle source ts n rest).2 (settle source' ts' n' rest').2 := by
  have hskip := near_skipAsConst hrest
  rw [settle, settle, atTerminator_eq hskip]
  split_ifs
  · exact ⟨hn, hskip⟩
  · exact similar_verbatim h

/-! ### Links -/

variable (m) in
/-- The lists of parts are similar one by one and end at twins, and what is left stands for each
other. -/
def PartsAlike {α : Type} (R : α → α → Prop) (k : Nat) (r r' : (List α × Nat) × List Token) :
    Prop :=
  List.Forall₂ R r.1.1 r'.1.1 ∧ m.Ends r.1.2 r'.1.2 ∧ m.near k r.2 r'.2

/-- Type arguments that are passed over. -/
theorem found_readSegments_types {stop : Nat} {after : List Token} (ht : t.isPunct "<" = true)
    (hafter : skipTypeArguments 0 (t :: rest) = some after) :
    found (readSegments source stop (t :: rest)) = found (readSegments source stop after) := by
  have hnot : ∀ mark : Text, mark ≠ "<" → t.isPunct mark = false := fun mark hmark =>
    Bool.eq_false_iff.2 fun h =>
      hmark ((isPunct_eq_true.1 h).2.symm.trans (isPunct_eq_true.1 ht).2)
  rw [readSegments.eq_def]
  simp only [hnot "." (by decide), hnot "?." (by decide), ht, Bool.or_self, Bool.false_and,
    Bool.false_eq_true, if_false, if_true]
  split
  · rename_i after' h
    obtain rfl : after = after' := Option.some.inj (hafter.symm.trans h)
    exact found_lift_id _ _
  · rename_i h
    rw [h] at hafter
    cases hafter

/-- No tokens are added to what is found. -/
theorem length_found {α : Type} {x : Except NumeralError (Parsed (Option α) ts)} {a : α}
    (h : found x = .ok (some (a, rest))) : rest.length ≤ ts.length := by
  obtain ⟨p, -, hp⟩ := Except.map_eq_ok_iff.1 h
  obtain ⟨_, -, hrest⟩ := Option.map_eq_some_iff.1 hp
  exact (Prod.mk.inj hrest).2 ▸ p.le

theorem length_outcome {α : Type} {x : Except NumeralError (Parsed α ts)} {a : α}
    (h : outcome x = .ok (a, rest)) : rest.length ≤ ts.length := by
  obtain ⟨p, -, hp⟩ := Except.map_eq_ok_iff.1 h
  exact (Prod.mk.inj hp).2 ▸ p.le

variable (m) in
/-- The expressions that were found are similar, and what is left stands for each other. -/
def FoundAlike (k : Nat) (r r' : Node × List Token) : Prop :=
  r.1.Similar hides r'.1 ∧ m.near k r.2 r'.2

variable (m) in
/-- Of lists with fewer than `n` tokens, the same links are read. -/
def LinksAlike (n : Nat) : Prop := ∀ ⦃k ts ts' stop stop'⦄, ts.length < n → m.near k ts ts' →
  m.Ends stop stop' → Except.Related (Option.Rel (m.PartsAlike (Segment.Similar hides) k))
    (found (readSegments source stop ts)) (found (readSegments source' stop' ts'))

variable (m) in
/-- Of lists with fewer than `n` tokens, the same items are read. -/
def ItemsAlike (n : Nat) : Prop := ∀ ⦃k ts ts' close holes⦄, ts.length < n →
  m.near (k + 1) ts ts' → m.begins ts → isCloser close = true →
    Except.Related (Option.Rel (m.PartsAlike (Node.Similar hides) k))
      (found (readItems source close holes ts)) (found (readItems source' close holes ts'))

variable (m) in
/-- Of lists with fewer than `n` tokens, the same members are read. -/
def MembersAlike (n : Nat) : Prop := ∀ ⦃k ts ts'⦄, ts.length < n → m.near (k + 1) ts ts' →
  Except.Related (Option.Rel (m.PartsAlike (Member.Similar hides) k))
    (found (readMembers source ts)) (found (readMembers source' ts'))

variable (m) in
/-- Of lists with fewer than `n` tokens, the same expression is read. -/
def ReadsAlike (n : Nat) : Prop := ∀ ⦃k ts ts'⦄, ts.length < n → m.near (k + 1) ts ts' →
  m.begins ts → Except.Related (m.FoundAlike (k + 1)) (outcome (read source ts))
    (outcome (read source' ts'))

/-- The chain ends in both lists. -/
theorem related_links_nil {stop stop' : Nat} (h : m.near k ts ts') (hstop : m.Ends stop stop')
    (hpoint : ((nextIs ts "." || nextIs ts "?.") && nextKind ts.tail .ident) = false)
    (hless : nextIs ts "<" = true → skipTypeArguments 0 ts = none)
    (hparen : nextIs ts "(" = false) :
    Except.Related (Option.Rel (m.PartsAlike (Segment.Similar hides) k))
      (found (readSegments source stop ts)) (found (readSegments source' stop' ts')) := by
  have hpoint' : ((nextIs ts' "." || nextIs ts' "?.") && nextKind ts'.tail .ident) = false := by
    rw [nextIs_eq h, nextIs_eq h]
    obtain ⟨t, rest, t', rest', rfl, rfl, -⟩ := m.head h
    by_cases hmark : (t.isPunct "." || t.isPunct "?.") = true
    · rw [List.tail_cons, m.point h (Bool.or_eq_true_iff.1 hmark)]
      exact hpoint
    · exact Bool.and_eq_false_iff.2 (.inl (Bool.eq_false_iff.2 hmark))
  have hless' : nextIs ts' "<" = true → skipTypeArguments 0 ts' = none := fun hl => by
    rw [nextIs_eq h] at hl
    have htypes := m.types h hl
    rw [hless hl] at htypes
    generalize skipTypeArguments 0 ts' = o at htypes ⊢
    cases htypes
    rfl
  rw [found_readSegments_nil hpoint hless hparen,
    found_readSegments_nil hpoint' hless' (by rw [nextIs_eq h]; exact hparen)]
  exact .some ⟨.nil, hstop, h⟩

variable (m) in
/-- The same links are found, or none in either list. -/
def RestAlike (k stop stop' : Nat) (ts ts' : List Token) : Prop :=
  Except.Related (Option.Rel (m.PartsAlike (Segment.Similar hides) k))
    (found (readSegments source stop ts)) (found (readSegments source' stop' ts'))

/-- A link in front of links that are alike. -/
theorem RestAlike.cons {stop stop' : Nat} {s s' : Segment} (h : m.RestAlike k stop stop' ts ts')
    (hs : Segment.Similar hides s s') : Except.Related
      (Option.Rel (m.PartsAlike (Segment.Similar hides) k))
      ((found (readSegments source stop ts)).map (Option.map fun r => ((s :: r.1.1, r.1.2), r.2)))
      ((found (readSegments source' stop' ts')).map
        (Option.map fun r => ((s' :: r.1.1, r.1.2), r.2))) :=
  h.map fun _ _ hr => hr.map_of fun _ _ ⟨hss, hends, hrest⟩ => ⟨.cons hs hss, hends, hrest⟩

/-- A point and a name. -/
theorem related_access {n stop stop' : Nat} (hlinks : m.LinksAlike n) (hlength : rest.length < n)
    (h : m.near k (t :: rest) (t' :: rest')) (htwin : m.twin t t')
    (hpoint : t.isPunct "." = true ∨ t.isPunct "?." = true) (hname : nextKind rest .ident = true) :
    m.RestAlike k stop stop' (t :: rest) (t' :: rest') := by
  have hname' : nextKind rest' .ident = true := m.point h hpoint ▸ hname
  have hpoint' : t'.isPunct "." = true ∨ t'.isPunct "?." = true := by
    rwa [isPunct_eq htwin, isPunct_eq htwin]
  cases rest with
  | nil => cases hname
  | cons u more =>
    cases rest' with
    | nil => cases hname'
    | cons u' more' =>
      have hu : u.kind = .ident := of_decide_eq_true hname
      obtain ⟨hutwin, hmore⟩ := m.access h hpoint hu
      have hnext := hlinks (Nat.lt_of_succ_lt hlength) hmore ⟨u, u', hutwin, rfl, rfl⟩
      rw [RestAlike, found_readSegments_access hpoint hu,
        found_readSegments_access hpoint' ((kind_eq hutwin).trans hu)]
      exact RestAlike.cons hnext (value_eq hutwin).symm

/-- What looks like type arguments. -/
theorem related_types {n stop stop' : Nat} (hlinks : m.LinksAlike n) (hlength : rest.length < n)
    (h : m.near k (t :: rest) (t' :: rest')) (htwin : m.twin t t') (hstop : m.Ends stop stop')
    (hless : t.isPunct "<" = true)
    (haccess : ((t.isPunct "." || t.isPunct "?.") && nextKind rest .ident) = false) :
    m.RestAlike k stop stop' (t :: rest) (t' :: rest') := by
  have htypes := m.types h hless
  cases hafter : skipTypeArguments 0 (t :: rest) with
  | none =>
    refine related_links_nil h hstop haccess (fun _ => hafter) (Bool.eq_false_iff.2 fun hp => ?_)
    have hparen : t.isPunct "(" = true := hp
    exact absurd ((isPunct_eq_true.1 hless).2.symm.trans (isPunct_eq_true.1 hparen).2) (by decide)
  | some after =>
    have hshorter := length_skipTypeArguments hafter
    rw [hafter] at htypes
    cases hafter' : skipTypeArguments 0 (t' :: rest') with
    | none =>
      rw [hafter'] at htypes
      cases htypes
    | some after' =>
      rw [hafter'] at htypes
      obtain ⟨hnear⟩ := htypes
      rw [RestAlike, found_readSegments_types hless hafter,
        found_readSegments_types (isPunct_eq htwin "<" ▸ hless) hafter']
      exact hlinks (Nat.lt_of_lt_of_le hshorter hlength) hnear hstop

/-- A call. -/
theorem related_call {n n' stop stop' : Nat} (hitems : m.ItemsAlike n) (hlinks : m.LinksAlike n')
    (hlength : rest.length < n) (hlength' : rest.length < n')
    (h : m.near k (t :: rest) (t' :: rest')) (htwin : m.twin t t')
    (hparen : t.isPunct "(" = true) : m.RestAlike k stop stop' (t :: rest) (t' :: rest') := by
  have hbegins : m.begins rest := by
    obtain ⟨hkind, hvalue⟩ := isPunct_eq_true.1 hparen
    exact m.leads h hkind (by rw [hvalue]; decide)
  have hread := @hitems k rest rest' ")" false hlength (m.parenthesis h hparen) hbegins (by decide)
  rw [RestAlike, found_readSegments_call hparen,
    found_readSegments_call (isPunct_eq htwin "(" ▸ hparen)]
  refine hread.bind fun r r' hr hrel => ?_
  cases hrel with
  | none => exact .none
  | @some r r' hrel =>
    obtain ⟨⟨ns, x⟩, more⟩ := r
    obtain ⟨⟨ns', x'⟩, more'⟩ := r'
    obtain ⟨hns, hends, hmore⟩ := hrel
    have hle : more.length ≤ rest.length := length_found hr
    exact RestAlike.cons (hlinks (Nat.lt_of_le_of_lt hle hlength') hmore hends)
      (Node.allSimilar_iff.2 hns)

/-- One more link is read. -/
theorem linksAlike_succ {n n' : Nat} (hitems : m.ItemsAlike n) (hlinks : m.LinksAlike n')
    (hle : n' ≤ n) : m.LinksAlike (n' + 1) := by
  intro k ts ts' stop stop' hlength h hstop
  obtain ⟨t, rest, t', rest', rfl, rfl, htwin⟩ := m.head h
  have hlength : rest.length < n' := Nat.lt_of_succ_lt_succ hlength
  by_cases haccess : ((t.isPunct "." || t.isPunct "?.") && nextKind rest .ident) = true
  · obtain ⟨hpoint, hname⟩ := Bool.and_eq_true_iff.1 haccess
    exact related_access hlinks hlength h htwin (Bool.or_eq_true_iff.1 hpoint) hname
  by_cases hless : t.isPunct "<" = true
  · exact related_types hlinks hlength h htwin hstop hless (Bool.eq_false_iff.2 haccess)
  by_cases hparen : t.isPunct "(" = true
  · exact related_call hitems hlinks (Nat.lt_of_lt_of_le hlength hle) hlength h htwin hparen
  · exact related_links_nil h hstop (Bool.eq_false_iff.2 haccess) (fun hl => absurd hl hless)
      (Bool.eq_false_iff.2 hparen)

/-- **The same links are read**, if the same items are. -/
theorem linksAlike {n : Nat} (hitems : m.ItemsAlike n) : m.LinksAlike (n + 1) := by
  have hlinks : ∀ n' ≤ n + 1, m.LinksAlike n' := by
    intro n' hle
    induction n' with
    | zero => exact fun _ _ _ _ _ h => absurd h (Nat.not_lt_zero _)
    | succ n' ih =>
      exact linksAlike_succ hitems (ih (Nat.le_of_succ_le hle)) (Nat.le_of_succ_le_succ hle)
  exact hlinks (n + 1) (Nat.le_refl _)

/-! ### Parts -/

section Lists

variable {α : Type} {R : α → α → Prop} {close : Text} {B : List Token → Prop}
  {part part' : List Token → Except NumeralError (List α × List Token)}
  {list list' : List Token → FoundParts α}

/-- **The same list is read**, if the same parts are. -/
theorem related_list {n : Nat} (h : ReadsParts close part list) (h' : ReadsParts close part' list')
    (hclose : isCloser close = true)
    (heof : ∀ t rest, t.kind = .eof → list (t :: rest) = .ok none ∧ list' (t :: rest) = .ok none)
    (hshorter : ∀ {ts r}, part ts = .ok r → r.2.length ≤ ts.length)
    (hbegins : ∀ {t rest t' rest'}, m.near (k + 1) (t :: rest) (t' :: rest') →
      t.isPunct "," = true → B rest)
    (hpart : ∀ {ts ts'}, ts.length < n → m.near (k + 1) ts ts' → B ts → Except.Related
      (fun r r' => List.Forall₂ R r.1 r'.1 ∧ m.near (k + 1) r.2 r'.2) (part ts) (part' ts'))
    (hlength : ts.length < n) (hts : m.near (k + 1) ts ts') (hfirst : B ts) :
    Except.Related (Option.Rel (m.PartsAlike R k)) (list ts) (list' ts') := by
  induction hl : ts.length using Nat.strong_induction_on generalizing ts ts' with
  | _ l ih =>
  subst hl
  obtain ⟨t, rest, t', rest', rfl, rfl, htwin⟩ := m.head hts
  by_cases hend : t.isPunct close = true
  · obtain ⟨hkind, hvalue⟩ := isPunct_eq_true.1 hend
    rw [h.ends rest hend, h'.ends rest' (isPunct_eq htwin close ▸ hend)]
    exact .some ⟨.nil, ⟨t, t', htwin, rfl, rfl⟩, m.closes hts hkind (hvalue ▸ hclose)⟩
  by_cases hkind : t.kind = .eof
  · rw [(heof t rest hkind).1, (heof t' rest' ((kind_eq htwin).trans hkind)).2]
    exact .none
  have hend' : t'.isPunct close = false := by
    rw [isPunct_eq htwin]
    exact Bool.eq_false_iff.2 hend
  rw [h.step rest (Bool.eq_false_iff.2 hend) hkind,
    h'.step rest' hend' (by rw [kind_eq htwin]; exact hkind)]
  refine (hpart hlength hts hfirst).bind fun r r' hr halike => ?_
  obtain ⟨has, hmore⟩ := halike
  have hle := hshorter hr
  obtain ⟨as, more⟩ := r
  obtain ⟨as', more'⟩ := r'
  dsimp only at has hmore hle ⊢
  obtain ⟨u, after, u', after', rfl, rfl, hutwin⟩ := m.head hmore
  rw [goOn, goOn, isPunct_eq hutwin, isPunct_eq hutwin]
  rw [List.length_cons] at hle
  split_ifs with hcomma hlast
  · have hafter := pass_of_isPunct hmore hcomma (by decide) (by decide)
    exact (ih after.length (by omega) (by omega) hafter (hbegins hmore hcomma) rfl).map
      fun _ _ hr => hr.map_of fun r r' halike => ⟨List.rel_append has halike.1, halike.2⟩
  · obtain ⟨hkind, hvalue⟩ := isPunct_eq_true.1 hlast
    exact .some ⟨has, ⟨u, u', hutwin, rfl, rfl⟩, m.closes hmore hkind (hvalue ▸ hclose)⟩
  · exact .none

end Lists

/-- **The same items are read**, if the same expressions are. -/
theorem itemsAlike {n : Nat} (hreads : m.ReadsAlike n) : m.ItemsAlike n := by
  intro k ts ts' close holes hlength h hbegins hclose
  refine related_list (readsParts_items source close holes) (readsParts_items source' close holes)
    hclose ?_ ?_ ?_ ?_ hlength h hbegins
  · intro t rest hkind
    have hnot : t.isPunct close = false := by simp [Token.isPunct, hkind]
    constructor <;> rw [readItems, if_neg (by simp [hnot]), if_pos hkind] <;> rfl
  · intro ts r hr
    unfold itemPart at hr
    split_ifs at hr
    · cases hr
      exact Nat.le_refl _
    · obtain ⟨_, hread, rfl⟩ := Except.map_eq_ok_iff.1 hr
      exact length_outcome hread
  · intro t rest t' rest' hnear hcomma
    obtain ⟨hkind, hvalue⟩ := isPunct_eq_true.1 hcomma
    exact m.leads hnear hkind (by rw [hvalue]; decide)
  · intro ts ts' hlength h hbegins
    rw [itemPart, itemPart, nextIs_eq h]
    split_ifs
    · exact ⟨.nil, h⟩
    · exact (hreads hlength h hbegins).map fun r r' hr => ⟨.cons hr.1 .nil, hr.2⟩

/-- The same member is read, or passed over. -/
theorem related_member {n : Nat} (hreads : m.ReadsAlike n) (hlength : ts.length < n)
    (h : m.near (k + 1) ts ts') : Except.Related
      (fun r r' => List.Forall₂ (Member.Similar hides) r.1 r'.1 ∧ m.near (k + 1) r.2 r'.2)
      (memberPart source ts) (memberPart source' ts') := by
  obtain ⟨t, rest, t', rest', rfl, rfl, htwin⟩ := m.head h
  rw [List.length_cons] at hlength
  rw [memberPart, memberPart]
  by_cases hspread : t.isPunct "..." = true
  · obtain ⟨hkind, hvalue⟩ := isPunct_eq_true.1 hspread
    have hrest := pass_of_isPunct h hspread (by decide) (by decide)
    have hbegins := m.leads h hkind (by rw [hvalue]; decide)
    rw [outcome_readMember_spread hspread,
      outcome_readMember_spread (isPunct_eq htwin "..." ▸ hspread)]
    refine ((hreads (by omega) hrest hbegins).map (S := fun r r' => List.Forall₂ _ r.1.toList
      r'.1.toList ∧ m.near (k + 1) r.2 r'.2) fun r r' hr => ⟨?_, hr.2⟩).map fun _ _ h => h
    exact .cons trivial .nil
  by_cases hkey : IsKey t
  · have hkey' : IsKey t' := by
      rw [IsKey, kind_eq htwin]
      exact hkey
    have hkind : t.kind ≠ .eof ∧ t.kind ≠ .punct := by
      rcases hkey with hk | hk | hk <;> simp [hk]
    have hrest := pass_of_kind h hkind.1 hkind.2
    obtain ⟨u, after, u', after', rfl, rfl, hutwin⟩ := m.head hrest
    rw [List.length_cons] at hlength
    by_cases hcolon : u.isPunct ":" = true
    · obtain ⟨hukind, huvalue⟩ := isPunct_eq_true.1 hcolon
      have hafter := pass_of_isPunct hrest hcolon (by decide) (by decide)
      have hbegins := m.leads hrest hukind (by rw [huvalue]; decide)
      rw [outcome_readMember_property hkey hcolon,
        outcome_readMember_property hkey' (isPunct_eq hutwin ":" ▸ hcolon)]
      refine ((hreads (by omega) hafter hbegins).map (S := fun r r' => List.Forall₂ _ r.1.toList
        r'.1.toList ∧ m.near (k + 1) r.2 r'.2) fun r r' hr => ⟨?_, hr.2⟩).map
          fun _ _ h => h
      exact .cons ⟨(value_eq htwin).symm, hr.1⟩ .nil
    by_cases hend : u.isPunct "," = true ∨ u.isPunct "\x7d" = true
    · rw [outcome_readMember_shorthand hkey hend, outcome_readMember_shorthand hkey'
        (by rw [isPunct_eq hutwin, isPunct_eq hutwin]; exact hend)]
      exact ⟨.cons ⟨(value_eq htwin).symm, .inl (value_eq htwin).symm⟩ .nil, hrest⟩
    · have hcolon' : u'.isPunct ":" = false := by
        rw [isPunct_eq hutwin]
        exact Bool.eq_false_iff.2 hcolon
      rw [outcome_readMember_method hkey (Bool.eq_false_iff.2 hcolon) hend,
        outcome_readMember_method hkey' hcolon'
          (by rw [isPunct_eq hutwin, isPunct_eq hutwin]; exact hend)]
      exact ⟨.nil, (m.skips hrest).2⟩
  · have hspread' : t'.isPunct "..." = false := by
      rw [isPunct_eq htwin]
      exact Bool.eq_false_iff.2 hspread
    rw [outcome_readMember_other (Bool.eq_false_iff.2 hspread) hkey,
      outcome_readMember_other hspread' (by rw [IsKey, kind_eq htwin]; exact hkey)]
    exact ⟨.nil, (m.skips h).2⟩

/-- **The same members are read**, if the same expressions are. -/
theorem membersAlike {n : Nat} (hreads : m.ReadsAlike n) : m.MembersAlike n := by
  intro k ts ts' hlength h
  refine related_list (B := fun _ => True) (readsParts_members source)
    (readsParts_members source') (by decide) ?_ ?_ (fun _ _ => trivial)
    (fun hlength h _ => related_member hreads hlength h) hlength h trivial
  · intro t rest hkind
    have hnot : t.isPunct "\x7d" = false := by simp [Token.isPunct, hkind]
    constructor <;> rw [readMembers, if_neg (by simp [hnot]), if_pos hkind] <;> rfl
  · intro ts r hr
    obtain ⟨_, hread, rfl⟩ := Except.map_eq_ok_iff.1 hr
    exact length_outcome hread

/-! ### Expressions -/

/-- The chain that begins with the name `head`, given its links. -/
def chainOf (source : Text) (head : Token) (r : (List Segment × Nat) × List Token) :
    Node × List Token :=
  (.chain ⟨head.start, r.1.2⟩ head.value r.1.1 (source.slice head.start r.1.2), r.2)

/-- A name that a chain begins with, and the chain. -/
theorem related_chain {n : Nat} (hlinks : m.LinksAlike n) (hlength : rest.length < n)
    (htwin : m.twin t t') (hrest : m.near k rest rest') :
    Except.Related (Option.Rel (m.FoundAlike k))
      ((found (readSegments source t.stop rest)).map (Option.map (chainOf source t)))
      ((found (readSegments source' t'.stop rest')).map (Option.map (chainOf source' t'))) := by
  refine (hlinks hlength hrest ⟨t, t', htwin, rfl, rfl⟩).map fun _ _ hr => hr.map_of ?_
  rintro r r' ⟨hss, ⟨u, u', hutwin, hu, hu'⟩, hmore⟩
  have htext := m.slices htwin hutwin
  rw [← hu, ← hu'] at htext
  exact ⟨⟨(value_eq htwin).symm, Segment.allSimilar_iff.2 hss, htext⟩, hmore⟩

variable (m) in
/-- The same literal or chain is found, or none in either list. -/
def PrimaryAlike (k : Nat) (ts ts' : List Token) : Prop :=
  Except.Related (Option.Rel (m.FoundAlike (k + 1)))
    (found (readPrimary source ts)) (found (readPrimary source' ts'))

/-- A text literal. -/
theorem related_text (h : m.near (k + 1) (t :: rest) (t' :: rest')) (htwin : m.twin t t')
    (hkind : t.kind = .string ∨ t.kind = .template false) :
    m.PrimaryAlike k (t :: rest) (t' :: rest') := by
  have hrest : m.near (k + 1) rest rest' := by
    rcases hkind with hkind | hkind <;>
      exact pass_of_kind h (by rw [hkind]; nofun) (by rw [hkind]; nofun)
  rw [PrimaryAlike, found_readPrimary_text hkind,
    found_readPrimary_text (by rwa [kind_eq htwin])]
  exact .some ⟨congrArg Value.text (value_eq htwin).symm, hrest⟩

/-- A token that begins neither a literal nor a chain. -/
theorem related_other (htwin : m.twin t t')
    (hkind : t.kind ∈ [TokenKind.template true, .regex, .eof]) :
    m.PrimaryAlike k (t :: rest) (t' :: rest') := by
  rw [PrimaryAlike, found_readPrimary_other hkind,
    found_readPrimary_other (by rwa [kind_eq htwin])]
  exact .none

/-- A number literal. -/
theorem related_number (h : m.near (k + 1) (t :: rest) (t' :: rest')) (htwin : m.twin t t')
    (hkind : t.kind = .number) : m.PrimaryAlike k (t :: rest) (t' :: rest') := by
  have hrest := pass_of_kind h (by rw [hkind]; nofun) (by rw [hkind]; nofun)
  rw [PrimaryAlike, found_readPrimary_number hkind,
    found_readPrimary_number ((kind_eq htwin).trans hkind), value_eq htwin]
  cases Numeral.read t.value with
  | error e => rfl
  | ok n => exact .some ⟨rfl, hrest⟩

/-- A name: of a literal, or at the beginning of a chain. -/
theorem related_name {n : Nat} (hlinks : m.LinksAlike n) (hlength : rest.length < n)
    (h : m.near (k + 1) (t :: rest) (t' :: rest')) (htwin : m.twin t t') (hkind : t.kind = .ident) :
    m.PrimaryAlike k (t :: rest) (t' :: rest') := by
  have hkind' := (kind_eq htwin).trans hkind
  have hrest := pass_of_kind h (by rw [hkind]; nofun) (by rw [hkind]; nofun)
  have hnext' : (nextIs rest' "." || nextIs rest' "(") = (nextIs rest "." || nextIs rest "(") := by
    rw [nextIs_eq hrest, nextIs_eq hrest]
  by_cases hchain : literalName? t.value = none ∨ (nextIs rest "." || nextIs rest "(") = true
  · rw [PrimaryAlike, found_readPrimary_chain hkind hchain, found_readPrimary_chain hkind'
      (by rw [value_eq htwin, hnext']; exact hchain)]
    exact related_chain hlinks hlength htwin hrest
  · obtain ⟨hname, hnext⟩ := not_or.1 hchain
    obtain ⟨v, hv⟩ := Option.ne_none_iff_exists'.1 hname
    have hnone := Bool.eq_false_iff.2 hnext
    rw [PrimaryAlike, found_readPrimary_name hkind hv hnone,
      found_readPrimary_name hkind' (value_eq htwin ▸ hv) (hnext'.trans hnone)]
    exact .some ⟨rfl, hrest⟩

/-- A minus sign: before a number literal, or before anything else. -/
theorem related_sign (h : m.near (k + 1) (t :: rest) (t' :: rest')) (htwin : m.twin t t')
    (hminus : t.isPunct "-" = true) : m.PrimaryAlike k (t :: rest) (t' :: rest') := by
  have hminus' : t'.isPunct "-" = true := isPunct_eq htwin "-" ▸ hminus
  have hrest := pass_of_isPunct h hminus (by decide) (by decide)
  by_cases hnumber : nextKind rest .number = true
  · obtain ⟨u, more, u', more', rfl, rfl, hutwin⟩ := m.head hrest
    have hukind : u.kind = .number := of_decide_eq_true hnumber
    have hmore := pass_of_kind hrest (by rw [hukind]; nofun) (by rw [hukind]; nofun)
    rw [PrimaryAlike, found_readPrimary_minus hminus hukind,
      found_readPrimary_minus hminus' ((kind_eq hutwin).trans hukind), value_eq hutwin]
    cases Numeral.read u.value with
    | error e => rfl
    | ok n => exact .some ⟨rfl, hmore⟩
  · have hnone := Bool.eq_false_iff.2 hnumber
    rw [PrimaryAlike, found_readPrimary_sign hminus hnone,
      found_readPrimary_sign hminus' ((nextKind_eq hrest _).trans hnone)]
    exact .none

/-- An array literal. -/
theorem related_array {n : Nat} (hitems : m.ItemsAlike n) (hlength : rest.length < n)
    (h : m.near (k + 1) (t :: rest) (t' :: rest')) (htwin : m.twin t t')
    (hsquare : t.isPunct "[" = true) : m.PrimaryAlike k (t :: rest) (t' :: rest') := by
  have hfirst : m.begins rest := by
    obtain ⟨hkind, hvalue⟩ := isPunct_eq_true.1 hsquare
    exact m.leads h hkind (by rw [hvalue]; decide)
  rw [PrimaryAlike, found_readPrimary_array hsquare,
    found_readPrimary_array (isPunct_eq htwin "[" ▸ hsquare)]
  exact (hitems hlength (m.square h hsquare) hfirst (by decide)).map fun _ _ hr => hr.map_of
    fun r r' ⟨hns, _, hmore⟩ => ⟨Node.allSimilar_iff.2 hns, hmore⟩

/-- An object literal. -/
theorem related_object {n : Nat} (hmembers : m.MembersAlike n) (hlength : rest.length < n)
    (h : m.near (k + 1) (t :: rest) (t' :: rest')) (htwin : m.twin t t')
    (hbrace : t.isPunct "\x7b" = true) (hbegins : m.begins (t :: rest)) :
    m.PrimaryAlike k (t :: rest) (t' :: rest') := by
  rw [PrimaryAlike, found_readPrimary_object hbrace,
    found_readPrimary_object (isPunct_eq htwin "\x7b" ▸ hbrace)]
  exact (hmembers hlength (m.brace h hbrace hbegins)).map fun _ _ hr => hr.map_of
    fun r r' ⟨hms, _, hmore⟩ => ⟨Member.allSimilar_iff.2 hms, hmore⟩

/-- Any other mark. -/
theorem related_mark (htwin : m.twin t t') (hkind : t.kind = .punct)
    (hminus : ¬ t.isPunct "-" = true) (hsquare : ¬ t.isPunct "[" = true)
    (hbrace : ¬ t.isPunct "\x7b" = true) : m.PrimaryAlike k (t :: rest) (t' :: rest') := by
  have hnot : t.value ∉ [Text.ofString "-", "[", "\x7b"] := by
    simp only [Token.isPunct, hkind, decide_true, Bool.true_and, decide_eq_true_eq]
      at hminus hsquare hbrace
    simp [hminus, hsquare, hbrace]
  rw [PrimaryAlike, found_readPrimary_punct hkind hnot,
    found_readPrimary_punct ((kind_eq htwin).trans hkind) (by rwa [value_eq htwin])]
  exact .none

/-- The same literal or chain is found. -/
theorem related_primary {n : Nat} (hitems : m.ItemsAlike n) (hmembers : m.MembersAlike n)
    (hlength : ts.length < n + 1) (h : m.near (k + 1) ts ts') (hbegins : m.begins ts) :
    m.PrimaryAlike k ts ts' := by
  obtain ⟨t, rest, t', rest', rfl, rfl, htwin⟩ := m.head h
  have hlength : rest.length < n := Nat.lt_of_succ_lt_succ hlength
  cases hkind : t.kind with
  | string => exact related_text h htwin (.inl hkind)
  | template interpolated =>
    cases interpolated with
    | false => exact related_text h htwin (.inr hkind)
    | true => exact related_other htwin (by simp [hkind])
  | regex | eof => exact related_other htwin (by simp [hkind])
  | number => exact related_number h htwin hkind
  | ident => exact related_name (linksAlike hitems) (Nat.lt_succ_of_lt hlength) h htwin hkind
  | punct =>
    by_cases hminus : t.isPunct "-" = true
    · exact related_sign h htwin hminus
    by_cases hsquare : t.isPunct "[" = true
    · exact related_array hitems hlength h htwin hsquare
    by_cases hbrace : t.isPunct "\x7b" = true
    · exact related_object hmembers hlength h htwin hbrace hbegins
    · exact related_mark htwin hkind hminus hsquare hbrace

theorem readsAlike_succ {n : Nat} (hitems : m.ItemsAlike n) (hmembers : m.MembersAlike n) :
    m.ReadsAlike (n + 1) := by
  intro k ts ts' hlength h hbegins
  rw [outcome_read, outcome_read]
  refine (related_primary hitems hmembers hlength h hbegins).map fun r r' hr => ?_
  cases hr with
  | none => exact similar_verbatim h
  | some hr => exact similar_settle h hr.1 hr.2

variable (m) in
/-- The same is read of lists of any length. -/
theorem alike (n : Nat) : m.ReadsAlike n ∧ m.ItemsAlike n ∧ m.MembersAlike n := by
  induction n with
  | zero => exact ⟨fun _ _ _ h => absurd h (Nat.not_lt_zero _),
      fun _ _ _ _ _ h => absurd h (Nat.not_lt_zero _), fun _ _ _ h => absurd h (Nat.not_lt_zero _)⟩
  | succ n ih =>
    have hreads := readsAlike_succ ih.2.1 ih.2.2
    exact ⟨hreads, itemsAlike hreads, membersAlike hreads⟩

/-! ### The readers of declarations -/

theorem map_readArguments (source : Text) (ts : List Token) :
    (readArguments source ts).map (·.1) =
      (found (readItems source ")" false ts.tail)).map (Option.map (·.1.1)) := by
  rw [readArguments]
  cases readItems source ")" false ts.tail with
  | error e => rfl
  | ok p => simp [found, Except.map, Option.map_map, Function.comp_def]

/-- **The same arguments are read**, behind parentheses that stand for each other. -/
theorem related_arguments (h : m.near (k + 1) ts.tail ts'.tail) (hbegins : m.begins ts.tail) :
    Except.Related (Option.Rel (List.Forall₂ (Node.Similar hides)))
      ((readArguments source ts).map (·.1)) ((readArguments source' ts').map (·.1)) := by
  rw [map_readArguments, map_readArguments]
  exact ((m.alike _).2.1 (Nat.lt_succ_self _) h hbegins (by decide)).map
    fun _ _ hr => hr.map_of fun _ _ hr => hr.1

theorem map_readLeadingChain (ht : t.kind = .ident) (hname : literalName? t.value = none) :
    (readLeadingChain source (t :: rest)).map (·.1) =
      (found (readSegments source t.stop rest)).map
        (Option.map fun r => (chainOf source t r).1) := by
  rw [readLeadingChain, if_pos ⟨ht, hname⟩, readChain]
  cases readSegments source t.stop rest with
  | error e => rfl
  | ok p => cases hp : p.value <;> simp [found, Except.map, Parsed.lift, hp, chainOf]

/-- **The same chain is read** at the beginning of a value. -/
theorem related_leadingChain (htwin : m.twin t t') (hrest : m.near k rest rest') :
    Except.Related (Option.Rel (Node.Similar hides))
      ((readLeadingChain source (t :: rest)).map (·.1))
      ((readLeadingChain source' (t' :: rest')).map (·.1)) := by
  by_cases hchain : t.kind = .ident ∧ literalName? t.value = none
  · rw [map_readLeadingChain hchain.1 hchain.2, map_readLeadingChain
      ((kind_eq htwin).trans hchain.1) (value_eq htwin ▸ hchain.2)]
    have hread := related_chain (linksAlike (m.alike rest.length).2.1) (Nat.lt_succ_self _) htwin
      hrest
    have hnode : ∀ (source : Text) (t : Token) (x : FoundParts Segment),
        x.map (Option.map fun r => (chainOf source t r).1) =
          (x.map (Option.map (chainOf source t))).map (Option.map (·.1)) := by
      rintro source t (e | o)
      · rfl
      · simp [Except.map, Option.map_map, Function.comp_def]
    rw [hnode, hnode]
    exact hread.map fun _ _ hr => hr.map_of fun _ _ hr => hr.1
  · rw [readLeadingChain, readLeadingChain, if_neg hchain, if_neg]
    · exact .none
    · rw [kind_eq htwin, value_eq htwin]
      exact hchain

end Mirror

end Expr

end Scaffold
