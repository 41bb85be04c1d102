import Scaffold.Proofs.Schema.Declared

/-!
# Collecting the constants of a written schema

A constant is found where a keyword, a name and an equals sign stand one after the other
(`collectConstants_of_declared`), and nowhere else (`collectConstants_append`).  In a written schema
an equals sign stands behind the name of a declaration only, so that the constants are those that
were written, and the variable of the resource (`WrittenSchema.collectConstants_eq`).
-/

namespace Scaffold

open Scaffold.Expr

/-! ### Declared or not -/

variable {source : Text} {t : Token} {ts rest : List Token}

theorem collectConstants_of_not_declared
    (h : ∀ name eq value, ts = name :: eq :: value → eq.isPunct "=" = false) :
    collectConstants source (t :: ts) = collectConstants source ts := by
  have hfound : collectConstants source (t :: ts) =
      (collectConstants source ts).bind fun found => .ok found := by
    rw [collectConstants.eq_def]
    rcases ts with _ | ⟨name, _ | ⟨eq, value⟩⟩
    · rfl
    · rfl
    · simp [h name eq value rfl]
      rfl
  rw [hfound]
  cases collectConstants source ts <;> rfl

variable (ts) in
/-- **What declares nothing is passed over**: no equals sign stands two places behind a token. -/
theorem collectConstants_append (h : ∀ t ∈ (ts ++ rest.take 2).drop 2, t.isPunct "=" = false) :
    collectConstants source (ts ++ rest) = collectConstants source rest := by
  induction ts with
  | nil => rfl
  | cons t ts ih =>
    have hsub : (ts ++ rest.take 2).drop 2 ⊆ (t :: ts ++ rest.take 2).drop 2 := by
      rw [List.cons_append, List.drop_succ_cons]
      exact (List.drop_sublist_drop_left _ (Nat.le_succ 1)).subset
    rw [List.cons_append, collectConstants_of_not_declared, ih fun u hu => h u (hsub hu)]
    intro name eq value hvalue
    refine h eq ?_
    have hsecond : (ts ++ rest.take 2)[1]? = some eq := by
      have htake : (ts ++ rest.take 2)[1]? = (ts ++ rest)[1]? := by
        rcases ts with _ | ⟨a, _ | ⟨b, ts⟩⟩ <;> rcases rest with _ | ⟨c, _ | ⟨d, rest⟩⟩ <;> simp
      rw [htake, hvalue]
      rfl
    rw [List.cons_append, List.drop_succ_cons]
    refine List.mem_of_getElem? (i := 0) ?_
    rw [List.getElem?_drop, ← hsecond]

theorem readLeadingChain_eq {P : Node → Prop} (ht : t.kind = .ident)
    (hname : literalName? t.value = none) (h : Finds (readChain source t ts) (Holds P) rest) :
    ∃ n, readLeadingChain source (t :: ts) = .ok (some n, rest) ∧ P n := by
  obtain ⟨p, hp, ⟨n, hn, hP⟩, rfl⟩ := h
  refine ⟨n, ?_, hP⟩
  rw [readLeadingChain, if_pos ⟨ht, hname⟩, hp]
  simp [Except.map, hn]

/-- A declared chain is found, and what is found behind it. -/
theorem collectConstants_of_declared {name eq : Token} {value : List Token} {n : Node} {c : Chain}
    {found : Constants} (ht : t.isDeclarationKeyword = true) (hname : name.kind = .ident)
    (heq : eq.isPunct "=" = true) (hread : readLeadingChain source value = .ok (some n, rest))
    (hchain : n.chain? = some c)
    (hrest : collectConstants source (name :: eq :: value) = .ok found) :
    collectConstants source (t :: name :: eq :: value) = .ok ((name.value, c) :: found) := by
  rw [collectConstants.eq_def]
  simp [ht, hname, heq, hread, hrest, hchain, Except.map]
  rfl

/-! ### The constants of a schema -/

/-- The chain is collected under the name of the constant, and is its type. -/
def IsConstant (e : Text × WrittenType) (f : Text × Chain) : Prop := f.1 = e.1 ∧ e.2.ReadAs f.2

/-- The tokens begin with two names, as a declaration does. -/
def BeginsDeclaration (ts : List Token) : Prop :=
  ∃ keyword name us, ts = keyword :: name :: us ∧ keyword.kind = .ident ∧ name.kind = .ident

namespace WrittenSchema

theorem beginsDeclaration_append {cs : List (Text × WrittenType)}
    (hts : ts.map Token.lexeme = cs.flatMap fun e => declarationLexemes e.1 e.2.lexemes)
    (hrest : BeginsDeclaration rest) : BeginsDeclaration (ts ++ rest) := by
  cases cs with
  | nil =>
    obtain rfl := List.map_eq_nil_iff.1 hts
    exact hrest
  | cons e cs =>
    obtain ⟨start, stop, us, rfl, hus⟩ := exists_of_map_cons hts
    obtain ⟨start', stop', us, rfl, -⟩ := exists_of_map_cons hus
    exact ⟨_, _, us ++ rest, rfl, rfl, rfl⟩

variable (source) in
theorem readLeadingChain_type {names : List Text} {type : WrittenType}
    (htype : type.IsWritten names) (hhead : literalName? type.head = none)
    (hts : ts.map Token.lexeme = type.lexemes) (hrest : EndsChain rest) :
    ∃ n c, readLeadingChain source (ts ++ rest) = .ok (some n, rest) ∧ n.chain? = some c ∧
      type.ReadAs c := by
  obtain ⟨start, stop, us, rfl, hus⟩ := exists_of_map_cons hts
  have hchain : Finds (readChain source ⟨.ident, type.head, start, stop⟩ (us ++ rest))
      (Holds fun n => Holds type.ReadAs n.chain?) rest :=
    WrittenType.finds_readChain htype rfl hus hrest
  obtain ⟨n, hread, c, hc, hreads⟩ := readLeadingChain_eq rfl hhead hchain
  exact ⟨n, c, hread, hc, hreads⟩

/-- One constant is found, and what is found behind it. -/
theorem collectConstants_constant {names : List Text} {e : Text × WrittenType} {found : Constants}
    (he : e.2.IsWritten names) (hhead : literalName? e.2.head = none)
    (hts : ts.map Token.lexeme = declarationLexemes e.1 e.2.lexemes)
    (hrest : BeginsDeclaration rest) (hfound : collectConstants source rest = .ok found) :
    ∃ c, e.2.ReadAs c ∧ collectConstants source (ts ++ rest) = .ok ((e.1, c) :: found) := by
  obtain ⟨start₁, stop₁, us, rfl, hname⟩ := exists_of_map_cons hts
  obtain ⟨start₂, stop₂, us, rfl, hequals⟩ := exists_of_map_cons hname
  obtain ⟨start₃, stop₃, us, rfl, htype⟩ := exists_of_map_cons hequals
  obtain ⟨k, v, vs, rfl, hk, hv⟩ := hrest
  have hends : EndsChain (k :: v :: vs) := endsChain_of_kind (by simp [hk])
  obtain ⟨n, c, hread, hchain, hc⟩ :=
    readLeadingChain_type source he hhead htype hends
  have hplain : ∀ t ∈ us ++ [k, v], t.isPunct "=" = false := by
    refine HasMarks.isPunct_eq_false typeMarks ?_ (by decide)
    rw [List.map_append, htype]
    refine (hasMarks_type e.2).append (.cons (fun h => ?_) (.cons (fun h => ?_) .nil))
    · cases hk.symm.trans h
    · cases hv.symm.trans h
  refine ⟨c, hc, collectConstants_of_declared rfl rfl rfl hread hchain ?_⟩
  rw [← hfound]
  exact collectConstants_append (⟨.ident, e.1, start₂, stop₂⟩ :: ⟨.punct, "=", start₃, stop₃⟩ :: us)
    hplain

/-- The constants are found one after the other, before what is found behind them. -/
theorem collectConstants_constants {names : List Text} {cs : List (Text × WrittenType)}
    {found : Constants}
    (hcs : ∀ e ∈ cs, e.2.IsWritten names ∧ literalName? e.2.head = none)
    (hts : ts.map Token.lexeme = cs.flatMap fun e => declarationLexemes e.1 e.2.lexemes)
    (hrest : BeginsDeclaration rest) (hfound : collectConstants source rest = .ok found) :
    ∃ constants, collectConstants source (ts ++ rest) = .ok (constants ++ found) ∧
      List.Forall₂ IsConstant cs constants := by
  induction cs generalizing ts with
  | nil =>
    obtain rfl := List.map_eq_nil_iff.1 hts
    exact ⟨[], hfound, .nil⟩
  | cons e cs ih =>
    rw [List.forall_mem_cons] at hcs
    obtain ⟨us, vs, rfl, hus, hvs⟩ := List.map_eq_append_iff.1 hts
    obtain ⟨constants, hconstants, hall⟩ := ih hcs.2 hvs
    obtain ⟨c, hc, hcollect⟩ := collectConstants_constant hcs.1.1 hcs.1.2 hus
      (beginsDeclaration_append hvs hrest) hconstants
    refine ⟨(e.1, c) :: constants, ?_, .cons ⟨rfl, hc⟩ hall⟩
    rw [List.append_assoc, hcollect]
    rfl

variable {w : WrittenSchema} (x : w.Tokens) {stop : Token}

variable (source) in
/-- The resource is a chain as well. -/
theorem collectConstants_resource (h : w.IsWritten) (hstop : stop.kind = .eof) :
    ∃ c, collectConstants source
      (x.keyword :: x.name :: x.equals :: x.factory :: x.behind stop) = .ok [(w.varName, c)] := by
  obtain ⟨hkeyword, hconst⟩ := isIdent_eq_true.1 x.keyword_is
  obtain ⟨hname, hvariable⟩ := isIdent_eq_true.1 x.name_is
  obtain ⟨hfactory, hvalue⟩ := isIdent_eq_true.1 x.factory_is
  have hdeclares : x.keyword.isDeclarationKeyword = true := by
    rw [Token.isDeclarationKeyword, hkeyword, hconst]
    decide
  have hliteral : literalName? x.factory.value = none := by
    rw [hvalue]
    rfl
  have hends : EndsChain [stop] := endsChain_of_kind (by simp [hstop])
  have hchain : Finds (readChain source x.factory (x.behind stop))
      (Holds fun n => ∃ c, n.chain? = some c) [stop] := by
    have hitems : Finds (readItems source ")" false (x.arguments ++ [x.closer, stop]))
        (Holds fun _ => True) [stop] :=
      (finds_arguments x source h [stop]).mono fun _ h => h.mono fun _ _ => trivial
    rw [readChain]
    refine (finds_readSegments_call (A := fun _ => True) (Q := fun _ => True) x.opener_is hitems
      (fun stop => finds_readSegments_nil hends) fun _ _ _ _ => trivial).lift _ ?_
    rintro _ ⟨⟨segments, stop⟩, rfl, -⟩
    exact ⟨_, rfl, _, rfl⟩
  obtain ⟨n, hread, c, hc⟩ := readLeadingChain_eq hfactory hliteral hchain
  have hplain : ∀ t ∈ x.factory :: x.behind stop, t.isPunct "=" = false := by
    refine HasMarks.isPunct_eq_false typeMarks ?_ (by decide)
    rw [Tokens.behind, List.map_cons, List.map_cons, List.map_append, x.arguments_eq]
    refine .cons (fun h => ?_) (.cons (fun _ => ?_) (w.hasMarks_arguments.append
      (.cons (fun _ => ?_) (.cons (fun h => ?_) .nil))))
    · cases hfactory.symm.trans h
    · rw [isPunct_iff.1 x.opener_is]
      decide
    · rw [isPunct_iff.1 x.closer_is]
      decide
    · cases hstop.symm.trans h
  refine ⟨c, ?_⟩
  rw [← hvariable]
  refine collectConstants_of_declared hdeclares hname x.equals_is hread hc ?_
  have hskip : collectConstants source (x.name :: x.equals :: x.factory :: x.behind stop ++ []) =
      collectConstants source [] :=
    collectConstants_append (x.name :: x.equals :: x.factory :: x.behind stop)
      (by simpa using hplain)
  rw [List.append_nil] at hskip
  rw [hskip]
  rfl

/-- **The constants are those that were written**, and the variable of the resource. -/
theorem collectConstants_eq (h : w.IsWritten) (hstop : stop.kind = .eof) :
    ∃ constants c, collectConstants source (x.all stop) = .ok (constants ++ [(w.varName, c)]) ∧
      List.Forall₂ IsConstant w.constants constants := by
  obtain ⟨c, hc⟩ := collectConstants_resource source x h hstop
  have hkeyword := isIdent_eq_true.1 x.keyword_is
  have hname := isIdent_eq_true.1 x.name_is
  have hwritten : ∀ e ∈ w.constants, e.2.IsWritten (w.constants.map (·.1)) ∧
      literalName? e.2.head = none := fun e he =>
    ⟨h.constant e he, (WrittenType.head_of_isOver (h.constant e he).isOver h.isConstantName).2⟩
  obtain ⟨constants, hconstants, hall⟩ := collectConstants_constants hwritten x.constants_eq
    ⟨_, _, _, rfl, hkeyword.1, hname.1⟩ hc
  exact ⟨constants, c, hconstants, hall⟩

end WrittenSchema

end Scaffold
