import Scaffold.Proofs.Schema.Chain
import Scaffold.Schema.Extract

/-!
# Finding the resource of a written schema

In the tokens of a written schema the factory is called once (`WrittenSchema.callSites_eq`), with
the name and the fields of the schema (`WrittenSchema.readCall_eq`).

Whether a name is a call of the factory shows in the tokens around it.  Lexemes are *quiet*
(`Quiet`) if no call is among them: in plain data no parenthesis opens, which is a matter of the
marks that it is written with (`HasMarks`), and in a type one opens behind a member only.
-/

namespace Scaffold

open Scaffold.Expr

/-! ### Marks -/

/-- Every mark among the lexemes is one of `marks`. -/
def HasMarks (marks : List Text) (ls : List Lexeme) : Prop :=
  ∀ l ∈ ls, l.1 = .punct → l.2 ∈ marks

namespace HasMarks

variable {marks : List Text} {l : Lexeme} {ls ms : List Lexeme}

theorem nil : HasMarks marks [] := nofun

theorem cons (hl : l.1 = .punct → l.2 ∈ marks) (h : HasMarks marks ls) :
    HasMarks marks (l :: ls) :=
  List.forall_mem_cons.2 ⟨hl, h⟩

theorem append (h : HasMarks marks ls) (h' : HasMarks marks ms) : HasMarks marks (ls ++ ms) :=
  List.forall_mem_append.2 ⟨h, h'⟩

theorem mono {marks' : List Text} (h : HasMarks marks ls) (hsub : marks ⊆ marks') :
    HasMarks marks' ls :=
  fun l hl hp => hsub (h l hl hp)

theorem separated {lss : List (List Lexeme)} (hcomma : ("," : Text) ∈ marks)
    (h : ∀ ls ∈ lss, HasMarks marks ls) : HasMarks marks (separated lss) := by
  induction lss with
  | nil => exact nil
  | cons ls lss ih =>
    rw [List.forall_mem_cons] at h
    cases lss with
    | nil => exact h.1
    | cons ms lss => exact h.1.append ((ih h.2).cons fun _ => hcomma)

theorem bracketed {opener closer : Text} (ho : opener ∈ marks) (hc : closer ∈ marks)
    (h : HasMarks marks ls) : HasMarks marks (bracketed opener closer ls) :=
  (h.append (nil.cons fun _ => hc)).cons fun _ => ho

theorem keyed {key : Text} (hcolon : (":" : Text) ∈ marks) (h : HasMarks marks ls) :
    HasMarks marks (keyed key ls) :=
  (h.cons fun _ => hcolon).cons nofun

variable (marks) in
/-- No other mark is among tokens with these lexemes. -/
theorem isPunct_eq_false {mark : Text} {ts : List Token} (h : HasMarks marks (ts.map Token.lexeme))
    (hm : mark ∉ marks) : ∀ t ∈ ts, t.isPunct mark = false := by
  intro t ht
  refine Bool.eq_false_iff.2 fun hp => hm ?_
  obtain ⟨hkind, hvalue⟩ := isPunct_eq_true.1 hp
  rw [← hvalue]
  exact h t.lexeme (List.mem_map_of_mem ht) hkind

end HasMarks

/-- The marks that plain data is written with. -/
def dataMarks : List Text := [",", ":", "[", "]", "\x7b", "\x7d", "-"]

/-- The marks that types and maps of them are written with. -/
def typeMarks : List Text := dataMarks ++ ([".", "(", ")"] : List Text)

mutual

theorem hasMarks_data : (v : Value) → HasMarks dataMarks v.lexemes
  | .null | .bool _ | .text _ | .number (.integer (.ofNat _)) => by
    simp [Value.lexemes, HasMarks]
  | .number (.integer (.negSucc _)) => by
    rw [Value.lexemes]
    exact .cons (fun _ => by decide) (.cons (fun h => nomatch h) .nil)
  | .number (.double _) => by
    rw [Value.lexemes]
    exact .nil
  | .list vs => by
    rw [Value.lexemes]
    exact .bracketed (by decide) (by decide) (.separated (by decide) (hasMarks_items vs))
  | .object m => by
    rw [Value.lexemes]
    exact .bracketed (by decide) (by decide) (.separated (by decide) (hasMarks_members m))

theorem hasMarks_items : (vs : List Value) → ∀ ls ∈ Value.itemLexemes vs, HasMarks dataMarks ls
  | [] => nofun
  | v :: vs => by
    rw [Value.itemLexemes]
    exact List.forall_mem_cons.2 ⟨hasMarks_data v, hasMarks_items vs⟩

theorem hasMarks_members : (m : List (Text × Value)) →
    ∀ ls ∈ Value.memberLexemes m, HasMarks dataMarks ls
  | [] => nofun
  | (_, v) :: m => by
    rw [Value.memberLexemes]
    exact List.forall_mem_cons.2 ⟨(hasMarks_data v).keyed (by decide), hasMarks_members m⟩

end

theorem hasMarks_arguments (vs : List Value) :
    HasMarks dataMarks (separated (vs.map Value.lexemes)) := by
  refine .separated (by decide) fun ls hls => ?_
  obtain ⟨v, -, rfl⟩ := List.mem_map.1 hls
  exact hasMarks_data v

theorem hasMarks_type (t : WrittenType) : HasMarks typeMarks t.lexemes := by
  refine HasMarks.cons nofun fun l hl => ?_
  obtain ⟨c, -, hl⟩ := List.mem_flatMap.1 hl
  have harguments := (hasMarks_arguments c.arguments).mono
    (List.subset_append_left dataMarks ([".", "(", ")"] : List Text))
  have hcall : HasMarks typeMarks c.lexemes :=
    .cons (fun _ => by decide)
      (.cons (fun h => nomatch h) (harguments.bracketed (by decide) (by decide)))
  exact hcall l hl

theorem hasMarks_fields (fields : List (Text × WrittenType)) : HasMarks typeMarks
    (bracketed "\x7b" "\x7d" (separated (fields.map fun f => keyed f.1 f.2.lexemes))) := by
  refine .bracketed (by decide) (by decide) (.separated (by decide) fun ls hls => ?_)
  obtain ⟨f, -, rfl⟩ := List.mem_map.1 hls
  exact (hasMarks_type f.2).keyed (by decide)

theorem WrittenSchema.hasMarks_arguments (w : WrittenSchema) :
    HasMarks typeMarks (separated [w.configLexemes, w.fieldLexemes]) := by
  refine .separated (by decide) fun ls hls => ?_
  simp only [List.mem_cons, List.not_mem_nil, or_false] at hls
  rcases hls with rfl | rfl
  · exact (hasMarks_data (.object [("name", .text w.name)])).mono
      (List.subset_append_left dataMarks ([".", "(", ")"] : List Text))
  · exact hasMarks_fields w.fields

/-! ### Calls of the factory -/

/-- The lexeme opens the arguments of a call. -/
def Opens (l : Lexeme) : Prop := l.1 = .punct ∧ (l.2 = "(" ∨ l.2 = "<")

instance (l : Lexeme) : Decidable (Opens l) :=
  inferInstanceAs (Decidable (l.1 = .punct ∧ (l.2 = "(" ∨ l.2 = "<")))

theorem not_opens_ident {name : Text} : ¬ Opens (.ident, name) := fun h => nomatch h.1

theorem not_opens_string {value : Text} : ¬ Opens (.string, value) := fun h => nomatch h.1

/-- No call of the factory is among the lexemes, before tokens that do not begin with arguments. -/
structure Quiet (factory : Text) (ls : List Lexeme) : Prop where
  /-- The lexemes do not begin with arguments. -/
  head : ∀ l ∈ ls.head?, ¬ Opens l
  /-- The search passes over them. -/
  passes : ∀ ts before rest : List Token, ts.map Token.lexeme = ls →
    (∀ t ∈ rest.head?, ¬ Opens t.lexeme) →
      callSitesFrom factory before (ts ++ rest) = callSitesFrom factory (ts.reverse ++ before) rest

variable {factory : Text} {t : Token} {ts before rest : List Token}

theorem not_nextIs_of_not_opens {mark : Text} (h : ∀ t ∈ ts.head?, ¬ Opens t.lexeme)
    (hm : mark = "(" ∨ mark = "<") : nextIs ts mark = false := by
  refine Bool.eq_false_iff.2 fun hn => ?_
  obtain ⟨t, ht, hp⟩ := (Option.any_eq_true _ _).1 hn
  refine h t ht ?_
  rw [isPunct_iff.1 hp]
  exact ⟨rfl, hm⟩

/-- What stands behind the token shows that it is no call. -/
theorem callSitesFrom_of_not_opens (h : ∀ t ∈ ts.head?, ¬ Opens t.lexeme) :
    callSitesFrom factory before (t :: ts) = callSitesFrom factory (t :: before) ts := by
  rw [callSitesFrom]
  simp [not_nextIs_of_not_opens h (.inl rfl), not_nextIs_of_not_opens h (.inr rfl)]

/-- What stands before the token shows that it is no call. -/
theorem callSitesFrom_of_qualifies {u : Token} (h : u.qualifies = true) :
    callSitesFrom factory (u :: before) (t :: ts) =
      callSitesFrom factory (t :: u :: before) ts := by
  rw [callSitesFrom]
  simp [h]

theorem callSitesFrom_of_kind (h : t.kind ≠ .ident) :
    callSitesFrom factory before (t :: ts) = callSitesFrom factory (t :: before) ts := by
  rw [callSitesFrom]
  simp [Token.isIdent, h]

namespace Quiet

variable {l : Lexeme} {ls ms : List Lexeme}

theorem nil : Quiet factory [] :=
  ⟨nofun, fun ts before rest hts _ => by
    obtain rfl := List.map_eq_nil_iff.1 hts
    rfl⟩

theorem append (h : Quiet factory ls) (h' : Quiet factory ms) : Quiet factory (ls ++ ms) := by
  refine ⟨fun l hl => ?_, fun ts before rest hts hrest => ?_⟩
  · cases ls with
    | nil => exact h'.head l hl
    | cons k ls => exact h.head l hl
  · obtain ⟨us, vs, rfl, hus, hvs⟩ := List.map_eq_append_iff.1 hts
    have hbehind : ∀ t ∈ (vs ++ rest).head?, ¬ Opens t.lexeme := by
      intro t ht
      cases vs with
      | nil => exact hrest t ht
      | cons v vs =>
        rw [List.cons_append, List.head?_cons, Option.mem_some_iff] at ht
        refine h'.head t.lexeme ?_
        rw [← hvs, ← ht]
        rfl
    rw [List.append_assoc, h.passes us before _ hus hbehind, h'.passes vs _ rest hvs hrest,
      List.reverse_append, List.append_assoc]

/-- Lexemes none of which opens arguments are quiet. -/
theorem of_not_opens (h : ∀ l ∈ ls, ¬ Opens l) : Quiet factory ls := by
  refine ⟨fun l hl => h l (List.mem_of_mem_head? hl), fun ts before rest hts hrest => ?_⟩
  subst hts
  induction ts generalizing before with
  | nil => rfl
  | cons t ts ih =>
    rw [List.map_cons, List.forall_mem_cons] at h
    have hbehind : ∀ u ∈ (ts ++ rest).head?, ¬ Opens u.lexeme := by
      intro u hu
      cases ts with
      | nil => exact hrest u hu
      | cons v ts =>
        rw [List.cons_append, List.head?_cons, Option.mem_some_iff] at hu
        exact h.2 u.lexeme (by simp [hu])
    rw [List.cons_append, callSitesFrom_of_not_opens hbehind, ih _ h.2, List.reverse_cons,
      List.append_assoc, List.singleton_append]

theorem of_hasMarks (h : HasMarks dataMarks ls) : Quiet factory ls := by
  refine of_not_opens fun l hl hopens => ?_
  have hmem := h l hl hopens.1
  rcases hopens.2 with hm | hm <;> rw [hm] at hmem <;> exact absurd hmem (by decide)

theorem cons (hl : ¬ Opens l) (h : Quiet factory ls) : Quiet factory (l :: ls) :=
  (of_not_opens fun _ hk => List.mem_singleton.1 hk ▸ hl).append h

theorem flatMap {α : Type} {f : α → List Lexeme} {as : List α} (h : ∀ a ∈ as, Quiet factory (f a)) :
    Quiet factory (as.flatMap f) := by
  induction as with
  | nil => exact nil
  | cons a as ih =>
    rw [List.forall_mem_cons] at h
    rw [List.flatMap_cons]
    exact h.1.append (ih h.2)

theorem separated {lss : List (List Lexeme)} (h : ∀ ls ∈ lss, Quiet factory ls) :
    Quiet factory (separated lss) := by
  induction lss with
  | nil => exact nil
  | cons ls lss ih =>
    rw [List.forall_mem_cons] at h
    cases lss with
    | nil => exact h.1
    | cons ms lss =>
      exact h.1.append (.cons (by decide) (ih h.2))

end Quiet

/-- A written call is quiet: its parenthesis opens behind a member. -/
theorem quiet_call (c : WrittenCall) : Quiet factory c.lexemes := by
  refine ⟨?_, fun ts before rest hts hrest => ?_⟩
  · rintro l ⟨⟩
    decide
  obtain ⟨start₁, stop₁, _, rfl, hname⟩ := exists_of_map_cons hts
  obtain ⟨start₂, stop₂, _, rfl, hparen⟩ := exists_of_map_cons hname
  obtain ⟨start₃, stop₃, us, rfl, hus⟩ := exists_of_map_cons hparen
  have hquiet : Quiet factory
      (separated (c.arguments.map Value.lexemes) ++ [(TokenKind.punct, Text.ofString ")")]) :=
    (Quiet.of_hasMarks (hasMarks_arguments c.arguments)).append (.cons (by decide) .nil)
  rw [List.cons_append, callSitesFrom_of_kind (by simp), List.cons_append,
    callSitesFrom_of_qualifies rfl, List.cons_append, callSitesFrom_of_kind (by simp),
    hquiet.passes us _ rest hus hrest]
  simp

theorem quiet_type (t : WrittenType) : Quiet factory t.lexemes :=
  .cons not_opens_ident (.flatMap fun c _ => quiet_call c)

theorem quiet_declaration {name : Text} {ls : List Lexeme} (h : Quiet factory ls) :
    Quiet factory (WrittenSchema.declarationLexemes name ls) :=
  .cons not_opens_ident (.cons not_opens_ident (.cons (by decide) h))

namespace WrittenSchema

variable (w : WrittenSchema)

theorem quiet_constants : Quiet factory
    (w.constants.flatMap fun c => declarationLexemes c.1 c.2.lexemes) :=
  .flatMap fun c _ => quiet_declaration (quiet_type c.2)

theorem quiet_fieldLexemes : Quiet factory w.fieldLexemes := by
  refine .cons (by decide) (.append (.separated fun ls hls => ?_) (.cons (by decide) .nil))
  obtain ⟨f, -, rfl⟩ := List.mem_map.1 hls
  exact .cons not_opens_ident (.cons (by decide) (quiet_type f.2))

theorem quiet_configLexemes : Quiet factory w.configLexemes :=
  .cons (by decide) (.cons not_opens_ident (.cons (by decide)
    (.cons not_opens_string (.cons (by decide) .nil))))

/-- Behind its parenthesis, the call of the factory is quiet. -/
theorem quiet_arguments : Quiet factory
    (separated [w.configLexemes, w.fieldLexemes] ++ [(TokenKind.punct, Text.ofString ")")]) := by
  refine .append (.separated fun ls hls => ?_) (.cons (by decide) .nil)
  simp only [List.mem_cons, List.not_mem_nil, or_false] at hls
  rcases hls with rfl | rfl
  · exact w.quiet_configLexemes
  · exact w.quiet_fieldLexemes

/-- The tokens of a schema, which are those of the constants, of the beginning of a declaration and
of the call of the factory. -/
structure Tokens where
  /-- The tokens of the constants. -/
  constants : List Token
  /-- The keyword of the resource. -/
  keyword : Token
  /-- The variable of the resource. -/
  name : Token
  /-- The equals sign behind it. -/
  equals : Token
  /-- The factory. -/
  factory : Token
  /-- The parenthesis behind it. -/
  opener : Token
  /-- The configuration and the fields. -/
  arguments : List Token
  /-- The parenthesis behind them. -/
  closer : Token
  constants_eq : constants.map Token.lexeme =
    w.constants.flatMap fun c => declarationLexemes c.1 c.2.lexemes
  keyword_is : keyword.isIdent "const" = true
  name_is : name.isIdent w.varName = true
  equals_is : equals.isPunct "=" = true
  factory_is : factory.isIdent "defineResource" = true
  opener_is : opener.isPunct "(" = true
  arguments_eq : arguments.map Token.lexeme = separated [w.configLexemes, w.fieldLexemes]
  closer_is : closer.isPunct ")" = true

namespace Tokens

variable {w} (x : w.Tokens)

/-- The tokens behind the factory, up to the end of the source. -/
def behind (stop : Token) : List Token := x.opener :: (x.arguments ++ [x.closer, stop])

/-- All tokens, up to the end of the source. -/
def all (stop : Token) : List Token :=
  x.constants ++ x.keyword :: x.name :: x.equals :: x.factory :: x.behind stop

end Tokens

/-- Tokens with the lexemes of a schema are its tokens. -/
theorem exists_tokens (h : ts.map Token.lexeme = w.lexemes) (stop : Token) :
    ∃ x : w.Tokens, ts ++ [stop] = x.all stop := by
  obtain ⟨constants, us, rfl, hconstants, hus⟩ := List.map_eq_append_iff.1 h
  obtain ⟨keyword, us, rfl, hkeyword, hus⟩ := List.map_eq_cons_iff.1 hus
  obtain ⟨name, us, rfl, hname, hus⟩ := List.map_eq_cons_iff.1 hus
  obtain ⟨equals, us, rfl, hequals, hus⟩ := List.map_eq_cons_iff.1 hus
  obtain ⟨factory, us, rfl, hfactory, hus⟩ := List.map_eq_cons_iff.1 hus
  obtain ⟨opener, us, rfl, hopener, hus⟩ := List.map_eq_cons_iff.1 hus
  obtain ⟨arguments, us, rfl, harguments, hus⟩ := List.map_eq_append_iff.1 hus
  obtain ⟨closer, us, rfl, hcloser, hus⟩ := List.map_eq_cons_iff.1 hus
  obtain rfl := List.map_eq_nil_iff.1 hus
  refine ⟨⟨constants, keyword, name, equals, factory, opener, arguments, closer, hconstants,
    isIdent_iff.2 hkeyword, isIdent_iff.2 hname, isPunct_iff.2 hequals, isIdent_iff.2 hfactory,
    isPunct_iff.2 hopener, harguments, isPunct_iff.2 hcloser⟩, ?_⟩
  simp [Tokens.all, Tokens.behind]

variable {w} (x : w.Tokens) {stop : Token}

/-- **The factory is called once.** -/
theorem callSites_eq (hstop : stop.kind = .eof) : callSites "defineResource" (x.all stop) =
    [⟨x.equals :: x.name :: x.keyword :: x.constants.reverse, x.behind stop⟩] := by
  have hbefore : (x.constants ++ [x.keyword, x.name, x.equals]).map Token.lexeme =
      (w.constants.flatMap fun c => declarationLexemes c.1 c.2.lexemes) ++
        declarationLexemes w.varName [] := by
    simp [x.constants_eq, isIdent_iff.1 x.keyword_is, isIdent_iff.1 x.name_is,
      isPunct_iff.1 x.equals_is, declarationLexemes]
  have hquiet : Quiet "defineResource" ((w.constants.flatMap fun c =>
      declarationLexemes c.1 c.2.lexemes) ++ declarationLexemes w.varName []) :=
    w.quiet_constants.append (quiet_declaration .nil)
  have hinner : (x.arguments ++ [x.closer]).map Token.lexeme =
      separated [w.configLexemes, w.fieldLexemes] ++ [(TokenKind.punct, Text.ofString ")")] := by
    simp [x.arguments_eq, isPunct_iff.1 x.closer_is]
  have hfactory : ¬ Opens x.factory.lexeme := by
    rw [isIdent_iff.1 x.factory_is]
    exact not_opens_ident
  have hend : ¬ Opens stop.lexeme := by
    intro h
    have : stop.kind = .punct := h.1
    rw [hstop] at this
    cases this
  have hequals : x.equals.qualifies = false := by
    obtain ⟨hkind, hvalue⟩ := isPunct_eq_true.1 x.equals_is
    rw [Token.qualifies, Token.isIdent, Token.isPunct, Token.isPunct, hkind, hvalue]
    decide
  have hrest : callSitesFrom "defineResource"
      (x.factory :: x.equals :: x.name :: x.keyword :: x.constants.reverse) (x.behind stop) =
        [] := by
    have hopener : x.opener.kind ≠ .ident := by simp [(isPunct_eq_true.1 x.opener_is).1]
    have hsplit : x.arguments ++ [x.closer, stop] = (x.arguments ++ [x.closer]) ++ [stop] := by simp
    rw [Tokens.behind, callSitesFrom_of_kind hopener, hsplit,
      w.quiet_arguments.passes _ _ [stop] hinner (by simpa using hend),
      callSitesFrom_of_kind (by simp [hstop])]
    rfl
  have hall : x.all stop = (x.constants ++ [x.keyword, x.name, x.equals]) ++
      x.factory :: x.behind stop := by simp [Tokens.all]
  have hparen : nextIs (x.behind stop) "(" = true := x.opener_is
  rw [callSites, hall, hquiet.passes _ [] _ hbefore (by simpa using hfactory)]
  simp only [List.reverse_append, List.reverse_cons, List.reverse_nil, List.nil_append,
    List.cons_append, List.append_nil]
  rw [callSitesFrom, hrest, x.factory_is]
  simp [hequals, hparen]

/-- The resource is assigned to its variable. -/
theorem assignedName?_eq (before after : List Token) :
    CallSite.assignedName? ⟨x.equals :: x.name :: x.keyword :: before, after⟩ = some w.varName := by
  obtain ⟨hname, hvalue⟩ := isIdent_eq_true.1 x.name_is
  obtain ⟨hkeyword, hconst⟩ := isIdent_eq_true.1 x.keyword_is
  have hdeclares : x.keyword.isDeclarationKeyword = true := by
    rw [Token.isDeclarationKeyword, hkeyword, hconst]
    decide
  simp [CallSite.assignedName?, x.equals_is, hname, hdeclares, hvalue]

/-! ### The arguments of the factory -/

/-- The configuration of the resource. -/
def config (w : WrittenSchema) : Members := [("name", .text w.name)]

/-- The expression is a chain that is the type. -/
def IsTypeOf (t : WrittenType) (n : Node) : Prop := Holds t.ReadAs n.chain?

theorem isData_config (w : WrittenSchema) : (Value.object w.config).IsData := by
  have hname : Text.isIdent "name" = true := by decide
  simp [config, Value.IsData, Value.AllMembersData, Members.keys, hname]

theorem readsAs_config {source : Text} (w : WrittenSchema) :
    ReadsAs source w.configLexemes (Value.object w.config).ReadAs :=
  Value.readsAs_lexemes _ w.isData_config

theorem readsAs_fields {source : Text} (h : w.IsWritten) :
    ReadsAs source w.fieldLexemes fun n =>
      ∃ s ms, n = .object s ms ∧ List.Forall₂ (IsProperty IsTypeOf) w.fields ms :=
  Value.readsAs_properties fun f hf => WrittenType.readsAs_lexemes (h.fields f hf).2
    (WrittenType.head_of_isOver (h.fields f hf).2.isOver h.isConstantName).2

/-- The factory is called with an object that gives the name and one that gives the fields. -/
theorem finds_arguments (source : Text) (h : w.IsWritten) (rest : List Token) :
    Finds (readItems source ")" false (x.arguments ++ x.closer :: rest))
      (Holds fun r => ∃ s config s' fields, r.1 = [.object s config, .object s' fields] ∧
        Node.evaluateObject config = w.config ∧
          List.Forall₂ (IsProperty IsTypeOf) w.fields fields) rest := by
  have hparts : ∀ a ∈ [(w.configLexemes, (Value.object w.config).ReadAs), (w.fieldLexemes,
      fun n => ∃ s ms, n = .object s ms ∧ List.Forall₂ (IsProperty IsTypeOf) w.fields ms)],
      ReadsAs source a.1 a.2 := by
    intro a ha
    rcases List.mem_cons.1 ha with rfl | ha
    · exact w.readsAs_config
    · rw [List.mem_singleton.1 ha]
      exact readsAs_fields h
  refine (finds_readItems (by decide) hparts x.arguments_eq x.closer_is).mono
    fun _ h => h.mono ?_
  rintro ⟨_, stop⟩ (_ | ⟨hconfig, _ | ⟨⟨s', fields, rfl, hfields⟩, _ | _⟩⟩)
  have hvalue := Value.evaluate_of_readAs _ w.isData_config hconfig
  cases hconfig with
  | object hconfig =>
    refine ⟨_, _, s', fields, rfl, ?_, hfields⟩
    rw [Node.evaluate, Value.object.injEq] at hvalue
    exact hvalue

/-- **The call gives the configuration and the fields.** -/
theorem readCall_eq {source : Text} (h : w.IsWritten) (before : List Token) :
    ∃ config fields, readCall source ⟨before, x.behind stop⟩ = .ok (config, fields) ∧
      Node.evaluateObject config = w.config ∧
      List.Forall₂ (IsProperty IsTypeOf) w.fields fields := by
  obtain ⟨⟨_, rest, hle⟩, hp, ⟨⟨_, _⟩, rfl, s, config, s', fields, rfl, hconfig, hfields⟩, -⟩ :=
    finds_arguments x source h [stop]
  refine ⟨config, fields, ?_, hconfig, hfields⟩
  have hless : nextIs (x.behind stop) "<" = false := by
    have := isPunct_eq_true.1 x.opener_is
    rw [nextIs, Tokens.behind, List.head?_cons, Option.any_some, Token.isPunct, this.1, this.2]
    decide
  have hfrom : CallSite.fromParenthesis ⟨before, x.behind stop⟩ = x.behind stop := by
    rw [CallSite.fromParenthesis]
    simp [hless]
  have hread : readArguments source (x.behind stop) =
      .ok (some [.object s config, .object s' fields], rest) := by
    change (readItems source ")" false (x.arguments ++ x.closer :: [stop])).map _ = _
    rw [hp]
    rfl
  rw [readCall, hfrom, hread]
  rfl

end WrittenSchema

end Scaffold
