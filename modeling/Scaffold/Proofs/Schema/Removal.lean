import Scaffold.Proofs.Expr.Block
import Scaffold.Proofs.Schema.Revision

/-!
# Declarations that fields do not lead to

A declaration can be removed without changing a field if no field leads to a name that it declares
(`extract_without_declaration`), be it at the top of the source, in a function before or behind the
call, or in a function that is a part of the call or of a constant: there it is a passage within a
block (`Versions.Block`), and may be a part of texts that are kept verbatim.

Where a declaration stands does not matter otherwise: a declaration in a function hides one of the
same name at the top (`extract_nested_declaration`).
-/

namespace Scaffold

open Scaffold.Expr

variable {factory : Text} {i : Insertion} {d : Declaration} {v : Versions} {hides : Span → Prop}
  {N : Text → Prop} {keyword : Token} {ts us rest rest' T : List Token} {cs cs' : Constants}

/-! ### What goes on around the passage -/

/-- What is read from the tokens on, in front of the passage, ends there, or goes on behind a block
that the passage stands in. -/
inductive Undisturbed (v : Versions) (rest rest' ts : List Token) : Prop
  /-- It ends in front of the passage. -/
  | ends (h : LinksEndWithin rest rest' ts)
  /-- It goes on behind a block. -/
  | around (b : v.Block) (h : ts ++ rest = b.ahead ++ b.before)
      (h' : ts ++ rest' = b.ahead ++ b.after)

theorem Undisturbed.exists_mirror (h : Undisturbed v rest rest' ts) (hahead : ∀ u ∈ ts, v.Ahead u)
    (hhides : ∀ s, v.Encloses s → hides s) :
    ∃ m : Mirror v.before v.after hides, (∀ u, v.Ahead u → m.twin u u) ∧
      m.near 0 (ts ++ rest) (ts ++ rest') := by
  cases h with
  | ends h => exact Versions.exists_mirror hides h hahead
  | around b h h' =>
    refine ⟨b.around hhides, fun u hu => .ahead hu, ?_⟩
    rw [h, h']
    exact .ahead (List.suffix_refl _)

/-- The value is no chain, or its links are read undisturbed. -/
def ValueUndisturbed (v : Versions) (rest rest' value : List Token) : Prop :=
  ∃ head ts, value = head :: ts ∧
    (head.kind = .ident ∧ literalName? head.value = none → Undisturbed v rest rest' ts)

theorem ValueUndisturbed.alike {value : List Token} (h : ValueUndisturbed v rest rest' value)
    (hahead : ∀ u ∈ value, v.Ahead u) (hhides : ∀ s, v.Encloses s → hides s) :
    v.ValueAlike hides rest rest' value := by
  obtain ⟨head, ts, rfl, hchain⟩ := h
  by_cases hhead : head.kind = .ident ∧ literalName? head.value = none
  · obtain ⟨m, hm, hnear⟩ := (hchain hhead).exists_mirror (fun u hu => hahead u (.tail _ hu)) hhides
    exact m.related_leadingChain (hm _ (hahead head List.mem_cons_self)) hnear
  · exact Versions.valueAlike_of_endsWithin (.other hhead) hahead

/-! ### What is removed -/

/-- No declaration reaches from tokens that do not end with a keyword to behind them, unless an
equals sign follows. -/
theorem declaredName?_append (hne : us ≠ []) (hlength : us.length ≤ 2)
    (hlast : ∀ t ∈ us.getLast?, t.isDeclarationKeyword = false) (hequals : nextIs ts "=" = false) :
    declaredName? (us ++ ts) = none := by
  rw [Option.eq_none_iff_forall_ne_some]
  intro name hname
  obtain ⟨k, x, eq, value, hus, -, hk, -, heq, -⟩ := exists_of_declaredName? hname
  rcases us with _ | ⟨a, _ | ⟨b, _ | ⟨c, us⟩⟩⟩
  · exact hne rfl
  · obtain ⟨rfl, -⟩ := List.cons.inj hus
    cases (hlast a rfl).symm.trans hk
  · simp only [List.cons_append, List.nil_append, List.cons.injEq] at hus
    obtain ⟨-, -, rfl⟩ := hus
    cases hequals.symm.trans heq
  · simp at hlength

namespace Insertion

/-- **The constants agree with and without the passage**, but for the names declared in it. -/
theorem agree_removing (hinserted : i.inserted = keyword :: T)
    (hkeyword : keyword.isDeclarationKeyword = true)
    (hlast : ∀ t ∈ i.ahead.getLast?, t.isDeclarationKeyword = false)
    (hequals : nextIs i.behind "=" = false)
    (hvalues : DeclaredValues
      (ValueUndisturbed i.removing (i.inserted ++ i.behindLong) i.behindShort)
      N i.ahead)
    (hnames : ∀ name, DeclaredIn i.inserted i.behindLong name → ¬ N name)
    (h : collectConstants i.long i.longTokens = .ok cs)
    (h' : collectConstants i.short i.shortTokens = .ok cs') :
    cs.Agree i.removing.Encloses N cs' := by
  have hne : i.behind ≠ [] := behind_ne_nil (by rw [hinserted]; exact List.cons_ne_nil _ _)
  have hagree := @Versions.agree_constants i.removing.Encloses N i.ahead i.behind cs cs' i.removing
    i.inserted [] (sealed_behind hne)
  simp only [inBefore_removing, inAfter_removing, before_removing, after_removing, List.nil_append]
    at hagree
  refine hagree (fun k x eq value hsuffix hdeclared hname => ?_) ?_ hnames ?_ h h'
  · have hvalue : value <:+ i.ahead := List.IsSuffix.trans ⟨[k, x, eq], rfl⟩ hsuffix
    exact (hvalues k x eq value hsuffix hdeclared hname).alike
      (fun u hu => i.stops_le u (hvalue.subset hu)) fun _ => id
  · rintro vs name hvs hvsne hlength hdeclared -
    have hvslast : ∀ t ∈ vs.getLast?, t.isDeclarationKeyword = false := by
      obtain ⟨ws, hws⟩ := hvs
      rwa [← hws, List.getLast?_append_of_ne_nil _ hvsne] at hlast
    -- a keyword stands behind these tokens, or what stands behind the passage: no equals sign
    have hfirst : nextIs (i.inserted ++ i.behindLong) "=" = false := by
      rw [hinserted]
      exact isPunct_of_isDeclarationKeyword hkeyword "="
    have hshort : nextIs i.behindShort "=" = false := (nextIs_relocated _ _).trans hequals
    rw [declaredName?_append hvsne hlength hvslast hfirst,
      declaredName?_append hvsne hlength hvslast hshort] at hdeclared
    rcases hdeclared with hdeclared | hdeclared <;> cases hdeclared
  · rintro name ⟨vs, hvs, hvsne, -⟩
    exact absurd (List.suffix_nil.1 hvs) hvsne

end Insertion

/-- The call is read alike without the passage, up to texts that the passage is a part of. -/
theorem related_readCall_removing {site site' : CallSite}
    (hcall : SameCall i.removing i.ahead i.inserted [] i.behind site site')
    (hopens : (nextIs site.after "(" || nextIs site.after "<") = true) (hne : i.behind ≠ [])
    (hfront : site.before.length < i.ahead.length → nextIs site.fromParenthesis "(" = true ∧
      Undisturbed i.removing (i.inserted ++ i.behindLong) i.behindShort
        (i.ahead.drop (site.before.length + 1))) :
    Except.Related (CallAlike i.removing.Encloses) (readCall i.long site)
      (readCall i.short site') := by
  have hrelated : Except.Related (CallAlike i.removing.Encloses) (readCall i.removing.before site)
      (readCall i.removing.after site') := by
    refine hcall.related_readCall (Insertion.sealed_behind hne) hopens fun hlength => ?_
    obtain ⟨hparen, hlinks⟩ := hfront hlength
    obtain ⟨m, -, hnear⟩ := hlinks.exists_mirror
      (fun u hu => i.stops_le u (List.mem_of_mem_drop hu)) fun _ => id
    exact ⟨hparen, m, by simpa using hnear⟩
  simpa using hrelated

/-- **Declarations that no field leads to do not matter**, wherever they stand.  A source that
declares a resource declares one with the same fields when a declaration that does not contain the
call is removed, if no field leads to a name that is declared by it.  What is read of the call and
of the constants that fields lead to is not disturbed by the passage, which is no part of a text
that the name of the resource or the metadata of a field is made of; the factory is still called
once. -/
theorem extract_without_declaration (h : findDeclaration factory i.long = .ok d)
    (hinserted : i.inserted = keyword :: T) (hkeyword : keyword.isDeclarationKeyword = true)
    (hnames : ∀ name, DeclaredIn i.inserted i.behindLong name → ¬ d.LeadsTo name)
    (houtside : d.site.before.length < i.ahead.length ∨
      (i.ahead ++ i.inserted).length ≤ d.site.before.length)
    (hlast : ∀ t ∈ i.ahead.getLast?, t.isDeclarationKeyword = false ∧ t.qualifies = false)
    (hequals : nextIs i.behind "=" = false)
    (hone : (callSites factory i.shortTokens).length = 1)
    (hfront : d.site.before.length < i.ahead.length → nextIs d.site.fromParenthesis "(" = true ∧
      Undisturbed i.removing (i.inserted ++ i.behindLong) i.behindShort
        (i.ahead.drop (d.site.before.length + 1)))
    (hvalues : DeclaredValues
      (ValueUndisturbed i.removing (i.inserted ++ i.behindLong) i.behindShort)
      d.LeadsTo i.ahead)
    (hname : ∀ config fields, readCall i.long d.site = .ok (config, fields) →
      ∀ value ∈ Member.lastValue? config "name", value.Shown i.removing.Encloses)
    (hmetadata : d.MetadataShown i.removing.Encloses)
    (hnumbers : ∀ e, ¬ RefusesNumber i.shortTokens e) (origin : Text) :
    (extract factory origin i.short).1.map Resource.fields =
      (extract factory origin i.long).1.map Resource.fields := by
  have hne : i.behind ≠ [] :=
    Insertion.behind_ne_nil (by rw [hinserted]; exact List.cons_ne_nil _ _)
  have hmem : d.site ∈ callSites factory i.longTokens :=
    mem_callSites_of_onlyCall ((findDeclaration_eq_ok_iff i.tokenize_long).1 h).1
  obtain ⟨site', hcall⟩ := @SameCall.exists_of_mem factory i.behind i.removing i.ahead i.inserted []
    d.site hmem houtside
  have hmem' : site' ∈ callSites factory i.shortTokens := by
    have hshort : i.shortTokens = i.ahead ++ ([] ++ i.removing.inAfter i.behind) := by
      rw [i.inAfter_removing]
      rfl
    rw [hshort]
    -- nothing that the passage stood next to becomes a call, or is one no longer
    refine hcall.mem hmem (fun mark _ => ?_) fun _ => ?_
    · rw [hinserted]
      exact isPunct_of_isDeclarationKeyword hkeyword mark
    · rw [List.append_nil]
      cases hahead : i.ahead.getLast? with
      | none => rfl
      | some t => exact (hlast t hahead).2
  obtain ⟨-, -, -, -, hopens⟩ := mem_callSites_iff.1 hmem
  obtain ⟨d', hd', -, hsame, hfields, -, hconstants, hconstants'⟩ :=
    exists_declaration i.tokenize_long i.tokenize_short h (onlyCall_of_mem hone hmem')
      (related_readCall_removing hcall hopens hne hfront) hname hnumbers
  have hagree := Insertion.agree_removing hinserted hkeyword (fun t ht => (hlast t ht).1) hequals
    hvalues hnames hconstants hconstants'
  have heq := Declaration.fields_eq hfields hagree hmetadata origin
  rw [extract_eq_of_findDeclaration h, extract_eq_of_findDeclaration hd', hsame]
  split
  · exact congrArg Except.ok heq.symm
  · rfl

/-- A schema with a declaration in a function that is the argument of a constructor. -/
def callbackInsertion : Insertion where
  front := "defineResource(\x7bname: 'a'\x7d, \x7bid: z.custom(v => \x7b "
  passage := "const t = v; "
  back := "return t \x7d)\x7d)"
  ahead := [⟨.ident, "defineResource", 0, 14⟩, ⟨.punct, "(", 14, 15⟩, ⟨.punct, "\x7b", 15, 16⟩,
    ⟨.ident, "name", 16, 20⟩, ⟨.punct, ":", 20, 21⟩, ⟨.string, "a", 22, 25⟩,
    ⟨.punct, "\x7d", 25, 26⟩, ⟨.punct, ",", 26, 27⟩, ⟨.punct, "\x7b", 28, 29⟩,
    ⟨.ident, "id", 29, 31⟩, ⟨.punct, ":", 31, 32⟩, ⟨.ident, "z", 33, 34⟩, ⟨.punct, ".", 34, 35⟩,
    ⟨.ident, "custom", 35, 41⟩, ⟨.punct, "(", 41, 42⟩, ⟨.ident, "v", 42, 43⟩,
    ⟨.punct, "=>", 44, 46⟩, ⟨.punct, "\x7b", 47, 48⟩]
  inserted := [⟨.ident, "const", 49, 54⟩, ⟨.ident, "t", 55, 56⟩, ⟨.punct, "=", 57, 58⟩,
    ⟨.ident, "v", 59, 60⟩, ⟨.punct, ";", 60, 61⟩]
  behind := [⟨.ident, "return", 0, 6⟩, ⟨.ident, "t", 7, 8⟩, ⟨.punct, "\x7d", 9, 10⟩,
    ⟨.punct, ")", 10, 11⟩, ⟨.punct, "\x7d", 11, 12⟩, ⟨.punct, ")", 12, 13⟩, ⟨.eof, [], 13, 13⟩]
  stops_le := by decide
  short_eq := Except.eq_ok_of_toOption (by decide +kernel)
  long_eq := Except.eq_ok_of_toOption (by decide +kernel)

/-- The body of the function. -/
def callbackBlock : callbackInsertion.removing.Block where
  ahead := (callbackInsertion.ahead.drop 1).take 16
  opener := ⟨.punct, "\x7b", 47, 48⟩
  inner := callbackInsertion.inserted ++ callbackInsertion.behindLong.take 2
  inner' := callbackInsertion.behindShort.take 2
  closer := ⟨.punct, "\x7d", 9, 10⟩
  behind := callbackInsertion.behind.drop 3
  stops_le := fun t ht => callbackInsertion.stops_le t (List.mem_of_mem_drop (i := 1) ht)
  sealed_behind := (Insertion.sealed_behind (by decide)).suffix (List.drop_suffix 3 _) (by decide)
  isPunct_opener := rfl
  isPunct_closer := rfl
  balanced_inner := balanced_of_plain (by decide) (by decide)
  balanced_inner' := balanced_of_plain (by decide) (by decide)
  not_leads := by decide
  typesSettled := fun us hus hless => by
    obtain ⟨t, rest, rfl, -, ht⟩ := exists_cons_of_nextIs hless
    have hplain : ∀ t ∈ (callbackInsertion.ahead.drop 1).take 16, t.isPunct "<" = false := by decide
    cases (hplain t (hus.subset List.mem_cons_self)).symm.trans ht

/-- The declaration of the schema. -/
def callbackDeclaration : Declaration where
  site := ⟨[], callbackInsertion.longTokens.drop 1⟩
  name := "a"
  config := Node.evaluateObject [.property "name" (.literal ⟨22, 25⟩ (.text "a"))]
  fields := [.property "id" (.chain ⟨33, 73⟩ "z" [.access "custom",
    .call [.verbatim ⟨42, 72⟩ (callbackInsertion.long.slice 42 72)]]
    (callbackInsertion.long.slice 33 73))]
  constants := [("t", ⟨"v", []⟩)]

theorem readCall_callback : readCall callbackInsertion.long callbackDeclaration.site =
    .ok ([.property "name" (.literal ⟨22, 25⟩ (.text "a"))], callbackDeclaration.fields) := by
  have hopens : callbackDeclaration.site.fromParenthesis = callbackInsertion.longTokens.drop 1 :=
    rfl
  have htokens : callbackInsertion.longTokens.drop 1 =
    [⟨.punct, "(", 14, 15⟩, ⟨.punct, "\x7b", 15, 16⟩, ⟨.ident, "name", 16, 20⟩,
    ⟨.punct, ":", 20, 21⟩, ⟨.string, "a", 22, 25⟩, ⟨.punct, "\x7d", 25, 26⟩, ⟨.punct, ",", 26, 27⟩,
    ⟨.punct, "\x7b", 28, 29⟩, ⟨.ident, "id", 29, 31⟩, ⟨.punct, ":", 31, 32⟩, ⟨.ident, "z", 33, 34⟩,
    ⟨.punct, ".", 34, 35⟩, ⟨.ident, "custom", 35, 41⟩, ⟨.punct, "(", 41, 42⟩, ⟨.ident, "v", 42, 43⟩,
    ⟨.punct, "=>", 44, 46⟩, ⟨.punct, "\x7b", 47, 48⟩, ⟨.ident, "const", 49, 54⟩,
    ⟨.ident, "t", 55, 56⟩, ⟨.punct, "=", 57, 58⟩, ⟨.ident, "v", 59, 60⟩, ⟨.punct, ";", 60, 61⟩,
    ⟨.ident, "return", 62, 68⟩, ⟨.ident, "t", 69, 70⟩, ⟨.punct, "\x7d", 71, 72⟩,
    ⟨.punct, ")", 72, 73⟩, ⟨.punct, "\x7d", 73, 74⟩, ⟨.punct, ")", 74, 75⟩, ⟨.eof, [], 75, 75⟩] :=
    rfl
  rw [readCall, hopens, htokens, callbackDeclaration]
  generalize callbackInsertion.long = source
  simp +decide [Expr.readArguments, Expr.readItems, Expr.read, Expr.readPrimary, Expr.readChain,
    Expr.readSegments, Expr.literalName?, Expr.readMembers, Expr.readMember, Expr.readVerbatim,
    Expr.skipBalanced, Expr.awaited, Expr.closerOf?, Expr.isCloser, Expr.startOf, Expr.atTerminator,
    Expr.skipAsConst, Parsed.lift, Except.map, Except.mapError, bind, Except.bind]

theorem findDeclaration_callback :
    findDeclaration "defineResource" callbackInsertion.long = .ok callbackDeclaration := by
  refine (findDeclaration_eq_ok_iff callbackInsertion.tokenize_long).2
    ⟨rfl, ⟨_, readCall_callback, rfl, rfl⟩, ?_⟩
  have htokens : callbackInsertion.longTokens = callbackInsertion.ahead ++
    (callbackInsertion.inserted ++ callbackInsertion.behindLong) := rfl
  generalize callbackInsertion.long = source
  rw [htokens]
  simp +decide [callbackInsertion, Insertion.behindLong, Token.relocated, callbackDeclaration,
    collectConstants, Expr.readLeadingChain, Expr.readChain, Expr.readSegments, Parsed.lift,
    Except.map, bind, Except.bind, pure, Except.pure, Node.chain?]

/-- The field of the schema leads to no constant. -/
theorem not_leadsTo_callback (name : Text) : ¬ callbackDeclaration.LeadsTo name := by
  rintro ⟨hz, f, hf, c, hc, next, hnext, rfl⟩
  obtain rfl := List.mem_singleton.1 hf
  obtain rfl := Option.some.inj hc
  rw [resolveChain_of_namespace rfl] at hnext
  obtain rfl := List.mem_singleton.1 hnext
  exact hz rfl

/-- **A declaration in a callback** changes nothing. -/
theorem extract_without_declaration_callback :
    (∃ r, (extract "defineResource" "<source>" callbackInsertion.long).1 = .ok r) ∧
      (extract "defineResource" "<source>" callbackInsertion.short).1.map Resource.fields =
        (extract "defineResource" "<source>" callbackInsertion.long).1.map Resource.fields := by
  constructor
  · refine ⟨callbackDeclaration.resource "<source>", ?_⟩
    rw [extract_eq_of_findDeclaration findDeclaration_callback]
    exact if_pos (by decide)
  · refine extract_without_declaration findDeclaration_callback rfl rfl
      (fun name _ => not_leadsTo_callback name) (.inl (by decide)) (by decide) rfl (by decide)
      (fun _ => ⟨by decide, .around callbackBlock rfl rfl⟩)
      (fun _ _ _ _ _ _ h => absurd h (not_leadsTo_callback _)) ?_ ?_
      (not_refusesNumber (by decide)) "<source>"
    · intro config fields hread value hvalue
      obtain ⟨rfl, -⟩ := Prod.mk.inj (Except.ok.inj (readCall_callback.symm.trans hread))
      obtain rfl := Option.some.inj hvalue
      trivial
    · intro f hf c hc call hcall
      obtain rfl := List.mem_singleton.1 hf
      obtain rfl := Option.some.inj hc
      cases hcall

/-- The tokens of `const s = z.ctor();` -/
def constantTokens (ctor : Text) (x : Nat) : List Token :=
  [⟨.ident, "const", x, x + 5⟩, ⟨.ident, "s", x + 6, x + 7⟩, ⟨.punct, "=", x + 8, x + 9⟩,
    ⟨.ident, "z", x + 10, x + 11⟩, ⟨.punct, ".", x + 11, x + 12⟩,
    ⟨.ident, ctor, x + 12, x + 12 + ctor.length⟩,
    ⟨.punct, "(", x + 12 + ctor.length, x + 13 + ctor.length⟩,
    ⟨.punct, ")", x + 13 + ctor.length, x + 14 + ctor.length⟩,
    ⟨.punct, ";", x + 14 + ctor.length, x + 15 + ctor.length⟩]

/-- Such a declaration gives the chain for `s`. -/
theorem collectConstants_constantTokens {source ctor : Text} {found : Constants} (x : Nat)
    (hts : ∀ t ∈ ts.take 2, t.isPunct "=" = false) (h : collectConstants source ts = .ok found) :
    collectConstants source (constantTokens ctor x ++ ts) =
      .ok (("s", ⟨"z", [.access ctor, .call []]⟩) :: found) := by
  have hread : readLeadingChain source ((constantTokens ctor x).drop 3 ++ ts) =
      .ok (some (.chain ⟨x + 10, x + 14 + ctor.length⟩ "z" [.access ctor, .call []]
        (source.slice (x + 10) (x + 14 + ctor.length))), ⟨.punct, ";", x + 14 + ctor.length,
          x + 15 + ctor.length⟩ :: ts) := by
    cases ts <;> simp +decide [constantTokens, Token.isPunct, Expr.nextKind, Expr.readLeadingChain,
      Expr.readItems, Expr.readChain, Expr.readSegments, Parsed.lift, Except.map]
  refine collectConstants_of_declared rfl rfl rfl hread rfl ?_
  refine (collectConstants_append ((constantTokens ctor x).drop 1) ?_).trans h
  intro t ht
  have hmem : t ∈ (constantTokens ctor x).drop 3 ++ ts.take 2 := ht
  rcases List.mem_append.1 hmem with hmem | hmem
  · simp only [constantTokens, List.drop_succ_cons, List.drop_zero, List.mem_cons, List.not_mem_nil,
      or_false] at hmem
    rcases hmem with rfl | rfl | rfl | rfl | rfl | rfl <;> rfl
  · exact hts t hmem

/-- A schema with a constant, and a function that declares its name again. -/
def shadowInsertion : Insertion where
  front := "const s = z.string(); function f() \x7b "
  passage := "const s = z.number(); "
  back := "return s \x7d defineResource(\x7bname: 'a'\x7d, \x7bid: s\x7d)"
  ahead := constantTokens "string" 0 ++ [⟨.ident, "function", 22, 30⟩, ⟨.ident, "f", 31, 32⟩,
    ⟨.punct, "(", 32, 33⟩, ⟨.punct, ")", 33, 34⟩, ⟨.punct, "\x7b", 35, 36⟩]
  inserted := constantTokens "number" 37
  behind := [⟨.ident, "return", 0, 6⟩, ⟨.ident, "s", 7, 8⟩, ⟨.punct, "\x7d", 9, 10⟩,
    ⟨.ident, "defineResource", 11, 25⟩, ⟨.punct, "(", 25, 26⟩, ⟨.punct, "\x7b", 26, 27⟩,
    ⟨.ident, "name", 27, 31⟩, ⟨.punct, ":", 31, 32⟩, ⟨.string, "a", 33, 36⟩,
    ⟨.punct, "\x7d", 36, 37⟩, ⟨.punct, ",", 37, 38⟩, ⟨.punct, "\x7b", 39, 40⟩,
    ⟨.ident, "id", 40, 42⟩, ⟨.punct, ":", 42, 43⟩, ⟨.ident, "s", 44, 45⟩, ⟨.punct, "\x7d", 45, 46⟩,
    ⟨.punct, ")", 46, 47⟩, ⟨.eof, [], 47, 47⟩]
  stops_le := by decide
  short_eq := Except.eq_ok_of_toOption (by decide +kernel)
  long_eq := Except.eq_ok_of_toOption (by decide +kernel)

/-- The call of the schema, wherever it stands. -/
theorem readCall_shadow (source : Text) (before : List Token) (x : Nat) :
    readCall source ⟨before, (shadowInsertion.behind.drop 4).map (Token.relocated (x + ·))⟩ =
      .ok ([.property "name" (.literal ⟨x + 33, x + 36⟩ (.text "a"))],
        [.property "id" (.chain ⟨x + 44, x + 45⟩ "s" [] (source.slice (x + 44) (x + 45)))]) := by
  have hopens : CallSite.fromParenthesis
      ⟨before, (shadowInsertion.behind.drop 4).map (Token.relocated (x + ·))⟩ =
        [⟨.punct, "(", x + 25, x + 26⟩, ⟨.punct, "\x7b", x + 26, x + 27⟩,
          ⟨.ident, "name", x + 27, x + 31⟩, ⟨.punct, ":", x + 31, x + 32⟩,
          ⟨.string, "a", x + 33, x + 36⟩, ⟨.punct, "\x7d", x + 36, x + 37⟩,
          ⟨.punct, ",", x + 37, x + 38⟩, ⟨.punct, "\x7b", x + 39, x + 40⟩,
          ⟨.ident, "id", x + 40, x + 42⟩, ⟨.punct, ":", x + 42, x + 43⟩,
          ⟨.ident, "s", x + 44, x + 45⟩, ⟨.punct, "\x7d", x + 45, x + 46⟩,
          ⟨.punct, ")", x + 46, x + 47⟩, ⟨.eof, [], x + 47, x + 47⟩] := rfl
  rw [readCall, hopens]
  simp +decide [Token.isPunct, Token.isIdent, Expr.readArguments, Expr.readItems, Expr.read,
    Expr.readPrimary, Expr.readChain, Expr.readSegments, Expr.literalName?, Expr.readMembers,
    Expr.readMember, Expr.atTerminator, Parsed.lift, Except.map, Except.mapError, bind, Except.bind,
    Expr.skipAsConst]

/-- The type of the field is that of the chain that `s` stands for. -/
theorem typeNames_shadow {source : Text} {ts : List Token} {site : CallSite} {sp sp' : Span}
    {text : Text} {next : Chain} (hts : tokenize source = .ok ts)
    (hsite : onlyCall "defineResource" ts = .ok site)
    (hcall : readCall source site = .ok ([.property "name" (.literal sp (.text "a"))],
      [.property "id" (.chain sp' "s" [] text)]))
    (hconstants : collectConstants source ts = .ok cs) (hs : cs.get? "s" = some next)
    (hnext : next.head = schemaNamespace) :
    (extract "defineResource" "<source>" source).1.map (fun r => r.fields.map (·.typeName)) =
      .ok [(constructorOf [⟨"s", []⟩, next]).1] := by
  have hd : findDeclaration "defineResource" source =
      .ok ⟨site, "a", _, [.property "id" (.chain sp' "s" [] text)], cs⟩ :=
    (findDeclaration_eq_ok_iff hts).2 ⟨hsite, ⟨_, hcall, rfl, rfl⟩, hconstants⟩
  have hway : resolveChain cs ⟨"s", []⟩ = [⟨"s", []⟩, next] := by
    rw [resolveChain_of_get? (by decide) hs, resolveChain_of_namespace hnext]
  rw [extract_eq_of_findDeclaration hd, if_pos (by decide : Text.IsScalar "a")]
  simp [Except.map, Declaration.resource, Member.properties, readField, Node.chain?, hway]

/-- The constants of the schema, given the tokens in the function and behind it. -/
theorem collectConstants_shadow {source : Text} {found : Constants}
    (hts : ∀ t ∈ ts.take 2, t.isPunct "=" = false) (h : collectConstants source ts = .ok found) :
    collectConstants source (shadowInsertion.ahead ++ ts) =
      .ok (("s", ⟨"z", [.access "string", .call []]⟩) :: found) := by
  rw [shadowInsertion, List.append_assoc]
  refine collectConstants_constantTokens 0 (by simp +decide) ?_
  refine (collectConstants_append _ ?_).trans h
  intro t ht
  rw [List.drop_append_of_le_length (by decide), List.mem_append] at ht
  rcases ht with ht | ht
  · have hplain : ∀ t ∈ shadowInsertion.ahead.drop 11, t.isPunct "=" = false := by decide
    exact hplain t ht
  · exact hts t ht

theorem collectConstants_behind_shadow (source : Text) (f : Nat → Nat) :
    collectConstants source (shadowInsertion.behind.map (Token.relocated f)) = .ok [] := by
  rw [← List.append_nil (shadowInsertion.behind.map _), collectConstants_append]
  · rfl
  · intro t ht
    rw [List.take_nil, List.append_nil, ← List.map_drop] at ht
    obtain ⟨u, hu, rfl⟩ := List.mem_map.1 ht
    have hplain : ∀ u ∈ shadowInsertion.behind.drop 2, u.isPunct "=" = false := by decide
    exact hplain u hu

/-- **A declaration in a function hides one of the same name at the top**, although the field does
not stand in the function. -/
theorem extract_nested_declaration :
    (extract "defineResource" "<source>" shadowInsertion.long).1.map
        (fun r => r.fields.map (·.typeName)) = .ok ["number"] ∧
      (extract "defineResource" "<source>" shadowInsertion.short).1.map
        (fun r => r.fields.map (·.typeName)) = .ok ["string"] := by
  constructor
  · have hinner : collectConstants shadowInsertion.long (shadowInsertion.inserted ++
        shadowInsertion.behindLong) = .ok [("s", ⟨"z", [.access "number", .call []]⟩)] :=
      collectConstants_constantTokens 37 (by decide) (collectConstants_behind_shadow _ _)
    exact typeNames_shadow shadowInsertion.tokenize_long rfl
      (readCall_shadow _ (shadowInsertion.longTokens.take 26).reverse 59)
      (collectConstants_shadow (by decide) hinner) rfl rfl
  · have hinner : collectConstants shadowInsertion.short shadowInsertion.behindShort = .ok [] :=
      collectConstants_behind_shadow _ _
    exact typeNames_shadow shadowInsertion.tokenize_short rfl
      (readCall_shadow _ (shadowInsertion.shortTokens.take 17).reverse 37)
      (collectConstants_shadow (by decide) hinner) rfl rfl

end Scaffold
