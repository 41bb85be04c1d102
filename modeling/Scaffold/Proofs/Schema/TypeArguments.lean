import Scaffold.Proofs.Schema.Revision

/-!
# Type arguments of the call

Type arguments between the name of the factory and its parenthesis are passed over, so that the
resource does not depend on them (`extract_typeArguments`).  They may be of any length and nesting,
but a semicolon or an arrow among them ends the search for the parenthesis: the call is then read
from the angle bracket on, and is refused (`extract_typeArguments_semicolon`).
-/

namespace Scaffold

open Scaffold.Expr

/-- Tokens between angle brackets: further angle brackets among them are nested, and neither a
semicolon nor an arrow is one of them.  Brackets of other sorts do not matter. -/
inductive Angled : List Token → Prop
  /-- No tokens. -/
  | nil : Angled []
  /-- A token that is no angle bracket. -/
  | plain {t : Token} {ts : List Token} (hkind : t.kind ≠ .eof)
    (hmark : t.kind = .punct → t.value ∉ [Text.ofString "<", ">", ";", "=>"]) (h : Angled ts) :
    Angled (t :: ts)
  /-- Angle brackets. -/
  | group {opener closer : Token} {body ts : List Token} (hopener : opener.isPunct "<" = true)
    (hcloser : closer.isPunct ">" = true) (hbody : Angled body) (h : Angled ts) :
    Angled (opener :: (body ++ closer :: ts))

theorem skipTypeArguments_opener {t : Token} (ht : t.isPunct "<" = true) (depth : Int)
    (ts : List Token) : skipTypeArguments depth (t :: ts) = skipTypeArguments (depth + 1) ts := by
  obtain ⟨hkind, hvalue⟩ := isPunct_eq_true.1 ht
  have hend : ¬ (t.kind = .eof ∨ t.isPunct ";" = true) := by
    simp +decide [Token.isPunct, hkind, hvalue]
  rw [skipTypeArguments, if_neg hend, if_pos ht]

theorem skipTypeArguments_closer {t : Token} (ht : t.isPunct ">" = true) (depth : Int)
    (ts : List Token) : skipTypeArguments depth (t :: ts) =
      if depth = 1 then (if nextIs ts "(" then some ts else none)
      else skipTypeArguments (depth - 1) ts := by
  obtain ⟨hkind, hvalue⟩ := isPunct_eq_true.1 ht
  have hend : ¬ (t.kind = .eof ∨ t.isPunct ";" = true) := by
    simp +decide [Token.isPunct, hkind, hvalue]
  have hless : ¬ t.isPunct "<" = true := by
    simp +decide [Token.isPunct, hkind, hvalue]
  rw [skipTypeArguments, if_neg hend, if_neg hless, if_pos ht]

/-- **Angled tokens are passed over** inside the brackets that are open. -/
theorem Angled.skipTypeArguments {us : List Token} (h : Angled us) {depth : Int}
    (hdepth : 0 < depth)
    (ts : List Token) :
    Expr.skipTypeArguments depth (us ++ ts) = Expr.skipTypeArguments depth ts := by
  induction h generalizing depth ts with
  | nil => rfl
  | @plain t us hkind hmark _ ih =>
    have hnot : ∀ mark ∈ [Text.ofString "<", ">", ";", "=>"], ¬ t.isPunct mark = true := by
      intro mark hmem hp
      obtain ⟨hpunct, hvalue⟩ := isPunct_eq_true.1 hp
      exact hmark hpunct (hvalue ▸ hmem)
    rw [List.cons_append, Expr.skipTypeArguments, if_neg fun h => h.elim hkind (hnot ";" (by simp)),
      if_neg (hnot "<" (by simp)), if_neg (hnot ">" (by simp)), if_neg (hnot "=>" (by simp)),
      ih hdepth]
  | @group opener closer body us hopener hcloser _ _ ihbody ih =>
    rw [List.cons_append, List.append_assoc, List.cons_append, skipTypeArguments_opener hopener,
      ihbody (by omega), skipTypeArguments_closer hcloser, if_neg (by omega), Int.add_sub_cancel,
      ih hdepth]

/-- A whole list of type arguments is passed over if a parenthesis follows. -/
theorem Angled.skipTypeArguments_list {l g : Token} {us ts : List Token} (h : Angled us)
    (hl : l.isPunct "<" = true) (hg : g.isPunct ">" = true) (hopens : nextIs ts "(" = true) :
    Expr.skipTypeArguments 0 (l :: (us ++ g :: ts)) = some ts := by
  rw [skipTypeArguments_opener hl, h.skipTypeArguments (by omega), skipTypeArguments_closer hg,
    if_pos (Int.zero_add 1), if_pos hopens]

variable {factory : Text} {i : Insertion} {d : Declaration}

/-- Nothing is declared among tokens without an equals sign that end with a mark. -/
theorem not_declaredIn {us rest : List Token} {t : Token} (hkind : t.kind = .punct)
    (hus : ∀ u ∈ us ++ [t], u.isPunct "=" = false) (name : Text) :
    ¬ DeclaredIn (us ++ [t]) rest name := by
  rintro ⟨vs, hvs, hne, hname⟩
  rcases List.suffix_concat_iff.1 hvs with rfl | ⟨ws, rfl, hws⟩
  · exact hne rfl
  · rw [List.append_assoc, List.singleton_append] at hname
    by_cases hlength : ws.length ≤ 2
    · rw [declaredName?_append_mark hlength hkind (hus t (by simp))] at hname
      cases hname
    · obtain ⟨keyword, x, eq, value, hts, -, -, -, heq, -⟩ := exists_of_declaredName? hname
      rcases ws with _ | ⟨a, _ | ⟨b, _ | ⟨c, ws⟩⟩⟩
      case cons.cons.cons =>
        obtain ⟨-, hts⟩ := List.cons.inj hts
        obtain ⟨-, hts⟩ := List.cons.inj hts
        obtain ⟨rfl, -⟩ := List.cons.inj hts
        have hmem : c ∈ us ++ [t] := List.mem_append_left _ (hws.subset (by simp))
        cases (hus c hmem).symm.trans heq
      all_goals exact absurd (by simp) hlength

section Call

variable {A T : List Token} {f l g : Token}

/-- The call is found again, with its type arguments behind the name. -/
theorem onlyCall_typeArguments
    (hsite : onlyCall factory i.shortTokens = .ok ⟨A.reverse, i.behindShort⟩)
    (hahead : i.ahead = A ++ [f]) (hinserted : i.inserted = l :: (T ++ [g]))
    (hl : l.isPunct "<" = true) (hone : (callSites factory i.longTokens).length = 1) :
    onlyCall factory i.longTokens = .ok ⟨A.reverse, l :: (T ++ g :: i.behindLong)⟩ := by
  refine onlyCall_of_mem hone (mem_callSites_iff.2 ?_)
  obtain ⟨f', hts, hf, hqualifies, -⟩ := mem_callSites_iff.1 (mem_callSites_of_onlyCall hsite)
  rw [Insertion.shortTokens, hahead, List.append_assoc, List.singleton_append,
    List.reverse_reverse] at hts
  obtain ⟨rfl, -⟩ := List.cons.inj (List.append_cancel_left hts)
  refine ⟨f, ?_, hf, hqualifies, ?_⟩
  · simp [Insertion.longTokens, hahead, hinserted]
  · have hless : nextIs (l :: (T ++ g :: i.behindLong)) "<" = true := hl
    rw [hless, Bool.or_true]

/-- The call is read behind its type arguments as it is read without them. -/
theorem related_readCall_typeArguments (hopens : nextIs i.behind "(" = true) (hT : Angled T)
    (hl : l.isPunct "<" = true) (hg : g.isPunct ">" = true) (before : List Token) :
    Except.Related (CallAlike fun _ => False) (readCall i.short ⟨before, i.behindShort⟩)
      (readCall i.long ⟨before, l :: (T ++ g :: i.behindLong)⟩) := by
  have hne := ne_nil_of_nextIs hopens
  have hsealed := Insertion.sealed_behind hne
  have hshort : nextIs i.behindShort "(" = true := (nextIs_relocated _ _).trans hopens
  have hlong : nextIs i.behindLong "(" = true := (nextIs_relocated _ _).trans hopens
  have hnotless : nextIs i.behindShort "<" = false := by
    obtain ⟨p, hp, hparen⟩ := (Option.any_eq_true _ _).1 hshort
    rw [nextIs, hp, Option.any_some]
    exact isPunct_of_ne (isPunct_eq_true.1 hparen) (by decide)
  have hfrom : CallSite.fromParenthesis ⟨before, i.behindShort⟩ = i.behindShort := by
    rw [CallSite.fromParenthesis]
    simp [hnotless]
  have hfrom' : CallSite.fromParenthesis ⟨before, l :: (T ++ g :: i.behindLong)⟩ =
    i.behindLong := by
    have hless : nextIs (l :: (T ++ g :: i.behindLong)) "<" = true := hl
    rw [CallSite.fromParenthesis]
    simp [hless, hT.skipTypeArguments_list hl hg hlong]
  refine related_readCall ?_
  rw [hfrom, hfrom', ← i.before_adding, ← i.after_adding, ← i.inBefore_adding, ← i.inAfter_adding]
  refine (i.adding.behind _ hsealed).related_arguments (k := 0) ?_ trivial
  have hmoved : i.adding.Moved i.behind (i.adding.inBefore i.behind) (i.adding.inAfter i.behind) :=
    ⟨_, hne, List.suffix_refl _, rfl, rfl⟩
  refine hmoved.tail hsealed (?_ : nextIs _ "(" = true)
  rw [i.inBefore_adding]
  exact hshort

/-- No declaration gains or loses its name with the type arguments. -/
theorem agree_typeArguments {N : Text → Prop} {cs cs' : Constants}
    (hopens : nextIs i.behind "(" = true) (hinserted : i.inserted = l :: (T ++ [g]))
    (hl : l.isPunct "<" = true) (hg : g.isPunct ">" = true)
    (hequals : ∀ t ∈ T, t.isPunct "=" = false)
    (hsettled : Settled N i.ahead i.behindShort (i.inserted ++ i.behindLong))
    (h : collectConstants i.short i.shortTokens = .ok cs)
    (h' : collectConstants i.long i.longTokens = .ok cs') : cs.Agree (fun _ => False) N cs' := by
  obtain ⟨hlkind, hlvalue⟩ := isPunct_eq_true.1 hl
  obtain ⟨hgkind, hgvalue⟩ := isPunct_eq_true.1 hg
  have hlmark : l.isPunct "=" = false := isPunct_of_ne ⟨hlkind, hlvalue⟩ (by decide)
  have hgmark : g.isPunct "=" = false := isPunct_of_ne ⟨hgkind, hgvalue⟩ (by decide)
  refine Insertion.agree_constants (ne_nil_of_nextIs hopens) hsettled ?_ ?_ h h'
  · rintro vs name - hlength hdeclared -
    obtain ⟨p, rest, hbehind, -, hparen⟩ := exists_cons_of_nextIs hopens
    have hpmark : (p.relocated (i.front.length + ·)).isPunct "=" = false :=
      isPunct_of_ne (isPunct_eq_true.1 hparen) (by decide)
    have hnone : declaredName? (vs ++ i.behindShort) = none := by
      rw [Insertion.behindShort, hbehind, List.map_cons]
      exact declaredName?_append_mark hlength (isPunct_eq_true.1 hparen).1 hpmark
    have hnone' : declaredName? (vs ++ (i.inserted ++ i.behindLong)) = none := by
      rw [hinserted, List.cons_append]
      exact declaredName?_append_mark hlength hlkind hlmark
    rw [hnone, hnone'] at hdeclared
    rcases hdeclared with hdeclared | hdeclared <;> cases hdeclared
  · rintro name hdeclared -
    have hmarks : ∀ u ∈ l :: T ++ [g], u.isPunct "=" = false := by
      intro u hu
      rw [List.cons_append, List.mem_cons, List.mem_append, List.mem_singleton] at hu
      rcases hu with rfl | hu | rfl
      · exact hlmark
      · exact hequals u hu
      · exact hgmark
    rw [hinserted, ← List.cons_append] at hdeclared
    exact not_declaredIn hgkind hmarks name hdeclared

/-- **Type arguments of the call do not matter.**  A source that declares a resource declares the
same one when type arguments are put between the name of the factory and the parenthesis.  They are
nested and have no semicolon, arrow or equals sign; the factory is still called once, and the
constants that fields lead to are settled in front of the call. -/
theorem extract_typeArguments (h : findDeclaration factory i.short = .ok d)
    (hahead : i.ahead = A ++ [f]) (hsite : d.site = ⟨A.reverse, i.behindShort⟩)
    (hopens : nextIs i.behind "(" = true) (hinserted : i.inserted = l :: (T ++ [g]))
    (hl : l.isPunct "<" = true) (hg : g.isPunct ">" = true) (hT : Angled T)
    (hequals : ∀ t ∈ T, t.isPunct "=" = false)
    (hone : (callSites factory i.longTokens).length = 1)
    (hsettled : Settled d.LeadsTo i.ahead i.behindShort (i.inserted ++ i.behindLong))
    (hnumbers : ∀ e, ¬ RefusesNumber i.longTokens e) (origin : Text) :
    (extract factory origin i.long).1 = (extract factory origin i.short).1 := by
  have hcalled := ((findDeclaration_eq_ok_iff i.tokenize_short).1 h).1
  rw [hsite] at hcalled
  have hcall := related_readCall_typeArguments hopens hT hl hg A.reverse
  rw [← hsite] at hcall
  obtain ⟨d', hd', hdsite, hname, hfields, hconfig, hconstants, hconstants'⟩ :=
    exists_declaration i.tokenize_short i.tokenize_long h
      (onlyCall_typeArguments hcalled hahead hinserted hl hone) hcall
      (fun _ _ _ value _ => Node.shown_of_never (fun _ => id) value) hnumbers
  have hagree := agree_typeArguments hopens hinserted hl hg hequals hsettled hconstants hconstants'
  have hsame := Declaration.fields_eq hfields hagree
    (Declaration.metadataShown_of_never fun _ => id) origin
  have hvar : (d'.resource origin).varName = (d.resource origin).varName := by
    rw [Declaration.resource, Declaration.resource, hdsite, hsite, hname]
    rfl
  rw [extract_eq_of_findDeclaration h, extract_eq_of_findDeclaration hd', hname,
    Declaration.resource_eq hname (hconfig fun _ => id) hsame.symm, hvar]

end Call

/-- A schema with a constant, whose call is given a type argument. -/
def rowInsertion : Insertion where
  front := "const s = z.string(); defineResource"
  passage := "<Row>"
  back := "(\x7bname: 'a'\x7d, \x7bid: s\x7d)"
  ahead := [⟨.ident, "const", 0, 5⟩, ⟨.ident, "s", 6, 7⟩, ⟨.punct, "=", 8, 9⟩,
    ⟨.ident, "z", 10, 11⟩, ⟨.punct, ".", 11, 12⟩, ⟨.ident, "string", 12, 18⟩, ⟨.punct, "(", 18, 19⟩,
    ⟨.punct, ")", 19, 20⟩, ⟨.punct, ";", 20, 21⟩, ⟨.ident, "defineResource", 22, 36⟩]
  inserted := [⟨.punct, "<", 36, 37⟩, ⟨.ident, "Row", 37, 40⟩, ⟨.punct, ">", 40, 41⟩]
  behind := [⟨.punct, "(", 0, 1⟩, ⟨.punct, "\x7b", 1, 2⟩, ⟨.ident, "name", 2, 6⟩,
    ⟨.punct, ":", 6, 7⟩, ⟨.string, "a", 8, 11⟩, ⟨.punct, "\x7d", 11, 12⟩, ⟨.punct, ",", 12, 13⟩,
    ⟨.punct, "\x7b", 14, 15⟩, ⟨.ident, "id", 15, 17⟩, ⟨.punct, ":", 17, 18⟩, ⟨.ident, "s", 19, 20⟩,
    ⟨.punct, "\x7d", 20, 21⟩, ⟨.punct, ")", 21, 22⟩, ⟨.eof, [], 22, 22⟩]
  stops_le := by decide
  short_eq := Except.eq_ok_of_toOption (by decide +kernel)
  long_eq := Except.eq_ok_of_toOption (by decide +kernel)

/-- The declaration of the schema without the type argument. -/
def rowDeclaration : Declaration where
  site := ⟨(rowInsertion.ahead.take 9).reverse, rowInsertion.behindShort⟩
  name := "a"
  config := Node.evaluateObject [.property "name" (.literal ⟨44, 47⟩ (.text "a"))]
  fields := [.property "id" (.chain ⟨55, 56⟩ "s" [] "s")]
  constants := [("s", ⟨"z", [.access "string", .call []]⟩)]

theorem findDeclaration_row :
    findDeclaration "defineResource" rowInsertion.short = .ok rowDeclaration := by
  refine (findDeclaration_eq_ok_iff rowInsertion.tokenize_short).2 ⟨rfl, ⟨_, ?_, rfl, rfl⟩, ?_⟩
  · have hs : rowInsertion.short.slice 55 56 = "s" := rfl
    have hopens : rowDeclaration.site.fromParenthesis = [⟨.punct, "(", 36, 37⟩,
      ⟨.punct, "\x7b", 37, 38⟩, ⟨.ident, "name", 38, 42⟩, ⟨.punct, ":", 42, 43⟩,
      ⟨.string, "a", 44, 47⟩, ⟨.punct, "\x7d", 47, 48⟩, ⟨.punct, ",", 48, 49⟩,
      ⟨.punct, "\x7b", 50, 51⟩, ⟨.ident, "id", 51, 53⟩, ⟨.punct, ":", 53, 54⟩,
      ⟨.ident, "s", 55, 56⟩, ⟨.punct, "\x7d", 56, 57⟩, ⟨.punct, ")", 57, 58⟩, ⟨.eof, [], 58, 58⟩] :=
      rfl
    generalize rowInsertion.short = source at hs
    rw [readCall, hopens]
    simp +decide [hs, rowDeclaration, Expr.readArguments, Expr.readItems, Expr.read,
      Expr.readPrimary, Expr.readChain, Expr.readSegments, Expr.literalName?, Expr.readMembers,
      Expr.readMember, Parsed.lift, Except.map, Except.mapError, bind, Except.bind,
      Expr.skipAsConst]
  · have htokens : rowInsertion.shortTokens = rowInsertion.ahead ++ rowInsertion.behindShort := rfl
    generalize rowInsertion.short = source
    rw [htokens]
    simp +decide [rowInsertion, Insertion.behindShort, Token.relocated, rowDeclaration,
      collectConstants, Expr.readLeadingChain, Expr.readItems, Expr.readChain,
      Expr.readSegments, Parsed.lift, Except.map, bind, Except.bind, pure, Except.pure, Node.chain?]

/-- The constant `s` is settled in front of the call. -/
theorem settled_row (N : Text → Prop) : Settled N rowInsertion.ahead rowInsertion.behindShort
    (rowInsertion.inserted ++ rowInsertion.behindLong) := by
  have hfinished : ∀ rest,
      Finished (rowInsertion.ahead.drop 4 |>.take 4) ⟨.punct, ";", 20, 21⟩ rest :=
    finished_of_plain (by decide) (by decide) (by decide) (by decide)
  have hrest : Settled N (rowInsertion.ahead.drop 1 ++ []) rowInsertion.behindShort
      (rowInsertion.inserted ++ rowInsertion.behindLong) := .append (by decide) .nil
  refine hrest.cons ?_
  rintro - name eq value ⟨⟩
  exact .chain (.intro (hfinished _) (hfinished _))

/-- A constant and a type argument: the resource is declared with it as without it. -/
theorem extract_typeArguments_row :
    (∃ r, (extract "defineResource" "<source>" rowInsertion.short).1 = .ok r) ∧
      (extract "defineResource" "<source>" rowInsertion.long).1 =
        (extract "defineResource" "<source>" rowInsertion.short).1 := by
  refine ⟨⟨rowDeclaration.resource "<source>", ?_⟩, ?_⟩
  · rw [extract_eq_of_findDeclaration findDeclaration_row]
    exact if_pos (by decide)
  · have hT : Angled [⟨.ident, "Row", 37, 40⟩] := .plain (by decide) (by decide) .nil
    exact extract_typeArguments (A := rowInsertion.ahead.take 9) findDeclaration_row rfl rfl
      (by decide) rfl (by decide) (by decide) hT (by decide) (by decide) (settled_row _)
      (not_refusesNumber (by decide)) "<source>"

/-- A schema whose call is given an object type with a semicolon in it. -/
def membersInsertion : Insertion where
  front := "const order = defineResource"
  passage := "<\x7b id: string; total: number \x7d>"
  back := "(\x7b name: 'order' \x7d, \x7b\x7d)"
  ahead := [⟨.ident, "const", 0, 5⟩, ⟨.ident, "order", 6, 11⟩, ⟨.punct, "=", 12, 13⟩,
    ⟨.ident, "defineResource", 14, 28⟩]
  inserted := [⟨.punct, "<", 28, 29⟩, ⟨.punct, "\x7b", 29, 30⟩, ⟨.ident, "id", 31, 33⟩,
    ⟨.punct, ":", 33, 34⟩, ⟨.ident, "string", 35, 41⟩, ⟨.punct, ";", 41, 42⟩,
    ⟨.ident, "total", 43, 48⟩, ⟨.punct, ":", 48, 49⟩, ⟨.ident, "number", 50, 56⟩,
    ⟨.punct, "\x7d", 57, 58⟩, ⟨.punct, ">", 58, 59⟩]
  behind := [⟨.punct, "(", 0, 1⟩, ⟨.punct, "\x7b", 1, 2⟩, ⟨.ident, "name", 3, 7⟩,
    ⟨.punct, ":", 7, 8⟩, ⟨.string, "order", 9, 16⟩, ⟨.punct, "\x7d", 17, 18⟩, ⟨.punct, ",", 18, 19⟩,
    ⟨.punct, "\x7b", 20, 21⟩, ⟨.punct, "\x7d", 21, 22⟩, ⟨.punct, ")", 22, 23⟩, ⟨.eof, [], 23, 23⟩]
  stops_le := by decide
  short_eq := Except.eq_ok_of_toOption (by decide +kernel)
  long_eq := Except.eq_ok_of_toOption (by decide +kernel)

/-- **A semicolon among the type arguments** makes the call unreadable. -/
theorem extract_typeArguments_semicolon :
    (∃ r, (extract "defineResource" "<source>" membersInsertion.short).1 = .ok r) ∧
      (extract "defineResource" "<source>" membersInsertion.long).1 = .error .unbalanced := by
  let before : List Token :=
    [⟨.punct, "=", 12, 13⟩, ⟨.ident, "order", 6, 11⟩, ⟨.ident, "const", 0, 5⟩]
  constructor
  · let site : CallSite := ⟨before, membersInsertion.behindShort⟩
    let config : List Member := [.property "name" (.literal ⟨37, 44⟩ (.text "order"))]
    have hcall : readCall membersInsertion.short site = .ok (config, []) := by
      have hopens : site.fromParenthesis = [⟨.punct, "(", 28, 29⟩, ⟨.punct, "\x7b", 29, 30⟩,
        ⟨.ident, "name", 31, 35⟩, ⟨.punct, ":", 35, 36⟩, ⟨.string, "order", 37, 44⟩,
        ⟨.punct, "\x7d", 45, 46⟩, ⟨.punct, ",", 46, 47⟩, ⟨.punct, "\x7b", 48, 49⟩,
        ⟨.punct, "\x7d", 49, 50⟩, ⟨.punct, ")", 50, 51⟩, ⟨.eof, [], 51, 51⟩] := rfl
      rw [readCall, hopens]
      simp +decide [config, Expr.readArguments, Expr.readItems, Expr.read, Expr.readPrimary,
        Expr.readMembers, Expr.readMember, Parsed.lift, Except.map, Except.mapError, bind,
        Except.bind, Expr.skipAsConst]
    obtain ⟨cs, hcs⟩ := @exists_ok_of_collectConstants membersInsertion.short
      membersInsertion.shortTokens (by
        rintro e ⟨t, ht, hkind, -⟩
        have hnone : ∀ t ∈ membersInsertion.shortTokens, t.kind ≠ .number := by decide
        exact hnone t ht hkind)
    let d : Declaration := ⟨site, "order", Node.evaluateObject config, [], cs⟩
    have hd : findDeclaration "defineResource" membersInsertion.short = .ok d :=
      (findDeclaration_eq_ok_iff membersInsertion.tokenize_short).2
        ⟨rfl, ⟨_, hcall, rfl, rfl⟩, hcs⟩
    refine ⟨d.resource "<source>", ?_⟩
    rw [extract_eq_of_findDeclaration hd]
    exact if_pos (by decide : Text.IsScalar "order")
  · let site : CallSite := ⟨before, membersInsertion.inserted ++ membersInsertion.behindLong⟩
    have hsite : onlyCall "defineResource" membersInsertion.longTokens = .ok site := rfl
    have hcall : readCall membersInsertion.long site = .error .unbalanced := by
      -- the parenthesis is not found, and the angle bracket is taken for it
      let inside : List Token := (membersInsertion.inserted ++ membersInsertion.behindLong).drop 8
      let object : List Token := [⟨.punct, "\x7b", 29, 30⟩, ⟨.ident, "id", 31, 33⟩,
        ⟨.punct, ":", 33, 34⟩, ⟨.ident, "string", 35, 41⟩, ⟨.punct, ";", 41, 42⟩,
        ⟨.ident, "total", 43, 48⟩, ⟨.punct, ":", 48, 49⟩]
      have hopens : site.fromParenthesis.tail = object ++ inside := rfl
      have hobject : ∀ source ts, found (readPrimary source (object ++ ts)) = .ok none := by
        intro source ts
        simp +decide [object, found, Expr.readPrimary, Expr.readMembers, Expr.readMember, Expr.read,
          Expr.readChain, Expr.readSegments, Expr.literalName?, Expr.atTerminator, Parsed.lift,
          Except.map, Expr.skipAsConst]
      have hitem : itemPart membersInsertion.long false (object ++ inside) =
          .ok ([(verbatim membersInsertion.long (object ++ inside)).1], [Token.endOf 82]) := by
        rw [itemPart, if_neg (by decide), outcome_read, hobject]
        rfl
      have hstep := (readsParts_items membersInsertion.long ")" false).step
        (t := ⟨.punct, "\x7b", 29, 30⟩) (object.tail ++ inside) (by decide) (by decide)
      have hitems : found (readItems membersInsertion.long ")" false (object ++ inside)) =
        .ok none :=
        hstep.trans (hitem ▸ rfl)
      refine readCall_of_unbalanced ?_
      rw [Mirror.map_readArguments, hopens, hitems]
      rfl
    rw [extract, findDeclaration, membersInsertion.tokenize_long]
    simp only [Except.mapError, bind, Except.bind, hsite, hcall]

end Scaffold
