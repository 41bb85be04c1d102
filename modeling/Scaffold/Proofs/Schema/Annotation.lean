import Scaffold.Proofs.Schema.Revision

/-!
# Type annotations of declarations

A declaration is recognised by its keyword, its name and an equals sign, one right behind the other.
With a type annotation between the name and the equals sign it is not recognised any more:

* a call that the declaration holds is not assigned to the name, and the variable of the resource is
  derived from its name instead (`extract_annotation`);
* the name stands for nothing, so that a field that leads to it loses its type.

Annotations of other declarations do not matter.
-/

namespace Scaffold

open Scaffold.Expr

variable {factory : Text} {i : Insertion} {d : Declaration} {A T : List Token}
  {keyword x colon : Token}

/-- The type does not end as a declaration begins. -/
def EndsAsType (T : List Token) : Prop :=
  ∀ keyword name, [keyword, name] <:+ T → keyword.isDeclarationKeyword = false

/-- The annotated name is the only one that is lost. -/
theorem agree_annotated {N : Text → Prop} {cs cs' : Constants}
    (hahead : i.ahead = A ++ [keyword, x])
    (hequals : nextIs i.behind "=" = true) (hinserted : i.inserted = colon :: T)
    (hcolon : colon.isPunct ":" = true) (hT : ∀ t ∈ T, t.isPunct "=" = false)
    (hends : EndsAsType T) (hx : ¬ N x.value)
    (hsettled : Settled N i.ahead i.behindShort (i.inserted ++ i.behindLong))
    (h : collectConstants i.short i.shortTokens = .ok cs)
    (h' : collectConstants i.long i.longTokens = .ok cs') : cs.Agree (fun _ => False) N cs' := by
  have hne := ne_nil_of_nextIs hequals
  obtain ⟨eq, rest, hshort, heq, -⟩ :=
    exists_cons_of_nextIs
      (show nextIs i.behindShort "=" = true from (nextIs_relocated _ _).trans hequals)
  obtain ⟨eq', rest', hlong, heq', -⟩ :=
    exists_cons_of_nextIs
      (show nextIs i.behindLong "=" = true from (nextIs_relocated _ _).trans hequals)
  have hcolonmark : colon.isPunct "=" = false :=
    isPunct_of_ne (isPunct_eq_true.1 hcolon) (by decide)
  refine Insertion.agree_constants hne hsettled ?_ ?_ h h'
  · rintro vs name hvs hlength (hdeclared | hdeclared)
    · rw [hshort] at hdeclared
      obtain ⟨k, y, rfl, -, rfl, -⟩ := exists_of_declaredName?_append_mark hlength heq hdeclared
      have hlast : [k, y] = [keyword, x] := by
        obtain ⟨us, hus⟩ := hvs
        rw [hahead] at hus
        exact (List.append_inj' hus rfl).2
      rw [(List.cons.inj (List.cons.inj hlast).2).1]
      exact hx
    · rw [hinserted, List.cons_append,
        declaredName?_append_mark hlength (isPunct_eq_true.1 hcolon).1 hcolonmark] at hdeclared
      cases hdeclared
  · rintro name ⟨vs, hvs, hne, hdeclared⟩ -
    rw [hinserted] at hvs
    by_cases hlength : vs.length ≤ 2
    · rw [hlong] at hdeclared
      obtain ⟨k, y, rfl, hk, -, -⟩ := exists_of_declaredName?_append_mark hlength heq' hdeclared
      rcases List.suffix_cons_iff.1 hvs with hall | hvs
      · obtain ⟨rfl, -⟩ := List.cons.inj hall
        rw [Token.isDeclarationKeyword, (isPunct_eq_true.1 hcolon).1] at hk
        cases hk
      · rw [hends k y hvs] at hk
        cases hk
    · obtain ⟨k, y, e, value, hts, -, -, -, he, -⟩ := exists_of_declaredName? hdeclared
      have hmem : e ∈ vs := by
        rcases vs with _ | ⟨a, _ | ⟨b, _ | ⟨c, vs⟩⟩⟩
        case cons.cons.cons =>
          simp only [List.cons_append, List.cons.injEq] at hts
          simp [hts.2.2.1]
        all_goals exact absurd (by simp) hlength
      rcases List.mem_cons.1 (hvs.subset hmem) with rfl | hmem
      · cases hcolonmark.symm.trans he
      · cases (hT e hmem).symm.trans he

theorem assignedName?_of_kind {a b : Token} {before after : List Token} (h : b.kind = .punct) :
    CallSite.assignedName? ⟨a :: b :: before, after⟩ = none := by
  cases before with
  | nil => rfl
  | cons c before => simp [CallSite.assignedName?, h]

theorem assignedName?_of_not_keyword {a b c : Token} {before after : List Token}
    (h : c.isDeclarationKeyword = false) :
    CallSite.assignedName? ⟨a :: b :: c :: before, after⟩ = none := by
  simp [CallSite.assignedName?, h]

/-- Right behind the equals sign of an annotated declaration, a call is assigned to nothing. -/
theorem assignedName?_annotated {eq : Token} {before after : List Token}
    (hcolon : colon.isPunct ":" = true) (hends : EndsAsType T) :
    CallSite.assignedName? ⟨(before ++ colon :: T ++ [eq]).reverse, after⟩ = none := by
  have hkind := (isPunct_eq_true.1 hcolon).1
  rw [List.reverse_append, List.reverse_append, List.reverse_singleton, List.singleton_append,
    List.reverse_cons]
  rcases T.eq_nil_or_concat with rfl | ⟨ts, y, rfl⟩
  · exact assignedName?_of_kind hkind
  rw [List.concat_eq_append] at hends ⊢
  rw [List.reverse_append, List.reverse_singleton]
  rcases ts.eq_nil_or_concat with rfl | ⟨ts, k, rfl⟩
  · refine assignedName?_of_not_keyword ?_
    rw [Token.isDeclarationKeyword, hkind]
    rfl
  · rw [List.concat_eq_append] at hends ⊢
    rw [List.reverse_append, List.reverse_singleton]
    exact assignedName?_of_not_keyword (hends k y (by simp))

/-- Further behind it, what stands in front of it does not matter. -/
theorem assignedName?_append {us before before' after after' : List Token} {f g : Nat → Nat}
    (hequals : nextIs us "=" = true) (hlength : us.length ≠ 1) :
    CallSite.assignedName? ⟨(before ++ us.map (Token.relocated f)).reverse, after⟩ =
      CallSite.assignedName? ⟨(before' ++ us.map (Token.relocated g)).reverse, after'⟩ := by
  rw [List.reverse_append, List.reverse_append, ← List.map_reverse, ← List.map_reverse]
  rcases hus : us.reverse with _ | ⟨c, _ | ⟨b, _ | ⟨a, ws⟩⟩⟩ <;> rw [List.reverse_eq_iff] at hus
  · rw [hus] at hequals
    cases hequals
  · exact absurd (by rw [hus]; rfl) hlength
  · obtain ⟨eq, rest, heq, hkind, -⟩ := exists_cons_of_nextIs hequals
    obtain rfl : b = eq := (List.cons.inj (hus.symm.trans heq)).1
    have hnone : ∀ (f : Nat → Nat) (before after : List Token), CallSite.assignedName?
        ⟨[c, b].map (Token.relocated f) ++ before, after⟩ = none :=
      fun f before after => assignedName?_of_kind hkind
    rw [hnone, hnone]
  · rfl

/-- The call is read alike on either side of the annotation; in front of it, it ends there. -/
theorem related_readCall_annotated {site site' : CallSite}
    (hcall : SameCall i.adding i.ahead [] i.inserted i.behind site site')
    (hopens : (nextIs site.after "(" || nextIs site.after "<") = true) (hne : i.behind ≠ [])
    (hfront : site.before.length < i.ahead.length → nextIs site.fromParenthesis "(" = true ∧
      LinksEndWithin i.behindShort (i.inserted ++ i.behindLong)
        (i.ahead.drop (site.before.length + 1))) :
    Except.Related (CallAlike fun _ => False) (readCall i.short site) (readCall i.long site') := by
  have hrelated : Except.Related (CallAlike fun _ => False) (readCall i.adding.before site)
      (readCall i.adding.after site') := by
    refine hcall.related_readCall (Insertion.sealed_behind hne) hopens fun hlength => ?_
    obtain ⟨hparen, hlinks⟩ := hfront hlength
    obtain ⟨m, -, hnear⟩ := i.adding.exists_mirror (fun _ => False) hlinks
      fun u hu => i.stops_le u (List.mem_of_mem_drop hu)
    exact ⟨hparen, m, by simpa using hnear⟩
  simpa using hrelated

/-- The call is assigned to what it was assigned to, unless that is annotated. -/
theorem assignedName?_sameCall {site site' : CallSite}
    (hcall : SameCall i.adding i.ahead [] i.inserted i.behind site site')
    (hsite : site ∈ callSites factory (i.ahead ++ ([] ++ i.adding.inBefore i.behind)))
    (hequals : nextIs i.behind "=" = true) (hinserted : i.inserted = colon :: T)
    (hcolon : colon.isPunct ":" = true) (hends : EndsAsType T) :
    site'.assignedName? =
      if site.before.length = i.ahead.length + 1 then none else site.assignedName? := by
  obtain ⟨g, hts, hg, -⟩ := mem_callSites_iff.1 hsite
  cases hcall with
  | @ahead before more f hahead =>
    rw [if_neg]
    · rfl
    · rw [hahead, List.length_append, List.length_reverse]
      dsimp only
      omega
  | @behind us post f htokens =>
    -- the first token behind the passage is the equals sign, and not the name of the factory
    have hus : nextIs us "=" = true := by
      rw [htokens] at hequals
      cases us with
      | nil =>
        have hf : f.isPunct "=" = true := hequals
        have hsame : f.relocated ((i.adding.front ++ i.adding.old).length + ·) = g := by
          rw [htokens] at hts
          simpa [Versions.inBefore] using hts
        rw [← hsame] at hg
        cases (isPunct_eq_true.1 hf).1.symm.trans (isIdent_eq_true.1 hg).1
      | cons u us => exact hequals
    have hlength : (i.ahead ++ ([] ++ i.adding.inBefore us)).reverse.length = i.ahead.length + 1 ↔
        us.length = 1 := by
      simp [Versions.inBefore]
      omega
    rw [hinserted]
    by_cases hone : us.length = 1
    · obtain ⟨eq, rfl⟩ := List.length_eq_one_iff.1 hone
      rw [if_pos (hlength.2 hone), ← List.append_assoc]
      exact assignedName?_annotated hcolon hends
    · rw [if_neg (hlength.not.2 hone), ← List.append_assoc, ← List.append_assoc]
      exact assignedName?_append hus hone

/-- **Type annotations do not matter but for the name that is annotated.**  A source that declares a
resource declares the same one when an annotation without an equals sign is put behind the name of a
declaration, if no field leads to this name: only the variable of the resource, if it was this name,
is derived from the name of the resource instead.  The factory is still called once, and the call,
if it stands in front of the annotation, and the constants that fields lead to are settled there. -/
theorem extract_annotation (h : findDeclaration factory i.short = .ok d)
    (hahead : i.ahead = A ++ [keyword, x]) (hequals : nextIs i.behind "=" = true)
    (hinserted : i.inserted = colon :: T) (hcolon : colon.isPunct ":" = true)
    (hT : ∀ t ∈ T, t.isPunct "=" = false) (hends : EndsAsType T)
    (hone : (callSites factory i.longTokens).length = 1) (hx : ¬ d.LeadsTo x.value)
    (hsettled : Settled d.LeadsTo i.ahead i.behindShort (i.inserted ++ i.behindLong))
    (hfront : d.site.before.length < i.ahead.length → nextIs d.site.fromParenthesis "(" = true ∧
      LinksEndWithin i.behindShort (i.inserted ++ i.behindLong)
        (i.ahead.drop (d.site.before.length + 1)))
    (hnumbers : ∀ e, ¬ RefusesNumber i.longTokens e) (origin : Text) :
    (extract factory origin i.long).1 = (extract factory origin i.short).1.map fun r =>
      if d.site.before.length = i.ahead.length + 1 then
        { r with varName := Resource.defaultVar r.name }
      else r := by
  have hne := ne_nil_of_nextIs hequals
  have hmem : d.site ∈ callSites factory i.shortTokens :=
    mem_callSites_of_onlyCall ((findDeclaration_eq_ok_iff i.tokenize_short).1 h).1
  have htokens : i.shortTokens = i.ahead ++ ([] ++ i.adding.inBefore i.behind) := by
    rw [i.inBefore_adding]
    rfl
  rw [htokens] at hmem
  obtain ⟨site', hcall⟩ := @SameCall.exists_of_mem factory i.behind i.adding i.ahead []
    i.inserted d.site
    hmem (by rw [List.append_nil]; exact Nat.lt_or_ge _ _)
  obtain ⟨eq, rest, hbehind, hkind, heq⟩ := exists_cons_of_nextIs hequals
  have hmem' : site' ∈ callSites factory i.longTokens := by
    refine hcall.mem hmem ?_ ?_
    · intro mark hmark
      rw [List.nil_append, Versions.inBefore, nextIs_relocated, hbehind]
      refine isPunct_of_ne (isPunct_eq_true.1 heq) ?_
      rintro rfl
      revert hmark
      decide
    · rw [hbehind, nextKind]
      simp [hkind]
  obtain ⟨-, -, -, -, hopens⟩ := mem_callSites_iff.1 hmem
  obtain ⟨d', hd', hdsite, hname, hfields, hconfig, hconstants, hconstants'⟩ :=
    exists_declaration i.tokenize_short i.tokenize_long h (onlyCall_of_mem hone hmem')
      (related_readCall_annotated hcall hopens hne hfront)
      (fun _ _ _ value _ => Node.shown_of_never (fun _ => id) value) hnumbers
  have hagree := agree_annotated hahead hequals hinserted hcolon hT hends hx hsettled hconstants
    hconstants'
  have hsame := Declaration.fields_eq hfields hagree
    (Declaration.metadataShown_of_never fun _ => id) origin
  have hassigned := assignedName?_sameCall hcall hmem hequals hinserted hcolon hends
  have hvar : (d'.resource origin).varName = if d.site.before.length = i.ahead.length + 1 then
      Resource.defaultVar d.name else (d.resource origin).varName := by
    rw [Declaration.resource, Declaration.resource, hdsite, hname]
    dsimp only
    rw [hassigned]
    split <;> rfl
  rw [extract_eq_of_findDeclaration h, extract_eq_of_findDeclaration hd', hname,
    Declaration.resource_eq hname (hconfig fun _ => id) hsame.symm, hvar]
  by_cases hscalar : d.name.IsScalar
  · rw [if_pos hscalar, if_pos hscalar, Except.map]
    split <;> rfl
  · rw [if_neg hscalar, if_neg hscalar]
    rfl

/-- A schema with a constant, whose resource is declared with an annotation. -/
def annotatedInsertion : Insertion where
  front := "const s = z.string(); const t"
  passage := ": Row"
  back := " = defineResource(\x7bname: 'a'\x7d, \x7bid: s\x7d)"
  ahead := [⟨.ident, "const", 0, 5⟩, ⟨.ident, "s", 6, 7⟩, ⟨.punct, "=", 8, 9⟩,
    ⟨.ident, "z", 10, 11⟩, ⟨.punct, ".", 11, 12⟩, ⟨.ident, "string", 12, 18⟩, ⟨.punct, "(", 18, 19⟩,
    ⟨.punct, ")", 19, 20⟩, ⟨.punct, ";", 20, 21⟩, ⟨.ident, "const", 22, 27⟩, ⟨.ident, "t", 28, 29⟩]
  inserted := [⟨.punct, ":", 29, 30⟩, ⟨.ident, "Row", 31, 34⟩]
  behind := [⟨.punct, "=", 1, 2⟩, ⟨.ident, "defineResource", 3, 17⟩, ⟨.punct, "(", 17, 18⟩,
    ⟨.punct, "\x7b", 18, 19⟩, ⟨.ident, "name", 19, 23⟩, ⟨.punct, ":", 23, 24⟩,
    ⟨.string, "a", 25, 28⟩, ⟨.punct, "\x7d", 28, 29⟩, ⟨.punct, ",", 29, 30⟩,
    ⟨.punct, "\x7b", 31, 32⟩, ⟨.ident, "id", 32, 34⟩, ⟨.punct, ":", 34, 35⟩, ⟨.ident, "s", 36, 37⟩,
    ⟨.punct, "\x7d", 37, 38⟩, ⟨.punct, ")", 38, 39⟩, ⟨.eof, [], 39, 39⟩]
  stops_le := by decide
  short_eq := Except.eq_ok_of_toOption (by decide +kernel)
  long_eq := Except.eq_ok_of_toOption (by decide +kernel)

/-- The declaration of the schema without the annotation. -/
def annotatedDeclaration : Declaration :=
  let config : List Member := [.property "name" (.literal ⟨54, 57⟩ (.text "a"))]
  let fields : List Member := [.property "id" (.chain ⟨65, 66⟩ "s" [] "s")]
  { site := ⟨(annotatedInsertion.shortTokens.take 12).reverse,
      annotatedInsertion.shortTokens.drop 13⟩
    name := "a"
    config := Node.evaluateObject config
    fields := fields
    constants := [("s", ⟨"z", [.access "string", .call []]⟩),
      ("t", ⟨"defineResource", [.call [.object ⟨47, 58⟩ config, .object ⟨60, 67⟩ fields]]⟩)] }

theorem findDeclaration_annotated :
    findDeclaration "defineResource" annotatedInsertion.short = .ok annotatedDeclaration := by
  have hs : annotatedInsertion.short.slice 65 66 = "s" := rfl
  refine (findDeclaration_eq_ok_iff annotatedInsertion.tokenize_short).2
    ⟨rfl, ⟨_, ?_, rfl, rfl⟩, ?_⟩
  · have hopens : annotatedDeclaration.site.fromParenthesis = [⟨.punct, "(", 46, 47⟩,
      ⟨.punct, "\x7b", 47, 48⟩, ⟨.ident, "name", 48, 52⟩, ⟨.punct, ":", 52, 53⟩,
      ⟨.string, "a", 54, 57⟩, ⟨.punct, "\x7d", 57, 58⟩, ⟨.punct, ",", 58, 59⟩,
      ⟨.punct, "\x7b", 60, 61⟩, ⟨.ident, "id", 61, 63⟩, ⟨.punct, ":", 63, 64⟩,
      ⟨.ident, "s", 65, 66⟩, ⟨.punct, "\x7d", 66, 67⟩, ⟨.punct, ")", 67, 68⟩, ⟨.eof, [], 68, 68⟩] :=
      rfl
    generalize annotatedInsertion.short = source at hs
    rw [readCall, hopens]
    simp +decide [hs, annotatedDeclaration, Expr.readArguments, Expr.readItems, Expr.read,
      Expr.readPrimary, Expr.readChain, Expr.readSegments, Expr.literalName?, Expr.readMembers,
      Expr.readMember, Parsed.lift, Except.map, Except.mapError, bind, Except.bind,
      Expr.skipAsConst]
  · have htokens : annotatedInsertion.shortTokens =
      annotatedInsertion.ahead ++ annotatedInsertion.behindShort := rfl
    generalize annotatedInsertion.short = source at hs
    rw [htokens]
    simp +decide [annotatedInsertion, Insertion.behindShort, Token.relocated,
      annotatedDeclaration, collectConstants, Expr.readLeadingChain, Expr.readItems, Expr.read,
      Expr.readPrimary, Expr.readChain, Expr.readSegments, Expr.literalName?, Expr.readMembers,
      Expr.readMember, Expr.skipAsConst, Parsed.lift, Except.map, bind, Except.bind, pure,
      Except.pure, Node.chain?]
    exact hs

/-- The constant `s` is settled in front of the annotation. -/
theorem settled_annotated (N : Text → Prop) :
    Settled N annotatedInsertion.ahead annotatedInsertion.behindShort
      (annotatedInsertion.inserted ++ annotatedInsertion.behindLong) := by
  have hfinished : ∀ rest,
      Finished (annotatedInsertion.ahead.drop 4 |>.take 4) ⟨.punct, ";", 20, 21⟩ rest :=
    finished_of_plain (by decide) (by decide) (by decide) (by decide)
  have hlast : Settled N (annotatedInsertion.ahead.drop 9) annotatedInsertion.behindShort
      (annotatedInsertion.inserted ++ annotatedInsertion.behindLong) :=
    Settled.cons (.cons .nil nofun) nofun
  have hrest : Settled N
      ((annotatedInsertion.ahead.drop 1).take 8 ++ annotatedInsertion.ahead.drop 9)
      annotatedInsertion.behindShort
      (annotatedInsertion.inserted ++ annotatedInsertion.behindLong) :=
    .append (by decide) hlast
  refine Settled.cons hrest ?_
  rintro - name eq value ⟨⟩
  exact .chain (.intro (hfinished _) (hfinished _))

/-- The field leads to `s` only. -/
theorem leadsTo_annotated {name : Text} (h : annotatedDeclaration.LeadsTo name) : name = "s" := by
  obtain ⟨hz, f, hf, c, hc, next, hnext, rfl⟩ := h
  obtain rfl : f = (Text.ofString "id", .chain ⟨65, 66⟩ "s" [] "s") := List.mem_singleton.1 hf
  obtain rfl : Chain.mk "s" [] = c := Option.some.inj hc
  have hway : resolveChain annotatedDeclaration.constants ⟨"s", []⟩ =
      [⟨"s", []⟩, ⟨"z", [.access "string", .call []]⟩] := by
    have hget : annotatedDeclaration.constants.get? "s" =
        some ⟨"z", [.access "string", .call []]⟩ := rfl
    rw [resolveChain_of_get? (by decide) hget, resolveChain_of_namespace rfl]
  rw [hway] at hnext
  rcases List.mem_cons.1 hnext with rfl | hnext
  · rfl
  · obtain rfl := List.mem_singleton.1 hnext
    exact absurd rfl hz

/-- The resource is declared as before, under a variable that is derived from its name. -/
theorem extract_annotation_declared :
    ∃ r, (extract "defineResource" "<source>" annotatedInsertion.short).1 = .ok r ∧
      r.varName = "t" ∧ (extract "defineResource" "<source>" annotatedInsertion.long).1 =
        .ok { r with varName := "aResource" } := by
  have hshort : (extract "defineResource" "<source>" annotatedInsertion.short).1 =
      .ok (annotatedDeclaration.resource "<source>") := by
    rw [extract_eq_of_findDeclaration findDeclaration_annotated]
    exact if_pos (by decide)
  have hends : EndsAsType [⟨.ident, "Row", 31, 34⟩] := fun keyword name hsuffix =>
    absurd hsuffix.length_le (by simp)
  have hlong := extract_annotation (A := annotatedInsertion.ahead.take 9)
    findDeclaration_annotated rfl (by decide) rfl (by decide) (by decide) hends (by decide)
    (fun h => absurd (leadsTo_annotated h) (by decide)) (settled_annotated _)
    (fun h => absurd h (by decide)) (not_refusesNumber (by decide)) "<source>"
  refine ⟨_, hshort, rfl, ?_⟩
  rw [hlong, hshort]
  rfl

/-- A schema whose resource is declared with an annotation. -/
def resourceInsertion : Insertion where
  front := "const order"
  passage := ": Resource"
  back := " = defineResource(\x7b name: 'user' \x7d, \x7b\x7d)"
  ahead := [⟨.ident, "const", 0, 5⟩, ⟨.ident, "order", 6, 11⟩]
  inserted := [⟨.punct, ":", 11, 12⟩, ⟨.ident, "Resource", 13, 21⟩]
  behind := [⟨.punct, "=", 1, 2⟩, ⟨.ident, "defineResource", 3, 17⟩, ⟨.punct, "(", 17, 18⟩,
    ⟨.punct, "\x7b", 18, 19⟩, ⟨.ident, "name", 20, 24⟩, ⟨.punct, ":", 24, 25⟩,
    ⟨.string, "user", 26, 32⟩, ⟨.punct, "\x7d", 33, 34⟩, ⟨.punct, ",", 34, 35⟩,
    ⟨.punct, "\x7b", 36, 37⟩, ⟨.punct, "\x7d", 37, 38⟩, ⟨.punct, ")", 38, 39⟩, ⟨.eof, [], 39, 39⟩]
  stops_le := by decide
  short_eq := Except.eq_ok_of_toOption (by decide +kernel)
  long_eq := Except.eq_ok_of_toOption (by decide +kernel)

/-- The call of the schema, wherever it stands. -/
theorem readCall_resource (source : Text) (before : List Token) (x : Nat) :
    readCall source ⟨before, (resourceInsertion.behind.drop 2).map (Token.relocated (x + ·))⟩ =
      .ok ([.property "name" (.literal ⟨x + 26, x + 32⟩ (.text "user"))], []) := by
  have hopens : CallSite.fromParenthesis
      ⟨before, (resourceInsertion.behind.drop 2).map (Token.relocated (x + ·))⟩ =
        [⟨.punct, "(", x + 17, x + 18⟩, ⟨.punct, "\x7b", x + 18, x + 19⟩,
          ⟨.ident, "name", x + 20, x + 24⟩, ⟨.punct, ":", x + 24, x + 25⟩,
          ⟨.string, "user", x + 26, x + 32⟩, ⟨.punct, "\x7d", x + 33, x + 34⟩,
          ⟨.punct, ",", x + 34, x + 35⟩, ⟨.punct, "\x7b", x + 36, x + 37⟩,
          ⟨.punct, "\x7d", x + 37, x + 38⟩, ⟨.punct, ")", x + 38, x + 39⟩,
          ⟨.eof, [], x + 39, x + 39⟩] := rfl
  rw [readCall, hopens]
  simp +decide [Token.isPunct, Token.isIdent, Expr.readArguments, Expr.readItems, Expr.read,
    Expr.readPrimary, Expr.readMembers, Expr.readMember, Expr.atTerminator, Parsed.lift, Except.map,
    Except.mapError, bind, Except.bind, Expr.skipAsConst]

/-- The variable of a resource that is named `user`. -/
theorem varName_resource {source : Text} {ts : List Token} {site : CallSite} {span : Span}
    (hts : tokenize source = .ok ts) (hsite : onlyCall "defineResource" ts = .ok site)
    (hcall : readCall source site = .ok ([.property "name" (.literal span (.text "user"))], []))
    (hnumbers : ∀ t ∈ ts, t.kind ≠ .number) :
    (extract "defineResource" "<source>" source).1.map Resource.varName =
      .ok (site.assignedName?.getD "userResource") := by
  obtain ⟨cs, hcs⟩ := @exists_ok_of_collectConstants source ts (not_refusesNumber hnumbers)
  have hd : findDeclaration "defineResource" source = .ok ⟨site, "user", _, [], cs⟩ :=
    (findDeclaration_eq_ok_iff hts).2 ⟨hsite, ⟨_, hcall, rfl, rfl⟩, hcs⟩
  rw [extract_eq_of_findDeclaration hd, if_pos (by decide : Text.IsScalar "user")]
  rfl

/-- **An annotated variable is not the variable of the resource.** -/
theorem extract_annotation_variable :
    (extract "defineResource" "<source>" resourceInsertion.short).1.map Resource.varName =
      .ok "order" ∧
    (extract "defineResource" "<source>" resourceInsertion.long).1.map Resource.varName =
      .ok "userResource" := by
  constructor
  · exact varName_resource resourceInsertion.tokenize_short rfl
      (readCall_resource _ (resourceInsertion.shortTokens.take 3).reverse 11) (by decide)
  · exact varName_resource resourceInsertion.tokenize_long rfl
      (readCall_resource _ (resourceInsertion.longTokens.take 5).reverse 21) (by decide)

end Scaffold
