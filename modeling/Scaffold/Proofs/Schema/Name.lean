import Mathlib.Data.List.Induction
import Scaffold.Proofs.Expr.Provenance
import Scaffold.Schema.Extract

/-!
# The name of a declaration

A resource is named by the last `name` in the configuration of its declaration.  Unless that is an
expression that is kept as source text, it is a quotation and the name of the resource is what the
quotation says; anything else is refused (`extract_quotation`).  An expression that is kept as
source text is not told apart from a quotation of that text, and names the resource too.
-/

namespace Scaffold

/-! ### The last value of a key -/

/-- Of several members with one key the last one counts. -/
theorem Members.get?_ofList (entries : List (Text × Value)) (key : Text) :
    (ofList entries).get? key = (entries.reverse.find? (·.1 = key)).map (·.2) := by
  induction entries using List.reverseRecOn with
  | nil => rfl
  | append_singleton entries e ih =>
    obtain ⟨k, v⟩ := e
    have hset : ofList (entries ++ [(k, v)]) = (ofList entries).set k v := by
      rw [ofList, List.foldl_append]
      rfl
    rw [hset, List.reverse_append]
    by_cases hk : k = key
    · subst hk
      rw [get?_set_self]
      simp
    · rw [get?_set_of_ne _ _ (Ne.symm hk), ih]
      simp [hk]

/-- The value of the last property with a key. -/
def Member.lastValue? (ms : List Member) (key : Text) : Option Node :=
  ((properties ms).reverse.find? (·.1 = key)).map (·.2)

theorem Member.exists_of_lastValue? {ms : List Member} {key : Text} {value : Node}
    (h : lastValue? ms key = some value) : .property key value ∈ ms := by
  obtain ⟨⟨k, v⟩, hfind, rfl⟩ := Option.map_eq_some_iff.1 h
  obtain rfl : k = key := by simpa using List.find?_some hfind
  obtain ⟨m, hm, hkv⟩ := List.mem_filterMap.1 (List.mem_reverse.1 (List.mem_of_find?_eq_some hfind))
  cases m with
  | property => cases hkv; exact hm
  | spread => cases hkv

namespace Node

theorem evaluateMembers_eq (ms : List Member) :
    evaluateMembers ms = (Member.properties ms).map fun e => (e.1, e.2.evaluate) := by
  induction ms with
  | nil => rw [evaluateMembers]; rfl
  | cons m ms ih =>
    cases m with
    | property key value => rw [evaluateMembers, ih]; rfl
    | spread text => rw [evaluateMembers, ih]; rfl

theorem get?_evaluateObject (ms : List Member) (key : Text) :
    (evaluateObject ms).get? key = (Member.lastValue? ms key).map evaluate := by
  rw [evaluateObject, Members.get?_ofList, evaluateMembers_eq, ← List.map_reverse,
    List.find?_map, Member.lastValue?, Option.map_map, Option.map_map]
  rfl

/-- The source text that an expression is kept as. -/
def sourceText? : Node → Option Text
  | chain _ _ _ text | verbatim _ text => some text
  | _ => none

end Node

/-! ### The arguments of the call -/

variable {factory source : Text} {ts : List Token} {site : CallSite} {config fields : List Member}

theorem after_suffix_of_mem {before : List Token} (h : site ∈ callSitesFrom factory before ts) :
    site.after <:+ ts := by
  induction ts generalizing before with
  | nil => simp [callSitesFrom] at h
  | cons t ts ih =>
    rw [callSitesFrom] at h
    split at h
    · rcases List.mem_cons.1 h with rfl | h
      · exact List.suffix_cons t ts
      · exact (ih h).trans (List.suffix_cons t ts)
    · exact (ih h).trans (List.suffix_cons t ts)

theorem after_suffix_of_onlyCall (h : onlyCall factory ts = .ok site) : site.after <:+ ts := by
  rw [onlyCall] at h
  split at h
  · simp at h
  · rename_i s hs
    obtain rfl := Except.ok.inj h
    exact after_suffix_of_mem (hs ▸ List.mem_singleton_self s)
  · simp at h

theorem fromParenthesis_suffix (site : CallSite) : site.fromParenthesis <:+ site.after := by
  rw [CallSite.fromParenthesis]
  split
  · cases h : Expr.skipTypeArguments 0 site.after with
    | none => exact List.suffix_refl _
    | some rest => exact Expr.skipTypeArguments_suffix h
  · exact List.suffix_refl _

/-- A call that was read has two object literals between its parentheses. -/
theorem readItems_of_readCall (h : readCall source site = .ok (config, fields)) :
    ∃ p span span' stop,
      Expr.readItems source ")" false site.fromParenthesis.tail = .ok p ∧
        p.value = some ([.object span config, .object span' fields], stop) := by
  rw [readCall] at h
  obtain ⟨⟨arguments, rest⟩, harguments, hshape⟩ := Except.bind_eq_ok_iff.1 h
  obtain ⟨p, hp, heq⟩ := Except.map_eq_ok_iff.1 (Except.mapError_eq_ok_iff.1 harguments)
  obtain ⟨rfl, -⟩ := Prod.mk.inj heq
  dsimp only at hshape
  split at hshape
  · simp at hshape
  · rename_i first second hvalue
    obtain ⟨⟨ns, stop⟩, hns, rfl⟩ := Option.map_eq_some_iff.1 hvalue
    split at hshape
    · rename_i span ms span' ms'
      obtain ⟨rfl, rfl⟩ := Prod.mk.inj (Except.ok.inj hshape)
      exact ⟨p, span, span', stop, hp, hns⟩
    · simp at hshape
    · simp at hshape
  · simp at hshape

/-- The values of the configuration are read among the tokens of the source. -/
theorem valueFoundIn_config (hsite : onlyCall factory ts = .ok site)
    (h : readCall source site = .ok (config, fields)) :
    ∀ m ∈ config, Expr.ValueFoundIn source ts m := by
  obtain ⟨p, span, span', stop, hp, hvalue⟩ := readItems_of_readCall h
  have hitems := Expr.yields_readItems source ")" false site.fromParenthesis.tail
  rw [hp] at hitems
  obtain ⟨us, q, hus, hq, hobject⟩ := hitems _ _ hvalue _ List.mem_cons_self
  have hdrawn := Expr.isDrawn_read hq
  rw [hobject] at hdrawn
  obtain ⟨r, _, hr, hmembers⟩ := hdrawn
  have hyields := Expr.yields_readMembers source us.tail
  rw [hr] at hyields
  have hsuffix : us.tail <:+ ts :=
    (List.tail_suffix us).trans <| hus.trans <| (List.tail_suffix _).trans <|
      (fromParenthesis_suffix site).trans (after_suffix_of_onlyCall hsite)
  exact fun m hm => (hyields _ _ hmembers m hm).mono hsuffix

/-! ### The name -/

theorem findDeclaration_eq (hts : tokenize source = .ok ts)
    (hsite : onlyCall factory ts = .ok site)
    (hcall : readCall source site = .ok (config, fields)) :
    findDeclaration factory source =
      (configName (Node.evaluateObject config)).bind fun name =>
        ((collectConstants source ts).mapError .numeral).map fun constants =>
          ⟨site, name, Node.evaluateObject config, fields, constants⟩ := by
  rw [findDeclaration, hts]
  simp only [Except.mapError, bind, Except.bind, hsite, hcall]
  cases configName (Node.evaluateObject config) with
  | error e => rfl
  | ok name => cases collectConstants source ts <;> rfl

theorem configName_eq (config : List Member) :
    configName (Node.evaluateObject config) =
      match (Member.lastValue? config "name").map Node.evaluate with
      | some (.text name) => if name.isBlank then .error .noName else .ok name
      | _ => .error .noName := by
  rw [← Node.get?_evaluateObject]
  rfl

/-- A resource has the name that its configuration gives it. -/
theorem configName_of_extract {origin : Text} {r : Resource} (hts : tokenize source = .ok ts)
    (hsite : onlyCall factory ts = .ok site)
    (hcall : readCall source site = .ok (config, fields))
    (h : (extract factory origin source).1 = .ok r) :
    configName (Node.evaluateObject config) = .ok r.name := by
  rw [extract, findDeclaration_eq hts hsite hcall] at h
  cases hname : configName (Node.evaluateObject config) with
  | error e =>
    rw [hname] at h
    cases h
  | ok name =>
    rw [hname] at h
    cases hconstants : collectConstants source ts with
    | error e =>
      rw [hconstants] at h
      cases h
    | ok constants =>
      rw [hconstants] at h
      simp only [Except.mapError, Except.bind, Except.map] at h
      split at h
      · cases h
        rfl
      · cases h

theorem extract_of_noName {origin : Text} (hts : tokenize source = .ok ts)
    (hsite : onlyCall factory ts = .ok site)
    (hcall : readCall source site = .ok (config, fields))
    (hname : configName (Node.evaluateObject config) = .error .noName) :
    extract factory origin source = (.error .noName, []) := by
  rw [extract, findDeclaration_eq hts hsite hcall, hname]
  rfl

/-- **A name is a quotation**, or is kept as source text: the last `name` of a configuration is a
string or a template without substitutions and the resource is named by what it says, or else the
declaration is refused for want of a name. -/
theorem extract_quotation (hts : tokenize source = .ok ts) (hsite : onlyCall factory ts = .ok site)
    (hcall : readCall source site = .ok (config, fields))
    (hread : ∀ value ∈ Member.lastValue? config "name", value.sourceText? = none)
    (origin : Text) :
    (∃ t ∈ ts, t.IsQuotation ∧ t.value.isBlank = false ∧
      Member.lastValue? config "name" = some (.literal ⟨t.start, t.stop⟩ (.text t.value)) ∧
        ∀ r, (extract factory origin source).1 = .ok r → r.name = t.value) ∨
      extract factory origin source = (.error .noName, []) := by
  have hrefused : configName (Node.evaluateObject config) = .error .noName →
      extract factory origin source = (.error .noName, []) := extract_of_noName hts hsite hcall
  have hname := configName_eq config
  cases hlast : Member.lastValue? config "name" with
  | none => exact .inr (hrefused (by rw [hname, hlast]; rfl))
  | some value =>
    rw [hlast, Option.map_some] at hname
    have hkept := hread value hlast
    have hfound := valueFoundIn_config hsite hcall _ (Member.exists_of_lastValue? hlast)
    -- a key without a value stands for its own text
    obtain ⟨us, p, hus, hp, rfl⟩ | ⟨span, rfl⟩ := hfound
    · have hdrawn := Expr.isDrawn_read hp
      cases hvalue : p.value with
      | chain | verbatim => simp [hvalue, Node.sourceText?] at hkept
      | array | object =>
        rw [hvalue, Node.evaluate] at hname
        exact .inr (hrefused hname)
      | literal span v =>
        rw [hvalue, Node.evaluate] at hname
        cases v with
        | null | bool | number | list | object => exact .inr (hrefused hname)
        | text v =>
          rw [hvalue] at hdrawn
          obtain ⟨t, ht, hquotation, rfl, rfl⟩ := hdrawn
          by_cases hblank : t.value.isBlank = true
          · exact .inr (hrefused (by simpa [hblank] using hname))
          · refine .inl ⟨t, hus.subset (List.mem_of_mem_head? ht), hquotation,
              by simpa using hblank, rfl, fun r hr => ?_⟩
            have := configName_of_extract hts hsite hcall hr
            rw [hname] at this
            simpa [hblank, eq_comm] using this
    · simp [Node.sourceText?] at hkept

/-- A resource that is named by a string. -/
theorem extract_quotation_title :
    let source : Text := "defineResource(\x7bname: 'title'\x7d, \x7b\x7d)"
    ∃ ts site config fields, tokenize source = .ok ts ∧
      onlyCall "defineResource" ts = .ok site ∧ readCall source site = .ok (config, fields) ∧
      (∀ value ∈ Member.lastValue? config "name", value.sourceText? = none) ∧
      ((∃ t ∈ ts, t.IsQuotation ∧ t.value.isBlank = false ∧
        Member.lastValue? config "name" = some (.literal ⟨t.start, t.stop⟩ (.text t.value)) ∧
          ∀ r, (extract "defineResource" "<source>" source).1 = .ok r → r.name = t.value) ∨
        extract "defineResource" "<source>" source = (.error .noName, [])) := by
  intro source
  let behind : List Token :=
    [⟨.punct, "(", 14, 15⟩, ⟨.punct, "\x7b", 15, 16⟩, ⟨.ident, "name", 16, 20⟩,
      ⟨.punct, ":", 20, 21⟩, ⟨.string, "title", 22, 29⟩, ⟨.punct, "\x7d", 29, 30⟩,
      ⟨.punct, ",", 30, 31⟩, ⟨.punct, "\x7b", 32, 33⟩, ⟨.punct, "\x7d", 33, 34⟩,
      ⟨.punct, ")", 34, 35⟩, ⟨.eof, [], 35, 35⟩]
  let ts : List Token := ⟨.ident, "defineResource", 0, 14⟩ :: behind
  let config : List Member := [.property "name" (.literal ⟨22, 29⟩ (.text "title"))]
  have hts : tokenize source = .ok ts := Except.eq_ok_of_toOption (by decide +kernel)
  have hsite : onlyCall "defineResource" ts = .ok ⟨[], behind⟩ := rfl
  have hcall : readCall source ⟨[], behind⟩ = .ok (config, []) := by
    have hopens : CallSite.fromParenthesis ⟨[], behind⟩ = behind := rfl
    rw [readCall, hopens]
    simp +decide [behind, config, Expr.readArguments, Expr.readItems, Expr.read, Expr.readPrimary,
      Expr.readMembers, Expr.readMember, Parsed.lift, Except.map, Except.mapError, bind,
      Except.bind, Expr.skipAsConst]
  have hread : ∀ value ∈ Member.lastValue? config "name", value.sourceText? = none := by
    intro value hvalue
    cases hvalue
    rfl
  exact ⟨ts, _, config, [], hts, hsite, hcall, hread,
    extract_quotation hts hsite hcall hread "<source>"⟩

/-- A variable in the place of the name names the resource by its own spelling. -/
theorem extract_variable_title :
    let source : Text := "defineResource(\x7bname: title\x7d, \x7b\x7d)"
    ∃ ts site config fields r, tokenize source = .ok ts ∧
      onlyCall "defineResource" ts = .ok site ∧ readCall source site = .ok (config, fields) ∧
      Member.lastValue? config "name" = some (.chain ⟨22, 27⟩ "title" [] "title") ∧
      (extract "defineResource" "<source>" source).1 = .ok r ∧ r.name = "title" := by
  intro source
  let behind : List Token :=
    [⟨.punct, "(", 14, 15⟩, ⟨.punct, "\x7b", 15, 16⟩, ⟨.ident, "name", 16, 20⟩,
      ⟨.punct, ":", 20, 21⟩, ⟨.ident, "title", 22, 27⟩, ⟨.punct, "\x7d", 27, 28⟩,
      ⟨.punct, ",", 28, 29⟩, ⟨.punct, "\x7b", 30, 31⟩, ⟨.punct, "\x7d", 31, 32⟩,
      ⟨.punct, ")", 32, 33⟩, ⟨.eof, [], 33, 33⟩]
  let ts : List Token := ⟨.ident, "defineResource", 0, 14⟩ :: behind
  let config : List Member := [.property "name" (.chain ⟨22, 27⟩ "title" [] "title")]
  have hts : tokenize source = .ok ts := Except.eq_ok_of_toOption (by decide +kernel)
  have hsite : onlyCall "defineResource" ts = .ok ⟨[], behind⟩ := rfl
  have hcall : readCall source ⟨[], behind⟩ = .ok (config, []) := by
    have hopens : CallSite.fromParenthesis ⟨[], behind⟩ = behind := rfl
    have htitle : source.slice 22 27 = "title" := rfl
    rw [readCall, hopens]
    simp +decide [htitle, behind, config, Expr.readArguments, Expr.readItems, Expr.read,
      Expr.readPrimary, Expr.readChain, Expr.readSegments, Expr.literalName?, Expr.readMembers,
      Expr.readMember, Parsed.lift, Except.map, Except.mapError, bind, Except.bind,
      Expr.skipAsConst]
  have hname : configName (Node.evaluateObject config) = .ok "title" := rfl
  have hconstants : collectConstants source ts = .ok [] := rfl
  let d : Declaration := ⟨⟨[], behind⟩, "title", Node.evaluateObject config, [], []⟩
  refine ⟨ts, _, config, [], d.resource "<source>", hts, hsite, hcall, rfl, ?_, rfl⟩
  rw [extract, findDeclaration_eq hts hsite hcall, hname, hconstants]
  rfl

end Scaffold
