import Scaffold.Proofs.Schema.Collection
import Scaffold.Proofs.Schema.Fault
import Scaffold.Proofs.Token.Span

/-!
# Two versions of a schema

What is read of two sources that differ in one passage.

* Calls of the factory are found by what stands right before and behind them (`mem_callSites_iff`).
* If the call is read alike in both sources, a declaration is found in the second as well
  (`exists_declaration`).
-/

namespace Scaffold

open Scaffold.Expr

variable {factory source source' : Text} {hides : Span → Prop} {N : Text → Prop}
  {t : Token} {ts ts' us rest rest' tokens : List Token} {cs cs' : Constants}

/-! ### The call -/

theorem mem_callSitesFrom_iff {before : List Token} {site : CallSite} :
    site ∈ callSitesFrom factory before ts ↔ ∃ us f, ts = us ++ f :: site.after ∧
      site.before = us.reverse ++ before ∧ f.isIdent factory = true ∧
        site.before.head?.any Token.qualifies = false ∧
          (nextIs site.after "(" || nextIs site.after "<") = true := by
  induction ts generalizing before with
  | nil => simp [callSitesFrom]
  | cons t ts ih =>
    have hhere : site = ⟨before, ts⟩ ↔ site.before = before ∧ site.after = ts := by
      cases site
      simp
    rw [callSitesFrom]
    constructor
    · intro h
      have hmem : site ∈ callSitesFrom factory (t :: before) ts ∨ site = ⟨before, ts⟩ ∧
          (t.isIdent factory && !before.head?.any Token.qualifies &&
            (nextIs ts "(" || nextIs ts "<")) = true := by
        split at h
        · rename_i hcall
          exact (List.mem_cons.1 h).symm.imp_right fun h => ⟨h, hcall⟩
        · exact .inl h
      rcases hmem with h | ⟨rfl, hcall⟩
      · obtain ⟨us, f, rfl, hbefore, hrest⟩ := ih.1 h
        exact ⟨t :: us, f, rfl, by simp [hbefore], hrest⟩
      · simp only [Bool.and_eq_true, Bool.not_eq_true'] at hcall
        exact ⟨[], t, rfl, rfl, hcall.1.1, hcall.1.2, hcall.2⟩
    · rintro ⟨us, f, hts, hbefore, hf, hqualifies, hopens⟩
      cases us with
      | nil =>
        obtain ⟨rfl, rfl⟩ := List.cons.inj hts
        have hbefore : site.before = before := hbefore
        rw [hbefore] at hqualifies
        rw [if_pos (by simp [hf, hqualifies, hopens])]
        exact List.mem_cons.2 (.inl (hhere.2 ⟨hbefore, rfl⟩))
      | cons u us =>
        obtain ⟨rfl, rfl⟩ := List.cons.inj hts
        have hmem := ih.2 ⟨us, f, rfl, by simpa using hbefore, hf, hqualifies, hopens⟩
        split
        · exact List.mem_cons_of_mem _ hmem
        · exact hmem

/-- **A call of the factory** is its name behind which a parenthesis or type arguments open, and
which is no member and not being defined. -/
theorem mem_callSites_iff {site : CallSite} : site ∈ callSites factory ts ↔
    ∃ f, ts = site.before.reverse ++ f :: site.after ∧ f.isIdent factory = true ∧
      site.before.head?.any Token.qualifies = false ∧
        (nextIs site.after "(" || nextIs site.after "<") = true := by
  rw [callSites, mem_callSitesFrom_iff]
  constructor
  · rintro ⟨us, f, rfl, hbefore, hrest⟩
    exact ⟨f, by simp [hbefore], hrest⟩
  · rintro ⟨f, hts, hrest⟩
    exact ⟨site.before.reverse, f, hts, by simp, hrest⟩

theorem onlyCall_eq_ok_iff {site : CallSite} :
    onlyCall factory ts = .ok site ↔ callSites factory ts = [site] := by
  rw [onlyCall]
  split <;> simp_all

theorem onlyCall_of_mem {site : CallSite} (hone : (callSites factory ts).length = 1)
    (h : site ∈ callSites factory ts) : onlyCall factory ts = .ok site := by
  obtain ⟨s, hs⟩ := List.length_eq_one_iff.1 hone
  rw [hs, List.mem_singleton] at h
  rw [onlyCall_eq_ok_iff, hs, h]

theorem mem_callSites_of_onlyCall {site : CallSite} (h : onlyCall factory ts = .ok site) :
    site ∈ callSites factory ts := by
  rw [onlyCall_eq_ok_iff.1 h]
  exact List.mem_singleton_self _

theorem exists_of_append_eq {α : Type} {as bs pre post : List α} {a : α}
    (h : as ++ bs = pre ++ a :: post) : (∃ more, as = pre ++ a :: more ∧ post = more ++ bs) ∨
      ∃ us, pre = as ++ us ∧ bs = us ++ a :: post := by
  rcases List.append_eq_append_iff.1 h with ⟨us, hpre, hbs⟩ | ⟨us, has, hrest⟩
  · exact .inr ⟨us, hpre, hbs⟩
  · cases us with
    | nil => exact .inr ⟨[], by simpa using has.symm, by simpa using hrest.symm⟩
    | cons u us =>
      obtain ⟨rfl, rfl⟩ := List.cons.inj hrest
      exact .inl ⟨us, has, rfl⟩

/-- The call stands at the same token in both versions: in front of the passage or behind it. -/
inductive SameCall (v : Versions) (ahead old new tokens : List Token) : CallSite → CallSite → Prop
  /-- In front of the passage. -/
  | ahead {before more : List Token} {f : Token} (h : ahead = before.reverse ++ f :: more) :
    SameCall v ahead old new tokens ⟨before, more ++ (old ++ v.inBefore tokens)⟩
      ⟨before, more ++ (new ++ v.inAfter tokens)⟩
  /-- Behind it. -/
  | behind {us post : List Token} {f : Token} (h : tokens = us ++ f :: post) :
    SameCall v ahead old new tokens ⟨(ahead ++ (old ++ v.inBefore us)).reverse, v.inBefore post⟩
      ⟨(ahead ++ (new ++ v.inAfter us)).reverse, v.inAfter post⟩

namespace SameCall

variable {v : Versions} {ahead old new : List Token} {site site' : CallSite}

/-- A call outside the passage stands in both versions. -/
theorem exists_of_mem (h : site ∈ callSites factory (ahead ++ (old ++ v.inBefore tokens)))
    (houtside : site.before.length < ahead.length ∨
      (ahead ++ old).length ≤ site.before.length) :
    ∃ site', SameCall v ahead old new tokens site site' := by
  obtain ⟨before, after⟩ := site
  obtain ⟨f, hts, -⟩ := mem_callSites_iff.1 h
  dsimp only at hts houtside
  rcases exists_of_append_eq hts with ⟨more, hahead, rfl⟩ | ⟨us, hbefore, hrest⟩
  · exact ⟨_, .ahead hahead⟩
  have hlength : before.length = ahead.length + us.length := by
    rw [← List.length_reverse, hbefore, List.length_append]
  rcases exists_of_append_eq hrest with ⟨more, rfl, -⟩ | ⟨ws, rfl, hbehind⟩
  · rw [List.length_append, List.length_append, List.length_cons] at houtside
    omega
  · obtain ⟨us, fs, htokens, hws, hfs⟩ := List.map_eq_append_iff.1 hbehind
    obtain ⟨f', post, rfl, -, hpost⟩ := List.map_eq_cons_iff.1 hfs
    have heq : before = (ahead ++ (old ++ v.inBefore us)).reverse := by
      rw [← List.reverse_reverse before, hbefore, ← hws]
      rfl
    subst heq
    subst hpost
    exact ⟨_, .behind htokens⟩

/-- The call is one in the second version as well, unless what is next to its name changes. -/
theorem mem (hcall : SameCall v ahead old new tokens site site')
    (h : site ∈ callSites factory (ahead ++ (old ++ v.inBefore tokens)))
    (hopens : ∀ mark ∈ [Text.ofString "(", "<"], nextIs (old ++ v.inBefore tokens) mark = false)
    (hfirst : nextKind tokens .ident = true → (ahead ++ new).getLast?.any Token.qualifies = false) :
    site' ∈ callSites factory (ahead ++ (new ++ v.inAfter tokens)) := by
  rw [mem_callSites_iff] at h ⊢
  obtain ⟨f, hts, hf, hqualifies, hnext⟩ := h
  cases hcall with
  | @ahead before more f' hahead =>
    subst hahead
    have hsame : f' = f := by
      rw [List.append_assoc, List.cons_append] at hts
      exact (List.cons.inj (List.append_cancel_left hts)).1
    subst hsame
    refine ⟨f', by simp, hf, hqualifies, ?_⟩
    cases more with
    | nil =>
      rw [List.nil_append, hopens "(" (by simp), hopens "<" (by simp)] at hnext
      cases hnext
    | cons u more => exact hnext
  | @behind us post f' htokens =>
    subst htokens
    have hsame : f'.relocated ((v.front ++ v.old).length + ·) = f := by
      rw [List.reverse_reverse, Versions.inBefore, List.map_append, List.map_cons] at hts
      simpa [Versions.inBefore] using hts
    refine ⟨f'.relocated ((v.front ++ v.new).length + ·), by simp [Versions.inAfter], ?_, ?_, ?_⟩
    · rw [← hsame] at hf
      exact hf
    · rw [List.head?_reverse] at hqualifies ⊢
      rcases us.eq_nil_or_concat with rfl | ⟨ws, w, rfl⟩
      · have hident : nextKind ([] ++ f' :: post) .ident = true := by
          rw [← hsame] at hf
          exact decide_eq_true (isIdent_eq_true.1 hf).1
        simpa [Versions.inAfter] using hfirst hident
      · have hrelocated : ∀ g, (w.relocated g).qualifies = w.qualifies := fun _ => rfl
        simpa [Versions.inBefore, Versions.inAfter, hrelocated] using hqualifies
    · have hrelocated : ∀ g : Nat → Nat, (nextIs (post.map (Token.relocated g)) "(" ||
          nextIs (post.map (Token.relocated g)) "<") = (nextIs post "(" || nextIs post "<") :=
        fun g => by rw [nextIs_relocated, nextIs_relocated]
      exact (hrelocated _).trans ((hrelocated _).symm.trans hnext)

end SameCall

/-- The two object literals of one call are similar to those of another. -/
def CallAlike (hides : Span → Prop) (r r' : List Member × List Member) : Prop :=
  Member.AllSimilar hides r.1 r'.1 ∧ Member.AllSimilar hides r.2 r'.2

/-- **Similar arguments** are the same kind of call. -/
theorem related_readCall {site site' : CallSite}
    (h : Except.Related (Option.Rel (List.Forall₂ (Node.Similar hides)))
      ((readArguments source site.fromParenthesis).map (·.1))
      ((readArguments source' site'.fromParenthesis).map (·.1))) :
    Except.Related (CallAlike hides) (readCall source site) (readCall source' site') := by
  rw [readCall, readCall]
  cases hread : readArguments source site.fromParenthesis with
  | error e =>
    cases hread' : readArguments source' site'.fromParenthesis with
    | error e' =>
      rw [hread, hread'] at h
      exact congrArg ExtractError.numeral h
    | ok r' =>
      rw [hread, hread'] at h
      exact h.elim
  | ok r =>
    cases hread' : readArguments source' site'.fromParenthesis with
    | error e' =>
      rw [hread, hread'] at h
      exact h.elim
    | ok r' =>
      obtain ⟨arguments, left⟩ := r
      obtain ⟨arguments', left'⟩ := r'
      rw [hread, hread'] at h
      have h : Option.Rel (List.Forall₂ (Node.Similar hides)) arguments arguments' := h
      simp only [Except.mapError, bind, Except.bind]
      cases h with
      | none => rfl
      | some hall =>
        rcases hall with _ | ⟨hconfig, _ | ⟨hfields, _ | ⟨hmore, hall⟩⟩⟩
        · rfl
        · rfl
        · rename_i config config' fields fields'
          cases config <;> cases config' <;> first
            | exact hconfig.elim
            | rfl
            | skip
          cases fields <;> cases fields' <;> first
            | exact hfields.elim
            | rfl
            | exact ⟨hconfig, hfields⟩
        · simp [Except.Related, hall.length_eq]

section Mirrored

variable {m : Mirror source source' hides} {site site' : CallSite} {k : Nat}

theorem near_fromParenthesis (h : m.near k site.after site'.after) :
    m.near k site.fromParenthesis site'.fromParenthesis := by
  rw [CallSite.fromParenthesis, CallSite.fromParenthesis, Mirror.nextIs_eq h]
  split
  · rename_i hless
    have htypes := m.types h hless
    generalize skipTypeArguments 0 site.after = o at htypes ⊢
    generalize skipTypeArguments 0 site'.after = o' at htypes ⊢
    cases htypes with
    | none => exact h
    | some hrest => exact hrest
  · exact h

/-- **The call is read alike**, if what stands behind its name stands for each other. -/
theorem related_readCall_of_near (h : m.near k site.after site'.after)
    (hopens : nextIs site.fromParenthesis "(" = true) :
    Except.Related (CallAlike hides) (readCall source site) (readCall source' site') := by
  have hfrom := near_fromParenthesis h
  obtain ⟨t, rest, t', rest', hts, hts', -⟩ := m.head hfrom
  refine related_readCall ?_
  rw [hts] at hopens hfrom ⊢
  rw [hts'] at hfrom ⊢
  have hparen : t.isPunct "(" = true := hopens
  obtain ⟨hkind, hvalue⟩ := isPunct_eq_true.1 hparen
  exact m.related_arguments (m.parenthesis hfrom hparen)
    (m.leads hfrom hkind (by rw [hvalue]; decide))

end Mirrored

theorem nextIs_of_skipTypeArguments {depth : Int} (h : skipTypeArguments depth ts = some rest) :
    nextIs rest "(" = true := by
  fun_induction skipTypeArguments depth ts with
  | case4 _ _ _ _ _ hnext =>
    obtain rfl := Option.some.inj h
    exact hnext
  | case1 | case2 | case5 | case7 => cases h
  | case3 _ _ _ _ _ ih | case6 _ _ _ _ _ _ _ ih | case8 _ _ _ _ _ _ _ ih => exact ih h

/-- A call is read from a parenthesis on, or from an angle bracket. -/
theorem nextIs_fromParenthesis {site : CallSite}
    (h : (nextIs site.after "(" || nextIs site.after "<") = true) :
    nextIs site.fromParenthesis "(" = true ∨ nextIs site.fromParenthesis "<" = true := by
  rw [CallSite.fromParenthesis]
  split
  · rename_i hless
    cases hskip : skipTypeArguments 0 site.after with
    | none => exact .inr hless
    | some rest => exact .inl (nextIs_of_skipTypeArguments hskip)
  · rename_i hless
    exact .inl ((Bool.or_eq_true_iff.1 h).resolve_right hless)

/-- **Behind the passage a call is read as before.** -/
theorem Expr.Versions.Moved.related_readCall {v : Versions} {site site' : CallSite}
    (hsealed : Sealed tokens) (h : v.Moved tokens site.after site'.after)
    (hopens : (nextIs site.after "(" || nextIs site.after "<") = true) (hides : Span → Prop) :
    Except.Related (CallAlike hides) (readCall v.before site) (readCall v.after site') := by
  have hfrom : v.Moved tokens site.fromParenthesis site'.fromParenthesis :=
    @near_fromParenthesis _ _ hides (v.behind hides hsealed) site site' 0 h
  have htail : v.Moved tokens site.fromParenthesis.tail site'.fromParenthesis.tail := by
    rcases nextIs_fromParenthesis hopens with hmark | hmark
    · exact hfrom.tail hsealed hmark
    · exact hfrom.tail hsealed hmark
  exact Scaffold.related_readCall ((v.behind hides hsealed).related_arguments (k := 0)
    htail trivial)

/-- **The call is read alike in both versions**; in front of the passage, if what stands behind its
name is related by a mirror. -/
theorem SameCall.related_readCall {v : Versions} {ahead old new : List Token}
    {site site' : CallSite} (hsealed : Sealed tokens)
    (hcall : SameCall v ahead old new tokens site site')
    (hopens : (nextIs site.after "(" || nextIs site.after "<") = true)
    (hfront : site.before.length < ahead.length → nextIs site.fromParenthesis "(" = true ∧
      ∃ m : Mirror v.before v.after hides, m.near 0
        (ahead.drop (site.before.length + 1) ++ (old ++ v.inBefore tokens))
        (ahead.drop (site.before.length + 1) ++ (new ++ v.inAfter tokens))) :
    Except.Related (CallAlike hides) (readCall v.before site) (readCall v.after site') := by
  cases hcall with
  | @ahead before more f hahead =>
    have hlength : before.length < ahead.length := by
      rw [hahead, List.length_append, List.length_reverse, List.length_cons]
      omega
    have hmore : ahead.drop (before.length + 1) = more := by
      rw [hahead, ← List.length_reverse, List.drop_append, List.drop_of_length_le (by simp)]
      simp
    obtain ⟨hparen, m, hnear⟩ := hfront hlength
    rw [hmore] at hnear
    exact related_readCall_of_near hnear hparen
  | @behind us post f htokens =>
    have hpost : post ≠ [] := by
      rintro rfl
      cases hopens
    refine Versions.Moved.related_readCall hsealed ⟨post, hpost, ?_, rfl, rfl⟩ hopens _
    exact ⟨us ++ [f], by rw [htokens]; simp⟩

/-- A call without arguments that end with its parenthesis is refused. -/
theorem readCall_of_unbalanced {site : CallSite}
    (h : (readArguments source site.fromParenthesis).map (·.1) = .ok none) :
    readCall source site = .error .unbalanced := by
  obtain ⟨⟨arguments, left⟩, hread, rfl⟩ := Except.map_eq_ok_iff.1 h
  rw [readCall, hread]
  rfl

/-! ### The declaration -/

theorem not_refusesNumber (h : ∀ t ∈ ts, t.kind ≠ .number) (e : NumeralError) :
    ¬ RefusesNumber ts e :=
  fun ⟨t, ht, hkind, _⟩ => h t ht hkind

theorem exists_ok_of_collectConstants (h : ∀ e, ¬ RefusesNumber ts e) :
    ∃ cs, collectConstants source ts = .ok cs := by
  cases hcs : collectConstants source ts with
  | error e => exact absurd (refusesNumber_of_collectConstants hcs) (h e)
  | ok cs => exact ⟨cs, rfl⟩

/-- What was found on the way to a declaration. -/
theorem findDeclaration_eq_ok_iff {d : Declaration} (hts : tokenize source = .ok ts) :
    findDeclaration factory source = .ok d ↔ onlyCall factory ts = .ok d.site ∧
      (∃ config, readCall source d.site = .ok (config, d.fields) ∧
        d.config = Node.evaluateObject config ∧ configName d.config = .ok d.name) ∧
      collectConstants source ts = .ok d.constants := by
  constructor
  · intro h
    rw [findDeclaration, hts] at h
    obtain ⟨_, htokens, h⟩ := Except.bind_eq_ok_iff.1 h
    obtain rfl := Except.ok.inj htokens
    obtain ⟨site, hsite, h⟩ := Except.bind_eq_ok_iff.1 h
    obtain ⟨⟨config, fields⟩, hcall, h⟩ := Except.bind_eq_ok_iff.1 h
    obtain ⟨name, hname, h⟩ := Except.bind_eq_ok_iff.1 h
    obtain ⟨constants, hconstants, h⟩ := Except.bind_eq_ok_iff.1 h
    obtain rfl := Except.ok.inj h
    exact ⟨hsite, ⟨config, hcall, rfl, hname⟩, Except.mapError_eq_ok_iff.1 hconstants⟩
  · rintro ⟨hsite, ⟨config, hcall, hconfig, hname⟩, hconstants⟩
    rw [findDeclaration_eq hts hsite hcall, ← hconfig, hname, hconstants]
    rfl

theorem lastValue?_similar {ms ms' : List Member} (h : Member.AllSimilar hides ms ms')
    (key : Text) :
    Option.Rel (Node.Similar hides) (Member.lastValue? ms key) (Member.lastValue? ms' key) := by
  have hreverse := List.rel_reverse (Declaration.forall₂_properties h)
  unfold Member.lastValue?
  generalize (Member.properties ms).reverse = fs at hreverse ⊢
  generalize (Member.properties ms').reverse = fs' at hreverse ⊢
  induction hreverse with
  | nil => exact .none
  | @cons f f' _ _ hf _ ih =>
    rw [List.find?_cons, List.find?_cons, ← hf.1]
    by_cases hkey : f.1 = key
    · simpa [hkey] using Option.Rel.some hf.2
    · simpa [hkey] using ih

/-- **A declaration is found in the second source as well**: its call is read alike, its name is
shown, and its numbers are numerals. -/
theorem exists_declaration {d : Declaration} {site : CallSite} (hts : tokenize source = .ok ts)
    (hts' : tokenize source' = .ok ts') (h : findDeclaration factory source = .ok d)
    (hsite : onlyCall factory ts' = .ok site)
    (hcall : Except.Related (CallAlike hides) (readCall source d.site) (readCall source' site))
    (hname : ∀ config fields, readCall source d.site = .ok (config, fields) →
      ∀ value ∈ Member.lastValue? config "name", value.Shown hides)
    (hnumbers : ∀ e, ¬ RefusesNumber ts' e) :
    ∃ d', findDeclaration factory source' = .ok d' ∧ d'.site = site ∧ d'.name = d.name ∧
      Member.AllSimilar hides d.fields d'.fields ∧
      ((∀ s, ¬ hides s) → d'.config = d.config) ∧ collectConstants source ts = .ok d.constants ∧
        collectConstants source' ts' = .ok d'.constants := by
  obtain ⟨-, ⟨config, hread, hconfig, hnamed⟩, hconstants⟩ := (findDeclaration_eq_ok_iff hts).1 h
  obtain ⟨⟨config', fields'⟩, hread', hall, hfields⟩ := hcall.exists_ok hread
  obtain ⟨constants', hconstants'⟩ : ∃ cs, collectConstants source' ts' = .ok cs :=
    exists_ok_of_collectConstants hnumbers
  have hnamed' : configName (Node.evaluateObject config') = .ok d.name := by
    rw [hconfig, configName_eq] at hnamed
    rw [configName_eq]
    have hvalue := lastValue?_similar hall "name"
    have hshown := hname config d.fields hread
    generalize Member.lastValue? config "name" = o at hvalue hnamed hshown
    generalize Member.lastValue? config' "name" = o' at hvalue ⊢
    cases hvalue with
    | none => exact hnamed
    | some hvalue =>
      rw [Option.map_some, ← hvalue.evaluate_eq (hshown _ rfl)]
      exact hnamed
  refine ⟨⟨site, d.name, Node.evaluateObject config', fields', constants'⟩,
    (findDeclaration_eq_ok_iff hts').2 ⟨hsite, ⟨config', hread', rfl, hnamed'⟩, hconstants'⟩, rfl,
    rfl, hfields, fun hnever => ?_, hconstants, hconstants'⟩
  rw [hconfig, Node.evaluateObject, Node.evaluateObject, Node.evaluateMembers_eq_of_similar _ _ hall
    (Member.allShown_of_never hnever _)]

theorem extract_eq_of_findDeclaration {d : Declaration} (h : findDeclaration factory source = .ok d)
    (origin : Text) : (extract factory origin source).1 =
      if d.name.IsScalar then .ok (d.resource origin)
      else .error (.unsound [⟨[.key "name"], .notUnicode⟩]) := by
  rw [extract, h]
  dsimp only [Declaration.resource]
  split <;> rfl

/-- What the resource of a declaration consists of. -/
theorem Declaration.resource_eq {d d' : Declaration} {origin : Text} (hname : d'.name = d.name)
    (hconfig : d'.config = d.config)
    (hfields : (d'.resource origin).fields = (d.resource origin).fields) :
    d'.resource origin = { d.resource origin with varName := (d'.resource origin).varName } := by
  unfold Declaration.resource at hfields ⊢
  dsimp only at hfields ⊢
  rw [hname, hconfig, hfields]

/-! ### Insertions -/

/-- A source, and the same source with a passage inserted between two of its tokens. -/
structure Insertion where
  /-- The text in front of the passage. -/
  front : Text
  /-- The passage. -/
  passage : Text
  /-- The text behind the passage. -/
  back : Text
  /-- The tokens in front of the passage. -/
  ahead : List Token
  /-- The tokens of the passage. -/
  inserted : List Token
  /-- The tokens of the text behind the passage, at their offsets in this text. -/
  behind : List Token
  stops_le : ∀ t ∈ ahead, t.start ≤ front.length ∧ t.stop ≤ front.length
  short_eq : tokenize (front ++ back) =
    .ok (ahead ++ behind.map (Token.relocated (front.length + ·)))
  long_eq : tokenize (front ++ passage ++ back) =
    .ok (ahead ++ (inserted ++ behind.map (Token.relocated ((front ++ passage).length + ·))))

namespace Insertion

variable (i : Insertion)

/-- The source without the passage. -/
def short : Text := i.front ++ i.back

/-- The source with the passage. -/
def long : Text := i.front ++ i.passage ++ i.back

/-- The tokens behind the passage, in the source without it. -/
def behindShort : List Token := i.behind.map (Token.relocated (i.front.length + ·))

/-- The tokens behind the passage, in the source with it. -/
def behindLong : List Token := i.behind.map (Token.relocated ((i.front ++ i.passage).length + ·))

/-- The tokens of the source without the passage. -/
def shortTokens : List Token := i.ahead ++ i.behindShort

/-- The tokens of the source with the passage. -/
def longTokens : List Token := i.ahead ++ (i.inserted ++ i.behindLong)

theorem tokenize_short : tokenize i.short = .ok i.shortTokens := i.short_eq

theorem tokenize_long : tokenize i.long = .ok i.longTokens := i.long_eq

/-- The passage comes to a text that has none. -/
def adding : Versions := ⟨i.front, [], i.passage, i.back⟩

/-- The passage goes. -/
def removing : Versions := ⟨i.front, i.passage, [], i.back⟩

@[simp] theorem before_adding : i.adding.before = i.short := by
  simp [adding, Versions.before, short]

@[simp] theorem after_adding : i.adding.after = i.long := rfl

@[simp] theorem before_removing : i.removing.before = i.long := by
  simp [removing, Versions.before, long]

@[simp] theorem after_removing : i.removing.after = i.short := by
  simp [removing, Versions.after, short]

@[simp] theorem inBefore_adding : i.adding.inBefore i.behind = i.behindShort := by
  simp [adding, Versions.inBefore, behindShort]

@[simp] theorem inAfter_adding : i.adding.inAfter i.behind = i.behindLong := rfl

@[simp] theorem inBefore_removing : i.removing.inBefore i.behind = i.behindLong := by
  simp [removing, Versions.inBefore, behindLong]

@[simp] theorem inAfter_removing : i.removing.inAfter i.behind = i.behindShort := by
  simp [removing, Versions.inAfter, behindShort]

variable {i}

/-- The end of the source stands behind the passage. -/
theorem sealed_behind (h : i.behind ≠ []) : Sealed i.behind := by
  have hne : i.behindShort ≠ [] := by simpa [behindShort] using h
  obtain ⟨us, e, heq, he, hus⟩ :=
    (sealed_of_tokenize i.tokenize_short).suffix (List.suffix_append _ _) hne
  obtain ⟨vs, es, hbehind, hvs, hes⟩ := List.map_eq_append_iff.1 heq
  obtain ⟨e', rfl, he'⟩ := List.map_eq_singleton_iff.1 hes
  refine ⟨vs, e', hbehind, by rw [← he, ← he']; rfl, fun u hu hkind => ?_⟩
  refine hus (u.relocated (i.front.length + ·)) ?_ hkind
  rw [← hvs]
  exact List.mem_map_of_mem hu

/-- The end of the source is no part of the passage. -/
theorem behind_ne_nil (h : i.inserted ≠ []) : i.behind ≠ [] := by
  intro hbehind
  obtain ⟨us, e, hshort, he, -⟩ := sealed_of_tokenize i.tokenize_short
  obtain ⟨ws, e', hlong, -, hws⟩ := sealed_of_tokenize i.tokenize_long
  obtain ⟨more, last, hmore⟩ := (List.eq_nil_or_concat i.inserted).resolve_left h
  rw [shortTokens, behindShort, hbehind, List.map_nil, List.append_nil] at hshort
  rw [longTokens, behindLong, hbehind, List.map_nil, List.append_nil, hshort, hmore,
    List.concat_eq_append, ← List.append_assoc] at hlong
  obtain ⟨hfront, -⟩ := List.append_inj' hlong rfl
  exact hws e (by simp [← hfront]) he

/-- **The constants of the source without the passage agree with those of the other source.** -/
theorem agree_constants (hbehind : i.behind ≠ [])
    (hsettled : Settled N i.ahead i.behindShort (i.inserted ++ i.behindLong))
    (hlast : ∀ vs name, vs <:+ i.ahead → vs.length ≤ 2 → declaredName? (vs ++ i.behindShort) =
      some name ∨ declaredName? (vs ++ (i.inserted ++ i.behindLong)) = some name → ¬ N name)
    (hinserted : ∀ name, DeclaredIn i.inserted i.behindLong name → ¬ N name)
    (h : collectConstants i.short i.shortTokens = .ok cs)
    (h' : collectConstants i.long i.longTokens = .ok cs') : cs.Agree hides N cs' := by
  have hagree := @Versions.agree_constants hides N i.ahead i.behind cs cs' i.adding [] i.inserted
    (sealed_behind hbehind)
  simp only [inBefore_adding, inAfter_adding, before_adding, after_adding,
    List.nil_append] at hagree
  refine hagree (i.adding.declaredValues_of_settled hsettled i.stops_le)
    (fun vs name hvs _ => hlast vs name hvs) ?_ hinserted h h'
  rintro name ⟨vs, hvs, hne, -⟩
  exact absurd (List.suffix_nil.1 hvs) hne

end Insertion

end Scaffold
