import Mathlib.Data.List.Forall2
import Mathlib.Data.List.Nodup
import Scaffold.Proofs.Schema.Constants

/-!
# Extracting a written schema

What a written schema declares is read from it: the names of the resource, and its fields in their
order (`WrittenSchema.extract_source`).  What a field is follows from the types on the way from its
own type to a constructor (`WrittenType.way`):

* the constructor at the end of the way gives the type, the kind (`WrittenCall.MakesKind`) and the
  choices;
* a modifier anywhere on the way makes the field optional (`WrittenCall.MakesOptional`);
* the last `meta` of the field's own type gives the metadata (`WrittenType.metadata`).

This leaves one field under each name (`WrittenSchema.Declares.unique`).
-/

namespace Scaffold

open Scaffold.Expr

/-! ### What is declared -/

namespace WrittenCall

/-- A call that makes fields of a kind. -/
def MakesKind (c : WrittenCall) : FieldKind → Prop
  | .string => c.name = "string"
  | .number => c.name = "number" ∨ c.name = "bigint"
  | .boolean => c.name = "boolean"
  | .enum => c.name = "enum" ∨ c.name = "nativeEnum"
  | .array => c.name = "array"
  | .object => c.name = "object" ∨ c.name = "record"
  | .unknown => c.name ∉ (["string", "number", "bigint", "boolean", "enum", "nativeEnum", "array",
      "object", "record"] : List Text)

/-- A call that makes a field optional. -/
def MakesOptional (c : WrittenCall) : Prop :=
  c.name ∈ (["optional", "nullable", "nullish"] : List Text)

/-- The values that a call of `enum` lists, as far as they are texts. -/
def choices (c : WrittenCall) : List Text :=
  if c.name = "enum" then
    match c.arguments with
    | .list vs :: _ => vs.filterMap Value.text?
    | _ => []
  else []

end WrittenCall

namespace WrittenType

/-- The type followed by the types of the constants that it leads to.  The constants are given with
the latest first. -/
def way : List (Text × WrittenType) → WrittenType → List WrittenType
  | (name, u) :: earlier, constant n ms =>
    if name = n then constant n ms :: way earlier u else way earlier (constant n ms)
  | _, t => [t]

/-- What may be said about a field beyond its type. -/
def metadataKeys : List Text :=
  ["label", "placeholder", "description", "hidden", "readOnly", "columnWidth", "sortable",
    "filterable", "inputType", "relation"]

/-- The members of the object that the last `meta` is given, as far as they may be said. -/
def metadata (t : WrittenType) : Members :=
  match (t.calls.filter fun c => c.name = ("meta" : Text)).getLast? with
  | some ⟨_, .object m :: _⟩ => m.filter fun e => metadataKeys.contains e.1
  | _ => []

end WrittenType

/-- The field is what the schema declares under the name. -/
structure WrittenSchema.Declares (w : WrittenSchema) (f : Text × WrittenType) (field : Field) :
    Prop where
  /-- It has this name. -/
  name : field.name = f.1
  /-- The constructor at the end of the way gives its type, its kind and its choices, unless that is
  the part `coerce` of the namespace. -/
  made : ∃ c ms, (f.2.way w.constants.reverse).getLast? = some (.made c ms) ∧
    (c.name ≠ "coerce" → field.typeName = c.name ∧ c.MakesKind field.kind ∧
      field.choices = c.choices)
  /-- It is optional if a call on the way says so. -/
  isOptional : field.isOptional = true ↔
    ∃ t ∈ f.2.way w.constants.reverse, ∃ c ∈ t.calls, c.MakesOptional
  /-- Its metadata are those of its own type. -/
  metadata : field.metadata = f.2.metadata

/-! ### The calls of a chain -/

/-- The call has the name and the arguments that were written. -/
def WrittenCall.ReadAs (c : WrittenCall) (call : Text × List Node) : Prop :=
  call.1 = c.name ∧ List.Forall₂ Value.ReadAs c.arguments call.2

theorem WrittenCall.AllReadAs.memberNames {cs : List WrittenCall} {segments : List Segment}
    (h : AllReadAs cs segments) : Node.memberNames segments = cs.map WrittenCall.name := by
  induction h with
  | nil => rfl
  | cons _ _ ih => simpa [Node.memberNames] using ih

theorem WrittenCall.AllReadAs.callsOf {cs : List WrittenCall} {segments : List Segment}
    (h : AllReadAs cs segments) (last : Text) :
    List.Forall₂ WrittenCall.ReadAs cs (Node.callsOf last segments) := by
  induction h generalizing last with
  | nil => exact .nil
  | cons harguments _ ih => exact .cons ⟨rfl, harguments⟩ (ih _)

/-! ### Lists that correspond -/

section Correspondence

variable {α β : Type} {R : α → β → Prop} {as : List α} {bs : List β}

theorem getLast?_of_forall₂ (h : List.Forall₂ R as bs) : Option.Rel R as.getLast? bs.getLast? := by
  induction h with
  | nil => exact .none
  | @cons a b as bs hab hs ih =>
    cases hs with
    | nil => exact .some hab
    | cons hcd hs => simpa using ih

theorem any_iff_of_forall₂ {P : α → Prop} {q : β → Bool} (h : List.Forall₂ R as bs)
    (hq : ∀ a b, R a b → (q b = true ↔ P a)) : bs.any q = true ↔ ∃ a ∈ as, P a := by
  induction h with
  | nil => simp
  | cons hab _ ih => simp [hq _ _ hab, ih]

theorem exists_of_mem_of_forall₂ (h : List.Forall₂ R as bs) : ∀ a ∈ as, ∃ b ∈ bs, R a b := by
  induction h with
  | nil => nofun
  | cons hab _ ih =>
    rw [List.forall_mem_cons]
    refine ⟨⟨_, List.mem_cons_self, hab⟩, fun a ha => ?_⟩
    obtain ⟨b, hb, hr⟩ := ih a ha
    exact ⟨b, List.mem_cons_of_mem _ hb, hr⟩

end Correspondence

/-! ### Following constants -/

theorem AreWritten.nodup {cs : List (Text × WrittenType)} (h : AreWritten cs) :
    (cs.map (·.1)).Nodup := by
  induction cs with
  | nil => exact List.nodup_nil
  | cons e cs ih => exact List.nodup_cons.2 ⟨h.2.1, ih h.2.2.2⟩

namespace Constants

variable {cs : Constants} {name key : Text} {c : Chain}

/-- Where a name stands once, its chain is found. -/
theorem get?_of_mem (h : (cs.map (·.1)).Nodup) (hc : (name, c) ∈ cs) : cs.get? name = some c := by
  have hfind : (cs.reverse.find? (·.1 = name)).isSome := by
    rw [List.find?_isSome]
    exact ⟨(name, c), List.mem_reverse.2 hc, by simp⟩
  obtain ⟨⟨n, c'⟩, he⟩ := Option.isSome_iff_exists.1 hfind
  have hn : n = name := by simpa using List.find?_some he
  have hmem : (n, c') ∈ cs := List.mem_reverse.1 (List.mem_of_find?_eq_some he)
  subst hn
  have hpair : (n, c') = (n, c) := List.inj_on_of_nodup_map h hmem hc rfl
  rw [get?, he, Option.map_some, (Prod.mk.inj hpair).2]

/-- What a name stands for does not depend on the other names. -/
theorem get?_without (h : key ≠ name) : (cs.without name).get? key = cs.get? key := by
  have hkeep : ∀ e : Text × Chain, decide (decide (e.1 ≠ name) = true ∧ decide (e.1 = key) = true) =
      decide (e.1 = key) := by
    intro e
    by_cases he : e.1 = key
    · simp [he, h]
    · simp [he]
  rw [get?, get?, without, ← List.filter_reverse, List.find?_filter, funext hkeep]

end Constants

namespace WrittenType

variable {earlier : List (Text × WrittenType)} {t : WrittenType} {c : Chain} {cs : Constants}

theorem way_made (call : WrittenCall) (ms : List WrittenCall) :
    way earlier (made call ms) = [made call ms] := by
  cases earlier <;> rfl

/-- The way leads to a constructor. -/
theorem exists_getLast?_way (ht : t.IsOver (earlier.map (·.1))) (h : AreWritten earlier) :
    ∃ call ms, (way earlier t).getLast? = some (made call ms) := by
  induction earlier generalizing t with
  | nil =>
    cases t with
    | made call ms => exact ⟨call, ms, rfl⟩
    | constant name ms => cases ht
  | cons e earlier ih =>
    obtain ⟨name, u⟩ := e
    cases t with
    | made call ms => exact ⟨call, ms, by rw [way_made]; rfl⟩
    | constant n ms =>
      by_cases hn : name = n
      · obtain ⟨call, ms', hlast⟩ := ih h.2.2.1.isOver h.2.2.2
        exact ⟨call, ms', by rw [way, if_pos hn, List.getLast?_cons, hlast]; rfl⟩
      · have hover : (constant n ms).IsOver (earlier.map (·.1)) :=
          (List.mem_cons.1 ht).resolve_left (Ne.symm hn)
        obtain ⟨call, ms', hlast⟩ := ih hover h.2.2.2
        exact ⟨call, ms', by rw [way, if_neg hn, hlast]⟩

/-- **Constants are followed along the way**: where each name stands for a chain that is its type,
the chains that are found are the types on the way. -/
theorem forall₂_resolveChain (h : AreWritten earlier) (ht : t.IsOver (earlier.map (·.1)))
    (hcs : ∀ e ∈ earlier, ∃ c, cs.get? e.1 = some c ∧ e.2.ReadAs c) (hc : t.ReadAs c) :
    List.Forall₂ ReadAs (way earlier t) (resolveChain cs c) := by
  -- Following a constant takes its name away, and the constants before it are still there.
  induction earlier generalizing t c cs with
  | nil =>
    cases t with
    | made call ms =>
      have hhead : c.head = schemaNamespace := hc.head
      rw [resolveChain, if_pos hhead]
      exact .cons hc .nil
    | constant name ms => cases ht
  | cons e earlier ih =>
    obtain ⟨name, u⟩ := e
    obtain ⟨hname, hnew, hu, hearlier⟩ := h
    rw [List.forall_mem_cons] at hcs
    cases t with
    | made call ms =>
      have hhead : c.head = schemaNamespace := hc.head
      rw [resolveChain, if_pos hhead]
      exact .cons hc .nil
    | constant n ms =>
      by_cases hn : name = n
      · subst hn
        have hhead : c.head = name := hc.head
        obtain ⟨next, hget, hnext⟩ := hcs.1
        have hkeep : ∀ e ∈ earlier,
            ∃ c', (cs.without c.head).get? e.1 = some c' ∧ e.2.ReadAs c' := by
          intro e he
          obtain ⟨c', hc', hreads⟩ := hcs.2 e he
          have hne : e.1 ≠ c.head := by
            rintro hkey
            exact hnew (List.mem_map.2 ⟨e, he, hkey.trans hhead⟩)
          exact ⟨c', by rw [Constants.get?_without hne, hc'], hreads⟩
        have hrest := ih hearlier hu.isOver hkeep hnext
        rw [way, if_pos rfl, resolveChain, if_neg (by rw [hhead]; exact hname.ne_namespace)]
        split
        · rename_i hnone
          rw [hhead, hget] at hnone
          cases hnone
        · rename_i next' hsome
          rw [hhead, hget, Option.some.injEq] at hsome
          exact .cons hc (hsome ▸ hrest)
      · have hover : (constant n ms).IsOver (earlier.map (·.1)) :=
          (List.mem_cons.1 ht).resolve_left (Ne.symm hn)
        rw [way, if_neg hn]
        exact ih hearlier hover hcs.2 hc

end WrittenType

/-! ### Reading a field -/

section Field

variable {call : WrittenCall} {ms : List WrittenCall} {t : WrittenType} {c : Chain}

/-- The chain of a constructor gives its name and its arguments. -/
theorem constructorOfChain?_eq (hc : (WrittenType.made call ms).ReadAs c)
    (hname : call.name ∉ namespaceParts) : ∃ ns, constructorOfChain? c = some (call.name, ns) ∧
      List.Forall₂ Value.ReadAs call.arguments ns := by
  have hhead : c.head = schemaNamespace := hc.head
  have hnames : c.names = call.name :: ms.map WrittenCall.name := hc.calls.memberNames
  cases hcalls : c.calls with
  | nil =>
    have := hc.calls.callsOf c.head
    rw [← Chain.calls, hcalls] at this
    cases this
  | cons first rest =>
    have hfirst : List.Forall₂ WrittenCall.ReadAs (call :: ms) (first :: rest) := by
      rw [← hcalls]
      exact hc.calls.callsOf c.head
    cases hfirst with
    | cons hcall _ =>
      refine ⟨first.2, ?_, hcall.2⟩
      rw [constructorOfChain?, if_pos hhead, hnames, hcalls]
      simp [hname, hcall.1]

/-- A constructor makes fields of the kind that its name stands for, and of no other. -/
theorem makesKind_iff {kind : FieldKind} :
    call.MakesKind kind ↔ kindOfConstructor call.name = kind := by
  constructor
  · intro h
    cases kind with
    | number | enum | object => rcases h with h | h <;> rw [h] <;> decide
    | unknown => simp_all [WrittenCall.MakesKind, kindOfConstructor]
    | string | boolean | array => rw [show call.name = _ from h]; decide
  · rintro rfl
    fun_cases kindOfConstructor call.name <;> simp_all [WrittenCall.MakesKind]

theorem mem_namespaceParts_iff {name : Text} : name ∈ namespaceParts ↔ name = "coerce" :=
  List.mem_singleton

theorem knownMetadataKeys_eq : knownMetadataKeys = WrittenType.metadataKeys := rfl

theorem contains_optionalModifiers_iff :
    optionalModifiers.contains call.name = true ↔ call.MakesOptional :=
  List.contains_iff_mem

theorem enumChoices_eq {ns : List Node} (h : List.Forall₂ Value.ReadAs call.arguments ns) :
    enumChoices call.name ns = call.choices := by
  rw [enumChoices.eq_def, WrittenCall.choices]
  by_cases hname : call.name = "enum"
  · rw [if_pos hname, if_pos hname]
    generalize call.arguments = arguments at h ⊢
    cases h with
    | nil => rfl
    | cons hv _ =>
      cases hv with
      | list hitems => exact Value.texts_of_readAs hitems
      | _ => rfl
  · rw [if_neg hname, if_neg hname]

/-- The constructor at the end of the way is found. -/
theorem constructorOf_eq {types : List WrittenType} {chains : List Chain}
    (h : List.Forall₂ WrittenType.ReadAs types chains)
    (hlast : types.getLast? = some (.made call ms)) (hname : call.name ∉ namespaceParts) :
    ∃ ns, constructorOf chains = (call.name, ns) ∧
      List.Forall₂ Value.ReadAs call.arguments ns := by
  have hrel := getLast?_of_forall₂ h
  rw [hlast] at hrel
  cases hchain : chains.getLast? with
  | none =>
    rw [hchain] at hrel
    cases hrel
  | some c =>
    rw [hchain] at hrel
    cases hrel with
    | some hc =>
      obtain ⟨ns, hns, harguments⟩ := constructorOfChain?_eq hc hname
      refine ⟨ns, ?_, harguments⟩
      have hhead : chains.reverse.head? = some c := by rw [List.head?_reverse, hchain]
      obtain ⟨rest, hrest⟩ := List.head?_eq_some_iff.1 hhead
      rw [constructorOf, hrest, List.findSome?_cons, hns]
      rfl

/-- The last call of a name, among those written and among those read. -/
theorem rawMetadata_eq (hdata : ∀ c ∈ t.calls, c.IsWritten) (hc : t.ReadAs c) :
    ((rawMetadata c).filter fun e => knownMetadataKeys.contains e.1) = t.metadata := by
  have hcalls := hc.calls.callsOf c.head
  have hmeta : List.Forall₂ WrittenCall.ReadAs (t.calls.filter fun c => c.name = ("meta" : Text))
      (c.calls.filter fun call => call.1 = ("meta" : Text)) :=
    List.rel_filter (fun _ _ h => by simp [h.1]) hcalls
  have hlast := getLast?_of_forall₂ hmeta
  rw [rawMetadata, WrittenType.metadata]
  cases hwritten : (t.calls.filter fun c => c.name = ("meta" : Text)).getLast? with
  | none =>
    rw [hwritten] at hlast
    cases hread : (c.calls.filter fun call => call.1 = ("meta" : Text)).getLast? with
    | none => rfl
    | some call =>
      rw [hread] at hlast
      cases hlast
  | some w =>
    have harguments := (hdata w (List.mem_of_mem_filter (List.mem_of_getLast? hwritten))).arguments
    rw [hwritten] at hlast
    cases hread : (c.calls.filter fun call => call.1 = ("meta" : Text)).getLast? with
    | none =>
      rw [hread] at hlast
      cases hlast
    | some call =>
      rw [hread] at hlast
      obtain ⟨name, arguments⟩ := w
      obtain ⟨name', nodes⟩ := call
      cases hlast with
      | some hcall =>
        have hnodes : List.Forall₂ Value.ReadAs arguments nodes := hcall.2
        cases hnodes with
        | nil => rfl
        | @cons v n vs ns hv _ =>
          have hv' := Value.evaluate_of_readAs v (harguments v List.mem_cons_self) hv
          cases hv with
          | object h =>
            rw [Node.evaluate, Value.object.injEq] at hv'
            simp only [Node.evaluateObject, hv', knownMetadataKeys_eq]
          | _ => rfl

/-- **A field is read as it is declared.** -/
theorem WrittenSchema.declares_readField {w : WrittenSchema} (h : w.IsWritten)
    {constants : Constants}
    (hconstants : ∀ e ∈ w.constants, ∃ c, constants.get? e.1 = some c ∧ e.2.ReadAs c)
    {f : Text × WrittenType} (hf : f ∈ w.fields) {n : Node} (hn : Holds f.2.ReadAs n.chain?) :
    w.Declares f (readField constants f.1 n).1 := by
  obtain ⟨c, hchain, hc⟩ := hn
  have hwritten := (h.fields f hf).2
  have hover : f.2.IsOver (w.constants.reverse.map (·.1)) :=
    hwritten.isOver.mono fun name hname => by simpa using hname
  have hway := WrittenType.forall₂_resolveChain h.constants hover
    (fun e he => hconstants e (List.mem_reverse.1 he)) hc
  have hfield : (readField constants f.1 n).1 =
      { name := f.1
        kind := kindOfConstructor (constructorOf (resolveChain constants c)).1
        typeName := (constructorOf (resolveChain constants c)).1
        isOptional := (resolveChain constants c).any fun c => c.calls.any fun call =>
          optionalModifiers.contains call.1
        choices := enumChoices (constructorOf (resolveChain constants c)).1
          (constructorOf (resolveChain constants c)).2
        metadata := (rawMetadata c).filter fun e => knownMetadataKeys.contains e.1 } := by
    rw [readField, hchain]
    rfl
  obtain ⟨call, ms, hlast⟩ := WrittenType.exists_getLast?_way hover h.constants
  rw [hfield]
  refine ⟨rfl, ⟨call, ms, hlast, fun hname => ?_⟩, ?_, rawMetadata_eq hwritten.calls hc⟩
  · obtain ⟨ns, hconstructor, hns⟩ :=
      constructorOf_eq hway hlast (mem_namespaceParts_iff.not.2 hname)
    rw [hconstructor]
    exact ⟨rfl, makesKind_iff.2 rfl, enumChoices_eq hns⟩
  · refine any_iff_of_forall₂ hway fun t c hc => ?_
    refine any_iff_of_forall₂ (hc.calls.callsOf c.head) fun w call hcall => ?_
    rw [hcall.1, contains_optionalModifiers_iff]

/-- What a field is follows from the schema, unless its constructor is the part `coerce` of the
namespace. -/
theorem WrittenSchema.Declares.unique {w : WrittenSchema} {f : Text × WrittenType} {a b : Field}
    (ha : w.Declares f a) (hb : w.Declares f b)
    (hlast : (f.2.way w.constants.reverse).getLast? = some (.made call ms))
    (hname : call.name ≠ "coerce") : a = b := by
  have hmade : ∀ field, w.Declares f field → field.typeName = call.name ∧
      kindOfConstructor call.name = field.kind ∧ field.choices = call.choices := by
    intro field h
    obtain ⟨c, ms', hlast', hfield⟩ := h.made
    obtain ⟨rfl, -⟩ : c = call ∧ ms' = ms := by simpa [hlast] using hlast'.symm
    obtain ⟨htype, hkind, hchoices⟩ := hfield hname
    exact ⟨htype, makesKind_iff.1 hkind, hchoices⟩
  obtain ⟨hatype, hakind, hachoices⟩ := hmade a ha
  obtain ⟨hbtype, hbkind, hbchoices⟩ := hmade b hb
  have hoptional : a.isOptional = b.isOptional :=
    Bool.eq_iff_iff.2 (ha.isOptional.trans hb.isOptional.symm)
  cases a
  cases b
  simp only [Field.mk.injEq]
  exact ⟨ha.name.trans hb.name.symm, hakind.symm.trans hbkind, hatype.trans hbtype.symm,
    hoptional, hachoices.trans hbchoices.symm, ha.metadata.trans hb.metadata.symm⟩

end Field

/-! ### The resource -/

namespace WrittenSchema

variable {w : WrittenSchema}

/-- A collected name stands for the chain of its constant. -/
theorem exists_get?_of_collected (h : w.IsWritten) {constants : Constants} {c : Chain}
    (hall : List.Forall₂ IsConstant w.constants constants) :
    ∀ e ∈ w.constants,
      ∃ c', (constants ++ [(w.varName, c)] : Constants).get? e.1 = some c' ∧ e.2.ReadAs c' := by
  have hkeys : constants.map (·.1) = w.constants.map (·.1) := by
    have hsame : List.Forall₂ (· = ·) (w.constants.map (·.1)) (constants.map (·.1)) :=
      List.rel_map (fun _ _ hc => hc.1.symm) hall
    exact (List.forall₂_eq_eq_eq ▸ hsame).symm
  have hnodup : ((constants ++ [(w.varName, c)]).map (·.1)).Nodup := by
    have hnames := h.constants.nodup
    rw [List.map_reverse, List.nodup_reverse] at hnames
    rw [List.map_append, hkeys]
    exact hnames.append (List.nodup_singleton _) (List.disjoint_singleton.2 h.varName_notMem)
  intro e he
  obtain ⟨⟨name, c'⟩, hmem, hname, hreads⟩ := exists_of_mem_of_forall₂ hall e he
  obtain rfl : name = e.1 := hname
  exact ⟨c', Constants.get?_of_mem hnodup (List.mem_append_left _ hmem), hreads⟩

/-- The properties of the field map are the fields. -/
theorem forall₂_properties {fields : List (Text × WrittenType)} {ms : List Member}
    (h : List.Forall₂ (IsProperty IsTypeOf) fields ms) :
    List.Forall₂ (fun f e => e.1 = f.1 ∧ IsTypeOf f.2 e.2) fields (Member.properties ms) := by
  induction h with
  | nil => exact .nil
  | cons hm _ ih =>
    cases hm with
    | property hn => exact .cons ⟨rfl, hn⟩ ih

theorem forall₂_map_of_mem {α β γ : Type} {R : α → β → Prop} {S : α → γ → Prop} {f : β → γ}
    {as : List α} {bs : List β} (h : List.Forall₂ R as bs)
    (hf : ∀ a ∈ as, ∀ b, R a b → S a (f b)) : List.Forall₂ S as (bs.map f) := by
  induction h with
  | nil => exact .nil
  | cons hab _ ih =>
    rw [List.forall_mem_cons] at hf
    exact .cons (hf.1 _ hab) (ih hf.2)

/-- The declaration in a written schema is found. -/
theorem exists_findDeclaration (h : w.IsWritten) : ∃ d : Declaration,
    findDeclaration "defineResource" w.source = .ok d ∧ d.name = w.name ∧ d.config = w.config ∧
      d.site.assignedName? = some w.varName ∧
      (∀ e ∈ w.constants, ∃ c, d.constants.get? e.1 = some c ∧ e.2.ReadAs c) ∧
      List.Forall₂ (IsProperty IsTypeOf) w.fields d.fields := by
  obtain ⟨ts, hts, htokens⟩ := (lexesAs_source h).tokenize
  obtain ⟨x, hx⟩ := w.exists_tokens hts (Token.endOf w.source.length)
  have hstop : (Token.endOf w.source.length).kind = .eof := rfl
  let site : CallSite := ⟨x.equals :: x.name :: x.keyword :: x.constants.reverse,
    x.behind (Token.endOf w.source.length)⟩
  obtain ⟨config, fields, hcall, hconfig, hfields⟩ : ∃ config fields,
      readCall w.source site = .ok (config, fields) ∧ Node.evaluateObject config = w.config ∧
        List.Forall₂ (IsProperty IsTypeOf) w.fields fields := readCall_eq x h _
  obtain ⟨constants, c, hcollect, hall⟩ : ∃ constants c, collectConstants w.source
      (x.all (Token.endOf w.source.length)) = .ok (constants ++ [(w.varName, c)]) ∧
        List.Forall₂ IsConstant w.constants constants := collectConstants_eq x h hstop
  have honly : onlyCall "defineResource" (x.all (Token.endOf w.source.length)) = .ok site := by
    rw [onlyCall, callSites_eq x hstop]
  have hname : configName w.config = .ok w.name := by
    simp [configName, WrittenSchema.config, Members.get?, h.name]
  refine ⟨⟨site, w.name, w.config, fields, constants ++ [(w.varName, c)]⟩, ?_, rfl, rfl,
    assignedName?_eq x _ _, exists_get?_of_collected h hall, hfields⟩
  rw [findDeclaration, htokens, hx]
  simp only [Except.mapError, bind, Except.bind, honly, hcall, hconfig, hname, hcollect]
  rfl

/-- A written schema without fields declares the names alone. -/
theorem extract_of_noFields (h : w.IsWritten) (hfields : w.fields = []) (origin : Text) :
    (extract "defineResource" origin w.source).1 = .ok
      { name := w.name, pluralName := w.name ++ "s", varName := w.varName, config := w.config,
        fields := [], sourcePath := origin } := by
  obtain ⟨d, hd, hname, hconfig, hvar, -, hnone⟩ := exists_findDeclaration h
  rw [hfields, List.forall₂_nil_left_iff] at hnone
  have hplural : d.config.text? "pluralName" = none := by
    rw [hconfig]
    rfl
  have hresource : d.resource origin =
      { name := w.name, pluralName := w.name ++ "s", varName := w.varName, config := w.config,
        fields := [], sourcePath := origin } := by
    rw [Declaration.resource, hplural, hvar, hnone, hname, hconfig]
    rfl
  rw [extract, hd]
  dsimp only
  rw [hresource, if_pos (by exact h.name_isScalar)]

/-- **What a written schema declares is extracted.** -/
theorem extract_source (h : w.IsWritten) (origin : Text) :
    ∃ r log, extract "defineResource" origin w.source = (.ok r, log) ∧ r.name = w.name ∧
      r.pluralName = w.name ++ "s" ∧ r.varName = w.varName ∧
      List.Forall₂ w.Declares w.fields r.fields := by
  obtain ⟨d, hd, hname, hconfig, hvar, hconstants, hfields⟩ := exists_findDeclaration h
  have hscalar : (d.resource origin).name.IsScalar := by
    rw [Declaration.resource, hname]
    exact h.name_isScalar
  have hplural : d.config.text? "pluralName" = none := by
    rw [hconfig]
    rfl
  refine ⟨d.resource origin, d.fieldLog origin ++ extractionLog origin (d.resource origin), ?_,
    hname, ?_, ?_, ?_⟩
  · rw [extract, hd]
    simp only [hscalar, if_true]
  · rw [Declaration.resource, hplural, hname]
    rfl
  · rw [Declaration.resource, hvar]
    rfl
  · exact forall₂_map_of_mem (forall₂_properties hfields) fun f hf e he => by
      obtain ⟨key, value⟩ := e
      obtain ⟨rfl, hvalue⟩ := he
      exact declares_readField h hconstants hf hvalue

/-- Two constants, a field that follows both, and one that is made where it stands. -/
theorem extract_source_order :
    let status : WrittenType :=
      .made ⟨"enum", [.list [.text "open", .text "closed"]]⟩ []
    let w : WrittenSchema :=
      { constants := [("status", status), ("state", .constant "status" [⟨"nullable", []⟩])]
        varName := "orderResource"
        name := "order"
        fields := [
          ("state", .constant "state" [⟨"meta", [.object [("label", .text "State"),
            ("colour", .text "red")]]⟩]),
          ("total", .made ⟨"bigint", []⟩ [⟨"min", [.number (.integer (-1))]⟩])] }
    ∃ r log, extract "defineResource" "<source>" w.source = (.ok r, log) ∧ r.name = "order" ∧
      r.pluralName = "orders" ∧ r.varName = "orderResource" ∧
      r.fields = [
        { name := "state", kind := .enum, typeName := "enum", isOptional := true,
          choices := ["open", "closed"], metadata := [("label", .text "State")] },
        { name := "total", kind := .number, typeName := "bigint" }] := by
  intro status w
  have hstatus : ∀ names, status.IsWritten names := by
    refine fun names => ⟨trivial, fun c hc => ?_⟩
    rw [List.mem_singleton.1 hc]
    exact ⟨by decide, by simp [Value.IsData, Value.AllData]⟩
  have hstate : (WrittenType.constant "status" [⟨"nullable", []⟩]).IsWritten ["status"] := by
    refine ⟨List.mem_singleton.2 rfl, fun c hc => ?_⟩
    rw [List.mem_singleton.1 hc]
    exact ⟨by decide, nofun⟩
  have hmeta : WrittenCall.IsWritten ⟨"meta", [.object [("label", .text "State"),
      ("colour", .text "red")]]⟩ := by
    refine ⟨by decide, fun v hv => ?_⟩
    rw [List.mem_singleton.1 hv, Value.IsData, Value.allMembersData_iff]
    exact ⟨by decide, by simp +decide [Value.IsData]⟩
  have hmin : WrittenCall.IsWritten ⟨"min", [.number (.integer (-1))]⟩ := by
    refine ⟨by decide, fun v hv => ?_⟩
    rw [List.mem_singleton.1 hv, Value.IsData]
    decide
  have hw : w.IsWritten :=
    { constants := ⟨⟨by decide, by decide, by decide⟩, by decide, hstate,
        ⟨by decide, by decide, by decide⟩, by decide, hstatus _, trivial⟩
      varName := by decide
      varName_notMem := by decide
      name := by decide
      name_isScalar := by decide
      fields := by
        refine List.forall_mem_cons.2 ⟨⟨by decide, ?_, ?_⟩, List.forall_mem_singleton.2
          ⟨by decide, trivial, ?_⟩⟩
        · exact List.mem_cons_of_mem _ List.mem_cons_self
        · exact List.forall_mem_singleton.2 hmeta
        · exact List.forall_mem_cons.2 ⟨⟨by decide, nofun⟩, List.forall_mem_singleton.2 hmin⟩ }
  obtain ⟨r, log, hextract, hname, hplural, hvar, hfields⟩ := extract_source hw "<source>"
  refine ⟨r, log, hextract, hname, hplural, hvar, ?_⟩
  obtain ⟨state, rest, hread, hrest, hr⟩ := List.forall₂_cons_left_iff.1 hfields
  obtain ⟨total, rest', htotal, hnone, rfl⟩ := List.forall₂_cons_left_iff.1 hrest
  rw [hr, List.forall₂_nil_left_iff.1 hnone, List.cons.injEq, List.cons.injEq]
  refine ⟨hread.unique ⟨rfl, ⟨_, _, rfl, fun _ => ⟨rfl, .inl rfl, rfl⟩⟩, ?_, rfl⟩ rfl (by decide),
    htotal.unique ⟨rfl, ⟨_, _, rfl, fun _ => ⟨rfl, .inr rfl, rfl⟩⟩, ?_, rfl⟩ rfl (by decide), rfl⟩
  · exact iff_of_true rfl ⟨_, List.mem_cons_of_mem _ List.mem_cons_self, _, List.mem_cons_self,
      by simp [WrittenCall.MakesOptional]⟩
  · simp +decide [WrittenType.way, WrittenType.calls, WrittenCall.MakesOptional]

end WrittenSchema

end Scaffold
