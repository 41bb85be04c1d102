import Scaffold.Hub.Standard
import Scaffold.Proofs.Schema.Extraction
import Scaffold.Proofs.Schema.Revision
import Scaffold.Proofs.Text.Capitals
import Scaffold.Proofs.Token.Brackets

/-!
# Entries that end what they begin

What is put into a shared file for a resource must not begin a string, a comment or a bracket that
goes on in what the file has for others.  The texts of a resource are written in three ways: as a
string literal, which takes any text; between quotes as they are; and as code.

* `standard_complete` : every entry and every reference line of the hubs of a project is complete
  (`Text.IsComplete`), whatever else the schema says, if what is written as it is has no code point
  that means something there (`Resource.IsHarmless`).
* `registry_incomplete` : a data source with an apostrophe is enough to break the registry, since it
  is put between quotes as it is.
-/

namespace Scaffold

open CodePoint

/-- The texts that are put into the hub for a resource: its entry, and the reference lines that it
needs. -/
def Hub.writtenFor (h : Hub) (r : Resource) : List Text :=
  h.entry r :: (h.references.filter (·.applies r)).map (·.line r)

/-- The text may be written as code: it begins no string, template, comment or regular expression,
and its brackets are nested. -/
structure Text.IsNestedCode (t : Text) : Prop where
  /-- Neither a quote nor a slash is in it. -/
  code : t.IsCode
  /-- Its brackets are nested. -/
  nested : IsNested t.brackets

/-- What is written into the hubs as it is may be written there. -/
structure Resource.IsHarmless (s : Settings) (r : Resource) : Prop where
  /-- The name is written as code. -/
  name : r.name.IsNestedCode
  /-- It is written between quotes, too. -/
  name_quotable : r.name.IsQuotable
  /-- The plural is written as code. -/
  plural : r.pluralName.IsNestedCode
  /-- It is written between quotes, too. -/
  plural_quotable : r.pluralName.IsQuotable
  /-- And it is written in a template. -/
  substitution : ¬ Text.ofString "$\x7b" <:+: r.pluralName
  /-- The icon is written as code. -/
  icon : (Hub.iconOf s r).IsNestedCode
  /-- The data source is written between quotes. -/
  dataSource : r.dataSource.IsQuotable

instance (t : Text) : Decidable t.IsNestedCode :=
  decidable_of_iff (t.IsCode ∧ IsNested t.brackets) ⟨fun h => ⟨h.1, h.2⟩, fun h => ⟨h.1, h.2⟩⟩

instance (s : Settings) (r : Resource) : Decidable (r.IsHarmless s) :=
  decidable_of_iff (r.name.IsNestedCode ∧ r.name.IsQuotable ∧ r.pluralName.IsNestedCode ∧
      r.pluralName.IsQuotable ∧ ¬ Text.ofString "$\x7b" <:+: r.pluralName ∧
      (Hub.iconOf s r).IsNestedCode ∧ r.dataSource.IsQuotable)
    ⟨fun ⟨h₁, h₂, h₃, h₄, h₅, h₆, h₇⟩ => ⟨h₁, h₂, h₃, h₄, h₅, h₆, h₇⟩,
      fun h => ⟨h.name, h.name_quotable, h.plural, h.plural_quotable, h.substitution, h.icon,
        h.dataSource⟩⟩

/-! ### Names -/

theorem Lexes.isIdentPart {start : Nat} {operand : Bool} {t : Text} {ts : List Token}
    (h : Lexes start operand t ts) :
    ∀ u ∈ ts, u.kind = .ident → ∀ c ∈ u.value, isIdentPart c = true := by
  induction h with
  | done => simp [Token.endOf]
  | skip _ _ ih => exact ih
  | @token start operand c read rest l ts _ hscan _ ih =>
    refine List.forall_mem_cons.2 ⟨fun hkind => ?_, ih⟩
    unfold scanToken at hscan
    split_ifs at hscan with hstring htemplate hslash hnumber hident
    · obtain ⟨v, -, rfl⟩ := hscan.of_lift
      cases hkind
    · obtain ⟨v, -, rfl⟩ := hscan.of_lift
      cases hkind
    · split at hscan
      · obtain ⟨s, hs, -⟩ := hscan
        cases hs
      · obtain ⟨s, hs, rfl, -⟩ := hscan
        cases hs
        cases hkind
    · obtain ⟨s, hs, rfl, -⟩ := hscan
      cases hs
      cases hkind
    · obtain ⟨s, hs, rfl, -⟩ := hscan
      cases hs
      exact List.forall_mem_cons.2
        ⟨isIdentPart_of_isIdentStart hident, fun c hc => List.mem_takeWhile_imp hc⟩
    · obtain ⟨s, hs, rfl, -⟩ := hscan
      cases hs
      cases hkind

/-- The variable of a resource is a name in the source, or made of the name of the resource. -/
theorem varName_of_extract {factory origin source : Text} {r : Resource}
    (h : (extract factory origin source).1 = .ok r) :
    (∀ c ∈ r.varName, isIdentPart c = true) ∨ r.varName = r.name ++ "Resource" := by
  rw [extract] at h
  cases hdeclaration : findDeclaration factory source with
  | error e =>
    rw [hdeclaration] at h
    cases h
  | ok d =>
    rw [hdeclaration] at h
    dsimp only at h
    split_ifs at h with hscalar
    obtain rfl := Except.ok.inj h
    cases hassigned : d.site.assignedName? with
    | none => exact .inr (by simp [Declaration.resource, hassigned, Resource.defaultVar])
    | some name =>
      refine .inl ?_
      have hvar : (d.resource origin).varName = name := by simp [Declaration.resource, hassigned]
      rw [hvar]
      obtain ⟨ts, hts⟩ : ∃ ts, tokenize source = .ok ts := by
        cases hts : tokenize source with
        | error e =>
          rw [findDeclaration, hts] at hdeclaration
          cases hdeclaration
        | ok ts => exact ⟨ts, rfl⟩
      obtain ⟨hsite, -⟩ := (findDeclaration_eq_ok_iff hts).1 hdeclaration
      obtain ⟨f, hsplit, -⟩ := mem_callSites_iff.1 (mem_callSites_of_onlyCall hsite)
      unfold CallSite.assignedName? at hassigned
      split at hassigned
      · rename_i eq ident keyword before hbefore
        split_ifs at hassigned with hdeclares
        obtain rfl := Option.some.inj hassigned
        simp only [Bool.and_eq_true, decide_eq_true_eq] at hdeclares
        refine (lexes_of_tokensFrom hts (Nat.zero_add _).symm).isIdentPart ident ?_
          hdeclares.1.2
        rw [hsplit, hbefore]
        simp
      · cases hassigned

/-! ### Texts that are written as code -/

namespace Text.IsNestedCode

variable {t u : Text}

theorem append (ht : t.IsNestedCode) (hu : u.IsNestedCode) : (t ++ u).IsNestedCode where
  code := Text.isCode_append.2 ⟨ht.code, hu.code⟩
  nested := by
    rw [IsNested, Text.brackets_append, closersBehind_of_nested ht.nested]
    exact hu.nested

/-- Braces around code. -/
theorem braced (ht : t.IsNestedCode) : ("\x7b " ++ t ++ " \x7d").IsNestedCode where
  code := Text.isCode_append.2 ⟨Text.isCode_append.2 ⟨by decide, ht.code⟩, by decide⟩
  nested := by
    have hopening : Text.brackets "\x7b " = [.scalar '\x7b'] := by decide
    rw [IsNested, Text.brackets_append, Text.brackets_append, hopening, List.append_assoc,
      List.singleton_append, closersBehind]
    exact closersBehind_of_nested ht.nested _ _

theorem of_isIdentPart (h : ∀ c ∈ t, Scaffold.isIdentPart c = true) : t.IsNestedCode where
  code c hc := Scaffold.of_isIdentPart (P := fun c => ¬ c.IsQuote ∧ c ≠ .scalar '/') (by decide)
    (by decide +kernel) (h c hc)
  nested := by
    have hmarks : ∀ c ∈ t, ¬ Interrupts c := fun c hc hinterrupts =>
      Bool.eq_false_iff.1 hinterrupts.name (h c hc)
    rw [IsNested, brackets_of_marks hmarks]
    rfl

/-- A capital letter is neither a bracket, nor a quote or a slash. -/
theorem not_mem_of_isCapitalOrWide {c : CodePoint} (h : IsCapitalOrWide c.toNat) :
    c ∉ Text.ofString "()[]\x7b\x7d'\"\x60/" := fun hc => by
  have hall : ∀ c ∈ Text.ofString "()[]\x7b\x7d'\"\x60/",
      ¬ ((0x41 ≤ c.toNat ∧ c.toNat ≤ 0x5A) ∨ 0x80 ≤ c.toNat) := by decide
  exact hall c hc h

theorem brackets_toUpper (c : CodePoint) : Text.brackets c.toUpper = c.bracket?.toList := by
  by_cases hc : c ∈ Text.ofString "()[]\x7b\x7d"
  · have hall : ∀ c ∈ Text.ofString "()[]\x7b\x7d",
        Text.brackets c.toUpper = c.bracket?.toList := by
      decide +kernel
    exact hall c hc
  · have hnone : c.bracket? = none := if_neg (by simpa using hc)
    rw [hnone]
    refine List.filterMap_eq_nil_iff.2 fun d hd => ?_
    rcases mem_toUpper_ascii hd with rfl | hcapital
    · exact hnone
    · refine if_neg fun hmem => not_mem_of_isCapitalOrWide hcapital ?_
      exact List.mem_append_left (Text.ofString "'\"\x60/") (List.contains_iff_mem.1 hmem)

theorem capitalize (ht : t.IsNestedCode) : t.capitalize.IsNestedCode where
  code d hd := by
    rcases mem_capitalize_ascii hd with hd | hd
    · exact ht.code d hd
    · have hplain := not_mem_of_isCapitalOrWide hd
      constructor
      · rintro (rfl | rfl | rfl) <;> exact hplain (by decide)
      · rintro rfl
        exact hplain (by decide)
  nested := by
    cases t with
    | nil => exact ht.nested
    | cons c t =>
      have hbrackets : Text.brackets (Text.capitalize (c :: t)) = Text.brackets (c :: t) := by
        rw [Text.capitalize, Text.brackets_append, brackets_toUpper, Text.brackets, Text.brackets,
          List.filterMap_cons]
        cases c.bracket? <;> rfl
      rw [hbrackets]
      exact ht.nested

end Text.IsNestedCode

/-! ### Entries -/

/-- Code is complete. -/
theorem Text.IsNestedCode.isComplete {t : Text} (h : t.IsNestedCode) : t.IsComplete :=
  ⟨_, .code h.code, h.nested⟩

/-- So is code before a string. -/
theorem isComplete_clause {t source : Text} (ht : t.IsNestedCode) (hsource : source.IsQuotable) :
    (t ++ ("'" ++ source ++ "'")).IsComplete := by
  have hshown := ShowsBrackets.enclosed ht.code (isEnclosed_quotation hsource)
    (.code (t := []) (by decide))
  rw [List.append_nil] at hshown
  refine ⟨_, hshown, ?_⟩
  rw [show Text.brackets [] = [] from rfl, List.append_nil]
  exact ht.nested

/-- The values of a registry entry in front of its data source. -/
def Hub.registryValues (r : Resource) : Text :=
  let collection : Text :=
    if r.isParquet then [] else "    collection: " ++ r.collectionName ++ ",\n"
  r.varName ++ ".config,\n" ++ collection

/-- The address of one record, a template. -/
def Hub.recordAddress (r : Resource) : Text :=
  "\x60" ++ ("/" ++ r.pluralName ++ "/" ++ ("$\x7b" ++ ("id" ++ "\x7d\x60")))

/-- A registry entry, cut where a string or the template begins and ends. -/
theorem Hub.registryEntry_eq (r : Resource) :
    Hub.registryEntry r = Text.ofString "  " ++ r.name ++ ": \x7b\n    config: " ++
      Hub.registryValues r ++ "    dataSource: " ++ (("'" ++ r.dataSource ++ "'") ++
        (Text.ofString ",\n    routes: \x7b\n      list: " ++
          (("'" ++ ("/" ++ r.pluralName) ++ "'") ++ (Text.ofString ",\n      new: " ++
            (("'" ++ ("/" ++ r.pluralName ++ "/new") ++ "'") ++
              (Text.ofString ",\n      edit: (id: string) => " ++
                (Hub.recordAddress r ++ Text.ofString ",\n    \x7d,\n  \x7d,"))))))) := by
  by_cases hparquet : r.isParquet = true <;>
    simp [Hub.registryEntry, Hub.registryValues, Hub.recordAddress, hparquet, Text.join,
      Text.ofString]

/-- What is known of a resource that was read and has nothing harmful in its texts: all that is
written as code is code. -/
structure Resource.IsCoded (s : Settings) (r : Resource) : Prop extends r.IsHarmless s where
  /-- The variable is code, too. -/
  varName : r.varName.IsNestedCode

namespace Resource.IsCoded

variable {s : Settings} {r : Resource}

theorem of_extract {factory origin source : Text} (h : (extract factory origin source).1 = .ok r)
    (hr : r.IsHarmless s) : r.IsCoded s where
  toIsHarmless := hr
  varName := by
    rcases varName_of_extract h with hname | hname
    · exact .of_isIdentPart hname
    · rw [hname]
      exact hr.name.append (by decide)

theorem collectionName (h : r.IsCoded s) : r.collectionName.IsNestedCode :=
  h.plural.append (by decide)

theorem typeName (h : r.IsCoded s) : r.typeName.IsNestedCode := h.name.capitalize

theorem schemas_entry (h : r.IsCoded s) : ((Hub.schemas s).entry r).IsComplete := by
  have hentry : (Hub.schemas s).entry r = Text.ofString "export " ++
      ("\x7b " ++ r.varName ++ " \x7d") ++ " from " ++
        ("'" ++ ("./" ++ r.name ++ ".schema") ++ "'") := by
    simp [Hub.schemas, Text.ofString]
  have hcode : (Text.ofString "export ").IsNestedCode := by decide
  rw [hentry]
  exact isComplete_clause ((hcode.append h.varName.braced).append (by decide))
    (.between (by decide) h.name_quotable (by decide))

theorem collections_entry (h : r.IsCoded s) : ((Hub.collections s).entry r).IsComplete := by
  have hcode : (Text.ofString "export ").IsNestedCode := by decide
  have hsource : ("./" ++ r.pluralName ++ ".collection").IsQuotable :=
    .between (by decide) h.plural_quotable (by decide)
  by_cases hparquet : r.isParquet = true
  · have hentry : (Hub.collections s).entry r = Text.ofString "export * from " ++
        ("'" ++ ("./" ++ r.pluralName ++ ".collection") ++ "'") := by
      simp [Hub.collections, hparquet, Text.ofString]
    rw [hentry]
    exact isComplete_clause (by decide) hsource
  · have hentry : (Hub.collections s).entry r = Text.ofString "export " ++
        ("\x7b " ++ (r.collectionName ++ ", type " ++ r.typeName) ++ " \x7d") ++ " from " ++
          ("'" ++ ("./" ++ r.pluralName ++ ".collection") ++ "'") := by
      simp [Hub.collections, hparquet, Text.ofString]
    rw [hentry]
    have hnames := (h.collectionName.append (u := ", type ") (by decide)).append h.typeName
    exact isComplete_clause ((hcode.append hnames.braced).append (by decide)) hsource

theorem client_entry (h : r.IsCoded s) : ((Hub.client s).entry r).IsComplete := by
  have hcode : (Text.ofString "    ").IsNestedCode := by decide
  exact (((hcode.append h.plural).append (u := ": ") (by decide)).append h.collectionName).append
    (u := ",") (by decide) |>.isComplete

theorem navigation_entry (h : r.IsCoded s) : ((Hub.navigation s).entry r).IsComplete := by
  have hentry : (Hub.navigation s).entry r = Text.ofString "    \x7b\n      title: " ++
      (r.displayName.literal ++ (Text.ofString ",\n      href: " ++
        (("'" ++ ("/" ++ r.pluralName) ++ "'") ++ (Text.ofString ",\n      icon: " ++
          Hub.iconOf s r ++ ",\n      description: " ++
            (r.describe.literal ++ Text.ofString ",\n    \x7d,"))))) := by
    simp [Hub.navigation, Hub.link, Text.join, Text.ofString]
  rw [hentry]
  have hicon : (Text.ofString ",\n      icon: " ++ Hub.iconOf s r ++
      ",\n      description: ").IsNestedCode :=
    (Text.IsNestedCode.append (by decide) h.icon).append (by decide)
  refine ⟨_, .enclosed (by decide) (isEnclosed_literal _) (.enclosed (by decide)
    (isEnclosed_quotation ?_)
    (.enclosed hicon.code (isEnclosed_literal _) (.code (by decide)))), ?_⟩
  · exact Text.isQuotable_append.2 ⟨by decide, h.plural_quotable⟩
  · have hopening : Text.brackets "    \x7b\n      title: " = [.scalar '\x7b'] := by decide
    have hlink : Text.brackets ",\n      href: " = [] := by decide
    rw [IsNested, hopening, hlink, List.nil_append, List.singleton_append, closersBehind]
    exact closersBehind_of_nested hicon.nested _ _

theorem registryValues (h : r.IsCoded s) : (Hub.registryValues r).IsNestedCode := by
  refine (h.varName.append (by decide)).append ?_
  by_cases hparquet : r.isParquet = true
  · rw [if_pos hparquet]
    decide
  · rw [if_neg hparquet]
    exact (Text.IsNestedCode.append (by decide) h.collectionName).append (by decide)

theorem templatePart (h : r.IsCoded s) : r.pluralName.IsTemplatePart :=
  ⟨fun c hc => ⟨fun heq => (h.plural.code c hc).1 (.inr (.inr heq)), (h.plural_quotable c hc).2.1⟩,
    h.substitution⟩

theorem registry_entry (h : r.IsCoded s) : ((Hub.registry s).entry r).IsComplete := by
  have hcode : (Text.ofString "  " ++ r.name ++ ": \x7b\n    config: " ++ Hub.registryValues r ++
      "    dataSource: ").IsCode := by
    simp only [Text.isCode_append]
    exact ⟨⟨⟨⟨by decide, h.name.code⟩, by decide⟩, h.registryValues.code⟩, by decide⟩
  have hlist : ("/" ++ r.pluralName).IsQuotable :=
    Text.isQuotable_append.2 ⟨by decide, h.plural_quotable⟩
  have hnew : ("/" ++ r.pluralName ++ "/new").IsQuotable :=
    .between (by decide) h.plural_quotable (by decide)
  have hedit : IsEnclosed (Hub.recordAddress r) :=
    isEnclosed_template h.templatePart.between_slashes (by decide)
  change (Hub.registryEntry r).IsComplete
  rw [Hub.registryEntry_eq]
  refine ⟨_, .enclosed hcode (isEnclosed_quotation h.dataSource) (.enclosed (by decide)
    (isEnclosed_quotation hlist) (.enclosed (by decide) (isEnclosed_quotation hnew)
      (.enclosed (by decide) hedit (.code (by decide))))), ?_⟩
  -- the brackets around the values are those of the entry and of its routes
  have hblank : Text.brackets "  " = [] := by decide
  have hopening : Text.brackets ": \x7b\n    config: " = [.scalar '\x7b'] := by decide
  simp only [IsNested, Text.brackets_append, hblank, hopening, List.append_assoc, List.nil_append]
  rw [closersBehind_of_nested h.name.nested, List.singleton_append, closersBehind]
  exact closersBehind_of_nested h.registryValues.nested _ _

/-- A reference line that imports a name. -/
theorem import_line {name source : Text} (hname : name.IsNestedCode) (hsource : source.IsQuotable) :
    ("import \x7b " ++ name ++ " \x7d from '" ++ source ++ "'").IsComplete := by
  have hline : "import \x7b " ++ name ++ " \x7d from '" ++ source ++ "'" =
      Text.ofString "import " ++ ("\x7b " ++ name ++ " \x7d") ++ " from " ++
        ("'" ++ source ++ "'") := by
    simp [Text.ofString]
  have hcode : (Text.ofString "import ").IsNestedCode := by decide
  rw [hline]
  exact isComplete_clause ((hcode.append hname.braced).append (by decide)) hsource

theorem collectionImport_line (h : r.IsCoded s) (isAnchor isFallback : Text → Bool) :
    ((Hub.collectionImport isAnchor isFallback).line r).IsComplete := by
  have hline : (Hub.collectionImport isAnchor isFallback).line r =
      "import \x7b " ++ r.collectionName ++ " \x7d from '" ++ "@/collections" ++ "'" := by
    simp [Hub.collectionImport, Text.ofString]
  rw [hline]
  exact import_line h.collectionName (by decide)

theorem schemaImport_line (h : r.IsCoded s) : (Hub.schemaImport.line r).IsComplete := by
  have hline : Hub.schemaImport.line r =
      "import \x7b " ++ r.varName ++ " \x7d from '" ++
        ("@/schemas/" ++ r.name ++ ".schema") ++ "'" := by
    simp [Hub.schemaImport, Text.ofString]
  rw [hline]
  exact import_line h.varName (.between (by decide) h.name_quotable (by decide))

theorem icon_line (h : r.IsCoded s) : ("  " ++ Hub.iconOf s r ++ ",").IsComplete :=
  ((Text.IsNestedCode.append (by decide) h.icon).append (by decide)).isComplete

/-- What is put into any hub is complete. -/
theorem isComplete (h : r.IsCoded s) :
    ∀ hub ∈ Hub.standard s, ∀ t ∈ hub.writtenFor r, t.IsComplete := by
  have hwritten (hub : Hub) (hentry : (hub.entry r).IsComplete)
      (hlines : ∀ rule ∈ hub.references, (rule.line r).IsComplete) :
      ∀ t ∈ hub.writtenFor r, t.IsComplete := by
    refine List.forall_mem_cons.2 ⟨hentry, fun t ht => ?_⟩
    obtain ⟨rule, hrule, rfl⟩ := List.mem_map.1 ht
    exact hlines rule (List.mem_of_mem_filter hrule)
  simp only [Hub.standard, List.forall_mem_cons]
  refine ⟨hwritten _ h.schemas_entry nofun, hwritten _ h.collections_entry nofun,
    hwritten _ h.registry_entry ?_, hwritten _ h.client_entry ?_,
    hwritten _ h.navigation_entry ?_, nofun⟩
  · exact List.forall_mem_cons.2
      ⟨h.schemaImport_line,
        List.forall_mem_singleton.2 (h.collectionImport_line Hub.isImport fun _ => false)⟩
  · exact List.forall_mem_singleton.2 (h.collectionImport_line Hub.isCollectionImport Hub.isImport)
  · exact List.forall_mem_singleton.2 h.icon_line

end Resource.IsCoded

/-- **What is put into the hubs ends what it begins.**  If the name, the plural, the icon and the
data source of a resource that was read from a schema have nothing harmful in them, then every entry
and every reference line that the hubs get for it has tokens with nested brackets, and is read as
these tokens wherever it stands and whatever stands below it.  No other text of the schema
matters. -/
theorem standard_complete {factory origin source : Text} {r : Resource}
    (hr : (extract factory origin source).1 = .ok r) (s : Settings) (hharmless : r.IsHarmless s) :
    ∀ hub ∈ Hub.standard s, hub.applies r = true → ∀ t ∈ hub.writtenFor r,
      (∃ ts, tokenize t = .ok ts ∧ IsNested (ts.filterMap Token.bracket?)) ∧ t.IsComplete :=
  fun hub hhub _ t ht =>
    have hcomplete := (Resource.IsCoded.of_extract hr hharmless).isComplete hub hhub t ht
    ⟨hcomplete.tokenize, hcomplete⟩

/-- The hubs for orders, which have brackets in their icon and open all sorts of things in their
description. -/
theorem standard_complete_order :
    let source : Text := "defineResource(\x7bname: 'order', icon: 'Cart$[0]', " ++
      "description: \"it's \x60\x7b(\"\x7d, \x7b\x7d)"
    ∃ r, (extract "defineResource" "<source>" source).1 = .ok r ∧ r.icon? = some "Cart$[0]" ∧
      r.description? = some "it's \x60\x7b(" ∧ r.IsHarmless .standard ∧
      ∀ hub ∈ Hub.standard .standard, hub.applies r = true → ∀ t ∈ hub.writtenFor r,
        (∃ ts, tokenize t = .ok ts ∧ IsNested (ts.filterMap Token.bracket?)) ∧ t.IsComplete := by
  intro source
  let behind : List Token :=
    [⟨.punct, "(", 14, 15⟩, ⟨.punct, "\x7b", 15, 16⟩, ⟨.ident, "name", 16, 20⟩,
      ⟨.punct, ":", 20, 21⟩, ⟨.string, "order", 22, 29⟩, ⟨.punct, ",", 29, 30⟩,
      ⟨.ident, "icon", 31, 35⟩, ⟨.punct, ":", 35, 36⟩, ⟨.string, "Cart$[0]", 37, 47⟩,
      ⟨.punct, ",", 47, 48⟩, ⟨.ident, "description", 49, 60⟩, ⟨.punct, ":", 60, 61⟩,
      ⟨.string, "it's \x60\x7b(", 62, 72⟩, ⟨.punct, "\x7d", 72, 73⟩, ⟨.punct, ",", 73, 74⟩,
      ⟨.punct, "\x7b", 75, 76⟩, ⟨.punct, "\x7d", 76, 77⟩, ⟨.punct, ")", 77, 78⟩, ⟨.eof, [], 78, 78⟩]
  let ts : List Token := ⟨.ident, "defineResource", 0, 14⟩ :: behind
  let config : List Member := [.property "name" (.literal ⟨22, 29⟩ (.text "order")),
    .property "icon" (.literal ⟨37, 47⟩ (.text "Cart$[0]")),
    .property "description" (.literal ⟨62, 72⟩ (.text "it's \x60\x7b("))]
  have hts : tokenize source = .ok ts := Except.eq_ok_of_toOption (by decide +kernel)
  have hsite : onlyCall "defineResource" ts = .ok ⟨[], behind⟩ := rfl
  have hcall : readCall source ⟨[], behind⟩ = .ok (config, []) := by
    have hopens : CallSite.fromParenthesis ⟨[], behind⟩ = behind := rfl
    rw [readCall, hopens]
    simp +decide [behind, config, Expr.readArguments, Expr.readItems, Expr.read, Expr.readPrimary,
      Expr.readMembers, Expr.readMember, Parsed.lift, Except.map, Except.mapError, bind,
      Except.bind, Expr.skipAsConst]
  have hname : configName (Node.evaluateObject config) = .ok "order" := rfl
  have hconstants : collectConstants source ts = .ok [] := rfl
  let d : Declaration := ⟨⟨[], behind⟩, "order", Node.evaluateObject config, [], []⟩
  have hr : (extract "defineResource" "<source>" source).1 = .ok (d.resource "<source>") := by
    rw [extract, findDeclaration_eq hts hsite hcall, hname, hconstants]
    rfl
  have hharmless : (d.resource "<source>").IsHarmless .standard := by decide
  exact ⟨_, hr, rfl, rfl, hharmless, standard_complete hr .standard hharmless⟩

/-- The registry entry for a resource whose data source has an apostrophe begins a string that does
not end. -/
theorem registry_incomplete :
    let source : Text := "defineResource(\x7bname: 'order', dataSource: \"it's\"\x7d, \x7b\x7d)"
    ∃ r, (extract "defineResource" "<source>" source).1 = .ok r ∧
      ∃ hub ∈ Hub.standard .standard, hub.applies r = true ∧
        ∃ t ∈ hub.writtenFor r, (tokenize t).toOption = none := by
  intro source
  let behind : List Token :=
    [⟨.punct, "(", 14, 15⟩, ⟨.punct, "\x7b", 15, 16⟩, ⟨.ident, "name", 16, 20⟩,
      ⟨.punct, ":", 20, 21⟩, ⟨.string, "order", 22, 29⟩, ⟨.punct, ",", 29, 30⟩,
      ⟨.ident, "dataSource", 31, 41⟩, ⟨.punct, ":", 41, 42⟩, ⟨.string, "it's", 43, 49⟩,
      ⟨.punct, "\x7d", 49, 50⟩, ⟨.punct, ",", 50, 51⟩, ⟨.punct, "\x7b", 52, 53⟩,
      ⟨.punct, "\x7d", 53, 54⟩, ⟨.punct, ")", 54, 55⟩, ⟨.eof, [], 55, 55⟩]
  let ts : List Token := ⟨.ident, "defineResource", 0, 14⟩ :: behind
  let config : List Member := [.property "name" (.literal ⟨22, 29⟩ (.text "order")),
    .property "dataSource" (.literal ⟨43, 49⟩ (.text "it's"))]
  have hts : tokenize source = .ok ts := Except.eq_ok_of_toOption (by decide +kernel)
  have hsite : onlyCall "defineResource" ts = .ok ⟨[], behind⟩ := rfl
  have hcall : readCall source ⟨[], behind⟩ = .ok (config, []) := by
    have hopens : CallSite.fromParenthesis ⟨[], behind⟩ = behind := rfl
    rw [readCall, hopens]
    simp +decide [behind, config, Expr.readArguments, Expr.readItems, Expr.read, Expr.readPrimary,
      Expr.readMembers, Expr.readMember, Parsed.lift, Except.map, Except.mapError, bind,
      Except.bind, Expr.skipAsConst]
  have hname : configName (Node.evaluateObject config) = .ok "order" := rfl
  have hconstants : collectConstants source ts = .ok [] := rfl
  let d : Declaration := ⟨⟨[], behind⟩, "order", Node.evaluateObject config, [], []⟩
  refine ⟨d.resource "<source>", ?_, Hub.registry .standard, by simp [Hub.standard], rfl, _,
    List.mem_cons_self, by decide +kernel⟩
  rw [extract, findDeclaration_eq hts hsite hcall, hname, hconstants]
  rfl

end Scaffold
