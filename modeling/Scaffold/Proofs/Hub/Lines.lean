import Scaffold.Hub.Standard
import Scaffold.Proofs.Hub.Growth
import Scaffold.Proofs.Text.Capitals

/-!
# The code points that the standard hubs write

What a hub writes is made of fixed words and of parts of a resource, some of them as literals.  A
property of code points that these have (`Hub.Gives`) is one of every reference line and of every
entry (`Hub.GivesNames.line`, `Hub.Gives.entry`), and so of the text that a registration makes
(`Hub.consists_register`).  Only the navigation takes more than names (`Hub.GivesNames.entry`).

Two such properties matter: having no line end, so that reference lines are lines and the lines of
an entry end as the hub's do; and being a scalar value, so that the text can go into a file.
-/

namespace Scaffold

open CodePoint

namespace Text

/-- Every code point of the text has the property. -/
def Consists (P : CodePoint → Prop) (t : Text) : Prop := ∀ c ∈ t, P c

variable {P : CodePoint → Prop} {s t : Text}

theorem consists_append : (s ++ t).Consists P ↔ s.Consists P ∧ t.Consists P :=
  List.forall_mem_append

theorem Consists.join {between : Text} {ls : List Text} (hb : between.Consists P)
    (h : ∀ line ∈ ls, line.Consists P) : (Text.join between ls).Consists P := by
  induction ls with
  | nil => simp [Consists, Text.join]
  | cons line ls ih =>
    cases ls with
    | nil => simpa [Text.join] using h
    | cons next ls =>
      exact consists_append.2 ⟨consists_append.2 ⟨h line (by simp), hb⟩,
        ih fun l hl => h l (by simp [hl])⟩

theorem Consists.unlines {ls : List Text} (hb : P newline) (h : ∀ line ∈ ls, line.Consists P) :
    (Text.unlines ls).Consists P := by
  intro c hc
  obtain ⟨line, hl, hc⟩ := List.mem_flatMap.1 hc
  rcases List.mem_append.1 hc with hc | hc
  · exact h line hl c hc
  · rw [List.mem_singleton.1 hc]
    exact hb

theorem Consists.replaceAll {c : Char} (hs : s.Consists P) (ht : t.Consists P) :
    (s.replaceAll c t).Consists P := by
  intro d hd
  obtain ⟨x, hx, hd⟩ := List.mem_flatMap.1 hd
  split at hd
  · exact ht d hd
  · rw [List.mem_singleton.1 hd]
    exact hs x hx

theorem isPlainLine_iff : t.IsPlainLine ↔ t.Consists fun c => c ≠ newline ∧ c ≠ carriageReturn := by
  constructor
  · rintro ⟨hn, hr⟩ c hc
    exact ⟨fun h => hn (h ▸ hc), fun h => hr (h ▸ hc)⟩
  · intro h
    exact ⟨fun hn => (h _ hn).1 rfl, fun hr => (h _ hr).2 rfl⟩

/-- A literal escapes what ends a line, and changes nothing else. -/
theorem Consists.literal (hq : Consists P "'\\nr")
    (ht : ∀ c ∈ t, c ≠ newline → c ≠ carriageReturn → P c) : t.literal.Consists P := by
  have hpart : ∀ {w : Text}, w ⊆ "'\\nr" → w.Consists P := fun hw c hc => hq c (hw hc)
  have hquote : Consists P "'" := hpart (by decide)
  refine consists_append.2 ⟨consists_append.2 ⟨hquote, ?_⟩, hquote⟩
  intro c hc
  obtain ⟨d, hd, hc⟩ := List.mem_flatMap.1 hc
  rw [literalPart] at hc
  split_ifs at hc with h₁ h₂ h₃ h₄
  · exact hpart (w := "\\\\") (by decide) c hc
  · exact hpart (w := "\\'") (by decide) c hc
  · exact hpart (w := "\\n") (by decide) c hc
  · exact hpart (w := "\\r") (by decide) c hc
  · rw [List.mem_singleton.1 hc]
    exact ht d hd h₃ h₄

end Text

namespace Hub

open Text

variable {P : CodePoint → Prop} {s : Settings} {r : Resource}

/-! ### The lines of entries -/

/-- The lines of the entry of a resource in the registry. -/
def registryLines (r : Resource) : List Text :=
  List.flatten [
    ["  " ++ r.name ++ ": \x7b",
      "    config: " ++ r.varName ++ ".config,"],
    if r.isParquet then [] else ["    collection: " ++ r.collectionName ++ ","],
    ["    dataSource: '" ++ r.dataSource ++ "',",
      "    routes: \x7b",
      "      list: '/" ++ r.pluralName ++ "',",
      "      new: '/" ++ r.pluralName ++ "/new',",
      "      edit: (id: string) => \x60/" ++ r.pluralName ++ "/$\x7bid\x7d\x60,",
      "    \x7d,",
      "  \x7d,"]]

/-- The lines of the entry of a resource in the navigation. -/
def navigationLines (s : Settings) (r : Resource) : List Text :=
  ["    \x7b",
    "      title: " ++ r.displayName.literal ++ ",",
    "      " ++ link r ++ ",",
    "      icon: " ++ iconOf s r ++ ",",
    "      description: " ++ r.describe.literal ++ ",",
    "    \x7d,"]

/-! ### What is given to the hubs -/

/-- A fixed word of ASCII consists of what holds of ASCII. -/
theorem consists_ofString (ascii : ∀ x : Char, x.toNat < 128 → x ≠ '\n' → x ≠ '\r' → P x)
    {w : String} (hw : w.toList.all (fun x => x.toNat < 128 && x != '\n' && x != '\r') = true) :
    Consists P w := by
  intro c hc
  obtain ⟨x, hx, rfl⟩ := List.mem_map.1 hc
  have := List.all_eq_true.1 hw x hx
  simp only [Bool.and_eq_true, decide_eq_true_eq, bne_iff_ne] at this
  exact ascii x this.1.1 this.1.2 this.2

/-- The names that the standard hubs are given to write have the property. -/
structure GivesNames (P : CodePoint → Prop) (s : Settings) (r : Resource) : Prop where
  /-- So has ASCII, line ends apart. -/
  ascii : ∀ x : Char, x.toNat < 128 → x ≠ '\n' → x ≠ '\r' → P x
  /-- The name has it. -/
  name : r.name.Consists P
  /-- The plural name has it. -/
  pluralName : r.pluralName.Consists P
  /-- The variable has it. -/
  varName : r.varName.Consists P
  /-- The name of the type has it. -/
  typeName : r.typeName.Consists P
  /-- The data source has it. -/
  dataSource : r.dataSource.Consists P
  /-- The icon has it. -/
  icon : (iconOf s r).Consists P

/-- What the standard hubs are given to write has the property. -/
structure Gives (P : CodePoint → Prop) (s : Settings) (r : Resource) : Prop
    extends GivesNames P s r where
  /-- The title has it, as a literal. -/
  displayName : r.displayName.literal.Consists P
  /-- The description has it, as a literal. -/
  describe : r.describe.literal.Consists P

theorem consists_newline (hn : P newline) : Consists P "\n" := fun c hc => by
  rw [List.mem_singleton.1 hc]
  exact hn

namespace GivesNames

theorem fixed (h : GivesNames P s r) {w : String}
    (hw : w.toList.all (fun x => x.toNat < 128 && x != '\n' && x != '\r') = true) :
    Consists P w :=
  consists_ofString h.ascii hw

/-- So does a part between fixed words. -/
theorem around (h : GivesNames P s r) {v w : String} {t : Text} (ht : t.Consists P)
    (hv : v.toList.all (fun x => x.toNat < 128 && x != '\n' && x != '\r') = true)
    (hw : w.toList.all (fun x => x.toNat < 128 && x != '\n' && x != '\r') = true) :
    (ofString v ++ t ++ ofString w).Consists P :=
  consists_append.2 ⟨consists_append.2 ⟨h.fixed hv, ht⟩, h.fixed hw⟩

theorem collectionName (h : GivesNames P s r) : r.collectionName.Consists P :=
  consists_append.2 ⟨h.pluralName, h.fixed (by decide)⟩

/-- Every reference line consists of what the hub is given. -/
theorem line (hg : GivesNames P s r) :
    ∀ h ∈ standard s, ∀ rule ∈ h.references, (rule.line r).Consists P := by
  have himport : ∀ p q, ((collectionImport p q).line r).Consists P := fun p q =>
    hg.around hg.collectionName (by decide) (by decide)
  intro h hh
  simp only [standard, List.mem_cons, List.not_mem_nil, or_false] at hh
  rcases hh with rfl | rfl | rfl | rfl | rfl
  · simp [schemas]
  · simp [collections]
  · intro rule hrule
    simp only [registry, List.mem_cons, List.not_mem_nil, or_false] at hrule
    rcases hrule with rfl | rfl
    · simp only [schemaImport, consists_append]
      exact ⟨⟨⟨⟨hg.fixed (by decide), hg.varName⟩, hg.fixed (by decide)⟩, hg.name⟩,
        hg.fixed (by decide)⟩
    · exact himport isImport fun _ => false
  · intro rule hrule
    simp only [client, List.mem_cons, List.not_mem_nil, or_false] at hrule
    exact hrule ▸ himport isCollectionImport isImport
  · intro rule hrule
    simp only [navigation, List.mem_cons, List.not_mem_nil, or_false] at hrule
    exact hrule ▸ hg.around hg.icon (by decide) (by decide)

theorem registryLines (hg : GivesNames P s r) : ∀ line ∈ registryLines r, line.Consists P := by
  intro line hline
  simp only [Hub.registryLines, List.flatten_cons, List.flatten_nil, List.mem_append, List.mem_cons,
    List.not_mem_nil, or_false] at hline
  have hcollection : ∀ line ∈ (if r.isParquet then []
      else [("    collection: " : Text) ++ r.collectionName ++ ","]), line.Consists P := by
    intro line hline
    split_ifs at hline
    · cases hline
    · rw [List.mem_singleton.1 hline]
      exact hg.around hg.collectionName (by decide) (by decide)
  rcases hline with (rfl | rfl) | hline | rfl | rfl | rfl | rfl | rfl | rfl | rfl
  · exact hg.around hg.name (by decide) (by decide)
  · exact hg.around hg.varName (by decide) (by decide)
  · exact hcollection line hline
  · exact hg.around hg.dataSource (by decide) (by decide)
  · exact hg.fixed (by decide)
  · exact hg.around hg.pluralName (by decide) (by decide)
  · exact hg.around hg.pluralName (by decide) (by decide)
  · exact hg.around hg.pluralName (by decide) (by decide)
  · exact hg.fixed (by decide)
  · exact hg.fixed (by decide)

theorem schemas_entry (hg : GivesNames P s r) : ((schemas s).entry r).Consists P := by
  simp only [schemas, consists_append]
  exact ⟨⟨⟨⟨hg.fixed (by decide), hg.varName⟩, hg.fixed (by decide)⟩, hg.name⟩,
    hg.fixed (by decide)⟩

theorem collections_entry (hg : GivesNames P s r) : ((collections s).entry r).Consists P := by
  simp only [collections, consists_append]
  refine ⟨⟨⟨⟨hg.fixed (by decide), ?_⟩, hg.fixed (by decide)⟩, hg.pluralName⟩,
    hg.fixed (by decide)⟩
  split
  · exact hg.fixed (by decide)
  · simp only [consists_append]
    exact ⟨⟨⟨⟨hg.fixed (by decide), hg.collectionName⟩, hg.fixed (by decide)⟩, hg.typeName⟩,
      hg.fixed (by decide)⟩

theorem client_entry (hg : GivesNames P s r) : ((client s).entry r).Consists P := by
  simp only [client, consists_append]
  exact ⟨⟨⟨⟨hg.fixed (by decide), hg.pluralName⟩, hg.fixed (by decide)⟩, hg.collectionName⟩,
    hg.fixed (by decide)⟩

/-- Entries of all hubs but the navigation consist of names, and of line feeds. -/
theorem entry (hg : GivesNames P s r) (hn : P newline) :
    ∀ h ∈ [schemas s, collections s, registry s, client s], (h.entry r).Consists P := by
  intro h hh
  simp only [List.mem_cons, List.not_mem_nil, or_false] at hh
  rcases hh with rfl | rfl | rfl | rfl
  · exact hg.schemas_entry
  · exact hg.collections_entry
  · exact Consists.join (consists_newline hn) hg.registryLines
  · exact hg.client_entry

end GivesNames

namespace Gives

theorem navigationLines (hg : Gives P s r) : ∀ line ∈ navigationLines s r, line.Consists P := by
  intro line hline
  simp only [Hub.navigationLines, List.mem_cons, List.not_mem_nil, or_false] at hline
  rcases hline with rfl | rfl | rfl | rfl | rfl | rfl
  · exact hg.fixed (by decide)
  · exact hg.around hg.displayName (by decide) (by decide)
  · have hlink : (link r).Consists P := hg.around hg.pluralName (by decide) (by decide)
    exact hg.around hlink (by decide) (by decide)
  · exact hg.around hg.icon (by decide) (by decide)
  · exact hg.around hg.describe (by decide) (by decide)
  · exact hg.fixed (by decide)

/-- Every entry consists of what the hub is given, and of line feeds. -/
theorem entry (hg : Gives P s r) (hn : P newline) :
    ∀ h ∈ standard s, (h.entry r).Consists P := by
  intro h hh
  rcases List.mem_append.1 (show h ∈ [schemas s, collections s, registry s, client s] ++
    [navigation s] from hh) with hh | hh
  · exact hg.toGivesNames.entry hn h hh
  · rw [List.mem_singleton.1 hh]
    exact Consists.join (consists_newline hn) hg.navigationLines

end Gives

theorem Consists.capitalize (late : ∀ c : CodePoint, c.IsLate → P c) {t : Text}
    (ht : t.Consists P) : t.capitalize.Consists P := fun c hc =>
  (mem_capitalize hc).elim (ht c) (late c)

theorem givesNames (ascii : ∀ x : Char, x.toNat < 128 → x ≠ '\n' → x ≠ '\r' → P x)
    (late : ∀ c : CodePoint, c.IsLate → P c) (name : r.name.Consists P)
    (pluralName : r.pluralName.Consists P) (varName : r.varName.Consists P)
    (dataSource : r.dataSource.Consists P) (icon : (iconOf s r).Consists P) : GivesNames P s r :=
  { ascii, name, pluralName, varName, dataSource, icon, typeName := Consists.capitalize late name }

/-- What holds of a resource and of the capital letters holds of what is made of them. -/
theorem gives (ascii : ∀ x : Char, x.toNat < 128 → x ≠ '\n' → x ≠ '\r' → P x)
    (late : ∀ c : CodePoint, c.IsLate → P c) (name : r.name.Consists P)
    (pluralName : r.pluralName.Consists P) (varName : r.varName.Consists P)
    (dataSource : r.dataSource.Consists P) (icon : (iconOf s r).Consists P)
    (describe : ∀ c ∈ r.describe, c ≠ newline → c ≠ carriageReturn → P c) : Gives P s r := by
  have hquote : Consists P "'\\nr" := consists_ofString ascii (by decide)
  exact {
    givesNames ascii late name pluralName varName dataSource icon with
    displayName := Consists.literal hquote fun c hc _ _ => Consists.capitalize late pluralName c hc
    describe := Consists.literal hquote describe }

/-! ### No line ends -/

end Hub

/-- What hubs take from a resource has no line end. -/
structure Resource.IsPlain (r : Resource) : Prop where
  /-- The name has none. -/
  name : r.name.IsPlainLine
  /-- The plural name has none. -/
  pluralName : r.pluralName.IsPlainLine
  /-- The variable has none. -/
  varName : r.varName.IsPlainLine
  /-- The data source has none. -/
  dataSource : r.dataSource.IsPlainLine
  /-- The icon has none, if there is one. -/
  icon : ∀ icon ∈ r.icon?, icon.IsPlainLine

/-- What hubs take from a resource is made of scalar values. -/
structure Resource.IsScalar (r : Resource) : Prop where
  /-- The name is. -/
  name : r.name.IsScalar
  /-- The plural name is. -/
  pluralName : r.pluralName.IsScalar
  /-- The variable is. -/
  varName : r.varName.IsScalar
  /-- The data source is. -/
  dataSource : r.dataSource.IsScalar
  /-- The icon is, if there is one. -/
  icon : ∀ icon ∈ r.icon?, icon.IsScalar
  /-- The description is, if there is one. -/
  description : ∀ t ∈ r.description?, t.IsScalar

namespace Hub

open Text

variable {P : CodePoint → Prop} {s : Settings} {r : Resource}

theorem consists_iconOf (hs : s.defaultIcon.Consists P) (hr : ∀ icon ∈ r.icon?, icon.Consists P) :
    (iconOf s r).Consists P := by
  rw [iconOf]
  cases h : r.icon? with
  | none => exact hs
  | some icon => exact hr icon h

theorem gives_noLineEnd (hs : s.defaultIcon.IsPlainLine) (hr : r.IsPlain) :
    Gives (fun c => c ≠ newline ∧ c ≠ carriageReturn) s r := by
  refine gives (fun x _ hn hr => ⟨by simpa using hn, by simpa using hr⟩) ?_
    (isPlainLine_iff.1 hr.name) (isPlainLine_iff.1 hr.pluralName) (isPlainLine_iff.1 hr.varName)
    (isPlainLine_iff.1 hr.dataSource)
    (consists_iconOf (isPlainLine_iff.1 hs) fun icon hi => isPlainLine_iff.1 (hr.icon icon hi))
    fun c _ hn hr => ⟨hn, hr⟩
  rintro c ⟨-, hc⟩
  constructor <;> rintro rfl <;> exact absurd hc (by decide)

theorem isPlainLine_reference (hs : s.defaultIcon.IsPlainLine) (hr : r.IsPlain) :
    ∀ h ∈ standard s, ∀ rule ∈ h.references, (rule.line r).IsPlainLine := fun h hh rule hrule =>
  isPlainLine_iff.2 ((gives_noLineEnd hs hr).line h hh rule hrule)

theorem carriageReturn_not_mem_entry (hs : s.defaultIcon.IsPlainLine) (hr : r.IsPlain) :
    ∀ h ∈ standard s, carriageReturn ∉ h.entry r := by
  have hg := gives_noLineEnd hs hr
  have hg : Gives (· ≠ carriageReturn) s r := {
    ascii := fun x hx hn hr => (hg.ascii x hx hn hr).2
    name := fun c hc => (hg.name c hc).2
    pluralName := fun c hc => (hg.pluralName c hc).2
    varName := fun c hc => (hg.varName c hc).2
    typeName := fun c hc => (hg.typeName c hc).2
    dataSource := fun c hc => (hg.dataSource c hc).2
    icon := fun c hc => (hg.icon c hc).2
    displayName := fun c hc => (hg.displayName c hc).2
    describe := fun c hc => (hg.describe c hc).2 }
  exact fun h hh hc => hg.entry (by decide) h hh _ hc rfl

/-! ### Scalar values -/

theorem gives_scalar (hs : s.defaultIcon.IsScalar) (hr : r.IsScalar) :
    Gives CodePoint.IsScalar s r := by
  refine gives (fun _ _ _ _ => trivial) (fun c hc => hc.1) hr.name hr.pluralName hr.varName
    hr.dataSource (consists_iconOf hs hr.icon) fun c hc _ _ => ?_
  rw [Resource.describe] at hc
  cases hd : r.description? with
  | none =>
    rw [hd] at hc
    rcases List.mem_append.1 hc with hc | hc
    · exact ofString_isScalar _ c hc
    · exact hr.pluralName c hc
  | some t =>
    rw [hd] at hc
    exact hr.description t hd c hc

theorem isScalar_skeleton (hs : s.baseSchema.IsScalar) : ∀ h ∈ standard s, h.skeleton.IsScalar := by
  have hfixed : ∀ w : String, Consists CodePoint.IsScalar w := ofString_isScalar
  intro h hh
  simp only [standard, List.mem_cons, List.not_mem_nil, or_false] at hh
  rcases hh with rfl | rfl | rfl | rfl | rfl
  · refine Consists.unlines trivial ?_
    have hbase : (s.baseSchema.dropEnd ".ts").Consists CodePoint.IsScalar := by
      rw [dropEnd]
      split
      · exact fun c hc => hs c (List.mem_of_mem_take hc)
      · exact hs
    simp only [List.forall_mem_cons]
    refine ⟨hfixed _, ?_, ?_, hfixed _, by simp⟩
    · exact consists_append.2 ⟨consists_append.2 ⟨hfixed _, hbase⟩, hfixed _⟩
    · exact hfixed ""
  all_goals
    apply Consists.unlines (P := CodePoint.IsScalar) trivial
    simp only [List.forall_mem_cons, consists_append, heading, collectionsMarker, registryMarker,
      clientMarker, navigationMarker, hfixed, true_and, and_true]
    exact fun _ h => absurd h List.not_mem_nil

/-! ### The text of a hub -/

variable {h : Hub} {e : LineEnd} {t : Text}

theorem consists_insertAt {x : Text} (he : e.text.Consists P) (ht : t.Consists P)
    (hx : x.Consists P) (n : Nat) : Consists P (insertAt e t.lines n x).flatten := by
  obtain ⟨before, after, rfl, -, ⟨-, hi⟩ | ⟨-, rfl, hi⟩⟩ := flatten_insertAt e t n x
  · rw [consists_append] at ht
    rw [hi]
    simp only [consists_append]
    exact ⟨⟨ht.1, hx, he⟩, ht.2⟩
  · rw [consists_append] at ht
    rw [hi]
    simp only [consists_append]
    exact ⟨ht.1, he, hx, he⟩

theorem consists_referAll (he : e.text.Consists P) (ht : t.Consists P) {rules : List ReferenceLine}
    (hl : ∀ rule ∈ rules, (rule.line r).Consists P) :
    (h.referAll r e t rules).1.Consists P := by
  induction rules generalizing t with
  | nil => exact ht
  | cons rule rules ih =>
    have hrule : (h.refer r e t rule).1.Consists P := by
      rw [refer]
      split
      · exact ht
      · dsimp only
        split
        · exact consists_insertAt he ht (hl rule (by simp)) _
        · exact ht
    exact ih hrule fun x hx => hl x (by simp [hx])

theorem consists_lineEnd (e : LineEnd) : e.text.Consists CodePoint.IsScalar := by
  cases e <;> exact ofString_isScalar _

/-- The text of a registration consists of the hub, of what is put into it and of line ends. -/
theorem consists_register (he : ∀ e : LineEnd, e.text.Consists P) (ht : t.Consists P)
    (hl : ∀ rule ∈ h.references, (rule.line r).Consists P) (hr : (h.entry r).Consists P) :
    (h.register r t).1.Consists P := by
  have hrefer := consists_referAll (h := h) (he (LineEnd.of t)) ht hl
  change (h.insertEntry _ (h.referAll r _ t h.references).1 (h.entry r)).Consists P
  rw [insertEntry]
  split
  · exact consists_insertAt (he _) hrefer (hr.replaceAll (he _)) _
  · exact hrefer

theorem isScalar_register (hs : s.defaultIcon.IsScalar) (hr : r.IsScalar) (ht : t.IsScalar) :
    ∀ h ∈ standard s, (h.register r t).1.IsScalar := fun h hh =>
  consists_register consists_lineEnd ht ((gives_scalar hs hr).line h hh)
    ((gives_scalar hs hr).entry trivial h hh)

/-- Where the names are made of scalar values, so is what is put into any hub but the navigation. -/
theorem isScalar_register_of_names (hg : GivesNames CodePoint.IsScalar s r) (ht : t.IsScalar) :
    ∀ h ∈ [schemas s, collections s, registry s, client s], (h.register r t).1.IsScalar := by
  intro h hh
  have hstandard : h ∈ standard s := List.mem_append_left [navigation s] hh
  exact consists_register consists_lineEnd ht (hg.line h hstandard) (hg.entry trivial h hh)

end Hub

end Scaffold
