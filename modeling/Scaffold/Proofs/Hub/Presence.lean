import Scaffold.Proofs.Hub.Importing

/-!
# Imports that are there

An import rule of the registry or of the database client finds the line that it writes itself, on
whatever line of the text it stands, if the imported name begins and ends as a word does
(`Text.IsWhole`).  The rule does nothing then: a registration makes of the text what it would
without the rule (`Hub.update_of_imported`).

The rule looks for a whole word.  A name with a dollar sign at one of its ends is none, and is
imported again (`Hub.registry_imports_twice`).
-/

namespace Scaffold

open CodePoint

namespace Text

/-- Some line of the text begins with `line`, which is no more than one line. -/
def HasLine (t line : Text) : Prop :=
  line.IsInline ∧ ∃ above rest : Text, above.IsClosed ∧ t = above ++ (line ++ rest)

variable {t line : Text}

/-- A line is not torn by another one that is put into the text. -/
theorem HasLine.insertAt (h : t.HasLine line) (e : LineEnd) (n : Nat) (x : Text) :
    HasLine (Hub.insertAt e t.lines n x).flatten line := by
  obtain ⟨hinline, above, rest, habove, rfl⟩ := h
  have hclosed {s : Text} : (s ++ (x ++ e.text)).IsClosed :=
    isClosed_append (isClosed_append e.isClosed_text fun h => absurd h e.text_ne_nil)
      fun h => absurd (List.append_eq_nil_iff.1 h).2 e.text_ne_nil
  obtain ⟨before, after, ht, -, ⟨hbefore, hx⟩ | ⟨-, rfl, hx⟩⟩ :=
    Hub.flatten_insertAt e (above ++ (line ++ rest)) n x
  · rw [hx]
    rcases List.append_eq_append_iff.1 ht with ⟨r, rfl, hr⟩ | ⟨r, rfl, rfl⟩
    · by_cases hne : r = []
      · -- the new line is put right in front of the line
        subst hne
        rw [List.nil_append] at hr
        rw [List.append_nil, ← hr]
        exact ⟨hinline, _, rest, hclosed, rfl⟩
      · -- the new line is put below it
        have hrclosed := hbefore.of_append hne
        rcases List.append_eq_append_iff.1 hr with ⟨s, rfl, rfl⟩ | ⟨s, rfl, -⟩
        · exact ⟨hinline, above, s ++ (x ++ e.text) ++ after, habove, by simp⟩
        · obtain ⟨v, rfl⟩ := hrclosed.eq_concat hne
          exact absurd (by simp) hinline
    · -- the new line is put above it
      refine ⟨hinline, before ++ (x ++ e.text) ++ r, rest, ?_, by simp⟩
      by_cases hne : r = []
      · rw [hne, List.append_nil]
        exact hclosed
      · exact isClosed_append (habove.of_append hne) fun h => absurd h hne
  · rw [List.append_nil] at ht
    exact ⟨hinline, above, rest ++ (e.text ++ (x ++ e.text)), habove, by rw [hx, ← ht]; simp⟩

end Text

/-! ### Finding the line -/

/-- The rule writes an import of the name on one line, and looks for the name among the imports. -/
structure ReferenceLine.ImportsName (rule : ReferenceLine) (r : Resource) (name : Text) : Prop where
  /-- What the rule writes. -/
  line : ∃ source, rule.line r = Hub.importOf (name, source)
  /-- What it looks for. -/
  isThere : rule.isThere r = Probe.imports name none

variable {rule : ReferenceLine} {before after : List ReferenceLine} {h : Hub} {s : Settings}
  {r : Resource} {name t : Text}

/-- A name that is a whole word is found where the rule has written it. -/
theorem ReferenceLine.ImportsName.isThere_of_hasLine (hrule : rule.ImportsName r name)
    (hname : name.IsWhole) (ht : t.HasLine (rule.line r)) : rule.isThere r t = true := by
  obtain ⟨source, hline⟩ := hrule.line
  rw [hline] at ht
  obtain ⟨-, above, rest, habove, rfl⟩ := ht
  have hparts : Hub.importOf (name, source) ++ rest =
      "import \x7b" ++ (" " ++ (name ++ (" \x7d from '" ++ (source ++ ("'" ++ rest))))) := by
    simp [Hub.importOf, Text.ofString]
  rw [hrule.isThere, hparts]
  exact Probe.imports_of_brace (s := " ") habove rfl (by decide) hname rfl rfl rfl

namespace Hub

/-- The rules of the registry and of the database client import the variable and the collection of
a resource. -/
theorem importsName_of_mem (hh : h ∈ [registry s, client s]) (hrule : rule ∈ h.references)
    (r : Resource) : ∃ name ∈ [r.varName, r.collectionName], rule.ImportsName r name := by
  have hcollection (isAnchor isFallback : Text → Bool) :
      (collectionImport isAnchor isFallback).ImportsName r r.collectionName :=
    ⟨⟨_, line_collectionImport isAnchor isFallback r⟩, rfl⟩
  have hregistry : (registry s).references =
      [schemaImport, { collectionImport isImport (fun _ => false) with
        applies := fun r => !r.isParquet }] := rfl
  have hclient : (client s).references = [collectionImport isCollectionImport isImport] := rfl
  rcases List.mem_pair.1 hh with rfl | rfl
  · rw [hregistry] at hrule
    rcases List.mem_pair.1 hrule with rfl | rfl
    · exact ⟨r.varName, by simp, ⟨_, line_schemaImport r⟩, rfl⟩
    · obtain ⟨hline, hthere⟩ := hcollection isImport fun _ => false
      exact ⟨r.collectionName, by simp, hline, hthere⟩
  · rw [hclient, List.mem_singleton] at hrule
    subst hrule
    exact ⟨r.collectionName, by simp, hcollection _ _⟩

/-! ### Doing nothing -/

/-- A rule that finds a line does nothing where the text has the line, after other rules as well. -/
theorem referAll_of_hasLine {e : LineEnd} {line : Text}
    (hthere : ∀ t : Text, t.HasLine line → rule.isThere r t = true) (ht : t.HasLine line) :
    h.referAll r e t (before ++ rule :: after) = h.referAll r e t (before ++ after) := by
  induction before generalizing t with
  | nil =>
    have hrefer : h.refer r e t rule = (t, []) := by
      rw [refer, hthere t ht, Bool.or_true, if_pos rfl]
    simp only [List.nil_append, referAll, hrefer]
  | cons first before ih =>
    have hfirst : (h.refer r e t first).1.HasLine line := by
      rw [refer]
      split
      · exact ht
      · dsimp only
        split
        · exact ht.insertAt e _ _
        · exact ht
    simp only [List.cons_append, referAll, ih hfirst]

/-- What the rules do does not depend on the other rules of the hub. -/
theorem referAll_with (h : Hub) (others : List ReferenceLine) (r : Resource) (e : LineEnd)
    (t : Text)
    (rules : List ReferenceLine) :
    { h with references := others }.referAll r e t rules = h.referAll r e t rules := by
  induction rules generalizing t with
  | nil => rfl
  | cons rule rules ih =>
    have hrefer : { h with references := others }.refer r e t rule = h.refer r e t rule := rfl
    simp only [referAll, hrefer, ih]

/-- **An import that is there is not added again.**  A rule of the registry or of the database
client imports the variable or the collection of a resource.  If this name begins and ends as a word
does, and some line of the text begins with the line that the rule writes, the rule finds it; and
what becomes of the hub when the resource is registered is what would become of it without the
rule. -/
theorem update_of_imported (hh : h ∈ [registry s, client s])
    (hreferences : h.references = before ++ rule :: after) (r : Resource) :
    ∃ name ∈ [r.varName, r.collectionName], rule.ImportsName r name ∧
      ∀ t : Text, name.IsWhole → t.HasLine (rule.line r) → rule.isThere r t = true ∧
        h.update r (some t) = { h with references := before ++ after }.update r (some t) := by
  obtain ⟨name, hmem, hrule⟩ := importsName_of_mem hh
    (hreferences ▸ List.mem_append_right before List.mem_cons_self : rule ∈ h.references) r
  refine ⟨name, hmem, hrule, fun t hname ht => ⟨hrule.isThere_of_hasLine hname ht, ?_⟩⟩
  have hthere (u : Text) (hu : u.HasLine (rule.line r)) : rule.isThere r u = true :=
    hrule.isThere_of_hasLine hname hu
  have hregister : h.register r t = { h with references := before ++ after }.register r t := by
    rw [register, hreferences, referAll_of_hasLine hthere ht, ← referAll_with h (before ++ after)]
    rfl
  simp only [update, Option.getD_some, hregister]
  rfl

/-- The database client imports a collection already. -/
theorem update_of_imported_client :
    let r : Resource := { name := "order", pluralName := "orders", varName := "order" }
    let h := client .standard
    let rule := collectionImport isCollectionImport isImport
    let t : Text :=
      "import \x7b ordersCollection \x7d from '@/collections'\n// === COLLECTIONS ===\n"
    h ∈ [registry .standard, h] ∧ h.references = [] ++ rule :: [] ∧
      r.collectionName.IsWhole ∧ t.HasLine (rule.line r) ∧ rule.isThere r t = true ∧
      h.update r (some t) = { h with references := [] ++ [] }.update r (some t) := by
  intro r h rule t
  have hreferences : h.references = [] ++ rule :: [] := rfl
  have hmem : h ∈ [registry .standard, h] := by simp
  have hline : t.HasLine (rule.line r) :=
    ⟨by decide +kernel, [], "\n// === COLLECTIONS ===\n", Text.isClosed_nil, by decide +kernel⟩
  obtain ⟨name, hname, -, hall⟩ := update_of_imported hmem hreferences r
  have hwhole : name.IsWhole := by
    rcases List.mem_pair.1 hname with rfl | rfl <;> decide +kernel
  exact ⟨hmem, hreferences, by decide +kernel, hline, hall t hwhole hline⟩

/-- A variable that begins with a dollar sign is imported a second time. -/
theorem registry_imports_twice :
    let r : Resource := { name := "order", pluralName := "orders", varName := "$order" }
    let line := schemaImport.line r ++ "\n"
    let t : Text := line ++ "// === REGISTRY ENTRIES ===\n"
    t.HasLine (schemaImport.line r) ∧ t.lines.count line = 1 ∧
      ∃ u, ((registry .standard).update r (some t)).1 = .write u ∧ u.lines.count line = 2 := by
  intro r line t
  have hline : t.HasLine (schemaImport.line r) :=
    ⟨by decide +kernel, [], "\n// === REGISTRY ENTRIES ===\n", Text.isClosed_nil,
      by decide +kernel⟩
  exact ⟨hline, by decide +kernel, ((registry .standard).register r t).1, by decide +kernel,
    by decide +kernel⟩

end Hub

end Scaffold
