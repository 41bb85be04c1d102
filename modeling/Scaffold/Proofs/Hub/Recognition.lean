import Scaffold.Proofs.Hub.Lines

/-!
# A hub recognises what was put into it

Each hub looks for a resource in a form of its own: a re-export, a key with an object, a key with a
name, a link.  The entry of a resource has the form that its hub looks for, wherever it stands
(`Probe.reexports_of_line` and its kin), and a registration puts the entry where a line begins,
below the marker.  So a resource is registered in every hub that was written for it
(`Hub.isRegistered_register`), whatever else the hub says.
-/

namespace Scaffold

open CodePoint

namespace Text

theorem anyUpTo_append {stop : CodePoint → Bool} {p : Option CodePoint → Text → Bool}
    {before : Option CodePoint} {s t : Text} (hs : ∀ c ∈ s, stop c = false)
    (h : p (s.getLast?.or before) t = true) : anyUpTo stop p before (s ++ t) = true := by
  induction s generalizing before with
  | nil =>
    rw [List.nil_append]
    cases t with
    | nil => simpa [anyUpTo] using h
    | cons c t =>
      rw [anyUpTo, Bool.or_eq_true]
      exact .inl (by simpa using h)
  | cons c s ih =>
    rw [List.cons_append, anyUpTo, hs c (by simp), Bool.or_eq_true]
    refine .inr ?_
    rw [Bool.not_false, Bool.true_and]
    refine ih (fun d hd => hs d (by simp [hd])) ?_
    rw [List.getLast?_cons] at h
    cases hl : s.getLast? with
    | none => simpa [hl] using h
    | some d => simpa [hl] using h

theorem dropWord?_append {w t : Text} {before : Option CodePoint}
    (h₁ : wordBoundary before (w ++ t).head? = true)
    (h₂ : wordBoundary (w.getLast?.or before) t.head? = true) :
    dropWord? w before (w ++ t) = some t := by
  rw [dropWord?, h₁, dropStart?_append]
  simp only [Bool.not_true, Bool.false_eq_true, if_false, h₂, if_true]

theorem replaceAll_append (s t u : Text) (c : Char) :
    (s ++ t).replaceAll c u = s.replaceAll c u ++ t.replaceAll c u := by
  simp [replaceAll]

/-- Line ends do not come into an inline text, wherever the text is part of another. -/
theorem replaceAll_inline_append {s : Text} (hs : s.IsInline) (t u : Text) :
    (s ++ t).replaceAll '\n' u = s ++ t.replaceAll '\n' u := by
  rw [replaceAll_append, replaceAll_of_not_mem hs]

end Text

namespace Probe

open Text

theorem fromModule_append (module rest : Text) :
    fromModule module (some (.scalar ' ')) ("from './" ++ (module ++ ("'" ++ rest))) = true := by
  have hrest : fromModule module (some (.scalar ' ')) ("from './" ++ (module ++ ("'" ++ rest)))
      = quotesModule module ("'./" ++ (module ++ ("'" ++ rest))) := rfl
  have hdrop : dropStart? ("./" ++ module) ("./" ++ (module ++ ("'" ++ rest)))
      = some ("'" ++ rest) := by
    rw [← List.append_assoc, dropStart?_append]
  rw [hrest]
  change quotesModule module (.scalar '\'' :: ("./" ++ (module ++ ("'" ++ rest)))) = true
  rw [quotesModule, hdrop]
  rfl

/-- A line that exports from a module re-exports from it. -/
theorem reexports_of_line {names above : Text} (module rest : Text) (ha : above.IsClosed)
    (hn : names.IsInline) :
    reexports module (above ++ ("export " ++ (names ++ (" from './" ++ (module ++ ("'" ++ rest))))))
      = true := by
  refine anyLine_eq_true.2 ⟨above, _, ha, rfl, ?_⟩
  have hword : dropWord? "export" none
      (dropIndent ("export " ++ (names ++ (" from './" ++ (module ++ ("'" ++ rest))))))
      = some (" " ++ names ++ " " ++ ("from './" ++ (module ++ ("'" ++ rest)))) := by
    rw [List.append_assoc, List.append_assoc]
    refine dropWord?_append ?_ ?_ <;> rfl
  rw [hword]
  refine anyUpTo_append (fun c hc => ?_) ?_
  · have hc : c ≠ newline := by
      rintro rfl
      rcases List.mem_append.1 hc with hc | hc
      · rcases List.mem_append.1 hc with hc | hc
        · exact absurd hc (by decide)
        · exact hn hc
      · exact absurd hc (by decide)
    simpa [CodePoint.isLineFeed] using hc
  · rw [List.getLast?_append]
    exact fromModule_append module rest

/-- A line with a key and an object keys the object. -/
theorem keysObject_of_line {key above : Text} (rest : Text) (ha : above.IsClosed) :
    keysObject key (above ++ ("  " ++ (key ++ (": \x7b" ++ rest)))) = true := by
  refine anyLine_eq_true.2 ⟨above, _, ha, rfl, ?_⟩
  rw [← List.append_assoc, dropStart?_append]
  rfl

theorem namesWord_append {name : Text} (c : CodePoint) (rest : Text)
    (h : wordBoundary name.getLast? (some c) = true) (hn : name ≠ []) :
    namesWord name (" " ++ (name ++ c :: rest)) = true := by
  rw [namesWord]
  refine anyUpTo_append (s := " ") (by decide) ?_
  simp only [dropStart?_append]
  obtain ⟨s, d, rfl⟩ := (List.eq_nil_or_concat' name).resolve_left hn
  simpa using h

/-- A line with a key and a name keys the name. -/
theorem keysName_of_line {name above : Text} (key rest : Text) (ha : above.IsClosed)
    (hn : wordBoundary name.getLast? (some (.scalar ',')) = true) (hne : name ≠ []) :
    keysName key name (above ++ ("    " ++ (key ++ (": " ++ (name ++ ("," ++ rest)))))) = true := by
  refine anyLine_eq_true.2 ⟨above, _, ha, rfl, anyUpTo_append (s := "    ") (by decide) ?_⟩
  rw [dropStart?_append]
  exact namesWord_append _ rest hn hne

end Probe

/-- The names that hubs look for have no line feed. -/
structure Resource.HasInlineNames (r : Resource) : Prop where
  /-- The name has none. -/
  name : r.name.IsInline
  /-- The plural name has none. -/
  pluralName : r.pluralName.IsInline
  /-- The variable has none. -/
  varName : r.varName.IsInline

namespace Hub

open Text

variable {s : Settings} {r : Resource} {e : LineEnd} {t : Text}

/-- What follows the first occurrence of a marker contains all that follows a text with one. -/
theorem belowMarker_append {w u : Text} (h : u.includes w = true) (rest : Text) :
    ∃ v, belowMarker w (u ++ rest) = w ++ (v ++ rest) := by
  obtain ⟨⟨before, v⟩, hc⟩ := Option.isSome_iff_exists.1 h
  exact ⟨v, by rw [belowMarker, cut?_append rest hc]⟩

/-- The block stands where a line begins, somewhere below the word. -/
def LiesBelow (w block t : Text) : Prop :=
  ∃ above below : Text, t = above ++ (block ++ below) ∧ above.IsClosed ∧ above.includes w = true

theorem StandsBelow.liesBelow {w block : Text} (h : StandsBelow w block t) :
    LiesBelow w block t := by
  obtain ⟨above, body, below, rfl, ha, -, -, hb⟩ := h
  refine ⟨above ++ (body ++ [newline]), below, by simp, ha.append (isClosed_concat.2 rfl), ?_⟩
  rw [includes_eq_true] at hb ⊢
  exact List.infix_append_of_infix_right (List.infix_append_of_infix_left hb)

theorem marker_isInline : ∀ h ∈ standard s, h.marker.IsInline ∧ h.marker ≠ [] := by
  have hmarkers : (standard s).map marker =
      [schemasMarker, collectionsMarker, registryMarker, clientMarker, navigationMarker] := rfl
  have hall : ∀ w ∈ [schemasMarker, collectionsMarker, registryMarker, clientMarker,
      navigationMarker], w.IsInline ∧ w ≠ [] := by decide
  intro h hh
  exact hall h.marker (hmarkers ▸ List.mem_map_of_mem hh)

theorem isInline_collectionName (hr : r.HasInlineNames) : r.collectionName.IsInline :=
  isInline_append.2 ⟨hr.pluralName, by decide⟩

theorem isInline_typeName (hr : r.HasInlineNames) : r.typeName.IsInline :=
  not_mem_capitalize hr.name (by decide)

theorem isRegistered_schemas (hr : r.HasInlineNames)
    (ht : LiesBelow schemasMarker
      (((schemas s).entry r).replaceAll '\n' e.text ++ e.text) t) :
    (schemas s).isRegistered r t = true := by
  obtain ⟨above, below, rfl, ha, -⟩ := ht
  let names : Text := "\x7b " ++ r.varName ++ " \x7d"
  have hentry : (schemas s).entry r =
      "export " ++ (names ++ (" from './" ++ ((r.name ++ ".schema") ++ "'"))) := by
    simp [schemas, names, ofString]
  have hnames : names.IsInline := by simp +decide [names, isInline_append, hr.varName]
  have hinline : ((schemas s).entry r).IsInline := by
    rw [hentry]
    simp +decide [isInline_append, hr.name, hnames]
  rw [replaceAll_of_not_mem hinline, hentry]
  have := Probe.reexports_of_line (r.name ++ ".schema") (e.text ++ below) ha hnames
  simpa only [schemas, List.append_assoc, List.nil_append] using this

theorem isRegistered_collections (hr : r.HasInlineNames)
    (ht : LiesBelow collectionsMarker
      (((collections s).entry r).replaceAll '\n' e.text ++ e.text) t) :
    (collections s).isRegistered r t = true := by
  obtain ⟨above, below, rfl, ha, -⟩ := ht
  obtain ⟨names, hnames, hentry⟩ : ∃ names : Text, names.IsInline ∧ (collections s).entry r =
      "export " ++ (names ++ (" from './" ++ ((r.pluralName ++ ".collection") ++ "'"))) := by
    refine ⟨if r.isParquet then "*"
      else "\x7b " ++ r.collectionName ++ ", type " ++ r.typeName ++ " \x7d", ?_, ?_⟩
    · split
      · decide
      · simp +decide [isInline_append, isInline_collectionName hr, isInline_typeName hr]
    · simp [collections, ofString]
  have hinline : ((collections s).entry r).IsInline := by
    rw [hentry]
    simp +decide [isInline_append, hr.pluralName, hnames]
  rw [replaceAll_of_not_mem hinline, hentry]
  have := Probe.reexports_of_line (r.pluralName ++ ".collection") (e.text ++ below) ha hnames
  simpa only [collections, List.append_assoc, List.nil_append] using this

theorem isRegistered_registry (hr : r.HasInlineNames)
    (ht : LiesBelow registryMarker
      (((registry s).entry r).replaceAll '\n' e.text ++ e.text) t) :
    (registry s).isRegistered r t = true := by
  obtain ⟨above, below, rfl, ha, hb⟩ := ht
  obtain ⟨rest, hentry⟩ : ∃ rest, (registry s).entry r = "  " ++ (r.name ++ (": \x7b" ++ rest)) :=
    ⟨_, by simp only [registry, registryEntry, List.flatten_cons, List.cons_append, join,
      List.append_assoc]; rfl⟩
  have hblock : ((registry s).entry r).replaceAll '\n' e.text ++ e.text ++ below =
      "  " ++ (r.name ++ (": \x7b" ++ (rest.replaceAll '\n' e.text ++ (e.text ++ below)))) := by
    have hdent : IsInline "  " := by decide
    have hbrace : IsInline ": \x7b" := by decide
    rw [hentry, replaceAll_inline_append hdent, replaceAll_inline_append hr.name,
      replaceAll_inline_append hbrace]
    simp only [List.append_assoc]
  obtain ⟨u, rfl⟩ := ha.eq_concat fun hn => by
    rw [hn, includes_nil (by decide)] at hb
    cases hb
  rw [includes_append_newline (by decide) (by decide), includes_nil (by decide),
    Bool.or_false] at hb
  obtain ⟨v, hv⟩ := belowMarker_append hb ([newline] ++
    (((registry s).entry r).replaceAll '\n' e.text ++ e.text ++ below))
  have hbelow : belowMarker registryMarker (u ++ [newline] ++
      (((registry s).entry r).replaceAll '\n' e.text ++ e.text ++ below)) =
      (registryMarker ++ v ++ [newline]) ++
        (((registry s).entry r).replaceAll '\n' e.text ++ e.text ++ below) := by
    simpa only [List.append_assoc] using hv
  change Probe.keysObject r.name (belowMarker registryMarker _) = true
  rw [hbelow, hblock]
  exact Probe.keysObject_of_line _ (isClosed_concat.2 rfl)

theorem isRegistered_client (hr : r.HasInlineNames)
    (ht : LiesBelow clientMarker
      (((client s).entry r).replaceAll '\n' e.text ++ e.text) t) :
    (client s).isRegistered r t = true := by
  obtain ⟨above, below, rfl, ha, -⟩ := ht
  have hentry : (client s).entry r =
      "    " ++ (r.pluralName ++ (": " ++ (r.collectionName ++ ","))) := by
    simp [client]
  have hinline : ((client s).entry r).IsInline := by
    rw [hentry]
    simp +decide [isInline_append, hr.pluralName, isInline_collectionName hr]
  have hlast : r.collectionName.getLast? = some (.scalar 'n') := by
    rw [Resource.collectionName, List.getLast?_append]
    rfl
  have hne : r.collectionName ≠ [] := fun h => by simp [h] at hlast
  rw [replaceAll_of_not_mem hinline, hentry]
  have := Probe.keysName_of_line r.pluralName (e.text ++ below) ha
    (by rw [hlast]; decide) hne
  simpa only [client, List.append_assoc] using this

theorem isRegistered_navigation (hr : r.HasInlineNames)
    (ht : LiesBelow navigationMarker
      (((navigation s).entry r).replaceAll '\n' e.text ++ e.text) t) :
    (navigation s).isRegistered r t = true := by
  obtain ⟨above, below, rfl, -, -⟩ := ht
  have hlink : (link r).IsInline := by
    simp +decide [link, isInline_append, hr.pluralName]
  obtain ⟨front, back, hentry⟩ : ∃ front back, (navigation s).entry r = front ++ (link r ++ back) :=
    ⟨"    \x7b\n      title: " ++ r.displayName.literal ++ ",\n      ",
      ",\n" ++ join "\n" ["      icon: " ++ iconOf s r ++ ",",
        "      description: " ++ r.describe.literal ++ ",", "    \x7d,"],
      by simp [navigation, join, ofString]⟩
  change Text.includes _ (link r) = true
  rw [hentry, replaceAll_append, replaceAll_inline_append hlink, includes_eq_true]
  exact ⟨above ++ front.replaceAll '\n' e.text,
    back.replaceAll '\n' e.text ++ e.text ++ below, by simp⟩

/-- **A hub recognises its entries**: where the entry of a resource stands below the marker, the
resource is registered. -/
theorem isRegistered_of_liesBelow (hr : r.HasInlineNames) : ∀ h ∈ standard s,
    LiesBelow h.marker ((h.entry r).replaceAll '\n' e.text ++ e.text) t →
      h.isRegistered r t = true := by
  intro h hh ht
  simp only [standard, List.mem_cons, List.not_mem_nil, or_false] at hh
  rcases hh with rfl | rfl | rfl | rfl | rfl
  · exact isRegistered_schemas hr ht
  · exact isRegistered_collections hr ht
  · exact isRegistered_registry hr ht
  · exact isRegistered_client hr ht
  · exact isRegistered_navigation hr ht

/-- A resource is registered in a hub that it was put into. -/
theorem isRegistered_register (hr : r.HasInlineNames) : ∀ h ∈ standard s,
    t.includes h.marker = true → h.isRegistered r (h.register r t).1 = true := by
  intro h hh ht
  obtain ⟨hw, hne⟩ := marker_isInline h hh
  exact isRegistered_of_liesBelow hr h hh (standsBelow_insertEntry h hw hne
    (includes_referAll h r hw hne ht h.references) (h.entry r)).liesBelow

end Hub

end Scaffold
