import Scaffold.Proofs.Hub.Importing

/-!
# Routes in the registry

The registry is searched for the route of a resource before the resource is put in.  The route is
found if and only if a resource with the same plural name is listed
(`Hub.isClaimed_registryLayout`): of all lines of the registry only one quotes a route, and each
entry has one such line.
-/

namespace Scaffold

open CodePoint

namespace Hub

open Text

variable {r r' : Resource} {rs : List Resource} {added : List (Text × Text)} {l : Text}

/-- The route of the list of records, in quotes. -/
def quotedRoute (r : Resource) : Text := "'/" ++ r.pluralName ++ "'"

theorem isClaimed_registry (s : Settings) (r : Resource) (t : Text) :
    (registry s).isClaimed r t = true ↔ quotedRoute r <:+: t := includes_eq_true

theorem quotedRoute_eq (r : Resource) :
    quotedRoute r = .scalar '\'' :: ((ofString "/" ++ r.pluralName) ++ [.scalar '\'']) := by
  simp [quotedRoute, ofString]

/-! ### Lines with a quotation -/

/-- The line has one quotation, of the text. -/
def Quotes (t l : Text) : Prop :=
  ∃ before after, l = before ++ .scalar '\'' :: (t ++ .scalar '\'' :: after) ∧
    IsQuoteFree before ∧ IsQuoteFree t ∧ IsQuoteFree after

/-- A quoted route is all that its line quotes. -/
theorem Quotes.eq_of_route {t : Text} (h : Quotes t l) (hr : r.pluralName.IsWord)
    (hroute : quotedRoute r <:+: l) : "/" ++ r.pluralName = t := by
  obtain ⟨before, after, rfl, hbefore, ht, hafter⟩ := h
  rw [quotedRoute_eq] at hroute
  have hplural : IsQuoteFree ("/" ++ r.pluralName) :=
    isQuoteFree_append.2 ⟨by decide, isQuoteFree_of_isWord hr⟩
  exact eq_of_infix_delimited hbefore hafter ht hplural (.inl rfl) (.inl rfl) (.inl rfl) hroute

theorem not_route_of_isQuoteFree (h : IsQuoteFree l) : ¬ quotedRoute r <:+: l := by
  rw [quotedRoute_eq]
  exact not_infix_of_isQuoteFree (.inl rfl) h

/-- An import quotes its source. -/
theorem quotes_importOf {x : Text × Text} (h₁ : IsQuoteFree x.1) (h₂ : IsQuoteFree x.2) :
    Quotes x.2 (importOf x) := by
  refine ⟨"import \x7b " ++ x.1 ++ " \x7d from ", [], ?_, ?_, h₂, by decide⟩
  · simp [importOf, ofString]
  · exact isQuoteFree_append.2 ⟨isQuoteFree_append.2 ⟨by decide, h₁⟩, by decide⟩

/-! ### The lines of the registry -/

/-- No line of the skeleton quotes a route. -/
theorem not_route_fixed : ∀ l ∈ registryLayout.front ++ registryLayout.back ++
    registryLayout.markerLine :: registryLayout.below, ¬ quotedRoute r <:+: l := by
  have hslash : ∀ l ∈ registryLayout.front ++ registryLayout.back ++
      registryLayout.markerLine :: registryLayout.below, ¬ ofString "'/" <:+: l := by
    decide +kernel
  intro l hl hroute
  have hbegins : ofString "'/" <:+: quotedRoute r :=
    ⟨[], r.pluralName ++ "'", by simp [quotedRoute]⟩
  exact hslash l hl (hbegins.trans hroute)

/-- No import quotes a route. -/
theorem not_route_importOf (hr : r.HasWords) (hr' : r'.HasWords) {x : Text × Text}
    (hx : x ∈ registryLayout.needs r') : ¬ quotedRoute r <:+: importOf x := by
  intro hroute
  have hsource : IsQuoteFree x.2 ∧ x.2.head? = some (.scalar '@') := by
    simp only [registryLayout, List.mem_cons] at hx
    rcases hx with rfl | hx
    · refine ⟨?_, rfl⟩
      exact isQuoteFree_append.2
        ⟨isQuoteFree_append.2 ⟨by decide, isQuoteFree_of_isWord hr'.name⟩, by decide⟩
    · split at hx
      · cases hx
      · obtain rfl := List.mem_singleton.1 hx
        have hcollections : IsQuoteFree "@/collections" ∧
            (ofString "@/collections").head? = some (.scalar '@') := by decide
        exact hcollections
  have hname := isQuoteFree_of_isWord (needs_registryLayout hr' hx).1
  have hsame := (quotes_importOf hname hsource.1).eq_of_route hr.pluralName hroute
  have hhead : x.2.head? = some (.scalar '/') := by
    rw [← hsame]
    rfl
  rw [hsource.2] at hhead
  cases hhead

/-- What the lines of an entry quote, if they quote anything. -/
theorem quotes_registryLines (hr : r.HasWords) (hl : l ∈ registryLines r) :
    IsQuoteFree l ∨ Quotes r.dataSource l ∨ Quotes ("/" ++ r.pluralName) l ∨
      Quotes ("/" ++ r.pluralName ++ "/new") l := by
  have hplural := isQuoteFree_of_isWord hr.pluralName
  have haround {w s t : Text} (hw : w.IsWord) (hs : IsQuoteFree s) (ht : IsQuoteFree t) :
      IsQuoteFree (s ++ w ++ t) :=
    isQuoteFree_append.2 ⟨isQuoteFree_append.2 ⟨hs, isQuoteFree_of_isWord hw⟩, ht⟩
  simp only [registryLines, List.flatten_cons, List.flatten_nil, List.mem_append, List.mem_cons,
    List.not_mem_nil, or_false] at hl
  rcases hl with (rfl | rfl) | hl | rfl | rfl | rfl | rfl | rfl | rfl | rfl
  · exact .inl (haround hr.name (by decide) (by decide))
  · exact .inl (haround hr.varName (by decide) (by decide))
  · split at hl
    · cases hl
    · rw [List.mem_singleton.1 hl]
      exact .inl (haround hr.collectionName (by decide) (by decide))
  · exact .inr (.inl ⟨"    dataSource: ", ",", by simp [ofString], by decide,
      isQuoteFree_of_isWord hr.dataSource, by decide⟩)
  · exact .inl (by decide)
  · exact .inr (.inr (.inl ⟨"      list: ", ",", by simp [ofString], by decide,
      isQuoteFree_append.2 ⟨by decide, hplural⟩, by decide⟩))
  · exact .inr (.inr (.inr ⟨"      new: ", ",", by simp [ofString], by decide,
      haround hr.pluralName (by decide) (by decide), by decide⟩))
  · exact .inl (haround hr.pluralName (by decide) (by decide))
  · exact .inl (by decide)
  · exact .inl (by decide)

/-- Of the lines of an entry one quotes the route of its resource, and no other one quotes a
route. -/
theorem route_registryLines (hr : r.HasWords) (hr' : r'.HasWords) :
    (∃ l ∈ registryLines r', quotedRoute r <:+: l) ↔ r.pluralName = r'.pluralName := by
  constructor
  · rintro ⟨l, hl, hroute⟩
    rcases quotes_registryLines hr' hl with hfree | hsource | hlist | hnew
    · exact absurd hroute (not_route_of_isQuoteFree hfree)
    · -- the data source would begin with a slash
      obtain ⟨c, w, hc, hletter⟩ := hr'.dataSource.exists_cons
      have hsame := hsource.eq_of_route hr.pluralName hroute
      rw [hc] at hsame
      rw [← (List.cons.inj hsame).1] at hletter
      cases hletter
    · exact List.append_cancel_left (hlist.eq_of_route hr.pluralName hroute)
    · -- the plural name would have a slash
      have hsame := hnew.eq_of_route hr.pluralName hroute
      rw [List.append_assoc] at hsame
      have hslash : .scalar '/' ∈ r.pluralName := by
        rw [List.append_cancel_left hsame]
        simp [ofString]
      exact absurd hslash (hr.pluralName.not_mem (by decide))
  · intro hplural
    refine ⟨"      list: '/" ++ r'.pluralName ++ "',", ?_, "      list: ", ",", ?_⟩
    · simp only [registryLines, List.flatten_cons, List.mem_append, List.mem_cons, true_or, or_true]
    · rw [quotedRoute_eq, hplural]
      simp [ofString]

/-- **The registry has the route of a resource** if and only if it lists a resource with the same
plural name. -/
theorem isClaimed_registryLayout (hrs : ∀ r ∈ rs, r.HasWords) (ha : registryLayout.Imports rs added)
    (hr : r.HasWords) : registryLayout.hub.isClaimed r (registryLayout.text added rs) = true ↔
      ∃ r' ∈ rs, r'.pluralName = r.pluralName := by
  have hsound := isSound_registryLayout
  rw [show registryLayout.hub = registry .standard from rfl, isClaimed_registry]
  constructor
  · intro hroute
    have hinline : (quotedRoute r).IsInline :=
      isInline_append.2 ⟨isInline_append.2 ⟨by decide, hr.pluralName.isPlainLine.1⟩, by decide⟩
    obtain ⟨l, hl, hroute⟩ := hsound.exists_line hrs hinline
      (by simp [quotedRoute, ofString]) hroute
    have hfixed : l ∉ registryLayout.front ++ registryLayout.back ++
        registryLayout.markerLine :: registryLayout.below := fun hm => not_route_fixed l hm hroute
    simp only [HubLayout.lines, HubLayout.rest, List.mem_append, List.mem_cons, List.mem_map,
      List.mem_flatMap, not_or] at hl hfixed
    rcases hl with (hl | ⟨x, hx, rfl⟩) | hl | hl | ⟨r', hr', hl⟩ | hl
    · exact absurd hl hfixed.1.1
    · obtain ⟨r', hr', hneeds⟩ := ha.needed x hx
      exact absurd hroute (not_route_importOf hr (hrs r' hr') hneeds)
    · exact absurd hl hfixed.1.2
    · exact absurd hl hfixed.2.1
    · exact ⟨r', hr', ((route_registryLines hr (hrs r' hr')).1 ⟨l, hl, hroute⟩).symm⟩
    · exact absurd hl hfixed.2.2
  · rintro ⟨r', hr', hplural⟩
    obtain ⟨l, hl, hroute⟩ := (route_registryLines hr (hrs r' hr')).2 hplural.symm
    have hmem : l ∈ registryLayout.lines added rs := by
      simp only [HubLayout.lines, HubLayout.rest, List.mem_append, List.mem_cons, List.mem_flatMap]
      exact .inr (.inr (.inr (.inl ⟨r', hr', hl⟩)))
    rw [hsound.text_eq hrs]
    obtain ⟨above, rest, -, htext⟩ := exists_of_mem_unlines hmem
    exact hroute.trans ⟨above, newline :: rest, by rw [htext, List.append_assoc]⟩

end Hub

end Scaffold
