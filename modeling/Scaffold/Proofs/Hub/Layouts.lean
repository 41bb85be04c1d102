import Scaffold.Proofs.Hub.Importing

/-!
# The layouts of the standard hubs

The database client and the navigation are ledgers as well, which completes the list
(`Hub.layouts`): each standard hub keeps a ledger, in the order in which resources are registered in
them.
-/

namespace Scaffold

open CodePoint

namespace Hub

open Text Probe

variable {r : Resource} {rs : List Resource} {added : List (Text × Text)} {x : Text × Text}

/-! ### The database client -/

/-- The database client, by its lines. -/
def clientLayout : HubLayout where
  hub := client .standard
  front := [heading, "", "import \x7b createDbClient \x7d from '@tanstack/db'",
    "import \x7b queryClient \x7d from './query-client'"]
  back := ["",
    "export const db = createDbClient(\x7b",
    "  queryClient,",
    "  collections: \x7b"]
  markerLine := "    " ++ clientMarker
  below := ["  \x7d,", "\x7d)", "", "export type DbCollections = typeof db.collections"]
  key := Resource.pluralName
  entryLines r := [(client .standard).entry r]
  imported := ["createDbClient", "queryClient"]
  needs r := [(r.collectionName, "@/collections")]
  importLine := importOf

theorem needs_clientLayout (hr : r.IsWordy) (hx : x ∈ clientLayout.needs r) :
    x.1.IsWord ∧ x.2 = "@/collections" := by
  obtain rfl := List.mem_singleton.1 hx
  exact ⟨hr.collectionName, rfl⟩

theorem isMarker_clientMarker : IsMarker clientMarker := isMarker_ofList (by decide)

theorem isSound_clientLayout : clientLayout.IsSound Resource.IsWordy where
  marker := IsMarker.isInline_and_ne_nil isMarker_clientMarker
  skeleton := rfl
  entry r _ := ⟨rfl, List.cons_ne_nil _ _⟩
  fixedPlain := by
    simp only [clientLayout, IsPlainLine, List.cons_append, List.nil_append, List.mem_append,
      not_or, List.forall_mem_cons, List.not_mem_nil, false_implies, implies_true, and_true]
    and_intros <;> exact not_mem_ofList (by decide)
  entryPlain r hr l hl := by
    rw [List.mem_singleton.1 hl]
    exact isPlainLine_iff.2 hr.gives.client_entry
  importPlain r hr x hx := by
    obtain ⟨h₁, h₂⟩ := needs_clientLayout hr hx
    have hsign : .scalar '=' ∉ importOf x :=
      not_mem_importOf (by decide) h₁ (by rw [h₂]; decide) (by decide)
    exact ⟨isPlainLine_importOf h₁ (by rw [h₂]; decide),
      IsMarker.includes_eq_false isMarker_clientMarker (.inl hsign)⟩
  marked := includes_eq_true.2 (List.suffix_append _ _).isInfix
  unmarked l hl := by
    refine IsMarker.includes_eq_false isMarker_clientMarker ?_
    revert l
    simp only [clientLayout, List.cons_append, List.nil_append, List.forall_mem_cons,
      List.not_mem_nil, false_implies, implies_true, and_true]
    and_intros <;>
      first
      | exact .inl (not_mem_ofList (by decide))
      | exact .inr (not_mem_ofList (by decide))

/-- The only line of the client with a key that is not an entry keys an object. -/
theorem keyOf?_clientLayout {key l : Text} (hk : key.IsWord)
    (hl : l ∈ clientLayout.front ++ clientLayout.back ++ clientLayout.markerLine ::
      clientLayout.below)
    (he : keyOf? l = some key) : l = "  collections: \x7b" := by
  have hfixed : ∀ l ∈ clientLayout.front ++ clientLayout.back ++
      clientLayout.markerLine :: clientLayout.below,
      keyOf? l = none ∨ keyOf? l = some [] ∨ l = "  collections: \x7b" := by
    have hmarker : keyOf? ("    " ++ clientMarker) = none := by decide
    simp only [clientLayout, List.cons_append, List.nil_append, List.forall_mem_cons, hmarker,
      List.not_mem_nil, false_implies, implies_true, and_true, true_or, or_true, true_and]
    and_intros <;>
      exact (of_ofList (fun l => keyOf? l = none ∨ keyOf? l = some []) (by decide)).imp_right .inl
  rcases hfixed l hl with h | h | h
  · rw [he] at h
    cases h
  · rw [he] at h
    exact absurd (Option.some.inj h) hk.1
  · exact h

/-- What the key of that line stands for is no name. -/
theorem not_named_of_collections {key name rest indent u v w : Text} (hn : name.IsWord)
    (hk : key.IsWord) (hkey : keyOf? "  collections: \x7b" = some key)
    (hl : "  collections: \x7b" ++ newline :: rest = indent ++ (key ++ u))
    (hi : ∀ c ∈ indent, c.isBlank = true) (hu : stripLeft u = ":" ++ (v ++ (name ++ w)))
    (hv : ∀ c ∈ v, c.isBlank = true) : False := by
  obtain rfl : "collections" = key := by
    have : keyOf? "  collections: \x7b" = some (ofString "collections") := by decide
    exact Option.some.inj (this.symm.trans hkey)
  have hafter : ": \x7b" ++ newline :: rest = u := by
    have := congrArg stripLeft hl
    rw [stripLeft_append_of_blank hi, stripLeft_word_append hk] at this
    exact (List.append_right_inj (ofString "collections")).1 this
  have hvalue : stripLeft (" \x7b" ++ newline :: rest) = name ++ w := by
    rw [← hafter] at hu
    have hcolon : ofString " \x7b" ++ newline :: rest = v ++ (name ++ w) := (List.cons.inj hu).2
    rw [hcolon, stripLeft_append_of_blank hv, stripLeft_word_append hn]
  obtain ⟨c, y, rfl, hc⟩ := hn.exists_cons
  obtain rfl : CodePoint.scalar '\x7b' = c := (List.cons.inj hvalue).1
  cases hc

theorem entry_client (r : Resource) : (client .standard).entry r =
    "    " ++ r.pluralName ++ (":" ++ (" " ++ r.collectionName ++ ",")) := by
  have hentry : (client .standard).entry r =
      "    " ++ r.pluralName ++ ": " ++ r.collectionName ++ "," := rfl
  rw [hentry]
  simp [ofString]

theorem registered_clientLayout (hrs : ∀ r ∈ rs, r.IsWordy) (ha : clientLayout.Imports rs added)
    (hr : r.IsWordy) : clientLayout.hub.isRegistered r (clientLayout.text added rs) = true ↔
      r.pluralName ∈ rs.map Resource.pluralName := by
  have hsound := isSound_clientLayout
  have hprobe : ∀ r t, clientLayout.hub.isRegistered r t =
      keysName r.pluralName r.collectionName t := fun _ _ => rfl
  constructor
  · intro h
    rw [hprobe, hsound.text_eq hrs] at h
    have hinline : ∀ l ∈ clientLayout.lines added rs, l.IsInline := fun l hl =>
      (hsound.isPlainLine hrs hrs ha l hl).1
    obtain ⟨l, hl, hkey, rest, indent, u, v, w, hline, hi, hu, hv⟩ :=
      exists_key_of_keysName hinline hr.pluralName h
    have hfixed : l ∉ clientLayout.front ++ clientLayout.back ++
        clientLayout.markerLine :: clientLayout.below := fun hm => by
      obtain rfl := keyOf?_clientLayout hr.pluralName hm hkey
      exact not_named_of_collections hr.collectionName hr.pluralName hkey hline hi hu hv
    simp only [HubLayout.lines, HubLayout.rest, List.mem_append, List.mem_cons, List.mem_map,
      List.mem_flatMap, not_or] at hl hfixed
    rcases hl with (hl | ⟨x, -, rfl⟩) | hl | hl | ⟨r', hr', hl⟩ | hl
    · exact absurd hl hfixed.1.1
    · have himport : keyOf? (importOf x) = none := rfl
      rw [show clientLayout.importLine x = importOf x from rfl, himport] at hkey
      cases hkey
    · exact absurd hl hfixed.1.2
    · exact absurd hl hfixed.2.1
    · obtain rfl := List.mem_singleton.1 hl
      rw [entry_client, keyOf?_of_key (by decide) (hrs r' hr').pluralName] at hkey
      rw [← Option.some.inj hkey]
      exact List.mem_map_of_mem hr'
    · exact absurd hl hfixed.2.2
  · intro h
    obtain ⟨r', hr', hkey⟩ := List.mem_map.1 h
    have hlists : clientLayout.hub.isRegistered r' (clientLayout.text added rs) = true :=
      isRegistered_client (hrs r' hr').hasInlineNames (hsound.liesBelow hr')
    have hname : r'.collectionName = r.collectionName := by
      rw [Resource.collectionName, Resource.collectionName, hkey]
    rwa [hprobe, hkey, hname, ← hprobe] at hlists

/-- Below the imports of the client, no line is taken for an import. -/
theorem rest_clientLayout (hrs : ∀ r ∈ rs, r.IsWordy) :
    ∀ l ∈ clientLayout.rest rs, .scalar '@' ∉ l ∧ l.head? ≠ some (.scalar 'i') := by
  intro l hl
  simp only [HubLayout.rest, List.mem_append, List.mem_cons, List.mem_flatMap] at hl
  rcases hl with hl | rfl | ⟨r, hr, hl⟩ | hl
  · revert l
    simp only [clientLayout, List.forall_mem_cons, List.not_mem_nil, false_implies, implies_true,
      and_true]
    and_intros <;> first | exact not_mem_ofList (by decide) | exact head?_ofList_ne (by decide)
  · refine ⟨fun hm => ?_, by decide⟩
    exact (List.mem_append.1 hm).elim (not_mem_ofList (by decide)) (not_mem_ofList (by decide))
  · have hword : ∀ {w : Text}, w.IsWord → .scalar '@' ∉ w := fun hw => hw.not_mem (by decide)
    rw [List.mem_singleton.1 hl, entry_client]
    simp [hword (hrs r hr).pluralName, hword (hrs r hr).collectionName, ofString]
  · revert l
    simp only [clientLayout, List.forall_mem_cons, List.not_mem_nil, false_implies, implies_true,
      and_true]
    and_intros <;> first | exact not_mem_ofList (by decide) | exact head?_ofList_ne (by decide)

/-- Every name that the client imports is found. -/
theorem imports_clientLayout (hrs : ∀ r ∈ rs, r.IsWordy) {seen : List Resource}
    (hseen : ∀ r ∈ seen, r.IsWordy) (ha : clientLayout.Imports seen added) {name : Text}
    (h : name ∈ clientLayout.imported ++ added.map Prod.fst) :
    imports name none (clientLayout.text added rs) = true := by
  have hsound := isSound_clientLayout
  rw [hsound.text_eq hrs]
  have hfront : ∀ name ∈ clientLayout.imported, name.IsWord ∧
      ∃ source, importOf (name, source) ∈ clientLayout.front := by
    simp only [clientLayout, List.forall_mem_cons, List.not_mem_nil, false_implies, implies_true,
      and_true]
    exact ⟨⟨by decide, "@tanstack/db", by simp [importOf, ofString]⟩,
      ⟨by decide, "./query-client", by simp [importOf, ofString]⟩⟩
  rcases List.mem_append.1 h with h | h
  · obtain ⟨hname, source, hmem⟩ := hfront name h
    refine imports_importOf (x := (name, source)) hname ?_
    simp only [HubLayout.lines, List.mem_append]
    exact .inl (.inl hmem)
  · obtain ⟨x, hx, rfl⟩ := List.mem_map.1 h
    obtain ⟨r, hr, hneeds⟩ := ha.needed x hx
    refine imports_importOf (needs_clientLayout (hseen r hr) hneeds).1 ?_
    simp only [HubLayout.lines, List.mem_append, List.mem_map]
    exact .inl (.inr ⟨x, hx, rfl⟩)

theorem isCollectionImport_importOf (name : Text) :
    isCollectionImport (importOf (name, "@/collections")) = true := by
  rw [isCollectionImport, includes_eq_true]
  exact ⟨"import \x7b " ++ name ++ " \x7d ", "'", by simp [importOf, ofString]⟩

/-- The imports of the client go below those of the skeleton. -/
theorem exists_place_clientLayout (hrs : ∀ r ∈ rs, r.IsWordy) {seen : List Resource}
    (hseen : ∀ r ∈ seen, r.IsWordy) (ha : clientLayout.Imports seen added) :
    ∃ i ≤ added.length, (collectionImport isCollectionImport isImport).place?
      (unlines (clientLayout.lines added rs)).lines = some (clientLayout.front.length + i) := by
  have hsound := isSound_clientLayout
  have hinline : ∀ l ∈ clientLayout.lines added rs, l.IsInline := fun l hl =>
    (hsound.isPlainLine hrs hseen ha l hl).1
  have hrest : ∀ l ∈ clientLayout.rest rs, isCollectionImport l = false ∧ isImport l = false :=
    fun l hl => ⟨includes_eq_false_of_at (by decide) (rest_clientLayout hrs l hl).1,
      isImport_eq_false (rest_clientLayout hrs l hl).2⟩
  rcases List.eq_nil_or_concat' added with rfl | ⟨added, x, rfl⟩
  · have hlines : clientLayout.lines [] rs = clientLayout.front.take 3 ++
        ofString "import \x7b queryClient \x7d from './query-client'" :: clientLayout.rest rs := by
      simp [HubLayout.lines, clientLayout]
    have hnone : lastLine? isCollectionImport (unlines (clientLayout.lines [] rs)).lines =
      none := by
      refine lastLine?_eq_none hinline fun l hl => ?_
      rcases List.mem_append.1 hl with hl | hl
      · have hfront : ∀ l ∈ clientLayout.front ++ [], isCollectionImport l = false := by
          simp only [clientLayout, List.append_nil, List.forall_mem_cons, List.not_mem_nil,
            false_implies, implies_true, and_true]
          and_intros <;> exact of_ofList (fun l => isCollectionImport l = false) (by decide)
        exact hfront l hl
      · exact (hrest l hl).1
    have hlast : lastLine? isImport (unlines (clientLayout.lines [] rs)).lines =
        some (clientLayout.front.length + 0) := by
      have hlength : (clientLayout.front.take 3).length + 1 = clientLayout.front.length + 0 := by
        simp [clientLayout]
      rw [hlines] at hinline ⊢
      rw [← hlength]
      exact lastLine?_append_cons hinline (of_ofList (fun l => isImport l = true) (by decide))
        fun l hl => (hrest l hl).2
    exact ⟨0, le_rfl, place?_of_fallback rfl hnone hlast⟩
  · obtain ⟨r, hr, hx⟩ := ha.needed x (by simp)
    have hanchor : isCollectionImport (importOf x) = true := by
      obtain rfl := List.mem_singleton.1 hx
      exact isCollectionImport_importOf _
    have hlines : clientLayout.lines (added ++ [x]) rs =
        (clientLayout.front ++ added.map importOf) ++ importOf x :: clientLayout.rest rs := by
      simp [HubLayout.lines, clientLayout]
    rw [hlines] at hinline ⊢
    have hlast := lastLine?_append_cons hinline hanchor fun l hl => (hrest l hl).1
    rw [List.length_append, List.length_map, Nat.add_assoc] at hlast
    exact ⟨added.length + 1, by simp, place?_of_anchor rfl hlast⟩

theorem refers_clientLayout (hrs : ∀ r ∈ rs, r.IsWordy) {seen : List Resource}
    (hseen : ∀ r ∈ seen, r.IsWordy) (ha : clientLayout.Imports seen added) (hr : r ∈ seen) :
    ∃ added', clientLayout.Imports seen added' ∧
      (clientLayout.hub.refer r .lineFeed (clientLayout.text added rs)
        (collectionImport isCollectionImport isImport)).1 = clientLayout.text added' rs := by
  have hsound := isSound_clientLayout
  obtain ⟨added', ha', -, h⟩ := hsound.refer_text
    (collectionImport isCollectionImport isImport)
    (x := (r.collectionName, "@/collections")) hrs hseen ha hr fun _ => by
      refine ⟨List.mem_singleton_self _, ?_, exists_place_clientLayout hrs hseen ha, fun hm => ?_⟩
      · exact line_collectionImport isCollectionImport isImport r
      · have hprobe : ∀ t, (collectionImport isCollectionImport isImport).isThere r t =
            imports r.collectionName none t := fun _ => rfl
        rw [hprobe]
        exact imports_clientLayout hrs hseen ha hm
  exact ⟨added', ha', h⟩

theorem keepsLedger_clientLayout : clientLayout.KeepsLedger Resource.IsWordy where
  toIsSound := isSound_clientLayout
  registered added rs r ha hrs hr := registered_clientLayout hrs ha hr
  refers added rs r ha hrs hr _ := by
    have hseen : ∀ r' ∈ r :: rs, r'.IsWordy := List.forall_mem_cons.2 ⟨hr, hrs⟩
    obtain ⟨added', ha', h⟩ := refers_clientLayout hrs hseen (ha.cons r) List.mem_cons_self
    have hreferences : clientLayout.hub.references =
        [collectionImport isCollectionImport isImport] := rfl
    exact ⟨added', ha', by rw [hreferences, referAll_cons, referAll_nil, h]⟩

/-! ### The navigation -/

/-- The navigation, by its lines. -/
def navigationLayout : HubLayout where
  hub := navigation .standard
  front := [heading, "", "import \x7b", "  type LucideIcon,"]
  back := ["\x7d from 'lucide-react'",
    "",
    "export type NavItem = \x7b",
    "  title: string",
    "  href: string",
    "  icon: LucideIcon",
    "  description?: string",
    "\x7d",
    "",
    "export const resourceNavItems: NavItem[] = ["]
  markerLine := "  " ++ navigationMarker
  below := ["]"]
  key := Resource.pluralName
  entryLines := navigationLines .standard
  imported := ["LucideIcon"]
  needs r := [(iconOf .standard r, "lucide-react")]
  importLine x := "  " ++ x.1 ++ ","

theorem isWord_of_needs_navigationLayout (hr : r.IsWordy) (hx : x ∈ navigationLayout.needs r) :
    x.1.IsWord := by
  obtain rfl := List.mem_singleton.1 hx
  exact hr.iconOf

theorem isMarker_navigationMarker : IsMarker navigationMarker := isMarker_ofList (by decide)

theorem isSound_navigationLayout : navigationLayout.IsSound Resource.IsWordy where
  marker := IsMarker.isInline_and_ne_nil isMarker_navigationMarker
  skeleton := rfl
  entry r _ := ⟨rfl, List.cons_ne_nil _ _⟩
  fixedPlain := by
    simp only [navigationLayout, IsPlainLine, List.cons_append, List.nil_append, List.mem_append,
      not_or, List.forall_mem_cons, List.not_mem_nil, false_implies, implies_true, and_true]
    and_intros <;> exact not_mem_ofList (by decide)
  entryPlain r hr l hl := isPlainLine_iff.2 (hr.gives.navigationLines l hl)
  importPlain r hr x hx := by
    have hword := isWord_of_needs_navigationLayout hr hx
    have hnot : ∀ {c : CodePoint}, c.isWordLetter = false → c ∉ ofString "  " → c ∉ ofString "," →
        c ∉ navigationLayout.importLine x := by
      intro c hc hindent hcomma hm
      rcases List.mem_append.1 hm with hm | hm
      · exact (List.mem_append.1 hm).elim hindent (hword.not_mem hc)
      · exact hcomma hm
    exact ⟨⟨hnot (by decide) (by decide) (by decide), hnot (by decide) (by decide) (by decide)⟩,
      IsMarker.includes_eq_false isMarker_navigationMarker
        (.inl (hnot (by decide) (by decide) (by decide)))⟩
  marked := includes_eq_true.2 (List.suffix_append _ _).isInfix
  unmarked l hl := by
    refine IsMarker.includes_eq_false isMarker_navigationMarker ?_
    revert l
    simp only [navigationLayout, List.cons_append, List.nil_append, List.forall_mem_cons,
      List.not_mem_nil, false_implies, implies_true, and_true]
    and_intros <;>
      first
      | exact .inl (not_mem_ofList (by decide))
      | exact .inr (not_mem_ofList (by decide))

/-! ### What the navigation lists -/

theorem eq_quote_of_mem_literalPart {c : CodePoint} (h : .scalar '\'' ∈ literalPart c) :
    c = .scalar '\'' := by
  rw [literalPart] at h
  split_ifs at h with h₁ h₂ h₃ h₄
  · exact absurd h (by decide)
  · exact h₂
  · exact absurd h (by decide)
  · exact absurd h (by decide)
  · exact (List.mem_singleton.1 h).symm

/-- In a literal, a quote stands behind a backslash. -/
theorem getLast?_of_literalPart_quote {t u v : Text}
    (h : t.flatMap literalPart = u ++ CodePoint.scalar '\'' :: v) :
    u.getLast? = some (.scalar '\\') := by
  induction t generalizing u with
  | nil => simp at h
  | cons c t ih =>
    rw [List.flatMap_cons] at h
    rcases List.append_eq_append_iff.1 h with ⟨w, rfl, hw⟩ | ⟨w, hw, hv⟩
    · rw [List.getLast?_append, ih hw]
      rfl
    · cases w with
      | nil =>
        have := ih (u := []) hv.symm
        cases this
      | cons d w =>
        obtain rfl : CodePoint.scalar '\'' = d := (List.cons.inj hv).1
        obtain rfl : c = .scalar '\'' := eq_quote_of_mem_literalPart (hw ▸ by simp)
        have hpart : literalPart (.scalar '\'') = [.scalar '\\', .scalar '\''] := by decide
        rw [hpart] at hw
        rcases u with _ | ⟨a, _ | ⟨b, u⟩⟩
        · cases (List.cons.inj hw).1
        · rw [(List.cons.inj hw).1]
          rfl
        · have := congrArg List.length hw
          simp at this

/-- A literal has no link in it. -/
theorem not_link_in_literal {front t : Text} (hf : .scalar '\'' ∉ front)
    (hlast : ¬ ofString "href: " <:+ front) : ¬ link r <:+: front ++ t.literal ++ "," := by
  rintro ⟨p, back, h⟩
  have hquote : (p ++ "href: ") ++ CodePoint.scalar '\'' :: ("/" ++ r.pluralName ++ "'" ++ back) =
      front ++ CodePoint.scalar '\'' :: (t.flatMap literalPart ++ "',") := by
    simpa [link, literal, ofString] using h
  rcases append_cons_eq_append_cons (Q := (· = CodePoint.scalar '\''))
    (fun c hc hq => hf (hq ▸ hc)) rfl hquote with ⟨hp, -, -⟩ | ⟨u, hp, hu⟩
  · exact hlast ⟨p, hp⟩
  -- the quote of the link stands behind a blank
  have hblank : u.getLast? = some (.scalar ' ') := by
    have hends : (front ++ CodePoint.scalar '\'' :: u).getLast? = some (.scalar ' ') := by
      rw [← hp, List.getLast?_append]
      rfl
    rcases List.eq_nil_or_concat' u with rfl | ⟨v, c, rfl⟩
    · rw [List.getLast?_concat] at hends
      cases hends
    · rw [← List.cons_append, ← List.append_assoc, List.getLast?_concat] at hends
      rw [List.getLast?_concat, hends]
  have hslash : CodePoint.scalar '\'' :: ("/" ++ r.pluralName ++ "'" ++ back) ≠ "'," := fun h => by
    cases (List.cons.inj (List.cons.inj h).2).1
  rcases List.append_eq_append_iff.1 hu with ⟨w, hw, hv⟩ | ⟨w, -, hv⟩
  · cases w with
    | nil => exact hslash hv
    | cons d w =>
      obtain rfl : CodePoint.scalar '\'' = d := (List.cons.inj hv).1
      rw [getLast?_of_literalPart_quote hw] at hblank
      cases hblank
  · cases w with
    | nil => exact hslash hv.symm
    | cons d w =>
      have hm : CodePoint.scalar '\'' ∈ ofString "," := by
        rw [show ofString "," = w ++ _ from (List.cons.inj hv).2]
        simp
      exact absurd hm (by decide)

theorem link_eq_of_infix (hr : r.pluralName.IsWord) {r' : Resource} (hr' : r'.pluralName.IsWord)
    (h : link r <:+: "      " ++ link r' ++ ",") : r.pluralName = r'.pluralName := by
  let quote : CodePoint := .scalar '\''
  have hq : ∀ {w : Text}, w.IsWord → ∀ c ∈ ofString "/" ++ w, c ≠ quote := by
    intro w hw c hc
    rcases List.mem_append.1 hc with hc | hc
    · rw [List.mem_singleton.1 hc]
      decide
    · rintro rfl
      exact hw.not_mem (by decide) hc
  have hlink : link r = "href: " ++ (quote :: (ofString "/" ++ r.pluralName ++ [quote])) := by
    simp [link, quote, ofString]
  have hline : "      " ++ link r' ++ "," = ofString "      href: " ++
      quote :: (ofString "/" ++ r'.pluralName ++ quote :: ofString ",") := by
    simp [link, quote, ofString]
  have hquoted : (quote :: (ofString "/" ++ r.pluralName ++ [quote])) <:+: link r :=
    hlink ▸ (List.suffix_append _ _).isInfix
  rw [hline] at h
  have hpath : ofString "/" ++ r.pluralName = ofString "/" ++ r'.pluralName :=
    eq_of_infix_delimited (Q := (· = quote)) (by decide) (by decide) (hq hr') (hq hr) rfl rfl rfl
      (hquoted.trans h)
  exact List.append_cancel_left hpath

theorem not_link_of_not_mem {l : Text} (h : .scalar '\'' ∉ l ∨ .scalar ':' ∉ l) :
    ¬ link r <:+: l := by
  intro hi
  rcases h with h | h
  · exact h (hi.subset (by simp [link, ofString]))
  · exact h (hi.subset (by simp [link, ofString]))

/-- A link in an entry of the navigation is that of its resource. -/
theorem eq_of_link_navigationLines {r' : Resource} {l : Text} (hr : r.IsWordy) (hr' : r'.IsWordy)
    (hl : l ∈ navigationLines .standard r') (h : link r <:+: l) : r.pluralName = r'.pluralName := by
  simp only [navigationLines, List.mem_cons, List.not_mem_nil, or_false] at hl
  rcases hl with rfl | rfl | rfl | rfl | rfl | rfl
  · exact absurd h (not_link_of_not_mem (.inl (by decide)))
  · exact absurd h (not_link_in_literal (by decide) (by decide))
  · exact link_eq_of_infix hr.pluralName hr'.pluralName h
  · refine absurd h (not_link_of_not_mem (.inl ?_))
    have : .scalar '\'' ∉ iconOf .standard r' := hr'.iconOf.not_mem (by decide)
    simpa [ofString] using this
  · exact absurd h (not_link_in_literal (by decide) (by decide))
  · exact absurd h (not_link_of_not_mem (.inl (by decide)))

theorem registered_navigationLayout (hrs : ∀ r ∈ rs, r.IsWordy)
    (ha : navigationLayout.Imports rs added) (hr : r.IsWordy) :
    navigationLayout.hub.isRegistered r (navigationLayout.text added rs) = true ↔
      r.pluralName ∈ rs.map Resource.pluralName := by
  have hsound := isSound_navigationLayout
  have hprobe : ∀ r t, navigationLayout.hub.isRegistered r t = t.includes (link r) := fun _ _ => rfl
  constructor
  · intro h
    rw [hprobe, includes_eq_true] at h
    have hinline : (link r).IsInline :=
      isInline_append.2 ⟨isInline_append.2 ⟨by decide, hr.pluralName.isPlainLine.1⟩, by decide⟩
    obtain ⟨l, hl, h⟩ := hsound.exists_line hrs hinline (by simp [link, ofString]) h
    have hfixed : l ∉ navigationLayout.front ++ navigationLayout.back ++
        navigationLayout.markerLine :: navigationLayout.below := fun hm => by
      have hsigns : ∀ l ∈ navigationLayout.front ++ navigationLayout.back ++
          navigationLayout.markerLine :: navigationLayout.below,
          .scalar '\'' ∉ l ∨ .scalar ':' ∉ l := by
        have hmarker : .scalar '\'' ∉ "  " ++ navigationMarker := fun hm =>
          (List.mem_append.1 hm).elim (not_mem_ofList (by decide)) (not_mem_ofList (by decide))
        simp only [navigationLayout, List.cons_append, List.nil_append, List.forall_mem_cons,
          List.not_mem_nil, false_implies, implies_true, and_true]
        and_intros <;>
          first
          | exact .inl (not_mem_ofList (by decide))
          | exact .inr (not_mem_ofList (by decide))
          | exact .inl hmarker
      exact not_link_of_not_mem (hsigns l hm) h
    simp only [HubLayout.lines, HubLayout.rest, List.mem_append, List.mem_cons, List.mem_map,
      List.mem_flatMap, not_or] at hl hfixed
    rcases hl with (hl | ⟨x, hx, rfl⟩) | hl | hl | ⟨r', hr', hl⟩ | hl
    · exact absurd hl hfixed.1.1
    · obtain ⟨r', hr', hneeds⟩ := ha.needed x hx
      have hword := isWord_of_needs_navigationLayout (hrs r' hr') hneeds
      refine absurd h (not_link_of_not_mem (.inl ?_))
      have : .scalar '\'' ∉ x.1 := hword.not_mem (by decide)
      simpa [navigationLayout, ofString] using this
    · exact absurd hl hfixed.1.2
    · exact absurd hl hfixed.2.1
    · rw [eq_of_link_navigationLines hr (hrs r' hr') hl h]
      exact List.mem_map_of_mem hr'
    · exact absurd hl hfixed.2.2
  · intro h
    obtain ⟨r', hr', hkey⟩ := List.mem_map.1 h
    have hlists : navigationLayout.hub.isRegistered r' (navigationLayout.text added rs) = true :=
      isRegistered_navigation (hrs r' hr').hasInlineNames (hsound.liesBelow hr')
    rwa [hprobe, link, hkey, ← link, ← hprobe] at hlists

/-! ### What the navigation imports -/

/-- What stands in front of the closing brace does not matter for what follows it. -/
theorem closesFrom_append_left {v : Text} (hv : .scalar '\x7d' ∉ v) (source? : Option Text)
    (t : Text) : closesFrom source? (v ++ t) = closesFrom source? t := by
  have hdrop : (v ++ t).dropWhile (!isClosing ·) = t.dropWhile (!isClosing ·) :=
    List.dropWhile_append_of_pos fun c hc => by
      simpa [isClosing] using fun h : c = .scalar '\x7d' => hv (h ▸ hc)
  rw [closesFrom, closesFrom, hdrop]

/-- The brace of an import is followed by its source. -/
theorem closesFrom_append {v : Text} (hv : .scalar '\x7d' ∉ v) (rest : Text) :
    closesFrom (some "lucide-react") (v ++ ("\x7d from 'lucide-react'" ++ rest)) = true := by
  rw [closesFrom_append_left hv]
  rfl

/-- Every icon that the navigation imports is found. -/
theorem imports_navigationLayout (hrs : ∀ r ∈ rs, r.IsWordy) {seen : List Resource}
    (hseen : ∀ r ∈ seen, r.IsWordy) (ha : navigationLayout.Imports seen added) {name : Text}
    (h : name ∈ navigationLayout.imported ++ added.map Prod.fst) :
    imports name (some "lucide-react") (navigationLayout.text added rs) = true := by
  have hsound := isSound_navigationLayout
  obtain ⟨tail, htail⟩ : ∃ tail, navigationLayout.rest rs =
    ofString "\x7d from 'lucide-react'" :: tail := ⟨_, rfl⟩
  have htext : navigationLayout.text added rs = unlines [heading, ""] ++ ("import \x7b" ++
      ("\n  type LucideIcon,\n" ++ (unlines (added.map navigationLayout.importLine) ++
        ("\x7d from 'lucide-react'" ++ newline :: unlines tail)))) := by
    rw [hsound.text_eq hrs, HubLayout.lines, htail]
    simp [navigationLayout, unlines_append, unlines_cons, ofString]
  have hbrace : ∀ added' : List (Text × Text), (∀ x ∈ added', x ∈ added) →
      .scalar '\x7d' ∉ unlines (added'.map navigationLayout.importLine) := by
    intro added' hsub
    refine not_mem_unlines (by decide) fun l hl => ?_
    obtain ⟨x, hx, rfl⟩ := List.mem_map.1 hl
    obtain ⟨r, hr, hneeds⟩ := ha.needed x (hsub x hx)
    have : .scalar '\x7d' ∉ x.1 :=
      (isWord_of_needs_navigationLayout (hseen r hr) hneeds).not_mem (by decide)
    simpa [navigationLayout, ofString] using this
  rw [htext]
  rcases List.mem_append.1 h with h | h
  · obtain rfl := List.mem_singleton.1 h
    have hsplit : ∀ t : Text, "\n  type LucideIcon,\n" ++ t =
        "\n  type " ++ ("LucideIcon" ++ (ofString ",\n" ++ t)) := fun t => by simp [ofString]
    rw [hsplit]
    refine imports_of_brace (isClosed_unlines _) rfl (by decide) (by decide) rfl rfl ?_
    rw [← List.append_assoc]
    refine closesFrom_append (fun hm => ?_) _
    exact (List.mem_append.1 hm).elim (by decide) (hbrace added fun _ hx => hx)
  · obtain ⟨x, hx, rfl⟩ := List.mem_map.1 h
    obtain ⟨added₁, added₂, rfl⟩ := List.append_of_mem hx
    obtain ⟨r, hr, hneeds⟩ := ha.needed x hx
    have hword := isWord_of_needs_navigationLayout (hseen r hr) hneeds
    have hsplit : ∀ t : Text, "\n  type LucideIcon,\n" ++
        (unlines ((added₁ ++ x :: added₂).map navigationLayout.importLine) ++ t) =
        ("\n  type LucideIcon,\n" ++ unlines (added₁.map navigationLayout.importLine) ++ "  ") ++
          (x.1 ++ ((ofString ",\n" ++ unlines (added₂.map navigationLayout.importLine)) ++ t)) := by
      intro t
      simp [navigationLayout, unlines_append, unlines_cons, ofString]
    rw [hsplit]
    refine imports_of_brace (isClosed_unlines _) rfl (fun c hc => ?_) hword.isWhole ?_ rfl ?_
    · have hmem : .scalar '\x7d' ∉ ofString "\n  type LucideIcon,\n" ++
          unlines (added₁.map navigationLayout.importLine) ++ "  " := fun hm => by
        rcases List.mem_append.1 hm with hm | hm
        · exact (List.mem_append.1 hm).elim (by decide) (hbrace added₁ fun _ hx => by simp [hx])
        · exact absurd hm (by decide)
      simpa [isClosing] using fun h : c = .scalar '\x7d' => hmem (h ▸ hc)
    · rw [List.getLast?_append]
      rfl
    · refine closesFrom_append (fun hm => ?_) _
      exact (List.mem_append.1 hm).elim (by decide) (hbrace added₂ fun _ hx => by simp [hx])

theorem isIconImportEnd_eq_false {l : Text} (h : l.head? ≠ some (.scalar '\x7d')) :
    isIconImportEnd l = false := by
  rw [Bool.eq_false_iff, ne_eq, isIconImportEnd, startsWith_iff]
  rintro ⟨rest, rfl⟩
  exact h rfl

/-- An icon goes at the end of the icons. -/
theorem place?_navigationLayout {rule : ReferenceLine} (hp : rule.position = .aboveFirst)
    (hanchor : rule.isAnchor = isIconImportEnd) (hrs : ∀ r ∈ rs, r.IsWordy) {seen : List Resource}
    (hseen : ∀ r ∈ seen, r.IsWordy) (ha : navigationLayout.Imports seen added) :
    rule.place? (unlines (navigationLayout.lines added rs)).lines =
      some (navigationLayout.front.length + added.length) := by
  have hsound := isSound_navigationLayout
  have hinline : ∀ l ∈ navigationLayout.lines added rs, l.IsInline := fun l hl =>
    (hsound.isPlainLine hrs hseen ha l hl).1
  obtain ⟨tail, htail⟩ : ∃ tail, navigationLayout.rest rs =
    ofString "\x7d from 'lucide-react'" :: tail := ⟨_, rfl⟩
  have habove : ∀ l ∈ navigationLayout.front ++ added.map navigationLayout.importLine,
      isIconImportEnd l = false := by
    intro l hl
    refine isIconImportEnd_eq_false ?_
    have hfront : ∀ l ∈ navigationLayout.front, l.head? ≠ some (.scalar '\x7d') := by
      simp only [navigationLayout, List.forall_mem_cons, List.not_mem_nil, false_implies,
        implies_true, and_true]
      and_intros <;> exact head?_ofList_ne (by decide)
    rcases List.mem_append.1 hl with hl | hl
    · exact hfront l hl
    · obtain ⟨x, -, rfl⟩ := List.mem_map.1 hl
      have hindent : (navigationLayout.importLine x).head? = some (.scalar ' ') := rfl
      rw [hindent]
      decide
  have hfirst : firstLine? isIconImportEnd (unlines (navigationLayout.lines added rs)).lines =
      some (navigationLayout.front.length + added.length) := by
    rw [firstLine?_unlines hinline, HubLayout.lines, htail,
      findIdx?_append_cons habove (startsWith_iff.2 List.prefix_rfl), List.length_append,
      List.length_map]
  rw [ReferenceLine.place?, hp, hanchor]
  simp only [hfirst]

theorem refers_navigationLayout (hrs : ∀ r ∈ rs, r.IsWordy) {seen : List Resource}
    (hseen : ∀ r ∈ seen, r.IsWordy) (ha : navigationLayout.Imports seen added) (hr : r ∈ seen)
    {rule : ReferenceLine} (hrule : (navigation .standard).references = [rule]) :
    ∃ added', navigationLayout.Imports seen added' ∧
      (navigationLayout.hub.refer r .lineFeed (navigationLayout.text added rs) rule).1 =
        navigationLayout.text added' rs := by
  have hsound := isSound_navigationLayout
  have hrule := (List.singleton_inj.1 hrule).symm
  have hprobe : ∀ t, rule.isThere r t =
      imports (iconOf .standard r) (some "lucide-react") t := fun t => by
    rw [hrule]
  obtain ⟨added', ha', -, h⟩ := hsound.refer_text rule
    (x := (iconOf .standard r, "lucide-react")) hrs hseen ha hr fun _ => by
      refine ⟨List.mem_singleton_self _, ?_, ⟨added.length, le_rfl, ?_⟩, fun hm => ?_⟩
      · rw [hrule]
        rfl
      · exact place?_navigationLayout (by rw [hrule]) (by rw [hrule]) hrs hseen ha
      · rw [hprobe]
        exact imports_navigationLayout hrs hseen ha hm
  exact ⟨added', ha', h⟩

theorem keepsLedger_navigationLayout : navigationLayout.KeepsLedger Resource.IsWordy where
  toIsSound := isSound_navigationLayout
  registered added rs r ha hrs hr := registered_navigationLayout hrs ha hr
  refers added rs r ha hrs hr _ := by
    have hseen : ∀ r' ∈ r :: rs, r'.IsWordy := List.forall_mem_cons.2 ⟨hr, hrs⟩
    obtain ⟨rule, hrule⟩ : ∃ rule, (navigation .standard).references = [rule] := ⟨_, rfl⟩
    obtain ⟨added', ha', h⟩ :=
      refers_navigationLayout hrs hseen (ha.cons r) List.mem_cons_self hrule
    have hreferences : navigationLayout.hub.references = [rule] := hrule
    exact ⟨added', ha', by rw [hreferences, referAll_cons, referAll_nil, h]⟩

/-! ### All hubs -/

/-- The layouts of the standard hubs. -/
def layouts : List HubLayout :=
  [schemasLayout, collectionsLayout, registryLayout, clientLayout, navigationLayout]

theorem map_hub_layouts : layouts.map HubLayout.hub = standard .standard := rfl

/-- **The standard hubs are ledgers.** -/
theorem keepsLedger_layouts : ∀ L ∈ layouts, L.KeepsLedger Resource.IsWordy ∧ L.imported.Nodup := by
  intro L hL
  simp only [layouts, List.mem_cons, List.not_mem_nil, or_false] at hL
  rcases hL with rfl | rfl | rfl | rfl | rfl
  · exact ⟨keepsLedger_schemasLayout, List.nodup_nil⟩
  · exact ⟨keepsLedger_collectionsLayout, List.nodup_nil⟩
  · exact ⟨keepsLedger_registryLayout.mono fun _ hr => hr.hasWords, by simp [registryLayout]⟩
  · exact ⟨keepsLedger_clientLayout, by decide⟩
  · exact ⟨keepsLedger_navigationLayout, by simp [navigationLayout]⟩

end Hub

end Scaffold
