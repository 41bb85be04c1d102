import Scaffold.Proofs.Hub.Importing

/-!
# What the entries of the registry are bound to

The registry imports a name from one source only, and the probe tells which
(`Hub.imports_registryLayout_iff`): it is the source of whatever needed the name first
(`Hub.carries_isFirsts`).  An entry names the variable of its schema; unless something else in the
registry has the name of that variable, it is imported from the schema of the entry and from nowhere
else (`Hub.imports_varName_iff`).
-/

namespace Scaffold

open CodePoint

theorem Text.IsWord.append_ne_cons {w t u : Text} {c : CodePoint} (hw : w.IsWord)
    (hc : c.isWordLetter = false) : w ++ t ≠ c :: u := by
  obtain ⟨d, v, rfl, hd⟩ := hw.exists_cons
  intro h
  rw [(List.cons.inj h).1, hc] at hd
  cases hd

namespace Probe

open Text

variable {name w source rest s t u : Text} {before : Option CodePoint} {source? : Option Text}

/-- A word that is dropped has no word before it and none behind it. -/
theorem not_isWordPart_of_dropWord? (hw : w.IsWord) (h : dropWord? w before (w ++ t) = some rest) :
    before.any isWordPart = false ∧ t.head?.any isWordPart = false := by
  obtain ⟨c, v, hcv, hc⟩ := hw.exists_cons
  obtain ⟨v', c', hcv', hc'⟩ := hw.exists_concat
  have hhead : (w ++ t).head? = some c := by rw [hcv]; rfl
  have hlast : w.getLast? = some c' := by rw [hcv', List.getLast?_concat]
  rw [dropWord?, hhead, dropStart?_append] at h
  simp only [hlast, Option.some_or, wordBoundary, Option.any_some,
    isWordPart_of_isWordLetter hc, isWordPart_of_isWordLetter hc'] at h
  constructor
  · cases hb : before.any isWordPart with
    | false => rfl
    | true => simp [hb] at h
  · cases ht : t.head?.any isWordPart with
    | false => rfl
    | true => simp [ht] at h

theorem endsWord_of_not_isWordPart (h : t.head?.any isWordPart = false) : t.EndsWord := by
  intro c hc
  rw [Option.mem_def.1 hc, Option.any_some] at h
  rw [Bool.eq_false_iff]
  intro hletter
  rw [isWordPart_of_isWordLetter hletter] at h
  cases h

/-- The only name between the braces of an import is the one that stands there. -/
theorem eq_of_brace (hn : name.IsWord) (hw : w.IsWord)
    (h : s ++ (name ++ u) = " " ++ (w ++ (" \x7d" ++ t))) (hs : ∀ c ∈ s, isClosing c = false)
    (hbefore : (s.getLast?.or before).any isWordPart = false) (hafter : u.EndsWord) :
    name = w ∧ u = " \x7d" ++ t := by
  cases s with
  | nil => exact absurd h (hn.append_ne_cons (by decide))
  | cons d s =>
    have h : s ++ (name ++ u) = w ++ (" \x7d" ++ t) := (List.cons.inj h).2
    rcases List.append_eq_append_iff.1 h with ⟨x, rfl, hx⟩ | ⟨x, rfl, hx⟩
    · -- the name begins in the word, so it begins with the word
      rcases List.eq_nil_or_concat' s with rfl | ⟨s', e, rfl⟩
      · rw [List.nil_append] at hw
        rw [List.nil_append]
        exact eq_of_word_append hn hw hafter (by rintro c ⟨⟩; decide) hx
      · have he : isWordLetter e = true := hw.2 e (by simp)
        have hlast : (d :: (s' ++ [e])).getLast? = some e := by
          rw [← List.cons_append, List.getLast?_concat]
        rw [hlast, Option.some_or, Option.any_some, isWordPart_of_isWordLetter he] at hbefore
        cases hbefore
    · -- the name begins behind the word, where no letter stands before the brace
      cases x with
      | nil => exact absurd hx.symm (hn.append_ne_cons (by decide))
      | cons e x =>
        have hx : .scalar '\x7d' :: t = x ++ (name ++ u) := (List.cons.inj hx).2
        cases x with
        | nil => exact absurd hx.symm (hn.append_ne_cons (by decide))
        | cons f x =>
          have hf := hs f (by simp)
          rw [← (List.cons.inj hx).1] at hf
          cases hf

/-- Behind the brace of an import stands its source. -/
theorem closesFrom_iff (hm : ∀ m ∈ source?, .scalar '\'' ∉ m) (hsource : .scalar '\'' ∉ source) :
    closesFrom source? (" \x7d" ++ (" from '" ++ (source ++ ("'" ++ rest)))) = true ↔
      ∀ m ∈ source?, m = source := by
  cases source? with
  | none => exact ⟨nofun, fun _ => rfl⟩
  | some m =>
    have hstarts : closesFrom (some m) (" \x7d" ++ (" from '" ++ (source ++ ("'" ++ rest)))) =
        startsWith ("'" ++ (source ++ ("'" ++ rest))) ("'" ++ m ++ "'") := rfl
    rw [hstarts, startsWith_iff]
    constructor
    · rintro ⟨v, h⟩ n hn
      obtain rfl := Option.some.inj hn
      have h : m ++ CodePoint.scalar '\'' :: v = source ++ CodePoint.scalar '\'' :: rest := by
        simpa [ofString] using h
      rcases append_cons_eq_append_cons (Q := (· = CodePoint.scalar '\''))
        (fun c hc he => hsource (he ▸ hc)) rfl h with ⟨h, -, -⟩ | ⟨u, h, -⟩
      · exact h
      · exact absurd (by simp [h]) (hm m rfl)
    · intro h
      rw [h m rfl]
      exact ⟨rest, by simp⟩

/-- What an import on one line imports. -/
theorem anyUpTo_named_iff (hn : name.IsWord) (hw : w.IsWord)
    (hm : ∀ m ∈ source?, .scalar '\'' ∉ m) (hsource : .scalar '\'' ∉ source) :
    anyUpTo isClosing (fun before t => match dropWord? name before t with
      | some rest => closesFrom source? rest
      | none => false) (some (.scalar '\x7b'))
      (" " ++ (w ++ (" \x7d" ++ (" from '" ++ (source ++ ("'" ++ rest)))))) = true ↔
      name = w ∧ ∀ m ∈ source?, m = source := by
  constructor
  · intro h
    obtain ⟨s, u, hsu, hs, hu⟩ := exists_of_anyUpTo h
    split at hu
    · rename_i v hdrop
      obtain rfl := eq_of_dropWord? hdrop
      obtain ⟨hbefore, hafter⟩ := not_isWordPart_of_dropWord? hn hdrop
      obtain ⟨rfl, rfl⟩ := eq_of_brace hn hw hsu.symm hs hbefore (endsWord_of_not_isWordPart hafter)
      exact ⟨rfl, (closesFrom_iff hm hsource).1 hu⟩
    · cases hu
  · rintro ⟨rfl, hs⟩
    refine anyUpTo_append (s := " ") (by decide) ?_
    rw [dropWord?_whole_append hn.isWhole rfl rfl]
    exact (closesFrom_iff hm hsource).2 hs

/-- The line imports the name `x.1` from the source `x.2`, and no other name. -/
def ImportsOne (x : Text × Text) (l : Text) : Prop :=
  ∀ rest, importBrace? (l ++ newline :: rest) =
    some (" " ++ (x.1 ++ (" \x7d" ++ (" from '" ++ (x.2 ++ ("'" ++ newline :: rest))))))

theorem importBrace?_eq_none (h : s.head? ≠ some (.scalar 'i')) :
    importBrace? (s ++ newline :: rest) = none := by
  have hdrop : dropStart? "import" (s ++ newline :: rest) = none := by
    refine Option.eq_none_iff_forall_ne_some.2 fun u hu => h ?_
    have he := dropStart?_eq_some_iff.1 hu
    cases s with
    | nil => cases (List.cons.inj he).1
    | cons c s => exact congrArg some (List.cons.inj he).1
  rw [importBrace?, hdrop]
  rfl

/-- What lines import, if each of them imports one name or does not look like an import. -/
theorem imports_unlines_iff {ls : List Text} {xs : List (Text × Text)} (hl : ∀ l ∈ ls, l.IsInline)
    (hxs : ∀ x ∈ xs, x.1.IsWord ∧ .scalar '\'' ∉ x.2 ∧ ∃ l ∈ ls, ImportsOne x l)
    (hls : ∀ l ∈ ls, l.head? ≠ some (.scalar 'i') ∨ ∃ x ∈ xs, ImportsOne x l) (hn : name.IsWord)
    (hm : ∀ m ∈ source?, .scalar '\'' ∉ m) :
    imports name source? (unlines ls) = true ↔ ∃ x ∈ xs, name = x.1 ∧ ∀ m ∈ source?, m = x.2 := by
  constructor
  · intro h
    rcases exists_of_anyLine_unlines hl h with h | ⟨l, hmem, rest, h⟩
    · cases h
    · rcases hls l hmem with hhead | ⟨x, hx, hline⟩
      · rw [importBrace?_eq_none hhead] at h
        cases h
      · obtain ⟨hword, hsource, -⟩ := hxs x hx
        rw [hline rest] at h
        exact ⟨x, hx, (anyUpTo_named_iff hn hword hm hsource).1 h⟩
  · rintro ⟨x, hx, hname⟩
    obtain ⟨hword, hsource, l, hmem, hline⟩ := hxs x hx
    obtain ⟨ls₁, ls₂, rfl⟩ := List.append_of_mem hmem
    rw [unlines_append, unlines_cons]
    refine anyLine_eq_true.2 ⟨_, _, isClosed_unlines ls₁, rfl, ?_⟩
    rw [hline]
    exact (anyUpTo_named_iff hn hword hm hsource).2 hname

end Probe

namespace Hub

open Text Probe

variable {r : Resource} {rs seen : List Resource} {added : List (Text × Text)} {x : Text × Text}
  {name : Text} {source? : Option Text}

/-! ### What the registry imports -/

theorem importsOne_importOf (x : Text × Text) : ImportsOne x (importOf x) := by
  intro rest
  have hline : importOf x ++ newline :: rest = "import \x7b" ++
      (" " ++ (x.1 ++ (" \x7d" ++ (" from '" ++ (x.2 ++ ("'" ++ newline :: rest)))))) := by
    simp [importOf, ofString]
  rw [hline]
  rfl

/-- The schema of a resource, as the registry imports it. -/
def schemaOf (r : Resource) : Text := "@/schemas/" ++ r.name ++ ".schema"

/-- What an entry of the registry needs is the variable of its schema or a collection. -/
theorem mem_needs_registryLayout (hx : x ∈ registryLayout.needs r) :
    x = (r.varName, schemaOf r) ∨
      r.isParquet = false ∧ x = (r.collectionName, ("@/collections" : Text)) := by
  simp only [registryLayout, List.mem_cons] at hx
  refine hx.imp_right fun hx => ?_
  split at hx
  · cases hx
  · rename_i hparquet
    exact ⟨by simpa using hparquet, List.mem_singleton.1 hx⟩

theorem quote_not_mem_source (hr : r.HasWords) (hx : x ∈ registryLayout.needs r) :
    .scalar '\'' ∉ x.2 := by
  rcases mem_needs_registryLayout hx with rfl | ⟨-, rfl⟩
  · simp only [schemaOf, List.mem_append, not_or]
    exact ⟨⟨by decide, hr.name.not_mem (by decide)⟩, by decide⟩
  · exact (by decide : CodePoint.scalar '\'' ∉ ofString "@/collections")

/-- The names that the registry imports, with their sources: the one of the skeleton first. -/
def registryImports (added : List (Text × Text)) : List (Text × Text) :=
  ("ResourceConfig", "@/schemas/_resource.schema") :: added

/-- **The probe finds what the registry imports**, and tells one source from another. -/
theorem imports_registryLayout_iff (hrs : ∀ r ∈ rs, r.IsWordy) (hseen : ∀ r ∈ seen, r.IsWordy)
    (ha : registryLayout.Imports seen added) (hn : name.IsWord)
    (hm : ∀ m ∈ source?, .scalar '\'' ∉ m) :
    imports name source? (registryLayout.text added rs) = true ↔
      ∃ x ∈ registryImports added, name = x.1 ∧ ∀ m ∈ source?, m = x.2 := by
  have hsound := isSound_registryLayout
  replace hrs : ∀ r ∈ rs, r.HasWords := fun r hr => (hrs r hr).hasWords
  replace hseen : ∀ r ∈ seen, r.HasWords := fun r hr => (hseen r hr).hasWords
  let typeImport : Text := "import type \x7b ResourceConfig \x7d from '@/schemas/_resource.schema'"
  have htype : ImportsOne ("ResourceConfig", "@/schemas/_resource.schema") typeImport := by
    intro rest
    have hline : typeImport ++ newline :: rest = "import type \x7b" ++ (" " ++ ("ResourceConfig" ++
        (" \x7d" ++ (" from '" ++ ("@/schemas/_resource.schema" ++
          ("'" ++ newline :: rest)))))) := by
      simp [typeImport, ofString]
    rw [hline]
    rfl
  have hlines : registryLayout.lines added rs =
      heading :: "" :: typeImport :: (added.map importOf ++ registryLayout.rest rs) := rfl
  rw [hsound.text_eq hrs]
  refine imports_unlines_iff (fun l hl => (hsound.isPlainLine hrs hseen ha l hl).1) ?_ ?_ hn hm
  · rw [hlines]
    refine List.forall_mem_cons.2 ⟨⟨by decide, by decide, typeImport, by simp, htype⟩, ?_⟩
    intro x hx
    obtain ⟨r, hr, hneeds⟩ := ha.needed x hx
    refine ⟨(needs_registryLayout (hseen r hr) hneeds).1, quote_not_mem_source (hseen r hr) hneeds,
      importOf x, ?_, importsOne_importOf x⟩
    · simp only [List.mem_cons, List.mem_append]
      exact .inr (.inr (.inr (.inl (List.mem_map_of_mem hx))))
  · rw [hlines]
    intro l hl
    simp only [List.mem_cons, List.mem_append, List.mem_map] at hl
    rcases hl with rfl | rfl | rfl | ⟨x, hx, rfl⟩ | hl
    · exact .inl (by decide)
    · exact .inl (by decide)
    · exact .inr ⟨_, List.mem_cons_self, htype⟩
    · exact .inr ⟨x, List.mem_cons_of_mem _ hx, importsOne_importOf x⟩
    · exact .inl (rest_registryLayout hrs l hl).2

/-- An entry is in the text of its hub. -/
theorem entry_infix_text {L : HubLayout} (hr : r ∈ rs) : L.hub.entry r <:+: L.text added rs := by
  have hmem : L.hub.entry r ∈ L.front ++ added.map L.importLine ++ L.back ++
      L.markerLine :: rs.map L.hub.entry ++ L.below := by
    simp only [List.mem_append, List.mem_cons]
    exact .inl (.inr (.inr (List.mem_map_of_mem hr)))
  obtain ⟨above, rest, -, htext⟩ := exists_of_mem_unlines hmem
  exact ⟨above, newline :: rest, by rw [HubLayout.text, htext, List.append_assoc]⟩

/-! ### First come, first served -/

/-- The list `xs` has the first one of each name in `ls`. -/
def IsFirsts (ls xs : List (Text × Text)) : Prop :=
  ∀ x, x ∈ xs ↔ ls.find? (·.1 = x.1) = some x

/-- A name that comes later is added if there is none like it. -/
theorem IsFirsts.concat {ls xs xs' : List (Text × Text)} (h : IsFirsts ls xs)
    (hxs' : ∀ y, y ∈ xs' ↔ y ∈ xs ∨ y = x ∧ ∀ z ∈ xs, x.1 ≠ z.1) :
    IsFirsts (ls ++ [x]) xs' := by
  have hnew : (∀ z ∈ xs, x.1 ≠ z.1) ↔ ls.find? (·.1 = x.1) = none := by
    constructor
    · intro hxs
      refine Option.eq_none_iff_forall_ne_some.2 fun z hz => ?_
      have hname : z.1 = x.1 := by simpa using List.find?_some hz
      rw [← hname] at hz
      exact hxs z ((h z).2 hz) hname.symm
    · intro hls z hz hname
      have hz := (h z).1 hz
      rw [← hname, hls] at hz
      cases hz
  intro y
  rw [hxs', h, hnew, List.find?_append]
  cases hfind : ls.find? (·.1 = y.1) with
  | some z =>
    simp only [Option.some_or, or_iff_left_iff_imp]
    rintro ⟨rfl, hnone⟩
    rw [hnone] at hfind
    cases hfind
  | none =>
    simp only [Option.none_or, reduceCtorEq, false_or, List.find?_singleton]
    constructor
    · rintro ⟨rfl, -⟩
      simp
    · intro hy
      split at hy
      · obtain rfl := Option.some.inj hy
        exact ⟨rfl, hfind⟩
      · cases hy

/-- What the resources need, those registered first coming first: the name of the skeleton, and then
the names that entries need. -/
def neededInOrder (listed : List Resource) : List (Text × Text) :=
  registryImports (listed.reverse.flatMap registryLayout.needs)

theorem isFirsts_skeleton : IsFirsts (neededInOrder []) (registryImports []) := by
  intro x
  change x ∈ [_] ↔ List.find? _ [_] = some x
  rw [List.mem_singleton, List.find?_singleton]
  constructor
  · rintro rfl
    simp
  · intro h
    split at h
    · exact (Option.some.inj h).symm
    · cases h

theorem imports_none_eq_false_iff (hrs : ∀ r ∈ rs, r.IsWordy) (hseen : ∀ r ∈ seen, r.IsWordy)
    (ha : registryLayout.Imports seen added) (hn : name.IsWord) :
    imports name none (registryLayout.text added rs) = false ↔
      ∀ z ∈ registryImports added, name ≠ z.1 := by
  rw [Bool.eq_false_iff, ne_eq, imports_registryLayout_iff hrs hseen ha hn (by simp)]
  constructor
  · exact fun h z hz hname => h ⟨z, hz, hname, by simp⟩
  · rintro h ⟨z, hz, hname, -⟩
    exact h z hz hname

/-- **First come, first served**: the registry imports each name from the source of whatever needed
it first. -/
theorem carries_isFirsts : registryLayout.Carries Resource.IsWordy fun listed added =>
    IsFirsts (neededInOrder listed) (registryImports added) := by
  intro added listed r ha hfirsts hlisted hr _ _
  have hseen : ∀ r' ∈ r :: listed, r'.IsWordy := List.forall_mem_cons.2 ⟨hr, hlisted⟩
  have hneeded : neededInOrder (r :: listed) = neededInOrder listed ++ [(r.varName, schemaOf r)] ++
      if r.isParquet then [] else [(r.collectionName, ("@/collections" : Text))] := by
    simp only [neededInOrder, registryImports, List.reverse_cons, List.flatMap_append,
      List.flatMap_singleton, List.cons_append, List.append_assoc]
    rfl
  have hlistedWords : ∀ r ∈ listed, r.HasWords := fun r hr => (hlisted r hr).hasWords
  have hseenWords : ∀ r' ∈ r :: listed, r'.HasWords := fun r hr => (hseen r hr).hasWords
  obtain ⟨added₁, ha₁, hmem₁, h₁⟩ :=
    refers_schemaImport hlistedWords hseenWords (ha.cons r) List.mem_cons_self
  obtain ⟨added₂, ha₂, hmem₂, h₂⟩ :=
    refers_collectionImport hlistedWords hseenWords ha₁ List.mem_cons_self rfl
  have hfirsts₁ : IsFirsts (neededInOrder listed ++ [(r.varName, schemaOf r)])
      (registryImports added₁) := by
    refine hfirsts.concat fun y => ?_
    rw [← imports_none_eq_false_iff hlisted hlisted ha hr.varName, registryImports, registryImports,
      List.mem_cons, List.mem_cons, hmem₁, or_assoc]
    rfl
  refine ⟨added₂, ha₂, ?_,
    by rw [references_registryLayout, referAll_cons, referAll_cons, referAll_nil, h₁, h₂]⟩
  simp only [hneeded]
  cases hparquet : r.isParquet with
  | true =>
    intro y
    rw [if_pos rfl, List.append_nil, ← hfirsts₁ y, registryImports, registryImports, List.mem_cons,
      List.mem_cons, hmem₂]
    simp [hparquet]
  | false =>
    refine hfirsts₁.concat fun y => ?_
    rw [← imports_none_eq_false_iff hlisted hseen ha₁ hr.collectionName, registryImports,
      registryImports, List.mem_cons, List.mem_cons, hmem₂, or_assoc]
    simp [hparquet]

/-- Which source a name is imported from. -/
theorem imports_iff_of_isFirsts (hrs : ∀ r ∈ rs, r.IsWordy)
    (ha : registryLayout.Imports rs added)
    (hfirsts : IsFirsts (neededInOrder rs) (registryImports added)) (hn : name.IsWord) {m : Text}
    (hm : .scalar '\'' ∉ m) :
    imports name (some m) (registryLayout.text added rs) = true ↔
      (neededInOrder rs).find? (·.1 = name) = some (name, m) := by
  rw [imports_registryLayout_iff hrs hrs ha hn (by simpa using hm)]
  constructor
  · rintro ⟨⟨_, m'⟩, hx, rfl, hsource⟩
    obtain rfl := hsource m rfl
    exact (hfirsts _).1 hx
  · intro h
    exact ⟨(name, m), (hfirsts _).2 h, rfl, by simp⟩

/-! ### What an entry is bound to -/

/-- Nothing else in the registry has the name of the variable of a resource. -/
structure HaveOwnVariables (rs : List Resource) : Prop where
  /-- The type that the skeleton imports has another name. -/
  type : ∀ r ∈ rs, r.varName ≠ "ResourceConfig"
  /-- A variable belongs to one resource. -/
  schema : ∀ r ∈ rs, ∀ r' ∈ rs, r.varName = r'.varName → r.name = r'.name
  /-- The collections have other names. -/
  collection : ∀ r ∈ rs, ∀ r' ∈ rs, r'.isParquet = false → r.varName ≠ r'.collectionName

/-- A variable is needed from one source only. -/
theorem HaveOwnVariables.find?_neededInOrder (hown : HaveOwnVariables rs) (hseen : seen ⊆ rs)
    (hr : r ∈ seen) :
    (neededInOrder seen).find? (·.1 = r.varName) = some (r.varName, schemaOf r) := by
  have hmem : (r.varName, schemaOf r) ∈ neededInOrder seen := by
    refine List.mem_cons_of_mem _ (List.mem_flatMap.2 ⟨r, List.mem_reverse.2 hr, ?_⟩)
    exact List.mem_cons_self
  have hunique : ∀ x ∈ neededInOrder seen, x.1 = r.varName → x = (r.varName, schemaOf r) := by
    intro x hx hname
    rcases List.mem_cons.1 hx with rfl | hx
    · exact absurd hname.symm (hown.type r (hseen hr))
    · obtain ⟨r', hr', hneeds⟩ := List.mem_flatMap.1 hx
      have hr' := hseen (List.mem_reverse.1 hr')
      rcases mem_needs_registryLayout hneeds with rfl | ⟨hparquet, rfl⟩
      · have hsame := hown.schema r (hseen hr) r' hr' hname.symm
        exact Prod.ext hname (by rw [schemaOf, schemaOf, hsame])
      · exact absurd hname.symm (hown.collection r (hseen hr) r' hr' hparquet)
  cases hfind : (neededInOrder seen).find? (·.1 = r.varName) with
  | none => simpa using List.find?_eq_none.1 hfind _ hmem
  | some x =>
    have hname : x.1 = r.varName := by simpa using List.find?_some hfind
    rw [hunique x (List.mem_of_find?_eq_some hfind) hname]

/-- The variable of an entry is imported from the schema of the entry and from nowhere else. -/
theorem imports_varName_iff (hown : HaveOwnVariables rs) (hrs : ∀ r ∈ rs, r.IsWordy)
    (hseen : seen ⊆ rs) (ha : registryLayout.Imports seen added)
    (hfirsts : IsFirsts (neededInOrder seen) (registryImports added)) (hr : r ∈ seen) {m : Text}
    (hm : .scalar '\'' ∉ m) :
    imports r.varName (some m) (registryLayout.text added seen) = true ↔ m = schemaOf r := by
  rw [imports_iff_of_isFirsts (fun r hr => hrs r (hseen hr)) ha hfirsts
    (hrs r (hseen hr)).varName hm, hown.find?_neededInOrder hseen hr]
  simp [eq_comm]

end Hub

end Scaffold
