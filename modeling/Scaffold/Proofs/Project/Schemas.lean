import Mathlib.Data.List.Nodup
import Scaffold.Proofs.Project.Discovery
import Scaffold.Proofs.Project.Twins

/-!
# The schema files of a project

With the standard settings the schema files of a project are those in one directory whose names end
with the suffix, each of them once, in the order of their names (`discover_standard`).  A project
without one of them has the others, in the same order (`discover_erase`).
-/

namespace Scaffold

/-! ### The order of texts -/

namespace CodePoint

theorem toNat_injective : Function.Injective toNat := by
  have hrange (c : Char) : c.toNat < 0xD800 ∨ 0xDFFF < c.toNat :=
    c.valid.imp id And.left
  intro c d h
  cases c with
  | scalar c =>
    cases d with
    | scalar d => exact congrArg scalar (Char.toNat_inj.1 h)
    | surrogate v =>
      have := hrange c
      simp only [toNat] at h
      omega
  | surrogate u =>
    cases d with
    | scalar d =>
      have := hrange d
      simp only [toNat] at h
      omega
    | surrogate v =>
      simp only [toNat] at h
      exact congrArg surrogate (Fin.ext (by omega))

end CodePoint

namespace Text

theorem le_refl (t : Text) : le t t = true := by
  induction t with
  | nil => rfl
  | cons c t ih => simp [le, ih]

theorem le_trans {s t u : Text} (h : le s t = true) (h' : le t u = true) : le s u = true := by
  induction s generalizing t u with
  | nil => rfl
  | cons c s ih =>
    cases t with
    | nil => cases h
    | cons d t =>
      cases u with
      | nil => cases h'
      | cons e u =>
        simp only [le, Bool.or_eq_true, decide_eq_true_eq, Bool.and_eq_true, beq_iff_eq] at *
        rcases h with h | ⟨h, hs⟩ <;> rcases h' with h' | ⟨h', ht⟩
        · exact .inl (h.trans h')
        · exact .inl (h' ▸ h)
        · exact .inl (h ▸ h')
        · exact .inr ⟨h.trans h', ih hs ht⟩

theorem le_total (s t : Text) : (le s t || le t s) = true := by
  induction s generalizing t with
  | nil => rfl
  | cons c s ih =>
    cases t with
    | nil => rfl
    | cons d t =>
      have := ih t
      simp only [le, Bool.or_eq_true, decide_eq_true_eq, Bool.and_eq_true, beq_iff_eq] at *
      rcases Nat.lt_trichotomy c.toNat d.toNat with h | h | h
      · exact .inl (.inl h)
      · exact this.imp (fun hs => .inr ⟨h, hs⟩) fun ht => .inr ⟨h.symm, ht⟩
      · exact .inr (.inl h)

theorem le_antisymm {s t : Text} (h : le s t = true) (h' : le t s = true) : s = t := by
  induction s generalizing t with
  | nil =>
    cases t with
    | nil => rfl
    | cons d t => cases h'
  | cons c s ih =>
    cases t with
    | nil => cases h
    | cons d t =>
      simp only [le, Bool.or_eq_true, decide_eq_true_eq, Bool.and_eq_true, beq_iff_eq] at h h'
      rcases h with h | ⟨h, hs⟩
      · omega
      · rcases h' with h' | ⟨-, ht⟩
        · omega
        · rw [CodePoint.toNat_injective h, ih hs ht]

end Text

/-- The names in a directory without one of them are in the same order. -/
theorem filter_mergeSort (names : List Text) (keep : Text → Bool) :
    (names.mergeSort Text.le).filter keep = (names.filter keep).mergeSort Text.le := by
  have hsorted (l : List Text) : (l.mergeSort Text.le).Pairwise fun s t => Text.le s t = true :=
    @List.pairwise_mergeSort Text Text.le (fun _ _ _ => Text.le_trans) Text.le_total l
  refine List.Perm.eq_of_pairwise (fun _ _ _ _ => Text.le_antisymm) ((hsorted names).filter _)
    (hsorted _) ?_
  exact ((List.mergeSort_perm names Text.le).filter keep).trans
    (List.mergeSort_perm (names.filter keep) Text.le).symm

namespace Path

open Discovery

/-- Paths in one directory are in the order of their names. -/
theorem le_child (p : Path) (m n : Text) : le (child p m) (child p n) = Text.le m n := by
  have hnames : ∀ ns : List Text, leNames (ns ++ [m]) (ns ++ [n]) = Text.le m n := by
    intro ns
    induction ns with
    | nil =>
      rw [List.nil_append, List.nil_append, leNames]
      split
      · subst n
        exact (Text.le_refl m).symm
      · rfl
    | cons k ns ih => rw [List.cons_append, List.cons_append, leNames, if_pos rfl, ih]
  rw [le, if_pos (by rfl : (child p m).start = (child p n).start)]
  exact hnames p.names

theorem child_injective (p : Path) : Function.Injective (child p) := fun m n h => by
  rw [← Path.name_child p m, ← Path.name_child p n, h]

/-- A path from the top without `..` means its names. -/
theorem place_eq_names {path : Path} (habsolute : path.isAbsolute = true)
    (hup : ∀ name ∈ path.names, name ≠ Text.ofString "..") (here : Place) :
    path.place here = path.names := by
  rw [place, normal, if_pos habsolute]
  exact resolveNames_eq_append hup []

theorem mem_onWay_iff {path : Path} (habsolute : path.isAbsolute = true)
    (hup : ∀ name ∈ path.names, name ≠ Text.ofString "..") {here q : Place} :
    q ∈ path.onWay here ↔ q <+: path.names := by
  have hplace : ∀ ns, ns <+: path.names → (⟨path.start, ns⟩ : Path).place here = ns := by
    intro ns hns
    have habove : (⟨path.start, ns⟩ : Path).isAbsolute = true := habsolute
    exact place_eq_names habove (fun name hname => hup name (hns.subset hname)) here
  constructor
  · rintro ⟨ns, hns, rfl⟩
    rwa [hplace ns hns]
  · exact fun hq => ⟨q, hq, (hplace q hq).symm⟩

end Path

/-! ### Names in a directory -/

namespace Disk

variable {d : Disk} {p q : Place} {name : Text}

/-- The place is in the directory `p`, under this name. -/
def nameBelow (p q : Place) : Option Text := if q.dropLast = p then q.getLast? else none

theorem nameBelow_eq_some_iff : nameBelow p q = some name ↔ q = p ++ [name] := by
  rw [nameBelow]
  constructor
  · intro h
    split at h
    · subst p
      exact (List.dropLast_append_getLast? name h).symm
    · cases h
  · rintro rfl
    simp

theorem map_children (d : Disk) (p : Place) :
    (d.children p).map Prod.fst = (d.entries.map Prod.fst).filterMap (nameBelow p) := by
  rw [children, List.map_filterMap, List.filterMap_map]
  refine List.filterMap_congr fun x _ => ?_
  obtain ⟨q, e⟩ := x
  rw [Function.comp_apply, nameBelow]
  rcases List.eq_nil_or_concat' q with rfl | ⟨above, name, rfl⟩
  · simp
  · by_cases h : above = p <;> simp [h]

theorem nodup_children (h : (d.entries.map Prod.fst).Nodup) (p : Place) :
    ((d.children p).map Prod.fst).Nodup := by
  rw [map_children]
  refine List.Nodup.filterMap (fun q q' name hq hq' => ?_) h
  rw [nameBelow_eq_some_iff.1 hq, nameBelow_eq_some_iff.1 hq']

theorem mem_map_entries (hq : q ≠ []) : q ∈ d.entries.map Prod.fst ↔ ∃ e, d.find? q = some e := by
  constructor
  · intro h
    obtain ⟨x, hx, rfl⟩ := List.mem_map.1 h
    rw [find?, if_neg hq]
    cases hlookup : d.entries.lookup x.1 with
    | some e => exact ⟨e, rfl⟩
    | none =>
      have := List.lookup_eq_none_iff.1 hlookup x hx
      simp at this
  · rintro ⟨e, he⟩
    exact List.mem_map.2 ⟨_, mem_entries_of_find? he hq, rfl⟩

theorem mem_map_children : name ∈ (d.children p).map Prod.fst ↔
    ∃ e, d.find? (p ++ [name]) = some e := by
  rw [map_children, List.mem_filterMap, ← mem_map_entries (by simp)]
  simp [nameBelow_eq_some_iff]

theorem map_children_erase (d : Disk) (p : Place) (name : Text) :
    ((d.erase (p ++ [name])).children p).map Prod.fst =
      ((d.children p).map Prod.fst).filter (· ≠ name) := by
  have hentries : (d.erase (p ++ [name])).entries.map Prod.fst =
      (d.entries.map Prod.fst).filter (· ≠ p ++ [name]) := by
    rw [List.filter_map]
    rfl
  rw [map_children, map_children, hentries, List.filterMap_filter, List.filter_filterMap]
  refine List.filterMap_congr fun q _ => ?_
  by_cases hq : q = p ++ [name]
  · simp [hq, nameBelow, Option.filter]
  · cases hname : nameBelow p q with
    | none => simp [hq]
    | some m =>
      have hne : m ≠ name := fun h => hq (nameBelow_eq_some_iff.1 (h ▸ hname))
      simp [hq, hne, Option.filter]

theorem entriesAt_of_reach {path : Path} (h : d.reach path = .ok (q, some .directory)) :
    Discovery.entriesAt d path = d.children q := by
  obtain ⟨-, hshort, hwalk⟩ := reach_eq_ok_iff.1 h
  rw [startOf] at hwalk
  rw [Discovery.entriesAt, locate, hshort, if_neg Bool.false_ne_true, hwalk]

theorem reach_of_isFile {path : Path} (h : d.isFile path = .ok true) :
    ∃ b, d.reach path = .ok (path.place d.here, some (.file b)) := by
  obtain ⟨b, hb⟩ := exists_readBytes h
  obtain ⟨q, hr⟩ := readBytes_eq_ok_iff.1 hb
  exact ⟨b, place_eq_of_reach hr ▸ hr⟩

end Disk

/-! ### Schema files -/

open Discovery

/-- The directory of the schemas of a project in the directory `p`. -/
def schemaRoot (p : Place) : Path := ⟨.top, p ++ ([("src" : Text), "schemas"] : List Text)⟩

theorem join_schemaDirectory (p : Place) :
    (⟨.top, p⟩ : Path).join (.read Settings.standard.schemaDirectory) = schemaRoot p := by
  have hread : Path.read Settings.standard.schemaDirectory = ⟨.here, ["src", "schemas"]⟩ := by
    decide
  rw [hread]
  rfl

theorem hasPlainSuffix_standard : Settings.standard.HasPlainSuffix := ⟨by decide, by decide⟩

/-- The names of the schema files of a project. -/
def schemaNames (d : Disk) (p : Place) : List Text :=
  ((d.children (schemaRoot p).names).map Prod.fst).filter fun name =>
    Settings.standard.schemaSuffix.isSuffixOf name &&
      (d.isFile (child (schemaRoot p) name) = .ok true && name ≠ Settings.standard.baseSchema)

theorem candidates_eq (d : Disk) (directory : Path) (suffix : Text) :
    candidates d directory suffix =
      (((entriesAt d directory).map Prod.fst).filter (suffix.isSuffixOf ·)).map
        (child directory) := by
  rw [candidates, List.filter_map, List.map_map]
  rfl

section Project

variable {d : Disk} {p : Place} {name : Text} {found : List Path} {s t : Path}

theorem mem_schemaNames : name ∈ schemaNames d p ↔ (∃ e, d.find? ((schemaRoot p).names ++ [name]) =
    some e) ∧ Settings.standard.schemaSuffix <:+ name ∧
      d.isFile (child (schemaRoot p) name) = .ok true ∧ name ≠ Settings.standard.baseSchema := by
  rw [schemaNames, List.mem_filter, Disk.mem_map_children]
  simp

theorem ne_dots_of_suffix (h : Settings.standard.schemaSuffix <:+ name) :
    name ≠ Text.ofString ".." := by
  rintro rfl
  exact absurd h (by decide)

/-- The names on the way to a schema file are no `..`. -/
theorem ne_dots_of_mem_child (hup : ∀ m ∈ p, m ≠ Text.ofString "..")
    (h : Settings.standard.schemaSuffix <:+ name) :
    ∀ m ∈ (child (schemaRoot p) name).names, m ≠ Text.ofString ".." := by
  intro m hm
  simp only [child, schemaRoot, List.mem_append, List.mem_cons, List.not_mem_nil, or_false] at hm
  rcases hm with (hm | rfl | rfl) | rfl
  · exact hup m hm
  · decide
  · decide
  · exact ne_dots_of_suffix h

theorem place_schemaRoot (hup : ∀ m ∈ p, m ≠ Text.ofString "..") (here : Place) :
    (schemaRoot p).place here = (schemaRoot p).names := by
  have hall := ne_dots_of_mem_child hup (List.suffix_refl Settings.standard.schemaSuffix)
  exact Path.place_eq_names rfl (fun m hm => hall m (List.mem_append_left _ hm)) here

/-- Where all names with the suffix can be asked for, the schema files are found, in the order of
their names. -/
theorem discover_standard
    (hreach : d.reach (schemaRoot p) = .ok ((schemaRoot p).names, some .directory))
    (hfiles : ∀ name ∈ (d.children (schemaRoot p).names).map Prod.fst,
      Settings.standard.schemaSuffix <:+ name →
        ∃ b, d.isFile (child (schemaRoot p) name) = .ok b) :
    discover d ⟨.top, p⟩ .standard =
      .ok (((schemaNames d p).mergeSort Text.le).map (child (schemaRoot p))) := by
  have hdirectory : d.isDirectory (schemaRoot p) = .ok true := by
    rw [Disk.isDirectory, Disk.look, hreach]
    rfl
  have hcandidates := candidates_eq d (schemaRoot p) Settings.standard.schemaSuffix
  rw [Disk.entriesAt_of_reach hreach] at hcandidates
  have hall : ∀ q ∈ candidates d (schemaRoot p) Settings.standard.schemaSuffix,
      ∃ b, d.isFile q = .ok b := by
    rw [hcandidates, List.forall_mem_map]
    intro name hname
    rw [List.mem_filter, List.isSuffixOf_iff_suffix] at hname
    exact hfiles name hname.1 hname.2
  rw [discover_eq_ok hasPlainSuffix_standard (by rwa [join_schemaDirectory])
    (by rwa [join_schemaDirectory]), join_schemaDirectory, hcandidates, List.filter_map,
    List.filter_map, List.filter_filter, List.filter_filter,
    List.map_mergeSort fun m _ n _ => (Path.le_child (schemaRoot p) m n).symm, schemaNames]
  congr 3
  refine List.filter_congr fun name _ => ?_
  simp only [Function.comp_apply, Path.name_child]
  grind

/-- Where schema files are found, their directory is there, and all names in it with the suffix can
be asked for. -/
theorem of_discover_standard (hup : ∀ m ∈ p, m ≠ Text.ofString "..")
    (h : discover d ⟨.top, p⟩ .standard = .ok found) (hne : found ≠ []) :
    d.reach (schemaRoot p) = .ok ((schemaRoot p).names, some .directory) ∧
      ∀ name ∈ (d.children (schemaRoot p).names).map Prod.fst,
        Settings.standard.schemaSuffix <:+ name →
          ∃ b, d.isFile (child (schemaRoot p) name) = .ok b := by
  rw [discover_eq hasPlainSuffix_standard, join_schemaDirectory] at h
  obtain ⟨isDirectory, hdirectory, h⟩ := Except.bind_eq_ok_iff.1 h
  cases isDirectory with
  | false =>
    cases h
    exact absurd rfl hne
  | true =>
    obtain ⟨q, hreach⟩ := Disk.reach_of_isDirectory (Except.mapError_eq_ok_iff.1 hdirectory)
    have hq := Disk.place_eq_of_reach hreach
    rw [place_schemaRoot hup] at hq
    subst hq
    refine ⟨hreach, fun name hname hsuffix => ?_⟩
    obtain ⟨all, hall, -⟩ := Except.bind_eq_ok_iff.1 h
    obtain ⟨hfiles, -⟩ := files_eq_ok_iff.1 (Except.mapError_eq_ok_iff.1 hall)
    refine hfiles _ ?_
    rw [candidates_eq, Disk.entriesAt_of_reach hreach]
    exact List.mem_map_of_mem
      (List.mem_filter.2 ⟨hname, List.isSuffixOf_iff_suffix.2 hsuffix⟩)

/-- What is found are the schema files. -/
theorem mem_discover_iff (hup : ∀ m ∈ p, m ≠ Text.ofString "..")
    (h : discover d ⟨.top, p⟩ .standard = .ok found) (hne : found ≠ []) :
    t ∈ found ↔ ∃ name ∈ schemaNames d p, child (schemaRoot p) name = t := by
  obtain ⟨hreach, hfiles⟩ := of_discover_standard hup h hne
  rw [discover_standard hreach hfiles, Except.ok.injEq] at h
  rw [← h, List.mem_map]
  simp only [List.mem_mergeSort]

/-- Every schema file is found once. -/
theorem nodup_discover (hup : ∀ m ∈ p, m ≠ Text.ofString "..")
    (honce : (d.entries.map Prod.fst).Nodup)
    (h : discover d ⟨.top, p⟩ .standard = .ok found) : found.Nodup := by
  by_cases hne : found = []
  · exact hne ▸ List.nodup_nil
  obtain ⟨hreach, hfiles⟩ := of_discover_standard hup h hne
  rw [discover_standard hreach hfiles, Except.ok.injEq] at h
  rw [← h]
  exact List.Nodup.map (Path.child_injective _) ((List.mergeSort_perm _ _).nodup_iff.2
    ((Disk.nodup_children honce _).filter _))

/-- **Without one of its schema files a project has the others**, in the same order. -/
theorem discover_erase (hup : ∀ m ∈ p, m ≠ Text.ofString "..")
    (h : discover d ⟨.top, p⟩ .standard = .ok found) (hs : s ∈ found) :
    discover (d.erase s.names) ⟨.top, p⟩ .standard = .ok (found.filter (· ≠ s)) := by
  have hne := List.ne_nil_of_mem hs
  obtain ⟨hreach, hfiles⟩ := of_discover_standard hup h hne
  obtain ⟨own, hown, rfl⟩ := (mem_discover_iff hup h hne).1 hs
  obtain ⟨-, hsuffix, hfile, -⟩ := mem_schemaNames.1 hown
  have hdots := ne_dots_of_mem_child hup hsuffix
  obtain ⟨b, hr⟩ := Disk.reach_of_isFile hfile
  rw [Path.place_eq_names rfl hdots] at hr
  have hlacks := Disk.lacks_erase (Disk.find?_of_walk (Disk.reach_eq_ok_iff.1 hr).2.2 (by simp)).2
  -- the other files are there as before
  have hsame : ∀ name, Settings.standard.schemaSuffix <:+ name → name ≠ own →
      (d.erase (child (schemaRoot p) own).names).isFile (child (schemaRoot p) name) =
        d.isFile (child (schemaRoot p) name) := by
    intro name hname hne
    refine hlacks.isFile_eq fun hmem => hne ?_
    rw [Path.mem_onWay_iff rfl (ne_dots_of_mem_child hup hname)] at hmem
    have heq := hmem.eq_of_length (by simp [child])
    exact (List.singleton_inj.1 (List.append_cancel_left heq)).symm
  have hreach' : (d.erase (child (schemaRoot p) own).names).reach (schemaRoot p) =
      .ok ((schemaRoot p).names, some .directory) := by
    rw [hlacks.reach_eq fun hmem => ?_, hreach]
    rw [Path.mem_onWay_iff rfl fun m hm => hdots m (List.mem_append_left _ hm)] at hmem
    have := hmem.length_le
    simp only [child, List.length_append, List.length_singleton] at this
    omega
  have hnames : schemaNames (d.erase (child (schemaRoot p) own).names) p =
      (schemaNames d p).filter (· ≠ own) := by
    rw [schemaNames, schemaNames, child, Disk.map_children_erase, List.filter_filter,
      List.filter_filter]
    refine List.filter_congr fun name _ => ?_
    by_cases hname : name = own
    · simp [hname]
    · by_cases hend : Settings.standard.schemaSuffix <:+ name
      · have := hsame name hend hname
        rw [child] at this
        simp [this, hname]
      · have : Settings.standard.schemaSuffix.isSuffixOf name = false := by
          rwa [Bool.eq_false_iff, ne_eq, List.isSuffixOf_iff_suffix]
        simp [this]
  rw [discover_standard hreach' fun name hname hend => ?_, hnames, ← filter_mergeSort]
  · rw [discover_standard hreach hfiles, Except.ok.injEq] at h
    rw [← h, List.filter_map]
    congr 2
    refine List.filter_congr fun name _ => ?_
    simp [(Path.child_injective (schemaRoot p)).eq_iff]
  · rw [child, Disk.map_children_erase, List.mem_filter] at hname
    rw [hsame name hend (by simpa using hname.2)]
    exact hfiles name hname.1 hend

end Project

end Scaffold
