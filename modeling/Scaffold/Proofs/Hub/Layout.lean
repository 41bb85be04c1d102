import Mathlib.Data.List.Infix
import Mathlib.Data.List.Pairwise
import Scaffold.Proofs.Hub.Growth
import Scaffold.Proofs.Hub.Next

/-!
# Hubs as lists of lines

A hub that was never changed by hand is a list of lines: those of its skeleton, with imports put
into one place above the marker and entries directly below it (`HubLayout.text`).  On a text that is
given by its lines, inserting a line is inserting into a list (`Hub.flatten_insertAt_unlines`), and
the lines near which it goes are found by their places in the list (`Hub.exists_lastLine?`).

Where a hub keeps a ledger, one registration lists the resource if its key is new
(`HubLayout.Lists.next`), and any number of them lists the first resource under each key
(`HubLayout.KeepsLedger.foldl_next`).
-/

namespace Scaffold

open CodePoint

namespace Text

theorem unlines_map_join {ls : List Text} (h : ls ≠ []) :
    join "\n" ls ++ [newline] = unlines ls := by
  induction ls with
  | nil => exact absurd rfl h
  | cons l ls ih =>
    cases ls with
    | nil => simp [join, unlines, ofString]
    | cons m ls =>
      rw [join, unlines_cons, ← ih (by simp)]
      simp [ofString]

theorem replaceAll_self (t : Text) (c : Char) : t.replaceAll c [.scalar c] = t := by
  induction t with
  | nil => rfl
  | cons d t ih =>
    rw [replaceAll] at ih
    rw [replaceAll, List.flatMap_cons, ih]
    split
    · rename_i h
      rw [h]
      rfl
    · rfl

theorem not_mem_unlines {ls : List Text} {c : CodePoint} (hc : c ≠ newline)
    (h : ∀ l ∈ ls, c ∉ l) : c ∉ unlines ls := by
  intro hm
  obtain ⟨l, hl, hm⟩ := List.mem_flatMap.1 hm
  rcases List.mem_append.1 hm with hm | hm
  · exact h l hl hm
  · exact hc (List.mem_singleton.1 hm)

theorem includes_unlines {ls : List Text} {w : Text} (hw : w.IsInline) (hne : w ≠ []) :
    (unlines ls).includes w = ls.any (·.includes w) := by
  induction ls with
  | nil => exact includes_nil hne
  | cons l ls ih => rw [unlines_cons, includes_append_newline hw hne, ih, List.any_cons]

end Text

namespace Hub

open Text

variable {ls : List Text} {p : Text → Bool}

/-! ### Inserting into a list of lines -/

theorem flatten_insertAt_unlines (h : ∀ l ∈ ls, l.IsInline) (n : Nat) (x : Text) :
    (insertAt .lineFeed (unlines ls).lines n x).flatten =
      unlines (ls.take n ++ x :: ls.drop n) := by
  have hended : (ls.take n).map ((ended .lineFeed) ∘ (· ++ [newline])) =
      (ls.take n).map (· ++ [newline]) := by
    refine List.map_congr_left fun l _ => ?_
    have : (l ++ [newline]).isEnded = true := isEnded_eq_true.2 ⟨by simp, isClosed_concat.2 rfl⟩
    rw [Function.comp_apply, ended, if_pos this]
  rw [insertAt, lines_unlines h, ← List.map_take, ← List.map_drop, List.map_map, hended]
  simp [unlines, List.flatMap_def, LineEnd.text, ofString]

theorem firstLine?_unlines (h : ∀ l ∈ ls, l.IsInline) (p : Text → Bool) :
    firstLine? p (unlines ls).lines = ls.findIdx? p := by
  rw [firstLine?, lines_unlines h, List.findIdx?_map]
  congr 1
  funext l
  simp [lineBody_concat]

theorem lastLine?_unlines (h : ∀ l ∈ ls, l.IsInline) (p : Text → Bool) :
    lastLine? p (unlines ls).lines = (ls.reverse.findIdx? p).map (ls.length - ·) := by
  rw [lastLine?, lines_unlines h, ← List.map_reverse, List.findIdx?_map, List.length_map]
  congr 2
  funext l
  simp [lineBody_concat]

/-! ### Where a line is found -/

theorem findIdx?_append_cons {front back : List Text} {l : Text} (hf : ∀ x ∈ front, p x = false)
    (hl : p l = true) : (front ++ l :: back).findIdx? p = some front.length := by
  have hnone : front.findIdx? p = none := List.findIdx?_eq_none_iff.2 hf
  rw [List.findIdx?_append, hnone, List.findIdx?_cons, hl]
  simp

/-- The last line of a kind, where the lines that follow are of other kinds. -/
theorem lastLine?_append_cons {front back : List Text} {l : Text}
    (h : ∀ x ∈ front ++ l :: back, x.IsInline) (hl : p l = true) (hb : ∀ x ∈ back, p x = false) :
    lastLine? p (unlines (front ++ l :: back)).lines = some (front.length + 1) := by
  have hrev : (front ++ l :: back).reverse = back.reverse ++ l :: front.reverse := by simp
  rw [lastLine?_unlines h, hrev,
    findIdx?_append_cons (fun x hx => hb x (List.mem_reverse.1 hx)) hl, Option.map_some,
    List.length_reverse, List.length_append, List.length_cons]
  congr 1
  omega

theorem lastLine?_eq_none (h : ∀ x ∈ ls, x.IsInline) (hp : ∀ x ∈ ls, p x = false) :
    lastLine? p (unlines ls).lines = none := by
  rw [lastLine?_unlines h, List.findIdx?_eq_none_iff.2 fun x hx => hp x (List.mem_reverse.1 hx)]
  rfl

/-- The last line of a kind is the last one of the front or one of the lines behind it, if there is
none in the rest. -/
theorem exists_lastLine? {front added rest : List Text} {l : Text}
    (h : ∀ x ∈ front ++ l :: added ++ rest, x.IsInline) (hl : p l = true)
    (hrest : ∀ x ∈ rest, p x = false) : ∃ i ≤ added.length,
      lastLine? p (unlines (front ++ l :: added ++ rest)).lines = some (front.length + 1 + i) := by
  induction added using List.reverseRecOn generalizing rest with
  | nil =>
    refine ⟨0, Nat.zero_le _, ?_⟩
    rw [List.append_assoc, List.cons_append, List.nil_append] at h ⊢
    exact lastLine?_append_cons h hl hrest
  | append_singleton added x ih =>
    have hsplit : front ++ l :: (added ++ [x]) ++ rest = front ++ l :: added ++ x :: rest := by simp
    rw [hsplit] at h ⊢
    by_cases hx : p x = true
    · refine ⟨added.length + 1, by simp, ?_⟩
      rw [lastLine?_append_cons h hx hrest, List.length_append, List.length_cons]
      congr 1
      omega
    · obtain ⟨i, hi, he⟩ := ih h (List.forall_mem_cons.2 ⟨by simpa using hx, hrest⟩)
      exact ⟨i, by simp; omega, he⟩

/-! ### Reference lines -/

variable {h : Hub} {r : Resource} {rule : ReferenceLine}

theorem refer_of_not_needed (e : LineEnd) (t : Text)
    (hn : rule.applies r = false ∨ rule.isThere r t = true) : (h.refer r e t rule).1 = t := by
  rw [refer, if_pos]
  rcases hn with hn | hn <;> simp [hn]

theorem refer_unlines (hl : ∀ l ∈ ls, l.IsInline) (ha : rule.applies r = true)
    (ht : rule.isThere r (unlines ls) = false) {n : Nat}
    (hn : rule.place? (unlines ls).lines = some n) :
    (h.refer r .lineFeed (unlines ls) rule).1 =
      unlines (ls.take n ++ rule.line r :: ls.drop n) := by
  rw [refer, ha, ht, if_neg (by simp)]
  simp only [hn]
  exact flatten_insertAt_unlines hl n _

end Hub

/-! ### The layout of a hub -/

/-- How the text of a hub is made up. -/
structure HubLayout where
  /-- The hub. -/
  hub : Hub
  /-- The lines above the imports that entries need. -/
  front : List Text
  /-- The lines between the imports and the marker. -/
  back : List Text
  /-- The line of the marker. -/
  markerLine : Text
  /-- The lines below the entries. -/
  below : List Text
  /-- What tells entries apart. -/
  key : Resource → Text
  /-- The lines of an entry. -/
  entryLines : Resource → List Text
  /-- The names that the skeleton imports. -/
  imported : List Text := []
  /-- The names that an entry needs, each with its source. -/
  needs : Resource → List (Text × Text) := fun _ => []
  /-- The line that imports a name from a source. -/
  importLine : Text × Text → Text := fun _ => []

namespace HubLayout

open Text

variable (L : HubLayout) (added : List (Text × Text)) (rs : List Resource)

/-- The text of a hub that imports the names in `added` and lists the resources `rs`: each entry is
followed by a line feed. -/
def text : Text :=
  unlines (L.front ++ added.map L.importLine ++ L.back ++ L.markerLine :: rs.map L.hub.entry ++
    L.below)

/-- What stands below the imports. -/
def rest : List Text := L.back ++ L.markerLine :: (rs.flatMap L.entryLines ++ L.below)

/-- The lines of the text. -/
def lines : List Text := L.front ++ added.map L.importLine ++ L.rest rs

/-- The names in `added` are needed by some of the resources `seen`, and no name is imported
twice. -/
structure Imports (seen : List Resource) (added : List (Text × Text)) : Prop where
  /-- Each name is needed. -/
  needed : ∀ x ∈ added, ∃ r ∈ seen, x ∈ L.needs r
  /-- Each name is imported once. -/
  nodup : (L.imported ++ added.map Prod.fst).Nodup

/-- What a layout has to do with its hub, for resources that satisfy `Good`. -/
structure IsSound (Good : Resource → Prop) : Prop where
  /-- The marker is a word on one line. -/
  marker : L.hub.marker.IsInline ∧ L.hub.marker ≠ []
  /-- The skeleton is laid out so. -/
  skeleton : L.hub.skeleton = L.text [] []
  /-- An entry is made up of its lines. -/
  entry : ∀ r, Good r → L.hub.entry r = join "\n" (L.entryLines r) ∧ L.entryLines r ≠ []
  /-- The lines of the skeleton have no line ends. -/
  fixedPlain : ∀ l ∈ L.front ++ L.back ++ L.markerLine :: L.below, l.IsPlainLine
  /-- The lines of an entry have no line ends. -/
  entryPlain : ∀ r, Good r → ∀ l ∈ L.entryLines r, l.IsPlainLine
  /-- The imports have no line ends, and none has the marker. -/
  importPlain : ∀ r, Good r → ∀ x ∈ L.needs r,
    (L.importLine x).IsPlainLine ∧ (L.importLine x).includes L.hub.marker = false
  /-- The marker is on its line, -/
  marked : L.markerLine.includes L.hub.marker = true
  /-- and on no line above. -/
  unmarked : ∀ l ∈ L.front ++ L.back, l.includes L.hub.marker = false

/-- The hub keeps a ledger in this layout: it finds what is listed, and nothing else, and puts what
an entry needs among the imports. -/
structure KeepsLedger (Good : Resource → Prop) : Prop extends L.IsSound Good where
  /-- A resource is registered if one with its key is listed. -/
  registered : ∀ added rs r, L.Imports rs added → (∀ r ∈ rs, Good r) → Good r →
    (L.hub.isRegistered r (L.text added rs) = true ↔ L.key r ∈ rs.map L.key)
  /-- The reference lines of a resource go among the imports. -/
  refers : ∀ added rs r, L.Imports rs added → (∀ r ∈ rs, Good r) → Good r →
    L.hub.applies r = true → ∃ added', L.Imports (r :: rs) added' ∧
      (L.hub.referAll r .lineFeed (L.text added rs) L.hub.references).1 = L.text added' rs

/-- Registering a new resource carries on what `Q` says of the resources listed and the names
imported. -/
def Carries (Good : Resource → Prop) (Q : List Resource → List (Text × Text) → Prop) : Prop :=
  ∀ added rs r, L.Imports rs added → Q rs added → (∀ r ∈ rs, Good r) → Good r →
    L.hub.applies r = true → L.key r ∉ rs.map L.key →
      ∃ added', L.Imports (r :: rs) added' ∧ Q (r :: rs) added' ∧
        (L.hub.referAll r .lineFeed (L.text added rs) L.hub.references).1 = L.text added' rs

namespace IsSound

variable {L added rs} {Good : Resource → Prop} {r : Resource} {seen : List Resource}

theorem unlines_entries (hL : L.IsSound Good) (hrs : ∀ r ∈ rs, Good r) :
    unlines (rs.map L.hub.entry) = unlines (rs.flatMap L.entryLines) := by
  induction rs with
  | nil => rfl
  | cons r rs ih =>
    rw [List.forall_mem_cons] at hrs
    obtain ⟨he, hne⟩ := hL.entry r hrs.1
    rw [List.map_cons, unlines_cons, List.flatMap_cons, unlines_append, ← ih hrs.2,
      ← unlines_map_join hne, he]
    simp

theorem text_eq (hL : L.IsSound Good) (hrs : ∀ r ∈ rs, Good r) :
    L.text added rs = unlines (L.lines added rs) := by
  have := hL.unlines_entries hrs
  rw [text, lines, rest]
  simp only [unlines_append, unlines_cons, List.append_assoc, List.cons_append, this]

theorem isPlainLine (hL : L.IsSound Good) (hrs : ∀ r ∈ rs, Good r) (hseen : ∀ r ∈ seen, Good r)
    (ha : L.Imports seen added) : ∀ l ∈ L.lines added rs, l.IsPlainLine := by
  intro l hl
  simp only [lines, rest, List.mem_append, List.mem_cons, List.mem_map, List.mem_flatMap] at hl
  rcases hl with (hl | ⟨x, hx, rfl⟩) | hl | rfl | ⟨r, hr, hl⟩ | hl
  · exact hL.fixedPlain l (by simp [hl])
  · obtain ⟨r, hr, hx⟩ := ha.needed x hx
    exact (hL.importPlain r (hseen r hr) x hx).1
  · exact hL.fixedPlain l (by simp [hl])
  · exact hL.fixedPlain _ (by simp)
  · exact hL.entryPlain r (hrs r hr) l hl
  · exact hL.fixedPlain l (by simp [hl])

theorem of_text (hL : L.IsSound Good) (hrs : ∀ r ∈ rs, Good r) (ha : L.Imports rs added) :
    LineEnd.of (L.text added rs) = .lineFeed := by
  rw [LineEnd.of, if_neg]
  intro h
  have hmem : carriageReturn ∈ L.text added rs :=
    (includes_eq_true.1 h).subset (by decide)
  rw [hL.text_eq hrs] at hmem
  exact not_mem_unlines (by decide) (fun l hl => (hL.isPlainLine hrs hrs ha l hl).2) hmem

/-- The marker is in the text. -/
theorem includes_text (hL : L.IsSound Good) :
    (L.text added rs).includes L.hub.marker = true := by
  rw [text, includes_unlines hL.marker.1 hL.marker.2]
  simp [hL.marked]

/-- An entry goes directly below the marker. -/
theorem insertEntry_text (hL : L.IsSound Good) (hrs : ∀ r ∈ rs, Good r)
    (hseen : ∀ r ∈ seen, Good r) (ha : L.Imports seen added) :
    L.hub.insertEntry .lineFeed (L.text added rs) (L.hub.entry r) = L.text added (r :: rs) := by
  have hinline : ∀ l ∈ L.lines added rs, l.IsInline := fun l hl =>
    (hL.isPlainLine hrs hseen ha l hl).1
  have hlines : L.lines added rs = (L.front ++ added.map L.importLine ++ L.back) ++
      L.markerLine :: (rs.flatMap L.entryLines ++ L.below) := by
    simp [lines, rest]
  have habove : ∀ l ∈ L.front ++ added.map L.importLine ++ L.back,
      l.includes L.hub.marker = false := by
    intro l hl
    simp only [List.mem_append, List.mem_map] at hl
    rcases hl with (hl | ⟨x, hx, rfl⟩) | hl
    · exact hL.unmarked l (by simp [hl])
    · obtain ⟨r, hr, hx⟩ := ha.needed x hx
      exact (hL.importPlain r (hseen r hr) x hx).2
    · exact hL.unmarked l (by simp [hl])
  have hreplace : (L.hub.entry r).replaceAll '\n' LineEnd.lineFeed.text = L.hub.entry r :=
    replaceAll_self _ _
  rw [Hub.insertEntry, hL.text_eq hrs, Hub.firstLine?_unlines hinline]
  simp only [hlines, Hub.findIdx?_append_cons habove hL.marked, hreplace]
  rw [Hub.flatten_insertAt_unlines (hlines ▸ hinline)]
  have htake : ∀ (a b : List Text) (x : Text), (a ++ x :: b).take (a.length + 1) = a ++ [x] ∧
      (a ++ x :: b).drop (a.length + 1) = b := by
    intro a b x
    rw [List.take_length_add_append, List.drop_length_add_append]
    simp
  rw [(htake _ _ _).1, (htake _ _ _).2, text]
  simp only [unlines_append, unlines_cons, List.map_cons, List.append_assoc,
    hL.unlines_entries hrs, List.nil_append, List.cons_append]

end IsSound

end HubLayout

/-! ### Ledgers -/

/-- What a hub lists after the resources `rs`: the first one under each key, the latest key
first. -/
def ledger (key : Resource → Text) (rs : List Resource) : List Resource :=
  rs.reverse.pwFilter fun r r' => key r ≠ key r'

section Ledger

variable {key : Resource → Text} {rs : List Resource} {r : Resource}

theorem mem_of_mem_ledger (h : r ∈ ledger key rs) : r ∈ rs :=
  List.mem_reverse.1 ((List.pwFilter_sublist _).subset h)

theorem ledger_concat (key : Resource → Text) (rs : List Resource) (r : Resource) :
    ledger key (rs ++ [r]) =
      if key r ∈ (ledger key rs).map key then ledger key rs else r :: ledger key rs := by
  rw [ledger, List.reverse_concat]
  by_cases h : key r ∈ (ledger key rs).map key
  · rw [if_pos h]
    refine List.pwFilter_cons_of_neg fun hall => ?_
    obtain ⟨r', hr', he⟩ := List.mem_map.1 h
    exact hall r' hr' he.symm
  · rw [if_neg h]
    refine List.pwFilter_cons_of_pos fun r' hr' he => h ?_
    exact List.mem_map.2 ⟨r', hr', he.symm⟩

end Ledger

/-! ### What a ledger hub does -/

namespace HubLayout.KeepsLedger

variable {L : HubLayout} {added : List (Text × Text)} {rs : List Resource}
  {Good : Resource → Prop} {r : Resource} {Q : List Resource → List (Text × Text) → Prop}

theorem register_text (hL : L.KeepsLedger Good) (hQ : L.Carries Good Q) (ha : L.Imports rs added)
    (hq : Q rs added) (hrs : ∀ r ∈ rs, Good r) (hr : Good r) (happ : L.hub.applies r = true)
    (hnew : L.key r ∉ rs.map L.key) :
    ∃ added', L.Imports (r :: rs) added' ∧ Q (r :: rs) added' ∧
      (L.hub.register r (L.text added rs)).1 = L.text added' (r :: rs) := by
  obtain ⟨added', ha', hq', hrefer⟩ := hQ added rs r ha hq hrs hr happ hnew
  refine ⟨added', ha', hq', ?_⟩
  have hreg : (L.hub.register r (L.text added rs)).1 =
      L.hub.insertEntry .lineFeed (L.text added' rs) (L.hub.entry r) := by
    rw [← hrefer, ← hL.of_text hrs ha]
    rfl
  rw [hreg]
  exact hL.insertEntry_text hrs (List.forall_mem_cons.2 ⟨hr, hrs⟩) ha'

/-- **One registration keeps the ledger**: the resource is listed above the others, unless one with
its key is listed. -/
theorem next_some (hL : L.KeepsLedger Good) (hQ : L.Carries Good Q) (ha : L.Imports rs added)
    (hq : Q rs added) (hrs : ∀ r ∈ rs, Good r) (hr : Good r) (happ : L.hub.applies r = true) :
    let rs' := if L.key r ∈ rs.map L.key then rs else r :: rs
    ∃ added', L.Imports rs' added' ∧ Q rs' added' ∧
      L.hub.next r (some (L.text added rs)) = some (L.text added' rs') := by
  intro rs'
  by_cases hkey : L.key r ∈ rs.map L.key
  · simp only [rs', if_pos hkey]
    exact ⟨added, ha, hq, Hub.next_of_isRegistered ((hL.registered added rs r ha hrs hr).2 hkey)⟩
  · simp only [rs', if_neg hkey]
    obtain ⟨added', ha', hq', hreg⟩ := hL.register_text hQ ha hq hrs hr happ hkey
    refine ⟨added', ha', hq', ?_⟩
    have hmark : ((some (L.text added rs)).getD L.hub.skeleton).includes L.hub.marker = true :=
      hL.includes_text
    rw [Hub.next_eq_register happ hmark, Option.getD_some, hreg]
    rintro t ⟨⟩
    rw [Bool.eq_false_iff]
    exact fun h => hkey ((hL.registered added rs r ha hrs hr).1 h)

theorem next_none (hL : L.KeepsLedger Good) (hQ : L.Carries Good Q) (hn : L.imported.Nodup)
    (hq : Q [] []) (hr : Good r) (happ : L.hub.applies r = true) :
    ∃ added, L.Imports [r] added ∧ Q [r] added ∧
      L.hub.next r none = some (L.text added [r]) := by
  have hempty : L.Imports [] [] := ⟨by simp, by simpa using hn⟩
  have hnone : ∀ r ∈ ([] : List Resource), Good r := by simp
  obtain ⟨added, ha, hq', hreg⟩ := hL.register_text hQ hempty hq hnone hr happ (by simp)
  refine ⟨added, ha, hq', ?_⟩
  rw [Hub.next_eq_register happ (by rw [Option.getD_none, hL.skeleton]; exact hL.includes_text)
    (by simp), Option.getD_none, hL.skeleton, hreg]

/-- What single registrations carry on holds after any number of them. -/
theorem foldl_next_of_carries (hL : L.KeepsLedger Good) (hQ : L.Carries Good Q)
    (hn : L.imported.Nodup) (hq : Q [] []) (hrs : ∀ r ∈ rs, Good r) :
    ∃ added, L.Imports (ledger L.key (rs.filter L.hub.applies)) added ∧
      Q (ledger L.key (rs.filter L.hub.applies)) added ∧
      rs.foldl (fun current r => L.hub.next r current) none =
        if rs.filter L.hub.applies = [] then none
        else some (L.text added (ledger L.key (rs.filter L.hub.applies))) := by
  -- on the resources registered so far, the latest one last
  induction rs using List.reverseRecOn with
  | nil => exact ⟨[], ⟨by simp, by simpa using hn⟩, hq, rfl⟩
  | append_singleton rs r ih =>
    obtain ⟨added, ha, hq', hfold⟩ := ih fun r hr => hrs r (List.mem_append_left _ hr)
    have hr : Good r := hrs r (by simp)
    have hgood : ∀ r ∈ ledger L.key (rs.filter L.hub.applies), Good r := fun r hr =>
      hrs r (List.mem_append_left _ (List.mem_of_mem_filter (mem_of_mem_ledger hr)))
    rw [List.foldl_concat, List.filter_append, hfold]
    cases happ : L.hub.applies r with
    | false =>
      have hfilter : rs.filter L.hub.applies ++ [r].filter L.hub.applies =
          rs.filter L.hub.applies := by simp [happ]
      rw [hfilter, Hub.next_of_not_applies happ]
      exact ⟨added, ha, hq', rfl⟩
    | true =>
      have hfilter : [r].filter L.hub.applies = [r] := by simp [happ]
      have hne : rs.filter L.hub.applies ++ [r] ≠ [] := by simp
      rw [hfilter, ledger_concat]
      simp only [if_neg hne]
      by_cases hempty : rs.filter L.hub.applies = []
      · rw [if_pos hempty, hempty]
        obtain ⟨added', ha', hq', hnext⟩ := hL.next_none hQ hn hq hr happ
        exact ⟨added', by simpa [ledger] using ha', by simpa [ledger] using hq',
          by simpa [ledger] using hnext⟩
      · rw [if_neg hempty]
        exact hL.next_some hQ ha hq' hgood hr happ

theorem carries_true (hL : L.KeepsLedger Good) : L.Carries Good fun _ _ => True := by
  intro added rs r ha _ hrs hr happ _
  obtain ⟨added', ha', hrefer⟩ := hL.refers added rs r ha hrs hr happ
  exact ⟨added', ha', trivial, hrefer⟩

/-- **A hub that is made and kept by registrations is a ledger**: it is missing while no resource
belongs into it, and then lists the first resource under each key. -/
theorem foldl_next (hL : L.KeepsLedger Good) (hn : L.imported.Nodup) (hrs : ∀ r ∈ rs, Good r) :
    ∃ added, L.Imports (ledger L.key (rs.filter L.hub.applies)) added ∧
      rs.foldl (fun current r => L.hub.next r current) none =
        if rs.filter L.hub.applies = [] then none
        else some (L.text added (ledger L.key (rs.filter L.hub.applies))) := by
  obtain ⟨added, ha, -, hfold⟩ := hL.foldl_next_of_carries hL.carries_true hn trivial hrs
  exact ⟨added, ha, hfold⟩

end HubLayout.KeepsLedger

/-- A hub lists the resources, or it is missing and there are none. -/
inductive HubLayout.Lists (L : HubLayout) : List Resource → Option Text → Prop where
  /-- The hub is missing. -/
  | missing : L.Lists [] none
  /-- The hub is there. -/
  | listed {rs : List Resource} {added : List (Text × Text)} (nonempty : rs ≠ [])
      (imports : L.Imports rs added) : L.Lists rs (some (L.text added rs))

/-- One more resource is listed if its key is new. -/
theorem HubLayout.Lists.next {L : HubLayout} {Good : Resource → Prop} {rs : List Resource}
    {r : Resource} {current : Option Text} (h : L.Lists rs current) (hL : L.KeepsLedger Good)
    (hn : L.imported.Nodup) (hrs : ∀ r ∈ rs, Good r) (hr : Good r)
    (happ : L.hub.applies r = true) :
    L.Lists (if L.key r ∈ rs.map L.key then rs else r :: rs) (L.hub.next r current) := by
  cases h with
  | missing =>
    obtain ⟨added, ha, -, hnext⟩ := hL.next_none hL.carries_true hn trivial hr happ
    rw [hnext]
    exact .listed (List.cons_ne_nil r []) ha
  | listed hne ha =>
    obtain ⟨added, ha', -, hnext⟩ := hL.next_some hL.carries_true ha trivial hrs hr happ
    rw [hnext]
    refine .listed ?_ ha'
    split
    · exact hne
    · exact List.cons_ne_nil r rs

end Scaffold
