import Scaffold.Proofs.Project.Executing

/-!
# Which files a run overwrites

A run writes planned files one after the other, and the places of these may coincide: a destination
may be repeated, may go up and down again, or may lie below another one.  What the run leaves of the
files on the disk follows from its outcomes alone.  With `writtenOf files outcomes`, the files that
were written,

* a file is changed only at the place of a written one (`changes_of_execute`);
* at such a place stands the text of the last one that was written there (`last_of_execute`);
* a run that may not overwrite wrote only where nothing stood before, each time at another place, so
  that every file that was there is as it was (`free_of_execute`).

`execute_respects_files` puts the three together.
-/

namespace Scaffold

open Work

/-! ### One file -/

namespace Disk

variable {d d' : Disk} {path : Path} {q : Place} {S M : Set Place} {t : Text} {x : Unit}

/-- Where nothing stands after a change, nothing stood before, unless a file there may have been
changed. -/
theorem Changes.find?_eq_none (h : d.Changes d' S M) (hq : d'.find? q = none)
    (hS : d.find? q ≠ none → q ∉ S) : d.find? q = none := by
  by_contra hd
  obtain ⟨entry, hentry⟩ := Option.ne_none_iff_exists'.1 hd
  cases entry with
  | directory =>
    rw [h.directory q hentry] at hq
    cases hq
  | file b =>
    have hb := h.bytes? q (hS hd)
    rw [bytes?_eq_some.2 hentry, bytes?_eq_some, hq] at hb
    cases hb

/-- Where a text can be written and nothing is there, nothing stands. -/
theorem find?_of_isThere (hthere : d.isThere path = .ok false)
    (hwrite : (d.writeText path t).1 = .ok x) : d.find? (path.place d.here) = none := by
  cases hreach : d.reach path with
  | error e =>
    rw [writeText, hreach] at hwrite
    cases hwrite
  | ok found =>
    obtain ⟨q, e⟩ := found
    have hlook : d.look path = .ok e := by rw [look, hreach]
    rw [isThere, hlook] at hthere
    obtain rfl : e = none := by simpa using Except.ok.inj hthere
    rw [← place_eq_of_reach hreach]
    exact (find?_of_walk (reach_eq_ok_iff.1 hreach).2.2 (by simp)).2

end Disk

/-- A generated file that may not overwrite is written only where nothing stands. -/
theorem find?_of_writeGenerated {root : Path} {path kind t : Text} {d d' : Disk} {o : WriteOutcome}
    (h : (writeGenerated root path kind t false).Ends d (.ok o) d') (ho : o.status = .written) :
    d.find? ((root.join (.read path)).place d.here) = none := by
  -- the directories are made, then the disk is asked, and then the text is written
  obtain ⟨_, d₁, hmake, h⟩ := h.of_bind
  obtain ⟨there, d₂, ⟨hthere, hsame⟩, h⟩ := h.of_bind
  obtain rfl : d₁ = d₂ := hsame
  cases there with
  | true =>
    -- a file that is there is skipped
    obtain rfl : (⟨path, kind, .skipped⟩ : WriteOutcome) = o := Except.ok.inj h.1
    cases ho
  | false =>
    obtain ⟨_, d₂, hwrite, -⟩ := Ends.of_bind h
    have hchanges := Disk.changes_makeDirectories (Prod.ext hmake.1 hmake.2)
    have hnone := Disk.find?_of_isThere hthere hwrite.1
    rw [hchanges.here] at hnone
    exact hchanges.find?_eq_none hnone fun _ => Set.notMem_empty _

namespace PlannedFile

variable {f : PlannedFile} {r : Resource} {root : Path} {force : Bool} {d d' : Disk}
  {o : WriteOutcome} {b : Bytes}

/-- The place of the file in a project, from the directory `here`. -/
def placeIn (f : PlannedFile) (root : Path) (here : Place) : Place := (f.pathIn root).place here

/-- The maker of the file makes a text, and these are its bytes. -/
def Makes (f : PlannedFile) (r : Resource) (b : Bytes) : Prop :=
  ∃ t, f.maker r = .ok (some t) ∧ Utf8.encode t = .ok b

/-- The file is written: from `d` to `d'` its text is put at its place, and nothing else is changed
but for directories that are made. -/
structure Written (f : PlannedFile) (r : Resource) (root : Path) (d d' : Disk) (b : Bytes) :
    Prop where
  /-- The bytes are those of the text. -/
  makes : f.Makes r b
  /-- They stand at the place of the file. -/
  reach : d'.reach (f.pathIn root) = .ok (f.placeIn root d.here, some (.file b))
  /-- Nothing else is changed. -/
  changes : d.Changes d' {f.placeIn root d.here} .univ

theorem Written.bytes? (h : f.Written r root d d' b) :
    d'.bytes? (f.placeIn root d.here) = some b :=
  Disk.bytes?_eq_some.2 (Disk.find?_of_walk (Disk.reach_eq_ok_iff.1 h.reach).2.2 nofun).2

/-- A file is written, or no file is changed. -/
theorem written_or_changes (h : (executeOne r root force f).Ends d (.ok o) d') :
    o.path = f.destination ∧ o.kind = f.kind ∧
      (o.status = .written ∧ (∃ b, f.Written r root d d' b) ∨
        o.status ≠ .written ∧ d.Changes d' ∅ .univ) := by
  obtain ⟨status, d₁, hbecomes, hends⟩ | ⟨-, e, d₁, hends⟩ := f.becomes_or_breaks r root force d
  · obtain ⟨hx, rfl⟩ := hends.unique h
    obtain rfl := Except.ok.inj hx
    refine ⟨rfl, rfl, ?_⟩
    cases hbecomes with
    | unmade => exact .inr ⟨nofun, .refl ..⟩
    | omitted => exact .inr ⟨nofun, .refl ..⟩
    | written maker wrote =>
      cases wrote with
      | written bytes reach changes =>
        have hplace := Disk.place_eq_of_reach reach
        rw [changes.here] at hplace
        subst hplace
        exact .inl ⟨rfl, _, ⟨_, maker, bytes⟩, reach, changes.mono subset_rfl (Set.subset_univ _)⟩
    | skipped _ _ changes => exact .inr ⟨nofun, changes.mono subset_rfl (Set.subset_univ _)⟩
    | refused _ refusal wrote =>
      -- a text without bytes would have emptied the file, but that is no refusal
      cases wrote with
      | kept _ changes => exact .inr ⟨nofun, changes.mono subset_rfl (Set.subset_univ _)⟩
      | emptied => cases refusal
  · cases (hends.unique h).1

/-- A file that may not overwrite is written only where nothing stands. -/
theorem find?_of_executeOne (h : (executeOne r root false f).Ends d (.ok o) d')
    (ho : o.status = .written) : d.find? (f.placeIn root d.here) = none := by
  cases hm : f.maker r with
  | error reason =>
    obtain rfl := Except.ok.inj ((ends_executeOne_of_error hm).unique h).1
    cases ho
  | ok made =>
    cases made with
    | none =>
      obtain rfl := Except.ok.inj ((ends_executeOne_of_none hm).unique h).1
      cases ho
    | some t =>
      rw [executeOne_of_some hm] at h
      obtain ⟨x, d₁, hwrite, h⟩ := Ends.of_bind h
      obtain ⟨hx, hd₁⟩ := hwrite
      cases x with
      | ok outcome =>
        obtain ⟨houtcome, rfl⟩ := h
        obtain rfl := Except.ok.inj houtcome
        exact find?_of_writeGenerated ⟨Except.ok.inj hx, hd₁⟩ ho
      | error e =>
        dsimp only at h
        split at h
        · obtain rfl := Except.ok.inj (ends_report_bind_iff.1 h).1
          cases ho
        · cases h.1

end PlannedFile

/-! ### All files -/

/-- The files that were written, in their order. -/
def writtenOf : List PlannedFile → List WriteOutcome → List PlannedFile
  | f :: files, o :: os =>
    if o.status = .written then f :: writtenOf files os else writtenOf files os
  | _, _ => []

variable {files : List PlannedFile} {r : Resource} {root : Path} {force : Bool} {d d' : Disk}
  {os : List WriteOutcome}

/-- The first file of a run, and the run over the others.  The first is written, or no file is
changed by it. -/
theorem of_execute_cons {f : PlannedFile}
    (h : (execute (f :: files) r root force).Ends d (.ok os) d') :
    ∃ o os' d₁, os = o :: os' ∧ (executeOne r root force f).Ends d (.ok o) d₁ ∧
      (execute files r root force).Ends d₁ (.ok os') d' ∧ d₁.here = d.here ∧
      (writtenOf (f :: files) os = f :: writtenOf files os' ∧ o.status = .written ∧
          (∃ b, f.Written r root d d₁ b) ∨
        writtenOf (f :: files) os = writtenOf files os' ∧ d.Changes d₁ ∅ .univ) := by
  obtain ⟨o, os', d₁, rfl, hfirst, hothers⟩ := Ends.of_each_cons h
  refine ⟨o, os', d₁, rfl, hfirst, hothers, ?_⟩
  obtain ⟨-, -, ⟨ho, b, hb⟩ | ⟨ho, hchanges⟩⟩ := PlannedFile.written_or_changes hfirst
  · exact ⟨hb.changes.here, .inl ⟨if_pos ho, ho, b, hb⟩⟩
  · exact ⟨hchanges.here, .inr ⟨if_neg ho, hchanges⟩⟩

/-- There is one outcome for each file, in their order. -/
theorem forall₂_of_execute (h : (execute files r root force).Ends d (.ok os) d') :
    List.Forall₂ (fun f o => o.path = f.destination ∧ o.kind = f.kind) files os := by
  induction files generalizing d os with
  | nil =>
    obtain rfl : [] = os := Except.ok.inj h.1
    exact .nil
  | cons f files ih =>
    obtain ⟨o, os', d₁, rfl, hfirst, hothers, -⟩ := of_execute_cons h
    obtain ⟨hpath, hkind, -⟩ := PlannedFile.written_or_changes hfirst
    exact .cons ⟨hpath, hkind⟩ (ih hothers)

/-- Files are changed only at the places of those that were written. -/
theorem changes_of_execute (h : (execute files r root force).Ends d (.ok os) d') :
    d.Changes d' {q | ∃ f ∈ writtenOf files os, f.placeIn root d.here = q} .univ := by
  induction files generalizing d os with
  | nil =>
    obtain ⟨-, rfl⟩ := h
    exact .refl ..
  | cons f files ih =>
    obtain ⟨o, os', d₁, rfl, -, hothers, hhere, hfirst⟩ := of_execute_cons h
    have hrest := ih hothers
    rw [hhere] at hrest
    obtain ⟨hw, -, b, hb⟩ | ⟨hw, hchanges⟩ := hfirst
    · refine (hb.changes.trans hrest).mono ?_ (Set.subset_univ _)
      rintro q (rfl | ⟨g, hg, rfl⟩)
      · exact ⟨f, by simp [hw], rfl⟩
      · exact ⟨g, by simp [hw, hg], rfl⟩
    · refine (hchanges.trans hrest).mono ?_ (Set.subset_univ _)
      rw [hw, Set.empty_union]

/-- The file that was written last at its place is found there, under the path of every file that
was written at the same place. -/
theorem last_of_execute (h : (execute files r root force).Ends d (.ok os) d') {f : PlannedFile}
    {before after : List PlannedFile} (hw : writtenOf files os = before ++ f :: after)
    (hlast : ∀ g ∈ after, g.placeIn root d.here ≠ f.placeIn root d.here) :
    ∃ b, f.Makes r b ∧ d'.bytes? (f.placeIn root d.here) = some b := by
  -- on the files, on whatever disk the earlier ones left
  induction files generalizing d os before with
  | nil => simp [writtenOf] at hw
  | cons g files ih =>
    obtain ⟨o, os', d₁, rfl, -, hothers, hhere, hfirst⟩ := of_execute_cons h
    rw [← hhere] at hlast ⊢
    obtain ⟨hw', -, b, hb⟩ | ⟨hw', -⟩ := hfirst
    · rw [hw'] at hw
      cases before with
      | cons g' before => exact ih hothers (List.cons.inj hw).2 hlast
      | nil =>
        -- it was the first file, and nothing is written over it
        obtain ⟨rfl, rfl⟩ := List.cons.inj hw
        refine ⟨b, hb.makes, ?_⟩
        rw [(changes_of_execute hothers).bytes? _ ?_, hhere, hb.bytes?]
        rintro ⟨k, hk, hplace⟩
        exact hlast k hk hplace
    · exact ih hothers (hw' ▸ hw) hlast

/-- The path of a file that was written leads to whatever stands at its place afterwards. -/
theorem reach_of_execute (h : (execute files r root force).Ends d (.ok os) d') {f : PlannedFile}
    (hf : f ∈ writtenOf files os) :
    d'.reach (f.pathIn root) = .ok (f.placeIn root d.here, d'.find? (f.placeIn root d.here)) := by
  induction files generalizing d os with
  | nil => simp [writtenOf] at hf
  | cons g files ih =>
    obtain ⟨o, os', d₁, rfl, -, hothers, hhere, hfirst⟩ := of_execute_cons h
    have hrest := ih hothers
    rw [hhere] at hrest
    obtain ⟨hw, -, b, hb⟩ | ⟨hw, -⟩ := hfirst
    · rw [hw] at hf
      rcases List.mem_cons.1 hf with rfl | hf
      · have hchanges := changes_of_execute hothers
        exact Disk.reach_replace hchanges.here hchanges.directory hb.reach nofun
      · exact hrest hf
    · exact hrest (hw ▸ hf)

/-- A run that may not overwrite writes only where nothing stood, each time at another place. -/
theorem free_of_execute (h : (execute files r root false).Ends d (.ok os) d') :
    (∀ f ∈ writtenOf files os, d.find? (f.placeIn root d.here) = none) ∧
      ((writtenOf files os).map (·.placeIn root d.here)).Nodup := by
  induction files generalizing d os with
  | nil => simp [writtenOf]
  | cons f files ih =>
    obtain ⟨o, os', d₁, rfl, hends, hothers, hhere, hfirst⟩ := of_execute_cons h
    obtain ⟨hfree, hnodup⟩ := ih hothers
    rw [hhere] at hfree hnodup
    -- what stood somewhere before the first file stands there after it
    have hstays : d.Changes d₁ {q | d.find? q = none} .univ →
        ∀ g ∈ writtenOf files os', d.find? (g.placeIn root d.here) = none := by
      intro hchanges g hg
      exact hchanges.find?_eq_none (hfree g hg) id
    obtain ⟨hw, ho, b, hb⟩ | ⟨hw, hchanges⟩ := hfirst
    · have hnew := PlannedFile.find?_of_executeOne hends ho
      rw [hw, List.forall_mem_cons, List.map_cons, List.nodup_cons]
      refine ⟨⟨hnew, hstays (hb.changes.mono ?_ subset_rfl)⟩, ?_, hnodup⟩
      · simpa using hnew
      · -- the first file stands at its place when the others come
        intro hmem
        obtain ⟨g, hg, hplace⟩ := List.mem_map.1 hmem
        have hbytes := hb.bytes?
        rw [← hplace, Disk.bytes?_eq_some, hfree g hg] at hbytes
        cases hbytes
    · rw [hw]
      exact ⟨hstays (hchanges.mono (Set.empty_subset _) subset_rfl), hnodup⟩

/-- **What a run leaves of the files.**  Whenever a run over planned files returns, there is one
outcome for each file, in their order, and
* a run that may not overwrite leaves every file that was there as it was, and where it wrote one,
  nothing stood before and the text of this file stands now;
* in any run, where files were written the text of the last one is read under the path of each;
* in any run, a file is new or changed only at the place of one that was written. -/
theorem execute_respects_files (h : (execute files r root force).Ends d (.ok os) d') :
    List.Forall₂ (fun f o => o.path = f.destination ∧ o.kind = f.kind) files os ∧
    (force = false → (∀ q b, d.bytes? q = some b → d'.bytes? q = some b) ∧
      ∀ f ∈ writtenOf files os, d.find? (f.placeIn root d.here) = none ∧
        ∃ b, f.Makes r b ∧ d'.readBytes (f.pathIn root) = .ok b) ∧
    (∀ before f after, writtenOf files os = before ++ f :: after →
      (∀ g ∈ after, g.placeIn root d.here ≠ f.placeIn root d.here) →
      ∃ b, f.Makes r b ∧ ∀ g ∈ writtenOf files os,
        g.placeIn root d.here = f.placeIn root d.here → d'.readBytes (g.pathIn root) = .ok b) ∧
    ∀ q, d'.bytes? q ≠ d.bytes? q → ∃ f ∈ writtenOf files os, f.placeIn root d.here = q := by
  have hread : ∀ {g b}, g ∈ writtenOf files os → d'.bytes? (g.placeIn root d.here) = some b →
      d'.readBytes (g.pathIn root) = .ok b := by
    intro g b hg hb
    have hreach := reach_of_execute h hg
    rw [Disk.bytes?_eq_some.1 hb] at hreach
    exact Disk.readBytes_eq_ok_iff.2 ⟨_, hreach⟩
  have hframe : ∀ q, d'.bytes? q ≠ d.bytes? q →
      ∃ f ∈ writtenOf files os, f.placeIn root d.here = q := by
    intro q hq
    by_contra hno
    exact hq ((changes_of_execute h).bytes? q hno)
  refine ⟨forall₂_of_execute h, ?_, ?_, hframe⟩
  · rintro rfl
    obtain ⟨hfree, hnodup⟩ := free_of_execute h
    refine ⟨?_, ?_⟩
    · intro q b hb
      by_contra hchanged
      obtain ⟨f, hf, rfl⟩ := hframe q fun hsame => hchanged (hsame.trans hb)
      rw [Disk.bytes?_eq_some, hfree f hf] at hb
      cases hb
    · intro f hf
      -- as the places differ, each file is the last one at its own
      obtain ⟨before, after, hw⟩ := List.append_of_mem hf
      rw [hw, List.map_append, List.map_cons, List.nodup_append, List.nodup_cons] at hnodup
      obtain ⟨b, hmakes, hb⟩ := last_of_execute h hw fun g hg hplace =>
        hnodup.2.1.1 (hplace ▸ List.mem_map_of_mem hg)
      exact ⟨hfree f hf, b, hmakes, hread hf hb⟩
  · intro before f after hw hlast
    obtain ⟨b, hmakes, hb⟩ := last_of_execute h hw hlast
    exact ⟨b, hmakes, fun g hg hplace => hread hg (hplace ▸ hb)⟩

/-- A file that is there, and two planned ones at one place: without overwriting, the first of these
is written and the file that was there is kept; with overwriting, the second is found under both
paths. -/
theorem execute_respects_files_onePlace :
    let d : Disk := ⟨[(["a.ts"], .file [0x61])], []⟩
    let file (place text : Text) : PlannedFile := ⟨"doc", place, fun _ => .ok (some text)⟩
    let files := [file "a.ts" "A", file "x/../b.ts" "B", file "b.ts" "C"]
    let r : Resource := { name := "user", pluralName := "users", varName := "userResource" }
    let root : Path := ⟨.top, []⟩
    (∃ os d', (execute files r root false).Ends d (.ok os) d' ∧ d'.bytes? ["a.ts"] = some [0x61] ∧
      d'.readBytes (root.join (.read "x/../b.ts")) = .ok [0x42]) ∧
    ∃ os d', (execute files r root true).Ends d (.ok os) d' ∧
      d'.readBytes (root.join (.read "x/../b.ts")) = .ok [0x43] := by
  intro d file files r root
  let second := file "x/../b.ts" "B"
  let third := file "b.ts" "C"
  have hmakes : ∀ {place text b b'}, (file place text).Makes r b → Utf8.encode text = .ok b' →
      b = b' := by
    rintro place text b b' ⟨t, ht, hb⟩ hb'
    obtain rfl := Option.some.inj (Except.ok.inj ht)
    exact Except.ok.inj (hb.symm.trans hb')
  have hkept : (execute files r root false).Ends d
      (.ok [⟨"a.ts", "doc", .skipped⟩, ⟨"x/../b.ts", "doc", .written⟩, ⟨"b.ts", "doc", .skipped⟩])
      (execute files r root false d).disk :=
    ⟨Except.eq_ok_of_toOption (by decide +kernel), rfl⟩
  have hover : (execute files r root true).Ends d
      (.ok [⟨"a.ts", "doc", .written⟩, ⟨"x/../b.ts", "doc", .written⟩, ⟨"b.ts", "doc", .written⟩])
      (execute files r root true d).disk :=
    ⟨Except.eq_ok_of_toOption (by decide +kernel), rfl⟩
  refine ⟨⟨_, _, hkept, ?_, ?_⟩, _, _, hover, ?_⟩
  · obtain ⟨hkeeps, -⟩ := (execute_respects_files hkept).2.1 rfl
    exact hkeeps _ _ (by decide +kernel)
  · obtain ⟨-, hwrites⟩ := (execute_respects_files hkept).2.1 rfl
    obtain ⟨-, b, hb, hread⟩ := hwrites second (.head _)
    obtain rfl : b = [0x42] := hmakes hb (by decide +kernel)
    exact hread
  · obtain ⟨b, hb, hread⟩ := (execute_respects_files hover).2.2.1 [file "a.ts" "A", second] third []
      rfl (by simp)
    obtain rfl : b = [0x43] := hmakes hb (by decide +kernel)
    exact hread second (.tail _ (.head _)) (by decide +kernel)

end Scaffold
