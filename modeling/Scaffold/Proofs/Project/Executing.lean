import Scaffold.Proofs.Project.Change

/-!
# When the files of a resource are written

A file whose text cannot be made, or that the disk refuses to write, is a failed one, and the files
behind it are made and written all the same (`PlannedFile.Becomes`).  The writing ends early only
where it breaks (`PlannedFile.Breaks`): the path of a file is at fault on every disk, or its text
has no bytes.  Then the files before it are done, and those behind it are not.

* `PlannedFile.becomes_or_breaks` is about one file, `execute_returns_or_breaks` about a run over
  any files.
-/

namespace Scaffold

/-! ### Planning -/

theorem Recipe.plan_eq_ok_iff {recipe : Recipe} {r : Resource} {f : PlannedFile} :
    recipe.plan r = .ok f ↔ ∃ place,
      Template.fill [("name", r.name), ("plural", r.pluralName)] recipe.place = .ok place ∧
      ⟨recipe.kind, place, recipe.maker⟩ = f := by
  rw [Recipe.plan, Except.bind_eq_ok_iff]
  exact exists_congr fun place => and_congr_right fun _ =>
    ⟨fun h => Except.ok.inj h, fun h => congrArg _ h⟩

/-- There is a planned file for every recipe of the chosen kind. -/
theorem plan_eq_ok_iff {catalogue : Catalogue} {only : Option Text} {r : Resource}
    {files : List PlannedFile} : (plan catalogue only r).1 = .ok files ↔
      List.Forall₂ (fun recipe f => recipe.plan r = .ok f) (catalogue.orStandard.ofKind only)
        files := by
  rw [← Except.mapM_eq_ok_iff]
  cases h : (catalogue.orStandard.ofKind only).mapM (Recipe.plan · r) <;> simp [plan, h]

theorem exists_forall₂_filter {P : Recipe → PlannedFile → Prop} {recipes : Catalogue}
    {files : List PlannedFile} (h : List.Forall₂ P recipes files) (keep : Recipe → Bool) :
    ∃ kept, List.Forall₂ P (recipes.filter keep) kept ∧ kept.Sublist files := by
  induction h with
  | nil => exact ⟨[], .nil, .slnil⟩
  | @cons recipe f recipes files hf _ ih =>
    obtain ⟨kept, hkept, hsub⟩ := ih
    rw [List.filter_cons]
    split
    · exact ⟨f :: kept, .cons hf hkept, hsub.cons_cons f⟩
    · exact ⟨kept, hkept, hsub.cons f⟩

/-- The files of one kind are among all files. -/
theorem exists_plan_only {catalogue : Catalogue} {r : Resource} {files : List PlannedFile}
    (h : (plan catalogue none r).1 = .ok files) (only : Option Text) :
    ∃ kept, (plan catalogue only r).1 = .ok kept ∧ kept.Sublist files := by
  cases only with
  | none => exact ⟨files, h, List.Sublist.refl files⟩
  | some kind =>
    obtain ⟨kept, hkept, hsub⟩ := exists_forall₂_filter (plan_eq_ok_iff.1 h) (·.kind = kind)
    exact ⟨kept, plan_eq_ok_iff.2 hkept, hsub⟩

open Work

/-! ### One file -/

namespace PlannedFile

variable {f : PlannedFile} {r : Resource} {root : Path} {force : Bool} {d d' : Disk}

/-- The path of the file in a project. -/
def pathIn (f : PlannedFile) (root : Path) : Path := root.join (.read f.destination)

/-- The writing of the file may break. -/
inductive Breaks (f : PlannedFile) (r : Resource) (root : Path) : Prop where
  /-- The path is at fault on every disk. -/
  | path (t : Text) (hmaker : f.maker r = .ok (some t)) (e : FileError)
      (hfault : (f.pathIn root).fault? = some e)
  /-- The text has no bytes. -/
  | text (t : Text) (hmaker : f.maker r = .ok (some t)) (htext : ¬ t.IsScalar)

/-- What becomes of the file on the disk `d`: its status, and the disk afterwards. -/
inductive Becomes (f : PlannedFile) (r : Resource) (root : Path) (force : Bool) (d : Disk) :
    WriteStatus → Disk → Prop where
  /-- The maker fails. -/
  | unmade {reason : Text} (maker : f.maker r = .error reason) :
      Becomes f r root force d (.failed ("producer error: " ++ reason)) d
  /-- The resource has no such file. -/
  | omitted (maker : f.maker r = .ok none) : Becomes f r root force d .omitted d
  /-- The text is written. -/
  | written {t : Text} {d' : Disk} (maker : f.maker r = .ok (some t))
      (wrote : d.Wrote (f.pathIn root) t (.ok ()) d') : Becomes f r root force d .written d'
  /-- The file is there and may not be overwritten. -/
  | skipped {t : Text} {d' : Disk} (maker : f.maker r = .ok (some t)) (kept : force = false)
      (changes : d.Changes d' ∅ ((f.pathIn root).parent.onWay d.here)) :
      Becomes f r root force d .skipped d'
  /-- The disk refuses. -/
  | refused {t : Text} {e : FileError} {d' : Disk} (maker : f.maker r = .ok (some t))
      (refusal : e.isRefusal = true) (wrote : d.Wrote (f.pathIn root) t (.error e) d') :
      Becomes f r root force d (.failed e.message) d'

theorem ends_writePlanned_of_ok {content : Text} {o : WriteOutcome}
    (h : (writeGenerated root f.destination f.kind content force).Ends d (.ok o) d') :
    (writePlanned root f content force).Ends d (.ok o) d' :=
  (Ends.attempt h).bind (ends_pure o d')

theorem ends_writePlanned_of_refused {content : Text} {e : FileError} (he : e.isRefusal = true)
    (h : (writeGenerated root f.destination f.kind content force).Ends d (.error e) d') :
    (writePlanned root f content force).Ends d
      (.ok ⟨f.destination, f.kind, .failed e.message⟩) d' := by
  refine (Ends.attempt h).bind ?_
  simp only [he, if_true]
  exact (ends_report _ d').bind (ends_pure _ d')

theorem ends_writePlanned_of_broken {content : Text} {e : FileError} (he : e.isRefusal = false)
    (h : (writeGenerated root f.destination f.kind content force).Ends d (.error e) d') :
    (writePlanned root f content force).Ends d (.error e) d' := by
  refine (Ends.attempt h).bind ?_
  simp only [he]
  exact ends_fail e d'

theorem ends_executeOne_of_error {reason : Text} (hm : f.maker r = .error reason) :
    (executeOne r root force f).Ends d
      (.ok ⟨f.destination, f.kind, .failed ("producer error: " ++ reason)⟩) d := by
  rw [executeOne, hm]
  exact (ends_report _ d).bind (ends_pure _ d)

theorem ends_executeOne_of_none (hm : f.maker r = .ok none) :
    (executeOne r root force f).Ends d (.ok ⟨f.destination, f.kind, .omitted⟩) d := by
  rw [executeOne, hm]
  exact (ends_report _ d).bind (ends_pure _ d)

theorem executeOne_of_some {content : Text} (hm : f.maker r = .ok (some content)) :
    executeOne r root force f = writePlanned root f content force := by
  rw [executeOne, hm]

/-- **A file becomes something, or breaks the writing.** -/
theorem becomes_or_breaks (f : PlannedFile) (r : Resource) (root : Path) (force : Bool) (d : Disk) :
    (∃ status d', f.Becomes r root force d status d' ∧
      (executeOne r root force f).Ends d (.ok ⟨f.destination, f.kind, status⟩) d') ∨
    f.Breaks r root ∧ ∃ e d', (executeOne r root force f).Ends d (.error e) d' := by
  cases hm : f.maker r with
  | error reason => exact .inl ⟨_, d, .unmade hm, ends_executeOne_of_error hm⟩
  | ok made =>
    cases made with
    | none => exact .inl ⟨_, d, .omitted hm, ends_executeOne_of_none hm⟩
    | some t =>
      rw [executeOne_of_some hm]
      rcases writeGenerated_cases root f.destination f.kind t force d with
        ⟨x, d', hends, hwrote⟩ | ⟨hforce, d', hends, hchanges⟩
      · cases x with
        | ok x => exact .inl ⟨_, d', .written hm hwrote, ends_writePlanned_of_ok hends⟩
        | error e =>
          -- an error is an outcome only if it is a refusal of the disk
          by_cases he : e.isRefusal = true
          · exact .inl ⟨_, d', .refused hm he hwrote, ends_writePlanned_of_refused he hends⟩
          · refine .inr ⟨?_, e, d', ends_writePlanned_of_broken (by simpa using he) hends⟩
            cases hf : (f.pathIn root).fault? with
            | some e' => exact .path t hm e' hf
            | none => exact .text t hm fun ht => he (hwrote.isRefusal hf ht)
      · exact .inl ⟨_, d', .skipped hm hforce hchanges, ends_writePlanned_of_ok hends⟩

end PlannedFile

/-! ### All files -/

/-- The files become something in turn: each finds the disk as the one before it left it. -/
inductive WrittenInTurn (r : Resource) (root : Path) (force : Bool) :
    List PlannedFile → Disk → List WriteOutcome → Disk → Prop where
  /-- No file is left. -/
  | nil (d : Disk) : WrittenInTurn r root force [] d [] d
  /-- A file becomes something, and then the others. -/
  | cons {f : PlannedFile} {files : List PlannedFile} {status : WriteStatus}
      {os : List WriteOutcome} {d d' d'' : Disk} (first : f.Becomes r root force d status d')
      (others : WrittenInTurn r root force files d' os d'') :
      WrittenInTurn r root force (f :: files) d (⟨f.destination, f.kind, status⟩ :: os) d''

variable {files : List PlannedFile} {r : Resource} {root : Path} {force : Bool} {d d' : Disk}
  {os : List WriteOutcome}

/-- There is one outcome for each file, in their order. -/
theorem WrittenInTurn.forall₂ (h : WrittenInTurn r root force files d os d') :
    List.Forall₂ (fun f o => o.path = f.destination ∧ o.kind = f.kind) files os := by
  induction h with
  | nil => exact .nil
  | cons _ _ ih => exact .cons ⟨rfl, rfl⟩ ih

/-- **The writing of files returns one outcome for each of them, or breaks at one of them**:
something has become of the files before that one, and it breaks the writing. -/
theorem execute_returns_or_breaks (files : List PlannedFile) (r : Resource) (root : Path)
    (force : Bool) (d : Disk) :
    (∃ os d', WrittenInTurn r root force files d os d' ∧
      (execute files r root force).Ends d (.ok os) d' ∧
      List.Forall₂ (fun f o => o.path = f.destination ∧ o.kind = f.kind) files os) ∨
    ∃ done f later os d₁, files = done ++ f :: later ∧ WrittenInTurn r root force done d os d₁ ∧
      f.Breaks r root ∧ ∃ e d', (execute files r root force).Ends d (.error e) d' := by
  -- on the files, on whatever disk the earlier ones left
  induction files generalizing d with
  | nil => exact .inl ⟨[], d, .nil d, ends_each_nil _ d, .nil⟩
  | cons f files ih =>
    rcases f.becomes_or_breaks r root force d with
      ⟨status, d₁, hfirst, hends⟩ | ⟨hbreaks, e, d', hends⟩
    · rcases ih d₁ with
        ⟨os, d₂, hturn, hrest, -⟩ | ⟨done, g, later, os, d₂, rfl, hturn, hbreaks, e, d', hrest⟩
      · have hall := WrittenInTurn.cons hfirst hturn
        exact .inl ⟨_, d₂, hall, hends.each_cons hrest, hall.forall₂⟩
      · exact .inr ⟨f :: done, g, later, _, d₂, rfl, .cons hfirst hturn, hbreaks, e, d',
          hends.bind hrest.bind_error⟩
    · exact .inr ⟨[], f, files, [], d, rfl, .nil d, hbreaks, e, d', hends.bind_error⟩

/-- A resource with a zero byte in its name: the writing of its files ends with the first, and the
second is not made. -/
theorem execute_breaks_zeroByte :
    let catalogue : Catalogue := [⟨"form", "\x7bname\x7d.ts", fun _ => .ok (some "A")⟩,
      ⟨"doc", "doc.ts", fun _ => .ok (some "B")⟩]
    let r : Resource := { name := "a\x00b", pluralName := "a\x00bs", varName := "aResource" }
    ∃ files, (plan catalogue none r).1 = .ok files ∧
      ∃ e, (execute files r ⟨.top, []⟩ false).Ends ⟨[], []⟩ (.error e) ⟨[], []⟩ ∧
        e.isRefusal = false := by
  intro catalogue r
  have hname : Template.fill [("name", r.name), ("plural", r.pluralName)] "\x7bname\x7d.ts" =
      .ok "a\x00b.ts" := Except.eq_ok_of_toOption (by decide +kernel)
  refine ⟨[⟨"form", "a\x00b.ts", _⟩, ⟨"doc", "doc.ts", _⟩],
    plan_eq_ok_iff.2 (.cons (Recipe.plan_eq_ok_iff.2 ⟨_, hname, rfl⟩)
      (.cons (Recipe.plan_eq_ok_iff.2 ⟨"doc.ts", rfl, rfl⟩) .nil)), .zeroByte, ⟨rfl, rfl⟩, rfl⟩

end Scaffold
