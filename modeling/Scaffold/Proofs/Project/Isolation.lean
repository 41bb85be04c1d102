import Scaffold.Proofs.Project.Locality
import Scaffold.Proofs.Project.Merging

/-!
# Hubs on their own

Registering a resource in several hubs does to each of them what registering it in that hub alone
does, as long as no hub lies below another (`Disk.IsProject.merge_isolates`).  A registration
depends only on what stands at the place of the hub and on the files in its way
(`Disk.IsProject.merge_congr`), and changes nothing apart from that place but the directories above
it (`Hub.changes_of_merge`).

A hub with a name that is too long for the disk is never made (`Disk.not_written_of_long`).  Why not
may depend on the directories that are there, and so on the hubs before it
(`Disk.merge_tells_long_name`).
-/

namespace Scaffold

open Work

/-! ### What a registration changes -/

namespace Hub

variable {h : Hub} {r : Resource} {root : Path} {p : Place} {d d' d₁ d₁' : Disk} {o : HubOutcome}

/-- A registration changes at most the hub, and says so. -/
theorem changes_of_merge (hm : (Hub.merge r root h).Ends d (.ok o) d') :
    ∃ S, d.Changes d' S ((h.pathIn root).parent.onWay d.here) ∧
      (S = ∅ ∨ S = {(h.pathIn root).place d.here} ∧
        (o.status = .created ∨ o.status = .updated)) := by
  rcases of_ends_merge hm with ⟨status, hto, rfl⟩ | ⟨e, he, hto, rfl⟩
  · cases hto with
    | exempt => exact ⟨∅, .refl .., .inl rfl⟩
    | settled => exact ⟨∅, .refl .., .inl rfl⟩
    | @saved current _ _ _ hw hsave =>
      refine ⟨_, (Disk.wrote_save hsave).changes_place, .inr ⟨rfl, ?_⟩⟩
      rw [statusOf_of_written?_eq_some hw]
      cases current <;> simp
  · cases hto with
    | unread => exact ⟨∅, .refl .., .inl rfl⟩
    | unsaved _ _ hsave =>
      cases Disk.wrote_save hsave with
      | kept _ hchanges => exact ⟨∅, hchanges, .inl rfl⟩
      | emptied => cases he

end Hub

/-! ### What a registration depends on -/

namespace Disk

variable {h : Hub} {r : Resource} {root : Path} {p : Place} {d d' d₁ d₁' : Disk}
  {names : List Text} {o : HubOutcome}

theorem IsProject.find?_of_readBytes (hp : d.IsProject root p)
    (hn : ∀ name ∈ names, name ≠ Text.ofString "..") {b : Bytes}
    (hb : d.readBytes (root.below names) = .ok b) : d.find? (p ++ names) = some (.file b) := by
  obtain ⟨q, hr⟩ := readBytes_eq_ok_iff.1 hb
  rw [← hp.place_below hn, ← place_eq_of_reach hr]
  exact (find?_of_walk (reach_eq_ok_iff.1 hr).2.2 (by simp)).2

/-- A hub is read the same where the same stands. -/
theorem IsProject.current?_congr (hp : d.IsProject root p) (hp' : d'.IsProject root p)
    (hn : ∀ name ∈ names, IsPlainName name) (hsame : d'.find? (p ++ names) = d.find? (p ++ names))
    {x : Except FileError (Option Text)}
    (hc : (Hub.current? (root.below names)).Ends d x d) :
    (Hub.current? (root.below names)).Ends d' x d' := by
  have hup : ∀ name ∈ names, name ≠ Text.ofString ".." := fun name hm => (hn name hm).1
  -- whether there is a file is decided by looking; its bytes are what stands at the place
  have hfile : d'.isFile (root.below names) = d.isFile (root.below names) := by
    rw [isFile, isFile, hp.look_congr hp' hn hsame]
  have hread : d.isFile (root.below names) = .ok true →
      d'.readText (root.below names) = d.readText (root.below names) := by
    intro htrue
    obtain ⟨b, hb⟩ := exists_readBytes htrue
    obtain ⟨b', hb'⟩ := exists_readBytes (hfile.trans htrue)
    have hbytes := hp'.find?_of_readBytes hup hb'
    rw [hsame, hp.find?_of_readBytes hup hb, Option.some.injEq, Entry.file.injEq] at hbytes
    rw [readText, readText, hb, hb', hbytes]
  obtain ⟨hx, -⟩ := (Hub.ends_current? (root.below names) d).unique hc
  have hends := Hub.ends_current? (root.below names) d'
  rw [← hx]
  cases htrue : d.isFile (root.below names) with
  | error e => rwa [hfile, htrue] at hends
  | ok there =>
    cases there with
    | false => rwa [hfile, htrue] at hends
    | true => rwa [hfile, htrue, hread htrue] at hends

/-- A hub that is not said to be made or changed is as it was. -/
theorem IsProject.find?_of_merge (hp : d.IsProject root p)
    (hrel : (Path.read h.place).start = .here)
    (hup : ∀ name ∈ h.names, name ≠ Text.ofString "..")
    (hm : (Hub.merge r root h).Ends d (.ok o) d')
    (ho : o.status ≠ .created ∧ o.status ≠ .updated) :
    d'.find? (p ++ h.names) = d.find? (p ++ h.names) := by
  obtain ⟨S, hc, rfl | ⟨-, hstatus⟩⟩ := Hub.changes_of_merge hm
  · rw [Hub.pathIn_eq hrel] at hc
    exact hp.find?_of_changes hup hc
  · exact (hstatus.elim ho.1 ho.2).elim

/-- **A registration depends on the place of the hub alone**: where the same stands there, and the
same files are in its way, it answers the same and leaves the same there. -/
theorem IsProject.merge_congr (hp : d.IsProject root p) (hp' : d'.IsProject root p)
    (hrel : (Path.read h.place).start = .here) (hnamed : h.names ≠ [])
    (hn : ∀ name ∈ h.names, IsPlainName name) (hsame : d.SameOn d' (p ++ h.names))
    (hm : (Hub.merge r root h).Ends d (.ok o) d₁) :
    ∃ d₁', (Hub.merge r root h).Ends d' (.ok o) d₁' ∧
      d₁'.find? (p ++ h.names) = d₁.find? (p ++ h.names) := by
  have hup : ∀ name ∈ h.names, name ≠ Text.ofString ".." := fun name hm => (hn name hm).1
  have hpath : h.pathIn root = root.below h.names := Hub.pathIn_eq hrel
  have hcurrent : ∀ {y}, (Hub.current? (h.pathIn root)).Ends d y d →
      (Hub.current? (h.pathIn root)).Ends d' y d' := fun hc => by
    rw [hpath] at hc ⊢
    exact hp.current?_congr hp' hn hsame.find? hc
  have hsaves : ∀ {t x d₁}, d.save (h.pathIn root) t = (x, d₁) →
      ∃ d₁', d'.save (h.pathIn root) t = (x, d₁') := fun {t x d₁} hsave => by
    obtain ⟨names, name, hnames⟩ := (List.eq_nil_or_concat' h.names).resolve_left hnamed
    rw [hnames] at hn hsame
    rw [hpath, hnames] at hsave ⊢
    have hx : (d'.save (root.below (names ++ [name])) t).1 = x :=
      (hp.save_congr hp' hn hsame t).trans (congrArg Prod.fst hsave)
    exact ⟨_, Prod.ext hx rfl⟩
  -- each way the registration can end is taken on the other disk too
  rcases Hub.of_ends_merge hm with ⟨status, hto, rfl⟩ | ⟨e, he, hto, rfl⟩
  · cases hto with
    | exempt ha =>
      exact ⟨d', Hub.ends_merge_of_ok (Hub.ends_mergeAt_of_not_applies ha), hsame.find?⟩
    | settled _ hc hw =>
      exact ⟨d', Hub.ends_merge_of_ok (Hub.ends_mergeAt_of_eq_none (hcurrent hc) hw), hsame.find?⟩
    | saved hc hw hsave =>
      obtain ⟨d₁', hsave'⟩ := hsaves hsave
      refine ⟨d₁', Hub.ends_merge_of_ok (Hub.ends_mergeAt_of_eq_some (hcurrent hc) hw hsave'), ?_⟩
      cases wrote_save hsave with
      | written hb hreach hchanges =>
        cases wrote_save hsave' with
        | written hb' hreach' hchanges' =>
          -- the text is the same, and so are its bytes
          rw [hb, Except.ok.injEq] at hb'
          rw [hpath] at hreach hreach'
          rw [(hchanges.isProject hp).find?_of_readBytes hup (readBytes_eq_ok_iff.2 ⟨_, hreach⟩),
            (hchanges'.isProject hp').find?_of_readBytes hup (readBytes_eq_ok_iff.2 ⟨_, hreach'⟩),
            hb']
  · cases hto with
    | unread ha hc =>
      exact ⟨d', Hub.ends_merge_of_refused he (Hub.ends_mergeAt_of_unread ha (hcurrent hc)),
        hsame.find?⟩
    | unsaved hc hw hsave =>
      obtain ⟨d₁', hsave'⟩ := hsaves hsave
      have hm' := Hub.ends_merge_of_refused he
        (Hub.ends_mergeAt_of_eq_some (hcurrent hc) hw hsave')
      refine ⟨d₁', hm', ?_⟩
      rw [hp'.find?_of_merge hrel hup hm' (by simp), hp.find?_of_merge hrel hup hm (by simp),
        hsame.find?]

/-! ### Names that are too long -/

theorem ne_ok_of_long (hlong : ∃ name ∈ names, isTooLong name = true)
    (found : Place × Option Entry) :
    d.reach (root.below names) ≠ .ok found := by
  intro hr
  obtain ⟨name, hm, hl⟩ := hlong
  have hshort := short_of_reach hr name (List.mem_append_right _ hm)
  rw [hl] at hshort
  cases hshort

/-- A registration in a hub with a name that is too long fails, or writes nothing to the absent
hub. -/
theorem outcome_of_long (hrel : (Path.read h.place).start = .here)
    (hlong : ∃ name ∈ h.names, isTooLong name = true)
    (hm : (Hub.merge r root h).Ends d (.ok o) d') :
    (∃ reason, o.status = .failed reason) ∨
      o = ⟨h.name, h.place, h.statusOf r none⟩ ∧ o.status ≠ .created ∧ o.status ≠ .updated := by
  have hreach : ∀ found, d'.reach (h.pathIn root) ≠ .ok found := fun found => by
    rw [Hub.pathIn_eq hrel]
    exact ne_ok_of_long hlong found
  rcases Hub.of_ends_merge hm with ⟨status, hto, rfl⟩ | ⟨e, -, -, rfl⟩
  · refine .inr ?_
    cases hto with
    | exempt ha => simp [Hub.statusOf, ha]
    | @settled current _ hc hw =>
      have hcurrent : current = none := by
        obtain ⟨-, hread, -⟩ := Hub.of_ends_current? hc
        cases current with
        | none => rfl
        | some t =>
          obtain ⟨b, hb, -⟩ := readText_eq_ok_iff.1 (hread t rfl)
          obtain ⟨q, hr⟩ := readBytes_eq_ok_iff.1 hb
          exact absurd hr (hreach _)
      subst hcurrent
      exact ⟨rfl, Hub.statusOf_of_written?_eq_none hw⟩
    | saved _ _ hsave =>
      cases wrote_save hsave with
      | written _ hr => exact absurd hr (hreach _)
  · exact .inl ⟨_, rfl⟩

/-- A hub with a name that is too long is never made. -/
theorem not_written_of_long (hrel : (Path.read h.place).start = .here)
    (hlong : ∃ name ∈ h.names, isTooLong name = true)
    (hm : (Hub.merge r root h).Ends d (.ok o) d') : o.status ≠ .created ∧ o.status ≠ .updated := by
  rcases outcome_of_long hrel hlong hm with ⟨reason, ho⟩ | ⟨-, ho⟩
  · simp [ho]
  · exact ho

/-- Where a path is at fault, and a directory on its way is too long, a file cannot be saved;
whether the disk is to blame for that depends on the files in the way. -/
theorem IsProject.isRefusal_of_save (hp : d.IsProject root p) (hp' : d'.IsProject root p)
    (hup : ∀ name ∈ names, name ≠ Text.ofString "..") (hnamed : names ≠ [])
    (hfiles : ∀ u, u <+: p ++ names → d'.bytes? u = d.bytes? u)
    (hfault : (root.below names).fault? ≠ none) {t t' : Text} {e e' : FileError}
    (hsave : d.save (root.below names) t = (.error e, d₁)) (he : e.isRefusal = true)
    (hsave' : d'.save (root.below names) t' = (.error e', d₁')) : e'.isRefusal = true := by
  obtain ⟨fault, hfault⟩ := Option.ne_none_iff_exists'.1 hfault
  have hreach : ∀ d : Disk, d.reach (root.below names) = .error fault := fun d => by
    rw [Disk.reach, hfault]
  obtain ⟨names, name, rfl⟩ := (List.eq_nil_or_concat' names).resolve_left hnamed
  rw [Disk.save, parent_below] at hsave hsave'
  cases hx : d'.makeDirectories (root.below names) with
  | mk x d₂ =>
    rw [hx] at hsave'
    cases x with
    | error e₂ =>
      obtain rfl := Except.error.inj (Prod.mk.inj hsave').1
      by_cases hf : (root.below names).fault? = none
      · exact isRefusal_of_makeDirectories hf hx
      · -- the directories are at fault already
        obtain ⟨fault', hf⟩ := Option.ne_none_iff_exists'.1 hf
        have hr : d.reach (root.below names) = .error fault' := by rw [Disk.reach, hf]
        rw [makeDirectories_of_error hr (.inl (Path.isRefusal_of_fault? hf))] at hsave
        obtain rfl := Except.error.inj (Prod.mk.inj hsave).1
        rw [Path.isRefusal_of_fault? hf] at he
        cases he
    | ok x =>
      -- then they are short, and are made on the other disk too
      obtain ⟨u, hu⟩ := reach_of_makeDirectories hx
      have hn : ∀ m ∈ names, IsPlainName m := fun m hm =>
        ⟨hup m (by simp [hm]), short_of_reach hu m (List.mem_append_right _ hm)⟩
      have hmake := hp.makeDirectories_congr hp' hn fun u hu =>
        hfiles u (hu.trans ((List.prefix_append_right_inj p).2 (List.prefix_append names [name])))
      cases hy : d.makeDirectories (root.below names) with
      | mk y d₃ =>
        rw [hx, hy] at hmake
        obtain rfl : Except.ok x = y := hmake
        rw [hy] at hsave
        simp only [writeText, hreach d₃] at hsave
        obtain rfl := Except.error.inj (Prod.mk.inj hsave).1
        rw [Path.isRefusal_of_fault? hfault] at he
        cases he

theorem ends_current?_of_fault {path : Path} (hf : path.fault? ≠ none) (d : Disk) :
    (Hub.current? path).Ends d (.ok none) d := by
  obtain ⟨e, hf⟩ := Option.ne_none_iff_exists'.1 hf
  have hfile : d.isFile path = .ok false := by
    have hr : d.reach path = .error e := by rw [reach, hf]
    rw [isFile, look, hr]
    have he := Path.isRefusal_of_fault? hf
    cases e with
    | refused => cases he
    | _ => rfl
  have hends := Hub.ends_current? path d
  rwa [hfile] at hends

/-- Where the path of a hub is at fault, a registration that writes to it returns only if the disk
refused before the path was tried. -/
theorem exists_refusal_of_fault {t : Text} (hfault : (h.pathIn root).fault? ≠ none)
    (hw : h.written? r none = some t) (hm : (Hub.merge r root h).Ends d (.ok o) d₁) :
    ∃ e, d.save (h.pathIn root) t = (.error e, d₁) ∧ e.isRefusal = true := by
  have hcurrent : ∀ {x}, (Hub.current? (h.pathIn root)).Ends d x d → x = .ok none := fun hc =>
    (hc.unique (ends_current?_of_fault hfault d)).1
  rcases Hub.of_ends_merge hm with ⟨status, hto, -⟩ | ⟨e, he, hto, -⟩
  · cases hto with
    | exempt ha =>
      rw [(Hub.eq_register_of_written? hw).1] at ha
      cases ha
    | settled _ hc hw' =>
      obtain rfl := Except.ok.inj (hcurrent hc)
      rw [hw] at hw'
      cases hw'
    | saved _ _ hsave =>
      cases wrote_save hsave with
      | written _ hr => exact absurd (reach_eq_ok_iff.1 hr).1 hfault
  · cases hto with
    | unread _ hc => cases hcurrent hc
    | unsaved hc hw' hsave =>
      obtain rfl := Except.ok.inj (hcurrent hc)
      obtain rfl := Option.some.inj (hw.symm.trans hw')
      exact ⟨e, hsave, he⟩

/-- A registration in a hub with a name that is too long returns wherever the same files are in the
way. -/
theorem IsProject.exists_merge_of_long (hp : d.IsProject root p) (hp' : d'.IsProject root p)
    (hrel : (Path.read h.place).start = .here)
    (hup : ∀ name ∈ h.names, name ≠ Text.ofString "..")
    (hlong : ∃ name ∈ h.names, isTooLong name = true)
    (hfiles : ∀ u, u <+: p ++ h.names → d'.bytes? u = d.bytes? u)
    (hm : (Hub.merge r root h).Ends d (.ok o) d₁) :
    ∃ o' d₁', (Hub.merge r root h).Ends d' (.ok o') d₁' := by
  have hpath : h.pathIn root = root.below h.names := Hub.pathIn_eq hrel
  have hreach : ∀ (d : Disk) found, d.reach (h.pathIn root) ≠ .ok found := fun d found =>
    hpath ▸ ne_ok_of_long hlong found
  obtain ⟨x, d₁', hends, hto⟩ := Hub.exists_mergesTo h r root d'
  cases hto with
  | exempt => exact ⟨_, _, Hub.ends_merge_of_ok hends⟩
  | settled => exact ⟨_, _, Hub.ends_merge_of_ok hends⟩
  | saved => exact ⟨_, _, Hub.ends_merge_of_ok hends⟩
  | unread _ hc =>
    rcases Hub.unread_cases hc with he | ⟨b, -, hb, -⟩
    · exact ⟨_, _, Hub.ends_merge_of_refused he hends⟩
    · obtain ⟨q, hr⟩ := readBytes_eq_ok_iff.1 hb
      exact absurd hr (hreach d' _)
  | @unsaved current t e _ hc hw hsave =>
    refine ⟨_, _, Hub.ends_merge_of_refused ?_ hends⟩
    cases wrote_save hsave with
    | emptied _ hr => exact absurd hr (hreach _ _)
    | kept cause =>
      rcases cause with he | hfault
      · exact he
      · -- the registration returned on the other disk all the same, so that disk refused
        obtain rfl : none = current :=
          Except.ok.inj ((ends_current?_of_fault hfault d').unique hc).1
        obtain ⟨e', hsave', he'⟩ := exists_refusal_of_fault hfault hw hm
        have hnamed : h.names ≠ [] := by
          rintro hnil
          simp [hnil] at hlong
        rw [hpath] at hfault hsave hsave'
        exact hp.isRefusal_of_save hp' hup hnamed hfiles hfault hsave' he' hsave

end Disk

/-! ### One hub after others -/

/-- Two outcomes of the hub are the same, or a name of the hub is too long for the disk and one of
the two is that it failed. -/
def Hub.Agree (h : Hub) (o o' : HubOutcome) : Prop :=
  o = o' ∨ (∃ name ∈ h.names, Disk.isTooLong name = true) ∧
    ((∃ reason, o.status = .failed reason) ∨ ∃ reason, o'.status = .failed reason)

namespace Disk

variable {h : Hub} {r : Resource} {root : Path} {p : Place} {d d' d₁ : Disk} {o : HubOutcome}

/-- What a registration changes, on the way to the hub. -/
theorem IsProject.changes_of_merge (hp : d.IsProject root p)
    (hrel : (Path.read h.place).start = .here)
    (hup : ∀ name ∈ h.names, name ≠ Text.ofString "..")
    (hm : (Hub.merge r root h).Ends d (.ok o) d') :
    ∃ S, d.Changes d' S ((root.below h.names).onWay d.here) ∧
      (S = ∅ ∨ S = {p ++ h.names} ∧ (o.status = .created ∨ o.status = .updated)) := by
  obtain ⟨S, hc, hS⟩ := Hub.changes_of_merge hm
  rw [Hub.pathIn_eq hrel] at hc hS
  rw [hp.place_below hup] at hS
  exact ⟨S, hc.mono subset_rfl (Path.onWay_parent_subset ..), hS⟩

/-- A registration leaves what is apart from the hub alone. -/
theorem IsProject.sameOn_of_merge (hp : d.IsProject root p)
    (hrel : (Path.read h.place).start = .here)
    (hup : ∀ name ∈ h.names, name ≠ Text.ofString "..")
    (hm : (Hub.merge r root h).Ends d (.ok o) d') {u : Place} (hu : Apart (p ++ h.names) u) :
    d.SameOn d' u := by
  obtain ⟨S, hc, hS⟩ := hp.changes_of_merge hrel hup hm
  refine hp.sameOn_of_changes hup hc (fun v hv => ?_) hu.2
  rcases hS with rfl | ⟨rfl, -⟩
  · exact absurd hv (Set.notMem_empty v)
  · exact hv ▸ hu.1

/-- On two disks with the same on the way to a hub, a registration leaves the same there; its
outcome is the same too, unless a name is too long. -/
theorem IsProject.exists_merge_congr (hp : d.IsProject root p) (hp' : d'.IsProject root p)
    (hrel : (Path.read h.place).start = .here) (hnamed : h.names ≠ [])
    (hup : ∀ name ∈ h.names, name ≠ Text.ofString "..") (hsame : d.SameOn d' (p ++ h.names))
    (hm : (Hub.merge r root h).Ends d (.ok o) d₁) :
    ∃ o' d₁', (Hub.merge r root h).Ends d' (.ok o') d₁' ∧
      d₁.find? (p ++ h.names) = d₁'.find? (p ++ h.names) ∧
      h.Agree o o' := by
  by_cases hlong : ∃ name ∈ h.names, isTooLong name = true
  · obtain ⟨o', d₁', hm'⟩ := hp.exists_merge_of_long hp' hrel hup hlong hsame.files hm
    refine ⟨o', d₁', hm', ?_, ?_⟩
    · rw [hp.find?_of_merge hrel hup hm (not_written_of_long hrel hlong hm),
        hp'.find?_of_merge hrel hup hm' (not_written_of_long hrel hlong hm'), hsame.find?]
    · rcases outcome_of_long hrel hlong hm with ho | ⟨ho, -⟩
      · exact .inr ⟨hlong, .inl ho⟩
      · rcases outcome_of_long hrel hlong hm' with ho' | ⟨ho', -⟩
        · exact .inr ⟨hlong, .inr ho'⟩
        · exact .inl (ho.trans ho'.symm)
  · have hn : ∀ name ∈ h.names, IsPlainName name := fun name hname =>
      ⟨hup name hname, Bool.eq_false_iff.2 fun hl => hlong ⟨name, hname, hl⟩⟩
    obtain ⟨d₁', hm', hfind⟩ := hp.merge_congr hp' hrel hnamed hn hsame hm
    exact ⟨o, d₁', hm', hfind.symm, .inl rfl⟩

/-! ### Hubs side by side -/

/-- What happened to the hub `h` from `d` to `d'`, with the outcome `o`, is what a registration in
`h` alone does. -/
structure Isolated (r : Resource) (root : Path) (p : Place) (d d' : Disk) (h : Hub)
    (o : HubOutcome) : Prop where
  /-- A registration in the hub alone leaves the same there, and its outcome agrees. -/
  alone : ∃ o' d₁, (merge [h] r root).Ends d (.ok [o']) d₁ ∧
    d'.find? (p ++ h.names) = d₁.find? (p ++ h.names) ∧ h.Agree o o'
  /-- A hub that is not said to be made or changed is as it was. -/
  kept : o.status ≠ .created → o.status ≠ .updated →
    d'.find? (p ++ h.names) = d.find? (p ++ h.names)

variable {hubs : List Hub} {os : List HubOutcome} {d₀ : Disk}

/-- Registrations leave what is apart from their hubs alone. -/
theorem IsProject.sameOn_of_each (hp : d.IsProject root p)
    (hrel : ∀ h ∈ hubs, (Path.read h.place).start = .here)
    (hup : ∀ h ∈ hubs, ∀ name ∈ h.names, name ≠ Text.ofString "..")
    (hm : (each (Hub.merge r root) hubs).Ends d (.ok os) d') {u : Place}
    (hu : ∀ h ∈ hubs, Apart (p ++ h.names) u) : d.SameOn d' u := by
  induction hubs generalizing d os with
  | nil =>
    obtain ⟨-, rfl⟩ := hm
    exact .refl ..
  | cons h hubs ih =>
    rw [List.forall_mem_cons] at hrel hup hu
    obtain ⟨o, os, d₁, rfl, hh, hs⟩ := hm.of_each_cons
    obtain ⟨S, hc, -⟩ := hp.changes_of_merge hrel.1 hup.1 hh
    exact (hp.sameOn_of_merge hrel.1 hup.1 hh hu.1).trans
      (ih (hc.isProject hp) hrel.2 hup.2 hs hu.2)

/-- Hubs are isolated on every disk `d` that is, on the way to each of them, like the disk `d₀` that
each of them is compared on. -/
theorem IsProject.isolates_of_sameOn (hp₀ : d₀.IsProject root p) (hp : d.IsProject root p)
    (hrel : ∀ h ∈ hubs, (Path.read h.place).start = .here)
    (hup : ∀ h ∈ hubs, ∀ name ∈ h.names, name ≠ Text.ofString "..")
    (hapart : hubs.Pairwise fun h k => Apart h.names k.names)
    (hsame : ∀ h ∈ hubs, d.SameOn d₀ (p ++ h.names))
    (hnamed : d = d₀ ∨ ∀ h ∈ hubs, h.names ≠ [])
    (hm : (each (Hub.merge r root) hubs).Ends d (.ok os) d') :
    List.Forall₂ (Isolated r root p d₀ d') hubs os := by
  -- on the hubs: those that are left are registered on the disk that those before them leave
  induction hubs generalizing d os with
  | nil =>
    obtain ⟨hx, -⟩ := hm
    obtain rfl : [] = os := Except.ok.inj hx
    exact .nil
  | cons h hubs ih =>
    rw [List.forall_mem_cons] at hrel hup hsame
    rw [List.pairwise_cons] at hapart
    obtain ⟨o, os, d₁, rfl, hh, hs⟩ := hm.of_each_cons
    obtain ⟨S, hc, -⟩ := hp.changes_of_merge hrel.1 hup.1 hh
    have hp₁ := hc.isProject hp
    have hrest : d₁.SameOn d' (p ++ h.names) :=
      hp₁.sameOn_of_each hrel.2 hup.2 hs fun k hk => (apart_append p).2 (hapart.1 k hk).symm
    -- the hub stays as its own registration left it, since the others are apart from it
    refine .cons ⟨?_, fun hcreated hupdated => ?_⟩ (ih hp₁ hrel.2 hup.2 hapart.2 (fun k hk => ?_)
      (.inr fun k hk hnil => ?_) hs)
    · obtain ⟨o', d₂, hh', hfind, ho⟩ : ∃ o' d₂, (Hub.merge r root h).Ends d₀ (.ok o') d₂ ∧
          d₁.find? (p ++ h.names) = d₂.find? (p ++ h.names) ∧ h.Agree o o' := by
        rcases hnamed with rfl | hnamed
        · exact ⟨o, d₁, hh, rfl, .inl rfl⟩
        · exact hp.exists_merge_congr hp₀ hrel.1 (hnamed h (by simp)) hup.1 hsame.1 hh
      exact ⟨o', d₂, hh'.each_cons (ends_each_nil _ d₂), hrest.find?.trans hfind, ho⟩
    · rw [hrest.find?, hp.find?_of_merge hrel.1 hup.1 hh ⟨hcreated, hupdated⟩, hsame.1.find?]
    · exact (hp.sameOn_of_merge hrel.1 hup.1 hh ((apart_append p).2 (hapart.1 k hk))).symm.trans
        (hsame.2 k hk)
    · -- every other hub lies below the project
      exact (hapart.1 k hk).2 (hnil ▸ List.nil_prefix)

/-- A file that registrations change is a hub that is said to be made or changed. -/
theorem IsProject.written_of_bytes?_ne (hp : d.IsProject root p)
    (hrel : ∀ h ∈ hubs, (Path.read h.place).start = .here)
    (hup : ∀ h ∈ hubs, ∀ name ∈ h.names, name ≠ Text.ofString "..")
    (hm : (each (Hub.merge r root) hubs).Ends d (.ok os) d') {q : Place}
    (hq : d'.bytes? q ≠ d.bytes? q) :
    ∃ x ∈ hubs.zip os, (x.2.status = .created ∨ x.2.status = .updated) ∧ q = p ++ x.1.names := by
  induction hubs generalizing d os with
  | nil =>
    obtain ⟨-, rfl⟩ := hm
    exact absurd rfl hq
  | cons h hubs ih =>
    rw [List.forall_mem_cons] at hrel hup
    obtain ⟨o, os, d₁, rfl, hh, hs⟩ := hm.of_each_cons
    obtain ⟨S, hc, hS⟩ := hp.changes_of_merge hrel.1 hup.1 hh
    -- either the first registration changed the file, or a later one did
    by_cases hlast : d'.bytes? q = d₁.bytes? q
    · have hmem : q ∈ S := not_imp_comm.1 (hc.bytes? q) (hlast ▸ hq)
      rcases hS with rfl | ⟨rfl, ho⟩
      · exact absurd hmem (Set.notMem_empty q)
      · exact ⟨(h, o), by simp, ho, hmem⟩
    · obtain ⟨x, hx, hfound⟩ := ih (hc.isProject hp) hrel.2 hup.2 hs hlast
      exact ⟨x, List.mem_cons_of_mem _ hx, hfound⟩

end Disk

end Scaffold
