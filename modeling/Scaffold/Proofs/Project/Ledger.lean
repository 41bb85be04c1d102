import Scaffold.Proofs.Hub.Layouts
import Scaffold.Proofs.Project.Resume

/-!
# The hubs of a new project

A registration takes every hub to its next text (`Disk.IsProject.ends_merge_of_each_holds`), and so
do registrations one after the other (`Disk.IsProject.ends_each_merge`).  In a project that starts
without hubs they make ledgers of them (`Disk.IsProject.merge_ledgers`).
-/

namespace Scaffold

theorem Resource.IsWordy.isScalar {r : Resource} (h : r.IsWordy)
    (hd : ∀ t ∈ r.description?, t.IsScalar) : r.IsScalar :=
  ⟨h.name.isScalar, h.pluralName.isScalar, h.varName.isScalar, h.dataSource.isScalar,
    fun icon hi => (h.icon icon hi).isScalar, hd⟩

namespace Disk

open Work

variable {d : Disk} {root : Path} {p : Place} {r : Resource} {hubs : List Hub}

/-- A registration takes each hub to its next text, and answers for each on its own. -/
theorem IsProject.ends_merge_of_each_holds (hp : d.IsProject root p)
    (hf : ∀ h ∈ hubs, h.FitsIn root) (hr : ∀ h ∈ hubs, h.IsReady r)
    (hapart : hubs.Pairwise fun h k => Apart h.names k.names) {current : Hub → Option Text}
    (hh : ∀ h ∈ hubs, d.Holds (p ++ h.names) (current h)) :
    ∃ d', (merge hubs r root).Ends d
        (.ok (hubs.map fun h => ⟨h.name, h.place, h.statusOf r (current h)⟩)) d' ∧
      d'.IsProject root p ∧ (∀ h ∈ hubs, d'.Holds (p ++ h.names) (h.next r (current h))) ∧
      ∀ q, (∀ h ∈ hubs, Apart (p ++ h.names) q) → d.SameAt d' q := by
  induction hubs generalizing d with
  | nil => exact ⟨d, ends_each_nil _ d, hp, by simp, fun q _ => .refl d q⟩
  | cons h hubs ih =>
    rw [List.forall_mem_cons] at hf hr hh
    rw [List.pairwise_cons] at hapart
    have hscalar : ∀ t ∈ current h, t.IsScalar := by
      intro t ht
      have hheld := hh.1
      rw [Option.mem_def.1 ht] at hheld
      obtain ⟨b, -, hb⟩ := hheld
      exact Utf8.isScalar_of_decode hb
    obtain ⟨d₁, hends, hp₁, hh₁, hsame₁, -⟩ :=
      hp.ends_merge_of_holds hf.1 hh.1 (hr.1.isScalar_written hscalar)
    have hnext : ∀ k ∈ hubs, d.SameAt d₁ (p ++ k.names) := fun k hk =>
      hsame₁ _ ((apart_append p).2 (hapart.1 k hk))
    obtain ⟨d₂, hends₂, hp₂, hh₂, hsame₂⟩ :=
      ih hp₁ hf.2 hr.2 hapart.2 fun k hk => (hnext k hk).holds (hh.2 k hk)
    have hkeep : d₁.SameAt d₂ (p ++ h.names) := hsame₂ _ fun k hk =>
      ((apart_append p).2 (hapart.1 k hk)).symm
    refine ⟨d₂, Ends.each_cons (f := Hub.merge r root) hends hends₂, hp₂,
      List.forall_mem_cons.2 ⟨hkeep.holds hh₁, hh₂⟩, fun q hq => ?_⟩
    rw [List.forall_mem_cons] at hq
    exact (hsame₁ q hq.1).trans (hsame₂ q hq.2)

/-- Registrations take each hub through its texts. -/
theorem IsProject.ends_each_merge {rs : List Resource} (hp : d.IsProject root p)
    (hf : ∀ h ∈ hubs, h.FitsIn root) (hr : ∀ r ∈ rs, ∀ h ∈ hubs, h.IsReady r)
    (hapart : hubs.Pairwise fun h k => Apart h.names k.names) {current : Hub → Option Text}
    (hh : ∀ h ∈ hubs, d.Holds (p ++ h.names) (current h)) :
    ∃ os d', (each (fun r => merge hubs r root) rs).Ends d (.ok os) d' ∧ d'.IsProject root p ∧
      ∀ h ∈ hubs, d'.Holds (p ++ h.names)
        (rs.foldl (fun current r => h.next r current) (current h)) := by
  induction rs generalizing d current with
  | nil => exact ⟨[], d, ends_each_nil _ d, hp, hh⟩
  | cons r rs ih =>
    rw [List.forall_mem_cons] at hr
    obtain ⟨d₁, hends, hp₁, hh₁, -⟩ := hp.ends_merge_of_each_holds hf hr.1 hapart hh
    obtain ⟨os, d₂, hends₂, hp₂, hh₂⟩ := ih hp₁ hr.2 hh₁
    exact ⟨_ :: os, d₂, Ends.each_cons (f := fun r => merge hubs r root) hends hends₂, hp₂, hh₂⟩

theorem pairwise_apart_standard :
    (Hub.standard .standard).Pairwise fun h k => Apart h.names k.names := by
  decide +kernel

/-- **Registrations make ledgers.**  In a project that starts without hubs, where resources are
registered one after the other, a hub to which none of them belongs stays absent.  Each other hub is
its skeleton with the entries of the first resource under each key directly below the marker, the
latest key first, and with imports above the marker, no name imported twice. -/
theorem IsProject.merge_ledgers {rs : List Resource} (hp : d.IsProject root p)
    (hf : ∀ h ∈ Hub.standard .standard, h.FitsIn root)
    (hnew : ∀ h ∈ Hub.standard .standard, d.Holds (p ++ h.names) none)
    (hrs : ∀ r ∈ rs, r.IsWordy) (hd : ∀ r ∈ rs, ∀ t ∈ r.description?, t.IsScalar) :
    ∃ os d', (each (fun r => merge (Hub.standard .standard) r root) rs).Ends d (.ok os) d' ∧
      Hub.layouts.map HubLayout.hub = Hub.standard .standard ∧
      ∀ L ∈ Hub.layouts, L.hub.skeleton = L.text [] [] ∧
        if rs.filter L.hub.applies = [] then d'.Holds (p ++ L.hub.names) none
        else ∃ added, L.Imports (ledger L.key (rs.filter L.hub.applies)) added ∧
          d'.Holds (p ++ L.hub.names)
            (some (L.text added (ledger L.key (rs.filter L.hub.applies)))) := by
  have hready : ∀ r ∈ rs, ∀ h ∈ Hub.standard .standard, h.IsReady r := fun r hr =>
    Hub.isReady_standard (by decide) (by decide) ((hrs r hr).isScalar (hd r hr))
      (hrs r hr).hasInlineNames
  obtain ⟨os, d', hends, -, hh⟩ := hp.ends_each_merge hf hready pairwise_apart_standard hnew
  refine ⟨os, d', hends, Hub.map_hub_layouts, fun L hL => ?_⟩
  obtain ⟨hledger, hnodup⟩ := Hub.keepsLedger_layouts L hL
  obtain ⟨added, ha, hfold⟩ := hledger.foldl_next hnodup hrs
  refine ⟨hledger.skeleton, ?_⟩
  have hheld := hh L.hub (Hub.map_hub_layouts ▸ List.mem_map_of_mem hL)
  rw [hfold] at hheld
  split
  · rwa [if_pos ‹_›] at hheld
  · rw [if_neg ‹_›] at hheld
    exact ⟨added, ha, hheld⟩

/-- An empty project, and two resources with one plural name. -/
theorem merge_ledgers_users :
    let d : Disk := ⟨[], []⟩
    let rs : List Resource := [
      { name := "user", pluralName := "users", varName := "userResource" },
      { name := "member", pluralName := "users", varName := "memberResource" }]
    ∃ os d', (each (fun r => merge (Hub.standard .standard) r ⟨.top, []⟩) rs).Ends d (.ok os) d' ∧
      Hub.layouts.map HubLayout.hub = Hub.standard .standard ∧
      ∀ L ∈ Hub.layouts, L.hub.skeleton = L.text [] [] ∧
        if rs.filter L.hub.applies = [] then d'.Holds L.hub.names none
        else ∃ added, L.Imports (ledger L.key (rs.filter L.hub.applies)) added ∧
          d'.Holds L.hub.names
            (some (L.text added (ledger L.key (rs.filter L.hub.applies)))) := by
  intro d rs
  have hsound : d.Sound := sound_of_entries (by decide) rfl
  have hnone : ∀ q, q ≠ [] → d.find? q = none := by
    intro q hq
    cases hf : d.find? q with
    | none => rfl
    | some e => cases mem_entries_of_find? hf hq
  have hnew : ∀ h ∈ Hub.standard .standard, d.Holds h.names none := by
    intro h hh
    have hne : ∀ h ∈ Hub.standard .standard, h.names ≠ [] := by decide
    refine ⟨hnone _ (hne h hh), fun u _ b hb => ?_⟩
    by_cases hu : u = []
    · subst hu
      cases hb
    · rw [hnone u hu] at hb
      cases hb
  have hwordy : ∀ r ∈ rs, r.IsWordy := by
    simp only [rs, List.forall_mem_cons, List.not_mem_nil, false_implies, implies_true, and_true]
    exact ⟨⟨by decide, by decide, by decide, by decide, by decide, by decide⟩,
      ⟨by decide, by decide, by decide, by decide, by decide, by decide⟩⟩
  exact IsProject.merge_ledgers (p := []) ⟨hsound, rfl⟩ (by decide +kernel) hnew hwordy (by decide)

end Disk

end Scaffold
