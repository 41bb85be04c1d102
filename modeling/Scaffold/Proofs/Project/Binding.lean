import Scaffold.Proofs.Hub.Binding
import Scaffold.Proofs.Project.Ledger

/-!
# What the registry of a new project binds

In a project that starts without hubs, every entry of the registry is bound to its own schema, as
long as nothing else in the registry has the name of its variable
(`Disk.IsProject.registry_binds`).  Of two resources with one variable, the entry of the later one
is bound to the schema of the earlier one.
-/

namespace Scaffold

namespace Disk

open Work Probe Hub

variable {d : Disk} {root : Path} {p : Place}

/-- The registry of a project that starts without hubs imports each name from the source of whatever
needed it first. -/
theorem IsProject.exists_registry {rs : List Resource} (hp : d.IsProject root p)
    (hf : ∀ h ∈ Hub.standard .standard, h.FitsIn root)
    (hnew : ∀ h ∈ Hub.standard .standard, d.Holds (p ++ h.names) none)
    (hrs : ∀ r ∈ rs, r.IsWordy) (hd : ∀ r ∈ rs, ∀ t ∈ r.description?, t.IsScalar) :
    ∃ os d', (each (fun r => merge (Hub.standard .standard) r root) rs).Ends d (.ok os) d' ∧
      if rs = [] then d'.Holds (p ++ (registry .standard).names) none
      else ∃ added, registryLayout.Imports (ledger Resource.name rs) added ∧
        IsFirsts (neededInOrder (ledger Resource.name rs)) (registryImports added) ∧
        d'.Holds (p ++ (registry .standard).names)
          (some (registryLayout.text added (ledger Resource.name rs))) := by
  have hready : ∀ r ∈ rs, ∀ h ∈ Hub.standard .standard, h.IsReady r := fun r hr =>
    isReady_standard (by decide) (by decide) ((hrs r hr).isScalar (hd r hr))
      (hrs r hr).hasInlineNames
  obtain ⟨os, d', hends, -, hh⟩ := hp.ends_each_merge hf hready pairwise_apart_standard hnew
  refine ⟨os, d', hends, ?_⟩
  obtain ⟨added, ha, hfirsts, hfold⟩ :=
    (keepsLedger_registryLayout.mono fun _ hr => hr.hasWords).foldl_next_of_carries carries_isFirsts
      (by simp [registryLayout]) isFirsts_skeleton hrs
  have hall : rs.filter registryLayout.hub.applies = rs := List.filter_eq_self.2 fun r _ => rfl
  have hheld : d'.Holds (p ++ (registry .standard).names)
      (rs.foldl (fun current r => registryLayout.hub.next r current) none) :=
    hh (registry .standard) (by simp [Hub.standard])
  rw [hall] at ha hfirsts hfold
  rw [hfold] at hheld
  split
  · rwa [if_pos ‹_›] at hheld
  · rw [if_neg ‹_›] at hheld
    exact ⟨added, ha, hfirsts, hheld⟩

/-- **Every entry is bound to its own schema**: the variable that it names is imported from its
schema, and from nowhere else. -/
theorem IsProject.registry_binds {rs : List Resource} (hp : d.IsProject root p)
    (hf : ∀ h ∈ Hub.standard .standard, h.FitsIn root)
    (hnew : ∀ h ∈ Hub.standard .standard, d.Holds (p ++ h.names) none)
    (hrs : ∀ r ∈ rs, r.IsWordy) (hd : ∀ r ∈ rs, ∀ t ∈ r.description?, t.IsScalar)
    (hown : HaveOwnVariables rs) :
    ∃ os d', (each (fun r => merge (Hub.standard .standard) r root) rs).Ends d (.ok os) d' ∧
      if rs = [] then d'.Holds (p ++ (registry .standard).names) none
      else ∃ added, d'.Holds (p ++ (registry .standard).names)
          (some (registryLayout.text added (ledger Resource.name rs))) ∧
        ∀ r ∈ ledger Resource.name rs, ∀ m : Text, .scalar '\'' ∉ m →
          (imports r.varName (some m) (registryLayout.text added (ledger Resource.name rs)) = true ↔
            m = schemaOf r) := by
  obtain ⟨os, d', hends, hh⟩ := hp.exists_registry hf hnew hrs hd
  refine ⟨os, d', hends, ?_⟩
  split
  · rwa [if_pos ‹_›] at hh
  · rw [if_neg ‹_›] at hh
    obtain ⟨added, ha, hfirsts, hheld⟩ := hh
    refine ⟨added, hheld, fun r hr m hm => ?_⟩
    exact imports_varName_iff hown hrs (fun r hr => mem_of_mem_ledger hr) ha hfirsts hr hm

theorem isProject_empty : (⟨[], []⟩ : Disk).IsProject ⟨.top, []⟩ [] :=
  ⟨sound_of_entries (by decide) rfl, rfl⟩

/-- An empty disk has no hubs. -/
theorem holds_none_empty : ∀ h ∈ Hub.standard .standard, (⟨[], []⟩ : Disk).Holds h.names none := by
  have hnone : ∀ q, q ≠ [] → (⟨[], []⟩ : Disk).find? q = none := by
    intro q hq
    cases hf : (⟨[], []⟩ : Disk).find? q with
    | none => rfl
    | some e => cases mem_entries_of_find? hf hq
  have hne : ∀ h ∈ Hub.standard .standard, h.names ≠ [] := by decide
  intro h hh
  refine ⟨hnone _ (hne h hh), fun u _ b hb => ?_⟩
  by_cases hu : u = []
  · subst hu
    cases hb
  · rw [hnone u hu] at hb
    cases hb

/-- Two resources with variables of their own. -/
theorem registry_binds_users :
    let rs : List Resource := [
      { name := "user", pluralName := "users", varName := "userResource" },
      { name := "order", pluralName := "orders", varName := "orderResource" }]
    HaveOwnVariables rs ∧
    ∃ os d', (each (fun r => merge (Hub.standard .standard) r ⟨.top, []⟩) rs).Ends ⟨[], []⟩
        (.ok os) d' ∧
      if rs = [] then d'.Holds (registry .standard).names none
      else ∃ added, d'.Holds (registry .standard).names
          (some (registryLayout.text added (ledger Resource.name rs))) ∧
        ∀ r ∈ ledger Resource.name rs, ∀ m : Text, .scalar '\'' ∉ m →
          (imports r.varName (some m) (registryLayout.text added (ledger Resource.name rs)) = true ↔
            m = schemaOf r) := by
  intro rs
  have hwordy : ∀ r ∈ rs, r.IsWordy := by
    simp only [rs, List.forall_mem_cons, List.not_mem_nil, false_implies, implies_true, and_true]
    exact ⟨⟨by decide, by decide, by decide, by decide, by decide, by decide⟩,
      ⟨by decide, by decide, by decide, by decide, by decide, by decide⟩⟩
  have hown : HaveOwnVariables rs := ⟨by decide, by decide, by decide⟩
  exact ⟨hown, IsProject.registry_binds (p := []) isProject_empty (by decide +kernel)
    holds_none_empty hwordy (by decide) hown⟩

/-- Two resources with one variable: the entry of the second one is bound to the schema of the
first one. -/
theorem registry_binds_shared :
    let user : Resource := { name := "user", pluralName := "users", varName := "shared" }
    let order : Resource := { name := "order", pluralName := "orders", varName := "shared" }
    ∃ os d', (each (fun r => merge (Hub.standard .standard) r ⟨.top, []⟩) [user, order]).Ends
        ⟨[], []⟩ (.ok os) d' ∧
      ∃ t, d'.Holds (registry .standard).names (some t) ∧ registryEntry order <:+: t ∧
        imports "shared" (some (schemaOf order)) t = false ∧
        imports "shared" (some (schemaOf user)) t = true := by
  intro user order
  have hwordy : ∀ r ∈ [user, order], r.IsWordy := by
    simp only [List.forall_mem_cons, List.not_mem_nil, false_implies, implies_true, and_true]
    exact ⟨⟨by decide, by decide, by decide, by decide, by decide, by decide⟩,
      ⟨by decide, by decide, by decide, by decide, by decide, by decide⟩⟩
  obtain ⟨os, d', hends, hh⟩ := IsProject.exists_registry (p := []) isProject_empty
    (by decide +kernel) holds_none_empty hwordy (by decide)
  rw [if_neg (List.cons_ne_nil _ _)] at hh
  obtain ⟨added, ha, hfirsts, hheld⟩ := hh
  have hlisted : ledger Resource.name [user, order] = [order, user] := rfl
  rw [hlisted] at ha hfirsts hheld
  have hwordy' : ∀ r ∈ [order, user], r.IsWordy := fun r hr =>
    hwordy r (List.mem_reverse.1 hr)
  have hiff : ∀ m : Text, .scalar '\'' ∉ m →
      (imports user.varName (some m) (registryLayout.text added [order, user]) = true ↔
        (neededInOrder [order, user]).find? (·.1 = user.varName) = some (user.varName, m)) :=
    fun m hm => imports_iff_of_isFirsts hwordy' ha hfirsts (by decide) hm
  have hlists : registryLayout.hub.entry order <:+: registryLayout.text added [order, user] :=
    entry_infix_text List.mem_cons_self
  refine ⟨os, d', hends, _, hheld, hlists, ?_, ?_⟩
  · rw [Bool.eq_false_iff, ne_eq, hiff _ (by decide)]
    decide
  · rw [hiff _ (by decide)]
    decide

end Disk

end Scaffold
