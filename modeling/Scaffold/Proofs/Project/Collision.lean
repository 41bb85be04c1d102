import Scaffold.Proofs.Hub.Routes
import Scaffold.Proofs.Project.Binding
import Scaffold.Proofs.Project.Locality
import Scaffold.Proofs.Project.Reports

/-!
# Plural names that collide

Two resources with different names and one plural name claim the same route.  Both are put into the
registry, and the later one is reported: exactly then, whatever else was registered in between
(`Disk.IsProject.reports_collisions`).

What carries this through any number of registrations is the text of the registry
(`Disk.HasRegistered`).  A registration may fail in the navigation, where a description has no
bytes; by then the registry is done, and the hubs behind it do not touch it
(`Disk.HasRegistered.merge_apart`).
-/

namespace Scaffold

open Work

namespace Hub

variable {h k : Hub} {r : Resource} {root : Path} {d : Disk} {rs : List Resource}
  {current : Option Text}

/-- A registration changes at most the hub, however it ends. -/
theorem changes_disk_merge (h : Hub) (r : Resource) (root : Path) (d : Disk) :
    d.Changes (Hub.merge r root h d).disk {(h.pathIn root).place d.here}
      ((h.pathIn root).parent.onWay d.here) := by
  obtain ⟨x, d', hends, hto⟩ := exists_mergesTo h r root d
  have hdisk : (Hub.merge r root h d).disk = d' := by
    cases x with
    | ok status => exact (ends_merge_of_ok hends).2
    | error e =>
      by_cases he : e.isRefusal = true
      · exact (ends_merge_of_refused he hends).2
      · exact (ends_merge_of_broken (Bool.eq_false_iff.2 he) hends).2
  rw [hdisk]
  cases hto with
  | exempt => exact .refl ..
  | unread => exact .refl ..
  | settled => exact .refl ..
  | saved _ _ hsave => exact (Disk.wrote_save hsave).changes_place
  | unsaved _ _ hsave => exact (Disk.wrote_save hsave).changes_place

/-- The hubs up to the registry take a resource whatever its description is: only the navigation has
it. -/
theorem isReady_of_hasWords (hr : r.HasWords) :
    ∀ h ∈ [schemas .standard, collections .standard, registry .standard], h.IsReady r := by
  intro h hh
  have hstandard : h ∈ standard .standard :=
    List.mem_append_left [client .standard, navigation .standard] hh
  have hnames : h ∈ [schemas .standard, collections .standard, registry .standard,
    client .standard] := List.mem_append_left [client .standard] hh
  exact {
    recognises := fun _ ht => isRegistered_register hr.hasInlineNames h hstandard ht
    scalar := fun _ ht => isScalar_register_of_names hr.givesNames_scalar ht h hnames
    skeleton := isScalar_skeleton (by decide) h hstandard }

/-- Only the registry looks for claims. -/
theorem isClaimed_eq_false :
    ∀ h ∈ [schemas .standard, collections .standard, client .standard, navigation .standard],
      ∀ r t, h.isClaimed r t = false := by
  simp only [List.forall_mem_cons]
  exact ⟨fun _ _ => rfl, fun _ _ => rfl, fun _ _ => rfl, fun _ _ => rfl, by simp⟩

/-- **A claim is reported if and only if** the name is not listed in the registry, and the plural
name is. -/
theorem claimed_mem_update_registry_iff (hl : registryLayout.Lists rs current)
    (hrs : ∀ r ∈ rs, r.HasWords) (hr : r.HasWords) :
    (registry .standard).claimed r ∈ ((registry .standard).update r current).2 ↔
      r.name ∉ rs.map Resource.name ∧ ∃ r' ∈ rs, r'.pluralName = r.pluralName := by
  have hledger := keepsLedger_registryLayout
  rw [claimed_mem_update_iff]
  cases hl with
  | missing =>
    have hnone : (registry .standard).isClaimed r (registryLayout.text [] []) = true ↔
        ∃ r' ∈ ([] : List Resource), r'.pluralName = r.pluralName :=
      isClaimed_registryLayout hrs ⟨fun _ h => absurd h List.not_mem_nil, by decide⟩ hr
    rw [← hledger.skeleton] at hnone
    exact ⟨fun h => ⟨List.not_mem_nil, hnone.1 h.2.2.2⟩,
      fun ⟨_, _, h, _⟩ => absurd h List.not_mem_nil⟩
  | @listed _ added _ ha =>
    have hregistered : (registry .standard).isRegistered r (registryLayout.text added rs) = true ↔
        r.name ∈ rs.map Resource.name := hledger.registered added rs r ha hrs hr
    have hmarked : (registryLayout.text added rs).includes (registry .standard).marker = true :=
      hledger.includes_text
    have hclaimed : (registry .standard).isClaimed r (registryLayout.text added rs) = true ↔
        ∃ r' ∈ rs, r'.pluralName = r.pluralName := isClaimed_registryLayout hrs ha hr
    rw [Option.getD_some, hclaimed, hmarked, ← hregistered]
    simp

end Hub

namespace Disk

open Hub

variable {d d' : Disk} {root : Path} {p q : Place} {k : Hub} {r : Resource} {rs : List Resource}

theorem SameOn.sameAt (h : d.SameOn d' q) : d.SameAt d' q where
  find? := h.find?
  passes := by
    rw [passes_iff, passes_iff]
    exact forall₂_congr fun u hu => by rw [h.files u hu]

/-- A registration leaves the project and what is apart from the hub alone, however it ends. -/
theorem IsProject.merge_apart (hp : d.IsProject root p) (hk : k.FitsIn root) (r : Resource) :
    (Hub.merge r root k d).disk.IsProject root p ∧
      ∀ q, Apart (p ++ k.names) q → d.SameAt (Hub.merge r root k d).disk q := by
  have hup : ∀ name ∈ k.names, name ≠ Text.ofString ".." := fun name hn =>
    (hk.admits.plain name hn).1
  have hc := changes_disk_merge k r root d
  rw [pathIn_eq hk.relative, hp.place_below hup] at hc
  refine ⟨hc.isProject hp, fun q hq => SameOn.sameAt ?_⟩
  exact hp.sameOn_of_changes hup (hc.mono subset_rfl (Path.onWay_parent_subset ..))
    (fun v hv => hv ▸ hq.1) hq.2

/-- The registry of the project lists the resources. -/
def ListsInRegistry (d : Disk) (p : Place) (rs : List Resource) : Prop :=
  ∃ current, d.Holds (p ++ (registry .standard).names) current ∧ registryLayout.Lists rs current

/-- A project after registrations: the registry lists the resources, and the exports can take
more. -/
structure HasRegistered (d : Disk) (root : Path) (p : Place) (rs : List Resource) : Prop where
  /-- The root is a project. -/
  isProject : d.IsProject root p
  /-- The exports can be read and written. -/
  exports : ∀ h ∈ [schemas .standard, collections .standard],
    ∃ current, d.Holds (p ++ h.names) current
  /-- The resources are listed. -/
  listed : d.ListsInRegistry p rs

/-- A hub that is not one of them does not touch the hubs up to the registry. -/
theorem HasRegistered.merge_apart (h : d.HasRegistered root p rs) (hk : k.FitsIn root)
    (hapart : ∀ k' ∈ [schemas .standard, collections .standard, registry .standard],
      Apart k.names k'.names) (r : Resource) :
    (Hub.merge r root k d).disk.HasRegistered root p rs := by
  obtain ⟨hp, hsame⟩ := h.isProject.merge_apart hk r
  have hsame : ∀ k' ∈ [schemas .standard, collections .standard, registry .standard],
      d.SameAt (Hub.merge r root k d).disk (p ++ k'.names) := fun k' hk' =>
    hsame _ ((apart_append p).2 (hapart k' hk'))
  obtain ⟨current, hheld, hlists⟩ := h.listed
  refine ⟨hp, fun k' hk' => ?_, current, (hsame _ (by simp)).holds hheld, hlists⟩
  obtain ⟨current', hheld'⟩ := h.exports k' hk'
  exact ⟨current', (hsame k' (List.mem_append_left [registry .standard] hk')).holds hheld'⟩

/-- The exports take a resource, and the registry stays as it is. -/
theorem HasRegistered.ends_exports (h : d.HasRegistered root p rs)
    (hf : ∀ k ∈ standard .standard, k.FitsIn root) (hr : r.HasWords) :
    ∃ os d', (merge [schemas .standard, collections .standard] r root).Ends d
      (.ok os) d' ∧ d'.HasRegistered root p rs := by
  have hapart : ([schemas .standard, collections .standard] ++
      registry .standard :: [client .standard, navigation .standard]).Pairwise
        fun h k => Apart h.names k.names := pairwise_apart_standard
  obtain ⟨hpair, -, hcross⟩ := List.pairwise_append.1 hapart
  choose! current hheld using h.exports
  obtain ⟨d', hends, hp, hheld', hsame⟩ := h.isProject.ends_merge_of_each_holds
    (fun k hk => hf k (List.mem_append_left _ hk))
    (fun k hk => isReady_of_hasWords hr k (List.mem_append_left _ hk)) hpair hheld
  obtain ⟨listed, hlisted, hlists⟩ := h.listed
  have hkeep : d.SameAt d' (p ++ (registry .standard).names) := hsame _ fun k hk =>
    (apart_append p).2 (hcross k hk _ List.mem_cons_self)
  exact ⟨_, d', hends, hp, fun k hk => ⟨_, hheld' k hk⟩, listed, hkeep.holds hlisted, hlists⟩

/-- The registry takes a resource. -/
theorem HasRegistered.ends_registry (h : d.HasRegistered root p rs)
    (hf : ∀ k ∈ standard .standard, k.FitsIn root) (hrs : ∀ r ∈ rs, r.HasWords)
    (hr : r.HasWords) :
    ∃ o d', (Hub.merge r root (registry .standard)).Ends d (.ok o) d' ∧
      d'.HasRegistered root p (if r.name ∈ rs.map Resource.name then rs else r :: rs) := by
  have hready : (registry .standard).IsReady r := isReady_of_hasWords hr _ (by simp)
  obtain ⟨current, hheld, hlists⟩ := h.listed
  have hscalar : ∀ t ∈ current, t.IsScalar := by
    rintro t rfl
    obtain ⟨b, -, hb⟩ := hheld
    exact Utf8.isScalar_of_decode hb
  obtain ⟨d', hends, hp, hheld', hsame, -⟩ := h.isProject.ends_merge_of_holds
    (hf (registry .standard) (by simp [standard])) hheld (hready.isScalar_written hscalar)
  have hapart : ∀ k ∈ [schemas .standard, collections .standard],
      Apart (registry .standard).names k.names := by decide +kernel
  refine ⟨_, d', hends, hp, fun k hk => ?_, _, hheld', ?_⟩
  · obtain ⟨exported, hexported⟩ := h.exports k hk
    exact ⟨exported, (hsame _ ((apart_append p).2 (hapart k hk))).holds hexported⟩
  · exact hlists.next keepsLedger_registryLayout (by decide) hrs hr rfl

/-- **One registration**, however it ends: the resource is listed if its name is new. -/
theorem HasRegistered.step (h : d.HasRegistered root p rs)
    (hf : ∀ k ∈ standard .standard, k.FitsIn root) (hrs : ∀ r ∈ rs, r.HasWords)
    (hr : r.HasWords) :
    (merge (standard .standard) r root d).disk.HasRegistered root p
      (if r.name ∈ rs.map Resource.name then rs else r :: rs) := by
  have hsplit : standard .standard = [schemas .standard, collections .standard] ++
      registry .standard :: [client .standard, navigation .standard] := rfl
  have hapart : ∀ k ∈ [client .standard, navigation .standard],
      ∀ k' ∈ [schemas .standard, collections .standard, registry .standard],
        Apart k.names k'.names := by decide +kernel
  -- the exports and the registry end well; the hubs behind them may not
  obtain ⟨os, d₁, hends₁, h₁⟩ := h.ends_exports hf hr
  obtain ⟨o, d₂, hends₂, h₂⟩ := h₁.ends_registry hf hrs hr
  rw [merge, hsplit, Ends.disk_each_append hends₁, hends₂.disk_each_cons]
  refine each_keeps (P := fun e => e.HasRegistered root p _) (fun k hk e he => ?_) h₂
  exact he.merge_apart (hf k (by rw [hsplit]; simp [hk])) (hapart k hk) r

/-- A registration reports a claim if the name is new and the plural name is listed. -/
theorem HasRegistered.claimed_mem_log_iff (h : d.HasRegistered root p rs)
    (hf : ∀ k ∈ standard .standard, k.FitsIn root) (hrs : ∀ r ∈ rs, r.HasWords)
    (hr : r.HasWords) :
    (registry .standard).claimed r ∈ (merge (standard .standard) r root d).log ↔
      r.name ∉ rs.map Resource.name ∧ ∃ r' ∈ rs, r'.pluralName = r.pluralName := by
  have hothers : ∀ k ∈ [schemas .standard, collections .standard] ++
      [client .standard, navigation .standard], ∀ e,
      (registry .standard).claimed r ∉ (Hub.merge r root k e).log := by
    intro k hk e hlog
    obtain ⟨-, current, -, hlog⟩ := (mem_log_merge rfl).1 hlog
    have hclaimed := (claimed_mem_update_iff.1 hlog).2.2.2
    rw [isClaimed_eq_false k hk] at hclaimed
    cases hclaimed
  obtain ⟨os, d₁, hends, h₁⟩ := h.ends_exports hf hr
  obtain ⟨current, hheld, hlists⟩ := h₁.listed
  have hcurrent := h₁.isProject.ends_current?_of_holds
    (hf (registry .standard) (by simp [standard])) hheld
  rw [← claimed_mem_update_registry_iff hlists hrs hr]
  refine (mem_log_each_append_cons hends (fun k hk => hothers k (List.mem_append_left _ hk))
    fun k hk => hothers k (List.mem_append_right _ hk)).trans ((mem_log_merge rfl).trans ?_)
  constructor
  · rintro ⟨-, current', hcurrent', hlog⟩
    obtain rfl : current' = current := Except.ok.inj (hcurrent'.symm.trans hcurrent.1)
    exact hlog
  · exact fun hlog => ⟨rfl, current, hcurrent.1, hlog⟩

theorem IsProject.hasRegistered_nil (hp : d.IsProject root p)
    (hnew : ∀ k ∈ standard .standard, d.Holds (p ++ k.names) none) :
    d.HasRegistered root p [] where
  isProject := hp
  exports k hk := ⟨none, hnew k (List.mem_append_left _ hk)⟩
  listed := ⟨none, hnew (registry .standard) (by simp [standard]), .missing⟩

/-- **Registrations one after the other**, however each of them ends: the registry lists the first
resource under each name. -/
theorem HasRegistered.each_merge (h : d.HasRegistered root p [])
    (hf : ∀ k ∈ standard .standard, k.FitsIn root) (hrs : ∀ r ∈ rs, r.HasWords) :
    ∃ outcomes d', (each (fun r => attempt (merge (standard .standard) r root)) rs :
        Work FileError _).Ends d (.ok outcomes) d' ∧
      d'.HasRegistered root p (ledger Resource.name rs) := by
  -- on the resources registered so far, the latest one last
  induction rs using List.reverseRecOn with
  | nil => exact ⟨[], d, ends_each_nil _ d, h⟩
  | append_singleton rs r ih =>
    have hr : r.HasWords := hrs r (by simp)
    have hrs : ∀ r ∈ rs, r.HasWords := fun r hr => hrs r (List.mem_append_left _ hr)
    obtain ⟨outcomes, d₁, hends, h₁⟩ := ih hrs
    have hstep := h₁.step hf (fun r hr => hrs r (mem_of_mem_ledger hr)) hr
    rw [← ledger_concat] at hstep
    exact ⟨_, _, hends.each_append (Ends.each_cons ⟨rfl, rfl⟩ (ends_each_nil _ _)), hstep⟩

/-- **Colliding plural names are reported exactly.**  In a project that starts without hubs, where
resources were registered one after the other, however each registration ended, the registration of
one more resource reports that its route is registered already if and only if its name is not listed
in the registry and one of the listed resources, which then has another name, has the same plural
name.  The registry lists the first resource under each name, before and after. -/
theorem IsProject.reports_collisions {before : List Resource} (hp : d.IsProject root p)
    (hf : ∀ k ∈ standard .standard, k.FitsIn root)
    (hnew : ∀ k ∈ standard .standard, d.Holds (p ++ k.names) none)
    (hbefore : ∀ r ∈ before, r.HasWords) (hr : r.HasWords) :
    ∃ outcomes d₁,
      (each (fun r => attempt (merge (standard .standard) r root)) before :
        Work FileError _).Ends d (.ok outcomes) d₁ ∧
      let listed := ledger Resource.name before
      let run := merge (standard .standard) r root d₁
      ((registry .standard).claimed r ∈ run.log ↔
        r.name ∉ listed.map Resource.name ∧
          ∃ r' ∈ listed, r'.name ≠ r.name ∧ r'.pluralName = r.pluralName) ∧
      d₁.ListsInRegistry p listed ∧
      run.disk.ListsInRegistry p
        (if r.name ∈ listed.map Resource.name then listed else r :: listed) := by
  obtain ⟨outcomes, d₁, hends, h₁⟩ := (hp.hasRegistered_nil hnew).each_merge hf hbefore
  have hlisted : ∀ r ∈ ledger Resource.name before, r.HasWords := fun r hr =>
    hbefore r (mem_of_mem_ledger hr)
  refine ⟨outcomes, d₁, hends, ?_, h₁.listed, (h₁.step hf hlisted hr).listed⟩
  refine (h₁.claimed_mem_log_iff hf hlisted hr).trans (and_congr_right fun hname => ?_)
  refine exists_congr fun r' => and_congr_right fun hr' => ?_
  exact (and_iff_right fun hsame => hname (List.mem_map.2 ⟨r', hr', hsame⟩)).symm

/-- Two names for one plural: the second registration is reported, and both are listed. -/
theorem reports_collisions_orders :
    let order : Resource := { name := "order", pluralName := "orders", varName := "orderResource" }
    let ordre : Resource := { name := "ordre", pluralName := "orders", varName := "ordreResource" }
    ∃ outcomes d₁,
      (each (fun r => attempt (merge (standard .standard) r ⟨.top, []⟩)) [order] :
        Work FileError _).Ends ⟨[], []⟩ (.ok outcomes) d₁ ∧
      let run := merge (standard .standard) ordre ⟨.top, []⟩ d₁
      (registry .standard).claimed ordre ∈ run.log ∧
      d₁.ListsInRegistry [] [order] ∧ run.disk.ListsInRegistry [] [ordre, order] := by
  intro order ordre
  have hwords : ∀ r ∈ [order, ordre], r.HasWords := by
    simp only [List.forall_mem_cons, List.not_mem_nil, false_implies, implies_true, and_true]
    exact ⟨⟨by decide, by decide, by decide, by decide, by decide⟩,
      ⟨by decide, by decide, by decide, by decide, by decide⟩⟩
  obtain ⟨outcomes, d₁, hends, hiff, hlists, hlists'⟩ := IsProject.reports_collisions (p := [])
    isProject_empty (by decide +kernel) holds_none_empty
    (fun r hr => hwords r (List.mem_cons.2 (.inl (List.mem_singleton.1 hr))))
    (hwords ordre (by simp))
  exact ⟨outcomes, d₁, hends, hiff.2 (by decide), hlists, hlists'⟩

end Disk

end Scaffold
