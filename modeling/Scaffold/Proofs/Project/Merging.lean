import Scaffold.Proofs.Project.Registering
import Scaffold.Proofs.Project.Saving

/-!
# Hubs on a disk

A registration reads the text of a hub from its place in a project and writes the new text there.
What it does to the disk follows from what it does to the text: where the place holds a text, or
nothing, it holds the next text afterwards (`Disk.IsProject.ends_merge_of_holds`); where the disk
bars the place, nothing happens (`Disk.IsProject.ends_merge_of_bars`).  Places apart from that of
the hub keep what they hold (`Disk.SameAt`).
-/

namespace Scaffold

/-! ### Places that differ -/

/-- Neither place lies below the other. -/
def Apart (q u : Place) : Prop := ¬ q <+: u ∧ ¬ u <+: q

instance (q u : Place) : Decidable (Apart q u) :=
  inferInstanceAs (Decidable (¬ q <+: u ∧ ¬ u <+: q))

theorem Apart.symm {q u : Place} (h : Apart q u) : Apart u q := ⟨h.2, h.1⟩

theorem apart_append {q u : Place} (p : Place) : Apart (p ++ q) (p ++ u) ↔ Apart q u := by
  simp [Apart, List.prefix_append_right_inj]

namespace Disk

variable {d d' d'' : Disk} {root : Path} {p q : Place} {names : List Text} {name : Text}

/-- What stands at a place, and whether a file stands in its way, is the same. -/
structure SameAt (d d' : Disk) (q : Place) : Prop where
  /-- The same stands there. -/
  find? : d'.find? q = d.find? q
  /-- The same is in the way. -/
  passes : d'.Passes q ↔ d.Passes q

theorem SameAt.refl (d : Disk) (q : Place) : d.SameAt d q := ⟨rfl, Iff.rfl⟩

theorem SameAt.trans (h : d.SameAt d' q) (h' : d'.SameAt d'' q) : d.SameAt d'' q :=
  ⟨h'.find?.trans h.find?, h'.passes.trans h.passes⟩

/-- A file that is saved at a place changes nothing apart from it. -/
theorem Puts.sameAt {b : Bytes} {u : Place} (h : d.Puts d' (q ++ [name]) (.file b))
    (hw : d.Passes q) (hu : Apart (q ++ [name]) u) : d.SameAt d' u where
  find? := h.find?_elsewhere hu.2
  passes := by
    have hfile : ∀ v, v <+: u → ∀ c, d'.find? v = some (.file c) ↔ d.find? v = some (.file c) := by
      intro v hv c
      have hne : v ≠ q ++ [name] := fun he => hu.1 (he ▸ hv)
      rw [h.find?, if_neg hne]
      by_cases hpre : v <+: q ++ [name]
      · rw [if_pos hpre]
        have hq : v <+: q := (List.prefix_concat_iff.1 hpre).resolve_left hne
        exact ⟨fun hc => (by cases hc), fun hc => absurd hc (hw v hq c)⟩
      · rw [if_neg hpre]
    exact ⟨fun hp v hv c hc => hp v hv c ((hfile v hv c).2 hc),
      fun hp v hv c hc => hp v hv c ((hfile v hv c).1 hc)⟩

/-! ### What a place holds -/

/-- The place holds a text, or nothing but room for one. -/
def Holds (d : Disk) (q : Place) : Option Text → Prop
  | none => d.find? q = none ∧ d.Passes q
  | some t => ∃ b, d.find? q = some (.file b) ∧ Utf8.decode b = .ok t

/-- There is no room for a file at the place. -/
def Bars (d : Disk) (q : Place) : Prop :=
  d.find? q = some .directory ∨ (d.find? q = none ∧ ¬ d.Passes q)

/-- A file at the place is a text. -/
def IsReadable (d : Disk) (q : Place) : Prop :=
  ∀ b, d.find? q = some (.file b) → ∃ t, Utf8.decode b = .ok t

theorem holds_or_bars (h : d.IsReadable q) : (∃ current, d.Holds q current) ∨ d.Bars q := by
  cases hf : d.find? q with
  | none =>
    by_cases hw : d.Passes q
    · exact .inl ⟨none, hf, hw⟩
    · exact .inr (.inr ⟨hf, hw⟩)
  | some e =>
    cases e with
    | directory => exact .inr (.inl hf)
    | file b =>
      obtain ⟨t, ht⟩ := h b hf
      exact .inl ⟨some t, b, hf, ht⟩

theorem Holds.unique {c c' : Option Text} (h : d.Holds q c) (h' : d.Holds q c') : c = c' := by
  cases c with
  | none =>
    cases c' with
    | none => rfl
    | some t' =>
      obtain ⟨b, hb, -⟩ := h'
      rw [h.1] at hb
      cases hb
  | some t =>
    obtain ⟨b, hb, ht⟩ := h
    cases c' with
    | none =>
      rw [h'.1] at hb
      cases hb
    | some t' =>
      obtain ⟨b', hb', ht'⟩ := h'
      rw [hb, Option.some.injEq, Entry.file.injEq] at hb'
      rw [← hb', ht, Except.ok.injEq] at ht'
      rw [ht']

theorem Holds.not_bars {c : Option Text} (h : d.Holds q c) : ¬ d.Bars q := by
  cases c with
  | none =>
    rintro (hb | ⟨-, hw⟩)
    · rw [h.1] at hb
      cases hb
    · exact hw h.2
  | some t =>
    obtain ⟨b, hb, -⟩ := h
    rintro (hb' | ⟨hb', -⟩)
    · rw [hb] at hb'
      cases hb'
    · rw [hb] at hb'
      cases hb'

theorem SameAt.holds {current : Option Text} (h : d.SameAt d' q) (hh : d.Holds q current) :
    d'.Holds q current := by
  cases current with
  | none => exact ⟨h.find?.trans hh.1, h.passes.2 hh.2⟩
  | some t =>
    obtain ⟨b, hb, ht⟩ := hh
    exact ⟨b, h.find?.trans hb, ht⟩

theorem SameAt.bars (h : d.SameAt d' q) (hb : d.Bars q) : d'.Bars q :=
  hb.imp h.find?.trans fun hb => ⟨h.find?.trans hb.1, fun hw => hb.2 (h.passes.1 hw)⟩

theorem SameAt.isReadable (h : d.SameAt d' q) (hr : d.IsReadable q) : d'.IsReadable q :=
  fun b hb => hr b (h.find?.symm.trans hb)

end Disk

/-! ### Merging one hub -/

namespace Hub

open Work

/-- The names that lead from a project to the hub. -/
def names (h : Hub) : List Text := (Path.read h.place).names

/-- The place of the hub is a path into the project that the disk accepts. -/
structure FitsIn (h : Hub) (root : Path) : Prop where
  /-- The place is relative. -/
  relative : (Path.read h.place).start = .here
  /-- The place has a name. -/
  named : h.names ≠ []
  /-- The disk accepts the path. -/
  admits : root.Admits h.names

instance (h : Hub) (root : Path) : Decidable (h.FitsIn root) :=
  decidable_of_iff ((Path.read h.place).start = .here ∧ h.names ≠ [] ∧ root.Admits h.names)
    ⟨fun h => ⟨h.1, h.2.1, h.2.2⟩, fun h => ⟨h.relative, h.named, h.admits⟩⟩

variable {h : Hub} {r : Resource} {root : Path} {d d' : Disk} {current : Option Text}

theorem pathIn_eq (hrel : (Path.read h.place).start = .here) :
    h.pathIn root = root.below h.names := by
  rw [pathIn, Path.join, Path.isAbsolute, hrel]
  rfl

theorem FitsIn.join_eq (hf : h.FitsIn root) : root.join (.read h.place) = root.below h.names :=
  pathIn_eq hf.relative

end Hub

namespace Disk

open Work

variable {d : Disk} {root : Path} {p : Place} {h : Hub} {r : Resource} {current : Option Text}

theorem IsProject.ends_current?_of_holds (hp : d.IsProject root p) (hf : h.FitsIn root)
    (hh : d.Holds (p ++ h.names) current) :
    (Hub.current? (root.join (.read h.place))).Ends d (.ok current) d := by
  rw [hf.join_eq]
  have hends := Hub.ends_current? (root.below h.names) d
  cases current with
  | none =>
    have hfile : d.isFile (root.below h.names) = .ok false := by
      rw [isFile, hp.look_below hf.admits, hh.1]
      rfl
    rwa [hfile] at hends
  | some t =>
    obtain ⟨b, hb, ht⟩ := hh
    have hbytes := readBytes_eq_ok_iff.2 ⟨_, hp.reach_of_find? hf.admits hb⟩
    rwa [isFile_of_readBytes hbytes, readText_eq_ok_iff.2 ⟨b, hbytes, ht⟩] at hends

theorem IsProject.ends_current?_of_bars (hp : d.IsProject root p) (hf : h.FitsIn root)
    (hb : d.Bars (p ++ h.names)) :
    (Hub.current? (root.join (.read h.place))).Ends d (.ok none) d := by
  rw [hf.join_eq]
  have hfile : d.isFile (root.below h.names) = .ok false := by
    rw [isFile, hp.look_below hf.admits]
    rcases hb with hb | ⟨hb, -⟩
    · rw [hb]
      rfl
    · rw [hb]
      rfl
  have hends := Hub.ends_current? (root.below h.names) d
  rwa [hfile] at hends

/-- **A registration in a hub that can be read and written**: the place holds the next text, and
nothing apart from it changes. -/
theorem IsProject.ends_merge_of_holds (hp : d.IsProject root p) (hf : h.FitsIn root)
    (hh : d.Holds (p ++ h.names) current) (hs : ∀ t ∈ h.written? r current, t.IsScalar) :
    ∃ d', (Hub.merge r root h).Ends d (.ok ⟨h.name, h.place, h.statusOf r current⟩) d' ∧
      d'.IsProject root p ∧ d'.Holds (p ++ h.names) (h.next r current) ∧
      (∀ q, Apart (p ++ h.names) q → d.SameAt d' q) ∧ (h.written? r current = none → d' = d) := by
  have hc := hp.ends_current?_of_holds hf hh
  cases hw : h.written? r current with
  | none =>
    refine ⟨d, Hub.ends_merge_of_ok (Hub.ends_mergeAt_of_eq_none hc hw), hp, ?_,
      fun q _ => .refl d q, fun _ => rfl⟩
    rwa [Hub.next, hw]
  | some t =>
    obtain ⟨b, hb, ht⟩ := Utf8.exists_encode (hs t hw)
    obtain ⟨names, name, hn⟩ := (List.eq_nil_or_concat' h.names).resolve_left hf.named
    have ha := hf.admits
    rw [hn] at ha hh ⊢
    have hdir : d.find? (p ++ (names ++ [name])) ≠ some .directory := by
      cases current with
      | none => simp [hh.1]
      | some u =>
        obtain ⟨c, hc, -⟩ := hh
        simp [hc]
    have hpass : d.Passes (p ++ names) := by
      cases current with
      | none => exact hh.2.above (by simp [← List.append_assoc])
      | some u =>
        obtain ⟨c, hc, -⟩ := hh
        exact hp.sound.passes (hp.sound.above (p ++ names) name _ (by simpa using hc))
    obtain ⟨d', hsave, hputs⟩ := hp.save ha hpass hdir hb
    have hsave' : d.save (root.join (.read h.place)) t = (.ok (), d') := by
      rw [hf.join_eq, hn, hsave]
    refine ⟨d', Hub.ends_merge_of_ok (Hub.ends_mergeAt_of_eq_some hc hw hsave'),
      hputs.isProject hp fun hd => absurd hd hdir, ?_, fun q hq => ?_, fun hn => by cases hn⟩
    · rw [Hub.next, hw]
      exact ⟨b, hputs.find?_self, ht⟩
    · rw [← List.append_assoc] at hputs hq
      exact hputs.sameAt hpass hq

/-- A registration in a hub that has no room changes nothing. -/
theorem IsProject.ends_merge_of_bars (hp : d.IsProject root p) (hf : h.FitsIn root)
    (hb : d.Bars (p ++ h.names)) (r : Resource) :
    ∃ o, (Hub.merge r root h).Ends d (.ok o) d ∧ o.status ≠ .created ∧ o.status ≠ .updated := by
  have hc := hp.ends_current?_of_bars hf hb
  cases hw : h.written? r none with
  | none =>
    exact ⟨_, Hub.ends_merge_of_ok (Hub.ends_mergeAt_of_eq_none hc hw),
      Hub.statusOf_of_written?_eq_none hw⟩
  | some t =>
    obtain ⟨names, name, hn⟩ := (List.eq_nil_or_concat' h.names).resolve_left hf.named
    have ha := hf.admits
    rw [hn] at ha hb
    have hbar : ¬ d.Passes (p ++ names) ∨ d.find? (p ++ (names ++ [name])) = some .directory := by
      rcases hb with hb | ⟨hb, hw⟩
      · exact .inr hb
      · rw [← List.append_assoc] at hb hw
        exact .inl fun hpass => hw (hpass.concat hb)
    obtain ⟨reason, path, hsave⟩ := hp.save_of_barred ha hbar t
    rw [← hn, ← hf.join_eq] at hsave
    exact ⟨_, Hub.ends_merge_of_refused rfl (Hub.ends_mergeAt_of_eq_some hc hw hsave),
      by simp, by simp⟩

end Disk

end Scaffold
