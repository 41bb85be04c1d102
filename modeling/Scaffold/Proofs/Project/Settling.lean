import Scaffold.Proofs.Hub.Recognition
import Scaffold.Proofs.Project.Executing
import Scaffold.Proofs.Project.Registering
import Scaffold.Proofs.Project.Saving

/-!
# Files and hubs that are settled

A generated file is made when it has the text of its maker (`PlannedFile.IsMade`), and a hub is
wired when a registration has nothing to write to it (`Hub.IsWired`).  A run makes the files, or
wires the hubs, that it comes to; as each has its own place, the later ones leave the earlier ones
alone (`Work.Ends.each_apart`).  Nothing happens to a file that is made or a hub that is wired.
-/

namespace Scaffold

open Work

/-! ### Writing what is there -/

namespace Disk

variable {d d' : Disk} {path : Path} {q : Place} {e : Entry} {b : Bytes}

theorem putAmong_of_lookup {es : List (Place × Entry)} (h : es.lookup q = some e) :
    putAmong q e es = es := by
  induction es with
  | nil => cases h
  | cons x es ih =>
    obtain ⟨u, f⟩ := x
    rw [putAmong]
    split
    · rename_i hu
      subst hu
      rw [List.lookup_cons_self, Option.some.injEq] at h
      rw [h]
    · rename_i hu
      have hb : (q == u) = false := by simpa using Ne.symm hu
      rw [List.lookup_cons, hb] at h
      rw [ih h]

theorem put_of_find? (hq : q ≠ []) (h : d.find? q = some e) : d.put q e = d := by
  rw [find?, if_neg hq] at h
  rw [put, putAmong_of_lookup h]

/-- A file stands in a directory. -/
theorem exists_reach_parent (h : d.reach path = .ok (q, some (.file b))) :
    ∃ u, d.reach path.parent = .ok (u, some .directory) := by
  obtain ⟨hf, hl, hw⟩ := reach_eq_ok_iff.1 h
  obtain ⟨start, names⟩ := path
  obtain ⟨names, name, rfl⟩ : ∃ ms m, names = ms ++ [m] := by
    refine (List.eq_nil_or_concat' names).resolve_left ?_
    rintro rfl
    cases hw
  have hdir : ∃ u, d.walk (d.startOf ⟨start, names ++ [name]⟩) names =
    .ok (u, some .directory) := by
    dsimp only at hw
    rw [walk_append] at hw
    split at hw
    · cases hw
    · exact ⟨_, ‹_›⟩
    · cases hw
    · cases hw
  obtain ⟨u, hu⟩ := hdir
  have hparent : (⟨start, names ++ [name]⟩ : Path).parent = ⟨start, names⟩ := by simp [Path.parent]
  rw [hparent]
  exact ⟨u, reach_eq_ok_iff.2 ⟨Path.fault?_of_append hf, takesOver_of_append (by decide) hl, hu⟩⟩

theorem writeText_same {t : Text} (hb : Utf8.encode t = .ok b)
    (h : d.reach path = .ok (q, some (.file b))) : d.writeText path t = (.ok (), d) := by
  obtain ⟨hq, hf⟩ := find?_of_walk (reach_eq_ok_iff.1 h).2.2 (by simp)
  rw [writeText, h]
  simp only [hb, put_of_find? hq hf]

theorem isThere_of_reach (h : d.reach path = .ok (q, some (.file b))) :
    d.isThere path = .ok true := by
  rw [isThere, look, h]
  rfl

end Disk

/-- A generated file that is there with its text is written again or skipped, and nothing
changes. -/
theorem ends_writeGenerated_same {root : Path} {path t : Text} {b : Bytes} {d : Disk}
    (hb : Utf8.encode t = .ok b) (hread : d.readBytes (root.join (.read path)) = .ok b)
    (kind : Text) (force : Bool) :
    ∃ status, (writeGenerated root path kind t force).Ends d (.ok ⟨path, kind, status⟩) d ∧
      ∀ reason, status ≠ .failed reason := by
  obtain ⟨q, hr⟩ := Disk.readBytes_eq_ok_iff.1 hread
  obtain ⟨u, hu⟩ := Disk.exists_reach_parent hr
  have hmade := ends_change (f := (·.makeDirectories (root.join (.read path)).parent))
    (Disk.makeDirectories_of_reach hu)
  have hthere := ends_ask (f := (·.isThere (root.join (.read path)))) (Disk.isThere_of_reach hr)
  cases force with
  | false =>
    refine ⟨.skipped, hmade.bind (hthere.bind ?_), by simp⟩
    exact (ends_report _ d).bind (ends_pure _ d)
  | true =>
    refine ⟨.written, hmade.bind (hthere.bind ?_), by simp⟩
    exact (ends_change (f := (·.writeText (root.join (.read path)) t))
      (Disk.writeText_same hb hr)).bind ((ends_report _ d).bind (ends_pure _ d))

/-! ### Each at its own place -/

namespace Work

variable {ε α β : Type} {f : α → Work ε β} {Good : β → Prop} {d d' : Disk} {xs : List α}
    {ys : List β}

/-- Work that settles every item at its own place settles all of them: it changes nothing elsewhere,
and what is settled stays so where its place is not changed. -/
theorem Ends.each_apart (h : (each f xs).Ends d (.ok ys) d') (hgood : ∀ y ∈ ys, Good y)
    (path : α → Path) (Settled : α → Disk → Prop)
    (hstep : ∀ x ∈ xs, ∀ d y d', (f x).Ends d (.ok y) d' → Good y →
      Settled x d' ∧ d.Changes d' {(path x).place d.here} .univ)
    (hkeep : ∀ x d d' S, Settled x d → d.Changes d' S .univ → (path x).place d.here ∉ S →
      Settled x d')
    (hplaces : (xs.map fun x => (path x).place d.here).Nodup) :
    (∀ x ∈ xs, Settled x d') ∧
      d.Changes d' {q | q ∈ xs.map fun x => (path x).place d.here} .univ := by
  induction xs generalizing d ys with
  | nil =>
    obtain ⟨-, rfl⟩ := h
    exact ⟨by simp, .refl ..⟩
  | cons x xs ih =>
    obtain ⟨y, ys, d₁, rfl, hx, hxs⟩ := h.of_each_cons
    rw [List.forall_mem_cons] at hgood
    rw [List.map_cons, List.nodup_cons] at hplaces
    -- the first item is settled, and the others do not come to its place again
    obtain ⟨hfirst, hchange⟩ := hstep x (by simp) d y d₁ hx hgood.1
    have hsame : (xs.map fun x => (path x).place d₁.here) =
      xs.map fun x => (path x).place d.here := by
      rw [hchange.here]
    obtain ⟨hothers, hchanges⟩ := ih hxs hgood.2 (fun x hx => hstep x (List.mem_cons_of_mem _ hx))
      (hsame ▸ hplaces.2)
    rw [hsame] at hchanges
    refine ⟨List.forall_mem_cons.2 ⟨hkeep x d₁ d' _ hfirst hchanges ?_, hothers⟩,
      (hchange.trans hchanges).mono ?_ (Set.subset_univ _)⟩
    · rw [hchange.here]
      exact hplaces.1
    · rw [Set.union_subset_iff, Set.singleton_subset_iff]
      exact ⟨by simp, fun q hq => List.mem_cons_of_mem _ hq⟩

end Work

/-! ### Files that are made -/

namespace PlannedFile

variable {f : PlannedFile} {r : Resource} {root : Path} {d d' : Disk}

/-- The file has the text of its maker, or the resource has no such file. -/
def IsMade (r : Resource) (root : Path) (f : PlannedFile) (d : Disk) : Prop :=
  ∃ made, f.maker r = .ok made ∧
    ∀ t ∈ made, ∃ b, Utf8.encode t = .ok b ∧ d.readBytes (f.pathIn root) = .ok b

theorem isMade_of_changes {S M : Set Place} (h : f.IsMade r root d) (hc : d.Changes d' S M)
    (hS : (f.pathIn root).place d.here ∉ S) : f.IsMade r root d' := by
  obtain ⟨made, hm, hmade⟩ := h
  refine ⟨made, hm, fun t ht => ?_⟩
  obtain ⟨b, hb, hread⟩ := hmade t ht
  exact ⟨b, hb, hc.readBytes_of_notMem hread hS⟩

/-- A file that may be overwritten is made, unless it fails. -/
theorem isMade_of_ends {o : WriteOutcome} (h : (executeOne r root true f).Ends d (.ok o) d')
    (ho : ∀ reason, o.status ≠ .failed reason) :
    f.IsMade r root d' ∧ d.Changes d' {(f.pathIn root).place d.here} .univ := by
  obtain ⟨status, d₁, hbecomes, hends⟩ | ⟨-, e, d₁, hends⟩ := f.becomes_or_breaks r root true d
  · obtain ⟨hx, rfl⟩ := hends.unique h
    obtain rfl := Except.ok.inj hx
    cases hbecomes with
    | unmade => exact absurd rfl (ho _)
    | omitted hm => exact ⟨⟨none, hm, by simp⟩, .refl ..⟩
    | @written t _ hm hwrote =>
      cases hwrote with
      | written hb hreach hchanges =>
        have hplace := Disk.place_eq_of_reach hreach
        rw [hchanges.here] at hplace
        refine ⟨⟨some t, hm, fun u hu => ?_⟩, hplace ▸ hchanges.mono subset_rfl (Set.subset_univ _)⟩
        obtain rfl := Option.some.inj hu
        exact ⟨_, hb, Disk.readBytes_eq_ok_iff.2 ⟨_, hreach⟩⟩
    | skipped _ hforce => cases hforce
    | refused => exact absurd rfl (ho _)
  · cases (hends.unique h).1

/-- Nothing happens to a file that is made. -/
theorem IsMade.ends_executeOne (h : f.IsMade r root d) (force : Bool) :
    ∃ o, (executeOne r root force f).Ends d (.ok o) d ∧ ∀ reason, o.status ≠ .failed reason := by
  obtain ⟨made, hm, hmade⟩ := h
  cases made with
  | none => exact ⟨_, ends_executeOne_of_none hm, by simp⟩
  | some t =>
    obtain ⟨b, hb, hread⟩ := hmade t rfl
    obtain ⟨status, hends, hstatus⟩ := ends_writeGenerated_same hb hread f.kind force
    rw [executeOne_of_some hm]
    exact ⟨_, ends_writePlanned_of_ok hends, hstatus⟩

end PlannedFile

/-! ### Hubs that are wired -/

namespace Hub

variable {s : Settings} {h : Hub} {r : Resource} {root : Path} {d d' : Disk}

/-- The hub has a text to which nothing is to be written, or the resource does not belong into
it. -/
def IsWired (r : Resource) (root : Path) (h : Hub) (d : Disk) : Prop :=
  h.applies r = true → ∃ b t, d.readBytes (h.pathIn root) = .ok b ∧ Utf8.decode b = .ok t ∧
    h.written? r (some t) = none

theorem isWired_of_changes {S M : Set Place} (hw : h.IsWired r root d) (hc : d.Changes d' S M)
    (hS : (h.pathIn root).place d.here ∉ S) : h.IsWired r root d' := by
  intro ha
  obtain ⟨b, t, hb, ht, hnone⟩ := hw ha
  exact ⟨b, t, hc.readBytes_of_notMem hb hS, ht, hnone⟩

theorem includes_unlines {w : Text} {lines : List Text} (line : Text) (hl : line ∈ lines)
    (hw : w <:+: line) : (Text.unlines lines).includes w = true := by
  obtain ⟨above, below, rfl⟩ := List.append_of_mem hl
  obtain ⟨before, after, rfl⟩ := hw
  rw [Text.includes_eq_true]
  exact ⟨Text.unlines above ++ before, after ++ "\n" ++ Text.unlines below, by simp [Text.unlines]⟩

/-- New hubs have a place for entries. -/
theorem includes_skeleton : ∀ h ∈ standard s, h.skeleton.includes h.marker = true := by
  intro h hh
  simp only [standard, List.mem_cons, List.not_mem_nil, or_false] at hh
  rcases hh with rfl | rfl | rfl | rfl | rfl
  · exact includes_unlines schemasMarker (by simp) List.infix_rfl
  · exact includes_unlines collectionsMarker (by simp) List.infix_rfl
  · exact includes_unlines ("  " ++ registryMarker) (by simp) (List.suffix_append _ _).isInfix
  · exact includes_unlines ("    " ++ clientMarker) (by simp) (List.suffix_append _ _).isInfix
  · exact includes_unlines ("  " ++ navigationMarker) (by simp)
      (List.suffix_append _ _).isInfix

/-- A registration wires the hub, unless it fails. -/
theorem isWired_of_ends (hn : r.HasInlineNames) (hh : h ∈ standard s) {o : HubOutcome}
    (hm : (Hub.merge r root h).Ends d (.ok o) d') (ho : ∀ reason, o.status ≠ .failed reason) :
    h.IsWired r root d' ∧ d.Changes d' {(h.pathIn root).place d.here} .univ := by
  rcases of_ends_merge hm with ⟨status, hto, rfl⟩ | ⟨e, -, -, rfl⟩
  · cases hto with
    | exempt ha => exact ⟨fun ha' => absurd ha' (by simp [ha]), .refl ..⟩
    | @settled current ha hc hw =>
      refine ⟨fun _ => ?_, .refl ..⟩
      cases current with
      | none =>
        -- an absent hub would be made from its skeleton
        have hnext : h.next r none = some _ :=
          next_eq_register ha (includes_skeleton h hh) (by simp)
        rw [next, hw] at hnext
        cases hnext
      | some t =>
        obtain ⟨-, hread, -⟩ := of_ends_current? hc
        obtain ⟨b, hb, ht⟩ := Disk.readText_eq_ok_iff.1 (hread t rfl)
        exact ⟨b, t, hb, ht, hw⟩
    | saved _ hw hsave =>
      obtain ⟨-, hmark, -, rfl⟩ := eq_register_of_written? hw
      cases Disk.wrote_save hsave with
      | written hb hreach hchanges =>
        have hplace := Disk.place_eq_of_reach hreach
        rw [hchanges.here] at hplace
        exact ⟨fun _ => ⟨_, _, Disk.readBytes_eq_ok_iff.2 ⟨_, hreach⟩, Utf8.decode_of_encode hb,
          written?_of_isRegistered (isRegistered_register hn h hh hmark)⟩,
          hplace ▸ hchanges.mono subset_rfl (Set.subset_univ _)⟩
  · exact absurd rfl (ho _)

/-- Nothing happens to a hub that is wired. -/
theorem IsWired.ends_merge (hw : h.IsWired r root d) :
    ∃ o, (Hub.merge r root h).Ends d (.ok o) d ∧ (∀ reason, o.status ≠ .failed reason) ∧
      o.status ≠ .created ∧ o.status ≠ .updated := by
  cases ha : h.applies r with
  | false => exact ⟨_, ends_merge_of_ok (ends_mergeAt_of_not_applies ha), by simp⟩
  | true =>
    obtain ⟨b, t, hb, ht, hnone⟩ := hw ha
    have hc := ends_current? (h.pathIn root) d
    rw [Disk.isFile_of_readBytes hb, Disk.readText_eq_ok_iff.2 ⟨b, hb, ht⟩] at hc
    exact ⟨_, ends_merge_of_ok (ends_mergeAt_of_eq_none hc hnone), statusOf_ne_failed h r _,
      statusOf_of_written?_eq_none hnone⟩

end Hub

end Scaffold
