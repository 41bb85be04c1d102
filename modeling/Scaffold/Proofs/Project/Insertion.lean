import Scaffold.Proofs.Hub.Lines
import Scaffold.Proofs.Hub.Recognition
import Scaffold.Proofs.Project.Merging

/-!
# A registration only inserts lines

Whenever a registration says that it made or changed a hub, the file is the old one, or the
skeleton, with whole lines put into it and the entry directly below the marker line
(`Hub.grows_of_merge`).  This holds on every disk and for every path.
-/

namespace Scaffold

namespace Hub

open Work

variable {h : Hub} {r : Resource} {root path : Path} {d d' : Disk} {current : Option Text}

/-- Where a registration says that a hub was made or changed, a text was saved. -/
theorem exists_save_of_merge {o : HubOutcome} (hm : (Hub.merge r root h).Ends d (.ok o) d')
    (ho : o.status = .created ∨ o.status = .updated) :
    ∃ current t, h.written? r current = some t ∧ d.save (h.pathIn root) t = (.ok (), d') ∧
      (∀ t ∈ current, d.readText (h.pathIn root) = .ok t) ∧
      (current = none → d.isFile (h.pathIn root) = .ok false) ∧
      (o.status = .updated ↔ current.isSome) := by
  rcases of_ends_merge hm with ⟨status, hto, rfl⟩ | ⟨e, -, -, rfl⟩
  · cases hto with
    | exempt => simp at ho
    | settled _ _ hw =>
      obtain ⟨hcreated, hupdated⟩ := statusOf_of_written?_eq_none hw
      exact (ho.elim hcreated hupdated).elim
    | @saved current t _ hc hw hsave =>
      obtain ⟨-, hread, hfile⟩ := of_ends_current? hc
      refine ⟨current, t, hw, hsave, hread, hfile, ?_⟩
      rw [statusOf_of_written?_eq_some hw]
      cases current <;> simp
  · simp at ho

/-- **A registration only inserts lines**: what it writes is the old text, or the skeleton, with a
block for each reference line and one for the entry, each between two lines or behind the last, and
every line of them ends as the old text's lines do.  The entry stands directly below the first line
that has the marker. -/
theorem grows_of_merge (hr : r.IsPlain) (hh : h ∈ standard .standard) {o : HubOutcome}
    (hm : (Hub.merge r root h).Ends d (.ok o) d')
    (ho : o.status = .created ∨ o.status = .updated) :
    ∃ old new,
      (o.status = .updated → d.readText (root.join (.read h.place)) = .ok old) ∧
      (o.status = .created →
        d.isFile (root.join (.read h.place)) = .ok false ∧ old = h.skeleton) ∧
      d'.readText (root.join (.read h.place)) = .ok new ∧
      old.Sublist new ∧
      Text.Grows (LineEnd.of old) (h.references.length + 1) old new ∧
      StandsBelow h.marker
        ((h.entry r).replaceAll '\n' (LineEnd.of old).text ++ (LineEnd.of old).text) new ∧
      (old.includes "\r\n" = true → old.endsInBoth = true → new.endsInBoth = true) := by
  obtain ⟨current, t, hw, hsave, hread, hfile, hstatus⟩ := exists_save_of_merge hm ho
  obtain ⟨-, hmark, -, rfl⟩ := eq_register_of_written? hw
  obtain ⟨hin, hne⟩ := marker_isInline h hh
  have hicon : Settings.standard.defaultIcon.IsPlainLine := by decide
  obtain ⟨hgrows, hbelow⟩ := grows_register h r hin hne (isPlainLine_reference hicon hr h hh)
    (carriageReturn_not_mem_entry hicon hr h hh) hmark
  refine ⟨current.getD h.skeleton, _, fun hu => ?_, fun hc => ?_, Disk.readText_save hsave,
    hgrows.sublist, hgrows, hbelow, fun hboth hold => ?_⟩
  · obtain ⟨u, rfl⟩ := Option.isSome_iff_exists.1 (hstatus.1 hu)
    exact hread u rfl
  · have hnone : current = none := by
      cases current with
      | none => rfl
      | some u => simp [hc] at hstatus
    exact ⟨hfile hnone, by rw [hnone]; rfl⟩
  · rw [LineEnd.of, if_pos hboth] at hgrows
    exact hgrows.endsInBothFrom (fun _ => rfl) hold

/-- A registry whose lines end in both code points, and which imports a schema, is changed. -/
theorem grows_of_merge_registry :
    let r : Resource := { name := "user", pluralName := "users", varName := "userResource" }
    let h := registry .standard
    let old : Text := "import \x7b order \x7d from '@/schemas/order.schema'\r\n\r\n" ++
      "export const all = \x7b\r\n  // === REGISTRY ENTRIES ===\r\n\x7d\r\n"
    let d : Disk := ⟨[(["src"], .directory), (["src", "lib"], .directory),
      (["src", "lib", "registry.ts"], .file ((Utf8.encode old).toOption.getD []))], []⟩
    ∃ o d' new, (Hub.merge r ⟨.top, []⟩ h).Ends d (.ok o) d' ∧ o.status = .updated ∧
      d'.readText (Path.join ⟨.top, []⟩ (.read h.place)) = .ok new ∧ old.Sublist new ∧
      Text.Grows .both 3 old new ∧
      StandsBelow h.marker ((h.entry r).replaceAll '\n' "\r\n" ++ "\r\n") new ∧
      new.endsInBoth = true := by
  intro r h old d
  have hm : (Hub.merge r ⟨.top, []⟩ h).Ends d (.ok ⟨"registry", "src/lib/registry.ts", .updated⟩)
      (Hub.merge r ⟨.top, []⟩ h d).disk := ⟨by decide +kernel, rfl⟩
  have hread : d.readText (Path.join ⟨.top, []⟩ (.read h.place)) = .ok old := by decide +kernel
  have hboth : LineEnd.of old = .both := by decide +kernel
  obtain ⟨old', new, hold, -, hnew, hsub, hgrows, hbelow, hends⟩ :=
    grows_of_merge (r := r) ⟨by decide, by decide, by decide, by decide, by decide⟩
      (by simp [h, standard]) hm (.inr rfl)
  obtain rfl : old = old' := Except.ok.inj (hread.symm.trans (hold rfl))
  rw [hboth] at hgrows hbelow
  exact ⟨_, _, new, hm, rfl, hnew, hsub, hgrows, hbelow, hends (by decide +kernel)
    (by decide +kernel)⟩

end Hub

end Scaffold
