import Scaffold.Proofs.Project.Change
import Scaffold.Proofs.Project.Registering

/-!
# When a registration returns

The disk may refuse to read or write a hub: that is an outcome, and the hubs behind it are done all
the same.  A registration ends early only where it breaks (`Hub.Breaks`): the path of a hub is at
fault on every disk, the hub has no text, or what is to be written has no bytes.  Then the hubs
before it are done, and those behind it are not.

* `Hub.answers_or_breaks` is about one hub, `merge_returns_or_breaks` about a run over any hubs.
-/

namespace Scaffold

/-! ### One hub -/

namespace Hub

open Work

variable {h : Hub} {r : Resource} {root : Path} {d d' : Disk}

/-- A registration in the hub may break on the disk `d`. -/
inductive Breaks (h : Hub) (r : Resource) (root : Path) (d : Disk) : Prop where
  /-- The path is at fault on every disk. -/
  | path (e : FileError) (hfault : (h.pathIn root).fault? = some e)
  /-- The bytes of the hub are no text. -/
  | bytes (b : Bytes) (fault : Utf8.DecodeError) (hread : d.readBytes (h.pathIn root) = .ok b)
      (hdecode : Utf8.decode b = .error fault)
  /-- The text that is to be written has no bytes. -/
  | text (current : Option Text) (t : Text)
      (hcurrent : (current? (h.pathIn root)).Ends d (.ok current) d)
      (hwritten : h.written? r current = some t) (htext : ¬ t.IsScalar)

/-- The registration in the hub answers `o` and leaves the disk `d'`.  The hub has failed if the
disk refused to read or write it, and for no other reason. -/
structure Answers (h : Hub) (r : Resource) (root : Path) (d : Disk) (o : HubOutcome) (d' : Disk) :
    Prop where
  /-- The work ends so. -/
  ends : (Hub.merge r root h).Ends d (.ok o) d'
  /-- The outcome names the hub. -/
  hub : o.hub = h.name
  /-- The outcome names its place. -/
  path : o.path = h.place
  /-- The status is that of a hub that could be read and written, or tells of the refusal. -/
  status : (∃ current, (h.applies r = true → (current? (h.pathIn root)).Ends d (.ok current) d) ∧
      (h.mergeAt r root).Ends d (.ok o.status) d' ∧ o.status = h.statusOf r current) ∨
    ∃ e, e.isRefusal = true ∧ (h.mergeAt r root).Ends d (.error e) d' ∧ o.status = .failed e.message

theorem answers_of_refused {e : FileError} (he : e.isRefusal = true)
    (hm : (h.mergeAt r root).Ends d (.error e) d') :
    h.Answers r root d ⟨h.name, h.place, .failed e.message⟩ d' :=
  ⟨ends_merge_of_refused he hm, rfl, rfl, .inr ⟨e, he, hm, rfl⟩⟩

/-- **A hub answers, or breaks the registration.** -/
theorem answers_or_breaks (h : Hub) (r : Resource) (root : Path) (d : Disk) :
    (∃ o d', h.Answers r root d o d') ∨
      h.Breaks r root d ∧ ∃ e d', (Hub.merge r root h).Ends d (.error e) d' := by
  obtain ⟨x, d', hm, hto⟩ := exists_mergesTo h r root d
  cases hto with
  | exempt ha =>
    refine .inl ⟨_, d, ends_merge_of_ok hm, rfl, rfl, .inl ⟨none, ?_, hm, ?_⟩⟩
    · simp [ha]
    · simp [statusOf, ha]
  | unread ha hc =>
    rcases unread_cases hc with he | ⟨b, fault, hb, hfault, rfl⟩
    · exact .inl ⟨_, d, answers_of_refused he hm⟩
    · exact .inr ⟨.bytes b fault hb hfault, _, d, ends_merge_of_broken rfl hm⟩
  | settled _ hc _ =>
    exact .inl ⟨_, d, ends_merge_of_ok hm, rfl, rfl, .inl ⟨_, fun _ => hc, hm, rfl⟩⟩
  | saved hc _ _ =>
    exact .inl ⟨_, d', ends_merge_of_ok hm, rfl, rfl, .inl ⟨_, fun _ => hc, hm, rfl⟩⟩
  | @unsaved current t e _ hc hw hsave =>
    by_cases he : e.isRefusal = true
    · exact .inl ⟨_, d', answers_of_refused he hm⟩
    · refine .inr ⟨?_, e, d', ends_merge_of_broken (by simpa using he) hm⟩
      cases hf : (h.pathIn root).fault? with
      | some e' => exact .path e' hf
      | none => exact .text current t hc hw fun ht => he ((Disk.wrote_save hsave).isRefusal hf ht)

end Hub

/-! ### All hubs -/

open Work Hub

/-- The hubs answer in turn: each finds the disk as the one before it left it. -/
inductive AnswerInTurn (r : Resource) (root : Path) :
    List Hub → Disk → List HubOutcome → Disk → Prop where
  /-- No hub is left. -/
  | nil (d : Disk) : AnswerInTurn r root [] d [] d
  /-- A hub answers, and then the others. -/
  | cons {h : Hub} {hubs : List Hub} {o : HubOutcome} {os : List HubOutcome} {d d' d'' : Disk}
      (first : h.Answers r root d o d') (others : AnswerInTurn r root hubs d' os d'') :
      AnswerInTurn r root (h :: hubs) d (o :: os) d''

variable {hubs : List Hub} {r : Resource} {root : Path} {d d' : Disk} {os : List HubOutcome}

theorem AnswerInTurn.ends (h : AnswerInTurn r root hubs d os d') :
    (merge hubs r root).Ends d (.ok os) d' := by
  induction h with
  | nil d => exact ends_each_nil _ d
  | cons first _ ih => exact first.ends.each_cons ih

/-- There is one outcome for each hub, in their order. -/
theorem AnswerInTurn.map_hub (h : AnswerInTurn r root hubs d os d') :
    os.map HubOutcome.hub = hubs.map Hub.name := by
  induction h with
  | nil => rfl
  | cons first _ ih => rw [List.map_cons, List.map_cons, first.hub, ih]

/-- **A registration returns one outcome for each hub, or breaks at one of them**: the hubs before
that one have answered, and it breaks the registration. -/
theorem merge_returns_or_breaks (hubs : List Hub) (r : Resource) (root : Path) (d : Disk) :
    (∃ os d', AnswerInTurn r root hubs d os d' ∧ (merge hubs r root).Ends d (.ok os) d' ∧
      os.map HubOutcome.hub = hubs.map Hub.name) ∨
    ∃ done h later os d₁, hubs = done ++ h :: later ∧ AnswerInTurn r root done d os d₁ ∧
      h.Breaks r root d₁ ∧ ∃ e d', (merge hubs r root).Ends d (.error e) d' := by
  -- on the hubs, on whatever disk the earlier ones left
  induction hubs generalizing d with
  | nil => exact .inl ⟨[], d, .nil d, ends_each_nil _ d, rfl⟩
  | cons h hubs ih =>
    rcases h.answers_or_breaks r root d with ⟨o, d₁, ho⟩ | ⟨hbreaks, e, d', hends⟩
    · rcases ih d₁ with ⟨os, d₂, hturn, -, -⟩ |
        ⟨done, k, later, os, d₂, rfl, hturn, hbreaks, e, d', hends⟩
      · have hall := AnswerInTurn.cons ho hturn
        exact .inl ⟨o :: os, d₂, hall, hall.ends, hall.map_hub⟩
      · exact .inr ⟨h :: done, k, later, o :: os, d₂, rfl, .cons ho hturn, hbreaks, e, d',
          ho.ends.bind hends.bind_error⟩
    · exact .inr ⟨[], h, hubs, [], d, rfl, .nil d, hbreaks, e, d', hends.bind_error⟩

/-- The first hub of a project has a byte that begins no text: the registration ends there, and the
other hubs are not made. -/
theorem merge_breaks_schemas :
    let d : Disk := ⟨[(["src"], .directory), (["src", "schemas"], .directory),
      (["src", "schemas", "index.ts"], .file [0xff])], []⟩
    let r : Resource := { name := "order", pluralName := "orders", varName := "orderResource" }
    ∃ e, (merge (Hub.standard .standard) r ⟨.top, []⟩).Ends d (.error e) d ∧
      e.isRefusal = false := by
  intro d r
  let path := (schemas .standard).pathIn ⟨.top, []⟩
  have hfile : d.isFile path = .ok true := rfl
  have hread : d.readText path = .error (.undecodable ⟨0xff, 0, 1, .start⟩) := rfl
  have hcurrent : (current? path).Ends d (.error (.undecodable ⟨0xff, 0, 1, .start⟩)) d :=
    (ends_ask (f := (·.isFile path)) hfile).bind
      (ends_ask (f := (·.readText path)) hread).bind_error
  exact ⟨_, (ends_merge_of_broken rfl (ends_mergeAt_of_unread rfl hcurrent)).bind_error, rfl⟩

end Scaffold
