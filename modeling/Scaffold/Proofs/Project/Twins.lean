import Scaffold.Proofs.Artifact.Planning
import Scaffold.Proofs.Project.Absence
import Scaffold.Proofs.Project.Discovery
import Scaffold.Proofs.Project.Registering
import Scaffold.Proofs.Project.Source

/-!
# Generating beside a file that is not looked at

Work may end alike on two disks: with the same result, and with disks that are related as the two
were before (`Work.EndsAlike`).  Work that is put together of such parts ends alike.

Here the two disks are twins: the second lacks one file, and nothing has been written to the places
of schema files or configuration documents since an earlier disk (`Disk.Twins`).  Neither the
reading of a schema nor the writing of files and hubs can tell twins apart, as long as no path
leads over the file in which they differ (`Disk.Twins.endsAlike_extractFile`,
`Disk.Twins.endsAlike_produce`).
-/

namespace Scaffold

/-! ### Work that ends alike -/

namespace Work

variable {ε ε' α β : Type} {R : Disk → Disk → Prop} {d d' e : Disk}

/-- On both disks the work ends with the same result or error, and the disks are related then. -/
def EndsAlike (R : Disk → Disk → Prop) (m : Work ε α) (d d' : Disk) : Prop :=
  ∃ x e e', m.Ends d x e ∧ m.Ends d' x e' ∧ R e e'

theorem endsAlike_pure (h : R d d') (x : α) : EndsAlike R (pure x : Work ε α) d d' :=
  ⟨_, _, _, ends_pure x d, ends_pure x d', h⟩

theorem endsAlike_fail (h : R d d') (e : ε) : EndsAlike R (fail e : Work ε α) d d' :=
  ⟨_, _, _, ends_fail e d, ends_fail e d', h⟩

theorem endsAlike_ofExcept (h : R d d') (x : Except ε α) : EndsAlike R (ofExcept x) d d' :=
  ⟨_, _, _, ends_ofExcept x d, ends_ofExcept x d', h⟩

theorem endsAlike_report (h : R d d') (r : LogRecord) :
    EndsAlike R (report r : Work ε Unit) d d' :=
  ⟨_, _, _, ends_report r d, ends_report r d', h⟩

theorem endsAlike_reportAll (h : R d d') (log : Log) :
    EndsAlike R (reportAll log : Work ε Unit) d d' :=
  ⟨_, _, _, ends_reportAll log d, ends_reportAll log d', h⟩

theorem endsAlike_ask {f : Disk → Except ε α} (h : R d d') (hf : f d' = f d) :
    EndsAlike R (ask f) d d' :=
  ⟨f d, d, d', ends_ask rfl, ends_ask hf, h⟩

theorem endsAlike_change {f : Disk → Except ε α × Disk} (hf : (f d').1 = (f d).1)
    (h : R (f d).2 (f d').2) : EndsAlike R (change f) d d' :=
  ⟨_, _, _, ends_change rfl, ⟨hf, rfl⟩, h⟩

theorem EndsAlike.bind {m : Work ε α} {f : α → Work ε β} (hm : EndsAlike R m d d')
    (hf : ∀ x e e', m.Ends d (.ok x) e → R e e' → EndsAlike R (f x) e e') :
    EndsAlike R (m >>= f) d d' := by
  obtain ⟨x, e, e', h, h', hR⟩ := hm
  cases x with
  | error err => exact ⟨_, _, _, h.bind_error, h'.bind_error, hR⟩
  | ok x =>
    obtain ⟨y, u, u', hy, hy', hRu⟩ := hf x e e' h hR
    exact ⟨y, u, u', h.bind hy, h'.bind hy', hRu⟩

theorem EndsAlike.attempt {m : Work ε α} (hm : EndsAlike R m d d') :
    EndsAlike R (attempt m : Work ε' (Except ε α)) d d' :=
  let ⟨_, _, _, h, h', hR⟩ := hm
  ⟨_, _, _, h.attempt, h'.attempt, hR⟩

theorem EndsAlike.mapError {m : Work ε α} (hm : EndsAlike R m d d') (g : ε → ε') :
    EndsAlike R (mapError g m) d d' :=
  let ⟨_, _, _, h, h', hR⟩ := hm
  ⟨_, _, _, h.mapError, h'.mapError, hR⟩

theorem endsAlike_each {f : α → Work ε β} {xs : List α} (h : R d d')
    (hf : ∀ x ∈ xs, ∀ e e', R e e' → EndsAlike R (f x) e e') : EndsAlike R (each f xs) d d' := by
  induction xs generalizing d d' with
  | nil => exact endsAlike_pure h []
  | cons x xs ih =>
    rw [List.forall_mem_cons] at hf
    exact (hf.1 d d' h).bind fun y e e' _ hR =>
      (ih hR hf.2).bind fun ys u u' _ hRu => endsAlike_pure hRu (y :: ys)

end Work

/-! ### Files that are never generated -/

/-- The name of a schema file or of a configuration document. -/
def IsSourceName (name : Text) : Prop :=
  Settings.standard.schemaSuffix <:+ name ∨ name = configurationName

instance : DecidablePred IsSourceName := fun name =>
  inferInstanceAs (Decidable (Settings.standard.schemaSuffix <:+ name ∨ name = configurationName))

/-- The places of schema files and configuration documents. -/
def sources : Set Place := {q | ∃ above name, q = above ++ [name] ∧ IsSourceName name}

theorem mem_sources_concat {q : Place} {name : Text} :
    q ++ [name] ∈ sources ↔ IsSourceName name := by
  constructor
  · rintro ⟨above, name', heq, hname⟩
    obtain ⟨-, hlast⟩ := List.append_inj' heq rfl
    obtain rfl : name = name' := List.singleton_inj.1 hlast
    exact hname
  · exact fun hname => ⟨q, name, rfl, hname⟩

/-- The place of a path ends with its last name. -/
theorem Path.place_eq_concat {p : Path} {names : List Text} {name : Text}
    (h : p.names = names ++ [name]) (hname : name ≠ Text.ofString "..") (here : Place) :
    ∃ above, p.place here = above ++ [name] := by
  rw [Path.place, Path.normal, h, Path.resolveNames_append, Path.resolveNames, if_neg hname]
  exact ⟨_, rfl⟩

namespace Disk

variable {d₀ d d' e e' : Disk} {here s : Place} {S M : Set Place} {path : Path}

/-- A disk that has come from `d₀` without a change of schema files and configuration documents. -/
structure Grown (d₀ d : Disk) : Prop where
  /-- Everything stands in a directory. -/
  above : ∀ (q : Place) (name : Text) (e : Entry), d.find? (q ++ [name]) = some e →
    d.find? q = some .directory
  /-- Directories stay. -/
  directory : ∀ q, d₀.find? q = some .directory → d.find? q = some .directory
  /-- The files are the same. -/
  bytes? : ∀ q ∈ sources, d.bytes? q = d₀.bytes? q

theorem Sound.grown (h : d.Sound) : d.Grown d := ⟨h.above, fun _ => id, fun _ _ => rfl⟩

/-- Two disks in the current directory `here`, the second without the file at the place `s`. -/
structure Twins (d₀ : Disk) (here s : Place) (d d' : Disk) : Prop where
  /-- The first has come from `d₀`. -/
  grown : d₀.Grown d
  /-- The current directory has been there all the time. -/
  start : d₀.find? here = some .directory
  /-- It is the one of the first disk. -/
  here : d.here = here
  /-- The second lacks the file. -/
  lacks : Lacks s d d'

namespace Twins

theorem sound (h : Twins d₀ here s d d') : d.Sound where
  above := h.grown.above
  here := h.here ▸ h.grown.directory here h.start

/-- Twins stay twins when no schema file and no configuration document is changed. -/
theorem changed (h : Twins d₀ here s d d') (hc : d.Changes e S M) (hS : ∀ q ∈ S, q ∉ sources)
    (hl : Lacks s e e') : Twins d₀ here s e e' where
  grown :=
    { above := (hc.sound h.sound).above
      directory := fun q hq => hc.directory q (h.grown.directory q hq)
      bytes? := fun q hq => by
        rw [hc.bytes? q fun hmem => hS q hmem hq, h.grown.bytes? q hq] }
  start := h.start
  here := hc.here.trans h.here
  lacks := hl

/-- Twins in another directory. -/
theorem inDirectory (h : Twins d₀ here s d d') (there : Place)
    (hthere : d₀.find? there = some .directory) :
    Twins d₀ there s { d with here := there } { d' with here := there } where
  grown := ⟨h.grown.above, h.grown.directory, h.grown.bytes?⟩
  start := hthere
  here := rfl
  lacks := h.lacks.inDirectory there

end Twins

end Disk

/-- A path that does not lead over the place `s`, nor to a schema file or a configuration
document. -/
structure Path.IsClear (here s : Place) (path : Path) : Prop where
  /-- The place is not on the way. -/
  way : s ∉ path.onWay here
  /-- No such file is at the end. -/
  place : path.place here ∉ sources

theorem Path.IsClear.parent {here s : Place} {path : Path} (h : path.IsClear here s) :
    s ∉ path.parent.onWay here := fun hmem => h.way (Path.onWay_parent_subset _ _ hmem)

/-! ### Generating on twins -/

namespace Disk.Twins

open Work

variable {d₀ d d' : Disk} {here s : Place} {path root : Path} {r : Resource}

theorem endsAlike_makeDirectories (h : Twins d₀ here s d d') (hs : s ∉ path.onWay here) :
    EndsAlike (Twins d₀ here s) (change (·.makeDirectories path)) d d' := by
  obtain ⟨hx, hl⟩ := h.lacks.makeDirectories (h.here.symm ▸ hs)
  exact endsAlike_change hx (h.changed (changes_makeDirectories rfl) (fun _ hq => hq.elim) hl)

theorem endsAlike_writeText (h : Twins d₀ here s d d') (hpath : path.IsClear here s) (t : Text) :
    EndsAlike (Twins d₀ here s) (change (·.writeText path t)) d d' := by
  obtain ⟨hx, hl⟩ := h.lacks.writeText (h.here.symm ▸ hpath.way) t
  refine endsAlike_change hx (h.changed (wrote_writeText rfl).changes_place (fun q hq => ?_) hl)
  rw [Set.mem_singleton_iff.1 hq, h.here]
  exact hpath.place

theorem endsAlike_save (h : Twins d₀ here s d d') (hpath : path.IsClear here s) (t : Text) :
    EndsAlike (Twins d₀ here s) (change (·.save path t)) d d' := by
  obtain ⟨hx, hl⟩ := h.lacks.save (h.here.symm ▸ hpath.way) t
  refine endsAlike_change hx (h.changed (wrote_save rfl).changes_place (fun q hq => ?_) hl)
  rw [Set.mem_singleton_iff.1 hq, h.here]
  exact hpath.place

/-- A schema is read alike. -/
theorem endsAlike_extractFile (h : Twins d₀ here s d d') (hs : s ∉ path.onWay here)
    (factory : Text) : EndsAlike (Twins d₀ here s) (extractFile factory path) d d' := by
  have hs' : s ∉ path.onWay d.here := h.here.symm ▸ hs
  have hends' := ends_extractFile factory path d'
  rw [h.lacks.isFile_eq hs', h.lacks.readLines_eq hs'] at hends'
  exact ⟨_, d, d', ends_extractFile factory path d, hends', h⟩

/-! #### Files -/

theorem endsAlike_writeGenerated (h : Twins d₀ here s d d') {place : Text}
    (hpath : (root.join (.read place)).IsClear here s) (kind t : Text) (force : Bool) :
    EndsAlike (Twins d₀ here s) (writeGenerated root place kind t force) d d' := by
  refine (h.endsAlike_makeDirectories hpath.parent).bind fun _ e e' _ he => ?_
  refine (endsAlike_ask he (he.lacks.isThere_eq (he.here.symm ▸ hpath.way))).bind
    fun there u u' _ hu => ?_
  split
  · exact (endsAlike_report hu _).bind fun _ _ _ _ hv => endsAlike_pure hv _
  · exact (hu.endsAlike_writeText hpath t).bind fun _ _ _ _ hv =>
      (endsAlike_report hv _).bind fun _ _ _ _ hw => endsAlike_pure hw _

theorem endsAlike_executeOne (h : Twins d₀ here s d d') {f : PlannedFile}
    (hf : (f.pathIn root).IsClear here s) (force : Bool) :
    EndsAlike (Twins d₀ here s) (executeOne r root force f) d d' := by
  rw [executeOne]
  split
  · exact (endsAlike_report h _).bind fun _ _ _ _ he => endsAlike_pure he _
  · exact (endsAlike_report h _).bind fun _ _ _ _ he => endsAlike_pure he _
  · refine (h.endsAlike_writeGenerated hf _ _ force).attempt.bind fun x e e' _ he => ?_
    cases x with
    | ok outcome => exact endsAlike_pure he outcome
    | error err =>
      dsimp only
      split
      · exact (endsAlike_report he _).bind fun _ _ _ _ hu => endsAlike_pure hu _
      · exact endsAlike_fail he err

/-- Planned files are made and written alike. -/
theorem endsAlike_execute (h : Twins d₀ here s d d') {files : List PlannedFile}
    (hfiles : ∀ f ∈ files, (f.pathIn root).IsClear here s) (force : Bool) :
    EndsAlike (Twins d₀ here s) (execute files r root force) d d' :=
  endsAlike_each h fun f hf _ _ he => he.endsAlike_executeOne (hfiles f hf) force

/-! #### Hubs -/

theorem endsAlike_current? (h : Twins d₀ here s d d') (hs : s ∉ path.onWay here) :
    EndsAlike (Twins d₀ here s) (Hub.current? path) d d' := by
  refine (endsAlike_ask h (h.lacks.isFile_eq (h.here.symm ▸ hs))).bind fun isFile e e' _ he => ?_
  split
  · exact (endsAlike_ask he (he.lacks.readText_eq (he.here.symm ▸ hs))).bind
      fun t _ _ _ hu => endsAlike_pure hu (some t)
  · exact endsAlike_pure he none

theorem endsAlike_mergeAt (h : Twins d₀ here s d d') {hub : Hub}
    (hhub : (hub.pathIn root).IsClear here s) :
    EndsAlike (Twins d₀ here s) (hub.mergeAt r root) d d' := by
  rw [Hub.mergeAt]
  split
  · exact endsAlike_pure h _
  · refine (h.endsAlike_current? hhub.way).bind fun current e e' _ he => ?_
    cases hub.update r current with
    | mk decision log =>
      refine (endsAlike_reportAll he log).bind fun _ u u' _ hu => ?_
      cases decision with
      | registered => exact endsAlike_pure hu _
      | noMarker => exact endsAlike_pure hu _
      | write t =>
        refine (hu.endsAlike_save hhub t).bind fun _ v v' _ hv => ?_
        split
        · exact (endsAlike_report hv _).bind fun _ _ _ _ hw => endsAlike_pure hw _
        · exact (endsAlike_report hv _).bind fun _ _ _ _ hw => endsAlike_pure hw _

theorem endsAlike_merge (h : Twins d₀ here s d d') {hub : Hub}
    (hhub : (hub.pathIn root).IsClear here s) :
    EndsAlike (Twins d₀ here s) (Hub.merge r root hub) d d' := by
  refine (h.endsAlike_mergeAt hhub).attempt.bind fun x e e' _ he => ?_
  cases x with
  | ok status => exact endsAlike_pure he _
  | error err =>
    dsimp only
    split
    · exact (endsAlike_report he _).bind fun _ _ _ _ hu => endsAlike_pure hu _
    · exact endsAlike_fail he err

theorem endsAlike_wire (h : Twins d₀ here s d d') {settings : Settings}
    (hhubs : ∀ hub ∈ Hub.standard settings, (hub.pathIn root).IsClear here s) (skip : Bool) :
    EndsAlike (Twins d₀ here s) (wire root settings skip r) d d' := by
  rw [wire]
  split
  · exact (endsAlike_report h _).bind fun _ _ _ _ he => endsAlike_pure he none
  · exact (endsAlike_each h fun hub hhub _ _ he => he.endsAlike_merge (hhubs hub hhub)).bind
      fun outcomes _ _ _ he => endsAlike_pure he (some outcomes)

/-! #### Resources -/

/-- The files of a resource are written, and it is registered, alike. -/
theorem endsAlike_produce (h : Twins d₀ here s d d') {settings : Settings} {catalogue : Catalogue}
    {o : Options} (hfiles : ∀ files, (plan catalogue o.only r).1 = .ok files →
      ∀ f ∈ files, (f.pathIn root).IsClear here s)
    (hhubs : ∀ hub ∈ Hub.standard settings, (hub.pathIn root).IsClear here s) (name : Text) :
    EndsAlike (Twins d₀ here s) (produce root settings catalogue o name r) d d' := by
  have hrest : ∀ e e', Twins d₀ here s e e' → EndsAlike (Twins d₀ here s) (do
      reportAll (plan catalogue o.only r).2
      let files ← ofExcept ((plan catalogue o.only r).1.mapError Failure.template)
      let writes ← Work.mapError .file (execute files r root o.force)
      let wiring ← Work.mapError .file (wire root settings o.skipWiring r)
      let g : Generated := ⟨name, r, writes, wiring⟩
      report (generatedReport g)
      return g) e e' := by
    intro e e' he
    refine (endsAlike_reportAll he _).bind fun _ u u' _ hu => ?_
    refine (endsAlike_ofExcept hu _).bind fun files v v' hends hv => ?_
    have hclear := hfiles files (Except.mapError_eq_ok_iff.1 hends.1)
    refine ((hv.endsAlike_execute hclear o.force).mapError _).bind fun writes w w' _ hw => ?_
    refine ((hw.endsAlike_wire hhubs o.skipWiring).mapError _).bind fun wiring _ _ _ hz => ?_
    exact (endsAlike_report hz _).bind fun _ _ _ _ hlast => endsAlike_pure hlast _
  rw [produce]
  split
  · exact (endsAlike_report h _).bind fun _ e e' _ he => hrest e e' he
  · exact hrest d d' h

end Disk.Twins

end Scaffold
