import Scaffold.Command.Program
import Scaffold.Proofs.Project.Twins

/-!
# How children exit

A child does what its command does, in its own current directory, and exits with the code that
comes of the answer of the command (`exits_of_call`).  A resource whose schema is refused exits with
code one and leaves the disk as it is (`Workspace.ends_generate_of_refused`).
-/

namespace Scaffold

open Work

/-! ### Exit codes -/

namespace Reply

/-- The exit code of a run whose command ends so. -/
def exitCodeOf : Except Failure Reply → Nat
  | .ok reply => (Program.ending [] reply).exitCode
  | .error _ => 1

theorem exitCode_ending (log : Text) (reply : Reply) :
    (Program.ending log reply).exitCode = exitCodeOf (.ok reply) := by
  rw [exitCodeOf, Program.ending, Program.ending]
  cases Program.printAll reply.output with
  | mk output failure => cases failure <;> rfl

theorem exitCodeOf_of_one {reply : Reply} (h : reply.exitCode = 1) :
    exitCodeOf (.ok reply) = 1 := by
  rw [exitCodeOf, Program.ending]
  cases Program.printAll reply.output with
  | mk output failure =>
    cases failure with
    | none => exact h
    | some failure => rfl

/-- An answer does not look at the disk; one with exit code one has this code even where it cannot
be printed. -/
theorem exists_ends_ofReport (exitCode : Nat) (json : Bool) (messages : List Text)
    (value : Except Utf8.EncodeError Value) : ∃ x,
      (∀ d, (ofReport exitCode json messages value).Ends d x d) ∧
        (exitCode = 1 → exitCodeOf x = 1) := by
  unfold ofReport
  split
  · exact ⟨_, fun d => ends_pure _ d, fun h => exitCodeOf_of_one h⟩
  · split
    · exact ⟨_, fun d => ends_fail _ d, fun _ => rfl⟩
    · split
      · exact ⟨_, fun d => ends_fail _ d, fun _ => rfl⟩
      · exact ⟨_, fun d => ends_pure _ d, fun h => exitCodeOf_of_one h⟩

theorem endsAlike_ofReport {R : Disk → Disk → Prop} {d d' : Disk} (h : R d d') (exitCode : Nat)
    (json : Bool) (messages : List Text) (value : Except Utf8.EncodeError Value) :
    EndsAlike R (ofReport exitCode json messages value) d d' := by
  obtain ⟨x, hx, -⟩ := exists_ends_ofReport exitCode json messages value
  exact ⟨x, d, d', hx d, hx d', h⟩

end Reply

open Reply

/-! ### Commands -/

namespace Workspace

variable {w : Workspace} {o : Options} {name : Text} {json : Bool} {d : Disk}

/-- Without a schema to generate from, the command exits with one. -/
theorem ends_generate_of_refused {e : SchemaError}
    (h : (extractFile w.settings.factory (w.root.join (.read (w.settings.schemaPath name)))).Ends d
      (.error e) d) : ∃ x, (w.generate name o json).Ends d x d ∧ exitCodeOf x = 1 := by
  rw [Workspace.generate]
  split
  · exact ⟨_, ends_pure _ d, exitCodeOf_of_one rfl⟩
  · cases hdeclared : e.isDeclared with
    | true =>
      have hends : (Scaffold.generate w.root w.settings .standard o name).Ends d
          (.ok (.error e)) d := by
        refine (Ends.attempt h).bind ?_
        dsimp only
        rw [hdeclared, if_pos rfl]
        exact (ends_report _ d).bind (ends_pure _ d)
      obtain ⟨x, hx, hcode⟩ := exists_ends_ofReport 1 json [complaint e.message]
        (.ok (e.valueFor name))
      exact ⟨x, hends.bind (hx d), hcode rfl⟩
    | false =>
      have hends : (Scaffold.generate w.root w.settings .standard o name).Ends d
          (.error (.schema e)) d := by
        refine (Ends.attempt h).bind ?_
        dsimp only
        rw [hdeclared, if_neg Bool.false_ne_true]
        exact ends_fail _ d
      exact ⟨_, hends.bind_error, rfl⟩

/-- A resource is generated alike where its schema is read alike, and what comes of it is written
alike. -/
theorem endsAlike_generate {R : Disk → Disk → Prop} {d d' : Disk}
    (hread : EndsAlike R
      (extractFile w.settings.factory (w.root.join (.read (w.settings.schemaPath name)))) d d')
    (hproduce : ∀ r e e', (extractFile w.settings.factory
        (w.root.join (.read (w.settings.schemaPath name)))).Ends d (.ok r) e → R e e' →
      EndsAlike R (produce w.root w.settings .standard o name r) e e')
    (h : R d d') : EndsAlike R (w.generate name o json) d d' := by
  rw [Workspace.generate]
  split
  · exact endsAlike_pure h _
  · have hgenerate : EndsAlike R (Scaffold.generate w.root w.settings .standard o name) d d' := by
      refine (EndsAlike.attempt hread).bind fun x e e' hx he => ?_
      cases x with
      | error err =>
        dsimp only
        split
        · exact (endsAlike_report he _).bind fun _ _ _ _ hu => endsAlike_pure hu _
        · exact endsAlike_fail he _
      | ok r =>
        refine (hproduce r e e' ⟨Except.ok.inj hx.1, hx.2⟩ he).bind fun g _ _ _ hu => ?_
        exact endsAlike_pure hu _
    refine hgenerate.bind fun x e e' _ he => ?_
    cases x with
    | error err => exact endsAlike_ofReport he ..
    | ok g => exact endsAlike_ofReport he ..

end Workspace

/-! ### Runs -/

/-- The child runs, leaves the exit code, and the disk `d` becomes `d'`. -/
def Child.Exits (child : Child) (run : Runner) (d : Disk) (code : Nat) (d' : Disk) : Prop :=
  ∃ ending, (run child).Ends d (.ok (.exited code, ending)) d'

/-- A run ends with the exit code of its command. -/
theorem exists_finish (l : Logging) (r : Run Failure Reply) : ∃ ending kept,
    (Program.finish l r).result = .ok (ending, kept) ∧ (Program.finish l r).disk = r.disk ∧
      ending.exitCode = exitCodeOf r.result := by
  rw [Program.finish]
  cases r.result with
  | ok reply => exact ⟨_, _, rfl, rfl, exitCode_ending _ reply⟩
  | error e => exact ⟨_, _, rfl, rfl, rfl⟩

/-- A child exits as its command ends. -/
theorem exits_of_call {children : Runner} {env : Environment} {child : Child} {d d' : Disk}
    {g : Globals} {command : CommandName} {words : List Text} {x : Except Failure Reply}
    (hread : Invocation.read (child.arguments.drop program.length) = .ok (.command g command words))
    (h : (call children g command words).Ends { d with here := child.directory.names } x d') :
    child.Exits (Program.runChild children env) d (exitCodeOf x) { d' with here := d.here } := by
  obtain ⟨hx, hd⟩ := h
  let tagged : Environment := { env with tag := some child.tag }
  obtain ⟨ending, kept, hresult, hdisk, hcode⟩ := exists_finish (g.logging tagged)
    (call children g command words { d with here := child.directory.names })
  have hrun : (Program.run children tagged (child.arguments.drop program.length)).Ends
      { d with here := child.directory.names } (.ok (ending, kept)) d' := by
    rw [Program.run, hread]
    exact ⟨hresult, hdisk.trans hd⟩
  rw [← hx, ← hcode]
  exact ⟨some ending, hrun.inDirectory.bind (ends_pure _ _)⟩

end Scaffold
