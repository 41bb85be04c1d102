import Scaffold.Project.Generation
import Scaffold.Proofs.Project.Change
import Scaffold.Proofs.Project.Work
import Scaffold.Proofs.Schema.Fault

/-!
# Reading a schema file

`extractFile` leaves the disk as it is and answers what the source declares, if a file stands at the
path and has a text (`ends_extractFile`).  It fails for the schema itself, or else because the path
is too long to be asked for, the file has no text, or a literal in the source is at fault
(`extraction_fails`).
-/

namespace Scaffold

variable {factory : Text} {path : Path} {d : Disk}

open Work

/-- What the extraction from a file answers. -/
theorem ends_extractFile (factory : Text) (path : Path) (d : Disk) :
    (extractFile factory path).Ends d
      (match d.isFile path with
      | .error e => .error (.file e)
      | .ok false => .error (.missing path)
      | .ok true =>
        match d.readLines path with
        | .error e => .error (if e.isRefusal then .unreadable path e else .file e)
        | .ok source => (extract factory path.written source).1.mapError (.invalid path factory))
      d := by
  rw [extractFile]
  cases hfile : d.isFile path with
  | error e => exact (ends_ask (f := (·.isFile path)) hfile).mapError.bind_error
  | ok there =>
    refine (ends_ask (f := (·.isFile path)) hfile).mapError.bind ?_
    cases there with
    | false => exact ends_fail _ d
    | true =>
      cases hlines : d.readLines path with
      | error e => exact (ends_ask (f := (·.readLines path)) hlines).mapError.bind_error
      | ok source =>
        refine (ends_ask (f := (·.readLines path)) hlines).mapError.bind ?_
        exact (ends_reportAll _ d).bind (ends_ofExcept _ d)

/-- A resource is read from a file with a text that declares it, and nothing is changed. -/
theorem ends_extractFile_iff {r : Resource} {d' : Disk} :
    (extractFile factory path).Ends d (.ok r) d' ↔ d = d' ∧ ∃ t, d.readText path = .ok t ∧
      (extract factory path.written t.normalizeNewlines).1 = .ok r := by
  have hends := ends_extractFile factory path d
  constructor
  · intro h
    obtain ⟨hx, rfl⟩ := hends.unique h
    refine ⟨rfl, ?_⟩
    split at hx
    · cases hx
    · cases hx
    · split at hx
      · cases hx
      · rename_i source hlines
        obtain ⟨t, ht, hsource⟩ := Except.bind_eq_ok_iff.1 hlines
        obtain rfl := Except.ok.inj hsource
        exact ⟨t, ht, Except.mapError_eq_ok_iff.1 hx⟩
  · rintro ⟨rfl, t, ht, hr⟩
    obtain ⟨b, hb, -⟩ := Disk.readText_eq_ok_iff.1 ht
    have hlines : d.readLines path = .ok t.normalizeNewlines := Except.bind_eq_ok_iff.2 ⟨t, ht, rfl⟩
    rw [Disk.isFile_of_readBytes hb, hlines] at hends
    simpa only [Except.mapError_eq_ok_iff.2 hr] using hends

theorem undecodable_of_readLines {e : FileError} (hfile : d.isFile path = .ok true)
    (h : d.readLines path = .error e) :
    ∃ b fault, d.readBytes path = .ok b ∧ Utf8.decode b = .error fault ∧
      e = .undecodable fault := by
  rw [Disk.readLines] at h
  rcases Except.bind_eq_error_iff.1 h with h | ⟨t, -, h⟩
  · exact Disk.undecodable_of_readText hfile h
  · cases h

/-- **Extraction fails for a declaration, or for a literal**: a source gives a resource, or a fault
of its declaration, unless a literal in it is at fault; and so does a file, unless its path is too
long or its bytes are no text. -/
theorem extraction_fails (factory : Text) :
    (∀ origin source,
      (∃ r, (extract factory origin source).1 = .ok r) ∨
      (∃ e, (extract factory origin source).1 = .error e ∧ e.isDeclared = true) ∨
      LiteralFault factory source) ∧
    ∀ path d, ∃ x, (extractFile factory path).Ends d x d ∧
      ((∃ r, x = .ok r) ∨ (∃ e, x = .error e ∧ e.isDeclared = true) ∨
        d.isFile path = .error (.refused .nameTooLong path) ∨
        (∃ b fault, d.readBytes path = .ok b ∧ Utf8.decode b = .error fault) ∨
        ∃ source, d.readLines path = .ok source ∧ LiteralFault factory source) := by
  constructor
  · intro origin source
    cases h : (extract factory origin source).1 with
    | ok r => exact .inl ⟨r, rfl⟩
    | error e =>
      by_cases he : e.isDeclared = true
      · exact .inr (.inl ⟨e, rfl, he⟩)
      · exact .inr (.inr (literalFault_of_extract h (by simpa using he)))
  · intro path d
    refine ⟨_, ends_extractFile factory path d, ?_⟩
    cases hfile : d.isFile path with
    | error e => exact .inr (.inr (.inl (by rw [Disk.eq_nameTooLong_of_isFile hfile])))
    | ok there =>
      cases there with
      | false => exact .inr (.inl ⟨_, rfl, rfl⟩)
      | true =>
        cases hlines : d.readLines path with
        | error e =>
          obtain ⟨b, fault, hb, hfault, -⟩ := undecodable_of_readLines hfile hlines
          exact .inr (.inr (.inr (.inl ⟨b, fault, hb, hfault⟩)))
        | ok source =>
          dsimp only
          cases h : (extract factory path.written source).1 with
          | ok r => exact .inl ⟨r, rfl⟩
          | error e =>
            by_cases he : e.isDeclared = true
            · exact .inr (.inl ⟨_, rfl, he⟩)
            · exact .inr (.inr (.inr (.inr
                ⟨source, rfl, literalFault_of_extract h (by simpa using he)⟩)))

/-- An escape sequence with too large a number ends the extraction, and is no fault of a
declaration. -/
theorem extract_huge_escape :
    ∃ e, (extract "defineResource" "<source>" "'\\u\x7bFFFFFFFF\x7d'").1 = .error e ∧
      e.isDeclared = false := by
  have hcause : (match tokenize "'\\u\x7bFFFFFFFF\x7d'" with
      | .error e => decide (e.cause = .hugeEscape)
      | .ok _ => false) = true := by decide +kernel
  split at hcause
  · rename_i e htokens
    refine ⟨.lex e, ?_, by simp [ExtractError.isDeclared, of_decide_eq_true hcause]⟩
    rw [extract, findDeclaration, htokens]
    rfl
  · cases hcause

end Scaffold
