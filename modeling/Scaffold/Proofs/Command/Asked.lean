import Scaffold.Proofs.Command.Child

/-!
# What a child may be asked for instead

The name of a resource can look like an option.  Then the child takes it for one, and what it is
asked for is left to the words behind it.  Whatever these are, it generates nothing, or the resource
of the name itself, or one that is named like an option of the batch, or files of a kind that there
is none of (`CommandName.name_of_request`).
-/

namespace Scaffold

open CommandLine

namespace CommandLine

variable {specs : List OptionSpec} {word : Text} {w : Word} {name key : Text}

/-! ### Options that wait -/

theorem exists_of_readLong {value : Option Text} (h : readLong specs word value = some (.ok w))
    (hw : w.waiting = some (name, key)) : ∃ o ∈ specs, o.takesValue = true ∧ o.key = key := by
  rw [readLong] at h
  split at h
  · cases h
  · obtain ⟨o, ho, h⟩ := Option.map_eq_some_iff.1 h
    refine ⟨o, List.mem_of_find?_eq_some ho, ?_⟩
    split at h
    · obtain rfl := Except.ok.inj h
      cases hw
    · rename_i htakes _
      obtain rfl := Except.ok.inj h
      obtain ⟨-, rfl⟩ := Prod.mk.inj (Option.some.inj hw)
      exact ⟨htakes, rfl⟩
    · cases h
    · obtain rfl := Except.ok.inj h
      cases hw

theorem exists_of_readShort (h : readShort specs word = .ok w)
    (hw : w.waiting = some (name, key)) : ∃ o ∈ specs, o.takesValue = true ∧ o.key = key := by
  induction word generalizing w with
  | nil =>
    obtain rfl := Except.ok.inj h
    cases hw
  | cons c cs ih =>
    rw [readShort] at h
    split at h
    · cases h
    · rename_i o ho
      split at h
      · rename_i htakes
        split at h
        · obtain rfl := Except.ok.inj h
          obtain ⟨-, rfl⟩ := Prod.mk.inj (Option.some.inj hw)
          exact ⟨o, List.mem_of_find?_eq_some ho, htakes, rfl⟩
        · obtain rfl := Except.ok.inj h
          cases hw
      · obtain ⟨v, hv, h⟩ := Except.bind_eq_ok_iff.1 h
        obtain rfl := Except.ok.inj h
        exact ih hv hw

/-- The option of a word that waits takes a value. -/
theorem exists_of_waiting (h : readWord specs word = .ok w) (hw : w.waiting = some (name, key)) :
    ∃ o ∈ specs, o.takesValue = true ∧ o.key = key := by
  rw [readWord] at h
  dsimp only at h
  split at h
  · rename_i hlong
    exact exists_of_readLong (hlong.trans (congrArg some h)) hw
  · split at h
    · cases h
    · exact exists_of_readShort h hw

theorem key_of_waiting (h : readWord CommandName.generate.options word = .ok w)
    (hw : w.waiting = some (name, key)) : key = onlyOption.key := by
  obtain ⟨o, ho, htakes, rfl⟩ := exists_of_waiting h hw
  simp only [CommandName.options, List.mem_cons, List.not_mem_nil, or_false] at ho
  rcases ho with rfl | rfl | rfl | rfl | rfl
  · cases htakes
  · rfl
  · cases htakes
  · cases htakes
  · cases htakes

/-- The last value counts. -/
theorem value?_behind {l : CommandLine} {value : Text} (h : l.value? key = some value)
    (given : List (Text × Option Text)) : (behind given l).value? key = some value := by
  rw [value?] at h ⊢
  rw [behind, List.reverse_append, List.find?_append]
  cases hfind : l.options.reverse.find? (·.1 = key) with
  | none =>
    rw [hfind] at h
    cases h
  | some option => rwa [hfind] at h

/-! ### Words out of step -/

variable {l : CommandLine} {waiting : Option (Text × Text)}

/-- A single option that has no value leaves no argument, though it may be read as a value. -/
theorem arguments_of_flag {flag : List Text} (hflag : flag = [] ∨
      ∃ key, Knows specs (key, none) ∧ flag = [key])
    (h : readFrom specs true waiting flag = .ok l) : l.arguments = [] := by
  rcases hflag with rfl | ⟨key, hkey, rfl⟩
  · cases waiting with
    | none =>
      obtain rfl := Except.ok.inj h
      rfl
    | some w => cases h
  · cases waiting with
    | none =>
      have hread := readFrom_optionWords_nil (List.forall_mem_singleton.2 hkey)
      obtain rfl := Except.ok.inj (h.symm.trans hread)
      rfl
    | some w =>
      rw [readFrom_waiting] at h
      obtain rfl := Except.ok.inj h
      rfl

end CommandLine

namespace Options

variable {o : Options} {waiting : Option (Text × Text)} {l : CommandLine} {name : Text}

/-- The last words of a child. -/
def wiringWords (skip : Bool) : List Text := if skip then [skipWiringOption.key] else []

theorem wiringWords_eq (skip : Bool) : wiringWords skip = [] ∨ ∃ key,
    Knows CommandName.generate.options (key, none) ∧ wiringWords skip = [key] := by
  cases skip with
  | false => exact .inl rfl
  | true => exact .inr ⟨_, .flag rfl (by decide) rfl, rfl⟩

theorem readFrom_wiringWords (skip : Bool) :
    readFrom CommandName.generate.options true none (wiringWords skip) =
      .ok ⟨given ⟨false, none, skip⟩, []⟩ := by
  have hread := readFrom_optionWords_nil (knows_given ⟨false, none, skip⟩)
  cases skip <;> exact hread

/-- A kind that is not taken for the value of an option is the argument, unless two dashes make one
of the last option. -/
theorem name_of_kind {kind : Text} {skip : Bool}
    (h : readFrom CommandName.generate.options true none (kind :: wiringWords skip) = .ok l)
    (hl : l.arguments = [name]) :
    name = skipWiringOption.key ∨ l.options = given ⟨false, none, skip⟩ := by
  by_cases hend : kind = Text.ofString "--"
  · rw [readFrom, if_pos hend] at h
    obtain rfl := Except.ok.inj h
    cases skip with
    | false => cases hl
    | true => exact .inl (List.singleton_inj.1 hl).symm
  · cases hword : isOption kind with
    | true =>
      cases hread : readWord CommandName.generate.options kind with
      | error e =>
        rw [readFrom, if_neg hend, if_pos hword, hread] at h
        cases h
      | ok w =>
        rw [readFrom_option hword hend hread, Except.map_eq_ok_iff] at h
        obtain ⟨l, h, rfl⟩ := h
        have hnone : l.arguments = [name] := hl
        rw [arguments_of_flag (wiringWords_eq skip) h] at hnone
        cases hnone
    | false =>
      rw [readFrom, if_neg hend, if_neg (by simp [hword]), if_pos rfl, readFrom_wiringWords] at h
      obtain rfl := Except.ok.inj h
      exact .inr rfl

/-- Behind an option that waits for the kind, an argument is the kind that was meant, and the word
for the option is taken for it; or the argument is the last option, behind two dashes. -/
theorem name_of_waiting (hwaiting : ∀ name key, waiting = some (name, key) → key = onlyOption.key)
    (h : readFrom CommandName.generate.options true waiting (o.given.flatMap optionWords) = .ok l)
    (hl : l.arguments = [name]) :
    name = skipWiringOption.key ∨ l.value? onlyOption.key = some onlyOption.key := by
  cases waiting with
  | none =>
    rw [readFrom_optionWords_nil o.knows_given] at h
    obtain rfl := Except.ok.inj h
    cases hl
  | some w =>
    obtain ⟨shown, key⟩ := w
    obtain rfl := hwaiting shown key rfl
    match o with
    | ⟨true, only, skip⟩ =>
      -- the first option is the value, the others are read as they are meant
      change readFrom _ _ _ (forceOption.key :: (given ⟨false, only, skip⟩).flatMap optionWords) =
        _ at h
      rw [readFrom_waiting, readFrom_optionWords_nil (knows_given ⟨false, only, skip⟩)] at h
      obtain rfl := Except.ok.inj h
      cases hl
    | ⟨false, none, skip⟩ =>
      have hwords : (given ⟨false, none, skip⟩).flatMap optionWords = wiringWords skip := by
        cases skip <;> rfl
      rw [hwords] at h
      rw [arguments_of_flag (wiringWords_eq skip) h] at hl
      cases hl
    | ⟨false, some kind, skip⟩ =>
      have hwords : (given ⟨false, some kind, skip⟩).flatMap optionWords =
          onlyOption.key :: kind :: wiringWords skip := by
        cases skip <;> rfl
      rw [hwords, readFrom_waiting, Except.map_eq_ok_iff] at h
      obtain ⟨l, h, rfl⟩ := h
      refine (name_of_kind h hl).imp_right fun hoptions => ?_
      rw [value?, behind, hoptions]
      cases skip <;> rfl

/-- What is generated is named by the first word, or by an option, or the kind is the word for the
kind. -/
theorem name_of_read {word : Text}
    (h : CommandLine.read CommandName.generate.options (word :: o.given.flatMap optionWords) =
      .ok l)
    (hl : l.arguments = [name]) :
    name = word ∨ name = forceOption.key ∨ name = skipWiringOption.key ∨
      l.value? onlyOption.key = some onlyOption.key := by
  rw [CommandLine.read] at h
  by_cases hend : word = Text.ofString "--"
  · rw [readFrom, if_pos hend] at h
    obtain rfl := Except.ok.inj h
    obtain ⟨force, only, skip⟩ := o
    cases only with
    | some kind => cases force <;> cases skip <;> cases hl
    | none =>
      cases force <;> cases skip <;> cases hl
      · exact .inr (.inr (.inl rfl))
      · exact .inr (.inl rfl)
  · cases hword : isOption word with
    | false =>
      rw [readFrom, if_neg hend, if_neg (by simp [hword]), if_pos rfl,
        readFrom_optionWords_nil o.knows_given] at h
      obtain rfl := Except.ok.inj h
      exact .inl (List.singleton_inj.1 hl).symm
    | true =>
      cases hread : readWord CommandName.generate.options word with
      | error e =>
        rw [readFrom, if_neg hend, if_pos hword, hread] at h
        cases h
      | ok w =>
        rw [readFrom_option hword hend hread, Except.map_eq_ok_iff] at h
        obtain ⟨l, h, rfl⟩ := h
        rcases name_of_waiting (fun _ _ => key_of_waiting hread) h hl with hname | hkind
        · exact .inr (.inr (.inl hname))
        · exact .inr (.inr (.inr (value?_behind hkind w.options)))

end Options

namespace CommandName

/-- The command that generates is asked for help, or for a resource. -/
theorem request_generate_cases {words : List Text} {request : Request}
    (h : generate.request words = .ok request) :
    request = .help ∨ ∃ name o json, request = .generate name o json := by
  rw [CommandName.request] at h
  obtain ⟨l, -, h⟩ := Except.bind_eq_ok_iff.1 h
  dsimp only at h
  split at h
  · exact .inl (Except.ok.inj h).symm
  · refine .inr ?_
    cases hasked : l.arguments with
    | nil =>
      rw [hasked] at h
      exact ⟨_, _, _, (Except.ok.inj h).symm⟩
    | cons name rest =>
      rw [hasked] at h
      change (if rest = [] then _ else _) = _ at h
      split at h
      · exact ⟨_, _, _, (Except.ok.inj h).symm⟩
      · cases h

/-- The resource that a child generates is the one of the name, or one that is named like an option,
or the kind of its files is the word for the kind. -/
theorem name_of_request {word name : Text} {o o' : Options} {json : Bool}
    (h : generate.request (word :: o.given.flatMap optionWords) =
      .ok (.generate (some name) o' json)) :
    name = word ∨ name = forceOption.key ∨ name = skipWiringOption.key ∨
      o'.only = some onlyOption.key := by
  obtain ⟨l, hread, -, hl, rfl, -⟩ := request_generate_iff.1 h
  exact Options.name_of_read hread hl

end CommandName

end Scaffold
