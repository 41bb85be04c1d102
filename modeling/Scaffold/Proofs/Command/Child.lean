import Scaffold.Command.Program
import Scaffold.Project.Batch
import Scaffold.Proofs.Outcome

/-!
# The command lines of children

Each resource of a batch is generated by a child whose command line is written here and read there.
The child is asked for the resource with the options of the batch exactly when the name of the
resource is no option, the chosen kind is not empty, and the path of the configuration is one
(`child_generates_iff`).
-/

namespace Scaffold

namespace CommandLine

variable {specs : List OptionSpec} {mixed : Bool}

/-! ### Options written as words -/

/-- The command line with more options in front. -/
def behind (given : List (Text × Option Text)) (l : CommandLine) : CommandLine :=
  { l with options := given ++ l.options }

/-- The words of an option that is given by its key. -/
def optionWords : Text × Option Text → List Text
  | (key, value) => key :: value.toList

/-- The option can be given by its key, with a value or without. -/
inductive Knows (specs : List OptionSpec) : Text × Option Text → Prop
  /-- It takes no value. -/
  | flag {key : Text} (hkey : isOption key = true) (hend : key ≠ Text.ofString "--")
      (hread : readWord specs key = .ok { options := [(key, none)] }) : Knows specs (key, none)
  /-- Its value is the next word. -/
  | valued {key : Text} (value : Text) (hkey : isOption key = true)
      (hend : key ≠ Text.ofString "--")
      (hread : readWord specs key = .ok { waiting := some (key, key) }) :
      Knows specs (key, some value)

theorem readFrom_option {word : Text} {w : Word} (hword : isOption word = true)
    (hend : word ≠ Text.ofString "--") (hread : readWord specs word = .ok w) (words : List Text) :
    readFrom specs mixed none (word :: words) =
      (readFrom specs mixed w.waiting words).map (behind w.options) := by
  rw [readFrom, if_neg hend, if_pos hword, hread]
  dsimp only
  cases readFrom specs mixed w.waiting words <;> rfl

theorem readFrom_waiting (name key word : Text) (words : List Text) :
    readFrom specs mixed (some (name, key)) (word :: words) =
      (readFrom specs mixed none words).map (behind [(key, some word)]) := by
  rw [readFrom]
  cases readFrom specs mixed none words <;> rfl

/-- Options that are written as words are read again, whatever follows. -/
theorem readFrom_optionWords {given : List (Text × Option Text)}
    (hgiven : ∀ o ∈ given, Knows specs o) (words : List Text) :
    readFrom specs mixed none (given.flatMap optionWords ++ words) =
      (readFrom specs mixed none words).map (behind given) := by
  induction given with
  | nil =>
    rw [List.flatMap_nil, List.nil_append]
    cases readFrom specs mixed none words <;> rfl
  | cons o given ih =>
    rw [List.forall_mem_cons] at hgiven
    obtain ⟨ho, hgiven⟩ := hgiven
    rw [List.flatMap_cons, List.append_assoc]
    cases ho with
    | flag hkey hend hread =>
      rw [optionWords, Option.toList_none, List.singleton_append, readFrom_option hkey hend hread,
        ih hgiven]
      cases readFrom specs mixed none words <;> rfl
    | valued value hkey hend hread =>
      rw [optionWords, Option.toList_some, List.cons_append, List.singleton_append,
        readFrom_option hkey hend hread, readFrom_waiting, ih hgiven]
      cases readFrom specs mixed none words <;> rfl

/-- Options that are written as words leave no argument. -/
theorem readFrom_optionWords_nil {given : List (Text × Option Text)}
    (hgiven : ∀ o ∈ given, Knows specs o) :
    readFrom specs true none (given.flatMap optionWords) = .ok ⟨given, []⟩ := by
  rw [← List.append_nil (given.flatMap optionWords), readFrom_optionWords hgiven, readFrom,
    Except.map, behind, List.append_nil]

/-- A single argument is no option, or it is one of the options that have no value. -/
def LoneArgument (specs : List OptionSpec) (l : CommandLine) : Prop :=
  ∀ a, l.arguments = [a] → isOption a = false ∨ Knows specs (a, none)

theorem LoneArgument.of_behind {l : CommandLine} (h : l.LoneArgument specs)
    (given : List (Text × Option Text)) : (behind given l).LoneArgument specs := h

theorem loneArgument_of_nil {l : CommandLine} (h : l.arguments = []) : l.LoneArgument specs :=
  fun _ ha => nomatch h.symm.trans ha

variable {given : List (Text × Option Text)} {l : CommandLine}

/-- A word in front of options that are written as words. -/
theorem loneArgument_cons (hgiven : ∀ o ∈ given, Knows specs o)
    (hrest : ∀ waiting l, readFrom specs true waiting (given.flatMap optionWords) = .ok l →
      l.LoneArgument specs) {word : Text}
    (h : readFrom specs true none (word :: given.flatMap optionWords) = .ok l) :
    l.LoneArgument specs := by
  by_cases hend : word = Text.ofString "--"
  · -- the words behind the two dashes are the arguments
    rw [readFrom, if_pos hend] at h
    obtain rfl := Except.ok.inj h
    intro a ha
    match given, ha with
    | [(key, none)], ha =>
      obtain rfl : key = a := List.singleton_inj.1 ha
      exact .inr (hgiven _ (List.mem_singleton_self _))
  · cases hword : isOption word with
    | true =>
      cases hread : readWord specs word with
      | error e =>
        rw [readFrom, if_neg hend, if_pos hword, hread] at h
        cases h
      | ok w =>
        rw [readFrom_option hword hend hread, Except.map_eq_ok_iff] at h
        obtain ⟨l, hl, rfl⟩ := h
        exact (hrest _ l hl).of_behind _
    | false =>
      rw [readFrom, if_neg hend, if_neg (by simp [hword]), if_pos rfl,
        readFrom_optionWords_nil hgiven] at h
      obtain rfl := Except.ok.inj h
      intro a ha
      obtain rfl : word = a := List.singleton_inj.1 ha
      exact .inl hword

/-- Options that are written as words may be read out of step, when an option before them waits for
its value: then keys are read as values, and values as whatever they look like. -/
theorem loneArgument_of_readFrom (hgiven : ∀ o ∈ given, Knows specs o)
    (waiting : Option (Text × Text))
    (h : readFrom specs true waiting (given.flatMap optionWords) = .ok l) :
    l.LoneArgument specs := by
  induction given generalizing waiting l with
  | nil =>
    cases waiting with
    | none =>
      obtain rfl := Except.ok.inj h
      exact loneArgument_of_nil rfl
    | some w => cases h
  | cons o given ih =>
    cases waiting with
    | none =>
      rw [readFrom_optionWords_nil hgiven] at h
      obtain rfl := Except.ok.inj h
      exact loneArgument_of_nil rfl
    | some w =>
      rw [List.forall_mem_cons] at hgiven
      obtain ⟨key, value⟩ := o
      rw [List.flatMap_cons, optionWords, List.cons_append, readFrom_waiting,
        Except.map_eq_ok_iff] at h
      obtain ⟨l, hl, rfl⟩ := h
      refine LoneArgument.of_behind ?_ _
      cases value with
      | none => exact ih hgiven.2 none hl
      | some value => exact loneArgument_cons hgiven.2 (fun _ _ h => ih hgiven.2 _ h) hl

end CommandLine

open CommandLine

/-! ### The words of the command -/

namespace Options

variable (o : Options)

/-- What comes of the options on a command line: an empty kind is lost. -/
def passed : Options := { o with only := o.only.filter (· ≠ []) }

/-- The options that a child is given behind the name of its resource. -/
def given : List (Text × Option Text) :=
  (if o.force then [(forceOption.key, none)] else []) ++
    (o.only.toList.map fun kind => (onlyOption.key, some kind)) ++
    (if o.skipWiring then [(skipWiringOption.key, none)] else [])

theorem passed_eq_self_iff : o.passed = o ↔ o.only ≠ some [] := by
  obtain ⟨force, only, skipWiring⟩ := o
  cases only with
  | none => simp [passed]
  | some kind => by_cases hkind : kind = [] <;> simp [passed, hkind]

theorem runOptions_given (arguments : List Text) :
    CommandLine.runOptions ⟨o.given, arguments⟩ = o := by
  obtain ⟨force, only, skipWiring⟩ := o
  cases only <;> cases force <;> cases skipWiring <;> rfl

theorem knows_given : ∀ x ∈ o.given, Knows CommandName.generate.options x := by
  intro x hx
  simp only [given, List.mem_append, List.mem_map, List.mem_ite_nil_right,
    List.mem_singleton] at hx
  rcases hx with (⟨-, rfl⟩ | ⟨kind, -, rfl⟩) | ⟨-, rfl⟩
  · exact .flag rfl (by decide) rfl
  · exact .valued kind rfl (by decide) rfl
  · exact .flag rfl (by decide) rfl

end Options

/-- The command line of a child, option by option. -/
theorem childArguments_eq (name : Text) (o : Options) (configuration : Option Path)
    (globals : List Text) :
    childArguments name o configuration globals = program ++
      ((configuration.toList.map fun path => (configOption.key, some path.written)).flatMap
        optionWords ++ (globals ++
      (Text.ofString "generate" :: name :: o.passed.given.flatMap optionWords))) := by
  obtain ⟨force, _ | _ | ⟨c, kind⟩, skipWiring⟩ := o <;>
    cases configuration <;> cases force <;> cases skipWiring <;> rfl

/-! ### Reading the command line of a child -/

namespace CommandName

theorem request_generate_iff {words : List Text} {name : Text} {o : Options} {json : Bool} :
    generate.request words = .ok (.generate (some name) o json) ↔
      ∃ l, CommandLine.read generate.options words = .ok l ∧ l.has helpOption.key = false ∧
        l.arguments = [name] ∧ l.runOptions = o ∧ l.has jsonOption.key = json := by
  rw [request, Except.bind_eq_ok_iff]
  refine exists_congr fun l => and_congr_right fun _ => ?_
  cases l.has helpOption.key with
  | true => exact ⟨nofun, nofun⟩
  | false =>
    match hl : l.arguments with
    | [] => exact ⟨nofun, nofun⟩
    | [argument] => simp [noMore]
    | argument :: extra :: rest => simp [noMore]

theorem read_of_not_isOption {name : Text} (hname : isOption name = false) (o : Options) :
    CommandLine.read generate.options (name :: o.given.flatMap optionWords) =
      .ok ⟨o.given, [name]⟩ := by
  have hend : name ≠ Text.ofString "--" := by
    rintro rfl
    cases hname
  rw [CommandLine.read, readFrom, if_neg hend, if_neg (by simp [hname]), if_pos rfl,
    readFrom_optionWords_nil o.knows_given]
  rfl

/-- A name that is an option does not reach the command as its argument. -/
theorem isOption_of_read {name : Text} {o : Options} {l : CommandLine}
    (h : CommandLine.read generate.options (name :: o.given.flatMap optionWords) = .ok l)
    (hl : l.arguments = [name]) : isOption name = false := by
  have hlone := loneArgument_cons o.knows_given
    (fun _ _ => loneArgument_of_readFrom o.knows_given _) h name hl
  refine hlone.resolve_right fun hknows => ?_
  -- read as an option, it leaves no argument at all
  have hgiven := o.knows_given
  have hall := readFrom_optionWords_nil (List.forall_mem_cons.2 ⟨hknows, hgiven⟩)
  rw [List.flatMap_cons, optionWords, Option.toList_none, List.singleton_append] at hall
  obtain rfl := Except.ok.inj (h.symm.trans hall)
  cases hl

/-- A name that is no option reaches the command with the options, and no other name does. -/
theorem request_iff {name : Text} {o o' : Options} :
    generate.request (name :: o.given.flatMap optionWords) = .ok (.generate (some name) o' false) ↔
      isOption name = false ∧ o = o' := by
  rw [request_generate_iff]
  constructor
  · rintro ⟨l, hread, -, hl, rfl, -⟩
    have hname := isOption_of_read hread hl
    rw [read_of_not_isOption hname] at hread
    obtain rfl := Except.ok.inj hread
    exact ⟨hname, (o.runOptions_given _).symm⟩
  · rintro ⟨hname, rfl⟩
    refine ⟨_, read_of_not_isOption hname o, ?_, rfl, o.runOptions_given _, ?_⟩ <;>
      obtain ⟨force, only, skipWiring⟩ := o <;>
      cases only <;> cases force <;> cases skipWiring <;> rfl

end CommandName

/-- The words of a child before the name of the command: the path of the configuration, and how much
the user asks to be told. -/
def Logging.Verbosity.given (v : Logging.Verbosity) (configuration : Option Path) :
    List (Text × Option Text) :=
  (configuration.toList.map fun path => (configOption.key, some path.written)) ++
    v.arguments.map (·, none)

theorem Logging.Verbosity.knows_given (v : Logging.Verbosity) (configuration : Option Path) :
    ∀ x ∈ v.given configuration, Knows globalOptions x := by
  intro x hx
  rcases List.mem_append.1 hx with hx | hx
  · obtain ⟨path, -, rfl⟩ := List.mem_map.1 hx
    exact .valued path.written rfl (by decide) rfl
  · obtain ⟨word, hword, rfl⟩ := List.mem_map.1 hx
    have hmem : word = debugOption.key ∨ word = verboseOption.key ∨ word = quietOption.key := by
      obtain ⟨debug, verbose, quiet⟩ := v
      cases debug <;> cases verbose <;> cases quiet <;> simp_all [arguments] <;> decide
    rcases hmem with rfl | rfl | rfl <;> exact .flag rfl (by decide) rfl

namespace Invocation

/-- What is read in front of the name of the command. -/
theorem opening_child (v : Logging.Verbosity) (configuration : Option Path) (words : List Text) :
    ∃ g : Globals, g.configuration = configuration.map Path.written ∧
      g.verbosity.arguments = v.arguments ∧
      opening ((v.given configuration).flatMap optionWords ++ Text.ofString "generate" :: words) =
        .ok (match configuration.bind Path.fault? with
          | some reason => .inl (.noPath reason)
          | none => .inr (g, Text.ofString "generate" :: words)) := by
  let l : CommandLine := ⟨v.given configuration, Text.ofString "generate" :: words⟩
  have hread : readLeading globalOptions ((v.given configuration).flatMap optionWords ++
      Text.ofString "generate" :: words) = .ok l := by
    rw [readLeading, readFrom_optionWords (v.knows_given configuration), readFrom,
      if_neg (by decide), if_neg (by decide), if_neg (by decide), Except.map, behind,
      List.append_nil]
  obtain ⟨hvalue, hasked, hverbosity⟩ : l.value? configOption.key = configuration.map Path.written ∧
      (l.options.find? fun (key, _) => key = versionOption.key || key = helpOption.key) = none ∧
      l.verbosity.arguments = v.arguments := by
    obtain ⟨debug, verbose, quiet⟩ := v
    cases configuration <;> cases debug <;> cases verbose <;> cases quiet <;>
      exact ⟨rfl, rfl, rfl⟩
  refine ⟨⟨l.verbosity, configuration.map Path.written⟩, rfl, hverbosity, ?_⟩
  have hfault : (configuration.map Path.written).bind Path.faultOf =
      configuration.bind Path.fault? := by
    cases configuration <;> rfl
  rw [opening, hread]
  simp only [bind, Except.bind, hasked, hvalue, hfault]
  cases configuration.bind Path.fault? <;> rfl

theorem read_child (v : Logging.Verbosity) (configuration : Option Path) (words : List Text) :
    ∃ g : Globals, g.configuration = configuration.map Path.written ∧
      g.verbosity.arguments = v.arguments ∧
      read ((v.given configuration).flatMap optionWords ++ Text.ofString "generate" :: words) =
        .ok (match configuration.bind Path.fault? with
          | some reason => .noPath reason
          | none => .command g .generate words) := by
  obtain ⟨g, hconfiguration, hverbosity, hopening⟩ := opening_child v configuration words
  refine ⟨g, hconfiguration, hverbosity, ?_⟩
  rw [read, if_neg (by simp), hopening]
  cases configuration.bind Path.fault? <;> rfl

/-- The command line asks for a resource, with these options of the program and of the command. -/
def Generates (words : List Text) (g : Globals) (name : Text) (o : Options) : Prop :=
  ∃ rest, read words = .ok (.command g .generate rest) ∧
    CommandName.generate.request rest = .ok (.generate (some name) o false)

/-- Two command lines that ask for the same resource in the same way are the same to the program. -/
theorem Generates.run_eq {words words' : List Text} {g : Globals} {name : Text} {o : Options}
    (h : Generates words g name o) (h' : Generates words' g name o) (children : Runner)
    (e : Environment) : Program.run children e words = Program.run children e words' := by
  obtain ⟨rest, hread, hrequest⟩ := h
  obtain ⟨rest', hread', hrequest'⟩ := h'
  have hcall : Scaffold.call children g .generate rest =
      Scaffold.call children g .generate rest' := by
    simp only [Scaffold.call, hrequest, hrequest']
  rw [Program.run, Program.run, hread, hread']
  dsimp only
  rw [hcall]

end Invocation

open Invocation

/-- **The options of a batch reach its children.**  For every name of a resource, all options, every
path of the configuration and however much is to be told: what the program reads from the words of
the child is the wish to generate just this resource with just these options, if and only if the
name is no option, the kind that is chosen is not empty, and the path has no fault.  Then the child
does what the program does on any other command line with this wish. -/
theorem child_generates_iff (name : Text) (o : Options) (configuration : Option Path)
    (v : Logging.Verbosity) :
    let words := (childArguments name o configuration v.arguments).drop program.length
    ((∃ g : Globals, g.configuration = configuration.map Path.written ∧
        g.verbosity.arguments = v.arguments ∧ Generates words g name o) ↔
      (∀ path ∈ configuration, path.fault? = none) ∧ isOption name = false ∧ o.only ≠ some []) ∧
    ∀ g words', Generates words g name o → Generates words' g name o → ∀ children e,
      Program.run children e words = Program.run children e words' := by
  intro words
  refine ⟨?_, fun g words' h h' => h.run_eq h'⟩
  have hwords : words = (v.given configuration).flatMap optionWords ++
      Text.ofString "generate" :: name :: o.passed.given.flatMap optionWords := by
    have hglobals : (v.arguments.map (·, none)).flatMap optionWords = v.arguments := by
      simp [List.flatMap_map, optionWords]
    rw [Logging.Verbosity.given, List.flatMap_append, hglobals, List.append_assoc]
    dsimp only [words]
    rw [childArguments_eq, List.drop_left]
  obtain ⟨g, hconfiguration, hverbosity, hread⟩ :=
    read_child v configuration (name :: o.passed.given.flatMap optionWords)
  rw [← hwords] at hread
  have hfault : (∀ path ∈ configuration, path.fault? = none) ↔
      configuration.bind Path.fault? = none := by
    cases configuration <;> simp
  rw [hfault, ← o.passed_eq_self_iff, ← CommandName.request_iff]
  constructor
  · rintro ⟨g', -, -, rest, hread', hrequest⟩
    rw [hread] at hread'
    cases hf : configuration.bind Path.fault? with
    | some reason =>
      rw [hf] at hread'
      cases hread'
    | none =>
      rw [hf] at hread'
      cases hread'
      exact ⟨rfl, hrequest⟩
  · rintro ⟨hf, hrequest⟩
    rw [hf] at hread
    exact ⟨g, hconfiguration, hverbosity, _, hread, hrequest⟩

/-- The forms of orders, in spite of the files that are there and without the hubs. -/
theorem child_generates_forms :
    let o : Options := ⟨true, some "form", true⟩
    let words := (childArguments "order" o (some (Path.read "/project/codegen.yml"))
      ["--verbose"]).drop program.length
    ∃ g, Generates words g "order" o :=
  have hall := (child_generates_iff "order" ⟨true, some "form", true⟩
    (some (Path.read "/project/codegen.yml")) ⟨false, true, false⟩).1.2
      ⟨by decide, by decide, by decide⟩
  let ⟨g, _, _, h⟩ := hall
  ⟨g, h⟩

/-- An empty kind is lost on the way to a child, which then makes files of all kinds. -/
theorem child_loses_empty_kind :
    let o : Options := ⟨false, some [], false⟩
    let words := (childArguments "order" o none []).drop program.length
    (¬ ∃ g, Generates words g "order" o) ∧ ∃ g, Generates words g "order" {} := by
  intro o words
  have hread : read words = .ok (.command ⟨{}, none⟩ .generate ["order"]) := rfl
  have hrequest : CommandName.generate.request ["order"] =
      .ok (.generate (some "order") {} false) := rfl
  refine ⟨?_, _, _, hread, hrequest⟩
  rintro ⟨g, rest, hread', hrequest'⟩
  rw [hread] at hread'
  cases hread'
  exact absurd (Except.ok.inj (hrequest.symm.trans hrequest')) (by decide)

end Scaffold
