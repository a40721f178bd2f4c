import PaperTrail.Decimal.Natural
import PaperTrail.Number
import PaperTrail.Text.Split

/-!
# Arguments

An option is written `--name value`, `--name=value`, `-n value`, `-nvalue` or `-n=value`; its value
does not start with a hyphen unless it is attached. The name of a command follows the options that
belong to no command, and its own options follow it.

* `Switch` : an option, with what it can be given;
* `scan` : reads options up to the first argument that is none;
* `Command` : what the program is asked to do;
* `Invocation.ofArguments` : what the program is called for.
-/

namespace PaperTrail

/-- What the program is asked to do. -/
inductive Command where
  /-- Prints the query in every search syntax. -/
  | query (queryFile? : Option String)
  /-- Puts what vendors find into a store. -/
  | load (database? : Option String) (vendors : List String) (queryFile? : Option String)
      (params : List String)
  /-- Prints the papers of a store with some review values. -/
  | list (database? : Option String) (rejected : List Int)
  /-- Writes an example of a configuration. -/
  | initConfig (force : Bool)
deriving DecidableEq, Repr

/-- What can be given for an option. -/
inductive SwitchValue where
  /-- Nothing. -/
  | none
  | text
  /-- A text that is not empty. -/
  | path
  /-- A whole number of 64 bits. -/
  | number
deriving DecidableEq, Repr

/-- The whole number of 64 bits that a text stands for. -/
def reviewValue? (s : String) : Option Int :=
  (Decimal.integer? s.toList).filter fun i =>
    decide (Number.minInt ≤ i) && decide (i ≤ Number.maxInt)

/-- Whether a text can be given for an option. -/
def SwitchValue.accepts : SwitchValue → String → Bool
  | none, _ => false
  | text, _ => true
  | path, s => !s.isEmpty
  | number, s => (reviewValue? s).isSome

structure Switch where
  name : String
  letter? : Option Char
  value : SwitchValue
  /-- Whether it can be given more than once. -/
  repeats : Bool
deriving DecidableEq, Repr

/-- The options that were given, with their values, in their order. -/
abbrev Given := List (String × String)

namespace Given

def values (g : Given) (name : String) : List String := (g.filter (·.1 == name)).map (·.2)

/-- The first value of an option. -/
def value? (g : Given) (name : String) : Option String := (g.values name).head?

def has (g : Given) (name : String) : Bool := g.any (·.1 == name)

/-- The given options with one more; none when it cannot be given, or not again. -/
def add? (g : Given) (o : Switch) (value : String) : Option Given :=
  if !o.value.accepts value || (!o.repeats && g.has o.name) then none
  else some (g ++ [(o.name, value)])

/-- The given options with one that has no value. -/
def addFlag? (g : Given) (o : Switch) : Option Given :=
  if g.has o.name then none else some (g ++ [(o.name, "")])

end Given

/-- What reading options comes to. -/
inductive Scan where
  /-- Help is asked for. -/
  | help
  /-- The version is asked for. -/
  | version
  | misused
  | finished (given : Given)
  /-- An argument that is no option, and those behind it. -/
  | word (given : Given) (name : String) (rest : List String)
deriving DecidableEq, Repr

/-- One argument as it is written. -/
inductive Written where
  /-- Two hyphens, after which there are no options. -/
  | escape
  /-- A name, with a value behind an equals sign. -/
  | long (name : String) (value? : Option String)
  /-- A letter, with what follows it. -/
  | short (letter : Char) (rest : List Char)
  | word (text : String)
deriving DecidableEq, Repr

/-- Reads one argument. A single hyphen is a word. -/
def Written.ofString (s : String) : Written :=
  match s.toList with
  | ['-', '-'] => escape
  | '-' :: '-' :: cs =>
    match Text.cut? '=' (String.ofList cs) with
    | some (name, value) => long name (some value)
    | none => long (String.ofList cs) none
  | '-' :: c :: cs => short c cs
  | _ => word s

def attachedValue? : List Char → Option String
  | [] => none
  | '=' :: cs => some (String.ofList cs)
  | cs => some (String.ofList cs)

/-- Takes the value of an option, an attached one or the next argument. -/
def takeValue? (g : Given) (o : Switch) (attached? : Option String) (rest : List String) :
    Option (Given × List String) :=
  match attached?, rest with
  | some v, rest => (g.add? o v).map fun g => (g, rest)
  | none, s :: rest =>
    match Written.ofString s with
    | .word v => (g.add? o v).map fun g => (g, rest)
    | _ => none
  | none, [] => none

def takeSwitch? (g : Given) (o : Switch) (attached? : Option String) (rest : List String) :
    Option (Given × List String) :=
  match o.value, attached? with
  | .none, none => (g.addFlag? o).map fun g => (g, rest)
  | .none, some _ => none
  | _, _ => takeValue? g o attached? rest

theorem length_takeValue? {g : Given} {o : Switch} {attached? : Option String}
    {rest : List String} {r : Given × List String} (h : takeValue? g o attached? rest = some r) :
    r.2.length ≤ rest.length := by
  unfold takeValue? at h
  split at h
  · obtain ⟨_, -, rfl⟩ := Option.map_eq_some_iff.1 h
    exact Nat.le_refl _
  · split at h
    · obtain ⟨_, -, rfl⟩ := Option.map_eq_some_iff.1 h
      exact Nat.le_succ _
    · cases h
  · cases h

theorem length_takeSwitch? {g : Given} {o : Switch} {attached? : Option String}
    {rest : List String} {r : Given × List String} (h : takeSwitch? g o attached? rest = some r) :
    r.2.length ≤ rest.length := by
  unfold takeSwitch? at h
  split at h
  · obtain ⟨_, -, rfl⟩ := Option.map_eq_some_iff.1 h
    exact Nat.le_refl _
  · cases h
  · exact length_takeValue? h

/-- Reads options up to the first argument that is none. The version is asked for only where it is
`versioned`. -/
def scan (options : List Switch) (versioned : Bool) (g : Given) (args : List String) : Scan :=
  match args with
  | [] => .finished g
  | s :: rest =>
    match Written.ofString s with
    | .escape => if rest.isEmpty then .finished g else .misused
    | .word name => .word g name rest
    | .long name value? =>
      if name = "help" ∧ value?.isNone then .help
      else if versioned ∧ name = "version" ∧ value?.isNone then .version
      else
        match options.find? (·.name == name) with
        | none => .misused
        | some o =>
          match _h : takeSwitch? g o value? rest with
          | none => .misused
          | some (g, rest) => scan options versioned g rest
    | .short letter cs =>
      if letter = 'h' then .help
      else if versioned ∧ letter = 'V' then .version
      else
        match options.find? (·.letter? == some letter) with
        | none => .misused
        | some o =>
          match _h : takeSwitch? g o (attachedValue? cs) rest with
          | none => .misused
          | some (g, rest) => scan options versioned g rest
termination_by args.length
decreasing_by
  all_goals
    have := length_takeSwitch? _h
    simp only [List.length_cons] at *
    omega

/-! ## Commands -/

def configSwitch : Switch := ⟨"config", none, .path, false⟩

def queryFileSwitch : Switch :=
  ⟨"query-file", some 'q', .path, false⟩

def databaseSwitch : Switch := ⟨"database", some 'd', .text, false⟩

def remoteSwitch : Switch := ⟨"remote", some 'r', .text, true⟩

def paramSwitch : Switch := ⟨"param", some 'p', .text, true⟩

def rejectedSwitch : Switch := ⟨"rejected", none, .number, true⟩

def forceSwitch : Switch := ⟨"force", none, .none, false⟩

/-- The commands. -/
inductive CommandName where
  | query
  | load
  | list
  | initConfig
deriving DecidableEq, Repr

namespace CommandName

def all : List CommandName := [query, load, list, initConfig]

def text : CommandName → String
  | query => "query"
  | load => "load"
  | list => "list"
  | initConfig => "init-config"

def ofString? (s : String) : Option CommandName := all.find? (·.text == s)

def options : CommandName → List Switch
  | query => [queryFileSwitch]
  | load => [databaseSwitch, remoteSwitch, queryFileSwitch, paramSwitch]
  | list => [databaseSwitch, rejectedSwitch]
  | initConfig => [forceSwitch]

/-- The command with its options; a load needs a vendor, and papers that have not been reviewed are
listed unless something else is asked for. -/
def withOptions? (g : Given) : CommandName → Option Command
  | query => some (.query (g.value? queryFileSwitch.name))
  | load =>
    if g.has remoteSwitch.name then
      some (.load (g.value? databaseSwitch.name) (g.values remoteSwitch.name)
        (g.value? queryFileSwitch.name) (g.values paramSwitch.name))
    else none
  | list =>
    let values := (g.values rejectedSwitch.name).filterMap reviewValue?
    some (.list (g.value? databaseSwitch.name) (if values.isEmpty then [0] else values))
  | initConfig => some (.initConfig (g.has forceSwitch.name))

end CommandName

structure Arguments where
  /-- The file of the configuration. -/
  config : String
  command : Command
deriving DecidableEq, Repr

/-- What is printed when help is asked for, and of arguments that cannot be used. -/
def usage : String :=
  "Usage: slr [--config FILE] COMMAND\n\n" ++
  "Commands:\n" ++
  "  query        [-q FILE]\n" ++
  "  load         -r VENDOR... [-d DATABASE] [-q FILE] [-p VENDOR.KEY=VALUE]...\n" ++
  "  list         [-d DATABASE] [--rejected N]...\n" ++
  "  init-config  [--force]"

def version : String := "slr 0.1.0"

/-- What the program is called for. -/
inductive Invocation where
  | help
  | version
  | misused
  | run (arguments : Arguments)
deriving DecidableEq, Repr

namespace Invocation

/-- The file of the configuration, unless another one is given. -/
def defaultConfig : String := "config.yaml"

/-- Asking for help by words: for all commands, or for one. -/
def ofHelp : List String → Invocation
  | [] => help
  | [name] => if name = "help" ∨ (CommandName.ofString? name).isSome then help else misused
  | _ => misused

/-- The call of a command, given the options before its name. The file of the configuration can
also be given among the options of the command, where it counts more. -/
def ofCommand (before : Given) (name : CommandName) (rest : List String) : Invocation :=
  match scan (configSwitch :: name.options) false [] rest with
  | .finished g =>
    match name.withOptions? g with
    | some command =>
      let config? := (g.value? configSwitch.name).orElse fun _ => before.value? configSwitch.name
      run ⟨config?.getD defaultConfig, command⟩
    | none => misused
  | .help => help
  | _ => misused

/-- What the program is called for with some arguments. -/
def ofArguments (args : List String) : Invocation :=
  match scan [configSwitch] true [] args with
  | .help => help
  | .version => version
  | .misused => misused
  | .finished _ => misused
  | .word before name rest =>
    if name = "help" then ofHelp rest
    else
      match CommandName.ofString? name with
      | some name => ofCommand before name rest
      | none => misused

end Invocation

end PaperTrail
