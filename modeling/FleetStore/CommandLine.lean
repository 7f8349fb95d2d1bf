import FleetStore.Config.Load
import FleetStore.Replay

/-! # The command line

`ferrostat [OPTIONS] check` compiles every statement of a configuration and
reports the ones that fail; `ferrostat [OPTIONS] replay` runs them. Options come
before the command, each at most once. An option that is not given is taken
from the environment, and one that is not set there from the configuration.

Everything here is a function of the arguments, the environment and the files;
reading and printing are left to the program around it.
-/

namespace FleetStore.CommandLine

inductive Command where
  | check
  | replay
deriving DecidableEq, Repr

inductive OptionName where
  | config
  | proxied
  | timeout
deriving DecidableEq, Repr

namespace OptionName

def all : List OptionName := [.config, .proxied, .timeout]

/-- The name of an option behind two dashes. -/
def long : OptionName → String
  | .config => "config"
  | .proxied => "backing-storage-in-proxy"
  | .timeout => "drain-timeout"

/-- The variable that stands in for an option. -/
def variableName : OptionName → String
  | .config => "FERROSTAT_CONFIG"
  | .proxied => "FERROSTAT_BACKING_STORAGE_IN_PROXY"
  | .timeout => "FERROSTAT_DRAIN_TIMEOUT"

def ofLong? (name : String) : Option OptionName :=
  all.find? fun o => o.long = name

end OptionName

structure Options where
  config : Option String
  proxied : Option Bool
  timeout : Option Duration

def Options.none : Options := ⟨.none, .none, .none⟩

/-- What is wrong with the use of the program. -/
inductive Misuse where
  | unexpected (arg : String)
  | missingValue (option : OptionName)
  | repeated (option : OptionName)
  | badValue (option : OptionName) (value : String)
  /-- A value is a time of which the seconds are exhausted. -/
  | exhausted (option : OptionName)
  | missingCommand
deriving DecidableEq, Repr

def Misuse.message : Misuse → String
  | .unexpected arg => s!"unexpected argument '{arg}'"
  | .missingValue option => s!"a value is required for '--{option.long}'"
  | .repeated option => s!"'--{option.long}' cannot be used multiple times"
  | .badValue option value => s!"invalid value '{value}' for '--{option.long}'"
  | .exhausted option => s!"the seconds of '--{option.long}' are exhausted"
  | .missingCommand => "a command is required: check or replay"

/-- What a command line asks for. -/
inductive Request where
  | version
  | run (options : Options) (command : Command)

/-- What arguments ask for. -/
inductive Demand where
  | version
  | run (options : Options) (command : Option Command)

namespace Options

def isGiven (o : Options) : OptionName → Bool
  | .config => o.config.isSome
  | .proxied => o.proxied.isSome
  | .timeout => o.timeout.isSome

def readTruth? (value : String) : Option Bool :=
  if value = "true" then some true else if value = "false" then some false else .none

def set (o : Options) (option : OptionName) (value : String) : Except Misuse Options :=
  match option with
  | .config => .ok { o with config := some value }
  | .proxied =>
      match readTruth? value with
      | some b => .ok { o with proxied := some b }
      | .none => .error (.badValue option value)
  | .timeout =>
      match Duration.readTrimmed value with
      | .ok d => .ok { o with timeout := some d }
      | .error .exhausted => .error (.exhausted option)
      | .error _ => .error (.badValue option value)

/-- Takes up an option that is given among the arguments. -/
def give (o : Options) (option : OptionName) (value : String) : Except Misuse Options :=
  if o.isGiven option then .error (.repeated option) else o.set option value

/-- Takes up an option that is still pending, if there is one. -/
def settle (o : Options) : Option (OptionName × String) → Except Misuse Options
  | some (option, value) => o.give option value
  | .none => .ok o

/-- Takes from the environment what was not given. -/
def complete (env : Environment) (o : Options) : List OptionName → Except Misuse Options
  | [] => .ok o
  | option :: rest =>
      match env option.variableName with
      | .none => complete env o rest
      | some value =>
          if o.isGiven option then complete env o rest
          else do complete env (← o.set option value) rest

end Options

/-! ## Arguments -/

/-- What an argument is. -/
inductive Argument where
  | version
  /-- An option, with its value if that is part of the argument. -/
  | option (name : OptionName) (value : Option String)
  /-- Two dashes, after which there are no options. -/
  | divider
  | word (text : String)
  | unknown (text : String)

/-- The value within an argument: an equals sign may stand before it. -/
def attached : List Char → Option String
  | [] => none
  | '=' :: value => some (String.ofList value)
  | value => some (String.ofList value)

/-- Tells what an argument is. -/
def Argument.of (text : String) : Argument :=
  match text.toList with
  | ['-', '-'] => .divider
  | '-' :: '-' :: cs =>
      let name := String.ofList (cs.takeWhile (· != '='))
      if cs = "version".toList then .version
      else
        match OptionName.ofLong? name with
        | some found => .option found (attached (cs.dropWhile (· != '=')))
        | none => .unknown text
  | '-' :: 'V' :: _ => .version
  | '-' :: 'c' :: value => .option .config (attached value)
  | '-' :: _ :: _ => .unknown text
  | _ => .word text

/-- Whether an argument can be the value of the option before it. -/
def isValue (text : String) : Bool :=
  match text.toList with
  | '-' :: _ :: _ => false
  | _ => true

/-- The command that a word stands for. -/
def Command.ofWord? (word : String) : Option Command :=
  if word = "check" then some .check
  else if word = "replay" then some .replay
  else none

/-- The argument that cannot follow a command, if there is one. -/
def straggler? : List String → Option String
  | [] | ["--"] => none
  | arg :: _ => some arg

/-- Reads arguments from left to right. A value that is an argument of its own stays
pending until it is known what follows it; behind a command, what cannot follow the
command counts first. -/
def parse (options : Options) (pending : Option (OptionName × String)) :
    List String → Except Misuse Demand
  | [] => do return .run (← options.settle pending) none
  | arg :: rest =>
      match Argument.of arg with
      | .version => do
          let _ ← options.settle pending
          return .version
      | .unknown text => do
          let _ ← options.settle pending
          throw (.unexpected text)
      | .divider => do
          let options ← options.settle pending
          match rest with
          | [] => return .run options none
          | arg :: _ => throw (.unexpected arg)
      | .word word =>
          match Command.ofWord? word with
          | none => do
              let _ ← options.settle pending
              throw (.unexpected word)
          | some command =>
              match straggler? rest with
              | some arg => throw (.unexpected arg)
              | none => do return .run (← options.settle pending) (some command)
      | .option name (some value) => do
          parse (← (← options.settle pending).give name value) none rest
      | .option name none => do
          let options ← options.settle pending
          match rest with
          | [] => throw (.missingValue name)
          | value :: rest =>
              if isValue value then parse options (some (name, value)) rest
              else throw (.missingValue name)

/-- What a command line asks for, with the options from the environment. -/
def request (args : List String) (env : Environment) : Except Misuse Request := do
  match ← parse .none none args with
  | .version => return .version
  | .run options command? =>
      let options ← options.complete env OptionName.all
      match command? with
      | some command => return .run options command
      | none => throw .missingCommand

/-! ## Running -/

/-- What a run of the program gives: its exit code, the lines it prints and, if it
fails, what it says about it. -/
structure Output where
  exit : Nat
  lines : List String
  problem : Option String
deriving DecidableEq, Repr

def Output.success (lines : List String) : Output := ⟨0, lines, none⟩
def Output.failure (lines : List String) (problem : String) : Output := ⟨1, lines, some problem⟩
/-- What nobody has provided for breaks the program off. -/
def Output.breakdown (problem : String) : Output := ⟨101, [], some problem⟩

def Output.misuse (m : Misuse) : Output :=
  match m with
  | .exhausted _ => .breakdown m.message
  | _ => ⟨2, [], some m.message⟩

def versionLine : String := "ferrostat 0.1.0"

def standardPath : String := "configs/config.yaml"

/-- A text filled up with blanks to a width. -/
def padded (width : Nat) (text : String) : String :=
  text ++ String.ofList (List.replicate (width - text.length) ' ')

/-- The line on a statement that was checked, and whether it is good. -/
def checkLine (s : Config.StatementEntry) :
    Except Config.Fault Descriptor.Compiled → Bool × String
  | .ok compiled =>
      let types := ", ".intercalate (compiled.signature.map ValueType.name)
      (true, s!"ok    {padded 11 compiled.kind.verb} {s.descriptor} [{types}]")
  | .error fault => (false, s!"FAIL  {s.descriptor}: {(ConfigError.invalid fault).message}")

def runCheck (c : Config) (env : Environment) : Output :=
  let checked := c.statements.zipWith checkLine (c.check env)
  let lines := checked.map Prod.snd
  let failed := checked.countP fun line => !line.1
  if failed = 0 then .success lines
  else .failure lines s!"{failed} of {c.statements.length} statements failed"

def runReplay (c : Config) (env : Environment) : Output :=
  let outcome := Replay.run c env .prompt
  match outcome.failure with
  | none => .success outcome.progress.lines
  | some (.worker fault) => .breakdown fault.message
  | some failure => .failure outcome.progress.lines failure.message

/-- The configuration with the settings that options override. -/
def override (c : Config) (o : Options) : Config :=
  let storage := c.storage
  let storage := { storage with proxied := o.proxied.getD storage.proxied }
  let storage :=
    match o.timeout with
    | none => storage
    | some d => { storage with writeTimeout := d, fileTimeout := d }
  { c with storage }

def Options.path (o : Options) : String :=
  o.config.getD standardPath

def runCommand (o : Options) (command : Command) (env : Environment)
    (file : Option String) : Output :=
  match Config.load file with
  | .error (.unread .exhausted) => .breakdown (ConfigError.unread .exhausted).message
  | .error e => .failure [] e.message
  | .ok c =>
      let c := override c o
      match c.validate with
      | .error fault => .failure [] (ConfigError.invalid fault).message
      | .ok () =>
          match command with
          | .check => runCheck c env
          | .replay => runReplay c env

def run (args : List String) (env : Environment) (file : String → Option String) : Output :=
  match request args env with
  | .error m => .misuse m
  | .ok .version => .success [versionLine]
  | .ok (.run options command) => runCommand options command env (file options.path)

end FleetStore.CommandLine
