import FleetStore.CommandLine

/-! # The program

Looks up the environment and the configuration file, and prints what a run of
the command line gives.
-/

namespace FleetStore.CommandLine

/-- The variables of the environment that have the given names. -/
def readVariables (names : List String) : IO Environment := do
  let found ← names.filterMapM fun name => do
    return (← IO.getEnv name).map (name, ·)
  return .ofList found

def readText (path : String) : IO (Option String) := do
  try
    return some (← IO.FS.readFile path)
  catch _ =>
    return none

/-- The text of the configuration that a command line asks for. -/
def readConfig (args : List String) (env : Environment) : IO (Option String) :=
  match request args env with
  | .ok (.run options _) => readText options.path
  | _ => return none

def print (output : Output) : IO Unit := do
  for line in output.lines do
    IO.println line
  if let some problem := output.problem then
    IO.eprintln s!"error: {problem}"

end FleetStore.CommandLine

open FleetStore CommandLine in
def main (args : List String) : IO UInt32 := do
  let options ← readVariables (OptionName.all.map OptionName.variableName)
  let text ← readConfig args options
  let references := (text.bind fun text => (Config.read text).toOption).elim [] Config.references
  let env ← readVariables (OptionName.all.map OptionName.variableName ++ references)
  let output := run args env fun _ => text
  print output
  return UInt32.ofNat output.exit
