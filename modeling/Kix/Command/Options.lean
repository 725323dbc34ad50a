import Kix.Scope.Resolution

/-!
# The command line

The options of the command, and how they are read off its arguments. Options
may stand before or behind the script, each at most once, and `--` ends them.
-/

namespace Kix

/-- What the command is asked to do. -/
structure Options where
  /-- The script to run; without one the command prompts for lines. -/
  script : Option String := none
  /-- Print the syntax tree of each unit before it is executed. -/
  printTree : Bool := false
  /-- Print the tokens of the script instead of running it. -/
  dumpTokens : Bool := false
  /-- How unused variables are treated, if the command line says so. -/
  unused : Option UnusedPolicy := none
  checkFunctions : Bool := false
  /-- Keep a log file. -/
  log : Bool := false
  deriving DecidableEq, Repr

/-- What is wrong with a command line. -/
inductive UsageFault where
  | unknownOption (name : String)
  | repeatedOption (name : String)
  | unexpectedValue (name : String)
  | missingValue (name : String)
  | invalidValue (name value : String)
  | emptyScript
  | secondScript (path : String)
  | scriptRequired
  deriving DecidableEq, Repr

namespace UsageFault

/-- The complaint about a command line. -/
def message : UsageFault → String
  | unknownOption name => s!"unexpected argument '{name}'"
  | repeatedOption name => s!"the argument '{name}' cannot be used multiple times"
  | unexpectedValue name => s!"unexpected value for '{name}'"
  | missingValue name => s!"a value is required for '{name}'"
  | invalidValue name value => s!"invalid value '{value}' for '{name}'"
  | emptyScript => "a value is required for the script"
  | secondScript path => s!"unexpected argument '{path}'"
  | scriptRequired => "a script is required with '--dump-tokens'"

end UsageFault

namespace Options

/-- The treatment of unused variables that the command line asks for. -/
def policy (o : Options) : Policy :=
  { unused := o.unused.getD .warn, checkFunctions := o.checkFunctions }

/-- The policies by the names they have on the command line. -/
def unusedPolicies : List (String × UnusedPolicy) :=
  [("off", .off), ("warn", .warn), ("error", .error)]

/-- Setting the policy for unused variables. -/
def setUnused (o : Options) (value : String) : Except UsageFault Options :=
  if o.unused.isSome then .error (.repeatedOption "--unused")
  else
    match unusedPolicies.lookup value with
    | some policy => .ok { o with unused := some policy }
    | none => .error (.invalidValue "--unused" value)

/-- Setting a switch that is not set yet. -/
def setSwitch (name : String) (isSet : Bool) (o : Options) : Except UsageFault Options :=
  if isSet then .error (.repeatedOption name) else .ok o

/-- The script to run. -/
def setScript (o : Options) (path : String) : Except UsageFault Options :=
  if path.isEmpty then .error .emptyScript
  else if o.script.isSome then .error (.secondScript path)
  else .ok { o with script := some path }

/-- One of the switches, by its name. -/
def applySwitch (o : Options) (name : String) : Except UsageFault Options :=
  match name with
  | "--print-ast" => setSwitch name o.printTree { o with printTree := true }
  | "--dump-tokens" => setSwitch name o.dumpTokens { o with dumpTokens := true }
  | "--check-functions" => setSwitch name o.checkFunctions { o with checkFunctions := true }
  | "--log" => setSwitch name o.log { o with log := true }
  | _ => .error (.unknownOption name)

/-- Whether an argument is an option rather than a script; a lone `-` is not. -/
def isOption (argument : String) : Bool := argument.startsWith "-" && argument != "-"

/-- An option together with its value after an equals sign. -/
def applyWithValue (o : Options) (name value : String) : Except UsageFault Options :=
  if name = "--unused" then o.setUnused value
  else
    match o.applySwitch name with
    | .ok _ => .error (.unexpectedValue name)
    | .error fault => .error fault

/-- Reading arguments from the left. -/
def readFrom (o : Options) : List String → Except UsageFault Options
  | [] => .ok o
  | "--" :: paths => paths.foldlM setScript o
  | "--unused" :: value :: rest =>
    if isOption value then .error (.missingValue "--unused")
    else
      match o.setUnused value with
      | .ok o => readFrom o rest
      | .error fault => .error fault
  | ["--unused"] => .error (.missingValue "--unused")
  | argument :: rest =>
    let next :=
      if !isOption argument then o.setScript argument
      else
        match argument.splitOn "=" with
        | name :: first :: others => o.applyWithValue name ("=".intercalate (first :: others))
        | _ => o.applySwitch argument
    match next with
    | .ok o => readFrom o rest
    | .error fault => .error fault

/-- **Reading a command line.** A token listing needs a script. -/
def read (arguments : List String) : Except UsageFault Options :=
  match readFrom {} arguments with
  | .error fault => .error fault
  | .ok o => if o.dumpTokens && o.script.isNone then .error .scriptRequired else .ok o

end Options

end Kix
