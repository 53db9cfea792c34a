import Abacus.Program.Layout

/-!
# Command-line arguments

Arguments are read from left to right, first those of the whole program and, behind the name of a
subcommand, those of the subcommand. A value that is not attached to its option by an equals sign is
settled only when the next option, flag or value of its level is met, or at the end; so what an
unsettled value gets wrong is told after any unknown argument that follows it directly.
-/

namespace Abacus.Command

/-- Why arguments are not carried out. -/
inductive Refusal
  | displayHelp
  | displayVersion
  | invalidValue
  | unknownArgument
  | tooManyValues
  | argumentConflict
  | invalidSubcommand
  | valueValidation
  | missingRequiredArgument
  deriving DecidableEq

/-- Asking for help or for the version is no failure. -/
def Refusal.exitCode : Refusal → Nat
  | displayHelp | displayVersion => 0
  | _ => 2

/-- The subcommands. -/
inductive Subcommand
  | session (style : Style)
  | format (path : String) (check : Bool)
  deriving DecidableEq

/-- What the arguments ask for. -/
structure Invocation where
  lexPath : Option String
  parsePath : Option String
  command : Option Subcommand
  deriving DecidableEq

/-- Where arguments are read: before a subcommand, or behind one. -/
inductive Level
  | top
  | session
  | format
  deriving DecidableEq

/-- The places for values. -/
inductive Slot
  | lex
  | parse
  | style
  | path
  deriving DecidableEq

/-- The arguments without a value. -/
inductive Flag
  | help
  | version
  | check
  deriving DecidableEq

namespace Level

/-- The options with a value, by their long names. -/
def slot? : Level → String → Option Slot
  | top, "lex" => some .lex
  | top, "parse" => some .parse
  | session, "style" => some .style
  | _, _ => none

/-- The flags, by their long names. -/
def flag? : Level → String → Option Flag
  | _, "help" => some .help
  | top, "version" => some .version
  | format, "check" => some .check
  | _, _ => none

/-- The flags, by their letters. -/
def letter? : Level → Char → Option Flag
  | _, 'h' => some .help
  | top, 'V' => some .version
  | _, _ => none

end Level

/-- The names of subcommands, `help` among them. -/
inductive SubcommandName
  | session
  | format
  | help
  deriving DecidableEq

/-- The subcommand with a name. -/
def SubcommandName.ofText? : String → Option SubcommandName
  | "repl" => some session
  | "fmt" => some format
  | "help" => some help
  | _ => none

/-- What has been read of the arguments of one level. -/
structure Reading where
  lex : Option String := none
  parse : Option String := none
  style : Option Style := none
  path : Option String := none
  check : Bool := false
  /-- A place that has been named, with its value if that has been met. -/
  unsettled : Option (Slot × Option String) := none
  /-- Whether all that follows is a value. -/
  onlyValues : Bool := false

namespace Reading

/-- Whether a place has its value already. -/
def isFilled (r : Reading) : Slot → Bool
  | .lex => r.lex.isSome
  | .parse => r.parse.isSome
  | .style => r.style.isSome
  | .path => r.path.isSome

/-- Puts a value into its place. A path is not empty and a style is one of the known ones. -/
def fill (r : Reading) (slot : Slot) (value : String) : Except Refusal Reading :=
  if r.isFilled slot then .error .argumentConflict
  else match slot with
    | .style =>
      match Style.ofName? value with
      | some style => .ok { r with style := some style }
      | none => .error .valueValidation
    | slot =>
      if value = "" then .error .invalidValue
      else match slot with
        | .lex => .ok { r with lex := some value }
        | .parse => .ok { r with parse := some value }
        | _ => .ok { r with path := some value }

/-- Settles the value that is under way, if there is one. -/
def settle (r : Reading) : Except Refusal Reading :=
  match r.unsettled with
  | none => .ok r
  | some (_, none) => .error .invalidValue
  | some (slot, some value) => { r with unsettled := none }.fill slot value

/-- Takes a flag. -/
def raise (r : Reading) (flag : Flag) : Except Refusal Reading := do
  let r ← r.settle
  match flag with
  | .help => .error .displayHelp
  | .version => .error .displayVersion
  | .check => if r.check then .error .argumentConflict else .ok { r with check := true }

/-- Takes an option or flag by its long name, perhaps with a value attached. -/
def takeLong (r : Reading) (level : Level) (name : String) (value : Option String) :
    Except Refusal Reading :=
  match level.slot? name, value with
  | some slot, some value => do (← r.settle).fill slot value
  | some slot, none => do return { ← r.settle with unsettled := some (slot, none) }
  | none, value =>
    match level.flag? name, value with
    | some _, some _ => .error .tooManyValues
    | some flag, none => r.raise flag
    | none, _ => .error .unknownArgument

/-- Takes a value that belongs to no option. -/
def takeValue (r : Reading) (level : Level) (value : String) : Except Refusal Reading :=
  let pathTaken := r.path.isSome || r.unsettled.any (·.1 = .path)
  match level with
  | .format =>
    if pathTaken then .error .unknownArgument
    else do return { ← r.settle with unsettled := some (.path, some value) }
  | .session => .error .unknownArgument
  | .top =>
    if r.onlyValues && (SubcommandName.ofText? value).isSome then .error .unknownArgument
    else .error .invalidSubcommand

/-- The name and the attached value, if any, of an argument behind its two dashes. -/
def splitLong (text : List Char) : String × Option String :=
  let name := String.ofList (text.takeWhile (· ≠ '='))
  match text.dropWhile (· ≠ '=') with
  | [] => (name, none)
  | _ :: value => (name, some (String.ofList value))

/-- Whether the next argument is the value of an option, unless it starts with a dash. -/
def awaitsValue (r : Reading) : Bool := !r.onlyValues && r.unsettled.any (·.2.isNone)

/-- Takes one argument that names no subcommand. -/
def take (r : Reading) (level : Level) (arg : String) : Except Refusal Reading :=
  if r.onlyValues then r.takeValue level arg
  else match arg.toList with
    | ['-', '-'] => .ok { r with onlyValues := true }
    | '-' :: '-' :: text =>
      let (name, value) := splitLong text
      r.takeLong level name value
    | '-' :: letter :: _ =>
      match level.letter? letter with
      | some flag => r.raise flag
      | none => .error .unknownArgument
    | _ =>
      match r.unsettled with
      | some (slot, none) => .ok { r with unsettled := some (slot, some arg) }
      | _ => r.takeValue level arg

end Reading

/-- The arguments of a session. -/
def readSession (args : List String) : Except Refusal Subcommand := do
  let r ← (← args.foldlM (Reading.take · .session) {}).settle
  return .session (r.style.getD .tree)

/-- The arguments of formatting. -/
def readFormat (args : List String) : Except Refusal Subcommand := do
  let r ← (← args.foldlM (Reading.take · .format) {}).settle
  match r.path with
  | some path => return .format path r.check
  | none => .error .missingRequiredArgument

/-- Asking for help: on the whole program, or on one subcommand. -/
def readHelp : List String → Except Refusal Subcommand
  | [] => .error .displayHelp
  | [name] =>
    if (SubcommandName.ofText? name).isSome then .error .displayHelp else .error .invalidSubcommand
  | _ => .error .invalidSubcommand

/-- The arguments behind the name of a subcommand. -/
def readSubcommand : SubcommandName → List String → Except Refusal Subcommand
  | .session, args => readSession args
  | .format, args => readFormat args
  | .help, args => readHelp args

/-- Closes the arguments of the whole program. -/
def finish (r : Reading) (command : Option Subcommand) : Except Refusal Invocation := do
  let r ← r.settle
  if r.lex.isSome && r.parse.isSome then .error .argumentConflict
  else return ⟨r.lex, r.parse, command⟩

/-- The name of a subcommand, where one may stand. -/
def subcommand? (r : Reading) (arg : String) : Option SubcommandName :=
  if r.onlyValues || r.awaitsValue then none else SubcommandName.ofText? arg

/-- Reads the arguments of the whole program behind those already read. -/
def readFrom (r : Reading) : List String → Except Refusal Invocation
  | [] => finish r none
  | arg :: rest =>
    match subcommand? r arg with
    | some name => do finish r (some (← readSubcommand name rest))
    | none => do readFrom (← r.take .top arg) rest

/-- Reads the arguments of the program. -/
def readArguments (args : List String) : Except Refusal Invocation := readFrom {} args

end Abacus.Command
