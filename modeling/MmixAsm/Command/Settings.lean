import MmixAsm.Assembly
import MmixAsm.Log.Event

/-
  Settings: what the arguments of the command ask for.

  Options stand before, between and after the files.  An
  option that takes a value finds it attached or in the next
  argument.  A value that stands apart is looked at when the
  next known argument begins or the arguments end, so that an
  argument that is unknown is reported before it.

  Key definitions include:
    * `MmixAsm.Settings`
    * `MmixAsm.UsageError`
    * `MmixAsm.Arguments.settle`
    * `MmixAsm.Arguments.read`
    * `MmixAsm.Settings.ofArguments`
-/

------------------------------------------------------------
-- Settings
------------------------------------------------------------

namespace MmixAsm

/- What a run of the command is to do. -/
structure Settings where
  files : List String
  output : Option String
  stage : Stage
  maxPadding : Nat
  logLevel : LogLevel
deriving DecidableEq

/- Why the arguments give no settings. -/
inductive UsageError where
  | unknownArgument
  | missingValue
  | badValue
  | unexpectedValue
  | conflict
  | missingFiles
  | helpWanted
  | versionWanted
deriving DecidableEq

/- Asking for help or for the version is no failure. -/
def UsageError.exitCode :
    UsageError → Nat
| .helpWanted => 0
| .versionWanted => 0
| _ => 2

/-
  Read a level from its name in any case or from its number.
-/
def LogLevel.ofText? (text : String) : Option LogLevel :=
  let byNumber :=
    match unsigned? 10 text.toList with
    | some n => all.find? (fun level => level.rank == n.toNat)
    | none => none
  let lower := text.map Char.toLower
  byNumber
    <|> all.find? (fun level => level.name.map Char.toLower == lower)

end MmixAsm

------------------------------------------------------------
-- Options
------------------------------------------------------------

namespace MmixAsm

/- An option that takes a value. -/
inductive ValueOption where
  | output
  | logLevel
  | maxPadding
deriving DecidableEq

/- What the name of an option stands for. -/
inductive OptionName where
  | stop (stage : Stage)
  | value (option : ValueOption)
  | help
  | version
deriving DecidableEq

namespace OptionName

/- The options by their long names. -/
def ofLong? (name : String) : Option OptionName :=
  match name with
  | "parse" => some (.stop .parse)
  | "macros" => some (.stop .macros)
  | "preprocess" => some (.stop .preprocess)
  | "output" => some (.value .output)
  | "log-level" => some (.value .logLevel)
  | "max-padding" => some (.value .maxPadding)
  | "help" => some .help
  | "version" => some .version
  | _ => none

/- The options by their letters. -/
def ofShort? (c : Char) : Option OptionName :=
  match c with
  | 'E' => some (.stop .preprocess)
  | 'o' => some (.value .output)
  | 'l' => some (.value .logLevel)
  | 'h' => some .help
  | 'V' => some .version
  | _ => none

end OptionName

end MmixAsm

------------------------------------------------------------
-- Reading Arguments
------------------------------------------------------------

namespace MmixAsm

/- What the last arguments have begun. -/
inductive Pending where
  | nothing
  | files (paths : List String)
  | value (option : ValueOption) (text : Option String)
deriving DecidableEq

/- What the arguments have said so far. -/
structure Arguments where
  files : List String
  stops : List Stage
  output : Option String
  logLevel : Option LogLevel
  maxPadding : Option Nat
  pending : Pending
deriving DecidableEq

namespace Arguments

/- Nothing is said yet. -/
def empty : Arguments where
  files := []
  stops := []
  output := none
  logLevel := none
  maxPadding := none
  pending := .nothing

/- Take a value in; an option may have only one. -/
def setValue
    (args : Arguments)
    (option : ValueOption)
    (text : String) : Except UsageError Arguments :=
  match option with
  | .output =>
      if args.output.isSome then .error .conflict
      else if text.isEmpty then .error .missingValue
      else .ok { args with output := some text }
  | .logLevel =>
      if args.logLevel.isSome then .error .conflict
      else
        match LogLevel.ofText? text with
        | some level => .ok { args with logLevel := some level }
        | none => .error .badValue
  | .maxPadding =>
      if args.maxPadding.isSome then .error .conflict
      else
        match unsigned? 10 text.toList with
        | some n =>
            .ok { args with maxPadding := some n.toNat }
        | none => .error .badValue

/- Take in what is pending. -/
def settle (args : Arguments) : Except UsageError Arguments :=
  let settled := { args with pending := .nothing }
  match args.pending with
  | .nothing => .ok settled
  | .files paths =>
      if paths.any String.isEmpty then .error .missingValue
      else .ok { settled with files := args.files ++ paths }
  | .value _ none => .error .missingValue
  | .value option (some text) => settled.setValue option text

/- Read an option without a value. -/
def readFlag
    (args : Arguments)
    (name : OptionName) : Except UsageError Arguments :=
  match args.settle, name with
  | .error e, _ => .error e
  | .ok args, .stop stage =>
      if args.stops.contains stage then .error .conflict
      else .ok { args with stops := stage :: args.stops }
  | .ok args, .value option =>
      .ok { args with pending := .value option none }
  | .ok _, .help => .error .helpWanted
  | .ok _, .version => .error .versionWanted

/- Read an option with a value attached to it. -/
def readAttached
    (args : Arguments)
    (name : OptionName)
    (text : String) : Except UsageError Arguments :=
  match name with
  | .value option =>
      match args.settle with
      | .error e => .error e
      | .ok args => args.setValue option text
  | _ => .error .unexpectedValue

/- Read an option by its long name. -/
def readLong
    (args : Arguments)
    (cs : List Char) : Except UsageError Arguments :=
  let name := String.ofList (cs.takeWhile (· != '='))
  match OptionName.ofLong? name, cs.dropWhile (· != '=') with
  | none, _ => .error .unknownArgument
  | some option, [] => args.readFlag option
  | some option, _ :: text =>
      args.readAttached option (String.ofList text)

/- The value behind a letter, with or without a sign. -/
def attachedText :
    List Char → String
| '=' :: cs => String.ofList cs
| cs => String.ofList cs

/-
  Read options by their letters.  What stands behind a letter
  that takes a value is that value.
-/
def readShort
    (args : Arguments) :
    List Char → Except UsageError Arguments
| [] => .ok args
| c :: cs =>
    match OptionName.ofShort? c, cs with
    | none, _ => .error .unknownArgument
    | some (.value option), _ :: _ =>
        args.readAttached (.value option) (attachedText cs)
    | some name, _ =>
        match args.readFlag name with
        | .error e => .error e
        | .ok args => args.readShort cs

/- Read a file. -/
def readFile
    (args : Arguments)
    (path : String) : Except UsageError Arguments :=
  match args.pending with
  | .files paths =>
      .ok { args with pending := .files (paths ++ [path]) }
  | _ =>
      match args.settle with
      | .error e => .error e
      | .ok args => .ok { args with pending := .files [path] }

/- Read an argument that is no option. -/
def readPlain
    (args : Arguments)
    (text : String) : Except UsageError Arguments :=
  match args.pending with
  | .value option none =>
      .ok { args with pending := .value option (some text) }
  | _ => args.readFile text

/- Read one argument in front of the mark `--`. -/
def readArgument
    (args : Arguments)
    (text : String) : Except UsageError Arguments :=
  match text.toList with
  | '-' :: '-' :: cs => args.readLong cs
  | '-' :: c :: cs => args.readShort (c :: cs)
  | _ => args.readPlain text

/- Read all arguments; behind `--` every one is a file. -/
def read
    (args : Arguments) :
    List String → Except UsageError Arguments
| [] => args.settle
| text :: rest =>
    if text = "--" then
      match rest.foldlM readFile args with
      | .error e => .error e
      | .ok args => args.settle
    else
      match args.readArgument text with
      | .error e => .error e
      | .ok args => args.read rest

end Arguments

end MmixAsm

------------------------------------------------------------
-- Settings From Arguments
------------------------------------------------------------

namespace MmixAsm

/- The settings of a run with the given arguments. -/
def Settings.ofArguments
    (arguments : List String) : Except UsageError Settings :=
  match Arguments.empty.read arguments with
  | .error e => .error e
  | .ok args =>
      if 1 < args.stops.length then .error .conflict
      else if args.files.isEmpty then .error .missingFiles
      else
        .ok {
          files := args.files
          output := args.output
          stage := args.stops.headD .compile
          maxPadding := args.maxPadding.getD defaultPaddingLimit
          logLevel := args.logLevel.getD .warn }

end MmixAsm
