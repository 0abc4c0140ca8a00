import MmixAsm.Command.Session

/-
  The command.

  It reads its arguments, runs a session on the real system
  and writes the log to the standard error stream.
-/

------------------------------------------------------------
-- The Real System
------------------------------------------------------------

namespace MmixAsm

/- The fault that an error of the system stands for. -/
def FileFault.ofSystem (e : IO.Error) : FileFault :=
  match e with
  | .noFileOrDirectory _ _ _ => .notFound
  | .inappropriateType _ code _ =>
      if code = 20 then .notDirectory else .isDirectory
  | .invalidArgument _ 36 _ => .nameTooLong
  | _ => .other (toString e)

/- Read the text of a file. -/
def readTextFile (path : String) : IO (Except FileFault String) := do
  try
    match String.fromUTF8? (← IO.FS.readBinFile path) with
    | some text => return .ok text
    | none => return .error .notText
  catch e => return .error (.ofSystem e)

/- Write a text to a file. -/
def writeTextFile
    (path : String)
    (text : String) : IO (Except FileFault Unit) := do
  try
    IO.FS.writeFile path text
    return .ok ()
  catch e => return .error (.ofSystem e)

/- The host that works on the real system. -/
def systemHost : Host IO where
  read := readTextFile
  write := writeTextFile
  print := IO.print

/- How the command is used. -/
def usage : String :=
  "Usage: mmix-asm [OPTIONS] <FILES>...\n\n"
    ++ "Options:\n"
    ++ "  -o, --output <FILE>        output file\n"
    ++ "      --parse                stop after parsing\n"
    ++ "      --macros               stop after the macros\n"
    ++ "  -E, --preprocess           stop after the layout\n"
    ++ "      --max-padding <COUNT>  most placeholders of a LOC\n"
    ++ "  -l, --log-level <LEVEL>    what to log\n"
    ++ "  -h, --help                 print this text\n"
    ++ "  -V, --version              print the version\n"

/- The wording of a usage error. -/
def UsageError.text :
    UsageError → String
| .unknownArgument => "unexpected argument"
| .missingValue => "an option lacks its value"
| .badValue => "invalid value for an option"
| .unexpectedValue => "value for an option that takes none"
| .conflict => "options that cannot be used together"
| .missingFiles => "no source files given"
| .helpWanted => ""
| .versionWanted => ""

/- Tell what is wrong with the arguments. -/
def tellUsage (e : UsageError) : IO Unit :=
  match e with
  | .helpWanted => IO.print usage
  | .versionWanted => IO.println "mmix-asm 0.1.0"
  | _ => IO.eprint ("error: " ++ e.text ++ "\n\n" ++ usage)

end MmixAsm

------------------------------------------------------------
-- Command
------------------------------------------------------------

open MmixAsm in
/- Run the command. -/
def main (arguments : List String) : IO UInt32 := do
  match Settings.ofArguments arguments with
  | .error e =>
      tellUsage e
      return e.exitCode.toUInt32
  | .ok settings =>
      let outcome ← systemHost.run settings
      for event in Event.upTo settings.logLevel outcome.log do
        IO.eprintln event.text
      match outcome.failure with
      | some failure => IO.eprintln failure.report
      | none => pure ()
      return outcome.exitCode.toUInt32
