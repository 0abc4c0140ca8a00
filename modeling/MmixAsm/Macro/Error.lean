import MmixAsm.ErrorClass
import MmixAsm.Keyword

/-
  What can be wrong with the macro instructions of a program.

  Key definitions include:
    * `MmixAsm.MacroError`
    * `MmixAsm.MacroError.message`
-/

------------------------------------------------------------
-- Macro Errors
------------------------------------------------------------

namespace MmixAsm

/- Why the macro layer of a program has no meaning. -/
inductive MacroError where
  | noEntryFile
  | multipleEntryFiles (first second : String)
  | duplicateFile (file : String)
  | fileNotFound (file : String)
  | includeCycle (path : List String)
  | duplicateName (file name : String)
  | missingLabel (file : String) (kind : MacroKind)
  | missingParameter (file : String) (kind : MacroKind)
  | missingTemplate (file name : String)
  | unmatched (file : String) (kind : MacroKind)
  | unexpectedElse (file : String)
  | unterminatedRegion (file : String)
  | unknownName (file name : String)
  | wrongArity (file name : String) (expected found : Nat)
  | undefinedConstant (file name : String)
  | malformedCondition (file condition : String)
deriving DecidableEq

namespace MacroError

/- The message of a macro error. -/
def message :
    MacroError → String
| .noEntryFile =>
    "No entry file found, one file has to mark its first"
      ++ " instruction with \"Main\""
| .multipleEntryFiles first second =>
    "Both \"" ++ first ++ "\" and \"" ++ second
      ++ "\" are marked as the entry file"
| .duplicateFile file =>
    "File \"" ++ file ++ "\" was given more than once"
| .fileNotFound file =>
    "Included file \"" ++ file ++ "\" was not found"
| .includeCycle path =>
    "Include cycle: " ++ String.intercalate " -> " path
| .duplicateName file name =>
    file ++ ": macro \"" ++ name
      ++ "\" is defined more than once"
| .missingLabel file kind =>
    file ++ ": " ++ kind.name ++ " needs a label"
| .missingParameter file kind =>
    file ++ ": " ++ kind.name ++ " is missing its parameter"
| .missingTemplate file name =>
    file ++ ": macro \"" ++ name
      ++ "\" has no template instruction"
| .unmatched file kind =>
    file ++ ": " ++ kind.name
      ++ " without an open IF, IFDEF or IFNDEF"
| .unexpectedElse file =>
    file ++ ": ELSE is only allowed once inside an IF region"
| .unterminatedRegion file =>
    file ++ ": conditional region is missing its ENDIF"
| .unknownName file name =>
    file ++ ": unknown macro \"" ++ name ++ "\""
| .wrongArity file name expected found =>
    file ++ ": macro \"" ++ name ++ "\" takes "
      ++ toString expected ++ " arguments but "
      ++ toString found ++ " were given"
| .undefinedConstant file name =>
    file ++ ": constant \"" ++ name ++ "\" is not defined"
| .malformedCondition file condition =>
    file ++ ": \"" ++ condition
      ++ "\" is not a NAME==VALUE or NAME!=VALUE condition"

/- The class of a macro error. -/
def errorClass :
    MacroError → ErrorClass
| .unknownName _ _ => .semantic
| .wrongArity _ _ _ _ => .semantic
| .undefinedConstant _ _ => .semantic
| .malformedCondition _ _ => .semantic
| _ => .structural

end MacroError

end MmixAsm
