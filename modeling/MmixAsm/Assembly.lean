import MmixAsm.Code.Words
import MmixAsm.Layout.Program
import MmixAsm.Listing
import MmixAsm.Macro.Program
import MmixAsm.SourceFile

/-
  Assembly: from source texts to machine words.

  The work has four stages, and it may stop behind each of
  them.  What a stage leaves is written out as text.

  Key definitions include:
    * `MmixAsm.Stage`
    * `MmixAsm.AssemblyError`
    * `MmixAsm.Output`
    * `MmixAsm.assemble`
    * `MmixAsm.Output.text`
-/

------------------------------------------------------------
-- Stages
------------------------------------------------------------

namespace MmixAsm

/- The stage after which the work stops. -/
inductive Stage where
  | parse
  | macros
  | preprocess
  | compile
deriving DecidableEq

/- A source text with the name by which it is included. -/
structure Source where
  name : String
  text : String
deriving DecidableEq

/- What is left after the last stage. -/
inductive Output where
  | parsed (files : List SourceFile)
  | expanded (instructions : List Instruction)
  | resolved (statements : List Statement)
  | encoded (words : List UInt64)
deriving DecidableEq

end MmixAsm

------------------------------------------------------------
-- Errors
------------------------------------------------------------

namespace MmixAsm

/- The error of one of the four stages. -/
inductive AssemblyError where
  | parse (file : String) (error : SyntaxError)
  | macros (error : MacroError)
  | preprocess (error : LayoutError)
  | compile (error : CodeError)
deriving DecidableEq

namespace AssemblyError

/- The message of an assembly error. -/
def message :
    AssemblyError → String
| .parse file error => file ++ ": " ++ error.message
| .macros error => error.message
| .preprocess error => error.message
| .compile error => error.message

/- The class of an assembly error. -/
def errorClass :
    AssemblyError → ErrorClass
| .parse _ error => error.errorClass
| .macros error => error.errorClass
| .preprocess error => error.errorClass
| .compile error => error.errorClass

/- The line that reports an assembly error. -/
def report (error : AssemblyError) : String :=
  "error[" ++ error.errorClass.text ++ "]: " ++ error.message

end AssemblyError

end MmixAsm

------------------------------------------------------------
-- Assembly
------------------------------------------------------------

namespace MmixAsm

/- Read one source. -/
def Source.parse
    (source : Source) : Except AssemblyError SourceFile :=
  (SourceFile.parse source.name source.text).mapError
    (.parse source.name)

/- Read all sources. -/
def parseSources
    (sources : List Source) :
    Except AssemblyError (List SourceFile) :=
  sources.mapM Source.parse

/- Run the stages up to the given one. -/
def assemble
    (limit : Nat)
    (stage : Stage)
    (sources : List Source) : Except AssemblyError Output := do
  let files ← parseSources sources
  if stage = .parse then
    return .parsed files
  let instructions ← (expandProgram files).mapError .macros
  if stage = .macros then
    return .expanded instructions
  let statements ←
    (layOut limit instructions).mapError .preprocess
  if stage = .preprocess then
    return .resolved statements
  let words ← (assembleWords statements).mapError .compile
  return .encoded words

/- The written form of an output. -/
def Output.text :
    Output → String
| .parsed files => listing files
| .expanded instructions =>
    Text.endLines (instructions.map Instruction.render)
| .resolved statements =>
    Text.endLines (statements.map Statement.render)
| .encoded words => Text.endLines (words.map Text.hexWord)

end MmixAsm
