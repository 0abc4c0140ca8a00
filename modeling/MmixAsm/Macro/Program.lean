import MmixAsm.Macro.FileOrder
import MmixAsm.Macro.Selection
import MmixAsm.Macro.Template

/-
  The macro layer as a whole.

  Key definitions include:
    * `MmixAsm.entryFile`
    * `MmixAsm.expandProgram`
-/

------------------------------------------------------------
-- Programs
------------------------------------------------------------

namespace MmixAsm

/- The name of the one file that is marked as the entry. -/
def entryFile
    (files : List SourceFile) : Except MacroError String :=
  match files.filter (·.isEntry) with
  | [] => .error .noEntryFile
  | [file] => .ok file.name
  | first :: second :: _ =>
      .error (.multipleEntryFiles first.name second.name)

/- The instructions of a program without its macro layer. -/
def expandProgram
    (files : List SourceFile) :
    Except MacroError (List Instruction) := do
  let entry ← entryFile files
  let library ← Library.ofFiles files
  let selected ← library.selected
  let expanded ← selected.expanded
  expanded.flatten entry

end MmixAsm
