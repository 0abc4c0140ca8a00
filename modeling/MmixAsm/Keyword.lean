import MmixAsm.Mnemonic

/-
  Keywords: the words that say what a line does.

  A keyword is an operation mnemonic, a size of allocated
  data, a layout directive or a macro instruction.  Each of
  the three closed families lists its members once, with
  their spelling, and reading a word searches that list.

  Key definitions include:
    * `MmixAsm.DataSize`
    * `MmixAsm.Directive`
    * `MmixAsm.MacroKind`
    * `MmixAsm.Keyword`
    * `MmixAsm.Keyword.ofWord?`
-/

------------------------------------------------------------
-- Data Sizes
------------------------------------------------------------

namespace MmixAsm

/- The size of one unit of allocated data. -/
inductive DataSize where
  | byte
  | wyde
  | tetra
  | octa
deriving DecidableEq

namespace DataSize

/- All sizes. -/
def all : List DataSize :=
  [.byte, .wyde, .tetra, .octa]

/- The spelling of a size. -/
def name :
    DataSize → String
| .byte => "BYTE"
| .wyde => "WYDE"
| .tetra => "TETRA"
| .octa => "OCTA"

/- The number of bytes in one unit. -/
def width :
    DataSize → Nat
| .byte => 1
| .wyde => 2
| .tetra => 4
| .octa => 8

/- The size with the given spelling. -/
def ofName? (word : String) : Option DataSize :=
  all.find? (fun size => size.name == word)

end DataSize

end MmixAsm

------------------------------------------------------------
-- Directives
------------------------------------------------------------

namespace MmixAsm

/-
  A layout directive.  `equate` gives a label its meaning,
  `place` marks where a block goes, and the other names are
  the spellings themselves.
-/
inductive Directive where
  | loc
  | greg
  | equate
  | place
  | block
  | endBlock
deriving DecidableEq

namespace Directive

/- All directives. -/
def all : List Directive :=
  [.loc, .greg, .equate, .place, .block, .endBlock]

/- The spelling of a directive. -/
def name :
    Directive → String
| .loc => "LOC"
| .greg => "GREG"
| .equate => "IS"
| .place => "USE"
| .block => "BLOCK"
| .endBlock => "ENDBLOCK"

/- The directive with the given spelling. -/
def ofName? (word : String) : Option Directive :=
  all.find? (fun directive => directive.name == word)

end Directive

end MmixAsm

------------------------------------------------------------
-- Macro Instructions
------------------------------------------------------------

namespace MmixAsm

/- An instruction to the macro layer. -/
inductive MacroKind where
  | inclusion
  | definition
  | application
  | ifDefined
  | ifUndefined
  | ifCondition
  | otherwise
  | endIf
  | constant
deriving DecidableEq

namespace MacroKind

/- All macro instructions. -/
def all : List MacroKind :=
  [.inclusion, .definition, .application, .ifDefined,
    .ifUndefined, .ifCondition, .otherwise, .endIf, .constant]

/- The spelling of a macro instruction. -/
def name :
    MacroKind → String
| .inclusion => "INCLUDE"
| .definition => "MACRO"
| .application => "USEMACRO"
| .ifDefined => "IFDEF"
| .ifUndefined => "IFNDEF"
| .ifCondition => "IF"
| .otherwise => "ELSE"
| .endIf => "ENDIF"
| .constant => "DEFINE"

/- The macro instruction with the given spelling. -/
def ofName? (word : String) : Option MacroKind :=
  all.find? (fun kind => kind.name == word)

end MacroKind

end MmixAsm

------------------------------------------------------------
-- Keywords
------------------------------------------------------------

namespace MmixAsm

/- What a keyword says about its line. -/
inductive Keyword where
  | op (mnemonic : String)
  | alloc (size : DataSize)
  | control (directive : Directive)
  | macroKind (kind : MacroKind)
deriving DecidableEq

namespace Keyword

/- A mnemonic as a keyword. -/
def ofMnemonic? (word : String) : Option Keyword :=
  (Mnemonic.opcode? word).map fun _ => .op word

/-
  The keyword a word spells.  No word has two spellings, so
  the order of the four families does not matter.
-/
def ofWord? (word : String) : Option Keyword :=
  ((Directive.ofName? word).map control)
    <|> ((MacroKind.ofName? word).map macroKind)
    <|> ((DataSize.ofName? word).map alloc)
    <|> ofMnemonic? word

end Keyword

end MmixAsm
