import MmixAsm.Code.AddressTable
import MmixAsm.ErrorClass
import MmixAsm.Literal

/-
  Machine words of statements.

  An operation is one word: the opcode in the highest byte
  and below it one byte for each operand.  An allocation is
  one word for each of its bytes.

  Key definitions include:
    * `MmixAsm.CodeError`
    * `MmixAsm.operand`
    * `MmixAsm.opWord`
    * `MmixAsm.allocWords`
    * `MmixAsm.assembleWords`
-/

------------------------------------------------------------
-- Errors
------------------------------------------------------------

namespace MmixAsm

/- Why a statement has no machine words. -/
inductive CodeError where
  | unknownMnemonic (mnemonic : String)
  | malformedNumber (number : NumberFault)
  | missingParameter (size : DataSize)
deriving DecidableEq

namespace CodeError

/- The message of a code error. -/
def message :
    CodeError → String
| .unknownMnemonic mnemonic =>
    "Unknown mnemonic \"" ++ mnemonic ++ "\""
| .malformedNumber number =>
    "Malformed operand: " ++ number.message
| .missingParameter size =>
    size.name ++ " allocation is missing its value"

/- The class of a code error. -/
def errorClass :
    CodeError → ErrorClass
| .missingParameter _ => .structural
| _ => .semantic

end CodeError

end MmixAsm

------------------------------------------------------------
-- Words
------------------------------------------------------------

namespace MmixAsm

/- The value of a register reference or a number. -/
def operand (text : String) : Except CodeError UInt64 :=
  ((Literal.register? text).getD (Literal.number text)).mapError
    .malformedNumber

/-
  Pack the low bytes of operand values.  Every operand is
  shifted up once more than those behind it, and the lowest
  byte stays free.
-/
def packOperands (values : List UInt64) : UInt64 :=
  values.foldl
    (fun code value => (code ||| (value &&& 0xFF)) <<< 8) 0

/- The word of an operation. -/
def opWord (line : Line String) : Except CodeError UInt64 :=
  match Mnemonic.opcode? line.keyword with
  | none => .error (.unknownMnemonic line.keyword)
  | some opcode =>
      match line.parameters.mapM operand with
      | .error e => .error e
      | .ok values =>
          .ok (packOperands values ||| (opcode.toUInt64 <<< 56))

/- The bytes of a value, the most significant first. -/
def valueBytes
    (value : UInt64) :
    Nat → List UInt64
| 0 => []
| width + 1 =>
    ((value >>> (8 * UInt64.ofNat width)) &&& 0xFF)
      :: valueBytes value width

/- The bytes of a text in UTF-8. -/
def textBytes (text : String) : List UInt64 :=
  (text.toList.flatMap String.utf8EncodeChar).map (·.toUInt64)

/-
  The words of an allocation.  Only its first parameter
  counts; a quoted text takes as many bytes as it has, and a
  value as many as the size says.
-/
def allocWords
    (line : Line DataSize) : Except CodeError (List UInt64) :=
  match line.parameters with
  | [] => .error (.missingParameter line.keyword)
  | parameter :: _ =>
      match Literal.content? parameter with
      | some text => .ok (textBytes text)
      | none =>
          (operand parameter).map
            fun value => valueBytes value line.keyword.width

/- The words of one statement; padding is one zero. -/
def Statement.words :
    Statement → Except CodeError (List UInt64)
| .op line => (opWord line).map ([·])
| .alloc line => allocWords line
| .padding => .ok [0]

/- The words of a program. -/
def assembleWords
    (statements : List Statement) :
    Except CodeError (List UInt64) :=
  let table := AddressTable.ofStatements statements
  (statements.mapM fun s => (table.apply s).words).map
    List.flatten

end MmixAsm
