import MmixAsm.Layout.Program
import MmixAsm.Log.Event
import MmixAsm.Text.Quoted

/-
  Events of the layout of a program.

  Key definitions include:
    * `MmixAsm.LabelTable.text`
    * `MmixAsm.layOutEvents`
-/

------------------------------------------------------------
-- Padding
------------------------------------------------------------

namespace MmixAsm

/- Tell how many placeholders a LOC inserts. -/
def paddingEvents
    (limit : Nat)
    (position : Nat)
    (line : Line Directive) : List Event :=
  match line.parameters, paddingOf limit position line with
  | parameter :: _, .ok 0 =>
      [.debug ("LOC " ++ parameter ++ " is at or behind position "
        ++ toString position ++ ", nothing to pad")]
  | parameter :: _, .ok padding =>
      [.debug ("LOC " ++ parameter ++ " inserts "
        ++ toString padding ++ " placeholders")]
  | _, _ => []

/- The position behind an instruction. -/
def positionAfter
    (limit : Nat)
    (position : Nat) :
    Instruction → Except LayoutError Nat
| .op _ => .ok (position + 1)
| .alloc _ => .ok (position + 1)
| .control line =>
    if line.keyword = .loc then
      (paddingOf limit position line).map (position + ·)
    else
      .ok position
| instruction => .error (.unexpectedMacro instruction.render)

/- The events of padding a program. -/
def padEvents
    (limit : Nat)
    (instructions : List Instruction) : List Event :=
  Event.ofFold (positionAfter limit)
    (fun position instruction =>
      match instruction with
      | .control line =>
          if line.keyword = .loc then
            paddingEvents limit position line
          else
            []
      | _ => [])
    0 instructions

end MmixAsm

------------------------------------------------------------
-- Labels And Blocks
------------------------------------------------------------

namespace MmixAsm

namespace LabelTable

/- Tell that a label keeps the meaning it has. -/
def bindEvents
    (table : LabelTable)
    (label : Option String)
    (expression : String) : List Event :=
  match label with
  | none => []
  | some name =>
      match table.get? name with
      | none => []
      | some existing =>
          [.debug ("label " ++ name ++ " stays bound to "
            ++ existing ++ ", ignoring " ++ expression)]

/- The events of binding the labels of operations. -/
def bindCodeEvents
    (table : LabelTable)
    (statements : List Statement) : List Event :=
  Event.ofFold
    (fun acc entry =>
      (.ok (acc.bindStatement entry.2 entry.1) :
        Except Empty LabelTable))
    (fun acc entry =>
      match entry.1 with
      | .op line =>
          acc.bindEvents line.label (toString entry.2)
      | _ => [])
    table statements.zipIdx

/- The written form of a table, in the order of labels. -/
def text (table : LabelTable) : String :=
  let sorted := table.bindings.mergeSort (fun a b => a.1 ≤ b.1)
  "LabelTable(\x7b"
    ++ String.intercalate ", "
        (sorted.map fun binding =>
          Text.quoted binding.1 ++ ": " ++ Text.quoted binding.2)
    ++ "\x7d)"

end LabelTable

namespace Symbols

/- Tell which register a GREG takes. -/
def registerEvents
    (symbols : Symbols)
    (label : Option String) : List Event :=
  if symbols.nextGlobal < lowestGlobal then
    []
  else
    match label with
    | some name =>
        .debug ("GREG binds " ++ name ++ " to "
            ++ symbols.register)
          :: symbols.labels.bindEvents label symbols.register
    | none => [.debug ("GREG allocates " ++ symbols.register)]

/- Tell that a block is opened once more. -/
def reopenEvents
    (symbols : Symbols)
    (position : Nat)
    (name : String) : List Event :=
  match (Block.find? symbols.blocks name).bind (·.start) with
  | some _ =>
      [.debug ("block " ++ name ++ " is opened again at "
        ++ toString position)]
  | none => []

/- The events of one directive. -/
def declareEvents
    (symbols : Symbols)
    (position : Nat)
    (line : Line Directive) : List Event :=
  match line.keyword, line.parameters with
  | .greg, _ => symbols.registerEvents line.label
  | .block, name :: _ => symbols.reopenEvents position name
  | .equate, expression :: _ =>
      symbols.labels.bindEvents line.label expression
  | _, _ => []

/- The events of reading all directives. -/
def collectEvents (items : List Item) : List Event :=
  Event.ofFold step
    (fun state item =>
      match item with
      | .control line => state.2.declareEvents state.1 line
      | .statement _ => [])
    (0, empty) items

end Symbols

namespace Placed

/- Tell what becomes of a block. -/
def placeEvents
    (placed : Placed)
    (block : Block) : List Event :=
  match block.plan with
  | .error _ => []
  | .ok .unused =>
      [.debug ("block " ++ block.name
        ++ " is never used and stays in place")]
  | .ok .insideItself =>
      [.warn ("USE " ++ block.name
        ++ " sits inside its own block, the block is not moved")]
  | .ok (.move first last origin) =>
      let position :=
        toString (placed.stream.landing first last origin)
      .debug ("block " ++ block.name ++ " now starts at "
          ++ position)
        :: placed.labels.bindEvents block.label position

end Placed

end MmixAsm

------------------------------------------------------------
-- The Whole Layout
------------------------------------------------------------

namespace MmixAsm

/- The events of placing blocks and binding labels. -/
def placementEvents
    (statements : List Statement)
    (symbols : Symbols) : List Event :=
  Event.before
    (.trace ("emplacing " ++ toString symbols.blocks.length
        ++ " blocks")
      :: Event.ofFold Placed.place Placed.placeEvents
          ⟨.ofStatements statements, symbols.labels⟩
          symbols.blocks)
    (Placed.ofBlocks statements symbols.labels symbols.blocks)
    fun placed =>
      let placedStatements := placed.stream.statements
      placed.labels.bindCodeEvents placedStatements
        ++ [.debug ("label table: "
          ++ (placed.labels.bindCode placedStatements).text)]

/- The events of the layout of a program. -/
def layOutEvents
    (limit : Nat)
    (instructions : List Instruction) : List Event :=
  Event.before
    (.trace "relocating segments" :: padEvents limit instructions)
    (pad limit instructions) fun items =>
  Event.before
    (.trace "building label and block tables"
      :: Symbols.collectEvents items)
    (Symbols.collect items) fun symbols =>
  placementEvents (statementsOf items) symbols

end MmixAsm
