import MmixAsm.Assembly
import MmixAsm.Log.Layout
import MmixAsm.Log.Macro

/-
  Events of the assembly of a program.

  Key definitions include:
    * `MmixAsm.assembleWordsEvents`
    * `MmixAsm.assembleEvents`
-/

------------------------------------------------------------
-- Code
------------------------------------------------------------

namespace MmixAsm

/- Tell which data labels have an address already. -/
def AddressTable.repeatEvents
    (table : AddressTable) : List Event :=
  Event.ofFold
    (fun seen entry =>
      (.ok (entry.1 :: seen) : Except Empty (List String)))
    (fun seen entry =>
      if seen.contains entry.1 then
        [.debug ("data label " ++ entry.1
          ++ " is already bound, ignoring "
          ++ toString entry.2)]
      else
        [])
    [] table.entries

/- The events of making machine words. -/
def assembleWordsEvents
    (statements : List Statement) : List Event :=
  .trace "building data table"
    :: (AddressTable.ofStatements statements).repeatEvents
    ++ [.debug "data table",
      .trace ("encoding " ++ toString statements.length
        ++ " statements")]

end MmixAsm

------------------------------------------------------------
-- Assembly
------------------------------------------------------------

namespace MmixAsm

/- Tell what was read from a source. -/
def Source.parseEvents (source : Source) : List Event :=
  match source.parse with
  | .error _ => []
  | .ok file =>
      let entry := if file.isEntry then "true" else "false"
      [.trace ("parsed " ++ toString file.instructions.length
        ++ " instructions from " ++ file.name ++ " (entry: "
        ++ entry ++ ")")]

/- The events of reading all sources. -/
def parseSourcesEvents (sources : List Source) : List Event :=
  Event.ofFold
    (fun _ source => source.parse.map fun _ => ())
    (fun _ source => source.parseEvents) () sources

/- The events of running the stages up to the given one. -/
def assembleEvents
    (limit : Nat)
    (stage : Stage)
    (sources : List Source) : List Event :=
  Event.before (parseSourcesEvents sources)
    (parseSources sources) fun files =>
  if stage = .parse then [] else
  Event.before (expandEvents files)
    (expandProgram files) fun instructions =>
  if stage = .macros then [] else
  Event.before (layOutEvents limit instructions)
    (layOut limit instructions) fun statements =>
  if stage = .preprocess then [] else
  assembleWordsEvents statements

end MmixAsm
