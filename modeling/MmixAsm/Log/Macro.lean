import MmixAsm.Log.Event
import MmixAsm.Macro.Program

/-
  Events of the macro layer.

  Key definitions include:
    * `MmixAsm.Library.orderEvents`
    * `MmixAsm.expandEvents`
-/

------------------------------------------------------------
-- Tables And Regions
------------------------------------------------------------

namespace MmixAsm

/- The written form of a region. -/
def Region.text (region : Region) : String :=
  "Region \x7b start: " ++ toString region.start ++ ", end: "
    ++ toString region.stop ++ " \x7d"

namespace Library

/- Tell how many entries a file has. -/
def addEvents (file : SourceFile) : List Event :=
  match SourceUnit.ofFile file with
  | .error _ => []
  | .ok unit =>
      [.debug (file.name ++ ": " ++ toString unit.table.length
        ++ " macro entries")]

/- Tell what becomes of a region that asks for a name. -/
def selectEntryEvents
    (library : Library)
    (file : String)
    (unit : SourceUnit) :
    MacroDecl → List Event
| .ifDefined wanted name region =>
    if unit.isDropped region.start then
      []
    else
      let verb :=
        if library.isDefined unit.table name = wanted then
          "keeps"
        else
          "drops"
      [.debug (file ++ ": " ++ name ++ " " ++ verb ++ " region "
        ++ region.text)]
| _ => []

/- The events of deciding the regions of one file. -/
def selectUnitEvents
    (library : Library)
    (file : String)
    (unit : SourceUnit) : List Event :=
  Event.ofFold (library.selectEntry file)
    (library.selectEntryEvents file) unit unit.table

/- The events of deciding the regions of all files. -/
def selectEvents (library : Library) : List Event :=
  Event.ofFold
    (fun _ entry =>
      match library.selectUnit entry.1 entry.2 with
      | (_, some e) => .error e
      | (_, none) => .ok ())
    (fun _ entry => library.selectUnitEvents entry.1 entry.2)
    () library.units

end Library

end MmixAsm

------------------------------------------------------------
-- Sites
------------------------------------------------------------

namespace MmixAsm

namespace Library

/- Expand a site unless its line is dropped. -/
def tryExpand
    (library : Library)
    (file : String)
    (unit : SourceUnit)
    (site : Site) : Except MacroError (Option Instruction) :=
  if unit.isDropped site.offset then
    .ok none
  else
    (library.expandSite file unit.table site).map some

/- Tell what a site became. -/
def expandSiteEvents
    (library : Library)
    (file : String)
    (unit : SourceUnit)
    (site : Site) : List Event :=
  match library.tryExpand file unit site with
  | .error _ => []
  | .ok none =>
      [.debug (file
        ++ ": skipping USEMACRO inside a dropped region")]
  | .ok (some instruction) =>
      [.debug (file ++ ": expanded " ++ site.actuals.headD ""
        ++ " into \"" ++ instruction.render ++ "\"")]

/- The events of expanding the sites of one file. -/
def expandUnitEvents
    (library : Library)
    (file : String)
    (unit : SourceUnit) : List Event :=
  Event.ofFold
    (fun _ site =>
      (library.tryExpand file unit site).map fun _ => ())
    (fun _ site => library.expandSiteEvents file unit site)
    () unit.table.sites

/- The events of expanding the sites of all files. -/
def expandEvents (library : Library) : List Event :=
  Event.ofFold
    (fun _ entry =>
      (library.expandUnit entry.1 entry.2).map fun _ => ())
    (fun _ entry => library.expandUnitEvents entry.1 entry.2)
    () library.units

end Library

end MmixAsm

------------------------------------------------------------
-- Inclusions
------------------------------------------------------------

namespace MmixAsm

namespace Library

/- Tell which inclusions found their file already there. -/
def orderEvents
    (library : Library)
    (path : List String)
    (files : List String)
    (done : List String) : List Event :=
  match files with
  | [] => []
  | file :: rest =>
      if _hPath : path.contains file then
        []
      else if done.contains file then
        .debug (path.headD "" ++ ": " ++ file
            ++ " is already included")
          :: orderEvents library path rest done
      else
        match _hUnit : library.unit? file with
        | none => []
        | some unit =>
            orderEvents library (file :: path)
                unit.liveInclusions done
              ++ (match library.orderFrom (file :: path)
                    unit.liveInclusions done with
                  | .error _ => []
                  | .ok done =>
                      orderEvents library path rest
                        (done ++ [file]))
termination_by (library.remaining path, files.length)
decreasing_by
  · exact Prod.Lex.right _ (by simp)
  · exact Prod.Lex.left _ _
      (remaining_cons_lt (mem_names_of_unit? _hUnit) _hPath)
  · exact Prod.Lex.right _ (by simp)

end Library

end MmixAsm

------------------------------------------------------------
-- The Whole Layer
------------------------------------------------------------

namespace MmixAsm

/- The events of the macro layer. -/
def expandEvents (files : List SourceFile) : List Event :=
  Event.before [] (entryFile files) fun entry =>
  Event.before
    (.trace "building macro tables"
      :: Event.ofFold Library.add
          (fun _ file => Library.addEvents file) .empty files)
    (Library.ofFiles files) fun library =>
  Event.before
    (.trace "evaluating conditional regions"
      :: library.selectEvents)
    library.selected fun selected =>
  Event.before
    (.trace "expanding macro uses" :: selected.expandEvents)
    selected.expanded fun expanded =>
  .trace ("inlining includes into " ++ entry)
    :: expanded.orderEvents [] [entry] []

end MmixAsm
