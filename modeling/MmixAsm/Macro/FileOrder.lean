import MmixAsm.Macro.Library

/-
  The order of included files.

  A file stands behind all files that it includes, each file
  stands once, and a file that includes itself, directly or
  through others, is an error.  Inclusions on dropped lines
  do not count.

  Key definitions include:
    * `MmixAsm.Library.orderFrom`
    * `MmixAsm.Library.fileOrder`
    * `MmixAsm.Library.flatten`
-/

------------------------------------------------------------
-- File Order
------------------------------------------------------------

namespace MmixAsm

namespace Library

/-
  Finish the given files depth first and add each behind its
  inclusions.  The path holds the files that are begun and
  not finished, the innermost first.
-/
def orderFrom
    (library : Library)
    (path : List String)
    (files : List String)
    (done : List String) : Except MacroError (List String) :=
  match files with
  | [] => .ok done
  | file :: rest =>
      if _hPath : path.contains file then
        .error (.includeCycle (path.reverse ++ [file]))
      else if done.contains file then
        orderFrom library path rest done
      else
        match _hUnit : library.unit? file with
        | none => .error (.fileNotFound file)
        | some unit =>
            match orderFrom library (file :: path)
              unit.liveInclusions done with
            | .error e => .error e
            | .ok done =>
                orderFrom library path rest (done ++ [file])
termination_by (library.remaining path, files.length)
decreasing_by
  · exact Prod.Lex.right _ (by simp)
  · exact Prod.Lex.left _ _
      (remaining_cons_lt (mem_names_of_unit? _hUnit) _hPath)
  · exact Prod.Lex.right _ (by simp)

/- The files that a program starting in `entry` consists of. -/
def fileOrder
    (library : Library)
    (entry : String) : Except MacroError (List String) :=
  library.orderFrom [] [entry] []

/- The live instructions of a file. -/
def instructionsOf
    (library : Library)
    (file : String) : List Instruction :=
  match library.unit? file with
  | some unit => unit.instructions
  | none => []

/- The program that starts in `entry`. -/
def flatten
    (library : Library)
    (entry : String) : Except MacroError (List Instruction) :=
  (library.fileOrder entry).map
    (List.flatMap library.instructionsOf)

end Library

end MmixAsm
