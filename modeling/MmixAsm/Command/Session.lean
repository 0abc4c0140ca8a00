import MmixAsm.Command.Disk
import MmixAsm.Command.Settings
import MmixAsm.Log.Assembly

/-
  Sessions: one run of the command.

  All files are read before any of them is parsed, and the
  output is written only if every stage succeeds.  A session
  runs on a host, which reads, writes and prints; the same
  session runs on a real system and on a disk in memory.

  Key definitions include:
    * `MmixAsm.Host`
    * `MmixAsm.Failure`
    * `MmixAsm.Outcome`
    * `MmixAsm.Host.run`
    * `MmixAsm.Console`
    * `MmixAsm.Console.run`
-/

------------------------------------------------------------
-- Failures
------------------------------------------------------------

namespace MmixAsm

/- Why a session fails. -/
inductive Failure where
  | unreadable (path : String) (fault : FileFault)
  | unwritable (path : String) (fault : FileFault)
  | assembly (error : AssemblyError)
deriving DecidableEq

/- The line that reports a failure. -/
def Failure.report :
    Failure → String
| .unreadable path fault =>
    "error: could not read " ++ path ++ ": " ++ fault.text
| .unwritable path fault =>
    "error: could not write " ++ path ++ ": " ++ fault.text
| .assembly error => error.report

/- How a session ends and what it told on the way. -/
structure Outcome where
  failure : Option Failure
  log : List Event

/- The exit code of a session. -/
def Outcome.exitCode (outcome : Outcome) : Nat :=
  if outcome.failure.isSome then 1 else 0

end MmixAsm

------------------------------------------------------------
-- Sessions
------------------------------------------------------------

namespace MmixAsm

/- What a session needs from the system it runs on. -/
structure Host (m : Type → Type) where
  read : String → m (Except FileFault String)
  write : String → String → m (Except FileFault Unit)
  print : String → m Unit

namespace Host

variable {m : Type → Type} [Monad m]

/- Read files in order up to the first that fails. -/
def readSources
    (host : Host m) :
    List String → m (List Event × Except Failure (List Source))
| [] => pure ([], .ok [])
| path :: rest => do
    match ← host.read path with
    | .error fault => return ([], .error (.unreadable path fault))
    | .ok text =>
        let (events, result) ← host.readSources rest
        return (.trace ("read " ++ path) :: events,
          result.map (⟨fileName path, text⟩ :: ·))

/- Write the output to its file, or print it. -/
def deliver
    (host : Host m)
    (output : Option String)
    (text : String) : m (Option Failure) := do
  match output with
  | none =>
      host.print text
      return none
  | some path =>
      match ← host.write path text with
      | .ok () => return none
      | .error fault => return some (.unwritable path fault)

/- Assemble sources and deliver the result. -/
def assembleSources
    (host : Host m)
    (settings : Settings)
    (sources : List Source) : m (Option Failure) := do
  match assemble settings.maxPadding settings.stage sources with
  | .error e => return some (.assembly e)
  | .ok output => host.deliver settings.output output.text

/- Run a session. -/
def run
    (host : Host m)
    (settings : Settings) : m Outcome := do
  match ← host.readSources settings.files with
  | (events, .error failure) => return ⟨some failure, events⟩
  | (events, .ok sources) =>
      let failure ← host.assembleSources settings sources
      return ⟨failure, events ++
        assembleEvents settings.maxPadding settings.stage sources⟩

end Host

end MmixAsm

------------------------------------------------------------
-- Sessions In Memory
------------------------------------------------------------

namespace MmixAsm

/- A disk and what was printed. -/
structure Console where
  disk : Disk
  printed : String

namespace Console

/- The host that works on a console. -/
def host : Host (StateM Console) where
  read path := do
    return (← get).disk.read path
  write path text := do
    let console ← get
    match console.disk.write path text with
    | .error fault => return .error fault
    | .ok disk =>
        set { console with disk }
        return .ok ()
  print text := modify fun console =>
    { console with printed := console.printed ++ text }

/- Run a session on a disk. -/
def run
    (disk : Disk)
    (settings : Settings) : Outcome × Console :=
  (host.run settings).run ⟨disk, ""⟩

end Console

end MmixAsm
