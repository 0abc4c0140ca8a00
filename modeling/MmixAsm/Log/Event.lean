/-
  Log events: what is told about the work while it goes on.

  The stages themselves are plain functions.  The events of a
  stage are computed beside it, from the same steps, and they
  end where the stage fails.

  Key definitions include:
    * `MmixAsm.LogLevel`
    * `MmixAsm.Event`
    * `MmixAsm.Event.upTo`
    * `MmixAsm.Event.ofFold`
    * `MmixAsm.Event.before`
-/

------------------------------------------------------------
-- Levels
------------------------------------------------------------

namespace MmixAsm

/- How severe an event is, from the most to the least. -/
inductive LogLevel where
  | error
  | warn
  | info
  | debug
  | trace
deriving DecidableEq

namespace LogLevel

/- All levels, the most severe first. -/
def all : List LogLevel :=
  [.error, .warn, .info, .debug, .trace]

/- The name of a level. -/
def name :
    LogLevel → String
| .error => "ERROR"
| .warn => "WARN"
| .info => "INFO"
| .debug => "DEBUG"
| .trace => "TRACE"

/- The number of a level; the most severe is one. -/
def rank :
    LogLevel → Nat
| .error => 1
| .warn => 2
| .info => 3
| .debug => 4
| .trace => 5

end LogLevel

end MmixAsm

------------------------------------------------------------
-- Events
------------------------------------------------------------

namespace MmixAsm

/- A message with its level. -/
structure Event where
  level : LogLevel
  message : String
deriving DecidableEq

namespace Event

/- An event that only follows the course of the work. -/
def trace (message : String) : Event :=
  ⟨.trace, message⟩

/- An event that helps to find a fault. -/
def debug (message : String) : Event :=
  ⟨.debug, message⟩

/- An event that the author of a program should know of. -/
def warn (message : String) : Event :=
  ⟨.warn, message⟩

/- The written form of an event. -/
def text (event : Event) : String :=
  event.level.name ++ " " ++ event.message

/- The events that are at least as severe as a level. -/
def upTo
    (level : LogLevel)
    (events : List Event) : List Event :=
  events.filter (fun event => event.level.rank ≤ level.rank)

end Event

end MmixAsm

------------------------------------------------------------
-- Events Of Steps
------------------------------------------------------------

namespace MmixAsm

namespace Event

variable {ε σ α : Type}

/- The events of a fold behind those already known. -/
def ofFoldFrom
    (step : σ → α → Except ε σ)
    (describe : σ → α → List Event)
    (known : Array Event)
    (state : σ) :
    List α → Array Event
| [] => known
| item :: rest =>
    let known := known.appendList (describe state item)
    match step state item with
    | .error _ => known
    | .ok state => ofFoldFrom step describe known state rest

/-
  The events of a fold that may fail: each step is described
  in the state that it meets, up to the step that fails.
-/
def ofFold
    (step : σ → α → Except ε σ)
    (describe : σ → α → List Event)
    (state : σ)
    (items : List α) : List Event :=
  (ofFoldFrom step describe #[] state items).toList

/- The events of one piece of work and of what follows it. -/
def before
    (events : List Event)
    (result : Except ε α)
    (next : α → List Event) : List Event :=
  events ++
    (match result with
      | .error _ => []
      | .ok value => next value)

end Event

end MmixAsm
