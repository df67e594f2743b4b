import Bpmn.Fault
import Bpmn.Observe.Event

namespace Bpmn

/-- A run that reports events and ends in a value or a fault.  The events before a fault stay reported. -/
structure Traced (α : Type) where
  events : List Event
  result : Except Fault α

namespace Traced

variable {α β : Type}

/-- A result without events. -/
def ofResult (result : Except Fault α) : Traced α := ⟨[], result⟩

def bind (run : Traced α) (next : α → Traced β) : Traced β :=
  match run.result with
  | .ok a => ⟨run.events ++ (next a).events, (next a).result⟩
  | .error fault => ⟨run.events, .error fault⟩

instance : Monad Traced where
  pure a := ofResult (.ok a)
  bind := bind

instance : MonadLift (Except Fault) Traced where
  monadLift := ofResult

/-- Reports one event. -/
def report (event : Event) : Traced Unit := ⟨[event], .ok ()⟩

def debug (text : String) : Traced Unit := report (.message .debug text)

def info (text : String) : Traced Unit := report (.message .info text)

/-- Whether the run ended in a fault. -/
def failed (run : Traced α) : Bool :=
  match run.result with
  | .ok _ => false
  | .error _ => true

/-- A run whose end is reported, in success or failure. -/
def ending (run : Traced α) (event : Event) : Traced α := ⟨run.events ++ [event], run.result⟩

/-- A run as a named stage. -/
def stage (name : String) (run : Traced α) : Traced α := run.ending (.stage (.str name))

/-- A run over a definition. -/
def span (name : String) (definition : Option String) (run : Traced α) : Traced α :=
  run.ending (.span (.str name) (.ofText definition) run.failed)

end Traced

end Bpmn
