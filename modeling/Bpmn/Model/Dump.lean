import Bpmn.Json.Printer
import Bpmn.Fault
import Bpmn.Model.Entity
import Bpmn.Model.Release

namespace Bpmn

namespace Json

mutual

/-- The value as it is written, however deep it is nested. -/
def dump : Json → Except Fault Json
  | .num n => .ok (if n.isFinite then .num n else .null)
  | .arr items => .arr <$> dumpItems items
  | .obj fields => .obj <$> dumpFields fields
  | .endless => .error .circular
  | .operation => .error .unwritable
  | j => .ok j

def dumpItems : List Json → Except Fault (List Json)
  | [] => .ok []
  | item :: rest => do return (← item.dump) :: (← dumpItems rest)

def dumpFields : List (String × Json) → Except Fault (List (String × Json))
  | [] => .ok []
  | (key, value) :: rest => do return (key, ← value.dump) :: (← dumpFields rest)

end

end Json

/-- The value as a release writes it, if it is not nested too deep. -/
def Release.dump (release : Release) (j : Json) : Except Fault Json := do
  let written ← j.dump
  if release.writes written then return written else throw .tooDeep

namespace MappedContext

variable (release : Release) (m : MappedContext)

/-- The snapshot of a context. -/
def snapshot : Except Fault Json := release.dump m.toJson

/-- The snapshot as a text, if its indent can be made and none of its integers is too long. -/
def serialize (indent : Option Int) : Except Fault String := do
  let written ← m.snapshot release
  if !Json.Layout.fits indent then throw .unfitIndent
  if !Json.Layout.isHeld indent then throw .noMemory
  if !written.isShort then throw .tooLong
  return written.render indent

end MappedContext

end Bpmn
