import Bpmn.Command.Outcome
import Bpmn.Command.World
import Bpmn.Resolution.Context

namespace Bpmn.Command

/-- A text up to its first colon, and what follows it. -/
def splitReference (reference : String) : String × String :=
  let cs := reference.toList
  (String.ofList (cs.takeWhile (· != ':')), String.ofList ((cs.dropWhile (· != ':')).drop 1))

/-- The name that the parts of a module's name spell, the last part first. -/
def moduleName (parts : List String) : String := String.intercalate "." parts.reverse

/-- Why a module cannot be had, given the parts of its name from the last on.  The modules it lies in
come first. -/
def absence (w : World) : List String → Except Crash (Option String)
  | [] => .ok none
  | last :: parents => do
    let name := moduleName (last :: parents)
    if w.modules.has name then return none
    let unnamed := s!"No module named {Text.quoted name}"
    if parents.isEmpty then return some unnamed
    match ← absence w parents with
    | some reason => return some reason
    | none =>
      let parent := moduleName parents
      match ((w.modules.get? parent).map (·.places)).getD .none with
      | .none => return some (unnamed ++ s!"; {Text.quoted parent} is not a package")
      | .listed => return some unnamed
      | .unreadable => throw .unreadablePlaces

/-- The types that a reference names. -/
def loadTypes (w : World) (reference : String) : Except Stop (Fields Json) := do
  let (name, member) := splitReference reference
  let refuse (reason : BadValue) : Except Stop (Fields Json) := .error (.badValue "--types" reason)
  if name.isEmpty then throw (.refused "Empty module name")
  if name.toList.head? == some '.' then throw (.crash .relativeModule)
  match absence w (name.splitOn ".").reverse with
  | .error crash => throw (.crash crash)
  | .ok (some reason) => refuse (.noModule name reason)
  | .ok none =>
    match w.modules.get? name with
    | none => refuse (.noMember name member)
    | some m =>
      if member.isEmpty then
        if m.isListable then return Resolver.visible m.members
        else throw (.crash .unlistedAttributes)
      match Fields.get? m.members member with
      | some (.obj types) => return types
      | some value => return w.attributes value
      | none =>
        if m.admitsLack then refuse (.noMember name member) else throw (.crash .unansweredLack)

/-- Resolves a context when types are named. -/
def resolveWith (w : World) (reference : Option String) (m : MappedContext) : Run MappedContext :=
  match reference.filter fun text => !text.isEmpty with
  | none => return m
  | some reference => do
    let types ← (loadTypes w reference : Except Stop (Fields Json))
    Run.observed do
      let r ← (Resolver.ofTypes types).ready
      m.resolved (some r)

end Bpmn.Command
