import Bpmn.Json.Basic

namespace Bpmn

/-- The container of an entity: the definition, a process or a sub-process. -/
structure ScopeRef where
  id : Option String
  type : Option String
  deriving DecidableEq

/-- Stands in for an element. -/
structure ElementRef where
  id : Option String
  type : Option String
  name : Option String
  deriving DecidableEq

/-- A reference record reduced to identifiers. -/
structure ReferenceLink where
  id : Option String
  property : String
  element : Option ElementRef
  deriving DecidableEq

/-- One side of a data association, with the data object reference bound there. -/
structure AssociationEnd extends ReferenceLink where
  dataObject : Option ReferenceLink
  deriving DecidableEq

/-- A data object reference and a parameter, one the source and one the target. -/
structure Association where
  source : Option AssociationEnd
  target : Option AssociationEnd
  deriving DecidableEq

/-- A data input or output of an I/O specification; `extras` are its other fields. -/
structure DataParameter where
  id : Option String
  type : Option String
  name : Option String
  association : Association
  extras : List (String × Json)

/-- A resource assigned to an activity, with its raw fields. -/
structure Resource where
  type : Option String
  expression : Option String
  behaviour : List (String × Json)

namespace ScopeRef

def unknown : ScopeRef := ⟨none, none⟩

def toJson (r : ScopeRef) : Json := .obj [("id", .ofText r.id), ("type", .ofText r.type)]

end ScopeRef

def ElementRef.toJson (r : ElementRef) : Json :=
  .obj [("id", .ofText r.id), ("type", .ofText r.type), ("name", .ofText r.name)]

namespace ReferenceLink

def toFields (r : ReferenceLink) : List (String × Json) :=
  [("id", .ofText r.id), ("property", .str r.property),
    ("element", .ofOption ElementRef.toJson r.element)]

def toJson (r : ReferenceLink) : Json := .obj r.toFields

end ReferenceLink

def AssociationEnd.toJson (r : AssociationEnd) : Json :=
  .obj (r.toFields ++ [("data_object", .ofOption ReferenceLink.toJson r.dataObject)])

namespace Association

def unbound : Association := ⟨none, none⟩

def toJson (a : Association) : Json :=
  .obj [("source", .ofOption AssociationEnd.toJson a.source),
    ("target", .ofOption AssociationEnd.toJson a.target)]

end Association

def DataParameter.toJson (p : DataParameter) : Json :=
  .obj ([("id", .ofText p.id), ("type", .ofText p.type), ("name", .ofText p.name),
    ("behaviour", .obj [("association", p.association.toJson)])] ++ p.extras)

def Resource.toJson (r : Resource) : Json :=
  .obj [("type", .ofText r.type), ("expression", .ofText r.expression),
    ("behaviour", .obj r.behaviour)]

end Bpmn
