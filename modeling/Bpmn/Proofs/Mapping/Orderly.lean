import Bpmn.Proofs.Document.Copies
import Bpmn.Proofs.Mapping.Origins

namespace Bpmn

variable {P : Number → Prop}

variable {g : Graph} {links : Links}

namespace Graph

theorem Layered.bodyOf (hg : g.Layered P) (v : Value) : (g.bodyOf v).Below P g.contents.size := by
  cases v with
  | node place => exact hg.field place "body"
  | _ => trivial

theorem orderly_bodyAt (hg : g.Layered P) (place : Nat) (key : String) : (g.bodyAt place key).Orderly P :=
  orderly_unfold hg (hg.bodyOf _)

theorem orderly_spread {v : Value} {j : Json} (h : g.spread v = .ok j) : j.Orderly P := by
  obtain ⟨r, -, h⟩ := ok_bind.mp h
  obtain rfl := ok_pure.mp h
  exact Json.orderly_ofOption fun r _ => r.orderly_toJson

theorem orderly_spreadFields (hg : g.Layered P) {place : Nat} {fields : List (String × Json)}
    (h : g.spreadFields place = .ok fields) : (Json.obj fields).Orderly P := by
  obtain ⟨own, hown, h⟩ := ok_bind.mp h
  obtain ⟨spread, hspread, h⟩ := ok_bind.mp h
  obtain rfl := ok_pure.mp h
  apply (orderly_ownFieldsAt hg hown).update
  intro p hp
  obtain ⟨⟨key, v⟩, -, hstep⟩ := exists_of_ok_mapM hspread p hp
  obtain ⟨j, hj, hstep⟩ := ok_bind.mp hstep
  obtain rfl := ok_pure.mp hstep
  exact orderly_spread hj

end Graph

namespace Links

theorem orderly_parameter (hg : g.Layered P) {d : Direction} {v : Value} {p : DataParameter}
    (h : links.parameter g d v = .ok p) : p.Orderly P := by
  obtain ⟨place, -, h⟩ := ok_bind.mp h
  obtain ⟨own, hown, h⟩ := ok_bind.mp h
  obtain ⟨association, -, h⟩ := ok_bind.mp h
  have hfields : (Json.obj (Fields.put own "type" (g.unfold (g.field place "$type")))).Orderly P :=
    (Graph.orderly_ownFieldsAt hg hown).put (Graph.orderly_unfold_field hg place "$type")
  exact Check.orderly_of_dataParameterWith hfields (Checked.as_eq_ok.mp h)

theorem orderly_parameters (hg : g.Layered P) {d : Direction} {v : Value}
    {ps : Option (List DataParameter)} (h : links.parameters g d v = .ok ps) :
    ∀ l ∈ ps, ∀ p ∈ l, p.Orderly P := by
  intro l hl p hp
  obtain rfl : ps = some l := hl
  rw [parameters] at h
  split at h
  · cases ok_pure.mp h
  · obtain ⟨items, -, h⟩ := ok_bind.mp h
    obtain ⟨l', hl', h⟩ := ok_bind.mp h
    obtain rfl := Option.some.inj (ok_pure.mp h)
    obtain ⟨v, -, hv⟩ := exists_of_ok_mapM hl' p hp
    exact orderly_parameter hg hv

end Links

namespace Bundle

theorem orderly_ofDefinition (hg : g.Layered P) {place : Nat} {b : Behaviour}
    (h : ofDefinition g links place = .ok b) : b.Orderly P := by
  rw [ofDefinition] at h
  split at h
  · obtain ⟨⟨inputs, outputs⟩, hparameters, h⟩ := ok_bind.mp h
    obtain rfl := ok_pure.mp h
    obtain ⟨inputs', hinputs, hparameters⟩ := ok_bind.mp hparameters
    obtain ⟨outputs', houtputs, hparameters⟩ := ok_bind.mp hparameters
    obtain ⟨rfl, rfl⟩ := Prod.mk.inj (ok_pure.mp hparameters)
    refine .mk ⟨?_, Links.orderly_parameters hg hinputs, Links.orderly_parameters hg houtputs⟩
      Json.orderly_obj_nil ?_ ?_
    · intro rs hrs
      cases hrs
    · intro key hkey
      cases hkey
    · intro d hd
      cases hd
  · obtain ⟨fields, hfields, h⟩ := ok_bind.mp h
    refine Check.orderly_of_behaviourFields ?_ (Checked.as_eq_ok.mp h)
    apply (Graph.orderly_spreadFields hg hfields).update
    intro p hp
    obtain ⟨⟨key, wrapper⟩, -, rfl⟩ := List.mem_map.mp hp
    exact Graph.orderly_bodyAt hg place wrapper

theorem orderly_definition (hg : g.Layered P) {v : Value} {o : Option BehaviourDefinition}
    (h : definition g links v = .ok o) : ∀ d ∈ o, d.behaviour.Orderly P := by
  intro d hd
  obtain rfl : o = some d := hd
  rw [definition] at h
  split at h
  · cases ok_pure.mp h
  · obtain ⟨place, -, h⟩ := ok_bind.mp h
    obtain ⟨b, hb, h⟩ := ok_bind.mp h
    obtain ⟨type, -, h⟩ := ok_bind.mp h
    obtain rfl := Option.some.inj (ok_pure.mp h)
    exact orderly_ofDefinition hg hb

theorem orderly_resource (hg : g.Layered P) {v : Value} {o : Option Resource}
    (h : resource g v = .ok o) : ∀ r ∈ o, r.Orderly P := by
  intro r hr
  obtain rfl : o = some r := hr
  rw [resource] at h
  split at h
  · cases ok_pure.mp h
  · obtain ⟨place, -, h⟩ := ok_bind.mp h
    have made (expression : Value) (h : (do
        let own ← g.ownFieldsAt place
        let resource ← (Resource.mk <$> g.typeText place
          <*> (g.bodyOf expression).text "expression" <*> .valid own).as .resource
        return some resource : Except Fault (Option Resource)) = .ok (some r)) : r.Orderly P := by
      obtain ⟨own, hown, h⟩ := ok_bind.mp h
      obtain ⟨r', hr', h⟩ := ok_bind.mp h
      obtain rfl := Option.some.inj (ok_pure.mp h)
      obtain ⟨_, own', hr₁, hown', rfl⟩ := Checked.seq_eq_valid.mp (Checked.as_eq_ok.mp hr')
      obtain ⟨_, body, hr₂, -, rfl⟩ := Checked.seq_eq_valid.mp hr₁
      obtain ⟨type, -, rfl⟩ := Checked.map_eq_valid.mp hr₂
      obtain rfl := Checked.valid.inj hown'
      exact Graph.orderly_ownFieldsAt hg hown
    dsimp only at h
    split at h
    · obtain ⟨expression, -, h⟩ := ok_bind.mp h
      exact made expression h
    · obtain ⟨expression, -, h⟩ := ok_bind.mp h
      exact made expression h

theorem exists_of_each {α : Type} {v : Value} {read : Value → Except Fault (Option α)}
    {o : Option (List α)} (h : each g v read = .ok o) : ∀ l ∈ o, ∀ a ∈ l, ∃ v, read v = .ok (some a) := by
  intro l hl a ha
  obtain rfl : o = some l := hl
  rw [each] at h
  split at h
  · cases ok_pure.mp h
  · obtain ⟨items, hitems, h⟩ := ok_bind.mp h
    obtain ⟨read, hread, h⟩ := ok_bind.mp h
    obtain rfl := Option.some.inj (ok_pure.mp h)
    obtain ⟨o, ho, rfl⟩ := List.mem_filterMap.mp ha
    obtain ⟨v, -, hv⟩ := exists_of_ok_mapM hread _ ho
    exact ⟨v, hv⟩

theorem orderly_checkElement (hg : g.Layered P) {fields : List (String × Json)} {place : Nat}
    {b : Behaviour} (hfields : (Json.obj fields).Orderly P)
    (h : checkElement g links fields place = .ok (.valid b)) : b.Orderly P := by
  obtain ⟨events, hevents, h⟩ := ok_bind.mp h
  obtain ⟨loop, hloop, h⟩ := ok_bind.mp h
  obtain ⟨io, hio, h⟩ := ok_bind.mp h
  obtain ⟨resources, hresources, h⟩ := ok_bind.mp h
  refine Check.orderly_of_behaviourWith hfields ?_ (orderly_definition hg hloop)
    (orderly_definition hg hio) ?_ (ok_pure.mp h)
  · intro ds hds d hd
    obtain ⟨v, hv⟩ := exists_of_each hevents ds hds d hd
    exact orderly_definition hg hv d rfl
  · intro rs hrs r hr
    obtain ⟨v, hv⟩ := exists_of_each hresources rs hrs r hr
    exact orderly_resource hg hv r rfl

theorem orderly_ofElement (hg : g.Layered P) {extra : List (String × Json)} {place : Nat} {b : Behaviour}
    (hextra : (Json.obj extra).Orderly P) (h : ofElement g links extra place = .ok b) : b.Orderly P := by
  obtain ⟨own, hown, h⟩ := ok_bind.mp h
  obtain ⟨checked, hchecked, h⟩ := ok_bind.mp h
  rw [Checked.as_eq_ok.mp h] at hchecked
  exact orderly_checkElement hg (hextra.update (Graph.orderly_ownFieldsAt hg hown).of_mem) hchecked

theorem below_conditionBody (hg : g.Layered P) {place : Nat} {body : Value}
    (h : conditionBody g place = some body) : body.Below P g.contents.size := by
  rw [conditionBody] at h
  split at h
  · next condition _ =>
    split at h
    · have hbody := hg.field condition "body"
      cases hv : g.field condition "body" <;> rw [hv] at h hbody <;> cases h <;> exact hbody
    · cases h
  · cases h

theorem orderly_ofFlow (hg : g.Layered P) {place : Nat} {b : Behaviour} (h : ofFlow g place = .ok b) :
    b.Orderly P := by
  obtain ⟨own, hown, h⟩ := ok_bind.mp h
  refine Check.orderly_of_behaviourFields ?_ (Checked.as_eq_ok.mp h)
  split
  · exact Graph.orderly_ownFieldsAt hg hown
  · next body hbody =>
    exact (Graph.orderly_ownFieldsAt hg hown).put (Graph.orderly_unfold hg (below_conditionBody hg hbody))

theorem orderly_raw (hg : g.Layered P) {v : Value} {b : Behaviour} (h : raw g v = .ok b) : b.Orderly P := by
  obtain ⟨own, hown, h⟩ := ok_bind.mp h
  exact Check.orderly_of_behaviourFields (Graph.orderly_ownFields hg hown) (Checked.as_eq_ok.mp h)

end Bundle

namespace Survey

variable {s : Survey} {parent scope : ScopeRef} {place : Nat}

theorem orderly_entity {behaviour : Behaviour} {e : Entity} (hbehaviour : behaviour.Orderly P)
    (h : s.entity parent place behaviour = .valid e) : e.Orderly P := by
  obtain ⟨htype, rfl⟩ := parts_of_entity h
  exact ⟨htype, hbehaviour⟩

theorem orderly_process (hg : s.graph.Layered P) {p : Process} (h : s.process parent place = .ok p) :
    p.toEntity.Orderly P := by
  obtain ⟨b, hb, he⟩ := entity_of_process h
  exact orderly_entity (Bundle.orderly_ofElement hg Json.orderly_obj_nil hb) he

theorem orderly_activity (hg : s.graph.Layered P) {extra : List (String × Json)} {a : Activity}
    (hextra : (Json.obj extra).Orderly P) (h : s.activity parent extra place = .ok a) :
    a.toEntity.Orderly P := by
  obtain ⟨b, hb, he, -⟩ := entity_of_activity h
  exact orderly_entity (Bundle.orderly_ofElement hg hextra hb) he

theorem orderly_boundaryEvent (hg : s.graph.Layered P) {a : Activity}
    (h : s.boundaryEvent parent place = .ok a) : a.toEntity.Orderly P := by
  obtain ⟨attachedTo, hattached, h⟩ := activity_of_boundaryEvent h
  have hextra : (Json.obj [("attachedTo", attachedTo)]).Orderly P := by
    refine .obj ?_ ?_
    · simp [Fields.Distinct, Fields.keys]
    · simp [Graph.orderly_spread hattached]
  exact orderly_activity hg hextra h

theorem orderly_sequenceFlow (hg : s.graph.Layered P) {edge : FlowEdge} {f : SequenceFlow}
    (h : s.sequenceFlow parent edge place = .ok f) : f.toEntity.Orderly P := by
  obtain ⟨b, hb, he⟩ := entity_of_sequenceFlow h
  exact orderly_entity (Bundle.orderly_ofFlow hg hb) he

theorem orderly_messageFlow (hg : s.graph.Layered P) {f : MessageFlow}
    (h : s.messageFlow parent place = .ok f) : f.toEntity.Orderly P := by
  obtain ⟨b, hb, he⟩ := entity_of_messageFlow h
  exact orderly_entity (Bundle.orderly_raw hg hb) he

theorem orderly_dataObjectReference (hg : s.graph.Layered P) {link : Link} {r : DataObjectReference}
    (h : s.dataObjectReference link = .ok r) : (Json.obj r.behaviour).Orderly P := by
  obtain ⟨own, hown, h⟩ := ok_bind.mp h
  obtain ⟨_, type, h₁, -, rfl⟩ := Checked.seq_eq_valid.mp (Checked.as_eq_ok.mp h)
  obtain ⟨id, -, rfl⟩ := Checked.map_eq_valid.mp h₁
  exact Graph.orderly_ownFieldsAt hg hown

theorem orderly_dataObject (hg : s.graph.Layered P) {d : DataObject}
    (h : s.dataObject parent place = .ok d) :
    d.toEntity.Orderly P ∧ ∀ r ∈ d.references, (Json.obj r.behaviour).Orderly P := by
  obtain ⟨⟨b, hb, he⟩, hreferences⟩ := entity_of_dataObject h
  refine ⟨orderly_entity (Bundle.orderly_raw hg hb) he, ?_⟩
  intro r hr
  obtain ⟨link, hlink⟩ := hreferences r hr
  exact orderly_dataObjectReference hg hlink

theorem orderly_script (hg : s.graph.Layered P) {owner : ScopeRef} {name : Value}
    {parts : Fields Value} {made : Script} (hdistinct : parts.Distinct)
    (hparts : ∀ p ∈ parts, p.2.Below P s.graph.contents.size)
    (h : s.script owner name parts = .ok made) : (Json.obj made.script).Orderly P := by
  obtain ⟨_, written, h₁, hwritten, rfl⟩ := Checked.seq_eq_valid.mp (Checked.as_eq_ok.mp h)
  obtain ⟨_, _, h₂, -, rfl⟩ := Checked.seq_eq_valid.mp h₁
  obtain ⟨name, -, rfl⟩ := Checked.map_eq_valid.mp h₂
  obtain rfl := Checked.valid.inj hwritten
  refine .obj ?_ ?_
  · rw [Fields.Distinct, Fields.keys_map]
    exact hdistinct.sublist (List.filter_sublist.map _)
  · intro p hp
    obtain ⟨q, hq, rfl⟩ := List.mem_map.mp hp
    exact Graph.orderly_unfold hg (hparts q (List.mem_of_mem_filter hq))

theorem orderly_taskScript (hg : s.graph.Layered P) {made : Script} (h : s.taskScript place = .ok made) :
    (Json.obj made.script).Orderly P := by
  obtain ⟨owner, -, h⟩ := ok_bind.mp h
  refine orderly_script hg ?_ ?_ h
  · simp [Fields.Distinct, Fields.keys]
  · simp [hg.field]

theorem orderly_flowScripts (hg : s.graph.Layered P) {scripts : List Script}
    (h : s.flowScripts place = .ok scripts) : ∀ made ∈ scripts, (Json.obj made.script).Orderly P := by
  obtain ⟨condition, -, h⟩ := ok_bind.mp h
  cases condition with
  | none =>
    obtain rfl := ok_pure.mp h
    intro made hmade
    cases hmade
  | some condition =>
    obtain ⟨made, hmade, h⟩ := ok_bind.mp h
    obtain rfl := ok_pure.mp h
    intro made' hmade'
    obtain rfl := List.mem_singleton.mp hmade'
    obtain ⟨owner, -, hscript⟩ := ok_bind.mp hmade
    refine orderly_script hg ?_ ?_ hscript
    · simp [Fields.Distinct, Fields.keys]
    · simp [hg.field]

/-- Whatever an extension asks for is taken out of the document. -/
theorem orderly_visit (hg : s.graph.Layered P) {d d' : Diary} {scripts : List Script}
    (h : (s.visit place).Gives d scripts d') : ∀ made ∈ scripts, (Json.obj made.script).Orderly P := by
  rw [visit] at h
  cases he : s.extension with
  | none =>
    rw [he] at h
    obtain ⟨rfl, rfl⟩ := Walk.gives_pure.mp h
    intro made hmade
    cases hmade
  | some extension =>
    rw [he] at h
    simp only [Walk.gives_bind, Walk.gives_lift, Walk.gives_get, Walk.gives_set,
      Walk.gives_mapM_lift, Walk.gives_pure] at h
    obtain ⟨owner, _, ⟨-, rfl⟩, _, _, ⟨rfl, rfl⟩, made, _, ⟨hmade, rfl⟩, _, _, rfl, rfl, rfl⟩ := h
    intro script hscript
    obtain ⟨request, -, hrequest⟩ := exists_of_ok_mapM hmade script hscript
    obtain ⟨request, -, hrequest⟩ := ok_bind.mp hrequest
    obtain ⟨source, -, hrequest⟩ := ok_bind.mp hrequest
    exact orderly_script hg (hg.fields source).1 (fun p hp => hg.mem_fields hp) hrequest

end Survey

/-- Flattened elements that are orderly. -/
structure Flattened.Orderly (P : Number → Prop) (f : Flattened) : Prop where
  processes : ∀ p ∈ f.processes, p.toEntity.Orderly P
  activities : ∀ a ∈ f.activities, a.toEntity.Orderly P
  dataObjects : ∀ d ∈ f.dataObjects,
    d.toEntity.Orderly P ∧ ∀ r ∈ d.references, (Json.obj r.behaviour).Orderly P
  sequenceFlows : ∀ e ∈ f.sequenceFlows, e.toEntity.Orderly P
  messageFlows : ∀ e ∈ f.messageFlows, e.toEntity.Orderly P
  scripts : ∀ s ∈ f.scripts, (Json.obj s.script).Orderly P

namespace Survey

variable {s : Survey}

theorem Writes.orderly (hg : s.graph.Layered P) {script : Script} (h : s.Writes script) :
    (Json.obj script.script).Orderly P := by
  rcases h with ⟨place, htask⟩ | ⟨place, scripts, hflow, hmem⟩ | ⟨place, d, scripts, d', hvisit, hmem⟩
  · exact orderly_taskScript hg htask
  · exact orderly_flowScripts hg hflow script hmem
  · exact orderly_visit hg hvisit script hmem

/-- What is made of a layered document is orderly. -/
theorem Makes.orderly (hg : s.graph.Layered P) {f : Flattened} (h : s.Makes f) : f.Orderly P where
  processes p hp := by
    obtain ⟨_, _, -, hprocess⟩ := h.processes p hp
    exact orderly_process hg hprocess
  activities a ha := by
    obtain ⟨_, _, hactivity | hevent⟩ := h.activities a ha
    · exact orderly_activity hg Json.orderly_obj_nil hactivity
    · exact orderly_boundaryEvent hg hevent
  dataObjects d hd := by
    obtain ⟨_, _, -, hobject⟩ := h.dataObjects d hd
    exact orderly_dataObject hg hobject
  sequenceFlows e he := by
    obtain ⟨_, _, _, -, hflow⟩ := h.sequenceFlows e he
    exact orderly_sequenceFlow hg hflow
  messageFlows e he := by
    obtain ⟨_, _, -, hflow⟩ := h.messageFlows e he
    exact orderly_messageFlow hg hflow
  scripts script hscript := (h.scripts script hscript).orderly hg

end Survey

namespace MappedContext

/-- A layered document is mapped to an orderly context. -/
theorem orderly_ofDocument {document : Value} {extension : Option Extension} {m : MappedContext}
    {diary : Diary} (hg : g.Layered P)
    (h : (ofDocument g document extension).result = .ok (m, diary)) : m.Orderly P := by
  obtain ⟨root, definition, links, items, f, -, -, hyields, rfl⟩ := yields_of_ofDocument h
  have hf : f.Orderly P := Survey.Makes.orderly hg hyields.makes
  refine ⟨?_, fun d hd => (hf.dataObjects d hd).2, hf.scripts⟩
  intro e he
  simp only [entities, ofFlattened, List.mem_append, List.mem_map] at he
  rcases he with (((⟨p, hp, rfl⟩ | ⟨a, ha, rfl⟩) | ⟨d, hd, rfl⟩) | ⟨e, he, rfl⟩) | ⟨e, he, rfl⟩
  · exact hf.processes p hp
  · exact hf.activities a ha
  · exact (hf.dataObjects d hd).1
  · exact hf.messageFlows e he
  · exact hf.sequenceFlows e he

end MappedContext

end Bpmn
