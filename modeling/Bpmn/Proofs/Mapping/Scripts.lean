import Bpmn.Proofs.Mapping.Accounting
import Bpmn.Proofs.Mapping.Elements
import Bpmn.Proofs.Mapping.Origins
import Bpmn.Proofs.Mapping.PlainLinks

namespace Bpmn

/-- An element whose script is registered under its identifier: a script task, or a sequence flow whose
condition is written in a language. -/
def Graph.OwnsScript (g : Graph) (place : Nat) : Prop :=
  g.IsA place Kind.scriptTask ∨
    (g.IsA place Kind.sequenceFlow ∧ ∃ condition, g.field place "conditionExpression" = .node condition ∧
      (∃ kind ∈ Kind.expressions, g.IsA condition kind) ∧
      g.truthy (g.field condition "language") = true)

/-- The parts of the script of a task. -/
def Graph.taskFields (g : Graph) (place : Nat) : List (String × Value) :=
  [("type", g.field place "$type"), ("scriptFormat", g.field place "scriptFormat"),
    ("body", g.field place "script"), ("resource", g.field place "resource")]

/-- The parts of the script of a condition. -/
def Graph.conditionFields (g : Graph) (condition : Nat) : List (String × Value) :=
  [("type", g.field condition "$type"), ("scriptFormat", g.field condition "language"),
    ("body", g.field condition "body"), ("resource", g.field condition "resource")]

namespace Survey

variable {s : Survey} {place : Nat}

theorem condition_eq_some {condition : Nat} :
    s.condition place = .ok (some condition) ↔
      s.graph.field place "conditionExpression" = .node condition ∧
        (∃ kind ∈ Kind.expressions, s.graph.IsA condition kind) ∧
        s.graph.truthy (s.graph.field condition "language") = true := by
  rw [Survey.condition]
  split
  · next found hfound =>
    simp only [ok_bind, ok_pure, hfound, Value.node.injEq]
    constructor
    · rintro ⟨formal, hformal, hsome⟩
      split at hsome
      · next hboth =>
        obtain rfl := Option.some.inj hsome
        rw [Bool.and_eq_true] at hboth
        obtain ⟨rfl, hlanguage⟩ := hboth
        exact ⟨rfl, Value.isOneOf_true.mp hformal, hlanguage⟩
      · cases hsome
    · rintro ⟨rfl, hformal, hlanguage⟩
      exact ⟨true, Value.isOneOf_true.mpr hformal, by simp [hlanguage]⟩
  · next hnode =>
    simp only [ok_pure]
    constructor
    · intro hnone
      cases hnone
    · rintro ⟨hfield, -⟩
      exact absurd hfield (hnode condition)

/-- A script is registered under a text; it has the parts that are not null. -/
theorem parts_of_script {owner : ScopeRef} {name : Value} {parts : List (String × Value)} {script : Script}
    (h : s.script owner name parts = .ok script) :
    name = .str script.name ∧ script.parent = owner ∧
      script.script = (parts.filter fun p => !p.2.isNull).map fun p => (p.1, s.graph.unfold p.2) := by
  obtain ⟨_, _, h₁, hwritten, rfl⟩ := Checked.seq_eq_valid.mp (Checked.as_eq_ok.mp h)
  obtain ⟨_, _, h₂, hparent, rfl⟩ := Checked.seq_eq_valid.mp h₁
  obtain ⟨text, hname, rfl⟩ := Checked.map_eq_valid.mp h₂
  refine ⟨?_, (Checked.valid.inj hparent).symm, (Checked.valid.inj hwritten).symm⟩
  cases name with
  | str text' => exact congrArg Value.str (Checked.valid.inj hname)
  | _ => cases hname

/-- The scripts of an element that is no owner are none, and that of an owner is one. -/
theorem scripts_of_written {scripts : List Script} (h : s.written place = .ok scripts) :
    (¬ s.graph.OwnsScript place ∧ scripts = []) ∨
      (s.graph.OwnsScript place ∧ ∃ script, scripts = [script] ∧
        ((s.graph.IsA place Kind.scriptTask ∧
            s.ownScript place (s.graph.taskFields place) = .ok script) ∨
          (s.graph.IsA place Kind.sequenceFlow ∧ ∃ condition, s.condition place = .ok (some condition) ∧
            s.ownScript place (s.graph.conditionFields condition) = .ok script))) := by
  rw [written] at h
  split at h
  · next hflow =>
    have htask : ¬ s.graph.IsA place Kind.scriptTask := hflow.not (by decide)
    obtain ⟨found, hfound, h⟩ := ok_bind.mp h
    cases found with
    | none =>
      obtain rfl := ok_pure.mp h
      refine .inl ⟨?_, rfl⟩
      rintro (htask' | ⟨-, condition, hcondition⟩)
      · exact htask htask'
      · rw [condition_eq_some.mpr hcondition] at hfound
        cases hfound
    | some condition =>
      obtain ⟨script, hscript, h⟩ := ok_bind.mp h
      obtain rfl := ok_pure.mp h
      exact .inr ⟨.inr ⟨hflow, condition, condition_eq_some.mp hfound⟩, script, rfl,
        .inr ⟨hflow, condition, hfound, hscript⟩⟩
  · next hflow =>
    split at h
    · next htask =>
      obtain ⟨script, hscript, h⟩ := ok_bind.mp h
      obtain rfl := ok_pure.mp h
      exact .inr ⟨.inl htask, script, rfl, .inl ⟨htask, hscript⟩⟩
    · next htask =>
      obtain rfl := ok_pure.mp h
      refine .inl ⟨?_, rfl⟩
      rintro (htask' | ⟨hflow', -⟩)
      · exact htask htask'
      · exact hflow hflow'

/-- The scripts of an element with a script can be written only if it has an identifier. -/
theorem text_of_written {scripts : List Script} (howns : s.graph.OwnsScript place)
    (h : s.written place = .ok scripts) : ∃ text, s.graph.field place "id" = .str text := by
  have htext {parts : List (String × Value)} {script : Script} (h : s.ownScript place parts = .ok script) :
      ∃ text, s.graph.field place "id" = .str text := by
    obtain ⟨owner, -, hscript⟩ := ok_bind.mp h
    exact ⟨script.name, (parts_of_script hscript).1⟩
  rcases scripts_of_written h with ⟨hnot, -⟩ | ⟨-, script, -, ⟨-, hscript⟩ | ⟨-, condition, -, hscript⟩⟩
  · exact absurd howns hnot
  · exact htext hscript
  · exact htext hscript

end Survey

/-- An activity or a sequence flow of a context. -/
inductive FlowElement where
  | activity (a : Activity)
  | flow (f : SequenceFlow)

namespace FlowElement

def entity : FlowElement → Entity
  | activity a => a.toEntity
  | flow f => f.toEntity

def activity? : FlowElement → Option Activity
  | activity a => some a
  | flow _ => none

def flow? : FlowElement → Option SequenceFlow
  | activity _ => none
  | flow f => some f

/-- An element is listed as what it is, under its own heading. -/
structure Fits (g : Graph) (v : Visit) (e : FlowElement) : Prop where
  heading : e.entity.heading = g.heading v
  kind : e.flow?.isSome = true ↔ g.IsA v.place Kind.sequenceFlow

/-- The parts of the script of a script task, and the fields of its bundle that they repeat. -/
def taskParts : List (String × String) :=
  [("scriptFormat", "scriptFormat"), ("body", "script"), ("resource", "resource")]

/-- A script is that of an entity: it has its name from it, refers back to it and repeats its bundle. -/
structure Owns (e : FlowElement) (script : Script) : Prop where
  name : e.entity.id = some script.name
  parentId : script.parent.id = e.entity.id
  parentType : Json.ofText script.parent.type = e.entity.type
  task : ∀ a, e = .activity a → ∀ p ∈ taskParts,
    Fields.get? script.script p.1 = (a.behaviour.get p.2 .null).nonNull?
  body : ∀ f, e = .flow f → ∀ j, Fields.get? script.script "body" = some j →
    ∀ default, f.behaviour.get "expression" default = j

end FlowElement

namespace Graph

variable (g : Graph)

/-- An element that is listed among the activities or the sequence flows. -/
def IsListed (place : Nat) : Prop := g.IsActivity place ∨ g.IsA place Kind.sequenceFlow

instance (place : Nat) : Decidable (g.IsListed place) :=
  inferInstanceAs (Decidable (_ ∨ _))

variable {g} in
theorem IsListed.of_ownsScript {place : Nat} (h : g.OwnsScript place) : g.IsListed place := by
  rcases h with htask | ⟨hflow, -⟩
  · refine .inl ⟨?_, ?_, ?_, ?_⟩ <;> exact htask.not (by decide)
  · exact .inr hflow

/-- The place of an object. -/
def nodePlace? : Value → Option Nat
  | .node place => some place
  | _ => none

theorem nodePlace?_eq_some {v : Value} {place : Nat} : nodePlace? v = some place ↔ v = .node place := by
  cases v <;> simp [nodePlace?]

theorem ownsScript_iff_nodePlace {place : Nat} :
    (g.IsA place Kind.scriptTask ∨ (g.IsA place Kind.sequenceFlow ∧
      ∃ condition ∈ nodePlace? (g.field place "conditionExpression"),
        (∃ kind ∈ Kind.expressions, g.IsA condition kind) ∧
          g.truthy (g.field condition "language") = true)) ↔ g.OwnsScript place := by
  simp only [OwnsScript, Option.mem_def, nodePlace?_eq_some]

instance (place : Nat) : Decidable (g.OwnsScript place) :=
  decidable_of_iff _ (ownsScript_iff_nodePlace g)

end Graph

/-- The activities, the sequence flows and the scripts among flattened elements are made of what has been
met. -/
structure Flattened.Scripted (g : Graph) (f : Flattened) (visits : List Visit)
    (made : List (Visit × FlowElement)) : Prop where
  listed : made.map (·.1) = visits.filter fun v => g.IsListed v.place
  fits : ∀ p ∈ made, p.2.Fits g p.1
  activities : f.activities = made.filterMap (·.2.activity?)
  sequenceFlows : f.sequenceFlows = made.filterMap (·.2.flow?)
  scripts : List.Forall₂ (fun p script => p.2.Owns script)
    (made.filter fun p => g.OwnsScript p.1.place) f.scripts

namespace Flattened.Scripted

variable {g : Graph} {f f' : Flattened} {visits visits' : List Visit}
  {made made' : List (Visit × FlowElement)}

theorem empty : Flattened.empty.Scripted g [] [] := ⟨rfl, by simp, rfl, rfl, .nil⟩

theorem append (h : f.Scripted g visits made) (h' : f'.Scripted g visits' made') :
    (f ++ f').Scripted g (visits ++ visits') (made ++ made') where
  listed := by rw [List.map_append, List.filter_append, h.listed, h'.listed]
  fits := List.forall_mem_append.mpr ⟨h.fits, h'.fits⟩
  activities := by rw [activities_append, List.filterMap_append, h.activities, h'.activities]
  sequenceFlows := by
    rw [sequenceFlows_append, List.filterMap_append, h.sequenceFlows, h'.sequenceFlows]
  scripts := by
    rw [List.filter_append]
    exact List.rel_append h.scripts h'.scripts

theorem carried (h : f.Scripted g visits made) : f.carried.Scripted g visits made :=
  ⟨h.listed, h.fits, h.activities, h.sequenceFlows, h.scripts⟩

theorem messages : f.messages.Scripted g [] [] := ⟨rfl, by simp, rfl, rfl, .nil⟩

end Flattened.Scripted

namespace Graph

variable {g : Graph} {place : Nat} {own : List (String × Json)} {key : String}

theorem nonNull?_of_isName {v : Value} (h : v.isName = true) :
    v.nonNull?.map g.unfold = v.plain.nonNull? := by
  rcases Value.isName_iff.mp h with rfl | ⟨s, rfl⟩ <;> rfl

/-- An own field that is a text or null is copied as it is. -/
theorem get?_own_of_isName (hown : g.ownFieldsAt place = .ok own) (hkey : Key.isOwn key = true)
    (hname : (g.field place key).isName = true) :
    (Fields.get? own key).getD .null = (g.field place key).plain := by
  have hrel := (Fields.ok_mapM_values.mp hown).get? key
  rw [ownEntries, Fields.get?_filter Key.isOwn hkey] at hrel
  rw [field] at hname ⊢
  generalize Fields.get? (g.fields place) key = value at hrel hname
  generalize Fields.get? own key = copied at hrel
  cases hrel with
  | none => rfl
  | some hcopy =>
    rcases Value.isName_iff.mp hname with hnull | ⟨text, htext⟩
    · rw [Option.getD_some] at hnull
      subst hnull
      exact copyValue_plain rfl hcopy
    · rw [Option.getD_some] at htext
      subst htext
      exact copyValue_plain rfl hcopy

/-- A bundle without extra fields says under a key of no member what the element does, if that is a text or
null. -/
theorem get_of_ofElement {links : Links} {b : Behaviour} (h : Bundle.ofElement g links [] place = .ok b)
    (hdistinct : (g.fields place).Distinct) (hkey : Key.isOwn key = true)
    (huntyped : Member.ofKey? key = none) (hname : (g.field place key).isName = true) :
    b.get key .null = (g.field place key).plain := by
  obtain ⟨own, hown, h⟩ := ok_bind.mp h
  obtain ⟨checked, hchecked, h⟩ := ok_bind.mp h
  rw [Checked.as_eq_ok.mp h] at hchecked
  have hholds := Bundle.holds_of_checkElement (Bundle.distinct_of_ownFieldsAt hdistinct hown) hchecked
  have hextras : Fields.get? b.extras key = Fields.get? own key := by
    rw [hholds.kept key (.untyped huntyped), Bundle.ownOrExtra, Fields.get?_nil, Option.or_none]
  rw [Behaviour.get, hextras, huntyped, ← get?_own_of_isName hown hkey hname]
  cases Fields.get? own key <;> rfl

end Graph

theorem Fields.get?_nonNull {parts : Fields Value} (h : parts.Distinct) (key : String) :
    Fields.get? (parts.filter fun p => !p.2.isNull) key =
      (Fields.get? parts key).bind Value.nonNull? := by
  induction parts with
  | nil => rfl
  | cons part rest ih =>
    obtain ⟨k, v⟩ := part
    obtain ⟨hfresh, hrest⟩ := List.nodup_cons.mp h
    rw [Fields.get?_cons]
    by_cases hnull : v = .null
    · subst hnull
      rw [List.filter_cons_of_neg (by simp [Value.isNull]), ih hrest]
      split
      · next hk =>
        have hnone : Fields.get? rest key = none := Fields.get?_eq_none.mpr (hk ▸ hfresh)
        rw [hnone]
        rfl
      · rfl
    · have hv : v.nonNull? = some v := Value.nonNull?_eq_some.mpr ⟨hnull, rfl⟩
      have hisNull : v.isNull = false := by cases v <;> trivial
      rw [List.filter_cons_of_pos (by simp [hisNull]), Fields.get?_cons, ih hrest]
      split
      · rw [Option.bind_some, hv]
      · rfl

namespace Survey

variable {s : Survey} {parent : ScopeRef} {c place : Nat}

/-- What is written into the script of an element. -/
theorem parts_of_ownScript {parts : List (String × Value)} {script : Script} (hparts : Fields.Distinct parts)
    (h : s.ownScript place parts = .ok script) :
    s.graph.field place "id" = .str script.name ∧ s.graph.Names script.parent place ∧
      ∀ key, Fields.get? script.script key =
        ((Fields.get? parts key).bind Value.nonNull?).map s.graph.unfold := by
  obtain ⟨owner, howner, h⟩ := ok_bind.mp h
  obtain ⟨hname, rfl, hwritten⟩ := parts_of_script h
  refine ⟨hname, names_of_owner howner, ?_⟩
  intro key
  rw [hwritten, ← Fields.get?_nonNull hparts]
  exact Fields.get?_map (fun _ v => s.graph.unfold v) key

/-- What an element is listed as. -/
inductive Lists (s : Survey) (parent : ScopeRef) (place : Nat) : FlowElement → Prop
  | activity {a : Activity} {extra : List (String × Json)} (kind : s.graph.IsActivity place)
      (made : s.activity parent extra place = .ok a)
      (hextra : s.graph.IsA place Kind.scriptTask → extra = []) : Lists s parent place (.activity a)
  | flow {f : SequenceFlow} {edge : FlowEdge} (kind : s.graph.IsA place Kind.sequenceFlow)
      (made : s.sequenceFlow parent edge place = .ok f) : Lists s parent place (.flow f)

/-- What flattening a single element adds is what it is listed as, if it is listed at all. -/
def AddsListed (s : Survey) (parent : ScopeRef) (place : Nat) (own : Flattened) : Prop :=
  (¬ s.graph.IsListed place ∧ own.activities = [] ∧ own.sequenceFlows = []) ∨
    ∃ e, s.Lists parent place e ∧ own.activities = e.activity?.toList ∧ own.sequenceFlows = e.flow?.toList

theorem addsListed_leaf {own : Flattened} (single : ¬ s.graph.IsScope place)
    (h : s.leaf parent (s.graph.field place "$type") place = .ok own) : s.AddsListed parent place own := by
  have hprocess : ¬ s.graph.IsA place Kind.process := fun h => single (.inl h)
  simp only [leaf, Value.isText_iff] at h
  split at h
  · next kind =>
    have kind : s.graph.IsA place Kind.messageFlow := kind
    obtain ⟨flow, -, h⟩ := ok_bind.mp h
    obtain rfl := ok_pure.mp h
    exact .inl ⟨by simp +decide [Graph.IsListed, Graph.IsActivity, kind.iff], rfl, rfl⟩
  split at h
  · next kind =>
    have kind : s.graph.IsA place Kind.dataObject := kind
    obtain ⟨object, -, h⟩ := ok_bind.mp h
    obtain rfl := ok_pure.mp h
    exact .inl ⟨by simp +decide [Graph.IsListed, Graph.IsActivity, kind.iff], rfl, rfl⟩
  split at h
  · next kind =>
    simp only [ok_bind, ok_pure] at h
    obtain ⟨edge, -, scripts, -, flow, hflow, rfl⟩ := h
    exact .inr ⟨.flow flow, .flow kind hflow, rfl, rfl⟩
  next hmessage hdata hsequence =>
  have hactivity : s.graph.IsActivity place := ⟨hprocess, hmessage, hdata, hsequence⟩
  split at h
  · next kind =>
    have kind : s.graph.IsA place Kind.boundaryEvent := kind
    obtain ⟨event, hevent, h⟩ := ok_bind.mp h
    obtain rfl := ok_pure.mp h
    obtain ⟨attachedTo, -, hevent⟩ := activity_of_boundaryEvent hevent
    have htask : ¬ s.graph.IsA place Kind.scriptTask := kind.not (by decide)
    exact .inr ⟨.activity event, .activity hactivity hevent fun h => absurd h htask, rfl, rfl⟩
  · obtain ⟨activity, hmade, h⟩ := ok_bind.mp h
    split at h
    · simp only [ok_bind, ok_pure] at h
      obtain ⟨script, -, scripts, -, rfl⟩ := h
      exact .inr ⟨.activity activity, .activity hactivity hmade fun _ => rfl, rfl, rfl⟩
    · simp only [ok_bind, ok_pure] at h
      obtain ⟨scripts, -, rfl⟩ := h
      exact .inr ⟨.activity activity, .activity hactivity hmade fun _ => rfl, rfl, rfl⟩

theorem addsListed_container {own : Flattened} {scope : ScopeRef} (kind : s.graph.IsScope place)
    (h : s.container parent (s.graph.field place "$type") place = .ok (own, scope)) :
    s.AddsListed parent place own := by
  simp only [container, Value.isText_iff] at h
  split at h
  · next kind =>
    have kind : s.graph.IsA place Kind.process := kind
    simp only [ok_bind, ok_pure, Prod.mk.injEq] at h
    obtain ⟨p, -, scope, -, rfl, -⟩ := h
    exact .inl ⟨by simp +decide [Graph.IsListed, Graph.IsActivity, kind.iff], rfl, rfl⟩
  · next hprocess =>
    have kind : s.graph.IsA place Kind.subProcess := kind.resolve_left hprocess
    simp only [ok_bind, ok_pure, Prod.mk.injEq] at h
    obtain ⟨a, ha, scope, -, rfl, -⟩ := h
    have hactivity : s.graph.IsActivity place := by simp +decide [Graph.IsActivity, kind.iff]
    exact .inr ⟨.activity a, .activity hactivity ha fun _ => rfl, rfl, rfl⟩

theorem Lists.fits {e : FlowElement} (h : s.Lists parent place e) (hparent : s.graph.Names parent c) :
    e.Fits s.graph ⟨c, place⟩ := by
  cases h with
  | activity kind made _ =>
    refine ⟨heading_activity hparent made, ?_⟩
    exact iff_of_false (by simp [FlowElement.flow?]) kind.2.2.2
  | flow kind made =>
    refine ⟨heading_sequenceFlow hparent made, ?_⟩
    exact iff_of_true rfl kind

theorem Lists.isListed {e : FlowElement} (h : s.Lists parent place e) : s.graph.IsListed place := by
  cases h with
  | activity kind _ _ => exact .inl kind
  | flow kind _ => exact .inr kind

/-- A script is named after the entity of its element and refers back to it. -/
theorem refers_of_ownScript {parts : List (String × Value)} {script : Script} {e : FlowElement}
    (hparts : Fields.Distinct parts) (h : s.ownScript place parts = .ok script)
    (hfits : e.Fits s.graph ⟨c, place⟩) :
    e.entity.id = some script.name ∧ script.parent.id = e.entity.id ∧
      Json.ofText script.parent.type = e.entity.type := by
  obtain ⟨hname, hparent, -⟩ := parts_of_ownScript hparts h
  have hid : Json.ofText e.entity.id = (s.graph.field place "id").plain :=
    congrArg Heading.id hfits.heading
  have htype : e.entity.type = (s.graph.field place "$type").plain :=
    congrArg Heading.type hfits.heading
  refine ⟨?_, Json.ofText_inj (hparent.1.trans hid.symm), hparent.2.trans htype.symm⟩
  rw [hname] at hid
  exact Json.ofText_inj hid

/-- A script repeats the bundle of its task, if the texts are texts. -/
theorem owns_of_taskScript {a : Activity} {script : Script}
    (hfits : (FlowElement.activity a).Fits s.graph ⟨c, place⟩)
    (hdistinct : (s.graph.fields place).Distinct)
    (htexts : ∀ p ∈ FlowElement.taskParts, (s.graph.field place p.2).isName = true)
    (ha : s.activity parent [] place = .ok a)
    (h : s.ownScript place (s.graph.taskFields place) = .ok script) :
    (FlowElement.activity a).Owns script := by
  have hparts : Fields.Distinct (s.graph.taskFields place) := by
    simp [Fields.Distinct, Fields.keys, Graph.taskFields]
  obtain ⟨hname, hid, htype⟩ := refers_of_ownScript hparts h hfits
  obtain ⟨-, -, hget⟩ := parts_of_ownScript hparts h
  refine ⟨hname, hid, htype, ?_, fun f hf => absurd hf (by simp)⟩
  rintro a' ha' ⟨part, key⟩ hp
  obtain rfl := FlowElement.activity.inj ha'
  obtain ⟨b, hb, he, -⟩ := entity_of_activity ha
  have hbehaviour : a.behaviour = b := (parts_of_entity he).2
  have hkeys : ∀ p ∈ FlowElement.taskParts, Key.isOwn p.2 = true ∧ Member.ofKey? p.2 = none := by
    decide
  have hfield := Graph.get_of_ofElement hb hdistinct (hkeys _ hp).1 (hkeys _ hp).2 (htexts _ hp)
  have hpart : Fields.get? (s.graph.taskFields place) part = some (s.graph.field place key) := by
    have hcases : (part = "scriptFormat" ∧ key = "scriptFormat") ∨ (part = "body" ∧ key = "script") ∨
        (part = "resource" ∧ key = "resource") := by
      simpa [FlowElement.taskParts] using hp
    rcases hcases with ⟨rfl, rfl⟩ | ⟨rfl, rfl⟩ | ⟨rfl, rfl⟩ <;> rfl
  rw [hget, hpart, Option.bind_some, hbehaviour, hfield]
  exact Graph.nonNull?_of_isName (htexts _ hp)

/-- The body of a condition is the expression of its flow. -/
theorem owns_of_flowScript {f : SequenceFlow} {edge : FlowEdge} {condition : Nat} {script : Script}
    (hfits : (FlowElement.flow f).Fits s.graph ⟨c, place⟩)
    (hcondition : s.condition place = .ok (some condition))
    (hf : s.sequenceFlow parent edge place = .ok f)
    (h : s.ownScript place (s.graph.conditionFields condition) = .ok script) :
    (FlowElement.flow f).Owns script := by
  have hparts : Fields.Distinct (s.graph.conditionFields condition) := by
    simp [Fields.Distinct, Fields.keys, Graph.conditionFields]
  obtain ⟨hname, hid, htype⟩ := refers_of_ownScript hparts h hfits
  obtain ⟨-, -, hget⟩ := parts_of_ownScript hparts h
  refine ⟨hname, hid, htype, fun a ha => absurd ha (by simp), ?_⟩
  rintro f' hf' j hj default
  obtain rfl := FlowElement.flow.inj hf'
  obtain ⟨b, hb, he⟩ := entity_of_sequenceFlow hf
  have hbehaviour : f.behaviour = b := (parts_of_entity he).2
  obtain ⟨hnode, ⟨kind, hkind, htyped⟩, -⟩ := condition_eq_some.mp hcondition
  rw [hget] at hj
  obtain ⟨body, hbody, rfl⟩ := Option.map_eq_some_iff.mp hj
  have hbody : (s.graph.field condition "body").nonNull? = some body := hbody
  have htruthy : s.graph.truthy (s.graph.field condition "$type") = true := by
    have hfilled : ∀ kind ∈ Kind.expressions, (!kind.isEmpty) = true := by decide
    rw [htyped]
    exact hfilled kind hkind
  have hconditionBody : Bundle.conditionBody s.graph place = some body := by
    rw [Bundle.conditionBody, hnode]
    dsimp only
    rw [if_pos htruthy, hbody]
  obtain ⟨own, -, hb⟩ := ok_bind.mp hb
  rw [hconditionBody] at hb
  have hextras := Bundle.extras_of_behaviourFields (Checked.as_eq_ok.mp hb)
  have hexpression : Fields.get? b.extras "expression" = some (s.graph.unfold body) := by
    rw [hextras, Bundle.get?_extras (by decide), Fields.get?_put, if_pos rfl]
  rw [hbehaviour, Behaviour.get, hexpression]

/-- What a single element adds is scripted, whatever it is. -/
theorem scripted_single {own : Flattened} (hparent : s.graph.Names parent c)
    (htasks : s.graph.IsA place Kind.scriptTask → (s.graph.fields place).Distinct ∧
      ∀ p ∈ FlowElement.taskParts, (s.graph.field place p.2).isName = true)
    (hadds : s.AddsListed parent place own) (hwritten : s.written place = .ok own.scripts) :
    ∃ made, own.Scripted s.graph [⟨c, place⟩] made := by
  rcases hadds with ⟨hunlisted, hactivities, hflows⟩ | ⟨e, he, hactivities, hflows⟩
  · -- An element that is not listed has no script.
    have hscripts : own.scripts = [] := by
      rcases scripts_of_written hwritten with ⟨-, hnone⟩ | ⟨howns, -⟩
      · exact hnone
      · exact absurd (Graph.IsListed.of_ownsScript howns) hunlisted
    refine ⟨[], ?_, by simp, hactivities, hflows, ?_⟩
    · simp [hunlisted]
    · rw [hscripts]
      exact .nil
  · have hfits := he.fits hparent
    refine ⟨[(⟨c, place⟩, e)], ?_, by simpa using hfits, ?_, ?_, ?_⟩
    · simp [he.isListed]
    · rw [hactivities]
      cases e <;> rfl
    · rw [hflows]
      cases e <;> rfl
    · rcases scripts_of_written hwritten with ⟨hnot, hnone⟩ | ⟨howns, script, hone, hmade⟩
      · rw [hnone, List.filter_cons_of_neg (by simpa using hnot)]
        exact .nil
      · rw [hone, List.filter_cons_of_pos (by simpa using howns)]
        refine .cons ?_ .nil
        cases he with
        | activity kind made hextra =>
          rcases hmade with ⟨htask, hscript⟩ | ⟨hflow, -⟩
          · obtain ⟨hdistinct, htexts⟩ := htasks htask
            rw [hextra htask] at made
            exact owns_of_taskScript hfits hdistinct htexts made hscript
          · exact absurd hflow kind.2.2.2
        | flow kind made =>
          rcases hmade with ⟨htask, -⟩ | ⟨-, condition, hcondition, hscript⟩
          · exact absurd kind (htask.not (by decide))
          · exact owns_of_flowScript hfits hcondition made hscript

/-- Without an extension nothing is registered. -/
theorem scripts_of_visit {d d' : Diary} {scripts : List Script} (hquiet : s.extension = none)
    (h : (s.visit place).Gives d scripts d') : scripts = [] := by
  rw [visit, hquiet] at h
  exact (Walk.gives_pure.mp h).1.symm

/-- A walk without an extension lists scripts just for the owners that it lists. -/
theorem Yields.scripted {items : List Value} {d d' : Diary} {f : Flattened}
    (h : s.Yields parent items d f d') (hquiet : s.extension = none)
    (htasks : ∀ place, s.graph.IsA place Kind.scriptTask → (s.graph.fields place).Distinct ∧
      ∀ p ∈ FlowElement.taskParts, (s.graph.field place p.2).isName = true)
    (hparent : s.graph.Names parent c) :
    ∃ visits made, s.graph.Visits c items visits ∧ f.Scripted s.graph visits made := by
  have hnothing : (Flattened.ofScripts []).Scripted s.graph [] [] := .empty
  -- The parent is generalised, as it is the container itself for what is below a container.
  induction h generalizing c with
  | nil => exact ⟨[], [], .nil, .empty⟩
  | skipped kind _ ih =>
    obtain ⟨visits, made, hvisits, hf⟩ := ih hparent
    exact ⟨visits, made, .leftOut (.inl kind) hvisits, hf⟩
  | collaboration kind _ _ _ _ ihl =>
    obtain ⟨visits, made, hvisits, hf⟩ := ihl hparent
    exact ⟨visits, made, .leftOut (.inr kind) hvisits, .append .messages hf⟩
  | scope kind made seen items _ _ ihb ihl =>
    obtain ⟨-, hscope⟩ := accounts_container hparent kind made
    obtain ⟨hwritten, hscripts⟩ := written_container kind made
    obtain ⟨own, hown⟩ := scripted_single hparent (htasks _) (addsListed_container kind made)
      (by rw [hscripts]; exact hwritten)
    obtain ⟨below, inner, hbelow, hinner⟩ := ihb hscope
    obtain ⟨later, rest, hlater, hrest⟩ := ihl hparent
    obtain rfl := scripts_of_visit hquiet seen
    refine ⟨_, own ++ [] ++ inner ++ rest, .scope kind items hbelow hlater, ?_⟩
    exact ((hown.append hnothing).append hinner.carried).append hrest
  | leaf unskipped single made seen _ ih =>
    obtain ⟨own, hown⟩ := scripted_single hparent (htasks _) (addsListed_leaf single.2 made)
      (written_leaf made)
    obtain ⟨later, rest, hlater, hrest⟩ := ih hparent
    obtain rfl := scripts_of_visit hquiet seen
    refine ⟨_, own ++ [] ++ rest, .leaf ⟨not_or.mpr ⟨unskipped, single.1⟩, single.2⟩ hlater, ?_⟩
    exact (hown.append hnothing).append hrest

end Survey

namespace MappedContext

/-- Without an extension the scripts of a context are those of its script tasks and of its sequence flows
with a condition in a language, one for each in the order of the walk, and each says of its entity what the
bundle of the entity says. -/
theorem scripts_of_ofDocument {g : Graph} {document : Value} {m : MappedContext} {diary : Diary}
    (h : (ofDocument g document none).result = .ok (m, diary))
    (htasks : ∀ place, g.IsA place Kind.scriptTask → (g.fields place).Distinct ∧
      ∀ p ∈ FlowElement.taskParts, (g.field place p.2).isName = true) :
    ∃ root items visits, ∃ made : List (Visit × FlowElement),
      g.HasRoot document root items ∧ (∀ v, g.Visits root items v ↔ v = visits) ∧
      made.map (·.1) = visits.filter (fun v => g.IsListed v.place) ∧
      (∀ p ∈ made, p.2.Fits g p.1) ∧
      m.activities = made.filterMap (·.2.activity?) ∧ m.sequenceFlows = made.filterMap (·.2.flow?) ∧
      List.Forall₂ (fun p script => p.2.Owns script)
        (made.filter fun p => g.OwnsScript p.1.place) m.scripts := by
  obtain ⟨root, definition, links, items, f, hroot, hdefinition, hyields, rfl⟩ :=
    yields_of_ofDocument h
  obtain ⟨visits, made, hvisits, hf⟩ :=
    hyields.scripted rfl htasks (Graph.names_of_definition hdefinition)
  have hvisits : g.Visits root items visits := hvisits
  exact ⟨root, items, visits, made, hroot, hvisits.iff, hf.listed, hf.fits, hf.activities,
    hf.sequenceFlows, hf.scripts⟩

/-- A script task without a format and a sequence flow with a condition in a language, in a sub-process, and
a flow with a condition in none. -/
def scripting : Graph where
  contents := #[
    .object [("$type", .str Kind.scriptTask), ("id", .str "task"), ("script", .str "x"),
      ("resource", .null)],
    .object [("$type", .str "bpmn:FormalExpression"), ("language", .str "js"), ("body", .str "y")],
    .object [("$type", .str Kind.sequenceFlow), ("id", .str "flow"), ("conditionExpression", .node 1)],
    .list [.node 0, .node 2],
    .object [("$type", .str Kind.subProcess), ("id", .str "s"), ("flowElements", .list 3)],
    .object [("$type", .str "bpmn:FormalExpression"), ("body", .str "z")],
    .object [("$type", .str Kind.sequenceFlow), ("id", .str "bare"), ("conditionExpression", .node 5)],
    .list [.node 4, .node 6],
    .object [("$type", .str Kind.process), ("id", .str "p"), ("flowElements", .list 7)],
    .list [.node 8],
    .object [("$type", .str "bpmn:Definitions"), ("id", .str "d"), ("rootElements", .list 9)],
    .object [("rootElement", .node 10)]]

theorem tasks_scripting : ∀ place, scripting.IsA place Kind.scriptTask →
    (scripting.fields place).Distinct ∧
      ∀ p ∈ FlowElement.taskParts, (scripting.field place p.2).isName = true := by
  intro place htask
  have hbound : place < 12 := by
    by_contra hlarge
    have hnone : scripting.contents[place]? = none :=
      Array.getElem?_eq_none (Nat.le_of_not_lt hlarge)
    rw [Graph.IsA, Graph.field, Graph.fields, hnone] at htask
    cases htask
  have hfirst : ∀ p < 12, scripting.IsA p Kind.scriptTask → p = 0 := by decide
  obtain rfl := hfirst place hbound htask
  refine ⟨?_, by decide⟩
  rw [Fields.Distinct]
  decide

theorem scripts_scripting :
    ∃ m diary, (ofDocument scripting (.node 11) none).result = .ok (m, diary) ∧
      m.scripts.map (·.name) = ["task", "flow"] ∧
      ∃ root items visits, ∃ made : List (Visit × FlowElement),
        scripting.HasRoot (.node 11) root items ∧
        (∀ v, scripting.Visits root items v ↔ v = visits) ∧
        made.map (·.1) = visits.filter (fun v => scripting.IsListed v.place) ∧
        (∀ p ∈ made, p.2.Fits scripting p.1) ∧
        m.activities = made.filterMap (·.2.activity?) ∧ m.sequenceFlows = made.filterMap (·.2.flow?) ∧
        List.Forall₂ (fun p script => p.2.Owns script)
          (made.filter fun p => scripting.OwnsScript p.1.place) m.scripts := by
  have hrun : (ofDocument scripting (.node 11) none).result.toOption.any (fun made =>
      made.1.scripts.map (·.name) == ["task", "flow"]) = true := by
    decide +kernel
  cases hresult : (ofDocument scripting (.node 11) none).result with
  | error fault =>
    rw [hresult] at hrun
    cases hrun
  | ok made =>
    obtain ⟨m, diary⟩ := made
    simp only [hresult, Except.toOption, Option.any_some, beq_iff_eq] at hrun
    exact ⟨m, diary, rfl, hrun, scripts_of_ofDocument hresult tasks_scripting⟩

end MappedContext

end Bpmn
