import Bpmn.Document.Copy
import Bpmn.Proofs.Json.Sound

namespace Bpmn

variable {P : Number → Prop}

/-- A value that leads to places below a bound, or an orderly one that leads nowhere. -/
def Value.Below (P : Number → Prop) (bound : Nat) : Value → Prop
  | .list place => place < bound
  | .node place => place < bound
  | .num n => P n
  | _ => True

/-- All values in it are below a bound, and no key is given twice. -/
def Content.Below (P : Number → Prop) (bound : Nat) : Content → Prop
  | .list items => ∀ v ∈ items, v.Below P bound
  | .object fields => Fields.Distinct fields ∧ ∀ p ∈ fields, p.2.Below P bound

theorem Value.Below.mono {v : Value} {bound more : Nat} (h : v.Below P bound) (hle : bound ≤ more) :
    v.Below P more := by
  cases v with
  | list place => exact Nat.lt_of_lt_of_le h hle
  | node place => exact Nat.lt_of_lt_of_le h hle
  | num n => exact h
  | _ => trivial

theorem Value.orderly_plain {v : Value} (h : v.Below P 0) : v.plain.Orderly P := by
  cases v with
  | null => exact .null
  | bool b => exact .bool b
  | str s => exact .str s
  | num n => exact .num h
  | list place => exact absurd h (Nat.not_lt_zero place)
  | node place => exact absurd h (Nat.not_lt_zero place)

namespace Graph

/-- Everything that stands at a place is below it. -/
def Layered (P : Number → Prop) (g : Graph) : Prop :=
  ∀ (place : Nat) (content : Content), g.contents[place]? = some content → content.Below P place

variable {g : Graph}

theorem layered_empty : empty.Layered P := by
  intro place content h
  simp [empty] at h

theorem Layered.push (hg : g.Layered P) {content : Content} (h : content.Below P g.contents.size) :
    (g.push content).1.Layered P := by
  intro place found hfound
  rw [Graph.push, Array.getElem?_push] at hfound
  split at hfound
  · next hplace =>
    obtain rfl := Option.some.inj hfound
    rw [hplace]
    exact h
  · exact hg place found hfound

theorem Layered.listed (hg : g.Layered P) (place : Nat) : ∀ v ∈ g.listed place, v.Below P place := by
  intro v hv
  rw [Graph.listed] at hv
  split at hv
  · next hitems => exact hg place _ hitems v hv
  · cases hv

theorem Layered.fields (hg : g.Layered P) (place : Nat) :
    Fields.Distinct (g.fields place) ∧ ∀ p ∈ g.fields place, p.2.Below P place := by
  rw [Graph.fields]
  split
  · next hfields => exact hg place _ hfields
  · refine ⟨Fields.distinct_nil, ?_⟩
    intro p hp
    cases hp

/-- There is nothing behind the last place. -/
theorem Layered.mem_fields (hg : g.Layered P) {place : Nat} {p : String × Value}
    (hp : p ∈ g.fields place) : p.2.Below P g.contents.size := by
  have hsize : place < g.contents.size := by
    rw [Graph.fields] at hp
    split at hp
    · next hfields => exact (Array.getElem?_eq_some_iff.mp hfields).1
    · cases hp
  exact ((hg.fields place).2 p hp).mono (Nat.le_of_lt hsize)

theorem Layered.field (hg : g.Layered P) (place : Nat) (key : String) :
    (g.field place key).Below P g.contents.size := by
  rw [Graph.field]
  cases hget : (g.fields place).get? key with
  | none => trivial
  | some v => exact hg.mem_fields (Fields.mem_of_get? hget)

/-- A layered graph, with a value in it, that has all the places of a former graph. -/
def Extends (P : Number → Prop) (g g' : Graph) : Prop :=
  g'.Layered P ∧ g.contents.size ≤ g'.contents.size

theorem addItems_extends {items : List Json}
    (hadd : ∀ j ∈ items, ∀ g : Graph, g.Layered P →
      g.Extends P (g.add j).1 ∧ (g.add j).2.Below P (g.add j).1.contents.size) (hg : g.Layered P) :
    g.Extends P (g.addItems items).1 ∧
      ∀ v ∈ (g.addItems items).2, v.Below P (g.addItems items).1.contents.size := by
  induction items generalizing g with
  | nil => exact ⟨⟨hg, Nat.le_refl _⟩, by simp [addItems]⟩
  | cons item rest ih =>
    obtain ⟨⟨hlayered, hsize⟩, hvalue⟩ := hadd item (by simp) g hg
    obtain ⟨⟨hlayered', hsize'⟩, hvalues⟩ := ih (fun j hj => hadd j (by simp [hj])) hlayered
    refine ⟨⟨hlayered', Nat.le_trans hsize hsize'⟩, ?_⟩
    intro v hv
    rcases List.mem_cons.mp hv with rfl | hv
    · exact hvalue.mono hsize'
    · exact hvalues v hv

theorem addFields_extends {fields : List (String × Json)}
    (hadd : ∀ p ∈ fields, ∀ g : Graph, g.Layered P →
      g.Extends P (g.add p.2).1 ∧ (g.add p.2).2.Below P (g.add p.2).1.contents.size) (hg : g.Layered P) :
    g.Extends P (g.addFields fields).1 ∧
      (∀ p ∈ (g.addFields fields).2, p.2.Below P (g.addFields fields).1.contents.size) ∧
      Fields.keys (g.addFields fields).2 = Fields.keys fields := by
  induction fields generalizing g with
  | nil => exact ⟨⟨hg, Nat.le_refl _⟩, by simp [addFields], rfl⟩
  | cons field rest ih =>
    obtain ⟨key, value⟩ := field
    obtain ⟨⟨hlayered, hsize⟩, hvalue⟩ := hadd (key, value) (by simp) g hg
    obtain ⟨⟨hlayered', hsize'⟩, hvalues, hkeys⟩ := ih (fun p hp => hadd p (by simp [hp])) hlayered
    refine ⟨⟨hlayered', Nat.le_trans hsize hsize'⟩, ?_, congrArg (key :: ·) hkeys⟩
    intro p hp
    rcases List.mem_cons.mp hp with rfl | hp
    · exact hvalue.mono hsize'
    · exact hvalues p hp

theorem push_extends {g' : Graph} {content : Content} (h : g.Extends P g')
    (hcontent : content.Below P g'.contents.size) :
    g.Extends P (g'.push content).1 ∧ (g'.push content).2 < (g'.push content).1.contents.size := by
  have hsize : (g'.push content).1.contents.size = g'.contents.size + 1 := Array.size_push content
  refine ⟨⟨h.1.push hcontent, ?_⟩, ?_⟩
  · have hle := h.2
    omega
  · rw [hsize]
    exact Nat.lt_succ_self _

/-- An orderly value is added behind what is in it. -/
theorem add_extends {j : Json} (hj : j.Orderly P) (hg : g.Layered P) :
    g.Extends P (g.add j).1 ∧ (g.add j).2.Below P (g.add j).1.contents.size := by
  induction hj generalizing g with
  | null => exact ⟨⟨hg, Nat.le_refl _⟩, trivial⟩
  | bool b => exact ⟨⟨hg, Nat.le_refl _⟩, trivial⟩
  | num orderly => exact ⟨⟨hg, Nat.le_refl _⟩, orderly⟩
  | str s => exact ⟨⟨hg, Nat.le_refl _⟩, trivial⟩
  | @arr items _ ih =>
    obtain ⟨hitems, hvalues⟩ := addItems_extends (fun j hj _ hg => ih j hj hg) hg
    rw [Graph.add]
    exact push_extends hitems hvalues
  | @obj fields distinct _ ih =>
    obtain ⟨hfields, hvalues, hkeys⟩ := addFields_extends (fun p hp _ hg => ih p hp hg) hg
    have hdistinct : Fields.Distinct (g.addFields fields).2 := by
      rw [Fields.Distinct, hkeys]
      exact distinct
    rw [Graph.add]
    exact push_extends hfields ⟨hdistinct, hvalues⟩

theorem layered_ofJson {j : Json} (hj : j.Orderly P) : (ofJson j).1.Layered P :=
  (add_extends hj layered_empty).1.1

end Graph

end Bpmn
