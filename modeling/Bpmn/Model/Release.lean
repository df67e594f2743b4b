import Bpmn.Json.Reader

namespace Bpmn

/-- A release of what checks objects and writes them as values.  Releases differ in two things, so each of
them is told, and no more of them is known than all releases have in common. -/
structure Release where
  /-- Whether a field of a text under the second key of a member stays a raw field when the member is there
  under its first key.  Releases up to some day keep it, as all do in a value; later ones drop it. -/
  keepsSecond : Bool
  /-- Whether a value is written, or is nested too deep for that. -/
  writes : Json → Bool
  writes_of_depth_le : ∀ j : Json, j.depth ≤ Json.snapshotDepth → writes j = true

/-- What is read: a value, or a text by some release. -/
inductive Mode where
  | value
  | text (release : Release)

namespace Mode

/-- Whether an integer is small enough to be meant as a flag: a value holds it in a word of 64 bits, and a
text spells it with eighteen digits at most. -/
def isSmall : Mode → Int → Bool
  | value, i => -wordBound ≤ i && i < wordBound
  | text _, i => i.natAbs < Nat.pow 10 18

/-- Whether the second key of a member is raw beside its first key. -/
def keepsSecond : Mode → Bool
  | value => true
  | text release => release.keepsSecond

end Mode

namespace Release

/-- A release that keeps raw fields, and writes values nested up to some depth. -/
def keeping : Release where
  keepsSecond := true
  writes j := j.depth ≤ 255
  writes_of_depth_le j hj := decide_eq_true (Nat.le_trans hj (by decide))

/-- A later release. -/
def dropping : Release := { keeping with keepsSecond := false }

end Release

end Bpmn
