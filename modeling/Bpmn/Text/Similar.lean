namespace Bpmn.Text

def commonPrefix : List Char → List Char → Nat
  | a :: as, b :: bs => if a = b then commonPrefix as bs + 1 else 0
  | _, _ => 0

/-- A block that starts at some places of two texts. -/
structure Block where
  left : Nat
  right : Nat
  size : Nat

/-- The longest common block, the first of several in the first text, then in the second. -/
def longestBlock (a b : List Char) : Block :=
  (List.range a.length).foldl (fun best i =>
    (List.range b.length).foldl (fun best j =>
      let size := commonPrefix (a.drop i) (b.drop j)
      if best.size < size then ⟨i, j, size⟩ else best) best) ⟨0, 0, 0⟩

/-- The number of matching characters. -/
def matching (a b : List Char) : Nat :=
  match longestBlock a b with
  | ⟨left, right, size⟩ =>
    if 0 < size ∧ left < a.length then
      matching (a.take left) (b.take right) + size +
        matching (a.drop (left + size)) (b.drop (right + size))
    else 0
termination_by a.length
decreasing_by
  all_goals simp only [List.length_take, List.length_drop]; omega

/-- The share of matching characters, as a fraction. -/
def similarity (a b : String) : Nat × Nat :=
  (2 * matching a.toList b.toList, a.length + b.length)

/-- Whether the first of two fractions is at least the second. -/
def atLeast (x y : Nat × Nat) : Bool := y.1 * x.2 ≤ x.1 * y.2

/-- At most the whole of the shorter text matches. -/
def similarityBound (a b : String) : Nat × Nat :=
  (2 * min a.length b.length, a.length + b.length)

/-- The three most similar candidates of those at least three fifths similar, the best first.  A
candidate whose length alone rules it out is not compared. -/
def closeMatches (word : String) (candidates : List String) : List String :=
  let possible := candidates.filter fun c => atLeast (similarityBound c word) (3, 5)
  let scored := possible.map fun c => (similarity c word, c)
  let close := scored.filter fun (score, _) => atLeast score (3, 5)
  let sorted := close.mergeSort fun x y =>
    if atLeast x.1 y.1 && atLeast y.1 x.1 then decide (y.2 ≤ x.2) else atLeast x.1 y.1
  (sorted.take 3).map (·.2)

end Bpmn.Text
