namespace Bpmn.Order

variable {α : Type} (below : α → α → Bool)

/-- How many items go on, each from the one before it, behind a first one. -/
def run (goesOn : α → α → Bool) (last : α) : List α → Nat
  | [] => 0
  | x :: rest => if goesOn last x then run goesOn x rest + 1 else 0

/-- The ordered items at the start of a list, turned round if they fall, and those behind them. -/
def start : List α → List α × List α
  | [] => ([], [])
  | x :: rest =>
    let falling := run (fun a b => below b a) x rest + 1
    if 1 < falling then (((x :: rest).take falling).reverse, (x :: rest).drop falling)
    else
      let rising := run (fun a b => !below b a) x rest + 1
      ((x :: rest).take rising, (x :: rest).drop rising)

/-- How many of some ordered items an item goes behind. -/
def place (x : α) (items : List α) : Nat :=
  match h : items.drop (items.length / 2) with
  | [] => 0
  | y :: above =>
    if below x y then place x (items.take (items.length / 2))
    else items.length / 2 + 1 + place x above
termination_by items.length
decreasing_by
  all_goals
    have shorter := congrArg List.length h
    simp +arith only [List.length_drop, List.length_take, List.length_cons] at shorter ⊢
    omega

def insert (ordered : List α) (x : α) : List α :=
  let i := place below x ordered
  ordered.take i ++ x :: ordered.drop i

/-- Puts a list in order by a comparison that may leave two items undecided.  The items that stand in order at the
start stay together; each further item goes where halving the ordered ones leads it. -/
def sort (items : List α) : List α :=
  let (ordered, rest) := start below items
  rest.foldl (insert below) ordered

end Bpmn.Order
