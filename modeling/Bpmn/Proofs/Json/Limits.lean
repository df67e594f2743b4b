import Bpmn.Proofs.Json.Sound
import Bpmn.Proofs.Json.Complete

namespace Bpmn.Json

/-- A step of reading takes no value from a text, whatever follows that may follow a value. -/
def Refuses (value : List Char → Reading (Json × List Char)) (text : List Char) : Prop :=
  ∀ rest, Ends rest → ∃ refusal, value (text ++ rest) = .error refusal

section

variable {value : List Char → Reading (Json × List Char)} {count : Nat} {tail : List Char}

theorem ends_close {blanks more : List Char} {c close : Char} (hblanks : ∀ c ∈ blanks, isBlank c = true)
    (hc : c = ',' ∨ c = close) (hclose : close = ']' ∨ close = '}') : Ends (blanks ++ c :: more) := by
  refine .append hblanks (ends_cons _ ?_)
  rcases hc with rfl | rfl
  · decide
  · rcases hclose with rfl | rfl
    · decide
    · decide

theorem arrayItems_refuses {before after : List (Padded × Json)} {part : Padded × Json}
    (hbefore : ∀ p ∈ before, Starts p.1.text ∧ ReadsBack value p.1.text p.2)
    (hstarts : Starts part.1.text) (h : Refuses value part.1.text) :
    ∃ refusal, arrayItems value count
      (skipBlank (listed ((before ++ part :: after).map (·.1.chars)) ++ ']' :: tail)) =
        .error refusal := by
  induction before generalizing count with
  | nil =>
    cases count with
    | zero => exact ⟨_, rfl⟩
    | succ count =>
      obtain ⟨c, more, hmore, hc⟩ := listed_append part.1.chars (after.map (·.1.chars)) ']' tail
      obtain ⟨refusal, hrefusal⟩ := h (part.1.after ++ c :: more)
        (ends_close part.1.blankAfter hc (.inl rfl))
      refine ⟨refusal, ?_⟩
      rw [List.nil_append, List.map_cons, hmore, part.1.skipBlank hstarts, arrayItems, hrefusal]
      rfl
  | cons first before ih =>
    cases count with
    | zero => exact ⟨_, rfl⟩
    | succ count =>
      obtain ⟨hfirst, hread⟩ := hbefore first (by simp)
      obtain ⟨refusal, hrefusal⟩ := @ih count fun p hp => hbefore p (List.mem_cons_of_mem _ hp)
      obtain ⟨next, later, hlater⟩ := List.exists_cons_of_ne_nil
        (List.append_ne_nil_of_right_ne_nil before (List.cons_ne_nil part after))
      have htext : listed ((first :: next :: later).map (·.1.chars)) ++ ']' :: tail =
          first.1.chars ++ ',' :: (listed ((next :: later).map (·.1.chars)) ++ ']' :: tail) :=
        listed_cons_append _ _ _ _
      rw [hlater] at hrefusal
      refine ⟨refusal, ?_⟩
      rw [List.cons_append, hlater, htext, arrayItems_next hfirst hread, hrefusal]
      rfl

variable {dialect : Dialect}

theorem objectFields_refuses {before after : List Member} {member : Member}
    (hbefore : ∀ m ∈ before, Starts m.value.text ∧ ReadsBack value m.value.text m.item)
    (hstarts : Starts member.value.text) (h : Refuses value member.value.text) :
    ∃ refusal, objectFields dialect value count
      (skipBlank (listed ((before ++ member :: after).map (·.chars)) ++ '}' :: tail)) =
        .error refusal := by
  induction before generalizing count with
  | nil =>
    cases count with
    | zero => exact ⟨_, rfl⟩
    | succ count =>
      obtain ⟨c, more, hmore, hc⟩ := listed_append member.chars (after.map (·.chars)) '}' tail
      obtain ⟨refusal, hrefusal⟩ := h (member.value.after ++ c :: more)
        (ends_close member.value.blankAfter hc (.inr rfl))
      obtain ⟨body, hskip, hname⟩ := member.skipBlank dialect (c :: more)
      have hcolon : skipBlank (member.key.after ++ ':' :: (member.value.chars ++ c :: more)) =
          ':' :: (member.value.chars ++ c :: more) := skipBlank_break member.key.blankAfter rfl
      refine ⟨refusal, ?_⟩
      rw [List.nil_append, List.map_cons, hmore, hskip]
      simp only [objectFields, hname, bind_of_ok, hcolon, member.value.skipBlank hstarts, hrefusal]
      rfl
  | cons first before ih =>
    cases count with
    | zero => exact ⟨_, rfl⟩
    | succ count =>
      obtain ⟨hfirst, hread⟩ := hbefore first (by simp)
      obtain ⟨refusal, hrefusal⟩ := @ih count fun m hm => hbefore m (List.mem_cons_of_mem _ hm)
      obtain ⟨next, later, hlater⟩ := List.exists_cons_of_ne_nil
        (List.append_ne_nil_of_right_ne_nil before (List.cons_ne_nil member after))
      have htext : listed ((first :: next :: later).map (·.chars)) ++ '}' :: tail =
          first.chars ++ ',' :: (listed ((next :: later).map (·.chars)) ++ '}' :: tail) :=
        listed_cons_append _ _ _ _
      rw [hlater] at hrefusal
      refine ⟨refusal, ?_⟩
      rw [List.cons_append, hlater, htext, objectFields_next hfirst hread, hrefusal]
      rfl

end

section

variable {dialect : Dialect} {size depth : Nat}

/-- A list is refused with one of its items. -/
theorem refuses_list (before : List (Padded × Json)) (part : Padded × Json)
    (after : List (Padded × Json))
    (hbefore : ∀ p ∈ before, Starts p.1.text ∧ ReadsBack (value dialect size depth) p.1.text p.2)
    (hstarts : Starts part.1.text) (h : Refuses (value dialect size depth) part.1.text) :
    Refuses (value dialect size (depth + 1))
      ('[' :: (listed ((before ++ part :: after).map (·.1.chars)) ++ [']'])) := by
  intro rest _
  have hfirst : ∀ p ∈ (before ++ part :: after).head?, Starts p.1.text := by
    intro p hp
    cases before with
    | nil => exact Option.some.inj hp ▸ hstarts
    | cons first before => exact Option.some.inj hp ▸ (hbefore first (by simp)).1
  have hitems : ∃ refusal, arrayItems (value dialect size depth) size
      (skipBlank (listed ((before ++ part :: after).map (·.1.chars)) ++ ']' :: rest)) = .error refusal :=
    arrayItems_refuses hbefore hstarts h
  obtain ⟨refusal, hrefusal⟩ := hitems
  refine ⟨refusal, ?_⟩
  rw [value_list (by simp) hfirst, hrefusal]
  rfl

/-- An object is refused with the value of one of its members, also when its key is given again. -/
theorem refuses_object (before : List Member) (member : Member) (after : List Member)
    (hbefore : ∀ m ∈ before,
      Starts m.value.text ∧ ReadsBack (value dialect size depth) m.value.text m.item)
    (hstarts : Starts member.value.text) (h : Refuses (value dialect size depth) member.value.text) :
    Refuses (value dialect size (depth + 1))
      ('{' :: (listed ((before ++ member :: after).map (·.chars)) ++ ['}'])) := by
  intro rest _
  have hfields : ∃ refusal, objectFields dialect (value dialect size depth) size
      (skipBlank (listed ((before ++ member :: after).map (·.chars)) ++ '}' :: rest)) = .error refusal :=
    objectFields_refuses hbefore hstarts h
  obtain ⟨refusal, hrefusal⟩ := hfields
  refine ⟨refusal, ?_⟩
  rw [value_object (by simp), hrefusal]
  rfl

/-- A number with a whole part that is too long is refused in a snapshot, whatever its value. -/
theorem refuses_numeral (n : Numeral) (hlength : digitLimit < n.whole.length) :
    Refuses (value .snapshot size depth) n.chars := by
  intro rest hends
  have hlong : Dialect.snapshot.isTooLong n.whole.length n.value = true := decide_eq_true hlength
  rw [value_numeral, number_numeral n hends, if_pos hlong]
  exact ⟨_, rfl⟩

/-- So many lists around an empty one. -/
def nested : Nat → Json
  | 0 => .arr []
  | k + 1 => .arr [nested k]

theorem orderly_nested {P : Number → Prop} (k : Nat) : (nested k).Orderly P := by
  induction k with
  | zero => exact .arr (List.forall_mem_nil _)
  | succ k ih => exact .arr (List.forall_mem_singleton.mpr ih)

theorem depth_nested (k : Nat) : (nested k).depth = k + 1 := by
  induction k with
  | zero => rfl
  | succ k ih => simp [nested, depth, depthOfItems, ih]

def nestedText : Nat → List Char
  | 0 => ['[', ']']
  | k + 1 => '[' :: (nestedText k ++ [']'])

theorem denotes_nested (width k : Nat) : Denotes width k (nestedText k) (nested k) := by
  induction k with
  | zero => exact .emptyList isBlank_nil
  | succ k ih =>
    have hlist := Denotes.list [(Padded.bare (nestedText k), nested k)] (by simp)
      (List.forall_mem_singleton.mpr ih)
    simpa [nestedText, nested, listed_singleton] using hlist

/-- Lists that are nested deeper than the limit are refused. -/
theorem refuses_nested {k : Nat} (h : depth < k) : Refuses (value dialect size depth) (nestedText k) := by
  induction depth generalizing k with
  | zero =>
    obtain ⟨k, rfl⟩ := Nat.exists_eq_succ_of_ne_zero (Nat.ne_of_gt h)
    intro rest _
    have hinner : skipBlank (nestedText k ++ ([']'] ++ rest)) = nestedText k ++ ([']'] ++ rest) :=
      (starts_denotes (denotes_nested 0 k)).skipBlank _
    obtain ⟨c, tail, htext, -, hbracket, -⟩ := starts_denotes (denotes_nested 0 k)
    refine ⟨⟨.tooDeep, nestedText (k + 1) ++ rest⟩, ?_⟩
    rw [nestedText, List.cons_append, List.append_assoc, value, hinner]
    split
    · next after hclose =>
      rw [htext] at hclose
      exact absurd (List.cons.inj hclose).1 hbracket
    · rfl
  | succ depth ih =>
    obtain ⟨k, rfl⟩ := Nat.exists_eq_succ_of_ne_zero (Nat.ne_of_gt (Nat.zero_lt_of_lt h))
    have hinner := ih (Nat.lt_of_succ_lt_succ h)
    have hlist := refuses_list [] (Padded.bare (nestedText k), nested k) [] (List.forall_mem_nil _)
      (starts_denotes (denotes_nested 0 k)) hinner
    rw [List.nil_append, List.map_singleton, listed_singleton, Padded.chars_bare] at hlist
    exact hlist

theorem read?_refuses {text : List Char} (hstarts : Starts text)
    (h : Refuses (value .snapshot text.length snapshotDepth) text) : read? (String.ofList text) = none := by
  obtain ⟨refusal, hrefusal⟩ := h [] ends_nil
  rw [List.append_nil] at hrefusal
  have hskip := hstarts.skipBlank []
  rw [List.append_nil] at hskip
  obtain ⟨c, tail, rfl, -, -, -, hmark⟩ := hstarts
  rw [read?, String.toList_ofList]
  unfold read
  split
  · rfl
  · rw [hskip, hrefusal]
    rfl

end

end Bpmn.Json
