import Bpmn.Proofs.Json.Complete
import Bpmn.Proofs.Json.Sound

namespace Bpmn.Json

namespace Layout

/-- A layout indents with blanks. -/
def IsBlank (layout : Layout) : Prop := ∀ pad ∈ layout.indent, ∀ c ∈ pad, isBlank c = true

variable {layout : Layout}

theorem isBlank_ofIndent (indent : Option Int) : (ofIndent indent).IsBlank := by
  intro pad hpad c hc
  cases indent with
  | none => cases hpad
  | some width =>
    obtain rfl := Option.some.inj hpad
    rw [List.eq_of_mem_replicate hc]
    rfl

theorem isBlank_line (h : layout.IsBlank) (level : Nat) : ∀ c ∈ layout.line level, isBlank c = true := by
  intro c hc
  rw [line] at hc
  split at hc
  · cases hc
  · next pad hpad =>
    rcases List.mem_cons.mp hc with rfl | hc
    · rfl
    · obtain ⟨part, hpart, hc⟩ := List.mem_flatten.mp hc
      rw [List.eq_of_mem_replicate hpart] at hc
      exact h pad hpad c hc

/-- A comma and blanks. -/
theorem comma_eq (h : layout.IsBlank) (level : Nat) :
    ∃ blanks, layout.comma level = ',' :: blanks ∧ ∀ c ∈ blanks, isBlank c = true := by
  rw [comma]
  split
  · exact ⟨[' '], rfl, isBlank_space⟩
  · exact ⟨_, rfl, isBlank_line h level⟩

end Layout

/-- A finite number is written as a numeral; only an integer may have a long whole part. -/
theorem numeral_text {n : Number} (h : n.Sound) : ∃ numeral : Numeral,
    numeral.whole.length ≤ digitLimit ∧ numeral.chars = n.text ∧ numeral.value = n := by
  cases n with
  | int i =>
    obtain ⟨numeral, hlength, hchars, hvalue⟩ := numeral_int i
    exact ⟨numeral, hlength ▸ h, hchars, hvalue⟩
  | float x =>
    cases x with
    | finite negative m =>
      obtain ⟨numeral, hlength, hchars, hvalue⟩ := m.spelledBy_text negative
      exact ⟨numeral, Nat.le_trans hlength (by decide), hchars, hvalue⟩
    | infinite negative => cases h
    | nan => cases h

section

variable {layout : Layout} {before after : List Char}

/-- Items that are written one after the other are the parts of a list. -/
theorem listed_write (hlayout : layout.IsBlank) (level : Nat) (item : Json) (rest : List Json)
    (hbefore : ∀ c ∈ before, isBlank c = true) (hafter : ∀ c ∈ after, isBlank c = true) :
    ∃ parts : List (Padded × Json), parts.map (·.2) = item :: rest ∧
      (∀ p ∈ parts, p.1.text = write layout level p.2) ∧
      listed (parts.map (·.1.chars)) =
        before ++ (write layout level item ++ (write.items layout level rest ++ after)) := by
  induction rest generalizing before item with
  | nil =>
    refine ⟨[(⟨before, write layout level item, after, hbefore, hafter⟩, item)], rfl, ?_, ?_⟩
    · simp
    · simp [listed_singleton, write.items, Padded.chars]
  | cons next rest ih =>
    obtain ⟨blanks, hcomma, hblanks⟩ := Layout.comma_eq hlayout level
    obtain ⟨parts, hitems, htexts, hlisted⟩ := ih next hblanks
    cases parts with
    | nil => cases hitems
    | cons part parts =>
      refine ⟨(⟨before, write layout level item, [], hbefore, isBlank_nil⟩, item) :: part :: parts, ?_, ?_, ?_⟩
      · rw [List.map_cons, hitems]
      · exact List.forall_mem_cons.mpr ⟨rfl, htexts⟩
      · rw [List.map_cons] at hlisted
        rw [List.map_cons, List.map_cons, listed_cons, hlisted]
        simp [write.items, hcomma, Padded.chars]

/-- Fields that are written one after the other are the members of an object. -/
theorem listed_writeFields (hlayout : layout.IsBlank) (level : Nat) (key : String) (item : Json)
    (rest : List (String × Json)) (hbefore : ∀ c ∈ before, isBlank c = true)
    (hafter : ∀ c ∈ after, isBlank c = true) :
    ∃ members : List Member, (members.map fun m => (m.name, m.item)) = (key, item) :: rest ∧
      (∀ m ∈ members, m.value.text = write layout level m.item) ∧
      listed (members.map (·.chars)) = before ++ (quoted key ++ (':' :: ' ' ::
        (write layout level item ++ (write.fields layout level rest ++ after)))) := by
  obtain ⟨keyed, hkeyed⟩ : ∃ keyed : Padded, keyed = ⟨before, quoted key, [], hbefore, isBlank_nil⟩ :=
    ⟨_, rfl⟩
  have hspells : SpellsString key keyed.text := hkeyed ▸ spellsString_quoted key
  induction rest generalizing before key item keyed with
  | nil =>
    refine ⟨[⟨keyed, key, hspells, ⟨[' '], write layout level item, after, isBlank_space, hafter⟩, item⟩], rfl,
      ?_, ?_⟩
    · simp
    · simp [listed_singleton, write.fields, Member.chars, Padded.chars, hkeyed]
  | cons next rest ih =>
    obtain ⟨name, value⟩ := next
    obtain ⟨blanks, hcomma, hblanks⟩ := Layout.comma_eq hlayout level
    obtain ⟨members, hfields, htexts, hlisted⟩ := ih name value hblanks _ rfl (spellsString_quoted name)
    cases members with
    | nil => cases hfields
    | cons member members =>
      refine ⟨⟨keyed, key, hspells, ⟨[' '], write layout level item, [], isBlank_space, isBlank_nil⟩, item⟩ ::
        member :: members, ?_, ?_, ?_⟩
      · rw [List.map_cons, hfields]
      · exact List.forall_mem_cons.mpr ⟨rfl, htexts⟩
      · rw [List.map_cons] at hlisted
        rw [List.map_cons, List.map_cons, listed_cons, hlisted]
        simp [write.fields, hcomma, Member.chars, Padded.chars, hkeyed]

variable {level depth : Nat} {rest : List Json} {fields : List (String × Json)}

/-- A written list denotes its items when their texts do. -/
theorem denotes_arr (hlayout : layout.IsBlank) {item : Json}
    (h : ∀ j ∈ item :: rest, Denotes digitLimit depth (write layout (level + 1) j) j) :
    Denotes digitLimit (depth + 1) (write layout level (.arr (item :: rest))) (.arr (item :: rest)) := by
  obtain ⟨parts, hitems, htexts, hlisted⟩ := listed_write hlayout (level + 1) item rest
    (Layout.isBlank_line hlayout (level + 1)) (Layout.isBlank_line hlayout level)
  have hne : parts ≠ [] := by
    rintro rfl
    cases hitems
  have heach : ∀ p ∈ parts, Denotes digitLimit depth p.1.text p.2 := by
    intro p hp
    rw [htexts p hp]
    exact h p.2 (hitems ▸ List.mem_map_of_mem hp)
  have hdenotes := Denotes.list parts hne heach
  rw [hitems, hlisted] at hdenotes
  simpa [write] using hdenotes

/-- A written object denotes its fields when the texts of their values do: its keys are distinct, so no
field is overwritten. -/
theorem denotes_obj (hlayout : layout.IsBlank) {key : String} {item : Json}
    (distinct : Fields.Distinct ((key, item) :: fields))
    (h : ∀ p ∈ (key, item) :: fields, Denotes digitLimit depth (write layout (level + 1) p.2) p.2) :
    Denotes digitLimit (depth + 1) (write layout level (.obj ((key, item) :: fields)))
      (.obj ((key, item) :: fields)) := by
  obtain ⟨members, hfields, htexts, hlisted⟩ := listed_writeFields hlayout (level + 1) key item fields
    (Layout.isBlank_line hlayout (level + 1)) (Layout.isBlank_line hlayout level)
  have hne : members ≠ [] := by
    rintro rfl
    cases hfields
  have heach : ∀ m ∈ members, Denotes digitLimit depth m.value.text m.item := by
    intro m hm
    rw [htexts m hm]
    exact h (m.name, m.item) (hfields ▸ List.mem_map_of_mem (f := fun m : Member => (m.name, m.item)) hm)
  have hdenotes := Denotes.object members hne heach
  rw [hfields, hlisted, Fields.ofPairs_of_distinct distinct] at hdenotes
  simpa [write] using hdenotes

/-- The text of a sound value denotes the value. -/
theorem denotes_write (hlayout : layout.IsBlank) {j : Json} (hsound : j.Sound) (hdepth : j.depth ≤ depth) :
    Denotes digitLimit depth (write layout level j) j := by
  induction hsound generalizing level depth with
  | null => exact .word (by simp [write, scalarWords])
  | bool b => cases b <;> exact .word (by simp [write, scalarWords])
  | num sound =>
    obtain ⟨numeral, hlength, hchars, hvalue⟩ := numeral_text sound
    rw [write, ← hchars, ← hvalue]
    exact .number numeral hlength
  | str s => exact .string (spellsString_quoted s)
  | @arr items each ih =>
    cases items with
    | nil => exact .emptyList isBlank_nil
    | cons item rest =>
      rw [Json.depth] at hdepth
      obtain ⟨depth, rfl⟩ := Nat.exists_eq_succ_of_ne_zero (by omega : depth ≠ 0)
      refine denotes_arr hlayout ?_
      intro j hj
      have hless := depth_le_of_mem hj
      exact ih j hj (by omega)
  | @obj fields distinct each ih =>
    cases fields with
    | nil => exact .emptyObject isBlank_nil
    | cons field rest =>
      obtain ⟨key, item⟩ := field
      rw [Json.depth] at hdepth
      obtain ⟨depth, rfl⟩ := Nat.exists_eq_succ_of_ne_zero (by omega : depth ≠ 0)
      refine denotes_obj hlayout distinct ?_
      intro p hp
      have hless := depth_le_of_mem_fields hp
      exact ih p hp (by omega)

/-- The text of a sound value denotes the value, if it is not nested too deep, whatever blanks stand behind
it. -/
theorem read?_render_append {j : Json} (hsound : j.Sound) (hdepth : j.depth ≤ snapshotDepth)
    (indent : Option Int) (hafter : ∀ c ∈ after, isBlank c = true) :
    read? (j.render indent ++ String.ofList after) = some j := by
  have hdenotes : Denotes digitLimit snapshotDepth (write (.ofIndent indent) 0 j) j :=
    denotes_write (Layout.isBlank_ofIndent indent) hsound hdepth
  refine read?_of_textDenotes ⟨⟨[], _, after, isBlank_nil, hafter⟩, ?_, hdenotes⟩
  simp [render, renderIn, Padded.chars]

theorem read?_render {j : Json} (hsound : j.Sound) (hdepth : j.depth ≤ snapshotDepth)
    (indent : Option Int) : read? (j.render indent) = some j := by
  have hread := read?_render_append hsound hdepth indent isBlank_nil
  rwa [String.ofList_nil, String.append_empty] at hread

theorem depthOfItems_le_length {items : List Json}
    (h : ∀ j ∈ items, j.depth ≤ (write layout level j).length) :
    depthOfItems items ≤ (write.items layout level items).length := by
  induction items with
  | nil => exact Nat.zero_le _
  | cons item rest ih =>
    have hitem := h item List.mem_cons_self
    have hrest := ih fun j hj => h j (List.mem_cons_of_mem _ hj)
    simp only [depthOfItems, write.items, List.length_append]
    omega

theorem depthOfFields_le_length {fields : List (String × Json)}
    (h : ∀ p ∈ fields, p.2.depth ≤ (write layout level p.2).length) :
    depthOfFields fields ≤ (write.fields layout level fields).length := by
  induction fields with
  | nil => exact Nat.zero_le _
  | cons field rest ih =>
    obtain ⟨key, value⟩ := field
    have hvalue : value.depth ≤ (write layout level value).length := h (key, value) List.mem_cons_self
    have hrest := ih fun p hp => h p (List.mem_cons_of_mem _ hp)
    simp only [depthOfFields, write.fields, List.length_append, List.length_cons]
    omega

/-- Every list and object takes a character at least. -/
theorem depth_le_length {j : Json} (h : j.Sound) : j.depth ≤ (write layout level j).length := by
  induction h generalizing level with
  | @arr items _ ih =>
    cases items with
    | nil => simp [depth, depthOfItems, write]
    | cons item rest =>
      have hitem : item.depth ≤ (write layout (level + 1) item).length := ih item List.mem_cons_self
      have hrest : depthOfItems rest ≤ (write.items layout (level + 1) rest).length :=
        depthOfItems_le_length fun j hj => ih j (List.mem_cons_of_mem _ hj)
      simp only [depth, depthOfItems, write, List.length_append, List.length_cons]
      omega
  | @obj fields _ _ ih =>
    cases fields with
    | nil => simp [depth, depthOfFields, write]
    | cons field rest =>
      obtain ⟨key, value⟩ := field
      have hvalue : value.depth ≤ (write layout (level + 1) value).length := ih (key, value) List.mem_cons_self
      have hrest : depthOfFields rest ≤ (write.fields layout (level + 1) rest).length :=
        depthOfFields_le_length fun p hp => ih p (List.mem_cons_of_mem _ hp)
      simp only [depth, depthOfFields, write, List.length_append, List.length_cons]
      omega
  | _ => exact Nat.zero_le _

/-- A document that has been written out is read back, however deep it is nested. -/
theorem parse_render {j : Json} (hsound : j.Sound) (indent : Option Int) :
    parse (j.render indent) = .ok j := by
  have htext : (j.render indent).toList = write (.ofIndent indent) 0 j := by
    rw [render, renderIn, String.toList_ofList]
  have hdenotes : Denotes digitLimit (j.render indent).toList.length (write (.ofIndent indent) 0 j) j :=
    denotes_write (Layout.isBlank_ofIndent indent) hsound (htext ▸ depth_le_length hsound)
  have hread (half : Option Char) :
      read (.document half) (j.render indent).toList.length (j.render indent).toList = .ok j :=
    read_of_textDenotes ⟨.bare _, by simpa using htext, hdenotes⟩ (Nat.le_refl _)
  rw [parse, hread, hread]

end

end Bpmn.Json
