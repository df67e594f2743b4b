import Bpmn.Proofs.Json.Limits
import Bpmn.Proofs.Json.RoundTrip
import Bpmn.Proofs.Model.Modes
import Bpmn.Proofs.Resolution.Declared

namespace Bpmn.MappedContext

variable {release : Release} {s : Snapshot} {j : Json} {r : Resolver}

/-- A snapshot is given as a text or as its bytes. -/
inductive Snapshot.Spells (text : String) : Snapshot → Prop where
  | text : Spells text (.text text)
  | bytes {b : ByteArray} (decoded : String.fromUTF8? b = some text) : Spells text (.bytes b)

/-- What reading back a text and reading back a value have in common: the context with its bindings, the
unknown type, or all issues with the snapshot. -/
inductive Agree : Except Fault MappedContext → Except Fault MappedContext → Prop where
  | restored (m : MappedContext) : Agree (.ok m) (.ok m)
  | unknownType (type : Json) : Agree (.error (.unknownType type)) (.error (.unknownType type))
  | unreadable (issues : List Issue) :
      Agree (.error (.unreadable .text issues)) (.error (.unreadable .value issues))

theorem Agree.isDeclared {x : Except Fault MappedContext} {fault : Fault} (h : Agree x (.error fault)) :
    fault.isDeclared = true := by
  cases h <;> rfl

theorem Snapshot.Spells.check {text : String} (h : s.Spells text)
    (hdenotes : Json.TextDenotes digitLimit Json.snapshotDepth text j) :
    s.origin = .text ∧ s.check release = Check.mappedContext (.text release) j := by
  have hread := Json.read?_of_textDenotes hdenotes
  cases h with
  | text =>
    refine ⟨rfl, ?_⟩
    rw [Snapshot.check, Snapshot.value?, hread]
    rfl
  | bytes decoded =>
    refine ⟨rfl, ?_⟩
    rw [Snapshot.check, Snapshot.value?, decoded, Option.bind_some, hread]
    rfl

theorem restore_of_check {given : MappedContext} (h : s.check release = .valid given) :
    (restore release s (some r)).result = (given.resolved (some r)).result := by
  rw [restore, Traced.result_bind, ofSnapshot, h]
  rfl

theorem not_refuses_of_restored {m given : MappedContext} (h : (restore release s (some r)).result = .ok m)
    (hcheck : s.check release = .valid given) (model : Model) : ¬ given.Refuses r model := by
  intro hrefuses
  have herror := restore_eq_error.mpr (.inr ⟨given, hcheck, hrefuses.resolve⟩)
  rw [h] at herror
  cases herror

/-- What a text denotes is read from it as from the value, if no flag in it is an integer that only a value could
have meant as one, and the release drops no raw field. -/
theorem mappedContext_of_alike
    (hflags : ∀ flow ∈ j.itemsUnder "sequence_flows", ∀ i : Int, flow.fieldOrNull "is_default" = .num (.int i) →
      -wordBound ≤ i → i < wordBound → i.natAbs < 10 ^ 18)
    (hkept : ∀ given, Check.mappedContext .value j = .valid given → given.KeptBy release) :
    Check.mappedContext (.text release) j = Check.mappedContext .value j := by
  have hagrees : ∀ flow ∈ j.itemsUnder "sequence_flows",
      Check.FlagAgrees (.text release) (flow.fieldOrNull "is_default") := by
    intro flow hflow i hi
    have hsmall := hflags flow hflow i hi
    have hbound : wordBound = 2 ^ 63 := rfl
    simp only [Mode.isSmall, Nat.pow_eq, ← Bool.decide_and, decide_eq_decide]
    omega
  rw [Check.mappedContext_mode hagrees]
  cases hgiven : Check.mappedContext .value j with
  | invalid issues => rfl
  | valid given => exact congrArg Checked.valid (hkept given hgiven).mapEntities

/-- A root alone, with a field beside it that no context has. -/
def rootWith (x : Json) : Json :=
  .obj [("x", x), ("definition", .obj [("type", .str "bpmn:Definitions")])]

/-- A field without blanks. -/
def field (name : String) (text : List Char) (item : Json) : Json.Member :=
  ⟨.bare _, name, Json.spellsString_quoted name, .bare text, item⟩

/-- A field with the written text of its value. -/
def writtenField (name : String) (item : Json) : Json.Member := field name (Json.write ⟨none⟩ 0 item) item

theorem denotes_writtenField {name : String} {item : Json} (hsound : item.Sound) {depth : Nat}
    (hdepth : item.depth ≤ depth) :
    Json.Denotes digitLimit depth (writtenField name item).value.text (writtenField name item).item :=
  Json.denotes_write (by rintro pad ⟨⟩) hsound hdepth

def rootField : Json.Member := writtenField "definition" (.obj [("type", .str "bpmn:Definitions")])

theorem denotes_rootField (depth : Nat) :
    Json.Denotes digitLimit (depth + 1) rootField.value.text rootField.item :=
  denotes_writtenField (by simp [Fields.Distinct, Fields.keys]) (by simp [Json.depth, Json.depthOfFields])

/-- A resolver that knows the root and some more. -/
def rootResolver : Resolver :=
  Resolver.ofTypes [("Definition", .str "D"), ("Process", .str "P"), ("ServiceTask", .str "T")]

/-- The number `1.5`. -/
def tenths : Json.Numeral where
  negative := false
  whole := ['1', '5']
  fraction := []
  power := some ⟨'e', some true, ['1'], .inl rfl, List.forall_mem_singleton.mpr rfl, by simp⟩
  wholeDigits := List.forall_mem_cons.mpr ⟨rfl, List.forall_mem_singleton.mpr rfl⟩
  fractionDigits := List.forall_mem_nil _
  nonempty := by simp
  noLeadingZero := .inl (by simp)

theorem spellsString_escaped :
    Json.SpellsString "x" ('"' :: (Json.unitEscape 'x'.toNat ++ [] ++ ['"'])) :=
  .quoted (.cons (.unit (by decide) (Json.spellsUnit_unitEscape _)) .nil)

/-- A key as an escape, and a number as so many tenths. -/
def escaped : Json.Member where
  key := ⟨[], _, [' '], Json.isBlank_nil, Json.isBlank_space⟩
  name := "x"
  spells := spellsString_escaped
  value := ⟨[' '], tenths.chars, [' '], Json.isBlank_space, Json.isBlank_space⟩
  item := .num (.float (Json.roundedFloat false ⟨15, -1⟩))

theorem not_agree_of_refused {text : String} (htext : Json.read? text = none)
    (hvalue : (restore release (.value j) (some r)).result.toOption.isSome = true) :
    ¬ Agree (restore release (.text text) (some r)).result (restore release (.value j) (some r)).result := by
  obtain ⟨m, hm⟩ := exists_ok_of_isSome hvalue
  have hcheck : (Snapshot.text text).check release = .wrong .badText := by
    rw [Snapshot.check, Snapshot.value?, htext]
  have hrefused := restore_eq_error (r := r).mpr (.inl ⟨_, hcheck, rfl⟩)
  rw [hm, hrefused]
  intro hagree
  cases hagree

/-- One, with so many zeros and a power of ten that takes them away. -/
def scaledOne (zeros : Nat) : Json.Numeral where
  negative := false
  whole := '1' :: List.replicate zeros '0'
  fraction := []
  power := some ⟨'e', some true, Nat.toDigits 10 zeros, .inl rfl, Digits.isDigit_toDigits,
    Nat.toDigits_ne_nil⟩
  wholeDigits := by simp
  fractionDigits := by simp
  nonempty := by simp
  noLeadingZero := .inl (by simp)

theorem value_scaledOne (zeros : Nat) :
    (scaledOne zeros).value = .float (Json.roundedFloat false ⟨1, 0⟩) := by
  have hdecimal : (scaledOne zeros).decimal = ⟨1 * 10 ^ zeros, 0 - zeros⟩ := by
    simp [Json.Numeral.decimal, scaledOne, Json.Power.value, Nat.ofDigitChars_cons]
  have hvalue : (scaledOne zeros).value =
      .float (Json.roundedFloat false (scaledOne zeros).decimal) := by
    rw [Json.Numeral.value, if_neg (by simp [scaledOne])]
    rfl
  rw [hvalue, hdecimal, Json.roundedFloat, Decimal.toMagnitude?_shift, Json.roundedFloat]

def objectText (members : List Json.Member) : String :=
  String.ofList ('{' :: (Json.listed (members.map (·.chars)) ++ ['}']))

theorem textDenotes_objectText {width depth : Nat} (members : List Json.Member) (hne : members ≠ [])
    (h : ∀ m ∈ members, Json.Denotes width depth m.value.text m.item) :
    Json.TextDenotes width (depth + 1) (objectText members)
      (.obj (Fields.ofPairs (members.map fun m => (m.name, m.item)))) :=
  ⟨.bare _, by simp [objectText], .object members hne h⟩

theorem read?_objectText {member : Json.Member} {members : List Json.Member}
    (hstarts : Json.Starts member.value.text)
    (h : ∀ size, Json.Refuses (Json.value .snapshot size 199) member.value.text) :
    Json.read? (objectText (member :: members)) = none :=
  Json.read?_refuses (Json.starts_cons _ (by decide))
    (Json.refuses_object [] member members (List.forall_mem_nil _) hstarts (h _))

section

variable {k : Nat}

/-- A text with the number one in so many digits and one more. -/
def longText (k : Nat) : String :=
  objectText [field "x" (scaledOne k).chars (.num (scaledOne k).value), rootField]

theorem textDenotes_longText (h : digitLimit ≤ k) :
    Json.TextDenotes (k + 1) 2 (longText k) (rootWith (.num (.float (Json.roundedFloat false ⟨1, 0⟩)))) := by
  have hlong : Json.Denotes (k + 1) 1 (scaledOne k).chars (.num (scaledOne k).value) :=
    .number _ (by simp [scaledOne])
  have hroot := (denotes_rootField 0).mono (Nat.le_succ_of_le h)
  have hdenotes := textDenotes_objectText [field "x" _ _, rootField] (by simp)
    (List.forall_mem_cons.mpr ⟨hlong, List.forall_mem_singleton.mpr hroot⟩)
  rw [← value_scaledOne k]
  exact hdenotes

theorem read?_longText (h : digitLimit ≤ k) : Json.read? (longText k) = none := by
  have hlong : digitLimit < (scaledOne k).whole.length := by
    simp only [scaledOne, List.length_cons, List.length_replicate]
    omega
  have hstarts : Json.Starts (scaledOne k).chars :=
    Json.starts_denotes (Json.Denotes.number (scaledOne k) (Nat.le_refl _) : Json.Denotes _ 0 _ _)
  exact read?_objectText hstarts fun size => Json.refuses_numeral _ hlong

/-- A text with so many lists inside one another, of which nothing remains as their field is given again. -/
def deepText (k : Nat) : String :=
  objectText [field "x" (Json.nestedText k) (Json.nested k), writtenField "x" (.num (.int 0)), rootField]

theorem textDenotes_deepText (h : 0 < k) :
    Json.TextDenotes digitLimit (k + 1) (deepText k) (rootWith (.num (.int 0))) := by
  obtain ⟨k, rfl⟩ := Nat.exists_eq_succ_of_ne_zero (Nat.ne_of_gt h)
  have hzero : Json.Denotes digitLimit (k + 1) (writtenField "x" (.num (.int 0))).value.text
      (.num (.int 0)) := denotes_writtenField (.num (Nat.le_of_ble_eq_true rfl)) (Nat.zero_le _)
  exact textDenotes_objectText [field "x" _ _, writtenField "x" _, rootField] (by simp)
    (List.forall_mem_cons.mpr ⟨Json.denotes_nested digitLimit (k + 1),
      List.forall_mem_cons.mpr ⟨hzero, List.forall_mem_singleton.mpr (denotes_rootField k)⟩⟩)

theorem read?_deepText (h : 199 < k) : Json.read? (deepText k) = none :=
  read?_objectText (Json.starts_denotes (Json.denotes_nested 0 k)) fun _ => Json.refuses_nested h

end

/-- A root and a field beside it. -/
def besideRoot (name : String) (item : Json) : Json :=
  .obj [("definition", .obj [("type", .str "bpmn:Definitions")]), (name, item)]

def textBesideRoot (name : String) (item : Json) : String := objectText [rootField, writtenField name item]

theorem textDenotes_besideRoot {name : String} {item : Json} {depth : Nat} (hname : name ≠ "definition")
    (hsound : item.Sound) (hdepth : item.depth ≤ depth + 1) :
    Json.TextDenotes digitLimit (depth + 2) (textBesideRoot name item) (besideRoot name item) := by
  have hdenotes := textDenotes_objectText [rootField, writtenField name item] (by simp)
    (List.forall_mem_cons.mpr ⟨denotes_rootField depth,
      List.forall_mem_singleton.mpr (denotes_writtenField hsound hdepth)⟩)
  have hpairs : Fields.ofPairs ([rootField, writtenField name item].map fun m => (m.name, m.item)) =
      [("definition", .obj [("type", .str "bpmn:Definitions")]), (name, item)] := by
    simp [Fields.ofPairs, Fields.update, Fields.put, rootField, writtenField, field, Ne.symm hname]
  rw [hpairs] at hdenotes
  exact hdenotes

/-- The raw fields of a restored context, or the codes of the issues with a snapshot. -/
def told : Except Fault MappedContext → List String
  | .ok m => m.bundles.flatMap (Fields.keys ·.extras)
  | .error (.unreadable _ issues) => issues.map (·.mismatch.code)
  | .error _ => []

theorem Agree.told_eq {x y : Except Fault MappedContext} (h : Agree x y) : told x = told y := by
  cases h <;> rfl

/-- What is told of a value in some mode. -/
def toldOf (mode : Mode) (resolver : Resolver) (j : Json) : List String :=
  match Check.mappedContext mode j with
  | .valid given => told (given.resolved (some resolver)).result
  | .invalid issues => issues.map (·.mismatch.code)

theorem not_agree_of_toldOf {text : String} (hdenotes : Json.TextDenotes digitLimit Json.snapshotDepth text j)
    (h : toldOf (.text release) r j ≠ toldOf .value r j) :
    ¬ Agree (restore release (.text text) (some r)).result (restore release (.value j) (some r)).result := by
  have htold {s : Snapshot} {mode : Mode} (hcheck : s.check release = Check.mappedContext mode j) :
      told (restore release s (some r)).result = toldOf mode r j := by
    rw [toldOf, ← hcheck]
    cases hgiven : s.check release with
    | valid given => rw [restore_of_check hgiven]
    | invalid issues =>
      rw [restore_eq_error.mpr (.inl ⟨issues, hgiven, rfl⟩)]
      rfl
  intro hagree
  have hsame := hagree.told_eq
  have hvalue : (Snapshot.value j).check release = Check.mappedContext .value j := rfl
  rw [htold (Snapshot.Spells.text.check hdenotes).2, htold hvalue] at hsame
  exact h hsame

/-- A process that calls for a service. -/
def callingItem : Json :=
  .arr [.obj [("type", .str "bpmn:ServiceTask"), ("behaviour", .obj [("implementation", .str "x")])]]

/-- A flow with a number of nineteen digits for a flag. -/
def flaggedItem : Json := .arr [.obj [("is_default", .num (.int 1000000000000000000))]]

/-- A process with a raw field under the second key of a member that is there under its first. -/
def doubledItem : Json :=
  .arr [.obj [("type", .str "bpmn:Process"),
    ("behaviour", .obj [("eventDefinitions", .null), ("event_definitions", .str "x")])]]

end Bpmn.MappedContext
