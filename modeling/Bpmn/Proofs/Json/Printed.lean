import Bpmn.Proofs.Json.RoundTrip

namespace Bpmn.Json

/-- A line feed or a printable ASCII character. -/
def isPrinted (c : Char) : Bool := c == '\n' || (32 ≤ c.toNat && c.toNat < 127)

theorem isPrinted_of_isDigit {c : Char} (h : c.isDigit = true) : isPrinted c = true := by
  simp only [Char.isDigit, Bool.and_eq_true, decide_eq_true_eq, UInt32.le_iff_toNat_le] at h
  have hlow : 48 ≤ c.toNat := h.1
  have hhigh : c.toNat ≤ 57 := h.2
  simp [isPrinted, show 32 ≤ c.toNat by omega, show c.toNat < 127 by omega]

theorem isPrinted_hexDigit (n : Nat) : isPrinted (hexDigit n) = true := by
  have hall : ∀ k < 16, isPrinted (Nat.digitChar k) = true := by decide
  exact hall (n % 16) (Nat.mod_lt n (by decide))

theorem printed_unitEscape (u : Nat) : (unitEscape u).all isPrinted = true := by
  have hbackslash : isPrinted '\\' = true := rfl
  have hletter : isPrinted 'u' = true := rfl
  simp [unitEscape, isPrinted_hexDigit, hbackslash, hletter]

theorem printed_escape (c : Char) : (escape c).all isPrinted = true := by
  unfold escape
  split_ifs with _ _ _ _ _ _ _ hplain
  all_goals first
    | rfl
    | exact printed_unitEscape _
    | skip
  · simp [isPrinted, hplain]
  · rw [List.all_append, printed_unitEscape, printed_unitEscape]
    rfl

theorem printed_quoted (s : String) : (quoted s).all isPrinted = true := by
  have hquote : isPrinted '"' = true := rfl
  simp [quoted, hquote, List.all_flatMap, printed_escape]

theorem Numeral.printed_chars (n : Numeral) : n.chars.all isPrinted = true := by
  have digits {s : List Char} (h : ∀ c ∈ s, c.isDigit = true) : s.all isPrinted = true :=
    List.all_eq_true.mpr fun c hc => isPrinted_of_isDigit (h c hc)
  have hfraction : n.fractionChars.all isPrinted = true := by
    rw [fractionChars]
    split
    · rfl
    · rw [List.all_cons, digits n.fractionDigits]
      rfl
  have hpower : n.powerChars.all isPrinted = true := by
    rw [powerChars]
    cases n.power with
    | none => rfl
    | some p =>
      have hmark : isPrinted p.mark = true := by
        rcases p.isMark with h | h <;> rw [h] <;> rfl
      have hsign : (Power.signChars p.sign).all isPrinted = true := by
        cases p.sign with
        | none => rfl
        | some negative => cases negative <;> rfl
      simp only [Option.elim_some, Power.chars, List.all_cons, List.all_append, hmark, hsign, digits p.areDigits,
        Bool.and_true]
  have hunsigned : n.unsignedChars.all isPrinted = true := by
    simp only [unsignedChars, List.all_append, digits n.wholeDigits, hfraction, hpower, Bool.and_true]
  rw [chars, signed]
  split
  · rw [List.all_cons, hunsigned]
    rfl
  · exact hunsigned

variable {layout : Layout} {level : Nat}

namespace Layout

/-- A layout indents with printable characters. -/
def IsPrinted (layout : Layout) : Prop := ∀ pad ∈ layout.indent, pad.all isPrinted = true

theorem isPrinted_ofIndent (indent : Option Int) : (ofIndent indent).IsPrinted := by
  intro pad hpad
  cases indent with
  | none => cases hpad
  | some width =>
    obtain rfl := Option.some.inj hpad
    rw [List.all_eq_true]
    intro c hc
    rw [List.eq_of_mem_replicate hc]
    rfl

theorem printed_line (h : layout.IsPrinted) (level : Nat) : (layout.line level).all isPrinted = true := by
  rw [line]
  split
  · rfl
  · next pad hpad =>
    have hpads : (List.replicate level pad).flatten.all isPrinted = true := by
      rw [List.all_flatten, List.all_eq_true]
      intro part hpart
      rw [List.eq_of_mem_replicate hpart]
      exact h pad hpad
    rw [List.all_cons, hpads]
    rfl

theorem printed_comma (h : layout.IsPrinted) (level : Nat) : (layout.comma level).all isPrinted = true := by
  rw [comma]
  split
  · rfl
  · rw [List.all_cons, printed_line h]
    rfl

end Layout

theorem printed_items (hlayout : layout.IsPrinted) {items : List Json}
    (h : ∀ j ∈ items, (write layout level j).all isPrinted = true) :
    (write.items layout level items).all isPrinted = true := by
  induction items with
  | nil => rfl
  | cons item rest ih =>
    rw [write.items, List.all_append, List.all_append, Layout.printed_comma hlayout, h item List.mem_cons_self,
      ih fun j hj => h j (List.mem_cons_of_mem _ hj)]
    rfl

theorem printed_fields (hlayout : layout.IsPrinted) {fields : List (String × Json)}
    (h : ∀ p ∈ fields, (write layout level p.2).all isPrinted = true) :
    (write.fields layout level fields).all isPrinted = true := by
  induction fields with
  | nil => rfl
  | cons field rest ih =>
    obtain ⟨key, value⟩ := field
    have hvalue : (write layout level value).all isPrinted = true := h (key, value) List.mem_cons_self
    have hrest := ih fun p hp => h p (List.mem_cons_of_mem _ hp)
    simp only [write.fields, List.all_append, List.all_cons, Layout.printed_comma hlayout, printed_quoted, hvalue,
      hrest, Bool.and_true, Bool.true_and]
    rfl

/-- The written form of a sound value is printable. -/
theorem printed_write (hlayout : layout.IsPrinted) {j : Json} (h : j.Sound) :
    (write layout level j).all isPrinted = true := by
  induction h generalizing level with
  | null => rfl
  | bool b => cases b <;> rfl
  | num sound =>
    obtain ⟨numeral, -, hchars, -⟩ := numeral_text sound
    rw [write, ← hchars]
    exact numeral.printed_chars
  | str s => exact printed_quoted s
  | @arr items _ ih =>
    cases items with
    | nil => rfl
    | cons item rest =>
      have hitems : (write.items layout (level + 1) rest).all isPrinted = true :=
        printed_items hlayout fun j hj => ih j (List.mem_cons_of_mem _ hj)
      simp only [write, List.all_append, List.all_cons, Layout.printed_line hlayout,
        ih item List.mem_cons_self, hitems, Bool.and_true]
      rfl
  | @obj fields _ _ ih =>
    cases fields with
    | nil => rfl
    | cons field rest =>
      obtain ⟨key, value⟩ := field
      have hvalue : (write layout (level + 1) value).all isPrinted = true := ih (key, value) List.mem_cons_self
      have hfields : (write.fields layout (level + 1) rest).all isPrinted = true :=
        printed_fields hlayout fun p hp => ih p (List.mem_cons_of_mem _ hp)
      simp only [write, List.all_append, List.all_cons, Layout.printed_line hlayout, printed_quoted, hvalue,
        hfields, Bool.and_true, Bool.true_and]
      rfl

theorem printed_render {j : Json} (h : j.Sound) (indent : Option Int) :
    (j.render indent).toList.all isPrinted = true := by
  rw [render, renderIn, String.toList_ofList]
  exact printed_write (Layout.isPrinted_ofIndent indent) h

end Bpmn.Json
