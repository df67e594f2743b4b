import Bpmn.Proofs.Json.Grammar
import Mathlib.Tactic.SplitIfs

namespace Bpmn.Json

theorem hexValue?_spelled {n : Nat} {c : Char} (h : SpellsDigit n c) : hexValue? c = some (n % 16) := by
  have hall : ∀ k < 16, hexValue? (Nat.digitChar k) = some k ∧
      hexValue? (Nat.digitChar k).toUpper = some k := by decide
  obtain ⟨hlower, hupper⟩ := hall (n % 16) (Nat.mod_lt n (by decide))
  rcases h with rfl | rfl
  · exact hlower
  · exact hupper

theorem unit?_spelled {u : Nat} {text : List Char} (hu : u < 0x10000) (h : SpellsUnit u text) :
    ∃ a b c d, text = ['\\', 'u', a, b, c, d] ∧ unit? a b c d = some u := by
  obtain ⟨first, second, third, fourth⟩ := h
  refine ⟨_, _, _, _, rfl, ?_⟩
  simp only [unit?, hexValue?_spelled first, hexValue?_spelled second, hexValue?_spelled third,
    hexValue?_spelled fourth]
  change some _ = some u
  congr 1
  omega

theorem spellsUnit_unitEscape (u : Nat) : SpellsUnit u (unitEscape u) :=
  .digits (.inl rfl) (.inl rfl) (.inl rfl) (.inl rfl)

theorem toNat_valid (c : Char) : c.toNat < 0xD800 ∨ (0xDFFF < c.toNat ∧ c.toNat < 0x110000) := c.valid

theorem single?_toNat (c : Char) : single? c.toNat = some c := by
  have hvalid := toNat_valid c
  rw [single?, if_neg (by omega), Char.ofNat_toNat]

theorem single?_high {u : Nat} (h : 0xD800 ≤ u ∧ u < 0xE000) : single? u = none := if_pos h

theorem pair?_units {c : Char} (h : ¬ c.toNat < 0x10000) :
    pair? (0xD800 + (c.toNat - 0x10000) / 1024) (0xDC00 + (c.toNat - 0x10000) % 1024) = some c := by
  have hvalid := toNat_valid c
  have hwhole : 0x10000 + (0xD800 + (c.toNat - 0x10000) / 1024 - 0xD800) * 1024 +
      (0xDC00 + (c.toNat - 0x10000) % 1024 - 0xDC00) = c.toNat := by omega
  rw [pair?, if_pos (by omega), hwhole, Char.ofNat_toNat]

variable {half : Option Char} {start tail acc : List Char}

theorem stringBody_unit {u : Nat} {c : Char} {text : List Char} (hu : u < 0x10000)
    (hc : single? u = some c) (hspells : SpellsUnit u text) (hne : tail ≠ []) :
    stringBody half start (text ++ tail) acc = stringBody half start tail (c :: acc) := by
  obtain ⟨_, _, _, _, rfl, hunit⟩ := unit?_spelled hu hspells
  have hempty : tail.isEmpty = false := by simpa using hne
  simp [stringBody, hempty, hunit, hc]

theorem stringBody_pair {u v : Nat} {c : Char} {high low : List Char} (hu : u < 0x10000)
    (hv : v < 0x10000) (hsingle : single? u = none) (hpair : pair? u v = some c)
    (hhigh : SpellsUnit u high) (hlow : SpellsUnit v low) (hne : tail ≠ []) :
    stringBody half start (high ++ (low ++ tail)) acc = stringBody half start tail (c :: acc) := by
  obtain ⟨_, _, _, _, rfl, hfirst⟩ := unit?_spelled hu hhigh
  obtain ⟨_, _, _, _, rfl, hsecond⟩ := unit?_spelled hv hlow
  cases tail with
  | nil => exact absurd rfl hne
  | cons next more => simp [stringBody, hfirst, hsecond, hsingle, hpair]

theorem stringBody_letter {e c : Char} (h : plainEscape? e = some c) :
    stringBody half start ('\\' :: e :: tail) acc = stringBody half start tail (c :: acc) := by
  rw [stringBody, h]
  rintro a b c d after rfl
  cases h

theorem stringBody_plain {c : Char} (hquote : c ≠ '"') (hslash : c ≠ '\\') (hc : 32 ≤ c.toNat) :
    stringBody half start (c :: tail) acc = stringBody half start tail (c :: acc) := by
  rw [stringBody, if_neg (by omega)]
  all_goals simp_all

/-- Whatever stands for a character is read as that character. -/
theorem stringBody_spelled {c : Char} {text : List Char} (h : SpellsChar c text) (hne : tail ≠ []) :
    stringBody half start (text ++ tail) acc = stringBody half start tail (c :: acc) := by
  have hvalid := toNat_valid c
  cases h with
  | plain quote backslash control => exact stringBody_plain quote backslash control
  | letter named => exact stringBody_letter named
  | unit small spells => exact stringBody_unit small (single?_toNat c) spells hne
  | pair large first second =>
    rw [List.append_assoc]
    exact stringBody_pair (by omega) (by omega) (single?_high (by omega)) (pair?_units (by omega))
      first second hne

theorem stringBody_chars {s text : List Char} (h : SpellsChars s text) (rest acc : List Char) :
    stringBody half start (text ++ '"' :: rest) acc = .ok (s.reverse ++ acc, rest) := by
  induction h generalizing acc with
  | nil =>
    rw [List.nil_append, stringBody]
    rfl
  | cons first _ ih =>
    rw [List.append_assoc, stringBody_spelled first (by simp), ih]
    simp

/-- A string is read from any of its spellings. -/
theorem stringText_spelled (half : Option Char) {s : String} {text : List Char} (h : SpellsString s text) :
    ∃ body, text = '"' :: body ∧ ∀ rest, stringText half (body ++ rest) = .ok (s, rest) := by
  obtain ⟨spells⟩ := h
  refine ⟨_, rfl, fun rest => ?_⟩
  rw [List.append_assoc, List.singleton_append, stringText, stringBody_chars spells]
  change Except.ok (String.ofList (s.toList.reverse ++ []).reverse, rest) = _
  simp

theorem spellsChar_escape (c : Char) : SpellsChar c (escape c) := by
  have hvalid := toNat_valid c
  rw [escape]
  split_ifs with hquote hslash hn hr ht hb hf hplain hsmall
  · rw [hquote]
    exact .letter rfl
  · rw [hslash]
    exact .letter rfl
  · rw [hn]
    exact .letter rfl
  · rw [hr]
    exact .letter rfl
  · rw [ht]
    exact .letter rfl
  · rw [hb]
    exact .letter rfl
  · rw [hf]
    exact .letter rfl
  · exact .plain hquote hslash hplain.1
  · exact .unit hsmall (spellsUnit_unitEscape _)
  · exact .pair (Nat.le_of_not_lt hsmall) (spellsUnit_unitEscape _) (spellsUnit_unitEscape _)

theorem spellsString_quoted (s : String) : SpellsString s (quoted s) := by
  have hchars (chars : List Char) : SpellsChars chars (chars.flatMap escape) := by
    induction chars with
    | nil => exact .nil
    | cons c chars ih => exact .cons (spellsChar_escape c) ih
  exact .quoted (hchars s.toList)

end Bpmn.Json
