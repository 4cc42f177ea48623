import Mathlib.Data.List.Induction
import Offside.Config.Codec
import Offside.Proofs.Margins
import Offside.Proofs.Storage

/-!
# The ways to a tab width

A tab width comes from a host's setting (`Tabs.ofSetting`), from a configuration as a number or as
text (`TabSize.width`), or from a stored convention (`Tabs.ofJson?`). Each way has its own guard
against widths that make no sense, and all of them agree (`tabWidths_agree`).

What a text says is stated without the readers: a numeral is a digit, or a numeral with one more
digit behind it (`Numeral`), and an unsigned number is a numeral that may have a plus sign in front
(`Unsigned`). The readers take these texts and no others (`readDigits_eq_some_iff`,
`readUnsigned_eq_some_iff`).
-/

namespace Offside

open Offside.Text

namespace Text

/-! ## Numerals -/

/-- The text writes the number in decimal digits. -/
inductive Numeral : List Char → Nat → Prop where
  | digit {d : Char} (h : d.isDigit = true) : Numeral [d] (d.toNat - '0'.toNat)
  | more {s : List Char} {n : Nat} {d : Char} (front : Numeral s n) (h : d.isDigit = true) :
    Numeral (s ++ [d]) (10 * n + (d.toNat - '0'.toNat))

/-- The text writes the number in decimal digits, with one plus sign in front of them or none. -/
def Unsigned (s : List Char) (n : Nat) : Prop :=
  Numeral s n ∨ ∃ digits, s = '+' :: digits ∧ Numeral digits n

variable {s digits : List Char} {n : Nat} {c : Char}

theorem Numeral.isDigit_of_mem (h : Numeral s n) : ∀ c ∈ s, c.isDigit = true := by
  induction h with
  | digit hd => exact List.forall_mem_singleton.mpr hd
  | more _ hd ih => exact List.forall_mem_append.mpr ⟨ih, List.forall_mem_singleton.mpr hd⟩

theorem Numeral.ne_nil (h : Numeral s n) : s ≠ [] := by
  cases h with
  | digit => exact List.cons_ne_nil _ _
  | more => exact List.append_ne_nil_of_right_ne_nil _ (List.cons_ne_nil _ _)

theorem Numeral.ofDigitChars_eq (h : Numeral s n) : Nat.ofDigitChars 10 s 0 = n := by
  induction h with
  | digit => rw [Nat.ofDigitChars_cons, Nat.ofDigitChars_nil, Nat.mul_zero, Nat.zero_add]
  | more _ _ ih => rw [Nat.ofDigitChars_append, ih, Nat.ofDigitChars_cons, Nat.ofDigitChars_nil]

theorem numeral_of_digits (hne : s ≠ []) (hdigits : ∀ c ∈ s, c.isDigit = true) :
    Numeral s (Nat.ofDigitChars 10 s 0) := by
  induction s using List.reverseRecOn with
  | nil => exact absurd rfl hne
  | append_singleton s d ih =>
    obtain ⟨hfront, hd⟩ := List.forall_mem_append.mp hdigits
    rw [List.forall_mem_singleton] at hd
    rw [Nat.ofDigitChars_append, Nat.ofDigitChars_cons, Nat.ofDigitChars_nil]
    rcases eq_or_ne s [] with rfl | hs
    · rw [Nat.ofDigitChars_nil, Nat.mul_zero, Nat.zero_add]
      exact .digit hd
    · exact .more (ih hs hfront) hd

theorem readDigits_eq_some_iff : readDigits s = some n ↔ Numeral s n := by
  rw [readDigits]
  constructor
  · intro h
    split at h
    · cases h
    · next hread =>
      cases h
      rw [Bool.or_eq_true, not_or, List.isEmpty_iff, Bool.not_eq_true', Bool.not_eq_false,
        List.all_eq_true] at hread
      exact numeral_of_digits hread.1 hread.2
  · intro h
    have hall : s.all Char.isDigit = true := List.all_eq_true.mpr h.isDigit_of_mem
    have hne : s.isEmpty = false := List.isEmpty_eq_false_iff.mpr h.ne_nil
    simp [hall, hne, h.ofDigitChars_eq]

theorem numeral_dropPlus_iff : Numeral (dropPlus s) n ↔ Unsigned s n := by
  unfold dropPlus
  split
  · next digits =>
    constructor
    · intro h
      exact .inr ⟨digits, rfl, h⟩
    · rintro (h | ⟨_, ⟨⟩, h⟩)
      · cases h.isDigit_of_mem '+' List.mem_cons_self
      · exact h
  · next hplus =>
    constructor
    · exact .inl
    · rintro (h | ⟨digits, rfl, _⟩)
      · exact h
      · exact absurd rfl (hplus digits)

theorem readUnsigned_eq_some_iff :
    readUnsigned s = some n ↔ Unsigned s n ∧ n ≤ maxUnsigned := by
  rw [readUnsigned, Option.filter_eq_some_iff, decide_eq_true_eq, readDigits_eq_some_iff,
    numeral_dropPlus_iff]

theorem not_isBlank_of_isDigit (h : c.isDigit = true) : isBlank c = false := by
  have hcodes : ∀ code ≤ '9'.toNat, '0'.toNat ≤ code → blankRanges.has code = false := by
    decide +kernel
  obtain ⟨hlow, hhigh⟩ := Char.isDigit_iff_toNat.mp h
  exact hcodes c.toNat hhigh hlow

end Text

/-! ## Widths as they are written -/

namespace TabSize

variable {s : String} {n : Nat}

/-- A text that writes a positive unsigned number stands for it. -/
theorem width_text (hpos : 0 < n) (hmax : n ≤ maxUnsigned) (h : Unsigned (trim s.toList) n) :
    (text s).width = n := by
  rw [width, readUnsigned_eq_some_iff.mpr ⟨h, hmax⟩, Option.filter_some,
    if_pos (decide_eq_true hpos), Option.getD_some]

/-- Any other text stands for the default width. -/
theorem width_text_of_not (h : ∀ n, Unsigned (trim s.toList) n → n = 0 ∨ maxUnsigned < n) :
    (text s).width = defaultWidth := by
  have hnone : (readUnsigned (trim s.toList)).filter (0 < ·) = none := by
    rw [Option.filter_eq_none_iff]
    intro n hread
    obtain ⟨hunsigned, hmax⟩ := readUnsigned_eq_some_iff.mp hread
    have := h n hunsigned
    simp only [decide_eq_true_eq]
    omega
  rw [width, hnone, Option.getD_none]

theorem unsigned_toDigits (n : Nat) : Unsigned (Nat.toDigits 10 n) n :=
  .inl (readDigits_eq_some_iff.mp (readDigits_toDigits n))

/-- Digits are not blank, and neither is a minus sign in front of them. -/
theorem trim_repr (n : Int) : trim n.repr.toList = n.repr.toList := by
  have hdigits (n : Nat) : ∀ c ∈ Nat.toDigits 10 n, isBlank c = false := fun c hc =>
    not_isBlank_of_isDigit (Nat.isDigit_of_mem_toDigits (by decide) (by decide) hc)
  apply trim_of_not_blank
  obtain n | n := n
  · rw [Json.repr_ofNat_toList]
    exact hdigits n
  · rw [Json.repr_negSucc_toList]
    exact List.forall_mem_cons.mpr ⟨by decide, hdigits (n + 1)⟩

/-- A number stands for the same width as its decimal text. -/
theorem width_repr {n : Int} (hn : n ≤ maxUnsigned) : (number n).width = (text n.repr).width := by
  rw [width, width, trim_repr]
  obtain n | n := n
  · have hread : readUnsigned (Nat.toDigits 10 n) = some n :=
      readUnsigned_eq_some_iff.mpr ⟨unsigned_toDigits n, Int.ofNat_le.mp hn⟩
    rw [Json.repr_ofNat_toList, hread, Option.filter_some]
    cases n with
    | zero => rfl
    | succ n =>
      have hpos : 0 < Int.ofNat (n + 1) := Int.natCast_pos.mpr n.succ_pos
      rw [if_pos hpos, if_pos (decide_eq_true n.succ_pos)]
      rfl
  · have hread : readUnsigned ('-' :: Nat.toDigits 10 (n + 1)) = none := rfl
    rw [Json.repr_negSucc_toList, hread]
    rfl

end TabSize

/-! ## Conventions -/

namespace Tabs

variable {tabs : Tabs}

theorem ofWidth_eq {width : Nat} (h : 0 < width) (hard : Bool) :
    ofWidth width hard = ⟨width, hard⟩ := by
  rw [ofWidth, if_neg (Nat.ne_of_gt h)]

/-- A host's setting gives the convention that a configuration with the same text gives. -/
theorem ofSetting_eq (s : String) (insertSpaces : Bool) :
    ofSetting (some s.toList) insertSpaces = ⟨(TabSize.text s).width, !insertSpaces⟩ := by
  rw [ofSetting, Option.bind_some, TabSize.width]
  rcases readUnsigned (trim s.toList) with _ | _ | n <;> rfl

/-- A width of zero measures like the default width. -/
theorem units_ofWidth (tabs : Tabs) (blanks : Nat) :
    (ofWidth tabs.width tabs.hard).units blanks = tabs.units blanks := by
  have hwidth : (ofWidth tabs.width tabs.hard).effectiveWidth = tabs.effectiveWidth := by
    rw [effectiveWidth, if_neg (Nat.ne_of_gt (ofWidth_width_pos ..))]
    rfl
  rw [units, units, hwidth]
  rfl

theorem ofJson?_toJson (h : tabs.width ≤ maxUnsigned) :
    ofJson? tabs.toJson = some (ofWidth tabs.width tabs.hard) := by
  simp [toJson, ofJson?, Json.required?, Json.member?, Json.bool?, List.lookup_cons,
    Json.unsigned?_nat h]

theorem whole_toJson (tabs : Tabs) : tabs.toJson.Whole := by
  refine .obj ?_
  simp only [List.forall_mem_cons]
  exact ⟨.nat _, .bool _, nofun⟩

/-- A convention is read back from its JSON text, zero replaced by the default width. -/
theorem ofJson?_render (h : tabs.width ≤ maxUnsigned) :
    (Json.read? tabs.toJson.render.toList).bind ofJson? = some (ofWidth tabs.width tabs.hard) := by
  rw [Json.read?_render tabs.whole_toJson, Option.bind_some, ofJson?_toJson h]

end Tabs

/-- **All ways to a tab width agree.** A host's setting and a configuration with the same text give
the same convention. A number of 64 binary digits stands for the same width as its decimal text. The
width that a text stands for is never zero: it is the number that the text writes without the blanks
around it, if it is an unsigned one from 1 to `maxUnsigned`, and otherwise 4. And a convention that
is stored and read again has a width, even if it had none, and measures as before. -/
theorem tabWidths_agree :
    (∀ (s : String) (insertSpaces : Bool) (window : Nat) (method : CountMethod),
      Tabs.ofSetting (some s.toList) insertSpaces =
        (⟨.text s, !insertSpaces, window, method⟩ : Config).tabs) ∧
    (∀ n : Int, minSigned ≤ n → n ≤ maxSigned →
      (TabSize.number n).width = (TabSize.text n.repr).width) ∧
    (∀ (s : String) (insertSpaces : Bool),
      let width := (Tabs.ofSetting (some s.toList) insertSpaces).width
      width = (TabSize.text s).width ∧ 0 < width ∧
      (∀ n, 0 < n → n ≤ maxUnsigned → Unsigned (trim s.toList) n → width = n) ∧
      ((∀ n, Unsigned (trim s.toList) n → n = 0 ∨ maxUnsigned < n) → width = 4)) ∧
    ∀ tabs : Tabs, tabs.width ≤ maxUnsigned → ∃ back : Tabs,
      (Json.read? tabs.toJson.render.toList).bind Tabs.ofJson? = some back ∧
      0 < back.width ∧ back.hard = tabs.hard ∧ ∀ blanks, back.units blanks = tabs.units blanks := by
  refine ⟨fun s insertSpaces window method => ?_, fun n _ hn => ?_, fun s insertSpaces => ?_,
    fun tabs htabs => ?_⟩
  · rw [Tabs.ofSetting_eq]
    exact (Tabs.ofWidth_eq (TabSize.width_pos _) _).symm
  · have hmax : maxSigned ≤ maxUnsigned := by decide
    exact TabSize.width_repr (Int.le_trans hn hmax)
  · rw [Tabs.ofSetting_eq]
    exact ⟨rfl, (TabSize.text s).width_pos, fun n => TabSize.width_text, TabSize.width_text_of_not⟩
  · exact ⟨_, Tabs.ofJson?_render htabs, Tabs.ofWidth_width_pos .., rfl, tabs.units_ofWidth⟩

/-- A number with a sign, leading zeros and blanks around it, one that is too large by one, the
least signed number, and a convention without a width. -/
theorem tabWidths_agree_odd :
    Unsigned (trim "\u3000+007\t".toList) 7 ∧ (TabSize.text "\u3000+007\t").width = 7 ∧
      (TabSize.text "18446744073709551616").width = 4 ∧
      (TabSize.number minSigned).width = (TabSize.text "-9223372036854775808").width ∧
      ∃ back : Tabs, (Json.read? (Tabs.toJson ⟨0, false⟩).render.toList).bind Tabs.ofJson? =
        some back ∧ 0 < back.width ∧ back.units 5 = 2 := by
  obtain ⟨_, hnumbers, htexts, hstored⟩ := tabWidths_agree
  have hseven : Unsigned (trim "\u3000+007\t".toList) 7 :=
    (readUnsigned_eq_some_iff.mp (by decide +kernel)).1
  have hlarge : ∀ n, Unsigned (trim "18446744073709551616".toList) n → n = 0 ∨ maxUnsigned < n := by
    intro n h
    have hread : readDigits (dropPlus (trim "18446744073709551616".toList)) =
        some (maxUnsigned + 1) := by decide +kernel
    rw [readDigits_eq_some_iff.mpr (numeral_dropPlus_iff.mpr h), Option.some.injEq] at hread
    omega
  obtain ⟨hroute, _, hwidth, _⟩ := htexts "\u3000+007\t" true
  obtain ⟨hlast, _, _, hdefault⟩ := htexts "18446744073709551616" true
  obtain ⟨back, hback, hpos, _, hunits⟩ := hstored ⟨0, false⟩ (Nat.zero_le _)
  refine ⟨hseven, hroute.symm.trans (hwidth 7 (by decide) (by decide) hseven),
    hlast.symm.trans (hdefault hlarge), ?_, back, hback, hpos, hunits 5⟩
  exact hnumbers minSigned (Int.le_refl _) (by decide)

end Offside
