import Mathlib.Data.List.DropRight
import Mathlib.Order.Bounds.Basic
import Offside.Line.Report
import Offside.Proofs.Sequences

/-!
# Blanks around a text

A text is blanks, its content, and blanks (`exists_margins`). The content neither begins nor ends
with a blank (`Trimmed`), and there is none exactly if the text is blank. In a line that is not, the
count of leading blanks is the place of the first character that is not blank, by either of the two
ways to count (`isLeast_leadingByIndex`, `leadingByDifference_eq`), and the length of the content
leads from there to the last one (`isGreatest_content`). What is counted is said without either way
(`LeadingBlanks`), of blank lines too.
-/

namespace Offside.Text

section Trimming

variable {c : Char} {s t line : List Char} {i n : Nat}

/-! ## Trimming -/

theorem isPrefix_trimEnd (s : List Char) : trimEnd s <+: s := List.rdropWhile_prefix isBlank s

theorem trimEnd_trimEnd (s : List Char) : trimEnd (trimEnd s) = trimEnd s :=
  List.rdropWhile_idempotent isBlank s

theorem trimEnd_of_blank (h : ∀ c ∈ s, isBlank c = true) : trimEnd s = [] :=
  List.rdropWhile_eq_nil_iff.mpr h

theorem trimEnd_concat (h : isBlank c = false) (s : List Char) : trimEnd (s ++ [c]) = s ++ [c] :=
  List.rdropWhile_concat_neg isBlank s c (by simp [h])

theorem trimEnd_of_not_blank (h : ∀ c ∈ s, isBlank c = false) : trimEnd s = s := by
  refine List.rdropWhile_eq_self_iff.mpr fun hne => ?_
  simp [h _ (List.getLast_mem hne)]

theorem trim_of_not_blank (h : ∀ c ∈ s, isBlank c = false) : trim s = s := by
  obtain _ | ⟨c, s⟩ := s
  · rfl
  · rw [trim, trimStart_cons (h c List.mem_cons_self), trimEnd_of_not_blank h]

/-- Behind a text that is more than blanks, only that text is trimmed. -/
theorem trimEnd_append (s t : List Char) :
    trimEnd (s ++ t) = if trimEnd t = [] then trimEnd s else s ++ trimEnd t := by
  simp only [trimEnd, List.reverse_append, List.dropWhile_append, List.isEmpty_iff,
    List.reverse_eq_nil_iff]
  split <;> simp

theorem trimStart_append_of_blank (h : ∀ c ∈ s, isBlank c = true) (t : List Char) :
    trimStart (s ++ t) = trimStart t := List.dropWhile_append_of_pos h

/-- A text without blanks at its start, and each front part of it, keeps its start. -/
theorem trimStart_of_prefix (h : t <+: trimStart s) : trimStart t = t := by
  obtain _ | ⟨c, t⟩ := t
  · rfl
  obtain ⟨more, hmore⟩ := h
  have hself : trimStart (c :: (t ++ more)) = c :: (t ++ more) := by
    rw [← List.cons_append, hmore]
    exact List.dropWhile_idempotent isBlank s
  have hc := List.dropWhile_eq_self_iff.mp hself (Nat.succ_pos _)
  exact trimStart_cons (by simpa using hc) t

theorem isPrefix_trim (s : List Char) : trim s <+: trimStart s := isPrefix_trimEnd _

theorem isInfix_trim (s : List Char) : trim s <:+: s :=
  (isPrefix_trim s).isInfix.trans (List.dropWhile_suffix _).isInfix

/-- Trimming a text that is trimmed, but for a blank in front of it, takes that blank away. -/
theorem trim_cons_trim (h : isBlank c = true) (s : List Char) : trim (c :: trim s) = trim s := by
  have hstart := trimStart_of_prefix (isPrefix_trim s)
  rw [trim, trimStart_cons_blank h, hstart, trim, trimEnd_trimEnd]

/-- Nothing is left of a text by trimming it if it is blank, and only then. -/
theorem isEmpty_trim (s : List Char) : (trim s).isEmpty = allBlank s := by
  rw [Bool.eq_iff_iff, List.isEmpty_iff, allBlank, List.all_eq_true]
  constructor
  · intro htrim
    have hblank : ∀ c ∈ trimStart s, isBlank c = true := List.rdropWhile_eq_nil_iff.mp htrim
    cases hstart : trimStart s with
    | nil => exact List.dropWhile_eq_nil_iff.mp hstart
    | cons c rest =>
      have hc : isBlank c = false := stops_dropWhile c (by rw [← trimStart, hstart]; rfl)
      cases hc.symm.trans (hblank c (hstart ▸ List.mem_cons_self))
  · intro hblank
    rw [trim, trimStart, List.dropWhile_eq_nil_iff.mpr hblank]
    rfl

/-! ## Texts without blanks around them -/

/-- The text neither begins nor ends with a blank. -/
structure Trimmed (s : List Char) : Prop where
  head : ∀ c ∈ s.head?, isBlank c = false
  last : ∀ c ∈ s.getLast?, isBlank c = false

theorem trimmed_trim (s : List Char) : Trimmed (trim s) where
  head := by
    rw [← trimStart_of_prefix (isPrefix_trim s)]
    exact stops_dropWhile
  last := by
    rw [trim, trimEnd, List.getLast?_reverse]
    exact stops_dropWhile

theorem trimmed_of_not_blank (h : ∀ c ∈ s, isBlank c = false) : Trimmed s :=
  ⟨fun c hc => h c (List.mem_of_head? hc), fun c hc => h c (List.mem_of_getLast? hc)⟩

/-- A text is its content with blanks around it. -/
theorem exists_margins (line : List Char) : ∃ back,
    line = line.takeWhile isBlank ++ (trim line ++ back) ∧ ∀ c ∈ back, isBlank c = true := by
  refine ⟨(trimStart line).rtakeWhile isBlank, ?_, fun c hc => List.mem_rtakeWhile_imp hc⟩
  have hend : trim line ++ (trimStart line).rtakeWhile isBlank = trimStart line :=
    List.rdropWhile_append_rtakeWhile ..
  rw [hend, trimStart, List.takeWhile_append_dropWhile]

/-! ## Leading blanks -/

theorem leadingByIndex_eq_length (line : List Char) :
    leadingByIndex line = (line.takeWhile isBlank).length := by
  rw [leadingByIndex, List.takeWhile_eq_take_findIdx_not, List.length_take]
  exact (Nat.min_eq_left List.findIdx_le_length).symm

/-- Both ways to count leading blanks agree. -/
theorem leadingByDifference_eq (line : List Char) :
    leadingByDifference line = leadingByIndex line := by
  have hlength := congrArg List.length (List.takeWhile_append_dropWhile (p := isBlank) (l := line))
  rw [List.length_append] at hlength
  rw [leadingByDifference, leadingByIndex_eq_length, trimStart]
  omega

/-- So many blanks lead a text: all characters before that place are blank, and there the text ends
or has a character that is not. -/
structure LeadingBlanks (s : List Char) (n : Nat) : Prop where
  le_length : n ≤ s.length
  blank : ∀ c ∈ s.take n, isBlank c = true
  stops : ∀ c ∈ s[n]?, isBlank c = false

theorem leadingBlanks_cons_blank (hc : isBlank c = true) :
    LeadingBlanks (c :: s) (n + 1) ↔ LeadingBlanks s n := by
  constructor
  · rintro ⟨hle, hblank, hstops⟩
    exact ⟨Nat.le_of_succ_le_succ hle, (List.forall_mem_cons.mp hblank).2, hstops⟩
  · rintro ⟨hle, hblank, hstops⟩
    exact ⟨Nat.succ_le_succ hle, List.forall_mem_cons.mpr ⟨hc, hblank⟩, hstops⟩

/-- The index of the first character that is not blank, or the length if there is none, is the number
of leading blanks. -/
theorem leadingBlanks_iff : LeadingBlanks s n ↔ leadingByIndex s = n := by
  induction s generalizing n with
  | nil =>
    constructor
    · intro h
      exact (Nat.le_zero.mp h.le_length).symm
    · rintro rfl
      constructor <;> simp [leadingByIndex]
  | cons c s ih =>
    cases hc : isBlank c with
    | true =>
      have hcount : leadingByIndex (c :: s) = leadingByIndex s + 1 := by
        simp [leadingByIndex, List.findIdx_cons, hc]
      cases n with
      | zero =>
        refine iff_of_false ?_ (by omega)
        intro h
        cases hc.symm.trans (h.stops c rfl)
      | succ n => rw [leadingBlanks_cons_blank hc, ih, hcount, Nat.add_right_cancel_iff]
    | false =>
      have hcount : leadingByIndex (c :: s) = 0 := by
        simp [leadingByIndex, List.findIdx_cons, hc]
      cases n with
      | zero =>
        refine iff_of_true ?_ hcount
        constructor <;> simp [hc]
      | succ n =>
        refine iff_of_false ?_ (by omega)
        intro h
        cases hc.symm.trans (h.blank c List.mem_cons_self)

theorem count_eq_leadingByIndex (method : CountMethod) (line : List Char) :
    method.count line = leadingByIndex line := by
  cases method with
  | index => rfl
  | arithmetic => exact leadingByDifference_eq line

/-- **Both ways to count leading blanks agree.** The index of the first character that is not blank,
or the length of a line that has none, is the difference in length that trimming the start makes, and
the line is never shorter than what is left of it. Either way counts the blanks that lead the line,
of whatever kind they are. So what is reported about a line does not depend on the way. -/
theorem countMethods_agree (line : List Char) :
    leadingByIndex line = leadingByDifference line ∧
    (trimStart line).length ≤ line.length ∧
    (∀ (method : CountMethod) (n : Nat), method.count line = n ↔ LeadingBlanks line n) ∧
    ∀ (method method' : CountMethod) (number : Nat),
      Report.leadingSpaces method number line = Report.leadingSpaces method' number line := by
  refine ⟨(leadingByDifference_eq line).symm, (List.dropWhile_suffix _).length_le, ?_, ?_⟩
  · intro method n
    rw [count_eq_leadingByIndex, leadingBlanks_iff]
  · intro method method' number
    simp only [Report.leadingSpaces, count_eq_leadingByIndex]

/-! ## Where the content is -/

/-- A character that is not blank stands at a place of the text. -/
def FilledAt (s : List Char) (i : Nat) : Prop := ∃ c, s[i]? = some c ∧ isBlank c = false

theorem not_filledAt_of_blank (h : ∀ c ∈ s, isBlank c = true) (i : Nat) : ¬ FilledAt s i := by
  rintro ⟨c, hc, hfilled⟩
  cases hfilled.symm.trans (h c (List.mem_of_getElem? hc))

theorem filledAt_append : FilledAt (s ++ t) i ↔
    FilledAt s i ∨ s.length ≤ i ∧ FilledAt t (i - s.length) := by
  by_cases hi : i < s.length
  · have hback : ¬ s.length ≤ i := Nat.not_le_of_lt hi
    simp only [FilledAt, List.getElem?_append_left hi, hback, false_and, or_false]
  · have hfront : s[i]? = none := List.getElem?_eq_none (Nat.le_of_not_lt hi)
    simp only [FilledAt, List.getElem?_append_right (Nat.le_of_not_lt hi), hfront,
      Nat.le_of_not_lt hi, true_and, reduceCtorEq, false_and, exists_false, false_or]

theorem FilledAt.lt_length (h : FilledAt s i) : i < s.length := by
  obtain ⟨c, hc, _⟩ := h
  exact (List.getElem?_eq_some_iff.mp hc).1

/-- The places that are filled are those of the content. -/
theorem filledAt_iff (line : List Char) (i : Nat) : FilledAt line i ↔
    leadingByIndex line ≤ i ∧ FilledAt (trim line) (i - leadingByIndex line) := by
  obtain ⟨back, hline, hback⟩ := exists_margins line
  have hfront : ∀ c ∈ line.takeWhile isBlank, isBlank c = true :=
    fun c hc => List.mem_takeWhile_imp hc
  rw [leadingByIndex_eq_length]
  nth_rewrite 1 [hline]
  rw [filledAt_append, filledAt_append]
  simp only [not_filledAt_of_blank hfront, not_filledAt_of_blank hback, false_or, and_false,
    or_false]

theorem trim_ne_nil (h : allBlank line = false) : trim line ≠ [] := by
  rw [← isEmpty_trim, List.isEmpty_eq_false_iff] at h
  exact h

theorem isLeast_leadingByIndex (h : allBlank line = false) :
    IsLeast {i | FilledAt line i} (leadingByIndex line) := by
  obtain ⟨c, rest, hcontent⟩ := List.exists_cons_of_ne_nil (trim_ne_nil h)
  constructor
  · refine (filledAt_iff line _).mpr ⟨Nat.le_refl _, c, ?_, ?_⟩
    · rw [Nat.sub_self, hcontent]
      rfl
    · exact (trimmed_trim line).head c (by rw [hcontent]; rfl)
  · intro i hi
    exact ((filledAt_iff line i).mp hi).1

theorem isGreatest_content (h : allBlank line = false) :
    IsGreatest {i | FilledAt line i} (leadingByIndex line + (trim line).length - 1) := by
  have hpos := List.length_pos_iff.mpr (trim_ne_nil h)
  constructor
  · obtain ⟨front, c, hcontent⟩ := List.eq_nil_or_concat (trim line) |>.resolve_left (trim_ne_nil h)
    rw [List.concat_eq_append] at hcontent
    refine (filledAt_iff line _).mpr ⟨by omega, c, ?_, ?_⟩
    · rw [Nat.add_sub_assoc hpos, Nat.add_sub_cancel_left, hcontent, List.length_append]
      exact List.getElem?_concat_length
    · exact (trimmed_trim line).last c (by rw [hcontent, List.getLast?_concat]; rfl)
  · intro i hi
    obtain ⟨hle, hfilled⟩ := (filledAt_iff line i).mp hi
    have := hfilled.lt_length
    omega

end Trimming

end Offside.Text
