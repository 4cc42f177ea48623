import Offside.Proofs.Words

/-!
# The word under a cursor

A cursor stands at a word if it is on one of its characters or directly behind it (`StandsAt`), and
in a gap if it is further behind one word and before the next (`InGap`). As words are apart and take
up all places that are filled, a cursor on the content of a line is in exactly one of these cases,
and stands at one word at most (`AreWords.standsAt_or_inGap`, `AreWords.standsAt_unique`).

`cursorContext?` takes every step in numbers of 64 digits: sums and differences that must fit, sums
that stop at the largest number, a column moved between bounds that must be in order, and a stretch
of the words whose ends must be too. None of them fails on a line whose length is such a number.
-/

namespace Offside

open Offside.Text

/-- A cursor stands on a character of a word or directly behind it. -/
def StandsAt (all : List Word) (cursor k : Nat) : Prop :=
  ∃ word, all[k]? = some word ∧ word.start ≤ cursor ∧ cursor ≤ word.stop

/-- A cursor is behind a word, but not directly, and before the next one. -/
def InGap (all : List Word) (cursor : Nat) : Prop :=
  ∃ k first second, all[k]? = some first ∧ all[k + 1]? = some second ∧
    first.stop < cursor ∧ cursor < second.start

/-- A word with the space that is shown behind it; nothing if there is no word at the index. -/
def shownAt (all : List Word) (k : Nat) : String :=
  all[k]?.elim "" fun word => String.ofList word.text ++ " "

section Standing

variable {line : List Char} {column window cursor j k first last : Nat} {word word' : Word}
  {all : List Word}

/-! ## Standing at a word -/

theorem standsAt_iff :
    StandsAt all cursor k ↔ ∃ h : k < all.length, all[k].holds cursor = true := by
  simp only [StandsAt, List.getElem?_eq_some_iff, Word.holds, Bool.and_eq_true, decide_eq_true_eq]
  constructor
  · rintro ⟨_, ⟨hk, rfl⟩, hholds⟩
    exact ⟨hk, hholds⟩
  · rintro ⟨hk, hholds⟩
    exact ⟨_, ⟨hk, rfl⟩, hholds⟩

/-- A cursor that is not before the first word nor behind the last one is at a word or in a gap. -/
theorem standsAt_or_inGap (hfirst : ∀ word ∈ all.head?, word.start ≤ cursor)
    (hlast : ∃ word ∈ all.getLast?, cursor ≤ word.stop) :
    (∃ k, StandsAt all cursor k) ∨ InGap all cursor := by
  induction all with
  | nil =>
    obtain ⟨_, hnone, _⟩ := hlast
    cases hnone
  | cons word more ih =>
    -- at the first word, between it and the next, or no further back than the next
    by_cases hstop : cursor ≤ word.stop
    · exact .inl ⟨0, word, rfl, hfirst word rfl, hstop⟩
    obtain _ | ⟨next, more⟩ := more
    · obtain ⟨_, ⟨⟩, hle⟩ := hlast
      exact absurd hle hstop
    by_cases hnext : next.start ≤ cursor
    · rcases ih (fun _ hword => Option.some.inj hword ▸ hnext) hlast with ⟨k, hk⟩ | ⟨k, hk⟩
      · exact .inl ⟨k + 1, hk⟩
      · exact .inr ⟨k + 1, hk⟩
    · exact .inr ⟨0, word, next, rfl, rfl, Nat.lt_of_not_le hstop, Nat.lt_of_not_le hnext⟩

namespace AreWords

/-! A word ends before each word of a larger index begins. -/

theorem stop_lt_start (h : AreWords 0 line all) (hj : all[j]? = some word)
    (hk : all[k]? = some word') (hlt : j < k) : word.stop < word'.start := by
  obtain ⟨hjlt, rfl⟩ := List.getElem?_eq_some_iff.mp hj
  obtain ⟨hklt, rfl⟩ := List.getElem?_eq_some_iff.mp hk
  exact List.pairwise_iff_getElem.mp h.apart j k hjlt hklt hlt

theorem start_le_start (h : AreWords 0 line all) (hj : all[j]? = some word)
    (hk : all[k]? = some word') (hle : j ≤ k) : word.start ≤ word'.start := by
  obtain rfl | hlt := Nat.eq_or_lt_of_le hle
  · exact Nat.le_of_eq (congrArg Word.start (Option.some.inj (hj.symm.trans hk)))
  · have hnonempty := h.nonempty word (List.mem_of_getElem? hj)
    exact Nat.le_of_lt (Nat.lt_trans hnonempty (h.stop_lt_start hj hk hlt))

theorem stop_le_stop (h : AreWords 0 line all) (hj : all[j]? = some word)
    (hk : all[k]? = some word') (hle : j ≤ k) : word.stop ≤ word'.stop := by
  obtain rfl | hlt := Nat.eq_or_lt_of_le hle
  · exact Nat.le_of_eq (congrArg Word.stop (Option.some.inj (hj.symm.trans hk)))
  · have hnonempty := h.nonempty word' (List.mem_of_getElem? hk)
    exact Nat.le_of_lt (Nat.lt_trans (h.stop_lt_start hj hk hlt) hnonempty)

theorem standsAt_unique (h : AreWords 0 line all) (hj : StandsAt all cursor j)
    (hk : StandsAt all cursor k) : j = k := by
  obtain ⟨word, hj, hstart, hstop⟩ := hj
  obtain ⟨word', hk, hstart', hstop'⟩ := hk
  obtain hlt | heq | hlt := Nat.lt_trichotomy j k
  · have := h.stop_lt_start hj hk hlt
    omega
  · exact heq
  · have := h.stop_lt_start hk hj hlt
    omega

/-- There is no word at a gap. -/
theorem not_standsAt_of_inGap (h : AreWords 0 line all) (hgap : InGap all cursor) (j : Nat) :
    ¬ StandsAt all cursor j := by
  rintro ⟨word, hj, hstart, hstop⟩
  obtain ⟨k, first, second, hfirst, hsecond, hbehind, hbefore⟩ := hgap
  obtain hle | hlt := (Nat.lt_or_ge k j).symm
  · have := h.stop_le_stop hj hfirst hle
    omega
  · have := h.start_le_start hsecond hj hlt
    omega

theorem findIdx?_eq_some (h : AreWords 0 line all) (hk : StandsAt all cursor k) :
    all.findIdx? (·.holds cursor) = some k := by
  obtain ⟨hlt, hholds⟩ := standsAt_iff.mp hk
  refine List.findIdx?_eq_some_iff_getElem.mpr ⟨hlt, hholds, fun j hj hholds => ?_⟩
  exact Nat.ne_of_lt hj (h.standsAt_unique (standsAt_iff.mpr ⟨_, hholds⟩) hk)

theorem findIdx?_eq_none (h : AreWords 0 line all) (hgap : InGap all cursor) :
    all.findIdx? (·.holds cursor) = none := by
  cases hindex : all.findIdx? (·.holds cursor) with
  | none => rfl
  | some k =>
    obtain ⟨hlt, hholds, _⟩ := List.findIdx?_eq_some_iff_getElem.mp hindex
    exact absurd (standsAt_iff.mpr ⟨hlt, hholds⟩) (h.not_standsAt_of_inGap hgap k)

end AreWords

/-! ## The cursor of a column -/

theorem areWords_words (line : List Char) : AreWords 0 line (words line) := .of_wordsFrom 0 line

theorem words_of_allBlank (h : allBlank line = true) : words line = [] :=
  wordsFrom_of_blank (List.all_eq_true.mp h)

theorem words_ne_nil (h : allBlank line = false) : words line ≠ [] := by
  have hfilled := (isLeast_leadingByIndex h).1
  obtain ⟨word, hword, _⟩ := ((areWords_words line).filled_iff _).mp ⟨Nat.zero_le _, hfilled⟩
  exact List.ne_nil_of_mem hword

/-- The cursor is the column moved between the first and the last place that is filled. -/
theorem clampColumn_eq (h : allBlank line = false) (hfirst : IsLeast {i | FilledAt line i} first)
    (hlast : IsGreatest {i | FilledAt line i} last) (column : Nat) :
    clampColumn line column = max first (min column last) := by
  rw [clampColumn, leadingByDifference_eq, hfirst.unique (isLeast_leadingByIndex h),
    hlast.unique (isGreatest_content h)]

/-- The first word begins, and the last one ends, where the content of the line does. -/
theorem exists_ends (h : allBlank line = false) (hfirst : IsLeast {i | FilledAt line i} first)
    (hlast : IsGreatest {i | FilledAt line i} last) : ∃ head final,
      (words line)[0]? = some head ∧ (words line)[(words line).length - 1]? = some final ∧
        head.start = first ∧ final.stop = last + 1 := by
  have hwords := areWords_words line
  obtain ⟨head, more, hhead⟩ := List.exists_cons_of_ne_nil (words_ne_nil h)
  obtain ⟨front, final, hfinal⟩ := (List.eq_nil_or_concat' _).resolve_left (words_ne_nil h)
  have hstart := (hhead ▸ hwords).isLeast_start
  have hstop := (hfinal ▸ hwords).isGreatest_stop
  have hmem : final ∈ words line := by
    rw [hfinal]
    exact List.mem_append_right _ (List.mem_singleton_self final)
  have hpos := hwords.nonempty final hmem
  have heq := hlast.unique hstop
  refine ⟨head, final, by rw [hhead]; rfl, ?_, hstart.unique hfirst, by omega⟩
  rw [← List.getLast?_eq_getElem?, hfinal, List.getLast?_concat]

/-- A column at or before the content is at the first word. -/
theorem standsAt_zero (h : allBlank line = false) (hfirst : IsLeast {i | FilledAt line i} first)
    (hcolumn : column ≤ first) : StandsAt (words line) (clampColumn line column) 0 := by
  have hlast := isGreatest_content h
  obtain ⟨head, _, hhead, _, hstart, _⟩ := exists_ends h hfirst hlast
  have hnonempty := (areWords_words line).nonempty head (List.mem_of_getElem? hhead)
  refine ⟨head, hhead, ?_, ?_⟩ <;>
    rw [clampColumn_eq h hfirst hlast] <;> omega

/-- A column at or behind the content's last place is at the last word. -/
theorem standsAt_last (h : allBlank line = false) (hlast : IsGreatest {i | FilledAt line i} last)
    (hcolumn : last ≤ column) :
    StandsAt (words line) (clampColumn line column) ((words line).length - 1) := by
  have hfirst := isLeast_leadingByIndex h
  obtain ⟨_, final, _, hfinal, _, hstop⟩ := exists_ends h hfirst hlast
  have hnonempty := (areWords_words line).nonempty final (List.mem_of_getElem? hfinal)
  have hle := hlast.2 hfirst.1
  refine ⟨final, hfinal, ?_, ?_⟩ <;>
    rw [clampColumn_eq h hfirst hlast] <;> omega

/-- The cursor of a column is at a word or in a gap. -/
theorem standsAt_or_inGap_clampColumn (h : allBlank line = false) (column : Nat) :
    (∃ k, StandsAt (words line) (clampColumn line column) k) ∨
      InGap (words line) (clampColumn line column) := by
  have hfirst := isLeast_leadingByIndex h
  have hlast := isGreatest_content h
  obtain ⟨head, final, hhead, hfinal, hstart, hstop⟩ := exists_ends h hfirst hlast
  have hle := hlast.2 hfirst.1
  rw [clampColumn_eq h hfirst hlast]
  apply standsAt_or_inGap
  · intro word hword
    rw [List.head?_eq_getElem?, hhead] at hword
    obtain rfl := Option.some.inj hword
    omega
  · refine ⟨final, ?_, by omega⟩
    rw [List.getLast?_eq_getElem?, hfinal]
    rfl

theorem exists_standsAt
    (h : ¬ (allBlank line = true ∨ InGap (words line) (clampColumn line column))) :
    ∃ k, StandsAt (words line) (clampColumn line column) k := by
  obtain ⟨hblank, hgap⟩ := not_or.mp h
  rw [Bool.not_eq_true] at hblank
  exact (standsAt_or_inGap_clampColumn hblank column).resolve_right hgap

/-! ## The words that are shown -/

theorem shown_eq (hk : k < all.length) (window : Nat) :
    ((all.take (k + window + 1)).drop (k - window)).map
        (fun word => String.ofList word.text ++ " ") =
      (List.range' (k - window) (min (all.length - 1) (k + window) + 1 - (k - window))).map
        (shownAt all) := by
  apply List.ext_getElem
  · simp only [List.length_map, List.length_drop, List.length_take, List.length_range']
    omega
  · intro i hi hi'
    simp only [List.length_map, List.length_drop, List.length_take] at hi
    simp only [List.getElem_map, List.getElem_drop, List.getElem_take, List.getElem_range', shownAt,
      Nat.one_mul]
    rw [List.getElem?_eq_getElem (by omega)]
    rfl

theorem cursorContext_of_standsAt (hk : StandsAt (words line) (clampColumn line column) k)
    (window : Nat) : cursorContext line column window =
      some (String.join ((List.range' (k - window)
        (min ((words line).length - 1) (k + window) + 1 - (k - window))).map
          (shownAt (words line)))) := by
  have hblank : allBlank line = false := by
    by_contra hblank
    obtain ⟨_, hword, _⟩ := hk
    rw [words_of_allBlank (by simpa using hblank)] at hword
    cases hword
  have hindex := (areWords_words line).findIdx?_eq_some hk
  rw [cursorContext, hblank, ← shown_eq (standsAt_iff.mp hk).1]
  simp [hindex]

theorem cursorContext_eq_none_iff : cursorContext line column window = none ↔
    allBlank line = true ∨ InGap (words line) (clampColumn line column) := by
  constructor
  · intro hnone
    by_contra hneither
    obtain ⟨k, hk⟩ := exists_standsAt hneither
    cases (cursorContext_of_standsAt hk window).symm.trans hnone
  · rintro (hblank | hgap)
    · rw [cursorContext, if_pos hblank]
    · have hindex := (areWords_words line).findIdx?_eq_none hgap
      rw [cursorContext]
      split
      · rfl
      · simp [hindex]

end Standing

/-! ## Steps that may fail -/

/-- The sum of two numbers, or the largest number of 64 digits if that is less. -/
def addSaturating (m n : Nat) : Nat := min (m + n) maxUnsigned

/-- A number moved between two bounds, which have to be in order. -/
def clamp? (low high n : Nat) : Option Nat :=
  if low ≤ high then some (max low (min n high)) else none

/-- The elements of a list from an index up to and not including another one. There are none if
these are not in order, or if there are not so many elements. -/
def stretch? {α : Type} (start stop : Nat) (xs : List α) : Option (List α) :=
  if start ≤ stop ∧ stop ≤ xs.length then some ((xs.take stop).drop start) else none

/-- The words around a column, found in numbers of 64 digits. -/
def cursorContext? (line : List Char) (column window : Nat) : Option (Option String) := do
  let leading ← asUnsigned? (line.length - (trimStart line).length)
  let content := (trim line).length
  if content = 0 then return none
  let behind ← asUnsigned? (leading + content)
  let last ← asUnsigned? (behind - (1 : Nat))
  let cursor ← clamp? leading last column
  let all ← countWords? 0 line
  match all.findIdx? (·.holds cursor) with
  | none => return none
  | some index =>
    let stop := min all.length (addSaturating (addSaturating index window) 1)
    let shown ← stretch? (index - window) stop all
    return String.join (shown.map fun word => String.ofList word.text ++ " ")

section Steps

variable {line : List Char} {column index window : Nat} {all : List Word}

theorem length_wordsFrom_le (column : Nat) (s : List Char) :
    (wordsFrom column s).length ≤ s.length := by
  induction s generalizing column with
  | nil => exact Nat.le_refl 0
  | cons c rest ih =>
    have hrest := ih (column + 1)
    rw [wordsFrom, List.length_cons]
    split
    · omega
    · split
      next => simp
      next word more heq =>
        rw [heq, List.length_cons] at hrest
        split <;> simp only [List.length_cons] <;> omega

/-- Sums that stop at the largest number do not matter to a list that is not longer than that. -/
theorem stretch?_eq {α : Type} {xs : List α} (hlength : xs.length ≤ maxUnsigned)
    (hindex : index < xs.length) (window : Nat) :
    stretch? (index - window) (min xs.length (addSaturating (addSaturating index window) 1)) xs =
      some ((xs.take (index + window + 1)).drop (index - window)) := by
  have hstop : min xs.length (addSaturating (addSaturating index window) 1) =
      min xs.length (index + window + 1) := by
    unfold addSaturating
    omega
  rw [hstop, stretch?, if_pos (by omega), Nat.min_comm, ← List.take_take, List.take_length]

/-- No step fails on a line whose length is a number of 64 digits. -/
theorem cursorContext?_eq (h : line.length ≤ maxUnsigned) (column window : Nat) :
    cursorContext? line column window = some (cursorContext line column window) := by
  have hstart : (trimStart line).length ≤ line.length := (List.dropWhile_suffix _).length_le
  have hdifference := leadingByDifference_eq line
  rw [leadingByDifference] at hdifference
  rw [cursorContext?, asUnsigned?_sub hstart h, hdifference]
  simp only [Option.bind_eq_bind, Option.bind_some]
  cases hblank : allBlank line with
  | true =>
    have hcontent : trim line = [] := by
      rw [← List.isEmpty_iff, isEmpty_trim, hblank]
    rw [hcontent, cursorContext, hblank]
    rfl
  | false =>
    have hcontent : (trim line).length ≠ 0 := (List.length_pos_iff.mpr (trim_ne_nil hblank)).ne'
    have hbehind := (isGreatest_content hblank).1.lt_length
    have hcursor : clamp? (leadingByIndex line) (leadingByIndex line + (trim line).length - 1)
        column = some (clampColumn line column) := by
      rw [clamp?, if_pos (by omega), clampColumn, leadingByDifference_eq]
    rw [if_neg hcontent, asUnsigned?_add (by omega), Option.bind_some,
      asUnsigned?_sub (by omega) (by omega), Option.bind_some, hcursor, Option.bind_some,
      countWords?_eq (by omega), Option.bind_some, ← words, cursorContext, hblank]
    cases hindex : (words line).findIdx? (·.holds (clampColumn line column)) with
    | none => simp [hindex]
    | some index =>
      obtain ⟨hlt, _⟩ := List.findIdx?_eq_some_iff_getElem.mp hindex
      have hlength : (words line).length ≤ maxUnsigned :=
        Nat.le_trans (length_wordsFrom_le 0 line) h
      simp only [hindex, stretch?_eq hlength hlt]
      rfl

end Steps

/-- **The words around a cursor.** On a line whose length is a number of 64 digits, no step of
finding them fails, whatever the column and the window. There are none if the line is blank, or if
the column, moved between the first and the last place that is filled, is in a gap between two
words. Otherwise it is at exactly one word, and that word is shown with those around it that the
window reaches, each with a space behind it. A column at or before the first place that is filled is
at the first word, and one at or behind the last is at the last. -/
theorem cursorContext_window (line : List Char) (column window : Nat) :
    (line.length ≤ maxUnsigned →
      cursorContext? line column window = some (cursorContext line column window)) ∧
    (cursorContext line column window = none ↔
      allBlank line = true ∨ InGap (words line) (clampColumn line column)) ∧
    (cursorContext line column window ≠ none →
      ∃! k, StandsAt (words line) (clampColumn line column) k) ∧
    (∀ k, StandsAt (words line) (clampColumn line column) k →
      cursorContext line column window = some (String.join
        ((List.range' (k - window)
          (min ((words line).length - 1) (k + window) + 1 - (k - window))).map
            (shownAt (words line))))) ∧
    (allBlank line = false → ∃ first last,
      IsLeast {i | FilledAt line i} first ∧ IsGreatest {i | FilledAt line i} last ∧
        clampColumn line column = max first (min column last) ∧
        (column ≤ first → StandsAt (words line) (clampColumn line column) 0) ∧
        (last ≤ column →
          StandsAt (words line) (clampColumn line column) ((words line).length - 1))) := by
  refine ⟨fun h => cursorContext?_eq h column window, cursorContext_eq_none_iff, fun hsome => ?_,
    fun k hk => cursorContext_of_standsAt hk window, fun h => ?_⟩
  · obtain ⟨k, hk⟩ := exists_standsAt (mt cursorContext_eq_none_iff.mpr hsome)
    exact ⟨k, hk, fun j hj => (areWords_words line).standsAt_unique hj hk⟩
  · have hfirst := isLeast_leadingByIndex h
    have hlast := isGreatest_content h
    exact ⟨_, _, hfirst, hlast, clampColumn_eq h hfirst hlast column, standsAt_zero h hfirst,
      standsAt_last h hlast⟩

/-- A line with a gap of three spaces between its first two words. -/
theorem cursorContext_window_gap :
    let line := "  ab   c d".toList
    cursorContext? line 0 maxUnsigned = some (some "ab c d ") ∧
      cursorContext line 5 maxUnsigned = none ∧
      (∃! k, StandsAt (words line) (clampColumn line 4) k) ∧
      StandsAt (words line) (clampColumn line 20) 2 ∧ cursorContext line 20 0 = some "d " := by
  intro line
  obtain ⟨hsteps, _⟩ := cursorContext_window line 0 maxUnsigned
  obtain ⟨_, hnone, _⟩ := cursorContext_window line 5 maxUnsigned
  obtain ⟨_, _, hunique, _⟩ := cursorContext_window line 4 0
  obtain ⟨_, _, _, hshown, hends⟩ := cursorContext_window line 20 0
  obtain ⟨_, last, _, hlast, _, _, hbehind⟩ := hends (by decide)
  have hlt : last < line.length := FilledAt.lt_length hlast.1
  have hstands : StandsAt (words line) (clampColumn line 20) 2 :=
    hbehind (Nat.le_trans hlt.le (by decide))
  refine ⟨?_, ?_, hunique (by decide +kernel), hstands, ?_⟩
  · rw [hsteps (by decide)]
    decide +kernel
  · exact hnone.mpr (.inr ⟨0, ⟨['a', 'b'], 2, 4⟩, ⟨['c'], 7, 8⟩, by decide +kernel⟩)
  · rw [hshown 2 hstands]
    decide +kernel

end Offside
