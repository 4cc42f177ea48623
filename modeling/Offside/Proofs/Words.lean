import Offside.Line.Cursor
import Offside.Proofs.Margins

/-!
# The words of a line

Words are listed from left to right with a blank between any two, and together they take up exactly
the places that are filled (`AreWords`). The list is made from the end of the text: a character that
is not blank joins the word directly behind it, if there is one, or is a word of its own. So the
first word begins, and the last one ends, where the content of the line does.

`countWords?` makes the same list from the front. It passes the blanks before a word and the word
itself, counting characters in numbers of 64 digits (`countWords?_eq`).
-/

namespace Offside

open Offside.Text

/-- All words of a text whose first character stands at a column, from left to right. -/
structure AreWords (column : Nat) (s : List Char) (all : List Word) : Prop where
  from_column : ∀ word ∈ all, column ≤ word.start
  nonempty : ∀ word ∈ all, word.start < word.stop
  apart : all.Pairwise fun first second => first.stop < second.start
  filled_iff : ∀ i, column ≤ i ∧ FilledAt s (i - column) ↔
    ∃ word ∈ all, word.start ≤ i ∧ i < word.stop
  text_eq : ∀ word ∈ all,
    word.text = (s.drop (word.start - column)).take (word.stop - word.start)

namespace AreWords

variable {c : Char} {s line : List Char} {column i : Nat} {word : Word} {all more : List Word}

/-! ## One character more -/

/-- The places of a text with one more character in front. -/
theorem filledAt_cons_iff : column ≤ i ∧ FilledAt (c :: s) (i - column) ↔
    i = column ∧ isBlank c = false ∨ column + 1 ≤ i ∧ FilledAt s (i - (column + 1)) := by
  obtain hlt | rfl | hlt := Nat.lt_trichotomy i column
  · exact iff_of_false (by omega) (by omega)
  · simp [FilledAt]
  · have hplace : i - column = i - (column + 1) + 1 := by omega
    have hne : i ≠ column := Nat.ne_of_gt hlt
    have hle : column ≤ i := Nat.le_of_lt hlt
    have hlt : column + 1 ≤ i := hlt
    simp only [hplace, FilledAt, List.getElem?_cons_succ, hne, hle, hlt, true_and, false_and,
      false_or]

theorem from_column_cons (h : AreWords (column + 1) s all) (hword : word ∈ all) :
    column ≤ word.start := Nat.le_of_succ_le (h.from_column word hword)

theorem text_eq_cons (h : AreWords (column + 1) s all) (hword : word ∈ all) :
    word.text = ((c :: s).drop (word.start - column)).take (word.stop - word.start) := by
  have hplace : word.start - column = word.start - (column + 1) + 1 := by
    have := h.from_column word hword
    omega
  rw [hplace, List.drop_succ_cons]
  exact h.text_eq word hword

theorem cons_blank (h : AreWords (column + 1) s all) (hc : isBlank c = true) :
    AreWords column (c :: s) all where
  from_column _ hword := h.from_column_cons hword
  nonempty := h.nonempty
  apart := h.apart
  filled_iff i := by
    rw [filledAt_cons_iff, ← h.filled_iff, hc]
    simp
  text_eq _ hword := h.text_eq_cons hword

/-- A character that is not blank is a word of its own if no word begins directly behind it. -/
theorem cons_apart (h : AreWords (column + 1) s all) (hc : isBlank c = false)
    (hbehind : ∀ word ∈ all, word.start ≠ column + 1) :
    AreWords column (c :: s) (⟨[c], column, column + 1⟩ :: all) where
  from_column := List.forall_mem_cons.mpr ⟨Nat.le_refl _, fun _ hword => h.from_column_cons hword⟩
  nonempty := List.forall_mem_cons.mpr ⟨Nat.lt_succ_self _, h.nonempty⟩
  apart := List.pairwise_cons.mpr ⟨fun word hword =>
    Nat.lt_of_le_of_ne (h.from_column word hword) (hbehind word hword).symm, h.apart⟩
  filled_iff i := by
    rw [filledAt_cons_iff, h.filled_iff, List.exists_mem_cons_iff, hc]
    refine or_congr_left ?_
    simp only [and_true]
    omega
  text_eq := List.forall_mem_cons.mpr ⟨by simp, fun _ hword => h.text_eq_cons hword⟩

/-- A character that is not blank belongs to the word that begins directly behind it. -/
theorem cons_joined (h : AreWords (column + 1) s (word :: more)) (hc : isBlank c = false)
    (hstart : word.start = column + 1) :
    AreWords column (c :: s) (⟨c :: word.text, column, word.stop⟩ :: more) := by
  have hstop := h.nonempty word List.mem_cons_self
  have hbehind : ∀ other ∈ more, other ∈ word :: more := fun _ => List.mem_cons_of_mem word
  constructor
  · exact List.forall_mem_cons.mpr
      ⟨Nat.le_refl _, fun other hmem => h.from_column_cons (hbehind other hmem)⟩
  · refine List.forall_mem_cons.mpr ⟨?_, fun other hmem => h.nonempty other (hbehind other hmem)⟩
    dsimp only
    omega
  · exact List.pairwise_cons.mpr (List.pairwise_cons.mp h.apart)
  · intro i
    rw [filledAt_cons_iff, h.filled_iff, List.exists_mem_cons_iff, List.exists_mem_cons_iff,
      ← or_assoc, hc]
    refine or_congr_left ?_
    simp only [and_true]
    omega
  · refine List.forall_mem_cons.mpr ⟨?_, fun other hmem => h.text_eq_cons (hbehind other hmem)⟩
    have hlength : word.stop - column = word.stop - word.start + 1 := by omega
    have htext := h.text_eq word List.mem_cons_self
    rw [hstart, Nat.sub_self, List.drop_zero, ← hstart] at htext
    dsimp only
    rw [Nat.sub_self, List.drop_zero, hlength, List.take_succ_cons, ← htext]

/-- The words that are listed are all there are. -/
theorem of_wordsFrom (column : Nat) (s : List Char) : AreWords column s (wordsFrom column s) := by
  induction s generalizing column with
  | nil =>
    have hnone : ∀ i, ¬ FilledAt [] i := fun _ h => Nat.not_lt_zero _ h.lt_length
    constructor <;> simp [wordsFrom, hnone]
  | cons c rest ih =>
    have hrest := ih (column + 1)
    rw [wordsFrom]
    split
    next hc => exact hrest.cons_blank hc
    next hc =>
      rw [Bool.not_eq_true] at hc
      split
      next heq =>
        rw [heq] at hrest
        exact hrest.cons_apart hc (by simp)
      next word more heq =>
        rw [heq] at hrest
        split
        next hstart => exact hrest.cons_joined hc hstart
        next hstart =>
          refine hrest.cons_apart hc (List.forall_mem_cons.mpr ⟨hstart, ?_⟩)
          -- if the next word does not begin directly behind, a later one begins further on
          intro other hother
          have hword := hrest.from_column word List.mem_cons_self
          have hstop := hrest.nonempty word List.mem_cons_self
          have hlt := (List.pairwise_cons.mp hrest.apart).1 other hother
          omega

/-! ## Where words begin and end -/

theorem start_filled (h : AreWords 0 s all) (hword : word ∈ all) : FilledAt s word.start :=
  ((h.filled_iff word.start).mpr ⟨word, hword, Nat.le_refl _, h.nonempty word hword⟩).2

/-- The first word begins at the first place that is filled. -/
theorem isLeast_start (h : AreWords 0 s (word :: more)) :
    IsLeast {i | FilledAt s i} word.start := by
  refine ⟨h.start_filled List.mem_cons_self, fun i hi => ?_⟩
  obtain ⟨other, hother, hstart, _⟩ := (h.filled_iff i).mp ⟨Nat.zero_le i, hi⟩
  rcases List.mem_cons.mp hother with rfl | hmore
  · exact hstart
  · have hstop := h.nonempty word List.mem_cons_self
    have hlt := (List.pairwise_cons.mp h.apart).1 other hmore
    omega

/-- The last word ends behind the last place that is filled. -/
theorem isGreatest_stop (h : AreWords 0 s (more ++ [word])) :
    IsGreatest {i | FilledAt s i} (word.stop - 1) := by
  have hlast : word ∈ more ++ [word] := List.mem_append_right _ (List.mem_singleton_self word)
  have hstop := h.nonempty word hlast
  constructor
  · exact ((h.filled_iff (word.stop - 1)).mpr ⟨word, hlast, by omega, by omega⟩).2
  · intro i hi
    obtain ⟨other, hother, hstart, hi⟩ := (h.filled_iff i).mp ⟨Nat.zero_le i, hi⟩
    rcases List.mem_append.mp hother with hmore | hword
    · have hself := List.mem_singleton_self word
      have hlt := (List.pairwise_append.mp h.apart).2.2 other hmore word hself
      omega
    · rw [List.mem_singleton.mp hword] at hi
      omega

end AreWords

/-! ## Word by word -/

section Counting

variable {c : Char} {s gap run rest : List Char} {column : Nat} {word : Word} {more : List Word}

theorem wordsFrom_append_of_blank (h : ∀ c ∈ gap, isBlank c = true) :
    wordsFrom column (gap ++ s) = wordsFrom (column + gap.length) s := by
  induction gap generalizing column with
  | nil => rfl
  | cons c gap ih =>
    obtain ⟨hc, hgap⟩ := List.forall_mem_cons.mp h
    rw [List.cons_append, wordsFrom, if_pos hc, ih hgap, List.length_cons]
    congr 1
    omega

theorem wordsFrom_of_blank (h : ∀ c ∈ s, isBlank c = true) : wordsFrom column s = [] := by
  rw [← List.append_nil s, wordsFrom_append_of_blank h, wordsFrom]

theorem wordsFrom_cons_joined (hc : isBlank c = false)
    (hrest : wordsFrom (column + 1) rest = word :: more) (hstart : word.start = column + 1) :
    wordsFrom column (c :: rest) = ⟨c :: word.text, column, word.stop⟩ :: more := by
  simp only [wordsFrom, hc, hrest, hstart, if_true, Bool.false_eq_true, if_false]

theorem wordsFrom_cons_of_stops (hc : isBlank c = false)
    (hrest : ∀ b ∈ rest.head?, isBlank b = true) :
    wordsFrom column (c :: rest) = ⟨[c], column, column + 1⟩ :: wordsFrom (column + 1) rest := by
  obtain _ | ⟨b, rest⟩ := rest
  · simp [wordsFrom, hc]
  have hb : isBlank b = true := hrest b rfl
  have hskip : wordsFrom (column + 1) (b :: rest) = wordsFrom (column + 1 + 1) rest := by
    rw [wordsFrom, if_pos hb]
  -- the blank behind the character keeps the next word from beginning there
  have hwords := AreWords.of_wordsFrom (column + 1 + 1) rest
  rw [wordsFrom, hskip, hc]
  cases hmore : wordsFrom (column + 1 + 1) rest with
  | nil => rfl
  | cons word more =>
    rw [hmore] at hwords
    have hstart := hwords.from_column word List.mem_cons_self
    have hne : word.start ≠ column + 1 := by omega
    simp only [hne, if_false, Bool.false_eq_true]

/-- A run of characters that are not blank is one word if it goes on to the next blank. -/
theorem wordsFrom_append_of_filled (hne : run ≠ []) (h : ∀ c ∈ run, isBlank c = false)
    (hrest : ∀ b ∈ rest.head?, isBlank b = true) :
    wordsFrom column (run ++ rest) =
      ⟨run, column, column + run.length⟩ :: wordsFrom (column + run.length) rest := by
  induction run generalizing column with
  | nil => exact absurd rfl hne
  | cons c run ih =>
    obtain ⟨hc, hrun⟩ := List.forall_mem_cons.mp h
    obtain rfl | hmore := eq_or_ne run []
    · exact wordsFrom_cons_of_stops hc hrest
    have hplace : column + 1 + run.length = column + (c :: run).length := by
      rw [List.length_cons]
      omega
    rw [List.cons_append, wordsFrom_cons_joined hc (ih hmore hrun) rfl, hplace]

/-- The unsigned number of 64 digits that a number is, if it is one. -/
def asUnsigned? (value : Int) : Option Nat :=
  if 0 ≤ value ∧ value ≤ maxUnsigned then some value.toNat else none

theorem asUnsigned?_nat {n : Nat} (h : n ≤ maxUnsigned) : asUnsigned? n = some n := by
  rw [asUnsigned?, if_pos ⟨Int.natCast_nonneg n, Int.ofNat_le.mpr h⟩, Int.toNat_natCast]

theorem asUnsigned?_add {m n : Nat} (h : m + n ≤ maxUnsigned) :
    asUnsigned? (m + n) = some (m + n) := asUnsigned?_nat h

theorem asUnsigned?_sub {m n : Nat} (hle : n ≤ m) (h : m ≤ maxUnsigned) :
    asUnsigned? (m - n) = some (m - n) := by
  rw [← Int.ofNat_sub hle]
  exact asUnsigned?_nat (Nat.le_trans (Nat.sub_le m n) h)

theorem takeWhile_ne_nil_of_trimStart (hcontent : trimStart s = c :: rest) :
    (c :: rest).takeWhile (!isBlank ·) ≠ [] := by
  have hc : isBlank c = false := stops_dropWhile c (by rw [← trimStart, hcontent]; rfl)
  rw [List.takeWhile_cons_of_pos (by rw [hc]; rfl)]
  exact List.cons_ne_nil _ _

/-- A text that is not blank is blanks, a word, and what is behind the word. -/
theorem blanks_word_behind (hcontent : trimStart s = c :: rest) :
    s.takeWhile isBlank ++ ((c :: rest).takeWhile (!isBlank ·) ++
      (c :: rest).dropWhile (!isBlank ·)) = s := by
  rw [List.takeWhile_append_dropWhile, ← hcontent, trimStart, List.takeWhile_append_dropWhile]

theorem length_behind_word_lt (hcontent : trimStart s = c :: rest) :
    ((c :: rest).dropWhile (!isBlank ·)).length < s.length := by
  have hlength := congrArg List.length (blanks_word_behind hcontent)
  have hpos := List.length_pos_iff.mpr (takeWhile_ne_nil_of_trimStart hcontent)
  rw [List.length_append, List.length_append] at hlength
  omega

/-- The words of a text are its first word and those behind it. -/
theorem wordsFrom_of_trimStart (hcontent : trimStart s = c :: rest) :
    wordsFrom column s =
      ⟨(c :: rest).takeWhile (!isBlank ·), column + (s.takeWhile isBlank).length,
        column + (s.takeWhile isBlank).length + ((c :: rest).takeWhile (!isBlank ·)).length⟩ ::
      wordsFrom
        (column + (s.takeWhile isBlank).length + ((c :: rest).takeWhile (!isBlank ·)).length)
        ((c :: rest).dropWhile (!isBlank ·)) := by
  have hblank : ∀ b ∈ s.takeWhile isBlank, isBlank b = true := fun b hb => List.mem_takeWhile_imp hb
  have hfilled : ∀ b ∈ (c :: rest).takeWhile (!isBlank ·), isBlank b = false := fun b hb => by
    simpa using List.mem_takeWhile_imp hb
  have hstops : ∀ b ∈ ((c :: rest).dropWhile (!isBlank ·)).head?, isBlank b = true :=
    fun b hb => by simpa using stops_dropWhile b hb
  nth_rewrite 1 [← blanks_word_behind hcontent]
  rw [wordsFrom_append_of_blank hblank,
    wordsFrom_append_of_filled (takeWhile_ne_nil_of_trimStart hcontent) hfilled hstops]

/-- The words of a text that has so many characters in front of it, found one behind the other and
counted up in numbers of 64 digits. There are none if a number is too large. -/
def countWords? (before : Nat) (s : List Char) : Option (List Word) :=
  match _hcontent : trimStart s with
  | [] => some []
  | c :: rest => do
    let run := (c :: rest).takeWhile (!isBlank ·)
    let start ← asUnsigned? (before + (s.takeWhile isBlank).length)
    let stop ← asUnsigned? (start + run.length)
    let more ← countWords? stop ((c :: rest).dropWhile (!isBlank ·))
    return ⟨run, start, stop⟩ :: more
termination_by s.length
decreasing_by exact length_behind_word_lt ‹_›

/-- Counting finds the words of a text whose places are all small enough. -/
theorem countWords?_eq (h : column + s.length ≤ maxUnsigned) :
    countWords? column s = some (wordsFrom column s) := by
  fun_induction countWords? column s with
  | case1 column s hcontent =>
    rw [wordsFrom_of_blank (List.dropWhile_eq_nil_iff.mp hcontent)]
  | case2 column s c rest hcontent run ih =>
    have hlength : (s.takeWhile isBlank).length +
        (run.length + ((c :: rest).dropWhile (!isBlank ·)).length) = s.length := by
      rw [← List.length_append, ← List.length_append, blanks_word_behind hcontent]
    have hstart : column + (s.takeWhile isBlank).length ≤ maxUnsigned := by omega
    have hstop : column + (s.takeWhile isBlank).length + run.length ≤ maxUnsigned := by omega
    rw [wordsFrom_of_trimStart hcontent, asUnsigned?_add hstart, Option.bind_eq_bind,
      Option.bind_some, asUnsigned?_add hstop, Option.bind_eq_bind, Option.bind_some,
      ih _ (by omega)]
    rfl

end Counting

end Offside
