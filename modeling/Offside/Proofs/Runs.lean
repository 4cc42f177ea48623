import Offside.Proofs.Cursor
import Offside.Proofs.Spans

/-!
# Words as runs

The words of a line are its runs: stretches of characters that are not blank, as long as they can be
(`FilledRun`). Two runs that have a place in common are the same (`FilledRun.eq_of_meets`), so words
that are apart and take up all filled places are all runs there are (`AreWords.mem_iff`).

A search finds runs by their bytes (`runSpans`), and `wordsAt?` makes words of such spans: it cuts
the text from the end of the last span to the next one out of the line, then the text of that span,
and counts the characters of both up. A slice might fail, and the count might not be the place of the
slice. What carries the proof is that the bytes and the characters that have been passed are those of
one front part of the line (`wordsAt?_runSpans`).
-/

namespace Offside

open Offside.Text

/-! ## Runs -/

/-- From one place up to another no character is blank, and before and behind there is a blank, or
nothing. -/
structure FilledRun (s : List Char) (start stop : Nat) : Prop where
  nonempty : start < stop
  filled : ∀ i, start ≤ i → i < stop → FilledAt s i
  begins : ∀ i, i + 1 = start → ¬ FilledAt s i
  ends : ¬ FilledAt s stop

section Runs

variable {s : List Char} {start stop start' stop' i : Nat} {word word' : Word} {all : List Word}

namespace FilledRun

theorem start_le_start (h : FilledRun s start stop) (h' : FilledRun s start' stop')
    (hstart : start' ≤ i) (hstop : i < stop) : start' ≤ start := by
  by_contra hlt
  obtain ⟨j, rfl⟩ : ∃ j, start' = j + 1 := ⟨start' - 1, by omega⟩
  exact h'.begins j rfl (h.filled j (by omega) (by omega))

theorem stop_le_stop (h : FilledRun s start stop) (h' : FilledRun s start' stop')
    (hstart : start' ≤ i) (hstop : i < stop) : stop' ≤ stop := by
  by_contra hlt
  exact h.ends (h'.filled stop (by omega) (by omega))

/-- A place is in one run only. -/
theorem eq_of_meets (h : FilledRun s start stop) (h' : FilledRun s start' stop')
    (hi : start ≤ i ∧ i < stop) (hi' : start' ≤ i ∧ i < stop') : start = start' ∧ stop = stop' := by
  constructor
  · exact Nat.le_antisymm (h'.start_le_start h hi.1 hi'.2) (h.start_le_start h' hi'.1 hi.2)
  · exact Nat.le_antisymm (h'.stop_le_stop h hi.1 hi'.2) (h.stop_le_stop h' hi'.1 hi.2)

end FilledRun

namespace AreWords

theorem eq_or_apart (h : AreWords 0 s all) (hword : word ∈ all) (hword' : word' ∈ all) :
    word = word' ∨ word.stop < word'.start ∨ word'.stop < word.start := by
  apply List.Pairwise.forall_of_forall_of_flip _ _ _ hword hword'
  · intro word _
    exact .inl rfl
  · exact h.apart.imp fun hlt => .inr (.inl hlt)
  · exact h.apart.imp fun hlt => .inr (.inr hlt)

/-- The place of a word is a run: where a character before or behind it is not blank, that is in
another word, which is further away. -/
theorem filledRun (h : AreWords 0 s all) (hword : word ∈ all) :
    FilledRun s word.start word.stop := by
  have hnonempty := h.nonempty word hword
  constructor
  · exact hnonempty
  · intro i hstart hstop
    exact ((h.filled_iff i).mpr ⟨word, hword, hstart, hstop⟩).2
  · intro i hi hfilled
    obtain ⟨other, hother, hstart, hstop⟩ := (h.filled_iff i).mp ⟨Nat.zero_le i, hfilled⟩
    rcases h.eq_or_apart hword hother with rfl | hlt | hlt <;> omega
  · intro hfilled
    obtain ⟨other, hother, hstart, hstop⟩ :=
      (h.filled_iff word.stop).mp ⟨Nat.zero_le _, hfilled⟩
    rcases h.eq_or_apart hword hother with rfl | hlt | hlt <;> omega

/-- The words are the runs, each with its text. -/
theorem mem_iff (h : AreWords 0 s all) : word ∈ all ↔ FilledRun s word.start word.stop ∧
    word.text = (s.drop word.start).take (word.stop - word.start) := by
  constructor
  · intro hword
    exact ⟨h.filledRun hword, h.text_eq word hword⟩
  · rintro ⟨hrun, htext⟩
    have hplace := hrun.filled word.start (Nat.le_refl _) hrun.nonempty
    obtain ⟨other, hother, hi⟩ := (h.filled_iff _).mp ⟨Nat.zero_le _, hplace⟩
    have heq := hrun.eq_of_meets (h.filledRun hother) ⟨Nat.le_refl _, hrun.nonempty⟩ hi
    have hother' := h.text_eq other hother
    obtain ⟨text, start, stop⟩ := word
    obtain ⟨text', start', stop'⟩ := other
    obtain ⟨rfl, rfl⟩ := heq
    obtain rfl : text = text' := htext.trans hother'.symm
    exact hother

end AreWords

/-! ## The first word and the last -/

variable {line : List Char}

theorem map_start_head?_words (line : List Char) : (words line).head?.map Word.start =
    if allBlank line then none else some (leadingByIndex line) := by
  cases hblank : allBlank line with
  | true =>
    rw [words_of_allBlank hblank]
    rfl
  | false =>
    obtain ⟨head, _, hhead, _, hstart, _⟩ :=
      exists_ends hblank (isLeast_leadingByIndex hblank) (isGreatest_content hblank)
    rw [List.head?_eq_getElem?, hhead, Option.map_some, hstart]
    rfl

theorem map_stop_getLast?_words (line : List Char) : (words line).getLast?.map Word.stop =
    if allBlank line then none else some (leadingByIndex line + (trim line).length) := by
  cases hblank : allBlank line with
  | true =>
    rw [words_of_allBlank hblank]
    rfl
  | false =>
    obtain ⟨_, final, _, hfinal, _, hstop⟩ :=
      exists_ends hblank (isLeast_leadingByIndex hblank) (isGreatest_content hblank)
    have hpos := List.length_pos_iff.mpr (trim_ne_nil hblank)
    have hbehind : final.stop = leadingByIndex line + (trim line).length := by omega
    rw [List.getLast?_eq_getElem?, hfinal, Option.map_some, hbehind]
    rfl

end Runs

/-! ## Finding runs by their bytes -/

/-- The bytes at which the runs of a text begin and end, with so many bytes before the text: behind
the blanks in front a run begins, and it goes on to the next blank. -/
def runSpans (offset : Nat) (s : List Char) : List (Nat × Nat) :=
  match _hcontent : trimStart s with
  | [] => []
  | c :: rest =>
    let start := offset + byteLength (s.takeWhile isBlank)
    let stop := start + byteLength ((c :: rest).takeWhile (!isBlank ·))
    (start, stop) :: runSpans stop ((c :: rest).dropWhile (!isBlank ·))
termination_by s.length
decreasing_by exact length_behind_word_lt ‹_›

/-- The words at some spans of a line, of which so many bytes and characters have been passed. There
are none if a span, or what is between two of them, is no slice of the line. -/
def wordsAt? (line : List Char) (bytes chars : Nat) : List (Nat × Nat) → Option (List Word)
  | [] => some []
  | (start, stop) :: spans => do
    let gap ← slice? bytes start line
    let text ← slice? start stop line
    let first := chars + gap.length
    let behind := first + text.length
    let more ← wordsAt? line stop behind spans
    return ⟨text, first, behind⟩ :: more

section Spans

variable {line gap text : List Char} {bytes chars start stop : Nat} {spans : List (Nat × Nat)}

/-- One more span gives one more word. -/
theorem wordsAt?_cons (hgap : slice? bytes start line = some gap)
    (htext : slice? start stop line = some text) :
    wordsAt? line bytes chars ((start, stop) :: spans) =
      (wordsAt? line stop (chars + gap.length + text.length) spans).map
        (⟨text, chars + gap.length, chars + gap.length + text.length⟩ :: ·) := by
  simp only [wordsAt?, hgap, htext, Option.bind_eq_bind, Option.bind_some, Option.map_eq_bind]
  rfl

/-- Behind a front part of a line, with as many bytes and characters passed as it has, the spans of
the runs give the words of the rest. -/
theorem wordsAt?_runSpans (front s : List Char) :
    wordsAt? (front ++ s) (byteLength front) front.length (runSpans (byteLength front) s) =
      some (wordsFrom front.length s) := by
  generalize hoffset : byteLength front = offset
  fun_induction runSpans offset s generalizing front with
  | case1 offset s hcontent =>
    rw [wordsAt?, wordsFrom_of_blank (List.dropWhile_eq_nil_iff.mp hcontent)]
  | case2 offset s c rest hcontent start stop ih =>
    let gap := s.takeWhile isBlank
    let run := (c :: rest).takeWhile (!isBlank ·)
    let behind := (c :: rest).dropWhile (!isBlank ·)
    have hs : gap ++ (run ++ behind) = s := blanks_word_behind hcontent
    have hline : front ++ gap ++ run ++ behind = front ++ s := by
      rw [List.append_assoc, List.append_assoc, hs]
    have hstart : start = byteLength (front ++ gap) := by
      rw [byteLength_append, hoffset]
    have hstop : stop = byteLength (front ++ gap ++ run) := by
      rw [byteLength_append, ← hstart]
    have hgap : slice? offset start (front ++ s) = some gap := by
      refine slice?_eq_some_iff.mpr ⟨front, run ++ behind, ?_, hoffset.symm, hstart⟩
      rw [List.append_assoc, hs]
    have hrun : slice? start stop (front ++ s) = some run :=
      slice?_eq_some_iff.mpr ⟨front ++ gap, behind, hline.symm, hstart, hstop⟩
    have hmore := ih (front ++ gap ++ run) hstop.symm
    rw [hline, List.length_append, List.length_append] at hmore
    rw [wordsFrom_of_trimStart hcontent, wordsAt?_cons hgap hrun, hmore]
    rfl

end Spans

/-- **The words of a line are its runs.** What is in the list are the runs of the line, each with the
text at its place. They stand in it from left to right, with a blank at least between any two, and no
character outside of them is anything but blank. The first begins behind the leading blanks of the
line and the last ends where its content does; a blank line has none. The runs that a search finds by
their bytes give the same list when their characters are counted up. -/
theorem words_partition (line : List Char) :
    (∀ word : Word, word ∈ words line ↔ FilledRun line word.start word.stop ∧
      word.text = (line.drop word.start).take (word.stop - word.start)) ∧
    (words line).Pairwise (fun first second => first.stop < second.start) ∧
    (∀ i, FilledAt line i ↔ ∃ word ∈ words line, word.start ≤ i ∧ i < word.stop) ∧
    (words line).head?.map Word.start =
      (if allBlank line then none else some (leadingByIndex line)) ∧
    (words line).getLast?.map Word.stop =
      (if allBlank line then none else some (leadingByIndex line + (trim line).length)) ∧
    wordsAt? line 0 0 (runSpans 0 line) = some (words line) := by
  have hwords := areWords_words line
  refine ⟨fun _ => hwords.mem_iff, hwords.apart, ?_, map_start_head?_words line,
    map_stop_getLast?_words line, wordsAt?_runSpans [] line⟩
  intro i
  rw [← hwords.filled_iff i]
  exact (and_iff_right (Nat.zero_le i)).symm

/-! Words stand at characters, whatever bytes these take. -/

example : words "\u3000né x".toList = [⟨['n', 'é'], 1, 3⟩, ⟨['x'], 4, 5⟩] := by decide

end Offside
