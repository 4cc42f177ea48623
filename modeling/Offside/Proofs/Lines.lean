import Offside.Proofs.Growth

/-!
# From the lines of a text to entries

The structural tokens of a text's stream say how its levels change from line to line. Counting them
gives the levels back: the line entries of the stream are the lines that are not blank, each with
its token and its own level (`lineEntries_tokens`). So the layout of a text, blank lines and all, is
that of its entries, renumbered (`renumbers_text`).
-/

namespace Offside

open Offside.Text

/-! ## Counting the structural tokens -/

/-- A token that may stand for a line in a stream: anything but the structural tokens that the
stream adds. -/
def LineToken.OfLine (line : LineToken) : Prop :=
  line.token.symbol ≠ .indent ∧ line.token.symbol ≠ .dedent ∧ line.token.symbol ≠ .eof

theorem LineToken.OfLine.not_structural {line : LineToken} (h : line.OfLine)
    (hempty : line.token.symbol ≠ .empty) : line.token.isStructural = false := by
  obtain ⟨hindent, hdedent, heof⟩ := h
  rw [Token.isStructural]
  cases hs : line.token.symbol <;> simp_all [Symbol.isStructural]

theorem lineEntries_indents (depth count line : Nat) (rest : List Token) :
    lineEntries depth (List.replicate count (Token.structural .indent line) ++ rest) =
      lineEntries (depth + count) rest := by
  induction count generalizing depth with
  | zero => rfl
  | succ count ih =>
    show lineEntries (depth + 1) (List.replicate count _ ++ rest) = _
    rw [ih, Nat.add_assoc, Nat.add_comm 1]

theorem lineEntries_dedents (depth count line : Nat) (rest : List Token) :
    lineEntries depth (List.replicate count (Token.structural .dedent line) ++ rest) =
      lineEntries (depth - count) rest := by
  induction count generalizing depth with
  | zero => rfl
  | succ count ih =>
    show lineEntries (depth - 1) (List.replicate count _ ++ rest) = _
    rw [ih, Nat.sub_sub, Nat.add_comm 1]

namespace LevelTracker

/-- The tokens between two levels lead from the one to the other. -/
theorem lineEntries_changes (tracker : LevelTracker) (level line : Nat) (rest : List Token) :
    lineEntries tracker.level (tracker.changes level line ++ rest) = lineEntries level rest := by
  rw [changes, List.append_assoc, lineEntries_indents, lineEntries_dedents]
  congr 1
  omega

theorem steps_cons_empty {line : LineToken} (h : line.token.symbol = .empty)
    (tracker : LevelTracker) (lines : List LineToken) : tracker.steps (line :: lines) =
      (line.token :: (tracker.steps lines).1, (tracker.steps lines).2) := by
  have hstep : tracker.step line = ([line.token], tracker) := if_pos h
  show ((tracker.step line).1 ++ ((tracker.step line).2.steps lines).1,
    ((tracker.step line).2.steps lines).2) = _
  rw [hstep]
  rfl

theorem steps_cons_line {line : LineToken} (h : line.token.symbol ≠ .empty)
    (tracker : LevelTracker) (lines : List LineToken) : tracker.steps (line :: lines) =
      (tracker.changes line.level line.token.line ++
          line.token :: (steps ⟨line.level⟩ lines).1, (steps ⟨line.level⟩ lines).2) := by
  have hstep : tracker.step line =
      (tracker.changes line.level line.token.line ++ [line.token], ⟨line.level⟩) := if_neg h
  show ((tracker.step line).1 ++ ((tracker.step line).2.steps lines).1,
    ((tracker.step line).2.steps lines).2) = _
  rw [hstep, List.append_assoc]
  rfl

/-- Every line is met at its own level. -/
theorem lineEntries_steps (tracker : LevelTracker) (lines : List LineToken) (rest : List Token)
    (hlines : ∀ line ∈ lines, line.OfLine) :
    lineEntries tracker.level ((tracker.steps lines).1 ++ rest) =
      lines.filter (·.token.symbol ≠ .empty) ++ lineEntries (tracker.steps lines).2.level rest := by
  induction lines generalizing tracker with
  | nil => rfl
  | cons line lines ih =>
    obtain ⟨hline, hlines⟩ := List.forall_mem_cons.mp hlines
    by_cases hempty : line.token.symbol = .empty
    · rw [steps_cons_empty hempty, List.cons_append, lineEntries_cons_empty hempty,
        ih tracker hlines, List.filter_cons_of_neg (by simp [hempty])]
    · rw [steps_cons_line hempty, List.append_assoc, lineEntries_changes, List.cons_append,
        lineEntries_cons_line (hline.not_structural hempty), ih ⟨line.level⟩ hlines,
        List.filter_cons_of_pos (by simp [hempty])]
      rfl

/-- The line entries of a document's tokens are its lines that are not blank. -/
theorem lineEntries_run (tracker : LevelTracker) (lines : List LineToken) (lineCount : Nat)
    (hlines : ∀ line ∈ lines, line.OfLine) :
    lineEntries tracker.level (tracker.run lines lineCount).1 =
      lines.filter (·.token.symbol ≠ .empty) := by
  show lineEntries tracker.level
    ((tracker.steps lines).1 ++ (tracker.steps lines).2.finish lineCount) = _
  rw [lineEntries_steps tracker lines _ hlines, finish, lineEntries_changes]
  exact List.append_nil _

end LevelTracker

/-! ## Where lines end -/

/-- A character that ends no line belongs to the line that the rest begins with. -/
theorem lines_cons {c : Char} {rest : List Char} (hc : c ≠ '\n')
    (hreturn : c = '\r' → rest.head? ≠ some '\n') :
    lines (c :: rest) = consFirst c (lines rest) := by
  rw [lines]
  · exact hc
  · rintro rest rfl rfl
    exact hreturn rfl rfl

/-- The text is empty or ends in a line feed. -/
def WholeLines (text : List Char) : Prop := text = [] ∨ text.getLast? = some '\n'

theorem lines_ne_nil {text : List Char} (h : text ≠ []) : lines text ≠ [] := by
  fun_cases lines text with
  | case1 => exact absurd rfl h
  | case2 rest => exact List.cons_ne_nil _ _
  | case3 rest => exact List.cons_ne_nil _ _
  | case4 c rest _ _ => cases lines rest <;> exact List.cons_ne_nil _ _

/-- A text of whole lines keeps them, whatever follows. -/
theorem lines_append {text : List Char} (h : WholeLines text) (more : List Char) :
    lines (text ++ more) = lines text ++ lines more := by
  have hnext {c : Char} {rest : List Char} (hlast : (c :: rest).getLast? = some '\n') :
      rest = [] ∨ rest.getLast? = some '\n' := by
    cases rest with
    | nil => exact .inl rfl
    | cons d rest => exact .inr (List.getLast?_cons_cons ▸ hlast)
  fun_induction lines text with
  | case1 => rfl
  | case2 rest ih =>
    have hlast := h.resolve_left (List.cons_ne_nil _ _)
    exact congrArg ([] :: ·) (ih (hnext hlast))
  | case3 rest ih =>
    have hlast := h.resolve_left (List.cons_ne_nil _ _)
    exact congrArg ([] :: ·) (ih (hnext (List.getLast?_cons_cons ▸ hlast)))
  | case4 c rest hfeed hreturn ih =>
    have hlast := h.resolve_left (List.cons_ne_nil _ _)
    -- the line feed is still ahead, so the line that the character belongs to ends before `more`
    obtain ⟨d, rest, rfl⟩ : ∃ d rest', rest = d :: rest' := by
      cases rest with
      | nil => exact (hfeed (Option.some.inj hlast)).elim
      | cons d rest => exact ⟨d, rest, rfl⟩
    have hfirst : c = '\r' → (d :: rest ++ more).head? ≠ some '\n' := by
      intro hc hd
      obtain rfl := Option.some.inj hd
      exact hreturn rest hc rfl
    rw [List.cons_append, lines_cons hfeed hfirst, ih (hnext hlast)]
    obtain ⟨line, others, hlines⟩ :=
      List.exists_cons_of_ne_nil (lines_ne_nil (List.cons_ne_nil d rest))
    rw [hlines]
    rfl

/-- No line holds a line feed. -/
theorem feed_not_mem_of_mem_lines {text line : List Char} (h : line ∈ lines text) : '\n' ∉ line := by
  fun_induction lines text generalizing line with
  | case1 => cases h
  | case2 rest ih | case3 rest ih =>
    rcases List.mem_cons.mp h with rfl | h
    · exact List.not_mem_nil
    · exact ih h
  | case4 c rest hfeed _ ih =>
    have hc : '\n' ≠ c := fun heq => hfeed heq.symm
    cases hrest : lines rest with
    | nil =>
      rw [hrest, consFirst, List.mem_singleton] at h
      rw [h, List.mem_singleton]
      exact hc
    | cons first others =>
      rw [hrest, consFirst] at h
      rcases List.mem_cons.mp h with rfl | h
      · have hfirst : '\n' ∉ first := ih (hrest ▸ List.mem_cons_self)
        rw [List.mem_cons, not_or]
        exact ⟨hc, hfirst⟩
      · exact ih (hrest ▸ List.mem_cons_of_mem first h)

/-! ## The lines of a text -/

/-- Line `i` of a text; empty if there is no such line. -/
def textLine (text : List Char) (i : Nat) : List Char := ((lines text)[i]?).getD []

/-- The numbers of the lines that are not blank. -/
def filledLines (text : List Char) : List Nat :=
  (List.range (lineCount text)).filter fun i => !allBlank (textLine text i)

/-- The layout of a text: which lines are blank, what the others introduce, and where they stand. -/
def Layout.ofText (tabs : Tabs) (text : List Char) : Layout where
  filled i := !allBlank (textLine text i)
  opens i := (LineKind.ofLine (textLine text i)).symbol.opensBlock
  level i := Offside.level tabs (textLine text i)

/-- The entries of a text: its lines that are not blank, with their tokens and levels. -/
def textEntries (tabs : Tabs) (text : List Char) : List LineToken :=
  (filledLines text).map fun i => lineToken tabs i (textLine text i)

/-! ## The stream of a text -/

theorem LineKind.symbol_not_structural (kind : LineKind) : kind.symbol.isStructural = false := by
  cases kind <;> rfl

theorem lineToken_of_blank (tabs : Tabs) (number : Nat) {line : List Char}
    (h : allBlank line = true) : lineToken tabs number line = ⟨.structural .empty number, 0⟩ :=
  if_pos h

theorem lineToken_of_filled (tabs : Tabs) (number : Nat) {line : List Char}
    (h : allBlank line = false) : lineToken tabs number line =
      ⟨⟨(LineKind.ofLine line).symbol, (LineKind.ofLine line).attr, number, leadingByIndex line⟩,
        level tabs line⟩ :=
  if_neg (by simp [h])

theorem lineToken_line (tabs : Tabs) (number : Nat) (line : List Char) :
    (lineToken tabs number line).token.line = number := by
  unfold lineToken
  split <;> rfl

theorem lineToken_not_structural (tabs : Tabs) (number : Nat) {line : List Char}
    (h : allBlank line = false) :
    (lineToken tabs number line).token.symbol.isStructural = false := by
  rw [lineToken_of_filled tabs number h]
  exact (LineKind.ofLine line).symbol_not_structural

theorem lineToken_ofLine (tabs : Tabs) (number : Nat) (line : List Char) :
    (lineToken tabs number line).OfLine := by
  cases h : allBlank line with
  | true =>
    rw [lineToken_of_blank tabs number h]
    exact ⟨nofun, nofun, nofun⟩
  | false =>
    have hsymbol := lineToken_not_structural tabs number h
    refine ⟨?_, ?_, ?_⟩ <;> intro heq <;> rw [heq] at hsymbol <;> cases hsymbol

theorem lineToken_symbol_eq_empty_iff (tabs : Tabs) (number : Nat) (line : List Char) :
    (lineToken tabs number line).token.symbol = .empty ↔ allBlank line = true := by
  cases h : allBlank line with
  | true =>
    rw [lineToken_of_blank tabs number h]
    exact iff_of_true rfl rfl
  | false =>
    have hsymbol := lineToken_not_structural tabs number h
    refine iff_of_false (fun heq => ?_) Bool.false_ne_true
    rw [heq] at hsymbol
    cases hsymbol

theorem lineTokens_eq (tabs : Tabs) (text : List Char) : lineTokens tabs text =
    (List.range (lineCount text)).map fun i => lineToken tabs i (textLine text i) := by
  refine List.ext_getElem? ?_
  intro i
  rw [lineTokens, lineCount, List.getElem?_map, List.getElem?_map, List.getElem?_zipIdx]
  by_cases hi : i < (lines text).length
  · simp only [List.getElem?_range hi, textLine, List.getElem?_eq_getElem hi, Option.map_some,
      Option.getD_some, Nat.zero_add]
  · rw [List.getElem?_eq_none (by omega),
      List.getElem?_eq_none (by simpa only [List.length_range, Nat.not_lt] using hi)]
    rfl

theorem ofLine_of_mem_lineTokens {tabs : Tabs} {text : List Char} {line : LineToken}
    (h : line ∈ lineTokens tabs text) : line.OfLine := by
  rw [lineTokens_eq] at h
  obtain ⟨i, _, rfl⟩ := List.mem_map.mp h
  exact lineToken_ofLine tabs i _

/-- The line entries of a text's stream are its lines that are not blank, each at its own level. -/
theorem lineEntries_tokens (tabs : Tabs) (text : List Char) :
    lineEntries 0 (tokens tabs text) = textEntries tabs text := by
  have hlines : ∀ line ∈ lineTokens tabs text, line.OfLine := fun _ h => ofLine_of_mem_lineTokens h
  have hfilled (i : Nat) : decide ((lineToken tabs i (textLine text i)).token.symbol ≠ .empty) =
      !allBlank (textLine text i) := by
    rw [Bool.eq_iff_iff, decide_eq_true_eq, Ne, lineToken_symbol_eq_empty_iff, Bool.not_eq_true',
      Bool.not_eq_true]
  have hrun := LevelTracker.lineEntries_run .start (lineTokens tabs text) (lineCount text) hlines
  rw [lineTokens_eq, List.filter_map] at hrun
  rw [textEntries, filledLines, ← funext hfilled, tokens, lineTokens_eq]
  exact hrun

/-- The outline of a text has the root and the nodes of the text's entries, and no others. -/
theorem Outline.lists_ofText (tabs : Tabs) (text : List Char) :
    (Outline.ofText tabs text).Lists (textEntries tabs text) :=
  lineEntries_tokens tabs text ▸ lists_ofTokens (tokens tabs text) (Offside.lineCount text)

@[simp] theorem Outline.lineCount_ofText (tabs : Tabs) (text : List Char) :
    (Outline.ofText tabs text).lineCount = Offside.lineCount text := lineCount_ofTokens ..

/-! ## The lines that are not blank -/

section Filled

variable {tabs : Tabs} {text : List Char} {i p q : Nat}

/-- The number of the line that is the `p`-th of those that are not blank. -/
def filledLine (text : List Char) (p : Nat) : Nat := ((filledLines text)[p]?).getD 0

@[simp] theorem length_textEntries : (textEntries tabs text).length = (filledLines text).length :=
  List.length_map ..

theorem filledLine_eq (h : (filledLines text)[p]? = some i) : filledLine text p = i := by
  rw [filledLine, h, Option.getD_some]

theorem mem_filledLines :
    i ∈ filledLines text ↔ i < lineCount text ∧ allBlank (textLine text i) = false := by
  rw [filledLines, List.mem_filter, List.mem_range, Bool.not_eq_true']

theorem filledLines_ascending (text : List Char) : (filledLines text).Pairwise (· < ·) :=
  List.pairwise_lt_range.filter _

theorem getElem?_textEntries (tabs : Tabs) (h : (filledLines text)[p]? = some i) :
    (textEntries tabs text)[p]? =
      some ⟨⟨(LineKind.ofLine (textLine text i)).symbol, (LineKind.ofLine (textLine text i)).attr,
        i, leadingByIndex (textLine text i)⟩, level tabs (textLine text i)⟩ := by
  have hfilled := (mem_filledLines.mp (List.mem_of_getElem? h)).2
  rw [textEntries, List.getElem?_map, h, Option.map_some, lineToken_of_filled tabs i hfilled]

theorem map_line_textEntries (tabs : Tabs) (text : List Char) :
    (textEntries tabs text).map (·.token.line) = filledLines text := by
  refine List.ext_getElem? ?_
  intro p
  rw [List.getElem?_map]
  cases hi : (filledLines text)[p]? with
  | none => rw [textEntries, List.getElem?_map, hi, Option.map_none, Option.map_none]
  | some i => rw [getElem?_textEntries tabs hi, Option.map_some]

/-- Only lines that there are can be filled. -/
theorem filled_ofText_iff : (Layout.ofText tabs text).filled i ↔ i ∈ filledLines text := by
  rw [mem_filledLines, Layout.ofText, Bool.not_eq_true', iff_and_self]
  intro h
  refine Nat.lt_of_not_le ?_
  intro hi
  rw [textLine, List.getElem?_eq_none hi] at h
  cases h

/-- The layout of a text's entries is that of the text, but for the numbers of the lines. -/
theorem renumbers_text (tabs : Tabs) (text : List Char) :
    Layout.Renumbers (.ofEntries (textEntries tabs text)) (.ofText tabs text)
      (filledLines text).length (lineCount text) (filledLine text) where
  ascending p q hpq hq := by
    have hp : p < (filledLines text).length := by omega
    rw [filledLine_eq (List.getElem?_eq_getElem hp), filledLine_eq (List.getElem?_eq_getElem hq)]
    exact List.pairwise_iff_getElem.mp (filledLines_ascending text) p q hp hq hpq
  lt p hp := by
    rw [filledLine_eq (List.getElem?_eq_getElem hp)]
    exact (mem_filledLines.mp (List.getElem_mem hp)).1
  filled i _ := by
    rw [filled_ofText_iff, List.mem_iff_getElem?]
    constructor
    · rintro ⟨p, hp⟩
      exact ⟨p, (List.getElem?_eq_some_iff.mp hp).1, filledLine_eq hp⟩
    · rintro ⟨p, hp, rfl⟩
      exact ⟨p, by rw [filledLine, List.getElem?_eq_getElem hp, Option.getD_some]⟩
  inner_filled p := by rw [filled_ofEntries, length_textEntries]
  opens p hp := by
    have hi : (filledLines text)[p]? = some _ := List.getElem?_eq_getElem hp
    rw [opens_ofEntries (getElem?_textEntries tabs hi), filledLine_eq hi]
    rfl
  level p hp := by
    have hi : (filledLines text)[p]? = some _ := List.getElem?_eq_getElem hp
    rw [level_ofEntries (getElem?_textEntries tabs hi), filledLine_eq hi]
    rfl

end Filled

end Offside
