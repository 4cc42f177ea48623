import Mathlib.Data.List.DropRight
import Offside.Proofs.Lines

/-!
# Spacing at the end of a line

Spacing behind a line never changes what the line introduces, though it may well change its pieces:
it is swallowed by a comment or by a string that is never closed, it makes an escape of a backslash
at the end, or it is a piece of its own. What changes is always idle, a piece that no classification
looks for (`Piece.isIdle`), and stands behind everything else (`pieces_append_spacing`). So two
texts whose lines differ in nothing but spacing at the end have the same tokens and the same
outline, and it makes no difference whether lines end in a line feed or in a carriage return and a
line feed.
-/

namespace Offside

open Offside.Text

/-! ## Idle pieces -/

/-- Whether a piece says nothing about what its line introduces: it is no word, no colon, no bracket
and no string. -/
def Piece.isIdle (piece : Piece) : Bool :=
  match piece.kind with
  | none | some .whitespace | some .other | some .comment => true
  | _ => false

/-- Pieces none of which says anything about what their line introduces. -/
def Idle (line : List Piece) : Prop := ∀ piece ∈ line, piece.isIdle = true

/-- The pieces are the same but for idle ones at the end. -/
def SameUpToIdle (first second : List Piece) : Prop :=
  ∃ common idle idle', Idle idle ∧ Idle idle' ∧ first = common ++ idle ∧ second = common ++ idle'

section Idle

variable {line idle first second : List Piece} {piece : Piece}

@[simp] theorem idle_nil : Idle [] := nofun

@[simp] theorem idle_cons : Idle (piece :: line) ↔ piece.isIdle = true ∧ Idle line :=
  List.forall_mem_cons

/-- Idle pieces begin with text of no kind, spacing, a comment or other text. -/
theorem Idle.cases (h : Idle line) : line = [] ∨ ∃ kind text rest, line = ⟨kind, text⟩ :: rest ∧
    (kind = none ∨ kind = some .whitespace ∨ kind = some .other ∨ kind = some .comment) := by
  obtain _ | ⟨⟨_ | kind, text⟩, rest⟩ := line
  · exact .inl rfl
  · exact .inr ⟨_, text, rest, rfl, .inl rfl⟩
  · have hkind := (idle_cons.mp h).1
    refine .inr ⟨_, text, rest, rfl, .inr ?_⟩
    cases kind <;> simp_all [Piece.isIdle]

theorem SameUpToIdle.ends (hfirst : Idle first) (hsecond : Idle second) :
    SameUpToIdle first second := ⟨[], first, second, hfirst, hsecond, rfl, rfl⟩

theorem SameUpToIdle.cons (piece : Piece) (h : SameUpToIdle first second) :
    SameUpToIdle (piece :: first) (piece :: second) := by
  obtain ⟨common, idle, idle', hidle, hidle', rfl, rfl⟩ := h
  exact ⟨piece :: common, idle, idle', hidle, hidle', rfl, rfl⟩

/-! ## Idle pieces at the end of a line -/

/-- With idle pieces behind a line, it still begins with the same significant piece; if it had none,
it begins with an idle one or with none. -/
theorem fromSignificant_append_idle (line : List Piece) (hidle : Idle idle) :
    (fromSignificant line = [] ∧ Idle (fromSignificant (line ++ idle))) ∨
      ∃ piece rest, fromSignificant line = piece :: rest ∧
        fromSignificant (line ++ idle) = piece :: (rest ++ idle) := by
  rw [fromSignificant, fromSignificant, List.dropWhile_append]
  cases hline : line.dropWhile (!·.isSignificant) with
  | nil =>
    refine .inl ⟨rfl, ?_⟩
    intro piece hpiece
    exact hidle piece ((List.dropWhile_suffix _).subset hpiece)
  | cons piece rest => exact .inr ⟨piece, rest, rfl, rfl⟩

theorem textBeforeColon_of_idle (depth : Nat) (h : Idle line) :
    textBeforeColon depth line = none := by
  induction line with
  | nil => rfl
  | cons piece rest ih =>
    obtain ⟨hpiece, hrest⟩ := idle_cons.mp h
    unfold textBeforeColon
    obtain ⟨_ | kind, text⟩ := piece
    · simp [ih hrest]
    · cases kind <;> simp_all [Piece.isIdle]

theorem textBeforeColon_append_idle (depth : Nat) (line : List Piece) (hidle : Idle idle) :
    textBeforeColon depth (line ++ idle) = textBeforeColon depth line := by
  induction line generalizing depth with
  | nil => exact textBeforeColon_of_idle depth hidle
  | cons piece rest ih => simp only [List.cons_append, textBeforeColon, ih]

theorem clause_append_idle (line : List Piece) (hidle : Idle idle) :
    clause (line ++ idle) = clause line := by
  rw [clause, clause, textBeforeColon_append_idle 0 line hidle]

theorem LineKind.announced_append_idle (kind : BlockKind) (line : List Piece) (hidle : Idle idle) :
    announced kind (line ++ idle) = announced kind line := by
  unfold announced
  rw [clause_append_idle line hidle]
  obtain ⟨hline, hend⟩ | ⟨⟨word, name⟩, rest, hline, hlonger⟩ :=
    fromSignificant_append_idle line hidle
  · rw [hline]
    obtain hend | ⟨_, _, _, hend, rfl | rfl | rfl | rfl⟩ := hend.cases <;> rw [hend]
  rw [hline, hlonger]
  -- The line begins as it did; only the bracket behind a name is looked for further on.
  obtain hname | hname := Decidable.em (word = some .identifier)
  · subst hname
    cases kind.shape with
    | name | clause | optionalClause | bare => rfl
    | parameters =>
      dsimp only
      obtain ⟨hrest, hend⟩ | ⟨⟨next, _⟩, _, hrest, hlonger⟩ :=
        fromSignificant_append_idle rest hidle
      · rw [hrest]
        obtain hend | ⟨_, _, _, hend, rfl | rfl | rfl | rfl⟩ := hend.cases <;> rw [hend]
      · rw [hrest, hlonger]
        obtain _ | next := next
        · rfl
        · cases next <;> rfl
  · obtain _ | word := word
    · rfl
    · cases word <;> first | rfl | exact absurd rfl hname

theorem LineKind.ofPieces_append_idle (line : List Piece) (hidle : Idle idle) :
    ofPieces (line ++ idle) = ofPieces line := by
  unfold ofPieces
  obtain ⟨hline, hend⟩ | ⟨⟨word, _⟩, rest, hline, hlonger⟩ :=
    fromSignificant_append_idle line hidle
  · rw [hline]
    obtain hend | ⟨_, _, _, hend, rfl | rfl | rfl | rfl⟩ := hend.cases <;> rw [hend]
  rw [hline, hlonger]
  obtain _ | (_ | kind) | _ := word <;> try rfl
  · dsimp only
    obtain ⟨hrest, hend⟩ | ⟨⟨next, _⟩, more, hrest, hlonger⟩ :=
      fromSignificant_append_idle rest hidle
    · rw [hrest]
      obtain hend | ⟨_, _, _, hend, rfl | rfl | rfl | rfl⟩ := hend.cases <;> rw [hend]
    · rw [hrest, hlonger]
      obtain _ | (_ | kind) | _ := next <;> try rfl
      simp only [announced_append_idle kind more hidle]
  · exact announced_append_idle kind rest hidle

theorem SameUpToIdle.ofPieces_eq (h : SameUpToIdle first second) :
    LineKind.ofPieces first = LineKind.ofPieces second := by
  obtain ⟨common, idle, idle', hidle, hidle', rfl, rfl⟩ := h
  rw [LineKind.ofPieces_append_idle common hidle, LineKind.ofPieces_append_idle common hidle']

end Idle

/-! ## Characters of spacing -/

section Spacing

variable {c : Char} {spacing : List Char}

theorem isSpacing_cases (h : isSpacing c = true) : c = ' ' ∨ c = '\t' ∨ c = '\r' ∨ c = '\x0c' := by
  simpa [isSpacing, or_assoc] using h

theorem isBlank_of_isSpacing (h : isSpacing c = true) : isBlank c = true := by
  obtain rfl | rfl | rfl | rfl := isSpacing_cases h <;> decide

/-- Spacing belongs to no word and to no run of other characters. -/
theorem not_isPlain_of_isSpacing (h : isSpacing c = true) : isPlain c = false := by
  simp [isPlain, isBlank_of_isSpacing h]

theorem not_continuesIdentifier_of_isSpacing (h : isSpacing c = true) :
    continuesIdentifier c = false := by
  obtain rfl | rfl | rfl | rfl := isSpacing_cases h <;> decide +kernel

theorem not_hidesKeyword_of_isSpacing (h : isSpacing c = true) : hidesKeyword c = false := by
  obtain rfl | rfl | rfl | rfl := isSpacing_cases h <;> decide

theorem Cut.first_of_isSpacing (h : isSpacing c = true) (rest : List Char) :
    Cut.first c rest = Cut.run .whitespace isSpacing c rest := by
  obtain rfl | rfl | rfl | rfl := isSpacing_cases h <;> rfl

/-! ## Spacing behind a quote -/

theorem quoted_of_escape {quote c : Char} (hc : c ≠ '\n') (rest : List Char) :
    quoted quote ('\\' :: c :: rest) = ((quoted quote rest).1,
      '\\' :: c :: (quoted quote rest).2.1, (quoted quote rest).2.2) := by
  rw [quoted, if_neg hc]

theorem quoted_of_plain {quote c : Char} (hquote : c ≠ quote) (hc : c ≠ '\\') (rest : List Char) :
    quoted quote (c :: rest) = ((quoted quote rest).1,
      c :: (quoted quote rest).2.1, (quoted quote rest).2.2) := by
  rw [quoted, if_neg hquote, if_neg hc]
  exact fun _ _ h => absurd h hc

theorem quoted_of_spacing (h : ∀ c ∈ spacing, isSpacing c = true) {quote : Char}
    (hquote : isQuote quote = true) : quoted quote spacing = (false, spacing, []) := by
  induction spacing with
  | nil => rfl
  | cons c rest ih =>
    obtain ⟨hc, hrest⟩ := List.forall_mem_cons.mp h
    have hclose : c ≠ quote := by
      rintro rfl
      obtain rfl | rfl | rfl | rfl := isSpacing_cases hc <;> cases hquote
    have hescape : c ≠ '\\' := by
      rintro rfl
      cases hc
    rw [quoted_of_plain hclose hescape, ih hrest]

theorem quoted_of_close {quote : Char} (hquote : isQuote quote = true) (rest : List Char) :
    quoted quote (quote :: rest) = (true, [quote], rest) := by
  rw [quoted, if_pos rfl]
  rintro _ _ rfl
  cases hquote

theorem idle_pieces_backslash : Idle (pieces ['\\']) := by
  have hfirst : Cut.first '\\' [] = Cut.run .other isPlain '\\' [] := rfl
  rw [pieces, hfirst]
  simp [Cut.run, Piece.isIdle, pieces]

/-- What is read behind a quote says nothing: the quote is not closed, and what is left is idle. -/
def Unclosed (read : Bool × List Char × List Char) : Prop :=
  read.1 = false ∧ Idle (pieces read.2.2)

/-- What a quote reads is the same with spacing behind the text, unless the text leaves it open. -/
theorem quoted_append_spacing (h : ∀ c ∈ spacing, isSpacing c = true) {quote : Char}
    (hquote : isQuote quote = true) (s : List Char) :
    quoted quote (s ++ spacing) =
        ((quoted quote s).1, (quoted quote s).2.1, (quoted quote s).2.2 ++ spacing) ∨
      Unclosed (quoted quote s) ∧ Unclosed (quoted quote (s ++ spacing)) := by
  have hnil : Idle (pieces []) := by simp [pieces]
  fun_induction quoted quote s with
  | case1 =>
    rw [List.nil_append, quoted_of_spacing h hquote]
    exact .inr ⟨⟨rfl, hnil⟩, rfl, hnil⟩
  | case2 rest =>
    refine .inl ?_
    rw [List.cons_append, List.cons_append, quoted, if_pos rfl]
  | case3 next rest hnext closed text after heq ih =>
    rw [heq] at ih
    rw [List.cons_append, List.cons_append, quoted_of_escape hnext]
    obtain ih | ih := ih
    · exact .inl (by rw [ih])
    · exact .inr ih
  | case4 rest =>
    refine .inl ?_
    rw [List.cons_append, quoted_of_close hquote]
  | case5 rest hlast hquote' =>
    -- The backslash is the last character of the line, so the first spacing makes an escape of it.
    obtain rfl : rest = [] := by
      cases rest with
      | nil => rfl
      | cons c rest => exact (hlast c rest rfl rfl).elim
    refine .inr ⟨⟨rfl, idle_pieces_backslash⟩, ?_⟩
    cases spacing with
    | nil =>
      rw [List.append_nil, quoted, if_neg hquote', if_pos rfl]
      · exact ⟨rfl, idle_pieces_backslash⟩
      · exact hlast
    | cons c spacing =>
      obtain ⟨hc, hspacing⟩ := List.forall_mem_cons.mp h
      have hfeed : c ≠ '\n' := by
        rintro rfl
        cases hc
      rw [List.cons_append, List.nil_append, quoted_of_escape hfeed,
        quoted_of_spacing hspacing hquote]
      exact ⟨rfl, hnil⟩
  | case6 c rest _ hclose hescape closed text after heq ih =>
    rw [heq] at ih
    rw [List.cons_append, quoted_of_plain hclose hescape]
    obtain ih | ih := ih
    · exact .inl (by rw [ih])
    · exact .inr ih

/-! ## Spacing behind a piece -/

/-- The same piece, with more text behind what is left. -/
def Cut.behind (cut : Cut) (more : List Char) : Cut := ⟨cut.piece, cut.rest ++ more⟩

/-- Neither the piece that is cut off nor any piece behind it says what the line introduces. -/
def Cut.Idle (cut : Cut) : Prop := cut.piece.isIdle = true ∧ Offside.Idle (pieces cut.rest)

/-- More text leaves the cut as it is and stays behind it, unless both cuts are idle. -/
def Cut.Keeps (cut : Cut) (more : List Char) (longer : Cut) : Prop :=
  longer = cut.behind more ∨ cut.Idle ∧ longer.Idle

/-- A run that takes no spacing ends where it did. -/
theorem Cut.run_append_of_none {p : Char → Bool} (h : ∀ c ∈ spacing, p c = false)
    (kind : LexemeKind) (c : Char) (rest : List Char) :
    Cut.run kind p c (rest ++ spacing) = (Cut.run kind p c rest).behind spacing := by
  rw [Cut.run, takeWhile_append_of_none h, dropWhile_append_of_none h]
  rfl

/-- A run of idle text that would take the spacing too takes it only if nothing else stops it. -/
theorem Cut.run_append_of_all {p : Char → Bool} (h : ∀ c ∈ spacing, p c = true)
    {kind : LexemeKind} (hkind : ∀ text, Piece.isIdle ⟨some kind, text⟩ = true) (c : Char)
    (rest : List Char) :
    (Cut.run kind p c rest).Keeps spacing (Cut.run kind p c (rest ++ spacing)) := by
  by_cases hrest : ∀ d ∈ rest, p d = true
  · have hall : ∀ d ∈ rest ++ spacing, p d = true := List.forall_mem_append.mpr ⟨hrest, h⟩
    refine .inr ⟨⟨hkind _, ?_⟩, hkind _, ?_⟩
    · rw [Cut.run, List.dropWhile_eq_nil_iff.mpr hrest, pieces]
      exact idle_nil
    · rw [Cut.run, List.dropWhile_eq_nil_iff.mpr hall, pieces]
      exact idle_nil
  · left
    rw [Cut.run, List.takeWhile_append, List.dropWhile_append, if_neg, if_neg]
    · rfl
    · rw [List.isEmpty_iff, List.dropWhile_eq_nil_iff]
      exact hrest
    · exact fun hlength => hrest <| List.takeWhile_eq_self_iff.mp <|
        (List.takeWhile_prefix p).eq_of_length hlength

variable (h : ∀ c ∈ spacing, isSpacing c = true)

include h

theorem pieces_of_spacing : Idle (pieces spacing) := by
  cases spacing with
  | nil => simp [pieces]
  | cons c rest =>
    obtain ⟨hc, hrest⟩ := List.forall_mem_cons.mp h
    rw [pieces, Cut.first_of_isSpacing hc]
    simp [Cut.run, Piece.isIdle, List.dropWhile_eq_nil_iff.mpr hrest, pieces]

/-- Spacing behind a word does not hide that it is a keyword, and does not show it. -/
theorem wordKind_append_spacing (word after : List Char) :
    wordKind word (after ++ spacing).head? = wordKind word after.head? := by
  obtain _ | ⟨c, _⟩ := after
  · obtain _ | ⟨c, _⟩ := spacing
    · rfl
    · have hc : hidesKeyword c = false := not_hidesKeyword_of_isSpacing (h c List.mem_cons_self)
      simp [wordKind, hc]
  · rfl

theorem Cut.word_append_spacing (c : Char) (rest : List Char) :
    Cut.word c (rest ++ spacing) = (Cut.word c rest).behind spacing := by
  have hnone : ∀ d ∈ spacing, continuesIdentifier d = false :=
    fun d hd => not_continuesIdentifier_of_isSpacing (h d hd)
  simp only [Cut.word, Cut.behind, takeWhile_append_of_none hnone, dropWhile_append_of_none hnone,
    wordKind_append_spacing h]

theorem Cut.colon_append_spacing (rest : List Char) :
    Cut.colon (rest ++ spacing) = (Cut.colon rest).behind spacing := by
  obtain _ | ⟨d, rest⟩ := rest
  · obtain _ | ⟨d, spacing⟩ := spacing
    · rfl
    · obtain rfl | rfl | rfl | rfl := isSpacing_cases (h d List.mem_cons_self) <;> rfl
  · obtain rfl | hd := eq_or_ne d '='
    · rfl
    · simp [Cut.colon, Cut.behind, hd]

theorem Cut.string_append_spacing {quote : Char} (hquote : isQuote quote = true)
    (rest : List Char) :
    (Cut.string quote rest).Keeps spacing (Cut.string quote (rest ++ spacing)) := by
  obtain hsame | ⟨⟨hopen, hidle⟩, hopen', hidle'⟩ := quoted_append_spacing h hquote rest
  · left
    rw [Cut.string, hsame]
    rfl
  · right
    simp only [Cut.string, Cut.Idle, hopen, hopen', hidle, hidle', Piece.isIdle, and_self,
      Bool.false_eq_true, if_false]

/-- Spacing at the end of a text does not touch the text's first piece, unless that piece and all
behind it are idle. -/
theorem Cut.first_append_spacing (c : Char) (rest : List Char) :
    (Cut.first c rest).Keeps spacing (Cut.first c (rest ++ spacing)) := by
  unfold Cut.first
  split
  · exact .inl (Cut.word_append_spacing h c rest)
  split
  · exact .inl (Cut.colon_append_spacing h rest)
  split
  · exact .inl rfl
  split
  · exact .inl rfl
  split
  · refine Cut.run_append_of_all (fun d hd => ?_) (fun _ => rfl) c rest
    obtain rfl | rfl | rfl | rfl := isSpacing_cases (h d hd) <;> rfl
  split
  · exact Cut.string_append_spacing h ‹_› rest
  split
  · exact Cut.run_append_of_all h (fun _ => rfl) c rest
  split
  · exact .inl rfl
  · exact .inl (Cut.run_append_of_none (fun d hd => not_isPlain_of_isSpacing (h d hd)) _ c rest)

/-- Spacing at the end of a line changes its pieces by idle ones at the end only. -/
theorem pieces_append_spacing (line : List Char) :
    SameUpToIdle (pieces line) (pieces (line ++ spacing)) := by
  fun_induction pieces line with
  | case1 => exact .ends idle_nil (pieces_of_spacing h)
  | case2 c rest ih =>
    rw [List.cons_append, pieces]
    obtain hsame | ⟨hidle, hidle'⟩ := Cut.first_append_spacing h c rest
    · rw [hsame]
      exact ih.cons _
    · exact .ends (idle_cons.mpr hidle) (idle_cons.mpr hidle')

end Spacing

/-! ## Spacing behind a line -/

section Lines

variable {spacing : List Char}

theorem trimStart_append_of_filled {line : List Char} (hline : allBlank line = false)
    (more : List Char) : trimStart (line ++ more) = trimStart line ++ more := by
  rw [trimStart, List.dropWhile_append, if_neg, trimStart]
  rw [List.isEmpty_iff, List.dropWhile_eq_nil_iff]
  exact fun hall => by simp [allBlank, List.all_eq_true.mpr hall] at hline

theorem leadingByIndex_append_of_filled {line : List Char} (hline : allBlank line = false)
    (more : List Char) : leadingByIndex (line ++ more) = leadingByIndex line := by
  rw [leadingByIndex, List.findIdx_append, if_pos, leadingByIndex]
  rw [List.findIdx_lt_length]
  simpa [allBlank] using hline

variable (h : ∀ c ∈ spacing, isSpacing c = true)

include h

theorem allBlank_append_spacing (line : List Char) :
    allBlank (line ++ spacing) = allBlank line := by
  have hspacing : spacing.all isBlank = true :=
    List.all_eq_true.mpr fun c hc => isBlank_of_isSpacing (h c hc)
  rw [allBlank, List.all_append, hspacing, Bool.and_true, allBlank]

/-- Spacing behind a line does not change the token of the line. -/
theorem lineToken_append_spacing (tabs : Tabs) (number : Nat) (line : List Char) :
    lineToken tabs number (line ++ spacing) = lineToken tabs number line := by
  cases hline : allBlank line with
  | true =>
    rw [lineToken_of_blank tabs number hline, lineToken_of_blank tabs number]
    rw [allBlank_append_spacing h, hline]
  | false =>
    have hlonger : allBlank (line ++ spacing) = false := by rw [allBlank_append_spacing h, hline]
    have hkind : LineKind.ofLine (line ++ spacing) = LineKind.ofLine line := by
      rw [LineKind.ofLine, trimStart_append_of_filled hline, LineKind.ofLine]
      exact (pieces_append_spacing h (trimStart line)).ofPieces_eq.symm
    have hleading := leadingByIndex_append_of_filled hline spacing
    rw [lineToken_of_filled tabs number hlonger, lineToken_of_filled tabs number hline, hkind,
      hleading, level, level, hleading, hlonger, hline]

end Lines

/-- A line without the spacing at its end. -/
def stripEnd (line : List Char) : List Char := line.rdropWhile isSpacing

theorem lineToken_stripEnd (tabs : Tabs) (number : Nat) (line : List Char) :
    lineToken tabs number (stripEnd line) = lineToken tabs number line := by
  have hspacing : ∀ c ∈ line.rtakeWhile isSpacing, isSpacing c = true :=
    fun c hc => List.mem_rtakeWhile_imp hc
  rw [← lineToken_append_spacing hspacing, stripEnd, List.rdropWhile_append_rtakeWhile]

/-! ## Line ends -/

/-- The lines of a text, without the spacing at their ends. -/
def strippedLines (text : List Char) : List (List Char) := (lines text).map stripEnd

theorem lineTokens_eq_of_stripped (tabs : Tabs) (text : List Char) : lineTokens tabs text =
    (strippedLines text).zipIdx.map fun row => lineToken tabs row.2 row.1 := by
  rw [lineTokens, strippedLines, List.zipIdx_map, List.map_map]
  apply List.map_congr_left
  intro row _
  exact (lineToken_stripEnd tabs row.2 row.1).symm

theorem lineCount_eq_of_stripped (text : List Char) :
    lineCount text = (strippedLines text).length := (List.length_map ..).symm

/-- The text with a carriage return before every line feed. -/
def withCarriageReturns (text : List Char) : List Char :=
  text.flatMap fun c => if c = '\n' then ['\r', '\n'] else [c]

theorem stripEnd_cons_congr (c : Char) {line line' : List Char}
    (h : stripEnd line = stripEnd line') :
    stripEnd (c :: line) = stripEnd (c :: line') := by
  rw [stripEnd, stripEnd, List.rdropWhile, List.rdropWhile, List.reverse_inj] at h
  rw [stripEnd, stripEnd, List.rdropWhile, List.rdropWhile, List.reverse_cons, List.reverse_cons,
    List.dropWhile_append, List.dropWhile_append, h]

theorem consFirst_stripEnd_congr (c : Char) {first second : List (List Char)}
    (h : first.map stripEnd = second.map stripEnd) :
    (consFirst c first).map stripEnd = (consFirst c second).map stripEnd := by
  obtain _ | ⟨line, rest⟩ := first <;> obtain _ | ⟨line', rest'⟩ := second
  · rfl
  · cases h
  · cases h
  · obtain ⟨hline, hrest⟩ := List.cons_eq_cons.mp h
    exact List.cons_eq_cons.mpr ⟨stripEnd_cons_congr c hline, hrest⟩

theorem withCarriageReturns_cons {c : Char} (hc : c ≠ '\n') (rest : List Char) :
    withCarriageReturns (c :: rest) = c :: withCarriageReturns rest := by
  rw [withCarriageReturns, List.flatMap_cons, if_neg hc]
  rfl

theorem head?_withCarriageReturns_ne (text : List Char) :
    (withCarriageReturns text).head? ≠ some '\n' := by
  cases text with
  | nil => nofun
  | cons c rest =>
    obtain rfl | hc := eq_or_ne c '\n'
    · nofun
    · simpa [withCarriageReturns_cons hc] using hc

theorem strippedLines_withCarriageReturns (text : List Char) :
    strippedLines (withCarriageReturns text) = strippedLines text := by
  unfold strippedLines
  fun_induction lines text with
  | case1 => rfl
  | case2 rest ih => exact congrArg ([] :: ·) ih
  | case3 rest ih => exact congrArg ([] :: ·) ih
  | case4 c rest hfeed hreturn ih =>
    rw [withCarriageReturns_cons hfeed,
      lines_cons hfeed fun _ => head?_withCarriageReturns_ne rest]
    exact consFirst_stripEnd_congr c ih

/-- Spacing at the ends of lines is never seen: texts that differ in nothing else have the same
tokens and the same outline. So it makes no difference whether lines end in a line feed or in a
carriage return and a line feed. -/
theorem Outline.ofText_ignores_line_ends (tabs : Tabs) :
    (∀ text text', (lines text).map stripEnd = (lines text').map stripEnd →
      tokens tabs text = tokens tabs text' ∧ ofText tabs text = ofText tabs text') ∧
    ∀ text, tokens tabs (withCarriageReturns text) = tokens tabs text ∧
      ofText tabs (withCarriageReturns text) = ofText tabs text := by
  have hsame : ∀ text text', strippedLines text = strippedLines text' →
      tokens tabs text = tokens tabs text' ∧ ofText tabs text = ofText tabs text' := by
    intro text text' h
    have htokens : tokens tabs text = tokens tabs text' := by
      rw [tokens, lineTokens_eq_of_stripped, lineCount_eq_of_stripped, h,
        ← lineTokens_eq_of_stripped, ← lineCount_eq_of_stripped, tokens]
    refine ⟨htokens, ?_⟩
    rw [ofText, htokens, lineCount_eq_of_stripped, h, ← lineCount_eq_of_stripped, ofText]
  exact ⟨hsame, fun text => hsame _ _ (strippedLines_withCarriageReturns text)⟩

/-- A dangling backslash, a comment, and a quote that is never closed, with and without spacing. -/
theorem Outline.ofText_ignores_line_ends_open_string :
    tokens .default "def f(x): \t\n  s = 'a\\ \r\n  # b\x0c\nelse:\r".toList =
        tokens .default "def f(x):\n  s = 'a\\\n  # b\nelse:".toList ∧
      ofText .default "def f(x): \t\n  s = 'a\\ \r\n  # b\x0c\nelse:\r".toList =
        ofText .default "def f(x):\n  s = 'a\\\n  # b\nelse:".toList :=
  (Outline.ofText_ignores_line_ends .default).1 _ _ (by decide)

end Offside
