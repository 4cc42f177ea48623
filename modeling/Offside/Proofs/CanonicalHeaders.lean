import Offside.Proofs.BlockColon
import Offside.Proofs.LineEnds
import Offside.Proofs.Margins

/-!
# Headers in their plain form

A line with a clause may be written in many ways: with `async`, without a space before the clause,
with any blanks around it, with anything behind the colon. Its plain form is keyword, one space, the
clause and a colon (`LineKind.header`), and it introduces what the line introduces
(`LineKind.ofLine_header`).

The clause was cut into pieces with other text around it, and the plain form is cut again from the
start. No piece of the clause changes by that, but for a word, which may turn from an identifier
into a keyword or back (`Piece.Alike`). `Cut.role_first` says of a first piece what becomes of it:
the search for the colon fails there, or the piece is blank and the same before any text that begins
as the rest does, or it does not end in blanks and is the same before a colon, too. The induction
over the pieces then trims the clause and puts the colon behind it (`textBeforeColon_trimEnd`).
-/

/-! ## Blanks and identifiers -/

namespace Offside.Text

section Blank

variable {c : Char}

/-- A code point of a table lies in one of its ranges. -/
theorem CodeRanges.exists_of_has {ranges : CodeRanges} {code : Nat} (h : ranges.has code = true) :
    ∃ range ∈ ranges, range.1 ≤ code ∧ code ≤ range.2 := by
  induction ranges with
  | nil => cases h
  | cons range ranges ih =>
    rw [CodeRanges.has] at h
    split at h
    · cases h
    split at h
    · exact ⟨range, List.mem_cons_self, by omega, by omega⟩
    · obtain ⟨range', hrange', hcode⟩ := ih h
      exact ⟨range', List.mem_cons_of_mem range hrange', hcode⟩

/-- The characters of identifiers are not blank. -/
theorem not_isBlank_of_continuesIdentifier (h : continuesIdentifier c = true) :
    isBlank c = false := by
  have hcodes : ∀ range ∈ blankRanges, ∀ k ≤ range.2 - range.1,
      (identifierStarts.has (range.1 + k) || identifierExtras.has (range.1 + k)) = false := by
    decide +kernel
  by_contra hblank
  obtain ⟨range, hrange, hfirst, hlast⟩ :=
    CodeRanges.exists_of_has ((Bool.not_eq_false _).mp hblank)
  have hcode := hcodes range hrange (c.toNat - range.1) (by omega)
  rw [Nat.add_sub_cancel' hfirst] at hcode
  exact Bool.false_ne_true (hcode.symm.trans h)

theorem continuesIdentifier_of_startsIdentifier (h : startsIdentifier c = true) :
    continuesIdentifier c = true := by
  obtain h | h := Bool.or_eq_true _ _ ▸ h
  · rw [beq_iff_eq] at h
    subst h
    decide +kernel
  · simp [continuesIdentifier, h]

end Blank

end Offside.Text

namespace Offside

open Offside.Text

/-! ## Text that is one piece -/

section Runs

variable {p : Char → Bool} {run more : List Char}

/-- A character and the run behind it are one piece if the run stops there. -/
theorem pieces_run_append {kind : LexemeKind} {c : Char}
    (hfirst : ∀ rest, Cut.first c rest = Cut.run kind p c rest) (hrun : ∀ d ∈ run, p d = true)
    (hmore : ∀ d ∈ more.head?, p d = false) :
    pieces (c :: run ++ more) = ⟨some kind, c :: run⟩ :: pieces more := by
  rw [List.cons_append, pieces, hfirst, Cut.run, takeWhile_append_of_stops hrun hmore,
    dropWhile_append_of_stops hrun hmore]

theorem pieces_word_append {c : Char} (hc : startsIdentifier c = true)
    (hword : ∀ d ∈ run, continuesIdentifier d = true)
    (hmore : ∀ d ∈ more.head?, continuesIdentifier d = false) :
    pieces (c :: run ++ more) =
      ⟨some (wordKind (c :: run) more.head?), c :: run⟩ :: pieces more := by
  rw [List.cons_append, pieces, Cut.first, if_pos hc, Cut.word,
    takeWhile_append_of_stops hword hmore, dropWhile_append_of_stops hword hmore]

theorem not_isBlank_of_trimStart {s : List Char} (h : trimStart s = s) (hne : s ≠ [])
    (more : List Char) : ∀ c ∈ (s ++ more).head?, isBlank c = false := by
  rw [List.head?_append_of_ne_nil _ hne, ← h]
  exact stops_dropWhile

end Runs

/-- A string that is closed is closed by its last character, whatever stands behind it. -/
theorem quoted_of_closed {quote : Char} {s : List Char} (hquote : isQuote quote = true)
    (h : (quoted quote s).1 = true) : ∃ body, (quoted quote s).2.1 = body ++ [quote] ∧
      ∀ more, quoted quote (body ++ [quote] ++ more) = (true, body ++ [quote], more) := by
  fun_induction quoted quote s with
  | case1 => cases h
  | case2 rest => cases h
  | case3 next rest hnext closed text after heq ih =>
    rw [heq] at ih
    obtain ⟨body, rfl, hread⟩ := ih h
    refine ⟨'\\' :: next :: body, rfl, fun more => ?_⟩
    rw [List.cons_append, List.cons_append, List.cons_append, List.cons_append,
      quoted_of_escape hnext, hread]
  | case4 rest =>
    refine ⟨[], rfl, fun more => ?_⟩
    exact quoted_of_close hquote more
  | case5 rest hlast hquote' => cases h
  | case6 c rest _ hclose hescape closed text after heq ih =>
    rw [heq] at ih
    obtain ⟨body, rfl, hread⟩ := ih h
    refine ⟨c :: body, rfl, fun more => ?_⟩
    rw [List.cons_append, List.cons_append, quoted_of_plain hclose hescape, hread]

/-- On one line, nothing but a backslash is left behind a string that is not closed. -/
theorem quoted_of_open {quote : Char} {s : List Char} (hs : '\n' ∉ s)
    (h : (quoted quote s).1 = false) : Idle (pieces (quoted quote s).2.2) := by
  fun_induction quoted quote s with
  | case1 => simp [pieces]
  | case2 rest => simp at hs
  | case3 next rest hnext closed text after heq ih =>
    rw [heq] at ih
    exact ih (by simp_all) h
  | case4 rest => cases h
  | case5 rest hlast hquote' =>
    obtain rfl : rest = [] := by
      cases rest with
      | nil => rfl
      | cons c rest => exact (hlast c rest rfl rfl).elim
    exact idle_pieces_backslash
  | case6 c rest _ hclose hescape closed text after heq ih =>
    rw [heq] at ih
    exact ih (by simp_all) h

/-! ## Cutting a piece off again -/

/-- Whether a piece is a word, be it a keyword or an identifier. -/
def Piece.isWord (piece : Piece) : Bool :=
  match piece.kind with
  | some (.keyword _) | some .identifier => true
  | _ => false

/-- The pieces are the same, but for whether a word is a keyword. -/
def Piece.Alike (first second : Piece) : Prop :=
  first = second ∨ first.text = second.text ∧ first.isWord = true ∧ second.isWord = true

theorem Piece.isWord_wordKind (word text : List Char) (next : Option Char) :
    Piece.isWord ⟨some (wordKind word next), text⟩ = true := by
  unfold wordKind
  split
  · split <;> rfl
  · rfl

theorem textBeforeColon_of_isWord (depth : Nat) {piece : Piece} (h : piece.isWord = true)
    (rest : List Piece) : textBeforeColon depth (piece :: rest) =
      (textBeforeColon depth rest).map (piece.text ++ ·) := by
  obtain ⟨_ | kind, text⟩ := piece
  · rfl
  · cases kind <;> first | rfl | cases h

theorem Piece.Alike.textBeforeColon_eq {first second : Piece} (h : first.Alike second)
    (depth : Nat) (rest : List Piece) :
    textBeforeColon depth (first :: rest) = textBeforeColon depth (second :: rest) := by
  obtain rfl | ⟨htext, hfirst, hsecond⟩ := h
  · rfl
  · rw [textBeforeColon_of_isWord depth hfirst, textBeforeColon_of_isWord depth hsecond, htext]

/-- The text begins as the text behind the piece does, or with a colon. -/
def Cut.Follows (cut : Cut) (more : List Char) : Prop :=
  more.head? = cut.rest.head? ∨ more.head? = some ':'

/-- With some other text behind it, the text of the piece is cut off again as the same piece. -/
def Cut.Recurs (cut : Cut) (more : List Char) : Prop :=
  ∃ piece, piece.Alike cut.piece ∧ pieces (cut.piece.text ++ more) = piece :: pieces more

/-- What becomes of a piece in the search for a colon, and when it is cut off again. -/
inductive Cut.Role (cut : Cut) : Prop where
  /-- The search ends there without a colon. -/
  | last (h : ∀ depth, textBeforeColon depth (cut.piece :: pieces cut.rest) = none) : Role cut
  /-- The piece is blank; it is the same piece before any text that begins as the rest does. -/
  | blank (hpiece : cut.piece.isSignificant = false)
    (htext : ∀ c ∈ cut.piece.text, isBlank c = true)
    (hrecurs : ∀ more, more.head? = cut.rest.head? → cut.Recurs more) : Role cut
  /-- The piece does not end in blanks; it is the same piece before a colon, too. -/
  | solid (htext : trimEnd cut.piece.text = cut.piece.text)
    (hrecurs : ∀ more, cut.Follows more → cut.Recurs more) : Role cut

section Role

variable {c : Char} {rest more : List Char} {p : Char → Bool} {kind : LexemeKind}

theorem Cut.Follows.stops {cut : Cut} (hmore : cut.Follows more) (hcolon : p ':' = false)
    (hrest : ∀ d ∈ cut.rest.head?, p d = false) : ∀ d ∈ more.head?, p d = false := by
  intro d hd
  obtain hmore | hmore := hmore
  · exact hrest d (hmore ▸ hd)
  · obtain rfl : ':' = d := Option.some.inj (hmore.symm.trans hd)
    exact hcolon

theorem Cut.role_word (hc : startsIdentifier c = true) (rest : List Char) :
    (Cut.word c rest).Role := by
  have hword : ∀ d ∈ rest.takeWhile continuesIdentifier, continuesIdentifier d = true :=
    fun d hd => List.mem_takeWhile_imp hd
  refine .solid (trimEnd_of_not_blank fun d hd => not_isBlank_of_continuesIdentifier ?_)
    fun more hmore => ?_
  · obtain rfl | hd := List.mem_cons.mp hd
    · exact continuesIdentifier_of_startsIdentifier hc
    · exact hword d hd
  · have hstops : ∀ d ∈ more.head?, continuesIdentifier d = false :=
      hmore.stops (by decide +kernel) stops_dropWhile
    refine ⟨_, ?_, pieces_word_append hc hword hstops⟩
    exact .inr ⟨rfl, Piece.isWord_wordKind _ _ _, Piece.isWord_wordKind _ _ _⟩

theorem Cut.role_colon (hfirst : ∀ rest, Cut.first ':' rest = Cut.colon rest) (rest : List Char) :
    (Cut.colon rest).Role := by
  unfold Cut.colon
  split
  · refine .solid (by rfl) fun more _ => ⟨_, .inl rfl, ?_⟩
    show pieces (':' :: '=' :: more) = _
    rw [pieces, hfirst, Cut.colon]
  · rename_i hrest
    refine .solid (by rfl) fun more hmore => ⟨_, .inl rfl, ?_⟩
    have hequals : ∀ more', more ≠ '=' :: more' := by
      rintro more' rfl
      obtain hmore | hmore := hmore
      · obtain _ | ⟨d, rest⟩ := rest
        · cases hmore
        · obtain rfl : '=' = d := Option.some.inj hmore
          exact hrest rest rfl
      · cases hmore
    show pieces (':' :: more) = _
    rw [pieces, hfirst, Cut.colon]
    exact hequals

theorem Cut.recurs_run (hfirst : ∀ rest, Cut.first c rest = Cut.run kind p c rest)
    (hmore : ∀ d ∈ more.head?, p d = false) : (Cut.run kind p c rest).Recurs more :=
  ⟨_, .inl rfl, pieces_run_append hfirst (fun _ hd => List.mem_takeWhile_imp hd) hmore⟩

theorem Cut.role_string (hquote : isQuote c = true) (hblank : isBlank c = false)
    (hfirst : ∀ rest, Cut.first c rest = Cut.string c rest) (hrest : '\n' ∉ rest) :
    (Cut.string c rest).Role := by
  cases hclosed : (quoted c rest).1 with
  | false =>
    refine .last fun depth => ?_
    simp only [Cut.string, hclosed]
    exact textBeforeColon_of_idle depth (idle_cons.mpr ⟨rfl, quoted_of_open hrest hclosed⟩)
  | true =>
    obtain ⟨body, htext, hread⟩ := quoted_of_closed hquote hclosed
    have hpiece : (Cut.string c rest).piece = ⟨some .stringLiteral, c :: body ++ [c]⟩ := by
      simp only [Cut.string, hclosed, htext, if_true, List.cons_append]
    refine .solid (by rw [hpiece]; exact trimEnd_concat hblank _) fun more _ => ⟨_, .inl rfl, ?_⟩
    rw [hpiece, List.cons_append, List.cons_append, pieces, hfirst, Cut.string, hread]
    rfl

/-- Which way of cutting the first character of a text selects. -/
inductive Cut.Choice (c : Char) : Prop where
  | word (hc : startsIdentifier c = true) (h : ∀ rest, first c rest = word c rest)
  | colon (hc : c = ':') (h : ∀ rest, first c rest = colon rest)
  | bracket (kind : LexemeKind) (hc : isBlank c = false)
    (h : ∀ rest, first c rest = ⟨⟨some kind, [c]⟩, rest⟩)
  | comment (hc : c = '#') (h : ∀ rest, first c rest = run .comment (· ≠ '\n') c rest)
  | string (hc : isQuote c = true) (hblank : isBlank c = false)
    (h : ∀ rest, first c rest = string c rest)
  | spacing (hc : isSpacing c = true) (h : ∀ rest, first c rest = run .whitespace isSpacing c rest)
  | blank (hc : isBlank c = true) (h : ∀ rest, first c rest = ⟨⟨none, [c]⟩, rest⟩)
  | other (hc : isPlain c = true) (h : ∀ rest, first c rest = run .other isPlain c rest)

/-- Every first character selects one way of cutting. -/
theorem Cut.choice (c : Char) : Cut.Choice c := by
  by_cases hword : startsIdentifier c = true
  · exact .word hword fun rest => by rw [Cut.first, if_pos hword]
  by_cases hcolon : c = ':'
  · exact .colon hcolon fun rest => by rw [Cut.first, if_neg hword, if_pos hcolon]
  by_cases hopen : isOpenBracket c = true
  · refine .bracket .openBracket ?_ fun rest => ?_
    · simp only [isOpenBracket, Bool.or_eq_true, beq_iff_eq] at hopen
      obtain (rfl | rfl) | rfl := hopen <;> decide
    · rw [Cut.first, if_neg hword, if_neg hcolon, if_pos hopen]
  by_cases hclose : isCloseBracket c = true
  · refine .bracket .closeBracket ?_ fun rest => ?_
    · simp only [isCloseBracket, Bool.or_eq_true, beq_iff_eq] at hclose
      obtain (rfl | rfl) | rfl := hclose <;> decide
    · rw [Cut.first, if_neg hword, if_neg hcolon, if_neg hopen, if_pos hclose]
  by_cases hcomment : c = '#'
  · refine .comment hcomment fun rest => ?_
    rw [Cut.first, if_neg hword, if_neg hcolon, if_neg hopen, if_neg hclose, if_pos hcomment]
  by_cases hquote : isQuote c = true
  · refine .string hquote ?_ fun rest => ?_
    · simp only [isQuote, Bool.or_eq_true, beq_iff_eq] at hquote
      obtain rfl | rfl := hquote <;> decide
    · rw [Cut.first, if_neg hword, if_neg hcolon, if_neg hopen, if_neg hclose, if_neg hcomment,
        if_pos hquote]
  by_cases hspacing : isSpacing c = true
  · refine .spacing hspacing fun rest => ?_
    rw [Cut.first, if_neg hword, if_neg hcolon, if_neg hopen, if_neg hclose, if_neg hcomment,
      if_neg hquote, if_pos hspacing]
  by_cases hblank : isBlank c = true
  · refine .blank hblank fun rest => ?_
    rw [Cut.first, if_neg hword, if_neg hcolon, if_neg hopen, if_neg hclose, if_neg hcomment,
      if_neg hquote, if_neg hspacing, if_pos hblank]
  · refine .other ?_ fun rest => ?_
    · simp [isPlain, hword, hcolon, hopen, hclose, hcomment, hquote, hblank]
    · rw [Cut.first, if_neg hword, if_neg hcolon, if_neg hopen, if_neg hclose, if_neg hcomment,
        if_neg hquote, if_neg hspacing, if_neg hblank]

theorem not_isBlank_of_isPlain (h : isPlain c = true) : isBlank c = false := by
  simp only [isPlain, Bool.not_eq_true', Bool.or_eq_false_iff] at h
  exact h.1.1.1.1.1.1

/-- A blank character begins a piece of blanks. -/
theorem Cut.first_of_isBlank (hc : isBlank c = true) (rest : List Char) :
    (Cut.first c rest).piece.isSignificant = false ∧
      ∀ d ∈ (Cut.first c rest).piece.text, isBlank d = true := by
  cases Cut.choice c with
  | word hword _ =>
    have hcontinues := continuesIdentifier_of_startsIdentifier hword
    cases hc.symm.trans (not_isBlank_of_continuesIdentifier hcontinues)
  | colon heq _ =>
    subst heq
    cases hc
  | bracket _ hblank _ => cases hc.symm.trans hblank
  | comment heq _ =>
    subst heq
    cases hc
  | string _ hblank _ => cases hc.symm.trans hblank
  | spacing hspacing h =>
    rw [h]
    refine ⟨rfl, List.forall_mem_cons.mpr ⟨hc, fun d hd => ?_⟩⟩
    exact isBlank_of_isSpacing (List.mem_takeWhile_imp hd)
  | blank _ h =>
    rw [h]
    exact ⟨rfl, List.forall_mem_singleton.mpr hc⟩
  | other hplain _ => cases hc.symm.trans (not_isBlank_of_isPlain hplain)

theorem Cut.role_first (c : Char) {rest : List Char} (hrest : '\n' ∉ rest) :
    (Cut.first c rest).Role := by
  cases Cut.choice c with
  | word hc h =>
    rw [h]
    exact Cut.role_word hc rest
  | colon hc h =>
    subst hc
    rw [h]
    exact Cut.role_colon h rest
  | bracket kind hc h =>
    rw [h]
    refine .solid (trimEnd_concat hc []) fun more _ => ⟨_, .inl rfl, ?_⟩
    show pieces (c :: more) = _
    rw [pieces, h]
  | comment hc h =>
    rw [h]
    exact .last fun depth => rfl
  | string hc hblank h =>
    rw [h]
    exact Cut.role_string hc hblank h hrest
  | spacing hc h =>
    rw [h]
    refine .blank rfl ?_ fun more hmore => Cut.recurs_run h fun d hd => ?_
    · refine List.forall_mem_cons.mpr ⟨isBlank_of_isSpacing hc, fun d hd => ?_⟩
      exact isBlank_of_isSpacing (List.mem_takeWhile_imp hd)
    · exact stops_dropWhile d (hmore ▸ hd)
  | blank hc h =>
    rw [h]
    refine .blank rfl (List.forall_mem_singleton.mpr hc) fun more _ => ⟨_, .inl rfl, ?_⟩
    show pieces (c :: more) = _
    rw [pieces, h]
  | other hc h =>
    rw [h]
    refine .solid (trimEnd_of_not_blank fun d hd => not_isBlank_of_isPlain ?_) fun more hmore =>
      Cut.recurs_run h (hmore.stops rfl stops_dropWhile)
    obtain rfl | hd := List.mem_cons.mp hd
    · exact hc
    · exact List.mem_takeWhile_imp hd

end Role

/-! ## The search for the colon, again -/

section Search

variable {depth : Nat} {piece : Piece} {rest : List Piece} {s text : List Char}

/-- The search that goes on behind a piece does so whatever stands there. -/
theorem textBeforeColon_cons_eq_some (h : textBeforeColon depth (piece :: rest) = some text) :
    depth = 0 ∧ text = [] ∨
      ∃ depth' text', textBeforeColon depth' rest = some text' ∧ text = piece.text ++ text' ∧
        ∀ more, textBeforeColon depth (piece :: more) =
          (textBeforeColon depth' more).map (piece.text ++ ·) := by
  obtain ⟨_ | kind, word⟩ := piece
  · obtain ⟨text', htext', rfl⟩ := Option.map_eq_some_iff.mp h
    exact .inr ⟨depth, text', htext', rfl, fun _ => rfl⟩
  rw [textBeforeColon_cons] at h
  split at h
  · cases h
  rename_i hcomment
  split at h
  · rename_i hcolon
    exact .inl ⟨hcolon.2, (Option.some.inj h).symm⟩
  · rename_i hcolon
    obtain ⟨text', htext', rfl⟩ := Option.map_eq_some_iff.mp h
    refine .inr ⟨_, text', htext', rfl, fun more => ?_⟩
    rw [textBeforeColon_cons, if_neg hcomment, if_neg hcolon]

theorem isPrefix_textBeforeColon (h : textBeforeColon depth (pieces s) = some text) :
    text <+: s := by
  obtain ⟨_, hnone⟩ | ⟨_, text', after, _, _, hsome, hsplit, _⟩ :=
    textBeforeColon_cases depth [] (pieces s)
  · cases h.symm.trans hnone
  · obtain rfl := Option.some.inj (h.symm.trans hsome)
    rw [pieces_text] at hsplit
    exact ⟨after, hsplit.symm⟩

/-- What the search finds begins as the text does, also when it is trimmed. -/
theorem head?_trimEnd (h : textBeforeColon depth (pieces s) = some text) (hne : trimEnd text ≠ [])
    (more : List Char) : (trimEnd text ++ more).head? = s.head? := by
  obtain ⟨after, hafter⟩ := (isPrefix_trimEnd text).trans (isPrefix_textBeforeColon h)
  rw [← hafter, List.head?_append_of_ne_nil _ hne, List.head?_append_of_ne_nil _ hne]

/-- Blanks in front of a text are in front of what the search finds. -/
theorem textBeforeColon_trimStart (h : textBeforeColon depth (pieces s) = some text) :
    textBeforeColon depth (pieces (trimStart s)) = some (trimStart text) := by
  fun_induction pieces s generalizing text with
  | case1 => cases h
  | case2 c rest ih =>
    have hfront : text <+: c :: rest := isPrefix_textBeforeColon (by rw [pieces]; exact h)
    cases hc : isBlank c with
    | false =>
      have hself := trimStart_cons hc rest
      rw [hself, pieces, trimStart_of_prefix (hself.symm ▸ hfront), h]
    | true =>
      obtain ⟨hpiece, hblank⟩ := Cut.first_of_isBlank hc rest
      rw [textBeforeColon_of_not_significant depth _ hpiece] at h
      obtain ⟨text', htext', rfl⟩ := Option.map_eq_some_iff.mp h
      rw [← Cut.first_append c rest, trimStart_append_of_blank hblank,
        trimStart_append_of_blank hblank]
      exact ih htext'

/-- The text that the search finds is found again without the blanks at its end, with a colon right
behind it. -/
theorem textBeforeColon_trimEnd (hs : '\n' ∉ s) (h : textBeforeColon depth (pieces s) = some text) :
    textBeforeColon depth (pieces (trimEnd text ++ [':'])) = some (trimEnd text) := by
  have hcolon : textBeforeColon 0 (pieces [':']) = some [] := by
    decide +kernel
  fun_induction pieces s generalizing text depth with
  | case1 => cases h
  | case2 c rest ih =>
    have hrest : '\n' ∉ rest := fun hmem => hs (List.mem_cons_of_mem c hmem)
    rw [← Cut.first_append c rest, List.mem_append, not_or] at hs
    cases Cut.role_first c hrest with
    | last hlast => cases (hlast depth).symm.trans h
    | blank hpiece hblank hrecurs =>
      rw [textBeforeColon_of_not_significant depth _ hpiece] at h
      obtain ⟨text', htext', rfl⟩ := Option.map_eq_some_iff.mp h
      have hfound := ih hs.2 htext'
      rw [trimEnd_append]
      split
      · -- Nothing but blanks is left, so the colon takes the place of this piece.
        rename_i hnil
        rw [trimEnd_of_blank hblank]
        rwa [hnil] at hfound
      · rename_i hne
        obtain ⟨again, halike, hpieces⟩ := hrecurs _ (head?_trimEnd htext' hne [':'])
        rw [List.append_assoc, hpieces, halike.textBeforeColon_eq,
          textBeforeColon_of_not_significant depth _ hpiece, hfound]
        rfl
    | solid htext hrecurs =>
      obtain ⟨rfl, rfl⟩ | ⟨depth', text', htext', rfl, hpass⟩ := textBeforeColon_cons_eq_some h
      · exact hcolon
      have hfound := ih hs.2 htext'
      have hfollows : (Cut.first c rest).Follows (trimEnd text' ++ [':']) := by
        by_cases hnil : trimEnd text' = []
        · exact .inr (by rw [hnil]; rfl)
        · exact .inl (head?_trimEnd htext' hnil [':'])
      obtain ⟨again, halike, hpieces⟩ := hrecurs _ hfollows
      have htrim : trimEnd ((Cut.first c rest).piece.text ++ text') =
          (Cut.first c rest).piece.text ++ trimEnd text' := by
        rw [trimEnd_append]
        split
        · rename_i hnil
          rw [htext, hnil, List.append_nil]
        · rfl
      rw [htrim, List.append_assoc, hpieces, halike.textBeforeColon_eq, hpass, hfound]
      rfl

/-- A clause that was found is found again, without the blanks around it, behind a space and with a
colon right behind it. -/
theorem clause_trim (hs : '\n' ∉ s) (h : textBeforeColon 0 (pieces s) = some text)
    (hne : trim text ≠ []) : clause (pieces (' ' :: (trim text ++ [':']))) = some (trim text) := by
  have hfeed : '\n' ∉ trimStart s := fun hmem => hs ((List.dropWhile_suffix _).subset hmem)
  have hagain : textBeforeColon 0 (pieces (trim text ++ [':'])) = some (trim text) :=
    textBeforeColon_trimEnd hfeed (textBeforeColon_trimStart h)
  have hself : trimStart (trim text) = trim text := trimStart_of_prefix (isPrefix_trim text)
  have hstops : ∀ d ∈ (trim text ++ [':']).head?, isSpacing d = false := by
    intro d hd
    by_contra hspacing
    have hblank := isBlank_of_isSpacing ((Bool.not_eq_false _).mp hspacing)
    cases hblank.symm.trans (not_isBlank_of_trimStart hself hne [':'] d hd)
  have hspace : pieces (' ' :: (trim text ++ [':'])) =
      ⟨some .whitespace, [' ']⟩ :: pieces (trim text ++ [':']) :=
    pieces_run_append (Cut.first_of_isSpacing (c := ' ') rfl) (List.forall_mem_nil _) hstops
  rw [clause, hspace, textBeforeColon_of_not_significant 0 _ rfl, hagain]
  exact congrArg some (trim_cons_trim (by decide) text)

end Search

/-! ## Headers -/

/-- The pieces behind any piece are the pieces of a text that ends the line. -/
theorem exists_pieces_of_suffix {line : List Piece} {s : List Char} (h : line <:+ pieces s) :
    ∃ t, t <:+ s ∧ line = pieces t := by
  fun_induction pieces s with
  | case1 => exact ⟨[], List.nil_suffix, by rw [List.suffix_nil.mp h, pieces]⟩
  | case2 c rest ih =>
    obtain rfl | hrest := List.suffix_cons_iff.mp h
    · exact ⟨c :: rest, List.suffix_rfl, by rw [pieces]⟩
    · obtain ⟨t, ht, rfl⟩ := ih hrest
      exact ⟨t, ht.trans ⟨_, Cut.first_append c rest⟩, rfl⟩

namespace LineKind

/-- A line opens the kind of block that its keyword announces, or none. -/
theorem kind_of_announced {kind other : BlockKind} {attr : Option String} {rest : List Piece}
    (h : announced kind rest = opens other attr) : kind = other := by
  unfold announced at h
  repeat' split at h
  all_goals cases h
  all_goals rfl

/-- A line that opens a block has a keyword in it, and the pieces behind that say what the block is.
-/
theorem exists_announced_of_ofPieces {line : List Piece} {kind : BlockKind} {attr : Option String}
    (h : ofPieces line = opens kind attr) :
    ∃ front keyword text rest, line = front ++ ⟨some (.keyword keyword), text⟩ :: rest ∧
      announced kind rest = opens kind attr := by
  have hself : ∀ {other rest}, announced other rest = opens kind attr →
      announced kind rest = opens kind attr := by
    intro other rest hother
    obtain rfl := kind_of_announced hother
    exact hother
  obtain ⟨front, hfront⟩ : fromSignificant line <:+ line := List.dropWhile_suffix _
  unfold ofPieces at h
  split at h
  · rename_i other text rest hline
    exact ⟨front, _, text, rest, by rw [← hline, hfront], hself h⟩
  · rename_i text rest hline
    obtain ⟨gap, hgap⟩ : fromSignificant rest <:+ rest := List.dropWhile_suffix _
    split at h
    · rename_i other text' rest' hline'
      split at h
      · refine ⟨front ++ ⟨some (.keyword .async), text⟩ :: gap, .announce other, text', rest', ?_,
          hself h⟩
        rw [List.append_assoc, List.cons_append, ← hline', hgap, ← hline, hfront]
      · cases h
    · cases h
  · cases h

theorem clause_of_announced {kind : BlockKind} {attr : String} {rest : List Piece}
    (hkind : kind ∈ BlockKind.withClause) (h : announced kind rest = opens kind (some attr)) :
    clause rest = some attr.toList ∧ attr.toList ≠ [] := by
  rw [announced_of_withClause hkind] at h
  split at h
  · cases h
  split at h
  · split at h <;> cases h
  · rename_i text htext hne
    cases h
    rw [String.toList_ofList]
    exact ⟨htext, hne⟩

/-- A line that opens a block with a clause has that clause behind its keywords. -/
theorem exists_clause {line : List Piece} {kind : BlockKind} {attr : String}
    (hkind : kind ∈ BlockKind.withClause) (h : ofPieces line = opens kind (some attr)) :
    ∃ rest, rest <:+ line ∧ clause rest = some attr.toList ∧ attr.toList ≠ [] := by
  obtain ⟨front, keyword, text, rest, rfl, hrest⟩ := exists_announced_of_ofPieces h
  have hsuffix : rest <:+ front ++ ⟨some (.keyword keyword), text⟩ :: rest :=
    (List.suffix_cons _ _).trans (List.suffix_append _ _)
  exact ⟨rest, hsuffix, clause_of_announced hkind hrest⟩

/-- The plain form of a line with a clause: keyword, one space, the clause and a colon. -/
def header (kind : BlockKind) (clause : String) : List Char :=
  ((Symbol.block kind).name ++ " " ++ clause ++ ":").toList

theorem pieces_header {kind : BlockKind} (hkind : kind ∈ BlockKind.withClause) (attr : String) :
    pieces (trimStart (header kind attr)) =
      ⟨some (.keyword (.announce kind)), kind.name.toList⟩ ::
        pieces (' ' :: (attr.toList ++ [':'])) := by
  have hheader : header kind attr = kind.name.toList ++ ' ' :: (attr.toList ++ [':']) := by
    simp [header, Symbol.name]
  have hname : ∃ c word, kind.name.toList = c :: word ∧ startsIdentifier c = true ∧
      word.all continuesIdentifier = true ∧
      wordKind (c :: word) (some ' ') = .keyword (.announce kind) := by
    simp only [BlockKind.withClause, List.mem_cons, List.not_mem_nil, or_false] at hkind
    obtain rfl | rfl | rfl | rfl | rfl | rfl := hkind
    · exact ⟨'i', ['f'], rfl, by decide, by decide, by decide⟩
    · exact ⟨'e', ['l', 'i', 'f'], rfl, by decide, by decide, by decide⟩
    · exact ⟨'w', ['h', 'i', 'l', 'e'], rfl, by decide, by decide, by decide⟩
    · exact ⟨'f', ['o', 'r'], rfl, by decide, by decide, by decide⟩
    · exact ⟨'w', ['i', 't', 'h'], rfl, by decide, by decide, by decide⟩
    · exact ⟨'e', ['x', 'c', 'e', 'p', 't'], rfl, by decide, by decide, by decide⟩
  obtain ⟨c, word, hname, hc, hword, hkeyword⟩ := hname
  have hblank := not_isBlank_of_continuesIdentifier (continuesIdentifier_of_startsIdentifier hc)
  have hspace : ∀ d ∈ (' ' :: (attr.toList ++ [':'])).head?, continuesIdentifier d = false := by
    rintro _ ⟨⟩
    exact not_continuesIdentifier_of_isSpacing rfl
  rw [hheader, hname, List.cons_append, trimStart_cons hblank, ← List.cons_append,
    pieces_word_append hc (List.all_eq_true.mp hword) hspace, List.head?_cons, hkeyword]

/-- **The plain form of a header.** A line that opens a block with a clause opens the same
block with the same clause when it is written in its plain form. -/
theorem ofLine_header {line : List Char} {kind : BlockKind} {attr : String} (hline : '\n' ∉ line)
    (hkind : kind ∈ BlockKind.withClause) (h : ofLine line = opens kind (some attr)) :
    ofLine (header kind attr) = opens kind (some attr) := by
  obtain ⟨rest, hsuffix, hclause, hne⟩ := exists_clause hkind h
  obtain ⟨s, hs, rfl⟩ := exists_pieces_of_suffix hsuffix
  obtain ⟨text, htext, htrim⟩ := Option.map_eq_some_iff.mp hclause
  have hfeed : '\n' ∉ s := by
    intro hmem
    exact hline ((hs.trans (List.dropWhile_suffix _)).subset hmem)
  have hfound := clause_trim hfeed htext (htrim ▸ hne)
  rw [htrim] at hfound
  have hkindOf : ofLine (header kind attr) =
      announced kind (pieces (' ' :: (attr.toList ++ [':']))) := by
    rw [ofLine, pieces_header hkind]
    rfl
  rw [hkindOf, announced_of_withClause hkind, hfound]
  simp only [if_neg hne, String.ofList_toList]

/-- The word before the colon is an identifier on the line and a keyword in the plain form. -/
theorem ofLine_header_async :
    let line := "\tasync with(a := 'b:')[c:d]\t as  if\u3000: e: # f".toList
    '\n' ∉ line ∧ .withBody ∈ BlockKind.withClause ∧
      ofLine line = opens .withBody (some "(a := 'b:')[c:d]\t as  if") ∧
      ofLine (header .withBody "(a := 'b:')[c:d]\t as  if") =
        opens .withBody (some "(a := 'b:')[c:d]\t as  if") := by
  intro line
  have hline : '\n' ∉ line := by decide
  have hkind : BlockKind.withBody ∈ BlockKind.withClause := by decide
  have hopens : ofLine line = opens .withBody (some "(a := 'b:')[c:d]\t as  if") := by
    decide +kernel
  exact ⟨hline, hkind, hopens, ofLine_header hline hkind hopens⟩

end LineKind

end Offside
