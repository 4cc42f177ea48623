import Offside.Proofs.Keywords
import Offside.Proofs.Replay

/-!
# Where tokens come from

What is known of every token in the stream of a text (`tokens_provenance`). A structural token
stands at the start of its line and has no text. The token of a line that is not blank stands at the
first character that is not (`Token.IsOf`), and the text that goes with it is a part of the line
behind that character, without blanks around it. Which symbols have a text is settled by their
kind; only an exception handler may have one or not.

The text is either an identifier, none of whose characters is blank, or a clause, which is trimmed.
Both are read from the pieces behind a keyword (`LineKind.exists_announced_of_ofPieces`), and the
keyword is not empty, so the text never stands where the line's content begins.
-/

namespace Offside

open Offside.Text

/-! ## The text of a block -/

namespace BlockKind

/-- The kinds of block that have a name or a clause. -/
def withText : List BlockKind :=
  [function, classBody, ifBranch, elifBranch, whileLoop, forLoop, withBody]

/-- The kinds of block that have neither. -/
def withoutText : List BlockKind := [elseBranch, tryBody, finallyBody]

end BlockKind

namespace LineKind

variable {kind : BlockKind} {attr : Option String} {text : String} {rest : List Piece}
  {line s : List Char}

theorem attr_isSome_of_announced (hkind : kind ∈ BlockKind.withText)
    (h : announced kind rest = opens kind attr) : attr.isSome = true := by
  have hshapes : ∀ kind ∈ BlockKind.withText,
      kind.shape = .parameters ∨ kind.shape = .name ∨ kind.shape = .clause := by decide
  unfold announced at h
  rcases hshapes kind hkind with hshape | hshape | hshape
  all_goals
    rw [hshape] at h
    dsimp only at h
    repeat' split at h
    all_goals cases h
    rfl

theorem attr_eq_none_of_announced (hkind : kind ∈ BlockKind.withoutText)
    (h : announced kind rest = opens kind attr) : attr = none := by
  have hshapes : ∀ kind ∈ BlockKind.withoutText, kind.shape = .bare := by decide
  unfold announced at h
  rw [hshapes kind hkind] at h
  dsimp only at h
  split at h <;> cases h
  rfl

/-- The text of a block is a part of what stands behind the keyword, without blanks around it. -/
theorem text_of_announced (h : announced kind (pieces s) = opens kind (some text)) :
    text.toList ≠ [] ∧ Trimmed text.toList ∧ text.toList <:+: s := by
  have hcases : kind ∈ BlockKind.withClause ∨
      (kind.shape = .parameters ∨ kind.shape = .name) ∨ kind ∈ BlockKind.withoutText := by
    cases kind <;> decide
  rcases hcases with hkind | hkind | hkind
  · obtain ⟨hclause, hne⟩ := clause_of_announced hkind h
    obtain ⟨found, hfound, htrim⟩ := Option.map_eq_some_iff.mp hclause
    rw [← htrim] at hne ⊢
    have hfront : found <:+: s := (isPrefix_textBeforeColon hfound).isInfix
    exact ⟨hne, trimmed_trim found, (isInfix_trim found).trans hfront⟩
  · obtain ⟨front, back, hpieces⟩ := List.append_of_mem (mem_of_announced hkind h)
    obtain ⟨hrun, _⟩ := isRun_of_pieces hpieces rfl
    have hword := hrun.isIdentifier_eq
    obtain ⟨c, word, htext⟩ : ∃ c word, text.toList = c :: word := by
      cases hname : text.toList with
      | nil => rw [hname] at hword; cases hword
      | cons c word => exact ⟨c, word, rfl⟩
    rw [htext, isIdentifier, Bool.and_eq_true, List.all_eq_true] at hword
    refine ⟨by simp [htext], trimmed_of_not_blank ?_, _, _, hrun.line_eq.symm⟩
    intro d hd
    rw [htext] at hd
    apply not_isBlank_of_continuesIdentifier
    rcases List.mem_cons.mp hd with rfl | hd
    · exact continuesIdentifier_of_startsIdentifier hword.1
    · exact hword.2 d hd
  · cases attr_eq_none_of_announced hkind h

/-- What a line opens is announced by a keyword where its content begins or behind. -/
theorem exists_announced_of_ofLine (h : ofLine line = opens kind attr) :
    ∃ before s, line = before ++ s ∧ leadingByIndex line < before.length ∧
      announced kind (pieces s) = opens kind attr := by
  obtain ⟨front, keyword, word, rest, hpieces, hrest⟩ := exists_announced_of_ofPieces h
  obtain ⟨c, behind, hcut, hbehind⟩ := exists_first_of_pieces hpieces
  have hword : word ≠ [] := by
    have hne := Cut.first_text_ne_nil c behind
    rwa [hcut] at hne
  have hstart : trimStart line = front.flatMap Piece.text ++ (word ++ rest.flatMap Piece.text) := by
    rw [eq_append_of_pieces hpieces, List.flatMap_cons]
  have hline := List.takeWhile_append_dropWhile (p := isBlank) (l := line)
  refine ⟨line.takeWhile isBlank ++ front.flatMap Piece.text ++ word, rest.flatMap Piece.text,
    ?_, ?_, ?_⟩
  · rw [← trimStart, hstart] at hline
    simpa only [List.append_assoc] using hline.symm
  · have hpos := List.length_pos_iff.mpr hword
    rw [leadingByIndex_eq_length, List.length_append, List.length_append]
    omega
  · rw [hbehind]
    exact hrest

end LineKind

/-! ## The tokens of a text -/

/-- The token says what a line introduces that is not blank. -/
structure Token.IsOf (token : Token) (line : List Char) : Prop where
  /-- It stands at the first character that is not blank. -/
  column : IsLeast {i | FilledAt line i} token.column
  symbol : token.symbol = .statement ∨ token.symbol.opensBlock = true
  isSome_attr : ∀ kind ∈ BlockKind.withText, token.symbol = .block kind → token.attr.isSome = true
  statement_attr : token.symbol = .statement → token.attr = none
  attr_eq_none : ∀ kind ∈ BlockKind.withoutText, token.symbol = .block kind → token.attr = none
  /-- Its text is a part of the line behind that character, on one line and without blanks around
  it. -/
  text : ∀ text ∈ token.attr, text ≠ "" ∧ '\n' ∉ text.toList ∧ Trimmed text.toList ∧
    ∃ before after, line = before ++ text.toList ++ after ∧ token.column < before.length

section Tokens

variable {tabs : Tabs} {text line : List Char} {number : Nat} {token : Token}

theorem isOf_lineToken (tabs : Tabs) (number : Nat) (hfilled : allBlank line = false)
    (hfeed : '\n' ∉ line) : (lineToken tabs number line).token.IsOf line := by
  have hcolumn := isLeast_leadingByIndex hfilled
  rw [lineToken_of_filled tabs number hfilled]
  cases hkind : LineKind.ofLine line with
  | statement =>
    refine ⟨hcolumn, .inl rfl, ?_, fun _ => rfl, fun _ _ _ => rfl, ?_⟩
    · rintro kind _ ⟨⟩
    · rintro text ⟨⟩
  | opens kind attr =>
    obtain ⟨before, s, hline, hbefore, hannounced⟩ := LineKind.exists_announced_of_ofLine hkind
    refine ⟨hcolumn, .inr rfl, ?_, ?_, ?_, ?_⟩
    · rintro _ hmem ⟨⟩
      exact LineKind.attr_isSome_of_announced hmem hannounced
    · rintro ⟨⟩
    · rintro _ hmem ⟨⟩
      exact LineKind.attr_eq_none_of_announced hmem hannounced
    · intro text hattr
      obtain rfl : attr = some text := hattr
      obtain ⟨hne, htrimmed, x, y, hs⟩ := LineKind.text_of_announced hannounced
      have hsplit : line = before ++ x ++ text.toList ++ y := by
        rw [hline, ← hs]
        simp only [List.append_assoc]
      refine ⟨?_, ?_, htrimmed, before ++ x, y, hsplit, ?_⟩
      · rintro rfl
        exact hne rfl
      · intro hmem
        exact hfeed (by simp [hsplit, hmem])
      · rw [List.length_append]
        exact Nat.lt_add_right _ hbefore

/-- A token in the stream of a text is that of a line, or it was added between two lines or at the
end. -/
theorem mem_tokens (h : token ∈ tokens tabs text) :
    (∃ number line, (lines text)[number]? = some line ∧
      token = (lineToken tabs number line).token) ∨
    token.isLine = false ∧ token = .structural token.symbol token.line := by
  have hadded {token : Token} {last : LevelTracker}
      (h : token ∈ last.finish (lineCount text)) :
      token.isLine = false ∧ token = .structural token.symbol token.line := by
    rcases List.mem_append.mp h with h | h
    · have hstructural := LevelTracker.eq_structural_of_mem_changes h
      exact ⟨by simp [Token.isLine, LevelTracker.mem_changes h], by rw [hstructural]; rfl⟩
    · rw [List.mem_singleton.mp h]
      exact ⟨rfl, rfl⟩
  rcases List.mem_append.mp h with h | h
  · rcases LevelTracker.mem_steps h with ⟨entry, hentry, rfl⟩ | ⟨hmarker, hstructural⟩
    · obtain ⟨⟨line, number⟩, hline, rfl⟩ := List.mem_map.mp hentry
      exact .inl ⟨number, line, List.mem_zipIdx_iff_getElem?.mp hline, rfl⟩
    · exact .inr ⟨by simp [Token.isLine, hmarker], hstructural⟩
  · exact .inr (hadded h)

/-- **Provenance.** A structural token in the stream of a text stands at the start of its line and
has no text. Each line has one token of its own in the stream. It is `EMPTY` if the line is blank and
only then, and otherwise it says what the line introduces. -/
theorem tokens_provenance (tabs : Tabs) (text : List Char) :
    (∀ token ∈ tokens tabs text, token.isStructural = true →
      token.attr = none ∧ token.column = 0) ∧
    (∀ token ∈ tokens tabs text, token.isLine = true →
      ∃ line, (lines text)[token.line]? = some line ∧
        (token.symbol = .empty ↔ allBlank line = true) ∧
        (allBlank line = false → token.IsOf line)) ∧
    ((tokens tabs text).filter Token.isLine).map Token.line = List.range (lineCount text) := by
  refine ⟨?_, ?_, map_line_tokens tabs text⟩
  · intro token htoken hstructural
    rcases mem_tokens htoken with ⟨number, line, _, rfl⟩ | ⟨_, heq⟩
    · cases hblank : allBlank line with
      | true =>
        rw [lineToken_of_blank tabs number hblank]
        exact ⟨rfl, rfl⟩
      | false =>
        have hnot := lineToken_not_structural tabs number hblank
        cases hnot.symm.trans hstructural
    · rw [heq]
      exact ⟨rfl, rfl⟩
  · intro token htoken hline
    rcases mem_tokens htoken with ⟨number, line, hnumber, rfl⟩ | ⟨hnot, _⟩
    · refine ⟨line, ?_, lineToken_symbol_eq_empty_iff tabs number line, fun hfilled => ?_⟩
      · rw [lineToken_line]
        exact hnumber
      · have hfeed := feed_not_mem_of_mem_lines (List.mem_of_getElem? hnumber)
        exact isOf_lineToken tabs number hfilled hfeed
    · cases hnot.symm.trans hline

/-- A clause with a colon in brackets, blanks around it and a comment behind it, on a line that is
indented with an ideographic space. -/
theorem tokens_provenance_clause :
    let line := "\u3000while  a[1:] : # b".toList
    let token : Token := ⟨.block .whileLoop, some "a[1:]", 1, 1⟩
    token ∈ tokens ⟨2, false⟩ ("\n".toList ++ line) ∧ token.isLine = true ∧
      allBlank line = false ∧ token.IsOf line := by
  intro line token
  have htoken : token ∈ tokens ⟨2, false⟩ ("\n".toList ++ line) := by decide +kernel
  obtain ⟨found, hfound, _, hof⟩ :=
    (tokens_provenance ⟨2, false⟩ ("\n".toList ++ line)).2.1 token htoken rfl
  have hline : (lines ("\n".toList ++ line))[token.line]? = some line := by decide +kernel
  obtain rfl : line = found := Option.some.inj (hline.symm.trans hfound)
  have hfilled : allBlank line = false := by decide +kernel
  exact ⟨htoken, rfl, hfilled, hof hfilled⟩

end Tokens

end Offside
