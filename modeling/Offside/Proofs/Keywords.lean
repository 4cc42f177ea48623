import Offside.Proofs.OpaqueText

/-!
# Keywords and what stands behind them

A word of a line is a longest run of identifier characters. It is a keyword if it spells one, but
not before every character: some characters that are not ASCII hide the keyword before them, and
then the word is an identifier. `keywords_recognized` says which word is what, and what this does to
a line. A function or a class has a keyword as its name only before such a character, and a block is
lost if its keyword is followed by a blank that is not ASCII.
-/

namespace Offside

open Offside.Text

/-! ## Spelling -/

theorem Keyword.ofText?_eq_some_iff {word : List Char} {keyword : Keyword} :
    ofText? word = some keyword ↔ word = keyword.text.toList := by
  constructor
  · intro h
    have hspelled := List.find?_some h
    rw [beq_iff_eq] at hspelled
    exact hspelled.symm
  · rintro rfl
    obtain _ | kind := keyword
    · rfl
    · cases kind <;> rfl

theorem wordKind_eq_keyword_iff {word : List Char} {next : Option Char} {keyword : Keyword} :
    wordKind word next = .keyword keyword ↔
      word = keyword.text.toList ∧ ∀ c ∈ next, hidesKeyword c = false := by
  have hnext : (∀ c ∈ next, hidesKeyword c = false) ↔ next.any hidesKeyword = false := by
    cases next <;> simp
  rw [← Keyword.ofText?_eq_some_iff, hnext, wordKind]
  cases Keyword.ofText? word with
  | none => simp
  | some spelled => cases next.any hidesKeyword <;> simp

/-- A word that spells a keyword is an identifier only before a character that hides keywords. -/
theorem exists_hidesKeyword {keyword : Keyword} {next : Option Char}
    (h : wordKind keyword.text.toList next = .identifier) : ∃ c ∈ next, hidesKeyword c = true := by
  by_contra hnone
  simp only [not_exists, not_and, Bool.not_eq_true] at hnone
  cases h.symm.trans (wordKind_eq_keyword_iff.mpr ⟨rfl, hnone⟩)

/-- Before a character that hides keywords, every word is an identifier. -/
theorem wordKind_of_hidesKeyword {c : Char} (hc : hidesKeyword c = true) (word : List Char) :
    wordKind word (some c) = .identifier := by
  unfold wordKind
  split
  · rw [Option.any_some, hc]
    rfl
  · rfl

/-- The blanks that hide a keyword are those that are not ASCII. -/
theorem hidesKeyword_of_isBlank {b : Char} (hb : isBlank b = true) :
    hidesKeyword b = decide (0x80 ≤ b.toNat) := by
  have hranges : ∀ range ∈ blankRanges, range.2 < 0x80 ∨ 0x80 ≤ range.1 ∧ range.2 < 0xE000 := by
    decide
  obtain ⟨range, hrange, hfirst, hlast⟩ := CodeRanges.exists_of_has hb
  have hcode := hranges range hrange
  rw [Bool.eq_iff_iff]
  simp only [hidesKeyword, Bool.and_eq_true, Bool.not_eq_true', decide_eq_true_eq,
    Bool.and_eq_false_iff, decide_eq_false_iff_not]
  omega

/-! ## Words -/

/-- Whether a lexeme is a word, be it a keyword or an identifier. -/
def Lexeme.isWord (lexeme : Lexeme) : Bool := Piece.isWord ⟨some lexeme.kind, lexeme.text⟩

/-- Whether the text is a character that starts an identifier and others that continue it. -/
def isIdentifier : List Char → Bool
  | [] => false
  | c :: rest => startsIdentifier c && rest.all continuesIdentifier

/-- The word stands in the line, and no identifier goes on behind it. -/
structure IsRun (line before word after : List Char) : Prop where
  line_eq : line = before ++ word ++ after
  isIdentifier_eq : isIdentifier word = true
  ends : ∀ d ∈ after.head?, continuesIdentifier d = false

section Words

variable {line before after rest text : List Char} {front back : List Piece} {c : Char}
  {kind : LexemeKind}

theorem Cut.first_of_startsIdentifier (h : startsIdentifier c = true) (rest : List Char) :
    first c rest = Cut.word c rest := by
  rw [first, if_pos h]

theorem Cut.startsIdentifier_of_isWord (h : (Cut.first c rest).piece.isWord = true) :
    startsIdentifier c = true := by
  unfold Piece.isWord at h
  split at h
  · rename_i hkind
    exact Cut.beginsWith_of_kind hkind
  · rename_i hkind
    exact Cut.beginsWith_of_kind hkind
  · cases h

/-- A word is a run, and the character behind it decides whether it is a keyword. -/
theorem isRun_of_pieces (h : pieces line = front ++ ⟨some kind, text⟩ :: back)
    (hword : Piece.isWord ⟨some kind, text⟩ = true) :
    IsRun line (front.flatMap Piece.text) text (back.flatMap Piece.text) ∧
      kind = wordKind text (back.flatMap Piece.text).head? := by
  obtain ⟨c, rest, hcut, _⟩ := exists_first_of_pieces h
  have hc : startsIdentifier c = true := Cut.startsIdentifier_of_isWord (by rw [hcut]; exact hword)
  rw [Cut.first_of_startsIdentifier hc, Cut.word] at hcut
  injection hcut with hpiece hback
  injection hpiece with hkind htext
  rw [← hback]
  refine ⟨⟨?_, ?_, stops_dropWhile⟩, ?_⟩
  · rw [eq_append_of_pieces h, List.flatMap_cons, hback, List.append_assoc]
  · rw [← htext, isIdentifier, hc, Bool.true_and, List.all_eq_true]
    exact fun d hd => List.mem_takeWhile_imp hd
  · rw [← htext]
    exact (Option.some.inj hkind).symm

/-- Only words, string literals and comments hold a character that starts an identifier. -/
theorem Cut.startsIdentifier_eq_false (h : (Cut.first c rest).piece.kind = some kind)
    (hword : (Cut.first c rest).piece.isWord = false) (hstring : kind ≠ .stringLiteral)
    (hcomment : kind ≠ .comment) :
    ∀ d ∈ (Cut.first c rest).piece.text, startsIdentifier d = false := by
  have hc : startsIdentifier c = false := by
    by_contra hc
    rw [Cut.first_of_startsIdentifier ((Bool.not_eq_false _).mp hc)] at hword
    cases hword.symm.trans (Piece.isWord_wordKind _ _ _)
  have hrun {p : Char → Bool} (hp : ∀ d, p d = true → startsIdentifier d = false) :
      ∀ d ∈ c :: rest.takeWhile p, startsIdentifier d = false :=
    List.forall_mem_cons.mpr ⟨hc, fun d hd => hp d (List.mem_takeWhile_imp hd)⟩
  cases Cut.choice c with
  | word hstart _ => cases hc.symm.trans hstart
  | colon _ hcut =>
    rw [hcut]
    unfold Cut.colon
    split
    · have hequals : ∀ d ∈ ['='], startsIdentifier d = false :=
        List.forall_mem_singleton.mpr (by decide +kernel)
      exact List.forall_mem_cons.mpr ⟨by decide +kernel, hequals⟩
    · exact List.forall_mem_singleton.mpr (by decide +kernel)
  | bracket _ _ hcut =>
    rw [hcut]
    exact List.forall_mem_singleton.mpr hc
  | comment _ hcut =>
    rw [hcut] at h
    exact absurd (Option.some.inj h).symm hcomment
  | string hquote _ _ => exact absurd (Cut.kind_of_isQuote hquote h) hstring
  | spacing _ hcut =>
    rw [hcut]
    refine hrun fun d hd => ?_
    obtain rfl | rfl | rfl | rfl := isSpacing_cases hd <;> decide +kernel
  | blank _ hcut =>
    rw [hcut] at h
    cases h
  | other _ hcut =>
    rw [hcut]
    refine hrun fun d hd => ?_
    simp only [isPlain, Bool.not_eq_true', Bool.or_eq_false_iff] at hd
    exact hd.1.1.1.1.1.2

theorem InStrayBlank.isBlank (h : InStrayBlank (before ++ c :: after) (byteLength before)) :
    isBlank c = true := by
  obtain ⟨before', b, after', hline, hblank, _, _, hle, hlt⟩ := h
  obtain ⟨gap, rfl, hgap⟩ := exists_append_of_byteLength_le hline.symm hle
  obtain _ | ⟨d, gap⟩ := gap
  · obtain ⟨rfl, _⟩ := List.cons.inj hgap
    exact hblank
  · obtain ⟨rfl, _⟩ := List.cons.inj hgap
    simp only [byteLength_append, byteLength_cons, byteLength_nil] at hlt
    omega

/-- A character that starts an identifier belongs to a word, unless a string or comment holds it. -/
theorem exists_word_of_startsIdentifier (hc : startsIdentifier c = true)
    (houtside : OutsideOpaque (before ++ c :: after) (byteLength before))
    (hclosed : ¬ InOpenString (before ++ c :: after) (byteLength before)) :
    ∃ word ∈ lexemes (before ++ c :: after), word.isWord = true ∧
      word.Covers (byteLength before) := by
  obtain ⟨front, kind, x, y, back, hholds, _⟩ := exists_holdsByte_of_append before c after
  obtain ⟨hstring, hcomment⟩ := hholds.outsideOpaque_iff.mp houtside
  obtain _ | kind := kind
  · obtain hblank | hopen := (uncovered_iff hholds.lt_byteLength).mp (hholds.uncovered_iff.mpr rfl)
    · have hcontinues := continuesIdentifier_of_startsIdentifier hc
      cases hblank.isBlank.symm.trans (not_isBlank_of_continuesIdentifier hcontinues)
    · exact absurd hopen hclosed
  · obtain ⟨word, hmem, rfl, hcovers⟩ := hholds.exists_covers rfl
    refine ⟨word, hmem, ?_, hcovers⟩
    by_contra hword
    obtain ⟨d, rest, hcut, _⟩ := exists_first_of_pieces hholds.pieces_eq
    have hnone : ∀ c ∈ (Cut.first d rest).piece.text, startsIdentifier c = false := by
      refine Cut.startsIdentifier_eq_false (congrArg (·.piece.kind) hcut) ?_
        (fun heq => hstring (congrArg some heq)) (fun heq => hcomment (congrArg some heq))
      rw [hcut]
      exact (Bool.not_eq_true _).mp hword
    rw [hcut] at hnone
    cases hc.symm.trans (hnone c (List.mem_append_right x List.mem_cons_self))

end Words

/-! ## Names -/

section Names

variable {line : List Char} {kind other : BlockKind} {name : String} {rest : List Piece}

/-- The name of a function or a class is an identifier of the line. -/
theorem LineKind.mem_of_announced (hkind : kind.shape = .parameters ∨ kind.shape = .name)
    (h : announced other rest = opens kind (some name)) :
    (⟨some .identifier, name.toList⟩ : Piece) ∈ rest := by
  have hmem : ∀ {word more}, fromSignificant rest = ⟨some .identifier, word⟩ :: more →
      opens other (some (String.ofList word)) = opens kind (some name) →
      (⟨some .identifier, name.toList⟩ : Piece) ∈ rest := by
    intro word more hrest heq
    cases heq
    rw [String.toList_ofList]
    exact (List.dropWhile_suffix _).subset (hrest ▸ List.mem_cons_self)
  obtain rfl := kind_of_announced h
  unfold announced at h
  obtain hshape | hshape := hkind
  · rw [hshape] at h
    dsimp only at h
    split at h
    · rename_i word more hrest
      split at h
      · exact hmem hrest h
      · cases h
    · cases h
  · rw [hshape] at h
    dsimp only at h
    split at h
    · rename_i word more hrest
      exact hmem hrest h
    · cases h

theorem LineKind.mem_of_ofPieces {line : List Piece}
    (hkind : kind.shape = .parameters ∨ kind.shape = .name)
    (h : ofPieces line = opens kind (some name)) :
    (⟨some .identifier, name.toList⟩ : Piece) ∈ line := by
  obtain ⟨front, keyword, text, rest, rfl, hrest⟩ := exists_announced_of_ofPieces h
  exact List.mem_append_right front (List.mem_cons_of_mem _ (mem_of_announced hkind hrest))

/-- A function or a class has a keyword as its name only where the keyword is hidden. -/
theorem exists_hidesKeyword_of_name (hkind : kind.shape = .parameters ∨ kind.shape = .name)
    {keyword : Keyword} (h : LineKind.ofLine line = .opens kind (some keyword.text)) :
    ∃ before c after, line = before ++ keyword.text.toList ++ c :: after ∧
      hidesKeyword c = true := by
  obtain ⟨front, back, hpieces⟩ := List.append_of_mem (LineKind.mem_of_ofPieces hkind h)
  obtain ⟨hrun, hword⟩ := isRun_of_pieces hpieces rfl
  obtain ⟨c, hc, hhides⟩ := exists_hidesKeyword hword.symm
  obtain ⟨after, hafter⟩ := List.head?_eq_some_iff.mp hc
  obtain ⟨blanks, hblanks⟩ : trimStart line <:+ line := List.dropWhile_suffix _
  refine ⟨blanks ++ front.flatMap Piece.text, c, after, ?_, hhides⟩
  rw [← hblanks, hrun.line_eq, hafter]
  simp

end Names

/-! ## Separators -/

section Separators

variable {b : Char} {lead text more : List Char} {front : List Piece} {kind : LexemeKind}

/-- The search for the colon finds the same text behind blanks, but for these blanks. -/
theorem textBeforeColon_pieces_trimStart (depth : Nat) (s : List Char) :
    textBeforeColon depth (pieces (trimStart s)) =
      (textBeforeColon depth (pieces s)).map trimStart := by
  cases h : textBeforeColon depth (pieces s) with
  | some text => exact textBeforeColon_trimStart h
  | none =>
    fun_induction pieces s with
    | case1 =>
      rw [trimStart, List.dropWhile_nil, pieces]
      rfl
    | case2 c rest ih =>
      cases hc : isBlank c with
      | false =>
        rw [trimStart_cons hc, pieces, h]
        rfl
      | true =>
        obtain ⟨hpiece, hblank⟩ := Cut.first_of_isBlank hc rest
        rw [textBeforeColon_of_not_significant depth _ hpiece, Option.map_eq_none_iff] at h
        rw [← Cut.first_append c rest, trimStart_append_of_blank hblank, ih h]

/-- Blanks at the start of a clause do not belong to it. -/
theorem clause_trimStart (s : List Char) : clause (pieces (trimStart s)) = clause (pieces s) := by
  have htrim : trim ∘ trimStart = trim := by
    funext text
    rw [Function.comp_apply, trim, trim, trimStart, trimStart, List.dropWhile_idempotent]
  rw [clause, clause, textBeforeColon_pieces_trimStart, Option.map_map, htrim]

theorem LineKind.announced_trimStart (kind : BlockKind) (s : List Char) :
    announced kind (pieces (trimStart s)) = announced kind (pieces s) := by
  rw [announced, announced, fromSignificant_trimStart, clause_trimStart]

/-- What may stand before the keyword that announces a block: nothing, or another keyword and a
space. -/
inductive Lead : List Char → List Piece → Prop where
  | none : Lead [] []
  | async : Lead "async ".toList
      [⟨some (.keyword .async), "async".toList⟩, ⟨some .whitespace, [' ']⟩]

theorem not_continuesIdentifier_of_isBlank (hb : isBlank b = true) :
    continuesIdentifier b = false := by
  by_contra hcontinues
  have hfilled := not_isBlank_of_continuesIdentifier ((Bool.not_eq_false _).mp hcontinues)
  cases hb.symm.trans hfilled

theorem Keyword.isIdentifier_text (keyword : Keyword) :
    isIdentifier keyword.text.toList = true := by
  obtain _ | kind := keyword
  · decide +kernel
  · cases kind <;> decide +kernel

theorem pieces_keyword (keyword : Keyword)
    (hmore : ∀ d ∈ more.head?, continuesIdentifier d = false) :
    pieces (keyword.text.toList ++ more) =
      ⟨some (wordKind keyword.text.toList more.head?), keyword.text.toList⟩ :: pieces more := by
  have hword := keyword.isIdentifier_text
  cases htext : keyword.text.toList with
  | nil => rw [htext] at hword; cases hword
  | cons c rest =>
    rw [htext, isIdentifier, Bool.and_eq_true, List.all_eq_true] at hword
    exact pieces_word_append hword.1 hword.2 hmore

theorem Lead.pieces_append (h : Lead lead front)
    (hmore : ∀ d ∈ more.head?, isSpacing d = false) :
    pieces (lead ++ more) = front ++ pieces more := by
  cases h with
  | none => rfl
  | async =>
    have hspace : pieces (' ' :: more) = ⟨some .whitespace, [' ']⟩ :: pieces more :=
      pieces_run_append (Cut.first_of_isSpacing (c := ' ') rfl) (List.forall_mem_nil _) hmore
    have hends : ∀ d ∈ (' ' :: more).head?, continuesIdentifier d = false := by
      rintro _ ⟨⟩
      exact not_continuesIdentifier_of_isSpacing rfl
    have hkeyword := pieces_keyword .async hends
    rw [hspace] at hkeyword
    exact hkeyword

theorem LineKind.ofPieces_async (text : List Char) (rest : List Piece) :
    ofPieces (⟨some (.keyword .async), text⟩ :: rest) =
      match fromSignificant rest with
      | ⟨some (.keyword (.announce kind)), _⟩ :: rest =>
        if kind.allowsAsync then announced kind rest else statement
      | _ => statement :=
  rfl

/-- Behind a word that may announce a block, blanks do not matter. -/
theorem Lead.ofPieces_trimStart (h : Lead lead front)
    (hword : Piece.isWord ⟨some kind, text⟩ = true) (s : List Char) :
    LineKind.ofPieces (front ++ ⟨some kind, text⟩ :: pieces (trimStart s)) =
      LineKind.ofPieces (front ++ ⟨some kind, text⟩ :: pieces s) := by
  cases h with
  | none =>
    obtain (_ | kind) | _ := kind <;> try cases hword
    · rw [List.nil_append, List.nil_append, LineKind.ofPieces_async, LineKind.ofPieces_async,
        fromSignificant_trimStart]
    · exact LineKind.announced_trimStart kind s
    · rfl
  | async =>
    obtain (_ | kind) | _ := kind <;> try cases hword
    · rfl
    · show (if kind.allowsAsync then LineKind.announced kind _ else .statement) = _
      rw [LineKind.announced_trimStart]
      rfl
    · rfl

theorem Lead.ofPieces_identifier (h : Lead lead front) (text : List Char) (rest : List Piece) :
    LineKind.ofPieces (front ++ ⟨some .identifier, text⟩ :: rest) = .statement := by
  cases h <;> rfl

theorem Lead.pieces_append_keyword (h : Lead lead front) (keyword : Keyword) (hb : isBlank b = true)
    (s : List Char) : pieces (lead ++ (keyword.text.toList ++ b :: s)) =
      front ++ ⟨some (wordKind keyword.text.toList (some b)), keyword.text.toList⟩ ::
        pieces (b :: s) := by
  have hends : ∀ d ∈ (b :: s).head?, continuesIdentifier d = false := by
    rintro _ ⟨⟩
    exact not_continuesIdentifier_of_isBlank hb
  have hstarts : ∀ d ∈ (keyword.text.toList ++ b :: s).head?, isSpacing d = false := by
    obtain _ | kind := keyword
    · rintro _ ⟨⟩
      rfl
    · cases kind <;> rintro _ ⟨⟩ <;> rfl
  rw [h.pieces_append hstarts, pieces_keyword keyword hends, List.head?_cons]

/-- Behind a keyword, every ASCII blank says the same. -/
theorem Lead.ofPieces_ascii (h : Lead lead front) (keyword : Keyword) (hb : isBlank b = true)
    (hascii : b.toNat < 0x80) (s : List Char) :
    LineKind.ofPieces (pieces (lead ++ (keyword.text.toList ++ b :: s))) =
      LineKind.ofPieces (front ++ ⟨some (.keyword keyword), keyword.text.toList⟩ ::
        pieces (trimStart s)) := by
  have hkind : wordKind keyword.text.toList (some b) = .keyword keyword := by
    refine wordKind_eq_keyword_iff.mpr ⟨rfl, ?_⟩
    rintro _ ⟨⟩
    rw [hidesKeyword_of_isBlank hb]
    exact decide_eq_false (Nat.not_le_of_lt hascii)
  rw [h.pieces_append_keyword keyword hb, hkind, ← h.ofPieces_trimStart rfl,
    trimStart_cons_blank hb]

/-- The blank behind a keyword decides whether there is a keyword, and nothing else. -/
theorem Lead.ofPieces_separator (h : Lead lead front) (keyword : Keyword)
    (hb : isBlank b = true) (s : List Char) :
    LineKind.ofPieces (pieces (lead ++ (keyword.text.toList ++ b :: s))) =
      if b.toNat < 0x80 then
        LineKind.ofPieces (pieces (lead ++ (keyword.text.toList ++ ' ' :: trimStart s)))
      else .statement := by
  split
  · rename_i hascii
    rw [h.ofPieces_ascii keyword hb hascii, h.ofPieces_ascii keyword rfl (by decide), trimStart,
      trimStart, List.dropWhile_idempotent]
  · rename_i hascii
    have hhides : hidesKeyword b = true := by
      rw [hidesKeyword_of_isBlank hb]
      exact decide_eq_true (Nat.le_of_not_lt hascii)
    rw [h.pieces_append_keyword keyword hb, wordKind_of_hidesKeyword hhides, h.ofPieces_identifier]

end Separators

/-! ## The words of a line -/

/-- **Keywords and what stands behind them.** Every character that starts an identifier belongs to a
word, unless a string or a comment holds it. A word is a longest run of identifier characters; it is
a keyword if it spells that keyword and the character behind it does not hide it. So a function or a
class has a keyword as its name only before a character that hides keywords. The blank behind the
keyword of a header may be any ASCII blank; behind any other one, the line is a statement. -/
theorem keywords_recognized (line : List Char) :
    (∀ before c after, line = before ++ c :: after → startsIdentifier c = true →
      OutsideOpaque line (byteLength before) → ¬ InOpenString line (byteLength before) →
      ∃ word ∈ lexemes line, word.isWord = true ∧ word.Covers (byteLength before)) ∧
    (∀ word ∈ lexemes line, word.isWord = true → ∃ before after,
      IsRun line before word.text after ∧ word.start = byteLength before ∧
      ∀ keyword, word.kind = .keyword keyword ↔
        word.text = keyword.text.toList ∧ ∀ c ∈ after.head?, hidesKeyword c = false) ∧
    (∀ kind (keyword : Keyword), kind = .function ∨ kind = .classBody →
      LineKind.ofLine line = .opens kind (some keyword.text) →
      ∃ before c after, line = before ++ keyword.text.toList ++ c :: after ∧
        hidesKeyword c = true) ∧
    (∀ lead ∈ [[], "async ".toList], ∀ (keyword : Keyword) b rest,
      trimStart line = lead ++ (keyword.text.toList ++ b :: rest) → isBlank b = true →
      LineKind.ofLine line =
        if b.toNat < 0x80 then
          LineKind.ofLine (lead ++ (keyword.text.toList ++ ' ' :: trimStart rest))
        else .statement) := by
  refine ⟨?_, ?_, ?_, ?_⟩
  · rintro before c after rfl hc houtside hclosed
    exact exists_word_of_startsIdentifier hc houtside hclosed
  · intro word hmem hword
    obtain ⟨front, back, hpieces, hstart, _⟩ := mem_lexemes_iff.mp hmem
    obtain ⟨hrun, hkind⟩ := isRun_of_pieces hpieces hword
    exact ⟨_, _, hrun, hstart, fun keyword => hkind ▸ wordKind_eq_keyword_iff⟩
  · intro kind keyword hkind hopens
    refine exists_hidesKeyword_of_name ?_ hopens
    obtain rfl | rfl := hkind
    · exact .inl rfl
    · exact .inr rfl
  · intro lead hlead keyword b rest hline hb
    have hfront : ∃ front, Lead lead front := by
      simp only [List.mem_cons, List.not_mem_nil, or_false] at hlead
      obtain rfl | rfl := hlead
      · exact ⟨_, .none⟩
      · exact ⟨_, .async⟩
    obtain ⟨front, hfront⟩ := hfront
    rw [LineKind.ofLine, hline, hfront.ofPieces_separator keyword hb, LineKind.ofPieces_pieces]

/-- A no-break space hides the keyword before it: no block is opened, or one whose name is the
keyword. -/
theorem keywords_hidden_by_blank :
    isBlank '\u00a0' = true ∧
      ⟨.identifier, (Keyword.text (.announce .ifBranch)).toList, 0, 2⟩ ∈
        lexemes "if\u00a0x:".toList ∧
      LineKind.ofLine "if\u00a0x:".toList = .statement ∧
      LineKind.ofLine "if x:".toList = .opens .ifBranch (some "x") ∧
      LineKind.ofLine "class if\u00a0:".toList =
        .opens .classBody (some (Keyword.text (.announce .ifBranch))) := by
  refine ⟨by decide, ?_, ?_, ?_, ?_⟩ <;> decide +kernel

end Offside
