import Offside.Proofs.CanonicalHeaders

/-!
# Where lexemes stand in a line

The lexemes of a line are slices of it, one behind the other, and what lies between them is known:
blanks that are no spacing, and strings that are never closed (`lexemes_tile`).

A byte of the line belongs to one piece (`HoldsByte`), and to a lexeme if that piece has a kind. So
the gaps are the pieces without a kind. Which these are is told by the text around a byte alone
(`InOpenString`): a quote outside of string literals and comments, behind it the content of a
string, and then nothing that the content could go on with. A string that is never closed may hold
other quotes, and the content behind any of them ends at the same place (`IsContent.eq_of_ends`).

`LineKind.ofSlices?` reads what a line introduces by place: it takes the lexemes at their indices
and cuts the clause out of the line at their bytes, and any of these steps may fail. None does.
-/

namespace Offside

open Offside.Text

/-! ## Slices -/

/-- The text before a byte of another text and the text from it on. There is none if the byte lies
within a character or behind the end. -/
def splitBytes? : Nat → List Char → Option (List Char × List Char)
  | n, [] => if n = 0 then some ([], []) else none
  | n, c :: rest =>
    if n = 0 then some ([], c :: rest)
    else if c.utf8Size ≤ n then
      (splitBytes? (n - c.utf8Size) rest).map fun split => (c :: split.1, split.2)
    else none

/-- The text from one byte up to and not including another one. There is none if they are not in
order, or if one of them is not where a character ends. -/
def slice? (start stop : Nat) (s : List Char) : Option (List Char) :=
  if start ≤ stop then do
    let (_, rest) ← splitBytes? start s
    let (text, _) ← splitBytes? (stop - start) rest
    return text
  else none

section Slices

variable {s before after text : List Char} {n start stop : Nat}

theorem splitBytes?_append (before after : List Char) :
    splitBytes? (byteLength before) (before ++ after) = some (before, after) := by
  induction before with
  | nil => cases after <;> rfl
  | cons c before ih =>
    rw [List.cons_append, splitBytes?, if_neg (byteLength_cons_ne_zero c before), byteLength_cons,
      if_pos (Nat.le_add_right _ _), Nat.add_sub_cancel_left, ih]
    rfl

theorem append_of_splitBytes? (h : splitBytes? n s = some (before, after)) :
    s = before ++ after ∧ n = byteLength before := by
  fun_induction splitBytes? n s generalizing before with
  | case1 =>
    cases h
    exact ⟨rfl, rfl⟩
  | case2 => cases h
  | case3 c rest =>
    cases h
    exact ⟨rfl, rfl⟩
  | case4 n c rest hn hc ih =>
    obtain ⟨⟨before', after'⟩, hsplit, heq⟩ := Option.map_eq_some_iff.mp h
    cases heq
    obtain ⟨hrest, hbytes⟩ := ih hsplit
    refine ⟨by rw [hrest]; rfl, ?_⟩
    rw [byteLength_cons, ← hbytes]
    omega
  | case5 => cases h

/-- A slice exists where the text can be split into three parts. -/
theorem slice?_eq_some_iff : slice? start stop s = some text ↔
    ∃ before after, s = before ++ text ++ after ∧ start = byteLength before ∧
      stop = byteLength (before ++ text) := by
  constructor
  · intro h
    unfold slice? at h
    split at h
    · rename_i hle
      obtain ⟨⟨before, rest⟩, hbefore, h⟩ := Option.bind_eq_some_iff.mp h
      obtain ⟨⟨text', after⟩, htext, h⟩ := Option.bind_eq_some_iff.mp h
      obtain rfl : text' = text := Option.some.inj h
      obtain ⟨rfl, hstart⟩ := append_of_splitBytes? hbefore
      obtain ⟨rfl, hstop⟩ := append_of_splitBytes? htext
      refine ⟨before, after, by rw [List.append_assoc], hstart, ?_⟩
      rw [byteLength_append, ← hstart, ← hstop]
      omega
    · cases h
  · rintro ⟨before, after, rfl, rfl, rfl⟩
    rw [slice?, byteLength_append, if_pos (Nat.le_add_right _ _), Nat.add_sub_cancel_left,
      List.append_assoc, splitBytes?_append]
    show (splitBytes? (byteLength text) (text ++ after) >>= fun split => some split.1) = some text
    rw [splitBytes?_append]
    rfl

/-- Of two front parts of a text, the one with fewer bytes is a front part of the other. -/
theorem exists_append_of_byteLength_le {s t u v : List Char} (h : s ++ t = u ++ v)
    (hle : byteLength s ≤ byteLength u) : ∃ gap, u = s ++ gap ∧ t = gap ++ v := by
  obtain ⟨gap, hu, ht⟩ | ⟨gap, hs, hv⟩ := List.append_eq_append_iff.mp h
  · exact ⟨gap, hu, ht⟩
  · obtain _ | ⟨c, gap⟩ := gap
    · exact ⟨[], by simpa using hs.symm, by simpa using hv.symm⟩
    · rw [hs, byteLength_append] at hle
      have hpos := byteLength_cons_ne_zero c gap
      omega

end Slices

/-! ## Places of lexemes -/

/-- The lexeme holds a byte of its line. -/
def Lexeme.Covers (lexeme : Lexeme) (i : Nat) : Prop := lexeme.start ≤ i ∧ i < lexeme.stop

/-- No lexeme of the line holds the byte. -/
def Uncovered (s : List Char) (i : Nat) : Prop := ∀ lexeme ∈ lexemes s, ¬ lexeme.Covers i

/-- The byte lies in a piece that stands between others. -/
structure HoldsByte (s : List Char) (i : Nat) (front : List Piece) (piece : Piece)
    (back : List Piece) : Prop where
  pieces_eq : pieces s = front ++ piece :: back
  le : byteLength (front.flatMap Piece.text) ≤ i
  lt : i < byteLength (front.flatMap Piece.text ++ piece.text)

section Places

variable {s before after : List Char} {front front' back back' line : List Piece}
  {piece piece' : Piece} {lexeme : Lexeme} {i : Nat}

theorem eq_append_of_pieces (h : pieces s = front ++ back) :
    s = front.flatMap Piece.text ++ back.flatMap Piece.text := by
  rw [← pieces_text s, h, List.flatMap_append]

theorem lexemesFrom_append (start : Nat) (front rest : List Piece) :
    lexemesFrom start (front ++ rest) = lexemesFrom start front ++
      lexemesFrom (start + byteLength (front.flatMap Piece.text)) rest := by
  induction front generalizing start with
  | nil => rfl
  | cons piece front ih =>
    rw [List.flatMap_cons, byteLength_append, ← Nat.add_assoc]
    obtain ⟨_ | kind, text⟩ := piece
    · exact ih _
    · exact congrArg (_ :: ·) (ih _)

theorem mem_lexemesFrom_iff : lexeme ∈ lexemesFrom (byteLength before) line ↔
    ∃ front back, line = front ++ ⟨some lexeme.kind, lexeme.text⟩ :: back ∧
      lexeme.start = byteLength (before ++ front.flatMap Piece.text) ∧
      lexeme.stop = byteLength (before ++ front.flatMap Piece.text ++ lexeme.text) := by
  constructor
  · intro h
    induction line generalizing before with
    | nil => cases h
    | cons piece line ih =>
      have hrest (h : lexeme ∈ lexemesFrom (byteLength before + byteLength piece.text) line) :
          ∃ front back, piece :: line = front ++ ⟨some lexeme.kind, lexeme.text⟩ :: back ∧
            lexeme.start = byteLength (before ++ front.flatMap Piece.text) ∧
            lexeme.stop = byteLength (before ++ front.flatMap Piece.text ++ lexeme.text) := by
        rw [← byteLength_append] at h
        obtain ⟨front, back, rfl, hstart, hstop⟩ := ih h
        exact ⟨piece :: front, back, rfl, by simpa using hstart, by simpa using hstop⟩
      obtain ⟨_ | kind, text⟩ := piece
      · exact hrest h
      · obtain rfl | h := List.mem_cons.mp h
        · exact ⟨[], line, rfl, by simp, by simp⟩
        · exact hrest h
  · rintro ⟨front, back, rfl, hstart, hstop⟩
    rw [lexemesFrom_append, ← byteLength_append]
    refine List.mem_append_right _ (List.mem_cons.mpr (.inl ?_))
    rw [← byteLength_append, ← hstart, ← hstop]

/-- The lexemes of a text are its pieces that have a kind, each from the end of the text before it
to its own end. -/
theorem mem_lexemes_iff : lexeme ∈ lexemes s ↔
    ∃ front back, pieces s = front ++ ⟨some lexeme.kind, lexeme.text⟩ :: back ∧
      lexeme.start = byteLength (front.flatMap Piece.text) ∧
      lexeme.stop = byteLength (front.flatMap Piece.text ++ lexeme.text) := by
  have h : lexeme ∈ lexemesFrom (byteLength []) (pieces s) ↔ _ := mem_lexemesFrom_iff
  exact h

/-- Between any two lexemes there is a slice of the text, which may be empty. -/
theorem pairwise_slice_lexemesFrom (before : List Char) (line : List Piece) :
    (lexemesFrom (byteLength before) line).Pairwise fun first second =>
      ∃ text, slice? first.stop second.start (before ++ line.flatMap Piece.text) = some text := by
  induction line generalizing before with
  | nil => exact .nil
  | cons piece line ih =>
    have hrest := ih (before ++ piece.text)
    rw [byteLength_append, List.append_assoc, ← List.flatMap_cons] at hrest
    obtain ⟨_ | kind, text⟩ := piece
    · exact hrest
    · refine .cons (fun second hsecond => ?_) hrest
      rw [← byteLength_append] at hsecond
      obtain ⟨front, back, rfl, hstart, _⟩ := mem_lexemesFrom_iff.mp hsecond
      refine ⟨front.flatMap Piece.text, slice?_eq_some_iff.mpr ⟨before ++ text,
        second.text ++ back.flatMap Piece.text, by simp, by simp, hstart⟩⟩

theorem pairwise_slice_lexemes (s : List Char) : (lexemes s).Pairwise fun first second =>
    ∃ text, slice? first.stop second.start s = some text := by
  have h := pairwise_slice_lexemesFrom [] (pieces s)
  rwa [List.nil_append, pieces_text] at h

theorem le_of_slice? {start stop : Nat} {text : List Char} (h : slice? start stop s = some text) :
    start ≤ stop := by
  obtain ⟨before, _, _, rfl, rfl⟩ := slice?_eq_some_iff.mp h
  rw [byteLength_append]
  exact Nat.le_add_right _ _

/-- The text of a lexeme is the slice of the line from its start to its end. -/
theorem slice?_of_mem_lexemes (h : lexeme ∈ lexemes s) :
    slice? lexeme.start lexeme.stop s = some lexeme.text := by
  obtain ⟨front, back, hpieces, hstart, hstop⟩ := mem_lexemes_iff.mp h
  refine slice?_eq_some_iff.mpr ⟨_, back.flatMap Piece.text, ?_, hstart, hstop⟩
  rw [eq_append_of_pieces hpieces, List.flatMap_cons, List.append_assoc]

/-! ## Pieces -/

/-- A piece of a text was cut off the text from its first character on, and the pieces behind it are
those of the text behind it. -/
theorem exists_first_of_pieces (h : pieces s = front ++ piece :: back) :
    ∃ c rest, Cut.first c rest = ⟨piece, back.flatMap Piece.text⟩ ∧
      pieces (back.flatMap Piece.text) = back := by
  obtain ⟨t, _, ht⟩ := exists_pieces_of_suffix (s := s) ⟨front, h.symm⟩
  obtain _ | ⟨c, rest⟩ := t
  · rw [pieces] at ht
    cases ht
  · rw [pieces] at ht
    obtain ⟨rfl, rfl⟩ := List.cons.inj ht
    exact ⟨c, rest, by rw [pieces_text], by rw [pieces_text]⟩

/-- The characters that a lexeme of a kind may begin with. -/
def LexemeKind.beginsWith : LexemeKind → Char → Bool
  | .keyword _, c | .identifier, c => startsIdentifier c
  | .colon, c | .walrus, c => c == ':'
  | .openBracket, c => isOpenBracket c
  | .closeBracket, c => isCloseBracket c
  | .stringLiteral, c => isQuote c
  | .comment, c => c == '#'
  | .whitespace, c => isSpacing c
  | .other, c => isPlain c

theorem beginsWith_wordKind {c : Char} (word : List Char) (next : Option Char) :
    (wordKind word next).beginsWith c = startsIdentifier c := by
  unfold wordKind
  split
  · split <;> rfl
  · rfl

theorem Cut.beginsWith_of_kind {c : Char} {rest : List Char} {kind : LexemeKind}
    (h : (Cut.first c rest).piece.kind = some kind) : kind.beginsWith c = true := by
  unfold Cut.first at h
  split at h
  · obtain rfl := Option.some.inj h
    rwa [beginsWith_wordKind]
  split at h
  · unfold Cut.colon at h
    split at h <;> cases h <;> simpa [LexemeKind.beginsWith]
  split at h
  · cases h
    assumption
  split at h
  · cases h
    assumption
  split at h
  · cases h
    simpa [LexemeKind.beginsWith]
  split at h
  · simp only [Cut.string] at h
    split at h <;> cases h
    assumption
  split at h
  · cases h
    assumption
  split at h
  · cases h
  · cases h
    simp_all [LexemeKind.beginsWith, isPlain]

theorem text_ne_nil_of_mem_lexemes (h : lexeme ∈ lexemes s) : lexeme.text ≠ [] := by
  obtain ⟨_, _, hpieces, _⟩ := mem_lexemes_iff.mp h
  obtain ⟨c, rest, hcut, _⟩ := exists_first_of_pieces hpieces
  have hne := Cut.first_text_ne_nil c rest
  rwa [hcut] at hne

/-- Every byte of a text lies in a piece. -/
theorem exists_holdsByte (hi : i < byteLength s) :
    ∃ front piece back, HoldsByte s i front piece back := by
  have hline : ∀ (line : List Piece) (i : Nat), i < byteLength (line.flatMap Piece.text) →
      ∃ front piece back, line = front ++ piece :: back ∧
        byteLength (front.flatMap Piece.text) ≤ i ∧
        i < byteLength (front.flatMap Piece.text ++ piece.text) := by
    intro line
    induction line with
    | nil => exact fun i hi => absurd hi (Nat.not_lt_zero i)
    | cons piece line ih =>
      intro i hi
      by_cases hfirst : i < byteLength piece.text
      · exact ⟨[], piece, line, rfl, Nat.zero_le i, hfirst⟩
      · rw [List.flatMap_cons, byteLength_append] at hi
        obtain ⟨front, piece', back, rfl, hle, hlt⟩ := ih (i - byteLength piece.text) (by omega)
        refine ⟨piece :: front, piece', back, rfl, ?_, ?_⟩
        all_goals
          rw [List.flatMap_cons]
          simp only [byteLength_append] at hlt ⊢
          omega
  obtain ⟨front, piece, back, hpieces, hle, hlt⟩ := hline (pieces s) i (by rwa [pieces_text])
  exact ⟨front, piece, back, hpieces, hle, hlt⟩

theorem HoldsByte.lt_byteLength (h : HoldsByte s i front piece back) : i < byteLength s := by
  refine h.lt.trans_le ?_
  rw [eq_append_of_pieces h.pieces_eq, List.flatMap_cons, ← List.append_assoc,
    byteLength_append (_ ++ _)]
  exact Nat.le_add_right _ _

/-- No byte lies in two pieces. -/
theorem HoldsByte.unique (h : HoldsByte s i front piece back)
    (h' : HoldsByte s i front' piece' back') : piece = piece' := by
  -- A piece that stands before another one ends before the byte.
  have hnone : ∀ {front front' gap back back' : List Piece} {piece piece' : Piece},
      HoldsByte s i front piece back → HoldsByte s i front' piece' back' →
      front' = front ++ gap → piece :: back = gap ++ piece' :: back' → piece = piece' := by
    intro front front' gap back back' piece piece' h h' hfront hback
    obtain _ | ⟨first, gap⟩ := gap
    · exact (List.cons.inj hback).1
    · obtain rfl := (List.cons.inj hback).1
      have hle := h'.le
      have hlt := h.lt
      rw [hfront, List.flatMap_append, List.flatMap_cons] at hle
      simp only [byteLength_append] at hle hlt
      omega
  obtain ⟨gap, hfront, hback⟩ | ⟨gap, hfront, hback⟩ :=
    List.append_eq_append_iff.mp (h.pieces_eq.symm.trans h'.pieces_eq)
  · exact hnone h h' hfront hback
  · exact (hnone h' h hfront hback).symm

theorem HoldsByte.eq_of_covers (h : HoldsByte s i front piece back) (hmem : lexeme ∈ lexemes s)
    (hcovers : lexeme.Covers i) : piece = ⟨some lexeme.kind, lexeme.text⟩ := by
  obtain ⟨front', back', hpieces, hstart, hstop⟩ := mem_lexemes_iff.mp hmem
  exact h.unique ⟨hpieces, hstart ▸ hcovers.1, hstop ▸ hcovers.2⟩

theorem HoldsByte.exists_covers (h : HoldsByte s i front piece back) {kind : LexemeKind}
    (hkind : piece.kind = some kind) :
    ∃ lexeme ∈ lexemes s, lexeme.kind = kind ∧ lexeme.Covers i := by
  obtain ⟨_, text⟩ := piece
  subst hkind
  refine ⟨⟨kind, text, _, _⟩, ?_, rfl, h.le, h.lt⟩
  exact mem_lexemes_iff.mpr ⟨front, back, h.pieces_eq, rfl, rfl⟩

/-- A byte belongs to no lexeme if its piece has no kind. -/
theorem HoldsByte.uncovered_iff (h : HoldsByte s i front piece back) :
    Uncovered s i ↔ piece.kind = none := by
  constructor
  · intro huncovered
    cases hkind : piece.kind with
    | none => rfl
    | some kind =>
      obtain ⟨lexeme, hmem, _, hcovers⟩ := h.exists_covers hkind
      exact absurd hcovers (huncovered lexeme hmem)
  · intro hkind lexeme hmem hcovers
    rw [h.eq_of_covers hmem hcovers] at hkind
    cases hkind

/-- The character that begins at a byte stands in the piece that holds the byte. -/
theorem HoldsByte.exists_text_eq {c : Char}
    (h : HoldsByte (before ++ c :: after) (byteLength before) front piece back) :
    ∃ x y, piece.text = x ++ c :: y ∧ before = front.flatMap Piece.text ++ x ∧
      after = y ++ back.flatMap Piece.text := by
  have hline : front.flatMap Piece.text ++ (piece.text ++ back.flatMap Piece.text) =
      before ++ c :: after := by
    rw [eq_append_of_pieces h.pieces_eq, List.flatMap_cons]
  obtain ⟨x, hbefore, hafter⟩ := exists_append_of_byteLength_le hline h.le
  have hlt := h.lt
  rw [hbefore, byteLength_append, byteLength_append] at hlt
  obtain ⟨y, htext, hback⟩ := exists_append_of_byteLength_le hafter.symm (by omega)
  obtain _ | ⟨d, y⟩ := y
  · rw [htext, List.append_nil] at hlt
    omega
  · obtain ⟨rfl, rfl⟩ := List.cons.inj hback
    exact ⟨x, y, htext, hbefore, rfl⟩

/-- Every character of a text stands in a piece. -/
theorem exists_holdsByte_of_append (before : List Char) (c : Char) (after : List Char) :
    ∃ front kind x y back,
      HoldsByte (before ++ c :: after) (byteLength before) front ⟨kind, x ++ c :: y⟩ back ∧
        before = front.flatMap Piece.text ++ x ∧ after = y ++ back.flatMap Piece.text := by
  have hbyte : byteLength before < byteLength (before ++ c :: after) := by
    rw [byteLength_append]
    exact Nat.lt_add_of_pos_right (Nat.pos_of_ne_zero (byteLength_cons_ne_zero c after))
  obtain ⟨front, ⟨kind, text⟩, back, hholds⟩ := exists_holdsByte hbyte
  obtain ⟨x, y, rfl, hbefore, hafter⟩ := hholds.exists_text_eq
  exact ⟨front, kind, x, y, back, hholds, hbefore, hafter⟩

end Places

/-! ## String content -/

/-- Text that a string may hold before its closing quote: a backslash takes the character behind it
along, which is no line feed. -/
inductive IsContent (quote : Char) : List Char → Prop where
  | nil : IsContent quote []
  | plain {c : Char} {rest : List Char} (hquote : c ≠ quote) (hescape : c ≠ '\\')
    (h : IsContent quote rest) : IsContent quote (c :: rest)
  | escape {c : Char} {rest : List Char} (hc : c ≠ '\n') (h : IsContent quote rest) :
    IsContent quote ('\\' :: c :: rest)

/-- No string content can begin with the text: it is empty, or it begins with a backslash that takes
no character along. -/
def EndsContent (rest : List Char) : Prop :=
  rest = [] ∨ rest = ['\\'] ∨ ∃ more, rest = '\\' :: '\n' :: more

section Content

variable {quote quote' : Char} {s t s' t' : List Char}

theorem isContent_of_open (h : (quoted quote s).1 = false) :
    IsContent quote (quoted quote s).2.1 ∧ EndsContent (quoted quote s).2.2 := by
  fun_induction quoted quote s with
  | case1 => exact ⟨.nil, .inl rfl⟩
  | case2 rest => exact ⟨.nil, .inr (.inr ⟨rest, rfl⟩)⟩
  | case3 next rest hnext closed text after heq ih =>
    rw [heq] at ih
    obtain ⟨hcontent, hends⟩ := ih h
    exact ⟨.escape hnext hcontent, hends⟩
  | case4 rest => cases h
  | case5 rest hlast hquote' =>
    obtain rfl : rest = [] := by
      cases rest with
      | nil => rfl
      | cons c rest => exact (hlast c rest rfl rfl).elim
    exact ⟨.nil, .inr (.inl rfl)⟩
  | case6 c rest _ hclose hescape closed text after heq ih =>
    rw [heq] at ih
    obtain ⟨hcontent, hends⟩ := ih h
    exact ⟨.plain hclose hescape hcontent, hends⟩

/-- Behind a quote in the content of a string, the rest is content of the string, too. -/
theorem IsContent.of_quote {x y : List Char} (h : IsContent quote' (x ++ quote :: y))
    (hquote : isQuote quote = true) : IsContent quote' y := by
  generalize hs : x ++ quote :: y = s at h
  induction h generalizing x with
  | nil => simp at hs
  | plain _ _ hrest ih =>
    obtain _ | ⟨c, x⟩ := x
    · obtain ⟨_, rfl⟩ := List.cons.inj hs
      exact hrest
    · exact ih (List.cons.inj hs).2
  | escape _ hrest ih =>
    obtain _ | ⟨c, _ | ⟨d, x⟩⟩ := x
    · obtain ⟨rfl, _⟩ := List.cons.inj hs
      cases hquote
    · obtain ⟨_, rfl⟩ := List.cons.inj (List.cons.inj hs).2
      exact hrest
    · exact ih (List.cons.inj (List.cons.inj hs).2).2

theorem EndsContent.not_append (h : EndsContent (s ++ t)) (hs : IsContent quote s) : s = [] := by
  cases hs with
  | nil => rfl
  | plain _ hescape _ =>
    obtain h | h | ⟨_, h⟩ := h
    · cases h
    · exact absurd (List.cons.inj h).1 hescape
    · exact absurd (List.cons.inj h).1 hescape
  | escape hc _ =>
    obtain h | h | ⟨_, h⟩ := h
    · cases h
    · cases (List.cons.inj h).2
    · exact absurd (List.cons.inj (List.cons.inj h).2).1 hc

/-- Where content ends does not depend on the quote before it. -/
theorem IsContent.eq_of_ends (hs : IsContent quote s) (hs' : IsContent quote' s')
    (ht : EndsContent t) (ht' : EndsContent t') (h : s ++ t = s' ++ t') : s = s' := by
  induction hs generalizing s' with
  | nil =>
    rw [List.nil_append] at h
    exact (EndsContent.not_append (h ▸ ht) hs').symm
  | plain hquote hescape hrest ih =>
    cases hs' with
    | nil =>
      rw [List.nil_append] at h
      exact EndsContent.not_append (h ▸ ht') (.plain hquote hescape hrest)
    | plain _ _ hrest' =>
      obtain ⟨rfl, hrests⟩ := List.cons.inj h
      rw [ih hrest' hrests]
    | escape _ _ => exact absurd (List.cons.inj h).1 hescape
  | escape hc hrest ih =>
    cases hs' with
    | nil =>
      rw [List.nil_append] at h
      exact EndsContent.not_append (h ▸ ht') (.escape hc hrest)
    | plain _ hescape' _ => exact absurd (List.cons.inj h).1.symm hescape'
    | escape _ hrest' =>
      obtain ⟨rfl, hrests⟩ := List.cons.inj (List.cons.inj h).2
      rw [ih hrest' hrests]

end Content

/-! ## What lies between the lexemes -/

/-- The byte belongs to no string literal and to no comment. -/
def OutsideOpaque (s : List Char) (i : Nat) : Prop :=
  ∀ lexeme ∈ lexemes s, lexeme.kind = .stringLiteral ∨ lexeme.kind = .comment → ¬ lexeme.Covers i

/-- The byte belongs to a blank character other than spacing, outside of string literals and
comments. -/
def InStrayBlank (s : List Char) (i : Nat) : Prop :=
  ∃ before c after, s = before ++ c :: after ∧ isBlank c = true ∧ isSpacing c = false ∧
    OutsideOpaque s (byteLength before) ∧ byteLength before ≤ i ∧ i < byteLength (before ++ [c])

/-- The byte belongs to a string that is never closed: from a quote outside of string literals and
comments as far as the content goes on, up to the end of the text or to a backslash that is its last
character or stands before a line feed. -/
def InOpenString (s : List Char) (i : Nat) : Prop :=
  ∃ before quote body after, s = before ++ quote :: (body ++ after) ∧ isQuote quote = true ∧
    OutsideOpaque s (byteLength before) ∧ IsContent quote body ∧ EndsContent after ∧
    byteLength before ≤ i ∧ i < byteLength (before ++ quote :: body)

/-- Whether the character may stand in a lexeme that is no string literal and no comment. -/
def isOrdinary (c : Char) : Bool := !isQuote c && (!isBlank c || isSpacing c)

section Gaps

variable {s : List Char} {front back : List Piece} {piece : Piece} {i : Nat} {c : Char}
  {rest : List Char}

theorem HoldsByte.outsideOpaque_iff (h : HoldsByte s i front piece back) : OutsideOpaque s i ↔
    piece.kind ≠ some .stringLiteral ∧ piece.kind ≠ some .comment := by
  constructor
  · intro houtside
    constructor <;> intro hkind <;> obtain ⟨lexeme, hmem, hlexeme, hcovers⟩ := h.exists_covers hkind
    · exact houtside lexeme hmem (.inl hlexeme) hcovers
    · exact houtside lexeme hmem (.inr hlexeme) hcovers
  · rintro ⟨hstring, hcomment⟩ lexeme hmem hlexeme hcovers
    rw [h.eq_of_covers hmem hcovers] at hstring hcomment
    obtain hlexeme | hlexeme := hlexeme
    · exact hstring (congrArg some hlexeme)
    · exact hcomment (congrArg some hlexeme)

theorem isBlank_eq_false_of_isQuote (h : isQuote c = true) : isBlank c = false := by
  simp only [isQuote, Bool.or_eq_true, beq_iff_eq] at h
  obtain rfl | rfl := h <;> decide

theorem isOrdinary_of_continuesIdentifier (h : continuesIdentifier c = true) :
    isOrdinary c = true := by
  have hquote : isQuote c = false := by
    by_contra hquote
    simp only [isQuote, Bool.not_eq_false, Bool.or_eq_true, beq_iff_eq] at hquote
    obtain rfl | rfl := hquote <;> revert h <;> decide +kernel
  simp [isOrdinary, hquote, not_isBlank_of_continuesIdentifier h]

theorem isOrdinary_of_isPlain (h : isPlain c = true) : isOrdinary c = true := by
  have hblank := not_isBlank_of_isPlain h
  simp only [isPlain, Bool.not_eq_true', Bool.or_eq_false_iff] at h
  simp [isOrdinary, hblank, h.2]

theorem isOrdinary_of_isSpacing (h : isSpacing c = true) : isOrdinary c = true := by
  obtain rfl | rfl | rfl | rfl := isSpacing_cases h <;> decide

theorem Cut.first_of_isQuote (h : isQuote c = true) (rest : List Char) :
    Cut.first c rest = Cut.string c rest := by
  simp only [isQuote, Bool.or_eq_true, beq_iff_eq] at h
  obtain rfl | rfl := h <;> rfl

/-- A piece without a kind is a blank character that is no spacing, or a string that is never
closed. -/
theorem Cut.first_of_no_kind (h : (Cut.first c rest).piece.kind = none) :
    isBlank c = true ∧ isSpacing c = false ∧ (Cut.first c rest).piece.text = [c] ∨
      isQuote c = true ∧ ∃ body, (Cut.first c rest).piece.text = c :: body ∧ IsContent c body ∧
        EndsContent (Cut.first c rest).rest := by
  cases Cut.choice c with
  | word _ hcut => rw [hcut] at h; cases h
  | colon _ hcut =>
    rw [hcut] at h
    unfold Cut.colon at h
    split at h <;> cases h
  | bracket _ _ hcut => rw [hcut] at h; cases h
  | comment _ hcut => rw [hcut] at h; cases h
  | string hquote _ hcut =>
    rw [hcut] at h ⊢
    have hopen : (quoted c rest).1 = false := by
      by_contra hclosed
      simp [Cut.string, hclosed] at h
    exact .inr ⟨hquote, _, rfl, isContent_of_open hopen⟩
  | spacing _ hcut => rw [hcut] at h; cases h
  | blank hblank hcut =>
    refine .inl ⟨hblank, ?_, by rw [hcut]⟩
    by_contra hspacing
    rw [Cut.first_of_isSpacing ((Bool.not_eq_false _).mp hspacing)] at h
    cases h
  | other _ hcut => rw [hcut] at h; cases h

/-- The kind of a piece that begins with a quote, if it has one. -/
theorem Cut.kind_of_isQuote {kind : LexemeKind} (hc : isQuote c = true)
    (h : (Cut.first c rest).piece.kind = some kind) : kind = .stringLiteral := by
  rw [Cut.first_of_isQuote hc] at h
  simp only [Cut.string] at h
  split at h
  · exact (Option.some.inj h).symm
  · cases h

/-- A lexeme that is no string literal and no comment holds ordinary characters only. -/
theorem Cut.first_isOrdinary {kind : LexemeKind} (h : (Cut.first c rest).piece.kind = some kind)
    (hstring : kind ≠ .stringLiteral) (hcomment : kind ≠ .comment) :
    ∀ d ∈ (Cut.first c rest).piece.text, isOrdinary d = true := by
  cases Cut.choice c with
  | word hc hcut =>
    rw [hcut]
    refine List.forall_mem_cons.mpr ⟨?_, fun d hd => ?_⟩
    · exact isOrdinary_of_continuesIdentifier (continuesIdentifier_of_startsIdentifier hc)
    · exact isOrdinary_of_continuesIdentifier (List.mem_takeWhile_imp hd)
  | colon _ hcut =>
    rw [hcut]
    unfold Cut.colon
    split <;> exact List.all_eq_true.mp rfl
  | bracket _ hc hcut =>
    have hquote : isQuote c = false := by
      by_contra hquote
      exact hstring (Cut.kind_of_isQuote ((Bool.not_eq_false _).mp hquote) h)
    rw [hcut]
    exact List.forall_mem_singleton.mpr (by simp [isOrdinary, hquote, hc])
  | comment _ hcut =>
    rw [hcut] at h
    exact absurd (Option.some.inj h).symm hcomment
  | string hc _ _ => exact absurd (Cut.kind_of_isQuote hc h) hstring
  | spacing hc hcut =>
    rw [hcut]
    refine List.forall_mem_cons.mpr ⟨isOrdinary_of_isSpacing hc, fun d hd => ?_⟩
    exact isOrdinary_of_isSpacing (List.mem_takeWhile_imp hd)
  | blank _ hcut =>
    rw [hcut] at h
    cases h
  | other hc hcut =>
    rw [hcut]
    refine List.forall_mem_cons.mpr ⟨isOrdinary_of_isPlain hc, fun d hd => ?_⟩
    exact isOrdinary_of_isPlain (List.mem_takeWhile_imp hd)

/-- A piece of a text without a kind is a blank character that is no spacing, or a string that is
never closed. -/
theorem cases_of_no_kind {text : List Char} (h : pieces s = front ++ ⟨none, text⟩ :: back) :
    (∃ c, text = [c] ∧ isBlank c = true ∧ isSpacing c = false) ∨
      ∃ quote body, text = quote :: body ∧ isQuote quote = true ∧ IsContent quote body ∧
        EndsContent (back.flatMap Piece.text) := by
  obtain ⟨c, rest, hcut, _⟩ := exists_first_of_pieces h
  have hcases : (Cut.first c rest).piece.kind = none → _ := Cut.first_of_no_kind
  rw [hcut] at hcases
  obtain ⟨hblank, hspacing, htext⟩ | ⟨hquote, body, htext, hbody, hends⟩ := hcases rfl
  · exact .inl ⟨c, htext, hblank, hspacing⟩
  · exact .inr ⟨c, body, htext, hquote, hbody, hends⟩

/-- A character that is not ordinary stands in a piece without a kind, unless it belongs to a string
literal or a comment. -/
theorem exists_piece_of_not_isOrdinary {before after : List Char} (hc : isOrdinary c = false)
    (houtside : OutsideOpaque (before ++ c :: after) (byteLength before)) :
    ∃ front x y back, pieces (before ++ c :: after) = front ++ ⟨none, x ++ c :: y⟩ :: back ∧
      before = front.flatMap Piece.text ++ x ∧ after = y ++ back.flatMap Piece.text := by
  obtain ⟨front, kind, x, y, back, hholds, hbefore, hafter⟩ :=
    exists_holdsByte_of_append before c after
  refine ⟨front, x, y, back, ?_, hbefore, hafter⟩
  obtain ⟨hstring, hcomment⟩ := hholds.outsideOpaque_iff.mp houtside
  obtain _ | kind := kind
  · exact hholds.pieces_eq
  · obtain ⟨first, rest, hcut, _⟩ := exists_first_of_pieces hholds.pieces_eq
    have hall : (Cut.first first rest).piece.kind = some kind → _ := Cut.first_isOrdinary
    rw [hcut] at hall
    have hordinary := hall rfl (fun heq => hstring (congrArg some heq))
      (fun heq => hcomment (congrArg some heq)) c (List.mem_append_right x List.mem_cons_self)
    cases hc.symm.trans hordinary

/-- No byte of a piece without a kind belongs to a lexeme. -/
theorem uncovered_of_no_kind {text : List Char} (h : pieces s = front ++ ⟨none, text⟩ :: back)
    (hle : byteLength (front.flatMap Piece.text) ≤ i)
    (hlt : i < byteLength (front.flatMap Piece.text ++ text)) : Uncovered s i := by
  have hholds : HoldsByte s i front ⟨none, text⟩ back := ⟨h, hle, hlt⟩
  exact hholds.uncovered_iff.mpr rfl

theorem InStrayBlank.uncovered (h : InStrayBlank s i) : Uncovered s i := by
  obtain ⟨before, c, after, rfl, hblank, hspacing, houtside, hle, hlt⟩ := h
  obtain ⟨front, x, y, back, hpieces, hbefore, _⟩ :=
    exists_piece_of_not_isOrdinary (by simp [isOrdinary, hblank, hspacing]) houtside
  refine uncovered_of_no_kind hpieces ?_ ?_
  · rw [hbefore, byteLength_append] at hle
    exact (Nat.le_add_right _ _).trans hle
  · rw [hbefore] at hlt
    simp only [byteLength_append, byteLength_cons, byteLength_nil] at hlt ⊢
    omega

/-- The string that is never closed is the rest of a piece without a kind, which may have begun at
an earlier quote. -/
theorem InOpenString.uncovered (h : InOpenString s i) : Uncovered s i := by
  obtain ⟨before, quote, body, after, rfl, hquote, houtside, hbody, hafter, hle, hlt⟩ := h
  obtain ⟨front, x, y, back, hpieces, hbefore, hsplit⟩ :=
    exists_piece_of_not_isOrdinary (by simp [isOrdinary, hquote]) houtside
  have hy : ∃ quote', IsContent quote' y ∧ EndsContent (back.flatMap Piece.text) := by
    obtain ⟨c, hsingle, hblank, _⟩ | ⟨quote', body', htext, _, hbody', hends⟩ :=
      cases_of_no_kind hpieces
    · have hmem : quote ∈ [c] := hsingle ▸ List.mem_append_right x List.mem_cons_self
      rw [List.mem_singleton.mp hmem] at hquote
      cases hblank.symm.trans (isBlank_eq_false_of_isQuote hquote)
    · refine ⟨quote', ?_, hends⟩
      obtain _ | ⟨_, x⟩ := x
      · obtain ⟨_, rfl⟩ := List.cons.inj htext
        exact hbody'
      · obtain ⟨_, rfl⟩ := List.cons.inj htext
        exact hbody'.of_quote hquote
  obtain ⟨quote', hy, hends⟩ := hy
  obtain rfl : body = y := hbody.eq_of_ends hy hafter hends hsplit
  refine uncovered_of_no_kind hpieces ?_ ?_
  · rw [hbefore, byteLength_append] at hle
    exact (Nat.le_add_right _ _).trans hle
  · rwa [← List.append_assoc, ← hbefore]

/-- The bytes of a text that belong to no lexeme are those of stray blanks and of strings that are
never closed. -/
theorem uncovered_iff (hi : i < byteLength s) :
    Uncovered s i ↔ InStrayBlank s i ∨ InOpenString s i := by
  constructor
  · intro huncovered
    obtain ⟨front, ⟨kind, text⟩, back, hholds⟩ := exists_holdsByte hi
    obtain rfl : kind = none := hholds.uncovered_iff.mp huncovered
    have hpieces := hholds.pieces_eq
    have hline : s = front.flatMap Piece.text ++ (text ++ back.flatMap Piece.text) := by
      rw [eq_append_of_pieces hpieces, List.flatMap_cons]
    have houtside : OutsideOpaque s (byteLength (front.flatMap Piece.text)) := by
      have hfirst : HoldsByte s _ front ⟨none, text⟩ back :=
        ⟨hpieces, Nat.le_refl _, hholds.le.trans_lt hholds.lt⟩
      exact hfirst.outsideOpaque_iff.mpr ⟨nofun, nofun⟩
    obtain ⟨c, rfl, hblank, hspacing⟩ | ⟨quote, body, rfl, hquote, hbody, hends⟩ :=
      cases_of_no_kind hpieces
    · exact .inl ⟨_, c, _, hline, hblank, hspacing, houtside, hholds.le, hholds.lt⟩
    · exact .inr ⟨_, quote, body, _, hline, hquote, houtside, hbody, hends, hholds.le, hholds.lt⟩
  · rintro (hblank | hopen)
    · exact hblank.uncovered
    · exact hopen.uncovered

end Gaps

/-! ## Reading a line by place -/

namespace LineKind

/-- The clause of a line, cut out between the lexeme before a place and the colon found from there
on. The outer option is empty if that lexeme, the colon or the slice between them does not exist. -/
def clauseSlice? (line : List Char) (significant : List Lexeme) (first : Nat) :
    Option (Option (List Char)) :=
  match colonPlace 0 (significant.drop first) with
  | none => some none
  | some place => do
    let keyword ← significant[first - 1]?
    let colon ← significant[first + place]?
    let text ← slice? keyword.stop colon.start line
    return some (trim text)

/-- What a line introduces that announces a kind of block, from its lexemes from a place on. There
is no answer if there is no such place, or no clause where one is cut out. -/
def announcedSlice? (kind : BlockKind) (line : List Char) (significant : List Lexeme)
    (first : Nat) : Option LineKind :=
  if first ≤ significant.length then
    match kind.shape with
    | .parameters =>
      match significant.drop first with
      | ⟨.identifier, name, _, _⟩ :: ⟨.openBracket, _, _, _⟩ :: _ =>
        some (opens kind (some (String.ofList name)))
      | _ => some statement
    | .name =>
      match significant.drop first with
      | ⟨.identifier, name, _, _⟩ :: _ => some (opens kind (some (String.ofList name)))
      | _ => some statement
    | .clause =>
      (clauseSlice? line significant first).map fun
        | none | some [] => statement
        | some text => opens kind (some (String.ofList text))
    | .optionalClause =>
      (clauseSlice? line significant first).map fun
        | none => statement
        | some [] => opens kind none
        | some text => opens kind (some (String.ofList text))
    | .bare =>
      match significant.drop first with
      | ⟨.colon, _, _, _⟩ :: _ => some (opens kind none)
      | _ => some statement
  else none

/-- What a line introduces, read by the places of its lexemes. -/
def ofSlices? (line : List Char) : Option LineKind :=
  match significantLexemes line with
  | ⟨.keyword (.announce kind), _, _, _⟩ :: _ =>
    announcedSlice? kind (trimStart line) (significantLexemes line) 1
  | ⟨.keyword .async, _, _, _⟩ :: ⟨.keyword (.announce kind), _, _, _⟩ :: _ =>
    if kind.allowsAsync then announcedSlice? kind (trimStart line) (significantLexemes line) 2
    else some statement
  | _ => some statement

section Slices

variable {kind : BlockKind} {before : List Char} {rest : List Piece} {significant : List Lexeme}
  {keyword : Lexeme} {first : Nat}

/-- The clause is cut out where the search for its colon finds it. -/
theorem clauseSlice?_eq (hkeyword : significant[first - 1]? = some keyword)
    (hstop : keyword.stop = byteLength before)
    (hrest : significant.drop first = significantFrom (byteLength before) rest) :
    clauseSlice? (before ++ rest.flatMap Piece.text) significant first = some (clause rest) := by
  unfold clauseSlice? clause
  rw [hrest]
  obtain ⟨hnone, htext⟩ | ⟨place, text, after, colon, hplace, htext, hsplit, hcolon, hstart⟩ :=
    textBeforeColon_cases 0 before rest
  · rw [hnone, htext]
    rfl
  · have hslice : slice? keyword.stop colon.start (before ++ rest.flatMap Piece.text) = some text :=
      slice?_eq_some_iff.mpr ⟨before, after, by rw [hsplit, List.append_assoc], hstop, hstart⟩
    rw [← hrest, List.getElem?_drop] at hcolon
    simp only [hplace, hkeyword, hcolon, htext]
    show (slice? keyword.stop colon.start _ >>= fun text => some (some (trim text))) = _
    rw [hslice]
    rfl

/-- The lexemes from the place behind the keyword on say what the pieces there say. -/
theorem announcedSlice?_eq (hfirst : first ≤ significant.length)
    (hkeyword : significant[first - 1]? = some keyword)
    (hstop : keyword.stop = byteLength before)
    (hrest : significant.drop first = significantFrom (byteLength before) rest) :
    announcedSlice? kind (before ++ rest.flatMap Piece.text) significant first =
      some (announced kind rest) := by
  unfold announcedSlice? announced
  rw [if_pos hfirst, clauseSlice?_eq hkeyword hstop hrest, hrest]
  obtain ⟨hnone, hsignificant⟩ | ⟨word, name, more, gap, _, hline, _, hsignificant⟩ :=
    fromSignificant_cases before rest
  · rw [hnone, hsignificant]
    cases kind.shape <;> rfl
  rw [hline, hsignificant]
  cases kind.shape with
  | name | bare => cases word <;> rfl
  | clause | optionalClause => rfl
  | parameters =>
    obtain hword | rfl := ne_or_eq word .identifier
    · cases word <;> first | rfl | exact absurd rfl hword
    obtain ⟨hnone, hsignificant⟩ | ⟨next, _, _, _, _, hline, _, hsignificant⟩ :=
      fromSignificant_cases (before ++ gap ++ name) more
    · rw [hsignificant]
      simp only [hnone]
    · rw [hsignificant]
      simp only [hline]
      cases next <;> rfl

/-- Reading a line by place never fails, and says what the line introduces. -/
theorem ofSlices?_eq (line : List Char) : ofSlices? line = some (ofLine line) := by
  have htext : (pieces (trimStart line)).flatMap Piece.text = trimStart line := pieces_text _
  have hlexemes : significantLexemes line =
      significantFrom (byteLength []) (pieces (trimStart line)) := rfl
  unfold ofSlices?
  rw [ofLine, ofPieces]
  obtain ⟨hnone, hsignificant⟩ | ⟨word, text, rest, gap, _, hfirst, hline, hsignificant⟩ :=
    fromSignificant_cases [] (pieces (trimStart line))
  · rw [hlexemes, hsignificant, hnone]
  rw [← hlexemes, List.nil_append] at hsignificant
  rw [htext] at hline
  rw [hfirst, hsignificant, hline]
  obtain (_ | kind) | _ := word <;> try rfl
  · obtain ⟨hnone, hsignificant⟩ | ⟨next, text', rest', gap', _, hsecond, hline', hsignificant⟩ :=
      fromSignificant_cases (gap ++ text) rest
    · rw [hsignificant]
      simp only [hnone]
    rw [hsignificant]
    simp only [hsecond]
    obtain (_ | kind) | _ := next <;> try rfl
    dsimp only
    split
    · rw [hline', show gap ++ text ++ (gap' ++ text' ++ rest'.flatMap Piece.text) =
        gap ++ text ++ gap' ++ text' ++ rest'.flatMap Piece.text by simp]
      exact announcedSlice?_eq (Nat.le_add_left 2 _) rfl rfl rfl
    · rfl
  · exact announcedSlice?_eq (Nat.le_add_left 1 _) rfl rfl rfl

end Slices

end LineKind

/-! ## The lexemes of a line -/

/-- **Lexemes tile their line.** The lexemes of a line stand in order and do not overlap; none is
empty, and its text is the slice of the line at its place. The bytes of the line that belong to none
are those of blanks other than spacing, outside of string literals and comments, and those of
strings that are never closed. Between any two significant lexemes there is a slice, so reading what
the line introduces by place never fails. -/
theorem lexemes_tile (line : List Char) :
    (lexemes line).Pairwise (fun first second => first.stop ≤ second.start) ∧
      (∀ lexeme ∈ lexemes line, lexeme.start < lexeme.stop ∧ lexeme.stop ≤ byteLength line ∧
        slice? lexeme.start lexeme.stop line = some lexeme.text) ∧
      (∀ i < byteLength line, Uncovered line i ↔ InStrayBlank line i ∨ InOpenString line i) ∧
      (significantLexemes line).Pairwise (fun first second =>
        ∃ text, slice? first.stop second.start (trimStart line) = some text) ∧
      LineKind.ofSlices? line = some (LineKind.ofLine line) := by
  refine ⟨?_, ?_, fun i hi => uncovered_iff hi, ?_, LineKind.ofSlices?_eq line⟩
  · refine (pairwise_slice_lexemes line).imp ?_
    rintro first second ⟨text, hslice⟩
    exact le_of_slice? hslice
  · intro lexeme hmem
    have hslice := slice?_of_mem_lexemes hmem
    obtain ⟨before, after, hline, hstart, hstop⟩ := slice?_eq_some_iff.mp hslice
    obtain ⟨c, text, htext⟩ := List.exists_cons_of_ne_nil (text_ne_nil_of_mem_lexemes hmem)
    refine ⟨?_, ?_, hslice⟩
    · rw [hstart, hstop, byteLength_append, htext]
      exact Nat.lt_add_of_pos_right (Nat.pos_of_ne_zero (byteLength_cons_ne_zero c text))
    · rw [hstop, hline, byteLength_append (before ++ lexeme.text)]
      exact Nat.le_add_right _ _
  · exact (pairwise_slice_lexemes (trimStart line)).filter _

end Offside
