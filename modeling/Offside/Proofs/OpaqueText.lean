import Offside.Proofs.Spans

/-!
# String literals and comments are opaque

What a string literal or a comment holds says nothing about the line around it. With other content
between its quotes, a string literal leaves the kinds of all lexemes and the kind of block as they
are (`lexemes_replaceContent`), and a line introduces what it introduces without its comment
(`LineKind.ofLine_comment`).

Both rest on cutting the line again (`pieces_append_of_opensOpaque`): the pieces before a quote or a
hash sign are cut off the same if some other such character, or nothing, takes its place. The
induction is over these pieces. One of them may be a string that is never closed; then a backslash
and a line feed follow it, and they stand before the quote too.
-/

namespace Offside

open Offside.Text

/-! ## Content of strings -/

section Content

variable {quote : Char} {s t : List Char}

theorem isContent_of_not_mem (hquote : quote ∉ s) (hescape : '\\' ∉ s) : IsContent quote s := by
  induction s with
  | nil => exact .nil
  | cons c s ih =>
    simp only [List.mem_cons, not_or] at hquote hescape
    exact .plain (Ne.symm hquote.1) (Ne.symm hescape.1) (ih hquote.2 hescape.2)

/-- Content is read as far as it goes, whatever the quote then meets. -/
theorem quoted_content_append (hs : IsContent quote s) (t : List Char) :
    quoted quote (s ++ t) =
      ((quoted quote t).1, s ++ (quoted quote t).2.1, (quoted quote t).2.2) := by
  induction hs with
  | nil => rfl
  | plain hquote hescape _ ih => rw [List.cons_append, quoted_of_plain hquote hescape, ih]; rfl
  | escape hc _ ih => rw [List.cons_append, List.cons_append, quoted_of_escape hc, ih]; rfl

theorem quoted_of_ends (hquote : isQuote quote = true) (h : EndsContent t) :
    quoted quote t = (false, [], t) := by
  obtain rfl | rfl | ⟨more, rfl⟩ := h
  · rfl
  · have hne : '\\' ≠ quote := by
      rintro rfl
      cases hquote
    rw [quoted, if_neg hne, if_pos rfl]
    rintro _ _ _ ⟨⟩
  · rfl

end Content

/-! ## Cutting again -/

/-- Whether a character opens a string or a comment. -/
def opensOpaque (c : Char) : Bool := isQuote c || c == '#'

section Cutting

variable {c : Char} {rest shared s t : List Char} {front back : List Piece}

theorem opensOpaque_cases (h : opensOpaque c = true) : c = '"' ∨ c = '\'' ∨ c = '#' := by
  simpa [opensOpaque, isQuote, or_assoc] using h

/-- A run that no opaque text goes on with ends where it did. -/
theorem ends_of_opensOpaque {p : Char → Bool} (hp : ∀ c, opensOpaque c = true → p c = false)
    (h : rest.dropWhile p = shared ++ s) (ht : ∀ c ∈ t.head?, opensOpaque c = true) :
    ∀ c ∈ (shared ++ t).head?, p c = false := by
  obtain _ | ⟨d, shared⟩ := shared
  · exact fun c hc => hp c (ht c hc)
  · have hends : ∀ c ∈ (rest.dropWhile p).head?, p c = false := stops_dropWhile
    rw [h] at hends
    exact hends

theorem wordKind_of_opensOpaque (word : List Char) (hs : ∃ c ∈ s.head?, opensOpaque c = true)
    (ht : ∀ c ∈ t.head?, opensOpaque c = true) :
    wordKind word (shared ++ t).head? = wordKind word (shared ++ s).head? := by
  have hshows : ∀ c, opensOpaque c = true → hidesKeyword c = false := by
    intro c hc
    obtain rfl | rfl | rfl := opensOpaque_cases hc <;> decide
  obtain _ | ⟨d, shared⟩ := shared
  · obtain ⟨c, hc, hopens⟩ := hs
    have hs' : s.head?.any hidesKeyword = false := by
      rw [hc]
      exact hshows c hopens
    have ht' : t.head?.any hidesKeyword = false := by
      cases hd : t.head? with
      | none => rfl
      | some d => exact hshows d (ht d hd)
    simp only [List.nil_append, wordKind, hs', ht']
  · rfl

/-- A string that is never closed ends before opaque text only at a backslash and a line feed. -/
theorem EndsContent.of_opensOpaque (h : EndsContent (shared ++ s))
    (hs : ∃ c ∈ s.head?, opensOpaque c = true) (t : List Char) : EndsContent (shared ++ t) := by
  obtain ⟨c, hc, hopens⟩ := hs
  obtain ⟨s, rfl⟩ := List.head?_eq_some_iff.mp hc
  obtain hnil | hback | ⟨more, hfeed⟩ := h
  · simp at hnil
  · obtain _ | ⟨d, shared⟩ := shared
    · obtain ⟨rfl, _⟩ := List.cons.inj hback
      cases hopens
    · simp at hback
  · obtain _ | ⟨d, _ | ⟨e, shared⟩⟩ := shared
    · obtain ⟨rfl, _⟩ := List.cons.inj hfeed
      cases hopens
    · obtain ⟨rfl, _⟩ := List.cons.inj (List.cons.inj hfeed).2
      cases hopens
    · obtain ⟨rfl, rfl, _⟩ := List.cons.inj hfeed |>.imp_right List.cons.inj
      exact .inr (.inr ⟨shared ++ t, rfl⟩)

/-- A colon in front of opaque text is no part of the assignment operator. -/
theorem Cut.pieces_colon_of_opensOpaque (h : (Cut.colon rest).rest = shared ++ s)
    (ht : ∀ c ∈ t.head?, opensOpaque c = true) :
    pieces ((Cut.colon rest).piece.text ++ (shared ++ t)) =
      (Cut.colon rest).piece :: pieces (shared ++ t) := by
  have hcut : ∀ rest, first ':' rest = colon rest := fun _ => rfl
  unfold Cut.colon at h ⊢
  split at h
  · show pieces (':' :: '=' :: (shared ++ t)) = _
    rw [pieces, hcut, Cut.colon]
  · rename_i hrest
    have hequals : ∀ more, shared ++ t ≠ '=' :: more := by
      intro more hmore
      obtain _ | ⟨d, shared⟩ := shared
      · have hopens := ht '=' (by rw [show t = '=' :: more from hmore]; rfl)
        cases hopens
      · obtain ⟨rfl, _⟩ := List.cons.inj hmore
        exact hrest _ h
    show pieces (':' :: (shared ++ t)) = _
    rw [pieces, hcut, Cut.colon]
    exact hequals

/-- A string that is closed ends at its quote. One that is not ends at a backslash and a line feed,
which stand before the opaque text, too. -/
theorem Cut.pieces_string_of_opensOpaque (hquote : isQuote c = true)
    (h : (Cut.string c rest).rest = shared ++ s) (hs : ∃ c ∈ s.head?, opensOpaque c = true)
    (t : List Char) :
    pieces ((Cut.string c rest).piece.text ++ (shared ++ t)) =
      (Cut.string c rest).piece :: pieces (shared ++ t) := by
  cases hclosed : (quoted c rest).1 with
  | true =>
    obtain ⟨body, htext, hread⟩ := quoted_of_closed hquote hclosed
    have hpiece : (Cut.string c rest).piece = ⟨some .stringLiteral, c :: body ++ [c]⟩ := by
      simp only [Cut.string, hclosed, htext, if_true, List.cons_append]
    rw [hpiece, List.cons_append, List.cons_append, pieces, Cut.first_of_isQuote hquote,
      Cut.string, hread]
    rfl
  | false =>
    obtain ⟨hcontent, hends⟩ := isContent_of_open hclosed
    have hrest : (quoted c rest).2.2 = shared ++ s := h
    have hends' := (hrest ▸ hends).of_opensOpaque hs t
    have hpiece : (Cut.string c rest).piece = ⟨none, c :: (quoted c rest).2.1⟩ := by
      simp only [Cut.string, hclosed, Bool.false_eq_true, if_false]
    rw [hpiece, List.cons_append, pieces, Cut.first_of_isQuote hquote, Cut.string,
      quoted_content_append hcontent, quoted_of_ends hquote hends', List.append_nil]
    rfl

/-- A first piece is cut off the same if the opaque text behind it is exchanged. -/
theorem Cut.pieces_of_opensOpaque (h : (Cut.first c rest).rest = shared ++ s)
    (hs : ∃ c ∈ s.head?, opensOpaque c = true) (ht : ∀ c ∈ t.head?, opensOpaque c = true) :
    pieces ((Cut.first c rest).piece.text ++ (shared ++ t)) =
      (Cut.first c rest).piece :: pieces (shared ++ t) := by
  have hrun {p : Char → Bool} {kind : LexemeKind} (hcut : ∀ rest, first c rest = run kind p c rest)
      (hends : ∀ d ∈ (shared ++ t).head?, p d = false) :
      pieces ((Cut.run kind p c rest).piece.text ++ (shared ++ t)) =
        (Cut.run kind p c rest).piece :: pieces (shared ++ t) :=
    pieces_run_append hcut (fun _ hd => List.mem_takeWhile_imp hd) hends
  cases Cut.choice c with
  | word hc hcut =>
    rw [hcut] at h ⊢
    have hrest : rest.dropWhile continuesIdentifier = shared ++ s := h
    have hends : ∀ d ∈ (shared ++ t).head?, continuesIdentifier d = false := by
      refine ends_of_opensOpaque (fun d hd => ?_) hrest ht
      obtain rfl | rfl | rfl := opensOpaque_cases hd <;> decide +kernel
    show pieces (c :: rest.takeWhile continuesIdentifier ++ (shared ++ t)) =
      ⟨some (wordKind _ (rest.dropWhile continuesIdentifier).head?), _⟩ :: _
    rw [pieces_word_append hc (fun _ hd => List.mem_takeWhile_imp hd) hends, hrest,
      wordKind_of_opensOpaque _ hs ht]
  | colon hc hcut =>
    subst hc
    rw [hcut] at h ⊢
    exact pieces_colon_of_opensOpaque h ht
  | bracket kind _ hcut =>
    rw [hcut]
    show pieces (c :: (shared ++ t)) = _
    rw [pieces, hcut]
  | comment _ hcut =>
    rw [hcut] at h ⊢
    have hfeed : ∀ d ∈ (Cut.run .comment (· ≠ '\n') c rest).rest.head?,
        decide (d ≠ '\n') = false := stops_dropWhile
    rw [h] at hfeed
    refine hrun hcut ?_
    obtain _ | ⟨d, shared⟩ := shared
    · obtain ⟨d, hd, hopens⟩ := hs
      obtain rfl : d = '\n' := by simpa using hfeed d hd
      cases hopens
    · exact hfeed
  | string hquote _ hcut =>
    rw [hcut] at h ⊢
    exact pieces_string_of_opensOpaque hquote h hs t
  | spacing _ hcut =>
    rw [hcut] at h ⊢
    refine hrun hcut (ends_of_opensOpaque (fun d hd => ?_) h ht)
    obtain rfl | rfl | rfl := opensOpaque_cases hd <;> rfl
  | blank _ hcut =>
    rw [hcut]
    show pieces (c :: (shared ++ t)) = _
    rw [pieces, hcut]
  | other _ hcut =>
    rw [hcut] at h ⊢
    refine hrun hcut (ends_of_opensOpaque (fun d hd => ?_) h ht)
    obtain rfl | rfl | rfl := opensOpaque_cases hd <;> rfl

/-- The pieces before opaque text are the same before any other opaque text, and at the end. -/
theorem pieces_append_of_opensOpaque (h : pieces s = front ++ back)
    (hback : ∃ c ∈ (back.flatMap Piece.text).head?, opensOpaque c = true)
    (ht : ∀ c ∈ t.head?, opensOpaque c = true) :
    pieces (front.flatMap Piece.text ++ t) = front ++ pieces t := by
  induction front generalizing s with
  | nil => rfl
  | cons piece front ih =>
    have hfirst : pieces s = [] ++ piece :: (front ++ back) := h
    obtain ⟨c, rest, hcut, hrest⟩ := exists_first_of_pieces hfirst
    rw [List.flatMap_append] at hcut
    have hpieces := Cut.pieces_of_opensOpaque (congrArg Cut.rest hcut) hback ht
    rw [hcut] at hpieces
    rw [List.flatMap_cons, List.append_assoc, hpieces, ih hrest]
    rfl

end Cutting

/-! ## Blanks at the start -/

/-- Blanks at the start of a text are no significant pieces. -/
theorem fromSignificant_trimStart (s : List Char) :
    fromSignificant (pieces (trimStart s)) = fromSignificant (pieces s) := by
  fun_induction pieces s with
  | case1 => rw [trimStart, List.dropWhile_nil, pieces]
  | case2 c rest ih =>
    cases hc : isBlank c with
    | false => rw [trimStart_cons hc, pieces]
    | true =>
      obtain ⟨hpiece, htext⟩ := Cut.first_of_isBlank hc rest
      rw [← Cut.first_append c rest, trimStart_append_of_blank htext, ih, fromSignificant,
        fromSignificant, List.dropWhile_cons_of_pos (by simp [hpiece])]

/-- What a line introduces is read from its pieces, those of its leading blanks among them. -/
theorem LineKind.ofPieces_pieces (line : List Char) : ofPieces (pieces line) = ofLine line := by
  rw [ofLine, ofPieces, ofPieces, fromSignificant_trimStart]

/-! ## Comments -/

section Comments

variable {line text : List Char} {front back : List Piece} {comment : Lexeme}

/-- A comment goes on to the end of its line, and the pieces before it are those of the text before
it. -/
theorem pieces_of_comment (hline : '\n' ∉ line)
    (h : pieces line = front ++ ⟨some .comment, text⟩ :: back) :
    back = [] ∧ pieces (front.flatMap Piece.text) = front := by
  obtain ⟨c, rest, hcut, hback⟩ := exists_first_of_pieces h
  obtain rfl : c = '#' := by
    have hbegins := Cut.beginsWith_of_kind (congrArg (·.piece.kind) hcut)
    simpa [LexemeKind.beginsWith] using hbegins
  have hfirst : Cut.first '#' rest = Cut.run .comment (· ≠ '\n') '#' rest := rfl
  rw [hfirst] at hcut
  constructor
  · have hrest : rest.dropWhile (· ≠ '\n') = back.flatMap Piece.text := congrArg Cut.rest hcut
    rw [← hback, ← hrest]
    cases hafter : rest.dropWhile (· ≠ '\n') with
    | nil => rw [pieces]
    | cons d more =>
      have hfeed : decide (d ≠ '\n') = false := stops_dropWhile d (by rw [hafter]; rfl)
      obtain rfl : d = '\n' := by simpa using hfeed
      refine absurd ?_ hline
      rw [eq_append_of_pieces h, List.flatMap_cons, ← hrest, hafter]
      simp
  · obtain rfl : '#' :: rest.takeWhile (· ≠ '\n') = text := congrArg (·.piece.text) hcut
    have hnil : ∀ d ∈ ([] : List Char).head?, opensOpaque d = true := by
      rintro _ ⟨⟩
    have hfront := pieces_append_of_opensOpaque h ⟨'#', rfl, rfl⟩ hnil
    rwa [List.append_nil, pieces, List.append_nil] at hfront

/-- What a line introduces is what the text before its comment introduces. -/
theorem ofLine_before_comment (hline : '\n' ∉ line)
    (h : pieces line = front ++ ⟨some .comment, text⟩ :: back) :
    LineKind.ofLine line = LineKind.ofLine (front.flatMap Piece.text) := by
  obtain ⟨rfl, hfront⟩ := pieces_of_comment hline h
  have hidle : Idle [⟨some .comment, text⟩] := idle_cons.mpr ⟨rfl, idle_nil⟩
  rw [← LineKind.ofPieces_pieces, ← LineKind.ofPieces_pieces, h, hfront,
    LineKind.ofPieces_append_idle front hidle]

/-- **Comments say nothing.** A line introduces what it introduces when it is cut off where its
comment starts. So lines with the same text before their comments introduce the same. -/
theorem LineKind.ofLine_comment (hline : '\n' ∉ line) (hmem : comment ∈ lexemes line)
    (hkind : comment.kind = .comment) :
    (∃ before, slice? 0 comment.start line = some before ∧ ofLine line = ofLine before) ∧
      ∀ line' comment', '\n' ∉ line' → comment' ∈ lexemes line' → comment'.kind = .comment →
        slice? 0 comment'.start line' = slice? 0 comment.start line →
        ofLine line' = ofLine line := by
  have hcut : ∀ line comment, '\n' ∉ line → comment ∈ lexemes line → comment.kind = .comment →
      ∃ before, slice? 0 comment.start line = some before ∧ ofLine line = ofLine before := by
    intro line comment hline hmem hkind
    obtain ⟨front, back, hpieces, hstart, _⟩ := mem_lexemes_iff.mp hmem
    rw [hkind] at hpieces
    refine ⟨front.flatMap Piece.text, ?_, ofLine_before_comment hline hpieces⟩
    exact slice?_eq_some_iff.mpr ⟨[], _, eq_append_of_pieces hpieces, rfl, hstart⟩
  refine ⟨hcut line comment hline hmem hkind, ?_⟩
  intro line' comment' hline' hmem' hkind' hsame
  obtain ⟨before, hbefore, hof⟩ := hcut line comment hline hmem hkind
  obtain ⟨before', hbefore', hof'⟩ := hcut line' comment' hline' hmem' hkind'
  rw [hbefore, hbefore'] at hsame
  rw [hof, hof', Option.some.inj hsame]

/-- The comment holds a colon and a quote, and a keyword touches it. -/
theorem LineKind.ofLine_comment_touching :
    let line := "\tasync with (a) as b: if# c:'".toList
    let comment : Lexeme := ⟨.comment, "# c:'".toList, 24, 29⟩
    '\n' ∉ line ∧ comment ∈ lexemes line ∧ comment.kind = .comment ∧
      (∃ before, slice? 0 comment.start line = some before ∧ ofLine line = ofLine before) ∧
      ofLine "\tasync with (a) as b: if#)".toList = ofLine line := by
  intro line comment
  have hline : '\n' ∉ line := by decide
  have hmem : comment ∈ lexemes line := by decide +kernel
  obtain ⟨hbefore, hother⟩ := ofLine_comment hline hmem rfl
  refine ⟨hline, hmem, rfl, hbefore, ?_⟩
  have hmem' : ⟨.comment, "#)".toList, 24, 26⟩ ∈ lexemes "\tasync with (a) as b: if#)".toList := by
    decide +kernel
  exact hother _ _ (by decide) hmem' rfl (by decide +kernel)

end Comments

/-! ## Lines of the same kind -/

/-- The pieces have the same kind, and none of them or both are blank. -/
structure Piece.Resembles (first second : Piece) : Prop where
  kind_eq : first.kind = second.kind
  allBlank_eq : allBlank first.text = allBlank second.text

section Resembles

variable {first second : List Piece}

theorem forall₂_fromSignificant (h : List.Forall₂ Piece.Resembles first second) :
    List.Forall₂ Piece.Resembles (fromSignificant first) (fromSignificant second) := by
  induction h with
  | nil => exact .nil
  | @cons piece piece' rest rest' hpiece hrest ih =>
    have hsame : piece.isSignificant = piece'.isSignificant := by
      rw [Piece.isSignificant, Piece.isSignificant, hpiece.kind_eq]
    rw [fromSignificant, fromSignificant, List.dropWhile_cons, List.dropWhile_cons, hsame]
    split
    · exact ih
    · exact .cons hpiece hrest

theorem map_allBlank_textBeforeColon (depth : Nat)
    (h : List.Forall₂ Piece.Resembles first second) :
    (textBeforeColon depth first).map allBlank = (textBeforeColon depth second).map allBlank := by
  have hfront (text : List Char) (found : Option (List Char)) :
      (found.map (text ++ ·)).map allBlank = (found.map allBlank).map (allBlank text && ·) := by
    cases found <;> simp [allBlank]
  induction h generalizing depth with
  | nil => rfl
  | @cons piece piece' rest rest' hpiece hrest ih =>
    obtain ⟨kind, text⟩ := piece
    obtain ⟨kind', text'⟩ := piece'
    obtain ⟨rfl, htext⟩ := hpiece
    obtain _ | kind := kind
    · rw [textBeforeColon_of_not_significant depth _ rfl,
        textBeforeColon_of_not_significant depth _ rfl, hfront, hfront, ih, htext]
    · rw [textBeforeColon_cons, textBeforeColon_cons]
      split
      · rfl
      split
      · rfl
      · rw [hfront, hfront, ih, show allBlank text = allBlank text' from htext]

/-- Two resembling lines both have no clause, both have an empty one, or both have another one. -/
theorem clause_cases (h : List.Forall₂ Piece.Resembles first second) :
    clause first = none ∧ clause second = none ∨ clause first = some [] ∧ clause second = some [] ∨
      ∃ c text c' text', clause first = some (c :: text) ∧ clause second = some (c' :: text') := by
  have hblank : ∀ found : Option (List Char),
      (found.map trim).map List.isEmpty = found.map allBlank := by
    intro found
    cases found with
    | none => rfl
    | some text => exact congrArg some (isEmpty_trim text)
  have hempty : (clause first).map List.isEmpty = (clause second).map List.isEmpty := by
    rw [clause, clause, hblank, hblank, map_allBlank_textBeforeColon 0 h]
  generalize clause first = found at hempty ⊢
  generalize clause second = found' at hempty ⊢
  obtain _ | _ | ⟨c, text⟩ := found <;> obtain _ | _ | ⟨c', text'⟩ := found' <;>
    cases hempty
  · exact .inl ⟨rfl, rfl⟩
  · exact .inr (.inl ⟨rfl, rfl⟩)
  · exact .inr (.inr ⟨c, text, c', text', rfl, rfl⟩)

/-- A list of resembling pieces begins with pieces of one kind, if it begins with any. -/
theorem forall₂_cases (h : List.Forall₂ Piece.Resembles first second) :
    first = [] ∧ second = [] ∨ ∃ kind text text' rest rest', first = ⟨kind, text⟩ :: rest ∧
      second = ⟨kind, text'⟩ :: rest' ∧ List.Forall₂ Piece.Resembles rest rest' := by
  cases h with
  | nil => exact .inl ⟨rfl, rfl⟩
  | @cons piece piece' rest rest' hpiece hrest =>
    obtain ⟨kind, text⟩ := piece
    obtain ⟨kind', text'⟩ := piece'
    obtain ⟨rfl, _⟩ := hpiece
    exact .inr ⟨kind, text, text', rest, rest', rfl, rfl, hrest⟩

/-- The kind of block that a line opens does not depend on the texts in its clause. -/
theorem LineKind.symbol_announced (kind : BlockKind)
    (h : List.Forall₂ Piece.Resembles first second) :
    (announced kind first).symbol = (announced kind second).symbol := by
  unfold announced
  cases kind.shape with
  | clause | optionalClause =>
    obtain ⟨hclause, hclause'⟩ | ⟨hclause, hclause'⟩ | ⟨_, _, _, _, hclause, hclause'⟩ :=
      clause_cases h
    all_goals simp only [hclause, hclause']
    rfl
  | name | bare =>
    obtain ⟨hfirst, hsecond⟩ | ⟨word, _, _, _, _, hfirst, hsecond, _⟩ :=
      forall₂_cases (forall₂_fromSignificant h)
    all_goals simp only [hfirst, hsecond]
    obtain _ | _ | _ := word <;> rfl
  | parameters =>
    obtain ⟨hfirst, hsecond⟩ | ⟨word, _, _, _, _, hfirst, hsecond, hrest⟩ :=
      forall₂_cases (forall₂_fromSignificant h)
    all_goals simp only [hfirst, hsecond]
    obtain hword | rfl := ne_or_eq word (some .identifier)
    · obtain _ | _ | _ := word <;> first | rfl | exact absurd rfl hword
    obtain ⟨hfirst, hsecond⟩ | ⟨next, _, _, _, _, hfirst, hsecond, _⟩ :=
      forall₂_cases (forall₂_fromSignificant hrest)
    all_goals simp only [hfirst, hsecond]
    obtain _ | _ | _ := next <;> rfl

/-- Lines of resembling pieces open the same kind of block, or none. -/
theorem LineKind.symbol_ofPieces (h : List.Forall₂ Piece.Resembles first second) :
    (ofPieces first).symbol = (ofPieces second).symbol := by
  unfold ofPieces
  obtain ⟨hfirst, hsecond⟩ | ⟨word, _, _, rest, rest', hfirst, hsecond, hrest⟩ :=
    forall₂_cases (forall₂_fromSignificant h)
  · rw [hfirst, hsecond]
  rw [hfirst, hsecond]
  obtain _ | (_ | kind) | _ := word <;> try rfl
  · obtain ⟨hfirst, hsecond⟩ | ⟨next, _, _, more, more', hfirst, hsecond, hmore⟩ :=
      forall₂_cases (forall₂_fromSignificant hrest)
    · simp only [hfirst, hsecond]
    simp only [hfirst, hsecond]
    obtain _ | (_ | kind) | _ := next <;> try rfl
    dsimp only
    split
    · exact symbol_announced kind hmore
    · rfl
  · exact symbol_announced kind hrest

end Resembles

/-! ## Other content between the quotes -/

section Strings

variable {line text content : List Char} {front back : List Piece} {quote : Char}

theorem map_kind_lexemesFrom (start : Nat) (line : List Piece) :
    (lexemesFrom start line).map Lexeme.kind = line.filterMap Piece.kind := by
  induction line generalizing start with
  | nil => rfl
  | cons piece line ih =>
    obtain ⟨_ | kind, text⟩ := piece
    · exact ih _
    · exact congrArg (kind :: ·) (ih _)

/-- Content between two quotes is one string literal. -/
theorem pieces_string (hquote : isQuote quote = true) (hcontent : IsContent quote content)
    (after : List Char) : pieces (quote :: (content ++ quote :: after)) =
      ⟨some .stringLiteral, quote :: (content ++ [quote])⟩ :: pieces after := by
  rw [pieces, Cut.first_of_isQuote hquote, Cut.string, quoted_content_append hcontent,
    quoted_of_close hquote]
  rfl

/-- A string literal stands between two quotes. -/
theorem exists_content_of_pieces (h : pieces line = front ++ ⟨some .stringLiteral, text⟩ :: back) :
    ∃ quote body, isQuote quote = true ∧ text = quote :: (body ++ [quote]) := by
  obtain ⟨quote, rest, hcut, _⟩ := exists_first_of_pieces h
  have hquote : LexemeKind.stringLiteral.beginsWith quote = true :=
    Cut.beginsWith_of_kind (congrArg (·.piece.kind) hcut)
  rw [Cut.first_of_isQuote hquote] at hcut
  have hclosed : (quoted quote rest).1 = true := by
    by_contra hopen
    have hkind := congrArg (·.piece.kind) hcut
    simp only [Cut.string, if_neg hopen] at hkind
    cases hkind
  obtain ⟨body, hbody, _⟩ := quoted_of_closed hquote hclosed
  have htext : quote :: (quoted quote rest).2.1 = text := congrArg (·.piece.text) hcut
  exact ⟨quote, body, hquote, by rw [← htext, hbody]⟩

/-- Only the piece of a string literal changes with its content. -/
theorem pieces_replaceContent
    (h : pieces line = front ++ ⟨some .stringLiteral, quote :: text⟩ :: back)
    (hquote : isQuote quote = true) (hcontent : IsContent quote content) :
    pieces (front.flatMap Piece.text ++ quote :: (content ++ quote :: back.flatMap Piece.text)) =
      front ++ ⟨some .stringLiteral, quote :: (content ++ [quote])⟩ :: back := by
  have hopens : opensOpaque quote = true := by rw [opensOpaque, hquote, Bool.true_or]
  obtain ⟨_, _, _, hback⟩ := exists_first_of_pieces h
  rw [pieces_append_of_opensOpaque h ⟨quote, rfl, hopens⟩, pieces_string hquote hcontent, hback]
  rintro c ⟨⟩
  exact hopens

/-- **String literals are opaque.** A string literal stands between two quotes. With any other text
between them that holds neither that quote nor a backslash, the line has lexemes of the same kinds,
and it opens the same kind of block. -/
theorem lexemes_replaceContent {string : Lexeme} (hmem : string ∈ lexemes line)
    (hkind : string.kind = .stringLiteral) :
    ∃ before quote body after, line = before ++ quote :: (body ++ quote :: after) ∧
      isQuote quote = true ∧ string.text = quote :: (body ++ [quote]) ∧
      string.start = byteLength before ∧
      ∀ content, quote ∉ content → '\\' ∉ content →
        (lexemes (before ++ quote :: (content ++ quote :: after))).map Lexeme.kind =
            (lexemes line).map Lexeme.kind ∧
          (LineKind.ofLine (before ++ quote :: (content ++ quote :: after))).symbol =
            (LineKind.ofLine line).symbol := by
  obtain ⟨front, back, hpieces, hstart, _⟩ := mem_lexemes_iff.mp hmem
  rw [hkind] at hpieces
  obtain ⟨quote, body, hquote, htext⟩ := exists_content_of_pieces hpieces
  rw [htext] at hpieces
  refine ⟨_, quote, body, back.flatMap Piece.text, ?_, hquote, htext, hstart, ?_⟩
  · rw [eq_append_of_pieces hpieces]
    simp
  intro content hfree hescape
  have hnew := pieces_replaceContent hpieces hquote (isContent_of_not_mem hfree hescape)
  constructor
  · simp only [lexemes, map_kind_lexemesFrom, hnew, hpieces, List.filterMap_append,
      List.filterMap_cons]
  · have hsame : List.Forall₂ Piece.Resembles
        (front ++ ⟨some .stringLiteral, quote :: (content ++ [quote])⟩ :: back)
        (front ++ ⟨some .stringLiteral, quote :: (body ++ [quote])⟩ :: back) := by
      have hrefl : ∀ pieces : List Piece, List.Forall₂ Piece.Resembles pieces pieces :=
        fun _ => List.forall₂_same.mpr fun _ _ => ⟨rfl, rfl⟩
      have hfilled : isBlank quote = false := isBlank_eq_false_of_isQuote hquote
      exact List.rel_append (hrefl front) (.cons ⟨rfl, by simp [allBlank, hfilled]⟩ (hrefl back))
    rw [← LineKind.ofPieces_pieces, ← LineKind.ofPieces_pieces, hnew, hpieces]
    exact LineKind.symbol_ofPieces hsame

/-- A string that is never closed stands before the literal. The old content has an escaped quote
and a colon, the new one a bracket, a colon, a hash sign and the other quote. -/
theorem lexemes_replaceContent_escaped :
    let line := "if 'a\\\n== \"b\\\": c\" and (d):".toList
    let changed := "if 'a\\\n== \"'(: # if\" and (d):".toList
    let string : Lexeme := ⟨.stringLiteral, "\"b\\\": c\"".toList, 10, 18⟩
    string ∈ lexemes line ∧ string.kind = .stringLiteral ∧
      (lexemes changed).map Lexeme.kind = (lexemes line).map Lexeme.kind ∧
      (LineKind.ofLine changed).symbol = (LineKind.ofLine line).symbol := by
  intro line changed string
  have hmem : string ∈ lexemes line := by decide +kernel
  obtain ⟨before, quote, body, after, hline, _, htext, hstart, hreplace⟩ :=
    lexemes_replaceContent hmem rfl
  have hsplit := splitBytes?_append before (quote :: (body ++ quote :: after))
  rw [← hline, ← hstart, show splitBytes? string.start line = some ("if 'a\\\n== ".toList,
    "\"b\\\": c\" and (d):".toList) by decide +kernel] at hsplit
  obtain ⟨rfl, hrest⟩ := Prod.mk.inj (Option.some.inj hsplit)
  obtain ⟨rfl, hbody⟩ := List.cons.inj htext
  obtain rfl : "b\\\": c".toList = body := List.append_cancel_right hbody
  have hafter : "\"b\\\": c\"".toList ++ " and (d):".toList =
      "\"b\\\": c\"".toList ++ after := hrest
  obtain rfl : " and (d):".toList = after := List.append_cancel_left hafter
  exact ⟨hmem, rfl, hreplace "'(: # if".toList (by decide) (by decide)⟩

end Strings

end Offside
