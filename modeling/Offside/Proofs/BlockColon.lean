import Mathlib.Order.Bounds.Basic
import Offside.Line.Kind

/-!
# The colon that opens a block

A line of a kind with a clause opens its block at a colon, and the line is scanned for it from left to
right with a count of open brackets that ignores closing brackets without a partner. Said without
the count, it is the first colon behind the keyword with no comment before it, such that no stretch
of lexemes ending there opens more brackets than it closes (`IsBlockColon`). The induction is over
the lexemes and carries the brackets that are open already, which have to be closed on the way to the
colon (`ClosesAt`, `colonPlace_eq_some`, `colonPlace_eq_none`).

`LineKind.ofLine_blockColon` puts this together with where the lexemes stand in the line: the clause
is the text from the end of the keyword to the start of that colon.
-/

namespace Offside

open Offside.Text

/-! ## Bytes of a text -/

/-- The text behind so many bytes of another one. -/
def dropBytes : Nat → List Char → List Char
  | _, [] => []
  | n, c :: rest => if n = 0 then c :: rest else dropBytes (n - c.utf8Size) rest

/-- The first so many bytes of a text. -/
def takeBytes : Nat → List Char → List Char
  | _, [] => []
  | n, c :: rest => if n = 0 then [] else c :: takeBytes (n - c.utf8Size) rest

/-- The part of a text from one byte up to and not including another one. -/
def byteSlice (start stop : Nat) (s : List Char) : List Char :=
  takeBytes (stop - start) (dropBytes start s)

theorem dropBytes_append (s t : List Char) : dropBytes (byteLength s) (s ++ t) = t := by
  induction s with
  | nil => cases t <;> rfl
  | cons c s ih =>
    rw [List.cons_append, dropBytes, if_neg (byteLength_cons_ne_zero c s), byteLength_cons,
      Nat.add_sub_cancel_left, ih]

theorem takeBytes_append (s t : List Char) : takeBytes (byteLength s) (s ++ t) = s := by
  induction s with
  | nil => cases t <;> rfl
  | cons c s ih =>
    rw [List.cons_append, takeBytes, if_neg (byteLength_cons_ne_zero c s), byteLength_cons,
      Nat.add_sub_cancel_left, ih]

theorem byteSlice_append (before s after : List Char) :
    byteSlice (byteLength before) (byteLength (before ++ s)) (before ++ s ++ after) = s := by
  rw [byteSlice, List.append_assoc, dropBytes_append, byteLength_append, Nat.add_sub_cancel_left,
    takeBytes_append]

/-! ## Significant lexemes -/

/-- The lexemes among pieces that are more than spacing, if the first piece starts at a byte
offset. -/
def significantFrom (start : Nat) (line : List Piece) : List Lexeme :=
  (lexemesFrom start line).filter (·.kind ≠ .whitespace)

/-- The lexemes of a line that are more than spacing, with their places behind its leading blanks. -/
def significantLexemes (line : List Char) : List Lexeme :=
  (lexemes (trimStart line)).filter (·.kind ≠ .whitespace)

section Significant

variable {piece : Piece} {line rest : List Piece} {kind : LexemeKind} {text : List Char}

theorem significantFrom_of_not_significant (start : Nat) (h : piece.isSignificant = false) :
    significantFrom start (piece :: rest) =
      significantFrom (start + byteLength piece.text) rest := by
  obtain ⟨_ | kind, text⟩ := piece
  · rfl
  · cases kind <;> first | rfl | cases h

theorem significantFrom_of_significant (start : Nat) (h : kind ≠ .whitespace) :
    significantFrom start (⟨some kind, text⟩ :: rest) =
      ⟨kind, text, start, start + byteLength text⟩ ::
        significantFrom (start + byteLength text) rest := by
  rw [significantFrom, lexemesFrom, List.filter_cons_of_pos (by simpa using h)]
  rfl

/-- The significant lexemes of pieces begin with the first significant piece, at the place where it
stands behind the text before the pieces. -/
theorem fromSignificant_cases (before : List Char) (line : List Piece) :
    (fromSignificant line = [] ∧ significantFrom (byteLength before) line = []) ∨
      ∃ kind text rest gap, kind ≠ .whitespace ∧ fromSignificant line = ⟨some kind, text⟩ :: rest ∧
        line.flatMap Piece.text = gap ++ text ++ rest.flatMap Piece.text ∧
        significantFrom (byteLength before) line =
          ⟨kind, text, byteLength (before ++ gap), byteLength (before ++ gap ++ text)⟩ ::
            significantFrom (byteLength (before ++ gap ++ text)) rest := by
  induction line generalizing before with
  | nil => exact .inl ⟨rfl, rfl⟩
  | cons piece line ih =>
    cases h : piece.isSignificant with
    | false =>
      rw [significantFrom_of_not_significant _ h, ← byteLength_append, fromSignificant,
        List.dropWhile_cons_of_pos (by simp [h]), ← fromSignificant]
      obtain hnone | ⟨kind, text, rest, gap, hkind, hfirst, htext, hsignificant⟩ :=
        ih (before ++ piece.text)
      · exact .inl hnone
      · refine .inr ⟨kind, text, rest, piece.text ++ gap, hkind, hfirst, ?_, ?_⟩
        · simp [htext]
        · simpa using hsignificant
    | true =>
      obtain ⟨_ | kind, text⟩ := piece
      · cases h
      have hkind : kind ≠ .whitespace := by
        rintro rfl
        cases h
      refine .inr ⟨kind, text, line, [], hkind, ?_, ?_, ?_⟩
      · rw [fromSignificant, List.dropWhile_cons_of_neg (by simp [h])]
      · rfl
      · simp [significantFrom_of_significant _ hkind]

end Significant

/-! ## The scan for the colon -/

/-- How many brackets are open behind a lexeme, given how many were open before it. -/
def depthBehind (depth : Nat) : LexemeKind → Nat
  | .openBracket => depth + 1
  | .closeBracket => depth - 1
  | _ => depth

theorem textBeforeColon_cons (depth : Nat) (kind : LexemeKind) (text : List Char)
    (rest : List Piece) : textBeforeColon depth (⟨some kind, text⟩ :: rest) =
      if kind = .comment then none
      else if kind = .colon ∧ depth = 0 then some []
      else (textBeforeColon (depthBehind depth kind) rest).map (text ++ ·) := by
  cases kind <;> simp [textBeforeColon, depthBehind]

theorem textBeforeColon_of_not_significant (depth : Nat) {piece : Piece} (rest : List Piece)
    (h : piece.isSignificant = false) :
    textBeforeColon depth (piece :: rest) =
      (textBeforeColon depth rest).map (piece.text ++ ·) := by
  obtain ⟨_ | kind, text⟩ := piece
  · rfl
  · cases kind <;> first | rfl | cases h

/-- The place of the first colon outside brackets, given how many brackets are open. -/
def colonPlace (depth : Nat) : List Lexeme → Option Nat
  | [] => none
  | lexeme :: rest =>
    if lexeme.kind = .comment then none
    else if lexeme.kind = .colon ∧ depth = 0 then some 0
    else (colonPlace (depthBehind depth lexeme.kind) rest).map (· + 1)

/-- The scan of the pieces stops at the lexeme that the scan of the lexemes finds, with the text
before it. -/
theorem textBeforeColon_cases (depth : Nat) (before : List Char) (line : List Piece) :
    (colonPlace depth (significantFrom (byteLength before) line) = none ∧
        textBeforeColon depth line = none) ∨
      ∃ place text after colon,
        colonPlace depth (significantFrom (byteLength before) line) = some place ∧
        textBeforeColon depth line = some text ∧ line.flatMap Piece.text = text ++ after ∧
        (significantFrom (byteLength before) line)[place]? = some colon ∧
        colon.start = byteLength (before ++ text) := by
  induction line generalizing depth before with
  | nil => exact .inl ⟨rfl, rfl⟩
  | cons piece line ih =>
    cases h : piece.isSignificant with
    | false =>
      rw [significantFrom_of_not_significant _ h, ← byteLength_append,
        textBeforeColon_of_not_significant depth line h]
      obtain ⟨hnone, htext⟩ | ⟨place, text, after, colon, hplace, htext, hline, hcolon, hstart⟩ :=
        ih depth (before ++ piece.text)
      · exact .inl ⟨hnone, by rw [htext]; rfl⟩
      · refine .inr ⟨place, piece.text ++ text, after, colon, hplace, by rw [htext]; rfl, ?_, hcolon,
          ?_⟩
        · rw [List.flatMap_cons, hline, List.append_assoc]
        · rw [hstart, List.append_assoc]
    | true =>
      obtain ⟨_ | kind, word⟩ := piece
      · cases h
      have hkind : kind ≠ .whitespace := by
        rintro rfl
        cases h
      rw [significantFrom_of_significant _ hkind, ← byteLength_append, textBeforeColon_cons,
        colonPlace]
      by_cases hcomment : kind = .comment
      · exact .inl ⟨if_pos hcomment, if_pos hcomment⟩
      by_cases hstop : kind = .colon ∧ depth = 0
      · rw [if_neg hcomment, if_neg hcomment, if_pos hstop, if_pos hstop]
        exact .inr ⟨0, [], _, _, rfl, rfl, rfl, rfl, by rw [List.append_nil]⟩
      · rw [if_neg hcomment, if_neg hcomment, if_neg hstop, if_neg hstop]
        obtain ⟨hnone, htext⟩ | ⟨place, text, after, colon, hplace, htext, hline, hcolon, hstart⟩ :=
          ih (depthBehind depth kind) (before ++ word)
        · exact .inl ⟨by rw [hnone]; rfl, by rw [htext]; rfl⟩
        · refine .inr ⟨place + 1, word ++ text, after, colon, by rw [hplace]; rfl,
            by rw [htext]; rfl, ?_, hcolon, ?_⟩
          · rw [List.flatMap_cons, hline, List.append_assoc]
          · rw [hstart, List.append_assoc]

/-! ## The colon that opens a block -/

def kindAt (lexemes : List Lexeme) (place : Nat) : Option LexemeKind :=
  lexemes[place]?.map Lexeme.kind

/-- How many lexemes of a kind stand from one place up to and not including another one. -/
def countBetween (kind : LexemeKind) (lexemes : List Lexeme) (first last : Nat) : Nat :=
  ((lexemes.take last).drop first).countP (·.kind = kind)

/-- The lexeme at a place is a colon, no comment stands before it, and no stretch of lexemes that
ends there opens more brackets than it closes. -/
structure IsBlockColon (lexemes : List Lexeme) (first place : Nat) : Prop where
  first_le : first ≤ place
  colon : kindAt lexemes place = some .colon
  no_comment : ∀ i, first ≤ i → i < place → kindAt lexemes i ≠ some .comment
  closed : ∀ i, first ≤ i → i ≤ place →
    countBetween .openBracket lexemes i place ≤ countBetween .closeBracket lexemes i place

instance (lexemes : List Lexeme) (first place : Nat) :
    Decidable (IsBlockColon lexemes first place) :=
  decidable_of_iff
    (first ≤ place ∧ kindAt lexemes place = some .colon ∧
      (∀ i, i < place → first ≤ i → kindAt lexemes i ≠ some .comment) ∧
      ∀ i, i ≤ place → first ≤ i →
        countBetween .openBracket lexemes i place ≤ countBetween .closeBracket lexemes i place)
    ⟨fun ⟨hle, hcolon, hcomment, hclosed⟩ =>
      ⟨hle, hcolon, fun i hfirst hi => hcomment i hi hfirst, fun i hfirst hi => hclosed i hi hfirst⟩,
    fun ⟨hle, hcolon, hcomment, hclosed⟩ =>
      ⟨hle, hcolon, fun i hi hfirst => hcomment i hfirst hi, fun i hi hfirst => hclosed i hfirst hi⟩⟩

/-- The same behind brackets that are open already, and that have to be closed on the way. -/
structure ClosesAt (depth : Nat) (lexemes : List Lexeme) (place : Nat) : Prop where
  isBlockColon : IsBlockColon lexemes 0 place
  closes : depth + countBetween .openBracket lexemes 0 place ≤
    countBetween .closeBracket lexemes 0 place

section Scan

variable {depth place : Nat} {lexeme : Lexeme} {lexemes rest : List Lexeme}

theorem countBetween_cons_zero (kind : LexemeKind) (last : Nat) :
    countBetween kind (lexeme :: rest) 0 (last + 1) =
      countBetween kind rest 0 last + if lexeme.kind = kind then 1 else 0 := by
  simp [countBetween, List.countP_cons]

theorem countBetween_self (kind : LexemeKind) (place : Nat) :
    countBetween kind lexemes place place = 0 := by
  simp [countBetween]

theorem closesAt_zero_iff :
    ClosesAt depth (lexeme :: rest) 0 ↔ lexeme.kind = .colon ∧ depth = 0 := by
  constructor
  · rintro ⟨hcolon, hdepth⟩
    rw [countBetween_self, countBetween_self] at hdepth
    exact ⟨Option.some.inj hcolon.colon, by omega⟩
  · rintro ⟨hcolon, rfl⟩
    refine ⟨⟨Nat.le_refl 0, congrArg some hcolon, nofun, ?_⟩, by simp [countBetween_self]⟩
    intro i _ hi
    rw [Nat.le_zero.mp hi, countBetween_self, countBetween_self]

theorem closesAt_succ_iff : ClosesAt depth (lexeme :: rest) (place + 1) ↔
    lexeme.kind ≠ .comment ∧ ClosesAt (depthBehind depth lexeme.kind) rest place := by
  have hdepth : ∀ opened closed,
      depth + (opened + if lexeme.kind = .openBracket then 1 else 0) ≤
          (closed + if lexeme.kind = .closeBracket then 1 else 0) ∧ opened ≤ closed ↔
        depthBehind depth lexeme.kind + opened ≤ closed := by
    intro opened closed
    cases lexeme.kind <;> simp [depthBehind] <;> omega
  constructor
  · rintro ⟨⟨_, hcolon, hcomment, hclosed⟩, hcloses⟩
    have hrest : countBetween .openBracket rest 0 place ≤ countBetween .closeBracket rest 0 place :=
      hclosed 1 (Nat.zero_le 1) (Nat.le_add_left 1 place)
    rw [countBetween_cons_zero, countBetween_cons_zero] at hcloses
    refine ⟨fun h => hcomment 0 (Nat.le_refl 0) (Nat.succ_pos place) (congrArg some h),
      ⟨Nat.zero_le place, hcolon, fun i _ hi => ?_, fun i _ hi => ?_⟩, ?_⟩
    · exact hcomment (i + 1) (Nat.zero_le _) (Nat.succ_lt_succ hi)
    · exact hclosed (i + 1) (Nat.zero_le _) (Nat.succ_le_succ hi)
    · exact (hdepth _ _).mp ⟨hcloses, hrest⟩
  · rintro ⟨hkind, ⟨_, hcolon, hcomment, hclosed⟩, hcloses⟩
    have hdeep := ((hdepth _ _).mpr hcloses).1
    rw [← countBetween_cons_zero, ← countBetween_cons_zero] at hdeep
    refine ⟨⟨Nat.zero_le _, hcolon, ?_, ?_⟩, hdeep⟩
    · rintro (_ | i) _ hi
      · exact fun h => hkind (Option.some.inj h)
      · exact hcomment i (Nat.zero_le i) (Nat.lt_of_succ_lt_succ hi)
    · rintro (_ | i) _ hi
      · omega
      · exact hclosed i (Nat.zero_le i) (Nat.le_of_succ_le_succ hi)

/-- The scan finds the first colon behind which nothing is open, if there is one. -/
theorem colonPlace_eq_some (h : colonPlace depth lexemes = some place) :
    ClosesAt depth lexemes place ∧ ∀ i < place, ¬ ClosesAt depth lexemes i := by
  induction lexemes generalizing depth place with
  | nil => cases h
  | cons lexeme rest ih =>
    rw [colonPlace] at h
    split at h
    · cases h
    rename_i hcomment
    split at h
    · rename_i hstop
      cases h
      exact ⟨closesAt_zero_iff.mpr hstop, nofun⟩
    · rename_i hstop
      obtain ⟨place, hplace, rfl⟩ := Option.map_eq_some_iff.mp h
      obtain ⟨hcloses, hfirst⟩ := ih hplace
      refine ⟨closesAt_succ_iff.mpr ⟨hcomment, hcloses⟩, ?_⟩
      rintro (_ | i) hi
      · exact fun hzero => hstop (closesAt_zero_iff.mp hzero)
      · exact fun hsucc => hfirst i (Nat.lt_of_succ_lt_succ hi) (closesAt_succ_iff.mp hsucc).2

theorem colonPlace_eq_none (h : colonPlace depth lexemes = none) (place : Nat) :
    ¬ ClosesAt depth lexemes place := by
  induction lexemes generalizing depth place with
  | nil => exact fun hcloses => nomatch hcloses.isBlockColon.colon
  | cons lexeme rest ih =>
    rw [colonPlace] at h
    split at h
    · rename_i hcomment
      obtain _ | place := place
      · rw [closesAt_zero_iff, hcomment]
        exact fun hzero => nomatch hzero.1
      · exact fun hsucc => (closesAt_succ_iff.mp hsucc).1 hcomment
    split at h
    · cases h
    · rename_i hstop
      obtain _ | place := place
      · exact fun hzero => hstop (closesAt_zero_iff.mp hzero)
      · exact fun hsucc => ih (Option.map_eq_none_iff.mp h) place (closesAt_succ_iff.mp hsucc).2

/-- Where no bracket is open at first, only the stretches that end at the colon matter. -/
theorem closesAt_drop_iff (first place : Nat) :
    ClosesAt 0 (lexemes.drop first) place ↔ IsBlockColon lexemes first (first + place) := by
  have hkind : ∀ i, kindAt (lexemes.drop first) i = kindAt lexemes (first + i) := by
    intro i
    rw [kindAt, List.getElem?_drop, kindAt]
  have hcount : ∀ kind i, countBetween kind (lexemes.drop first) i place =
      countBetween kind lexemes (first + i) (first + place) := by
    intro kind i
    rw [countBetween, List.take_drop, List.drop_drop, countBetween]
  constructor
  · rintro ⟨⟨_, hcolon, hcomment, hclosed⟩, _⟩
    refine ⟨Nat.le_add_right first place, hkind place ▸ hcolon, ?_, ?_⟩
    · intro i hfirst hi
      obtain ⟨i, rfl⟩ := Nat.exists_eq_add_of_le hfirst
      exact hkind i ▸ hcomment i (Nat.zero_le i) (by omega)
    · intro i hfirst hi
      obtain ⟨i, rfl⟩ := Nat.exists_eq_add_of_le hfirst
      rw [← hcount, ← hcount]
      exact hclosed i (Nat.zero_le i) (by omega)
  · rintro ⟨_, hcolon, hcomment, hclosed⟩
    refine ⟨⟨Nat.zero_le place, by rw [hkind, hcolon], ?_, ?_⟩, ?_⟩
    · intro i _ hi
      rw [hkind]
      exact hcomment (first + i) (Nat.le_add_right _ _) (by omega)
    · intro i _ hi
      rw [hcount, hcount]
      exact hclosed (first + i) (Nat.le_add_right _ _) (by omega)
    · rw [Nat.zero_add, hcount, hcount]
      exact hclosed first (Nat.le_refl _) (by omega)

end Scan

/-! ## Lines with a clause -/

/-- The kinds of block whose lines have a clause between keyword and colon. -/
def BlockKind.withClause : List BlockKind :=
  [.ifBranch, .elifBranch, .whileLoop, .forLoop, .withBody, .exceptHandler]

/-- A line's significant lexemes announce a kind of block that has a clause, and the clause is
looked for from a place on. -/
inductive ClauseHeader (lexemes : List Lexeme) : BlockKind → Nat → Prop where
  | plain {kind : BlockKind} (hkind : kind ∈ BlockKind.withClause)
    (hfirst : kindAt lexemes 0 = some (.keyword (.announce kind))) : ClauseHeader lexemes kind 1
  | async {kind : BlockKind} (hkind : kind = .forLoop ∨ kind = .withBody)
    (hfirst : kindAt lexemes 0 = some (.keyword .async))
    (hsecond : kindAt lexemes 1 = some (.keyword (.announce kind))) : ClauseHeader lexemes kind 2

namespace LineKind

/-- A line with a clause opens its block if it has the clause and the colon; only an exception
handler may go without the clause. -/
theorem announced_of_withClause {kind : BlockKind} (hkind : kind ∈ BlockKind.withClause)
    (rest : List Piece) : announced kind rest =
      match clause rest with
      | none => statement
      | some text =>
        if text = [] then if kind = .exceptHandler then opens kind none else statement
        else opens kind (some (String.ofList text)) := by
  simp only [BlockKind.withClause, List.mem_cons, List.not_mem_nil, or_false] at hkind
  obtain rfl | rfl | rfl | rfl | rfl | rfl := hkind <;>
    (rw [announced]; obtain _ | _ | ⟨c, text⟩ := clause rest <;> rfl)

/-- Behind the keywords of a line with a clause stand the pieces that its kind is read from, and the
lexemes in which the colon is looked for. -/
theorem exists_announced {line : List Char} {kind : BlockKind} {first : Nat}
    (h : ClauseHeader (significantLexemes line) kind first) :
    ∃ before rest keyword, trimStart line = before ++ rest.flatMap Piece.text ∧
      (significantLexemes line)[first - 1]? = some keyword ∧ keyword.stop = byteLength before ∧
      (significantLexemes line).drop first = significantFrom (byteLength before) rest ∧
      ofLine line = announced kind rest := by
  have htext : (pieces (trimStart line)).flatMap Piece.text = trimStart line := pieces_text _
  have hlexemes : significantLexemes line =
      significantFrom (byteLength []) (pieces (trimStart line)) := rfl
  rw [hlexemes] at h ⊢
  rw [ofLine, ofPieces]
  obtain ⟨_, hnone⟩ | ⟨word, text, rest, gap, _, hfirst, hline, hsignificant⟩ :=
    fromSignificant_cases [] (pieces (trimStart line))
  · rw [hnone] at h
    obtain ⟨_, ⟨⟩⟩ | ⟨_, ⟨⟩, _⟩ := h
  rw [hfirst]
  rw [hsignificant] at h ⊢
  rw [htext] at hline
  cases h with
  | plain hkind hword =>
    obtain rfl : word = _ := Option.some.inj hword
    exact ⟨gap ++ text, rest, _, by rw [hline], rfl, rfl, rfl, rfl⟩
  | async hkind hword hsecond =>
    obtain rfl : word = _ := Option.some.inj hword
    rw [List.nil_append] at hsecond
    obtain ⟨_, hnone⟩ | ⟨word, text', rest', gap', _, hfirst', hline', hsignificant'⟩ :=
      fromSignificant_cases (gap ++ text) rest
    · rw [hnone] at hsecond
      cases hsecond
    rw [hsignificant'] at hsecond
    obtain rfl : word = _ := Option.some.inj hsecond
    have hallows : kind.allowsAsync = true := by obtain rfl | rfl := hkind <;> rfl
    refine ⟨gap ++ text ++ gap' ++ text', rest',
      ⟨.keyword (.announce kind), text', byteLength (gap ++ text ++ gap'),
        byteLength (gap ++ text ++ gap' ++ text')⟩,
      ?_, ?_, ?_, ?_, ?_⟩
    · rw [hline, hline']
      simp
    · rw [List.nil_append, hsignificant']
      rfl
    · rfl
    · rw [List.nil_append, hsignificant']
      rfl
    · simp only [hfirst', hallows, if_true]

/-- **Which colon opens a block.** The block of a line with a clause is opened by the first colon
behind the keyword with no comment before it, such that no stretch of lexemes that ends at the colon
opens more brackets than it closes. The clause is the text between the two, without the blanks
around it. A line without such a colon opens no block, and neither does one without a clause, but for
an exception handler. -/
theorem ofLine_blockColon {line : List Char} {kind : BlockKind} {first : Nat}
    (h : ClauseHeader (significantLexemes line) kind first) :
    (∀ place, IsLeast {place | IsBlockColon (significantLexemes line) first place} place →
      ∃ keyword colon text, (significantLexemes line)[first - 1]? = some keyword ∧
        (significantLexemes line)[place]? = some colon ∧
        text = trim (byteSlice keyword.stop colon.start (trimStart line)) ∧
        (text ≠ [] → ofLine line = opens kind (some (String.ofList text))) ∧
        (text = [] → kind = .exceptHandler → ofLine line = opens kind none) ∧
        (text = [] → kind ≠ .exceptHandler → ofLine line = statement)) ∧
      ((∀ place, ¬ IsBlockColon (significantLexemes line) first place) →
        ofLine line = statement) := by
  have hkind : kind ∈ BlockKind.withClause := by
    obtain ⟨hkind, _⟩ | ⟨rfl | rfl, _, _⟩ := h
    · exact hkind
    · decide
    · decide
  obtain ⟨before, rest, keyword, hline, hkeyword, hstop, hrest, hkindOf⟩ := exists_announced h
  rw [hkindOf, announced_of_withClause hkind, clause]
  obtain ⟨hnone, htext⟩ | ⟨found, text, after, colon, hfound, htext, hsplit, hcolon, hstart⟩ :=
    textBeforeColon_cases 0 before rest
  · rw [← hrest] at hnone
    refine ⟨?_, fun _ => by rw [htext]; rfl⟩
    intro place hplace
    obtain ⟨offset, rfl⟩ := Nat.exists_eq_add_of_le hplace.1.first_le
    exact absurd ((closesAt_drop_iff first offset).mpr hplace.1) (colonPlace_eq_none hnone offset)
  · rw [← hrest] at hfound hcolon
    obtain ⟨hcloses, hleast⟩ := colonPlace_eq_some hfound
    have hblock := (closesAt_drop_iff first found).mp hcloses
    refine ⟨?_, fun hnone => absurd hblock (hnone _)⟩
    intro place hplace
    have hfirst : ∀ i, IsBlockColon (significantLexemes line) first i → first + found ≤ i := by
      intro i hi
      obtain ⟨offset, rfl⟩ := Nat.exists_eq_add_of_le hi.first_le
      have hoffset := mt (hleast offset) (not_not_intro ((closesAt_drop_iff first offset).mpr hi))
      omega
    obtain rfl : place = first + found := hplace.unique ⟨hblock, hfirst⟩
    refine ⟨keyword, colon, trim text, hkeyword, by rw [← List.getElem?_drop, hcolon], ?_, ?_⟩
    · rw [hstop, hstart, hline, hsplit, ← List.append_assoc, byteSlice_append]
    · rw [htext, Option.map_some]
      refine ⟨fun hclause => if_neg hclause, fun hclause hexcept => ?_, fun hclause hexcept => ?_⟩
      · simp only [if_pos hclause, if_pos hexcept]
      · simp only [if_pos hclause, if_neg hexcept]

/-- Behind stray closing brackets, an assignment operator, a string with a colon in it and a slice,
the colon before the comment is the one that opens the block. -/
theorem ofLine_blockColon_stray :
    let line := "\tif )](n:= 'a:b(')[1:2] : # c: d".toList
    ClauseHeader (significantLexemes line) .ifBranch 1 ∧
      IsLeast {place | IsBlockColon (significantLexemes line) 1 place} 13 ∧
      ofLine line = opens .ifBranch (some ")](n:= 'a:b(')[1:2]") := by
  intro line
  have hheader : ClauseHeader (significantLexemes line) .ifBranch 1 :=
    .plain (by decide) (by decide +kernel)
  have hleast : IsLeast {place | IsBlockColon (significantLexemes line) 1 place} 13 := by
    refine ⟨by decide +kernel, fun place hplace => ?_⟩
    have hearlier : ∀ i < 13, ¬ IsBlockColon (significantLexemes line) 1 i := by decide +kernel
    exact Nat.le_of_not_lt fun hlt => hearlier place hlt hplace
  obtain ⟨keyword, colon, text, hkeyword, hcolon, htext, hopens, _⟩ :=
    (ofLine_blockColon hheader).1 13 hleast
  have hif : (significantLexemes line)[0]? =
      some ⟨.keyword (.announce .ifBranch), "if".toList, 0, 2⟩ := by decide +kernel
  have hend : (significantLexemes line)[13]? = some ⟨.colon, ":".toList, 23, 24⟩ := by
    decide +kernel
  obtain rfl := Option.some.inj (hkeyword.symm.trans hif)
  obtain rfl := Option.some.inj (hcolon.symm.trans hend)
  have hwritten : text = ")](n:= 'a:b(')[1:2]".toList := by
    rw [htext]
    decide +kernel
  have hkind := hopens (by rw [hwritten]; decide)
  rw [hwritten, String.ofList_toList] at hkind
  exact ⟨hheader, hleast, hkind⟩

end LineKind

end Offside
