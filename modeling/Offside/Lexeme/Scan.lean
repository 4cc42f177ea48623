import Offside.Lexeme.Basic
import Offside.Text.Blank
import Offside.Text.Identifier

/-!
# Cutting a line into pieces

`pieces` cuts a text into pieces from left to right. Each step (`Cut.first`) takes one piece off the
front; the piece and what is left are together the text, and the piece is not empty, so the cutting
ends. `pieces_text` states the result: the pieces are the text, with nothing lost or moved.

`lexemes` keeps the pieces that are lexemes and adds their places in bytes.
-/

namespace Offside

open Offside.Text

/-! ## Classes of characters -/

def isOpenBracket (c : Char) : Bool := c == '(' || c == '[' || c == '\x7b'

def isCloseBracket (c : Char) : Bool := c == ')' || c == ']' || c == '\x7d'

def isQuote (c : Char) : Bool := c == '"' || c == '\''

/-- Ordinary spacing between the words of a line. Other blank characters separate words too, and
belong to no lexeme. -/
def isSpacing (c : Char) : Bool := c == ' ' || c == '\t' || c == '\r' || c == '\x0c'

def isPlain (c : Char) : Bool :=
  !(isBlank c || startsIdentifier c || c == ':' || isOpenBracket c || isCloseBracket c || c == '#' ||
    isQuote c)

/-- Whether a keyword right before this character is only an identifier. An ASCII character never
hides a keyword. Any other character does, but for the planes and the part of the private use area
listed here. -/
def hidesKeyword (c : Char) : Bool :=
  let code := c.toNat
  0x80 ≤ code && !(0xE000 ≤ code && code ≤ 0xEFFF) && !(0x40000 ≤ code && code ≤ 0xBFFFF) &&
    !(0x100000 ≤ code)

/-- The kind of a whole run of identifier characters: the keyword it spells, unless the character
after it hides keywords, and otherwise an identifier. -/
def wordKind (word : List Char) (next : Option Char) : LexemeKind :=
  match Keyword.ofText? word with
  | some keyword => if next.any hidesKeyword then .identifier else .keyword keyword
  | none => .identifier

/-! ## One piece -/

/-- A piece cut off the front of a text, and the text after it. -/
structure Cut where
  piece : Piece
  rest : List Char

/-- The text behind an opening quote as far as it is string content: whether it ends in the closing
quote, its characters, and the text after them. A backslash takes the character behind it along,
unless that is a line feed or missing; there the content stops. -/
def quoted (quote : Char) : List Char → Bool × List Char × List Char
  | [] => (false, [], [])
  | '\\' :: next :: rest =>
    if next = '\n' then (false, [], '\\' :: next :: rest)
    else
      let (closed, text, after) := quoted quote rest
      (closed, '\\' :: next :: text, after)
  | c :: rest =>
    if c = quote then (true, [c], rest)
    else if c = '\\' then (false, [], c :: rest)
    else
      let (closed, text, after) := quoted quote rest
      (closed, c :: text, after)

/-- Cuts off a lexeme made of a character and the longest run of characters in a class. -/
def Cut.run (kind : LexemeKind) (p : Char → Bool) (c : Char) (rest : List Char) : Cut :=
  ⟨⟨some kind, c :: rest.takeWhile p⟩, rest.dropWhile p⟩

def Cut.word (c : Char) (rest : List Char) : Cut :=
  let word := c :: rest.takeWhile continuesIdentifier
  let after := rest.dropWhile continuesIdentifier
  ⟨⟨some (wordKind word after.head?), word⟩, after⟩

/-- Cuts off a string literal; if the quote is never closed, its text belongs to no lexeme. -/
def Cut.string (quote : Char) (rest : List Char) : Cut :=
  let (closed, text, after) := quoted quote rest
  ⟨⟨if closed then some .stringLiteral else none, quote :: text⟩, after⟩

/-- Cuts off a colon, or the assignment operator that begins with one. -/
def Cut.colon : List Char → Cut
  | '=' :: rest => ⟨⟨some .walrus, [':', '=']⟩, rest⟩
  | rest => ⟨⟨some .colon, [':']⟩, rest⟩

/-- Cuts the first piece off a text that begins with `c`. The first character decides what the piece
is. -/
def Cut.first (c : Char) (rest : List Char) : Cut :=
  if startsIdentifier c then Cut.word c rest
  else if c = ':' then Cut.colon rest
  else if isOpenBracket c then ⟨⟨some .openBracket, [c]⟩, rest⟩
  else if isCloseBracket c then ⟨⟨some .closeBracket, [c]⟩, rest⟩
  else if c = '#' then Cut.run .comment (· ≠ '\n') c rest
  else if isQuote c then Cut.string c rest
  else if isSpacing c then Cut.run .whitespace isSpacing c rest
  else if isBlank c then ⟨⟨none, [c]⟩, rest⟩
  else Cut.run .other isPlain c rest

/-! ## Nothing is lost -/

theorem quoted_append (quote : Char) (s : List Char) :
    (quoted quote s).2.1 ++ (quoted quote s).2.2 = s := by
  fun_induction quoted quote s <;> simp_all

theorem Cut.run_append (kind : LexemeKind) (p : Char → Bool) (c : Char) (rest : List Char) :
    (Cut.run kind p c rest).piece.text ++ (Cut.run kind p c rest).rest = c :: rest := by
  simp [Cut.run]

theorem Cut.word_append (c : Char) (rest : List Char) :
    (Cut.word c rest).piece.text ++ (Cut.word c rest).rest = c :: rest := by
  simp [Cut.word]

theorem Cut.string_append (quote : Char) (rest : List Char) :
    (Cut.string quote rest).piece.text ++ (Cut.string quote rest).rest = quote :: rest := by
  simp [Cut.string, quoted_append]

theorem Cut.colon_append (rest : List Char) :
    (Cut.colon rest).piece.text ++ (Cut.colon rest).rest = ':' :: rest := by
  unfold Cut.colon; split <;> rfl

/-- A piece and the text after it are the text it was cut from. -/
theorem Cut.first_append (c : Char) (rest : List Char) :
    (Cut.first c rest).piece.text ++ (Cut.first c rest).rest = c :: rest := by
  unfold Cut.first
  split
  · exact Cut.word_append c rest
  split
  · rename_i h; subst h; exact Cut.colon_append rest
  split
  · rfl
  split
  · rfl
  split
  · exact Cut.run_append ..
  split
  · exact Cut.string_append c rest
  split
  · exact Cut.run_append ..
  split
  · rfl
  · exact Cut.run_append ..

/-- A piece is never empty. -/
theorem Cut.first_text_ne_nil (c : Char) (rest : List Char) : (Cut.first c rest).piece.text ≠ [] := by
  unfold Cut.first Cut.word Cut.colon Cut.string Cut.run
  repeat' split
  all_goals simp

/-- The text after a piece is shorter than the text it was cut from. -/
theorem Cut.length_first_rest (c : Char) (rest : List Char) :
    (Cut.first c rest).rest.length < (c :: rest).length := by
  have joined := congrArg List.length (Cut.first_append c rest)
  have nonempty := List.length_pos_iff.mpr (Cut.first_text_ne_nil c rest)
  rw [List.length_append] at joined
  omega

/-! ## The whole text -/

def pieces : List Char → List Piece
  | [] => []
  | c :: rest => (Cut.first c rest).piece :: pieces (Cut.first c rest).rest
termination_by s => s.length
decreasing_by exact Cut.length_first_rest c rest

/-- The pieces of a text are the text. -/
theorem pieces_text (s : List Char) : (pieces s).flatMap Piece.text = s := by
  fun_induction pieces s with
  | case1 => rfl
  | case2 c rest ih => rw [List.flatMap_cons, ih, Cut.first_append]

def byteLength (s : List Char) : Nat := s.foldr (fun c n => c.utf8Size + n) 0

@[simp] theorem byteLength_nil : byteLength [] = 0 := rfl

@[simp] theorem byteLength_cons (c : Char) (s : List Char) :
    byteLength (c :: s) = c.utf8Size + byteLength s := rfl

@[simp] theorem byteLength_append (s t : List Char) :
    byteLength (s ++ t) = byteLength s + byteLength t := by
  induction s with
  | nil => simp
  | cons c s ih => simp [ih, Nat.add_assoc]

theorem byteLength_cons_ne_zero (c : Char) (s : List Char) : byteLength (c :: s) ≠ 0 :=
  Nat.ne_of_gt (Nat.add_pos_left c.utf8Size_pos _)

/-- The lexemes among pieces whose first one starts at a byte offset. -/
def lexemesFrom (start : Nat) : List Piece → List Lexeme
  | [] => []
  | piece :: rest =>
    let stop := start + byteLength piece.text
    match piece.kind with
    | some kind => ⟨kind, piece.text, start, stop⟩ :: lexemesFrom stop rest
    | none => lexemesFrom stop rest

def lexemes (s : List Char) : List Lexeme := lexemesFrom 0 (pieces s)

end Offside
