/-!
# Text stored as bytes

How bytes are read as UTF-8. One reader serves both a strict and a lenient use: it gives a character
for every well-formed sequence and nothing for every stretch that cannot be the start of one. Such a
stretch is as long as the sequence that it breaks off was well-formed, so the byte at which it broke
off is read again as the start of another.
-/

namespace Offside.Text

/-- A sequence of which only the first bytes have been read: how many are to come, what those that
were read amount to, and the bounds for the next one. -/
structure OpenSequence where
  missing : Nat
  code : Nat
  low : Nat
  high : Nat
  deriving DecidableEq, Repr

/-- What a byte is at the start of a sequence. -/
inductive LeadByte where
  | whole (c : Char)
  | opens (sequence : OpenSequence)
  | invalid
  deriving DecidableEq, Repr

/-- The role of a byte at the start of a sequence. The bounds keep out sequences that are longer than
needed, surrogates, and what is above the last code point. -/
def LeadByte.ofByte (byte : Nat) : LeadByte :=
  if byte < 0x80 then whole (Char.ofNat byte)
  else if byte < 0xC2 then invalid
  else if byte < 0xE0 then opens ⟨1, byte - 0xC0, 0x80, 0xBF⟩
  else if byte = 0xE0 then opens ⟨2, 0, 0xA0, 0xBF⟩
  else if byte = 0xED then opens ⟨2, 0xD, 0x80, 0x9F⟩
  else if byte < 0xF0 then opens ⟨2, byte - 0xE0, 0x80, 0xBF⟩
  else if byte = 0xF0 then opens ⟨3, 0, 0x90, 0xBF⟩
  else if byte < 0xF4 then opens ⟨3, byte - 0xF0, 0x80, 0xBF⟩
  else if byte = 0xF4 then opens ⟨3, 4, 0x80, 0x8F⟩
  else invalid

def OpenSequence.push (sequence : OpenSequence) (byte : Nat) : LeadByte :=
  let code := sequence.code * 0x40 + (byte - 0x80)
  if sequence.missing ≤ 1 then .whole (Char.ofNat code)
  else .opens ⟨sequence.missing - 1, code, 0x80, 0xBF⟩

/-- What a byte with a known role gives right away, and the sequence it leaves open. -/
def LeadByte.settle : LeadByte → List (Option Char) × Option OpenSequence
  | whole c => ([some c], none)
  | opens sequence => ([], some sequence)
  | invalid => ([none], none)

/-- What a byte gives behind an open sequence or behind none. A byte that does not go on with the
sequence gives it up and is read as the start of another. -/
def decodeStep (sequence : Option OpenSequence) (byte : Nat) :
    List (Option Char) × Option OpenSequence :=
  match sequence with
  | none => (LeadByte.ofByte byte).settle
  | some sequence =>
    if sequence.low ≤ byte ∧ byte ≤ sequence.high then (sequence.push byte).settle
    else ([none] ++ (LeadByte.ofByte byte).settle.1, (LeadByte.ofByte byte).settle.2)

/-- Reads bytes behind an open sequence or behind none. -/
def decodeFrom (sequence : Option OpenSequence) : List UInt8 → List (Option Char)
  | [] => if sequence.isSome then [none] else []
  | byte :: rest =>
    let (read, sequence) := decodeStep sequence byte.toNat
    read ++ decodeFrom sequence rest

/-- Reads bytes: a character for each well-formed sequence, and nothing for each stretch that is no
part of one. -/
def decode (bytes : List UInt8) : List (Option Char) := decodeFrom none bytes

/-- The text that bytes hold, if all of them are well-formed. -/
def decodeStrict (bytes : List UInt8) : Option (List Char) := (decode bytes).mapM id

/-- The character that stands for bytes that are not well-formed. -/
def replacement : Char := '\uFFFD'

/-- The text that bytes hold, with a replacement character for whatever is not well-formed. -/
def decodeLenient (bytes : List UInt8) : List Char := (decode bytes).map (·.getD replacement)

end Offside.Text
