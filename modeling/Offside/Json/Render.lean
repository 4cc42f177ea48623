import Offside.Json.Value

/-!
# Writing JSON

The pretty form of a JSON value: every element on a line of its own, two spaces further in than the
brackets around it, and empty brackets closed at once. Strings are written as they are, but for
quotes, backslashes and control characters.
-/

namespace Offside.Json

def hexDigit (n : Nat) : Char := Nat.digitChar (n % 16)

def escape (c : Char) : List Char :=
  if c = '"' then ['\\', '"']
  else if c = '\\' then ['\\', '\\']
  else if c = '\x08' then ['\\', 'b']
  else if c = '\x0c' then ['\\', 'f']
  else if c = '\n' then ['\\', 'n']
  else if c = '\r' then ['\\', 'r']
  else if c = '\t' then ['\\', 't']
  else if c.toNat < 0x20 then ['\\', 'u', '0', '0', hexDigit (c.toNat / 16), hexDigit c.toNat]
  else [c]

def quote (s : String) : List Char := '"' :: s.toList.flatMap escape ++ ['"']

def newline (margin : Nat) : List Char := '\n' :: List.replicate (2 * margin) ' '

mutual

/-- The pretty form of a value whose first line stands so many levels in. -/
def pretty (margin : Nat) : Json → List Char
  | null => "null".toList
  | bool true => "true".toList
  | bool false => "false".toList
  | int value => value.repr.toList
  | real spelling => spelling
  | str value => quote value
  | arr [] => ['[', ']']
  | arr (item :: rest) =>
    '[' :: newline (margin + 1) ++ pretty (margin + 1) item ++ prettyItems (margin + 1) rest ++
      newline margin ++ [']']
  | obj [] => ['\x7b', '\x7d']
  | obj ((key, value) :: rest) =>
    '\x7b' :: newline (margin + 1) ++ quote key ++ ": ".toList ++ pretty (margin + 1) value ++
      prettyMembers (margin + 1) rest ++ newline margin ++ ['\x7d']

/-- The pretty form of the items behind the first one. -/
def prettyItems (margin : Nat) : List Json → List Char
  | [] => []
  | item :: rest => ',' :: newline margin ++ pretty margin item ++ prettyItems margin rest

/-- The pretty form of the members behind the first one. -/
def prettyMembers (margin : Nat) : List (String × Json) → List Char
  | [] => []
  | (key, value) :: rest =>
    ',' :: newline margin ++ quote key ++ ": ".toList ++ pretty margin value ++
      prettyMembers margin rest

end

def render (value : Json) : String := String.ofList (pretty 0 value)

end Offside.Json
