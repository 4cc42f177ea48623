import Offside.Toml.Lexis
import Offside.Toml.Scalar
import Offside.Toml.Section

/-!
# Values in a text

Strings, scalars, arrays and inline tables. An array may go over several lines, with comments, and may
end in a comma; an inline table stands on one line and may not. At most `maxDepth` arrays and inline
tables stand inside each other.

The readers take a bound on the number of steps; each step reads at least a character or hands on to
one that does, so twice the length of the text is always enough. They also take how many arrays and
inline tables may still be opened inside each other.
-/

namespace Offside.Toml

/-- A text without the blanks, comments and line ends in front, in at most `bound` lines. -/
def skipLines : Nat → List Char → List Char
  | 0, s => s
  | bound + 1, s =>
    let s := skipComment (skipSpace s)
    match s with
    | '\n' :: rest => skipLines bound rest
    | '\r' :: '\n' :: rest => skipLines bound rest
    | s => s

mutual

/-- A value at the front of a text, and the text behind it. -/
def value? : Nat → Nat → List Char → Option (Value × List Char)
  | 0, _, _ => none
  | bound + 1, depth, s =>
    match s, depth with
    | '[' :: _, 0 | '\x7b' :: _, 0 => none
    | '[' :: rest, depth + 1 => do
      let (items, after) ← items? bound depth rest
      return (.array items, after)
    | '\x7b' :: rest, depth + 1 =>
      match skipSpace rest with
      | '\x7d' :: after => some (.table [], after)
      | rest => do
        let (entries, after) ← members? bound depth [] rest
        return (.table (Section.entriesToValues entries), after)
    | '"' :: _, _ | '\'' :: _, _ =>
      (string? s).map fun (text, after) => (.text (String.ofList text), after)
    | s, _ =>
      let (word, after) := word s
      (scalar? word).map fun value => (value, after)

/-- The items of an array up to its closing bracket. -/
def items? : Nat → Nat → List Char → Option (List Value × List Char)
  | 0, _, _ => none
  | bound + 1, depth, s =>
    match skipLines bound s with
    | ']' :: after => some ([], after)
    | s => do
      let (item, rest) ← value? bound depth s
      match skipLines bound rest with
      | ',' :: rest => do
        let (items, after) ← items? bound depth rest
        return (item :: items, after)
      | ']' :: after => return ([item], after)
      | _ => none

/-- The members of an inline table up to its closing brace, added to those before. -/
def members? : Nat → Nat → Entries → List Char → Option (Entries × List Char)
  | 0, _, _, _ => none
  | bound + 1, depth, entries, s => do
    let (key, rest) ← key? s
    match rest with
    | '=' :: rest => do
      let (value, rest) ← value? bound depth (skipSpace rest)
      let entries ← Entries.insert entries key value
      match skipSpace rest with
      | ',' :: rest => members? bound depth entries rest
      | '\x7d' :: after => return (entries, after)
      | _ => none
    | _ => none

end

end Offside.Toml
