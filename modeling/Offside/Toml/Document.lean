import Offside.Toml.Nested

/-!
# TOML documents

A document is read in two steps. Its text is a list of statements, one a line but for values that go
over several: a header names the table that the next lines are about, an assignment gives one of its
keys a value. The statements in turn build one table (`Document.build`), which fails where something
would be defined twice.
-/

namespace Offside.Toml

/-- A line of a document that says something. -/
inductive Statement where
  /-- A header `[a.b]`. -/
  | table (path : List String)
  /-- A header `[[a.b]]`. -/
  | element (path : List String)
  /-- An assignment `a.b = value`. -/
  | assign (key : List String) (value : Value)

/-- A statement at the front of a text, and the text behind it, in the same line. -/
def statement? (bound : Nat) : List Char → Option (Statement × List Char)
  | '[' :: '[' :: rest => do
    let (path, rest) ← key? rest
    match rest with
    | ']' :: ']' :: after => return (.element path, after)
    | _ => none
  | '[' :: rest => do
    let (path, rest) ← key? rest
    match rest with
    | ']' :: after => return (.table path, after)
    | _ => none
  | s => do
    let (key, rest) ← key? s
    match rest with
    | '=' :: rest => do
      let (value, after) ← value? bound maxDepth (skipSpace rest)
      return (.assign key value, after)
    | _ => none

/-- The statements of a text, in at most `bound` lines. -/
def statements? : Nat → List Char → Option (List Statement)
  | 0, s => if s.isEmpty then some [] else none
  | bound + 1, s =>
    if s.isEmpty then some []
    else
      match restOfLine? s with
      | some rest => statements? bound rest
      | none => do
        let (statement, rest) ← statement? (2 * s.length + 2) (skipSpace s)
        return statement :: (← statements? bound (← restOfLine? rest))

/-- A document under construction: its entries, and the table that assignments go to. -/
structure Draft where
  entries : Entries
  current : List String

/-- Splits a path into the way to a table and the table's own key. -/
def lastKey? : List String → Option (List String × String)
  | [] => none
  | [key] => some ([], key)
  | key :: rest => (lastKey? rest).map fun (path, last) => (key :: path, last)

namespace Draft

def step? (draft : Draft) : Statement → Option Draft
  | .table path => do
    let (parent, key) ← lastKey? path
    return ⟨← Entries.modify (Entries.openTable key) draft.entries parent, path⟩
  | .element path => do
    let (parent, key) ← lastKey? path
    return ⟨← Entries.modify (Entries.openElement key) draft.entries parent, path⟩
  | .assign key value => do
    return { draft with
      entries := ← Entries.modify (fun table => Entries.insert table key value) draft.entries
        draft.current }

end Draft

def build? (statements : List Statement) : Option (List (String × Value)) := do
  let draft ← statements.foldlM Draft.step? ⟨[], []⟩
  return Section.entriesToValues draft.entries

/-- A byte order mark, which may stand in front of a text. -/
def dropMark : List Char → List Char
  | '\uFEFF' :: rest => rest
  | s => s

/-- The table that the text of a document stands for. -/
def read? (s : List Char) : Option (List (String × Value)) := do
  let s := dropMark s
  build? (← statements? (s.length + 1) s)

end Offside.Toml
