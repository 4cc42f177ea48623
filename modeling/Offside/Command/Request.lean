import Offside.Command.Arguments
import Offside.Config.Basic
import Offside.Format

/-!
# Requests

What a command line asks for, once all of it makes sense: the version of the program, or a question
about a file together with the settings that go over the configured ones. Lines and columns are
numbers as the user counts them, from one; that zero is none of them shows only when the question is
answered.
-/

namespace Offside.Command

open Offside.Text

/-- A question about a file. -/
inductive Question where
  | context (line : Nat)
  | cursor (line column : Nat)
  | indentation (line : Nat)
  | leadingSpaces (line : Nat)
  | outline (format : OutlineFormat)
  | tokens (format : TokenFormat)
  deriving DecidableEq, Repr

/-- The settings on a command line. -/
structure Overrides where
  /-- A file with settings. -/
  file : Option String
  tabSize : Option String
  hardTabs : Bool
  window : Option Nat
  method : Option CountMethod
  deriving DecidableEq, Repr

/-- A question about the file at a path. -/
structure Request where
  path : String
  question : Question
  overrides : Overrides
  deriving DecidableEq, Repr

/-- What a command line asks for. -/
inductive Invocation where
  | version
  | request (request : Request)
  deriving DecidableEq, Repr

namespace Reading

/-- The value of an option, read by `read`, if the option has been chosen. -/
def optional {α : Type} (reading : Reading) (option : OptionName) (read : String → Option α) :
    Except ArgumentError (Option α) :=
  match reading.value? option with
  | none => .ok none
  | some value =>
    match read value with
    | none => .error (.badValue option value)
    | some result => .ok (some result)

/-- The value of an option that must be there, read by `read`. -/
def required {α : Type} (reading : Reading) (option : OptionName) (read : String → Option α) :
    Except ArgumentError α := do
  match ← reading.optional option read with
  | none => .error (.missingOption option)
  | some result => .ok result

def readNumber (value : String) : Option Nat := readUnsigned value.toList

def question (reading : Reading) : CommandName → Except ArgumentError Question
  | .context => do return .context (← reading.required .line readNumber)
  | .cursor => do
    return .cursor (← reading.required .line readNumber) (← reading.required .column readNumber)
  | .indent => do return .indentation (← reading.required .line readNumber)
  | .leadingSpaces => do return .leadingSpaces (← reading.required .line readNumber)
  | .tree => do
    let format ← reading.optional .format fun name => (OutlineFormat.ofName name).toOption
    return .outline (format.getD .listing)
  | .tokens => do
    let format ← reading.optional .format fun name => (TokenFormat.ofName name).toOption
    return .tokens (format.getD .simple)

def overrides (reading : Reading) : Except ArgumentError Overrides := do
  return {
    file := reading.value? .config
    tabSize := reading.value? .tabSize
    hardTabs := reading.has .hardTabs
    window := ← reading.optional .window readNumber
    method := ← reading.optional .method CountMethod.ofName? }

def path (reading : Reading) : Except ArgumentError String :=
  match reading.paths with
  | [] => .error .missingPath
  | [path] => .ok path
  | _ :: extra :: _ => .error (.extraPath extra)

def invocation (reading : Reading) : Except ArgumentError Invocation := do
  if reading.wantsVersion then return .version
  match reading.command with
  | none => .error .missingCommand
  | some command =>
    return .request ⟨← reading.path, ← reading.question command, ← reading.overrides⟩

end Reading

def Invocation.ofArguments (arguments : List String) : Except ArgumentError Invocation := do
  (← Reading.start.read arguments).invocation

end Offside.Command
