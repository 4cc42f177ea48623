import Offside.Command.Request
import Offside.Config.Loader
import Offside.Line.Cursor
import Offside.Outline.Build
import Offside.Outline.Sentence
import Offside.Text.Utf8

/-!
# Answering a command line

What the program prints for its arguments and the files there are. Several things can be wrong at
once, and then the first of these counts: the arguments, the configuration, the file, the numbers of
the line and of the column, and the question.

A file of settings may be named without its ending. Whatever bytes it holds, they are read as text; the
file that is asked about must be well-formed.
-/

namespace Offside.Command

open Offside.Text

/-- Why a file cannot be read. -/
inductive FileError where
  | missing
  | directory
  /-- A part of the path before the last is no directory. -/
  | notDirectory
  | notText
  | unreadable (reason : String)
  deriving DecidableEq, Repr

def FileError.message : FileError → String
  | missing => "I/O error: No such file or directory (os error 2)"
  | directory => "I/O error: Is a directory (os error 21)"
  | notDirectory => "I/O error: Not a directory (os error 20)"
  | notText => "I/O error: stream did not contain valid UTF-8"
  | unreadable reason => "I/O error: " ++ reason

/-- Why a request has no answer. -/
inductive CommandError where
  | config (cause : ConfigError)
  | file (cause : FileError)
  /-- The number of a line or of a column is zero. -/
  | notFromOne (option : OptionName)
  | query (cause : QueryError)
  deriving DecidableEq, Repr

def CommandError.message : CommandError → String
  | config cause => cause.message
  | file cause => cause.message
  | notFromOne option => "--" ++ option.long ++ " is 1-based, got 0"
  | query cause => cause.message

/-- The files there are: the bytes of a file, by its name. -/
abbrev Files := String → Except FileError (List UInt8)

/-! ## Configuration -/

/-- A reversed path without what says no more than that it is a directory. -/
def dropDirectoryMark : List Char → List Char
  | '/' :: rest => dropDirectoryMark rest
  | '.' :: '/' :: rest => dropDirectoryMark rest
  | path => path

/-- A path with the ending of a file of settings behind its last part. -/
def withEnding (name : String) : String :=
  String.ofList (dropDirectoryMark name.toList.reverse).reverse ++ ".toml"

/-- The names under which a file of settings is looked for, in order. -/
def settingsNames (name : String) : List String :=
  if name.isEmpty then [] else [name, withEnding name]

/-- The text of a file of settings, if it is there. -/
def settingsText (files : Files) (name : String) : Option (List Char) :=
  ((settingsNames name).findSome? fun name => (files name).toOption).map decodeLenient

/-- The parts of a configuration that a command line gives. -/
def Overrides.sources (files : Files) (overrides : Overrides) : List Config.Source :=
  (overrides.file.map fun name => .file name true (settingsText files name)).toList ++
    (overrides.tabSize.map fun size => .ofGroup .tabs "size" (.text size)).toList ++
    (if overrides.hardTabs then [.ofGroup .tabs "hard" (.bool true)] else []) ++
    (overrides.window.map fun window =>
      .ofGroup .reader "context_window" (.int (asSigned window))).toList ++
    (overrides.method.map fun method =>
      .ofGroup .reader "leading_spaces" (.text method.name)).toList

/-! ## Questions -/

def fileText (files : Files) (path : String) : Except FileError (List Char) := do
  match decodeStrict (← files path) with
  | none => .error .notText
  | some text => .ok text

def indexOf (option : OptionName) : Nat → Except CommandError Nat
  | 0 => .error (.notFromOne option)
  | number + 1 => .ok number

def lineAt (text : List Char) (line : Nat) : Except CommandError (List Char) :=
  match (lines text)[line]? with
  | none => .error (.query (.outOfBounds line (lineCount text)))
  | some content => .ok content

/-- The sentence for a cursor that has no words around it. -/
def noContext (line column : Nat) : String :=
  Report.lineNumber line ++ ": no context at column " ++ (column + 1).repr

def Question.answer (config : Config) (text : List Char) : Question → Except CommandError String
  | context line => do
    let line ← indexOf .line line
    ((Outline.ofText config.tabs text).contextSentence line).mapError .query
  | cursor line column => do
    let line ← indexOf .line line
    let column ← indexOf .column column
    let content ← lineAt text line
    return (cursorContext content column config.contextWindow).getD (noContext line column)
  | indentation line => do
    let line ← indexOf .line line
    return Report.indentation config.tabs line (← lineAt text line)
  | leadingSpaces line => do
    let line ← indexOf .line line
    return Report.leadingSpaces config.countMethod line (← lineAt text line)
  | outline format =>
    ((Outline.ofText config.tabs text).format format).mapError fun fault => .query (.fault fault)
  | tokens format => .ok (formatTokens (Offside.tokens config.tabs text) format)

def Request.answer (files : Files) (request : Request) : Except CommandError String := do
  let config ← (Config.load (request.overrides.sources files)).mapError .config
  let text ← (fileText files request.path).mapError .file
  request.question.answer config text

/-! ## The whole command line -/

/-- How the program ends. -/
inductive Outcome where
  | misused (cause : ArgumentError)
  | failed (cause : CommandError)
  /-- The program is asked for more than it can store. -/
  | exhausted
  /-- The program prints a text. -/
  | printed (text : String)
  deriving DecidableEq, Repr

namespace Outcome

def ofAnswer : Except CommandError String → Outcome
  | .ok text => printed text
  | .error (.config .tooLong) => exhausted
  | .error cause => failed cause

def exitCode : Outcome → Nat
  | misused _ => 2
  | failed _ => 1
  | exhausted => 101
  | printed _ => 0

def output : Outcome → String
  | printed text => text ++ "\n"
  | _ => ""

def error? : Outcome → Option String
  | misused cause => some cause.message
  | failed cause => some cause.message
  | exhausted | printed _ => none

end Outcome

def versionLine : String := "pylex 0.1.0"

def run (files : Files) (arguments : List String) : Outcome :=
  match Invocation.ofArguments arguments with
  | .error cause => .misused cause
  | .ok .version => .printed versionLine
  | .ok (.request request) => .ofAnswer (request.answer files)

/-- The names of all files that may matter for a request. -/
def Request.fileNames (request : Request) : List String :=
  (request.overrides.file.map settingsNames).getD [] ++ [request.path]

end Offside.Command
