import Offside.Command.Options

/-!
# Reading the arguments of a command line

An argument with a hyphen in front is an option, a single hyphen excepted; every other one is plain.
The first plain argument names the command and the others go to it. Two hyphens alone make all that
follows plain, once a command has been named.

The value of an option stands behind it: in the same argument, after an equals sign or, for a letter,
with nothing between; or else in the next argument, which then must be plain. An option stands at
most once before the name of the command and at most once behind it. Asking for the version ends the
reading, so it does not matter what stands behind it, nor which letters stand behind its letter.
-/

namespace Offside.Command

/-- What is wrong with the arguments. -/
inductive ArgumentError where
  | unknownOption (text : String)
  | missingValue (option : OptionName)
  | unwantedValue (option : OptionName)
  | repeatedOption (option : OptionName)
  | badValue (option : OptionName) (value : String)
  | missingOption (option : OptionName)
  | unknownCommand (name : String)
  | missingCommand
  | missingPath
  | extraPath (text : String)
  deriving DecidableEq, Repr

def ArgumentError.message : ArgumentError → String
  | unknownOption text => "unknown option '" ++ text ++ "'"
  | missingValue option => "a value is required for '--" ++ option.long ++ "'"
  | unwantedValue option => "no value is allowed for '--" ++ option.long ++ "'"
  | repeatedOption option => "'--" ++ option.long ++ "' is given more than once"
  | badValue option value => "invalid value '" ++ value ++ "' for '--" ++ option.long ++ "'"
  | missingOption option => "'--" ++ option.long ++ "' is required"
  | unknownCommand name => "unknown command '" ++ name ++ "'"
  | missingCommand => "a command is required"
  | missingPath => "a path is required"
  | extraPath text => "unexpected argument '" ++ text ++ "'"

/-- The shape of an argument. -/
inductive ArgumentShape where
  | plain
  | long (name : String) (value : Option String)
  | short (letter : Char) (value : Option String)
  deriving DecidableEq, Repr

/-- The value after an equals sign, if there is one. -/
def valueAfterEquals : List Char → Option String
  | '=' :: value => some (String.ofList value)
  | _ => none

/-- The value right behind a letter, if there is one; an equals sign between them is dropped. -/
def valueAfterLetter : List Char → Option String
  | [] => none
  | '=' :: value => some (String.ofList value)
  | value => some (String.ofList value)

/-- The shape of an argument with these characters. -/
def ArgumentShape.ofChars : List Char → ArgumentShape
  | '-' :: '-' :: text =>
    long (String.ofList (text.takeWhile (· ≠ '='))) (valueAfterEquals (text.dropWhile (· ≠ '=')))
  | '-' :: letter :: text => short letter (valueAfterLetter text)
  | _ => plain

def ArgumentShape.ofText (text : String) : ArgumentShape := ofChars text.toList

/-- An option and its value, which is empty where none belongs to it. -/
abbrev Choice := OptionName × String

/-- What has been read of a command line. -/
structure Reading where
  command : Option CommandName
  /-- The choices made before the name of the command. -/
  before : List Choice
  /-- The choices made behind the name of the command or, while there is none, all of them. -/
  choices : List Choice
  /-- The plain arguments that go to the command. -/
  paths : List String
  /-- Whether the version has been asked for. -/
  wantsVersion : Bool
  deriving DecidableEq, Repr

namespace Reading

def start : Reading := ⟨none, [], [], [], false⟩

/-- The option of an argument and the value that the argument gives it; nothing if the argument is
plain. -/
def option? (reading : Reading) (text : String) :
    Except ArgumentError (Option (OptionName × Option String)) :=
  match ArgumentShape.ofText text with
  | .plain => .ok none
  | .long name value => do return some (← named (·.long == name), value)
  | .short letter value => do
    let option ← named (·.short == some letter)
    return some (option, if option.takesValue then value else none)
where
  /-- The allowed option with a name. -/
  named (has : OptionName → Bool) : Except ArgumentError OptionName :=
    match (allowed reading.command).find? has with
    | none => .error (.unknownOption text)
    | some option => .ok option

/-- What is read once an option has been given with a value. -/
def choose (reading : Reading) (option : OptionName) (value : String) :
    Except ArgumentError Reading :=
  if (reading.choices.lookup option).isSome then .error (.repeatedOption option)
  else .ok { reading with choices := (option, value) :: reading.choices }

def take (reading : Reading) (text : String) : Except ArgumentError Reading :=
  match reading.command with
  | some _ => .ok { reading with paths := reading.paths ++ [text] }
  | none =>
    match CommandName.ofName? text with
    | none => .error (.unknownCommand text)
    | some command =>
      .ok { reading with command := some command, before := reading.choices, choices := [] }

def takeAll (reading : Reading) (rest : List String) : Except ArgumentError Reading :=
  match reading.command with
  | none => .error .missingCommand
  | some _ => .ok { reading with paths := reading.paths ++ rest }

def read (reading : Reading) : List String → Except ArgumentError Reading
  | [] => .ok reading
  | text :: rest =>
    if text = "--" then reading.takeAll rest
    else
      match reading.option? text with
      | .error error => .error error
      | .ok none => do read (← reading.take text) rest
      | .ok (some (.version, none)) => .ok { reading with wantsVersion := true }
      | .ok (some (option, value)) =>
        if option.takesValue then
          match value, rest with
          | some value, rest => do read (← reading.choose option value) rest
          | none, [] => .error (.missingValue option)
          | none, value :: rest =>
            if ArgumentShape.ofText value = .plain then do
              read (← reading.choose option value) rest
            else .error (.missingValue option)
        else if value.isSome then .error (.unwantedValue option)
        else do read (← reading.choose option "") rest

/-- The value chosen for an option; a choice behind the name of the command goes over one before it. -/
def value? (reading : Reading) (option : OptionName) : Option String :=
  (reading.choices.lookup option).or (reading.before.lookup option)

def has (reading : Reading) (option : OptionName) : Bool := (reading.value? option).isSome

end Reading

end Offside.Command
