/-!
# Commands and their options

The commands by which a user asks about a file, and the options that they take. Some options hold for
every command and may stand before its name as well; the others belong to some commands and stand
behind the name.
-/

namespace Offside.Command

/-- The commands. -/
inductive CommandName where
  | context
  | cursor
  | indent
  | leadingSpaces
  | tree
  | tokens
  deriving DecidableEq, Repr

/-- The options. -/
inductive OptionName where
  | config
  | tabSize
  | hardTabs
  | version
  | line
  | column
  | window
  | method
  | format
  deriving DecidableEq, Repr

namespace OptionName

def long : OptionName → String
  | config => "config"
  | tabSize => "tab-size"
  | hardTabs => "hard-tabs"
  | version => "version"
  | line => "line"
  | column => "column"
  | window => "window"
  | method => "method"
  | format => "format"

/-- The letter of an option after one hyphen, if it has one. -/
def short : OptionName → Option Char
  | config => some 'c'
  | version => some 'V'
  | line => some 'l'
  | window => some 'w'
  | method => some 'm'
  | format => some 'f'
  | tabSize | hardTabs | column => none

/-- Whether a value belongs to an option; any other option says something by being there. -/
def takesValue : OptionName → Bool
  | hardTabs | version => false
  | _ => true

def shared : List OptionName := [config, tabSize, hardTabs]

end OptionName

namespace CommandName

def all : List CommandName := [context, cursor, indent, leadingSpaces, tree, tokens]

def name : CommandName → String
  | context => "context"
  | cursor => "cursor"
  | indent => "indent"
  | leadingSpaces => "leading-spaces"
  | tree => "tree"
  | tokens => "tokens"

/-- The command with a name; names are case-sensitive. -/
def ofName? (name : String) : Option CommandName := all.find? (·.name == name)

def own : CommandName → List OptionName
  | context | indent => [.line]
  | cursor => [.line, .column, .window]
  | leadingSpaces => [.line, .method]
  | tree | tokens => [.format]

end CommandName

/-- The options that may stand behind the name of a command, or before it where none has been named. -/
def allowed : Option CommandName → List OptionName
  | none => OptionName.shared ++ [.version]
  | some command => OptionName.shared ++ command.own

end Offside.Command
