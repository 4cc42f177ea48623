import Mathlib.Logic.Basic
import Offside.Command.Answer

/-!
# From a command line to an answer

Arguments are read one after the other: a plain one goes where the command takes it
(`Reading.read_plain`), and an option with the value behind it becomes a choice
(`Reading.read_option`). What has been read is a request (`Reading.invocation_eq`). The request has
the answer of its question, once a configuration has been loaded and the file is text
(`Request.answer_eq`).

A window on the command line goes through the configuration as a signed number, so only a window
that is one comes out as it went in (`Setting.toUnsigned?_asSigned`, `run_cursor`).
-/

namespace Offside

open Offside.Text

/-! ## A configuration with a window -/

/-- An unsigned number is read back from the signed one with the same digits, unless that one is
negative. -/
theorem Setting.toUnsigned?_asSigned {number : Nat} (h : number ≤ maxUnsigned) :
    toUnsigned? (.int (asSigned number)) =
      if (number : Int) ≤ maxSigned then some number else none := by
  show (if 0 ≤ asSigned number then some (asSigned number).toNat else none) = _
  by_cases hsigned : (number : Int) ≤ maxSigned
  · rw [asSigned_of_le hsigned, if_pos (Int.natCast_nonneg number), if_pos hsigned,
      Int.toNat_natCast]
  · have hneg := asSigned_neg (Int.lt_of_not_ge hsigned) h
    rw [if_neg (Int.not_le.mpr hneg), if_neg hsigned]

namespace Config

variable {group : Group} {name : String} {table : Table} {value : Setting}

theorem Group.read_eq {α : Type} {read? : Setting → Option α}
    (h : (table.lookup group.name).bind (group.setting? name) = some value) :
    group.read name read? table =
      match read? value with
      | none => .error (.wrongType (group.name ++ "." ++ name))
      | some result => .ok result := by
  rw [Group.read, h]
  rfl

/-- The built-in settings with another window. -/
def defaultsWith (window : Setting) : Table :=
  [("tabs", .table [("size", .int defaultWidth), ("hard", .bool false)]),
   ("reader", .table [("context_window", window), ("leading_spaces", .text "index")])]

theorem ofTable_defaultsWith (window : Setting) : ofTable (defaultsWith window) =
    match window.toUnsigned? with
    | none => .error (.wrongType "reader.context_window")
    | some window => .ok ⟨.number defaultWidth, false, window, .index⟩ := by
  have hplace : ((defaultsWith window).lookup Group.reader.name).bind
      (Group.reader.setting? "context_window") = some window := rfl
  rw [ofTable, Group.read_eq hplace]
  cases window.toUnsigned? <;> rfl

/-- What is loaded without a file, and with no setting but a window. -/
theorem load_window (value : Int) : load [.ofGroup .reader "context_window" (.int value)] =
    ofTable (defaultsWith (.int value)) := rfl

end Config

namespace Command

/-! ## Reading arguments -/

theorem le_of_readUnsigned {s : List Char} {n : Nat} (h : readUnsigned s = some n) :
    n ≤ maxUnsigned := of_decide_eq_true (Option.filter_eq_some_iff.mp h).2

/-- A number is no option. -/
theorem ArgumentShape.ofText_of_readUnsigned {text : String} {n : Nat}
    (h : readUnsigned text.toList = some n) : ofText text = plain := by
  unfold ofText
  cases htext : text.toList with
  | nil => rfl
  | cons c rest =>
    rw [htext] at h
    obtain rfl | hc := eq_or_ne c '-'
    · cases h
    · unfold ofChars
      split
      next heq => exact absurd (List.cons.inj heq).1 hc
      next heq => exact absurd (List.cons.inj heq).1 hc
      next => rfl

namespace Reading

variable {reading next : Reading} {text value name : String} {option : OptionName}

theorem read_plain (hplain : ArgumentShape.ofText text = .plain)
    (htake : reading.take text = .ok next) (rest : List String) :
    reading.read (text :: rest) = next.read rest := by
  have hne : text ≠ "--" := by
    rintro rfl
    cases hplain
  rw [read, if_neg hne, option?, hplain]
  dsimp only
  rw [htake]
  rfl

theorem read_option (hshape : ArgumentShape.ofText text = .long name none)
    (hoption : (allowed reading.command).find? (·.long == name) = some option)
    (htakes : option.takesValue = true) (hvalue : ArgumentShape.ofText value = .plain)
    (hchoose : reading.choose option value = .ok next) (rest : List String) :
    reading.read (text :: value :: rest) = next.read rest := by
  have hne : text ≠ "--" := by
    rintro rfl
    cases hshape
    have hlong := List.find?_some hoption
    cases option <;> cases hlong
  have hgiven : reading.option? text = .ok (some (option, none)) := by
    simp only [option?, hshape, option?.named, hoption]
    rfl
  rw [read.eq_def]
  dsimp only
  rw [if_neg hne, hgiven]
  -- the version has a reading of its own, so the options are told apart
  cases option with
  | hardTabs => cases htakes
  | version => cases htakes
  | _ =>
    dsimp only
    rw [if_pos htakes, if_pos hvalue, hchoose]
    rfl

theorem optional_eq {α : Type} {read : String → Option α} {result : α}
    (hvalue : reading.value? option = some value) (hread : read value = some result) :
    reading.optional option read = .ok (some result) := by
  simp only [optional, hvalue, hread]

theorem required_eq {α : Type} {read : String → Option α} {result : α}
    (hvalue : reading.value? option = some value) (hread : read value = some result) :
    reading.required option read = .ok result := by
  rw [required, optional_eq hvalue hread]
  rfl

theorem invocation_eq {command : CommandName} {path : String} {question : Question}
    {overrides : Overrides} (hcommand : reading.command = some command)
    (hpath : reading.path = .ok path) (hquestion : reading.question command = .ok question)
    (hoverrides : reading.overrides = .ok overrides) (hversion : reading.wantsVersion = false) :
    reading.invocation = .ok (.request ⟨path, question, overrides⟩) := by
  simp only [invocation, hversion, hcommand, hpath, hquestion, hoverrides]
  rfl

end Reading

section Cursor

variable {path line column window : String} {l c w : Nat}

/-- What is read of a command line that asks for the words around a cursor. -/
theorem Reading.read_cursor (hpath : ArgumentShape.ofText path = .plain)
    (hline : ArgumentShape.ofText line = .plain) (hcolumn : ArgumentShape.ofText column = .plain)
    (hwindow : ArgumentShape.ofText window = .plain) :
    Reading.start.read
        ["cursor", path, "--line", line, "--column", column, "--window", window] =
      .ok ⟨some .cursor, [], [(.window, window), (.column, column), (.line, line)], [path],
        false⟩ := by
  calc
    _ = Reading.read ⟨some .cursor, [], [], [], false⟩ _ := read_plain rfl rfl _
    _ = Reading.read ⟨some .cursor, [], [], [path], false⟩ _ := read_plain hpath rfl _
    _ = Reading.read ⟨some .cursor, [], [(.line, line)], [path], false⟩ _ :=
      read_option rfl rfl rfl hline rfl _
    _ = Reading.read ⟨some .cursor, [], [(.column, column), (.line, line)], [path], false⟩ _ :=
      read_option rfl rfl rfl hcolumn rfl _
    _ = _ := read_option rfl rfl rfl hwindow rfl []

theorem Invocation.ofArguments_cursor (hpath : ArgumentShape.ofText path = .plain)
    (hline : readUnsigned line.toList = some l) (hcolumn : readUnsigned column.toList = some c)
    (hwindow : readUnsigned window.toList = some w) :
    Invocation.ofArguments
        ["cursor", path, "--line", line, "--column", column, "--window", window] =
      .ok (.request ⟨path, .cursor l c, ⟨none, none, false, some w, none⟩⟩) := by
  have hread := Reading.read_cursor hpath (ArgumentShape.ofText_of_readUnsigned hline)
    (ArgumentShape.ofText_of_readUnsigned hcolumn) (ArgumentShape.ofText_of_readUnsigned hwindow)
  let reading : Reading :=
    ⟨some .cursor, [], [(.window, window), (.column, column), (.line, line)], [path], false⟩
  have hquestion : reading.question .cursor = .ok (.cursor l c) := by
    have hlineNumber : reading.required .line Reading.readNumber = .ok l :=
      Reading.required_eq rfl hline
    have hcolumnNumber : reading.required .column Reading.readNumber = .ok c :=
      Reading.required_eq rfl hcolumn
    rw [Reading.question, hlineNumber, hcolumnNumber]
    rfl
  have hoverrides : reading.overrides = .ok ⟨none, none, false, some w, none⟩ := by
    have hnumber : reading.optional .window Reading.readNumber = .ok (some w) :=
      Reading.optional_eq rfl hwindow
    rw [Reading.overrides, hnumber]
    rfl
  rw [ofArguments, hread]
  exact Reading.invocation_eq rfl rfl hquestion hoverrides rfl

/-! ## The words around a cursor -/

variable {files : Files} {bytes : List UInt8} {text content : List Char}

theorem fileText_eq (hfile : files path = .ok bytes) (htext : decodeStrict bytes = some text) :
    fileText files path = .ok text := by
  rw [fileText, hfile]
  simp only [bind, Except.bind, htext]

theorem Request.answer_eq {request : Request} {config : Config}
    (hconfig : Config.load (request.overrides.sources files) = .ok config)
    (hfile : fileText files request.path = .ok text) :
    request.answer files = request.question.answer config text := by
  simp only [answer, hconfig, hfile]
  rfl

theorem Question.answer_cursor {config : Config} (hcontent : (lines text)[l]? = some content)
    (c : Nat) : (cursor (l + 1) (c + 1)).answer config text =
      .ok ((cursorContext content c config.contextWindow).getD (noContext l c)) := by
  have hline : lineAt text l = .ok content := by
    rw [lineAt, hcontent]
  show (lineAt text l >>= fun content => _) = _
  rw [hline]
  rfl

/-- The built-in settings and a window give a configuration unless the window is too large. -/
theorem Overrides.load_window (files : Files) (hw : w ≤ maxUnsigned) :
    Config.load (sources files ⟨none, none, false, some w, none⟩) =
      if (w : Int) ≤ maxSigned then .ok ⟨.number defaultWidth, false, w, .index⟩
      else .error (.wrongType "reader.context_window") := by
  show Config.load [.ofGroup .reader "context_window" (.int (asSigned w))] = _
  rw [Config.load_window, Config.ofTable_defaultsWith, Setting.toUnsigned?_asSigned hw]
  by_cases hsigned : (w : Int) ≤ maxSigned
  · simp only [if_pos hsigned]
  · simp only [if_neg hsigned]

/-- **The window of a command line.** On a file that is text, for a line that is there, a column
counted from one and any window that is an unsigned number of 64 digits, the program prints the
words around the column that the window reaches, or that there are none, if the window is a signed
number of 64 digits too. Any other window counts as negative on its way through the configuration,
which then has no valid setting for it. -/
theorem run_cursor (hpath : ArgumentShape.ofText path = .plain) (hfile : files path = .ok bytes)
    (htext : decodeStrict bytes = some text) (hline : readUnsigned line.toList = some (l + 1))
    (hcolumn : readUnsigned column.toList = some (c + 1))
    (hwindow : readUnsigned window.toList = some w) (hcontent : (lines text)[l]? = some content) :
    run files ["cursor", path, "--line", line, "--column", column, "--window", window] =
      if (w : Int) ≤ maxSigned then .printed ((cursorContext content c w).getD (noContext l c))
      else .failed (.config (.wrongType "reader.context_window")) := by
  let request : Request :=
    ⟨path, .cursor (l + 1) (c + 1), ⟨none, none, false, some w, none⟩⟩
  have hrun : run files ["cursor", path, "--line", line, "--column", column, "--window", window] =
      .ofAnswer (request.answer files) := by
    rw [run, Invocation.ofArguments_cursor hpath hline hcolumn hwindow]
  have hload : Config.load (request.overrides.sources files) = _ :=
    Overrides.load_window files (le_of_readUnsigned hwindow)
  rw [hrun]
  by_cases hsigned : (w : Int) ≤ maxSigned
  · rw [if_pos hsigned] at hload ⊢
    rw [Request.answer_eq hload (fileText_eq hfile htext), Question.answer_cursor hcontent]
    rfl
  · rw [if_neg hsigned] at hload ⊢
    rw [Request.answer, hload]
    rfl

/-- The largest window that is passed on. -/
theorem run_cursor_largest :
    let files : Files := fun _ => .ok [97, 32, 98, 10]
    run files
        ["cursor", "f.py", "--line", "1", "--column", "3", "--window", "9223372036854775807"] =
      .printed "a b " := by
  intro files
  have htext : decodeStrict [97, 32, 98, 10] = some "a b\n".toList := by decide +kernel
  have hline : readUnsigned "1".toList = some (0 + 1) := by decide +kernel
  have hcolumn : readUnsigned "3".toList = some (2 + 1) := by decide +kernel
  have hwindow : readUnsigned "9223372036854775807".toList = some 9223372036854775807 := by
    decide +kernel
  have hcontent : (lines "a b\n".toList)[0]? = some "a b".toList := by decide +kernel
  rw [run_cursor rfl rfl htext hline hcolumn hwindow hcontent]
  decide +kernel

/-- A window one larger is refused, though it is an unsigned number of 64 digits and there are words
to show. -/
theorem run_cursor_refused :
    let files : Files := fun _ => .ok [97, 32, 98, 10]
    decodeStrict [97, 32, 98, 10] = some "a b\n".toList ∧
      (lines "a b\n".toList)[0]? = some "a b".toList ∧
      readUnsigned "9223372036854775808".toList = some 9223372036854775808 ∧
      cursorContext "a b".toList 0 9223372036854775808 = some "a b " ∧
      run files
          ["cursor", "f.py", "--line", "1", "--column", "1", "--window", "9223372036854775808"] =
        .failed (.config (.wrongType "reader.context_window")) := by
  intro files
  refine ⟨?_, ?_, ?_, ?_, ?_⟩ <;> decide +kernel

end Cursor

end Command

end Offside
