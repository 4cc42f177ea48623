import Offside.Proofs.CommandLine
import Offside.Proofs.Sentences

/-!
# Questions about a line

Four commands ask about one line: which blocks enclose it, which words are around a cursor in it, how
deep it is indented and how many blanks lead it. The first asks the outline of the whole text and the
others take the line out of the text, but they agree on which lines there are (`lineCommands_agree`).
For an outline has as many lines as its text, and once a line is there, no step behind that fails
(`Question.answer_of_le`, `Question.exists_answer`).

What counts is the question that some arguments come to and the configuration that is loaded for them
(`AsksAboutLine`), however the arguments are put. For each of the commands there are such arguments
(`CommandName.lineArguments`).
-/

namespace Offside.Command

open Offside.Text

/-! ## The line of a question -/

/-- The number of the line that a question is about, unless it is about the whole text. -/
def Question.line? : Question → Option Nat
  | context line | cursor line _ | indentation line | leadingSpaces line => some line
  | outline _ | tokens _ => none

/-- The number of the column that a question is about, if it is about one. -/
def Question.column? : Question → Option Nat
  | cursor _ column => some column
  | context _ | indentation _ | leadingSpaces _ | outline _ | tokens _ => none

section Questions

variable {text : List Char} {question : Question} {l : Nat}

theorem lineAt_of_le (h : lineCount text ≤ l) :
    lineAt text l = .error (.query (.outOfBounds l (lineCount text))) := by
  rw [lineAt, List.getElem?_eq_none h]

theorem exists_lineAt (h : l < lineCount text) : ∃ content, lineAt text l = .ok content := by
  have hcontent := List.getElem?_eq_getElem h
  rw [lineAt, hcontent]
  exact ⟨_, rfl⟩

theorem contextSentence_of_le (tabs : Tabs) (h : lineCount text ≤ l) :
    (Outline.ofText tabs text).contextSentence l = .error (.outOfBounds l (lineCount text)) := by
  rw [Outline.contextSentence, Outline.enclosing, Outline.lineCount_ofText, if_pos h]
  rfl

theorem exists_contextSentence_ofText (tabs : Tabs) (h : l < lineCount text) :
    ∃ sentence, (Outline.ofText tabs text).contextSentence l = .ok sentence := by
  obtain ⟨root, _, _, henclosing⟩ := Outline.exists_enclosing_ofText tabs h
  rw [Outline.contextSentence_eq henclosing]
  exact exists_contextSentence (by simp) l

namespace Question

/-- The line zero is refused before the text is looked at. -/
theorem answer_zero (config : Config) (text : List Char) (hline : question.line? = some 0) :
    question.answer config text = .error (.notFromOne .line) := by
  cases question with
  | outline => cases hline
  | tokens => cases hline
  | _ =>
    obtain rfl := Option.some.inj hline
    rfl

/-- Any other line is looked up in the outline of the text, or in the lines of the text for something
that is reported about it. -/
theorem answer_cases (config : Config) (text : List Char) (hline : question.line? = some (l + 1))
    (hcolumn : question.column? ≠ some 0) :
    question.answer config text =
        ((Outline.ofText config.tabs text).contextSentence l).mapError .query ∨
      ∃ report : List Char → String, question.answer config text = (lineAt text l).map report := by
  have hmap (report : List Char → String) :
      (lineAt text l >>= fun content => .ok (report content)) = (lineAt text l).map report := by
    cases lineAt text l <;> rfl
  cases question with
  | context =>
    obtain rfl := Option.some.inj hline
    exact .inl rfl
  | cursor line column =>
    obtain rfl := Option.some.inj hline
    obtain ⟨column, rfl⟩ := Nat.exists_eq_succ_of_ne_zero fun h => hcolumn (congrArg some h)
    exact .inr ⟨_, hmap fun content =>
      (cursorContext content column config.contextWindow).getD (noContext l column)⟩
  | indentation =>
    obtain rfl := Option.some.inj hline
    exact .inr ⟨_, hmap (Report.indentation config.tabs l)⟩
  | leadingSpaces =>
    obtain rfl := Option.some.inj hline
    exact .inr ⟨_, hmap (Report.leadingSpaces config.countMethod l)⟩
  | outline => cases hline
  | tokens => cases hline

theorem answer_of_le (config : Config) (hline : question.line? = some (l + 1))
    (hcolumn : question.column? ≠ some 0) (hl : lineCount text ≤ l) :
    question.answer config text = .error (.query (.outOfBounds l (lineCount text))) := by
  rcases answer_cases config text hline hcolumn with h | ⟨report, h⟩
  · rw [h, contextSentence_of_le config.tabs hl]
    rfl
  · rw [h, lineAt_of_le hl]
    rfl

theorem exists_answer (config : Config) (hline : question.line? = some (l + 1))
    (hcolumn : question.column? ≠ some 0) (hl : l < lineCount text) :
    ∃ output, question.answer config text = .ok output := by
  rcases answer_cases config text hline hcolumn with h | ⟨report, h⟩
  · obtain ⟨sentence, hsentence⟩ := exists_contextSentence_ofText config.tabs hl
    refine ⟨sentence, ?_⟩
    rw [h, hsentence]
    rfl
  · obtain ⟨content, hcontent⟩ := exists_lineAt hl
    refine ⟨report content, ?_⟩
    rw [h, hcontent]
    rfl

end Question

end Questions

/-! ## Arguments about a line -/

/-- Some arguments come to a question about a line of a file, and not about a column zero, and a
configuration is loaded for them. -/
structure AsksAboutLine (files : Files) (path : String) (n : Nat) (arguments : List String)
    (request : Request) (config : Config) : Prop where
  request_eq : Invocation.ofArguments arguments = .ok (.request request)
  path_eq : request.path = path
  line_eq : request.question.line? = some n
  column_ne : request.question.column? ≠ some 0
  loads : Config.load (request.overrides.sources files) = .ok config

section Arguments

variable {files : Files} {path line column : String} {arguments : List String} {request : Request}
  {config : Config} {bytes : List UInt8} {text : List Char} {command : CommandName} {c n : Nat}

/-- What the arguments come to is told by the number of the line and how many lines there are. -/
theorem AsksAboutLine.run_cases (h : AsksAboutLine files path n arguments request config)
    (hfile : files path = .ok bytes) (htext : decodeStrict bytes = some text) :
    n = 0 ∧ run files arguments = .failed (.notFromOne .line) ∨
      lineCount text < n ∧
        run files arguments = .failed (.query (.outOfBounds (n - 1) (lineCount text))) ∨
      (1 ≤ n ∧ n ≤ lineCount text) ∧ ∃ output, run files arguments = .printed output := by
  have hrun : run files arguments = .ofAnswer (request.question.answer config text) := by
    rw [run, h.request_eq]
    dsimp only
    rw [Request.answer_eq h.loads (fileText_eq (h.path_eq ▸ hfile) htext)]
  rw [hrun]
  cases n with
  | zero =>
    rw [Question.answer_zero config text h.line_eq]
    exact .inl ⟨rfl, rfl⟩
  | succ l =>
    rcases Nat.lt_or_ge l (lineCount text) with hl | hl
    · obtain ⟨output, houtput⟩ := Question.exists_answer config h.line_eq h.column_ne hl
      rw [houtput]
      exact .inr (.inr ⟨⟨Nat.succ_pos l, hl⟩, output, rfl⟩)
    · rw [Question.answer_of_le config h.line_eq h.column_ne hl]
      exact .inr (.inl ⟨Nat.lt_succ_of_le hl, rfl⟩)

/-- Arguments for a command about a line: no settings, and last the path, which may be any behind two
hyphens. -/
def CommandName.lineArguments (command : CommandName) (path line column : String) : List String :=
  [command.name, "--line", line] ++ (if command = .cursor then ["--column", column] else []) ++
    ["--", path]

/-- What is read of them. -/
def CommandName.lineReading (command : CommandName) (path line column : String) : Reading :=
  ⟨some command, [], (if command = .cursor then [(.column, column)] else []) ++ [(.line, line)],
    [path], false⟩

namespace Reading

variable {reading : Reading}

theorem read_lineArguments (hcommand : .line ∈ command.own)
    (hline : ArgumentShape.ofText line = .plain) (hcolumn : ArgumentShape.ofText column = .plain) :
    start.read (command.lineArguments path line column) =
      .ok (command.lineReading path line column) := by
  have hname : ArgumentShape.ofText command.name = .plain := by cases command <;> rfl
  have htake : start.take command.name = .ok ⟨some command, [], [], [], false⟩ := by
    cases command <;> rfl
  have hoption : (allowed (some command)).find? (·.long == "line") = some .line := by
    revert hcommand
    cases command <;> decide
  rw [CommandName.lineArguments, CommandName.lineReading, List.append_assoc, List.cons_append,
    read_plain hname htake, List.cons_append, List.cons_append, List.nil_append,
    read_option rfl hoption rfl hline rfl]
  -- only the command for a cursor has another option before the path
  by_cases hcursor : command = .cursor
  · subst hcursor
    simp only [if_true, List.cons_append, List.nil_append]
    rw [read_option rfl rfl rfl hcolumn rfl, read, if_pos rfl]
    rfl
  · rw [if_neg hcursor, if_neg hcursor, List.nil_append, read, if_pos rfl]
    rfl

/-- A command that has a line, and for a cursor a column, asks about them. -/
theorem exists_question (hcommand : .line ∈ command.own)
    (hline : reading.required .line readNumber = .ok n)
    (hcolumn : command = .cursor → reading.required .column readNumber = .ok (c + 1)) :
    ∃ question : Question, reading.question command = .ok question ∧ question.line? = some n ∧
      question.column? ≠ some 0 := by
  cases command with
  | context =>
    refine ⟨.context n, ?_, rfl, by simp [Question.column?]⟩
    rw [question, hline]
    rfl
  | cursor =>
    refine ⟨.cursor n (c + 1), ?_, rfl, by simp [Question.column?]⟩
    rw [question, hline, hcolumn rfl]
    rfl
  | indent =>
    refine ⟨.indentation n, ?_, rfl, by simp [Question.column?]⟩
    rw [question, hline]
    rfl
  | leadingSpaces =>
    refine ⟨.leadingSpaces n, ?_, rfl, by simp [Question.column?]⟩
    rw [question, hline]
    rfl
  | tree => cases List.mem_singleton.mp hcommand
  | tokens => cases List.mem_singleton.mp hcommand

end Reading

/-- So there are arguments about any line for each of these commands. -/
theorem exists_asksAboutLine (files : Files) (path : String) (hcommand : .line ∈ command.own)
    (hline : readUnsigned line.toList = some n) (hcolumn : readUnsigned column.toList = some (c + 1)) :
    ∃ request config,
      AsksAboutLine files path n (command.lineArguments path line column) request config := by
  have hread : Reading.start.read (command.lineArguments path line column) = _ :=
    Reading.read_lineArguments hcommand (ArgumentShape.ofText_of_readUnsigned hline)
      (ArgumentShape.ofText_of_readUnsigned hcolumn)
  have hlineNumber : (command.lineReading path line column).required .line Reading.readNumber =
      .ok n := by
    apply Reading.required_eq _ hline
    cases command <;> rfl
  have hcolumnNumber (hcursor : command = .cursor) :
      (command.lineReading path line column).required .column Reading.readNumber =
        .ok (c + 1) := by
    subst hcursor
    exact Reading.required_eq rfl hcolumn
  have hoverrides : (command.lineReading path line column).overrides =
      .ok ⟨none, none, false, none, none⟩ := by
    cases command <;> rfl
  obtain ⟨question, hquestion, hn, hc⟩ :=
    Reading.exists_question hcommand hlineNumber hcolumnNumber
  refine ⟨⟨path, question, ⟨none, none, false, none, none⟩⟩,
    ⟨.number defaultWidth, false, 1, .index⟩, ?_, rfl, hn, hc, rfl⟩
  rw [Invocation.ofArguments, hread]
  exact Reading.invocation_eq rfl rfl hquestion hoverrides rfl

/-- **The commands about a line agree on which lines there are.** For any file that is text, all
arguments that ask about a line of it, with any settings that a configuration can be loaded with, are
answered alike. The line zero is refused because lines count from one, a line behind the last one is
out of bounds, and any other line has an answer, so there is one exactly if the line is there. Each of
the commands has such arguments, for any line and any column but zero. -/
theorem lineCommands_agree (hfile : files path = .ok bytes) (htext : decodeStrict bytes = some text)
    (n : Nat) :
    (∀ arguments request config, AsksAboutLine files path n arguments request config →
      ((∃ output, run files arguments = .printed output) ↔ 1 ≤ n ∧ n ≤ lineCount text) ∧
      (run files arguments = .failed (.notFromOne .line) ↔ n = 0) ∧
      (run files arguments = .failed (.query (.outOfBounds (n - 1) (lineCount text))) ↔
        lineCount text < n)) ∧
    ∀ command : CommandName, command ∈ [.context, .cursor, .indent, .leadingSpaces] →
      ∀ (line column : String) (c : Nat), readUnsigned line.toList = some n →
        readUnsigned column.toList = some (c + 1) → ∃ request config,
          AsksAboutLine files path n (command.lineArguments path line column) request config := by
  constructor
  · intro arguments request config h
    rcases h.run_cases hfile htext with ⟨rfl, hrun⟩ | ⟨hlt, hrun⟩ | ⟨hn, output, hrun⟩
    · simp [hrun]
    · have hpos : n ≠ 0 := by omega
      simp [hrun, hlt, hpos]
    · have hpos : n ≠ 0 := by omega
      simp [hrun, hn, hpos]
  · intro command hmem line column c hline hcolumn
    have hcommand : .line ∈ command.own := by
      revert hmem
      cases command <;> decide
    exact exists_asksAboutLine files path hcommand hline hcolumn

/-- The blank line at the end of a file, the number behind it with some settings, and zero. -/
theorem lineCommands_agree_blank_end :
    let files : Files := fun _ => .ok [97, 13, 10, 10]
    (∃ output, run files (CommandName.cursor.lineArguments "f.py" "2" "1") = .printed output) ∧
      run files ["--hard-tabs", "leading-spaces", "f.py", "-l3", "--method=arithmetic"] =
        .failed (.query (.outOfBounds 2 2)) ∧
      run files (CommandName.context.lineArguments "f.py" "0" "1") =
        .failed (.notFromOne .line) := by
  intro files
  have hfile : files "f.py" = .ok [97, 13, 10, 10] := rfl
  have htext : decodeStrict [97, 13, 10, 10] = some "a\r\n\n".toList := by decide +kernel
  have hcount : lineCount "a\r\n\n".toList = 2 := by decide +kernel
  obtain ⟨hsecond, hasked⟩ := lineCommands_agree hfile htext 2
  obtain ⟨hthird, _⟩ := lineCommands_agree hfile htext 3
  obtain ⟨hzero, hasks⟩ := lineCommands_agree hfile htext 0
  rw [hcount] at hsecond hthird hzero
  refine ⟨?_, ?_, ?_⟩
  · obtain ⟨_, _, h⟩ := hasked .cursor (by decide) "2" "1" 0 (by decide +kernel) (by decide +kernel)
    exact (hsecond _ _ _ h).1.mpr (by decide)
  · have hread : (Invocation.ofArguments
        ["--hard-tabs", "leading-spaces", "f.py", "-l3", "--method=arithmetic"]).toOption =
          some (.request ⟨"f.py", .leadingSpaces 3, ⟨none, none, true, none, some .arithmetic⟩⟩) := by
      decide +kernel
    have hrequest : Invocation.ofArguments
        ["--hard-tabs", "leading-spaces", "f.py", "-l3", "--method=arithmetic"] =
          .ok (.request ⟨"f.py", .leadingSpaces 3, ⟨none, none, true, none, some .arithmetic⟩⟩) := by
      generalize Invocation.ofArguments _ = invocation at hread
      cases invocation with
      | error => cases hread
      | ok => exact congrArg _ (Option.some.inj hread)
    have h : AsksAboutLine files "f.py" 3 _ _ ⟨.number defaultWidth, true, 1, .arithmetic⟩ :=
      ⟨hrequest, rfl, rfl, by decide, rfl⟩
    exact (hthird _ _ _ h).2.2.mpr (by decide)
  · obtain ⟨_, _, h⟩ := hasks .context (by decide) "0" "1" 0 (by decide +kernel) (by decide +kernel)
    exact (hzero _ _ _ h).2.1.mpr rfl

end Arguments

end Offside.Command
