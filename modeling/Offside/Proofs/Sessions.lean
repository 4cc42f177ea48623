import Mathlib.Data.List.Induction
import Offside.Session

/-!
# What a session holds

A session is followed through every history of operations. It has an outline exactly when it was
parsed after its text was given to it, and the outline is that of its present text; so a session
never answers from an outline of an earlier text (`run_start`).

Two facts about one operation carry this. It keeps the outline that of the text
(`Current.perform`), and it leaves an outline behind just when it is the parsing, or there was one
before and no new text is given (`isSome_outline_perform`). Histories are taken apart at their last
operation.
-/

namespace Offside

/-- A query on an outline never says that there is no outline. -/
theorem Outline.enclosing_ne_notParsed (outline : Outline) (line : Nat) :
    outline.enclosing line ≠ .error .notParsed := by
  unfold Outline.enclosing
  split
  · nofun
  · cases outline.root with
    | error fault => nofun
    | ok root =>
      show Except.mapError _ (outline.descend line _ root >>= _) ≠ _
      cases outline.descend line (outline.size + 1) root <;> nofun

namespace Session

variable {session : Session} {operation : Operation} {operations : List Operation}

/-! ## One operation -/

/-- The outline, if there is one, is that of the text. -/
def Current (session : Session) : Prop :=
  ∀ outline ∈ session.outline, outline = .ofText session.tabs session.text

theorem current_start : start.Current := by
  rintro outline ⟨⟩

theorem Current.perform (h : session.Current) (operation : Operation) :
    (session.perform operation).1.Current := by
  cases operation with
  | new | reset => nofun
  | parse =>
    rintro outline ⟨⟩
    rfl
  | enclosing | outline | intoOutline => exact h

theorem isSome_outline_perform (session : Session) (operation : Operation) :
    (session.perform operation).1.outline.isSome ↔
      operation = .parse ∨ operation.setsText = false ∧ session.outline.isSome := by
  cases operation <;> simp [Session.perform, ofText, reset, parse, Operation.setsText]

theorem perform_of_isQuery (session : Session) (h : operation.isQuery = true) :
    (session.perform operation).1 = session := by
  cases operation with
  | new | reset | parse => cases h
  | enclosing | outline | intoOutline => rfl

/-- The text that a session works on after an operation, and its convention. -/
def Operation.given (operation : Operation) (before : List Char × Tabs) : List Char × Tabs :=
  match operation with
  | .new text tabs | .reset text tabs => (text, tabs)
  | _ => before

theorem given_perform (session : Session) (operation : Operation) :
    ((session.perform operation).1.text, (session.perform operation).1.tabs) =
      operation.given (session.text, session.tabs) := by
  cases operation <;> rfl

/-! ## Histories -/

/-- The session was parsed, and no text was given to it since. -/
def ParsedSinceText (operations : List Operation) : Prop :=
  ∃ earlier later, operations = earlier ++ .parse :: later ∧
    ∀ operation ∈ later, operation.setsText = false

/-- The text that was given last, and its convention; before that, the empty text. -/
def lastGiven (operations : List Operation) : List Char × Tabs :=
  operations.foldl (fun before operation => operation.given before) ([], .default)

theorem run_concat (session : Session) (operations : List Operation) (operation : Operation) :
    session.run (operations ++ [operation]) = ((session.run operations).perform operation).1 := by
  rw [run, List.foldl_append]
  rfl

theorem lastGiven_concat (operations : List Operation) (operation : Operation) :
    lastGiven (operations ++ [operation]) = operation.given (lastGiven operations) := by
  rw [lastGiven, List.foldl_append]
  rfl

theorem parsedSinceText_concat : ParsedSinceText (operations ++ [operation]) ↔
    operation = .parse ∨ operation.setsText = false ∧ ParsedSinceText operations := by
  constructor
  · rintro ⟨earlier, later, heq, hlater⟩
    obtain rfl | ⟨later, last, rfl⟩ := later.eq_nil_or_concat
    · exact .inl (List.singleton_inj.mp (List.append_inj_right' heq rfl))
    · rw [List.concat_eq_append] at heq hlater
      rw [← List.cons_append, ← List.append_assoc] at heq
      obtain ⟨hfront, hlast⟩ := List.append_inj' heq rfl
      obtain rfl := List.singleton_inj.mp hlast
      obtain ⟨hlater, hset⟩ := List.forall_mem_append.mp hlater
      exact .inr ⟨hset operation (List.mem_singleton_self _), earlier, later, hfront, hlater⟩
  · rintro (rfl | ⟨hset, earlier, later, rfl, hlater⟩)
    · exact ⟨operations, [], rfl, nofun⟩
    · refine ⟨earlier, later ++ [operation], by simp, ?_⟩
      exact List.forall_mem_append.mpr ⟨hlater, List.forall_mem_singleton.mpr hset⟩

theorem Current.run (h : session.Current) (operations : List Operation) :
    (session.run operations).Current := by
  induction operations using List.reverseRecOn with
  | nil => exact h
  | append_singleton operations operation ih =>
    rw [run_concat]
    exact ih.perform operation

theorem isSome_outline_run (operations : List Operation) :
    (start.run operations).outline.isSome ↔ ParsedSinceText operations := by
  induction operations using List.reverseRecOn with
  | nil =>
    refine ⟨nofun, ?_⟩
    rintro ⟨earlier, later, heq, -⟩
    exact absurd heq.symm (List.append_ne_nil_of_right_ne_nil earlier (List.cons_ne_nil _ _))
  | append_singleton operations operation ih =>
    rw [run_concat, isSome_outline_perform, parsedSinceText_concat, ih]

theorem given_run (operations : List Operation) :
    ((start.run operations).text, (start.run operations).tabs) = lastGiven operations := by
  induction operations using List.reverseRecOn with
  | nil => rfl
  | append_singleton operations operation ih => rw [run_concat, given_perform, lastGiven_concat, ih]

/-! ## Every session -/

theorem enclosing_of_outline {outline : Outline} (h : session.outline = some outline) (line : Nat) :
    session.enclosing line = outline.enclosing line := by
  rw [enclosing, h]

theorem enclosing_eq_notParsed_iff (session : Session) (line : Nat) :
    session.enclosing line = .error .notParsed ↔ session.outline = none := by
  cases h : session.outline with
  | none => simp [enclosing, h]
  | some outline => simp [enclosing_of_outline h, outline.enclosing_ne_notParsed]

/-- The session is what a history of operations makes of a new one: its outline is that of the text
it holds, made since that text was given to it, and only questions that need an outline are refused
for want of one. -/
structure After (operations : List Operation) (session : Session) : Prop where
  given_eq : (session.text, session.tabs) = lastGiven operations
  isSome_outline_iff : session.outline.isSome ↔ ParsedSinceText operations
  outline_eq : ∀ outline ∈ session.outline, outline = .ofText session.tabs session.text ∧
    outline = .ofTokens (tokens session.tabs session.text) (lineCount session.text)
  parse_eq : (session.perform .parse).2 = .outline (some (.ofText session.tabs session.text))
  notParsed_iff : ∀ line, session.enclosing line = .error .notParsed ↔ session.outline = none
  enclosing_eq : ∀ outline ∈ session.outline, ∀ line,
    session.enclosing line = outline.enclosing line
  enclosing_answer : ∀ line,
    (session.perform (.enclosing line)).2 = .enclosing (session.enclosing line)
  outline_answer : ∀ operation, operation = .outline ∨ operation = .intoOutline →
    (session.perform operation).2 = .outline session.outline
  query_eq : ∀ operation, operation.isQuery = true → (session.perform operation).1 = session

/-- Whatever is done with a session, it has an outline exactly when it was parsed since its text was
given to it, and then the outline of that text; and no question changes it. -/
theorem run_start (operations : List Operation) : After operations (start.run operations) where
  given_eq := given_run operations
  isSome_outline_iff := isSome_outline_run operations
  outline_eq := by
    have hcurrent : (start.run operations).Current := current_start.run operations
    intro outline houtline
    exact ⟨hcurrent outline houtline, hcurrent outline houtline⟩
  parse_eq := rfl
  notParsed_iff := enclosing_eq_notParsed_iff _
  enclosing_eq := fun _ houtline line => enclosing_of_outline houtline line
  enclosing_answer := fun _ => rfl
  outline_answer := by
    rintro _ (rfl | rfl) <;> rfl
  query_eq := fun _ h => perform_of_isQuery _ h

/-- A question before the first parsing, a new text under an old outline, and a line out of range. -/
example : start.run [.enclosing 0, .parse, .reset "if a:\n  b".toList (.soft 2), .parse, .enclosing 9]
    = ⟨"if a:\n  b".toList, .soft 2, some (.ofText (.soft 2) "if a:\n  b".toList)⟩ := rfl

end Session

end Offside
