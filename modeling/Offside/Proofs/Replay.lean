import Mathlib.Tactic.Ring
import Offside.Proofs.Lines

/-!
# The levels, read back from the stream

A stream of tokens spells out the levels of the lines it was made from (`Spells`). A reader who
counts, one up for each `INDENT` and one down for each `DEDENT`, stands at the level of every line
that is not blank when its token comes, never below zero, and at zero when the `EOF` comes
(`replay`). The counter is an integer here, so going below zero would show.

`LevelTracker.spells_run` says that a tracker at the start makes such a stream from any lines. A
tracker is at the start again after each document, so the streams of several documents do not depend
on each other (`LevelTracker.runAll_eq_map`).
-/

namespace Offside

/-! ## Counting -/

namespace Token

/-- What a token adds to the level. -/
def change (token : Token) : Int :=
  match token.symbol with
  | .indent => 1
  | .dedent => -1
  | _ => 0

/-- Whether a token marks a change of level. -/
def isMarker (token : Token) : Bool := token.symbol = .indent || token.symbol = .dedent

/-- Whether a token stands for a line, blank or not. -/
def isLine (token : Token) : Bool := !token.isMarker && token.symbol ≠ .eof

end Token

/-- The tokens of a stream, each with the level that a counter has reached when it comes. -/
def replay (level : Int) : List Token → List (Token × Int)
  | [] => []
  | token :: rest => (token, level) :: replay (level + token.change) rest

/-- What all tokens of a stream add to the level. -/
def net : List Token → Int
  | [] => 0
  | token :: rest => token.change + net rest

/-- Behind each marker stand copies of it, and then a token on its line that is neither a marker nor
a blank line. If that is the `EOF`, the marker is a `DEDENT`. -/
def MarkersLead (tokens : List Token) : Prop :=
  ∀ front marker rest, tokens = front ++ marker :: rest → marker.isMarker = true →
    ∃ count next after, rest = List.replicate count marker ++ next :: after ∧
      next.isMarker = false ∧ next.symbol ≠ .empty ∧
      marker = .structural marker.symbol next.line ∧ (next.symbol = .eof → marker.symbol = .dedent)

/-- The stream spells out the levels of the lines of a document. -/
structure Spells (tokens : List Token) (lines : List LineToken) (lineCount : Nat) : Prop where
  /-- One `EOF` ends it, behind the last line. -/
  ends : ∃ front, tokens = front ++ [.structural .eof lineCount] ∧
    ∀ token ∈ front, token.symbol ≠ .eof
  /-- Without what was added, it is the tokens of the lines. -/
  keeps : tokens.filter Token.isLine = lines.map LineToken.token
  /-- Between the tokens of two lines there are markers of one kind only, on the line they lead to.
  -/
  leads : MarkersLead tokens
  /-- The level never falls below zero. -/
  nonneg : ∀ reached ∈ replay 0 tokens, 0 ≤ reached.2
  /-- A line that is not blank is reached at its level. -/
  levels : (replay 0 tokens).filter (fun reached => reached.1.isLine && reached.1.symbol ≠ .empty) =
    (lines.filter (·.token.symbol ≠ .empty)).map fun line => (line.token, (line.level : Int))
  /-- The `EOF` is reached at level zero. -/
  closed : (replay 0 tokens).getLast? = some (.structural .eof lineCount, 0)

section Counting

variable {tokens : List Token} {token : Token} {level : Int}

@[simp] theorem replay_nil (level : Int) : replay level [] = [] := rfl

@[simp] theorem replay_cons (level : Int) (token : Token) (rest : List Token) :
    replay level (token :: rest) = (token, level) :: replay (level + token.change) rest := rfl

@[simp] theorem net_nil : net [] = 0 := rfl

@[simp] theorem net_cons (token : Token) (rest : List Token) :
    net (token :: rest) = token.change + net rest := rfl

@[simp] theorem net_append (front rest : List Token) :
    net (front ++ rest) = net front + net rest := by
  induction front with
  | nil => simp
  | cons token front ih => simp [ih, Int.add_assoc]

theorem replay_append (level : Int) (front rest : List Token) :
    replay level (front ++ rest) = replay level front ++ replay (level + net front) rest := by
  induction front generalizing level with
  | nil => simp
  | cons token front ih => simp [ih, Int.add_assoc]

@[simp] theorem net_replicate (count : Nat) (token : Token) :
    net (List.replicate count token) = count * token.change := by
  induction count with
  | zero => simp
  | succ count ih =>
    rw [List.replicate_succ, net_cons, ih]
    push_cast
    ring

theorem fst_mem_of_mem_replay {reached : Token × Int} (h : reached ∈ replay level tokens) :
    reached.1 ∈ tokens := by
  induction tokens generalizing level with
  | nil => cases h
  | cons token rest ih =>
    rcases List.mem_cons.mp h with rfl | h
    · exact List.mem_cons_self
    · exact List.mem_cons_of_mem token (ih h)

theorem mem_replay_replicate {count : Nat} {reached : Token × Int}
    (h : reached ∈ replay level (List.replicate count token)) :
    reached.1 = token ∧ ∃ i : Nat, i < count ∧ reached.2 = level + i * token.change := by
  induction count generalizing level with
  | zero => simp at h
  | succ count ih =>
    rw [List.replicate_succ, replay_cons] at h
    rcases List.mem_cons.mp h with rfl | h
    · exact ⟨rfl, 0, Nat.succ_pos count, by simp⟩
    · obtain ⟨htoken, i, hi, hlevel⟩ := ih h
      refine ⟨htoken, i + 1, Nat.succ_lt_succ hi, ?_⟩
      rw [hlevel]
      push_cast
      ring

/-- A stream that adds nothing to the level has as many indents as dedents. -/
theorem net_eq_counts (tokens : List Token) : net tokens =
    (tokens.countP (·.symbol = .indent) : Int) - tokens.countP (·.symbol = .dedent) := by
  induction tokens with
  | nil => rfl
  | cons token rest ih =>
    rw [net_cons, ih, List.countP_cons, List.countP_cons, Token.change]
    cases hs : token.symbol <;> simp <;> omega

theorem Token.change_of_marker (h : token.isMarker = true) :
    token.change = 1 ∨ token.change = -1 := by
  cases hs : token.symbol <;> simp_all [Token.isMarker, Token.change]

theorem Token.change_of_not_marker (h : token.isMarker = false) : token.change = 0 := by
  cases hs : token.symbol <;> simp_all [Token.isMarker, Token.change]

end Counting

section Leading

variable {tokens : List Token} {token marker next : Token}

theorem markersLead_cons (h : MarkersLead tokens) (htoken : token.isMarker = false) :
    MarkersLead (token :: tokens) := by
  intro front marker rest heq hmarker
  rcases List.cons_eq_append_iff.mp heq with ⟨rfl, hcons⟩ | ⟨front, rfl, hrest⟩
  · obtain ⟨rfl, -⟩ := List.cons.inj hcons
    rw [htoken] at hmarker
    cases hmarker
  · exact h front marker rest hrest hmarker

/-- Copies of a marker may lead to a token on its line. -/
theorem markersLead_replicate (h : MarkersLead (next :: tokens)) (count : Nat)
    (hnext : next.isMarker = false) (hempty : next.symbol ≠ .empty)
    (hline : marker = .structural marker.symbol next.line)
    (heof : next.symbol = .eof → marker.symbol = .dedent) :
    MarkersLead (List.replicate count marker ++ next :: tokens) := by
  induction count with
  | zero => exact h
  | succ count ih =>
    intro front other rest heq hother
    rw [List.replicate_succ, List.cons_append] at heq
    rcases List.cons_eq_append_iff.mp heq with ⟨rfl, hcons⟩ | ⟨front, rfl, hrest⟩
    · obtain ⟨rfl, rfl⟩ := List.cons.inj hcons
      exact ⟨count, next, tokens, rfl, hnext, hempty, hline, heof⟩
    · exact ih front other rest hrest hother

end Leading

/-! ## The stream of a tracker -/

theorem LineToken.OfLine.isMarker_eq {line : LineToken} (h : line.OfLine) :
    line.token.isMarker = false := by
  obtain ⟨hindent, hdedent, _⟩ := h
  simp [Token.isMarker, hindent, hdedent]

theorem LineToken.OfLine.isLine_eq {line : LineToken} (h : line.OfLine) :
    line.token.isLine = true := by
  have heof := h.2.2
  simp [Token.isLine, h.isMarker_eq, heof]

namespace LevelTracker

variable {tracker : LevelTracker} {line : LineToken} {lines : List LineToken} {lineCount : Nat}

theorem run_nil (tracker : LevelTracker) (lineCount : Nat) : (tracker.run [] lineCount).1 =
    tracker.changes 0 lineCount ++ [.structural .eof lineCount] := rfl

theorem run_cons_empty (h : line.token.symbol = .empty) :
    (tracker.run (line :: lines) lineCount).1 = line.token :: (tracker.run lines lineCount).1 := by
  simp [run, steps_cons_empty h]

theorem run_cons_line (h : line.token.symbol ≠ .empty) :
    (tracker.run (line :: lines) lineCount).1 = tracker.changes line.level line.token.line ++
      line.token :: (run ⟨line.level⟩ lines lineCount).1 := by
  simp [run, steps_cons_line h]

/-- All structural tokens between two levels are of one kind. -/
theorem changes_eq_replicate (tracker : LevelTracker) (level line : Nat) :
    ∃ count marker, tracker.changes level line = List.replicate count marker ∧
      marker.isMarker = true ∧ marker = .structural marker.symbol line ∧
      (level : Int) = tracker.level + count * marker.change ∧
      (level = 0 → marker.symbol = .dedent) := by
  by_cases h : tracker.level < level
  · refine ⟨level - tracker.level, .structural .indent line, ?_, rfl, rfl, ?_, ?_⟩
    · rw [changes, Nat.sub_eq_zero_of_le (Nat.le_of_lt h)]
      exact List.append_nil _
    · simp [Token.change, Token.structural]
      omega
    · omega
  · refine ⟨tracker.level - level, .structural .dedent line, ?_, rfl, rfl, ?_, fun _ => rfl⟩
    · rw [changes, Nat.sub_eq_zero_of_le (Nat.le_of_not_lt h)]
      rfl
    · simp [Token.change, Token.structural]
      omega

theorem net_changes (tracker : LevelTracker) (level line : Nat) :
    net (tracker.changes level line) = level - tracker.level := by
  obtain ⟨count, marker, hchanges, _, _, hlevel, _⟩ := tracker.changes_eq_replicate level line
  rw [hchanges, net_replicate]
  omega

theorem mem_changes {level number : Nat} {token : Token}
    (h : token ∈ tracker.changes level number) : token.isMarker = true := by
  obtain ⟨count, marker, hchanges, hmarker, _⟩ := tracker.changes_eq_replicate level number
  rw [hchanges] at h
  rw [List.eq_of_mem_replicate h]
  exact hmarker

/-- The tokens between two levels stand at the start of the line that they lead to. -/
theorem eq_structural_of_mem_changes {level number : Nat} {token : Token}
    (h : token ∈ tracker.changes level number) : token = .structural token.symbol number := by
  obtain ⟨count, marker, hchanges, _, hmarker, _⟩ := tracker.changes_eq_replicate level number
  rw [hchanges] at h
  rw [List.eq_of_mem_replicate h]
  exact hmarker

theorem filter_isLine_changes (tracker : LevelTracker) (level line : Nat) :
    (tracker.changes level line).filter Token.isLine = [] := by
  rw [List.filter_eq_nil_iff]
  intro token htoken
  simp [Token.isLine, mem_changes htoken]

/-- Counting the markers between two levels leads from the one to the other. -/
theorem replay_changes (tracker : LevelTracker) (level line : Nat) (rest : List Token) :
    replay tracker.level (tracker.changes level line ++ rest) =
      replay tracker.level (tracker.changes level line) ++ replay level rest := by
  rw [replay_append, net_changes]
  congr 2
  omega

/-- On the way, the counter stays between the two levels. -/
theorem replay_changes_nonneg {level number : Nat} {reached : Token × Int}
    (h : reached ∈ replay tracker.level (tracker.changes level number)) : 0 ≤ reached.2 := by
  obtain ⟨count, marker, hchanges, hmarker, _, hlevel, _⟩ :=
    tracker.changes_eq_replicate level number
  rw [hchanges] at h
  obtain ⟨_, i, hi, hreached⟩ := mem_replay_replicate h
  rw [hreached]
  rcases Token.change_of_marker hmarker with hchange | hchange
  · rw [hchange]
    omega
  · rw [hchange] at hlevel ⊢
    omega

theorem filter_replay_changes (tracker : LevelTracker) (level line : Nat) :
    (replay tracker.level (tracker.changes level line)).filter
      (fun reached => reached.1.isLine && reached.1.symbol ≠ .empty) = [] := by
  rw [List.filter_eq_nil_iff]
  intro reached hreached
  simp [Token.isLine, mem_changes (fst_mem_of_mem_replay hreached)]

/-! ## One field at a time -/

/-- What stands in the stream of some lines is one of their tokens or leads to another level. -/
theorem mem_steps {token : Token} (h : token ∈ (tracker.steps lines).1) :
    (∃ line ∈ lines, token = line.token) ∨
      token.isMarker = true ∧ token = .structural token.symbol token.line := by
  induction lines generalizing tracker with
  | nil => cases h
  | cons line lines ih =>
    have hlater {tracker : LevelTracker} (h : token ∈ (tracker.steps lines).1) :
        (∃ other ∈ line :: lines, token = other.token) ∨
          token.isMarker = true ∧ token = .structural token.symbol token.line := by
      apply (ih h).imp_left
      intro ⟨other, hother, htoken⟩
      exact ⟨other, List.mem_cons_of_mem line hother, htoken⟩
    by_cases hempty : line.token.symbol = .empty
    · rw [steps_cons_empty hempty] at h
      rcases List.mem_cons.mp h with rfl | h
      · exact .inl ⟨line, List.mem_cons_self, rfl⟩
      · exact hlater h
    · rw [steps_cons_line hempty] at h
      rcases List.mem_append.mp h with h | h
      · have hstructural := eq_structural_of_mem_changes h
        exact .inr ⟨mem_changes h, by rw [hstructural]; rfl⟩
      · rcases List.mem_cons.mp h with rfl | h
        · exact .inl ⟨line, List.mem_cons_self, rfl⟩
        · exact hlater h

theorem symbol_of_mem_steps {token : Token} (hlines : ∀ line ∈ lines, line.OfLine)
    (h : token ∈ (tracker.steps lines).1) : token.symbol ≠ .eof := by
  rcases mem_steps h with ⟨line, hline, rfl⟩ | ⟨hmarker, _⟩
  · exact (hlines line hline).2.2
  · intro heof
    simp [Token.isMarker, heof] at hmarker

/-- The stream ends with the only `EOF` in it. -/
theorem run_ends (tracker : LevelTracker) (lineCount : Nat) (hlines : ∀ line ∈ lines, line.OfLine) :
    ∃ front, (tracker.run lines lineCount).1 = front ++ [.structural .eof lineCount] ∧
      ∀ token ∈ front, token.symbol ≠ .eof := by
  refine ⟨(tracker.steps lines).1 ++ (tracker.steps lines).2.changes 0 lineCount, ?_, ?_⟩
  · simp [run, finish]
  · intro token htoken
    rcases List.mem_append.mp htoken with h | h
    · exact symbol_of_mem_steps hlines h
    · intro heof
      have hmarker := mem_changes h
      simp [Token.isMarker, heof] at hmarker

/-- What the tracker adds can be taken out again. -/
theorem filter_isLine_run (tracker : LevelTracker) (lineCount : Nat)
    (hlines : ∀ line ∈ lines, line.OfLine) :
    (tracker.run lines lineCount).1.filter Token.isLine = lines.map LineToken.token := by
  induction lines generalizing tracker with
  | nil =>
    rw [run_nil, List.filter_append, filter_isLine_changes]
    rfl
  | cons line lines ih =>
    obtain ⟨hline, hlines⟩ := List.forall_mem_cons.mp hlines
    by_cases hempty : line.token.symbol = .empty
    · rw [run_cons_empty hempty, List.filter_cons_of_pos hline.isLine_eq, ih tracker hlines]
      rfl
    · rw [run_cons_line hempty, List.filter_append, filter_isLine_changes,
        List.filter_cons_of_pos hline.isLine_eq, ih ⟨line.level⟩ hlines]
      rfl

theorem markersLead_run (tracker : LevelTracker) (lineCount : Nat)
    (hlines : ∀ line ∈ lines, line.OfLine) :
    MarkersLead (tracker.run lines lineCount).1 := by
  induction lines generalizing tracker with
  | nil =>
    obtain ⟨count, marker, hchanges, _, hline, _, hzero⟩ := tracker.changes_eq_replicate 0 lineCount
    have hend : MarkersLead [.structural .eof lineCount] :=
      markersLead_cons (fun front marker rest h => by simp at h) rfl
    rw [run_nil, hchanges]
    exact markersLead_replicate hend count rfl nofun hline fun _ => hzero rfl
  | cons line lines ih =>
    obtain ⟨hline, hlines⟩ := List.forall_mem_cons.mp hlines
    by_cases hempty : line.token.symbol = .empty
    · rw [run_cons_empty hempty]
      exact markersLead_cons (ih tracker hlines) hline.isMarker_eq
    · obtain ⟨count, marker, hchanges, _, hmarker, _⟩ :=
        tracker.changes_eq_replicate line.level line.token.line
      have hrest := markersLead_cons (ih ⟨line.level⟩ hlines) hline.isMarker_eq
      rw [run_cons_line hempty, hchanges]
      exact markersLead_replicate hrest count hline.isMarker_eq hempty hmarker
        fun heof => absurd heof hline.2.2

theorem replay_run_nonneg (tracker : LevelTracker) (lineCount : Nat)
    (hlines : ∀ line ∈ lines, line.OfLine) :
    ∀ reached ∈ replay tracker.level (tracker.run lines lineCount).1, 0 ≤ reached.2 := by
  induction lines generalizing tracker with
  | nil =>
    intro reached h
    rw [run_nil, replay_changes] at h
    rcases List.mem_append.mp h with h | h
    · exact replay_changes_nonneg h
    · simp at h
      simp [h]
  | cons line lines ih =>
    intro reached h
    obtain ⟨hline, hlines⟩ := List.forall_mem_cons.mp hlines
    have hchange := Token.change_of_not_marker hline.isMarker_eq
    by_cases hempty : line.token.symbol = .empty
    · rw [run_cons_empty hempty, replay_cons, hchange, Int.add_zero] at h
      rcases List.mem_cons.mp h with rfl | h
      · exact Int.natCast_nonneg tracker.level
      · exact ih tracker hlines reached h
    · rw [run_cons_line hempty, replay_changes, replay_cons, hchange, Int.add_zero] at h
      rcases List.mem_append.mp h with h | h
      · exact replay_changes_nonneg h
      · rcases List.mem_cons.mp h with rfl | h
        · exact Int.natCast_nonneg line.level
        · exact ih ⟨line.level⟩ hlines reached h

/-- Every line that is not blank is reached at its own level. -/
theorem filter_replay_run (tracker : LevelTracker) (lineCount : Nat)
    (hlines : ∀ line ∈ lines, line.OfLine) :
    (replay tracker.level (tracker.run lines lineCount).1).filter
        (fun reached => reached.1.isLine && reached.1.symbol ≠ .empty) =
      (lines.filter (·.token.symbol ≠ .empty)).map fun line =>
        (line.token, (line.level : Int)) := by
  induction lines generalizing tracker with
  | nil =>
    rw [run_nil, replay_changes, List.filter_append, filter_replay_changes]
    rfl
  | cons line lines ih =>
    obtain ⟨hline, hlines⟩ := List.forall_mem_cons.mp hlines
    have hchange := Token.change_of_not_marker hline.isMarker_eq
    by_cases hempty : line.token.symbol = .empty
    · rw [run_cons_empty hempty, replay_cons, hchange, Int.add_zero,
        List.filter_cons_of_neg (by simp [hempty]), ih tracker hlines,
        List.filter_cons_of_neg (by simp [hempty])]
    · rw [run_cons_line hempty, replay_changes, replay_cons, hchange, Int.add_zero,
        List.filter_append, filter_replay_changes, List.nil_append,
        List.filter_cons_of_pos (by simp [hempty, hline.isLine_eq]), ih ⟨line.level⟩ hlines,
        List.filter_cons_of_pos (by simp [hempty])]
      rfl

theorem net_run (tracker : LevelTracker) (lineCount : Nat) (hlines : ∀ line ∈ lines, line.OfLine) :
    net (tracker.run lines lineCount).1 = -tracker.level := by
  induction lines generalizing tracker with
  | nil =>
    rw [run_nil, net_append, net_changes]
    simp [Token.change, Token.structural]
  | cons line lines ih =>
    obtain ⟨hline, hlines⟩ := List.forall_mem_cons.mp hlines
    have hchange := Token.change_of_not_marker hline.isMarker_eq
    by_cases hempty : line.token.symbol = .empty
    · rw [run_cons_empty hempty, net_cons, hchange, ih tracker hlines, Int.zero_add]
    · rw [run_cons_line hempty, net_append, net_changes, net_cons, hchange, ih ⟨line.level⟩ hlines]
      show (line.level : Int) - tracker.level + (0 + -(line.level : Int)) = _
      omega

/-- The `EOF` is reached at level zero. -/
theorem getLast?_replay_run (tracker : LevelTracker) (lineCount : Nat)
    (hlines : ∀ line ∈ lines, line.OfLine) :
    (replay tracker.level (tracker.run lines lineCount).1).getLast? =
      some (.structural .eof lineCount, 0) := by
  obtain ⟨front, hfront, _⟩ := tracker.run_ends lineCount hlines
  have hnet := tracker.net_run lineCount hlines
  rw [hfront, net_append] at hnet
  have hzero : (tracker.level : Int) + net front = 0 := by
    simp [Token.change, Token.structural] at hnet
    omega
  rw [hfront, replay_append, hzero, List.getLast?_append]
  rfl

/-- The stream of a tracker at the start spells out the levels of the lines. -/
theorem spells_run (lineCount : Nat) (hlines : ∀ line ∈ lines, line.OfLine) :
    Spells (start.run lines lineCount).1 lines lineCount where
  ends := start.run_ends lineCount hlines
  keeps := start.filter_isLine_run lineCount hlines
  leads := start.markersLead_run lineCount hlines
  nonneg := start.replay_run_nonneg lineCount hlines
  levels := start.filter_replay_run lineCount hlines
  closed := start.getLast?_replay_run lineCount hlines

/-- Each of several documents gets the stream that it gets alone. -/
theorem runAll_eq_map (documents : List (List LineToken × Nat)) :
    start.runAll documents = documents.map fun document => (start.run document.1 document.2).1 := by
  induction documents with
  | nil => rfl
  | cons document documents ih =>
    obtain ⟨lines, lineCount⟩ := document
    rw [List.map_cons, ← ih]
    rfl

end LevelTracker

/-! ## The stream of a text -/

/-- Each line has one token of its own in the stream, and the tokens come in the order of the lines.
-/
theorem map_line_tokens (tabs : Tabs) (text : List Char) :
    ((tokens tabs text).filter Token.isLine).map Token.line = List.range (lineCount text) := by
  have hlines : ∀ line ∈ lineTokens tabs text, line.OfLine := fun _ h => ofLine_of_mem_lineTokens h
  rw [tokens, LevelTracker.filter_isLine_run _ _ hlines, lineTokens_eq, List.map_map, List.map_map]
  exact (List.map_congr_left fun i _ => lineToken_line tabs i _).trans (List.map_id _)

theorem count_indents_tokens (tabs : Tabs) (text : List Char) :
    (tokens tabs text).countP (·.symbol = .indent) =
      (tokens tabs text).countP (·.symbol = .dedent) := by
  have hlines : ∀ line ∈ lineTokens tabs text, line.OfLine := fun _ h => ofLine_of_mem_lineTokens h
  have hnet := LevelTracker.start.net_run (lineCount text) hlines
  rw [net_eq_counts] at hnet
  change _ = -((0 : Nat) : Int) at hnet
  change List.countP _ (LevelTracker.start.run _ _).1 = List.countP _ (LevelTracker.start.run _ _).1
  omega

namespace LevelTracker

/-- The stream is a faithful encoding of the levels. Whatever documents a tracker meets one after
the other, each gets the stream that it gets alone, and that stream spells out the levels of its
lines. So the stream of a text has one token for each line, in order, and as many indents as
dedents. -/
theorem runAll_spells :
    (∀ documents : List (List LineToken × Nat),
      (∀ document ∈ documents, ∀ line ∈ document.1, line.OfLine) →
        start.runAll documents =
            documents.map (fun document => (start.run document.1 document.2).1) ∧
          ∀ document ∈ documents,
            Spells (start.run document.1 document.2).1 document.1 document.2) ∧
    ∀ (tabs : Tabs) (text : List Char),
      ((tokens tabs text).filter Token.isLine).map Token.line = List.range (lineCount text) ∧
        (tokens tabs text).countP (·.symbol = .indent) =
          (tokens tabs text).countP (·.symbol = .dedent) := by
  refine ⟨fun documents hlines => ⟨runAll_eq_map documents, fun document hdocument => ?_⟩,
    fun tabs text => ⟨map_line_tokens tabs text, count_indents_tokens tabs text⟩⟩
  exact spells_run document.2 (hlines document hdocument)

/-- A document that starts indented, has a blank line with a level and skips levels both ways, and
an empty one after it. -/
theorem runAll_spells_indented_start :
    let lines : List LineToken := [⟨⟨.block .ifBranch, some "x", 0, 8⟩, 2⟩,
      ⟨.structural .empty 1, 7⟩, ⟨⟨.statement, none, 2, 4⟩, 1⟩, ⟨⟨.statement, none, 3, 12⟩, 3⟩]
    start.runAll [(lines, 4), ([], 0)] = [(start.run lines 4).1, [.structural .eof 0]] ∧
      Spells (start.run lines 4).1 lines 4 := by
  intro lines
  have hlines : ∀ document ∈ [(lines, 4), ([], 0)], ∀ line ∈ document.1, line.OfLine := by
    simp [lines, LineToken.OfLine, Token.structural]
  obtain ⟨hrun, hspells⟩ := runAll_spells.1 [(lines, 4), ([], 0)] hlines
  exact ⟨hrun, hspells (lines, 4) List.mem_cons_self⟩

end LevelTracker

end Offside
