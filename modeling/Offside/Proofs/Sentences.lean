import Offside.Proofs.Extension

/-!
# The sentence about a line

What the sentence about a line of a text says (`Outline.contextSentence_ofText`): the number of the
line, then the block that the line itself opens, if it opens one, then each block of a line above
that it is in, innermost first, and last the document. Nothing of the outline is left in that: the
blocks are read off the layout of the text, and their words off their lines.

The sentence is made from the nodes around the line, of which the first has a phrase of its own if
its token stands on the line. The tokens of these nodes are those of the lines around the line
(`Outline.map_token_blocksAt`), innermost first, and only the innermost of them can be the line
itself. So the first phrase differs from the others exactly if the line opens a block.
-/

namespace Offside

open Offside.Text

/-! ## Words for blocks -/

/-- The words for what a line opens: the name of the block, and its text if it has one. -/
def LineKind.words : LineKind → String
  | statement => ""
  | opens kind none => kind.name
  | opens kind (some text) => kind.name ++ " " ++ text

/-- The words for the block that a line of a text opens. -/
def blockWords (text : List Char) (j : Nat) : String := (LineKind.ofLine (textLine text j)).words

section Phrases

variable {tabs : Tabs} {text : List Char} {node : Node} {path : List Node} {j l : Nat}

/-- The token of a line that opens a block is described by the words for the block. -/
theorem describe_lineToken (tabs : Tabs) (hfilled : (Layout.ofText tabs text).filled j)
    (hopens : (Layout.ofText tabs text).opens j) :
    (lineToken tabs j (textLine text j)).token.isStructural = false ∧
      (lineToken tabs j (textLine text j)).token.describe = blockWords text j := by
  have hblank : allBlank (textLine text j) = false := (Bool.not_eq_true' _).mp hfilled
  have hblock : (LineKind.ofLine (textLine text j)).symbol.opensBlock = true := hopens
  refine ⟨lineToken_not_structural tabs j hblank, ?_⟩
  rw [lineToken_of_filled tabs j hblank, blockWords]
  cases hkind : LineKind.ofLine (textLine text j) with
  | statement =>
    rw [hkind] at hblock
    cases hblock
  | opens kind attr => cases attr <;> rfl

/-- A node whose token stands on another line, or that has none, is described alike wherever it
stands. -/
theorem Node.firstPhrase_eq_phrase (h : ∀ token ∈ node.token, token.line ≠ l) :
    node.firstPhrase l = node.phrase := by
  unfold firstPhrase phrase
  cases htoken : node.token with
  | none => rfl
  | some token =>
    have hline : token.line ≠ l := h token htoken
    simp [hline]

theorem contextSentence_eq_join (hpath : path ≠ [])
    (hfirst : ∀ first ∈ path.head?, first.firstPhrase l = first.phrase) :
    contextSentence path l =
      .ok (Report.lineNumber l ++ String.join (path.map Node.phrase)) := by
  cases path with
  | nil => exact absurd rfl hpath
  | cons first rest =>
    rw [contextSentence, hfirst first rfl, List.map_cons, String.join_cons, String.append_assoc]

end Phrases

namespace Outline

section Text

variable {tabs : Tabs} {text : List Char} {node : Node} {l : Nat}

/-- A block that contains a line has the token of the line that opens it. -/
theorem token_of_mem_blocksAt (hnode : node ∈ (ofText tabs text).blocksAt l) :
    node.token = node.startLine.map fun j => (lineToken tabs j (textLine text j)).token := by
  obtain ⟨hmem, hencloses⟩ := List.mem_filter.mp hnode
  obtain ⟨p, hp⟩ := mem_nodes.mp hmem
  rcases cases_ofText hp with ⟨_, hlabel⟩ | ⟨k, i, rfl, hi, h⟩
  · have hblock := (encloses_iff.mp hencloses).1
    simp [Node.isBlock, hlabel] at hblock
  · have hfilled := (mem_filledLines.mp (List.mem_of_getElem? hi)).2
    rw [Node.startLine, h.token, Option.map_some, Option.map_some,
      lineToken_of_filled tabs i hfilled]

theorem map_token_blocksAt (tabs : Tabs) (hl : l < Offside.lineCount text) :
    ((ofText tabs text).blocksAt l).map Node.token = ((Layout.ofText tabs text).around l).map
      fun j => some (lineToken tabs j (textLine text j)).token :=
  calc ((ofText tabs text).blocksAt l).map Node.token
      = (((ofText tabs text).blocksAt l).map Node.startLine).map
          (Option.map fun j => (lineToken tabs j (textLine text j)).token) := by
        rw [List.map_map]
        exact List.map_congr_left fun _ hnode => token_of_mem_blocksAt hnode
    _ = _ := by
        rw [map_startLine_blocksAt tabs hl, List.map_map]
        rfl

theorem isRoot_of_mem_blocksAt (hnode : node ∈ (ofText tabs text).blocksAt l) :
    node.isRoot = false := by
  have hblock := (encloses_iff.mp (List.mem_filter.mp hnode).2).1
  cases hlabel : node.label <;> simp_all [Node.isBlock, Node.isRoot]

/-- A line is inside the blocks of the lines around it. -/
theorem map_phrase_blocksAt (tabs : Tabs) (hl : l < Offside.lineCount text) :
    ((ofText tabs text).blocksAt l).map Node.phrase =
      ((Layout.ofText tabs text).around l).map fun j => " inside " ++ blockWords text j := by
  have hphrase : ∀ node ∈ (ofText tabs text).blocksAt l,
      node.phrase = (node.token.map insidePhrase).getD "" := by
    intro node hnode
    rw [Node.phrase, isRoot_of_mem_blocksAt hnode]
    rfl
  have htokens := congrArg (List.map fun token => (token.map insidePhrase).getD "")
    (map_token_blocksAt tabs hl)
  rw [List.map_map, List.map_map] at htokens
  rw [List.map_congr_left hphrase]
  refine htokens.trans (List.map_congr_left ?_)
  intro j hj
  have hcovers := Layout.mem_around.mp hj
  obtain ⟨hnot, hwords⟩ := describe_lineToken tabs hcovers.filled hcovers.opens
  show insidePhrase (lineToken tabs j (textLine text j)).token = _
  rw [insidePhrase, Token.isStructural, ← Token.isStructural, hnot, hwords]
  rfl

theorem exists_enclosing_ofText (tabs : Tabs) (hl : l < Offside.lineCount text) :
    ∃ root : Node, root.token = none ∧ root.phrase = rootPhrase ∧
      (ofText tabs text).enclosing l = .ok (((ofText tabs text).blocksAt l).reverse ++ [root]) := by
  have hroot := (lists_ofText tabs text).root
  have henclosing := (sound_ofText tabs text).enclosing_eq hroot (lineCount_ofText tabs text ▸ hl)
  rw [List.reverse_cons] at henclosing
  exact ⟨_, rfl, rfl, henclosing⟩

/-- The sentence about a line that opens no block tells the blocks that the line is inside of. -/
theorem contextSentence_of_not_opens (tabs : Tabs) (hl : l < Offside.lineCount text)
    (hopens : ((Layout.ofText tabs text).filled l && (Layout.ofText tabs text).opens l) = false) :
    (ofText tabs text).contextSentence l = .ok (Report.lineNumber l ++
      (String.join (((Layout.ofText tabs text).above l).reverse.map
        fun j => " inside " ++ blockWords text j) ++ rootPhrase)) := by
  obtain ⟨root, htoken, hphrase, henclosing⟩ := exists_enclosing_ofText tabs hl
  have haround : (Layout.ofText tabs text).around l = (Layout.ofText tabs text).above l := by
    rw [Layout.around_eq_above, hopens]
    exact List.append_nil _
  -- no token of the path stands on the line, so its first node is described like the others
  have hfirst : ∀ first ∈ (((ofText tabs text).blocksAt l).reverse ++ [root]).head?,
      first.firstPhrase l = first.phrase := by
    intro first hfirst
    apply Node.firstPhrase_eq_phrase
    intro token hfound
    rcases List.mem_append.mp (List.mem_of_head? hfirst) with hmem | hmem
    · have hline : first.token ∈ ((ofText tabs text).blocksAt l).map Node.token :=
        List.mem_map_of_mem (List.mem_reverse.mp hmem)
      rw [map_token_blocksAt tabs hl, haround] at hline
      obtain ⟨j, hj, heq⟩ := List.mem_map.mp hline
      obtain rfl := Option.some.inj (heq.trans hfound)
      rw [lineToken_line]
      exact Nat.ne_of_lt (Layout.mem_above.mp hj).1
    · obtain rfl := List.mem_singleton.mp hmem
      cases htoken.symm.trans hfound
  rw [contextSentence_eq henclosing, contextSentence_eq_join (by simp) hfirst, List.map_append,
    List.map_reverse, map_phrase_blocksAt tabs hl, haround, ← List.map_reverse, String.join_append,
    List.map_singleton, hphrase]
  simp

/-- The sentence about a line that opens a block begins with that block. -/
theorem contextSentence_of_opens (tabs : Tabs) (hl : l < Offside.lineCount text)
    (hopens : ((Layout.ofText tabs text).filled l && (Layout.ofText tabs text).opens l) = true) :
    (ofText tabs text).contextSentence l = .ok (Report.lineNumber l ++
      (": " ++ blockWords text l ++ (String.join (((Layout.ofText tabs text).above l).reverse.map
        fun j => " inside " ++ blockWords text j) ++ rootPhrase))) := by
  obtain ⟨root, _, hphrase, henclosing⟩ := exists_enclosing_ofText tabs hl
  have haround : (Layout.ofText tabs text).around l = (Layout.ofText tabs text).above l ++ [l] := by
    rw [Layout.around_eq_above, hopens]
    rfl
  have htokens := map_token_blocksAt tabs hl
  have hphrases := map_phrase_blocksAt tabs hl
  rw [haround, List.map_append] at htokens hphrases
  -- the innermost block is that of the line
  obtain ⟨outer, inner, hblocks, _, hinner⟩ := List.map_eq_append_iff.mp htokens
  obtain ⟨own, rfl, hown⟩ := List.map_eq_singleton_iff.mp hinner
  rw [hblocks, List.map_append] at hphrases
  have houter := List.append_inj_left' hphrases rfl
  have hself : own.firstPhrase l = ": " ++ blockWords text l := by
    obtain ⟨hfilled, hblock⟩ := Bool.and_eq_true_iff.mp hopens
    obtain ⟨hnot, hwords⟩ := describe_lineToken tabs hfilled hblock
    have hmem : own ∈ (ofText tabs text).blocksAt l := by simp [hblocks]
    rw [Node.firstPhrase, isRoot_of_mem_blocksAt hmem, hown, if_neg Bool.false_ne_true]
    simp only [lineToken_line, hnot, hwords, decide_true, Bool.not_false, Bool.and_self, if_true]
  have hpath : (outer ++ [own]).reverse ++ [root] = own :: (outer.reverse ++ [root]) := by simp
  rw [contextSentence_eq henclosing, hblocks, hpath, Offside.contextSentence, hself,
    List.map_append, List.map_reverse, houter, ← List.map_reverse, String.join_append,
    List.map_singleton, hphrase]
  simp [String.append_assoc]

/-- The lines of the nodes around a line: its own if it opens a block, then those above that open
the other blocks, innermost first. -/
theorem map_startLine_enclosing {path : List Node} (hl : l < Offside.lineCount text)
    (h : (ofText tabs text).enclosing l = .ok path) :
    path.map Node.startLine =
      ((if (Layout.ofText tabs text).filled l && (Layout.ofText tabs text).opens l then [l]
        else []) ++ ((Layout.ofText tabs text).above l).reverse).map some ++ [none] := by
  obtain ⟨root, htoken, _, henclosing⟩ := exists_enclosing_ofText tabs hl
  obtain rfl := Except.ok.inj (h.symm.trans henclosing)
  rw [List.map_append, List.map_reverse, map_startLine_blocksAt tabs hl, ← List.map_reverse,
    Layout.around_eq_above, List.reverse_append, List.map_singleton, Node.startLine, htoken]
  split <;> rfl

/-- **The sentence about a line.** It tells the number of the line, then the block that the line
opens, if it is not blank and opens one, then the blocks of the lines above that it is in, innermost
first, and last the document. Only a line that opens a block is described itself. -/
theorem contextSentence_ofText (tabs : Tabs) (text : List Char) (l : Nat)
    (hl : l < Offside.lineCount text) :
    let opens := !allBlank (textLine text l) &&
      (LineKind.ofLine (textLine text l)).symbol.opensBlock
    let inside := ((Layout.ofText tabs text).above l).reverse
    ∃ path sentence, (ofText tabs text).enclosing l = .ok path ∧
      path.map Node.startLine = ((if opens then [l] else []) ++ inside).map some ++ [none] ∧
      Offside.contextSentence path l = .ok sentence ∧
      sentence = "Line " ++ (l + 1).repr ++
        ((if opens then ": " ++ blockWords text l else "") ++
        (String.join (inside.map fun j => " inside " ++ blockWords text j) ++
          " in the Document Root")) ∧
      (("Line " ++ (l + 1).repr ++ ": ").toList <+: sentence.toList ↔ opens = true) := by
  intro opens inside
  obtain ⟨root, _, _, henclosing⟩ := exists_enclosing_ofText tabs hl
  have hlines := map_startLine_enclosing hl henclosing
  have hcut (rest : String) : ("Line " ++ (l + 1).repr ++ ": ").toList <+:
      (Report.lineNumber l ++ rest).toList ↔ ": ".toList <+: rest.toList := by
    rw [Report.lineNumber, String.toList_append (t := ": "), String.toList_append (t := rest),
      List.prefix_append_right_inj]
  cases hopens : opens with
  | true =>
    have hsentence := contextSentence_of_opens tabs hl hopens
    rw [contextSentence_eq henclosing] at hsentence
    refine ⟨_, _, henclosing, hopens ▸ hlines, hsentence, rfl, ?_⟩
    rw [hcut, String.append_assoc, String.toList_append]
    exact iff_of_true (List.prefix_append _ _) rfl
  | false =>
    have hsentence := contextSentence_of_not_opens tabs hl hopens
    rw [contextSentence_eq henclosing] at hsentence
    refine ⟨_, _, henclosing, hopens ▸ hlines, hsentence, ?_, ?_⟩
    · rw [if_neg Bool.false_ne_true, String.empty_append]
      rfl
    · rw [hcut]
      refine iff_of_false ?_ Bool.false_ne_true
      -- what follows the number of the line begins with a space
      change ¬ ": ".toList <+: (String.join (inside.map _) ++ rootPhrase).toList
      cases inside with
      | nil =>
        rw [List.map_nil, String.join_nil, String.empty_append]
        decide
      | cons j inside =>
        rw [List.map_cons, String.join_cons, String.append_assoc, String.append_assoc,
          String.toList_append]
        rintro ⟨rest, hrest⟩
        cases congrArg List.head? hrest

/-- A line that opens a block in a block, and a statement there whose block has no text. -/
theorem contextSentence_ofText_nested :
    let text := "class A(B):\n  def m(x):\n\n    try:\n      y\n".toList
    (ofText ⟨2, false⟩ text).contextSentence 1 =
        .ok "Line 2: function m inside class A in the Document Root" ∧
      (ofText ⟨2, false⟩ text).contextSentence 4 =
        .ok "Line 5 inside try inside function m inside class A in the Document Root" := by
  intro text
  obtain ⟨_, _, hpath, _, hfirst, rfl, _⟩ := contextSentence_ofText ⟨2, false⟩ text 1 (by decide)
  obtain ⟨_, _, hpath', _, hsecond, rfl, _⟩ := contextSentence_ofText ⟨2, false⟩ text 4 (by decide)
  rw [contextSentence_eq hpath, contextSentence_eq hpath', hfirst, hsecond]
  decide +kernel

end Text

end Outline

end Offside
