import Offside.Proofs.Ranges

/-!
# The outline of a text, read off its lines

What the outline of a text is, in terms of the text alone: which lines are blank, how deep the
others stand, and what they introduce. The line that a node comes from decides everything about the
node but its place (`Node.StandsFor`): the blocks it is in are those of the lines above that it
and all lines between are deeper than, and its own block ends before the first line that is not
deeper.

The stream and the builder say this otherwise, by counting indents and with a stack of open blocks
that is looked at when the next line comes. Here none of that is left.
-/

namespace Offside

open Offside.Text

section Entries

variable {tabs : Tabs} {text : List Char} {i j l p : Nat}

theorem above_ofText (h : (filledLines text)[p]? = some i) :
    (Layout.ofText tabs text).above i =
      ((Layout.ofEntries (textEntries tabs text)).above p).map (filledLine text) := by
  rw [← filledLine_eq h]
  exact (renumbers_text tabs text).above_eq (List.getElem?_eq_some_iff.mp h).1

theorem stopLine_textEntries (h : (filledLines text)[p]? = some i) :
    stopLine (textEntries tabs text) (textEntries tabs text).length (lineCount text) p =
      ((Layout.ofText tabs text).closer (lineCount text) i).getD (lineCount text) := by
  have hcloser := (renumbers_text tabs text).closer_eq (List.getElem?_eq_some_iff.mp h).1
  rw [filledLine_eq h] at hcloser
  rw [hcloser, length_textEntries]
  cases hc : (Layout.ofEntries (textEntries tabs text)).closer (filledLines text).length p with
  | none => exact stopLine_of_open hc
  | some m =>
    have hm : (filledLines text)[m]? = some _ :=
      List.getElem?_eq_getElem (Layout.closer_eq_some_iff.mp hc).1
    rw [stopLine_of_closer hc (getElem?_textEntries tabs hm), Option.map_some, Option.getD_some,
      filledLine_eq hm]

end Entries

/-- The node stands for line `i` of the text. -/
structure Node.StandsFor (node : Node) (tabs : Tabs) (text : List Char) (i : Nat) : Prop where
  /-- It has the line's token. -/
  token : node.token = some ⟨(LineKind.ofLine (textLine text i)).symbol,
    (LineKind.ofLine (textLine text i)).attr, i, leadingByIndex (textLine text i)⟩
  label : node.label = if (Layout.ofText tabs text).opens i then .block else .statement
  /-- It stands right below the node of the last line above whose block it is in. -/
  parent : ∀ j, ((Layout.ofText tabs text).above i).getLast? = some j →
    ∃ q, (filledLines text)[q]? = some j ∧ node.parent = some (q + 1)
  /-- It stands right below the root if it is in no block. -/
  outside : (Layout.ofText tabs text).above i = [] → node.parent = some 0
  depth : node.depth = ((Layout.ofText tabs text).above i).length + 1
  /-- A block ends before the first line that is not deeper, any other node with its line. -/
  lines : node.lines = ⟨i, if (Layout.ofText tabs text).opens i then
    ((Layout.ofText tabs text).closer (lineCount text) i).getD (lineCount text) else i + 1⟩

section Nodes

variable {tabs : Tabs} {text : List Char} {node : Node} {i l p : Nat}

/-- The node of an entry stands for the entry's line. -/
theorem standsFor_nodeAt {entry : LineToken} (h : (filledLines text)[p]? = some i)
    (he : (textEntries tabs text)[p]? = some entry) :
    (nodeAt (textEntries tabs text) (textEntries tabs text).length (lineCount text) p
      entry).StandsFor tabs text i := by
  have hp : p < (filledLines text).length := (List.getElem?_eq_some_iff.mp h).1
  obtain rfl := Option.some.inj (he.symm.trans (getElem?_textEntries tabs h))
  refine ⟨rfl, rfl, fun j hj => ?_, fun hnil => ?_, ?_, ?_⟩
  · rw [above_ofText h, List.getLast?_map, Option.map_eq_some_iff] at hj
    obtain ⟨q, hq, rfl⟩ := hj
    have hqp : q < p := (Layout.mem_above.mp (List.mem_of_getLast? hq)).1
    have hqi : (filledLines text)[q]? = some _ := List.getElem?_eq_getElem (Nat.lt_trans hqp hp)
    refine ⟨q, by rw [filledLine_eq hqi, hqi], ?_⟩
    exact congrArg some ((Layout.placeAbove_eq_succ_iff _ p q).mpr hq)
  · rw [above_ofText h, List.map_eq_nil_iff] at hnil
    exact congrArg some ((Layout.placeAbove_eq_zero_iff _ p).mpr hnil)
  · rw [above_ofText h, List.length_map]
    rfl
  · show linesAt _ _ _ _ _ = _
    rw [(ordered_textEntries tabs text).linesAt_eq he, stopLine_textEntries h]
    rfl

/-- The lines of a block's node are those in the block. -/
theorem Node.StandsFor.contains_iff (h : node.StandsFor tabs text i)
    (hfilled : (Layout.ofText tabs text).filled i) (hopens : (Layout.ofText tabs text).opens i)
    (hl : l < lineCount text) :
    node.lines.contains l = true ↔ (Layout.ofText tabs text).Covers i l := by
  rw [h.lines, if_pos hopens, LineRange.contains, Bool.and_eq_true, decide_eq_true_eq,
    decide_eq_true_eq]
  constructor
  · rintro ⟨hil, hstop⟩
    refine Decidable.by_contra ?_
    intro hout
    obtain ⟨k, hk, hkl⟩ := Layout.exists_closer_le hfilled hopens hil hl hout
    rw [hk] at hstop
    exact absurd hkl (Nat.not_le_of_lt hstop)
  · intro hcov
    refine ⟨hcov.le, ?_⟩
    cases hk : (Layout.ofText tabs text).closer (lineCount text) i with
    | none => exact hl
    | some k => exact hcov.lt_closer hk

namespace Outline

theorem exists_node_ofText (tabs : Tabs) (h : (filledLines text)[p]? = some i) :
    ∃ node, (ofText tabs text).nodes[p + 1]? = some node ∧ node.id = p + 1 ∧
      node.StandsFor tabs text i := by
  have he := getElem?_textEntries tabs h
  have hnode := (lists_ofText tabs text).node p _ (List.getElem?_eq_some_iff.mp he).1 he
  rw [lineCount_ofText] at hnode
  exact ⟨_, hnode, rfl, standsFor_nodeAt h he⟩

/-- The outline of a text has the root and a node for each line that is not blank, in the order of
the lines, which stands where the levels of the lines say. -/
theorem nodes_ofText (tabs : Tabs) (text : List Char) :
    let outline := ofText tabs text
    outline.lineCount = Offside.lineCount text ∧
    outline.size = (filledLines text).length + 1 ∧
    (∃ root : Node, outline.nodes[0]? = some root ∧ root.label = .root ∧ root.token = none ∧
      root.parent = none ∧ root.depth = 0 ∧ root.lines = ⟨0, Offside.lineCount text⟩) ∧
    ∀ p i, (filledLines text)[p]? = some i →
      ∃ node : Node, outline.nodes[p + 1]? = some node ∧ node.id = p + 1 ∧
        node.StandsFor tabs text i := by
  intro outline
  have hlists := lists_ofText tabs text
  refine ⟨lineCount_ofText tabs text, ?_, ⟨_, hlists.root, rfl, rfl, rfl, rfl, ?_⟩, ?_⟩
  · rw [hlists.size, length_textEntries]
  · rw [rootAt, lineCount_ofText]
  · exact fun p i h => exists_node_ofText tabs h

/-- A line that is two levels deeper than the one above it, and a blank line in its block. -/
theorem nodes_ofText_skipped_level : ∃ node : Node,
    (ofText ⟨2, false⟩ "if a:\n    try:\n\n  b\n".toList).nodes[2]? = some node ∧
      node.depth = 2 ∧ node.lines = ⟨1, 3⟩ := by
  obtain ⟨node, hnode, _, hline⟩ :=
    (nodes_ofText ⟨2, false⟩ "if a:\n    try:\n\n  b\n".toList).2.2.2 1 1 (by decide)
  exact ⟨node, hnode, hline.depth.trans (by decide +kernel), hline.lines.trans (by decide +kernel)⟩

end Outline

end Nodes

end Offside
