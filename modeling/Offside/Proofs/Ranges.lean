import Offside.Proofs.Check
import Offside.Proofs.Lines
import Offside.Proofs.Tree

/-!
# The ranges of an outline nest

A block is given its range when an entry behind it ends it, long after its children got theirs. When
the entries stand on ascending lines, as those of a text do, what comes out fits together: each
node's lines lie in its parent's, and no two children share a line (`Outline.RangesNest`). Both
follow from one fact: an entry behind a node but not in its block stands at the end of the node's
lines or behind it (`Ordered.stop_le_line`).

A table that is a tree and whose ranges nest passes the check of outlines
(`Outline.RangesNest.check_eq`), which reads the ranges and nothing that they were made from.
-/

namespace Offside

/-! ## Ranges of a table -/

/-- Every node's lines lie in its parent's, and those of children follow each other. -/
structure Outline.RangesNest (outline : Outline) : Prop where
  /-- The root covers the document. -/
  root : ∃ root : Node, outline.nodes[0]? = some root ∧ root.token = none ∧ root.depth = 0 ∧
    root.lines = ⟨0, outline.lineCount⟩
  /-- Every other node has a token and lines, and stands in its parent. -/
  inside : ∀ (p : Nat) (node : Node), outline.nodes[p + 1]? = some node →
    node.token.isSome ∧ node.lines.start < node.lines.stop ∧
      ∃ (q : Nat) (above : Node), node.parent = some q ∧ outline.nodes[q]? = some above ∧
        node.depth = above.depth + 1 ∧ above.lines.start ≤ node.lines.start ∧
          node.lines.stop ≤ above.lines.stop
  /-- A child's lines end before those of the children behind it begin. -/
  apart : ∀ (q : Nat) (node : Node), outline.nodes[q]? = some node →
    node.children.Pairwise fun c d => ∀ child other : Node, outline.nodes[c]? = some child →
      outline.nodes[d]? = some other → child.lines.stop ≤ other.lines.start

namespace Outline.RangesNest

variable {outline : Outline} {node : Node} {p : Nat}

theorem checkNode_eq (h : outline.RangesNest) (htree : outline.IsTree)
    (hp : outline.nodes[p + 1]? = some node) : outline.checkNode node = .ok () := by
  obtain ⟨htoken, _, q, above, hq, habove, hdepth, hstart, hstop⟩ := h.inside p node hp
  have hparent : outline.parent node.id = .ok (some above) := by
    rw [htree.id_eq _ node hp]
    exact parent_eq_ok_iff.mpr ⟨node, q, hp, hq, habove⟩
  exact checkNode_eq_ok_iff.mpr ⟨above, hparent, htoken, hdepth, hstart, hstop⟩

theorem checkNeighbours_eq (h : outline.RangesNest) (htree : outline.IsTree)
    (hp : outline.nodes[p]? = some node) :
    ∃ children, outline.children node.id = .ok children ∧ checkNeighbours children = .ok () := by
  let held (c : Nat) : Node := (outline.nodes[c]?).getD node
  have hheld (c : Nat) (hc : c ∈ node.children) :
      0 < c ∧ outline.nodes[c]? = some (held c) := by
    obtain ⟨child, hchild, hparent⟩ := (htree.children p node hp c).mp hc
    have := htree.lt_of_parent hchild hparent
    exact ⟨by omega, by simp only [held, hchild, Option.getD_some]⟩
  have hchildren : outline.children node.id = .ok (node.children.map held) := by
    refine bind_eq_ok_iff.mpr ⟨node, node_eq_ok_iff.mpr ?_, mapM_eq_ok fun c hc => ?_⟩
    · rw [htree.id_eq p node hp, hp]
    · exact node_eq_ok_iff.mpr (hheld c hc).2
  refine ⟨_, hchildren, checkNeighbours_eq_ok_iff.mpr (List.Pairwise.isChain ?_)⟩
  rw [List.pairwise_map]
  refine (h.apart p node hp).imp_of_mem fun {c d} hc hd hcd => ?_
  obtain ⟨hpos, hchild⟩ := hheld c hc
  obtain ⟨c, rfl⟩ := Nat.exists_eq_succ_of_ne_zero (Nat.ne_of_gt hpos)
  exact ⟨(h.inside c _ hchild).2.1, hcd _ _ hchild (hheld d hd).2⟩

/-- A tree whose ranges nest passes the check. -/
theorem check_eq (h : outline.RangesNest) (htree : outline.IsTree) : outline.check = .ok () := by
  refine check_eq_ok_iff.mpr ⟨?_, fun node hnode => ?_, fun node hnode => ?_⟩
  · obtain ⟨root, hroot, htoken, hdepth, hlines⟩ := h.root
    exact checkRoot_eq_ok_iff.mpr ⟨root, hroot, htree.id_eq 0 root hroot, htoken, hdepth, hlines⟩
  · obtain ⟨p, hp⟩ := List.mem_iff_getElem?.mp hnode
    rw [List.getElem?_drop, Array.getElem?_toList, Nat.add_comm] at hp
    exact h.checkNode_eq htree hp
  · obtain ⟨p, hp⟩ := mem_nodes.mp hnode
    exact h.checkNeighbours_eq htree hp

end Outline.RangesNest

/-! ## Entries on ascending lines -/

/-- Each entry stands on a later line than the one before it, and all of them in the document. -/
structure Ordered (entries : List LineToken) (lineCount : Nat) : Prop where
  ascending : ∀ (k m : Nat) (entry other : LineToken), k < m → entries[k]? = some entry →
    entries[m]? = some other → entry.token.line < other.token.line
  lt : ∀ (k : Nat) (entry : LineToken), entries[k]? = some entry → entry.token.line < lineCount

section Lines

variable {entries : List LineToken} {entry other : LineToken} {lineCount j k l m n last : Nat}

theorem Ordered.of_lines
    (hascending : (entries.map (·.token.line)).Pairwise (· < ·))
    (hlt : ∀ line ∈ entries.map (·.token.line), line < lineCount) : Ordered entries lineCount where
  ascending k m entry other hkm hk hm := by
    obtain ⟨hkl, rfl⟩ := List.getElem?_eq_some_iff.mp hk
    obtain ⟨hml, rfl⟩ := List.getElem?_eq_some_iff.mp hm
    exact List.pairwise_iff_getElem.mp (List.pairwise_map.mp hascending) k m hkl hml hkm
  lt k entry hk := hlt _ (List.mem_map.mpr ⟨entry, List.mem_of_getElem? hk, rfl⟩)

theorem stopLine_of_closer (hm : (Layout.ofEntries entries).closer n k = some m)
    (he : entries[m]? = some other) : stopLine entries n last k = other.token.line := by
  rw [stopLine, hm, Option.bind_some, he]
  rfl

theorem stopLine_of_open (h : (Layout.ofEntries entries).closer n k = none) :
    stopLine entries n last k = last := by
  rw [stopLine, h]
  rfl

theorem linesAt_nonempty (entries : List LineToken) (n last k : Nat) (entry : LineToken) :
    (linesAt entries n last k entry).start < (linesAt entries n last k entry).stop := by
  rw [linesAt]
  split
  · exact Nat.lt_of_lt_of_le (Nat.lt_succ_self _) (Nat.le_max_right ..)
  · exact Nat.lt_succ_self _

namespace Ordered

/-- A block ends behind its own line, and in the document. -/
theorem stopLine_cases (h : Ordered entries lineCount) (hk : entries[k]? = some entry) :
    entry.token.line < stopLine entries entries.length lineCount k ∧
      stopLine entries entries.length lineCount k ≤ lineCount := by
  cases hc : (Layout.ofEntries entries).closer entries.length k with
  | none =>
    rw [stopLine_of_open hc]
    exact ⟨h.lt k entry hk, Nat.le_refl _⟩
  | some m =>
    obtain ⟨hml, hkm, _⟩ := Layout.closer_eq_some_iff.mp hc
    have hm : entries[m]? = some entries[m] := List.getElem?_eq_getElem hml
    rw [stopLine_of_closer hc hm]
    exact ⟨h.ascending k m _ _ hkm hk hm, Nat.le_of_lt (h.lt m _ hm)⟩

/-- On ascending lines, a block ends at the line that ends it. -/
theorem linesAt_eq (h : Ordered entries lineCount) (hk : entries[k]? = some entry) :
    linesAt entries entries.length lineCount k entry =
      ⟨entry.token.line, if entry.token.symbol.opensBlock then
        stopLine entries entries.length lineCount k else entry.token.line + 1⟩ := by
  rw [linesAt, Nat.max_eq_left (h.stopLine_cases hk).1]

theorem stop_le_lineCount (h : Ordered entries lineCount) (hk : entries[k]? = some entry) :
    (linesAt entries entries.length lineCount k entry).stop ≤ lineCount := by
  rw [h.linesAt_eq hk]
  show (if entry.token.symbol.opensBlock then _ else _) ≤ _
  split
  · exact (h.stopLine_cases hk).2
  · exact h.lt k entry hk

/-- An entry behind a node but not in its block stands behind the node's lines. -/
theorem stop_le_line (h : Ordered entries lineCount) (hk : entries[k]? = some entry)
    (hm : entries[m]? = some other) (hkm : k < m) (hout : ¬ (Layout.ofEntries entries).Covers k m) :
    (linesAt entries entries.length lineCount k entry).stop ≤ other.token.line := by
  have hkl : k < entries.length := (List.getElem?_eq_some_iff.mp hk).1
  have hml : m < entries.length := (List.getElem?_eq_some_iff.mp hm).1
  rw [h.linesAt_eq hk]
  show (if entry.token.symbol.opensBlock then _ else _) ≤ _
  split
  next hopens =>
    obtain ⟨c, hc, hcm⟩ := Layout.exists_closer_le (filled_ofEntries.mpr hkl)
      (opens_ofEntries hk ▸ hopens) (Nat.le_of_lt hkm) hml hout
    have he : entries[c]? = some entries[c] := List.getElem?_eq_getElem (by omega)
    rw [stopLine_of_closer hc he]
    rcases Nat.eq_or_lt_of_le hcm with rfl | hcm
    · exact Nat.le_of_eq (by rw [Option.some.inj (he.symm.trans hm)])
    · exact Nat.le_of_lt (h.ascending c m _ _ hcm he hm)
  next => exact h.ascending k m entry other hkm hk hm

/-- A node in a block ends with the block, or before it. -/
theorem stop_le_stop (h : Ordered entries lineCount) (hj : entries[j]? = some other)
    (hk : entries[k]? = some entry) (hcov : (Layout.ofEntries entries).Covers j k) :
    (linesAt entries entries.length lineCount k entry).stop ≤
      (linesAt entries entries.length lineCount j other).stop := by
  have hopens : other.token.symbol.opensBlock = true := opens_ofEntries hj ▸ hcov.opens
  have hstop : (linesAt entries entries.length lineCount j other).stop =
      stopLine entries entries.length lineCount j := by
    rw [h.linesAt_eq hj]
    exact if_pos hopens
  rw [hstop]
  cases hc : (Layout.ofEntries entries).closer entries.length j with
  | none =>
    rw [stopLine_of_open hc]
    exact h.stop_le_lineCount hk
  | some m =>
    obtain ⟨hml, _⟩ := Layout.closer_eq_some_iff.mp hc
    have hm : entries[m]? = some entries[m] := List.getElem?_eq_getElem hml
    rw [stopLine_of_closer hc hm]
    -- what ends the outer block is not in the inner one
    refine h.stop_le_line hk hm (hcov.lt_closer hc) ?_
    intro hkm
    exact Nat.lt_irrefl m (((hkm.covers_iff hcov.le).mpr hcov).lt_closer hc)

end Ordered

end Lines

/-! ## Every stream in order -/

namespace Outline

variable {outline : Outline} {entries : List LineToken}

/-- The ranges of a table that lists entries on ascending lines nest. -/
theorem Lists.rangesNest (h : outline.Lists entries) (ho : Ordered entries outline.lineCount) :
    outline.RangesNest where
  root := ⟨_, h.root, rfl, rfl, rfl⟩
  inside p node hp := by
    rcases h.cases (Nat.le_refl _) hp with ⟨hp, _⟩ | ⟨k, entry, hpk, hk, he, rfl⟩
    · omega
    · obtain ⟨q, above, hq, _, habove, hdepth⟩ := h.isTree.parent p _ hp
      refine ⟨rfl, linesAt_nonempty .., q, above, hq, habove, hdepth, ?_⟩
      obtain rfl := Option.some.inj hq
      rcases h.cases (Nat.le_refl _) habove with ⟨_, rfl⟩ | ⟨j, other, hjk, hj, hother, rfl⟩
      · exact ⟨Nat.zero_le _, ho.stop_le_lineCount he⟩
      · have hlast := (Layout.placeAbove_eq_succ_iff _ k j).mp hjk
        obtain ⟨hlt, hcov⟩ := Layout.mem_above.mp (List.mem_of_getLast? hlast)
        exact ⟨Nat.le_of_lt (ho.ascending j k _ _ hlt hother he), ho.stop_le_stop hother he hcov⟩
  apart q node hq := by
    have htree := h.isTree
    refine (htree.ascending q node hq).imp_of_mem ?_
    intro c d hc hd hcd child other hchild hother
    obtain ⟨_, hchild', hcq⟩ := (htree.children q node hq c).mp hc
    obtain rfl := Option.some.inj (hchild.symm.trans hchild')
    obtain ⟨_, hother', hdq⟩ := (htree.children q node hq d).mp hd
    obtain rfl := Option.some.inj (hother.symm.trans hother')
    rcases h.cases (Nat.le_refl _) hchild with ⟨_, rfl⟩ | ⟨k, entry, rfl, _, he, rfl⟩
    · cases hcq
    rcases h.cases (Nat.le_refl _) hother with ⟨_, rfl⟩ | ⟨m, entry', rfl, _, he', rfl⟩
    · cases hdq
    -- of two children of one node, the later is not in the block of the earlier
    refine ho.stop_le_line he he' (Nat.lt_of_succ_lt_succ hcd) ?_
    intro hcov
    have hlt := Layout.lt_placeAbove (Layout.mem_above.mpr ⟨Nat.lt_of_succ_lt_succ hcd, hcov⟩)
    have hle := (Layout.ofEntries entries).placeAbove_le k
    have hsame := (Option.some.inj hcq).trans (Option.some.inj hdq).symm
    omega

theorem Lists.check_eq (h : outline.Lists entries) (ho : Ordered entries outline.lineCount) :
    outline.check = .ok () :=
  (h.rangesNest ho).check_eq h.isTree

end Outline

theorem ordered_textEntries (tabs : Tabs) (text : List Char) :
    Ordered (textEntries tabs text) (lineCount text) := by
  refine .of_lines ?_ ?_ <;> rw [map_line_textEntries]
  · exact filledLines_ascending text
  · exact fun i hi => (mem_filledLines.mp hi).1

namespace Outline

/-- However indents, dedents and blank lines are mixed, and whether or not they balance: when the
line tokens up to the first `EOF` stand on ascending lines of the document, the ranges nest and the
check passes. So it does for every text. -/
theorem check_ofTokens :
    (∀ (tokens : List Token) (lineCount : Nat),
      let lines := ((tokens.takeWhile (·.symbol ≠ .eof)).filter (!·.isStructural)).map Token.line
      lines.Pairwise (· < ·) → (∀ line ∈ lines, line < lineCount) →
        let outline := ofTokens tokens lineCount
        outline.check = .ok () ∧ outline.RangesNest ∧ outline.lineCount = lineCount) ∧
    ∀ (tabs : Tabs) (text : List Char),
      (ofText tabs text).check = .ok () ∧ (ofText tabs text).RangesNest := by
  constructor
  · intro tokens lineCount lines hascending hlt outline
    have hlines : (lineEntries 0 tokens).map (·.token.line) = lines := by
      show (lineEntries 0 tokens).map (Token.line ∘ LineToken.token) = _
      rw [← List.map_map, map_token_lineEntries]
    have ho : Ordered (lineEntries 0 tokens) outline.lineCount := by
      rw [lineCount_ofTokens]
      exact .of_lines (hlines ▸ hascending) (hlines ▸ hlt)
    have h := lists_ofTokens tokens lineCount
    exact ⟨h.check_eq ho, h.rangesNest ho, lineCount_ofTokens tokens lineCount⟩
  · intro tabs text
    have ho := ordered_textEntries tabs text
    rw [← lineCount_ofText tabs text] at ho
    have h := lists_ofText tabs text
    exact ⟨h.check_eq ho, h.rangesNest ho⟩

/-- A stream that starts with a dedent, skips a level and never comes back. -/
theorem check_ofTokens_unbalanced :
    (ofTokens [.structural .dedent 0, ⟨.block .ifBranch, some "x", 0, 0⟩, .structural .indent 2,
      .structural .indent 2, ⟨.block .tryBody, none, 2, 8⟩, .structural .empty 3,
      .structural .dedent 4, ⟨.statement, none, 4, 4⟩, .structural .eof 5,
      ⟨.statement, none, 0, 0⟩] 6).check = .ok () :=
  (check_ofTokens.1 _ 6 (by decide) (by decide)).1

end Outline

end Offside
