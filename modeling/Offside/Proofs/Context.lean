import Mathlib.Data.List.Chain
import Offside.Proofs.Nesting

/-!
# Which blocks a line is in

The query for the blocks around a line descends from the root, at each node to the first child that
is a block and contains the line. In a tree whose ranges nest and in which only blocks have
children, it can take no wrong turn: the children before that one end before the line, those behind
it begin after it, and every block that contains the line is found below
(`Outline.Sound.descend_eq`). So the answer is the blocks of the table that contain the line, whose
places ascend from the outermost to the innermost.

For a text, these are the blocks of the lines that the line and all lines between are deeper than
(`Layout.around`), so a blank line is in the blocks of the line before it.
-/

namespace Offside

open Offside.Text

/-! ## Tables that can be asked -/

namespace Outline

/-- The table is a tree, its ranges nest, and only blocks have children but for the root. -/
structure Sound (outline : Outline) : Prop where
  tree : outline.IsTree
  ranges : outline.RangesNest
  root_label : ∀ root : Node, outline.nodes[0]? = some root → root.label = .root
  leaf : ∀ (p : Nat) (node : Node), outline.nodes[p + 1]? = some node → node.isBlock = false →
    node.children = []

/-- Whether a node is a block that contains a line. -/
def encloses (l : Nat) (node : Node) : Bool := node.isBlock && node.lines.contains l

/-- The blocks of the table that contain a line, in the order of the table. -/
def blocksAt (outline : Outline) (l : Nat) : List Node := outline.nodes.toList.filter (encloses l)

/-- Those of them that are below the node at place `p`. -/
def blocksBelow (outline : Outline) (l p : Nat) : List Node :=
  (outline.subtree p).filter fun node => encloses l node ∧ p < node.id

variable {outline : Outline} {node child : Node} {l p q c d bound : Nat}

theorem encloses_iff : encloses l node = true ↔
    node.isBlock = true ∧ node.lines.start ≤ l ∧ l < node.lines.stop := by
  simp only [encloses, LineRange.contains, Bool.and_eq_true, decide_eq_true_eq]

/-- Where all references lead to nodes, the first that fits is found. -/
theorem findNode_eq {fits : Node → Bool} {ids : List Nat}
    (h : ∀ id ∈ ids, ∃ node : Node, outline.nodes[id]? = some node) :
    outline.findNode fits ids = .ok ((ids.filterMap (outline.nodes[·]?)).find? fits) := by
  induction ids with
  | nil => rfl
  | cons id ids ih =>
    obtain ⟨⟨node, hnode⟩, hids⟩ := List.forall_mem_cons.mp h
    rw [findNode, Outline.node, hnode, List.filterMap_cons_some hnode]
    show (if fits node then Except.ok (some node) else outline.findNode fits ids) = _
    cases hfits : fits node with
    | true => rw [List.find?_cons_of_pos hfits, if_pos rfl]
    | false => rw [List.find?_cons_of_neg (by simp [hfits]), if_neg (by simp), ih hids]

namespace Sound

theorem mem_blocksBelow (h : outline.Sound) : node ∈ outline.blocksBelow l p ↔
    ∃ q : Nat, outline.nodes[q]? = some node ∧ outline.Within p q ∧ p < q ∧ encloses l node := by
  rw [blocksBelow, List.mem_filter, h.tree.mem_subtree, decide_eq_true_eq]
  constructor
  · rintro ⟨⟨q, hq, hw⟩, hencloses, hpq⟩
    exact ⟨q, hq, hw, h.tree.id_eq q node hq ▸ hpq, hencloses⟩
  · rintro ⟨q, hq, hw, hpq, hencloses⟩
    exact ⟨⟨q, hq, hw⟩, hencloses, (h.tree.id_eq q node hq).symm ▸ hpq⟩

/-- No line of a subtree is outside its first node's lines. -/
theorem within_lines (h : outline.Sound) (hw : outline.Within c q)
    (hc : outline.nodes[c]? = some child) (hq : outline.nodes[q]? = some node) :
    child.lines.start ≤ node.lines.start ∧ node.lines.stop ≤ child.lines.stop := by
  -- from each node of the subtree to its parent, which is in the subtree too
  induction q using Nat.strongRecOn generalizing node with
  | ind q ih =>
    rcases Nat.eq_or_lt_of_le hw.1 with rfl | hcq
    · obtain rfl := Option.some.inj (hc.symm.trans hq)
      exact ⟨Nat.le_refl _, Nat.le_refl _⟩
    · obtain ⟨q, rfl⟩ := Nat.exists_eq_succ_of_ne_zero (Nat.ne_of_gt (Nat.zero_lt_of_lt hcq))
      obtain ⟨_, _, r, above, hr, habove, _, hstart, hstop⟩ := h.ranges.inside q node hq
      have hrq := h.tree.lt_of_parent hq hr
      have hcr : c ≤ r := by
        have := hw.2 (q + 1) (Nat.le_refl _) hcq
        rwa [IsTree.parentPlace_eq hq hr] at this
      have hwr : outline.Within c r := ⟨hcr, fun m hm hcm => hw.2 m (by omega) hcm⟩
      obtain ⟨hs, ht⟩ := ih r hrq hwr habove
      exact ⟨Nat.le_trans hs hstart, Nat.le_trans hstop ht⟩

/-- On the way down to a block that contains a line, every node but the root is such a block. -/
theorem encloses_of_within (h : outline.Sound) (hw : outline.Within c q) (hpos : 0 < c)
    (hc : outline.nodes[c]? = some child) (hq : outline.nodes[q]? = some node)
    (hnode : encloses l node = true) : encloses l child = true := by
  rcases Nat.eq_or_lt_of_le hw.1 with rfl | hcq
  · exact Option.some.inj (hq.symm.trans hc) ▸ hnode
  · obtain ⟨hs, ht⟩ := h.within_lines hw hc hq
    obtain ⟨_, hstart, hstop⟩ := encloses_iff.mp hnode
    refine encloses_iff.mpr ⟨?_, by omega, by omega⟩
    -- a node with a node below it has a child, so it is a block
    obtain ⟨d, hcd, hd, hdw⟩ := h.tree.exists_child_within hw hcq (lt_size hq)
    have hmem : d ∈ child.children :=
      (h.tree.mem_children hc d).mpr ⟨hcd, Nat.lt_of_le_of_lt hdw.1 (lt_size hq), hd⟩
    obtain ⟨c, rfl⟩ := Nat.exists_eq_succ_of_ne_zero (Nat.ne_of_gt hpos)
    cases hblock : child.isBlock with
    | true => rfl
    | false =>
      rw [h.leaf c child hc hblock] at hmem
      cases hmem

/-- At most one child of a node contains a line. -/
theorem eq_of_encloses {other : Node} (h : outline.Sound) (hp : outline.nodes[p]? = some node)
    (hc : c ∈ node.children) (hd : d ∈ node.children) (hchild : outline.nodes[c]? = some child)
    (hother : outline.nodes[d]? = some other) (hcl : encloses l child = true)
    (hdl : encloses l other = true) : c = d := by
  obtain ⟨_, hcstart, hcstop⟩ := encloses_iff.mp hcl
  obtain ⟨_, hdstart, hdstop⟩ := encloses_iff.mp hdl
  have happart := List.pairwise_iff_getElem.mp (h.ranges.apart p node hp)
  obtain ⟨i, hi, rfl⟩ := List.getElem_of_mem hc
  obtain ⟨j, hj, rfl⟩ := List.getElem_of_mem hd
  rcases Nat.lt_trichotomy i j with hij | rfl | hji
  · have := happart i j hi hj hij child other hchild hother
    omega
  · rfl
  · have := happart j i hj hi hji other child hother hchild
    omega

/-- Below a node no child of which is a block that contains a line, there is no such block. -/
theorem blocksBelow_eq_nil (h : outline.Sound) (hp : outline.nodes[p]? = some node)
    (hnone : ∀ c ∈ node.children, ∀ child : Node, outline.nodes[c]? = some child →
      encloses l child = false) : outline.blocksBelow l p = [] := by
  rw [List.eq_nil_iff_forall_not_mem]
  intro inner hinner
  obtain ⟨q, hq, hw, hpq, hencloses⟩ := h.mem_blocksBelow.mp hinner
  obtain ⟨c, hpc, hcp, hcw⟩ := h.tree.exists_child_within hw hpq (lt_size hq)
  have hcs : c < outline.size := Nat.lt_of_le_of_lt hcw.1 (lt_size hq)
  have hchild : outline.nodes[c]? = some outline.nodes[c] := Array.getElem?_eq_getElem hcs
  have hfalse := hnone c ((h.tree.mem_children hp c).mpr ⟨hpc, hcs, hcp⟩) _ hchild
  rw [h.encloses_of_within hcw (Nat.zero_lt_of_lt hpc) hchild hq hencloses] at hfalse
  cases hfalse

/-- Otherwise they are that child and those below it. -/
theorem blocksBelow_eq_cons (h : outline.Sound) (hp : outline.nodes[p]? = some node)
    (hc : c ∈ node.children) (hchild : outline.nodes[c]? = some child)
    (hcl : encloses l child = true) :
    outline.blocksBelow l p = child :: outline.blocksBelow l c := by
  have hascending (m : Nat) : (outline.blocksBelow l m).Pairwise (·.id < ·.id) :=
    (h.tree.nodes_ascending.filter _).filter _
  obtain ⟨hpc, hcs, hcp⟩ := (h.tree.mem_children hp c).mp hc
  refine eq_of_ascending_by Node.id (hascending p) (List.pairwise_cons.mpr ⟨?_, hascending c⟩) ?_
  · intro inner hinner
    obtain ⟨q, hq, _, hcq, _⟩ := h.mem_blocksBelow.mp hinner
    rw [h.tree.id_eq c child hchild, h.tree.id_eq q inner hq]
    exact hcq
  · intro inner
    rw [List.mem_cons, h.mem_blocksBelow, h.mem_blocksBelow]
    constructor
    · rintro ⟨q, hq, hw, hpq, hencloses⟩
      obtain ⟨d, hpd, hdp, hdw⟩ := h.tree.exists_child_within hw hpq (lt_size hq)
      have hds : d < outline.size := Nat.lt_of_le_of_lt hdw.1 (lt_size hq)
      have hother : outline.nodes[d]? = some outline.nodes[d] := Array.getElem?_eq_getElem hds
      have hd : d ∈ node.children := (h.tree.mem_children hp d).mpr ⟨hpd, hds, hdp⟩
      have hdl := h.encloses_of_within hdw (Nat.zero_lt_of_lt hpd) hother hq hencloses
      obtain rfl := h.eq_of_encloses hp hc hd hchild hother hcl hdl
      rcases Nat.eq_or_lt_of_le hdw.1 with rfl | hcq
      · exact .inl (Option.some.inj (hq.symm.trans hchild))
      · exact .inr ⟨q, hq, hdw, hcq, hencloses⟩
    · rintro (rfl | ⟨q, hq, hw, hcq, hencloses⟩)
      · have hself : outline.Within c c := ⟨Nat.le_refl c, fun m hm hcm => by omega⟩
        exact ⟨c, hchild, h.tree.within_of_child hcp hpc hself hcs, hpc, hcl⟩
      · exact ⟨q, hq, h.tree.within_of_child hcp hpc hw (lt_size hq), by omega, hencloses⟩

/-! ## The descent -/

theorem blockBelow_eq (h : outline.Sound) (hp : outline.nodes[p]? = some node) :
    outline.blockBelow l node =
      .ok ((node.children.filterMap (outline.nodes[·]?)).find? (encloses l)) := by
  rw [blockBelow, h.tree.id_eq p node hp, Outline.node, hp]
  refine findNode_eq ?_
  intro c hc
  obtain ⟨child, hchild, _⟩ := (h.tree.children p node hp c).mp hc
  exact ⟨child, hchild⟩

/-- The blocks below a node that contain a line: none if no child does, else the child that does and
those below it. -/
theorem blocksBelow_cases (h : outline.Sound) (hp : outline.nodes[p]? = some node) :
    (outline.blockBelow l node = .ok none ∧ outline.blocksBelow l p = []) ∨
      ∃ (c : Nat) (child : Node), outline.nodes[c]? = some child ∧ child.parent = some p ∧ p < c ∧
        outline.blockBelow l node = .ok (some child) ∧
          outline.blocksBelow l p = child :: outline.blocksBelow l c := by
  rw [h.blockBelow_eq hp]
  cases hfound : (node.children.filterMap (outline.nodes[·]?)).find? (encloses l) with
  | none =>
    refine .inl ⟨rfl, h.blocksBelow_eq_nil hp fun c hc child hchild => ?_⟩
    have hmem : child ∈ node.children.filterMap (outline.nodes[·]?) :=
      List.mem_filterMap.mpr ⟨c, hc, hchild⟩
    simpa using List.find?_eq_none.mp hfound child hmem
  | some child =>
    obtain ⟨c, hc, hchild⟩ := List.mem_filterMap.mp (List.mem_of_find?_eq_some hfound)
    obtain ⟨held, hheld, hparent⟩ := (h.tree.children p node hp c).mp hc
    obtain rfl := Option.some.inj (hchild.symm.trans hheld)
    exact .inr ⟨c, child, hchild, hparent, h.tree.lt_of_parent hchild hparent, rfl,
      h.blocksBelow_eq_cons hp hc hchild (List.find?_some hfound)⟩

/-- A descent with steps enough for the rest of the table meets the blocks that contain the line. -/
theorem descend_eq (h : outline.Sound) (hp : outline.nodes[p]? = some node)
    (hb : outline.size ≤ p + bound) :
    outline.descend l bound node = .ok (outline.blocksBelow l p) := by
  induction bound generalizing p node with
  | zero =>
    have := lt_size hp
    omega
  | succ bound ih =>
    rw [descend]
    rcases h.blocksBelow_cases (l := l) hp with ⟨hstep, hblocks⟩ |
      ⟨c, child, hchild, _, hpc, hstep, hblocks⟩
    · rw [hstep, hblocks]
      rfl
    · rw [hstep, hblocks]
      show (outline.descend l bound child >>= fun rest => Except.ok (child :: rest)) = _
      rw [ih hchild (by omega)]
      rfl

/-- Each block met is the parent of the next. -/
theorem blocksBelow_isChain (h : outline.Sound) (hp : outline.nodes[p]? = some node) :
    (node :: outline.blocksBelow l p).IsChain fun outer inner => inner.parent = some outer.id := by
  generalize hblocks : outline.blocksBelow l p = blocks
  -- the first block is a child of the node, and the rest is what is below that child
  induction blocks generalizing p node with
  | nil => exact .singleton node
  | cons first blocks ih =>
    rcases h.blocksBelow_cases (l := l) hp with ⟨_, hnil⟩ |
      ⟨c, child, hchild, hparent, _, _, hcons⟩
    · rw [hnil] at hblocks
      cases hblocks
    · rw [hcons] at hblocks
      obtain ⟨rfl, hrest⟩ := List.cons.inj hblocks
      refine List.isChain_cons_cons.mpr ⟨?_, ih hchild hrest⟩
      rw [hparent, h.tree.id_eq p node hp]

theorem id_pos (h : outline.Sound) (hnode : node ∈ outline.blocksAt l) : 0 < node.id := by
  obtain ⟨hmem, hencloses⟩ := List.mem_filter.mp hnode
  obtain ⟨q, hq⟩ := mem_nodes.mp hmem
  rw [h.tree.id_eq q node hq]
  refine Nat.pos_of_ne_zero ?_
  rintro rfl
  have hblock := (encloses_iff.mp hencloses).1
  rw [Node.isBlock, h.root_label node hq] at hblock
  cases hblock

theorem blocksBelow_zero (h : outline.Sound) : outline.blocksBelow l 0 = outline.blocksAt l := by
  rw [blocksBelow, blocksAt, subtree_zero]
  refine List.filter_congr ?_
  intro node hnode
  rw [Bool.eq_iff_iff, decide_eq_true_eq, and_iff_left_iff_imp]
  intro hencloses
  exact h.id_pos (List.mem_filter.mpr ⟨hnode, hencloses⟩)

theorem blocksAt_isChain {root : Node} (h : outline.Sound) (hroot : outline.nodes[0]? = some root) :
    (root :: outline.blocksAt l).IsChain fun outer inner => inner.parent = some outer.id := by
  rw [← h.blocksBelow_zero]
  exact h.blocksBelow_isChain hroot

/-- The blocks around a line of the document are those that contain it. -/
theorem enclosing_eq {root : Node} (h : outline.Sound) (hroot : outline.nodes[0]? = some root)
    (hl : l < outline.lineCount) :
    outline.enclosing l = .ok (root :: outline.blocksAt l).reverse := by
  rw [enclosing, if_neg (Nat.not_le_of_lt hl), Outline.root, Outline.node, hroot,
    List.reverse_cons, ← h.blocksBelow_zero]
  show Except.mapError _ (outline.descend l (outline.size + 1) root >>= fun blocks =>
    Except.ok (blocks.reverse ++ [root])) = _
  rw [h.descend_eq hroot (by omega)]
  rfl

/-- The innermost of them stands last in the table. -/
theorem innermost_eq {root : Node} (h : outline.Sound) (hroot : outline.nodes[0]? = some root)
    (hl : l < outline.lineCount) :
    outline.innermost l = .ok ((outline.blocksAt l).getLast?.getD root) := by
  rw [innermost, h.enclosing_eq hroot hl]
  rcases List.eq_nil_or_concat (outline.blocksAt l) with hnil | ⟨front, last, hlast⟩
  · rw [hnil]
    rfl
  · rw [hlast, List.concat_eq_append, List.getLast?_concat, List.reverse_cons,
      List.reverse_append]
    rfl

end Sound

/-! ## The outline of a text -/

theorem Lists.sound {entries : List LineToken} (h : outline.Lists entries)
    (ho : Ordered entries outline.lineCount) : outline.Sound where
  tree := h.isTree
  ranges := h.rangesNest ho
  root_label root hroot := by
    obtain rfl := Option.some.inj (h.root.symm.trans hroot)
    rfl
  leaf p node hp hblock := by
    rcases h.cases (Nat.le_refl _) hp with ⟨hp, _⟩ | ⟨k, entry, hpk, _, he, rfl⟩
    · omega
    · cases hopens : entry.token.symbol.opensBlock with
      | true => simp [Node.isBlock, nodeAt, hopens] at hblock
      | false => exact placesBelow_of_statement he hopens

section Text

variable {tabs : Tabs} {text : List Char} {i j : Nat}

theorem sound_ofText (tabs : Tabs) (text : List Char) : (ofText tabs text).Sound :=
  (lists_ofText tabs text).sound (lineCount_ofText tabs text ▸ ordered_textEntries tabs text)

theorem encloses_iff_covers (hl : l < Offside.lineCount text) (h : node.StandsFor tabs text i)
    (hfilled : (Layout.ofText tabs text).filled i) :
    encloses l node = true ↔ (Layout.ofText tabs text).Covers i l := by
  have hblock : node.isBlock = (Layout.ofText tabs text).opens i := by
    rw [Node.isBlock, h.label]
    cases (Layout.ofText tabs text).opens i <;> rfl
  rw [encloses, Bool.and_eq_true, hblock]
  constructor
  · rintro ⟨hopens, hcontains⟩
    exact (h.contains_iff hfilled hopens hl).mp hcontains
  · intro hcov
    exact ⟨hcov.opens, (h.contains_iff hfilled hcov.opens hl).mpr hcov⟩

/-- The nodes of a text are the root and those of its lines that are not blank. -/
theorem cases_ofText {p : Nat} (hp : (ofText tabs text).nodes[p]? = some node) :
    (p = 0 ∧ node.label = .root) ∨ ∃ k i, p = k + 1 ∧ (filledLines text)[k]? = some i ∧
      node.StandsFor tabs text i := by
  have hlists := lists_ofText tabs text
  rcases hlists.cases (Nat.le_refl _) hp with ⟨rfl, rfl⟩ | ⟨k, entry, hpk, hk, he, rfl⟩
  · exact .inl ⟨rfl, rfl⟩
  · rw [length_textEntries] at hk
    have hi : (filledLines text)[k]? = some _ := List.getElem?_eq_getElem hk
    rw [lineCount_ofText]
    exact .inr ⟨k, _, hpk, hi, standsFor_nodeAt hi he⟩

theorem label_ofText_zero (h : (ofText tabs text).nodes[0]? = some node) : node.label = .root := by
  rcases cases_ofText h with ⟨_, hlabel⟩ | ⟨_, _, hzero, _⟩
  · exact hlabel
  · omega

theorem standsFor_ofText {p : Nat} (h : (ofText tabs text).nodes[p + 1]? = some node) :
    ∃ i, (filledLines text)[p]? = some i ∧ node.StandsFor tabs text i := by
  rcases cases_ofText h with ⟨hzero, _⟩ | ⟨k, i, hk, hi, hline⟩
  · omega
  · obtain rfl : p = k := Nat.succ.inj hk
    exact ⟨i, hi, hline⟩

/-- The lines of the nodes of a text are those that are not blank, in order. -/
theorem filterMap_startLine_ofText (tabs : Tabs) (text : List Char) :
    (ofText tabs text).nodes.toList.filterMap Node.startLine = filledLines text :=
  calc (ofText tabs text).nodes.toList.filterMap Node.startLine
      = ((ofText tabs text).nodes.toList.filterMap Node.token).map Token.line :=
        List.map_filterMap.symm
    _ = ((textEntries tabs text).map LineToken.token).map Token.line := by
        rw [(lists_ofText tabs text).tokens_eq]
    _ = filledLines text := by
        rw [List.map_map]
        exact map_line_textEntries tabs text

theorem startLine_of_encloses (hl : l < Offside.lineCount text)
    (hnode : node ∈ (ofText tabs text).blocksAt l) :
    ∃ j, node.startLine = some j ∧ (Layout.ofText tabs text).Covers j l := by
  obtain ⟨hmem, hencloses⟩ := List.mem_filter.mp hnode
  obtain ⟨p, hp⟩ := mem_nodes.mp hmem
  rcases cases_ofText hp with ⟨_, hlabel⟩ | ⟨k, i, rfl, hi, h⟩
  · have := (encloses_iff.mp hencloses).1
    simp [Node.isBlock, hlabel] at this
  · refine ⟨i, by rw [Node.startLine, h.token, Option.map_some], ?_⟩
    exact (encloses_iff_covers hl h (filled_ofText_iff.mpr (List.mem_of_getElem? hi))).mp hencloses

/-- The blocks that contain a line are those of the lines whose block it is in. -/
theorem map_startLine_blocksAt (tabs : Tabs) (hl : l < Offside.lineCount text) :
    ((ofText tabs text).blocksAt l).map Node.startLine =
      ((Layout.ofText tabs text).around l).map some := by
  have hlines : ((ofText tabs text).blocksAt l).filterMap Node.startLine =
      (Layout.ofText tabs text).around l := by
    -- both ascend: the nodes of the table stand in the order of their lines
    refine eq_of_ascending ?_ ((Layout.ofText tabs text).around_ascending l) ?_
    · refine (filledLines_ascending text).sublist ?_
      rw [← filterMap_startLine_ofText tabs text]
      exact List.filter_sublist.filterMap _
    · intro j
      rw [List.mem_filterMap, Layout.mem_around]
      constructor
      · rintro ⟨node, hnode, hline⟩
        obtain ⟨i, hi, hcov⟩ := startLine_of_encloses hl hnode
        obtain rfl := Option.some.inj (hi.symm.trans hline)
        exact hcov
      · intro hcov
        obtain ⟨p, hp⟩ := List.mem_iff_getElem?.mp (filled_ofText_iff.mp hcov.filled)
        obtain ⟨node, hnode, _, h⟩ := exists_node_ofText tabs hp
        refine ⟨node, List.mem_filter.mpr ⟨mem_nodes.mpr ⟨_, hnode⟩, ?_⟩, ?_⟩
        · exact (encloses_iff_covers hl h hcov.filled).mpr hcov
        · rw [Node.startLine, h.token, Option.map_some]
  rw [← hlines, List.map_filterMap_some_eq_filter_map_isSome, eq_comm, List.filter_eq_self]
  intro line hline
  obtain ⟨node, hnode, rfl⟩ := List.mem_map.mp hline
  obtain ⟨i, hi, _⟩ := startLine_of_encloses hl hnode
  rw [hi, Option.isSome_some]

/-- A blank line is in the blocks of the line before it. -/
theorem blocksAt_succ_of_blank (tabs : Tabs) (hl : l + 1 < Offside.lineCount text)
    (hblank : allBlank (textLine text (l + 1)) = true) :
    (ofText tabs text).blocksAt (l + 1) = (ofText tabs text).blocksAt l := by
  refine List.filter_congr ?_
  intro node hnode
  obtain ⟨p, hp⟩ := mem_nodes.mp hnode
  rcases cases_ofText hp with ⟨_, hlabel⟩ | ⟨k, i, rfl, hi, h⟩
  · simp [encloses, Node.isBlock, hlabel]
  · have hnot : (Layout.ofText tabs text).filled (l + 1) = false :=
      congrArg not hblank
    have hfilled : (Layout.ofText tabs text).filled i :=
      filled_ofText_iff.mpr (List.mem_of_getElem? hi)
    rw [Bool.eq_iff_iff, encloses_iff_covers hl h hfilled,
      encloses_iff_covers (by omega) h hfilled, Layout.covers_succ_of_blank hnot]

/-- The query for the blocks around a line fails behind the document, and only there. Else it gives
the blocks of the table that contain the line, innermost first and each in the next, and then the
root. They are the blocks of the lines above, or of the line itself, that all lines behind up to the
line are deeper than. -/
theorem enclosing_ofText (tabs : Tabs) (text : List Char) (l : Nat) :
    let outline := ofText tabs text
    let blocks := outline.blocksAt l
    (outline.enclosing l = .error (.outOfBounds l (Offside.lineCount text)) ↔
      Offside.lineCount text ≤ l) ∧
    (l < Offside.lineCount text → ∃ root : Node, outline.nodes[0]? = some root ∧
      outline.enclosing l = .ok (blocks.reverse ++ [root]) ∧
      (blocks.reverse ++ [root]).Pairwise (·.id > ·.id) ∧
      (blocks.reverse ++ [root]).IsChain (fun inner outer => inner.parent = some outer.id) ∧
      (blocks.reverse ++ [root]).map Node.startLine =
        ((Layout.ofText tabs text).around l).reverse.map some ++ [none] ∧
      (allBlank (textLine text l) = true → 0 < l →
        outline.enclosing l = outline.enclosing (l - 1)) ∧
      outline.innermost l = .ok (blocks.getLast?.getD root) ∧
      ∀ node ∈ blocks.getLast?, ∀ other ∈ blocks, other.id ≤ node.id) := by
  intro outline blocks
  have hsound := sound_ofText tabs text
  have hcount := lineCount_ofText tabs text
  have hroot := (lists_ofText tabs text).root
  have hok (m : Nat) (hm : m < Offside.lineCount text) := hsound.enclosing_eq hroot (hcount ▸ hm)
  have hascending : blocks.Pairwise (·.id < ·.id) := hsound.tree.nodes_ascending.filter _
  refine ⟨⟨fun herror => Nat.le_of_not_lt fun hl => ?_, fun hl => ?_⟩,
    fun hl => ⟨_, hroot, ?_⟩⟩
  · rw [hok l hl] at herror
    cases herror
  · rw [enclosing, hcount, if_pos hl]
  rw [← List.reverse_cons]
  refine ⟨hok l hl, ?_, ?_, ?_, fun hblank hpos => ?_, hsound.innermost_eq hroot (hcount ▸ hl), ?_⟩
  · refine List.pairwise_reverse.mpr (List.pairwise_cons.mpr ⟨fun node hnode => ?_, hascending⟩)
    exact hsound.id_pos hnode
  · exact List.isChain_reverse.mpr (hsound.blocksAt_isChain hroot)
  · rw [List.map_reverse, List.map_cons, List.reverse_cons, map_startLine_blocksAt tabs hl,
      List.map_reverse]
    rfl
  · obtain ⟨l, rfl⟩ : ∃ m, l = m + 1 := ⟨l - 1, by omega⟩
    rw [hok _ hl, Nat.add_sub_cancel, hok l (by omega), blocksAt_succ_of_blank tabs hl hblank]
  · exact fun node hnode other hother => le_last_of_ascending_by Node.id hascending hnode hother

/-- A blank line in two blocks. -/
theorem enclosing_ofText_blank_line : ∃ answer : List Node,
    (ofText ⟨2, false⟩ "if a:\n    try:\n\n  b\n".toList).enclosing 2 = .ok answer ∧
      answer.map Node.startLine = [some 1, some 0, none] := by
  obtain ⟨root, _, hanswer, _, _, hlines, _⟩ :=
    (enclosing_ofText ⟨2, false⟩ "if a:\n    try:\n\n  b\n".toList 2).2 (by decide)
  exact ⟨_, hanswer, hlines.trans (by decide +kernel)⟩

end Text

end Outline

end Offside
