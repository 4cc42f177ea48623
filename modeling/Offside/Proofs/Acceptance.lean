import Mathlib.Data.List.Flatten
import Mathlib.Data.List.Perm.Subperm
import Mathlib.Logic.Relation
import Mathlib.Tactic.IntervalCases
import Offside.Proofs.Context
import Offside.Proofs.Depths

/-!
# What an accepted table is

The check of outlines goes up through the references to parents and down through the lists of
children, and compares neither with the other. So a table that passes it need not be a tree
(`Outline.check_misses_disagreement`): a node may be listed by another one than its parent, by
several, by a node below it, or by none, and a node with a wrong `id` is not checked at all.

Where the references agree (`Outline.Linked`), the check leaves nothing else to be asked. Then the
depths that it checks along the parents are depths along the lists of children (`Outline.Graded`).
Each step down leads one level deeper, so no way down returns to where it was, and because every
depth up to that of a node occurs in the table, no way down is longer than the table. So the walk
and the descent to a line end, and the walk meets what is below the root once each
(`Outline.tree_of_check`).
-/

namespace Offside

namespace Outline

/-! ## References that agree -/

/-- The node at place `q` lists place `p` as a child. -/
def HasChild (outline : Outline) (q p : Nat) : Prop :=
  ∃ node : Node, outline.nodes[q]? = some node ∧ p ∈ node.children

/-- The references of a table agree as far as its lists of children go. -/
structure Linked (outline : Outline) : Prop where
  /-- A node's `id` is its place. -/
  id_eq : ∀ (p : Nat) (node : Node), outline.nodes[p]? = some node → node.id = p
  /-- The first node is nobody's child. -/
  root : ∀ q, ¬ outline.HasChild q 0
  /-- The parent of a node that is listed as a child is the node that lists it. -/
  parent : ∀ (q p : Nat) (child : Node), outline.HasChild q p → outline.nodes[p]? = some child →
    child.parent = some q

/-- Each node stands one level below its parent, and so does each child that is listed. -/
structure Graded (outline : Outline) : Prop where
  id_eq : ∀ (p : Nat) (node : Node), outline.nodes[p]? = some node → node.id = p
  root : ∃ root : Node, outline.nodes[0]? = some root ∧ root.depth = 0
  above : ∀ (p : Nat) (node : Node), 0 < p → outline.nodes[p]? = some node →
    ∃ (q : Nat) (above : Node), outline.nodes[q]? = some above ∧ node.depth = above.depth + 1
  child : ∀ (q p : Nat) (node : Node), outline.nodes[q]? = some node → p ∈ node.children →
    ∃ child : Node, outline.nodes[p]? = some child ∧ child.parent = some q ∧
      child.depth = node.depth + 1 ∧ node.lines.start ≤ child.lines.start ∧
      child.lines.stop ≤ node.lines.stop
  /-- No node lists another one twice. -/
  distinct : ∀ (q : Nat) (node : Node), outline.nodes[q]? = some node → node.children.Nodup

/-- The nodes are those at a place and below it, each of them once. -/
structure Visits (outline : Outline) (p : Nat) (visited : List Node) : Prop where
  nodup : (visited.map Node.id).Nodup
  mem_iff : ∀ v : Node, v ∈ visited ↔
    outline.nodes[v.id]? = some v ∧ Relation.ReflTransGen outline.HasChild p v.id

variable {outline : Outline} {node : Node} {p q m c d l bound : Nat}

/-! ## From the check to depths -/

/-- Every node but the first has a parent that it stands below. -/
theorem exists_above_of_check (h : outline.check = .ok ()) (hlinked : outline.Linked) (hp : 0 < p)
    (hnode : outline.nodes[p]? = some node) :
    ∃ (q : Nat) (above : Node), node.parent = some q ∧ outline.nodes[q]? = some above ∧
      node.depth = above.depth + 1 ∧ above.lines.start ≤ node.lines.start ∧
      node.lines.stop ≤ above.lines.stop := by
  have hmem : node ∈ outline.nodes.toList.drop 1 := by
    refine List.mem_iff_getElem?.mpr ⟨p - 1, ?_⟩
    rw [List.getElem?_drop, Array.getElem?_toList, Nat.add_sub_cancel' hp, hnode]
  obtain ⟨_, hnodes, _⟩ := check_eq_ok_iff.mp h
  obtain ⟨above, hparent, _, hdepth, hlines⟩ := checkNode_eq_ok_iff.mp (hnodes node hmem)
  rw [hlinked.id_eq p node hnode] at hparent
  obtain ⟨held, q, hheld, hq, habove⟩ := parent_eq_ok_iff.mp hparent
  obtain rfl := Option.some.inj (hnode.symm.trans hheld)
  exact ⟨q, above, hq, habove, hdepth, hlines⟩

/-- The children that a node lists are nodes, which begin on later and later lines. -/
theorem exists_children_of_check (h : outline.check = .ok ()) (hlinked : outline.Linked)
    (hnode : outline.nodes[q]? = some node) : ∃ children : List Node,
      children.map Node.id = node.children ∧
      (∀ child ∈ children, outline.nodes[child.id]? = some child) ∧
      children.Pairwise (·.lines.start < ·.lines.start) := by
  obtain ⟨_, _, hlists⟩ := check_eq_ok_iff.mp h
  obtain ⟨children, hchildren, hneighbours⟩ := hlists node (mem_nodes.mpr ⟨q, hnode⟩)
  rw [hlinked.id_eq q node hnode] at hchildren
  obtain ⟨held, hheld, hmapped⟩ := bind_eq_ok_iff.mp hchildren
  obtain rfl := Option.some.inj (hnode.symm.trans (node_eq_ok_iff.mp hheld))
  obtain ⟨hids, hfound⟩ := map_of_mapM_eq_ok
    (fun c child hchild => hlinked.id_eq c child (node_eq_ok_iff.mp hchild)) hmapped
  refine ⟨children, hids, fun child hchild => node_eq_ok_iff.mp (hfound child hchild), ?_⟩
  have hchain : children.IsChain (·.lines.start < ·.lines.start) :=
    (checkNeighbours_eq_ok_iff.mp hneighbours).imp fun hapart => by omega
  have : IsTrans Node fun first second => first.lines.start < second.lines.start :=
    ⟨fun _ _ _ => Nat.lt_trans⟩
  exact hchain.pairwise

/-- In an accepted table whose references agree, depths grow with each step to a child. -/
theorem graded_of_check (h : outline.check = .ok ()) (hlinked : outline.Linked) :
    outline.Graded where
  id_eq := hlinked.id_eq
  root := by
    obtain ⟨root, hroot, _, _, hdepth, _⟩ := checkRoot_eq_ok_iff.mp (check_eq_ok_iff.mp h).1
    exact ⟨root, hroot, hdepth⟩
  above p node hp hnode := by
    obtain ⟨q, above, _, habove, hdepth, _⟩ := exists_above_of_check h hlinked hp hnode
    exact ⟨q, above, habove, hdepth⟩
  child q p node hnode hp := by
    have hlists : outline.HasChild q p := ⟨node, hnode, hp⟩
    obtain ⟨children, hids, hfound, _⟩ := exists_children_of_check h hlinked hnode
    obtain ⟨child, hchild, rfl⟩ := List.mem_map.mp (hids ▸ hp)
    have hpos : 0 < child.id := Nat.pos_of_ne_zero fun hzero => hlinked.root q (hzero ▸ hlists)
    have hparent := hlinked.parent q _ child hlists (hfound child hchild)
    obtain ⟨r, above, hr, habove, hbelow⟩ :=
      exists_above_of_check h hlinked hpos (hfound child hchild)
    obtain rfl : r = q := Option.some.inj (hr.symm.trans hparent)
    obtain rfl := Option.some.inj (habove.symm.trans hnode)
    exact ⟨child, hfound child hchild, hparent, hbelow⟩
  distinct q node hnode := by
    obtain ⟨children, hids, hfound, hascending⟩ := exists_children_of_check h hlinked hnode
    rw [← hids, List.Nodup, List.pairwise_map]
    refine hascending.imp_of_mem fun {first second} hfirst hsecond hlt hsame => ?_
    have hfound' := hfound second hsecond
    rw [← hsame, hfound first hfirst] at hfound'
    obtain rfl := Option.some.inj hfound'
    exact Nat.lt_irrefl _ hlt

/-! ## Depths along the lists of children -/

namespace Graded

theorem depthAt_child (h : outline.Graded) (hchild : outline.HasChild q p) :
    outline.depthAt p = outline.depthAt q + 1 := by
  obtain ⟨node, hnode, hp⟩ := hchild
  obtain ⟨child, hfound, _, hdepth, _⟩ := h.child q p node hnode hp
  rw [depthAt_eq hfound, depthAt_eq hnode, hdepth]

theorem parent_unique (h : outline.Graded) (hc : outline.HasChild c p)
    (hd : outline.HasChild d p) : c = d := by
  obtain ⟨node, hnode, hp⟩ := hc
  obtain ⟨node', hnode', hp'⟩ := hd
  obtain ⟨child, hfound, hparent, _⟩ := h.child c p node hnode hp
  obtain ⟨child', hfound', hparent', _⟩ := h.child d p node' hnode' hp'
  obtain rfl := Option.some.inj (hfound.symm.trans hfound')
  exact Option.some.inj (hparent.symm.trans hparent')

theorem depthAt_lt (h : outline.Graded) (hbelow : Relation.TransGen outline.HasChild p m) :
    outline.depthAt p < outline.depthAt m := by
  induction hbelow with
  | single hchild =>
    have := h.depthAt_child hchild
    omega
  | tail _ hchild ih =>
    have := h.depthAt_child hchild
    omega

theorem depthAt_le (h : outline.Graded) (hbelow : Relation.ReflTransGen outline.HasChild p m) :
    outline.depthAt p ≤ outline.depthAt m := by
  rcases Relation.reflTransGen_iff_eq_or_transGen.mp hbelow with rfl | hbelow
  · exact Nat.le_refl _
  · exact Nat.le_of_lt (h.depthAt_lt hbelow)

/-- Of the places of one depth, a place is below one at most. -/
theorem eq_of_below (h : outline.Graded) (hc : Relation.ReflTransGen outline.HasChild c m)
    (hd : Relation.ReflTransGen outline.HasChild d m)
    (hdepth : outline.depthAt c = outline.depthAt d) : c = d := by
  induction hc with
  | refl =>
    rcases Relation.reflTransGen_iff_eq_or_transGen.mp hd with rfl | hd
    · rfl
    · have := h.depthAt_lt hd
      omega
  | @tail q m hcq hqm ih =>
    rcases Relation.ReflTransGen.cases_tail hd with rfl | ⟨r, hdr, hrm⟩
    · have := h.depthAt_le hcq
      have := h.depthAt_child hqm
      omega
    · exact ih (h.parent_unique hrm hqm ▸ hdr)

/-- Up to the depth of a node, every depth occurs in the table. -/
theorem exists_depth (h : outline.Graded) (hnode : outline.nodes[p]? = some node) {depth : Nat}
    (hdepth : depth ≤ node.depth) : depth ∈ outline.nodes.toList.map Node.depth := by
  generalize hn : node.depth = n at hdepth
  induction n generalizing p node with
  | zero =>
    obtain rfl : depth = node.depth := by omega
    exact List.mem_map_of_mem (mem_nodes.mpr ⟨p, hnode⟩)
  | succ n ih =>
    rcases Nat.eq_or_lt_of_le hdepth with rfl | hlt
    · exact hn ▸ List.mem_map_of_mem (mem_nodes.mpr ⟨p, hnode⟩)
    · have hp : 0 < p := by
        refine Nat.pos_of_ne_zero ?_
        rintro rfl
        obtain ⟨root, hroot, hzero⟩ := h.root
        obtain rfl := Option.some.inj (hroot.symm.trans hnode)
        omega
      obtain ⟨q, above, habove, hstep⟩ := h.above p node hp hnode
      exact ih habove (by omega) (by omega)

/-- So no node is as deep as the table is long. -/
theorem depth_lt_size (h : outline.Graded) (hnode : outline.nodes[p]? = some node) :
    node.depth < outline.size := by
  have hsub : List.range (node.depth + 1) ⊆ outline.nodes.toList.map Node.depth := by
    intro depth hmem
    exact h.exists_depth hnode (Nat.le_of_lt_succ (List.mem_range.mp hmem))
  have hlength := (List.subperm_of_subset List.nodup_range hsub).length_le
  rw [List.length_range, List.length_map, Array.length_toList] at hlength
  exact hlength

/-! ## Walks and descents -/

/-- A node and the branches of its children meet no node twice. -/
theorem nodup_branches (h : outline.Graded) (hnode : outline.nodes[p]? = some node)
    {branch : Nat → List Node} (hbranches : ∀ c ∈ node.children, outline.Visits c (branch c)) :
    ((node :: node.children.flatMap branch).map Node.id).Nodup := by
  have hid := h.id_eq p node hnode
  rw [List.map_cons, List.map_flatMap, List.nodup_cons, List.nodup_flatMap]
  refine ⟨fun hagain => ?_, fun c hc => (hbranches c hc).nodup, ?_⟩
  -- the node is not below one of its children, which are deeper
  · obtain ⟨c, hc, hmemc⟩ := List.mem_flatMap.mp hagain
    obtain ⟨v, hv, hvid⟩ := List.mem_map.mp hmemc
    have hle := h.depthAt_le (((hbranches c hc).mem_iff v).mp hv).2
    have hstep := h.depthAt_child ⟨node, hnode, hc⟩
    rw [hvid, hid] at hle
    omega
  -- and what is below two children is below one
  · refine (h.distinct p node hnode).imp_of_mem fun {c d} hc hd hne => ?_
    intro i hic hid
    obtain ⟨v, hv, rfl⟩ := List.mem_map.mp hic
    obtain ⟨w, hw, hwid⟩ := List.mem_map.mp hid
    have hbelow := (((hbranches d hd).mem_iff w).mp hw).2
    rw [hwid] at hbelow
    refine hne (h.eq_of_below (((hbranches c hc).mem_iff v).mp hv).2 hbelow ?_)
    rw [h.depthAt_child ⟨node, hnode, hc⟩, h.depthAt_child ⟨node, hnode, hd⟩]

/-- A node and the branches of its children are what is at its place and below. -/
theorem mem_branches_iff (h : outline.Graded) (hnode : outline.nodes[p]? = some node)
    {branch : Nat → List Node} (hbranches : ∀ c ∈ node.children, outline.Visits c (branch c))
    (v : Node) : v ∈ node :: node.children.flatMap branch ↔
      outline.nodes[v.id]? = some v ∧ Relation.ReflTransGen outline.HasChild p v.id := by
  have hid := h.id_eq p node hnode
  rw [List.mem_cons, List.mem_flatMap, Relation.ReflTransGen.cases_head_iff]
  constructor
  · rintro (rfl | ⟨c, hc, hv⟩)
    · exact ⟨hid.symm ▸ hnode, .inl hid.symm⟩
    · obtain ⟨hfound, hbelow⟩ := ((hbranches c hc).mem_iff v).mp hv
      exact ⟨hfound, .inr ⟨c, ⟨node, hnode, hc⟩, hbelow⟩⟩
  · rintro ⟨hfound, rfl | ⟨c, ⟨held, hheld, hc⟩, hbelow⟩⟩
    · exact .inl (Option.some.inj (hfound.symm.trans hnode))
    · obtain rfl := Option.some.inj (hheld.symm.trans hnode)
      exact .inr ⟨c, hc, ((hbranches c hc).mem_iff v).mpr ⟨hfound, hbelow⟩⟩

/-- A walk with steps enough for the depths that are left meets what is at its first place and below,
once each. -/
theorem exists_walkFrom (h : outline.Graded) (hnode : outline.nodes[p]? = some node)
    (hbound : outline.size ≤ node.depth + bound) :
    ∃ visited, outline.walkFrom bound p = .ok visited ∧ outline.Visits p visited := by
  induction bound generalizing p node with
  | zero =>
    have := h.depth_lt_size hnode
    omega
  | succ bound ih =>
    have hbranches : ∀ c ∈ node.children,
        ∃ branch, outline.walkFrom bound c = .ok branch ∧ outline.Visits c branch := by
      intro c hc
      obtain ⟨child, hfound, _, hdepth, _⟩ := h.child p c node hnode hc
      exact ih hfound (by omega)
    choose! branch hwalk hvisits using hbranches
    refine ⟨node :: node.children.flatMap branch, ?_, h.nodup_branches hnode hvisits,
      h.mem_branches_iff hnode hvisits⟩
    rw [walkFrom, Outline.node, hnode]
    show (node.children.mapM (outline.walkFrom bound) >>= fun below =>
      Except.ok (node :: below.flatten)) = _
    rw [mapM_eq_ok hwalk]
    rfl

/-- Nor does a descent to a line run out of steps. -/
theorem exists_descend (h : outline.Graded) (l : Nat) (hnode : outline.nodes[p]? = some node)
    (hbound : outline.size ≤ node.depth + bound) :
    ∃ blocks, outline.descend l bound node = .ok blocks := by
  induction bound generalizing p node with
  | zero =>
    have := h.depth_lt_size hnode
    omega
  | succ bound ih =>
    have hfound : ∀ c ∈ node.children, ∃ child : Node, outline.nodes[c]? = some child := by
      intro c hc
      obtain ⟨child, hchild, _⟩ := h.child p c node hnode hc
      exact ⟨child, hchild⟩
    have hbelow : outline.blockBelow l node =
        .ok ((node.children.filterMap (outline.nodes[·]?)).find? (encloses l)) := by
      rw [blockBelow, h.id_eq p node hnode, Outline.node, hnode]
      exact findNode_eq hfound
    rw [descend, hbelow]
    cases hblock : (node.children.filterMap (outline.nodes[·]?)).find? (encloses l) with
    | none => exact ⟨[], rfl⟩
    | some child =>
      obtain ⟨c, hc, hchild⟩ := List.mem_filterMap.mp (List.mem_of_find?_eq_some hblock)
      obtain ⟨held, hheld, _, hdepth, _⟩ := h.child p c node hnode hc
      obtain rfl := Option.some.inj (hheld.symm.trans hchild)
      obtain ⟨blocks, hblocks⟩ := ih hchild (by omega)
      exact ⟨held :: blocks,
        bind_eq_ok_iff.mpr ⟨some held, rfl, bind_eq_ok_iff.mpr ⟨blocks, hblocks, rfl⟩⟩⟩

theorem exists_enclosing (h : outline.Graded) (hl : l < outline.lineCount) :
    ∃ path, outline.enclosing l = .ok path := by
  obtain ⟨root, hroot, _⟩ := h.root
  have hbound : outline.size ≤ root.depth + (outline.size + 1) := by omega
  obtain ⟨blocks, hblocks⟩ := h.exists_descend l hroot hbound
  refine ⟨blocks.reverse ++ [root], ?_⟩
  rw [enclosing, if_neg (Nat.not_le_of_lt hl), Outline.root, Outline.node, hroot]
  exact mapError_eq_ok_iff.mpr
    (bind_eq_ok_iff.mpr ⟨root, rfl, bind_eq_ok_iff.mpr ⟨blocks, hblocks, rfl⟩⟩)

/-- Where every node but the first is listed, every node is below the first one. -/
theorem below_root (h : outline.Graded)
    (hlisted : ∀ p, 0 < p → p < outline.size → ∃ q, outline.HasChild q p)
    (hnode : outline.nodes[p]? = some node) :
    Relation.ReflTransGen outline.HasChild 0 p := by
  generalize hdepth : outline.depthAt p = depth
  induction depth using Nat.strongRecOn generalizing p node with
  | ind depth ih =>
    rcases Nat.eq_zero_or_pos p with rfl | hp
    · exact .refl
    · obtain ⟨q, hchild⟩ := hlisted p hp (lt_size hnode)
      obtain ⟨above, habove, _⟩ := id hchild
      have hstep := h.depthAt_child hchild
      exact (ih (outline.depthAt q) (by omega) habove rfl).tail hchild

/-- The walk ends and meets no node twice, and it meets all of them exactly if every node but the
first is listed as a child. -/
theorem exists_walk (h : outline.Graded) : ∃ visited : List Node,
    outline.walk = .ok visited ∧ visited.Nodup ∧
    (visited.Perm outline.nodes.toList ↔
      ∀ p, 0 < p → p < outline.size → ∃ q, outline.HasChild q p) := by
  obtain ⟨root, hroot, _⟩ := h.root
  have hbound : outline.size ≤ root.depth + (outline.size + 1) := by omega
  obtain ⟨visited, hwalk, hnodup, hmem⟩ := h.exists_walkFrom hroot hbound
  refine ⟨visited, hwalk, hnodup.of_map, fun hperm p hpos hp => ?_, fun hlisted => ?_⟩
  · have hnode : outline.nodes[p]? = some outline.nodes[p] := Array.getElem?_eq_getElem hp
    have hvisited := (hperm.mem_iff).mpr (mem_nodes.mpr ⟨p, hnode⟩)
    have hbelow := ((hmem _).mp hvisited).2
    rw [h.id_eq p _ hnode] at hbelow
    rcases Relation.ReflTransGen.cases_tail hbelow with hzero | ⟨q, _, hchild⟩
    · omega
    · exact ⟨q, hchild⟩
  · have hall : outline.nodes.toList.Nodup := by
      refine List.Nodup.of_map Node.id ?_
      rw [map_id_of_places h.id_eq]
      exact List.nodup_range
    refine (List.perm_ext_iff_of_nodup hnodup.of_map hall).mpr fun v => ?_
    rw [hmem, mem_nodes]
    constructor
    · rintro ⟨hfound, _⟩
      exact ⟨v.id, hfound⟩
    · rintro ⟨p, hp⟩
      rw [h.id_eq p v hp]
      exact ⟨hp, h.below_root hlisted hp⟩

end Graded

/-! ## Accepted tables -/

/-- **An accepted table whose references agree is a tree.** Each child that a node lists has that
node as its parent, stands one level below it and lies in its lines. No way down from child to child
comes back to where it was. The walk ends and meets no node twice, and it meets all of them exactly
if every node but the first is listed. The query for the blocks around a line of the document has an
answer. -/
theorem tree_of_check (h : outline.check = .ok ()) (hlinked : outline.Linked) :
    (∀ (q p : Nat) (node : Node), outline.nodes[q]? = some node → p ∈ node.children →
      ∃ child : Node, outline.nodes[p]? = some child ∧ child.parent = some q ∧
        child.depth = node.depth + 1 ∧ node.lines.start ≤ child.lines.start ∧
        child.lines.stop ≤ node.lines.stop) ∧
    (∀ p, ¬ Relation.TransGen outline.HasChild p p) ∧
    (∃ visited : List Node, outline.walk = .ok visited ∧ visited.Nodup ∧
      (visited.Perm outline.nodes.toList ↔
        ∀ p, 0 < p → p < outline.size → ∃ q, outline.HasChild q p)) ∧
    ∀ l < outline.lineCount, ∃ path, outline.enclosing l = .ok path := by
  have hgraded := graded_of_check h hlinked
  refine ⟨hgraded.child, fun p hcycle => ?_, hgraded.exists_walk, fun l hl => ?_⟩
  · exact Nat.lt_irrefl _ (hgraded.depthAt_lt hcycle)
  · exact hgraded.exists_enclosing hl

/-- An accepted table that is a tree, but does not stand in the order of the source. -/
def scattered : Outline :=
  ⟨#[⟨0, .root, none, [2, 1], none, 0, ⟨0, 3⟩⟩,
    ⟨1, .statement, some ⟨.statement, none, 2, 0⟩, [], some 0, 1, ⟨2, 3⟩⟩,
    ⟨2, .block, some ⟨.block .tryBody, none, 0, 0⟩, [3], some 0, 1, ⟨0, 2⟩⟩,
    ⟨3, .statement, some ⟨.statement, none, 1, 4⟩, [], some 2, 2, ⟨1, 2⟩⟩], 3⟩

theorem hasChild_scattered (h : scattered.HasChild q p) :
    (q = 0 ∧ p = 2) ∨ (q = 0 ∧ p = 1) ∨ (q = 2 ∧ p = 3) := by
  obtain ⟨node, hnode, hp⟩ := h
  have hq : q < 4 := lt_size hnode
  interval_cases q <;> cases hnode <;> simp_all [scattered]

theorem linked_scattered : scattered.Linked where
  id_eq p node hnode := by
    have hp : p < 4 := lt_size hnode
    interval_cases p <;> cases hnode <;> rfl
  root q hchild := by
    rcases hasChild_scattered hchild with ⟨_, hzero⟩ | ⟨_, hzero⟩ | ⟨_, hzero⟩ <;> cases hzero
  parent q p child hchild hfound := by
    rcases hasChild_scattered hchild with ⟨rfl, rfl⟩ | ⟨rfl, rfl⟩ | ⟨rfl, rfl⟩ <;> cases hfound <;>
      rfl

/-- A table whose second node stands behind what is below the third one. -/
theorem tree_of_check_scattered :
    scattered.check = .ok () ∧ scattered.Linked ∧
      (∀ p, ¬ Relation.TransGen scattered.HasChild p p) ∧
      (∃ visited : List Node, scattered.walk = .ok visited ∧
        visited.Perm scattered.nodes.toList ∧ visited.map Node.id = [0, 2, 3, 1]) ∧
      ∃ path, scattered.enclosing 1 = .ok path := by
  have hcheck : scattered.check = .ok () := rfl
  obtain ⟨_, hacyclic, ⟨visited, hwalk, _, hperm⟩, henclosing⟩ :=
    tree_of_check hcheck linked_scattered
  have hlisted : ∀ p, 0 < p → p < 4 → ∃ q, scattered.HasChild q p := by
    intro p hpos hp
    interval_cases p
    · exact ⟨0, _, rfl, by decide⟩
    · exact ⟨0, _, rfl, by decide⟩
    · exact ⟨2, _, rfl, by decide⟩
  refine ⟨hcheck, linked_scattered, hacyclic, ⟨visited, hwalk, hperm.mpr hlisted, ?_⟩,
    henclosing 1 (by decide)⟩
  cases hwalk
  rfl

/-! ## Accepted tables that are no trees

In each of these tables all references agree but those of one kind. -/

/-- Node 2 is a child of the root, and listed by node 1 as well. -/
def misfiled : Outline :=
  ⟨#[⟨0, .root, none, [1, 2], none, 0, ⟨0, 2⟩⟩,
    ⟨1, .block, some ⟨.block .tryBody, none, 0, 0⟩, [2], some 0, 1, ⟨0, 1⟩⟩,
    ⟨2, .statement, some ⟨.statement, none, 1, 0⟩, [], some 0, 1, ⟨1, 2⟩⟩], 2⟩

/-- The first node is listed by its own child. -/
def circular : Outline :=
  ⟨#[⟨0, .block, none, [1], some 1, 0, ⟨0, 1⟩⟩,
    ⟨1, .block, some ⟨.block .tryBody, none, 0, 0⟩, [0], some 0, 1, ⟨0, 1⟩⟩], 1⟩

/-- The node at place 2 has the id of its parent. -/
def misnamed : Outline :=
  ⟨#[⟨0, .root, none, [1], none, 0, ⟨0, 2⟩⟩,
    ⟨1, .block, some ⟨.block .tryBody, none, 0, 0⟩, [2], some 0, 1, ⟨0, 1⟩⟩,
    ⟨1, .statement, some ⟨.statement, none, 1, 0⟩, [], some 1, 1, ⟨1, 2⟩⟩], 2⟩

/-- No node lists node 1. -/
def unlisted : Outline :=
  ⟨#[⟨0, .root, none, [], none, 0, ⟨0, 1⟩⟩,
    ⟨1, .statement, some ⟨.statement, none, 0, 0⟩, [], some 0, 1, ⟨0, 1⟩⟩], 1⟩

/-- **The check misses references that disagree.** It accepts a table in which a node lists one that
has another parent, does not stand below it and does not lie in its lines, and is met twice by the
walk; one with a cycle, on which neither the walk nor the query for the blocks around a line ends;
one in which a node with a wrong `id` stands beside its parent and outside its lines; and one with a
node that the walk does not meet. -/
theorem check_misses_disagreement :
    (misfiled.check = .ok () ∧ (∃ node child : Node, misfiled.nodes[1]? = some node ∧
      2 ∈ node.children ∧ misfiled.nodes[2]? = some child ∧ child.parent ≠ some 1 ∧
      child.depth ≠ node.depth + 1 ∧ child.lines.within node.lines = false) ∧
      ∃ visited : List Node, misfiled.walk = .ok visited ∧
        visited.map Node.id = [0, 1, 2, 2]) ∧
    (circular.check = .ok () ∧ circular.HasChild 0 1 ∧ circular.HasChild 1 0 ∧
      circular.walk = .error .endless ∧ circular.enclosing 0 = .error (.fault .endless)) ∧
    (misnamed.check = .ok () ∧ ∃ node child : Node, misnamed.nodes[1]? = some node ∧
      2 ∈ node.children ∧ misnamed.nodes[2]? = some child ∧ child.parent = some 1 ∧
      child.depth ≠ node.depth + 1 ∧ child.lines.within node.lines = false) ∧
    (unlisted.check = .ok () ∧ unlisted.size = 2 ∧ ∃ visited : List Node,
      unlisted.walk = .ok visited ∧ visited.map Node.id = [0]) := by
  refine ⟨⟨rfl, ?_, _, rfl, rfl⟩, ⟨rfl, ?_, ?_, rfl, rfl⟩, ⟨rfl, ?_⟩, ⟨rfl, rfl, _, rfl, rfl⟩⟩
  · exact ⟨_, _, rfl, by decide, rfl, by decide, by decide, rfl⟩
  · exact ⟨_, rfl, by decide⟩
  · exact ⟨_, rfl, by decide⟩
  · exact ⟨_, _, rfl, by decide, rfl, rfl, by decide, rfl⟩

end Outline

end Offside
