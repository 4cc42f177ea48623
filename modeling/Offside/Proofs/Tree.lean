import Offside.Outline.Query
import Offside.Proofs.Growth

/-!
# The table of an outline is a tree in source order

A table of nodes is a tree in source order (`Outline.IsTree`) when every node but the root has its
parent in front of it, the lists of children say the same as the references to parents, and no
branch crosses another: between a node and its parent stand only nodes of the parent's own subtree.
For such a table the walk from the root never runs out of steps and meets every node once, in the
order of the table (`Outline.IsTree.walk_eq`).

Every stream of tokens makes such a table (`Outline.Shows.isTree`), whatever its dedents and lines
are, so the walk gives back the stream's line tokens.
-/

namespace Offside

namespace Outline

/-- The nodes of a table form a tree, and stand in it in the order of the source. -/
structure IsTree (outline : Outline) : Prop where
  /-- A node's `id` is its place. -/
  id_eq : ∀ (p : Nat) (node : Node), outline.nodes[p]? = some node → node.id = p
  /-- The first node has nothing above it. -/
  root : ∃ node : Node, outline.nodes[0]? = some node ∧ node.parent = none ∧ node.depth = 0
  /-- Every other node stands behind its parent, and one level below it. -/
  parent : ∀ (p : Nat) (node : Node), outline.nodes[p + 1]? = some node →
    ∃ (q : Nat) (above : Node), node.parent = some q ∧ q ≤ p ∧ outline.nodes[q]? = some above ∧
      node.depth = above.depth + 1
  /-- A node's children are the nodes whose parent it is. -/
  children : ∀ (q : Nat) (node : Node), outline.nodes[q]? = some node → ∀ p, p ∈ node.children ↔
    ∃ child : Node, outline.nodes[p]? = some child ∧ child.parent = some q
  /-- Children are listed once each, in order. -/
  ascending : ∀ (q : Nat) (node : Node), outline.nodes[q]? = some node →
    node.children.Pairwise (· < ·)
  /-- What stands between a node and its parent is below the parent. -/
  nested : ∀ (p m : Nat) (node between : Node) (q r : Nat), outline.nodes[p]? = some node →
    node.parent = some q → outline.nodes[m]? = some between → between.parent = some r →
    q < m → m < p → q ≤ r

/-! ## Walking a tree -/

/-- The place of a node's parent; zero for the root. -/
def parentPlace (outline : Outline) (p : Nat) : Nat :=
  ((outline.nodes[p]?).bind Node.parent).getD 0

/-- Whether a place is in the subtree of the node at place `p`: from there on, no node up to the
place has its parent in front of `p`. -/
def Within (outline : Outline) (p q : Nat) : Prop :=
  p ≤ q ∧ ∀ m, m ≤ q → p < m → p ≤ outline.parentPlace m

instance (outline : Outline) (p q : Nat) : Decidable (outline.Within p q) :=
  inferInstanceAs (Decidable (_ ∧ _))

/-- The nodes of a subtree. -/
def subtree (outline : Outline) (p : Nat) : List Node :=
  outline.nodes.toList.filter (outline.Within p ·.id)

variable {outline : Outline} {node : Node} {p q : Nat}

theorem mem_nodes : node ∈ outline.nodes.toList ↔ ∃ p : Nat, outline.nodes[p]? = some node := by
  rw [List.mem_iff_getElem?]
  simp only [Array.getElem?_toList]

theorem lt_size (h : outline.nodes[p]? = some node) : p < outline.size :=
  (Array.getElem?_eq_some_iff.mp h).1

/-- Where a node's `id` is its place, the ids of a table count its nodes. -/
theorem map_id_of_places
    (h : ∀ (p : Nat) (node : Node), outline.nodes[p]? = some node → node.id = p) :
    outline.nodes.toList.map Node.id = List.range outline.size := by
  refine List.ext_getElem? ?_
  intro p
  rw [List.getElem?_map, Array.getElem?_toList]
  by_cases hp : p < outline.size
  · have hnode : outline.nodes[p]? = some outline.nodes[p] := Array.getElem?_eq_getElem hp
    rw [hnode, List.getElem?_range hp, Option.map_some, h p _ hnode]
  · rw [Array.getElem?_eq_none (Nat.le_of_not_lt hp),
      List.getElem?_eq_none (by rw [List.length_range]; exact Nat.le_of_not_lt hp), Option.map_none]

theorem subtree_zero (outline : Outline) : outline.subtree 0 = outline.nodes.toList := by
  rw [subtree, List.filter_eq_self]
  intro node _
  simp [Within]

namespace IsTree

theorem parentPlace_eq (h : outline.nodes[p]? = some node) (hp : node.parent = some q) :
    outline.parentPlace p = q := by
  rw [parentPlace, h, Option.bind_some, hp, Option.getD_some]

theorem lt_of_parent (h : outline.IsTree) (hp : outline.nodes[p]? = some node)
    (hq : node.parent = some q) : q < p := by
  cases p with
  | zero =>
    obtain ⟨root, hroot, hnone, _⟩ := h.root
    obtain rfl : root = node := Option.some.inj (hroot.symm.trans hp)
    rw [hnone] at hq
    cases hq
  | succ p =>
    obtain ⟨r, _, hr, hle, _⟩ := h.parent p node hp
    obtain rfl : r = q := Option.some.inj (hr.symm.trans hq)
    exact Nat.lt_succ_of_le hle

theorem map_id (h : outline.IsTree) :
    outline.nodes.toList.map Node.id = List.range outline.size := map_id_of_places h.id_eq

theorem nodes_ascending (h : outline.IsTree) :
    outline.nodes.toList.Pairwise (·.id < ·.id) := by
  rw [← List.pairwise_map (R := (· < ·)), h.map_id]
  exact List.pairwise_lt_range

theorem mem_subtree (h : outline.IsTree) : node ∈ outline.subtree p ↔
    ∃ q : Nat, outline.nodes[q]? = some node ∧ outline.Within p q := by
  rw [subtree, List.mem_filter, decide_eq_true_eq, mem_nodes]
  constructor
  · rintro ⟨⟨q, hq⟩, hwithin⟩
    exact ⟨q, hq, h.id_eq q node hq ▸ hwithin⟩
  · rintro ⟨q, hq, hwithin⟩
    exact ⟨⟨q, hq⟩, (h.id_eq q node hq).symm ▸ hwithin⟩

theorem exists_parent (h : outline.IsTree) (hp : 0 < p) (hlt : p < outline.size) :
    ∃ (node : Node) (q : Nat), outline.nodes[p]? = some node ∧ node.parent = some q ∧
      outline.parentPlace p = q ∧ q < p := by
  have hnode : outline.nodes[p]? = some outline.nodes[p] := Array.getElem?_eq_getElem hlt
  obtain ⟨p, rfl⟩ := Nat.exists_eq_succ_of_ne_zero (Nat.ne_of_gt hp)
  obtain ⟨q, above, hq, hle, _⟩ := h.parent p _ hnode
  exact ⟨_, q, hnode, hq, parentPlace_eq hnode hq, Nat.lt_succ_of_le hle⟩

/-- No branch crosses another. -/
theorem le_parentPlace {c m : Nat} (h : outline.IsTree) (hc : c < outline.size)
    (hm : outline.parentPlace c < m) (hmc : m < c) :
    outline.parentPlace c ≤ outline.parentPlace m := by
  obtain ⟨child, q, hchild, hq, hcq, _⟩ := h.exists_parent (by omega) hc
  obtain ⟨between, r, hbetween, hr, hmr, _⟩ := h.exists_parent (p := m) (by omega) (by omega)
  rw [hcq] at hm ⊢
  rw [hmr]
  exact h.nested c m child between q r hchild hq hbetween hr hm hmc

/-- A place in a subtree but its first is in the subtree of one of that node's children. -/
theorem exists_child_within (h : outline.IsTree) (hw : outline.Within p q) (hpq : p < q)
    (hq : q < outline.size) :
    ∃ c, p < c ∧ outline.parentPlace c = p ∧ outline.Within c q := by
  induction q with
  | zero => omega
  | succ q ih =>
    obtain ⟨_, _, _, _, hparent, hlt⟩ := h.exists_parent (p := q + 1) (by omega) hq
    have hle := hw.2 (q + 1) (Nat.le_refl _) hpq
    by_cases hself : outline.parentPlace (q + 1) = p
    · exact ⟨q + 1, hpq, hself, Nat.le_refl _, fun m hm hqm => by omega⟩
    -- no child itself, so it is in the subtree of the child that the place before it is in
    · have hbefore : outline.Within p q :=
        ⟨by omega, fun m hm hpm => hw.2 m (Nat.le_succ_of_le hm) hpm⟩
      obtain ⟨c, hpc, hc, hcw⟩ := ih hbefore (by omega) (by omega)
      refine ⟨c, hpc, hc, Nat.le_succ_of_le hcw.1, fun m hm hcm => ?_⟩
      by_cases hmq : m ≤ q
      · exact hcw.2 m hmq hcm
      · obtain rfl : m = q + 1 := by omega
        refine Nat.le_of_not_lt ?_
        intro hcross
        have := h.le_parentPlace hq hcross hcm
        omega

theorem within_of_child {c : Nat} (h : outline.IsTree) (hc : outline.parentPlace c = p)
    (hpc : p < c) (hw : outline.Within c q) (hq : q < outline.size) : outline.Within p q := by
  have hcq := hw.1
  refine ⟨by omega, fun m hm hpm => ?_⟩
  rcases Nat.lt_trichotomy m c with hmc | rfl | hcm
  · have := h.le_parentPlace (c := c) (by omega) (by omega) hmc
    omega
  · omega
  · have := hw.2 m hm hcm
    omega

theorem mem_children (h : outline.IsTree) (hp : outline.nodes[p]? = some node) (c : Nat) :
    c ∈ node.children ↔ p < c ∧ c < outline.size ∧ outline.parentPlace c = p := by
  rw [h.children p node hp c]
  constructor
  · rintro ⟨child, hchild, hparent⟩
    exact ⟨h.lt_of_parent hchild hparent, lt_size hchild, parentPlace_eq hchild hparent⟩
  · rintro ⟨hpc, hc, hparent⟩
    obtain ⟨child, q, hchild, hq, hcq, _⟩ := h.exists_parent (by omega) hc
    exact ⟨child, hchild, by rw [hq, ← hcq, hparent]⟩

/-- A node is listed once, by its parent, and by no other node. -/
theorem count_children {child : Node} (h : outline.IsTree) (hq : outline.nodes[q]? = some node)
    (hp : outline.nodes[p]? = some child) :
    node.children.count p = if child.parent = some q then 1 else 0 := by
  have hnodup : node.children.Nodup := (h.ascending q node hq).imp Nat.ne_of_lt
  rw [hnodup.count]
  refine if_congr ?_ rfl rfl
  rw [h.children q node hq p]
  constructor
  · rintro ⟨other, hother, hparent⟩
    obtain rfl : other = child := Option.some.inj (hother.symm.trans hp)
    exact hparent
  · intro hparent
    exact ⟨child, hp, hparent⟩

/-- The subtrees of different children stand apart, in the order of the children. -/
theorem subtree_before {c d : Nat} {first second : Node} (h : outline.IsTree)
    (hcd : c < d) (hc : p < c) (hd : outline.parentPlace d = p)
    (hfirst : first ∈ outline.subtree c) (hsecond : second ∈ outline.subtree d) :
    first.id < second.id := by
  obtain ⟨i, hi, hwi⟩ := h.mem_subtree.mp hfirst
  obtain ⟨j, hj, hwj⟩ := h.mem_subtree.mp hsecond
  rw [h.id_eq i first hi, h.id_eq j second hj]
  refine Nat.lt_of_lt_of_le (Nat.lt_of_not_le fun hdi => ?_) hwj.1
  have := hwi.2 d hdi hcd
  omega

/-- A subtree is its first node and the subtrees of that node's children. -/
theorem subtree_eq (h : outline.IsTree) (hp : outline.nodes[p]? = some node) :
    outline.subtree p = node :: (node.children.map outline.subtree).flatten := by
  have hascending (c : Nat) : (outline.subtree c).Pairwise (·.id < ·.id) :=
    h.nodes_ascending.filter _
  refine eq_of_ascending_by Node.id (hascending p) (List.pairwise_cons.mpr ⟨?_, ?_⟩) ?_
  · intro below hbelow
    obtain ⟨nodes, hnodes, hmem⟩ := List.mem_flatten.mp hbelow
    obtain ⟨c, hc, rfl⟩ := List.mem_map.mp hnodes
    obtain ⟨q, hq, hw⟩ := h.mem_subtree.mp hmem
    rw [h.id_eq p node hp, h.id_eq q below hq]
    exact Nat.lt_of_lt_of_le ((h.mem_children hp c).mp hc).1 hw.1
  · rw [List.pairwise_flatten]
    refine ⟨fun nodes hnodes => ?_, ?_⟩
    · obtain ⟨c, _, rfl⟩ := List.mem_map.mp hnodes
      exact hascending c
    · rw [List.pairwise_map]
      refine (h.ascending p node hp).imp_of_mem ?_
      intro c d hc hd hcd first hfirst second hsecond
      have hpc := ((h.mem_children hp c).mp hc).1
      have hdp := ((h.mem_children hp d).mp hd).2.2
      exact h.subtree_before hcd hpc hdp hfirst hsecond
  · intro other
    simp only [List.mem_cons, List.mem_flatten, List.mem_map, exists_exists_and_eq_and]
    rw [h.mem_subtree]
    constructor
    · rintro ⟨q, hq, hw⟩
      rcases Nat.eq_or_lt_of_le hw.1 with rfl | hpq
      · exact .inl (Option.some.inj (hq.symm.trans hp))
      · obtain ⟨c, hpc, hc, hcw⟩ := h.exists_child_within hw hpq (lt_size hq)
        have hcs : c < outline.size := Nat.lt_of_le_of_lt hcw.1 (lt_size hq)
        exact .inr ⟨c, (h.mem_children hp c).mpr ⟨hpc, hcs, hc⟩, h.mem_subtree.mpr ⟨q, hq, hcw⟩⟩
    · rintro (rfl | ⟨c, hc, hmem⟩)
      · exact ⟨p, hp, Nat.le_refl p, fun m hm hpm => by omega⟩
      · obtain ⟨q, hq, hw⟩ := h.mem_subtree.mp hmem
        obtain ⟨hpc, _, hparent⟩ := (h.mem_children hp c).mp hc
        exact ⟨q, hq, h.within_of_child hparent hpc hw (lt_size hq)⟩

/-- A walk with steps enough for the rest of the table gives the subtree. -/
theorem walkFrom_eq (h : outline.IsTree) (bound : Nat) (hp : p < outline.size)
    (hb : outline.size ≤ p + bound) : outline.walkFrom bound p = .ok (outline.subtree p) := by
  induction bound generalizing p with
  | zero => omega
  | succ bound ih =>
    have hnode : outline.nodes[p]? = some outline.nodes[p] := Array.getElem?_eq_getElem hp
    -- a child stands behind its parent, so less of the table is left for it
    have hchildren : outline.nodes[p].children.mapM (outline.walkFrom bound) =
        .ok (outline.nodes[p].children.map outline.subtree) := by
      refine mapM_eq_ok ?_
      intro c hc
      obtain ⟨child, hchild, hparent⟩ := (h.children p _ hnode c).mp hc
      have := h.lt_of_parent hchild hparent
      exact ih (lt_size hchild) (by omega)
    rw [walkFrom, Outline.node, hnode]
    show (outline.nodes[p].children.mapM (outline.walkFrom bound) >>= fun below =>
      Except.ok (outline.nodes[p] :: below.flatten)) = _
    rw [hchildren, h.subtree_eq hnode]
    rfl

/-- The walk meets every node once, in the order of the table. -/
theorem walk_eq (h : outline.IsTree) : outline.walk = .ok outline.nodes.toList := by
  obtain ⟨root, hroot, _⟩ := h.root
  rw [walk, h.walkFrom_eq (outline.size + 1) (lt_size hroot) (by omega), subtree_zero]

end IsTree

/-! ## Every stream makes a tree -/

section Streams

variable {entries : List LineToken} {entry : LineToken} {k n last : Nat}

theorem placesBelow_of_statement (he : entries[k]? = some entry)
    (hopens : entry.token.symbol.opensBlock = false) :
    (Layout.ofEntries entries).placesBelow n (k + 1) = [] := by
  rw [List.eq_nil_iff_forall_not_mem]
  intro i hi
  obtain ⟨m, _, hm, _⟩ := Layout.mem_placesBelow.mp hi
  have hmem := List.mem_of_getLast? ((Layout.placeAbove_eq_succ_iff _ m k).mp hm)
  have hcov := (Layout.mem_above.mp hmem).2.opens
  rw [opens_ofEntries he, hopens] at hcov
  cases hcov

/-- Between an entry and the block that its node stands below, all entries are in the block. -/
theorem placeAbove_le_placeAbove (layout : Layout) {m : Nat} (hm : layout.placeAbove k ≤ m)
    (hmk : m < k) : layout.placeAbove k ≤ layout.placeAbove m := by
  cases hk : layout.placeAbove k with
  | zero => exact Nat.zero_le _
  | succ j =>
    have hlast := (layout.placeAbove_eq_succ_iff k j).mp hk
    obtain ⟨hjk, hcov⟩ := Layout.mem_above.mp (List.mem_of_getLast? hlast)
    rw [hk] at hm
    exact Layout.lt_placeAbove (Layout.mem_above.mpr ⟨hm, hcov.of_le (by omega) (by omega)⟩)

/-- The table that lists some entries is a tree. -/
theorem Shows.isTree (h : outline.Shows entries n last) (hn : n ≤ entries.length) :
    outline.IsTree where
  id_eq p node hp := by
    rcases h.cases hn hp with ⟨rfl, rfl⟩ | ⟨k, entry, rfl, _, _, rfl⟩ <;> rfl
  root := ⟨_, h.root, rfl, rfl⟩
  parent p node hp := by
    rcases h.cases hn hp with ⟨hp, _⟩ | ⟨k, entry, hpk, hk, he, rfl⟩
    · omega
    · obtain rfl : p = k := Nat.succ.inj hpk
      refine ⟨(Layout.ofEntries entries).placeAbove p, ?_⟩
      cases habove : (Layout.ofEntries entries).placeAbove p with
      | zero =>
        refine ⟨_, by rw [nodeAt, habove], Nat.zero_le p, h.root, ?_⟩
        rw [nodeAt, ((Layout.ofEntries entries).placeAbove_eq_zero_iff p).mp habove]
        rfl
      | succ j =>
        have hlast := (Layout.placeAbove_eq_succ_iff _ p j).mp habove
        obtain ⟨hjp, hcov⟩ := Layout.mem_above.mp (List.mem_of_getLast? hlast)
        have hj : entries[j]? = some entries[j] := List.getElem?_eq_getElem (by omega)
        refine ⟨_, by rw [nodeAt, habove], hjp, h.node j _ (by omega) hj, ?_⟩
        rw [nodeAt, Layout.above_eq_around hlast, Layout.around_eq hcov.filled, if_pos hcov.opens,
          List.length_append]
        rfl
  children q node hq p := by
    have hlist : node.children = (Layout.ofEntries entries).placesBelow n q := by
      rcases h.cases hn hq with ⟨rfl, rfl⟩ | ⟨k, entry, rfl, _, _, rfl⟩ <;> rfl
    rw [hlist, Layout.mem_placesBelow]
    constructor
    · rintro ⟨k, hk, habove, rfl⟩
      have he : entries[k]? = some entries[k] := List.getElem?_eq_getElem (by omega)
      exact ⟨_, h.node k _ hk he, congrArg some habove⟩
    · rintro ⟨child, hchild, hparent⟩
      rcases h.cases hn hchild with ⟨rfl, rfl⟩ | ⟨k, entry, rfl, hk, he, rfl⟩
      · cases hparent
      · exact ⟨k, hk, Option.some.inj hparent, rfl⟩
  ascending q node hq := by
    rcases h.cases hn hq with ⟨rfl, rfl⟩ | ⟨k, entry, rfl, _, _, rfl⟩ <;>
      exact Layout.placesBelow_ascending _ n _
  nested p m node between q r hp hq hm hr hqm hmp := by
    rcases h.cases hn hp with ⟨rfl, rfl⟩ | ⟨k, entry, rfl, _, _, rfl⟩
    · omega
    rcases h.cases hn hm with ⟨rfl, rfl⟩ | ⟨i, other, rfl, _, _, rfl⟩
    · omega
    obtain rfl := Option.some.inj hq
    obtain rfl := Option.some.inj hr
    exact placeAbove_le_placeAbove _ (by omega) (by omega)

theorem Lists.isTree (h : outline.Lists entries) : outline.IsTree :=
  Shows.isTree h (Nat.le_refl _)

/-- The tokens of a table that lists some entries are the entries' own, in order. -/
theorem Lists.tokens_eq (h : outline.Lists entries) :
    outline.nodes.toList.filterMap Node.token = entries.map LineToken.token := by
  have hnodes : outline.nodes.toList.map Node.token =
      none :: entries.map fun entry => some entry.token := by
    refine List.ext_getElem? ?_
    intro p
    rw [List.getElem?_map, Array.getElem?_toList]
    cases p with
    | zero =>
      rw [h.root]
      rfl
    | succ k =>
      rw [List.getElem?_cons_succ, List.getElem?_map]
      by_cases hk : k < entries.length
      · have he : entries[k]? = some entries[k] := List.getElem?_eq_getElem hk
        rw [h.node k _ hk he, he]
        rfl
      · have hsize : outline.nodes.size = entries.length + 1 := h.size
        rw [Array.getElem?_eq_none (by omega), List.getElem?_eq_none (by omega)]
        rfl
  calc outline.nodes.toList.filterMap Node.token
      = (outline.nodes.toList.map Node.token).filterMap id := by rw [List.filterMap_map]; rfl
    _ = (entries.map fun entry => some entry.token).filterMap id := by rw [hnodes]; rfl
    _ = entries.map LineToken.token := by
      rw [List.filterMap_map]
      exact congrFun List.filterMap_eq_map entries

theorem Lists.children_of_statement (h : outline.Lists entries)
    (hnode : node ∈ outline.nodes.toList) (hlabel : node.label = .statement) :
    node.children = [] := by
  obtain ⟨p, hp⟩ := mem_nodes.mp hnode
  rcases h.cases (Nat.le_refl _) hp with ⟨_, rfl⟩ | ⟨k, entry, _, _, he, rfl⟩
  · cases hlabel
  · cases hopens : entry.token.symbol.opensBlock with
    | true =>
      rw [nodeAt, hopens] at hlabel
      cases hlabel
    | false => exact placesBelow_of_statement he hopens

theorem Lists.label_eq_block_iff (h : outline.Lists entries)
    (hnode : node ∈ outline.nodes.toList) :
    node.label = .block ↔ ∃ token, node.token = some token ∧ token.symbol.opensBlock := by
  obtain ⟨p, hp⟩ := mem_nodes.mp hnode
  rcases h.cases (Nat.le_refl _) hp with ⟨_, rfl⟩ | ⟨k, entry, _, _, he, rfl⟩
  · simp [rootAt]
  · cases hopens : entry.token.symbol.opensBlock <;> simp [nodeAt, hopens]

/-- No line token is lost, met twice or moved, and the table is a tree in source order: whatever the
stream, ids are places, every node but the root is listed exactly once, by the parent that stands in
front of it, only blocks have children, and the walk meets the table's nodes in order, whose tokens
are the line tokens up to the first `EOF`. -/
theorem tree_ofTokens (tokens : List Token) (lineCount : Nat) :
    let outline := Outline.ofTokens tokens lineCount
    outline.IsTree ∧
      (∀ (q p : Nat) (node child : Node), outline.nodes[q]? = some node →
        outline.nodes[p]? = some child →
          node.children.count p = if child.parent = some q then 1 else 0) ∧
      (∀ node ∈ outline.nodes.toList, node.label = .statement → node.children = []) ∧
      (∀ node ∈ outline.nodes.toList, node.label = .block ↔
        ∃ token, node.token = some token ∧ token.symbol.opensBlock) ∧
      outline.walk = .ok outline.nodes.toList ∧
      outline.nodes.toList.map Node.id = List.range outline.size ∧
      outline.nodes.toList.filterMap Node.token =
        (tokens.takeWhile (·.symbol ≠ .eof)).filter (!·.isStructural) := by
  intro outline
  have h := lists_ofTokens tokens lineCount
  have htree : outline.IsTree := h.isTree
  refine ⟨htree, ?_, ?_, ?_, htree.walk_eq, htree.map_id, ?_⟩
  · intro q p node child hq hp
    exact htree.count_children hq hp
  · intro node hnode hlabel
    exact h.children_of_statement hnode hlabel
  · intro node hnode
    exact h.label_eq_block_iff hnode
  · rw [h.tokens_eq, map_token_lineEntries]

end Streams

end Outline

end Offside
