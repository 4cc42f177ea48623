import Offside.Proofs.Tree

/-!
# Depths in a table

In a tree that stands in source order the depths of the nodes say all about the references: a node's
parent is the last node in front of it that is not as deep, because everything between the two is
below the parent (`Outline.IsTree.parent_eq_some_iff`). So two such tables of one size that agree in
their depths agree in parents and children as well (`Outline.IsTree.parent_eq_of_depths`,
`Outline.IsTree.children_eq_of_depths`).
-/

namespace Offside.Outline

/-- The depth of the node at a place; zero if there is none. -/
def depthAt (outline : Outline) (p : Nat) : Nat := (outline.nodes[p]?.map Node.depth).getD 0

section Depths

variable {outline other : Outline} {node node' : Node} {p q m : Nat}

theorem depthAt_eq (h : outline.nodes[p]? = some node) : outline.depthAt p = node.depth := by
  rw [depthAt, h, Option.map_some, Option.getD_some]

/-- Tables of one size whose nodes are equally deep place by place agree in depths. -/
theorem depthAt_congr (hsize : outline.size = other.size)
    (hdepths : ∀ (p : Nat) (node node' : Node), outline.nodes[p]? = some node →
      other.nodes[p]? = some node' → node.depth = node'.depth) (p : Nat) :
    outline.depthAt p = other.depthAt p := by
  by_cases hp : p < outline.size
  · have hp' : p < other.size := hsize ▸ hp
    have hnode : outline.nodes[p]? = some outline.nodes[p] := Array.getElem?_eq_getElem hp
    have hnode' : other.nodes[p]? = some other.nodes[p] := Array.getElem?_eq_getElem hp'
    rw [depthAt_eq hnode, depthAt_eq hnode', hdepths p _ _ hnode hnode']
  · have hle : outline.size ≤ p := Nat.le_of_not_lt hp
    have hle' : other.size ≤ p := hsize ▸ hle
    rw [depthAt, depthAt, Array.getElem?_eq_none hle, Array.getElem?_eq_none hle']

namespace IsTree

theorem depthAt_parent (h : outline.IsTree) (hp : outline.nodes[p]? = some node)
    (hq : node.parent = some q) : outline.depthAt p = outline.depthAt q + 1 := by
  obtain ⟨p, rfl⟩ := Nat.exists_eq_succ_of_ne_zero (Nat.ne_of_gt
    (Nat.zero_lt_of_lt (h.lt_of_parent hp hq)))
  obtain ⟨r, above, hr, _, habove, hdepth⟩ := h.parent p node hp
  obtain rfl : r = q := Option.some.inj (hr.symm.trans hq)
  rw [depthAt_eq hp, depthAt_eq habove, hdepth]

/-- What stands between a node and its parent is deeper than the parent. -/
theorem depthAt_lt_of_between (h : outline.IsTree) (hp : outline.nodes[p]? = some node)
    (hq : node.parent = some q) (hqm : q < m) (hmp : m < p) :
    outline.depthAt q < outline.depthAt m := by
  induction m using Nat.strongRecOn with
  | ind m ih =>
    obtain ⟨between, r, hbetween, hr, _, hrm⟩ :=
      h.exists_parent (p := m) (by omega) (Nat.lt_trans hmp (lt_size hp))
    have hdepth := h.depthAt_parent hbetween hr
    rcases Nat.eq_or_lt_of_le (h.nested p m node between q r hp hq hbetween hr hqm hmp) with
      rfl | hqr
    · omega
    · have := ih r hrm hqr (by omega)
      omega

/-- A node's parent is the last node in front of it that is not as deep. -/
theorem parent_eq_some_iff (h : outline.IsTree) (hp : outline.nodes[p]? = some node) :
    node.parent = some q ↔ q < p ∧ outline.depthAt q < outline.depthAt p ∧
      ∀ m, q < m → m < p → outline.depthAt p ≤ outline.depthAt m := by
  have hparent {r : Nat} (hr : node.parent = some r) : r < p ∧
      outline.depthAt p = outline.depthAt r + 1 ∧
      ∀ m, r < m → m < p → outline.depthAt p ≤ outline.depthAt m := by
    have hdepth := h.depthAt_parent hp hr
    refine ⟨h.lt_of_parent hp hr, hdepth, fun m hrm hmp => ?_⟩
    rw [hdepth]
    exact h.depthAt_lt_of_between hp hr hrm hmp
  constructor
  · intro hq
    obtain ⟨hlt, hdepth, hbetween⟩ := hparent hq
    exact ⟨hlt, by omega, hbetween⟩
  · rintro ⟨hlt, hdepth, hbetween⟩
    obtain ⟨held, r, hheld, hr, _⟩ := h.exists_parent (Nat.zero_lt_of_lt hlt) (lt_size hp)
    obtain rfl := Option.some.inj (hp.symm.trans hheld)
    obtain ⟨hrp, hrdepth, hrbetween⟩ := hparent hr
    -- of two such nodes neither can stand in front of the other
    rcases Nat.lt_trichotomy q r with hqr | rfl | hrq
    · have := hbetween r hqr hrp
      omega
    · exact hr
    · have := hrbetween q hrq hlt
      omega

theorem parent_eq_of_depths (h : outline.IsTree) (h' : other.IsTree)
    (hdepths : ∀ p, outline.depthAt p = other.depthAt p) (hp : outline.nodes[p]? = some node)
    (hp' : other.nodes[p]? = some node') : node.parent = node'.parent := by
  refine Option.ext fun q => ?_
  rw [h.parent_eq_some_iff hp, h'.parent_eq_some_iff hp']
  simp only [hdepths]

theorem children_eq_of_depths (h : outline.IsTree) (h' : other.IsTree)
    (hsize : outline.size = other.size) (hdepths : ∀ p, outline.depthAt p = other.depthAt p)
    (hp : outline.nodes[p]? = some node) (hp' : other.nodes[p]? = some node') :
    node.children = node'.children := by
  refine eq_of_ascending (h.ascending p node hp) (h'.ascending p node' hp') fun c => ?_
  rw [h.children p node hp, h'.children p node' hp']
  by_cases hc : c < outline.size
  · have hchild : outline.nodes[c]? = some outline.nodes[c] := Array.getElem?_eq_getElem hc
    have hc' : c < other.size := hsize ▸ hc
    have hchild' : other.nodes[c]? = some other.nodes[c] := Array.getElem?_eq_getElem hc'
    simp only [hchild, hchild', Option.some.injEq, exists_eq_left',
      h.parent_eq_of_depths h' hdepths hchild hchild']
  · have hle : outline.size ≤ c := Nat.le_of_not_lt hc
    have hle' : other.size ≤ c := hsize ▸ hle
    rw [Array.getElem?_eq_none hle, Array.getElem?_eq_none hle']

end IsTree

end Depths

end Offside.Outline
