import Offside.Outline.Invariants
import Offside.Proofs.Sequences

/-!
# What the check asks

Each part of the check stated as what it asks of the table. Where the check follows a reference, the
reference has to lead to a node; it finds the parent and the children of a node through the node
that stands where the node's `id` says, which need not be the node itself.
-/

namespace Offside

theorem require_eq_ok_iff {condition : Bool} {violation : Violation} {u : Unit} :
    require condition violation = .ok u ↔ condition = true := by
  cases condition <;> simp [require]

namespace LineRange

theorem within_iff {range outer : LineRange} :
    range.within outer = true ↔ outer.start ≤ range.start ∧ range.stop ≤ outer.stop := by
  simp [within]

theorem last?_lt_iff {range : LineRange} {line : Nat} :
    (∃ last, range.last? = some last ∧ last < line) ↔
      range.start < range.stop ∧ range.stop ≤ line := by
  by_cases h : range.start < range.stop
  · rw [last?, if_pos h]
    constructor
    · rintro ⟨last, hlast, hline⟩
      obtain rfl := Option.some.inj hlast
      omega
    · rintro ⟨_, hstop⟩
      exact ⟨_, rfl, by omega⟩
  · simp [last?, h]

end LineRange

namespace Outline

variable {outline : Outline} {node : Node}

theorem node_eq_ok_iff {id : Nat} :
    outline.node id = .ok node ↔ outline.nodes[id]? = some node := by
  rw [Outline.node]
  cases outline.nodes[id]? <;> simp

theorem parent_eq_ok_iff {id : Nat} {above : Node} : outline.parent id = .ok (some above) ↔
    ∃ (held : Node) (q : Nat), outline.nodes[id]? = some held ∧ held.parent = some q ∧
      outline.nodes[q]? = some above := by
  rw [parent, bind_eq_ok_iff]
  constructor
  · rintro ⟨held, hheld, h⟩
    cases hq : held.parent with
    | none =>
      rw [hq] at h
      cases h
    | some q =>
      rw [hq] at h
      obtain ⟨found, hfound, heq⟩ := bind_eq_ok_iff.mp h
      cases heq
      exact ⟨held, q, node_eq_ok_iff.mp hheld, hq, node_eq_ok_iff.mp hfound⟩
  · rintro ⟨held, q, hheld, hq, habove⟩
    refine ⟨held, node_eq_ok_iff.mpr hheld, ?_⟩
    rw [hq]
    exact bind_eq_ok_iff.mpr ⟨above, node_eq_ok_iff.mpr habove, rfl⟩

/-- The root is the first node, without token and depth, and covers the document. -/
theorem checkRoot_eq_ok_iff : outline.checkRoot = .ok () ↔
    ∃ root : Node, outline.nodes[0]? = some root ∧ root.id = 0 ∧ root.token = none ∧
      root.depth = 0 ∧ root.lines = ⟨0, outline.lineCount⟩ := by
  simp only [checkRoot, bind_eq_ok_iff, mapError_eq_ok_iff, root, node_eq_ok_iff, require_eq_ok_iff,
    decide_eq_true_eq, Option.isNone_iff_eq_none, exists_const]

/-- A node has a token, and stands one level below its parent and in its range. -/
theorem checkNode_eq_ok_iff : outline.checkNode node = .ok () ↔
    ∃ above : Node, outline.parent node.id = .ok (some above) ∧ node.token.isSome ∧
      node.depth = above.depth + 1 ∧ above.lines.start ≤ node.lines.start ∧
      node.lines.stop ≤ above.lines.stop := by
  simp only [checkNode, bind_eq_ok_iff, mapError_eq_ok_iff]
  constructor
  · rintro ⟨found, hfound, h⟩
    cases found with
    | none => cases h
    | some above =>
      simp only [bind_eq_ok_iff, require_eq_ok_iff, decide_eq_true_eq, LineRange.within_iff,
        exists_const] at h
      exact ⟨above, hfound, h⟩
  · rintro ⟨above, hfound, h⟩
    refine ⟨some above, hfound, ?_⟩
    simp only [bind_eq_ok_iff, require_eq_ok_iff, decide_eq_true_eq, LineRange.within_iff,
      exists_const]
    exact h

/-- Of neighbours, the one in front has lines, and they end where the other begins or before. -/
theorem checkNeighbours_eq_ok_iff {nodes : List Node} : checkNeighbours nodes = .ok () ↔
    nodes.IsChain fun first second =>
      first.lines.start < first.lines.stop ∧ first.lines.stop ≤ second.lines.start := by
  induction nodes with
  | nil => simp [checkNeighbours]
  | cons first rest ih =>
    cases rest with
    | nil => simp [checkNeighbours]
    | cons second rest =>
      rw [List.isChain_cons_cons, ← ih, ← LineRange.last?_lt_iff, checkNeighbours]
      cases first.lines.last? with
      | none => simp
      | some last =>
        simp only [bind_eq_ok_iff, require_eq_ok_iff, decide_eq_true_eq, Option.some.injEq,
          exists_eq_left', exists_const]

/-- The check passes when each of its parts does. -/
theorem check_eq_ok_iff : outline.check = .ok () ↔ outline.checkRoot = .ok () ∧
    (∀ node ∈ outline.nodes.toList.drop 1, outline.checkNode node = .ok ()) ∧
      ∀ node ∈ outline.nodes.toList, ∃ children, outline.children node.id = .ok children ∧
        checkNeighbours children = .ok () := by
  simp only [check, checkChildren, bind_eq_ok_iff, forM_eq_ok_iff, mapError_eq_ok_iff,
    exists_const]
  exact ⟨fun ⟨_, h⟩ => h, fun h => ⟨(), h⟩⟩

end Outline

end Offside
