import Offside.Proofs.Sequences

/-!
# Nesting, read off the lines

Which blocks a line is in, said without a stack and without tokens: line `l` is in the block that
line `j` opens when every line behind `j` up to `l` is blank or deeper than `j` (`Layout.Covers`).
Everything else about the nesting is a list or a first element made from this one relation: the
blocks around a line (`around`), those that other lines above it opened (`above`), and the line that
ends a block (`closer`).

A layout does not know where its lines come from. The lines of a text make one, with blank lines in
it; so do the line tokens of a stream, numbered by their order, of which none is blank.
-/

namespace Offside

/-- What the nesting of lines depends on. A line that is not filled is blank, or there is no such
line; its other values do not matter. -/
structure Layout where
  filled : Nat → Bool
  opens : Nat → Bool
  level : Nat → Nat

namespace Layout

variable {layout : Layout} {i j k l m n : Nat}

/-- Line `l` is in the block that line `j` opens. -/
structure Covers (layout : Layout) (j l : Nat) : Prop where
  filled : layout.filled j
  opens : layout.opens j
  le : j ≤ l
  deeper : ∀ k, j < k → k ≤ l → layout.filled k → layout.level j < layout.level k

instance (layout : Layout) (j l : Nat) : Decidable (layout.Covers j l) :=
  decidable_of_iff
    (layout.filled j ∧ layout.opens j ∧ j ≤ l ∧
      ∀ k, k ≤ l → j < k → layout.filled k → layout.level j < layout.level k)
    ⟨fun ⟨hf, ho, hl, hd⟩ => ⟨hf, ho, hl, fun k hj hk => hd k hk hj⟩,
      fun h => ⟨h.filled, h.opens, h.le, fun k hk hj => h.deeper k hj hk⟩⟩

/-- The lines whose blocks line `l` is in, outermost first. -/
def around (layout : Layout) (l : Nat) : List Nat :=
  (List.range (l + 1)).filter (layout.Covers · l)

/-- The lines above line `i` whose blocks it is in, outermost first. -/
def above (layout : Layout) (i : Nat) : List Nat := (List.range i).filter (layout.Covers · i)

/-- The lines whose blocks are open once the first `n` lines are read, outermost first. -/
def openAfter (layout : Layout) : Nat → List Nat
  | 0 => []
  | l + 1 => layout.around l

/-- The first of the lines behind `j` and before `n` that is not blank and not deeper than `j`. -/
def closer (layout : Layout) (n j : Nat) : Option Nat :=
  (List.range n).find? fun k => j < k ∧ layout.filled k ∧ layout.level k ≤ layout.level j

/-! ## One line in one block -/

theorem Covers.of_le (h : layout.Covers j l) (hj : j ≤ m) (hm : m ≤ l) : layout.Covers j m :=
  ⟨h.filled, h.opens, hj, fun k hk hkm => h.deeper k hk (Nat.le_trans hkm hm)⟩

/-- Of two blocks that share a line, the one opened later is deeper. -/
theorem Covers.level_lt (h : layout.Covers j l) (hm : layout.Covers m l) (hjm : j < m) :
    layout.level j < layout.level m :=
  h.deeper m hjm hm.le hm.filled

/-- A line of a block is in the same blocks of lines above as the block's own line. -/
theorem Covers.covers_iff (hm : layout.Covers m l) (hj : j ≤ m) :
    layout.Covers j l ↔ layout.Covers j m := by
  refine ⟨fun h => h.of_le hj hm.le, fun h => ⟨h.filled, h.opens, Nat.le_trans hj hm.le, ?_⟩⟩
  intro k hk hkl hfilled
  by_cases hkm : k ≤ m
  · exact h.deeper k hk hkm hfilled
  · have hmk := hm.deeper k (by omega) hkl hfilled
    by_cases hjm : j = m
    · exact hjm ▸ hmk
    · exact Nat.lt_trans (h.deeper m (by omega) (Nat.le_refl m) hm.filled) hmk

theorem covers_succ_iff (hfilled : layout.filled (l + 1)) (hj : j ≤ l) :
    layout.Covers j (l + 1) ↔ layout.Covers j l ∧ layout.level j < layout.level (l + 1) := by
  constructor
  · intro h
    exact ⟨h.of_le hj (Nat.le_succ l), h.deeper (l + 1) (by omega) (Nat.le_refl _) hfilled⟩
  · rintro ⟨h, hlevel⟩
    refine ⟨h.filled, h.opens, by omega, fun k hk hkl hkf => ?_⟩
    by_cases hkl' : k ≤ l
    · exact h.deeper k hk hkl' hkf
    · obtain rfl : k = l + 1 := by omega
      exact hlevel

/-- A blank line is in the same blocks as the line before it. -/
theorem covers_succ_of_blank (hblank : layout.filled (l + 1) = false) :
    layout.Covers j (l + 1) ↔ layout.Covers j l := by
  constructor
  · intro h
    have hj : j ≠ l + 1 := by
      rintro rfl
      exact absurd h.filled (by simp [hblank])
    exact h.of_le (by have := h.le; omega) (Nat.le_succ l)
  · intro h
    refine ⟨h.filled, h.opens, Nat.le_succ_of_le h.le, fun k hk hkl hkf => ?_⟩
    have hkl' : k ≠ l + 1 := by
      rintro rfl
      exact absurd hkf (by simp [hblank])
    exact h.deeper k hk (by omega) hkf

theorem covers_self_iff : layout.Covers j j ↔ layout.filled j ∧ layout.opens j :=
  ⟨fun h => ⟨h.filled, h.opens⟩, fun h => ⟨h.1, h.2, Nat.le_refl j, fun _ hk hkj => by omega⟩⟩

/-! ## The blocks around a line -/

@[simp] theorem mem_around : j ∈ layout.around l ↔ layout.Covers j l := by
  simp only [around, List.mem_filter, List.mem_range, decide_eq_true_eq]
  exact ⟨fun h => h.2, fun h => ⟨Nat.lt_succ_of_le h.le, h⟩⟩

@[simp] theorem mem_above : j ∈ layout.above i ↔ j < i ∧ layout.Covers j i := by
  simp only [above, List.mem_filter, List.mem_range, decide_eq_true_eq]

theorem around_ascending (layout : Layout) (l : Nat) : (layout.around l).Pairwise (· < ·) :=
  List.Pairwise.filter _ List.pairwise_lt_range

theorem above_ascending (layout : Layout) (i : Nat) : (layout.above i).Pairwise (· < ·) :=
  List.Pairwise.filter _ List.pairwise_lt_range

theorem above_congr {other : Layout} (h : ∀ j, layout.Covers j i ↔ other.Covers j i) :
    layout.above i = other.above i := by
  unfold above
  apply List.filter_congr
  intro j _
  exact decide_eq_decide.mpr (h j)

theorem openAfter_ascending (layout : Layout) (n : Nat) :
    (layout.openAfter n).Pairwise (· < ·) := by
  cases n with
  | zero => exact List.Pairwise.nil
  | succ l => exact layout.around_ascending l

/-- Around a line stand the blocks of the lines above it, and its own if it opens one. -/
theorem around_eq_above (layout : Layout) (l : Nat) : layout.around l =
    layout.above l ++ if layout.filled l && layout.opens l then [l] else [] := by
  have hself : decide (layout.Covers l l) = (layout.filled l && layout.opens l) := by
    rw [Bool.eq_iff_iff, decide_eq_true_eq, covers_self_iff, Bool.and_eq_true]
  rw [around, above, List.range_succ, List.filter_append, List.filter_singleton, hself]
  cases layout.filled l && layout.opens l <;> rfl

theorem around_eq (hfilled : layout.filled l) :
    layout.around l = layout.above l ++ if layout.opens l then [l] else [] := by
  rw [around_eq_above, hfilled, Bool.true_and]

theorem mem_openAfter : j ∈ layout.openAfter n ↔ j < n ∧ layout.Covers j (n - 1) := by
  cases n with
  | zero => simp [openAfter]
  | succ l =>
    rw [openAfter, mem_around, Nat.add_sub_cancel]
    exact ⟨fun h => ⟨Nat.lt_succ_of_le h.le, h⟩, fun h => h.2⟩

/-- Of the blocks open before a line, it is in those that it is deeper than. -/
theorem above_eq_filter (hfilled : layout.filled n) :
    layout.above n = (layout.openAfter n).filter (layout.level · < layout.level n) := by
  refine eq_of_ascending (layout.above_ascending n)
    ((layout.openAfter_ascending n).filter _) fun j => ?_
  cases n with
  | zero => simp [openAfter]
  | succ l =>
    rw [mem_above, List.mem_filter, openAfter, mem_around, decide_eq_true_eq]
    constructor
    · rintro ⟨hj, h⟩
      exact (covers_succ_iff hfilled (by omega)).mp h
    · intro h
      have hj := h.1.le
      exact ⟨by omega, (covers_succ_iff hfilled hj).mpr h⟩

/-- The blocks above a line are those around the line that opened the last of them. -/
theorem above_eq_around (h : (layout.above i).getLast? = some j) :
    layout.above i = layout.around j := by
  obtain ⟨hji, hcov⟩ := mem_above.mp (List.mem_of_getLast? h)
  refine eq_of_ascending (layout.above_ascending i) (layout.around_ascending j) ?_
  intro m
  rw [mem_around]
  constructor
  · intro hm
    have hmj := le_last_of_ascending (layout.above_ascending i) h hm
    exact (hcov.covers_iff hmj).mp (mem_above.mp hm).2
  · intro hm
    have hmj := hm.le
    exact mem_above.mpr ⟨by omega, (hcov.covers_iff hmj).mpr hm⟩

theorem openAfter_level (layout : Layout) (n : Nat) :
    (layout.openAfter n).Pairwise (layout.level · < layout.level ·) := by
  refine (layout.openAfter_ascending n).imp_of_mem fun hj hm hjm => ?_
  exact (mem_openAfter.mp hj).2.level_lt (mem_openAfter.mp hm).2 hjm

theorem openAfter_succ (hfilled : layout.filled n) :
    layout.openAfter (n + 1) = layout.above n ++ if layout.opens n then [n] else [] :=
  around_eq hfilled

/-! ## The line that ends a block -/

theorem closer_eq_some_iff : layout.closer n j = some k ↔
    k < n ∧ j < k ∧ layout.filled k ∧ layout.level k ≤ layout.level j ∧
      ∀ m, j < m → m < k → layout.filled m → layout.level j < layout.level m := by
  rw [closer, List.find?_range_eq_some]
  simp only [decide_eq_true_eq, List.mem_range, Bool.not_eq_eq_eq_not, Bool.not_true,
    decide_eq_false_iff_not]
  constructor
  · rintro ⟨⟨hjk, hf, hl⟩, hk, hmin⟩
    exact ⟨hk, hjk, hf, hl, fun m hj hm hmf => Nat.lt_of_not_le fun hle => hmin m hm ⟨hj, hmf, hle⟩⟩
  · rintro ⟨hk, hjk, hf, hl, hmin⟩
    exact ⟨⟨hjk, hf, hl⟩, hk, fun m hm ⟨hj, hmf, hle⟩ => by have := hmin m hj hm hmf; omega⟩

theorem closer_eq_none_iff : layout.closer n j = none ↔
    ∀ k, j < k → k < n → layout.filled k → layout.level j < layout.level k := by
  rw [closer, List.find?_eq_none]
  simp only [List.mem_range, decide_eq_true_eq]
  constructor
  · intro h k hj hk hf
    exact Nat.lt_of_not_le fun hle => h k hk ⟨hj, hf, hle⟩
  · rintro h k hk ⟨hj, hf, hle⟩
    have := h k hj hk hf
    omega

/-- A block is open as long as no line has ended it. -/
theorem closer_eq_none_iff_open (hfilled : layout.filled j) (hopens : layout.opens j)
    (hj : j < n) : layout.closer n j = none ↔ j ∈ layout.openAfter n := by
  rw [closer_eq_none_iff, mem_openAfter]
  constructor
  · intro h
    exact ⟨hj, hfilled, hopens, by omega, fun k hjk hk hf => h k hjk (by omega) hf⟩
  · rintro ⟨_, h⟩ k hjk hk hf
    exact h.deeper k hjk (by omega) hf

theorem closer_succ (layout : Layout) (n j : Nat) :
    layout.closer (n + 1) j = (layout.closer n j).or
      (if j < n ∧ layout.filled n ∧ layout.level n ≤ layout.level j then some n else none) := by
  rw [closer, closer, List.range_succ, List.find?_append]
  congr 1
  rw [List.find?_singleton]
  simp only [decide_eq_true_eq]

/-- A line that ends a block is behind every line of the block. -/
theorem Covers.lt_closer (h : layout.Covers j m) (hk : layout.closer n j = some k) : m < k := by
  obtain ⟨_, hjk, hf, hle, _⟩ := closer_eq_some_iff.mp hk
  refine Nat.lt_of_not_le ?_
  intro hkm
  have := h.deeper k hjk hkm hf
  omega

/-- A line that is not in a block opened above it is behind the line that ends the block, or is that
line. -/
theorem exists_closer_le (hfilled : layout.filled j) (hopens : layout.opens j) (hjm : j ≤ m)
    (hm : m < n) (h : ¬ layout.Covers j m) : ∃ k, layout.closer n j = some k ∧ k ≤ m := by
  cases hk : layout.closer n j with
  | none =>
    have hdeeper := closer_eq_none_iff.mp hk
    exact absurd ⟨hfilled, hopens, hjm, fun i hji him => hdeeper i hji (by omega)⟩ h
  | some k =>
    refine ⟨k, rfl, Nat.le_of_not_lt fun hmk => h ?_⟩
    have hdeeper := (closer_eq_some_iff.mp hk).2.2.2.2
    exact ⟨hfilled, hopens, hjm, fun i hji him => hdeeper i hji (by omega)⟩

/-! ## Renumbering the lines

Blank lines have no part in the nesting, so leaving them out and numbering the rest anew changes
nothing but the numbers. -/

/-- The first `m` lines of `inner`, none of them blank, are the filled ones of the first `n` lines
of `outer`, in order; `f` gives their numbers there. -/
structure Renumbers (inner outer : Layout) (m n : Nat) (f : Nat → Nat) : Prop where
  ascending : ∀ p q, p < q → q < m → f p < f q
  lt : ∀ p, p < m → f p < n
  filled : ∀ i, i < n → (outer.filled i ↔ ∃ p, p < m ∧ f p = i)
  inner_filled : ∀ p, inner.filled p ↔ p < m
  opens : ∀ p, p < m → inner.opens p = outer.opens (f p)
  level : ∀ p, p < m → inner.level p = outer.level (f p)

namespace Renumbers

variable {inner outer : Layout} {f : Nat → Nat} {p q c : Nat}

theorem lt_iff (h : Renumbers inner outer m n f) (hp : p < m) (hq : q < m) :
    f p < f q ↔ p < q := by
  refine ⟨fun hlt => Nat.lt_of_not_le fun hqp => ?_, fun hpq => h.ascending p q hpq hq⟩
  rcases Nat.eq_or_lt_of_le hqp with rfl | hqp
  · omega
  · have := h.ascending q p hqp hp
    omega

theorem filled_at (h : Renumbers inner outer m n f) (hp : p < m) : outer.filled (f p) :=
  (h.filled (f p) (h.lt p hp)).mpr ⟨p, hp, rfl⟩

/-- The blocks of a line of `outer`, blank or not, are those open in `inner` after the filled lines
up to it. -/
theorem covers_iff (h : Renumbers inner outer m n f) (hl : l < n) (hp : p < m)
    (hc : ∀ q, q < m → (f q ≤ l ↔ q < c)) :
    outer.Covers (f p) l ↔ p ∈ inner.openAfter c := by
  rw [mem_openAfter]
  constructor
  · intro hcov
    have hpc := (hc p hp).mp hcov.le
    refine ⟨hpc, (h.inner_filled p).mpr hp, h.opens p hp ▸ hcov.opens, by omega, ?_⟩
    intro q hpq hqc hfilled
    have hq := (h.inner_filled q).mp hfilled
    rw [h.level p hp, h.level q hq]
    exact hcov.deeper (f q) (h.ascending p q hpq hq) ((hc q hq).mpr (by omega)) (h.filled_at hq)
  · rintro ⟨hpc, hcov⟩
    refine ⟨h.filled_at hp, h.opens p hp ▸ hcov.opens, (hc p hp).mpr hpc, ?_⟩
    intro k hk hkl hfilled
    obtain ⟨q, hq, rfl⟩ := (h.filled k (by omega)).mp hfilled
    rw [← h.level p hp, ← h.level q hq]
    have hqc := (hc q hq).mp hkl
    exact hcov.deeper q ((h.lt_iff hp hq).mp hk) (by omega) ((h.inner_filled q).mpr hq)

theorem map_ascending (h : Renumbers inner outer m n f) {places : List Nat}
    (hplaces : places.Pairwise (· < ·)) (hlt : ∀ p ∈ places, p < m) :
    (places.map f).Pairwise (· < ·) := by
  rw [List.pairwise_map]
  exact hplaces.imp_of_mem fun _ hq hpq => h.ascending _ _ hpq (hlt _ hq)

theorem above_eq (h : Renumbers inner outer m n f) (hq : q < m) :
    outer.above (f q) = (inner.above q).map f := by
  have hc (p : Nat) (hp : p < m) : f p ≤ f q ↔ p < q + 1 := by
    rw [← Nat.not_lt, h.lt_iff hq hp]
    omega
  refine eq_of_ascending (outer.above_ascending _)
    (h.map_ascending (inner.above_ascending q) fun p hp => ?_) fun i => ?_
  · have := (mem_above.mp hp).1
    omega
  rw [mem_above, List.mem_map]
  constructor
  · rintro ⟨hi, hcov⟩
    obtain ⟨p, hp, rfl⟩ := (h.filled i (Nat.lt_trans hi (h.lt q hq))).mp hcov.filled
    have hpq := (h.lt_iff hp hq).mp hi
    have hopen := (h.covers_iff (h.lt q hq) hp hc).mp hcov
    exact ⟨p, mem_above.mpr ⟨hpq, (mem_openAfter.mp hopen).2⟩, rfl⟩
  · rintro ⟨p, hp, rfl⟩
    obtain ⟨hpq, hcov⟩ := mem_above.mp hp
    have hpm : p < m := by omega
    exact ⟨h.ascending p q hpq hq,
      (h.covers_iff (h.lt q hq) hpm hc).mpr (mem_openAfter.mpr ⟨by omega, hcov⟩)⟩

theorem closer_eq (h : Renumbers inner outer m n f) (hp : p < m) :
    outer.closer n (f p) = (inner.closer m p).map f := by
  cases hk : inner.closer m p with
  | none =>
    rw [Option.map_none, closer_eq_none_iff]
    intro i hpi hi hfilled
    obtain ⟨q, hq, rfl⟩ := (h.filled i hi).mp hfilled
    rw [← h.level p hp, ← h.level q hq]
    exact closer_eq_none_iff.mp hk q ((h.lt_iff hp hq).mp hpi) hq ((h.inner_filled q).mpr hq)
  | some k =>
    obtain ⟨hkm, hpk, hfilled, hle, hdeeper⟩ := closer_eq_some_iff.mp hk
    rw [Option.map_some, closer_eq_some_iff]
    refine ⟨h.lt k hkm, h.ascending p k hpk hkm, h.filled_at hkm, ?_, fun i hpi hik hf => ?_⟩
    · rw [← h.level p hp, ← h.level k hkm]
      exact hle
    · have hkn := h.lt k hkm
      obtain ⟨q, hq, rfl⟩ := (h.filled i (by omega)).mp hf
      rw [← h.level p hp, ← h.level q hq]
      exact hdeeper q ((h.lt_iff hp hq).mp hpi) ((h.lt_iff hq hkm).mp hik)
        ((h.inner_filled q).mpr hq)

end Renumbers

end Layout

end Offside
