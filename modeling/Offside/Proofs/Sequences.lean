import Mathlib.Data.List.Forall2
import Mathlib.Data.List.Sort
import Mathlib.Data.List.TakeWhile

/-!
# Lists in order

Facts about lists that the builder's stack and the tables of nodes need. A property that every
element passes on to those before it holds of a front part of the list, so taking while it holds and
filtering by it are the same. A list in ascending order is known by its members, and by a key if its
elements ascend by the key. A list is cut in one way only where a front part of a kind ends, and so
where an element stands for the first or for the last time.
-/

namespace Offside

variable {α β ε : Type}

/-! ## Front parts -/

/-- Where each element passes a property on to those before it, the first elements that have it are
all that have it. -/
theorem takeWhile_eq_filter {p : α → Bool} {xs : List α}
    (h : xs.Pairwise fun x y => p y → p x) : xs.takeWhile p = xs.filter p := by
  induction xs with
  | nil => rfl
  | cons x xs ih =>
    obtain ⟨hx, hxs⟩ := List.pairwise_cons.mp h
    by_cases hp : p x
    · rw [List.takeWhile_cons_of_pos hp, List.filter_cons_of_pos hp, ih hxs]
    · rw [List.takeWhile_cons_of_neg hp, List.filter_cons_of_neg hp]
      exact (List.filter_eq_nil_iff.mpr fun y hy hpy => hp (hx y hy hpy)).symm

theorem dropWhile_eq_filter {p : α → Bool} {xs : List α}
    (h : xs.Pairwise fun x y => p y → p x) : xs.dropWhile p = xs.filter (!p ·) := by
  induction xs with
  | nil => rfl
  | cons x xs ih =>
    obtain ⟨hx, hxs⟩ := List.pairwise_cons.mp h
    by_cases hp : p x
    · rw [List.dropWhile_cons_of_pos hp, List.filter_cons_of_neg (by simp [hp]), ih hxs]
    · rw [List.dropWhile_cons_of_neg hp]
      refine (List.filter_eq_self.mpr fun y hy => ?_).symm
      rcases List.mem_cons.mp hy with rfl | hy
      · simp [hp]
      · simpa using fun hpy => hp (hx y hy hpy)

/-! A front part ends within the first of two lists if no element of the second belongs to it. -/

theorem takeWhile_append_of_none {p : α → Bool} {ys : List α} (h : ∀ y ∈ ys, p y = false)
    (xs : List α) : (xs ++ ys).takeWhile p = xs.takeWhile p := by
  induction xs with
  | nil => exact List.takeWhile_eq_nil_iff.mpr fun hpos => by simp [h]
  | cons x xs ih => simp only [List.cons_append, List.takeWhile_cons, ih]

theorem dropWhile_append_of_none {p : α → Bool} {ys : List α} (h : ∀ y ∈ ys, p y = false)
    (xs : List α) : (xs ++ ys).dropWhile p = xs.dropWhile p ++ ys := by
  induction xs with
  | nil => exact List.dropWhile_eq_self_iff.mpr fun hpos => by simp [h]
  | cons x xs ih =>
    simp only [List.cons_append, List.dropWhile_cons, ih]
    split <;> rfl

/-! A front part of elements that all belong to it ends where the next list begins with one that does
not. -/

theorem takeWhile_append_of_stops {p : α → Bool} {xs ys : List α} (hxs : ∀ x ∈ xs, p x = true)
    (hys : ∀ y ∈ ys.head?, p y = false) : (xs ++ ys).takeWhile p = xs := by
  rw [List.takeWhile_append_of_pos hxs]
  obtain _ | ⟨y, ys⟩ := ys
  · simp
  · simp [hys y rfl]

theorem dropWhile_append_of_stops {p : α → Bool} {xs ys : List α} (hxs : ∀ x ∈ xs, p x = true)
    (hys : ∀ y ∈ ys.head?, p y = false) : (xs ++ ys).dropWhile p = ys := by
  rw [List.dropWhile_append_of_pos hxs]
  obtain _ | ⟨y, ys⟩ := ys
  · rfl
  · simp [hys y rfl]

/-- So a list is cut in one way only where such a front part ends. -/
theorem append_inj_of_stops {p : α → Bool} {xs xs' ys ys' : List α} (hxs : ∀ x ∈ xs, p x = true)
    (hxs' : ∀ x ∈ xs', p x = true) (hys : ∀ y ∈ ys.head?, p y = false)
    (hys' : ∀ y ∈ ys'.head?, p y = false) (h : xs ++ ys = xs' ++ ys') : xs = xs' ∧ ys = ys' := by
  have htake := congrArg (List.takeWhile p) h
  have hdrop := congrArg (List.dropWhile p) h
  rw [takeWhile_append_of_stops hxs hys, takeWhile_append_of_stops hxs' hys'] at htake
  rw [dropWhile_append_of_stops hxs hys, dropWhile_append_of_stops hxs' hys'] at hdrop
  exact ⟨htake, hdrop⟩

theorem append_cons_inj_of_first [DecidableEq α] {d : α} {xs xs' ys ys' : List α} (hxs : d ∉ xs)
    (hxs' : d ∉ xs') (h : xs ++ d :: ys = xs' ++ d :: ys') : xs = xs' ∧ ys = ys' := by
  have hne {zs : List α} (hzs : d ∉ zs) : ∀ z ∈ zs, decide (z ≠ d) = true := by
    intro z hz
    exact decide_eq_true fun heq => hzs (heq ▸ hz)
  obtain ⟨hfront, hback⟩ := append_inj_of_stops (hne hxs) (hne hxs') (by simp) (by simp) h
  exact ⟨hfront, List.tail_eq_of_cons_eq hback⟩

/-- A list is cut in one way only at the last place that holds an element. -/
theorem append_cons_inj_of_last [DecidableEq α] {d : α} {xs xs' ys ys' : List α} (hys : d ∉ ys)
    (hys' : d ∉ ys') (h : xs ++ d :: ys = xs' ++ d :: ys') : xs = xs' ∧ ys = ys' := by
  have hreverse := congrArg List.reverse h
  simp only [List.reverse_append, List.reverse_cons, List.append_assoc, List.singleton_append]
    at hreverse
  rw [← List.mem_reverse] at hys hys'
  obtain ⟨hback, hfront⟩ := append_cons_inj_of_first hys hys' hreverse
  exact ⟨List.reverse_injective hfront, List.reverse_injective hback⟩

theorem stops_dropWhile {p : α → Bool} {xs : List α} :
    ∀ x ∈ (xs.dropWhile p).head?, p x = false := by
  intro x hx
  have hnot := List.head?_dropWhile_not p xs
  rw [hx] at hnot
  exact hnot

theorem getElem?_of_isPrefix {xs ys : List α} {x : α} {i : Nat} (h : xs <+: ys)
    (hx : xs[i]? = some x) : ys[i]? = some x := by
  obtain ⟨more, rfl⟩ := h
  rw [List.getElem?_append_left (List.getElem?_eq_some_iff.mp hx).1, hx]

/-- Filters agree on lists whose elements correspond in the front part, if they keep nothing of what
the longer list has behind it. -/
theorem forall₂_filter {r : α → α → Prop} {p : α → Bool} {xs ys : List α}
    (hfront : ∀ (i : Nat) (x : α), xs[i]? = some x → ∃ y, ys[i]? = some y ∧ r x y ∧ p x = p y)
    (hback : ∀ (i : Nat) (y : α), xs.length ≤ i → ys[i]? = some y → p y = false) :
    List.Forall₂ r (xs.filter p) (ys.filter p) := by
  induction xs generalizing ys with
  | nil =>
    have hnone : ys.filter p = [] := by
      rw [List.filter_eq_nil_iff]
      intro y hy
      obtain ⟨i, hi⟩ := List.mem_iff_getElem?.mp hy
      simp [hback i y (Nat.zero_le i) hi]
    rw [hnone]
    exact .nil
  | cons x xs ih =>
    obtain ⟨y, hy, hr, hp⟩ := hfront 0 x rfl
    obtain _ | ⟨y, ys⟩ := ys
    · cases hy
    obtain rfl := Option.some.inj hy
    have hrest := ih (fun i => hfront (i + 1)) fun i y hi => hback (i + 1) y (Nat.succ_le_succ hi)
    rw [List.filter_cons, List.filter_cons, ← hp]
    split
    · exact .cons hr hrest
    · exact hrest

/-! ## Ascending lists -/

/-- The last element of a list that ascends by a key has the largest key. -/
theorem le_last_of_ascending_by (key : α → Nat) {xs : List α} {last x : α}
    (h : xs.Pairwise fun x y => key x < key y) (hlast : xs.getLast? = some last) (hx : x ∈ xs) :
    key x ≤ key last := by
  obtain ⟨front, rfl⟩ := List.getLast?_eq_some_iff.mp hlast
  rcases List.mem_append.mp hx with hx | hx
  · exact Nat.le_of_lt ((List.pairwise_append.mp h).2.2 x hx last (List.mem_singleton_self last))
  · exact Nat.le_of_eq (congrArg key (List.mem_singleton.mp hx))

theorem le_last_of_ascending {xs : List Nat} {last x : Nat} (h : xs.Pairwise (· < ·))
    (hlast : xs.getLast? = some last) (hx : x ∈ xs) : x ≤ last :=
  le_last_of_ascending_by id h hlast hx

/-- Lists that ascend by a key and have the same members are equal. -/
theorem eq_of_ascending_by (key : α → Nat) {xs ys : List α}
    (hx : xs.Pairwise fun x y => key x < key y) (hy : ys.Pairwise fun x y => key x < key y)
    (h : ∀ x, x ∈ xs ↔ x ∈ ys) : xs = ys := by
  have : Std.Irrefl fun x y : α => key x < key y := ⟨fun x => Nat.lt_irrefl (key x)⟩
  have : Std.Antisymm fun x y : α => key x < key y :=
    ⟨fun x y hxy hyx => absurd hxy (Nat.lt_asymm hyx)⟩
  exact hx.eq_of_mem_iff hy h

theorem eq_of_ascending {xs ys : List Nat} (hx : xs.Pairwise (· < ·)) (hy : ys.Pairwise (· < ·))
    (h : ∀ x, x ∈ xs ↔ x ∈ ys) : xs = ys :=
  hx.eq_of_mem_iff hy h

/-! ## Steps that may fail -/

theorem bind_eq_ok_iff {x : Except ε α} {f : α → Except ε β} {b : β} :
    x >>= f = .ok b ↔ ∃ a, x = .ok a ∧ f a = .ok b := by
  cases x with
  | error e => exact ⟨nofun, nofun⟩
  | ok a =>
    refine ⟨fun h => ⟨a, rfl, h⟩, ?_⟩
    rintro ⟨_, heq, h⟩
    cases heq
    exact h

theorem mapError_eq_ok_iff {ε' : Type} {x : Except ε α} {f : ε → ε'} {a : α} :
    x.mapError f = .ok a ↔ x = .ok a := by
  cases x <;> simp [Except.mapError]

theorem mapM_eq_ok {f : α → Except ε β} {g : α → β} {xs : List α}
    (h : ∀ x ∈ xs, f x = .ok (g x)) : xs.mapM f = .ok (xs.map g) := by
  induction xs with
  | nil => rfl
  | cons x xs ih =>
    rw [List.mapM_cons, h x List.mem_cons_self, ih fun y hy => h y (List.mem_cons_of_mem x hy)]
    rfl

/-- Where what a step makes tells what it was made from, so do its results for a list. -/
theorem map_of_mapM_eq_ok {f : α → Except ε β} {g : β → α} {xs : List α} {ys : List β}
    (hg : ∀ x y, f x = .ok y → g y = x) (h : xs.mapM f = .ok ys) :
    ys.map g = xs ∧ ∀ y ∈ ys, f (g y) = .ok y := by
  induction xs generalizing ys with
  | nil =>
    cases h
    exact ⟨rfl, nofun⟩
  | cons x xs ih =>
    rw [List.mapM_cons] at h
    obtain ⟨y, hy, hrest⟩ := bind_eq_ok_iff.mp h
    obtain ⟨rest, hxs, hcons⟩ := bind_eq_ok_iff.mp hrest
    cases hcons
    obtain ⟨hmap, hall⟩ := ih hxs
    refine ⟨by rw [List.map_cons, hg x y hy, hmap], List.forall_mem_cons.mpr ⟨?_, hall⟩⟩
    rw [hg x y hy, hy]

/-- A check of a list passes when it passes for every element. -/
theorem forM_eq_ok_iff {f : α → Except ε Unit} {xs : List α} {u : Unit} :
    xs.forM f = .ok u ↔ ∀ x ∈ xs, f x = .ok () := by
  induction xs with
  | nil => exact ⟨fun _ _ h => absurd h List.not_mem_nil, fun _ => rfl⟩
  | cons x xs ih =>
    show (f x >>= fun _ => xs.forM f) = .ok u ↔ _
    rw [bind_eq_ok_iff, List.forall_mem_cons, ← ih]
    exact ⟨fun ⟨_, hx, hxs⟩ => ⟨hx, hxs⟩, fun ⟨hx, hxs⟩ => ⟨(), hx, hxs⟩⟩

end Offside
