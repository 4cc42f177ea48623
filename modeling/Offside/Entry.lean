/-!
# Entries

A table is a list of entries with distinct names. Putting a value under a name takes the place of the
value that is there and keeps its position; a new name goes to the end.
-/

namespace Offside

/-- Puts a value under a key, in the place of the one that is there. -/
def putEntry {α : Type} (key : String) (value : α) : List (String × α) → List (String × α)
  | [] => [(key, value)]
  | (other, old) :: rest =>
    if other = key then (key, value) :: rest else (other, old) :: putEntry key value rest

/-- The value just put under a key is found there, and all other keys keep theirs. -/
theorem lookup_putEntry {α : Type} (key other : String) (value : α) (entries : List (String × α)) :
    (putEntry key value entries).lookup other =
      if other = key then some value else entries.lookup other := by
  induction entries with
  | nil =>
    by_cases h : other = key
    · simp [putEntry, h]
    · simp [putEntry, List.lookup_cons, h, beq_eq_false_iff_ne.mpr h]
  | cons entry rest ih =>
    obtain ⟨name, old⟩ := entry
    by_cases hk : name = key
    · subst hk
      by_cases h : other = name
      · simp [putEntry, h]
      · simp [putEntry, List.lookup_cons, h, beq_eq_false_iff_ne.mpr h]
    · by_cases h : other = name
      · subst h
        simp [putEntry, hk]
      · simp only [putEntry, if_neg hk, List.lookup_cons, beq_eq_false_iff_ne.mpr h]
        exact ih

def dropEntry {α : Type} (key : String) (entries : List (String × α)) : List (String × α) :=
  entries.filter (·.1 ≠ key)

/-- Nothing is found under a key that was dropped. -/
theorem lookup_dropEntry {α : Type} (key : String) (entries : List (String × α)) :
    (dropEntry key entries).lookup key = none := by
  simp only [dropEntry, List.lookup_eq_none_iff, List.mem_filter, decide_eq_true_eq, bne_iff_ne]
  exact fun entry kept same => kept.2 same.symm

end Offside
