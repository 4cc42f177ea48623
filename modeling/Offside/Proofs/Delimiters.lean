import Offside.Format
import Offside.Proofs.Provenance

/-!
# Delimiters in reports

What the one-line forms of tokens and nodes rest on. They escape nothing, and the text of a token
may hold any character but a line feed. So a reader of such a line has only this to go by: the name
of a symbol consists of letters, a number of digits, and nothing in the stream of a text holds a line
feed (`oneLine_of_mem_tokens`). By the last the lines of a report are known again
(`splitOn_joinLines`, `eq_of_joinLines`).
-/

namespace Offside

open Offside.Text

/-! ## Names and numbers -/

namespace Symbol

theorem mem_all (s : Symbol) : s ∈ all := by
  rcases s with kind | _ | _ | _ | _ | _
  · cases kind <;> decide
  all_goals decide

/-- Symbols are told apart by their names. -/
theorem name_injective : Function.Injective name := by
  intro s s' h
  have hnodup : (all.map name).Nodup := by decide +kernel
  exact List.inj_on_of_nodup_map hnodup s.mem_all s'.mem_all h

theorem isAlpha_of_mem_name {c : Char} (s : Symbol) (h : c ∈ s.name.toList) : c.isAlpha = true := by
  have hall : all.all (fun s => s.name.toList.all Char.isAlpha) = true := by decide +kernel
  exact List.all_eq_true.mp (List.all_eq_true.mp hall s s.mem_all) c h

theorem length_name_lt (s : Symbol) : s.name.toList.length < 10 := by
  have hall : ∀ s ∈ all, s.name.toList.length < 10 := by decide +kernel
  exact hall s s.mem_all

/-- A character that is no letter is in no name. -/
theorem not_mem_name {c : Char} (s : Symbol) (h : c.isAlpha = false) : c ∉ s.name.toList := by
  intro hmem
  cases h.symm.trans (s.isAlpha_of_mem_name hmem)

end Symbol

theorem isDigit_of_mem_repr {n : Nat} {c : Char} (h : c ∈ n.repr.toList) : c.isDigit = true :=
  Nat.isDigit_of_mem_toDigits (by decide) (by decide) (Nat.toList_repr ▸ h)

/-- A character that is no digit is in no number. -/
theorem not_mem_repr {c : Char} (n : Nat) (h : c.isDigit = false) : c ∉ n.repr.toList := by
  intro hmem
  cases h.symm.trans (isDigit_of_mem_repr hmem)

/-- Numbers are told apart by their digits. -/
theorem eq_of_repr {n m : Nat} (h : n.repr.toList = m.repr.toList) : n = m := by
  rw [Nat.toList_repr, Nat.toList_repr] at h
  have hread := congrArg readDigits h
  rw [readDigits_toDigits, readDigits_toDigits] at hread
  exact Option.some.inj hread

/-! ## Lines of a report -/

section Joined

variable {rows rows' : List String}

/-- The rows of a report are what stands between its line feeds. -/
theorem splitOn_joinLines (hne : rows ≠ []) (hrows : ∀ row ∈ rows, '\n' ∉ row.toList) :
    ("\n".intercalate rows).toList.splitOn '\n' = rows.map String.toList := by
  rw [String.toList_intercalate]
  refine List.splitOn_intercalate '\n' ?_ (by simpa using hne)
  exact List.forall_mem_map.mpr hrows

/-- Reports without empty rows are told apart by their rows. -/
theorem eq_of_joinLines (hrows : ∀ row ∈ rows, '\n' ∉ row.toList ∧ row ≠ "")
    (hrows' : ∀ row ∈ rows', '\n' ∉ row.toList ∧ row ≠ "")
    (h : "\n".intercalate rows = "\n".intercalate rows') : rows = rows' := by
  have hempty {rows : List String} (hrows : ∀ row ∈ rows, '\n' ∉ row.toList ∧ row ≠ "")
      (h : "\n".intercalate rows = "") : rows = [] := by
    cases rows with
    | nil => rfl
    | cons row rows =>
      have hsplit := splitOn_joinLines (List.cons_ne_nil _ _) fun row hrow => (hrows row hrow).1
      rw [h] at hsplit
      have hrow : [] = row.toList := (List.cons_eq_cons.mp hsplit).1
      exact absurd (String.toList_eq_nil_iff.mp hrow.symm) (hrows row List.mem_cons_self).2
  rcases eq_or_ne rows [] with rfl | hne
  · exact (hempty hrows' h.symm).symm
  rcases eq_or_ne rows' [] with rfl | hne'
  · exact hempty hrows h
  have hsplit := splitOn_joinLines hne fun row hrow => (hrows row hrow).1
  rw [h, splitOn_joinLines hne' fun row hrow => (hrows' row hrow).1] at hsplit
  exact (List.map_injective_iff.mpr fun _ _ => String.toList_injective) hsplit.symm

end Joined

/-! ## Texts of one line -/

/-- The text of the token, if it has one, holds no line feed. -/
def Token.OneLine (token : Token) : Prop := ∀ text ∈ token.attr, '\n' ∉ text.toList

theorem oneLine_lineToken (tabs : Tabs) (number : Nat) {line : List Char} (hfeed : '\n' ∉ line) :
    (lineToken tabs number line).token.OneLine := by
  cases hblank : allBlank line with
  | true =>
    rw [lineToken_of_blank tabs number hblank]
    exact nofun
  | false =>
    exact fun text htext => ((isOf_lineToken tabs number hblank hfeed).text text htext).2.1

/-- No token in the stream of a text holds a line feed. -/
theorem oneLine_of_mem_tokens {tabs : Tabs} {text : List Char} {token : Token}
    (h : token ∈ tokens tabs text) : token.OneLine := by
  rcases mem_tokens h with ⟨number, line, hline, rfl⟩ | ⟨_, heq⟩
  · exact oneLine_lineToken tabs number (feed_not_mem_of_mem_lines (List.mem_of_getElem? hline))
  · rw [heq]
    exact nofun

end Offside
