import Offside.Proofs.Delimiters

/-!
# The simple form of tokens

No two lists of tokens whose texts are on one line have the same simple form
(`formatTokens_simple_lossless`), and all lists that the stream of a text gives are such.

A token is read off its line from both ends (`Token.display_injective`). Its place is what stands
behind the last `@`, for numbers and the colon between them hold none. Its name is what stands in
front of the first opening bracket, for no name holds one. What is left between them is the text in
its brackets, or nothing.
-/

namespace Offside

open Offside.Text

namespace Token

/-- The place of a token as its one-line form shows it. -/
def shownPlace (token : Token) : List Char :=
  token.line.repr.toList ++ ':' :: token.column.repr.toList

/-- The text of a token as its one-line form shows it. -/
def shownText (token : Token) : List Char :=
  match token.attr with
  | some text => '(' :: (text.toList ++ [')'])
  | none => []

theorem display_toList (token : Token) : token.display.toList =
    (token.symbol.name.toList ++ token.shownText) ++ '@' :: token.shownPlace := by
  cases hattr : token.attr <;> simp [display, shownText, shownPlace, hattr]

theorem at_not_mem_shownPlace (token : Token) : '@' ∉ token.shownPlace := by
  rw [shownPlace, List.mem_append, List.mem_cons, not_or, not_or]
  exact ⟨not_mem_repr _ rfl, by decide, not_mem_repr _ rfl⟩

theorem place_eq_of_shownPlace {token token' : Token} (h : token.shownPlace = token'.shownPlace) :
    token.line = token'.line ∧ token.column = token'.column := by
  have hcolon (n : Nat) : ':' ∉ n.repr.toList := not_mem_repr n rfl
  obtain ⟨hline, hcolumn⟩ := append_cons_inj_of_first (hcolon _) (hcolon _) h
  exact ⟨eq_of_repr hline, eq_of_repr hcolumn⟩

/-- The text in its brackets, if there is any, begins where the name ends. -/
theorem shownText_stops (token : Token) : ∀ c ∈ token.shownText.head?, c.isAlpha = false := by
  rw [shownText]
  cases token.attr with
  | none => exact nofun
  | some text =>
    rintro c ⟨⟩
    rfl

theorem attr_eq_of_shownText {token token' : Token} (h : token.shownText = token'.shownText) :
    token.attr = token'.attr := by
  unfold shownText at h
  cases hattr : token.attr <;> cases hattr' : token'.attr <;> rw [hattr, hattr'] at h
  · cases h
  · cases h
  · rw [List.cons_inj_right, List.append_left_inj, String.toList_inj] at h
    rw [h]

/-- A token is known by its one-line form, whatever its text is. -/
theorem display_injective : Function.Injective display := by
  intro token token' h
  have hlists := congrArg String.toList h
  rw [display_toList, display_toList] at hlists
  obtain ⟨hfront, hplace⟩ := append_cons_inj_of_last token.at_not_mem_shownPlace
    token'.at_not_mem_shownPlace hlists
  obtain ⟨hname, htext⟩ := append_inj_of_stops (fun _ => token.symbol.isAlpha_of_mem_name)
    (fun _ => token'.symbol.isAlpha_of_mem_name) token.shownText_stops token'.shownText_stops hfront
  have hsymbol := Symbol.name_injective (String.toList_inj.mp hname)
  have hattr := attr_eq_of_shownText htext
  obtain ⟨hline, hcolumn⟩ := place_eq_of_shownPlace hplace
  cases token
  cases token'
  rw [Token.mk.injEq]
  exact ⟨hsymbol, hattr, hline, hcolumn⟩

theorem display_ne_empty (token : Token) : token.display ≠ "" := by
  intro h
  have hlist := display_toList token
  rw [h] at hlist
  cases (List.append_eq_nil_iff.mp hlist.symm).2

/-- The one-line form of a token whose text is on one line is one line. -/
theorem OneLine.feed_not_mem_display {token : Token} (h : token.OneLine) :
    '\n' ∉ token.display.toList := by
  have htext : '\n' ∉ token.shownText := by
    rw [shownText]
    cases hattr : token.attr with
    | none => exact List.not_mem_nil
    | some text => simpa using h text hattr
  rw [display_toList, shownPlace]
  simp only [List.mem_append, List.mem_cons, not_or]
  exact ⟨⟨Symbol.not_mem_name _ rfl, htext⟩, by decide, not_mem_repr _ rfl, by decide,
    not_mem_repr _ rfl⟩

end Token

/-- **The simple form of tokens loses nothing.** The texts of tokens that come from a text hold no
line feed, and lists of tokens without a line feed in their texts are told apart by their simple
forms. The texts may look like any part of the form. -/
theorem formatTokens_simple_lossless :
    (∀ (tabs : Tabs) (text : List Char), ∀ token ∈ tokens tabs text, token.OneLine) ∧
    ∀ first second : List Token, (∀ token ∈ first, token.OneLine) →
      (∀ token ∈ second, token.OneLine) →
      formatTokens first .simple = formatTokens second .simple → first = second := by
  refine ⟨fun _ _ _ => oneLine_of_mem_tokens, fun first second hfirst hsecond h => ?_⟩
  have hrows {tokens : List Token} (htokens : ∀ token ∈ tokens, token.OneLine) :
      ∀ row ∈ tokens.map Token.display, '\n' ∉ row.toList ∧ row ≠ "" :=
    List.forall_mem_map.mpr fun token htoken =>
      ⟨(htokens token htoken).feed_not_mem_display, token.display_ne_empty⟩
  exact Token.display_injective.list_map (eq_of_joinLines (hrows hfirst) (hrows hsecond) h)

/-- A clause with a bracket, a place and a colon in it, as they stand in the form itself. -/
theorem formatTokens_simple_lossless_clause :
    let text := "while f(x)@1[2:3] :\n pass".toList
    let written : List Token := [⟨.block .whileLoop, some "f(x)@1[2:3]", 0, 0⟩,
      .structural .indent 1, ⟨.statement, none, 1, 1⟩, .structural .dedent 2, .structural .eof 2]
    (∀ token ∈ written, token.OneLine) ∧
      formatTokens written .simple = formatTokens (tokens ⟨4, false⟩ text) .simple ∧
      formatTokens written .simple =
        "while(f(x)@1[2:3])@0:0\nINDENT@1:0\nstatement@1:1\nDEDENT@2:0\nEOF@2:0" ∧
      written = tokens ⟨4, false⟩ text := by
  intro text written
  obtain ⟨htokens, hlossless⟩ := formatTokens_simple_lossless
  have hwritten : ∀ token ∈ written, token.OneLine := by
    have hattrs : ∀ token ∈ written, ∀ text ∈ token.attr, '\n' ∉ text.toList := by decide
    exact hattrs
  have hform : formatTokens written .simple = formatTokens (tokens ⟨4, false⟩ text) .simple := by
    decide +kernel
  exact ⟨hwritten, hform, by decide +kernel,
    hlossless written _ hwritten (htokens ⟨4, false⟩ text) hform⟩

end Offside
