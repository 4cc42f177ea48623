import Offside.Proofs.Context

/-!
# Only the relative depth of lines matters

The nesting of lines compares levels and never counts with them. So two layouts nest alike when they
agree on the lines that open a block and put the levels of lines in the same order
(`Layout.SameOrder`), and two documents have outlines of one shape (`Outline.SameShape`) when their
lines that are not blank do (`SameIndentation`). Nothing else about the two has to agree: a level
may be skipped in one and not in the other, and blank lines may stand anywhere.

Three ways to write a document anew keep the order of its levels: with other blank lines, with a
margin in front of every line, and with tabs for units of spaces. The margin has to be a whole
number of units, or the lines have to be indented by whole units. A part of a unit counts as one, so
in front of other lines a margin of half a unit may lift two levels to one or part one level in two,
and then the outline is another one (`not_sameShape_of_margin`).
-/

namespace Offside

open Offside.Text

/-! ## Layouts -/

namespace Layout

/-- The layouts have the same filled lines, which open blocks alike and whose levels are in the same
order. -/
structure SameOrder (first second : Layout) : Prop where
  filled : ∀ k, first.filled k = second.filled k
  opens : ∀ k, first.filled k = true → first.opens k = second.opens k
  level : ∀ j k, first.filled j = true → first.filled k = true →
    (first.level j ≤ first.level k ↔ second.level j ≤ second.level k)

namespace SameOrder

variable {first second : Layout} {j k l n p : Nat}

theorem symm (h : first.SameOrder second) : second.SameOrder first where
  filled k := (h.filled k).symm
  opens k hk := (h.opens k (h.filled k ▸ hk)).symm
  level j k hj hk := (h.level j k (h.filled j ▸ hj) (h.filled k ▸ hk)).symm

theorem level_lt_iff (h : first.SameOrder second) (hj : first.filled j = true)
    (hk : first.filled k = true) :
    first.level j < first.level k ↔ second.level j < second.level k := by
  rw [← Nat.not_le, ← Nat.not_le, h.level k j hk hj]

theorem covers (h : first.SameOrder second) (hcov : first.Covers j l) : second.Covers j l where
  filled := h.filled j ▸ hcov.filled
  opens := h.opens j hcov.filled ▸ hcov.opens
  le := hcov.le
  deeper k hjk hkl hk := by
    have hfilled : first.filled k = true := (h.filled k).trans hk
    exact (h.level_lt_iff hcov.filled hfilled).mp (hcov.deeper k hjk hkl hfilled)

theorem covers_iff (h : first.SameOrder second) : first.Covers j l ↔ second.Covers j l :=
  ⟨h.covers, h.symm.covers⟩

theorem above_eq (h : first.SameOrder second) (k : Nat) : first.above k = second.above k :=
  above_congr fun _ => h.covers_iff

theorem closer_eq (h : first.SameOrder second) (hj : first.filled j = true) :
    first.closer n j = second.closer n j := by
  unfold closer
  congr 1
  funext k
  rw [decide_eq_decide, h.filled k]
  refine and_congr_right fun _ => and_congr_right fun hk => ?_
  exact h.level k j ((h.filled k).trans hk) hj

theorem placeAbove_eq (h : first.SameOrder second) (k : Nat) :
    first.placeAbove k = second.placeAbove k := by
  unfold placeAbove
  rw [h.above_eq]

theorem placesBelow_eq (h : first.SameOrder second) (n p : Nat) :
    first.placesBelow n p = second.placesBelow n p := by
  unfold placesBelow
  simp only [h.placeAbove_eq]

end SameOrder

end Layout

/-! ## Outlines -/

/-- The nodes agree in all but columns and lines. -/
structure Node.SameShape (node other : Node) : Prop where
  id : node.id = other.id
  label : node.label = other.label
  symbol : node.symbol? = other.symbol?
  attr : node.attr? = other.attr?
  parent : node.parent = other.parent
  children : node.children = other.children
  depth : node.depth = other.depth

/-- The outlines have as many nodes, which agree place by place. -/
structure Outline.SameShape (first second : Outline) : Prop where
  size : first.size = second.size
  node : ∀ (p : Nat) (node other : Node), first.nodes[p]? = some node →
    second.nodes[p]? = some other → node.SameShape other

/-- So the parents are the same ones throughout. -/
theorem Outline.SameShape.map_parent {first second : Outline} (h : first.SameShape second) :
    first.nodes.toList.map Node.parent = second.nodes.toList.map Node.parent := by
  apply List.ext_getElem
  · rw [List.length_map, List.length_map]
    exact h.size
  · intro p hp hp'
    rw [List.length_map, Array.length_toList] at hp hp'
    rw [List.getElem_map, List.getElem_map, Array.getElem_toList, Array.getElem_toList]
    have hnode := h.node p _ _ (Array.getElem?_eq_getElem hp) (Array.getElem?_eq_getElem hp')
    exact hnode.parent

section Entries

variable {first second : List LineToken} {entry other : LineToken} {k m n last last' : Nat}

theorem nodeAt_sameShape
    (h : (Layout.ofEntries first).SameOrder (Layout.ofEntries second))
    (hsymbol : entry.token.symbol = other.token.symbol)
    (hattr : entry.token.attr = other.token.attr) :
    (nodeAt first n last k entry).SameShape (nodeAt second n last' k other) where
  id := rfl
  label := by simp only [nodeAt, hsymbol]
  symbol := congrArg some hsymbol
  attr := hattr
  parent := congrArg some (h.placeAbove_eq k)
  children := h.placesBelow_eq n (k + 1)
  depth := by simp only [nodeAt, h.above_eq]

/-- Entries in the same order make outlines of one shape. -/
theorem Outline.Lists.sameShape {outline outline' : Outline} (hfirst : outline.Lists first)
    (hsecond : outline'.Lists second) (hlength : first.length = second.length)
    (h : (Layout.ofEntries first).SameOrder (Layout.ofEntries second))
    (htoken : ∀ (k : Nat) (entry other : LineToken), first[k]? = some entry →
      second[k]? = some other →
        entry.token.symbol = other.token.symbol ∧ entry.token.attr = other.token.attr) :
    outline.SameShape outline' where
  size := by rw [hfirst.size, hsecond.size, hlength]
  node p node other hp hp' := by
    rcases hfirst.cases (Nat.le_refl _) hp with ⟨rfl, rfl⟩ | ⟨k, entry, rfl, _, he, rfl⟩
    · obtain rfl := Option.some.inj (hsecond.root.symm.trans hp')
      exact ⟨rfl, rfl, rfl, rfl, rfl, hlength ▸ h.placesBelow_eq _ 0, rfl⟩
    · rcases hsecond.cases (Nat.le_refl _) hp' with ⟨hk, _⟩ | ⟨m, entry', hkm, _, he', rfl⟩
      · omega
      · obtain rfl : k = m := Nat.succ.inj hkm
        obtain ⟨hsymbol, hattr⟩ := htoken k entry entry' he he'
        rw [← hlength]
        exact nodeAt_sameShape h hsymbol hattr

end Entries

/-! ## Documents -/

/-- The lines of a text that are not blank. -/
def filledTexts (text : List Char) : List (List Char) := (lines text).filter (!allBlank ·)

/-- The `p`-th of them; empty if there is no such line. -/
def filledText (text : List Char) (p : Nat) : List Char := ((filledTexts text)[p]?).getD []

/-- The numbers of the blank lines of a text. -/
def blankLines (text : List Char) : List Nat :=
  (List.range (lineCount text)).filter fun i => allBlank (textLine text i)

/-- The documents have as many lines that are not blank, which introduce the same and whose levels
are in the same order. -/
structure SameIndentation (tabs₁ : Tabs) (text₁ : List Char) (tabs₂ : Tabs) (text₂ : List Char) :
    Prop where
  count : (filledTexts text₁).length = (filledTexts text₂).length
  symbol : ∀ p < (filledTexts text₁).length,
    (LineKind.ofLine (filledText text₁ p)).symbol = (LineKind.ofLine (filledText text₂ p)).symbol
  attr : ∀ p < (filledTexts text₁).length,
    (LineKind.ofLine (filledText text₁ p)).attr = (LineKind.ofLine (filledText text₂ p)).attr
  order : ∀ p < (filledTexts text₁).length, ∀ q < (filledTexts text₁).length,
    (level tabs₁ (filledText text₁ p) ≤ level tabs₁ (filledText text₁ q) ↔
      level tabs₂ (filledText text₂ p) ≤ level tabs₂ (filledText text₂ q))

section Documents

variable {tabs tabs₁ tabs₂ : Tabs} {text text₁ text₂ : List Char} {i p q : Nat}

theorem lines_eq_map (text : List Char) :
    lines text = (List.range (lineCount text)).map (textLine text) := by
  apply List.ext_getElem?
  intro i
  rw [List.getElem?_map]
  by_cases hi : i < lineCount text
  · rw [List.getElem?_range hi, Option.map_some, textLine, List.getElem?_eq_getElem hi,
      Option.getD_some]
  · rw [List.getElem?_eq_none (Nat.le_of_not_lt hi),
      List.getElem?_eq_none (by simpa using hi), Option.map_none]

theorem filledTexts_eq_map (text : List Char) :
    filledTexts text = (filledLines text).map (textLine text) := by
  unfold filledTexts filledLines
  rw [lines_eq_map, List.filter_map]
  rfl

@[simp] theorem length_filledTexts : (filledTexts text).length = (filledLines text).length := by
  rw [filledTexts_eq_map, List.length_map]

theorem filledText_eq (h : p < (filledLines text).length) :
    filledText text p = textLine text (filledLine text p) := by
  unfold filledText filledLine
  rw [filledTexts_eq_map, List.getElem?_map, List.getElem?_eq_getElem h]
  rfl

theorem level_textEntries (h : p < (filledLines text).length) :
    (Layout.ofEntries (textEntries tabs text)).level p = level tabs (filledText text p) := by
  rw [(renumbers_text tabs text).level p h, filledText_eq h]
  rfl

theorem opens_textEntries (h : p < (filledLines text).length) :
    (Layout.ofEntries (textEntries tabs text)).opens p =
      (LineKind.ofLine (filledText text p)).symbol.opensBlock := by
  rw [(renumbers_text tabs text).opens p h, filledText_eq h]
  rfl

/-- Among lines that are not blank, a line is in a block of the text when its entry is. -/
theorem covers_filledLine_iff (hp : p < (filledLines text).length)
    (hq : q < (filledLines text).length) :
    (Layout.ofText tabs text).Covers (filledLine text p) (filledLine text q) ↔
      (Layout.ofEntries (textEntries tabs text)).Covers p q := by
  have h := renumbers_text tabs text
  have hcovers := h.covers_iff (c := q + 1) (h.lt q hq) hp fun r hr => by
    rw [← Nat.not_lt, h.lt_iff hq hr]
    omega
  rw [hcovers, Layout.openAfter, Layout.mem_around]

namespace SameIndentation

theorem length_eq (h : SameIndentation tabs₁ text₁ tabs₂ text₂) :
    (filledLines text₁).length = (filledLines text₂).length := by
  simpa only [length_filledTexts] using h.count

theorem sameOrder_entries (h : SameIndentation tabs₁ text₁ tabs₂ text₂) :
    (Layout.ofEntries (textEntries tabs₁ text₁)).SameOrder
      (Layout.ofEntries (textEntries tabs₂ text₂)) where
  filled k := by
    rw [Bool.eq_iff_iff, filled_ofEntries, filled_ofEntries, length_textEntries,
      length_textEntries, h.length_eq]
  opens k hk := by
    rw [filled_ofEntries, length_textEntries] at hk
    rw [opens_textEntries hk, opens_textEntries (h.length_eq ▸ hk),
      h.symbol k (by rwa [length_filledTexts])]
  level j k hj hk := by
    rw [filled_ofEntries, length_textEntries] at hj hk
    rw [level_textEntries hj, level_textEntries hk, level_textEntries (h.length_eq ▸ hj),
      level_textEntries (h.length_eq ▸ hk)]
    exact h.order j (by rwa [length_filledTexts]) k (by rwa [length_filledTexts])

theorem sameShape (h : SameIndentation tabs₁ text₁ tabs₂ text₂) :
    (Outline.ofText tabs₁ text₁).SameShape (Outline.ofText tabs₂ text₂) := by
  refine (Outline.lists_ofText tabs₁ text₁).sameShape (Outline.lists_ofText tabs₂ text₂) ?_
    h.sameOrder_entries ?_
  · rw [length_textEntries, length_textEntries, h.length_eq]
  · intro k entry other hentry hother
    have hk : k < (filledLines text₁).length :=
      length_textEntries ▸ (List.getElem?_eq_some_iff.mp hentry).1
    have hk' : k < (filledLines text₂).length := h.length_eq ▸ hk
    have hi : (filledLines text₁)[k]? = some (filledLines text₁)[k] := List.getElem?_eq_getElem hk
    have hi' : (filledLines text₂)[k]? = some (filledLines text₂)[k] := List.getElem?_eq_getElem hk'
    obtain rfl := Option.some.inj (hentry.symm.trans (getElem?_textEntries tabs₁ hi))
    obtain rfl := Option.some.inj (hother.symm.trans (getElem?_textEntries tabs₂ hi'))
    have hsymbol := h.symbol k (by rwa [length_filledTexts])
    have hattr := h.attr k (by rwa [length_filledTexts])
    rw [filledText_eq hk, filledText_eq hk', filledLine_eq hi, filledLine_eq hi'] at hsymbol hattr
    exact ⟨hsymbol, hattr⟩

/-- The blocks of the two documents contain the same of the lines that are not blank. -/
theorem contains_eq (h : SameIndentation tabs₁ text₁ tabs₂ text₂) {node other : Node}
    (hnode : (Outline.ofText tabs₁ text₁).nodes[p]? = some node)
    (hother : (Outline.ofText tabs₂ text₂).nodes[p]? = some other) (hblock : node.isBlock = true)
    (hq : q < (filledLines text₁).length) :
    node.lines.contains (filledLine text₁ q) = other.lines.contains (filledLine text₂ q) := by
  have hblock' : other.isBlock = true := by
    rw [Node.isBlock, ← (h.sameShape.node p node other hnode hother).label]
    exact hblock
  have hq' : q < (filledLines text₂).length := h.length_eq ▸ hq
  obtain _ | p := p
  · simp [Node.isBlock, Outline.label_ofText_zero hnode] at hblock
  obtain ⟨i, hi, hline⟩ := Outline.standsFor_ofText hnode
  obtain ⟨i', hi', hline'⟩ := Outline.standsFor_ofText hother
  have hcovers := Outline.encloses_iff_covers ((renumbers_text tabs₁ text₁).lt q hq) hline
    (filled_ofText_iff.mpr (List.mem_of_getElem? hi))
  have hcovers' := Outline.encloses_iff_covers ((renumbers_text tabs₂ text₂).lt q hq') hline'
    (filled_ofText_iff.mpr (List.mem_of_getElem? hi'))
  rw [Outline.encloses, hblock, Bool.true_and] at hcovers
  rw [Outline.encloses, hblock', Bool.true_and] at hcovers'
  rw [Bool.eq_iff_iff, hcovers, hcovers', ← filledLine_eq hi, ← filledLine_eq hi',
    covers_filledLine_iff (List.getElem?_eq_some_iff.mp hi).1 hq,
    covers_filledLine_iff (List.getElem?_eq_some_iff.mp hi').1 hq']
  exact h.sameOrder_entries.covers_iff

end SameIndentation

/-! ## Blank lines at the same places -/

theorem length_filledLines_add (text : List Char) :
    (filledLines text).length + (blankLines text).length = lineCount text := by
  have h := List.length_eq_length_filter_add (l := List.range (lineCount text))
    fun i => allBlank (textLine text i)
  rw [List.length_range] at h
  rw [filledLines, blankLines]
  omega

theorem filledLines_eq_filter (text : List Char) :
    filledLines text = (List.range (lineCount text)).filter (· ∉ blankLines text) := by
  unfold filledLines
  apply List.filter_congr
  intro i hi
  have hblank : i ∈ blankLines text ↔ allBlank (textLine text i) = true := by
    rw [blankLines, List.mem_filter]
    exact and_iff_right hi
  rw [Bool.eq_iff_iff, decide_eq_true_eq, hblank, Bool.not_eq_true', Bool.not_eq_true]

namespace SameIndentation

theorem lineCount_eq (h : SameIndentation tabs₁ text₁ tabs₂ text₂)
    (hblank : blankLines text₁ = blankLines text₂) : lineCount text₁ = lineCount text₂ := by
  rw [← length_filledLines_add text₁, ← length_filledLines_add text₂, h.length_eq, hblank]

theorem filledLines_eq (h : SameIndentation tabs₁ text₁ tabs₂ text₂)
    (hblank : blankLines text₁ = blankLines text₂) : filledLines text₁ = filledLines text₂ := by
  rw [filledLines_eq_filter, filledLines_eq_filter, h.lineCount_eq hblank, hblank]

/-- With blank lines at the same places, the lines of the texts themselves are in the same order. -/
theorem sameOrder_ofText (h : SameIndentation tabs₁ text₁ tabs₂ text₂)
    (hblank : blankLines text₁ = blankLines text₂) :
    (Layout.ofText tabs₁ text₁).SameOrder (Layout.ofText tabs₂ text₂) := by
  have hfilled := h.filledLines_eq hblank
  have hplace {i : Nat} (hi : (Layout.ofText tabs₁ text₁).filled i = true) :
      ∃ p < (filledTexts text₁).length, filledText text₁ p = textLine text₁ i ∧
        filledText text₂ p = textLine text₂ i := by
    obtain ⟨p, hp⟩ := List.mem_iff_getElem?.mp (filled_ofText_iff.mp hi)
    have hp' : (filledLines text₂)[p]? = some i := hfilled ▸ hp
    have hlt := (List.getElem?_eq_some_iff.mp hp).1
    have hlt' := (List.getElem?_eq_some_iff.mp hp').1
    refine ⟨p, by rwa [length_filledTexts], ?_, ?_⟩
    · rw [filledText_eq hlt, filledLine_eq hp]
    · rw [filledText_eq hlt', filledLine_eq hp']
  refine ⟨fun i => ?_, fun i hi => ?_, fun i j hi hj => ?_⟩
  · rw [Bool.eq_iff_iff, filled_ofText_iff, filled_ofText_iff, hfilled]
  · obtain ⟨p, hp, hline, hline'⟩ := hplace hi
    show (LineKind.ofLine (textLine text₁ i)).symbol.opensBlock =
      (LineKind.ofLine (textLine text₂ i)).symbol.opensBlock
    rw [← hline, ← hline', h.symbol p hp]
  · obtain ⟨p, hp, hline, hline'⟩ := hplace hi
    obtain ⟨q, hq, hother, hother'⟩ := hplace hj
    show level tabs₁ (textLine text₁ i) ≤ level tabs₁ (textLine text₁ j) ↔
      level tabs₂ (textLine text₂ i) ≤ level tabs₂ (textLine text₂ j)
    rw [← hline, ← hline', ← hother, ← hother']
    exact h.order p hp q hq

/-- Then the nodes cover the same lines. -/
theorem lines_eq (h : SameIndentation tabs₁ text₁ tabs₂ text₂)
    (hblank : blankLines text₁ = blankLines text₂) {node other : Node}
    (hnode : (Outline.ofText tabs₁ text₁).nodes[p]? = some node)
    (hother : (Outline.ofText tabs₂ text₂).nodes[p]? = some other) : node.lines = other.lines := by
  have hcount := h.lineCount_eq hblank
  have horder := h.sameOrder_ofText hblank
  cases p with
  | zero =>
    obtain rfl := Option.some.inj ((Outline.lists_ofText tabs₁ text₁).root.symm.trans hnode)
    obtain rfl := Option.some.inj ((Outline.lists_ofText tabs₂ text₂).root.symm.trans hother)
    simp only [rootAt, Outline.lineCount_ofText, hcount]
  | succ k =>
    obtain ⟨i, hi, hline⟩ := Outline.standsFor_ofText hnode
    obtain ⟨i', hi', hline'⟩ := Outline.standsFor_ofText hother
    obtain rfl : i = i' := Option.some.inj (hi.symm.trans (h.filledLines_eq hblank ▸ hi'))
    have hfilled : (Layout.ofText tabs₁ text₁).filled i = true :=
      filled_ofText_iff.mpr (List.mem_of_getElem? hi)
    rw [hline.lines, hline'.lines, horder.opens i hfilled, horder.closer_eq hfilled, hcount]

end SameIndentation

end Documents

/-! ## Ways to write a document anew -/

/-- The blanks that a unit of indentation is made of. -/
def Tabs.unit (tabs : Tabs) : Nat := if tabs.hard then 1 else tabs.effectiveWidth

section Margins

variable {tabs tabs₁ tabs₂ : Tabs} {margin line text₁ text₂ : List Char} {blanks count shift : Nat}

theorem Tabs.effectiveWidth_pos (tabs : Tabs) : 0 < tabs.effectiveWidth := by
  unfold effectiveWidth defaultWidth
  split <;> omega

@[simp] theorem Tabs.units_zero (tabs : Tabs) : tabs.units 0 = 0 := by
  have hpos := tabs.effectiveWidth_pos
  unfold units
  cases tabs.hard with
  | true => rfl
  | false =>
    simp only [Bool.false_eq_true, if_false, Nat.zero_add]
    exact Nat.div_eq_of_lt (Nat.sub_lt hpos Nat.one_pos)

theorem Tabs.units_unit_mul_add (tabs : Tabs) (count blanks : Nat) :
    tabs.units (tabs.unit * count + blanks) = count + tabs.units blanks := by
  unfold units unit
  cases tabs.hard with
  | true => simp
  | false =>
    simp only [Bool.false_eq_true, if_false, Nat.add_assoc]
    exact Nat.mul_add_div tabs.effectiveWidth_pos count _

theorem Tabs.units_unit_mul (tabs : Tabs) (count : Nat) :
    tabs.units (tabs.unit * count) = count := by
  simpa using tabs.units_unit_mul_add count 0

/-- Whole units add up. -/
theorem Tabs.units_add (h : tabs.unit ∣ blanks) (more : Nat) :
    tabs.units (blanks + more) = tabs.units blanks + tabs.units more := by
  obtain ⟨count, rfl⟩ := h
  rw [units_unit_mul_add, units_unit_mul]

theorem allBlank_append (h : allBlank margin = true) (line : List Char) :
    allBlank (margin ++ line) = allBlank line := by
  rw [allBlank, List.all_append, ← allBlank, ← allBlank, h, Bool.true_and]

theorem allBlank_replicate {c : Char} (hc : isBlank c = true) (count : Nat) :
    allBlank (List.replicate count c) = true := by
  simp [allBlank, hc]

theorem leadingByIndex_append (h : allBlank margin = true) (line : List Char) :
    leadingByIndex (margin ++ line) = margin.length + leadingByIndex line := by
  have hmargin : margin.findIdx (!isBlank ·) = margin.length := by
    rw [List.findIdx_eq_length]
    intro c hc
    simpa using List.all_eq_true.mp h c hc
  rw [leadingByIndex, List.findIdx_append, hmargin, if_neg (Nat.lt_irrefl _), Nat.add_comm]
  rfl

theorem ofLine_append (h : allBlank margin = true) (line : List Char) :
    LineKind.ofLine (margin ++ line) = LineKind.ofLine line := by
  have htrim : trimStart (margin ++ line) = trimStart line :=
    List.dropWhile_append_of_pos fun c hc => List.all_eq_true.mp h c hc
  rw [LineKind.ofLine, LineKind.ofLine, htrim]

/-- A margin lifts a line that is not blank by its own level, if it or the line's indentation is
made of whole units. -/
theorem level_append (h : allBlank margin = true)
    (hunit : tabs.unit ∣ margin.length ∨ tabs.unit ∣ leadingByIndex line)
    (hline : allBlank line = false) :
    level tabs (margin ++ line) = level tabs line + tabs.units margin.length := by
  rw [level, level, allBlank_append h, hline, leadingByIndex_append h]
  obtain hmargin | hindentation := hunit
  · rw [Tabs.units_add hmargin]
    exact Nat.add_comm _ _
  · rw [Nat.add_comm, Tabs.units_add hindentation]
    rfl

/-- Documents whose lines introduce the same, one as many levels deeper as the other throughout. -/
theorem SameIndentation.of_shift (shift : Nat)
    (h : List.Forall₂ (fun line line' => LineKind.ofLine line = LineKind.ofLine line' ∧
      level tabs₂ line' = level tabs₁ line + shift) (filledTexts text₁) (filledTexts text₂)) :
    SameIndentation tabs₁ text₁ tabs₂ text₂ := by
  have hline (p : Nat) (hp : p < (filledTexts text₁).length) :
      LineKind.ofLine (filledText text₁ p) = LineKind.ofLine (filledText text₂ p) ∧
        level tabs₂ (filledText text₂ p) = level tabs₁ (filledText text₁ p) + shift := by
    have hp' : p < (filledTexts text₂).length := h.length_eq ▸ hp
    rw [filledText, filledText, List.getElem?_eq_getElem hp, List.getElem?_eq_getElem hp']
    exact h.get hp hp'
  refine ⟨h.length_eq, fun p hp => ?_, fun p hp => ?_, fun p hp q hq => ?_⟩
  · rw [(hline p hp).1]
  · rw [(hline p hp).1]
  · rw [(hline p hp).2, (hline q hq).2]
    omega

theorem allBlank_of_mem_filledTexts {text : List Char} (h : line ∈ filledTexts text) :
    allBlank line = false := by
  simpa using (List.mem_filter.mp h).2

theorem sameIndentation_of_blank_lines (tabs : Tabs) (h : filledTexts text₁ = filledTexts text₂) :
    SameIndentation tabs text₁ tabs text₂ := by
  refine .of_shift 0 ?_
  rw [h, List.forall₂_same]
  intro line _
  exact ⟨rfl, rfl⟩

theorem sameIndentation_of_margin (tabs : Tabs) (hmargin : allBlank margin = true)
    (hunit : tabs.unit ∣ margin.length ∨
      ∀ line ∈ filledTexts text₁, tabs.unit ∣ leadingByIndex line)
    (h : filledTexts text₂ = (filledTexts text₁).map (margin ++ ·)) :
    SameIndentation tabs text₁ tabs text₂ := by
  refine .of_shift (tabs.units margin.length) ?_
  rw [h, List.forall₂_map_right_iff, List.forall₂_same]
  intro line hline
  exact ⟨(ofLine_append hmargin line).symm,
    level_append hmargin (hunit.imp_right (· line hline)) (allBlank_of_mem_filledTexts hline)⟩

/-- A line of content behind a whole number of units stands as many levels deep. -/
theorem level_indented {c : Char} {content : List Char} (hc : isBlank c = true)
    (hcontent : leadingByIndex content = 0) (hfilled : allBlank content = false) (tabs : Tabs)
    (count : Nat) : level tabs (List.replicate (tabs.unit * count) c ++ content) = count := by
  have hzero : level tabs content = 0 := by
    rw [level, hfilled, hcontent]
    exact tabs.units_zero
  have hunit : tabs.unit ∣ (List.replicate (tabs.unit * count) c).length :=
    ⟨count, List.length_replicate⟩
  rw [level_append (allBlank_replicate hc _) (.inl hunit) hfilled, hzero, List.length_replicate,
    Tabs.units_unit_mul, Nat.zero_add]

/-- The same content behind the same number of units, whatever blanks a unit is made of. -/
theorem sameIndentation_of_units {c₁ c₂ : Char} {rows : List (Nat × List Char)}
    (hc₁ : isBlank c₁ = true) (hc₂ : isBlank c₂ = true)
    (hrows : ∀ row ∈ rows, leadingByIndex row.2 = 0)
    (h₁ : filledTexts text₁ =
      rows.map fun row => List.replicate (tabs₁.unit * row.1) c₁ ++ row.2)
    (h₂ : filledTexts text₂ =
      rows.map fun row => List.replicate (tabs₂.unit * row.1) c₂ ++ row.2) :
    SameIndentation tabs₁ text₁ tabs₂ text₂ := by
  refine .of_shift 0 ?_
  rw [h₁, h₂, List.forall₂_map_left_iff, List.forall₂_map_right_iff, List.forall₂_same]
  intro row hrow
  have hmem : List.replicate (tabs₁.unit * row.1) c₁ ++ row.2 ∈ filledTexts text₁ := by
    rw [h₁]
    exact List.mem_map_of_mem hrow
  have hfilled : allBlank row.2 = false := by
    rw [← allBlank_append (allBlank_replicate hc₁ _)]
    exact allBlank_of_mem_filledTexts hmem
  rw [ofLine_append (allBlank_replicate hc₁ _), ofLine_append (allBlank_replicate hc₂ _),
    level_indented hc₁ (hrows row hrow) hfilled, level_indented hc₂ (hrows row hrow) hfilled]
  exact ⟨rfl, rfl⟩

end Margins

/-! ## The law -/

namespace Outline

/-- Only the order of the levels matters. Documents with the same indentation have outlines of one
shape, in which a block contains a line that is not blank in the one when it does in the other; with
blank lines at the same places, the nodes cover the same lines. Documents have the same indentation
when they differ in blank lines, in a margin in front of every line, where it or the indentation is
made of whole units, or in what a unit is made of, as a tab here and some spaces there. -/
theorem sameShape_ofText :
    (∀ (tabs₁ tabs₂ : Tabs) (text₁ text₂ : List Char), SameIndentation tabs₁ text₁ tabs₂ text₂ →
      (ofText tabs₁ text₁).SameShape (ofText tabs₂ text₂) ∧
      (∀ (p : Nat) (node other : Node), (ofText tabs₁ text₁).nodes[p]? = some node →
        (ofText tabs₂ text₂).nodes[p]? = some other → node.isBlock = true →
          ∀ q < (filledLines text₁).length, node.lines.contains (filledLine text₁ q) =
            other.lines.contains (filledLine text₂ q)) ∧
      (blankLines text₁ = blankLines text₂ →
        Offside.lineCount text₁ = Offside.lineCount text₂ ∧
        ∀ (p : Nat) (node other : Node), (ofText tabs₁ text₁).nodes[p]? = some node →
          (ofText tabs₂ text₂).nodes[p]? = some other → node.lines = other.lines)) ∧
    (∀ (tabs : Tabs) (text₁ text₂ : List Char), filledTexts text₁ = filledTexts text₂ →
      SameIndentation tabs text₁ tabs text₂) ∧
    (∀ (tabs : Tabs) (margin text₁ text₂ : List Char), allBlank margin = true →
      (tabs.unit ∣ margin.length ∨ ∀ line ∈ filledTexts text₁, tabs.unit ∣ leadingByIndex line) →
        filledTexts text₂ = (filledTexts text₁).map (margin ++ ·) →
          SameIndentation tabs text₁ tabs text₂) ∧
    ∀ (tabs₁ tabs₂ : Tabs) (c₁ c₂ : Char) (rows : List (Nat × List Char)) (text₁ text₂ : List Char),
      isBlank c₁ = true → isBlank c₂ = true → (∀ row ∈ rows, leadingByIndex row.2 = 0) →
        filledTexts text₁ =
            rows.map (fun row => List.replicate (tabs₁.unit * row.1) c₁ ++ row.2) →
          filledTexts text₂ =
              rows.map (fun row => List.replicate (tabs₂.unit * row.1) c₂ ++ row.2) →
            SameIndentation tabs₁ text₁ tabs₂ text₂ := by
  refine ⟨fun tabs₁ tabs₂ text₁ text₂ h => ⟨h.sameShape, ?_, fun hblank => ⟨?_, ?_⟩⟩, ?_, ?_, ?_⟩
  · intro p node other hnode hother hblock q hq
    exact h.contains_eq hnode hother hblock hq
  · exact h.lineCount_eq hblank
  · intro p node other hnode hother
    exact h.lines_eq hblank hnode hother
  · intro tabs text₁ text₂ h
    exact sameIndentation_of_blank_lines tabs h
  · intro tabs margin text₁ text₂ hmargin hunit h
    exact sameIndentation_of_margin tabs hmargin hunit h
  · intro tabs₁ tabs₂ c₁ c₂ rows text₁ text₂ hc₁ hc₂ hrows h₁ h₂
    exact sameIndentation_of_units hc₁ hc₂ hrows h₁ h₂

/-- A document that skips levels, and one with tabs and other blank lines. -/
theorem sameShape_ofText_skipped_levels :
    let text₁ := "if a:\n      try:\n               b\n\nelse:\n c".toList
    let text₂ := "\nif a:\n\t\ttry:\n\n\t\t\tb\nelse:\n\tc\n".toList
    SameIndentation ⟨2, false⟩ text₁ ⟨0, true⟩ text₂ ∧
      (ofText ⟨2, false⟩ text₁).SameShape (ofText ⟨0, true⟩ text₂) := by
  intro text₁ text₂
  have h : SameIndentation ⟨2, false⟩ text₁ ⟨0, true⟩ text₂ := by
    refine ⟨?_, ?_, ?_, ?_⟩ <;> decide +kernel
  exact ⟨h, (sameShape_ofText.1 _ _ text₁ text₂ h).1⟩

/-- **A margin of half a unit may change the shape.** In front of every line it lifts the first line
to the level of the second one, which is half a unit behind it, and so the second leaves the block of
the first. -/
theorem not_sameShape_of_margin :
    let text₁ := "if a:\n  b".toList
    let text₂ := "  if a:\n    b".toList
    lines text₂ = (lines text₁).map ("  ".toList ++ ·) ∧
      (filledTexts text₁).map (level .default) = [0, 1] ∧
      (filledTexts text₂).map (level .default) = [1, 1] ∧
      (ofText .default text₁).nodes.toList.map Node.parent = [none, some 0, some 1] ∧
      (ofText .default text₂).nodes.toList.map Node.parent = [none, some 0, some 0] ∧
      ¬ (ofText .default text₁).SameShape (ofText .default text₂) := by
  intro text₁ text₂
  have hparents : (ofText .default text₁).nodes.toList.map Node.parent =
      [none, some 0, some 1] := by decide +kernel
  have hparents' : (ofText .default text₂).nodes.toList.map Node.parent =
      [none, some 0, some 0] := by decide +kernel
  refine ⟨by decide +kernel, by decide +kernel, by decide +kernel, hparents, hparents', ?_⟩
  intro h
  have hmap := h.map_parent
  rw [hparents, hparents'] at hmap
  exact absurd hmap (by decide)

end Outline

end Offside
