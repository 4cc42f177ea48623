import Mathlib.Algebra.Group.Action.Defs
import Mathlib.Algebra.Order.BigOperators.Group.List
import Offside.Proofs.Context
import Offside.Proofs.Delimiters
import Offside.Proofs.Depths
import Offside.Proofs.RelativeDepth

/-!
# Listings tell everything but texts

The listing of a text's outline has one line for each node, in the order of the table, and outlines
with the same listing have the same nodes but for their tokens' texts and columns
(`Outline.listing_faithful`).

The words of a node may hold anything but a line feed, spaces and brackets as well, and they may be
cut off. So the parts of a node's line are found from both ends (`Node.eq_of_listing`). The spaces in
front tell the depth, and the sign behind them the label. What stands behind the last space are the
lines, for a range is shown without a space. And the words in between begin with the name of the
symbol, which is too short to be cut off and is all letters. What a line does not tell, parent and
children, the depths of the lines around it tell.

A listing is refused if a node is so deep that its indentation is longer than a text can be. That
does not happen to a text, as each level takes at least one line with a character in it
(`Node.StandsFor.depth_le`).
-/

namespace Offside

open Offside.Text

/-! ## Ranges -/

namespace LineRange

/-- The range covers a line, or is that of a document without lines. -/
def Listable (range : LineRange) : Prop := range.start < range.stop ∨ range = ⟨0, 0⟩

/-- What stands behind the first number of a range. -/
def shownRest (range : LineRange) : List Char :=
  if range.stop = range.start + 1 then [']'] else '-' :: (range.stop.repr.toList ++ [']'])

variable {range range' : LineRange}

theorem display_of_lt (h : range.start < range.stop) : range.display.toList =
    '[' :: ((range.start + 1).repr.toList ++ range.shownRest) := by
  have hlast : range.stop - 1 + 1 = range.stop := by omega
  rw [display, last?, if_pos h, shownRest]
  dsimp only
  by_cases hone : range.stop = range.start + 1
  · rw [if_pos (by omega), if_pos hone, hlast, hone]
    simp
  · rw [if_neg (by omega), if_neg hone, hlast]
    simp

theorem shownRest_stops (range : LineRange) : ∀ c ∈ range.shownRest.head?, c.isDigit = false := by
  unfold shownRest
  split <;> rintro c ⟨⟩ <;> rfl

theorem stop_eq_of_shownRest (hstart : range.start = range'.start)
    (h : range.shownRest = range'.shownRest) : range.stop = range'.stop := by
  unfold shownRest at h
  split at h <;> split at h
  · omega
  · cases h
  · cases h
  · rw [List.cons_inj_right, List.append_left_inj] at h
    exact eq_of_repr h

theorem display_ne_of_lt (h : range.start < range.stop) : range.display ≠ "[]" := by
  intro heq
  have hlists := congrArg String.toList heq
  rw [display_of_lt h] at hlists
  have hbracket : ∀ c ∈ [']'].head?, c.isDigit = false := by
    rintro c ⟨⟩
    rfl
  obtain ⟨hdigits, _⟩ := append_inj_of_stops (fun _ => isDigit_of_mem_repr)
    (List.forall_mem_nil _) range.shownRest_stops hbracket (List.tail_eq_of_cons_eq hlists)
  exact Nat.toDigits_ne_nil (Nat.toList_repr ▸ hdigits)

/-- Ranges are told apart by how they are shown. -/
theorem eq_of_display (h : range.Listable) (h' : range'.Listable)
    (heq : range.display = range'.display) : range = range' := by
  rcases h with hlt | rfl <;> rcases h' with hlt' | rfl
  · have hlists := congrArg String.toList heq
    rw [display_of_lt hlt, display_of_lt hlt', List.cons_inj_right] at hlists
    obtain ⟨hfirst, hrest⟩ := append_inj_of_stops (fun _ => isDigit_of_mem_repr)
      (fun _ => isDigit_of_mem_repr) range.shownRest_stops range'.shownRest_stops hlists
    have hstart : range.start = range'.start := Nat.succ.inj (eq_of_repr hfirst)
    have hstop := stop_eq_of_shownRest hstart hrest
    cases range
    cases range'
    rw [LineRange.mk.injEq]
    exact ⟨hstart, hstop⟩
  · exact absurd heq (display_ne_of_lt hlt)
  · exact absurd heq.symm (display_ne_of_lt hlt')
  · rfl

/-- A range is shown by digits, brackets and a hyphen. -/
theorem not_mem_display {c : Char} (range : LineRange) (hdigit : c.isDigit = false)
    (hmarks : c ∉ "[]-".toList) : c ∉ range.display.toList := by
  have hnumber (n : Nat) : c ∉ n.repr.toList := not_mem_repr n hdigit
  unfold display
  split
  · simp_all
  · split <;> simp_all

end LineRange

/-! ## Lines of a listing -/

namespace NodeLabel

theorem sign_injective : Function.Injective sign := by
  intro label label' h
  revert h
  cases label <;> cases label' <;> decide

theorem not_mem_sign {c : Char} (label : NodeLabel) (h : c ∉ "⧉§¶".toList) :
    c ∉ label.sign.toList := by
  cases label <;> simp_all [sign]

end NodeLabel

theorem shorten_toList (limit : Nat) (s : String) : (shorten limit s).toList =
    if limit < s.toList.length then s.toList.take limit ++ ['…'] else s.toList := by
  rw [shorten, String.length_toList]
  split <;> simp

/-- The words for a token begin with its name, however many of them are shown, and a space follows
if anything does. -/
theorem Token.exists_shorten_describe (token : Token) : ∃ rest : List Char,
    (shorten maxWordsShown token.describe).toList = token.symbol.name.toList ++ rest ∧
      ∀ c ∈ rest.head?, c = ' ' := by
  obtain ⟨more, hmore, hspace⟩ : ∃ more, token.describe.toList = token.symbol.name.toList ++ more ∧
      ∀ c ∈ more.head?, c = ' ' := by
    cases hattr : token.attr with
    | none => exact ⟨[], by simp [describe, hattr], nofun⟩
    | some text => exact ⟨' ' :: text.toList, by simp [describe, hattr], by simp⟩
  rw [shorten_toList, hmore]
  split
  · next hlong =>
    have hname : token.symbol.name.toList.length < maxWordsShown :=
      Nat.lt_trans token.symbol.length_name_lt (by decide)
    rw [List.take_append, List.take_of_length_le (Nat.le_of_lt hname), List.append_assoc]
    refine ⟨_, rfl, ?_⟩
    -- what is cut off is longer than the name, so the space behind the name is kept
    obtain ⟨room, hroom⟩ := Nat.exists_eq_add_one_of_ne_zero (Nat.sub_ne_zero_of_lt hname)
    rw [hroom]
    cases more with
    | nil =>
      rw [List.append_nil] at hlong
      omega
    | cons c more => exact hspace
  · exact ⟨more, rfl, hspace⟩

theorem Token.symbol_eq_of_shorten {token token' : Token}
    (h : shorten maxWordsShown token.describe = shorten maxWordsShown token'.describe) :
    token.symbol = token'.symbol := by
  obtain ⟨rest, hwords, hspace⟩ := token.exists_shorten_describe
  obtain ⟨rest', hwords', hspace'⟩ := token'.exists_shorten_describe
  rw [h, hwords'] at hwords
  have hstops {rest : List Char} (hspace : ∀ c ∈ rest.head?, c = ' ') :
      ∀ c ∈ rest.head?, c.isAlpha = false := by
    intro c hc
    rw [hspace c hc]
    rfl
  obtain ⟨hname, _⟩ := append_inj_of_stops (fun _ => token'.symbol.isAlpha_of_mem_name)
    (fun _ => token.symbol.isAlpha_of_mem_name) (hstops hspace') (hstops hspace) hwords
  exact Symbol.name_injective (String.toList_inj.mp hname.symm)

theorem Token.OneLine.feed_not_mem_shorten {token : Token} (h : token.OneLine) (limit : Nat) :
    '\n' ∉ (shorten limit token.describe).toList := by
  have hwords : '\n' ∉ token.describe.toList := by
    have hname := Symbol.not_mem_name token.symbol (c := '\n') rfl
    unfold describe
    cases hattr : token.attr with
    | none => exact hname
    | some text =>
      have := h text hattr
      simp_all
  rw [shorten_toList]
  split
  · rw [List.mem_append, not_or]
    exact ⟨fun hmem => hwords (List.mem_of_mem_take hmem), by decide⟩
  · exact hwords

namespace Node

/-- What the line of a node relies on: the root alone has no token, the text of a token is on one
line, and the node covers a line. -/
structure Listable (node : Node) : Prop where
  token : node.token = none ↔ node.label = .root
  oneLine : ∀ token ∈ node.token, token.OneLine
  lines : node.lines.Listable

variable {node node' : Node}

theorem listing_toList (node : Node) : node.listing.toList =
    List.replicate (2 * node.depth) ' ' ++ (node.label.sign.toList ++
      ' ' :: ((shorten maxWordsShown node.words).toList ++ ' ' :: node.lines.display.toList)) := by
  simp [listing]

/-- The parts of a node's line are known from the line, whatever the words are. -/
theorem parts_eq_of_listing (heq : node.listing = node'.listing) :
    node.depth = node'.depth ∧ node.label = node'.label ∧
      shorten maxWordsShown node.words = shorten maxWordsShown node'.words ∧
      node.lines.display = node'.lines.display := by
  have hlists := congrArg String.toList heq
  rw [listing_toList, listing_toList] at hlists
  have hspaces (node : Node) : ∀ c ∈ List.replicate (2 * node.depth) ' ', (c == ' ') = true := by
    intro c hc
    rw [List.eq_of_mem_replicate hc]
    rfl
  have hsign (node : Node) (rest : List Char) :
      ∀ c ∈ (node.label.sign.toList ++ rest).head?, (c == ' ') = false := by
    cases node.label <;> simp [NodeLabel.sign]
  obtain ⟨hindent, hbehind⟩ :=
    append_inj_of_stops (hspaces node) (hspaces node') (hsign node _) (hsign node' _) hlists
  obtain ⟨hsigns, hshown⟩ := append_cons_inj_of_first (node.label.not_mem_sign (by decide))
    (node'.label.not_mem_sign (by decide)) hbehind
  -- the words may hold spaces, but what stands behind them holds none
  obtain ⟨hwords, hrange⟩ := append_cons_inj_of_last
    (node.lines.not_mem_display rfl (by decide)) (node'.lines.not_mem_display rfl (by decide))
    hshown
  have hdepth := congrArg List.length hindent
  rw [List.length_replicate, List.length_replicate] at hdepth
  exact ⟨Nat.eq_of_mul_eq_mul_left Nat.two_pos hdepth,
    NodeLabel.sign_injective (String.toList_inj.mp hsigns), String.toList_inj.mp hwords,
    String.toList_inj.mp hrange⟩

theorem symbol?_eq_of_words (h : node.Listable) (h' : node'.Listable)
    (hlabel : node.label = node'.label)
    (hwords : shorten maxWordsShown node.words = shorten maxWordsShown node'.words) :
    node.symbol? = node'.symbol? := by
  have hnone : node.token = none ↔ node'.token = none := by rw [h.token, hlabel, h'.token]
  unfold symbol?
  cases htoken : node.token with
  | none => rw [hnone.mp htoken]
  | some token =>
    cases htoken' : node'.token with
    | none => cases htoken.symm.trans (hnone.mpr htoken')
    | some token' =>
      rw [words, words, htoken, htoken'] at hwords
      exact congrArg some (Token.symbol_eq_of_shorten hwords)

/-- What a node's line tells of the node. -/
theorem eq_of_listing (h : node.Listable) (h' : node'.Listable)
    (heq : node.listing = node'.listing) : node.label = node'.label ∧
      node.symbol? = node'.symbol? ∧ node.depth = node'.depth ∧ node.lines = node'.lines := by
  obtain ⟨hdepth, hlabel, hwords, hrange⟩ := parts_eq_of_listing heq
  exact ⟨hlabel, symbol?_eq_of_words h h' hlabel hwords, hdepth,
    LineRange.eq_of_display h.lines h'.lines hrange⟩

theorem Listable.feed_not_mem_listing (h : node.Listable) : '\n' ∉ node.listing.toList := by
  have hwords : '\n' ∉ (shorten maxWordsShown node.words).toList := by
    unfold words
    cases htoken : node.token with
    | none =>
      rw [h.token.mp htoken]
      decide
    | some token => exact (h.oneLine token htoken).feed_not_mem_shorten _
  rw [listing_toList]
  simp only [List.mem_append, List.mem_cons, List.mem_replicate, not_or]
  exact ⟨by simp, node.label.not_mem_sign (by decide), by decide, hwords, by decide,
    node.lines.not_mem_display rfl (by decide)⟩

end Node

/-! ## How deep the nodes of a text are -/

section Depth

variable {tabs : Tabs} {text : List Char} {node : Node} {i j p : Nat}

/-- Each character of a text is on one line at most, and each line but the last takes one to end. -/
theorem sum_lines_le (text : List Char) :
    ((lines text).map fun line => line.length + 1).sum ≤ text.length + 1 := by
  fun_induction lines text with
  | case1 => exact Nat.zero_le 1
  | case2 rest ih | case3 rest ih =>
    simp only [List.map_cons, List.sum_cons, List.length_nil, List.length_cons]
    omega
  | case4 c rest _ _ ih =>
    cases hrest : lines rest with
    | nil => simp [consFirst]
    | cons first others =>
      rw [hrest] at ih
      simp only [consFirst, List.map_cons, List.sum_cons, List.length_cons] at ih ⊢
      omega

theorem feed_not_mem_textLine (text : List Char) (i : Nat) : '\n' ∉ textLine text i := by
  rw [textLine]
  cases hline : (lines text)[i]? with
  | none => exact List.not_mem_nil
  | some line => exact feed_not_mem_of_mem_lines (List.mem_of_getElem? hline)

theorem leadingByIndex_lt_length (h : (Layout.ofText tabs text).filled i) :
    leadingByIndex (textLine text i) < (textLine text i).length :=
  FilledAt.lt_length (isLeast_leadingByIndex ((Bool.not_eq_true' _).mp h)).1

/-- A line in a block above is indented. -/
theorem leadingByIndex_pos (hfilled : (Layout.ofText tabs text).filled i)
    (hj : j ∈ (Layout.ofText tabs text).above i) : 0 < leadingByIndex (textLine text i) := by
  obtain ⟨hji, hcovers⟩ := Layout.mem_above.mp hj
  have hdeeper := hcovers.deeper i hji (Nat.le_refl i) hfilled
  have hlevel : (Layout.ofText tabs text).level i =
      tabs.units (leadingByIndex (textLine text i)) :=
    if_neg (by rw [(Bool.not_eq_true' _).mp hfilled]; exact Bool.false_ne_true)
  rw [hlevel] at hdeeper
  refine Nat.pos_of_ne_zero ?_
  intro hzero
  rw [hzero, Tabs.units_zero] at hdeeper
  exact Nat.not_lt_zero _ hdeeper

/-- The lines around a line and the line itself are different lines of the text. -/
theorem sum_above_le (tabs : Tabs) (hi : i < lineCount text) :
    (((Layout.ofText tabs text).above i).map fun j => (textLine text j).length + 1).sum +
      ((textLine text i).length + 1) ≤ text.length + 1 := by
  have hsub : ((Layout.ofText tabs text).above i ++ [i]).Sublist (List.range (lineCount text)) := by
    refine List.Sublist.trans ?_ (List.range_sublist.mpr hi)
    rw [List.range_succ]
    exact (List.filter_sublist).append_right [i]
  have hsum := (hsub.map fun j => (textLine text j).length + 1).sum_le_sum fun _ _ => Nat.zero_le _
  have hlines := sum_lines_le text
  rw [lines_eq_map, List.map_map] at hlines
  rw [List.map_append, List.sum_append] at hsum
  exact Nat.le_trans hsum hlines

/-- Each level that a node of a text stands at takes two characters of the text, but for the first:
a line of the block around it is not empty and ends before the next, and the node's own line is
indented if there is such a block. -/
theorem Node.StandsFor.depth_le (h : node.StandsFor tabs text i)
    (hi : i ∈ filledLines text) : node.depth = 1 ∨ 2 * node.depth ≤ text.length := by
  rw [h.depth]
  cases habove : (Layout.ofText tabs text).above i with
  | nil => exact .inl rfl
  | cons j outer =>
    right
    rw [← habove]
    have hfilled : (Layout.ofText tabs text).filled i := filled_ofText_iff.mpr hi
    have hlong : ∀ length ∈ ((Layout.ofText tabs text).above i).map
        fun j => (textLine text j).length + 1, 2 ≤ length := by
      refine List.forall_mem_map.mpr fun k hk => ?_
      have := leadingByIndex_lt_length (Layout.mem_above.mp hk).2.filled
      omega
    have hblocks := List.card_nsmul_le_sum _ 2 hlong
    rw [List.length_map, smul_eq_mul] at hblocks
    have hpos := leadingByIndex_pos hfilled (habove ▸ List.mem_cons_self)
    have hlt := leadingByIndex_lt_length hfilled
    have hsum := sum_above_le tabs (mem_filledLines.mp hi).1
    omega

end Depth

/-! ## Listings -/

/-- The nodes agree in all that a listing tells of them. -/
structure Node.ListedAlike (node other : Node) : Prop where
  label : node.label = other.label
  symbol : node.symbol? = other.symbol?
  depth : node.depth = other.depth
  parent : node.parent = other.parent
  children : node.children = other.children
  lines : node.lines = other.lines

/-- The outlines have as many nodes, which agree place by place in all that a listing tells. -/
structure Outline.ListedAlike (first second : Outline) : Prop where
  size : first.size = second.size
  node : ∀ (p : Nat) (node other : Node), first.nodes[p]? = some node →
    second.nodes[p]? = some other → node.ListedAlike other

namespace Outline

variable {tabs : Tabs} {text : List Char} {outline other : Outline} {node : Node} {shown : String}

/-- The listing of a tree has a line for each node, in order, and there is one if no node is too
deep. -/
theorem IsTree.listing_eq_ok_iff (h : outline.IsTree) : outline.listing = .ok shown ↔
    (∀ node ∈ outline.nodes.toList, node.depth < maxListedDepth) ∧
      shown = "\n".intercalate (outline.nodes.toList.map Node.listing) := by
  rw [listing, h.walk_eq]
  show (if outline.nodes.toList.any (maxListedDepth ≤ ·.depth) then Except.error Fault.tooDeep
    else .ok ("\n".intercalate (outline.nodes.toList.map Node.listing))) = .ok shown ↔ _
  split
  · next hdeep =>
    obtain ⟨node, hnode, hle⟩ := List.any_eq_true.mp hdeep
    refine iff_of_false nofun fun hshallow => ?_
    exact Nat.not_lt_of_le (of_decide_eq_true hle) (hshallow.1 node hnode)
  · next hshallow =>
    have hdepth : ∀ node ∈ outline.nodes.toList, node.depth < maxListedDepth := by
      intro node hnode
      refine Nat.lt_of_not_le fun hle => hshallow ?_
      exact List.any_eq_true.mpr ⟨node, hnode, decide_eq_true hle⟩
    rw [Except.ok.injEq, eq_comm, and_iff_right hdepth]

theorem listable_ofText (hnode : node ∈ (ofText tabs text).nodes.toList) : node.Listable := by
  obtain ⟨p, hp⟩ := mem_nodes.mp hnode
  rcases (lists_ofText tabs text).cases (Nat.le_refl _) hp with
    ⟨_, rfl⟩ | ⟨k, entry, _, _, hentry, rfl⟩
  · refine ⟨iff_of_true rfl rfl, ?_, ?_⟩
    · rintro token ⟨⟩
    · rcases Nat.eq_zero_or_pos (ofText tabs text).lineCount with hzero | hpos
      · exact .inr (by rw [rootAt, hzero])
      · exact .inl hpos
  · have hlabel : (nodeAt (textEntries tabs text) (textEntries tabs text).length
        (ofText tabs text).lineCount k entry).label ≠ .root := by
      show (if _ then NodeLabel.block else .statement) ≠ .root
      split <;> decide
    refine ⟨iff_of_false (Option.some_ne_none _) hlabel, ?_, .inl (linesAt_nonempty ..)⟩
    obtain ⟨i, _, rfl⟩ := List.mem_map.mp (List.mem_of_getElem? hentry)
    rintro token ⟨⟩
    exact oneLine_lineToken tabs i (feed_not_mem_textLine text i)

theorem depth_lt_of_length_lt (hlength : text.length < 2 ^ 63)
    (hnode : node ∈ (ofText tabs text).nodes.toList) : node.depth < maxListedDepth := by
  obtain ⟨p, hp⟩ := mem_nodes.mp hnode
  cases p with
  | zero =>
    obtain rfl := Option.some.inj ((lists_ofText tabs text).root.symm.trans hp)
    show 0 < maxListedDepth
    decide
  | succ p =>
    obtain ⟨i, hi, h⟩ := standsFor_ofText hp
    have hmax : maxListedDepth = 2 ^ 62 := rfl
    rcases h.depth_le (List.mem_of_getElem? hi) with hone | hle <;> omega

/-- What stands between the line feeds of a listing are the lines of the nodes. -/
theorem splitOn_listing_ofText (h : (ofText tabs text).listing = .ok shown) :
    shown.toList.splitOn '\n' = (ofText tabs text).nodes.toList.map (·.listing.toList) := by
  have htree := (lists_ofText tabs text).isTree
  have hne : (ofText tabs text).nodes.toList.map Node.listing ≠ [] := by
    obtain ⟨root, hroot, _⟩ := htree.root
    exact List.ne_nil_of_mem (List.mem_map_of_mem (mem_nodes.mpr ⟨0, hroot⟩))
  have hrows : ∀ row ∈ (ofText tabs text).nodes.toList.map Node.listing, '\n' ∉ row.toList :=
    List.forall_mem_map.mpr fun _ hnode => (listable_ofText hnode).feed_not_mem_listing
  rw [(htree.listing_eq_ok_iff.mp h).2, splitOn_joinLines hne hrows, List.map_map]
  rfl

/-- The outlines of texts agree if the lines of their nodes do. -/
theorem listedAlike_of_listings {tabs tabs' : Tabs} {text text' : List Char}
    (h : (ofText tabs text).nodes.toList.map (·.listing.toList) =
      (ofText tabs' text').nodes.toList.map (·.listing.toList)) :
    (ofText tabs text).ListedAlike (ofText tabs' text') := by
  have htree := (lists_ofText tabs text).isTree
  have htree' := (lists_ofText tabs' text').isTree
  have hsize : (ofText tabs text).size = (ofText tabs' text').size := by
    have hlength := congrArg List.length h
    rwa [List.length_map, List.length_map, Array.length_toList, Array.length_toList] at hlength
  have htold (p : Nat) (node node' : Node) (hp : (ofText tabs text).nodes[p]? = some node)
      (hp' : (ofText tabs' text').nodes[p]? = some node') := by
    have hline := congrArg (·[p]?) h
    simp only [List.getElem?_map, Array.getElem?_toList, hp, hp', Option.map_some,
      Option.some.injEq, String.toList_inj] at hline
    exact Node.eq_of_listing (listable_ofText (mem_nodes.mpr ⟨p, hp⟩))
      (listable_ofText (mem_nodes.mpr ⟨p, hp'⟩)) hline
  have hdepths := depthAt_congr hsize fun p node node' hp hp' => (htold p node node' hp hp').2.2.1
  refine ⟨hsize, fun p node node' hp hp' => ?_⟩
  obtain ⟨hlabel, hsymbol, hdepth, hlines⟩ := htold p node node' hp hp'
  exact ⟨hlabel, hsymbol, hdepth, htree.parent_eq_of_depths htree' hdepths hp hp',
    htree.children_eq_of_depths htree' hsize hdepths hp hp', hlines⟩

/-- **Listings are faithful.** The outline of a text has a listing, and what stands between the line
feeds of the listing are the lines of the nodes, one each and in the order of the table. If the
outline of another text has the same listing, both have as many nodes, which agree place by place in
label, symbol, depth, parent, children and lines. (No text has `2 ^ 63` characters, as a text is
stored in less than that many bytes.) -/
theorem listing_faithful (tabs : Tabs) (text : List Char) (hlength : text.length < 2 ^ 63) :
    ∃ shown, (ofText tabs text).listing = .ok shown ∧
      shown.toList.splitOn '\n' = (ofText tabs text).nodes.toList.map (·.listing.toList) ∧
      ∀ (tabs' : Tabs) (text' : List Char), (ofText tabs' text').listing = .ok shown →
        (ofText tabs text).ListedAlike (ofText tabs' text') := by
  have htree := (lists_ofText tabs text).isTree
  have hdepth : ∀ node ∈ (ofText tabs text).nodes.toList, node.depth < maxListedDepth :=
    fun _ hnode => depth_lt_of_length_lt hlength hnode
  have hshown := htree.listing_eq_ok_iff.mpr ⟨hdepth, rfl⟩
  have hlines := splitOn_listing_ofText hshown
  refine ⟨_, hshown, hlines, fun tabs' text' hother => ?_⟩
  exact listedAlike_of_listings (hlines.symm.trans (splitOn_listing_ofText hother))

/-- Two texts that differ in texts and columns of their tokens, in what the listing cuts off, and in
what their tabs are worth. A clause imitates a node's line. -/
theorem listing_faithful_cut :
    let text := "class A [1-2]:\n\n  if \"¶ statement [3]\" in xs and ys : \n\t  y\n  pass".toList
    let text' := ("class A(\"[1-2]\"):\n\n  if \"¶ statement [3]\" in xs and zs or q(2) : # c\n" ++
      "      y\n  pass\n").toList
    text.length < 2 ^ 63 ∧ ∃ (shown : String) (node node' : Node),
      (ofText ⟨2, false⟩ text).listing = .ok shown ∧
      (ofText ⟨4, true⟩ text').listing = .ok shown ∧
      (ofText ⟨2, false⟩ text).nodes[2]? = some node ∧
      (ofText ⟨4, true⟩ text').nodes[2]? = some node' ∧
      node.attr? ≠ node'.attr? ∧ node.children = node'.children ∧ node.lines = node'.lines := by
  intro text text'
  have hlength : text.length < 2 ^ 63 := by decide
  obtain ⟨shown, hshown, _, hagree⟩ := listing_faithful ⟨2, false⟩ text hlength
  have hsame : (ofText ⟨4, true⟩ text').listing = (ofText ⟨2, false⟩ text).listing := by
    decide +kernel
  have halike := hagree ⟨4, true⟩ text' (hsame.trans hshown)
  have htext : ((ofText ⟨2, false⟩ text).nodes[2]?).map Node.attr? =
      some (some "\"¶ statement [3]\" in xs and ys") := by decide +kernel
  have htext' : ((ofText ⟨4, true⟩ text').nodes[2]?).map Node.attr? =
      some (some "\"¶ statement [3]\" in xs and zs or q(2)") := by decide +kernel
  obtain ⟨node, hnode, hattr⟩ := Option.map_eq_some_iff.mp htext
  obtain ⟨node', hnode', hattr'⟩ := Option.map_eq_some_iff.mp htext'
  have hagrees := halike.node 2 node node' hnode hnode'
  refine ⟨hlength, shown, node, node', hshown, hsame.trans hshown, hnode, hnode', ?_,
    hagrees.children, hagrees.lines⟩
  rw [hattr, hattr']
  decide

end Outline

end Offside
