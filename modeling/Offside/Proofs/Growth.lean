import Offside.Outline.Build
import Offside.Proofs.Layout

/-!
# What the builder builds

The builder takes tokens in one at a time and changes nodes that it made long before: a parent gets
another child, an open block gets its end. Here the outcome is said in one piece. Only the line
tokens matter, each with the depth that the structural tokens in front of it have reached
(`lineEntries`); they make a layout of their own, and from it every field of every node is given
outright (`nodeAt`), whether or not all entries are read yet.

`Grown` is what holds after the first `n` entries, `Grown.place` that one more entry keeps it, and
`Outline.lists_ofTokens` what is left when the stream ends. No condition is put on the tokens:
depths may jump, dedents may outnumber indents, and lines may come in any order.
-/

namespace Offside

/-! ## Line entries -/

/-- The line tokens of a stream up to its first `EOF`, each with the depth at which it is met. -/
def lineEntries (depth : Nat) : List Token → List LineToken
  | [] => []
  | token :: rest =>
    match token.symbol with
    | .indent => lineEntries (depth + 1) rest
    | .dedent => lineEntries (depth - 1) rest
    | .empty => lineEntries depth rest
    | .eof => []
    | .block _ | .statement => ⟨token, depth⟩ :: lineEntries depth rest

theorem lineEntries_cons_line {token : Token} (h : token.isStructural = false) (depth : Nat)
    (rest : List Token) :
    lineEntries depth (token :: rest) = ⟨token, depth⟩ :: lineEntries depth rest := by
  cases hs : token.symbol <;> simp [lineEntries, hs]
  all_goals simp [Token.isStructural, hs, Symbol.isStructural] at h

theorem lineEntries_cons_empty {token : Token} (h : token.symbol = .empty) (depth : Nat)
    (rest : List Token) : lineEntries depth (token :: rest) = lineEntries depth rest := by
  rw [lineEntries, h]

/-- The tokens of the entries are the stream's own, in order: those that stand for a line. -/
theorem map_token_lineEntries (depth : Nat) (tokens : List Token) :
    (lineEntries depth tokens).map LineToken.token =
      (tokens.takeWhile (·.symbol ≠ .eof)).filter (!·.isStructural) := by
  induction tokens generalizing depth with
  | nil => rfl
  | cons token rest ih =>
    cases hs : token.symbol <;>
      simp [lineEntries, Token.isStructural, Symbol.isStructural, hs, ih]

/-- The layout of some line tokens, numbered by their order. -/
def Layout.ofEntries (entries : List LineToken) : Layout where
  filled k := k < entries.length
  opens k := entries[k]?.any (·.token.symbol.opensBlock)
  level k := (entries[k]?.map LineToken.level).getD 0

namespace Growth

/-- Adds the node of a line token that is met at a depth. -/
def place (growth : Growth) (entry : LineToken) : Growth :=
  { growth with depth := entry.level }.line entry.token

theorem finish_foldl_place (entries : List LineToken) (growth : Growth) (depth : Nat) :
    (entries.foldl place { growth with depth := depth }).finish =
      (entries.foldl place growth).finish := by
  cases entries <;> rfl

@[simp] theorem line_depth (growth : Growth) (token : Token) :
    (growth.line token).depth = growth.depth := by
  unfold line
  split <;> rfl

/-- Tokens build what their line entries build. -/
theorem finish_foldl_step (tokens : List Token) (growth : Growth) :
    ((tokens.takeWhile (·.symbol ≠ .eof)).foldl step growth).finish =
      ((lineEntries growth.depth tokens).foldl place growth).finish := by
  induction tokens generalizing growth with
  | nil => rfl
  | cons token rest ih =>
    have htake (h : token.symbol ≠ .eof) : (token :: rest).takeWhile (·.symbol ≠ .eof) =
        token :: rest.takeWhile (·.symbol ≠ .eof) := List.takeWhile_cons_of_pos (by simpa using h)
    have hline (h : step growth token = growth.line token)
        (hne : token.symbol ≠ .eof)
        (hentry : lineEntries growth.depth (token :: rest) =
          ⟨token, growth.depth⟩ :: lineEntries growth.depth rest) :
        (((token :: rest).takeWhile (·.symbol ≠ .eof)).foldl step growth).finish =
          ((lineEntries growth.depth (token :: rest)).foldl place growth).finish := by
      rw [htake hne, List.foldl_cons, h, ih, line_depth, hentry]
      rfl
    cases hs : token.symbol with
    | eof => simp [lineEntries, hs]
    | indent =>
      rw [htake (by simp [hs]), List.foldl_cons, ih,
        ← finish_foldl_place _ growth (growth.depth + 1)]
      simp only [lineEntries, step, hs]
    | dedent =>
      rw [htake (by simp [hs]), List.foldl_cons, ih,
        ← finish_foldl_place _ growth (growth.depth - 1)]
      simp only [lineEntries, step, hs]
    | empty =>
      rw [htake (by simp [hs]), List.foldl_cons, ih]
      simp only [lineEntries, step, hs]
    | block kind =>
      exact hline (by simp only [step, hs]) (by simp [hs]) (by simp only [lineEntries, hs])
    | statement =>
      exact hline (by simp only [step, hs]) (by simp [hs]) (by simp only [lineEntries, hs])

end Growth

/-! ## Changing a table of nodes -/

/-- Ends a node's range at a line, after its first line at least. -/
def Node.endAt (node : Node) (stop : Nat) : Node :=
  { node with lines := { node.lines with stop := max stop (node.lines.start + 1) } }

namespace Outline

theorem getElem?_close (outline : Outline) (id stop i : Nat) :
    (outline.close id stop).nodes[i]? =
      if id = i then outline.nodes[i]?.map (·.endAt stop) else outline.nodes[i]? :=
  Array.getElem?_modify

/-- Closing several blocks at a line ends each of their nodes there, and changes no other node. -/
theorem getElem?_closeAll (outline : Outline) (blocks : List OpenBlock) (stop i : Nat) :
    (Growth.closeAll outline blocks stop).nodes[i]? =
      if i ∈ blocks.map OpenBlock.id then outline.nodes[i]?.map (·.endAt stop)
      else outline.nodes[i]? := by
  induction blocks generalizing outline with
  | nil => rfl
  | cons block blocks ih =>
    show (Growth.closeAll (outline.close block.id stop) blocks stop).nodes[i]? = _
    rw [ih, getElem?_close]
    by_cases hid : block.id = i
    · rw [if_pos hid, List.map_cons, if_pos (List.mem_cons.mpr (.inl hid.symm)), Option.map_map]
      split <;> rfl
    · simp only [if_neg hid, List.map_cons, List.mem_cons, Ne.symm hid, false_or]

@[simp] theorem size_closeAll (outline : Outline) (blocks : List OpenBlock) (stop : Nat) :
    (Growth.closeAll outline blocks stop).size = outline.size := by
  induction blocks generalizing outline with
  | nil => rfl
  | cons block blocks ih =>
    exact (ih (outline.close block.id stop)).trans Array.size_modify

@[simp] theorem lineCount_closeAll (outline : Outline) (blocks : List OpenBlock) (stop : Nat) :
    (Growth.closeAll outline blocks stop).lineCount = outline.lineCount := by
  induction blocks generalizing outline with
  | nil => rfl
  | cons block blocks ih => exact ih (outline.close block.id stop)

theorem depth_closeAll (outline : Outline) (blocks : List OpenBlock) (stop i : Nat) :
    (Growth.closeAll outline blocks stop).nodes[i]?.map Node.depth =
      outline.nodes[i]?.map Node.depth := by
  rw [getElem?_closeAll]
  split
  · rw [Option.map_map]
    rfl
  · rfl

@[simp] theorem lineCount_pushChild (outline : Outline) (parent : Nat) (label : NodeLabel)
    (token : Token) : (outline.pushChild parent label token).lineCount = outline.lineCount := rfl

theorem size_pushChild (outline : Outline) (parent : Nat) (label : NodeLabel) (token : Token) :
    (outline.pushChild parent label token).size = outline.size + 1 := by
  simp [pushChild, size]

/-- A new child is the last node of the table, and the last child of its parent. -/
theorem getElem?_pushChild (outline : Outline) (parent : Nat) (label : NodeLabel) (token : Token)
    (i : Nat) : (outline.pushChild parent label token).nodes[i]? =
      if i = outline.size then
        some ⟨outline.size, label, some token, [], some parent,
          (outline.nodes[parent]?.map Node.depth).getD 0 + 1, ⟨token.line, token.line + 1⟩⟩
      else if parent = i then
        outline.nodes[i]?.map fun node => { node with children := node.children ++ [outline.size] }
      else outline.nodes[i]? := by
  rw [pushChild, Array.getElem?_push, Array.size_modify, Array.getElem?_modify]
  rfl

end Outline

/-! ## The nodes of some entries -/

namespace Layout

variable {layout : Layout} {n p : Nat}

/-- The place of the node that stands above line `k`'s: that of the innermost block around the line,
or the root. -/
def placeAbove (layout : Layout) (k : Nat) : Nat := ((layout.above k).getLast?.map (· + 1)).getD 0

/-- The places of those of the first `n` lines' nodes that stand right below the node at place `p`.
-/
def placesBelow (layout : Layout) (n p : Nat) : List Nat :=
  ((List.range n).filter (layout.placeAbove · = p)).map (· + 1)

theorem placesBelow_succ (layout : Layout) (n p : Nat) : layout.placesBelow (n + 1) p =
    layout.placesBelow n p ++ if layout.placeAbove n = p then [n + 1] else [] := by
  rw [placesBelow, List.range_succ, List.filter_append, List.map_append, List.filter_singleton]
  congr 1
  by_cases h : layout.placeAbove n = p <;> simp [h]

/-- Some blocks as the builder keeps them, the last one on top. -/
def stack (layout : Layout) (blocks : List Nat) : List OpenBlock :=
  (blocks.map fun k => ⟨k + 1, layout.level k⟩).reverse

theorem stack_pairwise (layout : Layout) {blocks : List Nat}
    (h : blocks.Pairwise (layout.level · < layout.level ·)) :
    (layout.stack blocks).Pairwise (·.depth > ·.depth) := by
  rw [stack, List.pairwise_reverse, List.pairwise_map]
  exact h

theorem filter_stack (layout : Layout) (p : OpenBlock → Bool) (blocks : List Nat) :
    (layout.stack blocks).filter p =
      layout.stack (blocks.filter fun k => p ⟨k + 1, layout.level k⟩) := by
  rw [stack, List.filter_reverse, List.filter_map]
  rfl

theorem stack_append (layout : Layout) (blocks : List Nat) (k : Nat) :
    layout.stack (blocks ++ [k]) = ⟨k + 1, layout.level k⟩ :: layout.stack blocks := by
  rw [stack, List.map_append, List.reverse_append]
  rfl

theorem mem_id_stack {blocks : List Nat} {i : Nat} :
    i ∈ (layout.stack blocks).map OpenBlock.id ↔ ∃ k ∈ blocks, k + 1 = i := by
  rw [stack, List.map_reverse, List.mem_reverse, List.map_map, List.mem_map]
  rfl

/-- A node stands behind the node above it. -/
theorem placeAbove_le (layout : Layout) (k : Nat) : layout.placeAbove k ≤ k := by
  rw [placeAbove]
  cases hlast : (layout.above k).getLast? with
  | none => exact Nat.zero_le k
  | some j => exact (mem_above.mp (List.mem_of_getLast? hlast)).1

theorem placeAbove_eq_succ_iff (layout : Layout) (k j : Nat) :
    layout.placeAbove k = j + 1 ↔ (layout.above k).getLast? = some j := by
  rw [placeAbove]
  cases (layout.above k).getLast? with
  | none => simp
  | some i => simp

theorem placeAbove_eq_zero_iff (layout : Layout) (k : Nat) :
    layout.placeAbove k = 0 ↔ layout.above k = [] := by
  rw [placeAbove, ← List.getLast?_eq_none_iff]
  cases (layout.above k).getLast? with
  | none => simp
  | some i => simp

/-- No block around a line is further in than the one that its node stands below. -/
theorem lt_placeAbove {j k : Nat} (h : j ∈ layout.above k) : j < layout.placeAbove k := by
  cases hlast : (layout.above k).getLast? with
  | none =>
    rw [List.getLast?_eq_none_iff.mp hlast] at h
    cases h
  | some i =>
    rw [(placeAbove_eq_succ_iff layout k i).mpr hlast]
    exact Nat.lt_succ_of_le (le_last_of_ascending (layout.above_ascending k) hlast h)

theorem mem_placesBelow {i : Nat} : i ∈ layout.placesBelow n p ↔
    ∃ k, k < n ∧ layout.placeAbove k = p ∧ i = k + 1 := by
  simp only [placesBelow, List.mem_map, List.mem_filter, List.mem_range, decide_eq_true_eq,
    and_assoc, eq_comm (a := i)]

theorem placesBelow_ascending (layout : Layout) (n p : Nat) :
    (layout.placesBelow n p).Pairwise (· < ·) := by
  rw [placesBelow, List.pairwise_map]
  exact (List.pairwise_lt_range.filter _).imp Nat.succ_lt_succ

theorem placesBelow_eq_nil (layout : Layout) (h : n ≤ p) : layout.placesBelow n p = [] := by
  rw [placesBelow, List.map_eq_nil_iff, List.filter_eq_nil_iff]
  intro k hk
  have hkn := List.mem_range.mp hk
  have hle := layout.placeAbove_le k
  simp only [decide_eq_true_eq]
  omega

end Layout

section Nodes

variable {entries : List LineToken} {entry : LineToken} {growth : Growth} {k n last : Nat}

theorem filled_ofEntries : (Layout.ofEntries entries).filled k ↔ k < entries.length := by
  simp [Layout.ofEntries]

theorem opens_ofEntries (h : entries[k]? = some entry) :
    (Layout.ofEntries entries).opens k = entry.token.symbol.opensBlock := by
  simp [Layout.ofEntries, h]

theorem level_ofEntries (h : entries[k]? = some entry) :
    (Layout.ofEntries entries).level k = entry.level := by
  simp [Layout.ofEntries, h]

/-- The line at which the block of entry `k` ends: that of the first of the first `n` entries that
is behind it and not deeper, or `last` if there is none. -/
def stopLine (entries : List LineToken) (n last k : Nat) : Nat :=
  ((((Layout.ofEntries entries).closer n k).bind (entries[·]?)).map (·.token.line)).getD last

/-- The lines of entry `k` once `n` entries are read: for a block, up to the line that ends it, with
its own line at least; its own line otherwise. -/
def linesAt (entries : List LineToken) (n last k : Nat) (entry : LineToken) : LineRange :=
  ⟨entry.token.line,
    if entry.token.symbol.opensBlock then max (stopLine entries n last k) (entry.token.line + 1)
    else entry.token.line + 1⟩

/-- The node of entry `k` once `n` entries are read, if a block that no entry has ended ends at line
`last`. -/
def nodeAt (entries : List LineToken) (n last k : Nat) (entry : LineToken) : Node where
  id := k + 1
  label := if entry.token.symbol.opensBlock then .block else .statement
  token := some entry.token
  children := (Layout.ofEntries entries).placesBelow n (k + 1)
  parent := some ((Layout.ofEntries entries).placeAbove k)
  depth := ((Layout.ofEntries entries).above k).length + 1
  lines := linesAt entries n last k entry

/-- The root once `n` entries are read. -/
def rootAt (entries : List LineToken) (n lineCount : Nat) : Node :=
  ⟨0, .root, none, (Layout.ofEntries entries).placesBelow n 0, none, 0, ⟨0, lineCount⟩⟩

/-- The outline has the root and the nodes of the first `n` entries, and no others. -/
structure Outline.Shows (outline : Outline) (entries : List LineToken) (n last : Nat) : Prop where
  size : outline.size = n + 1
  root : outline.nodes[0]? = some (rootAt entries n outline.lineCount)
  node : ∀ k entry, k < n → entries[k]? = some entry →
    outline.nodes[k + 1]? = some (nodeAt entries n last k entry)

/-- What the builder knows after the first `n` entries: their nodes, where a block that is still
open ends with its first line, and the open blocks. -/
structure Grown (entries : List LineToken) (n : Nat) (growth : Growth) : Prop where
  shows : growth.outline.Shows entries n 0
  opened : growth.opened =
    (Layout.ofEntries entries).stack ((Layout.ofEntries entries).openAfter n)

/-- The open blocks that an entry behind the first `n` ends. -/
def endedBy (entries : List LineToken) (n : Nat) (entry : LineToken) : List OpenBlock :=
  (Layout.ofEntries entries).stack (((Layout.ofEntries entries).openAfter n).filter
    (entry.level ≤ (Layout.ofEntries entries).level ·))

/-! ## One more entry -/

/-- An entry closes the open blocks that it is not deeper than, and those it is in are left. -/
theorem Grown.closeDown (h : Grown entries n growth) (he : entries[n]? = some entry) :
    { growth with depth := entry.level }.closeDown entry.token.line =
      ⟨Growth.closeAll growth.outline (endedBy entries n entry) entry.token.line, entry.level,
        (Layout.ofEntries entries).stack ((Layout.ofEntries entries).above n)⟩ := by
  have hn : n < entries.length := (List.getElem?_eq_some_iff.mp he).1
  -- the stack gets shallower, so the blocks to be closed are all on top of it
  have hmono : growth.opened.Pairwise fun x y =>
      decide (entry.level ≤ y.depth) = true → decide (entry.level ≤ x.depth) = true := by
    rw [h.opened]
    refine (Layout.stack_pairwise _ (Layout.openAfter_level _ n)).imp fun hxy hy => ?_
    simp only [decide_eq_true_eq] at hy ⊢
    omega
  have htake : growth.opened.takeWhile (entry.level ≤ ·.depth) = endedBy entries n entry := by
    rw [takeWhile_eq_filter hmono, h.opened, Layout.filter_stack]
    rfl
  have hdrop : growth.opened.dropWhile (entry.level ≤ ·.depth) =
      (Layout.ofEntries entries).stack ((Layout.ofEntries entries).above n) := by
    rw [dropWhile_eq_filter hmono, h.opened, Layout.filter_stack,
      Layout.above_eq_filter (filled_ofEntries.mpr hn), level_ofEntries he]
    congr 2
    funext k
    rw [Bool.eq_iff_iff, Bool.not_eq_true', decide_eq_false_iff_not, decide_eq_true_eq]
    exact Nat.not_le
  show Growth.mk _ _ _ = _
  rw [htake, hdrop]

theorem innermost_above (layout : Layout) (outline : Outline) (depth k : Nat) :
    (Growth.mk outline depth (layout.stack (layout.above k))).innermost = layout.placeAbove k := by
  rw [Growth.innermost, Layout.stack, Layout.placeAbove, List.head?_reverse, List.getLast?_map,
    Option.map_map]
  rfl

theorem mem_endedBy {i : Nat} (he : entries[n]? = some entry) :
    i ∈ (endedBy entries n entry).map OpenBlock.id ↔
      ∃ k ∈ (Layout.ofEntries entries).openAfter n,
        (Layout.ofEntries entries).level n ≤ (Layout.ofEntries entries).level k ∧ k + 1 = i := by
  simp only [endedBy, Layout.mem_id_stack, List.mem_filter, decide_eq_true_eq, level_ofEntries he,
    and_assoc]

/-- An entry ends the lines of the blocks that are open and not shallower than it. -/
theorem linesAt_succ_of_ended {ended : LineToken} (he : entries[n]? = some entry)
    (hk : entries[k]? = some ended) (hopen : k ∈ (Layout.ofEntries entries).openAfter n)
    (hlevel : (Layout.ofEntries entries).level n ≤ (Layout.ofEntries entries).level k) :
    linesAt entries (n + 1) last k ended =
      ⟨ended.token.line, max entry.token.line (ended.token.line + 1)⟩ := by
  have hn : n < entries.length := (List.getElem?_eq_some_iff.mp he).1
  obtain ⟨hkn, hcov⟩ := Layout.mem_openAfter.mp hopen
  have hopens : ended.token.symbol.opensBlock = true := opens_ofEntries hk ▸ hcov.opens
  have hnone := (Layout.closer_eq_none_iff_open hcov.filled hcov.opens hkn).mpr hopen
  have hcloser : (Layout.ofEntries entries).closer (n + 1) k = some n := by
    rw [Layout.closer_succ, hnone, if_pos ⟨hkn, filled_ofEntries.mpr hn, hlevel⟩]
    rfl
  rw [linesAt, if_pos hopens, stopLine, hcloser, Option.bind_some, he]
  rfl

theorem linesAt_succ_of_not_ended {kept : LineToken} (hkn : k < n)
    (hk : entries[k]? = some kept)
    (h : ¬ (k ∈ (Layout.ofEntries entries).openAfter n ∧
      (Layout.ofEntries entries).level n ≤ (Layout.ofEntries entries).level k)) :
    linesAt entries (n + 1) last k kept = linesAt entries n last k kept := by
  by_cases hopens : kept.token.symbol.opensBlock = true
  · have hkl : k < entries.length := (List.getElem?_eq_some_iff.mp hk).1
    have hcloser : (Layout.ofEntries entries).closer (n + 1) k =
        (Layout.ofEntries entries).closer n k := by
      rw [Layout.closer_succ]
      cases hc : (Layout.ofEntries entries).closer n k with
      | some m => rfl
      | none =>
        have hopen := (Layout.closer_eq_none_iff_open (filled_ofEntries.mpr hkl)
          (opens_ofEntries hk ▸ hopens) hkn).mp hc
        exact if_neg fun ⟨_, _, hlevel⟩ => h ⟨hopen, hlevel⟩
    rw [linesAt, linesAt, stopLine, hcloser]
    rfl
  · rw [linesAt, linesAt, if_neg hopens, if_neg hopens]

theorem linesAt_last (entries : List LineToken) (k : Nat) (entry : LineToken) :
    linesAt entries (k + 1) 0 k entry = ⟨entry.token.line, entry.token.line + 1⟩ := by
  have hcloser : (Layout.ofEntries entries).closer (k + 1) k = none := by
    rw [Layout.closer_eq_none_iff]
    intro m hkm hmk
    omega
  rw [linesAt, stopLine, hcloser]
  simp

/-- Once an entry has ended the blocks that it ends, all lines but its own are as they are to be. -/
theorem Grown.getElem?_ended {other : LineToken} (h : Grown entries n growth)
    (he : entries[n]? = some entry) (hkn : k < n) (hk : entries[k]? = some other) :
    (Growth.closeAll growth.outline (endedBy entries n entry) entry.token.line).nodes[k + 1]? =
      some { nodeAt entries n 0 k other with lines := linesAt entries (n + 1) 0 k other } := by
  rw [Outline.getElem?_closeAll, h.shows.node k other hkn hk]
  by_cases hended : k ∈ (Layout.ofEntries entries).openAfter n ∧
      (Layout.ofEntries entries).level n ≤ (Layout.ofEntries entries).level k
  · rw [if_pos ((mem_endedBy he).mpr ⟨k, hended.1, hended.2, rfl⟩),
      linesAt_succ_of_ended he hk hended.1 hended.2]
    rfl
  · have hmem : k + 1 ∉ (endedBy entries n entry).map OpenBlock.id := by
      rw [mem_endedBy he]
      rintro ⟨m, hm, hlevel, hkm⟩
      obtain rfl : m = k := Nat.succ.inj hkm
      exact hended ⟨hm, hlevel⟩
    rw [if_neg hmem, linesAt_succ_of_not_ended hkn hk hended]
    rfl

theorem Grown.root_ended (h : Grown entries n growth) (he : entries[n]? = some entry) :
    (Growth.closeAll growth.outline (endedBy entries n entry) entry.token.line).nodes[0]? =
      some (rootAt entries n growth.outline.lineCount) := by
  have hmem : 0 ∉ (endedBy entries n entry).map OpenBlock.id := by
    rw [mem_endedBy he]
    rintro ⟨k, _, _, hk⟩
    omega
  rw [Outline.getElem?_closeAll, if_neg hmem, h.shows.root]

theorem Grown.depth_above (h : Grown entries n growth) (hn : n < entries.length) :
    (growth.outline.nodes[(Layout.ofEntries entries).placeAbove n]?.map Node.depth).getD 0 =
      ((Layout.ofEntries entries).above n).length := by
  rw [Layout.placeAbove]
  cases hlast : ((Layout.ofEntries entries).above n).getLast? with
  | none =>
    rw [List.getLast?_eq_none_iff.mp hlast, Option.map_none, Option.getD_none, h.shows.root]
    rfl
  | some j =>
    obtain ⟨hjn, hcov⟩ := Layout.mem_above.mp (List.mem_of_getLast? hlast)
    have hj : entries[j]? = some entries[j] := List.getElem?_eq_getElem (by omega)
    rw [Option.map_some, Option.getD_some, h.shows.node j _ hjn hj, Layout.above_eq_around hlast,
      Layout.around_eq hcov.filled, if_pos hcov.opens, List.length_append]
    rfl

/-- The new node joins the table where it belongs. -/
theorem Grown.shows_push (h : Grown entries n growth) (he : entries[n]? = some entry) :
    ((Growth.closeAll growth.outline (endedBy entries n entry) entry.token.line).pushChild
      ((Layout.ofEntries entries).placeAbove n)
      (if entry.token.symbol.opensBlock then .block else .statement) entry.token).Shows
        entries (n + 1) 0 := by
  have hn : n < entries.length := (List.getElem?_eq_some_iff.mp he).1
  have hsize : (Growth.closeAll growth.outline (endedBy entries n entry) entry.token.line).size =
      n + 1 := (Outline.size_closeAll ..).trans h.shows.size
  have hle := (Layout.ofEntries entries).placeAbove_le n
  refine ⟨?_, ?_, fun k other hk hother => ?_⟩
  · rw [Outline.size_pushChild, hsize]
  · rw [Outline.getElem?_pushChild, hsize, if_neg (Nat.succ_ne_zero n).symm, h.root_ended he,
      Outline.lineCount_pushChild, Outline.lineCount_closeAll]
    simp only [rootAt, Layout.placesBelow_succ]
    split
    · rfl
    · rw [List.append_nil]
  · rw [Outline.getElem?_pushChild, hsize]
    rcases Nat.lt_succ_iff_lt_or_eq.mp hk with hkn | rfl
    · rw [if_neg (by omega), h.getElem?_ended he hkn hother]
      simp only [nodeAt, Layout.placesBelow_succ]
      split
      · rfl
      · rw [List.append_nil]
    · obtain rfl : other = entry := Option.some.inj (hother.symm.trans he)
      rw [if_pos rfl, Outline.depth_closeAll, h.depth_above hn, nodeAt,
        Layout.placesBelow_eq_nil _ (Nat.le_refl _), linesAt_last]

/-- One more entry keeps what holds after `n` of them. -/
theorem Grown.place (h : Grown entries n growth) (he : entries[n]? = some entry) :
    Grown entries (n + 1) (growth.place entry) := by
  have hn : n < entries.length := (List.getElem?_eq_some_iff.mp he).1
  have hshows := h.shows_push he
  have hopen := Layout.openAfter_succ (filled_ofEntries.mpr hn)
  rw [opens_ofEntries he] at hopen
  rw [Growth.place, Growth.line, h.closeDown he]
  by_cases hopens : entry.token.symbol.opensBlock = true
  · rw [if_pos hopens] at hshows hopen ⊢
    refine ⟨?_, ?_⟩
    · show (Outline.pushChild _ (Growth.innermost _) _ _).Shows _ _ _
      rw [innermost_above]
      exact hshows
    · rw [hopen, Layout.stack_append]
      show OpenBlock.mk (Outline.size _) _ :: _ = _
      rw [Outline.size_closeAll, h.shows.size, ← level_ofEntries he]
  · rw [if_neg hopens] at hshows hopen ⊢
    refine ⟨?_, ?_⟩
    · show (Outline.pushChild _ (Growth.innermost _) _ _).Shows _ _ _
      rw [innermost_above]
      exact hshows
    · rw [hopen, List.append_nil]
      rfl

/-! ## All entries -/

theorem grown_start (entries : List LineToken) (lineCount : Nat) :
    Grown entries 0 (.start lineCount) :=
  ⟨⟨rfl, rfl, fun _ _ hk => absurd hk (Nat.not_lt_zero _)⟩, rfl⟩

/-- And so after any number of entries. -/
theorem grown_take (entries : List LineToken) (lineCount : Nat) (hn : n ≤ entries.length) :
    Grown entries n ((entries.take n).foldl Growth.place (.start lineCount)) := by
  induction n with
  | zero => exact grown_start entries lineCount
  | succ n ih =>
    have he : entries[n]? = some entries[n] := List.getElem?_eq_getElem hn
    rw [List.take_succ_eq_append_getElem hn, List.foldl_append]
    exact (ih (Nat.le_of_succ_le hn)).place he

@[simp] theorem lineCount_line (growth : Growth) (token : Token) :
    (growth.line token).outline.lineCount = growth.outline.lineCount := by
  unfold Growth.line
  split <;> exact Outline.lineCount_closeAll ..

theorem lineCount_foldl_place (entries : List LineToken) (growth : Growth) :
    (entries.foldl Growth.place growth).outline.lineCount = growth.outline.lineCount := by
  induction entries generalizing growth with
  | nil => rfl
  | cons entry entries ih => exact (ih _).trans (lineCount_line _ entry.token)

theorem linesAt_of_not_open (hk : entries[k]? = some entry) (hkn : k < n)
    (hopen : k ∉ (Layout.ofEntries entries).openAfter n) (last' : Nat) :
    linesAt entries n last k entry = linesAt entries n last' k entry := by
  by_cases hopens : entry.token.symbol.opensBlock = true
  · have hkl : k < entries.length := (List.getElem?_eq_some_iff.mp hk).1
    have hcloser := mt (Layout.closer_eq_none_iff_open (filled_ofEntries.mpr hkl)
      (opens_ofEntries hk ▸ hopens) hkn).mp hopen
    obtain ⟨m, hm⟩ := Option.ne_none_iff_exists'.mp hcloser
    have hml : m < entries.length := by
      have := (Layout.closer_eq_some_iff.mp hm).2.2.1
      exact filled_ofEntries.mp this
    rw [linesAt, linesAt, stopLine, stopLine, hm, Option.bind_some, List.getElem?_eq_getElem hml]
    rfl
  · rw [linesAt, linesAt, if_neg hopens, if_neg hopens]

/-- At the end of the document, what is still open ends with it. -/
theorem Grown.finish (h : Grown entries entries.length growth) :
    growth.finish.Shows entries entries.length growth.outline.lineCount := by
  have hmem (i : Nat) : i ∈ growth.opened.map OpenBlock.id ↔
      ∃ k ∈ (Layout.ofEntries entries).openAfter entries.length, k + 1 = i := by
    rw [h.opened, Layout.mem_id_stack]
  refine ⟨(Outline.size_closeAll ..).trans h.shows.size, ?_, fun k entry hk he => ?_⟩
  · have hroot : 0 ∉ growth.opened.map OpenBlock.id := by
      rw [hmem]
      rintro ⟨k, _, hk⟩
      omega
    rw [Growth.finish, Outline.getElem?_closeAll, if_neg hroot, Outline.lineCount_closeAll]
    exact h.shows.root
  · rw [Growth.finish, Outline.getElem?_closeAll, h.shows.node k entry hk he]
    by_cases hopen : k ∈ (Layout.ofEntries entries).openAfter entries.length
    · obtain ⟨hkn, hcov⟩ := Layout.mem_openAfter.mp hopen
      have hopens : entry.token.symbol.opensBlock = true := opens_ofEntries he ▸ hcov.opens
      have hcloser := (Layout.closer_eq_none_iff_open hcov.filled hcov.opens hkn).mpr hopen
      rw [if_pos ((hmem _).mpr ⟨k, hopen, rfl⟩)]
      simp only [Option.map_some, Node.endAt, nodeAt, linesAt, if_pos hopens, stopLine, hcloser,
        Option.bind_none, Option.map_none, Option.getD_none]
    · have hne : k + 1 ∉ growth.opened.map OpenBlock.id := by
        rw [hmem]
        rintro ⟨m, hm, hmk⟩
        obtain rfl : m = k := Nat.succ.inj hmk
        exact hopen hm
      rw [if_neg hne, nodeAt, linesAt_of_not_open he hk hopen growth.outline.lineCount]
      rfl

namespace Outline

/-- Every node of the table is the root or an entry's. -/
theorem Shows.cases {outline : Outline} {node : Node} {p : Nat} (h : outline.Shows entries n last)
    (hn : n ≤ entries.length) (hp : outline.nodes[p]? = some node) :
    (p = 0 ∧ node = rootAt entries n outline.lineCount) ∨
      ∃ k entry, p = k + 1 ∧ k < n ∧ entries[k]? = some entry ∧
        node = nodeAt entries n last k entry := by
  cases p with
  | zero => exact .inl ⟨rfl, Option.some.inj (hp.symm.trans h.root)⟩
  | succ k =>
    have hk : k + 1 < outline.size := (Array.getElem?_eq_some_iff.mp hp).1
    have hkn : k < n := by
      have := h.size
      omega
    have he : entries[k]? = some entries[k] := List.getElem?_eq_getElem (by omega)
    exact .inr ⟨k, _, rfl, hkn, he, Option.some.inj (hp.symm.trans (h.node k _ hkn he))⟩

/-- The outline has the root and the nodes of all entries, and no others. -/
abbrev Lists (outline : Outline) (entries : List LineToken) : Prop :=
  outline.Shows entries entries.length outline.lineCount

@[simp] theorem lineCount_ofTokens (tokens : List Token) (lineCount : Nat) :
    (ofTokens tokens lineCount).lineCount = lineCount := by
  rw [ofTokens, Growth.finish_foldl_step, Growth.finish, lineCount_closeAll, lineCount_foldl_place]
  rfl

/-- Any stream of tokens makes the outline of its line entries. -/
theorem lists_ofTokens (tokens : List Token) (lineCount : Nat) :
    (ofTokens tokens lineCount).Lists (lineEntries 0 tokens) := by
  have hgrown := grown_take (lineEntries 0 tokens) lineCount (Nat.le_refl _)
  rw [List.take_length] at hgrown
  have h := hgrown.finish
  rw [lineCount_foldl_place] at h
  rw [Lists, lineCount_ofTokens, ofTokens, Growth.finish_foldl_step]
  exact h

end Outline

end Nodes

end Offside
