import Offside.Outline.Sentence
import Offside.Proofs.Context

/-!
# Text at the end of a document

A document that grows at its end keeps what it has. Where a line stands depends on the lines above
it only. So when whole lines follow, a node keeps its place, its token, its parent and its depth,
and can only get more children and a later end (`Node.GrowsTo`); a node whose block has ended keeps
its end too. What is asked about an old line has the same answer as before, because all new nodes
come from lines behind it (`Outline.blocksAt_append`).

The old text has to end with a line end. Otherwise what follows belongs to its last line.
-/

namespace Offside

open Offside.Text

/-! ## Layouts -/

namespace Layout

/-- The layouts agree on the first `n` lines. -/
structure AgreeBelow (n : Nat) (first second : Layout) : Prop where
  filled : ∀ k < n, first.filled k = second.filled k
  opens : ∀ k < n, first.opens k = second.opens k
  level : ∀ k < n, first.level k = second.level k

namespace AgreeBelow

variable {first second : Layout} {j k l m n p : Nat}

theorem symm (h : AgreeBelow n first second) : AgreeBelow n second first where
  filled k hk := (h.filled k hk).symm
  opens k hk := (h.opens k hk).symm
  level k hk := (h.level k hk).symm

theorem covers (h : AgreeBelow n first second) (hl : l < n) (hcov : first.Covers j l) :
    second.Covers j l := by
  have hj : j < n := Nat.lt_of_le_of_lt hcov.le hl
  refine ⟨h.filled j hj ▸ hcov.filled, h.opens j hj ▸ hcov.opens, hcov.le, ?_⟩
  intro k hjk hkl hfilled
  have hk : k < n := Nat.lt_of_le_of_lt hkl hl
  rw [← h.level j hj, ← h.level k hk]
  exact hcov.deeper k hjk hkl ((h.filled k hk).trans hfilled)

theorem covers_iff (h : AgreeBelow n first second) (hl : l < n) :
    first.Covers j l ↔ second.Covers j l :=
  ⟨h.covers hl, h.symm.covers hl⟩

theorem above_eq (h : AgreeBelow n first second) (hk : k < n) : first.above k = second.above k :=
  above_congr fun _ => h.covers_iff hk

theorem placeAbove_eq (h : AgreeBelow n first second) (hk : k < n) :
    first.placeAbove k = second.placeAbove k := by
  unfold placeAbove
  rw [h.above_eq hk]

/-- The nodes of later lines stand behind those that are below a node already. -/
theorem placesBelow_isPrefix (h : AgreeBelow n first second) (hnm : n ≤ m) (p : Nat) :
    first.placesBelow n p <+: second.placesBelow m p := by
  obtain ⟨more, rfl⟩ := Nat.exists_eq_add_of_le hnm
  have hsame : (List.range n).filter (first.placeAbove · = p) =
      (List.range n).filter (second.placeAbove · = p) := by
    apply List.filter_congr
    intro k hk
    rw [h.placeAbove_eq (List.mem_range.mp hk)]
  unfold placesBelow
  rw [hsame, List.range_add, List.filter_append, List.map_append]
  exact List.prefix_append _ _

theorem closer_eq_some (h : AgreeBelow n first second) (hnm : n ≤ m)
    (hk : first.closer n j = some k) : second.closer m j = some k := by
  obtain ⟨hkn, hjk, hfilled, hle, hdeeper⟩ := closer_eq_some_iff.mp hk
  have hlevel := h.level j (by omega)
  refine closer_eq_some_iff.mpr ⟨by omega, hjk, h.filled k hkn ▸ hfilled, ?_, ?_⟩
  · rw [← h.level k hkn, ← hlevel]
    exact hle
  · intro i hji hik hf
    have hi : i < n := by omega
    rw [← h.level i hi, ← hlevel]
    exact hdeeper i hji hik ((h.filled i hi).trans hf)

/-- A block that none of the first lines ends is not ended before them. -/
theorem le_closer (h : AgreeBelow n first second) (hj : j < n) (hnone : first.closer n j = none)
    (hk : second.closer m j = some k) : n ≤ k := by
  obtain ⟨_, hjk, hfilled, hle, _⟩ := closer_eq_some_iff.mp hk
  refine Nat.le_of_not_lt ?_
  intro hkn
  have hdeeper := closer_eq_none_iff.mp hnone k hjk hkn ((h.filled k hkn).trans hfilled)
  rw [h.level j hj, h.level k hkn] at hdeeper
  omega

/-- With more lines, a block ends where it did or later. -/
theorem stop_le (h : AgreeBelow n first second) (hj : j < n) (hnm : n ≤ m) :
    (first.closer n j).getD n ≤ (second.closer m j).getD m := by
  cases hfirst : first.closer n j with
  | some k =>
    rw [h.closer_eq_some hnm hfirst]
    exact Nat.le_refl k
  | none =>
    cases hsecond : second.closer m j with
    | none => exact hnm
    | some k => exact h.le_closer hj hfirst hsecond

end AgreeBelow

end Layout

/-! ## Nodes -/

/-- The later node is the node again, but for more children behind its own and a later end. -/
structure Node.GrowsTo (node later : Node) : Prop where
  id : node.id = later.id
  label : node.label = later.label
  token : node.token = later.token
  parent : node.parent = later.parent
  depth : node.depth = later.depth
  children : node.children <+: later.children
  start : node.lines.start = later.lines.start
  stop : node.lines.stop ≤ later.lines.stop

section Answers

variable {node later : Node} {path path' : List Node}

theorem Node.GrowsTo.phrase_eq (h : node.GrowsTo later) : node.phrase = later.phrase := by
  unfold phrase isRoot
  rw [h.label, h.token]

theorem Node.GrowsTo.firstPhrase_eq (h : node.GrowsTo later) (l : Nat) :
    node.firstPhrase l = later.firstPhrase l := by
  unfold firstPhrase isRoot
  rw [h.label, h.token]

theorem map_eq_of_growsTo {α : Type} {f : Node → α}
    (hf : ∀ {node later : Node}, node.GrowsTo later → f node = f later)
    (h : List.Forall₂ Node.GrowsTo path path') : path.map f = path'.map f := by
  induction h with
  | nil => rfl
  | cons hnode _ ih => rw [List.map_cons, List.map_cons, hf hnode, ih]

/-- The sentence about a line says nothing that changes when nodes grow. -/
theorem contextSentence_eq_of_growsTo (h : List.Forall₂ Node.GrowsTo path path') (l : Nat) :
    contextSentence path l = contextSentence path' l := by
  cases h with
  | nil => rfl
  | cons hfirst hrest =>
    simp only [contextSentence, hfirst.firstPhrase_eq,
      map_eq_of_growsTo Node.GrowsTo.phrase_eq hrest]

theorem exists_contextSentence (h : path ≠ []) (l : Nat) :
    ∃ sentence, contextSentence path l = .ok sentence := by
  cases path with
  | nil => exact absurd rfl h
  | cons first rest => exact ⟨_, rfl⟩

theorem Outline.contextSentence_eq {outline : Outline} {l : Nat}
    (h : outline.enclosing l = .ok path) :
    outline.contextSentence l = Offside.contextSentence path l := by
  unfold contextSentence
  rw [h]
  rfl

end Answers

/-! ## Entries -/

section Entries

variable {first second : List LineToken} {entry : LineToken} {k last last' : Nat}

theorem agreeBelow_ofEntries (h : first <+: second) :
    Layout.AgreeBelow first.length (.ofEntries first) (.ofEntries second) := by
  obtain ⟨more, rfl⟩ := h
  refine ⟨fun k hk => ?_, fun k hk => ?_, fun k hk => ?_⟩
  · rw [Bool.eq_iff_iff, filled_ofEntries, filled_ofEntries, List.length_append]
    omega
  · simp only [Layout.ofEntries, List.getElem?_append_left hk]
  · simp only [Layout.ofEntries, List.getElem?_append_left hk]

/-- With more entries behind it, the node of an entry grows, if only its end does not move up. -/
theorem nodeAt_growsTo (h : first <+: second) (hk : k < first.length)
    (hstop : (linesAt first first.length last k entry).stop ≤
      (linesAt second second.length last' k entry).stop) :
    (nodeAt first first.length last k entry).GrowsTo
      (nodeAt second second.length last' k entry) where
  id := rfl
  label := rfl
  token := rfl
  parent := congrArg some ((agreeBelow_ofEntries h).placeAbove_eq hk)
  depth := by
    unfold nodeAt
    rw [(agreeBelow_ofEntries h).above_eq hk]
  children := (agreeBelow_ofEntries h).placesBelow_isPrefix h.length_le (k + 1)
  start := rfl
  stop := hstop

end Entries

/-! ## Documents -/

section Documents

variable {tabs : Tabs} {text more : List Char} {node later : Node} {i k l p : Nat}

theorem lineCount_append (h : WholeLines text) (more : List Char) :
    lineCount (text ++ more) = lineCount text + lineCount more := by
  unfold lineCount
  rw [lines_append h, List.length_append]

theorem lineCount_le_append (h : WholeLines text) (more : List Char) :
    lineCount text ≤ lineCount (text ++ more) := by
  rw [lineCount_append h]
  exact Nat.le_add_right _ _

theorem textLine_append_left (h : WholeLines text) (more : List Char)
    (hi : i < lineCount text) : textLine (text ++ more) i = textLine text i := by
  unfold textLine
  rw [lines_append h, List.getElem?_append_left hi]

theorem textLine_append_right (h : WholeLines text) (more : List Char) (i : Nat) :
    textLine (text ++ more) (lineCount text + i) = textLine more i := by
  unfold textLine lineCount
  rw [lines_append h, List.getElem?_append_right (Nat.le_add_right _ _), Nat.add_sub_cancel_left]

theorem filledLines_append (h : WholeLines text) (more : List Char) :
    filledLines (text ++ more) =
      filledLines text ++ (filledLines more).map (lineCount text + ·) := by
  unfold filledLines
  rw [lineCount_append h, List.range_add, List.filter_append, List.filter_map]
  congr 1
  · apply List.filter_congr
    intro i hi
    rw [textLine_append_left h more (List.mem_range.mp hi)]
  · congr 1
    apply List.filter_congr
    intro i _
    rw [Function.comp_apply, textLine_append_right h]

theorem filledLines_isPrefix (h : WholeLines text) (more : List Char) :
    filledLines text <+: filledLines (text ++ more) := by
  rw [filledLines_append h]
  exact List.prefix_append _ _

theorem textEntries_isPrefix (tabs : Tabs) (h : WholeLines text) (more : List Char) :
    textEntries tabs text <+: textEntries tabs (text ++ more) := by
  have hsame : (filledLines text).map (fun i => lineToken tabs i (textLine (text ++ more) i)) =
      textEntries tabs text := by
    apply List.map_congr_left
    intro i hi
    rw [textLine_append_left h more (mem_filledLines.mp hi).1]
  rw [← hsame, textEntries, filledLines_append h, List.map_append]
  exact List.prefix_append _ _

theorem agreeBelow_ofText (tabs : Tabs) (h : WholeLines text) (more : List Char) :
    Layout.AgreeBelow (lineCount text) (.ofText tabs text) (.ofText tabs (text ++ more)) := by
  refine ⟨fun k hk => ?_, fun k hk => ?_, fun k hk => ?_⟩ <;>
    simp only [Layout.ofText, textLine_append_left h more hk]

/-! ## The nodes of the old lines -/

namespace Node.StandsFor

/-- A line's node ends where it did, or later. -/
theorem stop_le (hnode : node.StandsFor tabs text i)
    (hlater : later.StandsFor tabs (text ++ more) i) (h : WholeLines text)
    (hi : i < lineCount text) : node.lines.stop ≤ later.lines.stop := by
  have hagree := agreeBelow_ofText tabs h more
  rw [hnode.lines, hlater.lines, ← hagree.opens i hi]
  cases (Layout.ofText tabs text).opens i with
  | false => exact Nat.le_refl _
  | true => exact hagree.stop_le hi (lineCount_le_append h more)

/-- If a line of the old text is not deeper, the node ends where it did. -/
theorem lines_eq (hnode : node.StandsFor tabs text i)
    (hlater : later.StandsFor tabs (text ++ more) i) (h : WholeLines text) (hik : i < k)
    (hk : k < lineCount text)
    (hfilled : (Layout.ofText tabs text).filled k)
    (hlevel : (Layout.ofText tabs text).level k ≤ (Layout.ofText tabs text).level i) :
    node.lines = later.lines := by
  have hagree := agreeBelow_ofText tabs h more
  cases hclose : (Layout.ofText tabs text).closer (lineCount text) i with
  | none =>
    have hdeeper := Layout.closer_eq_none_iff.mp hclose k hik hk hfilled
    omega
  | some m =>
    rw [hnode.lines, hlater.lines, hagree.opens i (Nat.lt_trans hik hk), hclose,
      hagree.closer_eq_some (lineCount_le_append h more) hclose]
    rfl

end Node.StandsFor

namespace Outline

/-- A node of the old text stands at its place in the new table, and stands for the same line. -/
theorem exists_growsTo (tabs : Tabs) (h : WholeLines text) (more : List Char)
    (hnode : (ofText tabs text).nodes[p]? = some node) :
    ∃ later : Node, (ofText tabs (text ++ more)).nodes[p]? = some later ∧ node.GrowsTo later := by
  have hfront := textEntries_isPrefix tabs h more
  have hlists := lists_ofText tabs (text ++ more)
  rcases (lists_ofText tabs text).cases (Nat.le_refl _) hnode with
    ⟨rfl, rfl⟩ | ⟨k, entry, rfl, hk, he, rfl⟩
  · refine ⟨_, hlists.root, rfl, rfl, rfl, rfl, rfl, ?_, rfl, ?_⟩
    · exact (agreeBelow_ofEntries hfront).placesBelow_isPrefix hfront.length_le 0
    · simpa only [rootAt, lineCount_ofText] using lineCount_le_append h more
  · have hk' : k < (filledLines text).length := length_textEntries ▸ hk
    have hi : (filledLines text)[k]? = some (filledLines text)[k] := List.getElem?_eq_getElem hk'
    have hi' := getElem?_of_isPrefix (filledLines_isPrefix h more) hi
    have he' := getElem?_of_isPrefix hfront he
    refine ⟨_, hlists.node k entry (Nat.lt_of_lt_of_le hk hfront.length_le) he', ?_⟩
    simp only [lineCount_ofText]
    refine nodeAt_growsTo hfront hk ?_
    exact (standsFor_nodeAt hi he).stop_le (standsFor_nodeAt hi' he') h
      (mem_filledLines.mp (List.mem_of_getElem? hi)).1

/-- At one place, the nodes of the old and the new table stand for one line. -/
theorem standsFor_append (h : WholeLines text)
    (hnode : (ofText tabs text).nodes[p + 1]? = some node)
    (hlater : (ofText tabs (text ++ more)).nodes[p + 1]? = some later) :
    ∃ i, (filledLines text)[p]? = some i ∧ (filledLines (text ++ more))[p]? = some i ∧
      node.StandsFor tabs text i ∧ later.StandsFor tabs (text ++ more) i := by
  obtain ⟨i, hi, hline⟩ := standsFor_ofText hnode
  obtain ⟨j, hj, hline'⟩ := standsFor_ofText hlater
  have hi' := getElem?_of_isPrefix (filledLines_isPrefix h more) hi
  obtain rfl : i = j := Option.some.inj (hi'.symm.trans hj)
  exact ⟨i, hi, hj, hline, hline'⟩

/-- If a line of the old text behind it is not deeper, it covers the same lines as before. -/
theorem lines_eq_of_ended (h : WholeLines text)
    (hnode : (ofText tabs text).nodes[p]? = some node)
    (hlater : (ofText tabs (text ++ more)).nodes[p]? = some later)
    (hstart : node.startLine = some i) (hik : i < k) (hk : k < Offside.lineCount text)
    (hfilled : allBlank (textLine text k) = false)
    (hlevel : level tabs (textLine text k) ≤ level tabs (textLine text i)) :
    node.lines = later.lines := by
  obtain _ | p := p
  · obtain rfl := Option.some.inj ((lists_ofText tabs text).root.symm.trans hnode)
    cases hstart
  obtain ⟨j, _, _, hline, hline'⟩ := standsFor_append h hnode hlater
  rw [Node.startLine, hline.token, Option.map_some] at hstart
  obtain rfl : j = i := Option.some.inj hstart
  exact hline.lines_eq hline' h hik hk (congrArg not hfilled) hlevel

/-! ## Blocks around the old lines -/

theorem encloses_eq (h : WholeLines text) (hl : l < Offside.lineCount text)
    (hnode : (ofText tabs text).nodes[p]? = some node)
    (hlater : (ofText tabs (text ++ more)).nodes[p]? = some later) :
    encloses l node = encloses l later := by
  obtain _ | p := p
  · simp [encloses, Node.isBlock, label_ofText_zero hnode, label_ofText_zero hlater]
  obtain ⟨i, hi, hi', hline, hline'⟩ := standsFor_append h hnode hlater
  have hl' := Nat.lt_of_lt_of_le hl (lineCount_le_append h more)
  rw [Bool.eq_iff_iff,
    encloses_iff_covers hl hline (filled_ofText_iff.mpr (List.mem_of_getElem? hi)),
    encloses_iff_covers hl' hline' (filled_ofText_iff.mpr (List.mem_of_getElem? hi'))]
  exact (agreeBelow_ofText tabs h more).covers_iff hl

/-- A new node comes from a line behind the old ones. -/
theorem encloses_of_new (h : WholeLines text) (hl : l < Offside.lineCount text)
    (hp : (ofText tabs text).size ≤ p)
    (hlater : (ofText tabs (text ++ more)).nodes[p]? = some later) :
    encloses l later = false := by
  rcases cases_ofText hlater with ⟨_, hroot⟩ | ⟨q, i, rfl, hi, hline⟩
  · simp [encloses, Node.isBlock, hroot]
  have hq : (filledLines text).length ≤ q := by
    rw [(lists_ofText tabs text).size, length_textEntries] at hp
    omega
  have hnew := hi
  rw [filledLines_append h, List.getElem?_append_right hq, List.getElem?_map,
    Option.map_eq_some_iff] at hnew
  obtain ⟨j, _, rfl⟩ := hnew
  have hl' := Nat.lt_of_lt_of_le hl (lineCount_le_append h more)
  rw [Bool.eq_false_iff]
  intro hencloses
  have hcov := (encloses_iff_covers hl' hline
    (filled_ofText_iff.mpr (List.mem_of_getElem? hi))).mp hencloses
  have := hcov.le
  omega

/-- The blocks around a line of the old text are the same as before, but for growth. -/
theorem blocksAt_append (tabs : Tabs) (h : WholeLines text) (more : List Char)
    (hl : l < Offside.lineCount text) :
    List.Forall₂ Node.GrowsTo ((ofText tabs text).blocksAt l)
      ((ofText tabs (text ++ more)).blocksAt l) := by
  refine forall₂_filter (fun p node hnode => ?_) fun p later hp hlater => ?_
  · rw [Array.getElem?_toList] at hnode
    obtain ⟨later, hlater, hgrows⟩ := exists_growsTo tabs h more hnode
    exact ⟨later, Array.getElem?_toList.trans hlater, hgrows, encloses_eq h hl hnode hlater⟩
  · rw [Array.getElem?_toList] at hlater
    rw [Array.length_toList] at hp
    exact encloses_of_new h hl hp hlater

theorem enclosing_append (tabs : Tabs) (h : WholeLines text) (more : List Char)
    (hl : l < Offside.lineCount text) : ∃ path path' : List Node,
      (ofText tabs text).enclosing l = .ok path ∧
      (ofText tabs (text ++ more)).enclosing l = .ok path' ∧ path ≠ [] ∧
      List.Forall₂ Node.GrowsTo path path' := by
  have hl' := Nat.lt_of_lt_of_le hl (lineCount_le_append h more)
  have hroot := (lists_ofText tabs text).root
  obtain ⟨root', hroot', hgrows⟩ := exists_growsTo tabs h more hroot
  rw [← lineCount_ofText tabs] at hl hl'
  refine ⟨_, _, (sound_ofText tabs _).enclosing_eq hroot hl,
    (sound_ofText tabs _).enclosing_eq hroot' hl', ?_, ?_⟩
  · exact List.reverse_ne_nil_iff.mpr (List.cons_ne_nil _ _)
  · rw [lineCount_ofText] at hl
    exact List.forall₂_reverse_iff.mpr (.cons hgrows (blocksAt_append tabs h more hl))

/-- More lines at the end change no answer about the lines before. The blocks around such a line
have the same ids and make the same sentence. Every node stands where it did and is the same but for
growth: its children are the first of those it has then, and it ends at the same line or later. It
ends at the same line if one of the old lines behind its own is not blank and not deeper. -/
theorem ofText_append (tabs : Tabs) (text more : List Char) (h : WholeLines text) :
    let outline := ofText tabs text
    let later := ofText tabs (text ++ more)
    (∀ l < Offside.lineCount text,
      (∃ path path' : List Node, outline.enclosing l = .ok path ∧ later.enclosing l = .ok path' ∧
        path.map Node.id = path'.map Node.id) ∧
      ∃ sentence, outline.contextSentence l = .ok sentence ∧
        later.contextSentence l = .ok sentence) ∧
    ∀ (p : Nat) (node : Node), outline.nodes[p]? = some node →
      ∃ node' : Node, later.nodes[p]? = some node' ∧ node.GrowsTo node' ∧
        ∀ i k, node.startLine = some i → i < k → k < Offside.lineCount text →
          allBlank (textLine text k) = false →
            level tabs (textLine text k) ≤ level tabs (textLine text i) →
              node.lines = node'.lines := by
  intro outline later
  refine ⟨fun l hl => ?_, fun p node hnode => ?_⟩
  · obtain ⟨path, path', hpath, hpath', hne, hgrows⟩ := enclosing_append tabs h more hl
    refine ⟨⟨path, path', hpath, hpath', map_eq_of_growsTo Node.GrowsTo.id hgrows⟩, ?_⟩
    obtain ⟨sentence, hsentence⟩ := exists_contextSentence hne l
    refine ⟨sentence, (contextSentence_eq hpath).trans hsentence, ?_⟩
    rw [contextSentence_eq hpath', ← contextSentence_eq_of_growsTo hgrows, hsentence]
  · obtain ⟨node', hnode', hgrows⟩ := exists_growsTo tabs h more hnode
    refine ⟨node', hnode', hgrows, fun i k hstart hik hk hfilled hlevel => ?_⟩
    exact lines_eq_of_ended h hnode hnode' hstart hik hk hfilled hlevel

/-- A block that has ended, in a text at whose end another one is open. -/
theorem ofText_append_open_block :
    let text := "if a:\n  b\ntry:\n".toList
    let node : Node :=
      ⟨1, .block, some ⟨.block .ifBranch, some "a", 0, 0⟩, [2], some 0, 1, ⟨0, 2⟩⟩
    (ofText ⟨2, false⟩ text).nodes[1]? = some node ∧
      (∃ node' : Node, (ofText ⟨2, false⟩ (text ++ "  c\n".toList)).nodes[1]? = some node' ∧
        node.GrowsTo node' ∧ node.lines = node'.lines) ∧
      ∃ sentence, (ofText ⟨2, false⟩ text).contextSentence 2 = .ok sentence ∧
        (ofText ⟨2, false⟩ (text ++ "  c\n".toList)).contextSentence 2 = .ok sentence := by
  intro text node
  obtain ⟨hanswers, hnodes⟩ :=
    ofText_append ⟨2, false⟩ text "  c\n".toList (.inr (by decide))
  have hnode : (ofText ⟨2, false⟩ text).nodes[1]? = some node := by decide +kernel
  obtain ⟨node', hnode', hgrows, hended⟩ := hnodes 1 node hnode
  refine ⟨hnode, ⟨node', hnode', hgrows, ?_⟩, (hanswers 2 (by decide)).2⟩
  exact hended 0 2 rfl (by decide) (by decide) (by decide) (by decide +kernel)

end Outline

end Documents

end Offside
