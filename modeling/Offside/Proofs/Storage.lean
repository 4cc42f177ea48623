import Offside.Format
import Offside.Proofs.JsonText

/-!
# Stored outlines and tokens

An outline that is written as JSON and read again is the same outline, and so is a list of tokens
(`format_json_readsBack`). Nothing is asked of the references between nodes, of ranges, or of the
texts of tokens. The numbers have to fit into 64 binary digits (`Outline.Storable`), because the
reader takes no others.

For each type there is one law, that its reader undoes its writer, and one remark, that its JSON
value holds whole numbers only, so that the value itself is read back from its text.
-/

namespace Offside

/-! ## Numbers of a word -/

/-- Every number in the token has at most 64 binary digits. -/
structure Token.Storable (token : Token) : Prop where
  line_le : token.line ≤ maxUnsigned
  column_le : token.column ≤ maxUnsigned

structure LineRange.Storable (range : LineRange) : Prop where
  start_le : range.start ≤ maxUnsigned
  stop_le : range.stop ≤ maxUnsigned

structure Node.Storable (node : Node) : Prop where
  id_le : node.id ≤ maxUnsigned
  token : ∀ token ∈ node.token, token.Storable
  children_le : ∀ child ∈ node.children, child ≤ maxUnsigned
  parent_le : ∀ parent ∈ node.parent, parent ≤ maxUnsigned
  depth_le : node.depth ≤ maxUnsigned
  lines : node.lines.Storable

structure Outline.Storable (outline : Outline) : Prop where
  nodes : ∀ node ∈ outline.nodes, node.Storable
  lineCount_le : outline.lineCount ≤ maxUnsigned

namespace Json

theorem unsigned?_nat {n : Nat} (h : n ≤ maxUnsigned) : unsigned? (nat n) = some n := by
  have hn : (0 : Int) ≤ n ∧ (n : Int) ≤ maxUnsigned := by omega
  rw [nat, unsigned?, if_pos hn]
  rfl

theorem nullable?_of_ne_null {α : Type} {read : Json → Option α} {value : Json}
    (h : value ≠ null) : nullable? read value = (read value).map some := by
  cases value <;> first | rfl | exact absurd rfl h

theorem list?_arr {α : Type} {write : α → Json} {read : Json → Option α} {xs : List α}
    (h : ∀ x ∈ xs, read (write x) = some x) : list? read (.arr (xs.map write)) = some xs := by
  rw [list?]
  induction xs with
  | nil => rfl
  | cons x xs ih =>
    obtain ⟨hx, hxs⟩ := List.forall_mem_cons.mp h
    simp [List.mapM_cons, hx, ih hxs]

end Json

theorem Symbol.ofJson?_toJson (symbol : Symbol) : Symbol.ofJson? symbol.toJson = some symbol :=
  Symbol.ofCode?_code symbol

theorem NodeLabel.ofJson?_toJson (label : NodeLabel) :
    NodeLabel.ofJson? label.toJson = some label := NodeLabel.ofName?_name label

theorem Token.ofJson?_toJson {token : Token} (h : token.Storable) :
    Token.ofJson? token.toJson = some token := by
  obtain ⟨symbol, attr, line, column⟩ := token
  cases attr <;>
    simp [Token.toJson, Token.ofJson?, Json.optional, Json.required?, Json.missing?, Json.member?,
      Json.nullable?, Json.str?, List.lookup_cons, Symbol.ofJson?_toJson,
      Json.unsigned?_nat h.line_le, Json.unsigned?_nat h.column_le]

theorem LineRange.ofJson?_toJson {range : LineRange} (h : range.Storable) :
    LineRange.ofJson? range.toJson = some range := by
  simp [LineRange.toJson, LineRange.ofJson?, Json.closed?, Json.required?, Json.member?,
    List.lookup_cons, Json.unsigned?_nat h.start_le, Json.unsigned?_nat h.stop_le]

theorem Node.ofJson?_toJson {node : Node} (h : node.Storable) :
    Node.ofJson? node.toJson = some node := by
  obtain ⟨id, label, token, children, parent, depth, lines⟩ := node
  have hchildren : Json.list? Json.unsigned? (.arr (children.map .nat)) = some children :=
    Json.list?_arr fun child hchild => Json.unsigned?_nat (h.children_le child hchild)
  have hlines : LineRange.ofJson? lines.toJson = some lines := LineRange.ofJson?_toJson h.lines
  have htoken (t : Token) (ht : token = some t) :
      Json.nullable? Token.ofJson? t.toJson = some (some t) := by
    have hne : t.toJson ≠ .null := nofun
    rw [Json.nullable?_of_ne_null hne, Token.ofJson?_toJson (h.token t ht)]
    rfl
  have hparent (p : Nat) (hp : parent = some p) :
      Json.nullable? Json.unsigned? (.nat p) = some (some p) := by
    have hne : Json.nat p ≠ .null := nofun
    rw [Json.nullable?_of_ne_null hne, Json.unsigned?_nat (h.parent_le p hp)]
    rfl
  cases token <;> cases parent <;>
    simp [Node.toJson, Node.ofJson?, Json.optional, Json.required?, Json.missing?, Json.member?,
      List.lookup_cons, NodeLabel.ofJson?_toJson, Json.unsigned?_nat h.id_le,
      Json.unsigned?_nat h.depth_le, hchildren, hlines, htoken, hparent]

theorem Outline.ofJson?_toJson {outline : Outline} (h : outline.Storable) :
    Outline.ofJson? outline.toJson = some outline := by
  have hnodes : Json.list? Node.ofJson? (.arr (outline.nodes.toList.map Node.toJson)) =
      some outline.nodes.toList :=
    Json.list?_arr fun node hnode => Node.ofJson?_toJson (h.nodes node (by simpa using hnode))
  simp [Outline.toJson, Outline.ofJson?, Json.required?, Json.member?, List.lookup_cons, hnodes,
    Json.unsigned?_nat h.lineCount_le]

/-! ## Whole numbers -/

namespace Json

theorem forall_mem_optional {key : String} {value : Option Json} {p : Json → Prop} :
    (∀ member ∈ optional key value, p member.2) ↔ ∀ v ∈ value, p v := by
  cases value <;> simp [optional]

theorem Whole.nat (n : Nat) : Whole (.nat n) := .int n

end Json

theorem Token.whole_toJson (token : Token) : token.toJson.Whole := by
  refine .obj ?_
  simp only [List.forall_mem_append, List.forall_mem_cons, Json.forall_mem_optional]
  refine ⟨⟨⟨.str _, nofun⟩, ?_⟩, .nat _, .nat _, nofun⟩
  rintro _ hattr
  obtain ⟨attr, _, rfl⟩ := Option.map_eq_some_iff.mp hattr
  exact .str attr

theorem LineRange.whole_toJson (range : LineRange) : range.toJson.Whole := by
  refine .obj ?_
  simp only [List.forall_mem_cons]
  exact ⟨.nat _, .nat _, nofun⟩

theorem Node.whole_toJson (node : Node) : node.toJson.Whole := by
  refine .obj ?_
  simp only [List.forall_mem_append, List.forall_mem_cons, Json.forall_mem_optional]
  refine ⟨⟨⟨⟨⟨.nat _, .str _, nofun⟩, ?_⟩, .arr ?_, nofun⟩, ?_⟩, .nat _, node.lines.whole_toJson,
    nofun⟩
  · rintro _ htoken
    obtain ⟨token, _, rfl⟩ := Option.map_eq_some_iff.mp htoken
    exact token.whole_toJson
  · exact List.forall_mem_map.mpr fun child _ => .nat child
  · rintro _ hparent
    obtain ⟨parent, _, rfl⟩ := Option.map_eq_some_iff.mp hparent
    exact .nat parent

theorem Outline.whole_toJson (outline : Outline) : outline.toJson.Whole := by
  refine .obj ?_
  simp only [List.forall_mem_cons]
  exact ⟨.arr (List.forall_mem_map.mpr fun node _ => node.whole_toJson), .nat _, nofun⟩

/-! ## Stored outlines and tokens -/

/-- Outlines and lists of tokens are read back from the JSON text in which they are stored, whatever
their references, ranges and texts are. -/
theorem format_json_readsBack {outline : Outline} {tokens : List Token}
    (houtline : outline.Storable) (htokens : ∀ token ∈ tokens, token.Storable) :
    (∃ text, outline.format .json = .ok text ∧ Outline.ofJsonText? text = some outline) ∧
      tokensOfJsonText? (formatTokens tokens .json) = some tokens := by
  constructor
  · refine ⟨outline.toJson.render, rfl, ?_⟩
    rw [Outline.ofJsonText?, Json.read?_render outline.whole_toJson]
    exact Outline.ofJson?_toJson houtline
  · have hwhole : (Json.arr (tokens.map Token.toJson)).Whole :=
      .arr (List.forall_mem_map.mpr fun token _ => token.whole_toJson)
    rw [formatTokens, tokensOfJsonText?, Json.read?_render hwhole]
    exact Json.list?_arr fun token htoken => Token.ofJson?_toJson (htokens token htoken)

/-- A token whose text needs every kind of escape, at the last line that there can be. -/
def strayToken : Token := ⟨.eof, some "\"\\\n\t\x00\x1f/é😀", maxUnsigned, 0⟩

/-- An outline that is no tree: no node has its own place for its id, a parent is missing, a child
occurs twice, and a range ends before it starts. -/
def strayOutline : Outline :=
  ⟨#[⟨7, .statement, some strayToken, [1, 1], some 5, 3, ⟨4, 2⟩⟩,
    ⟨0, .root, none, [], none, 0, ⟨0, 0⟩⟩], maxUnsigned⟩

theorem storable_strayToken : strayToken.Storable := ⟨Nat.le_refl _, Nat.zero_le _⟩

theorem storable_strayOutline : strayOutline.Storable where
  nodes := by
    intro node hnode
    obtain rfl | rfl : node = _ ∨ node = _ := by simpa [strayOutline] using hnode
    · refine ⟨by decide, ?_, by decide, ?_, by decide, ⟨by decide, by decide⟩⟩
      · rintro _ ⟨⟩
        exact storable_strayToken
      · rintro _ ⟨⟩
        decide
    · exact ⟨by decide, nofun, nofun, nofun, by decide, ⟨by decide, by decide⟩⟩
  lineCount_le := Nat.le_refl _

/-- Escapes, numbers at the bound, and references that make no sense are all kept. -/
theorem format_json_readsBack_stray :
    strayOutline.Storable ∧ strayToken.Storable ∧
      (∃ text, strayOutline.format .json = .ok text ∧
        Outline.ofJsonText? text = some strayOutline) ∧
      tokensOfJsonText? (formatTokens [strayToken] .json) = some [strayToken] :=
  ⟨storable_strayOutline, storable_strayToken,
    format_json_readsBack storable_strayOutline
      (List.forall_mem_singleton.mpr storable_strayToken)⟩

end Offside
