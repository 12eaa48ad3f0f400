import TypeExport.Json.Writer
import TypeExport.Proofs.Json.Texts

/-!
# Documents read back as they were written

`Value.node` is the tree of data that a written document stands for, and `Value.tree` the syntax of its text.

* `Json.Value.spells_chars`: what is written is a text.
* `Json.Value.node_tree`: what is read from it is the document, if its integers have 64 bits and it is not nested
  too deeply.
* `Json.decode_compact`: so decoding a document's text is decoding its tree of data.
-/

namespace TypeExport.Json

open Data

/-! ## The tree of a document -/

namespace Value

mutual

/-- The tree that a document stands for. -/
def node : Value → Node
  | .bool b => .bool b
  | .int i => integer i
  | .text s => .text s
  | .array items => .seq (nodes items)
  | .object entries => .map (entryNodes entries)

def nodes : List Value → List Node
  | [] => []
  | v :: vs => v.node :: nodes vs

def entryNodes : List (String × Value) → List MapEntry
  | [] => []
  | (k, v) :: es => (.ok k, v.node) :: entryNodes es

end

mutual

/-- The number of arrays and objects around the innermost part of a document. -/
def depth : Value → Nat
  | .array items => itemDepth items + 1
  | .object entries => entryDepth entries + 1
  | _ => 0

def itemDepth : List Value → Nat
  | [] => 0
  | v :: vs => max v.depth (itemDepth vs)

def entryDepth : List (String × Value) → Nat
  | [] => 0
  | (_, v) :: es => max v.depth (entryDepth es)

end

theorem depth_array_le_iff {vs : List Value} {n : Nat} :
    (array vs).depth ≤ n + 1 ↔ ∀ v ∈ vs, v.depth ≤ n := by
  rw [depth, Nat.succ_le_succ_iff]
  induction vs with
  | nil => simp [itemDepth]
  | cons v vs ih => rw [itemDepth, Nat.max_le, ih, List.forall_mem_cons]

theorem depth_object_le_iff {es : List (String × Value)} {n : Nat} :
    (object es).depth ≤ n + 1 ↔ ∀ e ∈ es, e.2.depth ≤ n := by
  rw [depth, Nat.succ_le_succ_iff]
  induction es with
  | nil => simp [entryDepth]
  | cons e es ih => rw [entryDepth, Nat.max_le, ih, List.forall_mem_cons]

/-- All integers of a document have a representation in 64 bits. -/
inductive Storable : Value → Prop
  | bool (b : Bool) : Storable (.bool b)
  | int {i : Int} (h : isInt64 i = true) : Storable (.int i)
  | text (s : String) : Storable (.text s)
  | array {items : List Value} (h : ∀ v ∈ items, Storable v) : Storable (.array items)
  | object {entries : List (String × Value)} (h : ∀ e ∈ entries, Storable e.2) :
    Storable (.object entries)

@[simp] theorem nodes_eq_map (vs : List Value) : nodes vs = vs.map node := by
  induction vs with
  | nil => rfl
  | cons v vs ih => rw [nodes, ih, List.map_cons]

@[simp] theorem entryNodes_eq_map (es : List (String × Value)) :
    entryNodes es = es.map fun e => (.ok e.1, e.2.node) := by
  induction es with
  | nil => rfl
  | cons e es ih => rw [entryNodes, ih, List.map_cons]

theorem entryNodes_append (es fs : List (String × Value)) :
    entryNodes (es ++ fs) = entryNodes es ++ entryNodes fs := by
  simp only [entryNodes_eq_map, List.map_append]

mutual

/-- The tree of a document has no faults. -/
theorem read_node : ∀ v : Value, v.node.read = .ok ()
  | .bool _ | .text _ => rfl
  | .int i => by
    rw [node, integer]
    split <;> rfl
  | .array items => read_nodes items
  | .object entries => read_entryNodes entries

theorem read_nodes : ∀ vs : List Value, Node.readItems (nodes vs) = .ok ()
  | [] => rfl
  | v :: vs => by rw [nodes, Node.readItems, read_node v, Except.ok_bind, read_nodes vs]

theorem read_entryNodes : ∀ es : List (String × Value), Node.readEntries (entryNodes es) = .ok ()
  | [] => rfl
  | (_, v) :: es => by
    rw [entryNodes, Node.readEntries, read_node v, Except.ok_bind, read_entryNodes es]

end

end Value

/-! ## The syntax of a document -/

@[simp] theorem container_of_lt {depth : Nat} {n : Node} (h : depth < maxNesting) :
    container depth n = n :=
  if_pos h

theorem string_escaped (s : String) : string (s.toList.flatMap escaped ++ ['"']) = (.text s, some []) := by
  simp [string, stringValue_escaped]

/-- An escaped key is the key. -/
theorem keyValue_escaped (k : String) : keyValue (k.toList.flatMap escaped) = .ok k := by
  rw [keyValue, stringValue_escaped]
  simp [Except.map]

/-- An escaped character may stand in a string. -/
theorem isStringBody_escaped_append (c : Char) {cs : List Char} (h : IsStringBody cs) :
    IsStringBody (escaped c ++ cs) := by
  unfold escaped
  split
  case h_8 hmark hslash _ _ _ _ _ =>
    split
    · next hlt => exact .code (by rw [hexValue?_control hlt]; rfl) h
    · next hge => exact .char hmark hslash (by omega) h
  all_goals exact .escape (by decide) h

theorem isStringBody_escaped (s : List Char) : IsStringBody (s.flatMap escaped) := by
  induction s with
  | nil => exact .empty
  | cons c s ih =>
    rw [List.flatMap_cons]
    exact isStringBody_escaped_append c ih

theorem isUnsigned_toDigits (n : Nat) : IsUnsigned (Nat.toDigits 10 n) := by
  simpa using IsUnsigned.parts (isWhole_toDigits n) .absent .absent

theorem isNumber_toString (i : Int) : IsNumber (toString i).toList := by
  cases i with
  | ofNat n =>
    rw [toString_ofNat]
    exact .positive (isUnsigned_toDigits n)
  | negSucc n =>
    rw [toString_negSucc]
    exact .negative (isUnsigned_toDigits (n + 1))

namespace Value

mutual

/-- The syntax of a document's text. -/
def tree : Value → Tree
  | bool b => .bool b
  | int i => .number (toString i).toList
  | text s => .string (s.toList.flatMap escaped)
  | array items => .array (trees items)
  | object entries => .object (memberTrees entries)

def trees : List Value → List Tree
  | [] => []
  | v :: vs => v.tree :: trees vs

def memberTrees : List (String × Value) → List (List Char × Tree)
  | [] => []
  | (k, v) :: es => (k.toList.flatMap escaped, v.tree) :: memberTrees es

end

@[simp] theorem trees_eq_map (vs : List Value) : trees vs = vs.map tree := by
  induction vs with
  | nil => rfl
  | cons v vs ih => rw [trees, ih, List.map_cons]

@[simp] theorem memberTrees_eq_map (es : List (String × Value)) :
    memberTrees es = es.map fun e => (e.1.toList.flatMap escaped, e.2.tree) := by
  induction es with
  | nil => rfl
  | cons e es ih => rw [memberTrees, ih, List.map_cons]

theorem itemChars_eq_intercalate (vs : List Value) : itemChars vs = [','].intercalate (vs.map chars) := by
  induction vs with
  | nil => rfl
  | cons v vs ih => cases vs <;> simp_all [itemChars]

theorem entryChars_eq_intercalate (es : List (String × Value)) :
    entryChars es = [','].intercalate (es.map fun e => quote e.1 ++ ':' :: e.2.chars) := by
  induction es with
  | nil => rfl
  | cons e es ih => cases es <;> simp_all [entryChars]

theorem spells_array {vs : List Value} (h : ∀ v ∈ vs, v.tree.Spells v.chars) :
    (array vs).tree.Spells (array vs).chars := by
  have hitems : ∀ i ∈ vs.map fun v => (v.tree, v.chars), Tree.Spells i.1 i.2 := List.forall_mem_map.mpr h
  simpa [tree, chars, itemChars_eq_intercalate, Function.comp_def] using Tree.Spells.array hitems

theorem spells_object {es : List (String × Value)} (h : ∀ e ∈ es, e.2.tree.Spells e.2.chars) :
    (object es).tree.Spells (object es).chars := by
  let members : List Tree.MemberText :=
    es.map fun e => ⟨e.1.toList.flatMap escaped, e.2.tree, quote e.1, e.2.chars⟩
  have hkeys : ∀ m ∈ members, Tree.SpellsKey m.raw m.keyText := List.forall_mem_map.mpr fun e _ =>
    @Tree.SpellsKey.padded _ [] [] (by simp) (isStringBody_escaped e.1.toList) (by simp)
  have hvalues : ∀ m ∈ members, Tree.Spells m.value m.valueText := List.forall_mem_map.mpr h
  simpa [members, tree, chars, entryChars_eq_intercalate, Function.comp_def, Tree.MemberText.text] using
    Tree.Spells.object hkeys hvalues

mutual

/-- What is written for a document is a text. -/
theorem spells_chars : ∀ v : Value, v.tree.Spells v.chars
  | bool true => .yes
  | bool false => .no
  | int i => .number (isNumber_toString i)
  | text s => .string (isStringBody_escaped s.toList)
  | array items => spells_array (spells_of_mem items)
  | object entries => spells_object (spells_of_mem_entries entries)

theorem spells_of_mem : ∀ vs : List Value, ∀ v ∈ vs, v.tree.Spells v.chars
  | [] => by simp
  | v :: vs => List.forall_mem_cons.mpr ⟨spells_chars v, spells_of_mem vs⟩

theorem spells_of_mem_entries : ∀ es : List (String × Value), ∀ e ∈ es, e.2.tree.Spells e.2.chars
  | [] => by simp
  | (_, v) :: es => List.forall_mem_cons.mpr ⟨spells_chars v, spells_of_mem_entries es⟩

end

/-- The syntax of a document stands for the document. -/
theorem node_tree {v : Value} (h : v.Storable) (level : Nat) (hdepth : level + v.depth ≤ maxNesting) :
    v.tree.node level = v.node := by
  induction h generalizing level with
  | bool b => rfl
  | @int i hi =>
    have hnumber := number_toString hi numberEnds_nil
    rw [List.append_nil] at hnumber
    rw [tree, Tree.node, hnumber, node]
  | text s => rw [tree, Tree.node, string_escaped, node]
  | @array items hitems ih =>
    have hlt : level < maxNesting := by rw [depth] at hdepth; omega
    have hitem := depth_array_le_iff.mp (show (array items).depth ≤ maxNesting - level - 1 + 1 by omega)
    rw [tree, Tree.node, container_of_lt hlt, node, Tree.nodes_eq_map, nodes_eq_map, trees_eq_map, List.map_map]
    exact congrArg _ (List.map_congr_left fun v hv => ih v hv _ (by have := hitem v hv; omega))
  | @object entries hentries ih =>
    have hlt : level < maxNesting := by rw [depth] at hdepth; omega
    have hentry := depth_object_le_iff.mp (show (object entries).depth ≤ maxNesting - level - 1 + 1 by omega)
    rw [tree, Tree.node, container_of_lt hlt, node, Tree.memberNodes_eq_map, entryNodes_eq_map,
      memberTrees_eq_map, List.map_map]
    refine congrArg _ (List.map_congr_left fun e he => ?_)
    rw [Function.comp_apply, keyValue_escaped, ih e he _ (by have := hentry e he; omega)]

/-- The text of a document has its syntax. -/
theorem spells_compact (v : Value) : v.tree.Spells v.compact.toList := by
  rw [compact, String.toList_ofList]
  exact v.spells_chars

end Value

/-- Decoding the text of a document is decoding its tree of data. -/
theorem decode_compact {α : Type} (decoder : Node → Decoded α) {v : Value} (h : v.Storable)
    (hdepth : v.depth ≤ maxNesting) : decode decoder v.compact = decoder v.node := by
  rw [v.spells_compact.decode_eq, Value.node_tree h 0 (by omega)]

end TypeExport.Json
