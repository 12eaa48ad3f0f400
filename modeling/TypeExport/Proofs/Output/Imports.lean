import Mathlib.Data.List.Basic
import TypeExport.Output.Module
import TypeExport.Proofs.Lists
import TypeExport.Proofs.TypeExpr.WellFormed

/-!
# Imports of an interface

The text of a TypeScript type is put together from pieces, some of which are names of declared types.
An interface imports exactly the names in its body.

* `Output.pieces`: the pieces of a type's text, each with what it stands for.
* `Output.join_pieces`: put together, they are the text.
* `Output.declared_pieces`: the declared types among them are the references of the type.
* `Output.mem_references_iff`: these are the declared types outside custom generic types.
* `Output.imports_match_body`: the import block of an interface, and its body.
-/

namespace TypeExport.Output

/-! ## Pieces of a type's text -/

/-- A piece of a type's text. -/
inductive Piece where
  /-- The alias of a primitive. -/
  | alias (p : Primitive)
  /-- A declared type, by the name in the type expression. -/
  | declared (name : String)
  /-- A generic type that is written as its own name only. -/
  | definition (name : String)
  | mark (text : String)

namespace Piece

def text : Piece → String
  | .alias p => p.typescript
  | .declared n | .definition n => Text.simpleName n
  | .mark s => s

/-- The simple name of a declared type. -/
def declared? : Piece → Option String
  | .declared n => some (Text.simpleName n)
  | _ => none

end Piece

/-- The pieces of an array type. -/
def arrayPieces (element : List Piece) : List Piece :=
  if element.any fun p => Text.hasChar '|' p.text then
    .mark "(" :: element ++ [.mark ")[]"]
  else element ++ [.mark "[]"]

/-- The pieces of a type's text, in their order. -/
def pieces : TypeExpr → List Piece
  | .primitive p => [.alias p]
  | .named n => [.declared n]
  | .array e => arrayPieces (pieces e)
  | .generic .dictionary [k, v] =>
    .mark "\x7b [key: " :: pieces k ++ .mark "]: " :: pieces v ++ [.mark " \x7d"]
  | .generic .nullable [t] =>
    if (TypeExpr.generic .nullable [t]).nullableValue?.isSome then pieces t ++ [.mark "|null"]
    else pieces t
  | .generic .enumerable [e] => arrayPieces (pieces e)
  | .generic .collection [e] => arrayPieces (pieces e)
  | .generic .task [t] => pieces t
  | .generic w _ => [.definition w.name]

/-- The text that pieces make. -/
def piecesText (ps : List Piece) : String := String.join (ps.map Piece.text)

theorem piecesText_append (ps qs : List Piece) :
    piecesText (ps ++ qs) = piecesText ps ++ piecesText qs := by
  simp [piecesText]

theorem piecesText_cons (p : Piece) (ps : List Piece) :
    piecesText (p :: ps) = p.text ++ piecesText ps := by
  simp [piecesText]

theorem piecesText_nil : piecesText [] = "" := rfl

/-- A character occurs in the text exactly if it occurs in a piece. -/
theorem hasChar_piecesText (c : Char) (ps : List Piece) :
    Text.hasChar c (piecesText ps) = ps.any fun p => Text.hasChar c p.text := by
  induction ps with
  | nil => simp [piecesText_nil, Text.hasChar]
  | cons p ps ih =>
    rw [List.any_cons, ← ih, piecesText_cons]
    simp [Text.hasChar]

theorem piecesText_arrayPieces (ps : List Piece) :
    piecesText (arrayPieces ps) = arrayOf (piecesText ps) := by
  unfold arrayPieces arrayOf
  rw [hasChar_piecesText]
  split
  · rw [List.cons_append, piecesText_cons, piecesText_append]
    simp [piecesText, Piece.text, String.append_assoc]
  · rw [piecesText_append]
    simp [piecesText, Piece.text]

/-- The pieces of a type make its text. -/
theorem join_pieces (t : TypeExpr) : piecesText (pieces t) = typeText t := by
  fun_induction pieces t with
  | case1 p => simp [piecesText, Piece.text, typeText]
  | case2 n => simp [piecesText, Piece.text, typeText]
  | case3 e ih => rw [piecesText_arrayPieces, ih, typeText]
  | case4 k v ihk ihv =>
    simp only [List.cons_append, piecesText_cons, piecesText_append, ihk, ihv, piecesText_nil,
      Piece.text, typeText, mapOf, String.append_assoc, String.append_empty]
  | case5 t h ih =>
    simp only [piecesText_append, ih, piecesText_cons, piecesText_nil, Piece.text, typeText, h,
      String.append_empty, ↓reduceIte]
  | case6 t h ih => simp only [ih, typeText, h, Bool.false_eq_true, ↓reduceIte]
  | case7 e ih => rw [piecesText_arrayPieces, ih, typeText]
  | case8 e ih => rw [piecesText_arrayPieces, ih, typeText]
  | case9 t ih => rw [ih, typeText]
  | case10 w args hdict hnull henum hcoll htask =>
    rw [typeText]
    · simp [piecesText, Piece.text]
    all_goals assumption

/-! ## Declared types among the pieces -/

theorem declared_arrayPieces (ps : List Piece) :
    (arrayPieces ps).filterMap Piece.declared? = ps.filterMap Piece.declared? := by
  unfold arrayPieces
  split
  · rw [List.cons_append, List.filterMap_cons_none rfl, List.filterMap_append]
    simp [Piece.declared?]
  · simp [Piece.declared?]

/-- The declared types among the pieces are the references, in their order. -/
theorem declared_pieces {t : TypeExpr} (h : t.HasArity) :
    (pieces t).filterMap Piece.declared? = references t := by
  induction h with
  | primitive p => rfl
  | named n => rfl
  | array _ ih => rw [pieces, declared_arrayPieces, ih, references]
  | @generic w args harity _ ih =>
    cases w with
    | custom n => rw [pieces, references] <;> simp [Piece.declared?]
    | task =>
      obtain ⟨t, rfl⟩ := List.length_eq_one_iff.mp (harity 1 rfl)
      simp only [pieces, references, referencesList, List.append_nil, ih t (by simp)]
    | nullable =>
      obtain ⟨t, rfl⟩ := List.length_eq_one_iff.mp (harity 1 rfl)
      simp only [pieces, references, referencesList, List.append_nil, ← ih t (by simp)]
      split <;> simp [Piece.declared?]
    | enumerable | collection =>
      obtain ⟨t, rfl⟩ := List.length_eq_one_iff.mp (harity 1 rfl)
      simp only [pieces, references, referencesList, List.append_nil, declared_arrayPieces,
        ih t (by simp)]
    | dictionary =>
      obtain ⟨k, v, rfl⟩ := List.length_eq_two.mp (harity 2 rfl)
      simp only [pieces, references, referencesList, List.append_nil, ← ih k (by simp),
        ← ih v (by simp)]
      simp [List.filterMap_cons, Piece.declared?]

/-- `t` has a declared type of the simple name `n` outside custom generic types. -/
inductive Shows (n : String) : TypeExpr → Prop where
  | named {q : String} (name : Text.simpleName q = n) : Shows n (.named q)
  | array {e : TypeExpr} (element : Shows n e) : Shows n (.array e)
  | generic {w : Wrapper} {args : List TypeExpr} {t : TypeExpr} (known : ∀ m, w ≠ .custom m)
    (member : t ∈ args) (argument : Shows n t) : Shows n (.generic w args)

mutual

/-- References are the declared types outside custom generic types. -/
theorem mem_references_iff {n : String} : (t : TypeExpr) → (n ∈ references t ↔ Shows n t)
  | .primitive p => by
    simp only [references, List.not_mem_nil, false_iff]
    rintro ⟨⟩
  | .named q => by
    simp only [references, List.mem_singleton]
    exact ⟨fun h => .named h.symm, fun | .named h => h.symm⟩
  | .array e => by
    rw [references, mem_references_iff e]
    exact ⟨.array, fun | .array h => h⟩
  | .generic w args => by
    cases w with
    | custom m =>
      simp only [references, List.not_mem_nil, false_iff]
      rintro (_ | _ | ⟨known, -, -⟩)
      exact known m rfl
    | task | enumerable | collection | nullable | dictionary =>
      simp only [references, mem_referencesList_iff args]
      exact ⟨fun ⟨t, ht, h⟩ => .generic (by simp) ht h, fun | .generic _ ht h => ⟨_, ht, h⟩⟩

theorem mem_referencesList_iff {n : String} :
    (ts : List TypeExpr) → (n ∈ referencesList ts ↔ ∃ t ∈ ts, Shows n t)
  | [] => by simp [referencesList]
  | t :: ts => by
    rw [referencesList, List.mem_append, mem_references_iff t, mem_referencesList_iff ts]
    simp

end

/-! ## Imports -/

/-- The declared types in the body of an interface, in their order. -/
def bodyNames (d : Declaration) : List String :=
  d.readable.flatMap fun p => (pieces p.type).filterMap Piece.declared?

/-- Imports are the first occurrences of other names than the declaration's own. -/
theorem importNames_eq (d : Declaration) :
    importNames d = ((d.readable.flatMap fun p => references p.type).filter
      fun n => ¬ n = d.name).eraseDups := by
  have h := List.foldl_keepNew (· = d.name) id (d.readable.flatMap fun p => references p.type)
  rw [List.map_id] at h
  exact h

theorem bodyNames_eq {d : Declaration} (h : ∀ p ∈ d.readable, p.type.HasArity) :
    bodyNames d = d.readable.flatMap fun p => references p.type :=
  List.flatMap_congr fun p hp => declared_pieces (h p hp)

theorem mem_bodyNames_iff {d : Declaration} {n : String}
    (h : ∀ p ∈ d.readable, p.type.HasArity) :
    n ∈ bodyNames d ↔ ∃ p ∈ d.properties, p.visibility = .exposed ∧ Shows n p.type := by
  rw [bodyNames_eq h, List.mem_flatMap]
  simp only [Declaration.readable, List.mem_filter, Property.isReadable, beq_iff_eq,
    mem_references_iff, and_assoc]

theorem ownLines_of_not_enumeration {d : Declaration} (h : d.isEnumeration = false) :
    ownLines d = importBlock d ++ ["export interface " ++ d.name ++ " \x7b"] ++
      d.readable.map propertyLine ++ ["\x7d"] := by
  unfold ownLines
  cases hs : d.shape with
  | enumeration ms =>
    rw [Declaration.isEnumeration, hs] at h
    cases h
  | classType a ps => rfl
  | interfaceType ps => rfl

theorem importBlock_eq (d : Declaration) :
    importBlock d = (importNames d).map importLine ++ if importNames d = [] then [] else [""] := by
  unfold importBlock
  split <;> simp_all

/-- What makes a list of names the right imports of an interface. -/
structure ImportsMatch (d : Declaration) (imports : List String) : Prop where
  /-- The lines are the imports, a blank line if there are any, and a body with one line for each
  readable property, whose type is put together from pieces. -/
  lines : ownLines d =
    imports.map importLine ++ (if imports = [] then [] else [""]) ++
      ["export interface " ++ d.name ++ " \x7b"] ++
      d.readable.map (fun p => "  " ++ p.tsName ++ ": " ++ piecesText (pieces p.type) ++ ";") ++
      ["\x7d"]
  /-- The pieces of a property's type are its text, and the declared types among them its
  references. -/
  typeText : ∀ p ∈ d.readable, piecesText (pieces p.type) = typeText p.type ∧
    (pieces p.type).filterMap Piece.declared? = references p.type
  /-- The imports are the declared types in the body, apart from the interface itself. -/
  mem : ∀ n, n ∈ imports ↔ n ∈ bodyNames d ∧ n ≠ d.name
  /-- The declared types in the body are those of readable properties outside custom generic
  types. -/
  shown : ∀ n, n ∈ bodyNames d ↔ ∃ p ∈ d.properties, p.visibility = .exposed ∧ Shows n p.type
  nodup : imports.Nodup
  /-- The imports stand in the order of first occurrences in the body. -/
  order : ∀ m ∈ imports, ∀ n ∈ imports,
    imports.idxOf m < imports.idxOf n ↔ (bodyNames d).idxOf m < (bodyNames d).idxOf n

/-- **Imports match the body** of every class and interface whose readable properties have types with
the right numbers of arguments. -/
theorem imports_match_body (d : Declaration) (hshape : d.isEnumeration = false)
    (harity : ∀ p ∈ d.readable, p.type.HasArity) : ImportsMatch d (importNames d) := by
  have hnames : importNames d = ((bodyNames d).filter fun n => ¬ n = d.name).eraseDups := by
    rw [importNames_eq, bodyNames_eq harity]
  have hmem : ∀ n, n ∈ importNames d ↔ n ∈ bodyNames d ∧ n ≠ d.name := fun n => by
    rw [hnames, List.mem_eraseDups, List.mem_filter]
    simp
  refine ⟨?_, fun p hp => ⟨join_pieces p.type, declared_pieces (harity p hp)⟩, hmem,
    fun n => mem_bodyNames_iff harity, ?_, fun m hm n hn => ?_⟩
  · rw [ownLines_of_not_enumeration hshape, importBlock_eq]
    simp only [join_pieces]
    rfl
  · rw [hnames]
    exact List.nodup_eraseDups _
  · obtain ⟨hm, hmd⟩ := (hmem m).mp hm
    obtain ⟨hn, hnd⟩ := (hmem n).mp hn
    have hkeep : ∀ x ∈ bodyNames d, x ≠ d.name →
        x ∈ (bodyNames d).filter fun n => ¬ n = d.name :=
      fun x hx hxd => List.mem_filter.mpr ⟨hx, by simpa using hxd⟩
    rw [hnames, List.idxOf_eraseDups_lt_iff (hkeep m hm hmd) (hkeep n hn hnd),
      List.idxOf_filter_lt_iff (by simpa using hmd) (by simpa using hnd)]

/-- A class that refers to itself, to a type twice, and to types under a custom generic type and in a
hidden property. -/
def sampleOrder : Declaration where
  name := "Order"
  ns := "Shop"
  shape := .classType false [
    ⟨"Rows", .generic .enumerable [.generic .dictionary [.named "Key", .array (.named "Shop.Line")]],
      .exposed, none⟩,
    ⟨"Next", .generic .nullable [.named "Shop.Order"], .exposed, none⟩,
    ⟨"Page", .generic (.custom "Paged") [.named "Note"], .exposed, none⟩,
    ⟨"Secret", .named "Secret", .hidden, none⟩,
    ⟨"Main", .generic .task [.named "Key"], .exposed, none⟩]

theorem imports_match_body_sampleOrder :
    sampleOrder.isEnumeration = false ∧ (∀ p ∈ sampleOrder.readable, p.type.HasArity) ∧
      importNames sampleOrder = ["Key", "Line"] ∧
      ImportsMatch sampleOrder (importNames sampleOrder) := by
  have harity : ∀ p ∈ sampleOrder.readable, p.type.HasArity := by decide
  exact ⟨rfl, harity, by decide, imports_match_body sampleOrder rfl harity⟩

end TypeExport.Output
