import Mathlib.Data.List.Forall2
import TypeExport.Proofs.Places
import TypeExport.Proofs.Source.FieldOptions
import TypeExport.Proofs.Source.MemberValues
import TypeExport.Schema.Build

/-!
# Which items are declared

The items of a file are taken in their order, those of a module where the module stands. Public structures with
named fields and without types as parameters become classes, public enumerations of members without fields
become enumerations, and nothing else becomes anything.

* `Source.Item.Holds`, `Source.Stands`: where an item stands among items, and in which modules.
* `Source.Gives`: the declaration that an item gives. `Source.exists_gives_iff` says which items give one.
* `Source.placed`: the declarations with the positions of their items. `Source.mem_placed_iff` says which they are,
  and `Source.pairwise_placed` that they are in the order of the items.
* `Source.declarations_outcome`: what is collected from the items of a file.
-/

namespace TypeExport

/-- Declarations go to the end of a model one after the other. -/
theorem Schema.foldl_addType (s : Schema) (ds : List Declaration) :
    ds.foldl Schema.addType s = { s with types := s.types ++ ds } := by
  induction ds generalizing s with
  | nil => simp
  | cons d ds ih => rw [List.foldl_cons, ih, Schema.addType, List.append_assoc, List.singleton_append]

namespace Source

/-! ## Where items stand -/

/-- The item, or one in its modules: at which places among the items of one module after the other, and in modules
of which names, outermost first. -/
inductive Item.Holds : Item → List Nat → List String → Item → Prop where
  | self (x : Item) : Holds x [] [] x
  | inside {name : String} {items : List Item} {i : Nat} {top x : Item} {position : List Nat}
    {names : List String} (place : items[i]? = some top) (below : top.Holds position names x) :
    Holds (.module name items) (i :: position) (name :: names) x

/-- An item among items, or in their modules. -/
def Stands (items : List Item) (position : List Nat) (names : List String) (x : Item) : Prop :=
  ∃ i top rest, items[i]? = some top ∧ position = i :: rest ∧ top.Holds rest names x

/-- The namespace of a module inside others. -/
def namespaceIn (ns : String) (names : List String) : String := String.intercalate "::" (ns :: names)

theorem namespaceIn_nil (ns : String) : namespaceIn ns [] = ns := String.intercalate_singleton ..

theorem namespaceIn_cons (ns name : String) (names : List String) :
    namespaceIn ns (name :: names) = namespaceIn (ns ++ "::" ++ name) names := by
  unfold namespaceIn
  cases names with
  | nil => simp
  | cons n names => simp [String.intercalate_cons_of_ne_nil, String.append_assoc]

/-! ## What items give -/

/-- The property for a field. It can be read if the field is public and no option leaves it out. -/
structure IsProperty (f : Field) (p : Property) : Prop where
  name : p.name = (FieldOption.newName? (FieldOption.ofAttributes f.attributes)).getD f.name
  type : p.type = f.type.toExpr
  readable : p.isReadable = true ↔ f.isPublic = true ∧ .skip ∉ FieldOption.ofAttributes f.attributes
  doc : p.doc = documentation f.attributes
  /-- Well-formed options count as they are written. -/
  nameWritten : ∀ os, OptionsWritten f.attributes os → (∀ o ∈ os, o.WellFormed) →
    p.name = ((os.filterMap OptionForm.newName?).getLast?).getD f.name
  readableWritten : ∀ os, OptionsWritten f.attributes os → (∀ o ∈ os, o.WellFormed) →
    (p.isReadable = true ↔ f.isPublic = true ∧ ∀ o ∈ os, ¬o.IsSkip)

/-- The item is declared: a public structure with named fields and no types as parameters, or a public enumeration
without fields. -/
inductive Item.IsDeclared : Item → Prop where
  | ofStructure {s : StructItem} {fields : List Field} (isPublic : s.isPublic = true)
    (plain : s.isGeneric = false) (named : s.fields = .named fields) : IsDeclared (.structure s)
  | ofEnumeration {e : EnumItem} (isPublic : e.isPublic = true)
    (plain : ∀ v ∈ e.variants, v.fields = .none) : IsDeclared (.enumeration e)

/-- The declaration of an item in a namespace. -/
inductive Gives (ns : String) : Item → Declaration → Prop where
  /-- A class has a property for each field, in their order. -/
  | ofStructure {s : StructItem} {fields : List Field} {properties : List Property}
    (declared : (Item.structure s).IsDeclared) (named : s.fields = .named fields)
    (inOrder : List.Forall₂ IsProperty fields properties) :
    Gives ns (.structure s)
      { name := s.name, ns, shape := .classType false properties, doc := documentation s.attributes }
  /-- An enumeration has a member for each variant, in their order. -/
  | ofEnumeration {e : EnumItem} {members : List Member} (declared : (Item.enumeration e).IsDeclared)
    (inOrder : members.map (·.name) = e.variants.map (·.name)) :
    Gives ns (.enumeration e)
      { name := e.name, ns, shape := .enumeration members, doc := documentation e.attributes }

theorem Gives.isDeclared {ns : String} {x : Item} {d : Declaration} (h : Gives ns x d) : x.IsDeclared := by
  cases h with
  | ofStructure declared | ofEnumeration declared => exact declared

theorem isProperty_toProperty (f : Field) : IsProperty f f.toProperty where
  name := rfl
  type := rfl
  doc := rfl
  readable := by
    rw [Property.isReadable, Field.toProperty]
    simp only [FieldOption.areSkipping, Bool.and_eq_true, Bool.not_eq_true']
    split <;> simp_all
  nameWritten _ hwritten hw := f.name_toProperty_written hwritten hw
  readableWritten _ hwritten hw := by
    rw [← f.visibility_toProperty_written hwritten hw, Property.isReadable, beq_iff_eq]

theorem gives_structure {s : StructItem} {ns : String} {d : Declaration} (h : s.declaration? ns = some d) :
    Gives ns (.structure s) d := by
  unfold StructItem.declaration? at h
  split at h
  · next fields named =>
    split at h
    · next hdeclared =>
      cases h
      obtain ⟨isPublic, plain⟩ : s.isPublic = true ∧ s.isGeneric = false := by simpa using hdeclared
      refine .ofStructure (.ofStructure isPublic plain named) named ?_
      exact List.forall₂_map_right_iff.mpr (List.forall₂_same.mpr fun f _ => isProperty_toProperty f)
    · cases h
  · cases h

theorem gives_enumeration {e : EnumItem} {ns : String} {d : Declaration} (h : e.declaration? ns = some d) :
    Gives ns (.enumeration e) d := by
  unfold EnumItem.declaration? at h
  split at h
  · next hdeclared =>
    cases h
    obtain ⟨isPublic, plain⟩ : e.isPublic = true ∧ ∀ v ∈ e.variants, v.fields.isNone = true := by
      simpa using hdeclared
    have plain : ∀ v ∈ e.variants, v.fields = .none := fun v hv => by
      have := plain v hv
      cases hf : v.fields with
      | none => rfl
      | named fs | unnamed => simp [hf, Fields.isNone] at this
    exact .ofEnumeration (.ofEnumeration isPublic plain) (map_name_membersFrom 0 e.variants)
  · cases h

/-! ## Declarations in their places -/

mutual

/-- The declarations in an item, each with the place of its item. -/
def Item.placed (ns : String) : Item → List (List Nat × Declaration)
  | .structure s => (s.declaration? ns).toList.map fun d => ([], d)
  | .enumeration e => (e.declaration? ns).toList.map fun d => ([], d)
  | .module name items => placedFrom (ns ++ "::" ++ name) 0 items
  | .other => []

/-- The declarations in items, the first of which is the `i`th one. -/
def placedFrom (ns : String) (i : Nat) : List Item → List (List Nat × Declaration)
  | [] => []
  | x :: xs => (x.placed ns).map (fun p => (i :: p.1, p.2)) ++ placedFrom ns (i + 1) xs

end

mutual

theorem Item.map_snd_placed (ns : String) : (x : Item) → (x.placed ns).map (·.2) = x.declarations ns
  | .structure s => by simp [Item.placed, Item.declarations]
  | .enumeration e => by simp [Item.placed, Item.declarations]
  | .module name items => by rw [Item.placed, Item.declarations, map_snd_placedFrom]
  | .other => rfl

/-- They are the declarations that are collected. -/
theorem map_snd_placedFrom (ns : String) (i : Nat) :
    (xs : List Item) → (placedFrom ns i xs).map (·.2) = declarations ns xs
  | [] => rfl
  | x :: xs => by
    rw [placedFrom, declarations, List.map_append, map_snd_placedFrom ns (i + 1) xs, List.map_map,
      ← x.map_snd_placed ns]
    rfl

end

theorem placedFrom_eq (ns : String) (i : Nat) (xs : List Item) :
    placedFrom ns i xs = inBranches i (xs.map (·.placed ns)) := by
  induction xs generalizing i with
  | nil => rfl
  | cons x xs ih => rw [placedFrom, List.map_cons, inBranches, ih]

/-- What is placed among items is placed in one of them. -/
theorem mem_placedFrom_iff {ns : String} {i : Nat} {xs : List Item} {position : List Nat} {d : Declaration} :
    (position, d) ∈ placedFrom ns i xs ↔
      ∃ k top rest, xs[k]? = some top ∧ position = (i + k) :: rest ∧ (rest, d) ∈ top.placed ns := by
  simp only [placedFrom_eq, mem_inBranches_iff, List.getElem?_map, Option.map_eq_some_iff]
  constructor
  · rintro ⟨k, _, rest, ⟨top, hk, rfl⟩, hposition, hmem⟩
    exact ⟨k, top, rest, hk, hposition, hmem⟩
  · rintro ⟨k, top, rest, hk, hposition, hmem⟩
    exact ⟨k, _, rest, ⟨top, hk, rfl⟩, hposition, hmem⟩

/-- What is placed is given by the item in that place. -/
theorem Item.exists_gives_of_mem {ns : String} {position : List Nat} {d : Declaration} (x : Item)
    (h : (position, d) ∈ x.placed ns) :
    ∃ names y, x.Holds position names y ∧ Gives (namespaceIn ns names) y d := by
  match x with
  | .structure s =>
    obtain ⟨d, hd, hp⟩ := List.mem_map.mp h
    cases hp
    refine ⟨[], _, .self _, ?_⟩
    rw [namespaceIn_nil]
    exact gives_structure (Option.mem_toList.mp hd)
  | .enumeration e =>
    obtain ⟨d, hd, hp⟩ := List.mem_map.mp h
    cases hp
    refine ⟨[], _, .self _, ?_⟩
    rw [namespaceIn_nil]
    exact gives_enumeration (Option.mem_toList.mp hd)
  | .module name items =>
    obtain ⟨k, top, rest, hplace, rfl, hmem⟩ := mem_placedFrom_iff.mp h
    have hsmaller : sizeOf top < sizeOf items := List.sizeOf_lt_of_mem (List.mem_of_getElem? hplace)
    obtain ⟨names, y, hbelow, hgives⟩ := top.exists_gives_of_mem hmem
    rw [← namespaceIn_cons] at hgives
    rw [Nat.zero_add]
    exact ⟨name :: names, y, .inside hplace hbelow, hgives⟩
  | .other => cases h
termination_by sizeOf x

/-- In the place of each item that is declared there is a declaration. -/
theorem Item.Holds.exists_mem_placed {x y : Item} {position : List Nat} {names : List String}
    (h : x.Holds position names y) (hdeclared : y.IsDeclared) (ns : String) :
    ∃ d, (position, d) ∈ x.placed ns := by
  induction h generalizing ns with
  | self y =>
    cases hdeclared with
    | @ofStructure s fields isPublic plain named =>
      have hd : (s.declaration? ns).isSome := by simp [StructItem.declaration?, named, isPublic, plain]
      obtain ⟨d, hd⟩ := Option.isSome_iff_exists.mp hd
      exact ⟨d, List.mem_map.mpr ⟨d, Option.mem_toList.mpr hd, rfl⟩⟩
    | @ofEnumeration e isPublic plain =>
      have hall : e.variants.all (·.fields.isNone) = true :=
        List.all_eq_true.mpr fun v hv => by rw [plain v hv]; rfl
      have hd : (e.declaration? ns).isSome := by simp only [EnumItem.declaration?, isPublic, hall]; rfl
      obtain ⟨d, hd⟩ := Option.isSome_iff_exists.mp hd
      exact ⟨d, List.mem_map.mpr ⟨d, Option.mem_toList.mpr hd, rfl⟩⟩
  | @inside name items i top y position names place below ih =>
    obtain ⟨d, hd⟩ := ih hdeclared (ns ++ "::" ++ name)
    exact ⟨d, mem_placedFrom_iff.mpr ⟨i, top, position, place, by rw [Nat.zero_add], hd⟩⟩

/-! ## The order of declarations -/

theorem pairwise_placedFrom {ns : String} {xs : List Item}
    (h : ∀ x ∈ xs, (x.placed ns).Pairwise fun p q => p.1 < q.1) (i : Nat) :
    (placedFrom ns i xs).Pairwise fun p q => p.1 < q.1 := by
  rw [placedFrom_eq]
  exact pairwise_inBranches (List.forall_mem_map.mpr h) i

/-- Declarations are in the order of their items. -/
theorem Item.pairwise_placed (ns : String) (x : Item) :
    (x.placed ns).Pairwise fun p q => p.1 < q.1 := by
  match x with
  | .structure s => cases hd : s.declaration? ns <;> simp [Item.placed, hd]
  | .enumeration e => cases hd : e.declaration? ns <;> simp [Item.placed, hd]
  | .module name items =>
    refine pairwise_placedFrom (fun y hy => ?_) 0
    have hsmaller : sizeOf y < sizeOf items := List.sizeOf_lt_of_mem hy
    exact y.pairwise_placed _
  | .other => exact .nil
termination_by sizeOf x

/-- **Collection.** The declarations of items are added at the end of a model, and all that the model has
stays. They are those of the public structures with named fields and without types as parameters, and of the
public enumerations without fields, one for each, at whatever depth of modules; and they are in the order in which
these items stand. Their namespaces are those of the modules around the items. -/
theorem declarations_outcome (ns : String) (items : List Item) :
    (∀ s : Schema, (declarations ns items).foldl Schema.addType s =
      { s with types := s.types ++ declarations ns items }) ∧
    ∃ positions : List (List Nat), positions.Pairwise (· < ·) ∧
      (∀ position, position ∈ positions ↔ ∃ names x, Stands items position names x ∧ x.IsDeclared) ∧
      List.Forall₂ (fun position d => ∃ names x, Stands items position names x ∧
        Gives (namespaceIn ns names) x d) positions (declarations ns items) := by
  have hgives {position : List Nat} {d : Declaration} (h : (position, d) ∈ placedFrom ns 0 items) :
      ∃ names x, Stands items position names x ∧ Gives (namespaceIn ns names) x d := by
    obtain ⟨i, top, rest, hplace, rfl, hmem⟩ := mem_placedFrom_iff.mp h
    obtain ⟨names, x, hbelow, hgives⟩ := top.exists_gives_of_mem hmem
    rw [Nat.zero_add]
    exact ⟨names, x, ⟨i, top, rest, hplace, rfl, hbelow⟩, hgives⟩
  refine ⟨fun s => s.foldl_addType _, (placedFrom ns 0 items).map (·.1), ?_, fun position => ?_, ?_⟩
  · exact List.pairwise_map.mpr (pairwise_placedFrom (fun x _ => x.pairwise_placed ns) 0)
  · constructor
    · intro h
      obtain ⟨⟨position, d⟩, hmem, rfl⟩ := List.mem_map.mp h
      obtain ⟨names, x, hstands, hx⟩ := hgives hmem
      exact ⟨names, x, hstands, hx.isDeclared⟩
    · rintro ⟨names, x, ⟨i, top, rest, hplace, rfl, hbelow⟩, hdeclared⟩
      obtain ⟨d, hd⟩ := hbelow.exists_mem_placed hdeclared ns
      refine List.mem_map.mpr ⟨(i :: rest, d), mem_placedFrom_iff.mpr ?_, rfl⟩
      exact ⟨i, top, rest, hplace, by rw [Nat.zero_add], hd⟩
  · rw [← map_snd_placedFrom ns 0 items, List.forall₂_map_left_iff, List.forall₂_map_right_iff,
      List.forall₂_same]
    exact fun p hp => hgives hp

/-- A field with the attribute `#[serde(skip)]`. -/
def noteField : Field where
  attributes := [{ isGlobal := false, path := ["serde"], content := .list [.word "skip"] }]
  isPublic := true
  name := "note"
  type := .other

/-- A public structure with a field that is left out. -/
def orderItem : Item := .structure ⟨[], true, "Order", false, .named [⟨[], true, "id", .other⟩, noteField]⟩

/-- A structure that is not public. -/
def draftItem : Item := .structure ⟨[], false, "Draft", false, .named [noteField]⟩

/-- A module with both structures in it, and an item that is never declared. -/
def orderItems : List Item := [.module "store" [draftItem, orderItem], .other]

theorem eq_of_stands_orderItems {position : List Nat} {names : List String} {x : Item}
    (h : Stands orderItems position names x) (hdeclared : x.IsDeclared) :
    position = [0, 1] ∧ names = ["store"] ∧ x = orderItem := by
  obtain ⟨i, top, rest, hplace, rfl, hbelow⟩ := h
  match i with
  | 0 =>
    obtain rfl : Item.module "store" [draftItem, orderItem] = top := Option.some.inj hplace
    cases hbelow with
    | self => cases hdeclared
    | @inside _ _ j _ _ _ _ place below =>
      match j with
      | 0 =>
        obtain rfl := Option.some.inj place
        cases below
        obtain ⟨hpublic⟩ := hdeclared
        cases hpublic
      | 1 =>
        obtain rfl := Option.some.inj place
        cases below
        exact ⟨rfl, rfl, rfl⟩
      | j + 2 => cases place
  | 1 =>
    obtain rfl : Item.other = top := Option.some.inj hplace
    cases hbelow
    cases hdeclared
  | i + 2 => cases hplace

/-- A list in order with one element only. -/
theorem eq_singleton_of_pairwise {positions : List (List Nat)} {p : List Nat}
    (hsorted : positions.Pairwise (· < ·)) (hall : ∀ q ∈ positions, q = p) (hmem : p ∈ positions) :
    positions = [p] := by
  match positions with
  | [q] => rw [hall q List.mem_cons_self]
  | q :: r :: rest =>
    have hlt : q < r := List.rel_of_pairwise_cons hsorted List.mem_cons_self
    rw [hall q (by simp), hall r (by simp)] at hlt
    exact absurd hlt (List.lt_irrefl p)

theorem optionsWritten_noteField : OptionsWritten noteField.attributes [.word ⟨false, "skip", []⟩] ∧
    ∀ o ∈ [OptionForm.word ⟨false, "skip", []⟩], o.WellFormed :=
  ⟨.serde rfl rfl (.last (.word (.plain (.one "skip")))) .nil,
    List.forall_mem_singleton.mpr (by decide : ¬OptionPath.IsNamed ⟨false, "skip", []⟩ "rename")⟩

/-- The public structure is declared in the module around it, and the field that is left out cannot be read. -/
theorem declarations_outcome_orderItems : ∃ id note,
    declarations "crate::shop" orderItems =
      [{ name := "Order", ns := "crate::shop::store", shape := .classType false [id, note] }] ∧
    id.name = "id" ∧ id.isReadable = true ∧ note.name = "note" ∧ note.isReadable = false := by
  obtain ⟨-, positions, hsorted, hmem, hgives⟩ := declarations_outcome "crate::shop" orderItems
  have hstands : Stands orderItems [0, 1] ["store"] orderItem :=
    ⟨0, _, [1], rfl, rfl, .inside rfl (.self orderItem)⟩
  obtain rfl : positions = [[0, 1]] := by
    refine eq_singleton_of_pairwise hsorted (fun position hposition => ?_)
      ((hmem [0, 1]).mpr ⟨_, _, hstands, .ofStructure rfl rfl rfl⟩)
    obtain ⟨names, x, hx, hdeclared⟩ := (hmem position).mp hposition
    exact (eq_of_stands_orderItems hx hdeclared).1
  obtain ⟨d, ds, ⟨names, x, hx, hd⟩, hlast, heq⟩ := List.forall₂_cons_left_iff.mp hgives
  obtain rfl := List.forall₂_nil_left_iff.mp hlast
  obtain ⟨-, rfl, rfl⟩ := eq_of_stands_orderItems hx hd.isDeclared
  rw [heq]
  cases hd with
  | @ofStructure _ _ properties declared named inOrder =>
    cases named
    obtain ⟨id, rest, hid, hrest, rfl⟩ := List.forall₂_cons_left_iff.mp inOrder
    obtain ⟨note, rest, hnote, hnil, rfl⟩ := List.forall₂_cons_left_iff.mp hrest
    obtain rfl := List.forall₂_nil_left_iff.mp hnil
    obtain ⟨hwritten, hwellFormed⟩ := optionsWritten_noteField
    refine ⟨id, note, rfl, hid.nameWritten [] .nil (by simp),
      (hid.readableWritten [] .nil (by simp)).mpr ⟨rfl, by simp⟩,
      hnote.nameWritten _ hwritten hwellFormed, Bool.eq_false_iff.mpr fun hreadable => ?_⟩
    exact ((hnote.readableWritten _ hwritten hwellFormed).mp hreadable).2 _ List.mem_cons_self (.inl rfl)

end Source

end TypeExport
