import Mathlib.Logic.Relation
import TypeExport.Proofs.Data.KeyOrder
import TypeExport.Proofs.Json.Documents

/-!
# The order of keys in JSON texts

`Tree.Reorders` puts the members of one object in another order, wherever the object stands. Its keys have to be
different strings, however they are written.

* `Json.Tree.Reorders.node`: the tree of data is reordered in the same way.
* `Json.Tree.Spells.decode_of_reorders`: an orderless decoder returns the same for both texts.
-/

namespace TypeExport.Json

open Data

namespace Tree

/-- The keys of an object that can be used. -/
def usableKeys (members : List (List Char × Tree)) : List String :=
  members.filterMap fun m => (keyValue m.1).toOption

/-- The members of one object change places, and none of its keys is repeated. -/
inductive Reorders : Tree → Tree → Prop
  | members {ms ms' : List (List Char × Tree)} (hkeys : (usableKeys ms).Nodup) (h : ms.Perm ms') :
    Reorders (object ms) (object ms')
  | value (before after : List (List Char × Tree)) {raw : List Char} {t t' : Tree} (h : Reorders t t') :
    Reorders (object (before ++ (raw, t) :: after)) (object (before ++ (raw, t') :: after))
  | item (before after : List Tree) {t t' : Tree} (h : Reorders t t') :
    Reorders (array (before ++ t :: after)) (array (before ++ t' :: after))

theorem reorders_container {n n' : Node} (h : n.Reorders n') (depth : Nat) :
    (container depth n).Reorders (container depth n') := by
  unfold container
  split
  · exact h
  · exact .tooDeep h

/-- Keys that are not repeated differ in the tree of data. -/
theorem keysDiffer_memberNodes {ms : List (List Char × Tree)} (h : (usableKeys ms).Nodup) (depth : Nat) :
    (memberNodes depth ms).Pairwise KeysDiffer := by
  rw [memberNodes_eq_map, List.pairwise_map]
  refine (List.pairwise_filterMap.mp h).imp ?_
  intro m m' hne k hk hk'
  exact hne k (Except.toOption_eq_some_iff.mpr hk) k (Except.toOption_eq_some_iff.mpr hk') rfl

/-- The tree of data is reordered in the same way. -/
theorem Reorders.node {t t' : Tree} (h : Reorders t t') (depth : Nat) :
    (t.node depth).Reorders (t'.node depth) := by
  induction h generalizing depth with
  | members hkeys h =>
    refine reorders_container (.entries (keysDiffer_memberNodes hkeys _) ?_) depth
    simpa only [memberNodes_eq_map] using h.map _
  | value before after h ih =>
    refine reorders_container ?_ depth
    simpa only [memberNodes_eq_map, List.map_append, List.map_cons] using .value _ _ (ih _)
  | item before after h ih =>
    refine reorders_container ?_ depth
    simpa only [nodes_eq_map, List.map_append, List.map_cons] using .item _ _ (ih _)

variable {α : Type} {decoder : Node → Decoded α} {t t' : Tree} {text text' : String}

theorem toOption_of_reorders (hdecoder : Orderless decoder) (h : Relation.ReflTransGen Reorders t t') :
    (decoder (t.node 0)).toOption = (decoder (t'.node 0)).toOption := by
  induction h with
  | refl => rfl
  | tail _ hstep ih => exact ih.trans (hdecoder _ _ (hstep.node 0))

/-- An orderless decoder makes the same of two texts if one has the members of objects in another order. -/
theorem Spells.decode_of_reorders (hdecoder : Orderless decoder) (h : Spells t text.toList)
    (h' : Spells t' text'.toList) (horder : Relation.ReflTransGen Reorders t t') (a : α) :
    decode decoder text = .ok a ↔ decode decoder text' = .ok a := by
  rw [h.decode_eq, h'.decode_eq, ← Except.toOption_eq_some_iff, toOption_of_reorders hdecoder horder,
    Except.toOption_eq_some_iff]

end Tree

/-! ## Written documents -/

theorem Value.reorders_object {es es' : List (String × Value)} (hkeys : (es.map (·.1)).Nodup) (h : es.Perm es') :
    (object es).tree.Reorders (object es').tree := by
  rw [tree, tree, memberTrees_eq_map, memberTrees_eq_map]
  refine .members ?_ (h.map _)
  simpa [Tree.usableKeys, List.filterMap_map, Function.comp_def, keyValue_escaped] using hkeys

end TypeExport.Json
