import TypeExport.Proofs.Data.KeyOrder
import TypeExport.Proofs.Json.KeyOrder
import TypeExport.Proofs.Schema.Basic
import TypeExport.Schema.Load

/-!
# The order of keys in models

A declaration is decoded in two phases: some entries as they are met, all others when the kind is known. In what
order the entries stand makes no difference, at any depth.

* `Property.orderless_form`, `Shape.orderless_form` and so on: the fields of a record can be filled in any order.
* `Shape.toOption_ofEntries`: the kind may stand before or after the keys that it governs.
* `Declaration.ofNode_map`: the two phases of a declaration. `Declaration.toOption_ofNode` goes through all that
  is nested in it.
* `Schema.orderless_ofNode`: models are decoded alike in every order of keys.
* `Schema.ofJson_eq_ok_iff_of_reorders`: texts of models in another order of keys.
-/

namespace TypeExport

open Data

/-! ## Properties, members and endpoints -/

namespace Visibility

/-- A visibility that is a map has a single key. -/
theorem toOption_ofNode_map {es : List MapEntry} (h : es.length ≠ 1) :
    (ofNode (.map es)).toOption = none := by
  match es with
  | [] => rfl
  | [_] => exact absurd rfl h
  | (.error _, _) :: _ :: _ | (.ok _, _) :: _ :: _ => rfl

/-- What the key of a visibility leads to has no content. -/
theorem orderless_content (v : Visibility) : Orderless fun n => (match n with
    | .null | .map [] => .ok v
    | n => .error (n.mismatch "unit") : Decoded Visibility) := by
  intro n n' hn
  cases hn with
  | @entries es es' hkeys hes =>
    cases es with
    | nil => rw [hes.nil_eq]
    | cons e es =>
      cases es' with
      | nil => exact absurd hes.eq_nil (List.cons_ne_nil e es)
      | cons e' es' => rfl
  | value before after hn => cases before <;> rfl
  | item before after hn => rfl
  | tooDeep hn => rfl

theorem orderless_ofNode : Orderless ofNode := by
  intro n n' hn
  cases hn with
  | item before after hn => rfl
  | tooDeep hn => rfl
  | @entries es es' hkeys hes =>
    by_cases hone : es.length = 1
    · obtain ⟨e, rfl⟩ := List.length_eq_one_iff.mp hone
      rw [List.perm_singleton.mp hes.symm]
    · rw [toOption_ofNode_map hone, toOption_ofNode_map (hes.length_eq ▸ hone)]
  | @value before after key n n' hn =>
    by_cases hone : before.length = 0 ∧ after.length = 0
    · obtain rfl := List.length_eq_zero_iff.mp hone.1
      obtain rfl := List.length_eq_zero_iff.mp hone.2
      cases key with
      | error f => rfl
      | ok key =>
        simp only [List.nil_append, ofNode, toOption_bind]
        exact congrArg _ (funext fun v => orderless_content v n n' hn)
    · have hlength (m : Node) : (before ++ (key, m) :: after).length ≠ 1 := by
        rw [List.length_append, List.length_cons]
        omega
      rw [toOption_ofNode_map (hlength n), toOption_ofNode_map (hlength n')]

end Visibility

theorem Property.orderless_form : Property.form.Orderless where
  put := by
    intro field hfield d
    simp only [Property.form, List.mem_cons, List.not_mem_nil, or_false] at hfield
    obtain rfl | rfl | rfl | rfl := hfield <;> simp only [Property.form]
    · exact (orderless_string.once _ _).bind _
    · exact (orderless_typeExpr.once _ _).bind _
    · exact (Visibility.orderless_ofNode.once _ _).bind _
    · exact (orderless_string.optional.once _ _).bind _
  comm := by
    intro field hfield field' hfield' hne d n n'
    simp only [Property.form, List.mem_cons, List.not_mem_nil, or_false] at hfield hfield'
    obtain rfl | rfl | rfl | rfl := hfield <;> obtain rfl | rfl | rfl | rfl := hfield' <;>
      first
      | exact absurd rfl hne
      | simp only [Property.form, bind_assoc, Except.ok_bind]
        exact toOption_bind_comm _ _ _

theorem Property.orderless_ofNode : Orderless Property.ofNode :=
  (Property.orderless_form.decode .refuseLength).bind _

theorem Member.orderless_form : Member.form.Orderless where
  put := by
    intro field hfield d
    simp only [Member.form, List.mem_cons, List.not_mem_nil, or_false] at hfield
    obtain rfl | rfl := hfield <;> simp only [Member.form]
    · exact (orderless_string.once _ _).bind _
    · exact (orderless_int64.once _ _).bind _
  comm := by
    intro field hfield field' hfield' hne d n n'
    simp only [Member.form, List.mem_cons, List.not_mem_nil, or_false] at hfield hfield'
    obtain rfl | rfl := hfield <;> obtain rfl | rfl := hfield' <;>
      first
      | exact absurd rfl hne
      | simp only [Member.form, bind_assoc, Except.ok_bind]
        exact toOption_bind_comm _ _ _

theorem Member.orderless_ofNode : Orderless Member.ofNode :=
  (Member.orderless_form.decode .refuseLength).bind _

theorem Endpoint.orderless_form : Endpoint.form.Orderless where
  put := by
    intro field hfield d
    simp only [Endpoint.form, List.mem_cons, List.not_mem_nil, or_false] at hfield
    obtain rfl | rfl | rfl := hfield <;> simp only [Endpoint.form]
    · exact (orderless_string.once _ _).bind _
    · exact (orderless_string.once _ _).bind _
    · exact (orderless_typeExpr.once _ _).bind _
  comm := by
    intro field hfield field' hfield' hne d n n'
    simp only [Endpoint.form, List.mem_cons, List.not_mem_nil, or_false] at hfield hfield'
    obtain rfl | rfl | rfl := hfield <;> obtain rfl | rfl | rfl := hfield' <;>
      first
      | exact absurd rfl hne
      | simp only [Endpoint.form, bind_assoc, Except.ok_bind]
        exact toOption_bind_comm _ _ _

theorem Endpoint.orderless_ofNode (surplus : Surplus) : Orderless (Endpoint.ofNode surplus) :=
  (Endpoint.orderless_form.decode surplus).bind _

/-! ## Shapes -/

theorem Shape.orderless_form (kind : ShapeKind) : (Shape.form kind).Orderless where
  put := by
    intro field hfield d
    cases kind <;> simp only [Shape.form, List.mem_cons, List.not_mem_nil, or_false] at hfield
    · obtain rfl | rfl := hfield <;> simp only [Shape.form]
      · exact (orderless_flag.once _ _).bind _
      · exact (Property.orderless_ofNode.list.once _ _).bind _
    · subst hfield
      simp only [Shape.form]
      exact (Property.orderless_ofNode.list.once _ _).bind _
    · subst hfield
      simp only [Shape.form]
      exact (Member.orderless_ofNode.list.once _ _).bind _
  comm := by
    intro field hfield field' hfield' hne d n n'
    cases kind <;> simp only [Shape.form, List.mem_cons, List.not_mem_nil, or_false] at hfield hfield'
    · obtain rfl | rfl := hfield <;> obtain rfl | rfl := hfield' <;>
        first
        | exact absurd rfl hne
        | simp only [Shape.form, bind_assoc, Except.ok_bind]
          exact toOption_bind_comm _ _ _
    · exact absurd (by rw [hfield, hfield']) hne
    · exact absurd (by rw [hfield, hfield']) hne

namespace ShapeKind

theorem orderless_ofNode : Orderless ofNode :=
  .of_eq_none (fun _ => rfl) (fun _ => rfl) fun _ => rfl

/-- Taking up the kind passes over all other entries. -/
theorem take_of_ne {kind : Option ShapeKind} {e : MapEntry} (h : e.1 ≠ .ok "kind") : take kind e = .ok kind := by
  unfold take
  split
  · exact absurd rfl h
  · rfl

theorem orderless_take (kind : Option ShapeKind) (key : Except Json.Fault String) :
    Orderless fun n => take kind (key, n) := by
  by_cases hkey : key = .ok "kind"
  · subst hkey
    cases kind with
    | some k => exact fun _ _ _ => rfl
    | none => exact orderless_ofNode.map some
  · have hpass (m : Node) : take kind (key, m) = .ok kind := take_of_ne hkey
    intro n n' hn
    simp only [hpass]

theorem stepsCommute_take {e e' : MapEntry} (h : KeysDiffer e e') : StepsCommute take e e' := by
  have hcheck {e : MapEntry} (he : e.1 ≠ .ok "kind") (kind : Option ShapeKind) :
      take kind e = .ok () >>= fun _ => .ok kind := take_of_ne he
  by_cases he : e.1 = .ok "kind"
  · exact (stepsCommute_of_check (hcheck (h "kind" he)) e).symm
  · exact stepsCommute_of_check (hcheck he) e'

end ShapeKind

theorem Shape.toOption_ofEntries {es es' : List MapEntry} (h : (Node.map es).Reorders (.map es')) :
    (Shape.ofEntries es).toOption = (Shape.ofEntries es').toOption := by
  have hkind : (es.foldlM ShapeKind.take none).toOption = (es'.foldlM ShapeKind.take none).toOption := by
    cases h with
    | entries hkeys h =>
      exact toOption_foldlM_of_perm KeysDiffer.symm (fun _ _ => ShapeKind.stepsCommute_take) hkeys h _
    | value before after hn =>
      exact toOption_foldlM_congr (fun kind => ShapeKind.orderless_take kind _ _ _ hn) _ _ _
  have hform (kind : ShapeKind) := (Shape.orderless_form kind).toOption_ofEntries h
  simp only [Shape.ofEntries, toOption_bind, hkind, hform]

/-! ## Declarations -/

namespace Declaration

/-- The keys that are decoded as they are met. All others wait until the kind is known. -/
def ownKeys : List String := ["name", "namespace", "nested", "doc"]

/-- The entry waits until the kind is known. -/
def isKept (e : MapEntry) : Bool :=
  match e.1 with
  | .ok key => !ownKeys.contains key
  | .error _ => false

/-- Adds an entry to a draft, but does not keep it. -/
def fill (d : Draft) : MapEntry → Decoded Draft
  | (.error f, _) => .error (.fault f)
  | (.ok key, n) => (put d key n).map fun d' => { d' with others := d.others }

theorem put_of_not_mem {key : String} (h : key ∉ ownKeys) (d : Draft) (n : Node) :
    put d key n = liftFault n.read >>= fun _ => .ok { d with others := (.ok key, n) :: d.others } := by
  simp only [ownKeys, List.mem_cons, List.not_mem_nil, or_false, not_or] at h
  unfold put
  simp [h]

theorem fill_of_not_mem {key : String} (h : key ∉ ownKeys) (d : Draft) (n : Node) :
    fill d (.ok key, n) = liftFault n.read >>= fun _ => .ok d := by
  rw [fill, put_of_not_mem h]
  cases liftFault n.read <;> rfl

/-- An entry fills a slot of the draft, or waits. -/
theorem put_eq_fill (d : Draft) (waiting : List MapEntry) (key : String) (n : Node) :
    put { d with others := waiting } key n = (fill d (.ok key, n)).map fun d' =>
      { d' with others := if isKept (.ok key, n) then (.ok key, n) :: waiting else waiting } := by
  by_cases h : key ∈ ownKeys
  · simp only [ownKeys, List.mem_cons, List.not_mem_nil, or_false] at h
    obtain rfl | rfl | rfl | rfl := h <;> simp only [fill, put]
    · cases once d.name "name" n.string <;> rfl
    · cases once d.ns "namespace" n.string <;> rfl
    · cases once d.nested "nested" (listOfNode n) <;> rfl
    · cases once d.doc "doc" (n.optional Node.string) <;> rfl
  · rw [put_of_not_mem h, fill_of_not_mem h, if_pos (by simpa [isKept] using h)]
    cases liftFault n.read <;> rfl

/-- The two phases: slots are filled in the order of the entries, and the entries that wait keep theirs. -/
theorem ofEntries_eq_foldlM (es waiting : List MapEntry) (d : Draft) :
    ofEntries es { d with others := waiting } = (es.foldlM fill d).map fun d' =>
      { d' with others := (es.filter isKept).reverse ++ waiting } := by
  induction es generalizing d waiting with
  | nil => rfl
  | cons e es ih =>
    obtain ⟨f | key, n⟩ := e
    · rfl
    · rw [ofEntries_cons, put_eq_fill, List.foldlM_cons]
      cases fill d (.ok key, n) with
      | error f => rfl
      | ok d' =>
        rw [Except.ok_bind, Except.map, Except.ok_bind, ih, List.filter_cons]
        split <;> simp

/-- The kept entries are looked at when all slots are filled. -/
theorem ofNode_map (es : List MapEntry) :
    ofNode (.map es) = es.foldlM fill {} >>= fun d =>
      Draft.finish { d with others := (es.filter isKept).reverse } := by
  have h : ofEntries es {} = (es.foldlM fill {}).map fun d' =>
      { d' with others := (es.filter isKept).reverse ++ [] } := ofEntries_eq_foldlM es [] {}
  rw [ofNode, h]
  cases es.foldlM fill {} with
  | error f => rfl
  | ok d => rw [Except.map, Except.ok_bind, Except.ok_bind, List.append_nil]

theorem toOption_finish {kept kept' : List MapEntry}
    (h : (Shape.ofEntries kept).toOption = (Shape.ofEntries kept').toOption) (d : Draft) :
    (Draft.finish { d with others := kept.reverse }).toOption =
      (Draft.finish { d with others := kept'.reverse }).toOption := by
  simp only [Draft.finish, List.reverse_reverse, toOption_bind, h]

theorem exists_check_or_own (e : MapEntry) :
    (∃ check : Decoded Unit, ∀ d, fill d e = check >>= fun _ => .ok d) ∨ ∃ key ∈ ownKeys, e.1 = .ok key := by
  obtain ⟨f | key, n⟩ := e
  · exact .inl ⟨.error (.fault f), fun _ => rfl⟩
  · by_cases h : key ∈ ownKeys
    · exact .inr ⟨key, h, rfl⟩
    · exact .inl ⟨_, fun d => fill_of_not_mem h d n⟩

theorem stepsCommute_fill {e e' : MapEntry} (hdiffer : KeysDiffer e e') : StepsCommute fill e e' := by
  obtain ⟨check, hcheck⟩ | ⟨key, hown, hkey⟩ := exists_check_or_own e
  · exact stepsCommute_of_check hcheck e'
  obtain ⟨check, hcheck⟩ | ⟨key', hown', hkey'⟩ := exists_check_or_own e'
  · exact (stepsCommute_of_check hcheck e).symm
  obtain ⟨_, n⟩ := e
  obtain ⟨_, n'⟩ := e'
  obtain rfl : _ = Except.ok key := hkey
  obtain rfl : _ = Except.ok key' := hkey'
  have hne : key ≠ key' := fun heq => hdiffer key rfl (by rw [heq])
  intro d
  simp only [ownKeys, List.mem_cons, List.not_mem_nil, or_false] at hown hown'
  obtain rfl | rfl | rfl | rfl := hown <;> obtain rfl | rfl | rfl | rfl := hown' <;>
    first
    | exact absurd rfl hne
    | simp only [fill, put, map_bind_ok, bind_assoc, Except.ok_bind]
      exact toOption_bind_comm _ _ _

theorem toOption_fill {n n' : Node} (hn : n.Reorders n')
    (hlist : (listOfNode n).toOption = (listOfNode n').toOption) (d : Draft)
    (key : Except Json.Fault String) :
    (fill d (key, n)).toOption = (fill d (key, n')).toOption := by
  cases key with
  | error f => rfl
  | ok key =>
    by_cases h : key ∈ ownKeys
    · simp only [ownKeys, List.mem_cons, List.not_mem_nil, or_false] at h
      obtain rfl | rfl | rfl | rfl := h <;> simp only [fill, put, toOption_map, toOption_bind]
      · rw [orderless_string.once _ _ n n' hn]
      · rw [orderless_string.once _ _ n n' hn]
      · rw [toOption_once_congr hlist]
      · rw [orderless_string.optional.once _ _ n n' hn]
    · rw [fill_of_not_mem h, fill_of_not_mem h]
      exact orderless_read.bind _ n n' hn

theorem ofItems_eq_mapM (ns : List Node) : ofItems ns = ns.mapM ofNode := by
  induction ns with
  | nil => rfl
  | cons n ns ih =>
    rw [ofItems, List.mapM_cons, ih]
    rfl

/-- The entries that wait are reordered, or stay as they are. -/
theorem toOption_ofEntries_filter {before after : List MapEntry} {key : Except Json.Fault String}
    {n n' : Node} (hn : n.Reorders n') :
    (Shape.ofEntries ((before ++ (key, n) :: after).filter isKept)).toOption =
      (Shape.ofEntries ((before ++ (key, n') :: after).filter isKept)).toOption := by
  have hkept : isKept (key, n') = isKept (key, n) := rfl
  simp only [List.filter_append, List.filter_cons, hkept]
  split
  · exact Shape.toOption_ofEntries (.value _ _ hn)
  · rfl

/-- A declaration and a list of them are decoded alike in every order of keys. -/
theorem toOption_ofNode {n n' : Node} (h : n.Reorders n') :
    (ofNode n).toOption = (ofNode n').toOption ∧ (listOfNode n).toOption = (listOfNode n').toOption := by
  -- By induction on where the change is. Through nested lists both parts are needed in turn.
  induction h with
  | entries hkeys hes =>
    refine ⟨?_, rfl⟩
    rw [ofNode_map, ofNode_map, toOption_bind, toOption_bind,
      toOption_foldlM_of_perm KeysDiffer.symm (fun _ _ => stepsCommute_fill) hkeys hes]
    have hshape := Shape.toOption_ofEntries (.entries (hkeys.filter isKept) (hes.filter isKept))
    exact congrArg _ (funext fun d => toOption_finish hshape d)
  | value before after hn ih =>
    refine ⟨?_, rfl⟩
    rw [ofNode_map, ofNode_map, toOption_bind, toOption_bind,
      toOption_foldlM_congr fun d => toOption_fill hn ih.2 d _]
    exact congrArg _ (funext fun d => toOption_finish (toOption_ofEntries_filter hn) d)
  | item before after hn ih =>
    refine ⟨rfl, ?_⟩
    simp only [listOfNode, ofItems_eq_mapM]
    exact toOption_mapM_congr ih.1 _ _
  | tooDeep hn ih => cases hn <;> exact ⟨rfl, rfl⟩

theorem orderless_listOfNode : Orderless listOfNode := fun _ _ h => (toOption_ofNode h).2

end Declaration

/-! ## Models -/

namespace Schema

theorem orderless_form (surplus : Surplus) : (form surplus).Orderless where
  put := by
    intro field hfield d
    simp only [form, List.mem_cons, List.not_mem_nil, or_false] at hfield
    obtain rfl | rfl := hfield <;> simp only [form]
    · exact (Declaration.orderless_listOfNode.once _ _).bind _
    · exact ((Endpoint.orderless_ofNode surplus).list.once _ _).bind _
  comm := by
    intro field hfield field' hfield' hne d n n'
    simp only [form, List.mem_cons, List.not_mem_nil, or_false] at hfield hfield'
    obtain rfl | rfl := hfield <;> obtain rfl | rfl := hfield' <;>
      first
      | exact absurd rfl hne
      | simp only [form, bind_assoc, Except.ok_bind]
        exact toOption_bind_comm _ _ _

/-- The model that a tree describes does not depend on the order of keys. -/
theorem orderless_ofNode (surplus : Surplus) : Orderless (ofNode surplus) :=
  ((orderless_form surplus).decode surplus).bind _

theorem ofJson_eq_ok_iff {text : String} {s : Schema} :
    ofJson text = .ok s ↔ Json.decode (ofNode .refuseText) text = .ok s := by
  unfold ofJson
  cases Json.decode (ofNode .refuseText) text <;> simp

/-- **The order of keys.** Take two JSON texts. In the second one, the members of objects stand in another order
than in the first one, but no object whose order changes has a repeated key; blanks do not matter. Then both are
the text of a model or none is, and it is the same model. -/
theorem ofJson_eq_ok_iff_of_reorders {t t' : Json.Tree} {text text' : String} (htext : t.Spells text.toList)
    (htext' : t'.Spells text'.toList) (horder : Relation.ReflTransGen Json.Tree.Reorders t t') (s : Schema) :
    ofJson text = .ok s ↔ ofJson text' = .ok s := by
  rw [ofJson_eq_ok_iff, ofJson_eq_ok_iff]
  exact htext.decode_of_reorders (orderless_ofNode .refuseText) htext' horder s

/-! A class with an enumeration in it. -/

/-- The entries of the enumeration. -/
def stateEntries : List (String × Json.Value) :=
  [("kind", .text "enum"), ("name", .text "State"),
    ("members", .array [.object [("name", .text "Open"), ("value", .int 0)]])]

/-- The entries of the class, one of which has no meaning. -/
def orderEntries (state : List (String × Json.Value)) : List (String × Json.Value) :=
  [("kind", .text "class"), ("name", .text "Order"), ("note", .object [("b", .int 1), ("a", .bool true)]),
    ("nested", .array [.object state]),
    ("properties", .array [.object [("name", .text "State"), ("type", .text "Order.State")]])]

def orderDocument (order : List (String × Json.Value)) : Json.Value := .object [("types", .array [.object order])]

def orderModel : Schema where
  types := [
    { name := "Order"
      ns := ""
      shape := .classType false [⟨"State", .named "Order.State", .exposed, none⟩]
      nested := [{ name := "State", ns := "", shape := .enumeration [⟨"Open", 0⟩] }] }]

/-- The kinds may stand first or last. -/
theorem ofJson_orderDocument :
    let first := orderDocument (orderEntries stateEntries)
    let last := orderDocument (orderEntries stateEntries.reverse).reverse
    first.tree.Spells first.compact.toList ∧ last.tree.Spells last.compact.toList ∧
      Relation.ReflTransGen Json.Tree.Reorders first.tree last.tree ∧
      ofJson first.compact = .ok orderModel ∧ ofJson last.compact = .ok orderModel := by
  intro first last
  have hwithin {order order' : List (String × Json.Value)}
      (h : (Json.Value.object order).tree.Reorders (Json.Value.object order').tree) :
      (orderDocument order).tree.Reorders (orderDocument order').tree :=
    .value [] [] (.item [] [] h)
  -- First the enumeration is reordered, then the class around it.
  have hstate : (Json.Value.object stateEntries).tree.Reorders (Json.Value.object stateEntries.reverse).tree :=
    Json.Value.reorders_object (by decide) (List.reverse_perm _).symm
  have hnested : (Json.Value.object (orderEntries stateEntries)).tree.Reorders
      (Json.Value.object (orderEntries stateEntries.reverse)).tree :=
    .value (Json.Value.memberTrees ((orderEntries []).take 3)) (Json.Value.memberTrees ((orderEntries []).drop 4))
      (.item [] [] hstate)
  have horder : Relation.ReflTransGen Json.Tree.Reorders first.tree last.tree :=
    .tail (.single (hwithin hnested))
      (hwithin (Json.Value.reorders_object (by decide) (List.reverse_perm _).symm))
  have hnode : (ofNode .refuseText (first.tree.node 0)).toOption = some orderModel := by decide +kernel
  have hfirst : ofJson first.compact = .ok orderModel := by
    rw [ofJson_eq_ok_iff, first.spells_compact.decode_eq]
    exact Except.toOption_eq_some_iff.mp hnode
  exact ⟨first.spells_compact, last.spells_compact, horder, hfirst,
    (ofJson_eq_ok_iff_of_reorders first.spells_compact last.spells_compact horder orderModel).mp hfirst⟩

end Schema

end TypeExport
