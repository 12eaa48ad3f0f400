import Mathlib.Logic.Relation
import TypeExport.Discovery.Roots
import TypeExport.Output.TypeText

/-!
# The spellings of sequences

A sequence can be written as an array, as an enumeration of its elements or as the many side of a relationship.
The three are one type: wherever in a type expression they stand, one may be put in the place of another.

* `TypeExpr.IsSequenceOf`: the three spellings.
* `TypeExpr.Respells`: one sequence in a type expression gets another spelling.
* `Output.typeText_generic_congr`, `Output.references_generic_congr`, `TypeExpr.payloadWithin_generic_congr`: a
  generic type reads its arguments by their texts, references and payloads only.
* `Schema.spelling_does_not_show`: the text, the references and the payload do not depend on spellings.
-/

namespace TypeExport

namespace TypeExpr

/-- The type expression is a sequence of the element. -/
inductive IsSequenceOf (e : TypeExpr) : TypeExpr → Prop where
  | array : IsSequenceOf e (.array e)
  | enumerable : IsSequenceOf e (.generic .enumerable [e])
  | collection : IsSequenceOf e (.generic .collection [e])

/-- In the second type expression, one sequence of the first one has another spelling. -/
inductive Respells : TypeExpr → TypeExpr → Prop where
  | here {t u e : TypeExpr} (before : IsSequenceOf e t) (after : IsSequenceOf e u) : Respells t u
  | inElement {t u : TypeExpr} (part : Respells t u) : Respells (.array t) (.array u)
  | inArgument {t u : TypeExpr} (w : Wrapper) (before after : List TypeExpr) (part : Respells t u) :
    Respells (.generic w (before ++ t :: after)) (.generic w (before ++ u :: after))

variable {t u : TypeExpr}

/-- No primitive has another spelling. -/
theorem Respells.isPrimitive_eq_false (h : Respells t u) :
    t.isPrimitive = false ∧ u.isPrimitive = false := by
  cases h with
  | here before after => exact ⟨by cases before <;> rfl, by cases after <;> rfl⟩
  | inElement | inArgument => exact ⟨rfl, rfl⟩

/-! ## Payloads -/

theorem IsSequenceOf.payloadWithin_eq {e : TypeExpr} (h : IsSequenceOf e t) (steps : Nat) :
    payloadWithin steps t = payloadWithin steps (.array e) := by
  cases h with
  | array => rfl
  | enumerable | collection => cases steps <;> simp [payloadWithin, Wrapper.isTransparent]

/-- Only the first argument of a generic type can hold its payload. -/
theorem payloadWithin_generic_congr (h : ∀ steps, payloadWithin steps t = payloadWithin steps u) (w : Wrapper)
    (before after : List TypeExpr) (steps : Nat) :
    payloadWithin steps (.generic w (before ++ t :: after)) =
      payloadWithin steps (.generic w (before ++ u :: after)) := by
  cases before with
  | cons b before => cases steps <;> simp only [List.cons_append, payloadWithin]
  | nil => cases steps <;> simp only [List.nil_append, payloadWithin, h]

theorem Respells.payloadWithin_eq (h : Respells t u) :
    ∀ steps, payloadWithin steps t = payloadWithin steps u := by
  induction h with
  | here before after => exact fun steps => (before.payloadWithin_eq steps).trans (after.payloadWithin_eq steps).symm
  | inElement part ih =>
    intro steps
    cases steps with
    | zero => rfl
    | succ steps => exact ih steps
  | inArgument w before after part ih => exact payloadWithin_generic_congr ih w before after

end TypeExpr

namespace Output

open TypeExpr

variable {t u : TypeExpr}

/-! ## Texts -/

theorem typeText_of_isSequenceOf {e : TypeExpr} (h : IsSequenceOf e t) : typeText t = arrayOf (typeText e) := by
  cases h <;> rw [typeText]

/-- Under a nullable wrapper, all but primitives are values that may be absent. -/
theorem isSome_nullableValue? (h : t.isPrimitive = false) :
    (TypeExpr.generic .nullable [t]).nullableValue?.isSome = true := by
  cases t with
  | primitive p => cases h
  | named | array | generic => rfl

/-- The text of a generic type has the texts of its arguments. It depends on what else they are only under a
nullable wrapper. -/
theorem typeText_generic_congr (htext : typeText t = typeText u) (ht : t.isPrimitive = false)
    (hu : u.isPrimitive = false) (w : Wrapper) (before after : List TypeExpr) :
    typeText (.generic w (before ++ t :: after)) = typeText (.generic w (before ++ u :: after)) := by
  -- The number of arguments decides how the type is written, up to two of them.
  rcases before with _ | ⟨b, _ | ⟨b', before⟩⟩ <;> rcases after with _ | ⟨a, _ | ⟨a', after⟩⟩ <;> cases w <;>
    simp [typeText, htext, isSome_nullableValue? ht, isSome_nullableValue? hu]

/-! ## References -/

theorem referencesList_append (ts us : List TypeExpr) :
    referencesList (ts ++ us) = referencesList ts ++ referencesList us := by
  induction ts with
  | nil => rfl
  | cons t ts ih => rw [List.cons_append, referencesList, referencesList, ih, List.append_assoc]

theorem references_of_isSequenceOf {e : TypeExpr} (h : IsSequenceOf e t) : references t = references e := by
  cases h <;> simp [references, referencesList]

theorem references_generic_congr (h : references t = references u) (w : Wrapper) (before after : List TypeExpr) :
    references (.generic w (before ++ t :: after)) = references (.generic w (before ++ u :: after)) := by
  cases w <;> simp only [references, referencesList_append, referencesList, h]

end Output

namespace TypeExpr.Respells

open Output

variable {t u : TypeExpr}

/-- One more spelling does not show. -/
theorem typeText_eq (h : Respells t u) : typeText t = typeText u := by
  induction h with
  | here before after => rw [typeText_of_isSequenceOf before, typeText_of_isSequenceOf after]
  | inElement part ih => rw [typeText, typeText, ih]
  | inArgument w before after part ih =>
    exact typeText_generic_congr ih part.isPrimitive_eq_false.1 part.isPrimitive_eq_false.2 w before after

theorem references_eq (h : Respells t u) : references t = references u := by
  induction h with
  | here before after => rw [references_of_isSequenceOf before, references_of_isSequenceOf after]
  | inElement part ih => rw [references, references, ih]
  | inArgument w before after part ih => exact references_generic_congr ih w before after

end TypeExpr.Respells

namespace Schema

open TypeExpr (Respells)

/-- Neither is there a payload, for the same reason, or it is the same. -/
def SamePayload (t u : TypeExpr) : Prop :=
  (∃ p, payloadOf t = .ok p ∧ payloadOf u = .ok p) ∨
  (payloadOf t = .error (.unsupportedShape t) ∧ payloadOf u = .error (.unsupportedShape u)) ∨
  (payloadOf t = .error (.tooDeep t maxUnwrapDepth) ∧ payloadOf u = .error (.tooDeep u maxUnwrapDepth))

theorem samePayload_of_payload_eq {t u : TypeExpr} (h : t.payload = u.payload) : SamePayload t u := by
  unfold SamePayload payloadOf
  rw [← h]
  cases t.payload with
  | ok p => exact .inl ⟨p, rfl, rfl⟩
  | error fault =>
    cases fault with
    | unsupportedShape => exact .inr (.inl ⟨rfl, rfl⟩)
    | tooDeep => exact .inr (.inr ⟨rfl, rfl⟩)

/-- **Spellings of sequences do not show.** When any number of sequences in a type expression, wherever they
stand, are written in other ways, its text, the declared types that it refers to and its payload stay the same. If
there is no payload, there is none for the same reason. -/
theorem spelling_does_not_show {t u : TypeExpr} (h : Relation.ReflTransGen Respells t u) :
    Output.typeText u = Output.typeText t ∧ Output.references u = Output.references t ∧ SamePayload u t := by
  suffices h : Output.typeText u = Output.typeText t ∧ Output.references u = Output.references t ∧
      u.payload = t.payload from ⟨h.1, h.2.1, samePayload_of_payload_eq h.2.2⟩
  induction h with
  | refl => exact ⟨rfl, rfl, rfl⟩
  | tail _ step ih =>
    obtain ⟨htext, hreferences, hpayload⟩ := ih
    exact ⟨step.typeText_eq.symm.trans htext, step.references_eq.symm.trans hreferences,
      (step.payloadWithin_eq maxUnwrapDepth).symm.trans hpayload⟩

/-- The type `Task<many<Dictionary<string, Nullable<orders>>>>` in some spelling of the two sequences. -/
def ordersByKey (many : TypeExpr → TypeExpr) (orders : TypeExpr) : TypeExpr :=
  .generic .task [many (.generic .dictionary [.primitive .string, .generic .nullable [orders]])]

theorem spelling_does_not_show_ordersByKey :
    Relation.ReflTransGen Respells
        (ordersByKey (fun e => .generic .collection [e]) (.array (.named "Shop.Order")))
        (ordersByKey .array (.generic .enumerable [.named "Shop.Order"])) ∧
      Output.typeText (ordersByKey .array (.generic .enumerable [.named "Shop.Order"])) =
        "(\x7b [key: string]: Order[]|null \x7d)[]" ∧
      Output.typeText (ordersByKey .array (.generic .enumerable [.named "Shop.Order"])) =
        Output.typeText (ordersByKey (fun e => .generic .collection [e]) (.array (.named "Shop.Order"))) := by
  have hmany : Respells (ordersByKey (fun e => .generic .collection [e]) (.array (.named "Shop.Order")))
      (ordersByKey .array (.array (.named "Shop.Order"))) :=
    .inArgument .task [] [] (.here .collection .array)
  have horders : Respells (ordersByKey .array (.array (.named "Shop.Order")))
      (ordersByKey .array (.generic .enumerable [.named "Shop.Order"])) :=
    .inArgument .task [] [] <| .inElement <| .inArgument .dictionary [.primitive .string] [] <|
      .inArgument .nullable [] [] <| .here .array .enumerable
  have hsteps := Relation.ReflTransGen.single hmany |>.tail horders
  exact ⟨hsteps, by decide, (spelling_does_not_show hsteps).1⟩

end Schema

end TypeExport
