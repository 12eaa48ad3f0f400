import TypeExport.Proofs.Discovery.Roots
import TypeExport.Proofs.Discovery.Unwrapping

/-!
# What is under the wrappers

Taking off one wrapper after another either ends, at a type without a wrapper or at a generic type that
cannot be taken off, or is possible more often than the limit allows. What lies beyond the limit does not
matter, so too many wrappers around a shape without payload are too many wrappers.

* `TypeExpr.unwraps_cases`: the three ways it can go.
* `TypeExpr.Unwraps.payloadWithin_eq_ok`, `TypeExpr.Unwraps.payloadWithin_eq_tooDeep`: what follows from
  two of them. The third is `TypeExpr.payloadWithin_eq_unsupportedShape_iff`.
* `TypeExpr.payloadWithin_eq_ok_iff`, `TypeExpr.payloadWithin_eq_tooDeep_iff`: so each is exact.
* `Schema.payloadOf_outcome`: when a candidate has a payload, and which error it gives if not.
-/

namespace TypeExport

/-- The wrappers that are never taken off. -/
theorem Wrapper.isTransparent_eq_false_iff {w : Wrapper} :
    w.isTransparent = false ↔ w = .nullable ∨ w = .dictionary ∨ ∃ n, w = .custom n := by
  cases w <;> simp [isTransparent]

namespace TypeExpr

variable {k steps : Nat} {t u v p : TypeExpr}

/-- A type without a wrapper around it. -/
def IsPlain (t : TypeExpr) : Prop := (∃ q, t = .primitive q) ∨ ∃ n, t = .named n

/-! ## Taking off wrappers -/

/-- A type is plain, or it is generic and cannot be taken off, or one wrapper can be taken off. -/
theorem unwraps_one_cases (t : TypeExpr) :
    t.IsPlain ∨ (∃ w args, t = .generic w args ∧ Blocks w args) ∨ ∃ u, Unwraps 1 t u := by
  cases t with
  | primitive q => exact .inl (.inl ⟨q, rfl⟩)
  | named n => exact .inl (.inr ⟨n, rfl⟩)
  | array e => exact .inr (.inr ⟨e, .array (.none e)⟩)
  | generic w args =>
    cases hw : w.isTransparent with
    | false => exact .inr (.inl ⟨w, args, rfl, .inl hw⟩)
    | true =>
      cases args with
      | nil => exact .inr (.inl ⟨w, [], rfl, .inr rfl⟩)
      | cons a args => exact .inr (.inr ⟨a, .wrapper hw (.none a)⟩)

/-- The outermost wrapper comes off first. -/
theorem Unwraps.cons (h : Unwraps 1 t u) (hv : Unwraps k u v) : Unwraps (k + 1) t v := by
  cases h with
  | array inner =>
    cases inner
    exact .array hv
  | wrapper transparent inner =>
    cases inner
    exact .wrapper transparent hv

/-- Within any number of steps taking off wrappers ends at a plain type or at one that cannot be taken
off, or another step is possible. -/
theorem unwraps_cases (steps : Nat) (t : TypeExpr) :
    (∃ k ≤ steps, ∃ p, Unwraps k t p ∧ p.IsPlain) ∨
      (∃ k ≤ steps, ∃ w args, Unwraps k t (.generic w args) ∧ Blocks w args) ∨
      ∃ u, Unwraps (steps + 1) t u := by
  induction steps generalizing t with
  | zero =>
    rcases unwraps_one_cases t with hplain | ⟨w, args, rfl, hblocks⟩ | hmore
    · exact .inl ⟨0, Nat.le_refl 0, t, .none t, hplain⟩
    · exact .inr (.inl ⟨0, Nat.le_refl 0, w, args, .none _, hblocks⟩)
    · exact .inr (.inr hmore)
  | succ steps ih =>
    rcases unwraps_one_cases t with hplain | ⟨w, args, rfl, hblocks⟩ | ⟨u, hu⟩
    · exact .inl ⟨0, Nat.zero_le _, t, .none t, hplain⟩
    · exact .inr (.inl ⟨0, Nat.zero_le _, w, args, .none _, hblocks⟩)
    · rcases ih u with ⟨k, hk, p, hp, hplain⟩ | ⟨k, hk, w, args, hw, hblocks⟩ | ⟨v, hv⟩
      · exact .inl ⟨k + 1, Nat.succ_le_succ hk, p, hu.cons hp, hplain⟩
      · exact .inr (.inl ⟨k + 1, Nat.succ_le_succ hk, w, args, hu.cons hw, hblocks⟩)
      · exact .inr (.inr ⟨v, hu.cons hv⟩)

/-! ## Payloads -/

theorem Unwraps.payloadWithin_eq_ok (h : Unwraps k t p) (hp : p.IsPlain) (hk : k ≤ steps) :
    payloadWithin steps t = .ok p := by
  induction h generalizing steps with
  | none t => rcases hp with ⟨q, rfl⟩ | ⟨n, rfl⟩ <;> rw [payloadWithin]
  | array _ ih =>
    obtain ⟨steps, rfl⟩ := Nat.exists_eq_add_of_le' hk
    rw [← Nat.add_assoc, payloadWithin]
    exact ih hp (Nat.le_add_left ..)
  | wrapper transparent _ ih =>
    obtain ⟨steps, rfl⟩ := Nat.exists_eq_add_of_le' hk
    rw [← Nat.add_assoc, payloadWithin, if_pos transparent]
    exact ih hp (Nat.le_add_left ..)

theorem Unwraps.payloadWithin_eq_tooDeep (h : Unwraps k t u) (hk : steps < k) :
    payloadWithin steps t = .error .tooDeep := by
  induction h generalizing steps with
  | none t => omega
  | array _ ih =>
    cases steps with
    | zero => rw [payloadWithin]
    | succ steps =>
      rw [payloadWithin]
      exact ih (Nat.lt_of_succ_lt_succ hk)
  | wrapper transparent _ ih =>
    cases steps with
    | zero => rw [payloadWithin, if_pos transparent]
    | succ steps =>
      rw [payloadWithin, if_pos transparent]
      exact ih (Nat.lt_of_succ_lt_succ hk)

/-- There is a payload exactly if taking off wrappers within the limit leads to a plain type. -/
theorem payloadWithin_eq_ok_iff :
    payloadWithin steps t = .ok p ↔ ∃ k ≤ steps, Unwraps k t p ∧ p.IsPlain := by
  constructor
  · intro h
    rcases unwraps_cases steps t with ⟨k, hk, q, hq, hplain⟩ | hblocked | ⟨u, hu⟩
    · rw [hq.payloadWithin_eq_ok hplain hk] at h
      cases h
      exact ⟨k, hk, hq, hplain⟩
    · rw [payloadWithin_eq_unsupportedShape_iff.mpr hblocked] at h
      cases h
    · rw [hu.payloadWithin_eq_tooDeep (Nat.lt_succ_self steps)] at h
      cases h
  · rintro ⟨k, hk, hp, hplain⟩
    exact hp.payloadWithin_eq_ok hplain hk

/-- There are too many wrappers exactly if more of them can be taken off than the limit allows. -/
theorem payloadWithin_eq_tooDeep_iff :
    payloadWithin steps t = .error .tooDeep ↔ ∃ k u, steps < k ∧ Unwraps k t u := by
  constructor
  · intro h
    rcases unwraps_cases steps t with ⟨k, hk, q, hq, hplain⟩ | hblocked | ⟨u, hu⟩
    · rw [hq.payloadWithin_eq_ok hplain hk] at h
      cases h
    · rw [payloadWithin_eq_unsupportedShape_iff.mpr hblocked] at h
      cases h
    · exact ⟨steps + 1, u, Nat.lt_succ_self steps, hu⟩
  · rintro ⟨k, u, hk, hu⟩
    exact hu.payloadWithin_eq_tooDeep hk

end TypeExpr

namespace Schema

open TypeExpr

theorem payloadOf_eq_unsupportedShape_iff {t : TypeExpr} :
    payloadOf t = .error (.unsupportedShape t) ↔ t.payload = .error .unsupportedShape := by
  rw [payloadOf_eq_error_iff, HasNoPayload]
  simp

theorem payloadOf_eq_tooDeep_iff {t : TypeExpr} :
    payloadOf t = .error (.tooDeep t maxUnwrapDepth) ↔ t.payload = .error .tooDeep := by
  rw [payloadOf_eq_error_iff, HasNoPayload]
  simp

/-- One of three statements holds, and the other two do not. -/
def ExactlyOne (a b c : Prop) : Prop := (a ∧ ¬b ∧ ¬c) ∨ (¬a ∧ b ∧ ¬c) ∨ (¬a ∧ ¬b ∧ c)

/-- **What unwrapping comes to.** A type expression has a payload exactly if taking off at most
`maxUnwrapDepth` arrays and wrappers leads to a primitive or a declared type, which is the payload. Its
shape is not supported exactly if they lead to a generic type that is never taken off, or to one without
arguments. There are too many of them exactly if more than `maxUnwrapDepth` can be taken off. One of the
three is the case. -/
theorem payloadOf_outcome (t : TypeExpr) :
    (∀ p, payloadOf t = .ok p ↔ ∃ k ≤ maxUnwrapDepth, Unwraps k t p ∧
      ((∃ q, p = .primitive q) ∨ ∃ n, p = .named n)) ∧
    (payloadOf t = .error (.unsupportedShape t) ↔ ∃ k ≤ maxUnwrapDepth, ∃ w args,
      Unwraps k t (.generic w args) ∧
        (w = .nullable ∨ w = .dictionary ∨ (∃ n, w = .custom n) ∨ args = [])) ∧
    (payloadOf t = .error (.tooDeep t maxUnwrapDepth) ↔
      ∃ k u, maxUnwrapDepth < k ∧ Unwraps k t u) ∧
    ExactlyOne (∃ p, payloadOf t = .ok p) (payloadOf t = .error (.unsupportedShape t))
      (payloadOf t = .error (.tooDeep t maxUnwrapDepth)) := by
  refine ⟨fun p => ?_, ?_, ?_, ?_⟩
  · exact payloadOf_eq_ok_iff.trans payloadWithin_eq_ok_iff
  · rw [payloadOf_eq_unsupportedShape_iff, TypeExpr.payload, payloadWithin_eq_unsupportedShape_iff]
    simp only [Blocks, Wrapper.isTransparent_eq_false_iff, or_assoc]
  · exact payloadOf_eq_tooDeep_iff.trans payloadWithin_eq_tooDeep_iff
  · rw [payloadOf_eq_unsupportedShape_iff, payloadOf_eq_tooDeep_iff]
    simp only [payloadOf_eq_ok_iff]
    cases t.payload with
    | ok p => exact .inl ⟨⟨p, rfl⟩, by simp, by simp⟩
    | error fault =>
      cases fault with
      | unsupportedShape => exact .inr (.inl ⟨by simp, rfl, by simp⟩)
      | tooDeep => exact .inr (.inr ⟨by simp, by simp, rfl⟩)

/-- A type in some arrays. -/
def inArrays : Nat → TypeExpr → TypeExpr
  | 0, t => t
  | n + 1, t => .array (inArrays n t)

/-- The limit is kept to the step, and a shape beyond it is not seen. -/
example :
    payloadOf (inArrays 32 (.named "Order")) = .ok (.named "Order") ∧
    (inArrays 33 (.named "Order")).payload = .error .tooDeep ∧
    (inArrays 32 (.generic .nullable [.named "Order"])).payload = .error .unsupportedShape ∧
    (inArrays 33 (.generic .nullable [.named "Order"])).payload = .error .tooDeep :=
  ⟨rfl, rfl, rfl, rfl⟩

end Schema

end TypeExport
