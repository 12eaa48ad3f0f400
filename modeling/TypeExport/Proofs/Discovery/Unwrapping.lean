import TypeExport.Discovery.Payload
import TypeExport.Proofs.TypeExpr.Arguments

/-!
# Taking wrappers off

* `TypeExpr.Unwraps`: what is left of a type expression after some wrappers have been taken off.
* `TypeExpr.payloadWithin_eq_unsupportedShape_iff`: the two ways in which a type expression has a shape
  without payload.
* `TypeExpr.Saturated.payload_eq_unsupportedShape_iff`: only one of them is possible if all wrappers have
  their arguments (`TypeExpr.Saturated.not_unwraps_nil`).
-/

namespace TypeExport.TypeExpr

/-- A type expression is reached from another one by taking off some arrays and wrappers around it. -/
inductive Unwraps : Nat → TypeExpr → TypeExpr → Prop where
  | none (t : TypeExpr) : Unwraps 0 t t
  | array {k : Nat} {e u : TypeExpr} (inner : Unwraps k e u) : Unwraps (k + 1) (.array e) u
  | wrapper {k : Nat} {w : Wrapper} {a u : TypeExpr} {args : List TypeExpr}
    (transparent : w.isTransparent = true) (inner : Unwraps k a u) :
    Unwraps (k + 1) (.generic w (a :: args)) u

variable {k steps : Nat} {t u : TypeExpr}

theorem Unwraps.occurs (h : Unwraps k t u) : Occurs u t := by
  induction h with
  | none t => exact .self t
  | array _ ih => exact .element ih
  | wrapper _ _ ih => exact .argument (List.mem_cons_self ..) ih

/-- A generic type that has no payload: it cannot be taken off, or there is nothing in it. -/
def Blocks (w : Wrapper) (args : List TypeExpr) : Prop := w.isTransparent = false ∨ args = []

/-- There is no payload because of the shape exactly if taking off wrappers within the limit leads to one
that cannot be taken off. -/
theorem payloadWithin_eq_unsupportedShape_iff :
    payloadWithin steps t = .error .unsupportedShape ↔
      ∃ k ≤ steps, ∃ w args, Unwraps k t (.generic w args) ∧ Blocks w args := by
  fun_induction payloadWithin steps t with
  | case1 | case2 =>
    refine iff_of_false (by simp) ?_
    rintro ⟨k, -, w, args, ⟨⟩, -⟩
  | case3 e =>
    refine iff_of_false (by simp) ?_
    rintro ⟨k, hk, w, args, h, -⟩
    cases h with
    | array => omega
  | case4 steps e ih =>
    rw [ih]
    constructor
    · rintro ⟨k, hk, w, args, h, hblocks⟩
      exact ⟨k + 1, by omega, w, args, .array h, hblocks⟩
    · rintro ⟨_, hk, w, args, h, hblocks⟩
      cases h with
      | @array k _ _ h => exact ⟨k, by omega, w, args, h, hblocks⟩
  | case5 steps w hw =>
    exact iff_of_true rfl ⟨0, by omega, w, [], .none _, .inr rfl⟩
  | case6 w hw a args =>
    refine iff_of_false (by simp) ?_
    rintro ⟨k, hk, v, as, h, hblocks⟩
    cases h with
    | none => simp [Blocks, hw] at hblocks
    | wrapper => omega
  | case7 w hw a args steps ih =>
    rw [ih]
    constructor
    · rintro ⟨k, hk, v, as, h, hblocks⟩
      exact ⟨k + 1, by omega, v, as, .wrapper hw h, hblocks⟩
    · rintro ⟨_, hk, v, as, h, hblocks⟩
      cases h with
      | none => simp [Blocks, hw] at hblocks
      | @wrapper k _ _ _ _ _ h => exact ⟨k, by omega, v, as, h, hblocks⟩
  | case8 steps w args hw =>
    exact iff_of_true rfl ⟨0, by omega, w, args, .none _, .inl (by simpa using hw)⟩

/-- No wrapper without an argument is reached. -/
theorem Saturated.not_unwraps_nil (h : t.Saturated) (w : Wrapper) : ¬ Unwraps k t (.generic w []) :=
  fun hunwraps => (h w [] hunwraps.occurs).1 rfl

/-- With all arguments there, the only shape without payload is that of a wrapper that cannot be taken
off. -/
theorem Saturated.payload_eq_unsupportedShape_iff (h : t.Saturated) :
    t.payload = .error .unsupportedShape ↔
      ∃ k ≤ maxUnwrapDepth, ∃ w args, Unwraps k t (.generic w args) ∧ w.isTransparent = false := by
  rw [payload, payloadWithin_eq_unsupportedShape_iff]
  constructor
  · rintro ⟨k, hk, w, args, hunwraps, hopaque | rfl⟩
    · exact ⟨k, hk, w, args, hunwraps, hopaque⟩
    · exact (h.not_unwraps_nil w hunwraps).elim
  · rintro ⟨k, hk, w, args, hunwraps, hopaque⟩
    exact ⟨k, hk, w, args, hunwraps, .inl hopaque⟩

end TypeExport.TypeExpr
