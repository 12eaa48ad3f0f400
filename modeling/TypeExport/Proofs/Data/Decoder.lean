import TypeExport.Data.Decoder
import TypeExport.Proofs.Lists
import TypeExport.Proofs.TypeExpr.RoundTrip

/-!
# What decoders return

* `Data.once_bind_eq_ok_iff`, `Data.required_eq_ok_iff`: when fields are filled and found.
* `Data.Node.typeExpr_display`, `Data.Node.typeExpr_wellFormed`: the texts of well-formed type expressions
  are decoded, and what is decoded is well formed.
* `Data.RecordForm.decode_preserves`: what the fields of a record keep holds of all its drafts, however
  the record is written.
-/

namespace TypeExport.Data

/-! ## Fields -/

section

variable {α : Type} {slot new : Option α} {name : String}

@[simp] theorem once_none (name : String) (a : α) : once none name (.ok a) = .ok (some a) := rfl

theorem once_eq_ok_iff {value : Decoded α} :
    once slot name value = .ok new ↔ slot = none ∧ ∃ a, value = .ok a ∧ new = some a := by
  cases slot with
  | some a => simp [once]
  | none => cases value <;> simp [once, Except.map, eq_comm]

/-- What a field adds to a draft. -/
theorem once_bind_eq_ok_iff {δ : Type} {value : Decoded α} {fill : Option α → δ} {d : δ} :
    (once slot name value >>= fun new => .ok (fill new)) = .ok d ↔
      slot = none ∧ ∃ a, value = .ok a ∧ d = fill (some a) := by
  simp only [Except.bind_eq_ok_iff, once_eq_ok_iff, Except.ok.injEq]
  constructor
  · rintro ⟨_, ⟨hslot, a, ha, rfl⟩, rfl⟩
    exact ⟨hslot, a, ha, rfl⟩
  · rintro ⟨hslot, a, ha, rfl⟩
    exact ⟨_, ⟨hslot, a, ha, rfl⟩, rfl⟩

theorem required_eq_ok_iff {a : α} : required slot name = .ok a ↔ slot = some a := by
  cases slot <;> simp [required]

end

/-! ## Simple values and sequences -/

theorem Node.typeExpr_display {t : TypeExpr} (h : t.WellFormed) :
    (Node.text t.display).typeExpr = .ok t := by
  rw [Node.typeExpr, Node.string, Except.ok_bind, TypeExpr.parse_display h]

/-- Decoded type expressions are well formed. -/
theorem Node.typeExpr_wellFormed {n : Node} {t : TypeExpr} (h : n.typeExpr = .ok t) :
    t.WellFormed := by
  obtain ⟨s, -, h⟩ := Except.bind_eq_ok_iff.mp h
  split at h
  · next hparse =>
    cases h
    exact TypeExpr.wellFormed_of_parse hparse
  · cases h

theorem Node.forall_of_list {α : Type} {decode : Node → Decoded α} {P : α → Prop}
    (hdecode : ∀ n a, decode n = .ok a → P a) {n : Node} {as : List α} (h : n.list decode = .ok as) :
    ∀ a ∈ as, P a := by
  obtain ⟨items, -, h⟩ := Except.bind_eq_ok_iff.mp h
  exact List.forall_of_mapM_eq_ok hdecode h

/-! ## Records -/

namespace RecordForm

variable {δ : Type} {form : RecordForm δ} {P : δ → Prop}

theorem putEntry_preserves (hput : ∀ d name n d', P d → form.put d name n = .ok d' → P d')
    {d d' : δ} {e : MapEntry} (hd : P d) (h : form.putEntry d e = .ok d') : P d' := by
  obtain ⟨key | key, n⟩ := e
  · cases h
  · rw [putEntry] at h
    split at h
    · exact hput d key n d' hd h
    · obtain ⟨-, -, h⟩ := Except.bind_eq_ok_iff.mp h
      cases h
      exact hd

theorem putItems_preserves (hput : ∀ d name n d', P d → form.put d name n = .ok d' → P d')
    {surplus : Surplus} {fields : List (String × Bool)} {i : Nat} {items : List Node} {d d' : δ}
    (hd : P d) (h : form.putItems surplus fields i items d = .ok d') : P d' := by
  induction fields generalizing i items d with
  | nil =>
    rw [putItems] at h
    obtain ⟨-, -, h⟩ := Except.bind_eq_ok_iff.mp h
    cases h
    exact hd
  | cons field fields ih =>
    obtain ⟨name, needed⟩ := field
    cases items with
    | nil =>
      rw [putItems] at h
      split at h
      · cases h
      · exact ih hd h
    | cons n rest =>
      rw [putItems] at h
      obtain ⟨c, hc, h⟩ := Except.bind_eq_ok_iff.mp h
      exact ih (hput d name n c hd hc) h

/-- What holds of the draft without fields, and is kept by every field, holds of decoded drafts. -/
theorem decode_preserves (hblank : P form.blank)
    (hput : ∀ d name n d', P d → form.put d name n = .ok d' → P d') {surplus : Surplus} {n : Node}
    {d : δ} (h : form.decode surplus n = .ok d) : P d := by
  unfold decode at h
  split at h
  · exact List.foldlM_preserves (fun _ _ _ hd => putEntry_preserves hput hd) hblank h
  · exact putItems_preserves hput hblank h
  · cases h
  · cases h

end RecordForm

end TypeExport.Data
