import TypeExport.Discovery.Roots
import TypeExport.Proofs.Discovery.Unwrapping
import TypeExport.Proofs.Output.TypeText
import TypeExport.Proofs.Schema.WellTyped
import TypeExport.Proofs.Source.Project
import TypeExport.Proofs.Source.TypeExpr
import TypeExport.Schema.Load

/-!
# Models from all providers

A model comes from a text or from source files.

* `Schema.Provided`: the models that are loaded.
* `Schema.Provided.saturated`: wherever a model comes from, its generic types have their arguments.
* `Schema.Provided.every_generic_filled`: so taking off wrappers never meets one without an argument, and
  no wrapper with a meaning is written as its name.
-/

namespace TypeExport

namespace Schema

open TypeExpr

/-! ## Models -/

/-- The models that are loaded from texts, and from source files on any file system. -/
inductive Provided : Schema → Prop where
  | json {text : String} {s : Schema} (loaded : ofJson text = .ok s) : Provided s
  | toml {text : String} {s : Schema} (loaded : ofToml text = .ok s) : Provided s
  | scan {σ : Type} {files : FileAccess (StateM σ)} {root : String} {st : σ} {s : Schema}
    (loaded : ((Schema.scan files root).run st).1 = .ok s) : Provided s

variable {s : Schema}

namespace Provided

theorem saturated (h : s.Provided) : ∀ t ∈ s.typeExprs, t.Saturated := by
  intro t ht
  cases h with
  | json h => exact (wellFormed_of_ofJson h t ht).saturated
  | toml h => exact (wellFormed_of_ofToml h t ht).saturated
  | scan h =>
    obtain ⟨T, rfl⟩ := (fromSource_of_scan h).exists_toExpr t ht
    exact (Source.fromType_toExpr T).saturated

/-- The candidates are the results of endpoints and names of classes. -/
theorem saturated_of_mem_candidates (h : s.Provided) (f : NamespaceFilter) :
    ∀ c ∈ s.candidates f, c.Saturated := by
  refine List.forall_mem_append.mpr ⟨List.forall_mem_map.mpr fun d _ => everyGeneric_named _, ?_⟩
  refine List.forall_mem_map.mpr fun e he => h.saturated e.returns ?_
  exact List.mem_append_right _ (List.mem_map_of_mem (List.mem_filter.mp he).1)

/-- Wherever a model comes from, every generic type in it has an argument, and as many as its wrapper takes.
Thus a candidate without payload has a wrapper that cannot be taken off, and never one without an
argument, and only custom generic types are written as their names. -/
theorem every_generic_filled (h : s.Provided) :
    (∀ t ∈ s.typeExprs, ∀ w args, Occurs (.generic w args) t →
      1 ≤ args.length ∧ ∀ k ∈ w.arity?, args.length = k) ∧
    (∀ f, ∀ c ∈ s.candidates f, (∀ k w, ¬ Unwraps k c (.generic w [])) ∧
      (c.payload = .error .unsupportedShape ↔
        ∃ k ≤ maxUnwrapDepth, ∃ w args, Unwraps k c (.generic w args) ∧ w.isTransparent = false)) ∧
    ∀ t ∈ s.typeExprs, Output.strictText? t = some (Output.typeText t) := by
  refine ⟨fun t ht w args hocc => ?_, fun f c hc => ?_, fun t ht => ?_⟩
  · obtain ⟨hne, hlength⟩ := h.saturated t ht w args hocc
    exact ⟨List.length_pos_iff.mpr hne, hlength⟩
  · have hc := h.saturated_of_mem_candidates f c hc
    exact ⟨fun _ => hc.not_unwraps_nil, hc.payload_eq_unsupportedShape_iff⟩
  · exact Output.strictText?_eq (h.saturated t ht)

/-- A text of a model with a custom generic type in another wrapper. -/
def pagesText : String :=
  "\x7b\"types\":[],\"endpoints\":[\x7b\"name\":\"All\",\"returns\":\"Task<Paged<Order>>\"\x7d]\x7d"

def pagesModel : Schema where
  endpoints := [⟨"All", "", .generic .task [.generic (.custom "Paged") [.named "Order"]]⟩]

theorem every_generic_filled_pagesModel :
    pagesModel.Provided ∧
      (∀ t ∈ pagesModel.typeExprs, ∀ w args, Occurs (.generic w args) t →
        1 ≤ args.length ∧ ∀ k ∈ w.arity?, args.length = k) ∧
      ∀ t ∈ pagesModel.typeExprs, Output.strictText? t = some (Output.typeText t) := by
  have hloaded : ofJson pagesText = .ok pagesModel :=
    Except.toOption_eq_some_iff.mp (by decide +kernel)
  obtain ⟨hgenerics, -, htexts⟩ := every_generic_filled (.json hloaded)
  exact ⟨.json hloaded, hgenerics, htexts⟩

end Provided

end Schema

end TypeExport
