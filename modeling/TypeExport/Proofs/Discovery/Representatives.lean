import TypeExport.Proofs.Discovery.Roots
import TypeExport.Proofs.Schema.FullNames

/-!
# What the roots stand for

A candidate is represented by the name of its payload: the full name, if the name refers to a declaration,
and otherwise the name as it is written. A full name refers to a declaration of this full name again, so
what is a root stays one, and a name that refers to nothing is no full name.

* `Schema.rootOf?`: the root that a candidate stands for. A primitive stands for none.
* `Schema.canonical_eq_iff`: when two names stand for one root.
* `Schema.roots_eq_eraseDups`: the roots are those of the candidates, each where it occurs first.
* `Schema.Represents`: how roots represent the candidates.
* `Schema.roots_outcome`: the roots of a filter do, and there are none if and only if a candidate has no
  payload.
-/

namespace TypeExport.Schema

variable {s : Schema} {f : NamespaceFilter} {roots : List TypeExpr} {c p r : TypeExpr} {m n : String}
  {e : Entry}

/-! ## Names of roots -/

theorem canonical_of_resolve? (h : s.resolve? n = some e) :
    s.canonical (.named n) = .named e.fullName := by
  simp only [canonical, h]

theorem canonical_of_not_resolve? (h : s.resolve? n = none) :
    s.canonical (.named n) = .named n := by
  simp only [canonical, h]

/-- A name that refers to nothing is not the full name of what another one refers to. -/
theorem ne_fullName_of_resolve? (hm : s.resolve? m = some e) (hn : s.resolve? n = none) :
    e.fullName ≠ n := by
  rintro rfl
  obtain ⟨e', he', -⟩ := resolve?_fullName (mem_allTypes_of_resolve? hm)
  rw [he'] at hn
  cases hn

/-- Two names refer to declarations of one full name, or they are one name that refers to nothing. -/
def SameType (s : Schema) (m n : String) : Prop :=
  (∃ e e', s.resolve? m = some e ∧ s.resolve? n = some e' ∧ e.fullName = e'.fullName) ∨
    (s.resolve? m = none ∧ s.resolve? n = none ∧ m = n)

theorem canonical_eq_iff :
    s.canonical (.named m) = s.canonical (.named n) ↔ s.SameType m n := by
  unfold SameType
  cases hm : s.resolve? m with
  | some e =>
    cases hn : s.resolve? n with
    | some e' =>
      rw [canonical_of_resolve? hm, canonical_of_resolve? hn]
      simp
    | none =>
      rw [canonical_of_resolve? hm, canonical_of_not_resolve? hn]
      simp [ne_fullName_of_resolve? hm hn]
  | none =>
    cases hn : s.resolve? n with
    | some e' =>
      rw [canonical_of_not_resolve? hm, canonical_of_resolve? hn]
      simp [(ne_fullName_of_resolve? hn hm).symm]
    | none =>
      rw [canonical_of_not_resolve? hm, canonical_of_not_resolve? hn]
      simp

/-- The name of a root that is declared is a full name. -/
theorem fullName_of_canonical (h : s.canonical (.named m) = .named n)
    (he : s.resolve? n = some e) : e.fullName = n := by
  cases hm : s.resolve? m with
  | none =>
    rw [canonical_of_not_resolve? hm] at h
    cases h
    rw [hm] at he
    cases he
  | some e' =>
    rw [canonical_of_resolve? hm] at h
    cases h
    obtain ⟨e'', he'', hname⟩ := resolve?_fullName (mem_allTypes_of_resolve? hm)
    rw [he] at he''
    cases he''
    exact hname

/-! ## Roots of candidates -/

/-- The root that a candidate stands for. -/
def rootOf? (s : Schema) (c : TypeExpr) : Option TypeExpr :=
  match c.payload with
  | .ok p => if p.isPrimitive then none else some (s.canonical p)
  | .error _ => none

theorem rootOf?_eq_some_iff : s.rootOf? c = some r ↔
    ∃ n, c.payload = .ok (.named n) ∧ r = s.canonical (.named n) := by
  unfold rootOf?
  cases hc : c.payload with
  | error fault => simp
  | ok p =>
    rcases TypeExpr.payload_cases hc with ⟨q, rfl⟩ | ⟨n, rfl⟩
    · simp [TypeExpr.isPrimitive]
    · simp [TypeExpr.isPrimitive, eq_comm]

theorem filterMap_rootOf? {cs payloads : List TypeExpr}
    (h : cs.map TypeExpr.payload = payloads.map .ok) :
    cs.filterMap s.rootOf? = (payloads.filter fun p => ¬ p.isPrimitive).map s.canonical := by
  induction cs generalizing payloads with
  | nil =>
    cases payloads with
    | nil => rfl
    | cons p payloads => cases h
  | cons c cs ih =>
    cases payloads with
    | nil => cases h
    | cons p payloads =>
      obtain ⟨hc, hcs⟩ := List.cons.inj h
      have hroot : s.rootOf? c = if p.isPrimitive then none else some (s.canonical p) := by
        simp only [rootOf?, hc]
      by_cases hp : p.isPrimitive = true
      · rw [List.filterMap_cons, hroot, if_pos hp, List.filter_cons_of_neg (by simpa using hp)]
        exact ih hcs
      · rw [List.filterMap_cons, hroot, if_neg hp, List.filter_cons_of_pos (by simpa using hp),
          List.map_cons, ih hcs]

/-- The roots are those of the candidates, each where it occurs first. -/
theorem roots_eq_eraseDups (h : s.roots f = .ok roots) :
    roots = ((s.candidates f).filterMap s.rootOf?).eraseDups := by
  obtain ⟨payloads, hps, rfl⟩ := roots_eq_ok_iff.mp h
  rw [filterMap_rootOf? hps, rootsOf]

theorem mem_roots_iff_rootOf? (h : s.roots f = .ok roots) :
    r ∈ roots ↔ ∃ c ∈ s.candidates f, s.rootOf? c = some r := by
  rw [roots_eq_eraseDups h, List.mem_eraseDups, List.mem_filterMap]

/-! ## Roots of filters -/

/-- How roots represent the candidates of a filter. -/
structure Represents (s : Schema) (f : NamespaceFilter) (roots : List TypeExpr) : Prop where
  /-- Each root refers to a type by its name, and is no primitive. -/
  named : ∀ r ∈ roots, (∃ n, r = .named n) ∧ r.isPrimitive = false
  /-- The roots are different. -/
  nodup : roots.Nodup
  /-- A root that is declared has the full name of its declaration. -/
  fullName : ∀ n e, .named n ∈ roots → s.resolve? n = some e → e.fullName = n
  /-- No two roots are the same declaration. -/
  declared : ∀ m n e, .named m ∈ roots → .named n ∈ roots → s.resolve? m = some e →
    s.resolve? n = some e → m = n
  /-- A candidate whose payload is no primitive is represented by a root. -/
  represented : ∀ c ∈ s.candidates f, ∀ p, c.payload = .ok p → p.isPrimitive = false →
    ∃ r ∈ roots, s.rootOf? c = some r
  /-- Each root represents a candidate. -/
  needed : ∀ r ∈ roots, ∃ c ∈ s.candidates f, s.rootOf? c = some r
  /-- Two candidates share a root exactly if the names of their payloads refer to declarations of one full
  name, or are one name that refers to nothing. -/
  shared : ∀ c ∈ s.candidates f, ∀ c' ∈ s.candidates f, ∀ m n, c.payload = .ok (.named m) →
    c'.payload = .ok (.named n) →
    ((∃ r ∈ roots, s.rootOf? c = some r ∧ s.rootOf? c' = some r) ↔ s.SameType m n)
  /-- Of two roots the first one represents a candidate that stands before all candidates of the other
  one. -/
  ordered : roots.Pairwise fun r r' => ∃ before c after, s.candidates f = before ++ c :: after ∧
    s.rootOf? c = some r ∧ ∀ x ∈ before ++ [c], s.rootOf? x ≠ some r'

theorem represents_of_roots (h : s.roots f = .ok roots) : s.Represents f roots := by
  have hfull : ∀ n e, .named n ∈ roots → s.resolve? n = some e → e.fullName = n := by
    intro n e hn he
    obtain ⟨c, -, hc⟩ := (mem_roots_iff_rootOf? h).mp hn
    obtain ⟨m, -, hm⟩ := rootOf?_eq_some_iff.mp hc
    exact fullName_of_canonical hm.symm he
  refine ⟨?_, nodup_roots h, hfull, ?_, ?_, ?_, ?_, ?_⟩
  · intro r hr
    obtain ⟨n, rfl⟩ := named_of_mem_roots h hr
    exact ⟨⟨n, rfl⟩, rfl⟩
  · intro m n e hm hn hme hne
    rw [← hfull m e hm hme, hfull n e hn hne]
  · intro c hc p hp hprim
    have hroot : s.rootOf? c = some (s.canonical p) := by simp [rootOf?, hp, hprim]
    exact ⟨_, (mem_roots_iff_rootOf? h).mpr ⟨c, hc, hroot⟩, hroot⟩
  · exact fun r hr => (mem_roots_iff_rootOf? h).mp hr
  · intro c hc c' hc' m n hm hn
    have hroot : s.rootOf? c = some (s.canonical (.named m)) := rootOf?_eq_some_iff.mpr ⟨m, hm, rfl⟩
    have hroot' : s.rootOf? c' = some (s.canonical (.named n)) :=
      rootOf?_eq_some_iff.mpr ⟨n, hn, rfl⟩
    rw [← canonical_eq_iff, hroot, hroot']
    constructor
    · rintro ⟨r, -, hr, hr'⟩
      rw [Option.some.inj hr, Option.some.inj hr']
    · intro heq
      exact ⟨_, (mem_roots_iff_rootOf? h).mpr ⟨c, hc, hroot⟩, rfl, by rw [heq]⟩
  · rw [roots_eq_eraseDups h]
    exact List.pairwise_eraseDups_filterMap s.rootOf? (s.candidates f)

/-- Discovery fails exactly if a candidate has no payload. -/
theorem exists_roots_eq_error_iff :
    (∃ e, s.roots f = .error e) ↔ ∃ c ∈ s.candidates f, ∀ p, c.payload ≠ .ok p := by
  have hok : (∀ c ∈ s.candidates f, ∃ p, c.payload = .ok p) ↔ ∃ roots, s.roots f = .ok roots := by
    simp only [← map_payload_iff, roots_eq_ok_iff]
    exact ⟨fun ⟨ps, hps⟩ => ⟨_, ps, hps, rfl⟩, fun ⟨_, ps, hps, _⟩ => ⟨ps, hps⟩⟩
  have hnot : (∃ c ∈ s.candidates f, ∀ p, c.payload ≠ .ok p) ↔
      ¬ ∃ roots, s.roots f = .ok roots := by
    rw [← hok]
    push Not
    rfl
  rw [hnot]
  cases s.roots f with
  | ok roots => simp
  | error e => simp

/-- **What the roots of a filter are.** If discovery succeeds, the roots represent the candidates, and it
fails exactly if a candidate has no payload, with the error of the first one. -/
theorem roots_outcome (s : Schema) (f : NamespaceFilter) :
    (∀ roots, s.roots f = .ok roots → s.Represents f roots) ∧
    ((∃ e, s.roots f = .error e) ↔ ∃ c ∈ s.candidates f, ∀ p, c.payload ≠ .ok p) ∧
    ∀ e, s.roots f = .error e ↔ ∃ before c after, s.candidates f = before ++ c :: after ∧
      (∀ b ∈ before, ∃ p, b.payload = .ok p) ∧ payloadOf c = .error e := by
  refine ⟨fun roots => represents_of_roots, exists_roots_eq_error_iff, fun e => ?_⟩
  simp only [roots_eq_error_iff, payloadOf_eq_error_iff]

/-- An order with its lines. Endpoints return them by several names, and a receipt that is not declared. -/
def sampleStore : Schema where
  types := [
    { name := "Order", ns := "Shop", shape := .classType false []
      nested := [{ name := "Line", ns := "Shop", shape := .classType false [] }] }]
  endpoints := [
    ⟨"FindReceipt", "Shop", .named "Receipt"⟩,
    ⟨"GetLines", "Shop", .generic .task [.array (.named "Order.Line")]⟩,
    ⟨"GetOrder", "Shop", .generic .task [.named "Order"]⟩,
    ⟨"FindLine", "Shop", .named "Line"⟩,
    ⟨"GetReceipts", "Shop", .generic .enumerable [.named "Receipt"]⟩,
    ⟨"Count", "Shop", .generic .task [.primitive .int32]⟩]

theorem roots_outcome_sampleStore :
    sampleStore.roots ⟨"Shop", false⟩ =
        .ok [.named "Shop.Order", .named "Receipt", .named "Shop.Order.Line"] ∧
      sampleStore.Represents ⟨"Shop", false⟩
        [.named "Shop.Order", .named "Receipt", .named "Shop.Order.Line"] :=
  ⟨rfl, (roots_outcome sampleStore ⟨"Shop", false⟩).1 _ rfl⟩

end TypeExport.Schema
