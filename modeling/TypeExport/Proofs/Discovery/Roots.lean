import TypeExport.Discovery.Roots
import TypeExport.Proofs.Lists

/-!
# The roots of a filter

* `TypeExpr.payload_cases`: a payload is a primitive or a declared type.
* `Schema.rootsOf`: the roots that payloads stand for, without the way they are collected.
* `Schema.roots_eq_ok_iff`: if every candidate has a payload, the roots are those of the payloads.
* `Schema.mem_roots_iff`, `Schema.nodup_roots`: they are what the candidates stand for, each once.
* `Schema.roots_eq_error_iff`: otherwise the error is that of the first candidate without one.
-/

namespace TypeExport

namespace TypeExpr

theorem payloadWithin_cases {steps : Nat} {t p : TypeExpr} (h : payloadWithin steps t = .ok p) :
    (∃ q, p = .primitive q) ∨ ∃ n, p = .named n := by
  fun_induction payloadWithin steps t with
  | case1 _ q => cases h; exact .inl ⟨q, rfl⟩
  | case2 _ n => cases h; exact .inr ⟨n, rfl⟩
  | case4 _ _ ih => exact ih h
  | case7 _ _ _ _ _ ih => exact ih h
  | case3 | case5 | case6 | case8 => cases h

/-- A payload is a primitive or a declared type. -/
theorem payload_cases {t p : TypeExpr} (h : t.payload = .ok p) :
    (∃ q, p = .primitive q) ∨ ∃ n, p = .named n :=
  payloadWithin_cases h

end TypeExpr

namespace Schema

variable {s : Schema}

/-- The roots that payloads stand for: no primitives, each declared type by its full name, each root
once, in the order of first occurrences. -/
def rootsOf (s : Schema) (payloads : List TypeExpr) : List TypeExpr :=
  ((payloads.filter fun p => ¬ p.isPrimitive).map s.canonical).eraseDups

theorem rootsOf_concat (s : Schema) (payloads : List TypeExpr) (p : TypeExpr) :
    s.rootsOf (payloads ++ [p]) =
      if p.isPrimitive ∨ s.canonical p ∈ s.rootsOf payloads then s.rootsOf payloads
      else s.rootsOf payloads ++ [s.canonical p] := by
  unfold rootsOf
  rw [List.filter_append, List.map_append]
  by_cases hp : p.isPrimitive = true
  · simp [hp]
  · rw [List.filter_cons_of_pos (by simpa using hp), List.filter_nil, List.map_singleton,
      List.eraseDups_concat]
    simp only [hp, false_or, List.mem_eraseDups, Bool.false_eq_true]

/-- The declared type that is a root by its full name, as it was found, stays. -/
theorem canonical_named (s : Schema) (n : String) : ∃ m, s.canonical (.named n) = .named m := by
  cases h : s.resolve? n with
  | none => exact ⟨n, by simp only [canonical, h]⟩
  | some e => exact ⟨e.fullName, by simp only [canonical, h]⟩

/-- Roots of payloads are declared types. -/
theorem named_of_mem_rootsOf {payloads : List TypeExpr} {root : TypeExpr}
    (hp : ∀ p ∈ payloads, (∃ q, p = .primitive q) ∨ ∃ n, p = .named n)
    (h : root ∈ s.rootsOf payloads) : ∃ n, root = .named n := by
  rw [rootsOf, List.mem_eraseDups, List.mem_map] at h
  obtain ⟨p, hmem, rfl⟩ := h
  obtain ⟨hmem, hprim⟩ := List.mem_filter.mp hmem
  rcases hp p hmem with ⟨q, rfl⟩ | ⟨n, rfl⟩
  · simp [TypeExpr.isPrimitive] at hprim
  · exact s.canonical_named n

/-! ## Candidates -/

theorem payloadOf_eq_ok_iff {c p : TypeExpr} : payloadOf c = .ok p ↔ c.payload = .ok p := by
  unfold payloadOf
  cases c.payload with
  | ok q => simp
  | error fault => cases fault <;> simp

/-- The error for a candidate without a payload. -/
def HasNoPayload (c : TypeExpr) (e : ExportError) : Prop :=
  (c.payload = .error .unsupportedShape ∧ e = .unsupportedShape c) ∨
    (c.payload = .error .tooDeep ∧ e = .tooDeep c maxUnwrapDepth)

theorem payloadOf_eq_error_iff {c : TypeExpr} {e : ExportError} :
    payloadOf c = .error e ↔ HasNoPayload c e := by
  unfold payloadOf HasNoPayload
  cases c.payload with
  | ok p => simp
  | error fault => cases fault <;> simp [eq_comm]

theorem addRoot_eq_ok_iff {roots roots' : List TypeExpr} {c : TypeExpr} :
    s.addRoot roots c = .ok roots' ↔ ∃ p, c.payload = .ok p ∧ roots' =
      if p.isPrimitive ∨ s.canonical p ∈ roots then roots else roots ++ [s.canonical p] := by
  unfold addRoot
  rw [Except.bind_eq_ok_iff]
  simp only [payloadOf_eq_ok_iff, Except.ok.injEq, eq_comm (a := roots')]

theorem addRoot_eq_error_iff {roots : List TypeExpr} {c : TypeExpr} {e : ExportError} :
    s.addRoot roots c = .error e ↔ HasNoPayload c e := by
  unfold addRoot
  rw [Except.bind_eq_error_iff, payloadOf_eq_error_iff]
  simp

/-! ## All candidates -/

theorem foldlM_addRoot_eq_ok_iff {cs roots : List TypeExpr} :
    cs.foldlM s.addRoot [] = .ok roots ↔
      ∃ payloads, cs.map TypeExpr.payload = payloads.map .ok ∧ roots = s.rootsOf payloads := by
  induction cs using List.reverseRecOn generalizing roots with
  | nil =>
    simp only [List.foldlM_nil, List.map_nil, List.nil_eq, List.map_eq_nil_iff, exists_eq_left]
    exact ⟨fun h => by cases h; rfl, fun h => by rw [h]; rfl⟩
  | append_singleton cs c ih =>
    rw [List.foldlM_concat_eq_ok_iff]
    simp only [ih, addRoot_eq_ok_iff]
    constructor
    · rintro ⟨_, ⟨payloads, hps, rfl⟩, p, hp, rfl⟩
      exact ⟨payloads ++ [p], by simp [hps, hp], (s.rootsOf_concat payloads p).symm⟩
    · rintro ⟨_, hmap, rfl⟩
      rw [List.map_append, eq_comm, List.map_eq_append_iff] at hmap
      obtain ⟨payloads, last, rfl, hps, hlast⟩ := hmap
      rw [List.map_singleton, List.map_eq_singleton_iff] at hlast
      obtain ⟨p, rfl, hp⟩ := hlast
      exact ⟨_, ⟨payloads, hps.symm, rfl⟩, p, hp.symm, s.rootsOf_concat payloads p⟩

/-- If every candidate has a payload, the roots are those of the payloads. -/
theorem roots_eq_ok_iff {f : NamespaceFilter} {roots : List TypeExpr} :
    s.roots f = .ok roots ↔ ∃ payloads, (s.candidates f).map TypeExpr.payload = payloads.map .ok ∧
      roots = s.rootsOf payloads :=
  foldlM_addRoot_eq_ok_iff

/-- The payloads of candidates are primitives and declared types, so all roots are declared types. -/
theorem named_of_mem_roots {f : NamespaceFilter} {roots : List TypeExpr} {root : TypeExpr}
    (h : s.roots f = .ok roots) (hmem : root ∈ roots) : ∃ n, root = .named n := by
  obtain ⟨payloads, hps, rfl⟩ := roots_eq_ok_iff.mp h
  refine named_of_mem_rootsOf (fun p hp => ?_) hmem
  have hok : Except.ok p ∈ (s.candidates f).map TypeExpr.payload := by
    rw [hps]
    exact List.mem_map_of_mem hp
  obtain ⟨c, -, hc⟩ := List.mem_map.mp hok
  exact TypeExpr.payload_cases hc

/-- The roots are what the payloads of candidates stand for, primitives apart. -/
theorem mem_roots_iff {f : NamespaceFilter} {roots : List TypeExpr} (h : s.roots f = .ok roots)
    {root : TypeExpr} :
    root ∈ roots ↔ ∃ c ∈ s.candidates f, ∃ p, c.payload = .ok p ∧ p.isPrimitive = false ∧
      root = s.canonical p := by
  obtain ⟨payloads, hps, rfl⟩ := roots_eq_ok_iff.mp h
  have hpayload : ∀ p, p ∈ payloads ↔ ∃ c ∈ s.candidates f, c.payload = .ok p := fun p => by
    have hok : Except.ok p ∈ (s.candidates f).map TypeExpr.payload ↔ p ∈ payloads := by
      rw [hps]
      simp
    rw [← hok, List.mem_map]
  simp only [rootsOf, List.mem_eraseDups, List.mem_map, List.mem_filter, hpayload]
  constructor
  · rintro ⟨p, ⟨⟨c, hc, hp⟩, hprim⟩, rfl⟩
    exact ⟨c, hc, p, hp, by simpa using hprim, rfl⟩
  · rintro ⟨c, hc, p, hp, hprim, rfl⟩
    exact ⟨p, ⟨⟨c, hc, hp⟩, by simp [hprim]⟩, rfl⟩

theorem nodup_roots {f : NamespaceFilter} {roots : List TypeExpr} (h : s.roots f = .ok roots) :
    roots.Nodup := by
  obtain ⟨payloads, -, rfl⟩ := roots_eq_ok_iff.mp h
  exact List.nodup_eraseDups _

theorem map_payload_iff {cs : List TypeExpr} :
    (∃ payloads : List TypeExpr, cs.map TypeExpr.payload = payloads.map .ok) ↔
      ∀ c ∈ cs, ∃ p, c.payload = .ok p := by
  induction cs with
  | nil => simp
  | cons c cs ih =>
    rw [List.forall_mem_cons, ← ih]
    constructor
    · rintro ⟨payloads, h⟩
      cases payloads with
      | nil => cases h
      | cons p ps => exact ⟨⟨p, (List.cons.inj h).1⟩, ps, (List.cons.inj h).2⟩
    · rintro ⟨⟨p, hp⟩, ps, hps⟩
      exact ⟨p :: ps, by rw [List.map_cons, List.map_cons, hp, hps]⟩

/-- The error is that of the first candidate without a payload. -/
theorem roots_eq_error_iff {f : NamespaceFilter} {e : ExportError} :
    s.roots f = .error e ↔ ∃ before c after, s.candidates f = before ++ c :: after ∧
      (∀ b ∈ before, ∃ p, b.payload = .ok p) ∧ HasNoPayload c e := by
  unfold roots
  rw [List.foldlM_eq_error_iff]
  simp only [addRoot_eq_error_iff, foldlM_addRoot_eq_ok_iff, ← map_payload_iff]
  constructor
  · rintro ⟨before, c, after, _, hsplit, ⟨payloads, hps, -⟩, he⟩
    exact ⟨before, c, after, hsplit, ⟨payloads, hps⟩, he⟩
  · rintro ⟨before, c, after, hsplit, ⟨payloads, hps⟩, he⟩
    exact ⟨before, c, after, _, hsplit, ⟨payloads, hps, rfl⟩, he⟩

end Schema

end TypeExport
