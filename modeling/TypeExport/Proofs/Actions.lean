/-!
# Actions with a state

* `run_bind_of_run`, `run_run_bind_of_run`: the second action runs with the result and in the state of the
  first one. `exists_of_run_bind` is the converse.
* `run_mapM_of_forall`, `run_run_mapM_of_forall`: actions for all elements of a list that leave the state. Those
  that can fail stop at the first error.
* `forall_of_run_mapM`: what the results of actions for all elements of a list have in common.
-/

namespace TypeExport

variable {σ ε α β : Type} {st st' : σ} {a : α}

/-! ## One action after the other -/

theorem run_bind_of_run {x : StateM σ α} {f : α → StateM σ β} (h : x.run st = (a, st')) :
    (x >>= f).run st = (f a).run st' := by
  rw [StateT.run_bind, h]
  rfl

theorem run_run_bind_of_run {x : ExceptT ε (StateM σ) α} {f : α → ExceptT ε (StateM σ) β}
    (h : x.run.run st = (.ok a, st')) : (x >>= f).run.run st = (f a).run.run st' := by
  rw [ExceptT.run_bind, run_bind_of_run h]

/-- The second action runs in the state that the first one leaves. -/
theorem exists_of_run_bind {x : ExceptT ε (StateM σ) α} {f : α → ExceptT ε (StateM σ) β} {st : σ}
    {b : β} (h : ((x >>= f).run.run st).1 = .ok b) :
    ∃ a, (x.run.run st).1 = .ok a ∧ ((f a).run.run (x.run.run st).2).1 = .ok b := by
  rw [ExceptT.run_bind, StateT.run_bind] at h
  change (StateT.run (match (x.run.run st).1 with
    | .ok a => (f a).run
    | .error e => pure (.error e)) (x.run.run st).2).1 = .ok b at h
  cases hx : (x.run.run st).1 with
  | ok a =>
    rw [hx] at h
    exact ⟨a, rfl, h⟩
  | error e =>
    rw [hx] at h
    cases h

/-! ## Actions for all elements of a list -/

theorem run_mapM_of_forall {f : α → StateM σ β} {g : α → β} {l : List α}
    (h : ∀ a ∈ l, (f a).run st = (g a, st)) : (l.mapM f).run st = (l.map g, st) := by
  induction l with
  | nil => rfl
  | cons a as ih =>
    obtain ⟨ha, has⟩ := List.forall_mem_cons.mp h
    rw [List.mapM_cons, run_bind_of_run ha, run_bind_of_run (ih has)]
    rfl

/-- Actions that can fail give what their results give, up to the first error. -/
theorem run_run_mapM_of_forall {f : α → ExceptT ε (StateM σ) β} {g : α → Except ε β} {l : List α}
    (h : ∀ a ∈ l, (f a).run.run st = (g a, st)) : (l.mapM f).run.run st = (l.mapM g, st) := by
  induction l with
  | nil => rfl
  | cons a as ih =>
    obtain ⟨ha, has⟩ := List.forall_mem_cons.mp h
    rw [List.mapM_cons, List.mapM_cons]
    cases hg : g a with
    | error e =>
      rw [hg] at ha
      rw [ExceptT.run_bind, run_bind_of_run ha]
      rfl
    | ok b =>
      rw [hg] at ha
      rw [run_run_bind_of_run ha, ExceptT.run_bind, run_bind_of_run (ih has)]
      cases as.mapM g <;> rfl

/-- What holds of every result of an action holds of all results for a list, in whatever states the
action runs. -/
theorem forall_of_run_mapM {f : α → ExceptT ε (StateM σ) β} {P : β → Prop}
    (hf : ∀ a st b, ((f a).run.run st).1 = .ok b → P b) {l : List α} {st : σ} {bs : List β}
    (h : ((l.mapM f).run.run st).1 = .ok bs) : ∀ b ∈ bs, P b := by
  induction l generalizing st bs with
  | nil =>
    cases h
    simp
  | cons a as ih =>
    rw [List.mapM_cons] at h
    obtain ⟨c, hc, h⟩ := exists_of_run_bind h
    obtain ⟨cs, hcs, h⟩ := exists_of_run_bind h
    cases h
    exact List.forall_mem_cons.mpr ⟨hf a st c hc, ih hcs⟩

end TypeExport
