import Mathlib.Data.List.Forall2
import Mathlib.Data.List.Induction

/-!
# First occurrences, and steps that can fail

* `Except.bind_eq_ok_iff`, `Except.bind_eq_error_iff`: two steps succeed together, or one of them fails.
* `List.nodup_eraseDups`, `List.idxOf_eraseDups_lt_iff`: `eraseDups` keeps each element once, in the
  order of first occurrences.
* `List.pairwise_eraseDups_filterMap`: the values of a partial function keep the order of the arguments.
* `List.idxOf_filter_lt_iff`: a filter keeps the order.
* `List.flatMap_filter_of_forall`: a filter may drop what adds nothing.
* `List.foldl_keepNew`: a fold that adds what is new collects the first occurrences.
* `List.foldlM_concat_eq_ok_iff`, `List.foldlM_eq_error_iff`: a fold in `Except` takes element after
  element, and its error is that of the first element that fails.
* `List.foldlM_preserves`: what steps keep.
* `List.mapM_eq_ok_iff`: the results for a list are the results for its elements.
-/

namespace Except

variable {ε α β : Type}

@[simp] theorem ok_bind (a : α) (f : α → Except ε β) : (.ok a : Except ε α) >>= f = f a := rfl

theorem bind_eq_ok_iff {x : Except ε α} {f : α → Except ε β} {b : β} :
    x >>= f = .ok b ↔ ∃ a, x = .ok a ∧ f a = .ok b := by
  cases x with
  | error e => simp [bind, Except.bind]
  | ok a => simp [bind, Except.bind]

theorem bind_eq_error_iff {x : Except ε α} {f : α → Except ε β} {e : ε} :
    x >>= f = .error e ↔ x = .error e ∨ ∃ a, x = .ok a ∧ f a = .error e := by
  cases x with
  | error e => simp [bind, Except.bind]
  | ok a => simp [bind, Except.bind]

theorem toOption_eq_some_iff {x : Except ε α} {a : α} : x.toOption = some a ↔ x = .ok a := by
  cases x with
  | error e => simp [Except.toOption]
  | ok a => simp [Except.toOption]

end Except

namespace List

/-! ## First occurrences -/

section

variable {α β : Type} [DecidableEq β]

theorem eraseDups_concat (l : List β) (b : β) :
    (l ++ [b]).eraseDups = if b ∈ l then l.eraseDups else l.eraseDups ++ [b] := by
  rw [eraseDups_append]
  by_cases h : b ∈ l <;> simp [removeAll, h, eraseDups_cons]

theorem nodup_eraseDups (l : List β) : l.eraseDups.Nodup := by
  induction l using reverseRecOn with
  | nil => exact nodup_nil
  | append_singleton l b ih =>
    rw [eraseDups_concat]
    split
    · exact ih
    · next h =>
      refine nodup_append.mpr ⟨ih, by simp, fun a ha c hc => ?_⟩
      rintro rfl
      rw [mem_singleton.mp hc] at ha
      exact h (mem_eraseDups.mp ha)

/-- First occurrences keep their order. -/
theorem idxOf_eraseDups_lt_iff {l : List β} {a b : β} (ha : a ∈ l) (hb : b ∈ l) :
    l.eraseDups.idxOf a < l.eraseDups.idxOf b ↔ l.idxOf a < l.idxOf b := by
  induction l using reverseRecOn with
  | nil => cases ha
  | append_singleton l c ih =>
    rw [eraseDups_concat]
    rw [mem_append, mem_singleton] at ha hb
    split
    · next hc =>
      -- A repeated element changes neither list.
      have ha : a ∈ l := ha.elim id fun e => e ▸ hc
      have hb : b ∈ l := hb.elim id fun e => e ▸ hc
      rw [idxOf_append, idxOf_append, if_pos ha, if_pos hb]
      exact ih ha hb
    · next hc =>
      simp only [idxOf_append, mem_eraseDups]
      rcases ha with ha | rfl <;> rcases hb with hb | rfl
      · rw [if_pos ha, if_pos hb, if_pos ha, if_pos hb]
        exact ih ha hb
      · rw [if_pos ha, if_neg hc, if_pos ha, if_neg hc]
        have h1 := idxOf_lt_length_of_mem (mem_eraseDups.mpr ha)
        have h2 := idxOf_lt_length_of_mem ha
        omega
      · rw [if_pos hb, if_neg hc, if_pos hb, if_neg hc]
        have h1 := idxOf_lt_length_of_mem (mem_eraseDups.mpr hb)
        have h2 := idxOf_lt_length_of_mem hb
        omega
      · simp

/-- First occurrences stand in the order of what they come from: of two of them, something gives the
first one that comes before all that gives the second one. -/
theorem pairwise_eraseDups_filterMap (g : α → Option β) (l : List α) :
    (l.filterMap g).eraseDups.Pairwise fun a b => ∃ before x after, l = before ++ x :: after ∧
      g x = some a ∧ ∀ y ∈ before ++ [x], g y ≠ some b := by
  induction l using reverseRecOn with
  | nil => exact .nil
  | append_singleton l z ih =>
    have hold : (l.filterMap g).eraseDups.Pairwise fun a b => ∃ before x after,
        l ++ [z] = before ++ x :: after ∧ g x = some a ∧ ∀ y ∈ before ++ [x], g y ≠ some b := by
      refine ih.imp ?_
      rintro a b ⟨before, x, after, rfl, hx⟩
      exact ⟨before, x, after ++ [z], by simp, hx⟩
    rw [filterMap_append]
    cases hz : g z with
    | none => simpa [hz] using hold
    | some c =>
      rw [show filterMap g [z] = [c] by simp [hz], eraseDups_concat]
      split
      · exact hold
      · next hnew =>
        refine pairwise_append.mpr ⟨hold, pairwise_singleton _ _, fun a ha b hb => ?_⟩
        obtain rfl := mem_singleton.mp hb
        obtain ⟨x, hx, hgx⟩ := mem_filterMap.mp (mem_eraseDups.mp ha)
        obtain ⟨before, after, rfl⟩ := append_of_mem hx
        refine ⟨before, x, after ++ [z], by simp, hgx, fun y hy hgy => hnew ?_⟩
        refine mem_filterMap.mpr ⟨y, ?_, hgy⟩
        exact (mem_append.mp hy).elim (mem_append_left _) fun h => by simp_all

/-- What a filter keeps stays in order. -/
theorem idxOf_filter_lt_iff {l : List β} {p : β → Bool} {a b : β} (ha : p a = true)
    (hb : p b = true) : (l.filter p).idxOf a < (l.filter p).idxOf b ↔ l.idxOf a < l.idxOf b := by
  induction l with
  | nil => rfl
  | cons c l ih =>
    by_cases hc : p c = true
    · rw [filter_cons_of_pos hc]
      simp only [idxOf_cons, cond_eq_ite, beq_iff_eq]
      split <;> split <;> simp [ih]
    · have hca : c ≠ a := fun e => hc (e ▸ ha)
      have hcb : c ≠ b := fun e => hc (e ▸ hb)
      rw [filter_cons_of_neg hc, ih]
      simp only [idxOf_cons, cond_eq_ite, beq_iff_eq, hca, hcb, ↓reduceIte]
      omega

/-- A fold that adds what is new and not skipped collects the first occurrences. -/
theorem foldl_keepNew (skip : α → Prop) [DecidablePred skip] (g : α → β) (l : List α) :
    l.foldl (fun kept a => if skip a ∨ g a ∈ kept then kept else kept ++ [g a]) [] =
      ((l.filter fun a => ¬ skip a).map g).eraseDups := by
  induction l using reverseRecOn with
  | nil => rfl
  | append_singleton l a ih =>
    rw [foldl_append, ih, filter_append, map_append, foldl_cons, foldl_nil]
    by_cases hs : skip a
    · simp [hs]
    · rw [filter_cons_of_pos (by simpa using hs), filter_nil, map_singleton, eraseDups_concat]
      simp only [hs, false_or, mem_eraseDups]

end

/-- What a filter drops need not be there if it adds nothing. -/
theorem flatMap_filter_of_forall {α β : Type} {p : β → Bool} {g : β → List α} {l : List β}
    (h : ∀ b ∈ l, p b = false → g b = []) : (l.filter p).flatMap g = l.flatMap g := by
  induction l with
  | nil => rfl
  | cons b l ih =>
    obtain ⟨hb, hl⟩ := forall_mem_cons.mp h
    cases hp : p b with
    | false => rw [filter_cons_of_neg (by simp [hp]), ih hl, flatMap_cons, hb hp, nil_append]
    | true => rw [filter_cons_of_pos hp, flatMap_cons, flatMap_cons, ih hl]

/-! ## Folds that can fail -/

section

variable {ε α β : Type} {f : β → α → Except ε β} {b : β}

theorem foldlM_concat_eq_ok_iff {l : List α} {a : α} {c : β} :
    (l ++ [a]).foldlM f b = .ok c ↔ ∃ d, l.foldlM f b = .ok d ∧ f d a = .ok c := by
  rw [foldlM_append, Except.bind_eq_ok_iff]
  simp only [foldlM_cons, foldlM_nil, bind_pure]

/-- The error of a fold is that of the first element that fails. -/
theorem foldlM_eq_error_iff {l : List α} {e : ε} :
    l.foldlM f b = .error e ↔ ∃ before a after c, l = before ++ a :: after ∧
      before.foldlM f b = .ok c ∧ f c a = .error e := by
  constructor
  · intro h
    induction l generalizing b with
    | nil => cases h
    | cons x xs ih =>
      rw [foldlM_cons, Except.bind_eq_error_iff] at h
      rcases h with h | ⟨c, hc, h⟩
      · exact ⟨[], x, xs, b, rfl, rfl, h⟩
      · obtain ⟨before, a, after, d, rfl, hd, he⟩ := ih h
        refine ⟨x :: before, a, after, d, rfl, ?_, he⟩
        rw [foldlM_cons, hc]
        exact hd
  · rintro ⟨before, a, after, c, rfl, hc, he⟩
    rw [foldlM_append, hc]
    show (f c a >>= fun d => after.foldlM f d) = .error e
    rw [he]
    rfl

/-- What every step keeps, a fold keeps. -/
theorem foldlM_preserves {P : β → Prop} (hstep : ∀ b a c, P b → f b a = .ok c → P c) {l : List α}
    {c : β} (hb : P b) (h : l.foldlM f b = .ok c) : P c := by
  induction l generalizing b with
  | nil =>
    cases h
    exact hb
  | cons a as ih =>
    rw [foldlM_cons] at h
    obtain ⟨d, hd, h⟩ := Except.bind_eq_ok_iff.mp h
    exact ih (hstep b a d hb hd) h

/-- The results for a list are the results for its elements. -/
theorem mapM_eq_ok_iff {g : α → Except ε β} {l : List α} {bs : List β} :
    l.mapM g = .ok bs ↔ Forall₂ (fun a b => g a = .ok b) l bs := by
  induction l generalizing bs with
  | nil =>
    rw [mapM_nil, forall₂_nil_left_iff]
    exact ⟨fun h => (Except.ok.inj h).symm, fun h => h ▸ rfl⟩
  | cons a as ih =>
    simp only [mapM_cons, Except.bind_eq_ok_iff, forall₂_cons_left_iff, ← ih]
    constructor
    · rintro ⟨b, hb, bs, hbs, h⟩
      exact ⟨b, bs, hb, hbs, (Except.ok.inj h).symm⟩
    · rintro ⟨b, bs, hb, hbs, rfl⟩
      exact ⟨b, hb, bs, hbs, rfl⟩

/-- What holds of every result for an element holds of all results for a list. -/
theorem forall_of_mapM_eq_ok {g : α → Except ε β} {P : β → Prop} (hg : ∀ a b, g a = .ok b → P b)
    {l : List α} {bs : List β} (h : l.mapM g = .ok bs) : ∀ b ∈ bs, P b := by
  have hresults := mapM_eq_ok_iff.mp h
  clear h
  induction hresults with
  | nil => simp
  | cons hb _ ih => exact forall_mem_cons.mpr ⟨hg _ _ hb, ih⟩

/-- A map that undoes another one for each element undoes it for a list. -/
theorem mapM_map_eq_ok {g : β → Except ε α} {k : α → β} {l : List α}
    (h : ∀ a ∈ l, g (k a) = .ok a) : (l.map k).mapM g = .ok l :=
  mapM_eq_ok_iff.mpr (forall₂_map_left_iff.mpr (forall₂_same.mpr h))

end

end List
