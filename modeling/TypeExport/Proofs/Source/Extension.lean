import Mathlib.Tactic.GCongr
import TypeExport.Proofs.Source.Lookahead

/-!
# Rules that read as much before a boundary

`Rule.Extends tail r r'`: what `r` reads, leaving the rest, `r'` reads with `tail` after the tokens,
leaving the rest with `tail` after it. So `Extends [] r r'` says that `r'` reads all that `r` reads, and
`Extends tail r r` that `r` does not see whether the tokens end or `tail` comes.

Every way of putting rules together keeps the relation, so `gcongr` takes a rule apart into its parts. The
simp lemmas are for what is left: single tokens, and what is looked for ahead.
-/

namespace TypeExport.Source.Rule

variable {α β : Type} {tail : List Token}

/-! ## What rules read -/

theorem pure_apply (a : α) (ts : List Token) : (pure a : Rule α) ts = some (a, ts) :=
  rfl

theorem bind_eq_some_iff {r : Rule α} {k : α → Rule β} {ts rest : List Token} {b : β} :
    (r >>= k) ts = some (b, rest) ↔ ∃ a left, r ts = some (a, left) ∧ k a left = some (b, rest) := by
  simp [bind, StateT.bind, Option.bind_eq_some_iff]

theorem bind_of_some {r : Rule α} {ts left : List Token} {a : α} (h : r ts = some (a, left))
    (k : α → Rule β) : (r >>= k) ts = k a left := by
  simp [bind, StateT.bind, h]

theorem bind_of_none {r : Rule α} {ts : List Token} (h : r ts = none) (k : α → Rule β) :
    (r >>= k) ts = none := by
  simp [bind, StateT.bind, h]

theorem get_bind (k : List Token → Rule α) (ts : List Token) : (get >>= k) ts = k ts ts :=
  rfl

theorem set_bind (left : List Token) (k : PUnit → Rule α) (ts : List Token) :
    (set left >>= k) ts = k () left :=
  rfl

theorem sees_bind (p : List Token → Bool) (k : Bool → Rule α) (ts : List Token) :
    (sees p >>= k) ts = k (p ts) ts :=
  rfl

@[simp] theorem discard_eq_none_iff {r : Rule α} {ts : List Token} :
    discard r ts = none ↔ r ts = none := by
  rw [Functor.discard, map_const, Function.comp_apply, map_eq_pure_bind]
  cases h : r ts with
  | none => simp [bind_of_none h]
  | some found => simp [bind_of_some h, pure_apply]

theorem discard_eq_some_iff {r : Rule α} {ts rest : List Token} {u : Unit} :
    discard r ts = some (u, rest) ↔ ∃ a, r ts = some (a, rest) := by
  rw [Functor.discard, map_const, Function.comp_apply, map_eq_pure_bind, bind_eq_some_iff]
  simp [pure_apply]

theorem name_eq_some_iff {ts rest : List Token} {n : String} :
    name ts = some (n, rest) ↔ isName ts = true ∧ ts = .word n :: rest := by
  rcases ts with _ | ⟨_ | _ | _ | _ | _, _⟩ <;> simp [name, anyWord, isName]

theorem word_eq_some_iff {ts rest : List Token} {w : String} {u : Unit} :
    word w ts = some (u, rest) ↔ ts = .word w :: rest := by
  rcases ts with _ | ⟨_ | _ | _ | _ | _, _⟩ <;> simp [word]

/-- A mark of one character. -/
theorem mark_eq_some_iff {s : String} {c : Char} (hs : s.toList = [c]) {ts rest : List Token} {u : Unit} :
    mark s ts = some (u, rest) ↔ ∃ joint, ts = .mark c joint :: rest := by
  rw [mark, hs]
  rcases ts with _ | ⟨_ | _ | ⟨d, _⟩ | _ | _, _⟩
  case cons.mark => by_cases h : c = d <;> simp [marks, pure_apply, h, Ne.symm]
  all_goals simp [marks]

theorem mark_mark {s : String} {c : Char} (hs : s.toList = [c]) (joint : Bool) (ts : List Token) :
    mark s (.mark c joint :: ts) = some ((), ts) :=
  (mark_eq_some_iff hs).mpr ⟨joint, rfl⟩

theorem whenever_of_not {p : List Token → Bool} {ts : List Token} (h : p ts = false) (r : Rule α) :
    whenever p r ts = some (none, ts) := by
  rw [whenever, sees_bind, h]
  rfl

theorem whenever_of {p : List Token → Bool} {r : Rule α} {ts rest : List Token} {a : α}
    (hp : p ts = true) (h : r ts = some (a, rest)) : whenever p r ts = some (some a, rest) := by
  rw [whenever, sees_bind, hp]
  exact bind_of_some h _

theorem cases_whenever {p : List Token → Bool} {r : Rule α} {ts rest : List Token} {a? : Option α}
    (h : whenever p r ts = some (a?, rest)) :
    p ts = false ∧ a? = none ∨ p ts = true ∧ ∃ a, a? = some a ∧ r ts = some (a, rest) := by
  rw [whenever, sees_bind] at h
  cases hp : p ts <;> rw [hp] at h
  · cases h
    exact .inl ⟨rfl, rfl⟩
  · obtain ⟨a, _, hr, ⟨⟩⟩ := bind_eq_some_iff.mp h
    exact .inr ⟨rfl, a, rfl, hr⟩

theorem optionalMark_of_not {s : String} {ts : List Token} (h : isMark s ts = false) :
    optionalMark s ts = some (false, ts) :=
  bind_of_some (whenever_of_not h _) _

theorem optionalMark_of {s : String} {ts rest : List Token} {u : Unit} (hs : isMark s ts = true)
    (h : mark s ts = some (u, rest)) : optionalMark s ts = some (true, rest) :=
  bind_of_some (whenever_of hs h) _

theorem cases_optionalMark {s : String} {ts rest : List Token} {b : Bool}
    (h : optionalMark s ts = some (b, rest)) :
    isMark s ts = false ∧ b = false ∨ isMark s ts = true ∧ b = true ∧ mark s ts = some ((), rest) := by
  obtain ⟨_, _, h, ⟨⟩⟩ := bind_eq_some_iff.mp h
  obtain ⟨hs, rfl⟩ | ⟨hs, _, rfl, hr⟩ := cases_whenever h
  · exact .inl ⟨hs, rfl⟩
  · exact .inr ⟨hs, rfl, hr⟩

theorem optionalWord_of_not {w : String} {ts : List Token} (h : isWord w ts = false) :
    optionalWord w ts = some (false, ts) :=
  bind_of_some (whenever_of_not h _) _

theorem optionalWord_word (w : String) (ts : List Token) :
    optionalWord w (.word w :: ts) = some (true, ts) :=
  bind_of_some (whenever_of (a := ()) (by simp [isWord]) (word_eq_some_iff.mpr rfl)) _

theorem eq_word_of_isWord {w : String} {ts : List Token} (h : isWord w ts = true) :
    ∃ rest, ts = .word w :: rest := by
  rcases ts with _ | ⟨n | _ | _ | _ | _, ts⟩ <;> try cases h
  cases beq_iff_eq.mp (h : (n == w) = true)
  exact ⟨ts, rfl⟩

/-! ## Reading more -/

/-- What `r` reads, `r'` reads too with `tail` after the tokens. -/
def Extends (tail : List Token) (r r' : Rule α) : Prop :=
  ∀ ts a rest, r ts = some (a, rest) → r' (ts ++ tail) = some (a, rest ++ tail)

namespace Extends

variable {r r' : Rule α}

@[simp, refl] theorem refl (r : Rule α) : Extends [] r r := by
  intro ts a rest h
  simpa using h

/-! ## Sequences and choices -/

@[simp] theorem pure (a : α) : Extends tail (pure a) (pure a) := by
  rintro ts _ _ ⟨⟩
  rfl

@[simp] theorem fail (r : Rule α) : Extends tail fail r := nofun

@[gcongr] theorem bind {k k' : α → Rule β} (hr : Extends tail r r') (hk : ∀ a, Extends tail (k a) (k' a)) :
    Extends tail (r >>= k) (r' >>= k') := by
  intro ts b rest h
  obtain ⟨a, left, h₁, h₂⟩ := bind_eq_some_iff.mp h
  exact bind_eq_some_iff.mpr ⟨a, _, hr _ _ _ h₁, hk _ _ _ _ h₂⟩

/-- What goes on with the tokens that are left must look at them for something that does not see
`tail`. -/
@[gcongr high] theorem get_bind {k k' : List Token → Rule α} (hk : ∀ ts, Extends tail (k ts) (k' ts))
    (ht : ∀ ts, k' (ts ++ tail) = k' ts) : Extends tail (get >>= k) (get >>= k') := by
  intro ts a rest h
  have := hk ts ts a rest h
  rw [← ht] at this
  exact this

@[gcongr] theorem ite {p : Prop} [Decidable p] {r₁ r₁' r₂ r₂' : Rule α} (h₁ : Extends tail r₁ r₁')
    (h₂ : Extends tail r₂ r₂') : Extends tail (if p then r₁ else r₂) (if p then r₁' else r₂') := by
  split
  · exact h₁
  · exact h₂

@[gcongr] theorem map (f : α → β) (hr : Extends tail r r') : Extends tail (f <$> r) (f <$> r') := by
  rw [map_eq_pure_bind, map_eq_pure_bind]
  gcongr
  exact pure _

@[gcongr] theorem discard (hr : Extends tail r r') : Extends tail (discard r) (discard r') := by
  rw [Functor.discard, map_const, Function.comp_apply]
  exact .map _ hr

@[simp] theorem sees {p : List Token → Bool} (hp : ∀ ts, p (ts ++ tail) = p ts) :
    Extends tail (sees p) (sees p) := by
  unfold Rule.sees
  gcongr <;> simp [hp]

@[gcongr] theorem whenever {p : List Token → Bool} (hr : Extends tail r r')
    (hp : ∀ ts, p (ts ++ tail) = p ts) : Extends tail (whenever p r) (whenever p r') := by
  unfold Rule.whenever
  gcongr <;> simp [hp]

/-! ## Tokens -/

theorem marks (cs : List Char) : Extends tail (marks cs) (marks cs) := by
  induction cs with
  | nil => exact pure ()
  | cons c cs ih =>
    intro ts _ rest h
    match ts with
    | .mark d joint :: ts =>
      simp only [Rule.marks] at h
      split at h
      next hd =>
        simpa only [List.cons_append, Rule.marks, if_pos hd] using ih ts () rest h
      next => cases h

@[simp] theorem mark (s : String) : Extends tail (mark s) (mark s) := marks _

@[simp] theorem word (w : String) : Extends tail (word w) (word w) := by
  rintro (_ | ⟨_ | _ | _ | _ | _, ts⟩) _ rest h <;> try cases h
  simp only [Rule.word] at h
  split at h <;> cases h
  simp_all [Rule.word]

@[simp] theorem anyWord : Extends tail anyWord anyWord := by
  rintro (_ | ⟨_ | _ | _ | _ | _, ts⟩) _ rest h <;> cases h
  rfl

@[simp] theorem lifetime : Extends tail lifetime lifetime := by
  rintro (_ | ⟨_ | _ | _ | _ | _, ts⟩) _ rest h <;> cases h
  rfl

@[simp] theorem anyGroup : Extends tail anyGroup anyGroup := by
  rintro (_ | ⟨_ | _ | _ | _ | _, ts⟩) _ rest h <;> cases h
  rfl

@[simp] theorem name : Extends tail name name := by
  rintro (_ | ⟨_ | _ | _ | _ | _, ts⟩) _ rest h <;> try cases h
  simp only [Rule.name] at h
  split at h <;> cases h
  next hn => exact if_pos hn

@[simp] theorem textLiteral : Extends tail textLiteral textLiteral := by
  rintro (_ | ⟨_ | _ | _ | ⟨_ | _ | _ | _⟩ | _, ts⟩) _ rest h <;> cases h
  rfl

@[simp] theorem literal [Boundary tail] : Extends tail literal literal := by
  intro ts _ rest h
  have hl : isLiteral (ts ++ tail) = isLiteral ts := isLiteral_append ts
  match ts with
  | .literal _ :: _ =>
    cases h
    rfl
  | .mark _ _ :: _ :: _ | .word _ :: _ =>
    simp only [Rule.literal] at h
    split at h <;> cases h
    simp_all [Rule.literal]

@[gcongr] theorem group (d : Delimiter) (hr : Extends [] r r') :
    Extends tail (group d r) (group d r') := by
  rintro (_ | ⟨_ | _ | _ | _ | ⟨d', inner⟩, ts⟩) a rest h <;> try cases h
  simp only [Rule.group] at h
  split at h
  next hd =>
    split at h <;> cases h
    next hi =>
      have := hr _ _ _ hi
      simp_all [Rule.group]
  next => cases h

/-! ## Marks and words that may be missing -/

@[simp] theorem optionalMark {s : String} (hs : ∀ ts, isMark s (ts ++ tail) = isMark s ts) :
    Extends tail (optionalMark s) (optionalMark s) := by
  unfold Rule.optionalMark
  gcongr <;> simp [hs]

@[simp] theorem optionalWord [Boundary tail] (w : String) :
    Extends tail (optionalWord w) (optionalWord w) := by
  unfold Rule.optionalWord
  gcongr <;> simp

/-! ## Repetitions -/

theorem repeatUpTo {round round' : Rule (Option α)} (hr : Extends tail round round') {n m : Nat}
    (h : n ≤ m) : Extends tail (repeatUpTo round n) (repeatUpTo round' m) := by
  induction n generalizing m with
  | zero => exact fail _
  | succ n ih =>
    obtain ⟨m, rfl⟩ := Nat.exists_eq_add_one_of_ne_zero (Nat.ne_zero_of_lt h)
    refine .bind hr fun a? => ?_
    cases a? with
    | none => exact pure _
    | some => exact .bind (ih (Nat.le_of_succ_le_succ h)) fun _ => pure _

/-- Repetitions have as many rounds as there are tokens, so they have no fewer with more tokens. -/
theorem of_length {r r' : Nat → Rule α} (h : ∀ n m, n ≤ m → Extends tail (r n) (r' m)) :
    Extends tail (fun ts => r (ts.length + 1) ts) (fun ts => r' (ts.length + 1) ts) := by
  intro ts a rest hr
  exact h _ _ (by simp) ts a rest hr

@[gcongr] theorem manyWhile {p : List Token → Bool} (hr : Extends tail r r')
    (hp : ∀ ts, p (ts ++ tail) = p ts) : Extends tail (manyWhile p r) (manyWhile p r') :=
  of_length fun _ _ => repeatUpTo (.whenever hr hp)

@[gcongr] theorem many (hr : Extends [] r r') : Extends [] (many r) (many r') := by
  unfold Rule.many
  gcongr
  simp

theorem separatedUpTo {stop : List Token → Bool} {separator : Rule Unit} (hr : Extends tail r r')
    (hs : ∀ ts, stop (ts ++ tail) = stop ts) (hsep : Extends tail separator separator) {n m : Nat}
    (h : n ≤ m) : Extends tail (separatedUpTo stop separator r n) (separatedUpTo stop separator r' m) := by
  induction n generalizing m with
  | zero => exact fail _
  | succ n ih =>
    obtain ⟨m, rfl⟩ := Nat.exists_eq_add_one_of_ne_zero (Nat.ne_zero_of_lt h)
    have ih := ih (Nat.le_of_succ_le_succ h)
    simp only [Rule.separatedUpTo]
    gcongr <;> simp [hs]

@[gcongr] theorem separated {stop : List Token → Bool} {separator : Rule Unit} (hr : Extends tail r r')
    (hs : ∀ ts, stop (ts ++ tail) = stop ts) (hsep : Extends tail separator separator) :
    Extends tail (separated stop separator r) (separated stop separator r') :=
  of_length fun _ _ => separatedUpTo hr hs hsep

@[gcongr] theorem commaList (hr : Extends [] r r') : Extends [] (commaList r) (commaList r') := by
  unfold Rule.commaList
  gcongr <;> simp

/-- Where the property at which items end does see `tail`, no item may begin. -/
theorem joinedUpTo {stop : List Token → Bool} {joint : String} (hr : Extends tail r r')
    (hs : ∀ ts, stop (ts ++ tail) = stop ts ∨ stop ts = false ∧ r ts = none)
    (hj : ∀ ts, isMark joint (ts ++ tail) = isMark joint ts) {n m : Nat} (h : n ≤ m) :
    Extends tail (joinedUpTo stop joint r n) (joinedUpTo stop joint r' m) := by
  induction n generalizing m with
  | zero => exact fail _
  | succ n ih =>
    obtain ⟨m, rfl⟩ := Nat.exists_eq_add_one_of_ne_zero (Nat.ne_zero_of_lt h)
    have ih := ih (Nat.le_of_succ_le_succ h)
    simp only [Rule.joinedUpTo]
    intro ts as rest h
    rw [sees_bind] at h ⊢
    obtain heq | ⟨hstop, hitem⟩ := hs ts
    · rw [heq]
      refine (?_ : Extends _ _ _) ts as rest h
      gcongr <;> simp [hj]
    · rw [hstop, if_neg Bool.false_ne_true, bind_eq_some_iff, hitem] at h
      obtain ⟨_, _, ⟨⟩, _⟩ := h

@[gcongr] theorem joined {stop : List Token → Bool} {joint : String} (hr : Extends tail r r')
    (hs : ∀ ts, stop (ts ++ tail) = stop ts ∨ stop ts = false ∧ r ts = none)
    (hj : ∀ ts, isMark joint (ts ++ tail) = isMark joint ts) :
    Extends tail (joined stop joint r) (joined stop joint r') :=
  of_length fun _ _ => joinedUpTo hr hs hj

theorem iterateUpTo {step step' : α → Rule (Option α)} (hr : ∀ a, Extends tail (step a) (step' a))
    {n m : Nat} (h : n ≤ m) (a : α) : Extends tail (iterateUpTo step n a) (iterateUpTo step' m a) := by
  induction n generalizing m a with
  | zero => exact fail _
  | succ n ih =>
    obtain ⟨m, rfl⟩ := Nat.exists_eq_add_one_of_ne_zero (Nat.ne_zero_of_lt h)
    refine .bind (hr a) fun b? => ?_
    cases b? with
    | none => exact pure _
    | some b => exact ih (Nat.le_of_succ_le_succ h) b

@[gcongr] theorem iterate {step step' : α → Rule (Option α)} (hr : ∀ a, Extends tail (step a) (step' a))
    (a : α) : Extends tail (iterate step a) (iterate step' a) :=
  of_length fun _ _ h => iterateUpTo hr h a

@[gcongr] theorem forIn {step step' : β → α → Rule (ForInStep α)}
    (hr : ∀ b a, Extends tail (step b a) (step' b a)) (bs : List β) (a : α) :
    Extends tail (forIn bs a step) (forIn bs a step') := by
  induction bs generalizing a with
  | nil => exact pure a
  | cons b bs ih =>
    simp only [List.forIn_cons]
    refine .bind (hr b a) fun next => ?_
    cases next with
    | done => exact pure _
    | yield a => exact ih a

/-! ## Attempts -/

/-- What only `r'` reads must be nothing that `k` reads. -/
theorem attempt_or {s k k' : Rule β} (hr : Extends [] r r') (hk : Extends [] k k')
    (hnone : ∀ ts, r ts = none → r' ts ≠ none → k ts = none) :
    Extends [] (attempt r >>= fun a? => if a?.isSome then s else k)
      (attempt r' >>= fun a? => if a?.isSome then s else k') := by
  intro ts b rest h
  obtain ⟨a?, left, ha, h⟩ := bind_eq_some_iff.mp h
  rw [attempt] at ha
  cases hra : r ts with
  | some found =>
    rw [hra] at ha
    cases ha
    refine bind_eq_some_iff.mpr ⟨some found.1, found.2 ++ [], ?_, by simpa using h⟩
    rw [attempt, hr _ _ _ hra]
  | none =>
    rw [hra] at ha
    cases ha
    cases hr'a : r' ts with
    | some => cases (hnone ts hra (by simp [hr'a])).symm.trans h
    | none =>
      refine bind_eq_some_iff.mpr ⟨none, ts ++ [], ?_, hk _ _ _ h⟩
      rw [List.append_nil, attempt, hr'a]

/-! ## The last token -/

@[gcongr] theorem endsWith (d : Delimiter) (hr : Extends [] r r') :
    Extends [] (endsWith d r) (endsWith d r') := by
  intro ts a rest h
  obtain ⟨⟨b, left⟩, h₁, h₂⟩ := Option.bind_eq_some_iff.mp h
  have := hr _ _ _ h₁
  simp_all [Rule.endsWith]

end Extends

end TypeExport.Source.Rule
