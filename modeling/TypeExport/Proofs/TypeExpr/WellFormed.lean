import TypeExport.TypeExpr.Parser

/-!
# Well-formed type expressions

A type expression is well formed when its text denotes it and nothing else: names are names, a name
that stands for a primitive or for a wrapper with a meaning is not used for anything else, and
wrappers have their arguments.

* `TypeExpr.WellFormed`: the expressions that a text can denote.
* `TypeExpr.HasArity`: the expressions whose wrappers have their arguments, whatever the names.
* `TypeExpr.ofName_name`, `Wrapper.ofName_name`: the canonical names denote what they are names of.
* `TypeExpr.instantiate_name`: a well-formed generic type is what its name and arguments denote.
* `TypeExpr.instantiate_wellFormed`: whatever a name denotes with well-formed arguments is well formed.
-/

namespace TypeExport

namespace TypeExpr

/-- A name: one or more name characters. -/
def IsName (n : String) : Prop := n ≠ "" ∧ ∀ c ∈ n.toList, isNameChar c = true

/-- A type expression that a text can denote. -/
inductive WellFormed : TypeExpr → Prop where
  | primitive (p : Primitive) : WellFormed (.primitive p)
  /-- A declared type does not go by a name of a primitive. -/
  | named {n : String} (isName : IsName n) (unknown : Primitive.ofName? n = none) :
    WellFormed (.named n)
  | array {e : TypeExpr} (element : WellFormed e) : WellFormed (.array e)
  /-- A wrapper with a meaning has as many arguments as it takes. -/
  | fixed {w : Wrapper} {args : List TypeExpr} (arity : w.arity? = some args.length)
    (members : ∀ t ∈ args, WellFormed t) : WellFormed (.generic w args)
  /-- A custom generic type has an argument, and its name has no other meaning. -/
  | custom {n : String} {args : List TypeExpr} (isName : IsName n)
    (unknown : Wrapper.ofName n = .custom n) (nonempty : args ≠ [])
    (members : ∀ t ∈ args, WellFormed t) : WellFormed (.generic (.custom n) args)

/-- Every wrapper with a meaning has as many arguments as it takes. -/
inductive HasArity : TypeExpr → Prop where
  | primitive (p : Primitive) : HasArity (.primitive p)
  | named (n : String) : HasArity (.named n)
  | array {e : TypeExpr} (element : HasArity e) : HasArity (.array e)
  | generic {w : Wrapper} {args : List TypeExpr} (arity : ∀ k ∈ w.arity?, args.length = k)
    (members : ∀ t ∈ args, HasArity t) : HasArity (.generic w args)

mutual

/-- Numbers of arguments are checked part by part. -/
def decHasArity : (t : TypeExpr) → Decidable t.HasArity
  | .primitive p => isTrue (.primitive p)
  | .named n => isTrue (.named n)
  | .array e => match decHasArity e with
    | isTrue h => isTrue (.array h)
    | isFalse h => isFalse fun | .array he => h he
  | .generic w args =>
    if hw : ∀ k ∈ w.arity?, args.length = k then match decAllHaveArity args with
      | isTrue h => isTrue (.generic hw h)
      | isFalse h => isFalse fun | .generic _ hargs => h hargs
    else isFalse fun | .generic harity _ => hw harity

def decAllHaveArity : (ts : List TypeExpr) → Decidable (∀ t ∈ ts, t.HasArity)
  | [] => isTrue (by simp)
  | t :: ts => match decHasArity t, decAllHaveArity ts with
    | isTrue h, isTrue hs => isTrue (List.forall_mem_cons.mpr ⟨h, hs⟩)
    | isFalse h, _ => isFalse fun hall => h (List.forall_mem_cons.mp hall).1
    | _, isFalse hs => isFalse fun hall => hs (List.forall_mem_cons.mp hall).2

end

instance (t : TypeExpr) : Decidable t.HasArity := decHasArity t

/-- A name is checked character by character. -/
instance (n : String) : Decidable (IsName n) :=
  decidable_of_iff (n ≠ "" ∧ n.toList.all isNameChar = true) (by simp only [IsName, List.all_eq_true])

mutual

/-- So is being well formed. -/
def decWellFormed : (t : TypeExpr) → Decidable t.WellFormed
  | .primitive p => isTrue (.primitive p)
  | .named n =>
    if h : IsName n ∧ Primitive.ofName? n = none then isTrue (.named h.1 h.2)
    else isFalse fun | .named isName unknown => h ⟨isName, unknown⟩
  | .array e => match decWellFormed e with
    | isTrue h => isTrue (.array h)
    | isFalse h => isFalse fun | .array he => h he
  | .generic w args => match decAllWellFormed args with
    | isFalse h => isFalse fun
      | .fixed _ hargs => h hargs
      | .custom _ _ _ hargs => h hargs
    | isTrue h =>
      if hw : w.arity? = some args.length then isTrue (.fixed hw h)
      else match w with
        | .custom n =>
          if hn : IsName n ∧ Wrapper.ofName n = .custom n ∧ args ≠ [] then
            isTrue (.custom hn.1 hn.2.1 hn.2.2 h)
          else isFalse fun
            | .fixed arity _ => hw arity
            | .custom isName unknown nonempty _ => hn ⟨isName, unknown, nonempty⟩
        | .task | .enumerable | .collection | .nullable | .dictionary =>
          isFalse fun | .fixed arity _ => hw arity

def decAllWellFormed : (ts : List TypeExpr) → Decidable (∀ t ∈ ts, t.WellFormed)
  | [] => isTrue (by simp)
  | t :: ts => match decWellFormed t, decAllWellFormed ts with
    | isTrue h, isTrue hs => isTrue (List.forall_mem_cons.mpr ⟨h, hs⟩)
    | isFalse h, _ => isFalse fun hall => h (List.forall_mem_cons.mp hall).1
    | _, isFalse hs => isFalse fun hall => hs (List.forall_mem_cons.mp hall).2

end

instance (t : TypeExpr) : Decidable t.WellFormed := decWellFormed t

end TypeExpr

/-! ## Canonical names -/

theorem Primitive.ofName?_name (p : Primitive) : Primitive.ofName? p.name = some p := by
  cases p <;> decide

theorem Primitive.isName_name (p : Primitive) : TypeExpr.IsName p.name := by
  cases p <;> decide

/-- The name of a wrapper with a meaning denotes it. -/
theorem Wrapper.ofName_name {w : Wrapper} {k : Nat} (h : w.arity? = some k) :
    Wrapper.ofName w.name = w := by
  cases w with
  | custom n => cases h
  | task | enumerable | collection | nullable | dictionary => decide

theorem Wrapper.isName_name {w : Wrapper} {k : Nat} (h : w.arity? = some k) :
    TypeExpr.IsName w.name := by
  cases w with
  | custom n => cases h
  | task | enumerable | collection | nullable | dictionary => decide

theorem Wrapper.arity?_ne_zero {w : Wrapper} : w.arity? ≠ some 0 := by
  cases w <;> simp [Wrapper.arity?]

/-- A name denotes a wrapper with a meaning, or the custom wrapper of that very name. -/
theorem Wrapper.ofName_cases (n : String) :
    (∃ k, (Wrapper.ofName n).arity? = some k) ∨ Wrapper.ofName n = .custom n := by
  unfold Wrapper.ofName
  split
  · next s hs =>
    have hmem := List.mem_of_find?_eq_some hs
    left
    revert hmem
    simp only [Wrapper.spellings, List.mem_cons, List.not_mem_nil, or_false]
    rintro (rfl | rfl | rfl | rfl | rfl) <;> exact ⟨_, rfl⟩
  · exact Or.inr rfl

namespace TypeExpr

theorem ofName_name (p : Primitive) : ofName p.name = .primitive p := by
  simp [ofName, Primitive.ofName?_name]

theorem ofName_of_unknown {n : String} (h : Primitive.ofName? n = none) : ofName n = .named n := by
  simp [ofName, h]

theorem ofName_wellFormed {n : String} (h : IsName n) : (ofName n).WellFormed := by
  unfold ofName
  split
  · exact .primitive _
  · next hu => exact .named h hu

/-- The form for an absent value keeps an expression well formed. -/
theorem optional_wellFormed {t : TypeExpr} (h : t.WellFormed) : t.optional.WellFormed := by
  cases h with
  | primitive p =>
    simp only [optional]
    split
    · exact .fixed rfl (by simp [WellFormed.primitive])
    · exact .primitive p
  | named hn hu => exact .named hn hu
  | array he => exact .array he
  | fixed harity hm => exact .fixed harity hm
  | custom hn hu hne hm => exact .custom hn hu hne hm

/-! ## Generic types -/

/-- A wrapper with a meaning is denoted by its name and as many arguments as it takes. -/
theorem instantiate_name {w : Wrapper} {args : List TypeExpr} (h : w.arity? = some args.length) :
    instantiate w.name args = .ok (.generic w args) := by
  simp [instantiate, Wrapper.ofName_name h, h]

theorem instantiate_custom {n : String} {args : List TypeExpr}
    (h : Wrapper.ofName n = .custom n) :
    instantiate n args = .ok (.generic (.custom n) args) := by
  simp [instantiate, h, Wrapper.arity?]

theorem instantiate_wellFormed {n : String} {args : List TypeExpr} {t : TypeExpr} (hn : IsName n)
    (hne : args ≠ []) (hargs : ∀ a ∈ args, a.WellFormed) (h : instantiate n args = .ok t) :
    t.WellFormed := by
  rcases Wrapper.ofName_cases n with ⟨k, hk⟩ | hc
  · simp only [instantiate, hk] at h
    split at h
    · next hlen =>
      cases h
      exact .fixed (by rw [hk, hlen]) hargs
    · cases h
  · rw [instantiate_custom hc] at h
    cases h
    exact .custom hn hc hne hargs

end TypeExpr

end TypeExport
