import TypeExport.Proofs.Output.TypeReading
import TypeExport.Proofs.TypeExpr.Arguments
import TypeExport.Source.TypeExpr

/-!
# Type expressions for types in source files

A source file can use a name with any number of arguments, so a wrapper with a meaning can be given too
few or too many. Its name then becomes that of a custom generic type. Apart from this, and from the
characters of names, the type expressions for types are those that a text can denote.

* `Source.FromType`: the form of type expressions for types (`Source.fromType_toExpr`).
* `Source.FromType.saturated`: all wrappers in them have their arguments.
* `Source.FromType.wellFormed_iff`: when a text denotes them.
* `Source.TypeSyntax.Fits`: all wrappers in a type are given as many types as they take.
* `Source.TypeSyntax.unambiguous_toExpr_iff`: then, and only then, no name changes its meaning.
-/

namespace TypeExport.Source

open TypeExpr

/-! ## The form of expressions for types -/

/-- The form of type expressions for types. A custom generic type has another number of arguments than
a wrapper of its name would take. -/
inductive FromType : TypeExpr → Prop where
  | primitive (p : Primitive) : FromType (.primitive p)
  | named {n : String} (unknown : Primitive.ofName? n = none) : FromType (.named n)
  | array {e : TypeExpr} (element : FromType e) : FromType (.array e)
  | fixed {w : Wrapper} {args : List TypeExpr} (arity : w.arity? = some args.length)
    (members : ∀ t ∈ args, FromType t) : FromType (.generic w args)
  | custom {n : String} {args : List TypeExpr} (nonempty : args ≠ [])
    (misfit : (Wrapper.ofName n).arity? ≠ some args.length) (members : ∀ t ∈ args, FromType t) :
    FromType (.generic (.custom n) args)

theorem fromType_optional {t : TypeExpr} (h : FromType t) : FromType t.optional := by
  cases h with
  | primitive p =>
    rw [TypeExpr.optional]
    split
    · exact .fixed rfl (by simp [FromType.primitive])
    · exact .primitive p
  | named unknown => exact .named unknown
  | array element => exact .array element
  | fixed arity members => exact .fixed arity members
  | custom nonempty misfit members => exact .custom nonempty misfit members

theorem fromType_exprOfName (name : String) : FromType (exprOfName name) := by
  unfold exprOfName
  split
  · exact .primitive .object
  · split
    · next p _ => exact .primitive p
    · next unknown => exact .named unknown

/-- A name fits arguments if it denotes a wrapper that takes as many, or a custom one. -/
def FitsCount (name : String) (args : List TypeExpr) : Prop :=
  ∀ k ∈ (Wrapper.ofName name).arity?, args.length = k

/-- With fitting arguments a name keeps its meaning. -/
theorem exprOfGeneric_of_fits {name : String} {args : List TypeExpr} (h : FitsCount name args) :
    exprOfGeneric name args = .generic (Wrapper.ofName name) args := by
  unfold exprOfGeneric
  rw [if_pos]
  cases hk : (Wrapper.ofName name).arity? with
  | none => rfl
  | some k => simp [h k hk]

/-- With other arguments it is the name of a custom generic type. -/
theorem exprOfGeneric_of_not_fits {name : String} {args : List TypeExpr}
    (h : ¬ FitsCount name args) : exprOfGeneric name args = .generic (.custom name) args := by
  unfold exprOfGeneric
  rw [if_neg]
  intro hall
  refine h fun k hk => ?_
  rw [Option.mem_def] at hk
  rw [hk] at hall
  have hlength : k = args.length := by simpa using hall
  exact hlength.symm

theorem fromType_exprOfGeneric {name : String} {args : List TypeExpr} (hne : args ≠ [])
    (hargs : ∀ t ∈ args, FromType t) : FromType (exprOfGeneric name args) := by
  by_cases h : FitsCount name args
  · rw [exprOfGeneric_of_fits h]
    rcases Wrapper.ofName_cases name with ⟨k, hk⟩ | hcustom
    · exact .fixed (by rw [hk, h k hk]) hargs
    · rw [hcustom]
      exact .custom hne (by simp [hcustom, Wrapper.arity?]) hargs
  · rw [exprOfGeneric_of_not_fits h]
    refine .custom hne (fun hk => h fun k hk' => ?_) hargs
    exact Option.some.inj (hk.symm.trans hk')

theorem fromType_exprOf (name : String) {args : List TypeExpr}
    (hargs : ∀ t ∈ args, FromType t) : FromType (exprOf name args) := by
  unfold exprOf
  split
  · exact .primitive .dateTimeOffset
  · split
    · exact fromType_exprOfName name
    · next t =>
      have ht : FromType t := hargs t (by simp)
      split
      · exact fromType_optional ht
      · split
        · exact ht
        · exact fromType_exprOfGeneric (by simp) hargs
    · next hne _ => exact fromType_exprOfGeneric hne hargs

mutual

/-- The type expressions for types are of that form. -/
theorem fromType_toExpr : (t : TypeSyntax) → FromType t.toExpr
  | .reference t => fromType_toExpr t
  | .parens t => fromType_toExpr t
  | .array t => .array (fromType_toExpr t)
  | .slice t => .array (fromType_toExpr t)
  | .tuple [] => .primitive .void
  | .tuple (_ :: _) => .primitive .object
  | .path _ _ segments => fromType_lastExpr segments
  | .bound => .primitive .object
  | .other => .primitive .object

theorem fromType_lastExpr : (segments : List Segment) → FromType (lastExpr segments)
  | [] => .primitive .object
  | [s] => fromType_segment s
  | _ :: s :: ss => fromType_lastExpr (s :: ss)

theorem fromType_segment : (s : Segment) → FromType s.toExpr
  | .mk name args => fromType_exprOf name (fromType_arguments args)

theorem fromType_arguments : (args : List Argument) → ∀ t ∈ argumentExprs args, FromType t
  | [] => by simp [argumentExprs]
  | .type t :: as =>
    List.forall_mem_cons.mpr ⟨fromType_toExpr t, fromType_arguments as⟩
  | .lifetime _ :: as => fromType_arguments as
  | .other :: as => fromType_arguments as

end

theorem FromType.saturated {t : TypeExpr} (h : FromType t) : t.Saturated := by
  induction h with
  | primitive p => exact everyGeneric_primitive p
  | named => exact everyGeneric_named _
  | array _ ih => exact everyGeneric_array_iff.mpr ih
  | fixed arity _ ih => exact everyGeneric_generic_iff.mpr ⟨filled_of_arity arity, ih⟩
  | custom nonempty _ _ ih => exact everyGeneric_generic_iff.mpr ⟨filled_custom nonempty, ih⟩

/-! ## Expressions that a text denotes -/

/-- All names of declared types and custom generic types are names for texts. -/
def Spelled (t : TypeExpr) : Prop := ∀ n ∈ t.names, IsName n

theorem spelled_of_wellFormed {t : TypeExpr} (h : t.WellFormed) : Spelled t := by
  unfold Spelled
  induction h with
  | primitive => simp [names]
  | named isName _ => simpa [names] using isName
  | array _ ih => exact ih
  | @fixed w args arity _ ih =>
    have hargs : ∀ n ∈ namesList args, IsName n := fun n hn => by
      obtain ⟨a, ha, hn⟩ := mem_namesList.mp hn
      exact ih a ha n hn
    cases w with
    | custom => cases arity
    | task | enumerable | collection | nullable | dictionary => exact hargs
  | custom isName _ _ _ ih =>
    refine List.forall_mem_cons.mpr ⟨isName, fun n hn => ?_⟩
    obtain ⟨a, ha, hn⟩ := mem_namesList.mp hn
    exact ih a ha n hn

/-- An expression for a type is denoted by a text exactly if its names are names for texts, and no name has
changed its meaning. -/
theorem FromType.wellFormed_iff {t : TypeExpr} (h : FromType t) :
    t.WellFormed ↔ Spelled t ∧ t.Unambiguous := by
  refine ⟨fun hwell => ⟨spelled_of_wellFormed hwell, hwell.unambiguous⟩, ?_⟩
  rintro ⟨hnames, hmeaning⟩
  induction h with
  | primitive p => exact .primitive p
  | named unknown => exact .named (hnames _ (by simp [names])) unknown
  | array _ ih => exact .array (ih hnames (everyGeneric_array_iff.mp hmeaning))
  | fixed arity _ ih =>
    have hargs := (everyGeneric_generic_iff.mp hmeaning).2
    exact .fixed arity fun t ht =>
      ih t ht (fun n hn => hnames n (mem_names_generic ht hn)) (hargs t ht)
  | @custom n args nonempty _ _ ih =>
    obtain ⟨hself, hargs⟩ := everyGeneric_generic_iff.mp hmeaning
    refine .custom (hnames n (by simp [names])) (hself n rfl) nonempty fun t ht => ?_
    exact ih t ht (fun n hn => hnames n (mem_names_generic ht hn)) (hargs t ht)

/-! ## Types whose wrappers fit -/

mutual

/-- Every wrapper with a meaning in the type is given as many types as it takes. The arguments of a type
for points in time do not count, nor does what stands before the last part of a path. -/
def TypeSyntax.Fits : TypeSyntax → Prop
  | .reference t => t.Fits
  | .parens t => t.Fits
  | .array t => t.Fits
  | .slice t => t.Fits
  | .path _ _ segments => LastFits segments
  | .tuple _ => True
  | .bound => True
  | .other => True

def LastFits : List Segment → Prop
  | [] => True
  | [s] => s.Fits
  | _ :: s :: ss => LastFits (s :: ss)

def Segment.Fits : Segment → Prop
  | .mk name args => name ∈ timeNames ∨
      (argumentExprs args = [] ∨ FitsCount name (argumentExprs args)) ∧ ArgumentsFit args

def ArgumentsFit : List Argument → Prop
  | [] => True
  | .type t :: as => t.Fits ∧ ArgumentsFit as
  | .lifetime _ :: as => ArgumentsFit as
  | .other :: as => ArgumentsFit as

end

theorem unambiguous_optional_iff {t : TypeExpr} : t.optional.Unambiguous ↔ t.Unambiguous := by
  cases t with
  | primitive p =>
    refine iff_of_true ?_ (everyGeneric_primitive p)
    rw [TypeExpr.optional]
    split
    · exact everyGeneric_generic_iff.mpr ⟨by simp, by simpa using everyGeneric_primitive p⟩
    · exact everyGeneric_primitive p
  | named | array | generic => rfl

theorem unambiguous_exprOfName (name : String) : (exprOfName name).Unambiguous := by
  unfold exprOfName
  split
  · exact everyGeneric_primitive _
  · split
    · exact everyGeneric_primitive _
    · exact everyGeneric_named _

/-- A generic type keeps its meaning exactly if its name fits the arguments. -/
theorem unambiguous_exprOfGeneric_iff {name : String} {args : List TypeExpr} :
    (exprOfGeneric name args).Unambiguous ↔
      FitsCount name args ∧ ∀ t ∈ args, t.Unambiguous := by
  by_cases h : FitsCount name args
  · rw [exprOfGeneric_of_fits h, Unambiguous, everyGeneric_generic_iff]
    refine and_congr_left' (iff_of_true (fun n hn => ?_) h)
    rcases Wrapper.ofName_cases name with ⟨k, hk⟩ | hcustom
    · rw [hn] at hk
      cases hk
    · obtain rfl : name = n := Wrapper.custom.inj (hcustom.symm.trans hn)
      exact hcustom
  · rw [exprOfGeneric_of_not_fits h, Unambiguous, everyGeneric_generic_iff]
    refine iff_of_false (fun hmeaning => h fun k hk => ?_) (fun hfits => h hfits.1)
    rw [hmeaning.1 name rfl] at hk
    cases hk

/-- The names that leave their only argument as it is fit one argument. -/
theorem fitsCount_one {name : String} (h : name = "Option" ∨ ownerNames.contains name = true)
    (t : TypeExpr) : FitsCount name [t] := by
  have hall : ∀ n ∈ "Option" :: ownerNames, ∀ k ∈ (Wrapper.ofName n).arity?, 1 = k := by
    decide +kernel
  refine hall name (List.mem_cons.mpr (h.imp_right fun h => ?_))
  simpa using h

theorem unambiguous_exprOf_iff {name : String} {args : List TypeExpr} :
    (exprOf name args).Unambiguous ↔ name ∈ timeNames ∨
      (args = [] ∨ FitsCount name args) ∧ ∀ t ∈ args, t.Unambiguous := by
  unfold exprOf
  split
  · next h => exact iff_of_true (everyGeneric_primitive _) (.inl (by simpa using h))
  · next htime =>
    have htime : name ∉ timeNames := by simpa using htime
    simp only [htime, false_or]
    split
    · simpa using unambiguous_exprOfName name
    · next t =>
      split
      · next h =>
        have hfits := fitsCount_one (.inl (by simpa using h)) t
        simp [unambiguous_optional_iff, hfits]
      · split
        · next h => simp [fitsCount_one (.inr h) t]
        · simp [unambiguous_exprOfGeneric_iff]
    · next hne _ =>
      rw [unambiguous_exprOfGeneric_iff]
      exact and_congr_left' (or_iff_right hne).symm

mutual

/-- No name in the expression for a type has changed its meaning exactly if all wrappers in the type are
given as many types as they take. -/
theorem TypeSyntax.unambiguous_toExpr_iff : (t : TypeSyntax) → (t.toExpr.Unambiguous ↔ t.Fits)
  | .reference t => TypeSyntax.unambiguous_toExpr_iff t
  | .parens t => TypeSyntax.unambiguous_toExpr_iff t
  | .array t => everyGeneric_array_iff.trans (TypeSyntax.unambiguous_toExpr_iff t)
  | .slice t => everyGeneric_array_iff.trans (TypeSyntax.unambiguous_toExpr_iff t)
  | .tuple [] => iff_of_true (everyGeneric_primitive _) trivial
  | .tuple (_ :: _) => iff_of_true (everyGeneric_primitive _) trivial
  | .path _ _ segments => unambiguous_lastExpr_iff segments
  | .bound => iff_of_true (everyGeneric_primitive _) trivial
  | .other => iff_of_true (everyGeneric_primitive _) trivial

theorem unambiguous_lastExpr_iff :
    (segments : List Segment) → ((lastExpr segments).Unambiguous ↔ LastFits segments)
  | [] => iff_of_true (everyGeneric_primitive _) trivial
  | [s] => Segment.unambiguous_toExpr_iff s
  | _ :: s :: ss => unambiguous_lastExpr_iff (s :: ss)

theorem Segment.unambiguous_toExpr_iff : (s : Segment) → (s.toExpr.Unambiguous ↔ s.Fits)
  | .mk _ args => unambiguous_exprOf_iff.trans
      (or_congr_right (and_congr_right' (unambiguous_arguments_iff args)))

theorem unambiguous_arguments_iff : (args : List Argument) →
    ((∀ t ∈ argumentExprs args, t.Unambiguous) ↔ ArgumentsFit args)
  | [] => iff_of_true (by simp [argumentExprs]) trivial
  | .type t :: as => List.forall_mem_cons.trans
      (and_congr (TypeSyntax.unambiguous_toExpr_iff t) (unambiguous_arguments_iff as))
  | .lifetime _ :: as => unambiguous_arguments_iff as
  | .other :: as => unambiguous_arguments_iff as

end

end TypeExport.Source
