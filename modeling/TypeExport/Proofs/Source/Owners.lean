import Mathlib.Logic.Relation
import TypeExport.Source.TypeExpr

/-!
# Types with owners

A reference, parentheses and the wrappers `Box`, `Rc`, `Arc` and `Cow` only own their content. The type expression
for a type looks through them, wherever in the type they stand.

* `Source.TypeSyntax.Owns`: one part of a type gets one more owner.
* `Source.exprOf_owner`: the expression for an owner is that for its content.
* `Source.lastExpr_congr`, `Source.argumentExprs_congr`: a path reads its parts, and a part its arguments, by
  their expressions only.
* `Source.toExpr_of_reflTransGen_owns`: any number of owners, anywhere in a type, do not show.
-/

namespace TypeExport.Source

/-! ## Owners -/

/-- In the second type, one part of the first one has one more owner. -/
inductive TypeSyntax.Owns : TypeSyntax → TypeSyntax → Prop where
  | reference (t : TypeSyntax) : Owns t (.reference t)
  | parens (t : TypeSyntax) : Owns t (.parens t)
  /-- A wrapper may be given by its full path, and may have lifetimes. -/
  | wrapper (t : TypeSyntax) {name : String} (owner : name ∈ ["Box", "Rc", "Arc", "Cow"])
    (ofType isGlobal : Bool) (above : List Segment) (lifetimes : List String) :
    Owns t (.path ofType isGlobal (above ++ [.mk name (lifetimes.map .lifetime ++ [.type t])]))
  | inReference {t u : TypeSyntax} (part : Owns t u) : Owns (.reference t) (.reference u)
  | inParens {t u : TypeSyntax} (part : Owns t u) : Owns (.parens t) (.parens u)
  | inArray {t u : TypeSyntax} (part : Owns t u) : Owns (.array t) (.array u)
  | inSlice {t u : TypeSyntax} (part : Owns t u) : Owns (.slice t) (.slice u)
  | inTuple {t u : TypeSyntax} (before after : List TypeSyntax) (part : Owns t u) :
    Owns (.tuple (before ++ t :: after)) (.tuple (before ++ u :: after))
  | inArgument {t u : TypeSyntax} (ofType isGlobal : Bool) (above below : List Segment) (name : String)
    (before after : List Argument) (part : Owns t u) :
    Owns (.path ofType isGlobal (above ++ .mk name (before ++ .type t :: after) :: below))
      (.path ofType isGlobal (above ++ .mk name (before ++ .type u :: after) :: below))

/-- The expression for an owner is the one for its content. -/
theorem exprOf_owner {name : String} (h : name ∈ ["Box", "Rc", "Arc", "Cow"]) (t : TypeExpr) :
    exprOf name [t] = t := by
  have hnames : ∀ n ∈ ["Box", "Rc", "Arc", "Cow"], timeNames.contains n = false ∧ (n == "Option") = false ∧
      ownerNames.contains n = true := by decide
  obtain ⟨htime, hoption, howner⟩ := hnames name h
  simp only [exprOf, htime, hoption, howner, Bool.false_eq_true, ↓reduceIte]

/-! ## Paths -/

theorem lastExpr_concat (above : List Segment) (s : Segment) : lastExpr (above ++ [s]) = s.toExpr := by
  induction above with
  | nil => rfl
  | cons a above ih =>
    obtain ⟨b, rest, hrest⟩ := List.exists_cons_of_ne_nil (List.concat_ne_nil s above)
    rw [List.cons_append, hrest, lastExpr, ← hrest, ih]

/-- Parts of a path may be exchanged for others with the same expression. -/
theorem lastExpr_congr {s s' : Segment} (h : s.toExpr = s'.toExpr) (above below : List Segment) :
    lastExpr (above ++ s :: below) = lastExpr (above ++ s' :: below) := by
  rcases List.eq_nil_or_concat below with rfl | ⟨init, last, rfl⟩
  · rw [lastExpr_concat, lastExpr_concat, h]
  · -- The last part is another one.
    have hlast (s : Segment) : lastExpr (above ++ s :: (init ++ [last])) = last.toExpr := by
      rw [← lastExpr_concat (above ++ s :: init) last, List.append_assoc, List.cons_append]
    rw [List.concat_eq_append, hlast s, hlast s']

theorem argumentExprs_append (as bs : List Argument) :
    argumentExprs (as ++ bs) = argumentExprs as ++ argumentExprs bs := by
  induction as with
  | nil => rfl
  | cons a as ih => cases a <;> simp only [List.cons_append, argumentExprs, ih]

theorem argumentExprs_lifetimes (lifetimes : List String) :
    argumentExprs (lifetimes.map .lifetime) = [] := by
  induction lifetimes with
  | nil => rfl
  | cons l lifetimes ih => rw [List.map_cons, argumentExprs, ih]

/-- Arguments may be exchanged for others with the same expression. -/
theorem argumentExprs_congr {t u : TypeSyntax} (h : t.toExpr = u.toExpr) (before after : List Argument) :
    argumentExprs (before ++ .type t :: after) = argumentExprs (before ++ .type u :: after) := by
  rw [argumentExprs_append, argumentExprs_append, argumentExprs, argumentExprs, h]

/-! ## Owners do not show -/

theorem TypeSyntax.Owns.toExpr_eq {t u : TypeSyntax} (h : Owns t u) : u.toExpr = t.toExpr := by
  induction h with
  | reference t | parens t => rw [TypeSyntax.toExpr]
  | wrapper t owner ofType isGlobal above lifetimes =>
    rw [TypeSyntax.toExpr, lastExpr_concat, Segment.toExpr, argumentExprs_append, argumentExprs_lifetimes,
      List.nil_append, argumentExprs, argumentExprs, exprOf_owner owner]
  | inReference part ih | inParens part ih => rw [TypeSyntax.toExpr, TypeSyntax.toExpr, ih]
  | inArray part ih | inSlice part ih => rw [TypeSyntax.toExpr, TypeSyntax.toExpr, ih]
  | inTuple before after part ih =>
    -- All that counts of a tuple is that it is not empty.
    cases before <;> rfl
  | inArgument ofType isGlobal above below name before after part ih =>
    rw [TypeSyntax.toExpr, TypeSyntax.toExpr]
    refine lastExpr_congr ?_ above below
    rw [Segment.toExpr, Segment.toExpr, argumentExprs_congr ih]

/-- **Owners do not show.** A type, and what it becomes when parts of it are put in references, in parentheses
or in wrappers that only own their content, any number of times and at any depth, have the same type expression. -/
theorem toExpr_of_reflTransGen_owns {t u : TypeSyntax} (h : Relation.ReflTransGen TypeSyntax.Owns t u) :
    u.toExpr = t.toExpr := by
  induction h with
  | refl => rfl
  | tail _ step ih => rw [step.toExpr_eq, ih]

/-- The type `name<..>`. -/
def genericOf (name : String) (args : List Argument) : TypeSyntax := .path false false [.mk name args]

/-- The type `HashMap<String, Option<[u32]>>`. -/
def countsType : TypeSyntax :=
  genericOf "HashMap" [.type (genericOf "String" []),
    .type (genericOf "Option" [.type (.slice (genericOf "u32" []))])]

/-- The type `&HashMap<String, Option<Cow<'a, [std::rc::Rc<u32>]>>>`. -/
def sharedCountsType : TypeSyntax :=
  .reference (genericOf "HashMap" [.type (genericOf "String" []),
    .type (genericOf "Option" [.type (genericOf "Cow" [.lifetime "a",
      .type (.slice (.path false false [.mk "std" [], .mk "rc" [], .mk "Rc" [.type (genericOf "u32" [])]]))])])])

theorem toExpr_of_reflTransGen_owns_countsType :
    Relation.ReflTransGen TypeSyntax.Owns countsType sharedCountsType ∧
      sharedCountsType.toExpr = countsType.toExpr := by
  have hsteps : Relation.ReflTransGen TypeSyntax.Owns countsType sharedCountsType := by
    have hcount := TypeSyntax.Owns.wrapper (genericOf "u32" [])
      (by decide : "Rc" ∈ ["Box", "Rc", "Arc", "Cow"]) false false [.mk "std" [], .mk "rc" []] []
    have hslice := TypeSyntax.Owns.wrapper (.slice (.path false false
      [.mk "std" [], .mk "rc" [], .mk "Rc" [.type (genericOf "u32" [])]]))
      (by decide : "Cow" ∈ ["Box", "Rc", "Arc", "Cow"]) false false [] ["a"]
    -- The type of the map's values, with another argument.
    have hvalue {t u : TypeSyntax} (part : TypeSyntax.Owns t u) := TypeSyntax.Owns.inArgument false false [] []
      "HashMap" [.type (genericOf "String" [])] []
      (.inArgument false false [] [] "Option" [] [] part)
    exact .tail (.tail (.single (hvalue (.inSlice hcount))) (hvalue hslice)) (.reference _)
  exact ⟨hsteps, toExpr_of_reflTransGen_owns hsteps⟩

end TypeExport.Source
