import Mathlib.Logic.Basic
import TypeExport.Proofs.Source.Declaration
import TypeExport.Proofs.Source.Numerals

/-!
# Values of enumeration members

A member has the number that its expression stands for, or else one more than the member before it. Literals are
read with a sign of 64 bits, and signs are taken into account afterwards. So the lowest number of 64 bits, whose
literal is one too large, is the one number that cannot be given.

* `Source.Expr.Denotes`: the number that an expression stands for. `Source.Expr.Denotes.integer?_eq` says what is
  read of it.
* `Source.Assigned`: the values of members by the rules of the language.
* `Source.Assigned.map_value_membersFrom_iff`: when members have these values.
* `Source.member_values`: the declaration of an enumeration, and when it has the right values.
* `Source.not_member_values`: the lowest number is not always read.
-/

namespace TypeExport.Source

/-! ## Numbers that expressions stand for -/

/-- The number that an expression stands for: an integer literal, perhaps with signs and parentheses. A literal is
what is read of its text. -/
inductive Expr.Denotes : Expr → Int → Prop where
  | literal {m : Numeral} {rest : List Char} {l : Literal} (ends : NumeralEnds rest)
    (read : Source.literal (m.text ++ rest) = some (l, rest)) : Denotes (.literal l) m.value
  | negative {x : Expr} {i : Int} (inner : Denotes x i) : Denotes (.negative x) (-i)
  | parens {x : Expr} {i : Int} (inner : Denotes x i) : Denotes (.parens x) i

/-- The number is read if it can change its sign in 64 bits. -/
theorem Expr.Denotes.integer?_eq {x : Expr} {i : Int} (h : x.Denotes i) :
    x.integer? = if -(int64Bound : Int) < i ∧ i < int64Bound then some i else none := by
  induction h with
  | @literal m rest l ends read =>
    rw [m.literal_text ends, Option.some_inj, Prod.mk.injEq] at read
    obtain ⟨rfl, -⟩ := read
    rw [Expr.integer?]
    refine if_congr ?_ rfl rfl
    unfold int64Bound
    omega
  | @negative x i inner ih =>
    rw [Expr.integer?, ih, apply_ite (Option.map _)]
    exact if_congr (by omega) rfl rfl
  | parens inner ih => exact ih

/-- Every number of 64 bits is read, but the lowest one. -/
theorem Expr.Denotes.integer?_of_isInt64 {x : Expr} {i : Int} (h : x.Denotes i) (hi : isInt64 i = true) :
    x.integer? = if i = -(int64Bound : Int) then none else some i := by
  have hbounds := isInt64_iff.mp hi
  rw [h.integer?_eq]
  by_cases hlowest : i = -(int64Bound : Int)
  · rw [if_pos hlowest, if_neg (by omega)]
  · rw [if_neg hlowest, if_pos (by omega)]

/-! ## Values that members are assigned -/

/-- The values of members, where `next` is counted on to: one more than the value before, at first zero. A member
has the number that is given for it, and the counted one if there is none. -/
inductive Assigned : Int → List Variant → List Int → Prop where
  | nil (next : Int) : Assigned next [] []
  | given {next i : Int} {v : Variant} {x : Expr} {vs : List Variant} {values : List Int}
    (value : v.value = some x) (denotes : x.Denotes i) (rest : Assigned (i + 1) vs values) :
    Assigned next (v :: vs) (i :: values)
  | counted {next : Int} {v : Variant} {vs : List Variant} {values : List Int} (value : v.value = none)
    (rest : Assigned (next + 1) vs values) : Assigned next (v :: vs) (next :: values)

/-- Wherever the lowest number of 64 bits is given, it follows the highest one, from which counting on wraps. -/
def LowestFollowsHighest : Int → List Variant → List Int → Prop
  | next, v :: vs, i :: values =>
    (v.value.isSome → i = -(int64Bound : Int) → next = int64Bound) ∧
      LowestFollowsHighest (i + 1) vs values
  | _, _, _ => True

/-- Counting on wraps after the highest number. -/
theorem bmod_eq {next : Int} (hlow : -(int64Bound : Int) < next) (hhigh : next ≤ int64Bound) :
    next.bmod UInt64.size = if next = int64Bound then -(int64Bound : Int) else next := by
  unfold int64Bound at *
  rw [Int.bmod_def]
  simp only [UInt64.size]
  split <;> split <;> omega

theorem map_name_membersFrom (next : Int) (vs : List Variant) :
    (membersFrom next vs).map (·.name) = vs.map (·.name) := by
  induction vs generalizing next with
  | nil => rfl
  | cons v vs ih =>
    rw [membersFrom, List.map_cons, List.map_cons, ih]

theorem map_value_membersFrom_cons_iff {next i : Int} {v : Variant} {vs : List Variant}
    {values : List Int} : (membersFrom next (v :: vs)).map (·.value) = i :: values ↔
      (v.value.bind Expr.integer?).getD next = i ∧
        (membersFrom ((i + 1).bmod UInt64.size) vs).map (·.value) = values := by
  rw [membersFrom, List.map_cons, List.cons.injEq]
  constructor
  · rintro ⟨rfl, hrest⟩
    exact ⟨rfl, hrest⟩
  · rintro ⟨rfl, hrest⟩
    exact ⟨rfl, hrest⟩

/-- Members have the values that they are assigned, exactly if the lowest number is given only where it would be
counted on to. -/
theorem Assigned.map_value_membersFrom_iff {next : Int} {vs : List Variant} {values : List Int}
    (h : Assigned next vs values) (hrange : ∀ i ∈ values, isInt64 i = true)
    (hlow : -(int64Bound : Int) < next) (hhigh : next ≤ int64Bound) :
    (membersFrom (next.bmod UInt64.size) vs).map (·.value) = values ↔
      LowestFollowsHighest next vs values := by
  induction h with
  | nil => simp [membersFrom, LowestFollowsHighest]
  | @given next i v x vs values value denotes rest ih =>
    obtain ⟨hi, hvalues⟩ := List.forall_mem_cons.mp hrange
    have hbounds := isInt64_iff.mp hi
    rw [map_value_membersFrom_cons_iff, LowestFollowsHighest, ih hvalues (by omega) (by omega), value,
      Option.bind_some, denotes.integer?_of_isInt64 hi, bmod_eq hlow hhigh]
    refine and_congr_left' ?_
    by_cases hlowest : i = -(int64Bound : Int)
    · -- The number is not read, so it has to be the counted one.
      have hcounted : (if next = int64Bound then -(int64Bound : Int) else next) = i ↔
          next = int64Bound := by
        split <;> omega
      rw [if_pos hlowest, Option.getD_none, hcounted]
      simp [hlowest]
    · rw [if_neg hlowest, Option.getD_some]
      simp [hlowest]
  | @counted next v vs values value rest ih =>
    obtain ⟨hi, hvalues⟩ := List.forall_mem_cons.mp hrange
    have hbounds := isInt64_iff.mp hi
    rw [map_value_membersFrom_cons_iff, LowestFollowsHighest, ih hvalues (by omega) (by omega), value,
      Option.bind_none, Option.getD_none, bmod_eq hlow hhigh, if_neg (by omega)]
    simp

/-- Nothing is in the way where the lowest number does not occur. -/
theorem lowestFollowsHighest_of_not_mem {next : Int} {vs : List Variant} {values : List Int}
    (h : -(int64Bound : Int) ∉ values) : LowestFollowsHighest next vs values := by
  fun_induction LowestFollowsHighest next vs values with
  | case1 next v vs i values ih =>
    rw [List.mem_cons, not_or] at h
    exact ⟨fun _ hi => absurd hi.symm h.1, ih h.2⟩
  | case2 => trivial

/-- **Values of members.** A public enumeration without fields becomes a declaration with its members in their order.
Say that the language assigns them values of 64 bits. They have these values if the lowest number of 64 bits is not
among them, and else exactly if it is given only after the highest one: given anywhere else it is not read, and the
member is counted on to. What is read of an expression can change its sign in 64 bits. -/
theorem member_values {e : EnumItem} {values : List Int} (ns : String) (hpublic : e.isPublic = true)
    (hplain : ∀ v ∈ e.variants, v.fields = .none) (hassigned : Assigned 0 e.variants values)
    (hrange : ∀ i ∈ values, isInt64 i = true) :
    (∃ d, e.declaration? ns = some d ∧ d.name = e.name ∧ d.ns = ns ∧ d.isEnumeration = true ∧
      d.members.map (·.name) = e.variants.map (·.name) ∧
      (-(int64Bound : Int) ∉ values → d.members.map (·.value) = values) ∧
      (d.members.map (·.value) = values ↔ LowestFollowsHighest 0 e.variants values)) ∧
    ∀ (x : Expr) (i : Int), x.integer? = some i → isInt64 (-i) = true := by
  refine ⟨⟨_, if_pos ?_, rfl, rfl, rfl, map_name_membersFrom 0 e.variants, ?_⟩, fun x i h => ?_⟩
  · rw [hpublic, Bool.true_and, List.all_eq_true]
    intro v hv
    rw [hplain v hv]
    rfl
  · have hvalues := hassigned.map_value_membersFrom_iff hrange (by decide) (by decide)
    exact ⟨fun h => hvalues.mpr (lowestFollowsHighest_of_not_mem h), hvalues⟩
  · have hbounds := lt_of_integer? h
    rw [isInt64_iff]
    omega

/-! ## The ends of the range -/

/-- The text `0x7FFF_FFFF_FFFF_FFFF_i64`. -/
def highestNumeral : Numeral where
  base := .hexadecimal
  digits := "7FFF_FFFF_FFFF_FFFF_".toList
  suffix := "i64"
  isDigit := Numeral.isDigit_of_all (by decide)
  hasDigit := ⟨'7', by decide, by decide⟩
  begins := by decide
  isSuffix := by decide

/-- The text `9223372036854775808`. -/
def lowestNumeral : Numeral where
  base := .decimal
  digits := "9223372036854775808".toList
  suffix := ""
  isDigit := Numeral.isDigit_of_all (by decide)
  hasDigit := ⟨'9', by decide, by decide⟩
  begins := by decide
  isSuffix := by decide

def highest : Expr := .literal (.integer 0x7FFFFFFFFFFFFFFF "i64")

def lowest : Expr := .negative (.parens (.literal (.integer 0x8000000000000000 "")))

theorem denotes_highest : highest.Denotes 0x7FFFFFFFFFFFFFFF :=
  have hread : literal (highestNumeral.text ++ []) = some (.integer 0x7FFFFFFFFFFFFFFF "i64", []) := by
    decide
  .literal numeralEnds_nil hread

theorem denotes_lowest : lowest.Denotes (-0x8000000000000000) :=
  have hread : literal (lowestNumeral.text ++ []) = some (.integer 0x8000000000000000 "", []) := by decide
  .negative (.parens (.literal numeralEnds_nil hread))

/-- An enumeration with members from one end of the range to the other. -/
def wholeRange : EnumItem where
  attributes := []
  isPublic := true
  name := "Level"
  variants := [⟨"Zero", .none, none⟩, ⟨"High", .none, some highest⟩, ⟨"Low", .none, some lowest⟩,
    ⟨"Next", .none, none⟩]

def wholeRangeValues : List Int := [0, 0x7FFFFFFFFFFFFFFF, -0x8000000000000000, -0x7FFFFFFFFFFFFFFF]

theorem assigned_wholeRange : Assigned 0 wholeRange.variants wholeRangeValues :=
  .counted rfl (.given rfl denotes_highest (.given rfl denotes_lowest (.counted rfl (.nil _))))

theorem member_values_wholeRange :
    wholeRange.isPublic = true ∧ (∀ v ∈ wholeRange.variants, v.fields = .none) ∧
      Assigned 0 wholeRange.variants wholeRangeValues ∧
      (∀ i ∈ wholeRangeValues, isInt64 i = true) ∧
      ∃ d, wholeRange.declaration? "crate" = some d ∧ d.members.map (·.value) = wholeRangeValues := by
  have hplain : ∀ v ∈ wholeRange.variants, v.fields = .none := by simp [wholeRange]
  have hrange : ∀ i ∈ wholeRangeValues, isInt64 i = true := by decide
  refine ⟨rfl, hplain, assigned_wholeRange, hrange, ?_⟩
  obtain ⟨⟨d, hd, -, -, -, -, -, hvalues⟩, -⟩ :=
    member_values "crate" rfl hplain assigned_wholeRange hrange
  refine ⟨d, hd, hvalues.mpr ?_⟩
  simp [LowestFollowsHighest, wholeRange, wholeRangeValues, int64Bound]

/-- An enumeration with the lowest number. -/
def lowestOnly : EnumItem where
  attributes := []
  isPublic := true
  name := "Level"
  variants := [⟨"Low", .none, some lowest⟩]

/-- Not all members have the values that they are assigned: the lowest number is not read. -/
theorem not_member_values :
    ¬ ∀ (e : EnumItem) (values : List Int) (ns : String), e.isPublic = true →
      (∀ v ∈ e.variants, v.fields = .none) → Assigned 0 e.variants values →
      (∀ i ∈ values, isInt64 i = true) →
      ∃ d, e.declaration? ns = some d ∧ d.members.map (·.name) = e.variants.map (·.name) ∧
        d.members.map (·.value) = values := by
  intro hall
  obtain ⟨d, hd, -, hvalues⟩ := hall lowestOnly [-0x8000000000000000] "crate" rfl
    (by simp [lowestOnly]) (.given rfl denotes_lowest (.nil _)) (by decide)
  obtain rfl := Option.some.inj hd
  revert hvalues
  decide

end TypeExport.Source
