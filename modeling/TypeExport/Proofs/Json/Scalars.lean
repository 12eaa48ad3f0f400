import TypeExport.Json.Number
import TypeExport.Json.Text
import TypeExport.Json.Writer
import Mathlib.Data.List.TakeDrop

/-!
# Strings and integers in JSON texts

* `Json.stringValue_escaped`: an escaped string reads back as the string.
* `Json.accumulate_digits`: the digits of a number that fits into 64 bits give the number.
* `Json.IsWhole.wholePart_append`: the digits before the point are read to their end.
* `Json.number_toString`: an integer of 64 bits reads back as the integer.
-/

namespace TypeExport.Json

open Data

/-! ## Strings -/

theorem hexDigit?_digitChar : ∀ d < 16, Text.hexDigit? (Nat.digitChar d) = some d := by decide

/-- The number of a control character, as an escape writes it. -/
theorem hexValue?_control {n : Nat} (h : n < 32) :
    hexValue? '0' '0' (Nat.digitChar (n / 16)) (Nat.digitChar (n % 16)) = some n := by
  have h0 : Text.hexDigit? '0' = some 0 := by decide
  simp only [hexValue?, h0, hexDigit?_digitChar (n / 16) (by omega),
    hexDigit?_digitChar (n % 16) (by omega), Option.bind_eq_bind, Option.bind_some, Option.pure_def]
  congr 1
  omega

/-- An escaped character reads back as the character. -/
theorem stringValue_escaped_append (c : Char) (done rest : List Char) :
    stringValue done (escaped c ++ rest) = stringValue (c :: done) rest := by
  unfold escaped
  split
  case h_8 hquote hslash _ _ _ _ _ =>
    split
    · next hlt =>
      have hc : Char.ofNat c.toNat = c := Char.ofNat_toNat c
      simp only [List.cons_append, List.nil_append, stringValue, hexValue?_control hlt, hc]
      rw [if_neg (by omega), if_neg (by omega)]
    · next hge =>
      rw [List.singleton_append, stringValue]
      · rw [if_neg hge]
      · exact fun h => hquote h
      all_goals intros; contradiction
  all_goals rfl

theorem stringValue_escaped (s done rest : List Char) :
    stringValue done (s.flatMap escaped ++ '"' :: rest) =
      .ok (String.ofList (done.reverse ++ s), rest) := by
  induction s generalizing done with
  | nil => simp [stringValue]
  | cons c cs ih =>
    rw [List.flatMap_cons, List.append_assoc, stringValue_escaped_append, ih]
    simp

/-! ## Digits -/

theorem le_ofDigitChars (ds : List Char) (n : Nat) : n ≤ Nat.ofDigitChars 10 ds n := by
  induction ds generalizing n with
  | nil => simp
  | cons d ds ih =>
    rw [Nat.ofDigitChars_cons]
    have := ih (10 * n + (d.toNat - '0'.toNat))
    omega

/-- Digits of a number that fits into 64 bits are all added. -/
theorem accumulate_eq {n : Nat} {ds : List Char} (h : Nat.ofDigitChars 10 ds n < UInt64.size) :
    accumulate n ds = (Nat.ofDigitChars 10 ds n, 0) := by
  induction ds generalizing n with
  | nil => simp [accumulate]
  | cons d ds ih =>
    rw [Nat.ofDigitChars_cons] at h ⊢
    have hnext : n * 10 + (d.toNat - 48) = 10 * n + (d.toNat - '0'.toNat) := by
      rw [Nat.mul_comm]
      rfl
    rw [accumulate, hnext, if_pos (Nat.lt_of_le_of_lt (le_ofDigitChars ds _) h), ih h]

theorem accumulate_digits {n : Nat} (h : n < UInt64.size) :
    accumulate 0 (Nat.toDigits 10 n) = (n, 0) := by
  have hval : Nat.ofDigitChars 10 (Nat.toDigits 10 n) 0 = n := Nat.ofDigitChars_ten_toDigits
  rw [accumulate_eq (by rwa [hval]), hval]

/-- The digits of a number other than zero do not begin with a zero. -/
theorem head?_toDigits_ne {n : Nat} (h : n ≠ 0) : (Nat.toDigits 10 n).head? ≠ some '0' := by
  induction n using Nat.strongRecOn with
  | _ n ih =>
    by_cases hlt : n < 10
    · rw [Nat.toDigits_of_lt_base hlt]
      have hchar : ∀ d < 10, d ≠ 0 → Nat.digitChar d ≠ '0' := by decide
      simpa using hchar n hlt h
    · rw [Nat.toDigits_of_base_le (by omega) (by omega), List.head?_append]
      have hhead := ih (n / 10) (by omega) (by omega)
      cases hd : (Nat.toDigits 10 (n / 10)).head? with
      | none => exact absurd (List.head?_eq_none_iff.mp hd) Nat.toDigits_ne_nil
      | some c => simpa [hd] using hhead

/-- One digit or more. -/
def IsDigits (cs : List Char) : Prop := cs ≠ [] ∧ ∀ c ∈ cs, c.isDigit = true

/-- The digits before the point: a zero, or digits that do not begin with one. -/
def IsWhole (cs : List Char) : Prop := IsDigits cs ∧ (cs.head? = some '0' → cs = ['0'])

section

variable {cs rest : List Char}

theorem IsDigits.digits_append (h : IsDigits cs) (hr : ∀ c ∈ rest.head?, c.isDigit = false) :
    digits (cs ++ rest) = (cs, rest) := by
  unfold digits
  rw [List.span_eq_takeWhile_dropWhile, List.takeWhile_append_of_pos h.2,
    List.dropWhile_append_of_pos h.2]
  cases rest with
  | nil => simp
  | cons c rest =>
    have hc : c.isDigit = false := hr c rfl
    simp [hc]

/-- Digits begin with a digit. -/
theorem IsDigits.exists_cons (h : IsDigits cs) : ∃ d ds, cs = d :: ds ∧ d.isDigit = true := by
  obtain ⟨d, ds, rfl⟩ := List.exists_cons_of_ne_nil h.1
  exact ⟨d, ds, rfl, h.2 d (by simp)⟩

theorem IsWhole.wholePart_append (h : IsWhole cs) (hr : ∀ c ∈ rest.head?, c.isDigit = false) :
    wholePart (cs ++ rest) = .ok (cs, rest) := by
  obtain ⟨hdigits, hzero⟩ := h
  unfold wholePart
  rw [hdigits.digits_append hr]
  split
  · next heq => exact absurd (congrArg Prod.fst heq) hdigits.1
  · next heq =>
    obtain ⟨rfl, rfl⟩ := Prod.mk.inj heq
    rfl
  · next hnot heq =>
    obtain ⟨rfl, rfl⟩ := Prod.mk.inj heq
    exact absurd (List.cons.inj (hzero rfl)).2 hnot
  · next heq =>
    obtain ⟨rfl, rfl⟩ := Prod.mk.inj heq
    rfl

end

theorem isDigit_of_mem_toDigits {n : Nat} : ∀ c ∈ Nat.toDigits 10 n, c.isDigit = true :=
  fun _ hc => Nat.isDigit_of_mem_toDigits (by omega) (by omega) hc

theorem isWhole_toDigits (n : Nat) : IsWhole (Nat.toDigits 10 n) := by
  refine ⟨⟨Nat.toDigits_ne_nil, isDigit_of_mem_toDigits⟩, fun hzero => ?_⟩
  by_cases hn : n = 0
  · subst hn
    rfl
  · exact absurd hzero (head?_toDigits_ne hn)

theorem toDigits_eq_cons (n : Nat) : ∃ d ds, Nat.toDigits 10 n = d :: ds ∧ d.isDigit = true :=
  (isWhole_toDigits n).1.exists_cons

/-! ## Integers -/

/-- The rest of a text does not go on with a number. -/
def NumberEnds (rest : List Char) : Prop :=
  ∀ c ∈ rest.head?, c.isDigit = false ∧ c ≠ '.' ∧ c ≠ 'e' ∧ c ≠ 'E'

/-- After the digits of an integer there is no fraction and no exponent. -/
theorem fractionPart_of_ends {rest : List Char} (hr : NumberEnds rest) :
    fractionPart rest = .ok (none, rest) := by
  unfold fractionPart
  split
  · next c => exact absurd rfl (hr '.' rfl).2.1
  · rfl

theorem exponentPart_of_ends {rest : List Char} (hr : NumberEnds rest) :
    exponentPart rest = .ok (none, rest) := by
  cases rest with
  | nil => rfl
  | cons c rest =>
    obtain ⟨-, -, he, hE⟩ := hr c rfl
    simp [exponentPart, he, hE]

theorem numberParts_digits {n : Nat} {rest : List Char} (negative : Bool) (h : n < UInt64.size)
    (hr : NumberEnds rest) :
    numberParts negative (Nat.toDigits 10 n ++ rest) = .ok (integerNode negative n, rest) := by
  have hwhole := (isWhole_toDigits n).wholePart_append fun c hc => (hr c hc).1
  simp [numberParts, hwhole, fractionPart_of_ends hr, exponentPart_of_ends hr, numberNode,
    accumulate_digits h, bind, Except.bind]

theorem toString_ofNat (n : Nat) : (toString (Int.ofNat n)).toList = Nat.toDigits 10 n :=
  Nat.toList_repr

theorem toString_negSucc (n : Nat) :
    (toString (Int.negSucc n)).toList = '-' :: Nat.toDigits 10 (n + 1) := by
  change ("-" ++ (n + 1).repr).toList = _
  rw [String.toList_append, Nat.toList_repr]
  rfl

/-- The tree of an integer. -/
def integer (i : Int) : Node := if 0 ≤ i then .unsigned i.toNat else .signed i

/-- An integer of 64 bits reads back as the integer. -/
theorem number_toString {i : Int} {rest : List Char} (h : isInt64 i = true) (hr : NumberEnds rest) :
    number ((toString i).toList ++ rest) = (integer i, some rest) := by
  obtain ⟨hlow, hhigh⟩ : -(int64Bound : Int) ≤ i ∧ i < int64Bound := by simpa [isInt64] using h
  have hsize : UInt64.size = 2 * int64Bound := rfl
  cases i with
  | ofNat n =>
    have hn : n < UInt64.size := by
      simp only [Int.ofNat_eq_natCast] at hhigh
      omega
    have hsign : ∀ cs, Nat.toDigits 10 n ++ rest ≠ '-' :: cs := by
      intro cs hcs
      obtain ⟨d, ds, hd, hdigit⟩ := toDigits_eq_cons n
      rw [hd, List.cons_append, List.cons.injEq] at hcs
      exact absurd hdigit (by rw [hcs.1]; decide)
    rw [toString_ofNat, number]
    · rw [numberParts_digits false hn hr]
      simp [integerNode, integer]
    · exact hsign
  | negSucc n =>
    have hn : n + 1 ≤ int64Bound := by omega
    have hvalue : -(n + 1 : Int) = Int.negSucc n := by omega
    rw [toString_negSucc, List.cons_append, number, numberParts_digits true (by omega) hr]
    simp [integerNode, integer, hn, hvalue]

end TypeExport.Json
