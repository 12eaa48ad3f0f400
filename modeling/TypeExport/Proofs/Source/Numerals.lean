import Mathlib.Data.List.Basic
import Mathlib.Data.Nat.Digits.Defs
import TypeExport.Source.Lexeme

/-!
# Integer literals

An integer literal has a mark for its base, digits with underscores between them, and perhaps the name of its type.
In every base it is read as the number that its digits stand for.

* `Source.Numeral`: the texts of integer literals, with their values.
* `Source.integerDigits_append`: digits are read up to their end.
* `Source.numberEnd_append`: so is the name of the type.
* `Source.Numeral.float_text`: an integer literal is no floating-point number, for which it could be taken.
* `Source.Numeral.literal_text`: it is read as its value.
-/

namespace TypeExport.Source

/-! ## Texts of integer literals -/

/-- The bases of integer literals. -/
inductive Base where
  | binary
  | octal
  | decimal
  | hexadecimal
  deriving DecidableEq

namespace Base

def radix : Base → Nat
  | .binary => 2
  | .octal => 8
  | .decimal => 10
  | .hexadecimal => 16

/-- What stands before the digits. -/
def mark : Base → List Char
  | .binary => ['0', 'b']
  | .octal => ['0', 'o']
  | .decimal => []
  | .hexadecimal => ['0', 'x']

end Base

/-- The names of types that a literal may end with. -/
def integerSuffixes : List String :=
  ["", "i8", "i16", "i32", "i64", "i128", "isize", "u8", "u16", "u32", "u64", "u128", "usize"]

/-- The text of an integer literal. -/
structure Numeral where
  base : Base
  /-- The digits, and underscores, which do not count. -/
  digits : List Char
  suffix : String
  isDigit : ∀ c ∈ digits, c = '_' ∨ ∃ d < base.radix, Text.hexDigit? c = some d
  hasDigit : ∃ c ∈ digits, c ≠ '_'
  /-- What begins with an underscore is a name. -/
  begins : base = .decimal → digits.head? ≠ some '_'
  isSuffix : suffix ∈ integerSuffixes

namespace Numeral

def text (m : Numeral) : List Char := m.base.mark ++ m.digits ++ m.suffix.toList

/-- The number that the digits stand for. -/
def value (m : Numeral) : Nat :=
  Nat.ofDigits m.base.radix (m.digits.filterMap Text.hexDigit?).reverse

end Numeral

/-- The rest of a text does not go on with an integer literal. -/
def NumeralEnds (rest : List Char) : Prop :=
  ∀ c ∈ rest.head?, Text.isIdentStart c = false ∧ Text.isIdentContinue c = false ∧ c ≠ '.'

theorem numeralEnds_nil : NumeralEnds [] := by simp [NumeralEnds]

/-- The rest of a text goes on neither with digits nor with the mark of a base. -/
def DigitsEnd (rest : List Char) : Prop :=
  ∀ c ∈ rest.head?, Text.hexDigit? c = none ∧ c ∉ ['_', '.', 'o', 'x']

theorem Numeral.isDigit_of_all {b : Base} {cs : List Char}
    (h : (cs.all fun c => c == '_' || (Text.hexDigit? c).any (· < b.radix)) = true) :
    ∀ c ∈ cs, c = '_' ∨ ∃ d < b.radix, Text.hexDigit? c = some d := by
  intro c hc
  have hread := List.all_eq_true.mp h c hc
  simpa [Option.any_eq_true, and_comm] using hread

/-! ## Digits -/

theorem isAlphanum_of_hexDigit? {c : Char} {d : Nat} (h : Text.hexDigit? c = some d) :
    c.isAlphanum = true := by
  delta Char.isAlphanum Char.isAlpha Char.isUpper Char.isLower Char.isDigit
  simp only [ge_iff_le, Bool.or_eq_true, Bool.and_eq_true, decide_eq_true_eq, UInt32.le_iff_toNat_le]
  simp only [Text.hexDigit?, Char.le_def, UInt32.le_iff_toNat_le] at h
  split at h
  · next hdigit => exact .inr hdigit
  split at h
  · next hlower => exact .inl (.inr ⟨hlower.1, hlower.2.trans (by decide)⟩)
  split at h
  · next hupper => exact .inl (.inl ⟨hupper.1, hupper.2.trans (by decide)⟩)
  · cases h

theorem isDigit_of_hexDigit? {c : Char} {d : Nat} (h : Text.hexDigit? c = some d) (hd : d < 10) :
    c.isDigit = true := by
  have hnat : c.toNat = c.val.toNat := rfl
  simp only [Char.isDigit, ge_iff_le, Bool.and_eq_true, decide_eq_true_eq, UInt32.le_iff_toNat_le]
  simp only [Text.hexDigit?, Char.le_def, UInt32.le_iff_toNat_le] at h
  split at h
  · next hdigit => exact hdigit
  split at h
  · next hlower =>
    have : 97 ≤ c.val.toNat := hlower.1
    cases h
    omega
  split at h
  · next hupper =>
    have : 65 ≤ c.val.toNat := hupper.1
    cases h
    omega
  · cases h

theorem hexDigit?_of_isDigit {c : Char} (h : c.isDigit = true) :
    Text.hexDigit? c = some (c.toNat - 48) := by
  unfold Text.hexDigit?
  rw [if_pos]
  simpa [Char.isDigit, Char.le_def] using h

/-- Digits are read up to their end, each making the number before it count for more. -/
theorem integerDigits_append_eq {base : Nat} {cs rest : List Char} {value : Option Nat}
    (hdigits : ∀ c ∈ cs, c = '_' ∨ ∃ d < base, Text.hexDigit? c = some d)
    (hsome : value = none → ∃ c ∈ cs, c ≠ '_')
    (hbegins : value = none → base = 10 → cs.head? ≠ some '_') (hrest : DigitsEnd rest) :
    integerDigits base value (cs ++ rest) =
      some ((cs.filterMap Text.hexDigit?).foldl (fun n d => n * base + d) (value.getD 0), rest) := by
  induction cs generalizing value with
  | nil =>
    cases value with
    | none => simp at hsome
    | some n =>
      cases rest with
      | nil => rfl
      | cons c rest =>
        obtain ⟨hdigit, hother⟩ := hrest c rfl
        have hunder : c ≠ '_' := List.ne_of_not_mem_cons hother
        simp [integerDigits, hdigit, hunder]
  | cons c cs ih =>
    obtain ⟨hc, hcs⟩ := List.forall_mem_cons.mp hdigits
    rw [List.cons_append, integerDigits]
    rcases hc with rfl | ⟨d, hlt, hd⟩
    · have hnot : ¬ (value.isNone = true ∧ base = 10) := by
        rintro ⟨hnone, hbase⟩
        exact hbegins (Option.isNone_iff_eq_none.mp hnone) hbase rfl
      have hvalue : value = none → base ≠ 10 := fun h hbase => hbegins h hbase rfl
      rw [if_pos rfl, if_neg hnot, ih hcs (fun h => by simpa using hsome h)
        fun h hbase => absurd hbase (hvalue h)]
      rfl
    · have hunder : c ≠ '_' := by
        rintro rfl
        cases hd
      rw [if_neg hunder, hd]
      simp only [hlt, ↓reduceIte]
      rw [ih hcs (by simp) (by simp), List.filterMap_cons_some hd]
      rfl

/-- The digits of a numeral are read as its value. -/
theorem integerDigits_append (m : Numeral) {rest : List Char} (hrest : DigitsEnd rest) :
    integerDigits m.base.radix none (m.digits ++ rest) = some (m.value, rest) := by
  have hbegins : m.base.radix = 10 → m.digits.head? ≠ some '_' := by
    intro hten
    refine m.begins ?_
    cases hbase : m.base <;> simp_all [Base.radix]
  rw [integerDigits_append_eq m.isDigit (fun _ => m.hasDigit) (fun _ => hbegins) hrest, Numeral.value,
    Nat.ofDigits_eq_foldr, List.foldr_reverse]
  simp only [Option.getD_none, Nat.add_comm, Nat.mul_comm, Nat.cast_id]

/-! ## The end of a literal -/

theorem NumeralEnds.digitsEnd {rest : List Char} (h : NumeralEnds rest) : DigitsEnd rest := by
  intro c hc
  obtain ⟨-, hcontinue, hpoint⟩ := h c hc
  refine ⟨Option.eq_none_iff_forall_ne_some.mpr fun d hd => ?_, fun hmem => ?_⟩
  · rw [Text.isIdentContinue, isAlphanum_of_hexDigit? hd] at hcontinue
    cases hcontinue
  · have hnames : ∀ c ∈ ['_', '.', 'o', 'x'], c ≠ '.' → Text.isIdentContinue c = true := by
      simp [Text.isIdentContinue]
    rw [hnames c hmem hpoint] at hcontinue
    cases hcontinue

/-- The name of a type is neither of these. -/
theorem digitsEnd_suffix (m : Numeral) {rest : List Char} (h : NumeralEnds rest) :
    DigitsEnd (m.suffix.toList ++ rest) := by
  intro c hc
  by_cases hsuffix : m.suffix.toList = []
  · rw [hsuffix] at hc
    exact h.digitsEnd c hc
  · have hnames : ∀ s ∈ integerSuffixes, ∀ c ∈ s.toList.head?,
        Text.hexDigit? c = none ∧ c ∉ ['_', '.', 'o', 'x'] := by
      simp [integerSuffixes, Text.hexDigit?]
    rw [List.head?_append_of_ne_nil _ hsuffix] at hc
    exact hnames m.suffix m.isSuffix c hc

theorem suffix_append (m : Numeral) {rest : List Char} (h : NumeralEnds rest) :
    suffix (m.suffix.toList ++ rest) = (m.suffix.toList, rest) := by
  have hnames : ∀ s ∈ integerSuffixes, (∀ c ∈ s.toList.head?, Text.isIdentStart c = true) ∧
      ∀ c ∈ s.toList, Text.isIdentContinue c = true := by
    simp [integerSuffixes, Text.isIdentStart, Text.isIdentContinue, Char.isAlphanum]
  obtain ⟨hstart, hcontinue⟩ := hnames m.suffix m.isSuffix
  cases hs : m.suffix.toList with
  | nil =>
    cases rest with
    | nil => rfl
    | cons c rest => simp [suffix, identifier, (h c rfl).1]
  | cons c cs =>
    rw [hs] at hstart hcontinue
    have htail : ∀ c ∈ cs, Text.isIdentContinue c = true := fun c hc => hcontinue c (.tail _ hc)
    have hrest : rest.takeWhile Text.isIdentContinue = [] ∧
        rest.dropWhile Text.isIdentContinue = rest := by
      cases rest with
      | nil => exact ⟨rfl, rfl⟩
      | cons c rest => simp [(h c rfl).2.1]
    rw [suffix, List.cons_append, identifier, if_pos (hstart c rfl), List.takeWhile_append_of_pos htail,
      List.dropWhile_append_of_pos htail, hrest.1, hrest.2, List.append_nil]
    rfl

theorem numberEnd_append (m : Numeral) {rest : List Char} (h : NumeralEnds rest) :
    numberEnd (m.suffix.toList ++ rest) = some (m.suffix.toList, rest) := by
  rw [numberEnd, suffix_append m h]
  cases rest with
  | nil => rfl
  | cons c rest => simp [(h c rfl).2.1]

/-! ## Other literals -/

theorem string_of_isDigit {c : Char} (h : c.isDigit = true) (cs : List Char) : string (c :: cs) = none := by
  unfold string
  split <;> simp_all

theorem character_of_isDigit {c : Char} (h : c.isDigit = true) (cs : List Char) :
    character (c :: cs) = none := by
  unfold character
  split <;> simp_all

section Decimal

variable {cs rest : List Char} (hdigits : ∀ c ∈ cs, c = '_' ∨ ∃ d < 10, Text.hexDigit? c = some d)
  (hrest : DigitsEnd rest)

include hdigits hrest

/-- Decimal digits by themselves are a mantissa without a point. -/
theorem mantissa_append : mantissa false (cs ++ rest) = some (false, rest) := by
  induction cs with
  | nil =>
    cases rest with
    | nil => rfl
    | cons c rest =>
      obtain ⟨hdigit, hother⟩ := hrest c rfl
      have hc : c.isDigit = false := by
        by_contra h
        rw [hexDigit?_of_isDigit (by simpa using h)] at hdigit
        cases hdigit
      simp only [List.mem_cons, not_or] at hother
      simp [mantissa, hc, hother.1, hother.2.1]
  | cons c cs ih =>
    obtain ⟨hc, hcs⟩ := List.forall_mem_cons.mp hdigits
    have hread : (c.isDigit || c == '_') = true := by
      rcases hc with rfl | ⟨d, hlt, hd⟩
      · rfl
      · rw [isDigit_of_hexDigit? hd hlt, Bool.true_or]
    rw [List.cons_append, mantissa.eq_def]
    dsimp only
    rw [if_pos hread, ih hcs]

/-- So they are no floating-point number. -/
theorem floatDigits_append : floatDigits (cs ++ rest) = none := by
  rw [floatDigits, mantissa_append hdigits hrest]
  cases rest with
  | nil => rfl
  | cons c rest =>
    have hc : ¬ (c = 'e' ∨ c = 'E') := by
      rintro (rfl | rfl)
      all_goals cases (hrest _ rfl).1
    show (if c = 'e' ∨ c = 'E' then _ else _) = none
    rw [if_neg hc]
    rfl

/-- They have no mark of a base. -/
theorem numberBase_append (hne : cs ≠ []) : numberBase (cs ++ rest) = (10, cs ++ rest) := by
  have hsecond : ∀ k ∈ ['x', 'o', 'b'], ∀ c l, cs ++ rest ≠ c :: k :: l := by
    intro k hk c l heq
    obtain ⟨d, cs, rfl⟩ := List.exists_cons_of_ne_nil hne
    obtain ⟨-, hcs⟩ := List.forall_mem_cons.mp hdigits
    rw [List.cons_append, List.cons.injEq] at heq
    cases cs with
    | nil =>
      have hnone : ∀ k ∈ ['x', 'o', 'b'], ¬ (Text.hexDigit? k = none ∧ k ∉ ['_', '.', 'o', 'x']) := by
        simp [Text.hexDigit?]
      obtain rfl : rest = k :: l := heq.2
      exact hnone k hk (hrest k rfl)
    | cons e cs =>
      have hnone : ∀ k ∈ ['x', 'o', 'b'], ¬ (k = '_' ∨ ∃ d < 10, Text.hexDigit? k = some d) := by
        simp [Text.hexDigit?]
        omega
      obtain ⟨rfl, -⟩ := List.cons.inj heq.2
      exact hnone e hk (List.forall_mem_cons.mp hcs).1
  unfold numberBase
  split
  · next l heq => exact absurd heq (hsecond _ (by simp) _ l)
  · next l heq => exact absurd heq (hsecond _ (by simp) _ l)
  · next l heq => exact absurd heq (hsecond _ (by simp) _ l)
  · rfl

end Decimal

/-! ## Numerals -/

namespace Numeral

theorem text_of_decimal {m : Numeral} (h : m.base = .decimal) : m.text = m.digits ++ m.suffix.toList := by
  rw [text, h]
  rfl

theorem isDigit_of_decimal {m : Numeral} (h : m.base = .decimal) :
    ∀ c ∈ m.digits, c = '_' ∨ ∃ d < 10, Text.hexDigit? c = some d := by
  have hdigits := m.isDigit
  rw [h] at hdigits
  exact hdigits

variable (m : Numeral) {rest : List Char}

theorem digits_ne_nil : m.digits ≠ [] := by
  intro h
  obtain ⟨c, hc, -⟩ := m.hasDigit
  rw [h] at hc
  cases hc

/-- A numeral begins with a digit. -/
theorem exists_text_eq_cons : ∃ c cs, m.text = c :: cs ∧ c.isDigit = true := by
  cases hbase : m.base with
  | binary | octal | hexadecimal =>
    rw [text, hbase]
    exact ⟨'0', _, rfl, rfl⟩
  | decimal =>
    obtain ⟨c, cs, hcs⟩ := List.exists_cons_of_ne_nil m.digits_ne_nil
    have hunder : c ≠ '_' := by
      rintro rfl
      exact m.begins hbase (hcs ▸ rfl)
    have hc : c ∈ m.digits := hcs ▸ List.mem_cons_self
    obtain ⟨d, hlt, hd⟩ := (isDigit_of_decimal hbase c hc).resolve_left hunder
    rw [text_of_decimal hbase, hcs]
    exact ⟨c, _, rfl, isDigit_of_hexDigit? hd hlt⟩

/-- The mark tells the base. -/
theorem numberBase_text (h : NumeralEnds rest) :
    numberBase (m.text ++ rest) = (m.base.radix, m.digits ++ (m.suffix.toList ++ rest)) := by
  cases hbase : m.base with
  | binary | octal | hexadecimal =>
    rw [text, hbase, List.append_assoc, List.append_assoc]
    rfl
  | decimal =>
    rw [text_of_decimal hbase, List.append_assoc]
    exact numberBase_append (isDigit_of_decimal hbase) (digitsEnd_suffix m h) m.digits_ne_nil

/-- A numeral is no floating-point number. -/
theorem float_text (h : NumeralEnds rest) : float (m.text ++ rest) = none := by
  cases hbase : m.base with
  | binary | octal | hexadecimal =>
    rw [text, hbase]
    rfl
  | decimal =>
    have hnone := floatDigits_append (isDigit_of_decimal hbase) (digitsEnd_suffix m h)
    obtain ⟨c, cs, htext, hdigit⟩ := m.exists_text_eq_cons
    rw [← List.append_assoc, ← text_of_decimal hbase, htext, List.cons_append] at hnone
    rw [htext, List.cons_append, float, if_pos hdigit, hnone]
    rfl

theorem integer_text (h : NumeralEnds rest) :
    integer (m.text ++ rest) = some (.integer m.value m.suffix, rest) := by
  rw [integer, m.numberBase_text h]
  show (integerDigits m.base.radix none (m.digits ++ (m.suffix.toList ++ rest)) >>= _) = _
  rw [integerDigits_append m (digitsEnd_suffix m h)]
  show (numberEnd (m.suffix.toList ++ rest) >>= _) = _
  rw [numberEnd_append m h]
  exact congrArg (fun s => some (Literal.integer m.value s, rest)) String.ofList_toList

/-- **Integer literals.** In every base and with every type, a literal is read as the number that its digits
stand for. -/
theorem literal_text (h : NumeralEnds rest) :
    literal (m.text ++ rest) = some (.integer m.value m.suffix, rest) := by
  obtain ⟨c, cs, htext, hdigit⟩ := m.exists_text_eq_cons
  have hinteger := m.integer_text h
  have hfloat := m.float_text h
  rw [htext, List.cons_append] at hinteger hfloat ⊢
  rw [literal, string_of_isDigit hdigit, character_of_isDigit hdigit, hfloat, hinteger]
  rfl

end Numeral

end TypeExport.Source
