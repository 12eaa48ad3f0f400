import TypeExport.Json.Reader
import TypeExport.Proofs.Json.Scalars
import TypeExport.Proofs.Lists

/-!
# The grammar of JSON texts

JSON as relations on lists of characters, independent of how texts are read. A `Json.Tree` keeps numbers and
strings as they are written, and `Tree.Spells` gives all its texts, with blanks wherever they may stand.

* `Json.IsNumber`, `Json.IsStringBody`: numbers, and what stands between the marks of a string.
* `Json.IsNumber.number_append`, `Json.IsStringBody.string_append`, `Json.IsStringBody.key_append`: they are
  read to their ends, and as what does not depend on the text after them.
* `Json.Tree.node`: the tree of data that a value stands for.
-/

namespace TypeExport.Json

open Data

/-! ## Blanks -/

section

variable {fuel depth : Nat} {c : Char} {cs cs' : List Char}

theorem skipBlanks_cons (h : isBlank c = false) : skipBlanks (c :: cs) = c :: cs := by
  simp [skipBlanks, h]

theorem skipBlanks_blank (h : isBlank c = true) : skipBlanks (c :: cs) = skipBlanks cs := by
  simp [skipBlanks, h]

theorem skipBlanks_append (h : ∀ c ∈ cs, isBlank c = true) : skipBlanks (cs ++ cs') = skipBlanks cs' :=
  List.dropWhile_append_of_pos h

theorem skipBlanks_skipBlanks (cs : List Char) : skipBlanks (skipBlanks cs) = skipBlanks cs := by
  induction cs with
  | nil => rfl
  | cons c cs ih =>
    cases hc : isBlank c with
    | true => rw [skipBlanks_blank hc, ih]
    | false => rw [skipBlanks_cons hc, skipBlanks_cons hc]

theorem isBlank_of_number (h : c = '-' ∨ c.isDigit = true) : isBlank c = false := by
  cases hc : isBlank c with
  | false => rfl
  | true =>
    simp only [isBlank, Bool.or_eq_true, beq_iff_eq] at hc
    obtain ((rfl | rfl) | rfl) | rfl := hc <;> revert h <;> decide

theorem numberEnds_nil : NumberEnds [] := by
  intro c hc
  simp at hc

theorem numberEnds_cons (h : c = ',' ∨ c = ']' ∨ c = '}') : NumberEnds (c :: cs) := by
  intro d hd
  obtain rfl : c = d := by simpa using hd
  obtain rfl | rfl | rfl := h <;> decide

theorem numberEnds_blank (h : isBlank c = true) : NumberEnds (c :: cs) := by
  simp only [isBlank, Bool.or_eq_true, beq_iff_eq] at h
  intro d hd
  obtain rfl : c = d := by simpa using hd
  obtain ((rfl | rfl) | rfl) | rfl := h <;> decide

/-- Values, and what follows them in arrays and objects, may stand after blanks. -/
theorem value_congr (h : skipBlanks cs = skipBlanks cs') : value fuel depth cs = value fuel depth cs' := by
  cases fuel with
  | zero => simp [value]
  | succ fuel => simp only [value, h]

theorem nextItem_congr (h : skipBlanks cs = skipBlanks cs') :
    nextItem fuel depth cs = nextItem fuel depth cs' := by
  cases fuel with
  | zero => simp [nextItem]
  | succ fuel => simp only [nextItem, h]

theorem nextEntry_congr (h : skipBlanks cs = skipBlanks cs') :
    nextEntry fuel depth cs = nextEntry fuel depth cs' := by
  cases fuel with
  | zero => simp [nextEntry]
  | succ fuel => simp only [nextEntry, h]

theorem item_skipBlanks (cs : List Char) : item fuel depth (skipBlanks cs) = item fuel depth cs := by
  cases fuel with
  | zero => simp [item]
  | succ fuel => rw [item, item, value_congr (skipBlanks_skipBlanks cs)]

end

/-! ## Numbers -/

inductive IsFraction : List Char → Prop
  | absent : IsFraction []
  | point {ds : List Char} (h : IsDigits ds) : IsFraction ('.' :: ds)

inductive IsExponent : List Char → Prop
  | absent : IsExponent []
  | plain {e : Char} {ds : List Char} (he : e = 'e' ∨ e = 'E') (h : IsDigits ds) : IsExponent (e :: ds)
  | signed {e sign : Char} {ds : List Char} (he : e = 'e' ∨ e = 'E') (hsign : sign = '+' ∨ sign = '-')
    (h : IsDigits ds) : IsExponent (e :: sign :: ds)

/-- A number after its sign. -/
inductive IsUnsigned : List Char → Prop
  | parts {whole fraction exponent : List Char} (hwhole : IsWhole whole) (hfraction : IsFraction fraction)
    (hexponent : IsExponent exponent) : IsUnsigned (whole ++ (fraction ++ exponent))

inductive IsNumber : List Char → Prop
  | positive {cs : List Char} (h : IsUnsigned cs) : IsNumber cs
  | negative {cs : List Char} (h : IsUnsigned cs) : IsNumber ('-' :: cs)

section

variable {cs rest : List Char}

theorem IsFraction.exists_fractionPart (h : IsFraction cs) :
    ∃ fraction, ∀ rest : List Char, (∀ c ∈ rest.head?, c.isDigit = false ∧ c ≠ '.') →
      fractionPart (cs ++ rest) = .ok (fraction, rest) := by
  cases h with
  | absent =>
    refine ⟨none, fun rest hr => ?_⟩
    rw [List.nil_append, fractionPart]
    rintro cs rfl
    exact (hr '.' rfl).2 rfl
  | @point ds h =>
    refine ⟨some ds, fun rest hr => ?_⟩
    rw [List.cons_append, fractionPart, h.digits_append fun c hc => (hr c hc).1]
    split
    · next heq => exact absurd (congrArg Prod.fst heq) h.1
    · next heq =>
      obtain ⟨rfl, rfl⟩ := Prod.mk.inj heq
      rfl

theorem IsExponent.exists_exponentPart (h : IsExponent cs) :
    ∃ exponent, ∀ rest, NumberEnds rest → exponentPart (cs ++ rest) = .ok (exponent, rest) := by
  cases h with
  | absent => exact ⟨none, fun rest hr => exponentPart_of_ends hr⟩
  | @plain e ds he h =>
    refine ⟨some (false, ds), fun rest hr => ?_⟩
    have hdigits := h.digits_append fun c hc => (hr c hc).1
    obtain ⟨d, ds, rfl, hd⟩ := h.exists_cons
    have hminus : d ≠ '-' := by rintro rfl; exact absurd hd (by decide)
    have hplus : d ≠ '+' := by rintro rfl; exact absurd hd (by decide)
    rw [List.cons_append] at hdigits
    simp [exponentPart, he, hminus, hplus, hdigits]
  | @signed e sign ds he hsign h =>
    refine ⟨some (sign == '-', ds), fun rest hr => ?_⟩
    have hdigits := h.digits_append fun c hc => (hr c hc).1
    obtain ⟨d, ds, rfl, -⟩ := h.exists_cons
    rw [List.cons_append] at hdigits
    obtain rfl | rfl := hsign <;> simp [exponentPart, he, hdigits]

/-- After the digits before the point there is no further digit. -/
theorem isDigit_head?_fraction {fraction exponent : List Char} (hfraction : IsFraction fraction)
    (hexponent : IsExponent exponent) (hr : NumberEnds rest) :
    ∀ c ∈ (fraction ++ (exponent ++ rest)).head?, c.isDigit = false := by
  cases hfraction with
  | point h => rintro c ⟨⟩; decide
  | absent =>
    cases hexponent with
    | absent => exact fun c hc => (hr c hc).1
    | plain he h | signed he hsign h =>
      rintro c ⟨⟩
      obtain rfl | rfl := he <;> decide

/-- After the fraction there is neither a digit nor a point. -/
theorem isDigit_head?_exponent {exponent : List Char} (hexponent : IsExponent exponent)
    (hr : NumberEnds rest) : ∀ c ∈ (exponent ++ rest).head?, c.isDigit = false ∧ c ≠ '.' := by
  cases hexponent with
  | absent => exact fun c hc => ⟨(hr c hc).1, (hr c hc).2.1⟩
  | plain he h | signed he hsign h =>
    rintro c ⟨⟩
    obtain rfl | rfl := he <;> decide

theorem IsUnsigned.exists_numberParts (h : IsUnsigned cs) (negative : Bool) :
    ∃ n, ∀ rest, NumberEnds rest → numberParts negative (cs ++ rest) = .ok (n, rest) := by
  obtain @⟨whole, _, _, hwhole, hfraction, hexponent⟩ := h
  obtain ⟨fraction, hfractionPart⟩ := hfraction.exists_fractionPart
  obtain ⟨exponent, hexponentPart⟩ := hexponent.exists_exponentPart
  refine ⟨numberNode negative whole fraction exponent, fun rest hr => ?_⟩
  rw [List.append_assoc, List.append_assoc, numberParts,
    hwhole.wholePart_append (isDigit_head?_fraction hfraction hexponent hr), Except.ok_bind]
  dsimp only
  rw [hfractionPart _ (isDigit_head?_exponent hexponent hr), Except.ok_bind]
  dsimp only
  rw [hexponentPart _ hr]
  rfl

theorem IsUnsigned.exists_cons (h : IsUnsigned cs) : ∃ d ds, cs = d :: ds ∧ d.isDigit = true := by
  obtain ⟨hwhole, -, -⟩ := h
  obtain ⟨d, ds, rfl, hd⟩ := hwhole.1.exists_cons
  exact ⟨d, _, rfl, hd⟩

/-- A number is read to its end. -/
theorem IsNumber.exists_number (h : IsNumber cs) :
    ∃ n, ∀ rest, NumberEnds rest → number (cs ++ rest) = (n, some rest) := by
  cases h with
  | negative h =>
    obtain ⟨n, hn⟩ := h.exists_numberParts true
    exact ⟨n, fun rest hr => by rw [List.cons_append, number, hn rest hr]⟩
  | positive h =>
    obtain ⟨n, hn⟩ := h.exists_numberParts false
    obtain ⟨d, ds, rfl, hd⟩ := h.exists_cons
    refine ⟨n, fun rest hr => ?_⟩
    rw [number, hn rest hr]
    intro more heq
    obtain ⟨rfl, -⟩ := List.cons.inj heq
    exact absurd hd (by decide)

theorem IsNumber.number_append (h : IsNumber cs) (hr : NumberEnds rest) :
    number (cs ++ rest) = ((number cs).1, some rest) := by
  obtain ⟨n, hn⟩ := h.exists_number
  have hself := hn [] numberEnds_nil
  rw [List.append_nil] at hself
  rw [hn rest hr, hself]

theorem IsNumber.exists_cons (h : IsNumber cs) :
    ∃ c rest, cs = c :: rest ∧ (c = '-' ∨ c.isDigit = true) := by
  cases h with
  | negative h => exact ⟨_, _, rfl, .inl rfl⟩
  | positive h =>
    obtain ⟨d, ds, rfl, hd⟩ := h.exists_cons
    exact ⟨d, ds, rfl, .inr hd⟩

end

/-! ## Strings -/

/-- The characters between the marks of a string. -/
inductive IsStringBody : List Char → Prop
  | empty : IsStringBody []
  | char {c : Char} {cs : List Char} (hmark : c ≠ '"') (hslash : c ≠ '\\') (hprintable : 32 ≤ c.toNat)
    (h : IsStringBody cs) : IsStringBody (c :: cs)
  | escape {c : Char} {cs : List Char} (hc : (shortEscape? c).isSome) (h : IsStringBody cs) :
    IsStringBody ('\\' :: c :: cs)
  /-- Any number, also that of a surrogate without its partner. -/
  | code {a b c d : Char} {cs : List Char} (hcode : (hexValue? a b c d).isSome) (h : IsStringBody cs) :
    IsStringBody ('\\' :: 'u' :: a :: b :: c :: d :: cs)

theorem ne_u_of_shortEscape? {c : Char} (h : (shortEscape? c).isSome) : c ≠ 'u' := by
  rintro rfl
  exact absurd h (by decide)

section

variable {cs rest done : List Char} {c : Char}

theorem skipString_char (hmark : c ≠ '"') (hslash : c ≠ '\\') (hprintable : 32 ≤ c.toNat) :
    skipString (c :: cs) = skipString cs := by
  rw [skipString]
  · rw [if_neg (by omega)]
  · exact fun h => hmark h
  all_goals intros; contradiction

theorem skipString_escape (hc : (shortEscape? c).isSome) : skipString ('\\' :: c :: cs) = skipString cs := by
  obtain ⟨e, he⟩ := Option.isSome_iff_exists.mp hc
  rw [skipString]
  · rw [he]
  all_goals
    intros
    exact ne_u_of_shortEscape? hc ‹_›

theorem stringValue_char (hmark : c ≠ '"') (hslash : c ≠ '\\') (hprintable : 32 ≤ c.toNat) :
    stringValue done (c :: cs) = stringValue (c :: done) cs := by
  rw [stringValue]
  · rw [if_neg (by omega)]
  · exact fun h => hmark h
  all_goals intros; contradiction

theorem exists_stringValue_escape (done : List Char) (hc : (shortEscape? c).isSome) :
    ∃ e, ∀ cs, stringValue done ('\\' :: c :: cs) = stringValue (e :: done) cs := by
  obtain ⟨e, he⟩ := Option.isSome_iff_exists.mp hc
  refine ⟨e, fun cs => ?_⟩
  rw [stringValue]
  · rw [he]
  all_goals
    intros
    exact ne_u_of_shortEscape? hc ‹_›

/-- A string can be passed over. -/
theorem IsStringBody.skipString_append (h : IsStringBody cs) (rest : List Char) :
    skipString (cs ++ '"' :: rest) = .ok rest := by
  induction h with
  | empty => rw [List.nil_append, skipString]
  | char hmark hslash hprintable h ih => rw [List.cons_append, skipString_char hmark hslash hprintable, ih]
  | escape hc h ih => rw [List.cons_append, List.cons_append, skipString_escape hc, ih]
  | code hcode h ih =>
    obtain ⟨n, hn⟩ := Option.isSome_iff_exists.mp hcode
    simp only [List.cons_append, skipString, hn, ih]

/-- Whether a string can be used, and as what, does not depend on the text after it. -/
theorem IsStringBody.exists_stringValue : ∀ {cs : List Char}, IsStringBody cs → ∀ done : List Char,
    ∃ value : Except Fault String, ∀ rest,
      stringValue done (cs ++ '"' :: rest) = value.map (·, rest)
  | _, .empty, done => ⟨.ok (String.ofList done.reverse), fun rest => by
      rw [List.nil_append, stringValue]
      rfl⟩
  | _, .char (c := c) hmark hslash hprintable h, done => by
    obtain ⟨value, hvalue⟩ := h.exists_stringValue (c :: done)
    exact ⟨value, fun rest => by rw [List.cons_append, stringValue_char hmark hslash hprintable, hvalue]⟩
  | _, .escape hc h, done => by
    obtain ⟨e, he⟩ := exists_stringValue_escape done hc
    obtain ⟨value, hvalue⟩ := h.exists_stringValue (e :: done)
    exact ⟨value, fun rest => by rw [List.cons_append, List.cons_append, he, hvalue]⟩
  | _, .code hcode h, done => by
    obtain ⟨n, hn⟩ := Option.isSome_iff_exists.mp hcode
    by_cases hlow : 0xDC00 ≤ n ∧ n ≤ 0xDFFF
    · exact ⟨.error .loneSurrogate, fun rest => by simp [stringValue, hn, hlow, Except.map]⟩
    by_cases hhigh : 0xD800 ≤ n ∧ n ≤ 0xDBFF
    · -- A first surrogate takes the escape after it.
      cases h with
      | empty => exact ⟨.error .unpairedSurrogate, fun rest => by simp [stringValue, hn, hlow, hhigh, Except.map]⟩
      | char hmark hslash hprintable h =>
        exact ⟨.error .unpairedSurrogate, fun rest => by
          simp [stringValue, hn, hlow, hhigh, hslash, Except.map]⟩
      | escape hc h =>
        exact ⟨.error .unpairedSurrogate, fun rest => by
          simp [stringValue, hn, hlow, hhigh, ne_u_of_shortEscape? hc, Except.map]⟩
      | code hcode' h =>
        obtain ⟨m, hm⟩ := Option.isSome_iff_exists.mp hcode'
        by_cases hpair : 0xDC00 ≤ m ∧ m ≤ 0xDFFF
        · obtain ⟨value, hvalue⟩ := h.exists_stringValue
            (Char.ofNat ((n - 0xD800) * 0x400 + (m - 0xDC00) + 0x10000) :: done)
          exact ⟨value, fun rest => by simp [stringValue, hn, hlow, hhigh, hm, hpair, hvalue]⟩
        · exact ⟨.error .loneSurrogate, fun rest => by
            simp [stringValue, hn, hlow, hhigh, hm, hpair, Except.map]⟩
    · obtain ⟨value, hvalue⟩ := h.exists_stringValue (Char.ofNat n :: done)
      exact ⟨value, fun rest => by simp [stringValue, hn, hlow, hhigh, hvalue]⟩

end

/-- A string is read to its end. -/
theorem IsStringBody.string_append {cs : List Char} (h : IsStringBody cs) (rest : List Char) :
    string (cs ++ '"' :: rest) = ((string (cs ++ ['"'])).1, some rest) := by
  obtain ⟨value, hvalue⟩ := h.exists_stringValue []
  unfold string
  rw [hvalue, hvalue, h.skipString_append, h.skipString_append]
  cases value <;> rfl

/-- The key that is written with some characters, unless they cannot be used. -/
def keyValue (raw : List Char) : Except Fault String := (stringValue [] (raw ++ ['"'])).map (·.1)

/-- A key is read up to its colon. -/
theorem IsStringBody.key_append {raw after : List Char} (h : IsStringBody raw)
    (hafter : ∀ c ∈ after, isBlank c = true) (rest : List Char) :
    key (raw ++ '"' :: (after ++ ':' :: rest)) = (keyValue raw, .ok rest) := by
  have hcolon : skipBlanks (after ++ ':' :: rest) = ':' :: rest := by
    rw [skipBlanks_append hafter, skipBlanks_cons (by decide)]
  obtain ⟨value, hvalue⟩ := h.exists_stringValue []
  unfold key keyValue
  rw [hvalue, hvalue, h.skipString_append]
  cases value <;> simp [Except.map, hcolon]

/-! ## Trees -/

/-- The syntax of a text. Numbers, strings and keys are kept as they are written. -/
inductive Tree where
  | null
  | bool (b : Bool)
  | number (raw : List Char)
  | string (raw : List Char)
  | array (items : List Tree)
  | object (members : List (List Char × Tree))

namespace Tree

mutual

/-- The tree of data of a value inside `depth` containers. -/
def node (depth : Nat) : Tree → Node
  | null => .null
  | bool b => .bool b
  | number raw => (Json.number raw).1
  | string raw => (Json.string (raw ++ ['"'])).1
  | array items => container depth (.seq (nodes (depth + 1) items))
  | object members => container depth (.map (memberNodes (depth + 1) members))

def nodes (depth : Nat) : List Tree → List Node
  | [] => []
  | t :: ts => t.node depth :: nodes depth ts

def memberNodes (depth : Nat) : List (List Char × Tree) → List MapEntry
  | [] => []
  | (raw, t) :: ms => (keyValue raw, t.node depth) :: memberNodes depth ms

end

@[simp] theorem nodes_eq_map (depth : Nat) (ts : List Tree) : nodes depth ts = ts.map (node depth) := by
  induction ts with
  | nil => rfl
  | cons t ts ih => rw [nodes, ih, List.map_cons]

@[simp] theorem memberNodes_eq_map (depth : Nat) (ms : List (List Char × Tree)) :
    memberNodes depth ms = ms.map fun m => (keyValue m.1, m.2.node depth) := by
  induction ms with
  | nil => rfl
  | cons m ms ih => rw [memberNodes, ih, List.map_cons]

/-! ## Texts -/

/-- A member of an object with the texts before and after its colon. -/
structure MemberText where
  raw : List Char
  value : Tree
  keyText : List Char
  valueText : List Char

def MemberText.text (m : MemberText) : List Char := m.keyText ++ ':' :: m.valueText

/-- The text of a key with its marks and with blanks around it. -/
inductive SpellsKey (raw : List Char) : List Char → Prop
  | padded {before after : List Char} (hbefore : ∀ c ∈ before, isBlank c = true) (hraw : IsStringBody raw)
    (hafter : ∀ c ∈ after, isBlank c = true) : SpellsKey raw (before ++ '"' :: (raw ++ '"' :: after))

/-- The text of a value, perhaps with blanks before and after it. -/
inductive Spells : Tree → List Char → Prop
  | null : Spells null ['n', 'u', 'l', 'l']
  | yes : Spells (bool true) ['t', 'r', 'u', 'e']
  | no : Spells (bool false) ['f', 'a', 'l', 's', 'e']
  | number {raw : List Char} (h : IsNumber raw) : Spells (number raw) raw
  | string {raw : List Char} (h : IsStringBody raw) : Spells (string raw) ('"' :: (raw ++ ['"']))
  | emptyArray {blanks : List Char} (h : ∀ c ∈ blanks, isBlank c = true) :
    Spells (array []) ('[' :: (blanks ++ [']']))
  | array {items : List (Tree × List Char)} (h : ∀ i ∈ items, Spells i.1 i.2) :
    Spells (array (items.map (·.1))) ('[' :: ([','].intercalate (items.map (·.2)) ++ [']']))
  | emptyObject {blanks : List Char} (h : ∀ c ∈ blanks, isBlank c = true) :
    Spells (object []) ('{' :: (blanks ++ ['}']))
  | object {members : List MemberText} (hkeys : ∀ m ∈ members, SpellsKey m.raw m.keyText)
    (hvalues : ∀ m ∈ members, Spells m.value m.valueText) :
    Spells (object (members.map fun m => (m.raw, m.value)))
      ('{' :: ([','].intercalate (members.map (·.text)) ++ ['}']))
  | blankBefore {t : Tree} {c : Char} {cs : List Char} (hc : isBlank c = true) (h : Spells t cs) :
    Spells t (c :: cs)
  | blankAfter {t : Tree} {c : Char} {cs : List Char} (h : Spells t cs) (hc : isBlank c = true) :
    Spells t (cs ++ [c])

end Tree

end TypeExport.Json
