import TypeExport.TypeExpr.Parser

/-!
# Tokens of a text

What `TypeExpr.Token.scan` makes of a text, part by part:

* `Token.scan_blank`: a blank separates and leaves nothing.
* `Token.scan_mark`: any other character that belongs to no name is a mark.
* `Token.scan_word`: name characters up to the next other character are one word.
* `Token.isPart_of_mem_scan`: words hold name characters only, and marks are none.
-/

namespace TypeExport

namespace Text

/-- The code points of ASCII letters and digits. -/
theorem toNat_of_isAlphanum {c : Char} (h : c.isAlphanum = true) :
    48 ≤ c.toNat ∧ c.toNat ≤ 122 := by
  delta Char.isAlphanum Char.isAlpha Char.isUpper Char.isLower Char.isDigit at h
  simp only [Bool.or_eq_true, Bool.and_eq_true, decide_eq_true_eq, UInt32.le_iff_toNat_le,
    ge_iff_le] at h
  change ((65 ≤ c.toNat ∧ c.toNat ≤ 90) ∨ (97 ≤ c.toNat ∧ c.toNat ≤ 122)) ∨
    (48 ≤ c.toNat ∧ c.toNat ≤ 57) at h
  omega

/-- No blank is a letter or a numeral. -/
theorem isAlphanumeric_of_isBlank {c : Char} (h : isBlank c = true) : isAlphanumeric c = false := by
  have hascii : ∀ b ∈ blankRanges, b.2 < 48 ∨ 122 < b.1 := by decide
  have htable : (blankRanges.all fun b => alphanumericRanges.all fun r =>
      Nat.blt r.2 b.1 || Nat.blt b.2 r.1) = true := by decide +kernel
  simp only [List.all_eq_true, Bool.or_eq_true, Nat.blt_eq] at htable
  simp only [isBlank, Char.inRanges, List.any_eq_true, Bool.and_eq_true, decide_eq_true_eq] at h
  obtain ⟨b, hb, hlo, hhi⟩ := h
  refine Bool.eq_false_iff.mpr fun hc => ?_
  simp only [isAlphanumeric, Bool.or_eq_true, Char.inRanges, List.any_eq_true, Bool.and_eq_true,
    decide_eq_true_eq] at hc
  rcases hc with hc | ⟨r, hr, hrlo, hrhi⟩
  · have := toNat_of_isAlphanum hc
    have := hascii b hb
    omega
  · have := htable b hb r hr
    omega

end Text

namespace TypeExpr

theorem isBlank_of_isNameChar {c : Char} (h : isNameChar c = true) : Text.isBlank c = false := by
  refine Bool.eq_false_iff.mpr fun hb => ?_
  simp only [isNameChar, Text.isAlphanumeric_of_isBlank hb, Bool.false_or, Bool.or_eq_true,
    beq_iff_eq] at h
  rcases h with (rfl | rfl) | rfl <;> revert hb <;> decide

/-- The rest of a text does not go on with a name. -/
def NameEnds (rest : List Char) : Prop := ∀ c ∈ rest.head?, isNameChar c = false

theorem nameEnds_cons {c : Char} {cs : List Char} : NameEnds (c :: cs) ↔ isNameChar c = false := by
  simp [NameEnds]

namespace Token

/-- A token as a text can hold it: a word consists of name characters, a mark is none and no blank. -/
def IsPart : Token → Prop
  | .word c cs => ∀ d ∈ c :: cs, isNameChar d = true
  | .mark c => isNameChar c = false ∧ Text.isBlank c = false

theorem scan_nil : scan [] = [] := rfl

/-! ## One more character in front -/

theorem push_blank {c : Char} (h : Text.isBlank c = true) (s : List Token × Bool) :
    push c s = (s.1, false) := by
  simp [push, h]

theorem push_mark {c : Char} (hn : isNameChar c = false) (hb : Text.isBlank c = false)
    (s : List Token × Bool) : push c s = (.mark c :: s.1, false) := by
  simp [push, hn, hb]

theorem push_apart {c : Char} (h : isNameChar c = true) (ts : List Token) :
    push c (ts, false) = (.word c [] :: ts, true) := by
  simp [push, h, isBlank_of_isNameChar h]

theorem push_joined {c : Char} (h : isNameChar c = true) (d : Char) (ds : List Char)
    (ts : List Token) : push c (.word d ds :: ts, true) = (.word c (d :: ds) :: ts, true) := by
  simp [push, h, isBlank_of_isNameChar h]

/-- A scanned text joins with a word in front only if it goes on with a name. -/
theorem foldr_push_snd {rest : List Char} (h : NameEnds rest) :
    (rest.foldr push ([], false)).2 = false := by
  cases rest with
  | nil => rfl
  | cons c cs =>
    rw [List.foldr_cons]
    cases hb : Text.isBlank c with
    | true => rw [push_blank hb]
    | false => rw [push_mark (nameEnds_cons.mp h) hb]

/-! ## Scanning -/

theorem scan_blank {c : Char} (h : Text.isBlank c = true) (cs : List Char) :
    scan (c :: cs) = scan cs := by
  simp [scan, push_blank h]

theorem scan_mark {c : Char} (hn : isNameChar c = false) (hb : Text.isBlank c = false)
    (cs : List Char) : scan (c :: cs) = .mark c :: scan cs := by
  simp [scan, push_mark hn hb]

theorem scan_word {c : Char} {cs rest : List Char} (hw : ∀ d ∈ c :: cs, isNameChar d = true)
    (hr : NameEnds rest) : scan (c :: cs ++ rest) = .word c cs :: scan rest := by
  suffices h : ((c :: cs) ++ rest).foldr push ([], false) = (.word c cs :: scan rest, true) by
    rw [scan, h]
  induction cs generalizing c with
  | nil =>
    have hs : rest.foldr push ([], false) = (scan rest, false) :=
      Prod.ext rfl (foldr_push_snd hr)
    rw [List.singleton_append, List.foldr_cons, hs, push_apart (hw c (by simp))]
  | cons d ds ih =>
    have hd : ∀ x ∈ d :: ds, isNameChar x = true := fun x hx => hw x (List.mem_cons_of_mem c hx)
    rw [List.cons_append, List.foldr_cons, ih hd, push_joined (hw c (by simp))]

/-- Words hold name characters only, and marks are none and no blanks. -/
theorem isPart_of_mem_scan {cs : List Char} {tok : Token} (h : tok ∈ scan cs) : tok.IsPart := by
  -- A scanned text that joins begins with a word, so a character in front goes into that word.
  suffices hs : (∀ tok ∈ (cs.foldr push ([], false)).1, tok.IsPart) from hs tok h
  clear h tok
  induction cs with
  | nil => simp
  | cons c cs ih =>
    rw [List.foldr_cons]
    generalize cs.foldr push ([], false) = s at ih
    obtain ⟨ts, joins⟩ := s
    cases hb : Text.isBlank c with
    | true => rwa [push_blank hb]
    | false =>
      cases hn : isNameChar c with
      | false =>
        rw [push_mark hn hb]
        exact List.forall_mem_cons.mpr ⟨⟨hn, hb⟩, ih⟩
      | true =>
        have hword : (Token.word c []).IsPart := by simpa [IsPart] using hn
        unfold push
        simp only [hb, hn, Bool.false_eq_true, ↓reduceIte]
        split
        · next d ds ts =>
          obtain ⟨hd, hts⟩ := List.forall_mem_cons.mp ih
          exact List.forall_mem_cons.mpr ⟨List.forall_mem_cons.mpr ⟨hn, hd⟩, hts⟩
        · exact List.forall_mem_cons.mpr ⟨hword, ih⟩

end Token

end TypeExpr

end TypeExport
