import TypeExport.Source.Rule

/-!
# Looking ahead at the end of an item of a list

What stands between commas in brackets ends at a comma or with the tokens. For the properties that rules
look ahead for, both ends are the same: `Boundary` is the class of the lists of tokens that begin there.
No property of the first token holds at a boundary (`IsOfFirst.boundary`, and for marks `isMark_boundary`),
so such a property is the same with a boundary after the tokens (`IsOfFirst.append`, `isMark_append`). A
property of the second or third token could see what stands after the comma, unless a property of the
tokens before stands guard (`and_second_append`).
-/

namespace TypeExport.Source

/-- The end of an item of a list, with what follows it. -/
class Boundary (tail : List Token) : Prop where
  eq_nil_or : tail = [] ∨ ∃ joint more, tail = .mark ',' joint :: more

theorem Boundary.cases (tail : List Token) [h : Boundary tail] :
    tail = [] ∨ ∃ joint more, tail = .mark ',' joint :: more :=
  h.eq_nil_or

instance Boundary.nil : Boundary [] := ⟨.inl rfl⟩

instance Boundary.comma (joint : Bool) (more : List Token) : Boundary (.mark ',' joint :: more) :=
  ⟨.inr ⟨joint, more, rfl⟩⟩

namespace Rule

/-! ## Marks -/

section Marks

variable {tail : List Token} [Boundary tail]

theorem isMarks_boundary {cs : List Char} (hc : ',' ∉ cs) (hne : cs ≠ []) : isMarks cs tail = false := by
  obtain rfl | ⟨joint, more, rfl⟩ := Boundary.cases tail
  · match cs with
    | [] => contradiction
    | [_] => rfl
    | _ :: _ :: _ => rfl
  · match cs with
    | [] => contradiction
    | [c] => exact beq_false_of_ne fun h => hc (h ▸ List.mem_cons_self)
    | c :: c' :: cs =>
      have : (c == ',') = false := beq_false_of_ne fun h => hc (h ▸ List.mem_cons_self)
      cases joint
      · rfl
      · exact Bool.and_eq_false_imp.mpr fun h => absurd h (by simp [this])

theorem isMarks_append {cs : List Char} (hc : ',' ∉ cs) (ts : List Token) :
    isMarks cs (ts ++ tail) = isMarks cs ts := by
  induction cs generalizing ts with
  | nil => simp [isMarks]
  | cons c cs ih =>
    rw [List.mem_cons, not_or] at hc
    cases ts with
    | nil =>
      have hc : ',' ∉ c :: cs := by simpa using hc
      simp [isMarks_boundary hc]
    | cons t ts =>
      match cs, t with
      | [], .mark _ _ => rfl
      | _ :: _, .mark _ true => simp only [List.cons_append, isMarks, ih hc.2]
      | _ :: _, .mark _ false => rfl
      | [], .word _ | [], .lifetime _ | [], .literal _ | [], .group _ _ => rfl
      | _ :: _, .word _ | _ :: _, .lifetime _ | _ :: _, .literal _ | _ :: _, .group _ _ => rfl

@[simp] theorem isMark_boundary {s : String} (hs : ',' ∉ s.toList) (hne : s ≠ "") : isMark s tail = false :=
  isMarks_boundary hs (by simpa using hne)

@[simp] theorem isMark_append {s : String} (hs : ',' ∉ s.toList) (ts : List Token) :
    isMark s (ts ++ tail) = isMark s ts :=
  isMarks_append hs ts

end Marks

/-- What the first token is does not depend on the tokens after it. -/
theorem isMark_comma_cons_append (t : Token) (ts tail : List Token) :
    isMark "," (t :: (ts ++ tail)) = isMark "," (t :: ts) := by
  cases t <;> rfl

/-- An end or a comma is at every boundary. -/
@[simp] theorem isEnd_or_isMark_comma_append {tail : List Token} [Boundary tail] (ts : List Token)
    (b : Bool) : (isEnd (ts ++ tail) || (isMark "," (ts ++ tail) || b)) =
      (isEnd ts || (isMark "," ts || b)) := by
  cases ts with
  | nil => obtain rfl | ⟨_, _, rfl⟩ := Boundary.cases tail <;> rfl
  | cons t ts => rw [List.cons_append, isMark_comma_cons_append]; rfl

/-! ## Other tokens -/

section Tokens

variable {tail : List Token} [Boundary tail]

/-- The property is one of the first token, and no comma has it. -/
structure IsOfFirst (p : List Token → Bool) : Prop where
  nil : p [] = false
  comma (joint : Bool) (more : List Token) : p (.mark ',' joint :: more) = false
  cons (t : Token) (ts us : List Token) : p (t :: ts) = p (t :: us)

namespace IsOfFirst

variable {p : List Token → Bool}

theorem boundary (h : IsOfFirst p) : p tail = false := by
  obtain rfl | ⟨joint, more, rfl⟩ := Boundary.cases tail
  · exact h.nil
  · exact h.comma joint more

theorem append (h : IsOfFirst p) (ts : List Token) : p (ts ++ tail) = p ts := by
  cases ts with
  | nil => rw [List.nil_append, h.boundary, h.nil]
  | cons t ts => exact h.cons t _ _

theorem word (w : String) : IsOfFirst (isWord w) := ⟨rfl, fun _ _ => rfl, fun t _ _ => by cases t <;> rfl⟩

theorem anyWord : IsOfFirst isAnyWord := ⟨rfl, fun _ _ => rfl, fun t _ _ => by cases t <;> rfl⟩

theorem name : IsOfFirst isName := ⟨rfl, fun _ _ => rfl, fun t _ _ => by cases t <;> rfl⟩

theorem lifetime : IsOfFirst isLifetime := ⟨rfl, fun _ _ => rfl, fun t _ _ => by cases t <;> rfl⟩

theorem group (d : Delimiter) : IsOfFirst (isGroup d) := ⟨rfl, fun _ _ => rfl, fun t _ _ => by cases t <;> rfl⟩

theorem anyGroup : IsOfFirst isAnyGroup := ⟨rfl, fun _ _ => rfl, fun t _ _ => by cases t <;> rfl⟩

theorem text : IsOfFirst isText :=
  ⟨rfl, fun _ _ => rfl, fun t _ _ => by rcases t with _ | _ | _ | ⟨_ | _ | _ | _⟩ | _ <;> rfl⟩

end IsOfFirst

@[simp] theorem isWord_append (w : String) (ts : List Token) : isWord w (ts ++ tail) = isWord w ts :=
  (IsOfFirst.word w).append ts

@[simp] theorem isAnyWord_append (ts : List Token) : isAnyWord (ts ++ tail) = isAnyWord ts :=
  IsOfFirst.anyWord.append ts

@[simp] theorem isName_append (ts : List Token) : isName (ts ++ tail) = isName ts :=
  IsOfFirst.name.append ts

@[simp] theorem isLifetime_append (ts : List Token) : isLifetime (ts ++ tail) = isLifetime ts :=
  IsOfFirst.lifetime.append ts

@[simp] theorem isGroup_append (d : Delimiter) (ts : List Token) : isGroup d (ts ++ tail) = isGroup d ts :=
  (IsOfFirst.group d).append ts

@[simp] theorem isAnyGroup_append (ts : List Token) : isAnyGroup (ts ++ tail) = isAnyGroup ts :=
  IsOfFirst.anyGroup.append ts

@[simp] theorem isText_append (ts : List Token) : isText (ts ++ tail) = isText ts :=
  IsOfFirst.text.append ts

@[simp] theorem isLiteral_boundary : isLiteral tail = false := by
  obtain rfl | ⟨_, _, rfl⟩ := Boundary.cases tail <;> rfl

@[simp] theorem isLiteral_append : ∀ ts, isLiteral (ts ++ tail) = isLiteral ts
  | [] => by rw [List.nil_append, isLiteral_boundary]; rfl
  | [t] => by
    obtain rfl | ⟨_, _, rfl⟩ := Boundary.cases tail
    · rfl
    · cases t <;> simp [isLiteral]
  | .mark c _ :: u :: _ => by
    by_cases hc : c = '-'
    · subst hc
      rcases u with _ | _ | _ | ⟨_ | _ | _ | _⟩ | _ <;> rfl
    · simp [isLiteral, hc]
  | .word _ :: _ :: _ | .lifetime _ :: _ :: _ | .literal _ :: _ :: _ | .group _ _ :: _ :: _ => rfl

end Tokens

/-! ## The tokens after the first one -/

@[simp] theorem second_cons (p : List Token → Bool) (t : Token) (ts : List Token) :
    second p (t :: ts) = p ts :=
  rfl

@[simp] theorem third_cons (p : List Token → Bool) (t : Token) (ts : List Token) :
    third p (t :: ts) = second p ts :=
  rfl

@[simp] theorem not_second (p : List Token → Bool) (ts : List Token) :
    (!second p ts) = second (fun ts => !p ts) ts :=
  rfl

@[simp] theorem not_third (p : List Token → Bool) (ts : List Token) :
    (!third p ts) = third (fun ts => !p ts) ts :=
  rfl

/-- A double colon has two tokens. -/
theorem eq_of_isMark_doubleColon {ts : List Token} (h : isMark "::" ts = true) :
    ∃ joint rest, ts = .mark ':' true :: .mark ':' joint :: rest := by
  rcases ts with _ | ⟨_ | _ | ⟨c, _ | _⟩ | _ | _, ts⟩
  case cons.mark.true =>
    obtain ⟨hc, hts⟩ := Bool.and_eq_true_iff.mp (h : (':' == c && isMarks [':'] ts) = true)
    rcases ts with _ | ⟨_ | _ | ⟨d, joint⟩ | _ | _, ts⟩
    case cons.mark =>
      cases beq_iff_eq.mp hc
      cases beq_iff_eq.mp (hts : (':' == d) = true)
      exact ⟨joint, ts, rfl⟩
    all_goals cases hts
  all_goals cases h

@[simp] theorem isMark_doubleColon_singleton (t : Token) : isMark "::" [t] = false := by
  rcases t with _ | _ | ⟨_, _ | _⟩ | _ | _
  case mark.true => exact Bool.and_false _
  all_goals rfl

section Guards

variable {tail : List Token} {p : List Token → Bool} (hp : ∀ ts, p (ts ++ tail) = p ts)

include hp

theorem and_second_append {q : List Token → Bool} (hq : q [] = false) (ts : List Token) :
    (q ts && second p (ts ++ tail)) = (q ts && second p ts) := by
  cases ts with
  | nil => rw [hq, Bool.false_and, Bool.false_and]
  | cons t ts => rw [List.cons_append, second_cons, second_cons, hp]

@[simp] theorem isLifetime_and_second_append (ts : List Token) :
    (isLifetime ts && second p (ts ++ tail)) = (isLifetime ts && second p ts) :=
  and_second_append hp IsOfFirst.lifetime.nil ts

@[simp] theorem isWord_and_second_append (w : String) (ts : List Token) :
    (isWord w ts && second p (ts ++ tail)) = (isWord w ts && second p ts) :=
  and_second_append hp (IsOfFirst.word w).nil ts

@[simp] theorem isMark_and_second_append {s : String} (hs : ',' ∉ s.toList) (hne : s ≠ "")
    (ts : List Token) : (isMark s ts && second p (ts ++ tail)) = (isMark s ts && second p ts) :=
  and_second_append hp (isMark_boundary hs hne) ts

@[simp] theorem isName_and_second_append (ts : List Token) :
    (isName ts && second p (ts ++ tail)) = (isName ts && second p ts) :=
  and_second_append hp IsOfFirst.name.nil ts

@[simp] theorem doubleColon_and_third_append (ts : List Token) :
    (isMark "::" ts && third p (ts ++ tail)) = (isMark "::" ts && third p ts) := by
  rcases ts with _ | ⟨t, _ | ⟨u, ts⟩⟩ <;> simp [hp]

end Guards

end Rule

end TypeExport.Source
