import TypeExport.Proofs.Source.Grammar.Levels
import TypeExport.Source.Declaration

/-!
# Options of fields as they are written

What an option of a field means depends on its own tokens only: `FieldOption.option_written` reads an option
with whatever comes after its end, and leaves that. So a list of options means what its members mean, one
after the other (`FieldOption.ofTokens_written`), and how options are put into attributes does not matter
(`FieldOption.ofAttributes_written`).

* `CommaList`: tokens of items with commas between them.
* `OptionForm`: an option as it is written. `OptionForm.Written` relates it to its tokens, and
  `OptionForm.WellFormed` says what may be written.
* `OptionsWritten`: the options that a list of attributes is written with.
* `Field.options_outcome`: what the options are read for, with the name and the visibility of the field.
-/

namespace TypeExport.Source

open Rule

/-! ## Lists with commas -/

/-- Items with commas between them, and perhaps one after the last item. -/
inductive CommaList {α : Type} (Item : α → List Token → Prop) : List α → List Token → Prop where
  | nil : CommaList Item [] []
  | last {a : α} {ts : List Token} (item : Item a ts) : CommaList Item [a] ts
  | cons {a : α} {as : List α} {ts rest : List Token} (joint : Bool) (item : Item a ts)
    (more : CommaList Item as rest) : CommaList Item (a :: as) (ts ++ .mark ',' joint :: rest)

section CommaList

variable {α β : Type} {Item : α → List Token → Prop}

theorem CommaList.ne_nil {as : List α} {ts : List Token} (h : CommaList Item as ts) (has : as ≠ [])
    (hne : ∀ a ts, Item a ts → ts ≠ []) : ts ≠ [] := by
  cases h with
  | nil => contradiction
  | last item => exact hne _ _ item
  | cons => simp

/-- A rule that reads each item up to a boundary reads a list of them. -/
theorem CommaList.separatedUpTo {r : Rule β} {f : α → β} {as : List α} {ts : List Token}
    (h : CommaList Item as ts) (hne : ∀ a ts, Item a ts → ts ≠ [])
    (hr : ∀ a ∈ as, ∀ ts tail [Boundary tail], Item a ts → r (ts ++ tail) = some (f a, tail))
    {n : Nat} (hn : ts.length < n) :
    separatedUpTo isEnd (mark ",") r n ts = some (as.map f, []) := by
  induction h generalizing n with
  | nil =>
    obtain ⟨n, rfl⟩ := Nat.exists_eq_add_one_of_ne_zero (Nat.ne_zero_of_lt hn)
    rfl
  | @last a ts item =>
    obtain ⟨n, rfl⟩ := Nat.exists_eq_add_one_of_ne_zero (Nat.ne_zero_of_lt hn)
    have hend : isEnd ts = false := List.isEmpty_eq_false_iff.mpr (hne _ _ item)
    have hread : r ts = some (f a, []) := by simpa using hr a (by simp) ts [] item
    rw [Rule.separatedUpTo, sees_bind, hend, if_neg Bool.false_ne_true, bind_of_some hread]
    rfl
  | @cons a as ts rest joint item more ih =>
    obtain ⟨n, rfl⟩ := Nat.exists_eq_add_one_of_ne_zero (Nat.ne_zero_of_lt hn)
    have hend : isEnd (ts ++ .mark ',' joint :: rest) = false := by simp [isEnd]
    have hread := hr a (by simp) ts (.mark ',' joint :: rest) item
    have hmore := ih (fun a ha => hr a (List.mem_cons_of_mem _ ha)) (n := n) (by
      simp only [List.length_append, List.length_cons] at hn
      omega)
    rw [Rule.separatedUpTo, sees_bind, hend, if_neg Bool.false_ne_true, bind_of_some hread, sees_bind,
      if_neg (by simp [isEnd])]
    rw [bind_of_some (mark_mark (by simp) joint rest), bind_of_some hmore]
    rfl

theorem CommaList.commaList {r : Rule β} {f : α → β} {as : List α} {ts : List Token}
    (h : CommaList Item as ts) (hne : ∀ a ts, Item a ts → ts ≠ [])
    (hr : ∀ a ∈ as, ∀ ts tail [Boundary tail], Item a ts → r (ts ++ tail) = some (f a, tail)) :
    commaList r ts = some (as.map f, []) :=
  h.separatedUpTo hne hr (Nat.lt_succ_self _)

end CommaList

/-! ## Paths -/

/-- A path in an option. -/
structure OptionPath where
  /-- It begins with a double colon. -/
  isGlobal : Bool
  /-- Its parts, one at least. They may be keywords. -/
  first : String
  more : List String
  deriving DecidableEq, Repr

namespace OptionPath

/-- The path is a single name. -/
def IsNamed (p : OptionPath) (n : String) : Prop := p = ⟨false, n, []⟩

/-- A double colon. Another mark may follow right after it. -/
def colons (joint : Bool) : List Token := [.mark ':' true, .mark ':' joint]

/-- The names of a path with double colons between them. -/
inductive Names : List String → List Token → Prop where
  | one (n : String) : Names [n] [.word n]
  | cons (n : String) (joint : Bool) {ns : List String} {ts : List Token} (more : Names ns ts) :
    Names (n :: ns) (.word n :: colons joint ++ ts)

/-- The tokens of a path. -/
inductive Written : OptionPath → List Token → Prop where
  | plain {n : String} {ns : List String} {ts : List Token} (names : Names (n :: ns) ts) :
    Written ⟨false, n, ns⟩ ts
  | globally (joint : Bool) {n : String} {ns : List String} {ts : List Token}
    (names : Names (n :: ns) ts) : Written ⟨true, n, ns⟩ (colons joint ++ ts)

@[simp] theorem optionalMark_colons_append (joint : Bool) (ts : List Token) :
    optionalMark "::" (colons joint ++ ts) = some (true, ts) :=
  optionalMark_of (u := ()) rfl (by cases joint <;> rfl)

theorem Names.joinedUpTo {ns : List String} {ts : List Token} (h : Names ns ts) {rest : List Token}
    (hrest : isMark "::" rest = false) {n : Nat} (hn : ts.length ≤ n) :
    joinedUpTo (fun _ => false) "::" anyWord n (ts ++ rest) = some (ns, rest) := by
  induction h generalizing n with
  | one w =>
    obtain ⟨n, rfl⟩ := Nat.exists_eq_add_one_of_ne_zero (Nat.ne_zero_of_lt hn)
    have hword : anyWord ([.word w] ++ rest) = some (w, rest) := rfl
    rw [Rule.joinedUpTo, sees_bind, if_neg Bool.false_ne_true, bind_of_some hword,
      bind_of_some (optionalMark_of_not hrest)]
    rfl
  | @cons w joint ns ts more ih =>
    obtain ⟨n, rfl⟩ := Nat.exists_eq_add_one_of_ne_zero (Nat.ne_zero_of_lt hn)
    have hword : anyWord (.word w :: colons joint ++ ts ++ rest) = some (w, colons joint ++ (ts ++ rest)) := rfl
    rw [Rule.joinedUpTo, sees_bind, if_neg Bool.false_ne_true, bind_of_some hword,
      bind_of_some (optionalMark_colons_append joint _), if_pos rfl, bind_of_some (ih _)]
    · rfl
    · simp [colons] at hn
      omega

theorem Names.joined {ns : List String} {ts : List Token} (h : Names ns ts) {rest : List Token}
    (hrest : isMark "::" rest = false) :
    joined (fun _ => false) "::" anyWord (ts ++ rest) = some (ns, rest) :=
  h.joinedUpTo hrest (by simp; omega)

/-- A path ends where no double colon follows. -/
theorem Written.path {p : OptionPath} {ts : List Token} (h : p.Written ts) {rest : List Token}
    (hrest : isMark "::" rest = false) :
    FieldOption.path (ts ++ rest) = some ((p.isGlobal, p.first :: p.more), rest) := by
  cases h with
  | plain names =>
    have hcolons : isMark "::" (ts ++ rest) = false := by cases names <;> rfl
    rw [FieldOption.path, bind_of_some (optionalMark_of_not hcolons),
      bind_of_some (names.joined hrest)]
    rfl
  | globally joint names =>
    rw [FieldOption.path, List.append_assoc, bind_of_some (optionalMark_colons_append joint _),
      bind_of_some (names.joined hrest)]
    rfl

@[simp] theorem isMark_colons_equals (joint : Bool) (ts : List Token) :
    isMark "::" (.mark '=' joint :: ts) = false := by
  cases joint <;> rfl

theorem Written.ne_nil {p : OptionPath} {ts : List Token} (h : p.Written ts) : ts ≠ [] := by
  cases h with
  | plain names => cases names <;> simp
  | globally => simp [colons]

instance (p : OptionPath) (n : String) : Decidable (p.IsNamed n) :=
  inferInstanceAs (Decidable (p = _))

end OptionPath

/-! ## Options -/

/-- The tokens are an expression. -/
def IsExpression (ts : List Token) : Prop := (run expression ts).isSome = true

instance (ts : List Token) : Decidable (IsExpression ts) :=
  inferInstanceAs (Decidable (_ = true))

/-- An option as it is written. -/
inductive OptionForm where
  | word (p : OptionPath)
  /-- An equals sign with an expression after the path. -/
  | value (p : OptionPath) (v : List Token)
  /-- Options with values in parentheses after the path. -/
  | list (p : OptionPath) (inner : List (OptionPath × List Token))

/-- The tokens are a path, an equals sign and the value. -/
inductive IsAssignment : OptionPath × List Token → List Token → Prop where
  | mk {p : OptionPath} {ts : List Token} (joint : Bool) (v : List Token) (path : p.Written ts) :
    IsAssignment (p, v) (ts ++ .mark '=' joint :: v)

namespace OptionForm

/-- The tokens of an option. -/
inductive Written : OptionForm → List Token → Prop where
  | word {p : OptionPath} {ts : List Token} (path : p.Written ts) : Written (.word p) ts
  | value {p : OptionPath} {v ts : List Token} (assignment : IsAssignment (p, v) ts) :
    Written (.value p v) ts
  | list {p : OptionPath} {vs : List (OptionPath × List Token)} {ts inner : List Token}
    (path : p.Written ts) (values : CommaList IsAssignment vs inner) :
    Written (.list p vs) (ts ++ [.group .paren inner])

/-- What may be written. A new name comes with a text, leaving a field out comes without a value, and the
other options have values that are expressions or none. -/
def WellFormed : OptionForm → Prop
  | .word p => ¬p.IsNamed "rename"
  | .value p v =>
    ¬p.IsNamed "skip" ∧ ¬p.IsNamed "skip_serializing" ∧
      if p.IsNamed "rename" then ∃ s, v = [.literal (.text s)] else IsExpression v
  | .list _ vs => vs ≠ [] ∧ ∀ v ∈ vs, IsExpression v.2

/-- The option leaves the field out. -/
def IsSkip : OptionForm → Prop
  | .word p => p.IsNamed "skip" ∨ p.IsNamed "skip_serializing"
  | _ => False

instance : DecidablePred IsSkip
  | .word _ => inferInstanceAs (Decidable (_ ∨ _))
  | .value .. => inferInstanceAs (Decidable False)
  | .list .. => inferInstanceAs (Decidable False)

/-- The name that the option gives. -/
def newName? : OptionForm → Option String
  | .value p [.literal (.text s)] => if p.IsNamed "rename" then some s else none
  | _ => none

theorem newName?_value_of_not {p : OptionPath} (h : ¬p.IsNamed "rename") (v : List Token) :
    newName? (.value p v) = none := by
  unfold newName?
  split <;> simp_all

/-- What the option means. -/
def meaning (o : OptionForm) : FieldOption :=
  match o.newName? with
  | some n => .rename n
  | none => if o.IsSkip then .skip else .other

theorem Written.ne_nil {o : OptionForm} {ts : List Token} (h : o.Written ts) : ts ≠ [] := by
  cases h with
  | word path => exact path.ne_nil
  | value assignment => cases assignment; simp
  | list => simp

end OptionForm

theorem exists_of_isSome_run {α : Type} {r : Rule α} {ts : List Token} (h : (run r ts).isSome) :
    ∃ a, r ts = some (a, []) := by
  unfold run at h
  split at h
  next a ha => exact ⟨a, ha⟩
  next => cases h

namespace FieldOption

theorem value_assignment {v : List Token} (h : IsExpression v) (joint : Bool) {tail : List Token}
    [Boundary tail] : value (.mark '=' joint :: (v ++ tail)) = some ((), tail) := by
  obtain ⟨e, he⟩ := exists_of_isSome_run h
  rw [value, bind_of_some (mark_mark (by simp) joint _)]
  exact discard_eq_some_iff.mpr ⟨e, expression_extends v e [] he⟩

theorem inner_written {vs : List (OptionPath × List Token)} {ts : List Token}
    (h : CommaList IsAssignment vs ts) (hne : vs ≠ []) (hv : ∀ v ∈ vs, IsExpression v.2) :
    inner ts = some ((), []) := by
  have hnil (v : OptionPath × List Token) (us : List Token) (hus : IsAssignment v us) : us ≠ [] := by
    cases hus
    simp
  have hend : isEnd ts = false := List.isEmpty_eq_false_iff.mpr (h.ne_nil hne hnil)
  have hread : commaList (do discard path; value) ts = some (vs.map fun _ => (), []) := by
    refine h.commaList hnil fun v hvs us tail _ hus => ?_
    cases hus with
    | mk joint w hpath =>
      have hpath := hpath.path (OptionPath.isMark_colons_equals joint (w ++ tail))
      rw [List.append_assoc, List.cons_append,
        bind_of_some (discard_eq_some_iff.mpr ⟨_, hpath⟩) (a := ())]
      exact value_assignment (hv _ hvs) joint
  rw [inner, sees_bind, hend, if_neg Bool.false_ne_true]
  exact discard_eq_some_iff.mpr ⟨_, hread⟩

/-- An option without parentheses. -/
theorem option_of_path {p : OptionPath} {ts rest : List Token}
    (h : path ts = some ((p.isGlobal, p.first :: p.more), rest)) (hrest : isGroup .paren rest = false) :
    option ts =
      (if p.IsNamed "rename" then do
        mark "="
        return .rename (← textLiteral)
      else if p.IsNamed "skip" ∨ p.IsNamed "skip_serializing" then return .skip
      else do
        if ← sees (isMark "=") then value
        return .other : Rule FieldOption) rest := by
  have hrename : (!p.isGlobal && decide (p.first :: p.more = ["rename"])) = true ↔ p.IsNamed "rename" := by
    cases p
    simp [OptionPath.IsNamed]
  have hskip : (!p.isGlobal &&
      (decide (p.first :: p.more = ["skip"]) || decide (p.first :: p.more = ["skip_serializing"]))) = true ↔
      p.IsNamed "skip" ∨ p.IsNamed "skip_serializing" := by
    cases p
    simp [OptionPath.IsNamed, and_or_left]
  rw [option, bind_of_some h]
  simp only [sees_bind, hrest, Bool.false_eq_true, if_false, hrename, hskip]

/-! ## The forms of options -/

/-- A group ends by itself, so nothing is asked of what comes after it. -/
theorem option_list {p : OptionPath} {vs : List (OptionPath × List Token)} {ts content tail : List Token}
    (h : p.Written ts) (hvalues : CommaList IsAssignment vs content) (hw : (OptionForm.list p vs).WellFormed) :
    option (ts ++ .group .paren content :: tail) = some ((OptionForm.list p vs).meaning, tail) := by
  have hpath := h.path (rfl : isMark "::" (.group .paren content :: tail) = false)
  have hgroup : isGroup .paren (.group .paren content :: tail) = true := rfl
  have hinner : group .paren inner (.group .paren content :: tail) = some ((), tail) := by
    simp only [group, inner_written hvalues hw.1 hw.2, if_true]
  rw [option, bind_of_some hpath]
  simp only [sees_bind, if_pos hgroup, bind_of_some hinner]
  rfl

section Forms

variable {p : OptionPath} {ts tail : List Token} [Boundary tail]

theorem option_word (h : p.Written ts) (hrename : ¬p.IsNamed "rename") :
    option (ts ++ tail) = some ((OptionForm.word p).meaning, tail) := by
  have hpath := h.path (isMark_boundary (by simp) (by simp) : isMark "::" tail = false)
  rw [option_of_path hpath (IsOfFirst.group .paren).boundary, if_neg hrename]
  by_cases hskip : p.IsNamed "skip" ∨ p.IsNamed "skip_serializing"
  · have hmeaning : (OptionForm.word p).meaning = .skip := if_pos hskip
    rw [if_pos hskip, hmeaning]
    rfl
  · have hmeaning : (OptionForm.word p).meaning = .other := if_neg hskip
    rw [if_neg hskip, sees_bind, isMark_boundary (by simp) (by simp), hmeaning]
    rfl

theorem option_value {v : List Token} (h : IsAssignment (p, v) ts) (hw : (OptionForm.value p v).WellFormed) :
    option (ts ++ tail) = some ((OptionForm.value p v).meaning, tail) := by
  obtain ⟨hskip, hserializing, hv⟩ := hw
  cases h with
  | mk joint v hwritten =>
    have hpath := hwritten.path (OptionPath.isMark_colons_equals joint (v ++ tail))
    rw [List.append_assoc, List.cons_append, option_of_path hpath rfl]
    by_cases hrename : p.IsNamed "rename"
    · rw [if_pos hrename] at hv ⊢
      obtain ⟨s, rfl⟩ := hv
      rw [bind_of_some (mark_mark (by simp) joint _)]
      simp only [OptionForm.meaning, OptionForm.newName?, if_pos hrename]
      rfl
    · rw [if_neg hrename] at hv ⊢
      have hequals : isMark "=" (.mark '=' joint :: (v ++ tail)) = true := rfl
      rw [if_neg (not_or.mpr ⟨hskip, hserializing⟩), sees_bind, if_pos hequals,
        bind_of_some (value_assignment hv joint)]
      simp only [OptionForm.meaning, OptionForm.newName?_value_of_not hrename]
      rfl

/-- An option is read up to its end, whatever comes there. -/
theorem option_written {o : OptionForm} (h : o.Written ts) (hw : o.WellFormed) :
    option (ts ++ tail) = some (o.meaning, tail) := by
  cases h with
  | word path => exact option_word path hw
  | value assignment => exact option_value assignment hw
  | list path values =>
    rw [List.append_assoc]
    exact option_list path values hw

end Forms

/-! ## Lists of options -/

theorem upTo_written {os : List OptionForm} {ts : List Token} (h : CommaList OptionForm.Written os ts)
    (hw : ∀ o ∈ os, o.WellFormed) {n : Nat} (hn : ts.length ≤ n) :
    upTo n ts = os.map OptionForm.meaning := by
  induction h generalizing n with
  | nil => cases n <;> rfl
  | @last o ts written =>
    have hne := List.length_pos_iff.mpr written.ne_nil
    obtain ⟨n, rfl⟩ := Nat.exists_eq_add_one_of_ne_zero (by omega : n ≠ 0)
    have hread : option ts = some (o.meaning, []) := by
      have hread : option (ts ++ []) = some (o.meaning, []) := option_written written (hw o (by simp))
      simpa using hread
    simp only [upTo, hread, List.map_cons, List.map_nil]
  | @cons o os ts rest joint written more ih =>
    simp only [List.length_append, List.length_cons] at hn
    obtain ⟨n, rfl⟩ := Nat.exists_eq_add_one_of_ne_zero (by omega : n ≠ 0)
    have hread : option (ts ++ .mark ',' joint :: rest) = some (o.meaning, .mark ',' joint :: rest) :=
      option_written written (hw o (by simp))
    have hmore := ih (fun o ho => hw o (List.mem_cons_of_mem _ ho)) (by omega : rest.length ≤ n)
    simp only [upTo, hread, hmore, List.map_cons]

/-- Options are read one after the other: none takes tokens of the ones after it. -/
theorem ofTokens_written {os : List OptionForm} {ts : List Token} (h : CommaList OptionForm.Written os ts)
    (hw : ∀ o ∈ os, o.WellFormed) : ofTokens ts = os.map OptionForm.meaning :=
  upTo_written h hw (Nat.le_refl _)

end FieldOption

/-! ## Attributes -/

/-- The options that attributes are written with: some of them are in each list of the attribute `serde`, and
none is in anything else. -/
inductive OptionsWritten : List Attribute → List OptionForm → Prop where
  | nil : OptionsWritten [] []
  | other {a : Attribute} {as : List Attribute} {os : List OptionForm}
    (notList : a.isNamed "serde" = true → ∀ ts, a.content ≠ .list ts) (more : OptionsWritten as os) :
    OptionsWritten (a :: as) os
  | serde {a : Attribute} {as : List Attribute} {os os' : List OptionForm} {ts : List Token}
    (named : a.isNamed "serde" = true) (content : a.content = .list ts)
    (list : CommaList OptionForm.Written os ts) (more : OptionsWritten as os') :
    OptionsWritten (a :: as) (os ++ os')

namespace FieldOption

theorem ofAttributes_written {as : List Attribute} {os : List OptionForm} (h : OptionsWritten as os)
    (hw : ∀ o ∈ os, o.WellFormed) : ofAttributes as = os.map OptionForm.meaning := by
  induction h with
  | nil => rfl
  | @other a as os notList more ih =>
    have ha : ofAttribute a = [] := by
      unfold ofAttribute
      split
      next ts hts => rw [if_neg fun hnamed => notList hnamed ts hts]
      next => rfl
    rw [ofAttributes, List.flatMap_cons, ha, List.nil_append]
    exact ih hw
  | @serde a as os os' ts named content list more ih =>
    have ha : ofAttribute a = os.map OptionForm.meaning := by
      rw [ofAttribute, content]
      simp only [named, if_true]
      exact ofTokens_written list fun o ho => hw o (List.mem_append_left _ ho)
    rw [ofAttributes, List.flatMap_cons, ha, List.map_append, ← ih fun o ho =>
      hw o (List.mem_append_right _ ho)]
    rfl

theorem meaning_eq_skip_iff (o : OptionForm) : o.meaning = .skip ↔ o.IsSkip := by
  unfold OptionForm.meaning
  split
  next n hn =>
    have hskip : ¬o.IsSkip := by cases o <;> simp_all [OptionForm.newName?, OptionForm.IsSkip]
    simp [hskip]
  next => split <;> simp_all

theorem name?_meaning (o : OptionForm) : name? o.meaning = o.newName? := by
  unfold OptionForm.meaning
  split
  next n hn => rw [hn, name?]
  next hn => split <;> rw [hn] <;> rfl

theorem areSkipping_map_meaning (os : List OptionForm) :
    areSkipping (os.map OptionForm.meaning) = true ↔ ∃ o ∈ os, o.IsSkip := by
  simp [areSkipping, meaning_eq_skip_iff]

theorem newName?_map_meaning (os : List OptionForm) :
    newName? (os.map OptionForm.meaning) = (os.filterMap OptionForm.newName?).getLast? := by
  simp only [newName?, List.filterMap_map, Function.comp_def, name?_meaning]

end FieldOption

namespace Field

variable (f : Field) {os : List OptionForm}

theorem name_toProperty_written (h : OptionsWritten f.attributes os) (hw : ∀ o ∈ os, o.WellFormed) :
    f.toProperty.name = ((os.filterMap OptionForm.newName?).getLast?).getD f.name := by
  simp only [toProperty, FieldOption.ofAttributes_written h hw, FieldOption.newName?_map_meaning]

theorem visibility_toProperty_written (h : OptionsWritten f.attributes os) (hw : ∀ o ∈ os, o.WellFormed) :
    f.toProperty.visibility = .exposed ↔ f.isPublic = true ∧ ∀ o ∈ os, ¬o.IsSkip := by
  have hskips : (¬FieldOption.areSkipping (os.map OptionForm.meaning) = true) ↔ ∀ o ∈ os, ¬o.IsSkip := by
    rw [FieldOption.areSkipping_map_meaning]
    simp
  rw [← hskips]
  simp [toProperty, FieldOption.ofAttributes_written h hw]

/-- **Options of fields.** However the options of a field are put into attributes, each is read for what it
means, and none changes what another one means. -/
theorem options_outcome (h : OptionsWritten f.attributes os) (hw : ∀ o ∈ os, o.WellFormed) :
    FieldOption.ofAttributes f.attributes = os.map OptionForm.meaning ∧
    (FieldOption.areSkipping (FieldOption.ofAttributes f.attributes) = true ↔ ∃ o ∈ os, o.IsSkip) ∧
    FieldOption.newName? (FieldOption.ofAttributes f.attributes) =
      (os.filterMap OptionForm.newName?).getLast? ∧
    f.toProperty.name = ((os.filterMap OptionForm.newName?).getLast?).getD f.name ∧
    (f.toProperty.visibility = .exposed ↔ f.isPublic = true ∧ ∀ o ∈ os, ¬o.IsSkip) := by
  have hread := FieldOption.ofAttributes_written h hw
  have hskip := FieldOption.areSkipping_map_meaning os
  have hname := FieldOption.newName?_map_meaning os
  exact ⟨hread, hread ▸ hskip, hread ▸ hname, f.name_toProperty_written h hw,
    f.visibility_toProperty_written h hw⟩

end Field

/-- A field with the attributes `#[serde(default = 1 + 2, rename = "Total",)]`, `#[doc(hidden)]` and
`#[serde(rename(serialize = "Sum"), skip)]`. -/
def totalField : Field where
  attributes := [
    { isGlobal := false, path := ["serde"], content := .list [.word "default", .mark '=' false,
      .literal (.integer 1 ""), .mark '+' false, .literal (.integer 2 ""), .mark ',' false,
      .word "rename", .mark '=' false, .literal (.text "Total"), .mark ',' false] },
    { isGlobal := false, path := ["doc"], content := .list [.word "hidden"] },
    { isGlobal := false, path := ["serde"], content := .list [.word "rename",
      .group .paren [.word "serialize", .mark '=' false, .literal (.text "Sum")], .mark ',' false,
      .word "skip"] }]
  isPublic := true
  name := "total"
  type := .other

/-- The options of `totalField`. -/
def totalOptions : List OptionForm := [
  .value ⟨false, "default", []⟩ [.literal (.integer 1 ""), .mark '+' false, .literal (.integer 2 "")],
  .value ⟨false, "rename", []⟩ [.literal (.text "Total")],
  .list ⟨false, "rename", []⟩ [(⟨false, "serialize", []⟩, [.literal (.text "Sum")])],
  .word ⟨false, "skip", []⟩]

theorem options_outcome_totalField :
    OptionsWritten totalField.attributes totalOptions ∧ (∀ o ∈ totalOptions, o.WellFormed) ∧
      totalField.toProperty.name = "Total" ∧ totalField.toProperty.visibility ≠ .exposed := by
  have hpath (n : String) : OptionPath.Written ⟨false, n, []⟩ [.word n] := .plain (.one n)
  have hfirst : CommaList OptionForm.Written (totalOptions.take 2) _ :=
    .cons false (.value (.mk false _ (hpath "default"))) (.cons false (.value (.mk false _ (hpath "rename"))) .nil)
  have hsecond : CommaList OptionForm.Written (totalOptions.drop 2) _ :=
    .cons false (.list (hpath "rename") (.last (.mk false _ (hpath "serialize")))) (.last (.word (hpath "skip")))
  have hwritten : OptionsWritten totalField.attributes totalOptions :=
    .serde rfl rfl hfirst (.other (fun h => absurd h (by decide)) (.serde rfl rfl hsecond .nil))
  have hsum : IsExpression [.literal (.integer 1 ""), .mark '+' false, .literal (.integer 2 "")] := by
    decide +kernel
  have htext : IsExpression [.literal (.text "Sum")] := by decide +kernel
  have hw : ∀ o ∈ totalOptions, o.WellFormed := by
    rw [totalOptions, List.forall_mem_cons, List.forall_mem_cons, List.forall_mem_cons,
      List.forall_mem_singleton]
    exact ⟨⟨by decide, by decide, hsum⟩, ⟨by decide, by decide, "Total", rfl⟩,
      ⟨by decide, List.forall_mem_singleton.mpr htext⟩,
      (by decide : ¬OptionPath.IsNamed ⟨false, "skip", []⟩ "rename")⟩
  obtain ⟨-, -, -, hname, hvisibility⟩ := totalField.options_outcome hwritten hw
  have hskip : .word ⟨false, "skip", []⟩ ∈ totalOptions := by simp [totalOptions]
  exact ⟨hwritten, hw, hname, fun h => (hvisibility.mp h).2 _ hskip (.inl rfl)⟩

end TypeExport.Source
