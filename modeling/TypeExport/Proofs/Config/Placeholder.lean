import Mathlib.Data.List.Basic
import Mathlib.Data.List.Count
import Mathlib.Data.List.Induction
import Mathlib.Data.List.TakeDrop
import Mathlib.Data.List.TakeWhile
import Mathlib.Logic.Function.Basic
import TypeExport.Config.Placeholder

/-!
# Substitution in one pass

The placeholders of a text are replaced one after the other, each wherever it stands by then. That is the same as
replacing all of them at once as long as no new placeholder of a variable stands in the text when its turn comes:
not in a value, and not put together from a value and the text around it.

* `Placeholder.Reads`: a text as its placeholders and the characters between them, from left to right.
* `Placeholder.expand`: the text with all values put in at once.
* `Placeholder.replaceAll_fill`: one replacement puts in one more value, if there is no new placeholder.
* `Placeholder.Undisturbed`: no turn finds a new placeholder. `Placeholder.undisturbed_of_plain` is a simple case.
* `Placeholder.substitute_eq_expand`: then one pass and the turns give the same text.
* `Placeholder.not_substitute_eq_expand`: they do not always.
-/

namespace TypeExport.Placeholder

/-! ## Placeholders at the beginning of a text -/

/-- The names of variables. -/
def IsName : List Char → Prop
  | [] => False
  | c :: cs => isStart c = true ∧ ∀ d ∈ cs, isContinue d = true

instance : DecidablePred IsName
  | [] => isFalse id
  | c :: cs => decidable_of_iff (isStart c = true ∧ cs.all isContinue = true) (by simp [IsName])

theorem name?_eq_some_iff {cs n : List Char} : name? cs = some n ↔ IsName n ∧ text n <+: cs := by
  constructor
  · intro h
    unfold name? at h
    split at h
    · next c cs =>
      split at h
      · next hstart =>
        split at h
        · next name rest hspan =>
          cases h
          rw [List.span_eq_takeWhile_dropWhile, Prod.mk.injEq] at hspan
          obtain ⟨rfl, hrest⟩ := hspan
          refine ⟨⟨hstart, fun d hd => List.mem_takeWhile_imp hd⟩, rest, ?_⟩
          have hcs := List.takeWhile_append_dropWhile (p := isContinue) (l := cs)
          rw [hrest] at hcs
          simp [text, hcs]
        · cases h
      · cases h
    · cases h
  · rintro ⟨hn, rest, rfl⟩
    cases n with
    | nil => exact hn.elim
    | cons c cs =>
      have hspan : (cs ++ '}' :: rest).span isContinue = (cs, '}' :: rest) := by
        rw [List.span_eq_takeWhile_dropWhile, List.takeWhile_append_of_pos hn.2,
          List.dropWhile_append_of_pos hn.2]
        simp [isContinue, isStart]
      simp only [text, List.cons_append, List.nil_append, List.append_assoc]
      rw [name?, if_pos hn.1, hspan]
      rfl

theorem dollar_not_mem_name {n : List Char} (h : IsName n) : '$' ∉ n := by
  cases n with
  | nil => exact h.elim
  | cons c cs =>
    intro hmem
    rcases List.mem_cons.mp hmem with rfl | hmem
    · exact absurd h.1 (by decide)
    · exact absurd (h.2 _ hmem) (by decide)

/-- Only one name's placeholder begins a text. -/
theorem eq_of_prefix {m n cs : List Char} (hm : IsName m) (hn : IsName n) (h : text m <+: cs)
    (h' : text n <+: cs) : m = n := by
  have := (name?_eq_some_iff.mpr ⟨hm, h⟩).symm.trans (name?_eq_some_iff.mpr ⟨hn, h'⟩)
  exact Option.some.inj this

/-! ## All placeholders of a text -/

theorem isName_of_mem_names {n cs : List Char} (h : n ∈ names cs) : IsName n := by
  induction cs with
  | nil => cases h
  | cons c cs ih =>
    rw [names] at h
    split at h
    · next m hm =>
      rcases List.mem_cons.mp h with rfl | h
      · exact (name?_eq_some_iff.mp hm).1
      · exact ih h
    · exact ih h

/-- Placeholders begin with a dollar sign. -/
theorem not_prefix_of_ne {c : Char} (h : c ≠ '$') (n cs : List Char) : ¬ text n <+: c :: cs := by
  rintro ⟨rest, hrest⟩
  exact h (List.cons.inj hrest).1.symm

theorem names_cons_of_ne {c : Char} (h : c ≠ '$') (cs : List Char) : names (c :: cs) = names cs := by
  rw [names]
  split
  · next n hn => exact absurd (name?_eq_some_iff.mp hn).2 (not_prefix_of_ne h n cs)
  · rfl

theorem names_append_of_plain {cs : List Char} (h : '$' ∉ cs) (rest : List Char) :
    names (cs ++ rest) = names rest := by
  induction cs with
  | nil => rfl
  | cons c cs ih =>
    rw [List.mem_cons, not_or] at h
    rw [List.cons_append, names_cons_of_ne (Ne.symm h.1), ih h.2]

theorem names_text_append {n : List Char} (h : IsName n) (rest : List Char) :
    names (text n ++ rest) = n :: names rest := by
  have hname : name? (text n ++ rest) = some n := name?_eq_some_iff.mpr ⟨h, List.prefix_append ..⟩
  have hplain : '$' ∉ '{' :: n ++ ['}'] := by simp [dollar_not_mem_name h]
  rw [← names_append_of_plain hplain rest]
  simp only [text, List.cons_append, List.nil_append] at hname ⊢
  rw [names, hname]

/-- At each character there begins one placeholder of a variable, or none. -/
theorem count_names_cons {n : List Char} (h : IsName n) (c : Char) (cs : List Char) :
    (names (c :: cs)).count n =
      (names cs).count n + if (text n).isPrefixOf (c :: cs) then 1 else 0 := by
  simp only [List.isPrefixOf_iff_prefix]
  rw [names]
  split
  · next m hm =>
    obtain ⟨hname, hprefix⟩ := name?_eq_some_iff.mp hm
    rw [List.count_cons]
    congr 1
    refine if_congr ?_ rfl rfl
    rw [beq_iff_eq]
    constructor
    · rintro rfl
      exact hprefix
    · exact eq_of_prefix hname h hprefix
  · next hnone =>
    rw [if_neg fun hprefix => ?_, Nat.add_zero]
    rw [name?_eq_some_iff.mpr ⟨h, hprefix⟩] at hnone
    cases hnone

theorem count_names_le_append {n : List Char} (h : IsName n) (cs rest : List Char) :
    (names rest).count n ≤ (names (cs ++ rest)).count n := by
  induction cs with
  | nil => exact Nat.le_refl _
  | cons c cs ih =>
    rw [List.cons_append, count_names_cons h]
    omega

/-! ## Replacing one variable -/

/-- A text stays where no placeholder of the variable begins in it. -/
theorem replaceAll_append {n : List Char} (h : IsName n) (value : List Char) {cs rest : List Char}
    (hcount : (names (cs ++ rest)).count n = (names rest).count n) :
    replaceAll (text n) value 0 (cs ++ rest) = cs ++ replaceAll (text n) value 0 rest := by
  induction cs with
  | nil => rfl
  | cons c cs ih =>
    have hle := count_names_le_append h cs rest
    rw [List.cons_append, count_names_cons h] at hcount
    rw [List.cons_append, List.cons_append, replaceAll]
    split at hcount
    · omega
    · next hother => rw [if_neg hother, ih hcount]

/-- A text with no placeholder of the variable stays. -/
theorem replaceAll_eq_self {n : List Char} (h : IsName n) (value : List Char) {cs : List Char}
    (hcount : (names cs).count n = 0) : replaceAll (text n) value 0 cs = cs := by
  have hkeep : replaceAll (text n) value 0 (cs ++ []) = cs ++ replaceAll (text n) value 0 [] :=
    replaceAll_append h value (by simpa [names] using hcount)
  simpa [replaceAll] using hkeep

theorem replaceAll_skip (old new cs rest : List Char) :
    replaceAll old new cs.length (cs ++ rest) = replaceAll old new 0 rest := by
  induction cs with
  | nil => rfl
  | cons c cs ih =>
    rw [List.cons_append, List.length_cons, replaceAll]
    exact ih

theorem replaceAll_text_append (n value rest : List Char) :
    replaceAll (text n) value 0 (text n ++ rest) = value ++ replaceAll (text n) value 0 rest := by
  have hprefix : (text n).isPrefixOf (text n ++ rest) = true :=
    List.isPrefixOf_iff_prefix.mpr (List.prefix_append ..)
  have hskip := replaceAll_skip (text n) value ('{' :: n ++ ['}']) rest
  simp only [text, List.cons_append, List.nil_append] at hprefix hskip ⊢
  rw [replaceAll, if_pos hprefix, ← hskip]
  rfl

theorem replaceAll_self_eq_drop {old : List Char} (h : old ≠ []) (skip : Nat) (cs : List Char) :
    replaceAll old old skip cs = cs.drop skip := by
  induction cs generalizing skip with
  | nil => simp [replaceAll]
  | cons c cs ih =>
    rw [replaceAll.eq_def]
    cases skip with
    | succ skip => exact ih skip
    | zero =>
      dsimp only
      split
      · next hprefix =>
        obtain ⟨rest, hrest⟩ := List.isPrefixOf_iff_prefix.mp hprefix
        obtain ⟨o, os, rfl⟩ := List.exists_cons_of_ne_nil h
        obtain ⟨rfl, rfl⟩ := List.cons.inj hrest
        rw [ih]
        simp
      · rw [ih]
        rfl

/-- Nothing changes where a placeholder is the value of its variable. -/
theorem replaceAll_self (n cs : List Char) : replaceAll (text n) (text n) 0 cs = cs :=
  replaceAll_self_eq_drop (by simp [text]) 0 cs

/-! ## Texts in pieces -/

/-- A piece of a text. -/
inductive Piece where
  | plain (c : Char)
  | placeholder (name : List Char)

/-- The text of a piece, with something for each placeholder. -/
def Piece.fill (f : List Char → List Char) : Piece → List Char
  | .plain c => [c]
  | .placeholder n => f n

def Piece.name? : Piece → Option (List Char)
  | .plain _ => none
  | .placeholder n => some n

/-- The pieces of a text, from left to right: a placeholder wherever one begins, and else a character. -/
inductive Reads : List Char → List Piece → Prop where
  | nil : Reads [] []
  | placeholder {n cs : List Char} {ps : List Piece} (name : IsName n) (rest : Reads cs ps) :
    Reads (text n ++ cs) (.placeholder n :: ps)
  | plain {c : Char} {cs : List Char} {ps : List Piece} (other : ∀ n, IsName n → ¬ text n <+: c :: cs)
    (rest : Reads cs ps) : Reads (c :: cs) (.plain c :: ps)

/-- The text of pieces. -/
def fill (f : List Char → List Char) (ps : List Piece) : List Char := ps.flatMap (·.fill f)

@[simp] theorem fill_cons (f : List Char → List Char) (p : Piece) (ps : List Piece) :
    fill f (p :: ps) = p.fill f ++ fill f ps := rfl

/-- The variables of the placeholders among pieces. -/
def variableNames (ps : List Piece) : List (List Char) := ps.filterMap Piece.name?

@[simp] theorem variableNames_plain (c : Char) (ps : List Piece) :
    variableNames (.plain c :: ps) = variableNames ps := rfl

@[simp] theorem variableNames_placeholder (n : List Char) (ps : List Piece) :
    variableNames (.placeholder n :: ps) = n :: variableNames ps := rfl

/-- The value of a variable, or its placeholder if it has none. -/
def valueOr (env : Environment) (n : List Char) : List Char :=
  match env (String.ofList n) with
  | some v => v.toList
  | none => text n

/-- **Substitution in one pass.** The text of pieces with the values of all variables in it. What is put in is not
looked at, and what has no value stays. -/
def expand (env : Environment) (ps : List Piece) : List Char := fill (valueOr env) ps

namespace Reads

variable {cs : List Char} {ps qs : List Piece}

/-- Every text has pieces. -/
theorem exists_of_text (cs : List Char) : ∃ ps, Reads cs ps := by
  induction hlength : cs.length using Nat.strongRecOn generalizing cs with
  | _ length ih =>
    cases cs with
    | nil => exact ⟨[], .nil⟩
    | cons c cs =>
      cases hname : name? (c :: cs) with
      | some n =>
        obtain ⟨hn, rest, hrest⟩ := name?_eq_some_iff.mp hname
        have hless : rest.length < length := by
          rw [← hlength, ← hrest, text]
          simp only [List.length_append, List.length_cons, List.length_nil]
          omega
        obtain ⟨ps, hps⟩ := ih _ hless rest rfl
        exact ⟨.placeholder n :: ps, hrest ▸ .placeholder hn hps⟩
      | none =>
        obtain ⟨ps, hps⟩ := ih cs.length (by rw [← hlength]; simp) cs rfl
        refine ⟨.plain c :: ps, .plain (fun n hn hprefix => ?_) hps⟩
        rw [name?_eq_some_iff.mpr ⟨hn, hprefix⟩] at hname
        cases hname

/-- The pieces put together are the text. -/
theorem fill_text (h : Reads cs ps) : fill text ps = cs := by
  induction h with
  | nil => rfl
  | placeholder name rest ih => exact congrArg (text _ ++ ·) ih
  | plain other rest ih => exact congrArg (_ :: ·) ih

theorem eq_placeholder {n : List Char} (hn : IsName n) (h : Reads (text n ++ cs) qs) :
    ∃ ps, qs = .placeholder n :: ps ∧ Reads cs ps := by
  have hprefix : text n <+: text n ++ cs := List.prefix_append ..
  generalize hxs : text n ++ cs = xs at h hprefix
  cases h with
  | nil => simp [text] at hxs
  | @placeholder m xs ps name rest =>
    obtain rfl := eq_of_prefix hn name hprefix (List.prefix_append ..)
    obtain rfl := List.append_cancel_left hxs
    exact ⟨ps, rfl, rest⟩
  | plain other rest => exact absurd hprefix (other n hn)

theorem eq_plain {c : Char} (hother : ∀ n, IsName n → ¬ text n <+: c :: cs) (h : Reads (c :: cs) qs) :
    ∃ ps, qs = .plain c :: ps ∧ Reads cs ps := by
  generalize hxs : c :: cs = xs at h hother
  cases h with
  | nil => cases hxs
  | placeholder name rest => exact absurd (List.prefix_append ..) (hother _ name)
  | plain other rest =>
    obtain ⟨rfl, rfl⟩ := List.cons.inj hxs
    exact ⟨_, rfl, rest⟩

/-- A text has no other pieces. -/
theorem unique (h : Reads cs ps) (h' : Reads cs qs) : ps = qs := by
  induction h generalizing qs with
  | nil =>
    generalize hxs : ([] : List Char) = xs at h'
    cases h' with
    | nil => rfl
    | placeholder => simp [text] at hxs
    | plain => cases hxs
  | placeholder name rest ih =>
    obtain ⟨qs, rfl, hqs⟩ := h'.eq_placeholder name
    rw [ih hqs]
  | plain other rest ih =>
    obtain ⟨qs, rfl, hqs⟩ := h'.eq_plain other
    rw [ih hqs]

/-- The placeholders of a text are those among its pieces. -/
theorem variableNames_eq (h : Reads cs ps) : variableNames ps = names cs := by
  induction h with
  | nil => rfl
  | placeholder name rest ih =>
    rw [names_text_append name, ← ih]
    rfl
  | plain other rest ih =>
    rw [names]
    split
    · next n hn =>
      obtain ⟨hname, hprefix⟩ := name?_eq_some_iff.mp hn
      exact absurd hprefix (other n hname)
    · exact ih

end Reads

/-! ## One replacement in a text in pieces -/

section

variable {f : List Char → List Char} {n : List Char} {ps : List Piece}

theorem Piece.eq_placeholder_of_name? {p : Piece} (h : p.name? = some n) : p = .placeholder n := by
  cases p with
  | plain c => cases h
  | placeholder m => exact congrArg Piece.placeholder (Option.some.inj h)

theorem Piece.fill_update_of_ne {p : Piece} (h : p.name? ≠ some n) (value : List Char) :
    p.fill (Function.update f n value) = p.fill f := by
  cases p with
  | plain c => rfl
  | placeholder m => exact Function.update_of_ne (fun heq => h (congrArg some heq)) ..

theorem count_variableNames_cons_of_ne {p : Piece} (h : p.name? ≠ some n) :
    (variableNames (p :: ps)).count n = (variableNames ps).count n := by
  cases p with
  | plain c => rfl
  | placeholder m => exact List.count_cons_of_ne fun heq => h (congrArg some heq)

/-- The placeholders among the pieces stand in the text. -/
theorem count_variableNames_le (hn : IsName n) (hf : f n = text n) (ps : List Piece) :
    (variableNames ps).count n ≤ (names (fill f ps)).count n := by
  induction ps with
  | nil => exact Nat.le_refl _
  | cons p ps ih =>
    rw [fill_cons]
    by_cases hp : p.name? = some n
    · obtain rfl := Piece.eq_placeholder_of_name? hp
      rw [Piece.fill, hf, names_text_append hn, variableNames_placeholder, List.count_cons_self,
        List.count_cons_self]
      exact Nat.succ_le_succ ih
    · rw [count_variableNames_cons_of_ne hp]
      exact ih.trans (count_names_le_append hn _ _)

/-- If they are all that stands in it, a replacement puts in the value of one more variable. -/
theorem replaceAll_fill (hn : IsName n) (hf : f n = text n) (value : List Char)
    (hcount : (names (fill f ps)).count n = (variableNames ps).count n) :
    replaceAll (text n) value 0 (fill f ps) = fill (Function.update f n value) ps := by
  induction ps with
  | nil => rfl
  | cons p ps ih =>
    have hle := count_variableNames_le hn hf ps
    have hrest := count_names_le_append hn (p.fill f) (fill f ps)
    rw [fill_cons] at hcount
    rw [fill_cons, fill_cons]
    by_cases hp : p.name? = some n
    · obtain rfl := Piece.eq_placeholder_of_name? hp
      rw [Piece.fill, hf, names_text_append hn, variableNames_placeholder, List.count_cons_self,
        List.count_cons_self, Nat.add_right_cancel_iff] at hcount
      rw [Piece.fill, Piece.fill, hf, Function.update_self, replaceAll_text_append, ih hcount]
    · rw [count_variableNames_cons_of_ne hp] at hcount
      rw [replaceAll_append hn value (by omega), ih (by omega), Piece.fill_update_of_ne hp]

end

/-! ## Turns -/

/-- Only these variables have values. -/
def Environment.only (env : Environment) (ns : List (List Char)) : Environment :=
  fun x => if x.toList ∈ ns then env x else none

theorem valueOr_only (env : Environment) (ns : List (List Char)) (n : List Char) :
    valueOr (env.only ns) n = if n ∈ ns then valueOr env n else text n := by
  unfold valueOr Environment.only
  rw [String.toList_ofList]
  split <;> simp_all

theorem valueOr_only_concat (env : Environment) (before : List (List Char)) (n : List Char) :
    valueOr (env.only (before ++ [n])) =
      Function.update (valueOr (env.only before)) n (valueOr env n) := by
  funext m
  rw [valueOr_only]
  by_cases hm : m = n
  · subst hm
    rw [if_pos (by simp), Function.update_self]
  · rw [Function.update_of_ne hm, valueOr_only]
    simp [hm]

/-- **No turn is disturbed.** When it is the turn of a placeholder, and the variables before it have their values
in the text, no placeholder of this variable stands in the text but those of the pieces; and none at all when its
turn comes again. A variable whose value is its own placeholder does not matter. -/
def Undisturbed (env : Environment) (ps : List Piece) : Prop :=
  ∀ before n after, variableNames ps = before ++ n :: after → valueOr env n ≠ text n →
    (names (expand (env.only before) ps)).count n =
      if n ∈ before then 0 else (variableNames ps).count n

theorem replace_eq_replaceAll (env : Environment) (cs n : List Char) :
    replace env cs n = replaceAll (text n) (valueOr env n) 0 cs := by
  unfold replace valueOr
  cases env (String.ofList n) with
  | some v => rfl
  | none => exact (replaceAll_self n cs).symm

/-- A turn puts in the value of one more variable. -/
theorem replace_expand {env : Environment} {ps : List Piece} {before : List (List Char)} {n : List Char}
    (hn : IsName n) (h : valueOr env n ≠ text n → (names (expand (env.only before) ps)).count n =
      if n ∈ before then 0 else (variableNames ps).count n) :
    replace env (expand (env.only before) ps) n = expand (env.only (before ++ [n])) ps := by
  have hvalue := valueOr_only env before n
  rw [replace_eq_replaceAll, expand, expand, valueOr_only_concat]
  by_cases hown : valueOr env n = text n
  · rw [hown, ite_self] at hvalue
    rw [hown, replaceAll_self, ← hvalue, Function.update_eq_self]
  · have hcount := h hown
    split at hcount
    · next hbefore =>
      rw [if_pos hbefore] at hvalue
      rw [← expand, replaceAll_eq_self hn _ hcount, ← hvalue, Function.update_eq_self, expand]
    · next hbefore =>
      rw [if_neg hbefore] at hvalue
      exact replaceAll_fill hn hvalue _ hcount

/-- After some turns the variables that had theirs have their values in the text. -/
theorem foldl_replace {env : Environment} {cs : List Char} {ps : List Piece} (hps : Reads cs ps)
    (h : Undisturbed env ps) (before after : List (List Char)) (hsplit : names cs = before ++ after) :
    before.foldl (replace env) cs = expand (env.only before) ps := by
  induction before using List.reverseRecOn generalizing after with
  | nil =>
    have htext : valueOr (env.only []) = text := by
      funext n
      rw [valueOr_only, if_neg List.not_mem_nil]
    rw [List.foldl_nil, expand, htext, hps.fill_text]
  | append_singleton before n ih =>
    have hsplit' : names cs = before ++ n :: after := by simpa using hsplit
    have hmem : n ∈ names cs := by simp [hsplit']
    rw [List.foldl_append, ih (n :: after) hsplit', List.foldl_cons, List.foldl_nil]
    exact replace_expand (isName_of_mem_names hmem) (h before n after (by rw [hps.variableNames_eq, hsplit']))

theorem expand_only_all (env : Environment) (ps : List Piece) :
    expand (env.only (variableNames ps)) ps = expand env ps := by
  unfold expand fill
  refine List.flatMap_congr fun p hp => ?_
  cases p with
  | plain c => rfl
  | placeholder n =>
    rw [Piece.fill, Piece.fill, valueOr_only, if_pos]
    exact List.mem_filterMap.mpr ⟨_, hp, rfl⟩

/-! ## Texts and values without other dollar signs -/

/-- In a text without other dollar signs the placeholders are those among its pieces that are not filled. -/
theorem names_fill {f : List Char → List Char} {ps : List Piece} (hps : .plain '$' ∉ ps)
    (hnames : ∀ n ∈ variableNames ps, IsName n)
    (hf : ∀ n ∈ variableNames ps, f n = text n ∨ '$' ∉ f n) :
    names (fill f ps) = (variableNames ps).filter fun n => f n = text n := by
  induction ps with
  | nil => rfl
  | cons p ps ih =>
    rw [List.mem_cons, not_or] at hps
    cases p with
    | plain c =>
      have hc : c ≠ '$' := fun h => hps.1 (h ▸ rfl)
      rw [fill_cons, variableNames_plain, ← ih hps.2 hnames hf]
      exact names_cons_of_ne hc _
    | placeholder n =>
      obtain ⟨hn, hnames⟩ := List.forall_mem_cons.mp hnames
      obtain ⟨hfill, hf⟩ := List.forall_mem_cons.mp hf
      rw [fill_cons, variableNames_placeholder, Piece.fill]
      rcases hfill with hown | hplain
      · rw [List.filter_cons_of_pos (by simpa using hown), hown, names_text_append hn,
          ih hps.2 hnames hf]
      · have hother : f n ≠ text n := by
          intro h
          rw [h] at hplain
          simp [text] at hplain
        rw [List.filter_cons_of_neg (by simpa using hother), names_append_of_plain hplain,
          ih hps.2 hnames hf]

/-- No turn is disturbed if each dollar sign of the text begins a placeholder, and no value has one. -/
theorem undisturbed_of_plain {env : Environment} {ps : List Piece} (hps : .plain '$' ∉ ps)
    (hnames : ∀ n ∈ variableNames ps, IsName n)
    (hvalues : ∀ n ∈ variableNames ps, ∀ v, env (String.ofList n) = some v → '$' ∉ v.toList) :
    Undisturbed env ps := by
  have hplain : ∀ n ∈ variableNames ps, valueOr env n = text n ∨ '$' ∉ valueOr env n := by
    intro n hn
    unfold valueOr
    cases hv : env (String.ofList n) with
    | some v => exact .inr (hvalues n hn v hv)
    | none => exact .inl rfl
  intro before n after _ hother
  rw [expand, names_fill hps hnames fun m hm => ?_]
  · split
    · next hbefore =>
      rw [List.count_eq_zero, List.mem_filter, valueOr_only, if_pos hbefore]
      simp [hother]
    · next hbefore =>
      rw [List.count_filter]
      rw [valueOr_only, if_neg hbefore]
      simp
  · rw [valueOr_only]
    split
    · exact hplain m hm
    · exact .inl rfl

/-! ## One pass -/

/-- **Substitution in one pass.** Every text has pieces, placeholders and other characters, in one way. Putting in
the values of variables one after the other gives the text of the pieces with all values in it at once, as long as
no turn is disturbed: so if each dollar sign begins a placeholder and no value has one. -/
theorem substitute_eq_expand (env : Environment) (s : String) :
    ∃ ps, Reads s.toList ps ∧ (∀ qs, Reads s.toList qs → qs = ps) ∧
      (Undisturbed env ps → substitute env s = String.ofList (expand env ps)) ∧
      (.plain '$' ∉ ps →
        (∀ n ∈ variableNames ps, ∀ v, env (String.ofList n) = some v → '$' ∉ v.toList) →
        substitute env s = String.ofList (expand env ps)) := by
  obtain ⟨ps, hps⟩ := Reads.exists_of_text s.toList
  have hundisturbed : Undisturbed env ps → substitute env s = String.ofList (expand env ps) := by
    intro h
    rw [substitute, foldl_replace hps h _ [] (List.append_nil _).symm, ← hps.variableNames_eq,
      expand_only_all]
  have hnames : ∀ n ∈ variableNames ps, IsName n := by
    rw [hps.variableNames_eq]
    exact fun n => isName_of_mem_names
  exact ⟨ps, hps, fun qs hqs => hqs.unique hps, hundisturbed,
    fun hplain hvalues => hundisturbed (undisturbed_of_plain hplain hnames hvalues)⟩

/-- Two placeholders with a character between them. -/
def basePath : List Piece :=
  [.placeholder "BASE".toList, .plain '/', .placeholder "NAME".toList]

theorem reads_basePath : Reads "${BASE}/${NAME}".toList basePath :=
  .placeholder (n := "BASE".toList) (by decide)
    (.plain (fun n _ => not_prefix_of_ne (by decide) n _) (.placeholder (n := "NAME".toList) (by decide) .nil))

/-- Only the base has a value. -/
def baseOnly : Environment := fun x => if x = "BASE" then some "models" else none

theorem substitute_eq_expand_basePath :
    substitute baseOnly "${BASE}/${NAME}" = "models/${NAME}" := by
  obtain ⟨ps, -, hunique, -, hplain⟩ := substitute_eq_expand baseOnly "${BASE}/${NAME}"
  obtain rfl := hunique _ reads_basePath
  rw [hplain (by simp [basePath]) (by decide)]
  decide

/-- The base is itself given by a placeholder. -/
def baseByName : Environment := fun x =>
  if x = "BASE" then some "${NAME}" else if x = "NAME" then some "shop" else none

/-- Not all substitutions are those of one pass: what is put in for one placeholder is replaced with another
one that comes after it. -/
theorem not_substitute_eq_expand :
    ¬ ∀ (env : Environment) (s : String) (ps : List Piece), Reads s.toList ps →
      substitute env s = String.ofList (expand env ps) := by
  intro hall
  have h := hall baseByName "${BASE}/${NAME}" basePath reads_basePath
  revert h
  decide

end TypeExport.Placeholder
