import Mathlib.Data.List.TakeWhile
import TypeExport.Proofs.TypeExpr.RoundTrip

/-!
# The grammar of type expressions

    expression = type blanks
    type       = blanks name [blanks "<" type {blanks "," type} blanks ">"]
                 {blanks "[" blanks "]" | blanks "?"}

`Derives` are the derivations of this grammar, each with the type that it denotes. A derivation of a
type says what the text goes on with, so that a name can be required to be as long as it gets.

* `Token.scans_scan`: `Token.scan` cuts a text into words and marks with blanks between them.
* `Derives.run`: the machine takes what derives a type, and then has read that type.
* `Reader.step_reads`, `Reader.denotes_of_run`: what the machine has read is derived; a step keeps
  that, and so does a run.
* `parse_iff_denotes`: a text reads as the type that it derives, and as an error if it derives none.
-/

namespace TypeExport.TypeExpr

variable {text rest r₁ r₂ r₃ : List Char} {n : String} {t : TypeExpr} {ts : List TypeExpr}

/-! ## Derivations -/

def Blanks (ws : List Char) : Prop := ∀ c ∈ ws, Text.isBlank c = true

/-- After blanks, the text goes on with the name `n` and then with `rest`. The name is as long as it
gets. -/
def Names (text : List Char) (n : String) (rest : List Char) : Prop :=
  ∃ ws, Blanks ws ∧ text = ws ++ (n.toList ++ rest) ∧ IsName n ∧ NameEnds rest

/-- After blanks, the text goes on with the mark `c` and then with `rest`. -/
def Marks (text : List Char) (c : Char) (rest : List Char) : Prop :=
  ∃ ws, Blanks ws ∧ text = ws ++ c :: rest

mutual

/-- The text begins with a type that denotes `t`, and goes on with `rest`. -/
inductive Derives : List Char → TypeExpr → List Char → Prop where
  | primitive {text rest : List Char} {n : String} {p : Primitive} (name : Names text n rest)
    (known : Primitive.ofName? n = some p) : Derives text (.primitive p) rest
  | named {text rest : List Char} {n : String} (name : Names text n rest)
    (unknown : Primitive.ofName? n = none) : Derives text (.named n) rest
  /-- A name with arguments, as many as its wrapper takes. -/
  | generic {text r₁ r₂ r₃ rest : List Char} {n : String} {args : List TypeExpr}
    (name : Names text n r₁) (opening : Marks r₁ '<' r₂) (members : Arguments r₂ args r₃)
    (closing : Marks r₃ '>' rest) (arity : ∀ k ∈ (Wrapper.ofName n).arity?, k = args.length) :
    Derives text (.generic (Wrapper.ofName n) args) rest
  | array {text r₁ r₂ rest : List Char} {t : TypeExpr} (element : Derives text t r₁)
    (opening : Marks r₁ '[' r₂) (closing : Marks r₂ ']' rest) : Derives text (.array t) rest
  | optional {text r₁ rest : List Char} {t : TypeExpr} (value : Derives text t r₁)
    (mark : Marks r₁ '?' rest) : Derives text t.optional rest

/-- The text begins with types separated by commas, at least one. -/
inductive Arguments : List Char → List TypeExpr → List Char → Prop where
  | first {text rest : List Char} {t : TypeExpr} (type : Derives text t rest) :
    Arguments text [t] rest
  | next {text r₁ r₂ rest : List Char} {ts : List TypeExpr} {t : TypeExpr}
    (earlier : Arguments text ts r₁) (comma : Marks r₁ ',' r₂) (type : Derives r₂ t rest) :
    Arguments text (ts ++ [t]) rest

end

/-- The whole text derives the type. -/
def Denotes (text : String) (t : TypeExpr) : Prop := ∃ ws, Derives text.toList t ws ∧ Blanks ws

/-! ## Words and marks of a text -/

namespace Token

/-- After blanks, the text goes on with the token and then with `rest`. -/
def Begins (text : List Char) : Token → List Char → Prop
  | .word c cs, rest => Names text (String.ofList (c :: cs)) rest
  | .mark c, rest => Marks text c rest

/-- The text consists of the tokens and of blanks. -/
inductive Scans : List Char → List Token → Prop where
  | nil {ws : List Char} (blanks : Blanks ws) : Scans ws []
  | cons {text rest : List Char} {tok : Token} {ts : List Token} (token : Begins text tok rest)
    (others : Scans rest ts) : Scans text (tok :: ts)

theorem scan_blanks {ws : List Char} (h : Blanks ws) (cs : List Char) :
    scan (ws ++ cs) = scan cs := by
  induction ws with
  | nil => rfl
  | cons c ws ih =>
    obtain ⟨hc, hws⟩ := List.forall_mem_cons.mp h
    rw [List.cons_append, scan_blank hc, ih hws]

theorem scan_of_marks {c : Char} (h : Marks text c rest) (hc : c ∈ ['<', '>', ',', '[', ']', '?']) :
    scan text = .mark c :: scan rest := by
  obtain ⟨ws, hws, rfl⟩ := h
  rw [scan_blanks hws, scan_mark (mark_apart hc).1 (mark_apart hc).2]

theorem Begins.blank {c : Char} (hc : Text.isBlank c = true) {tok : Token}
    (h : Begins text tok rest) : Begins (c :: text) tok rest := by
  cases tok with
  | word d ds =>
    obtain ⟨ws, hws, rfl, hname⟩ := h
    exact ⟨c :: ws, List.forall_mem_cons.mpr ⟨hc, hws⟩, rfl, hname⟩
  | mark d =>
    obtain ⟨ws, hws, rfl⟩ := h
    exact ⟨c :: ws, List.forall_mem_cons.mpr ⟨hc, hws⟩, rfl⟩

theorem Scans.blank {c : Char} (hc : Text.isBlank c = true) {ts : List Token}
    (h : Scans text ts) : Scans (c :: text) ts := by
  cases h with
  | nil hws => exact .nil (List.forall_mem_cons.mpr ⟨hc, hws⟩)
  | cons htok hts => exact .cons (htok.blank hc) hts

/-- Name characters up to the next other character, which are a word. -/
theorem begins_word {c : Char} {cs : List Char} (hw : ∀ d ∈ c :: cs, isNameChar d = true)
    (hr : NameEnds rest) : Begins (c :: cs ++ rest) (.word c cs) rest := by
  refine ⟨[], by simp [Blanks], by simp, ⟨by simp, by simpa using hw⟩, hr⟩

/-- A text that does not begin with a blank begins with a word or with a mark. -/
theorem begins_cases {c : Char} (hc : Text.isBlank c = false) (cs : List Char) :
    ∃ tok rest, Begins (c :: cs) tok rest ∧ rest.length ≤ cs.length ∧
      scan (c :: cs) = tok :: scan rest := by
  cases hn : isNameChar c with
  | false => exact ⟨.mark c, cs, ⟨[], by simp [Blanks], rfl⟩, Nat.le_refl _, scan_mark hn hc cs⟩
  | true =>
    have hsplit : cs.takeWhile isNameChar ++ cs.dropWhile isNameChar = cs :=
      List.takeWhile_append_dropWhile
    have hends : NameEnds (cs.dropWhile isNameChar) := fun d hd => by
      have := List.head?_dropWhile_not isNameChar cs
      rw [hd] at this
      exact this
    have hword : ∀ d ∈ c :: cs.takeWhile isNameChar, isNameChar d = true :=
      List.forall_mem_cons.mpr ⟨hn, fun d hd => List.mem_takeWhile_imp hd⟩
    refine ⟨.word c (cs.takeWhile isNameChar), cs.dropWhile isNameChar, ?_,
      List.length_dropWhile_le .., ?_⟩
    · simpa only [List.cons_append, hsplit] using begins_word hword hends
    · simpa only [List.cons_append, hsplit] using scan_word hword hends

/-- Scanning cuts a text into its words and marks. -/
theorem scans_scan (text : List Char) : Scans text (scan text) := by
  -- A word takes many characters at once, so the induction is on the length.
  induction hlen : text.length using Nat.strong_induction_on generalizing text with
  | _ k ih =>
    subst hlen
    cases text with
    | nil => exact .nil (by simp [Blanks])
    | cons c cs =>
      cases hc : Text.isBlank c with
      | true =>
        rw [scan_blank hc]
        exact (ih cs.length (by simp) cs rfl).blank hc
      | false =>
        obtain ⟨tok, rest, htok, hle, hscan⟩ := begins_cases hc cs
        rw [hscan]
        exact .cons htok (ih rest.length (by simp; omega) rest rfl)

end Token

/-! ## What derives a type is read as that type -/

theorem ofName_of_known {p : Primitive} (h : Primitive.ofName? n = some p) :
    ofName n = .primitive p := by
  simp [ofName, h]

theorem instantiate_eq_ok_iff {args : List TypeExpr} :
    instantiate n args = .ok t ↔
      (∀ k ∈ (Wrapper.ofName n).arity?, k = args.length) ∧ t = .generic (Wrapper.ofName n) args := by
  unfold instantiate
  cases (Wrapper.ofName n).arity? with
  | none => simp [eq_comm]
  | some k => by_cases hk : k = args.length <;> simp [hk, eq_comm]

namespace Reader

variable {stack : List Frame}

/-- A name is taken, whatever stands before it. -/
theorem run_names (h : Names text n rest) (stack : List Frame) :
    run (.start stack) (Token.scan text) = run (.name stack n) (Token.scan rest) := by
  obtain ⟨ws, hws, rfl, hname, hends⟩ := h
  rw [Token.scan_blanks hws, run_start_name hname stack hends]

theorem run_marks {c : Char} (h : Marks text c rest) (hc : c ∈ ['<', '>', ',', '[', ']', '?'])
    {r r' : Reader} (hstep : step r (.mark c) = .ok r') :
    run r (Token.scan text) = run r' (Token.scan rest) := by
  rw [Token.scan_of_marks h hc, run_of_step hstep]

/-- A text that goes on with another mark does not go on with arguments. -/
theorem head?_scan_of_marks {c : Char} (h : Marks text c rest)
    (hc : c ∈ ['>', ',', '[', ']', '?']) : (Token.scan text).head? ≠ some (.mark '<') := by
  rw [Token.scan_of_marks h (List.mem_cons_of_mem _ hc)]
  rintro ⟨⟩
  revert hc
  decide

end Reader

open Reader in
mutual

/-- The machine takes what derives a type. The text must not go on with arguments, which would belong
to the type. -/
theorem Derives.run {text rest : List Char} {t : TypeExpr} : Derives text t rest →
    ∀ stack, (Token.scan rest).head? ≠ some (.mark '<') →
    Reader.run (.start stack) (Token.scan text) = Reader.run (.type stack t) (Token.scan rest)
  | .primitive hname known, stack, hr => by
    rw [run_names hname, run_name hr, ofName_of_known known]
  | .named hname unknown, stack, hr => by
    rw [run_names hname, run_name hr, ofName_of_unknown unknown]
  | @Derives.generic _ _ _ _ _ n _ hname opening members closing arity, stack, _ => by
    obtain ⟨earlier, last, rfl, hargs⟩ :=
      members.run n [] stack (head?_scan_of_marks closing (by simp))
    have hopen : step (.name stack n) (.mark '<') = .ok (.start (⟨n, []⟩ :: stack)) := rfl
    have hclose : step (.type (⟨n, earlier.reverse⟩ :: stack) last) (.mark '>') =
        .ok (.type stack (.generic (Wrapper.ofName n) (earlier ++ [last]))) := by
      have hinst := instantiate_eq_ok_iff.mpr ⟨arity, rfl⟩
      simp only [step, afterType, List.reverse_cons, List.reverse_reverse, hinst]
      rfl
    rw [run_names hname, run_marks opening (by simp) hopen, hargs, List.append_nil,
      run_marks closing (by simp) hclose]
  | @Derives.array _ _ _ _ e element opening closing, stack, _ => by
    have hopen : step (.type stack e) (.mark '[') = .ok (.bracket stack e) := by
      cases stack <;> rfl
    rw [element.run stack (head?_scan_of_marks opening (by simp)),
      run_marks opening (by simp) hopen, run_marks closing (by simp) rfl]
  | @Derives.optional _ _ _ u value mark, stack, _ => by
    have hstep : step (.type stack u) (.mark '?') = .ok (.type stack u.optional) := by
      cases stack <;> rfl
    rw [value.run stack (head?_scan_of_marks mark (by simp)), run_marks mark (by simp) hstep]

/-- The machine takes arguments up to the last one. `done` holds the arguments before, last one
first. -/
theorem Arguments.run {text rest : List Char} {ts : List TypeExpr} : Arguments text ts rest →
    ∀ n done stack, (Token.scan rest).head? ≠ some (.mark '<') →
    ∃ earlier last, ts = earlier ++ [last] ∧
      Reader.run (.start (⟨n, done⟩ :: stack)) (Token.scan text) =
        Reader.run (.type (⟨n, earlier.reverse ++ done⟩ :: stack) last) (Token.scan rest)
  | @Arguments.first _ _ t htype, n, done, stack, hr =>
    ⟨[], t, rfl, htype.run (⟨n, done⟩ :: stack) hr⟩
  | @Arguments.next _ _ _ _ _ t earlier comma htype, n, done, stack, hr => by
    obtain ⟨us, u, rfl, hargs⟩ := earlier.run n done stack (head?_scan_of_marks comma (by simp))
    have hcomma : step (.type (⟨n, us.reverse ++ done⟩ :: stack) u) (.mark ',') =
        .ok (.start (⟨n, u :: (us.reverse ++ done)⟩ :: stack)) := rfl
    refine ⟨us ++ [u], t, rfl, ?_⟩
    rw [hargs, run_marks comma (by simp) hcomma, htype.run _ hr]
    simp

end

/-- What derives a type reads as that type. -/
theorem parse_of_denotes {text : String} (h : Denotes text t) : parse text = .ok t := by
  obtain ⟨ws, hder, hws⟩ := h
  have hscan : Token.scan ws = [] := by simpa [Token.scan_nil] using Token.scan_blanks hws []
  have hrun := hder.run [] (by simp [hscan])
  rw [hscan, Reader.run_nil, Reader.finish] at hrun
  simp only [parse, hrun]

/-! ## What is read as a type derives that type -/

namespace Reader

/-- The text before `rest` leaves the generic types of the stack open. -/
inductive Opens (text : List Char) : List Frame → List Char → Prop where
  | nothing : Opens text [] text
  | bracket {stack : List Frame} {r₁ r₂ rest : List Char} {n : String} (before : Opens text stack r₁)
    (name : Names r₁ n r₂) (opening : Marks r₂ '<' rest) : Opens text (⟨n, []⟩ :: stack) rest
  | comma {stack : List Frame} {r₁ r₂ rest : List Char} {n : String} {args : List TypeExpr}
    {t : TypeExpr} (before : Opens text (⟨n, args⟩ :: stack) r₁) (type : Derives r₁ t r₂)
    (mark : Marks r₂ ',' rest) : Opens text (⟨n, t :: args⟩ :: stack) rest

/-- The text before `rest` leads to a state of the machine. -/
def Reads (text : List Char) : Reader → List Char → Prop
  | .start stack, rest => Opens text stack rest
  | .name stack n, rest => ∃ r₁, Opens text stack r₁ ∧ Names r₁ n rest
  | .type stack t, rest => ∃ r₁, Opens text stack r₁ ∧ Derives r₁ t rest
  | .bracket stack t, rest => ∃ r₁ r₂, Opens text stack r₁ ∧ Derives r₁ t r₂ ∧ Marks r₂ '[' rest

/-- The last argument completes the arguments of the innermost open type. -/
theorem Opens.arguments {stack : List Frame} {f : Frame} (h : Opens text (f :: stack) r₃)
    (ht : Derives r₃ t rest) : ∃ r₀ r₁ r₂, Opens text stack r₀ ∧ Names r₀ f.name r₁ ∧
      Marks r₁ '<' r₂ ∧ Arguments r₂ (t :: f.args).reverse rest := by
  -- Each comma before belongs to the same open type: the induction goes back to its bracket.
  generalize hs : f :: stack = stack' at h
  induction h generalizing f t rest with
  | nothing => cases hs
  | @bracket _ r₁ r₂ r₃ n before name opening =>
    cases hs
    exact ⟨r₁, r₂, r₃, before, name, opening, .first ht⟩
  | @comma _ _ _ _ n args u _ type mark ih =>
    cases hs
    obtain ⟨r₀, r₁, r₂, before, name, opening, hargs⟩ := ih type rfl
    refine ⟨r₀, r₁, r₂, before, name, opening, ?_⟩
    rw [List.reverse_cons]
    exact .next hargs mark ht

/-- A name without arguments derives the type that it denotes. -/
theorem derives_ofName (h : Names text n rest) : Derives text (ofName n) rest := by
  cases hp : Primitive.ofName? n with
  | none => rw [ofName_of_unknown hp]; exact .named h hp
  | some p => rw [ofName_of_known hp]; exact .primitive h hp

theorem afterType_reads {stack : List Frame} {tok : Token} {r : Reader} (hs : Opens text stack r₁)
    (ht : Derives r₁ t r₂) (htok : tok.Begins r₂ rest) (h : afterType stack t tok = .ok r) :
    Reads text r rest := by
  unfold afterType at h
  split at h
  · cases h
    exact ⟨r₁, r₂, hs, ht, htok⟩
  · cases h
    exact ⟨r₁, hs, .optional ht htok⟩
  · cases h
    exact .comma hs ht htok
  · next f stack t =>
    obtain ⟨u, hu, h⟩ := Except.bind_eq_ok_iff.mp h
    cases h
    obtain ⟨harity, rfl⟩ := instantiate_eq_ok_iff.mp hu
    obtain ⟨r₀, r₁, r₂, hs, name, opening, hargs⟩ := hs.arguments ht
    exact ⟨r₀, hs, .generic name opening hargs htok harity⟩
  · cases h
  · cases h

/-- A step of the machine follows the grammar. -/
theorem step_reads {r r' : Reader} {tok : Token} (hr : Reads text r r₁)
    (htok : tok.Begins r₁ rest) (h : step r tok = .ok r') : Reads text r' rest := by
  unfold step at h
  split at h
  · cases h
    exact ⟨r₁, hr, htok⟩
  · cases h
  · cases h
    obtain ⟨r₀, hs, name⟩ := hr
    exact .bracket hs name htok
  · obtain ⟨r₀, hs, name⟩ := hr
    exact afterType_reads hs (derives_ofName name) htok h
  · obtain ⟨r₀, hs, ht⟩ := hr
    exact afterType_reads hs ht htok h
  · cases h
    obtain ⟨r₀, r₂, hs, ht, opening⟩ := hr
    exact ⟨r₀, hs, .array ht opening htok⟩
  · cases h

/-- Only a complete type with blanks after it can end a text. -/
theorem derives_of_finish {r : Reader} (hr : Reads text r rest) (h : finish r = .ok t) :
    Derives text t rest := by
  unfold finish at h
  split at h
  · cases h
  · cases h
    obtain ⟨_, ⟨⟩, name⟩ := hr
    exact derives_ofName name
  · cases h
    obtain ⟨_, ⟨⟩, ht⟩ := hr
    exact ht
  all_goals cases h

/-- A run of the machine follows the grammar. -/
theorem derives_of_run {toks : List Token} (hscan : Token.Scans rest toks) {r : Reader}
    (hr : Reads text r rest) (h : run r toks = .ok t) :
    ∃ ws, Derives text t ws ∧ Blanks ws := by
  induction hscan generalizing r with
  | nil hws => exact ⟨_, derives_of_finish hr h, hws⟩
  | cons htok _ ih =>
    rw [run_cons] at h
    obtain ⟨r', hstep, h⟩ := Except.bind_eq_ok_iff.mp h
    exact ih (step_reads hr htok hstep) h

end Reader

/-- What reads as a type derives that type. -/
theorem denotes_of_parse {text : String} (h : parse text = .ok t) : Denotes text t := by
  unfold parse at h
  split at h
  · next u hrun =>
    cases h
    exact Reader.derives_of_run (Token.scans_scan _) (r := .start []) Reader.Opens.nothing hrun
  · cases h

/-- A text derives at most one type. -/
theorem Denotes.unique {text : String} {u : TypeExpr} (ht : Denotes text t) (hu : Denotes text u) :
    t = u := by
  have h := parse_of_denotes ht
  rw [parse_of_denotes hu] at h
  exact (Except.ok.inj h).symm

/-- **The reader follows the grammar.** A text reads as a type exactly if it derives that type. Every
other text is an invalid type expression, and is reported as such. -/
theorem parse_iff_denotes (text : String) :
    (∀ t, parse text = .ok t ↔ Denotes text t) ∧
      ((∃ reason, parse text = .error ⟨text, reason⟩) ↔ ∀ t, ¬ Denotes text t) := by
  refine ⟨fun t => ⟨denotes_of_parse, parse_of_denotes⟩, ?_, fun h => ?_⟩
  · rintro ⟨reason, hparse⟩ t ht
    rw [parse_of_denotes ht] at hparse
    cases hparse
  · cases hrun : Reader.run (.start []) (Token.scan text.toList) with
    | ok t => exact absurd (denotes_of_parse (by simp only [parse, hrun])) (h t)
    | error reason => exact ⟨reason, by simp only [parse, hrun]⟩

end TypeExport.TypeExpr
