import TypeExport.Proofs.Lists
import TypeExport.Proofs.TypeExpr.Tokens
import TypeExport.Proofs.TypeExpr.WellFormed

/-!
# Reading the text of a type expression

The text of a type expression reads back as the expression exactly if the expression is well formed.

* `Reader.run_display`: the machine takes the text of a well-formed expression and goes on after it,
  under any stack and before any rest that does not go on with the expression.
* `parse_display`: the text of a well-formed expression reads back as the expression.
* `Reader.step_wellFormed`: a step keeps what has been read well formed.
* `wellFormed_of_parse`: what can be read is well formed.
-/

namespace TypeExport.TypeExpr

/-- The rest of a text goes on neither with a name or a blank nor with arguments. -/
def TypeEnds (rest : List Char) : Prop :=
  ∀ c ∈ rest.head?, isNameChar c = false ∧ Text.isBlank c = false ∧ c ≠ '<'

theorem TypeEnds.nameEnds {rest : List Char} (h : TypeEnds rest) : NameEnds rest :=
  fun c hc => (h c hc).1

theorem typeEnds_cons {c : Char} {cs : List Char} :
    TypeEnds (c :: cs) ↔ isNameChar c = false ∧ Text.isBlank c = false ∧ c ≠ '<' := by
  simp [TypeEnds]

/-- The marks of type expressions belong to no name and are no blanks. -/
theorem mark_apart {c : Char} (h : c ∈ ['<', '>', ',', '[', ']', '?']) :
    isNameChar c = false ∧ Text.isBlank c = false := by
  have hall : (['<', '>', ',', '[', ']', '?'].all fun c =>
      !isNameChar c && !Text.isBlank c) = true := by decide +kernel
  simpa using List.all_eq_true.mp hall c h

theorem typeEnds_mark {c : Char} (h : c ∈ ['<', '>', ',', '[', ']', '?']) (hc : c ≠ '<')
    (cs : List Char) : TypeEnds (c :: cs) :=
  typeEnds_cons.mpr ⟨(mark_apart h).1, (mark_apart h).2, hc⟩

namespace Reader

/-! ## Single steps -/

theorem run_nil (r : Reader) : run r [] = r.finish := rfl

theorem run_cons (r : Reader) (tok : Token) (ts : List Token) :
    run r (tok :: ts) = step r tok >>= fun r' => run r' ts := by
  simp only [run, List.foldlM_cons, bind_assoc]

theorem run_of_step {r r' : Reader} {tok : Token} (h : step r tok = .ok r') (ts : List Token) :
    run r (tok :: ts) = run r' ts := by
  rw [run_cons, h]; rfl

/-- A mark of type expressions is taken by one step. -/
theorem run_mark {r r' : Reader} {c : Char} (hc : c ∈ ['<', '>', ',', '[', ']', '?'])
    (h : step r (.mark c) = .ok r') (cs : List Char) :
    run r (Token.scan (c :: cs)) = run r' (Token.scan cs) := by
  rw [Token.scan_mark (mark_apart hc).1 (mark_apart hc).2, run_of_step h]

/-- A name before anything but arguments is the type that it denotes. -/
theorem run_name {stack : List Frame} {n : String} {ts : List Token}
    (h : ts.head? ≠ some (.mark '<')) : run (.name stack n) ts = run (.type stack (ofName n)) ts := by
  cases ts with
  | nil => cases stack <;> rfl
  | cons tok ts =>
    rw [run_cons, run_cons]
    congr 1
    cases tok with
    | word c cs => rfl
    | mark c =>
      have hc : c ≠ '<' := fun e => h (by rw [e]; rfl)
      simp [step, hc]

/-- The next token after a complete type does not open arguments. -/
theorem head?_scan_ne {rest : List Char} (h : TypeEnds rest) :
    (Token.scan rest).head? ≠ some (.mark '<') := by
  cases rest with
  | nil => simp [Token.scan_nil]
  | cons c cs =>
    obtain ⟨hn, hb, hc⟩ := typeEnds_cons.mp h
    rw [Token.scan_mark hn hb]
    simpa using hc

/-! ## Taking the text of an expression -/

/-- A name is taken as one word. -/
theorem run_start_name {n : String} (hn : IsName n) (stack : List Frame) {rest : List Char}
    (hr : NameEnds rest) :
    run (.start stack) (Token.scan (n.toList ++ rest)) = run (.name stack n) (Token.scan rest) := by
  obtain ⟨hne, hchars⟩ := hn
  cases hl : n.toList with
  | nil => exact absurd (String.toList_eq_nil_iff.mp hl) hne
  | cons c cs =>
    rw [Token.scan_word (hl ▸ hchars) hr]
    have hstep : step (.start stack) (.word c cs) = .ok (.name stack n) := by
      rw [step, ← hl, String.ofList_toList]
    exact run_of_step hstep _

/-- A name without arguments is taken as the type that it denotes. -/
theorem run_start_type {n : String} (hn : IsName n) (stack : List Frame) {rest : List Char}
    (hr : TypeEnds rest) :
    run (.start stack) (Token.scan (n.toList ++ rest)) =
      run (.type stack (ofName n)) (Token.scan rest) := by
  rw [run_start_name hn stack hr.nameEnds, run_name (head?_scan_ne hr)]

/-- The machine takes the text of `t`, wherever it stands. -/
def Takes (t : TypeExpr) : Prop :=
  ∀ (stack : List Frame) (rest : List Char), TypeEnds rest →
    run (.start stack) (Token.scan (t.display.toList ++ rest)) =
      run (.type stack t) (Token.scan rest)

/-- Arguments and the closing mark after them. `done` holds the arguments before, last one first. -/
theorem run_args {n : String} {args : List TypeExpr} (hargs : ∀ t ∈ args, Takes t)
    (hne : args ≠ []) (done : List TypeExpr) (stack : List Frame) (rest : List Char) :
    run (.start (⟨n, done⟩ :: stack)) (Token.scan ((displayArgs args).toList ++ '>' :: rest)) =
      instantiate n (done.reverse ++ args) >>= fun t => run (.type stack t) (Token.scan rest) := by
  induction args generalizing done with
  | nil => exact absurd rfl hne
  | cons t ts ih =>
    have ht : Takes t := hargs t (by simp)
    cases ts with
    | nil =>
      have hends : TypeEnds ('>' :: rest) := typeEnds_mark (by simp) (by decide) _
      have happart := mark_apart (c := '>') (by simp)
      rw [displayArgs, ht _ _ hends, Token.scan_mark happart.1 happart.2, run_cons]
      simp only [step, afterType, List.reverse_cons]
      cases instantiate n (done.reverse ++ [t]) <;> rfl
    | cons u us =>
      have hends : TypeEnds (',' :: ' ' :: ((displayArgs (u :: us)).toList ++ '>' :: rest)) :=
        typeEnds_mark (by simp) (by decide) _
      have hstep : step (.type (⟨n, done⟩ :: stack) t) (.mark ',') =
          .ok (.start (⟨n, t :: done⟩ :: stack)) := rfl
      have htext : (displayArgs (t :: u :: us)).toList ++ '>' :: rest =
          t.display.toList ++ ',' :: ' ' :: ((displayArgs (u :: us)).toList ++ '>' :: rest) := by
        simp [displayArgs]
      rw [htext, ht _ _ hends, run_mark (by simp) hstep, Token.scan_blank (by decide),
        ih (fun a ha => hargs a (List.mem_cons_of_mem t ha)) (by simp)]
      simp

/-- A generic type whose name and arguments denote it. -/
theorem takes_generic {w : Wrapper} {args : List TypeExpr} (hn : IsName w.name)
    (hargs : ∀ t ∈ args, Takes t) (hne : args ≠ [])
    (hw : instantiate w.name args = .ok (.generic w args)) : Takes (.generic w args) := by
  intro stack rest _
  have htext : (display (.generic w args)).toList ++ rest =
      w.name.toList ++ '<' :: ((displayArgs args).toList ++ '>' :: rest) := by
    simp [display]
  have hstep : step (.name stack w.name) (.mark '<') = .ok (.start (⟨w.name, []⟩ :: stack)) := rfl
  rw [htext, run_start_name hn stack (nameEnds_cons.mpr (mark_apart (by simp)).1),
    run_mark (by simp) hstep, run_args hargs hne]
  simp only [List.reverse_nil, List.nil_append, hw]
  rfl

/-- The machine takes the text of a well-formed expression. -/
theorem run_display {t : TypeExpr} (h : t.WellFormed) : Takes t := by
  induction h with
  | primitive p =>
    intro stack rest hr
    rw [display, run_start_type p.isName_name stack hr, ofName_name]
  | named hn hu =>
    intro stack rest hr
    rw [display, run_start_type hn stack hr, ofName_of_unknown hu]
  | @array e _ ih =>
    intro stack rest _
    have htext : (display (.array e)).toList ++ rest = e.display.toList ++ '[' :: ']' :: rest := by
      simp [display]
    have hends : TypeEnds ('[' :: ']' :: rest) := typeEnds_mark (by simp) (by decide) _
    have hopen : step (.type stack e) (.mark '[') = .ok (.bracket stack e) := by
      cases stack <;> rfl
    rw [htext, ih _ _ hends, run_mark (by simp) hopen, run_mark (by simp) rfl]
  | @fixed w args harity _ ih =>
    have hne : args ≠ [] := by
      rintro rfl
      exact Wrapper.arity?_ne_zero harity
    exact takes_generic (Wrapper.isName_name harity) ih hne (instantiate_name harity)
  | custom hn hu hne _ ih =>
    exact takes_generic hn ih hne (instantiate_custom hu)

end Reader

/-- The text of a well-formed expression reads back as the expression. -/
theorem parse_display {t : TypeExpr} (h : t.WellFormed) : parse t.display = .ok t := by
  have hrun := Reader.run_display h [] [] (by simp [TypeEnds])
  rw [List.append_nil] at hrun
  simp only [parse, hrun, Token.scan_nil, Reader.run_nil, Reader.finish]

/-! ## What can be read -/

namespace Reader

/-- What an unfinished generic type holds is well formed. -/
def FrameWellFormed (f : Frame) : Prop := IsName f.name ∧ ∀ t ∈ f.args, t.WellFormed

/-- What has been read is well formed. -/
def WellFormed : Reader → Prop
  | .start stack => ∀ f ∈ stack, FrameWellFormed f
  | .name stack n => IsName n ∧ ∀ f ∈ stack, FrameWellFormed f
  | .type stack t | .bracket stack t => t.WellFormed ∧ ∀ f ∈ stack, FrameWellFormed f

theorem afterType_wellFormed {stack : List Frame} {t : TypeExpr} {tok : Token} {r : Reader}
    (ht : t.WellFormed) (hs : ∀ f ∈ stack, FrameWellFormed f)
    (h : afterType stack t tok = .ok r) : r.WellFormed := by
  unfold afterType at h
  split at h
  · cases h; exact ⟨ht, hs⟩
  · cases h; exact ⟨optional_wellFormed ht, hs⟩
  · next f stack =>
    cases h
    obtain ⟨⟨hn, hargs⟩, hs⟩ := List.forall_mem_cons.mp hs
    exact List.forall_mem_cons.mpr ⟨⟨hn, List.forall_mem_cons.mpr ⟨ht, hargs⟩⟩, hs⟩
  · next f stack =>
    obtain ⟨⟨hn, hargs⟩, hs⟩ := List.forall_mem_cons.mp hs
    obtain ⟨u, hu, h⟩ := Except.bind_eq_ok_iff.mp h
    cases h
    have hmem : ∀ a ∈ (t :: f.args).reverse, a.WellFormed := fun a ha =>
      List.forall_mem_cons.mpr ⟨ht, hargs⟩ a (List.mem_reverse.mp ha)
    exact ⟨instantiate_wellFormed hn (by simp) hmem hu, hs⟩
  · cases h
  · cases h

/-- A step keeps what has been read well formed. -/
theorem step_wellFormed {r r' : Reader} {tok : Token} (hr : r.WellFormed) (htok : tok.IsPart)
    (h : step r tok = .ok r') : r'.WellFormed := by
  unfold step at h
  split at h
  · next c cs =>
    cases h
    exact ⟨⟨by simp, by simpa [Token.IsPart] using htok⟩, hr⟩
  · cases h
  · next n => cases h; exact List.forall_mem_cons.mpr ⟨⟨hr.1, by simp⟩, hr.2⟩
  · exact afterType_wellFormed (ofName_wellFormed hr.1) hr.2 h
  · exact afterType_wellFormed hr.1 hr.2 h
  · cases h; exact ⟨.array hr.1, hr.2⟩
  · cases h

theorem finish_wellFormed {r : Reader} {t : TypeExpr} (hr : r.WellFormed) (h : finish r = .ok t) :
    t.WellFormed := by
  unfold finish at h
  split at h
  · cases h
  · cases h; exact ofName_wellFormed hr.1
  · cases h; exact hr.1
  all_goals cases h

/-- A run ends with a well-formed expression. -/
theorem run_wellFormed {ts : List Token} {r : Reader} {t : TypeExpr} (hr : r.WellFormed)
    (hts : ∀ tok ∈ ts, tok.IsPart) (h : run r ts = .ok t) : t.WellFormed := by
  induction ts generalizing r with
  | nil => exact finish_wellFormed hr h
  | cons tok ts ih =>
    rw [run_cons] at h
    obtain ⟨htok, hts⟩ := List.forall_mem_cons.mp hts
    obtain ⟨r', hstep, h⟩ := Except.bind_eq_ok_iff.mp h
    exact ih (step_wellFormed hr htok hstep) hts h

end Reader

/-- What can be read is well formed. -/
theorem wellFormed_of_parse {text : String} {t : TypeExpr} (h : parse text = .ok t) :
    t.WellFormed := by
  unfold parse at h
  split at h
  · next u hrun =>
    cases h
    exact Reader.run_wellFormed (by simp [Reader.WellFormed]) (fun _ => Token.isPart_of_mem_scan) hrun
  · cases h

/-! ## The round trip -/

/-- **Round trip.** The text of an expression reads back as the expression exactly if it is well
formed. All that can be read is well formed, so writing and reading again changes nothing. -/
theorem parse_display_eq_ok_iff :
    (∀ t : TypeExpr, parse t.display = .ok t ↔ t.WellFormed) ∧
      ∀ (text : String) (t : TypeExpr), parse text = .ok t →
        t.WellFormed ∧ parse t.display = .ok t :=
  ⟨fun _ => ⟨wellFormed_of_parse, parse_display⟩,
    fun _ _ h => ⟨wellFormed_of_parse h, parse_display (wellFormed_of_parse h)⟩⟩

end TypeExport.TypeExpr
