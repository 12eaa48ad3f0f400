import TypeExport.Proofs.Json.Grammar

/-!
# Reading texts

* `Json.Tree.Spells.reads`: the text of a value is read to its end, wherever it stands, and gives the tree of
  data of its syntax.
* `Json.Tree.Spells.decode_eq`: so decoding a text is decoding that tree.
-/

namespace TypeExport.Json

open Data

section

variable {fuel depth : Nat} {rest : List Char}

theorem value_number {c : Char} {cs : List Char} (h : c = '-' ∨ c.isDigit = true) :
    value (fuel + 1) depth (c :: cs) = number (c :: cs) := by
  have hblank : isBlank c = false := isBlank_of_number h
  rw [value, skipBlanks_cons hblank]
  split
  case h_8 heq =>
    obtain ⟨rfl, rfl⟩ := List.cons.inj heq
    rw [if_pos h]
  all_goals next heq =>
    cases heq
    all_goals exact absurd h (by decide)

theorem nextItem_end : nextItem (fuel + 1) depth (']' :: rest) = ([], some rest) := by
  simp [nextItem, skipBlanks_cons (c := ']') (by decide)]

theorem nextEntry_end : nextEntry (fuel + 1) depth ('}' :: rest) = ([], some rest) := by
  simp [nextEntry, skipBlanks_cons (c := '}') (by decide)]

end

namespace Tree

/-- Reading the text where it stands gives the tree of data, and stops before the blanks after it. -/
def Reads (t : Tree) (cs : List Char) : Prop :=
  ∀ fuel depth rest, 2 * cs.length ≤ fuel + 1 → NumberEnds rest →
    ∃ rest', skipBlanks rest' = skipBlanks rest ∧
      value (fuel + 1) depth (cs ++ rest) = (t.node depth, some rest')

/-- After blanks, a text begins with what is neither a blank nor the end of an array. -/
theorem Spells.exists_skipBlanks {t : Tree} {cs : List Char} (h : Spells t cs) :
    ∃ c cs', c ≠ ']' ∧ ∀ rest, skipBlanks (cs ++ rest) = c :: (cs' ++ rest) := by
  have hstart {c : Char} {cs : List Char} (hblank : isBlank c = false) (hc : c ≠ ']') :
      ∃ d cs', d ≠ ']' ∧ ∀ rest, skipBlanks (c :: cs ++ rest) = d :: (cs' ++ rest) :=
    ⟨c, cs, hc, fun rest => skipBlanks_cons hblank⟩
  induction h with
  | null | yes | no | string h | emptyArray h | array h ih | emptyObject h | object hkeys hvalues ih =>
    exact hstart (by decide) (by decide)
  | number h =>
    obtain ⟨c, cs, rfl, hc⟩ := h.exists_cons
    refine hstart (isBlank_of_number hc) ?_
    rintro rfl
    exact absurd hc (by decide)
  | blankBefore hc h ih =>
    obtain ⟨d, cs', hd, hskip⟩ := ih
    exact ⟨d, cs', hd, fun rest => by rw [List.cons_append, skipBlanks_blank hc, hskip]⟩
  | @blankAfter t c cs h hc ih =>
    obtain ⟨d, cs', hd, hskip⟩ := ih
    exact ⟨d, cs' ++ [c], hd, fun rest => by simp [hskip]⟩

theorem Spells.length_pos {t : Tree} {cs : List Char} (h : Spells t cs) : 0 < cs.length := by
  refine List.length_pos_iff.mpr ?_
  rintro rfl
  obtain ⟨c, cs, -, hskip⟩ := h.exists_skipBlanks
  exact absurd (hskip []) (by simp [skipBlanks])

section

variable {fuel depth : Nat}

theorem firstItem_of_skipBlanks {c : Char} {cs cs' : List Char} (hskip : skipBlanks cs = c :: cs')
    (hc : c ≠ ']') : firstItem (fuel + 1) depth cs = item fuel depth cs := by
  rw [← item_skipBlanks cs]
  simp [firstItem, hskip, hc]

theorem nextItem_of_skipBlanks {c : Char} {cs cs' : List Char} (hskip : skipBlanks cs = c :: cs')
    (hc : c ≠ ']') : nextItem (fuel + 1) depth (',' :: cs) = item fuel depth cs := by
  rw [← item_skipBlanks cs]
  simp [nextItem, skipBlanks_cons (c := ',') (by decide), hskip, hc]

theorem nextEntry_of_skipBlanks {cs cs' : List Char} (hskip : skipBlanks cs = '"' :: cs') :
    nextEntry (fuel + 1) depth (',' :: cs) = entry fuel depth cs' := by
  simp [nextEntry, skipBlanks_cons (c := ',') (by decide), hskip]

theorem intercalate_map_cons_cons {α : Type} (text : α → List Char) (a b : α) (l : List α) :
    [','].intercalate ((a :: b :: l).map text) = text a ++ ',' :: [','].intercalate ((b :: l).map text) := by
  simp

variable (fuel depth) (rest : List Char)

theorem exists_skipBlanks_intercalate {i : Tree × List Char} (items : List (Tree × List Char))
    (h : Spells i.1 i.2) :
    ∃ c cs, c ≠ ']' ∧ skipBlanks ([','].intercalate ((i :: items).map (·.2)) ++ rest) = c :: cs := by
  obtain ⟨c, cs, hc, hskip⟩ := h.exists_skipBlanks
  cases items with
  | nil => exact ⟨c, _, hc, by rw [List.map_cons, List.map_nil, List.intercalate_singleton, hskip]⟩
  | cons j items => exact ⟨c, _, hc, by rw [intercalate_map_cons_cons, List.append_assoc, hskip]⟩

/-- The elements of an array, from one that is there on. -/
theorem item_intercalate {i : Tree × List Char} {items : List (Tree × List Char)}
    (hspells : ∀ j ∈ i :: items, Spells j.1 j.2) (hreads : ∀ j ∈ i :: items, Reads j.1 j.2)
    (hfuel : 2 * ([','].intercalate ((i :: items).map (·.2))).length + 2 ≤ fuel) :
    item fuel depth ([','].intercalate ((i :: items).map (·.2)) ++ ']' :: rest) =
      ((i :: items).map (·.1.node depth), some rest) := by
  have hpos := (hspells i (by simp)).length_pos
  induction items generalizing i fuel with
  | nil =>
    simp only [List.map_cons, List.map_nil, List.intercalate_singleton] at hfuel ⊢
    obtain ⟨fuel, rfl⟩ : ∃ k, fuel = k + 2 := ⟨fuel - 2, by omega⟩
    obtain ⟨rest', hrest', hvalue⟩ :=
      hreads i (by simp) fuel depth (']' :: rest) (by omega) (numberEnds_cons (by simp))
    simp [item, hvalue, nextItem_congr hrest', nextItem_end]
  | cons j items ih =>
    rw [intercalate_map_cons_cons] at hfuel ⊢
    rw [List.length_append, List.length_cons] at hfuel
    obtain ⟨fuel, rfl⟩ : ∃ k, fuel = k + 2 := ⟨fuel - 2, by omega⟩
    have hj := hspells j (by simp)
    have htail := ih fuel (fun k hk => hspells k (.tail _ hk)) (fun k hk => hreads k (.tail _ hk))
      (by omega) hj.length_pos
    obtain ⟨c, cs, hc, hskip⟩ := exists_skipBlanks_intercalate (']' :: rest) items hj
    obtain ⟨rest', hrest', hvalue⟩ := hreads i (by simp) fuel depth
      (',' :: ([','].intercalate ((j :: items).map (·.2)) ++ ']' :: rest)) (by omega)
      (numberEnds_cons (by simp))
    rw [List.append_assoc, List.cons_append, item, hvalue]
    dsimp only
    rw [nextItem_congr hrest', nextItem_of_skipBlanks hskip hc, htail]
    rfl

theorem firstItem_intercalate {items : List (Tree × List Char)} (hspells : ∀ j ∈ items, Spells j.1 j.2)
    (hreads : ∀ j ∈ items, Reads j.1 j.2)
    (hfuel : 2 * ([','].intercalate (items.map (·.2))).length + 3 ≤ fuel) :
    firstItem fuel depth ([','].intercalate (items.map (·.2)) ++ ']' :: rest) =
      (items.map (·.1.node depth), some rest) := by
  obtain ⟨fuel, rfl⟩ : ∃ k, fuel = k + 1 := ⟨fuel - 1, by omega⟩
  cases items with
  | nil => simp [firstItem, skipBlanks_cons (c := ']') (by decide)]
  | cons i items =>
    obtain ⟨c, cs, hc, hskip⟩ := exists_skipBlanks_intercalate (']' :: rest) items (hspells i (by simp))
    rw [firstItem_of_skipBlanks hskip hc, item_intercalate fuel depth rest hspells hreads (by omega)]

/-- A member is read from the opening mark of its key on. -/
theorem entry_text {m : MemberText} (hkey : SpellsKey m.raw m.keyText) (hreads : Reads m.value m.valueText)
    (hfuel : 2 * m.text.length ≤ fuel + 1) (hrest : NumberEnds rest) :
    ∃ cs rest', skipBlanks rest' = skipBlanks rest ∧ skipBlanks (m.text ++ rest) = '"' :: cs ∧
      entry (fuel + 2) depth cs =
        ((keyValue m.raw, m.value.node depth) :: (nextEntry (fuel + 1) depth rest').1,
          (nextEntry (fuel + 1) depth rest').2) := by
  obtain ⟨raw, v, keyText, valueText⟩ := m
  change SpellsKey raw keyText at hkey
  change Reads v valueText at hreads
  obtain @⟨before, after, hbefore, hraw, hafter⟩ := hkey
  simp only [MemberText.text, List.length_append, List.length_cons] at hfuel
  obtain ⟨rest', hrest', hvalue⟩ := hreads fuel depth rest (by omega) hrest
  refine ⟨raw ++ '"' :: (after ++ ':' :: (valueText ++ rest)), rest', hrest', ?_, ?_⟩
  · simp only [MemberText.text, List.append_assoc, List.cons_append, skipBlanks_append hbefore]
    exact skipBlanks_cons (by decide)
  · rw [entry, hraw.key_append hafter]
    dsimp only
    rw [hvalue]

/-- The entries of an object, from the key of one that is there on. -/
theorem entry_intercalate {m : MemberText} {ms : List MemberText}
    (hkeys : ∀ l ∈ m :: ms, SpellsKey l.raw l.keyText) (hreads : ∀ l ∈ m :: ms, Reads l.value l.valueText)
    (hfuel : 2 * ([','].intercalate ((m :: ms).map (·.text))).length + 1 ≤ fuel) :
    ∃ cs, skipBlanks ([','].intercalate ((m :: ms).map (·.text)) ++ '}' :: rest) = '"' :: cs ∧
      entry fuel depth cs =
        ((m :: ms).map fun l => (keyValue l.raw, l.value.node depth), some rest) := by
  have hpos (l : MemberText) : 0 < l.text.length :=
    List.length_pos_iff.mpr (by simp [MemberText.text])
  have hposm := hpos m
  induction ms generalizing m fuel with
  | nil =>
    simp only [List.map_cons, List.map_nil, List.intercalate_singleton] at hfuel ⊢
    obtain ⟨fuel, rfl⟩ : ∃ k, fuel = k + 2 := ⟨fuel - 2, by omega⟩
    obtain ⟨cs, rest', hrest', hskip, hentry⟩ := entry_text fuel depth ('}' :: rest) (hkeys m (by simp))
      (hreads m (by simp)) (by omega) (numberEnds_cons (by simp))
    refine ⟨cs, hskip, ?_⟩
    rw [hentry, nextEntry_congr hrest', nextEntry_end]
  | cons l ms ih =>
    rw [intercalate_map_cons_cons] at hfuel ⊢
    rw [List.length_append, List.length_cons] at hfuel
    obtain ⟨fuel, rfl⟩ : ∃ k, fuel = k + 2 := ⟨fuel - 2, by omega⟩
    obtain ⟨cs', hskip', htail⟩ := ih fuel (fun k hk => hkeys k (.tail _ hk))
      (fun k hk => hreads k (.tail _ hk)) (by omega) (hpos l)
    obtain ⟨cs, rest', hrest', hskip, hentry⟩ := entry_text fuel depth
      (',' :: ([','].intercalate ((l :: ms).map (·.text)) ++ '}' :: rest)) (hkeys m (by simp))
      (hreads m (by simp)) (by omega) (numberEnds_cons (by simp))
    refine ⟨cs, by rwa [List.append_assoc, List.cons_append], ?_⟩
    rw [hentry, nextEntry_congr hrest', nextEntry_of_skipBlanks hskip', htail]
    rfl

theorem firstEntry_intercalate {members : List MemberText}
    (hkeys : ∀ m ∈ members, SpellsKey m.raw m.keyText) (hreads : ∀ m ∈ members, Reads m.value m.valueText)
    (hfuel : 2 * ([','].intercalate (members.map (·.text))).length + 3 ≤ fuel) :
    firstEntry fuel depth ([','].intercalate (members.map (·.text)) ++ '}' :: rest) =
      (members.map fun m => (keyValue m.raw, m.value.node depth), some rest) := by
  obtain ⟨fuel, rfl⟩ : ∃ k, fuel = k + 1 := ⟨fuel - 1, by omega⟩
  cases members with
  | nil => simp [firstEntry, skipBlanks_cons (c := '}') (by decide)]
  | cons m ms =>
    obtain ⟨cs, hskip, hentry⟩ := entry_intercalate fuel depth rest hkeys hreads (by omega)
    rw [firstEntry, hskip]
    exact hentry

end

/-- What reads alike without the blanks before it reads alike. -/
theorem Reads.of_value_eq {t : Tree} {cs : List Char} (h : ∀ fuel depth rest, 2 * cs.length ≤ fuel + 1 →
    NumberEnds rest → value (fuel + 1) depth (cs ++ rest) = (t.node depth, some rest)) : Reads t cs :=
  fun fuel depth rest hfuel hrest => ⟨rest, rfl, h fuel depth rest hfuel hrest⟩

/-- A text reads where it stands. -/
theorem Spells.reads {t : Tree} {cs : List Char} (h : Spells t cs) : Reads t cs := by
  induction h with
  | null | yes | no =>
    refine .of_value_eq fun fuel depth rest _ _ => ?_
    simp [value, skipBlanks_cons, isBlank, literal, node]
  | number h =>
    refine .of_value_eq fun fuel depth rest _ hrest => ?_
    rw [node, ← h.number_append hrest]
    obtain ⟨c, cs, rfl, hc⟩ := h.exists_cons
    exact value_number hc
  | @string raw h =>
    refine .of_value_eq fun fuel depth rest _ _ => ?_
    have hstring := h.string_append rest
    simp [value, skipBlanks_cons, isBlank, hstring, node]
  | @emptyArray blanks h =>
    refine .of_value_eq fun fuel depth rest hfuel _ => ?_
    obtain ⟨fuel, rfl⟩ : ∃ k, fuel = k + 1 := ⟨fuel - 1, by simp at hfuel; omega⟩
    have hlist : firstItem (fuel + 1) (depth + 1) (blanks ++ ']' :: rest) = ([], some rest) := by
      simp [firstItem, skipBlanks_append h, skipBlanks_cons (c := ']') (by decide)]
    simp [value, skipBlanks_cons, isBlank, hlist, node]
  | array h ih =>
    refine .of_value_eq fun fuel depth rest hfuel _ => ?_
    rw [List.length_cons, List.length_append] at hfuel
    have hlist := firstItem_intercalate fuel (depth + 1) rest h ih (by simp at hfuel; omega)
    simp [value, skipBlanks_cons, isBlank, hlist, node, Function.comp_def]
  | @emptyObject blanks h =>
    refine .of_value_eq fun fuel depth rest hfuel _ => ?_
    obtain ⟨fuel, rfl⟩ : ∃ k, fuel = k + 1 := ⟨fuel - 1, by simp at hfuel; omega⟩
    have hlist : firstEntry (fuel + 1) (depth + 1) (blanks ++ '}' :: rest) = ([], some rest) := by
      simp [firstEntry, skipBlanks_append h, skipBlanks_cons (c := '}') (by decide)]
    simp [value, skipBlanks_cons, isBlank, hlist, node]
  | object hkeys hvalues ih =>
    refine .of_value_eq fun fuel depth rest hfuel _ => ?_
    rw [List.length_cons, List.length_append] at hfuel
    have hlist := firstEntry_intercalate fuel (depth + 1) rest hkeys ih (by simp at hfuel; omega)
    simp [value, skipBlanks_cons, isBlank, hlist, node, Function.comp_def]
  | blankBefore hc h ih =>
    intro fuel depth rest hfuel hrest
    rw [List.length_cons] at hfuel
    obtain ⟨rest', hrest', hvalue⟩ := ih fuel depth rest (by omega) hrest
    exact ⟨rest', hrest', by rw [List.cons_append, value_congr (skipBlanks_blank hc), hvalue]⟩
  | @blankAfter t c cs h hc ih =>
    intro fuel depth rest hfuel hrest
    rw [List.length_append] at hfuel
    obtain ⟨rest', hrest', hvalue⟩ := ih fuel depth (c :: rest) (by omega) (numberEnds_blank hc)
    refine ⟨rest', hrest'.trans (skipBlanks_blank hc), ?_⟩
    rw [List.append_assoc, List.singleton_append, hvalue]

/-- Decoding a text is decoding its tree of data. -/
theorem Spells.decode_eq {α : Type} (decoder : Node → Decoded α) {t : Tree} {text : String}
    (h : Spells t text.toList) : decode decoder text = decoder (t.node 0) := by
  obtain ⟨rest, hrest, hvalue⟩ :=
    h.reads (4 * text.toList.length + 3) 0 [] (by omega) numberEnds_nil
  rw [List.append_nil] at hvalue
  unfold decode document
  rw [hvalue]
  cases hd : decoder (t.node 0) with
  | error e => simp [hd, bind, Except.bind]
  | ok a =>
    have hend : skipBlanks rest = [] := hrest
    simp [hd, bind, Except.bind, hend]

end Tree

end TypeExport.Json
