import TypeExport.Output.TypeText
import TypeExport.Proofs.Output.TypeGrammar
import TypeExport.Proofs.TypeExpr.WellFormed

/-!
# Reading the text of a type

`Output.typeText` puts an element type in parentheses exactly if there is a bar somewhere in its
text. That is enough: the text is read as the type that is meant.

* `Output.image`: the type that a type expression stands for.
* `Output.Writes`: a text reads as a type, and a suffix can follow if there is no bar in it. Each
  part of `Output.typeText` keeps this, so it holds of all type expressions
  (`Output.writes_typeText`).
* `Output.typeText_reads`: the text of a type expression reads as its image, and as nothing else.
-/

namespace TypeExport

namespace TypeExpr

mutual

/-- The names of declared types and of custom generic types in a type expression. -/
def names : TypeExpr → List String
  | .primitive _ => []
  | .named n => [n]
  | .array e => names e
  | .generic (.custom n) args => n :: namesList args
  | .generic _ args => namesList args

def namesList : List TypeExpr → List String
  | [] => []
  | t :: ts => names t ++ namesList ts

end

theorem mem_namesList {n : String} {ts : List TypeExpr} :
    n ∈ namesList ts ↔ ∃ t ∈ ts, n ∈ names t := by
  induction ts with
  | nil => simp [namesList]
  | cons t ts ih => simp [namesList, ih]

/-- The names in an argument are names in the generic type. -/
theorem mem_names_generic {n : String} {w : Wrapper} {args : List TypeExpr} {t : TypeExpr}
    (ht : t ∈ args) (h : n ∈ names t) : n ∈ names (.generic w args) := by
  have hargs : n ∈ namesList args := mem_namesList.mpr ⟨t, ht, h⟩
  cases w with
  | custom m => exact List.mem_cons_of_mem m hargs
  | task | enumerable | collection | nullable | dictionary => exact hargs

end TypeExpr

namespace Output

open TsType

/-! ## What is written -/

/-- The text reads as the type. Without a bar in it, a suffix can follow. -/
structure Writes (text : String) (t : TsType) : Prop where
  reads : Reads text t
  operand : Text.hasChar '|' text = false → Operand (tokens text.toList) t

theorem Writes.of_operand {text : String} {t : TsType} (h : Operand (tokens text.toList) t) :
    Writes text t := ⟨.operand h, fun _ => h⟩

theorem writes_name {w : String} (h : IsIdentifier w) : Writes w (.name w) :=
  .of_operand (by rw [tokens_identifier h]; exact .name h)

theorem writes_arrayOf {e : String} {t : TsType} (h : Writes e t) :
    Writes (arrayOf e) (.array t) := by
  refine .of_operand ?_
  unfold arrayOf
  split
  · have htext : ("(" ++ e ++ ")[]").toList = '(' :: (e.toList ++ [')', '[', ']']) := by simp
    have htokens : tokens ("(" ++ e ++ ")[]").toList =
        .mark '(' :: tokens e.toList ++ [.mark ')'] ++ [.mark '[', .mark ']'] := by
      rw [htext, tokens_mark (by decide), tokens_append_mark (by decide), tokens_mark (by decide),
        tokens_mark (by decide), tokens_nil]
      simp
    rw [htokens]
    exact .array (.parens h.reads)
  · next hbar =>
    have htokens : tokens (e ++ "[]").toList = tokens e.toList ++ [.mark '[', .mark ']'] := by
      have htext : (e ++ "[]").toList = e.toList ++ ['[', ']'] := by simp
      rw [htext, tokens_append_mark (by decide), tokens_mark (by decide), tokens_nil]
    rw [htokens]
    exact .array (h.operand (Bool.eq_false_iff.mpr hbar))

theorem writes_orNull {e : String} {t : TsType} (h : Writes e t) :
    Writes (e ++ "|null") (.union t .null) := by
  have hnull : IsIdentifier "null" := by decide +kernel
  have htext : (e ++ "|null").toList = e.toList ++ '|' :: "null".toList := by simp
  have htokens : tokens (e ++ "|null").toList = tokens e.toList ++ .mark '|' :: [.word "null"] := by
    rw [htext, tokens_append_mark (by decide), tokens_identifier hnull]
  refine ⟨?_, fun hbar => ?_⟩
  · rw [Reads, htokens]
    exact .bar h.reads (.name hnull)
  · simp [Text.hasChar] at hbar

theorem writes_mapOf {k v : String} {t u : TsType} (hk : Writes k t) (hv : Writes v u) :
    Writes (mapOf k v) (.map t u) := by
  have hkey : IsIdentifier "key" := by decide +kernel
  have htext : (mapOf k v).toList = '\x7b' :: ' ' :: '[' :: ("key".toList ++ ':' :: ' ' ::
      (k.toList ++ ']' :: ':' :: ' ' :: (v.toList ++ [' ', '\x7d']))) := by simp [mapOf]
  have htokens : tokens (mapOf k v).toList =
      [.mark '\x7b', .mark '[', .word "key", .mark ':'] ++ tokens k.toList ++
        [.mark ']', .mark ':'] ++ tokens v.toList ++ [.mark '\x7d'] := by
    rw [htext, tokens_mark (by decide), tokens_space, tokens_mark (by decide),
      tokens_append_mark (by decide), tokens_identifier hkey, tokens_space,
      tokens_append_mark (by decide), tokens_mark (by decide), tokens_space,
      tokens_append_space, tokens_mark (by decide), tokens_nil]
    simp
  refine .of_operand ?_
  rw [htokens]
  exact .map hk.reads hv.reads

/-! ## What type expressions stand for -/

/-- The type that a type expression stands for. A primitive that has an absent value anyway is not
joined with it. -/
def image : TypeExpr → TsType
  | .primitive p => .name p.typescript
  | .named n => .name (Text.simpleName n)
  | .array e => .array (image e)
  | .generic .dictionary [k, v] => .map (image k) (image v)
  | .generic .nullable [t] =>
    if t = .primitive .string ∨ t = .primitive .object ∨ t = .primitive .void then image t
    else .union (image t) .null
  | .generic .enumerable [e] => .array (image e)
  | .generic .collection [e] => .array (image e)
  | .generic .task [t] => image t
  | .generic w _ => .name (Text.simpleName w.name)

/-- A nullable value has a type to join exactly if it is none of the three primitives. -/
theorem isSome_nullableValue?_iff (t : TypeExpr) :
    (TypeExpr.generic .nullable [t]).nullableValue?.isSome = true ↔
      ¬ (t = .primitive .string ∨ t = .primitive .object ∨ t = .primitive .void) := by
  cases t with
  | primitive p => cases p <;> decide
  | named n => simp [TypeExpr.nullableValue?]
  | array e => simp [TypeExpr.nullableValue?]
  | generic w args => simp [TypeExpr.nullableValue?]

theorem isIdentifier_typescript (p : Primitive) : IsIdentifier p.typescript := by
  have hall : ∀ w ∈ ["string", "number", "boolean", "any", "void"], IsIdentifier w := by
    decide +kernel
  exact hall _ (by cases p <;> decide)

/-- The text of a type expression is that of its image. -/
theorem writes_typeText {t : TypeExpr} (harity : t.HasArity)
    (hnames : ∀ n ∈ t.names, IsIdentifier (Text.simpleName n)) : Writes (typeText t) (image t) := by
  induction harity with
  | primitive p => exact writes_name (isIdentifier_typescript p)
  | named n => exact writes_name (hnames n (by simp [TypeExpr.names]))
  | array _ ih => exact writes_arrayOf (ih hnames)
  | @generic w args harity _ ih =>
    have ih : ∀ a ∈ args, Writes (typeText a) (image a) := fun a ha =>
      ih a ha fun n hn => hnames n (TypeExpr.mem_names_generic ha hn)
    cases w with
    | custom n =>
      have htext : typeText (.generic (.custom n) args) = Text.simpleName n := by
        rw [typeText] <;> simp [Wrapper.name]
      have himage : image (.generic (.custom n) args) = .name (Text.simpleName n) := by
        rw [image] <;> simp [Wrapper.name]
      rw [htext, himage]
      exact writes_name (hnames n (by simp [TypeExpr.names]))
    | task =>
      obtain ⟨a, rfl⟩ := List.length_eq_one_iff.mp (harity 1 rfl)
      exact ih a (by simp)
    | nullable =>
      obtain ⟨a, rfl⟩ := List.length_eq_one_iff.mp (harity 1 rfl)
      have ha := ih a (by simp)
      rw [typeText, image]
      by_cases h : a = .primitive .string ∨ a = .primitive .object ∨ a = .primitive .void
      · rw [if_pos h, if_neg (by simp [isSome_nullableValue?_iff, h])]
        exact ha
      · rw [if_neg h, if_pos ((isSome_nullableValue?_iff a).mpr h)]
        exact writes_orNull ha
    | enumerable | collection =>
      obtain ⟨a, rfl⟩ := List.length_eq_one_iff.mp (harity 1 rfl)
      exact writes_arrayOf (ih a (by simp))
    | dictionary =>
      obtain ⟨k, v, rfl⟩ := List.length_eq_two.mp (harity 2 rfl)
      exact writes_mapOf (ih k (by simp)) (ih v (by simp))

/-- The image of an array or of a sequence is an array of the image of its element. -/
theorem image_of_element? {t e : TypeExpr} (harity : t.HasArity) (h : t.element? = some e) :
    image t = .array (image e) ∧ e.HasArity ∧ ∀ n ∈ e.names, n ∈ t.names := by
  cases harity with
  | primitive p => cases h
  | named n => cases h
  | array element =>
    cases h
    exact ⟨rfl, element, fun n hn => hn⟩
  | @generic w args harity members =>
    cases w with
    | enumerable | collection =>
      obtain ⟨a, rfl⟩ := List.length_eq_one_iff.mp (harity 1 rfl)
      cases h
      exact ⟨rfl, members e (by simp), fun n hn => TypeExpr.mem_names_generic (by simp) hn⟩
    | task | nullable | dictionary | custom n => cases h

/-- **Types are read as they are meant.** Say that all wrappers have their arguments and the simple
names of declared types and of custom generic types are identifiers.
* The text reads as the image of the type expression, and as no other type.
* The text of an array or of a sequence reads as an array, of what the text of its element reads as.
  So a bar in the element stays inside. -/
theorem typeText_reads {t : TypeExpr} (harity : t.HasArity)
    (hnames : ∀ n ∈ t.names, IsIdentifier (Text.simpleName n)) :
    (∀ tree, Reads (typeText t) tree ↔ tree = image t) ∧
      ∀ e, t.element? = some e →
        ∀ tree, Reads (typeText t) tree ↔ ∃ u, tree = .array u ∧ Reads (typeText e) u := by
  have hreads : ∀ {a : TypeExpr}, a.HasArity → (∀ n ∈ a.names, IsIdentifier (Text.simpleName n)) →
      ∀ tree, Reads (typeText a) tree ↔ tree = image a := fun ha hn tree => by
    have himage := (writes_typeText ha hn).reads
    exact ⟨fun h => h.unique himage, fun h => h ▸ himage⟩
  refine ⟨hreads harity hnames, fun e he tree => ?_⟩
  obtain ⟨himage, hearity, henames⟩ := image_of_element? harity he
  rw [hreads harity hnames, himage]
  simp only [hreads hearity fun n hn => hnames n (henames n hn)]
  constructor
  · rintro rfl
    exact ⟨_, rfl, rfl⟩
  · rintro ⟨_, rfl, rfl⟩
    rfl

/-- Maybe a map to sequences of orders that may be missing, many times. -/
def sampleType : TypeExpr :=
  .generic .collection [.generic .nullable [.generic .dictionary
    [.primitive .string, .array (.generic .nullable [.named "Shop.Order"])]]]

theorem typeText_reads_sampleType :
    sampleType.HasArity ∧ (∀ n ∈ sampleType.names, IsIdentifier (Text.simpleName n)) ∧
      typeText sampleType = "({ [key: string]: (Order|null)[] }|null)[]" ∧
      ∀ tree, Reads (typeText sampleType) tree ↔ tree =
        .array (.union (.map (.name "string") (.array (.union (.name "Order") .null))) .null) := by
  have harity : sampleType.HasArity := by decide
  have hnames : ∀ n ∈ sampleType.names, IsIdentifier (Text.simpleName n) := by decide +kernel
  exact ⟨harity, hnames, by decide, (typeText_reads harity hnames).1⟩

end Output

end TypeExport
