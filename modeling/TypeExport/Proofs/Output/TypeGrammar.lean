import Mathlib.Data.List.Pairwise
import Mathlib.Data.List.SplitBy
import TypeExport.Text.Blank
import TypeExport.Text.Identifier

/-!
# The grammar of TypeScript types

    union   = operand | union "|" operand
    operand = identifier
            | "(" union ")"
            | "{" "[" "key" ":" union "]" ":" union "}"
            | operand "[" "]"

The suffix of an array belongs to the operand before it, so it binds tighter than a bar.

* `TsType.tokens`: words, and marks that stand alone. Blanks separate and leave nothing.
* `TsType.Union`, `TsType.Operand`: the derivations of the grammar. Parentheses leave nothing.
* `TsType.Operand.run`, `TsType.Union.run`: a machine over tokens follows every derivation.
* `TsType.Union.unique`: so the grammar is unambiguous.
-/

namespace TypeExport

/-- A TypeScript type as it is read. -/
inductive TsType where
  | name (n : String)
  | array (element : TsType)
  | union (left right : TsType)
  | map (key value : TsType)
  deriving DecidableEq, Repr

namespace TsType

/-- The type of the absent value is read as a name. -/
def null : TsType := .name "null"

/-! ## Tokens -/

/-- A character that may stand in an identifier, the two joiners included. -/
def isPart (c : Char) : Bool :=
  Text.isIdentContinue c || c == '$' || c == '\u200c' || c == '\u200d'

def IsIdentifier (w : String) : Prop :=
  (∃ c ∈ w.toList.head?, Text.isIdentStart c = true ∨ c = '$') ∧ ∀ c ∈ w.toList, isPart c = true

instance (w : String) : Decidable (IsIdentifier w) :=
  decidable_of_iff
    (w.toList.head?.any (fun c => Text.isIdentStart c || c == '$') ∧ w.toList.all isPart)
    (by simp [IsIdentifier, Option.any_eq_true])

inductive Token where
  | word (w : String)
  | mark (c : Char)
  deriving DecidableEq, Repr

namespace Token

/-- The token of a run of characters that stand together. -/
def ofRun? : List Char → Option Token
  | [] => none
  | c :: cs =>
    if isPart c then some (.word (String.ofList (c :: cs)))
    else if Text.isBlank c then none
    else some (.mark c)

end Token

/-- The tokens of a text. A word is as long as it gets, and any other character stands alone. -/
def tokens (cs : List Char) : List Token :=
  (cs.splitBy fun a b => isPart a && isPart b).filterMap Token.ofRun?

def marks : List Char := ['|', '(', ')', '[', ']', '\x7b', '\x7d', ':']

theorem mark_apart {c : Char} (h : c ∈ marks) : isPart c = false ∧ Text.isBlank c = false := by
  have hall : (marks.all fun c => !isPart c && !Text.isBlank c) = true := by decide +kernel
  simpa using List.all_eq_true.mp hall c h

theorem space_apart : isPart ' ' = false ∧ Text.isBlank ' ' = true := by decide +kernel

theorem tokens_nil : tokens [] = [] := rfl

/-- A character that belongs to no word ends the text before it. -/
theorem tokens_append_cons {c : Char} (h : isPart c = false) (cs ds : List Char) :
    tokens (cs ++ c :: ds) = tokens cs ++ tokens (c :: ds) := by
  unfold tokens
  rw [List.splitBy_append_cons ds (by simp [h]), List.filterMap_append]

theorem tokens_cons {c : Char} (h : isPart c = false) (ds : List Char) :
    tokens (c :: ds) = (Token.ofRun? [c]).toList ++ tokens ds := by
  have hsplit := List.splitBy_append (r := fun a b => isPart a && isPart b) (l := [c]) (m := ds)
    (by simp [h])
  unfold tokens
  rw [← List.singleton_append, hsplit, List.filterMap_append]
  rfl

theorem tokens_mark {c : Char} (h : c ∈ marks) (ds : List Char) :
    tokens (c :: ds) = .mark c :: tokens ds := by
  obtain ⟨hpart, hblank⟩ := mark_apart h
  simp [tokens_cons hpart, Token.ofRun?, hpart, hblank]

theorem tokens_space (ds : List Char) : tokens (' ' :: ds) = tokens ds := by
  simp [tokens_cons space_apart.1, Token.ofRun?, space_apart]

theorem tokens_append_mark {c : Char} (h : c ∈ marks) (cs ds : List Char) :
    tokens (cs ++ c :: ds) = tokens cs ++ .mark c :: tokens ds := by
  rw [tokens_append_cons (mark_apart h).1, tokens_mark h]

theorem tokens_append_space (cs ds : List Char) :
    tokens (cs ++ ' ' :: ds) = tokens cs ++ tokens ds := by
  rw [tokens_append_cons space_apart.1, tokens_space]

theorem tokens_identifier {w : String} (h : IsIdentifier w) : tokens w.toList = [.word w] := by
  obtain ⟨⟨c, hc, -⟩, hparts⟩ := h
  obtain ⟨cs, hcs⟩ := List.head?_eq_some_iff.mp hc
  have hw : w = String.ofList (c :: cs) := by rw [← hcs, String.ofList_toList]
  rw [hcs] at hparts ⊢
  have hchain : (c :: cs).IsChain fun a b => (isPart a && isPart b) = true :=
    (List.pairwise_of_forall_mem_list fun a ha b hb => by simp [hparts a ha, hparts b hb]).isChain
  rw [tokens, List.splitBy_of_isChain (List.cons_ne_nil c cs) hchain]
  simp [Token.ofRun?, hparts c, hw]

/-! ## Derivations -/

mutual

/-- The tokens are a type. -/
inductive Union : List Token → TsType → Prop where
  | operand {ts : List Token} {t : TsType} (operand : Operand ts t) : Union ts t
  | bar {ts us : List Token} {t u : TsType} (left : Union ts t) (right : Operand us u) :
    Union (ts ++ .mark '|' :: us) (.union t u)

/-- The tokens are a type that a suffix can follow. -/
inductive Operand : List Token → TsType → Prop where
  | name {w : String} (isIdentifier : IsIdentifier w) : Operand [.word w] (.name w)
  | parens {ts : List Token} {t : TsType} (inner : Union ts t) :
    Operand (.mark '(' :: ts ++ [.mark ')']) t
  | map {ks vs : List Token} {k v : TsType} (key : Union ks k) (value : Union vs v) :
    Operand ([.mark '\x7b', .mark '[', .word "key", .mark ':'] ++ ks ++
      [.mark ']', .mark ':'] ++ vs ++ [.mark '\x7d']) (.map k v)
  | array {ts : List Token} {t : TsType} (element : Operand ts t) :
    Operand (ts ++ [.mark '[', .mark ']']) (.array t)

end

/-- The text reads as the type. -/
def Reads (text : String) (t : TsType) : Prop := Union (tokens text.toList) t

/-! ## A text has at most one type -/

/-- A construct that has been opened. `left` is the union before it that goes on with it. -/
inductive Frame where
  | parens (left : Option TsType)
  | key (left : Option TsType)
  | value (left : Option TsType) (key : TsType)

/-- What has been read, and what may follow. -/
inductive Reader where
  /-- An operand has to begin. -/
  | operand (left : Option TsType) (stack : List Frame)
  /-- An operand has been read: a suffix may follow. -/
  | suffix (left : Option TsType) (t : TsType) (stack : List Frame)
  /-- These tokens have to follow. -/
  | awaits (wanted : List Token) (next : Reader)

namespace Reader

/-- A union with one more operand. -/
def join : Option TsType → TsType → TsType
  | none, t => t
  | some l, t => .union l t

/-- One token. -/
def step : Reader → Token → Option Reader
  | .operand left stack, .mark '(' => some (.operand none (.parens left :: stack))
  | .operand left stack, .mark '\x7b' =>
    some (.awaits [.mark '[', .word "key", .mark ':'] (.operand none (.key left :: stack)))
  | .operand left stack, .word w => some (.suffix left (.name w) stack)
  | .suffix left t stack, .mark '[' => some (.awaits [.mark ']'] (.suffix left (.array t) stack))
  | .suffix left t stack, .mark '|' => some (.operand (some (join left t)) stack)
  | .suffix left t (.parens outer :: stack), .mark ')' => some (.suffix outer (join left t) stack)
  | .suffix left t (.key outer :: stack), .mark ']' =>
    some (.awaits [.mark ':'] (.operand none (.value outer (join left t) :: stack)))
  | .suffix left t (.value outer k :: stack), .mark '\x7d' =>
    some (.suffix outer (.map k (join left t)) stack)
  | .awaits [a] next, tok => if a = tok then some next else none
  | .awaits (a :: b :: wanted) next, tok =>
    if a = tok then some (.awaits (b :: wanted) next) else none
  | _, _ => none

/-- Takes all tokens. -/
def run : Reader → List Token → Option Reader
  | r, [] => some r
  | r, tok :: ts => step r tok >>= (run · ts)

theorem run_nil (r : Reader) : run r [] = some r := rfl

theorem run_of_step {r r' : Reader} {tok : Token} (h : step r tok = some r') (ts : List Token) :
    run r (tok :: ts) = run r' ts := by
  rw [run, h]
  rfl

theorem run_awaits {wanted : List Token} (h : wanted ≠ []) (next : Reader) (ts : List Token) :
    run (.awaits wanted next) (wanted ++ ts) = run next ts := by
  induction wanted with
  | nil => exact absurd rfl h
  | cons a wanted ih =>
    cases wanted with
    | nil => exact run_of_step (by simp [step]) ts
    | cons b wanted =>
      have hstep : step (.awaits (a :: b :: wanted) next) a =
        some (.awaits (b :: wanted) next) := by simp [step]
      rw [List.cons_append, run_of_step hstep, ih (List.cons_ne_nil b wanted)]

end Reader

open Reader in
mutual

/-- The machine reads an operand, whatever stands before it. -/
theorem Operand.run {ts : List Token} {t : TsType} : Operand ts t → ∀ left stack rest,
    Reader.run (.operand left stack) (ts ++ rest) = Reader.run (.suffix left t stack) rest
  | .name _, left, stack, rest => run_of_step rfl rest
  | @Operand.parens ts t inner, left, stack, rest => by
    obtain ⟨l, u, hjoin, hrun⟩ := inner.run (.parens left :: stack) (.mark ')' :: rest)
    have hclose : step (.suffix l u (.parens left :: stack)) (.mark ')') =
        some (.suffix left (join l u) stack) := rfl
    rw [List.append_assoc, List.singleton_append, List.cons_append, run_of_step rfl, hrun,
      run_of_step hclose, hjoin]
  | @Operand.map ks vs k v key value, left, stack, rest => by
    have hopen : step (.operand left stack) (.mark '\x7b') = some (.awaits
      [.mark '[', .word "key", .mark ':'] (.operand none (.key left :: stack))) := rfl
    obtain ⟨l, u, hkey, hkeyrun⟩ := key.run (.key left :: stack)
      (.mark ']' :: .mark ':' :: (vs ++ .mark '\x7d' :: rest))
    have hbetween : step (.suffix l u (.key left :: stack)) (.mark ']') = some (.awaits
      [.mark ':'] (.operand none (.value left (join l u) :: stack))) := rfl
    obtain ⟨l', u', hvalue, hvaluerun⟩ := value.run (.value left k :: stack) (.mark '\x7d' :: rest)
    have hclose : step (.suffix l' u' (.value left k :: stack)) (.mark '\x7d') =
      some (.suffix left (.map k (join l' u')) stack) := rfl
    calc
      Reader.run (.operand left stack) ([.mark '\x7b', .mark '[', .word "key", .mark ':'] ++ ks ++
          [.mark ']', .mark ':'] ++ vs ++ [.mark '\x7d'] ++ rest)
      _ = Reader.run (.operand left stack) (.mark '\x7b' :: ([.mark '[', .word "key", .mark ':'] ++
          (ks ++ .mark ']' :: .mark ':' :: (vs ++ .mark '\x7d' :: rest)))) := by simp
      _ = Reader.run (.suffix l u (.key left :: stack))
          (.mark ']' :: .mark ':' :: (vs ++ .mark '\x7d' :: rest)) := by
        rw [run_of_step hopen, run_awaits (List.cons_ne_nil _ _), hkeyrun]
      _ = Reader.run (.operand none (.value left k :: stack)) (vs ++ .mark '\x7d' :: rest) := by
        rw [run_of_step hbetween, hkey]
        exact run_awaits (List.cons_ne_nil _ _) _ _
      _ = Reader.run (.suffix left (.map k v) stack) rest := by
        rw [hvaluerun, run_of_step hclose, hvalue]
  | @Operand.array ts t element, left, stack, rest => by
    have hopen : step (.suffix left t stack) (.mark '[') =
        some (.awaits [.mark ']'] (.suffix left (.array t) stack)) := by cases stack <;> rfl
    rw [List.append_assoc, element.run, List.cons_append, run_of_step hopen]
    exact run_awaits (List.cons_ne_nil _ _) _ _

/-- The machine reads a union up to its last operand. -/
theorem Union.run {ts : List Token} {t : TsType} : Union ts t → ∀ stack rest, ∃ left u,
    join left u = t ∧
      Reader.run (.operand none stack) (ts ++ rest) = Reader.run (.suffix left u stack) rest
  | .operand only, stack, rest => ⟨none, t, rfl, only.run none stack rest⟩
  | @Union.bar ts us t u left right, stack, rest => by
    obtain ⟨l, v, hjoin, hrun⟩ := left.run stack (.mark '|' :: (us ++ rest))
    have hbar : step (.suffix l v stack) (.mark '|') = some (.operand (some (join l v)) stack) := by
      cases stack <;> rfl
    refine ⟨some t, u, rfl, ?_⟩
    rw [List.append_assoc, List.cons_append, hrun, run_of_step hbar, hjoin, right.run]

end

/-- The grammar is unambiguous. -/
theorem Union.unique {ts : List Token} {t u : TsType} (ht : Union ts t) (hu : Union ts u) :
    t = u := by
  obtain ⟨l, a, rfl, hrun⟩ := ht.run [] []
  obtain ⟨m, b, rfl, hrun'⟩ := hu.run [] []
  rw [hrun, Reader.run_nil, Reader.run_nil] at hrun'
  cases hrun'
  rfl

end TsType

end TypeExport
