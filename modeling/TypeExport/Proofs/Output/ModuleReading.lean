import TypeExport.Proofs.Json.Scalars
import TypeExport.Proofs.Output.SelfImports
import TypeExport.Proofs.Output.TypeReading
import TypeExport.Proofs.Schema.FullNames

/-!
# Reading modules

The lines of a module can be read back. A reader goes through them line by line: every block begins with its
imports or its head and ends with a brace, a blank line after imports belongs to the block, and one after a brace
stands between two blocks.

* `Output.Block.of`: what a block says of its declaration.
* `Output.Reader.step`, `Output.Reader.read`: the reader.
* `Output.read_ownLines`: the reader gets through the block of a declaration.
* `Output.readModule_declarationLines`: all blocks of a module are read back, and where blank lines stand.
-/

namespace TypeExport.Output

open TsType (IsIdentifier isPart)

/-! ## Blocks -/

/-- The line that opens an interface. -/
def interfaceHead (name : String) : String := "export interface " ++ name ++ " \x7b"

/-- The line that opens an enumeration. -/
def enumerationHead (name : String) : String := "export enum " ++ name ++ " \x7b"

/-- What a block of a module says. -/
inductive Block where
  /-- The properties have their types as they are written. -/
  | interface (name : String) (imports : List String) (properties : List (String × String))
  | enumeration (name : String) (members : List (String × Int))
  deriving DecidableEq, Repr

namespace Block

/-- What the block of a declaration says. -/
def of (d : Declaration) : Block :=
  match d.shape with
  | .enumeration ms => .enumeration d.name (ms.map fun m => (m.name, m.value))
  | _ => .interface d.name (importNames d) (d.readable.map fun p => (p.tsName, typeText p.type))

def imports : Block → List String
  | .interface _ names _ => names
  | .enumeration .. => []

/-- The line that opens the block. -/
def head : Block → String
  | .interface name .. => interfaceHead name
  | .enumeration name _ => enumerationHead name

end Block

/-! ## Reading a line -/

/-- The text between a beginning and an end. -/
def between? (lead tail line : String) : Option String :=
  (Text.stripPrefix? lead line).bind (Text.stripSuffix? tail)

/-- The two texts before and after a mark, whose first character ends the first text. -/
def splitAt? (c : Char) (more line : String) : Option (String × String) :=
  (Text.stripPrefix? (String.ofList [c] ++ more) (String.ofList (line.toList.dropWhile (· != c)))).map
    fun right => (String.ofList (line.toList.takeWhile (· != c)), right)

/-- The integer that digits denote, perhaps after a sign. -/
def integerOf (s : String) : Int :=
  match s.toList with
  | '-' :: ds => -(Nat.ofDigitChars 10 ds 0 : Int)
  | ds => Nat.ofDigitChars 10 ds 0

def import? (line : String) : Option String :=
  ((between? "import \x7b" "\";" line).bind (splitAt? '\x7d' " from \"./")).map (·.1)

def property? (line : String) : Option (String × String) :=
  (between? "  " ";" line).bind (splitAt? ':' " ")

def member? (line : String) : Option (String × Int) :=
  ((between? "  " "," line).bind (splitAt? ' ' "= ")).map fun m => (m.1, integerOf m.2)

theorem between?_append (lead s tail : String) : between? lead tail (lead ++ s ++ tail) = some s := by
  simp [between?, String.append_assoc, Text.stripPrefix?_append, Text.stripSuffix?]

theorem between?_eq_none {lead line : String} (h : ∀ rest, line ≠ lead ++ rest) (tail : String) :
    between? lead tail line = none := by
  cases hstrip : Text.stripPrefix? lead line with
  | none => rw [between?, hstrip, Option.bind_none]
  | some rest => exact absurd (Text.eq_append_of_stripPrefix? hstrip) (h rest)

theorem splitAt?_append {c : Char} {left : String} (h : c ∉ left.toList) (more right : String) :
    splitAt? c more (left ++ (String.ofList [c] ++ more ++ right)) = some (left, right) := by
  have hleft : ∀ x ∈ left.toList, (x != c) = true := fun x hx => by
    rw [bne_iff_ne]
    rintro rfl
    exact h hx
  have htext : (left ++ (String.ofList [c] ++ more ++ right)).toList =
      left.toList ++ c :: (more.toList ++ right.toList) := by simp
  have hrest : String.ofList (c :: (more.toList ++ right.toList)) = String.ofList [c] ++ more ++ right := by
    rw [← String.toList_inj]
    simp
  rw [splitAt?, htext, List.dropWhile_append_of_pos hleft, List.takeWhile_append_of_pos hleft,
    List.dropWhile_cons_of_neg (by simp), List.takeWhile_cons_of_neg (by simp), hrest,
    Text.stripPrefix?_append, Option.map_some, List.append_nil, String.ofList_toList]

theorem integerOf_toString (i : Int) : integerOf (toString i) = i := by
  cases i with
  | ofNat n =>
    obtain ⟨d, ds, hd, hdigit⟩ := Json.toDigits_eq_cons n
    rw [integerOf, Json.toString_ofNat]
    split
    · next hsign =>
      rw [hd] at hsign
      cases hsign
      exact absurd hdigit (by decide)
    · rw [Nat.ofDigitChars_ten_toDigits]
      rfl
  | negSucc n =>
    rw [integerOf, Json.toString_negSucc]
    simp only [Nat.ofDigitChars_ten_toDigits]
    rfl

theorem import?_importLine {n : String} (h : '\x7d' ∉ n.toList) : import? (importLine n) = some n := by
  have hline : importLine n = "import \x7b" ++ (n ++ (String.ofList ['\x7d'] ++ " from \"./" ++ n)) ++ "\";" := by
    simp [importLine, linkLine, ← String.toList_inj]
  rw [hline, import?, between?_append, Option.bind_some, splitAt?_append h, Option.map_some]

theorem property?_propertyLine {p : Property} (h : ':' ∉ p.tsName.toList) :
    property? (propertyLine p) = some (p.tsName, typeText p.type) := by
  have hline : propertyLine p = "  " ++ (p.tsName ++ (String.ofList [':'] ++ " " ++ typeText p.type)) ++ ";" := by
    simp [propertyLine, ← String.toList_inj]
  rw [hline, property?, between?_append, Option.bind_some, splitAt?_append h]

theorem member?_memberLine {m : Member} (h : ' ' ∉ m.name.toList) :
    member? (memberLine m) = some (m.name, m.value) := by
  have hline : memberLine m = "  " ++ (m.name ++ (String.ofList [' '] ++ "= " ++ toString m.value)) ++ "," := by
    simp [memberLine, ← String.toList_inj]
  rw [hline, member?, between?_append, Option.bind_some, splitAt?_append h, Option.map_some, integerOf_toString]

/-! ## Reading lines -/

/-- Where a reader is in a module. -/
inductive Reader where
  /-- A block has to begin. -/
  | start
  | importing (names : List String)
  /-- The blank line after imports has been read. -/
  | imported (names : List String)
  | interface (name : String) (imports : List String) (properties : List (String × String))
  | enumeration (name : String) (members : List (String × Int))
  /-- A block has been closed. -/
  | closed

namespace Reader

/-- The reader after the head of a block. -/
def afterHead? (imports : List String) (line : String) : Option Reader :=
  match between? "export interface " " \x7b" line with
  | some name => some (.interface name imports [])
  | none => (between? "export enum " " \x7b" line).map (.enumeration · [])

/-- One line. A line that closes a block gives the block. -/
def step : Reader → String → Option (Reader × Option Block)
  | .start, line => match import? line with
    | some name => some (.importing [name], none)
    | none => (afterHead? [] line).map (·, none)
  | .importing names, line =>
    if line = "" then some (.imported names, none)
    else (import? line).map fun name => (.importing (names ++ [name]), none)
  | .imported names, line => (afterHead? names line).map (·, none)
  | .interface name imports properties, line =>
    if line = "\x7d" then some (.closed, some (.interface name imports properties))
    else (property? line).map fun p => (.interface name imports (properties ++ [p]), none)
  | .enumeration name members, line =>
    if line = "\x7d" then some (.closed, some (.enumeration name members))
    else (member? line).map fun m => (.enumeration name (members ++ [m]), none)
  | .closed, line => if line = "" then some (.start, none) else none

/-- All lines. The last block has to be closed. -/
def read : Reader → List String → Option (List Block)
  | .closed, [] => some []
  | _, [] => none
  | r, line :: lines => (r.step line).bind fun next => (read next.1 lines).map (next.2.toList ++ ·)

theorem read_cons {r next : Reader} {line : String} (h : r.step line = some (next, none))
    (lines : List String) : read r (line :: lines) = read next lines := by
  simp [read, h]

theorem read_close {r : Reader} {line : String} {b : Block} (h : r.step line = some (.closed, some b))
    (lines : List String) : read r (line :: lines) = (read .closed lines).map (b :: ·) := by
  simp [read, h]

/-- A blank line leads from one block to the next. -/
theorem read_blank (lines : List String) : read .closed ("" :: lines) = read .start lines :=
  read_cons rfl lines

end Reader

/-- The blocks of a module. -/
def readModule (lines : List String) : Option (List Block) := Reader.start.read lines

/-! ## Reading a block -/

namespace Reader

/-- Lines of one kind are read one after the other. -/
theorem read_map {α β : Type} (state : List β → Reader) {line : α → String} {shows : α → β} {as : List α}
    (h : ∀ shown, ∀ a ∈ as, (state shown).step (line a) = some (state (shown ++ [shows a]), none))
    (shown : List β) (lines : List String) :
    read (state shown) (as.map line ++ lines) = read (state (shown ++ as.map shows)) lines := by
  induction as generalizing shown with
  | nil => rw [List.map_nil, List.nil_append, List.map_nil, List.append_nil]
  | cons a as ih =>
    rw [List.map_cons, List.cons_append, read_cons (h shown a (by simp)),
      ih fun shown b hb => h shown b (by simp [hb]), List.map_cons, List.append_assoc, List.singleton_append]

end Reader

open Reader (read_cons read_close read_blank read_map)

theorem step_importLine {n : String} (h : '\x7d' ∉ n.toList) (names : List String) :
    Reader.step (.importing names) (importLine n) = some (.importing (names ++ [n]), none) := by
  have hne : importLine n ≠ "" := importLine_ne_of_head? (by simp)
  simp [Reader.step, hne, import?_importLine h]

theorem step_propertyLine {p : Property} (h : ':' ∉ p.tsName.toList) (name : String) (names : List String)
    (shown : List (String × String)) :
    Reader.step (.interface name names shown) (propertyLine p) =
      some (.interface name names (shown ++ [(p.tsName, typeText p.type)]), none) := by
  have hne : propertyLine p ≠ "\x7d" := by simp [propertyLine, ← String.toList_inj]
  simp [Reader.step, hne, property?_propertyLine h]

theorem step_memberLine {m : Member} (h : ' ' ∉ m.name.toList) (name : String) (shown : List (String × Int)) :
    Reader.step (.enumeration name shown) (memberLine m) =
      some (.enumeration name (shown ++ [(m.name, m.value)]), none) := by
  have hne : memberLine m ≠ "\x7d" := by simp [memberLine, ← String.toList_inj]
  simp [Reader.step, hne, member?_memberLine h]

theorem afterHead?_interface (name : String) (names : List String) :
    Reader.afterHead? names (interfaceHead name) = some (.interface name names []) := by
  unfold interfaceHead
  rw [Reader.afterHead?, between?_append]

theorem afterHead?_enumeration (name : String) :
    Reader.afterHead? [] (enumerationHead name) = some (.enumeration name []) := by
  unfold enumerationHead
  have hinterface : between? "export interface " " \x7b" ("export enum " ++ name ++ " \x7b") = none :=
    between?_eq_none (fun rest => by simp [← String.toList_inj]) _
  rw [Reader.afterHead?, hinterface, between?_append, Option.map_some]

theorem head?_head (b : Block) : b.head.toList.head? = some 'e' := by
  cases b with
  | interface name names shown =>
    unfold Block.head interfaceHead
    simp
  | enumeration name shown =>
    unfold Block.head enumerationHead
    simp

/-- A head is no import. -/
theorem import?_head (b : Block) : import? b.head = none := by
  have hhead : ∀ rest, b.head ≠ "import \x7b" ++ rest := by
    intro rest h
    have hfirst := head?_head b
    rw [h] at hfirst
    simp at hfirst
  rw [import?, between?_eq_none hhead, Option.bind_none, Option.map_none]

theorem step_interfaceHead (name : String) :
    Reader.step .start (interfaceHead name) = some (.interface name [] [], none) := by
  have himport : import? (interfaceHead name) = none := import?_head (.interface name [] [])
  simp [Reader.step, himport, afterHead?_interface]

theorem step_enumerationHead (name : String) :
    Reader.step .start (enumerationHead name) = some (.enumeration name [], none) := by
  have himport : import? (enumerationHead name) = none := import?_head (.enumeration name [])
  simp [Reader.step, himport, afterHead?_enumeration]

/-- The lines of an interface after its imports. -/
theorem read_body {ps : List Property} (h : ∀ p ∈ ps, ':' ∉ p.tsName.toList) (name : String)
    (names lines : List String) :
    Reader.read (.interface name names []) (ps.map propertyLine ++ "\x7d" :: lines) =
      (Reader.read .closed lines).map
        (Block.interface name names (ps.map fun p => (p.tsName, typeText p.type)) :: ·) := by
  rw [read_map (.interface name names) fun shown p hp => step_propertyLine (h p hp) name names shown,
    List.nil_append]
  exact read_close rfl lines

/-! ## Names without marks -/

/-- The names in the block of a declaration are identifiers: those of the properties that can be read, of all
that their types refer to, and of the members. -/
structure Legible (x : Declaration) : Prop where
  properties : ∀ p ∈ x.readable, IsIdentifier p.name
  types : ∀ p ∈ x.readable, ∀ n ∈ p.type.names, IsIdentifier (Text.simpleName n)
  members : ∀ m ∈ x.members, IsIdentifier m.name

instance (x : Declaration) : Decidable (Legible x) :=
  decidable_of_iff ((∀ p ∈ x.readable, IsIdentifier p.name) ∧
    (∀ p ∈ x.readable, ∀ n ∈ p.type.names, IsIdentifier (Text.simpleName n)) ∧
    ∀ m ∈ x.members, IsIdentifier m.name)
    ⟨fun h => ⟨h.1, h.2.1, h.2.2⟩, fun h => ⟨h.properties, h.types, h.members⟩⟩

theorem not_mem_of_isIdentifier {w : String} {c : Char} (h : IsIdentifier w) (hc : isPart c = false) :
    c ∉ w.toList := by
  intro hmem
  rw [h.2 c hmem] at hc
  cases hc

theorem eq_of_ofNat_eq_colon {n : Nat} (h : Char.ofNat n = ':') : n = 58 := by
  by_cases hn : n.isValidChar
  · rw [Char.ofNat, dif_pos hn] at h
    exact congrArg Char.toNat h
  · rw [Char.ofNat, dif_neg hn] at h
    exact absurd h (by decide)

theorem lowercaseSimple_ne_colon {c : Char} (h : c ≠ ':') : Text.lowercaseSimple c ≠ ':' := by
  unfold Text.lowercaseSimple
  split
  · next hascii =>
    have hall : ∀ n < 128, Char.ofNat n ≠ ':' → (Char.ofNat n).toLower ≠ ':' := by decide
    rw [← Char.ofNat_toNat c] at h ⊢
    exact hall c.toNat hascii h
  · split
    · next r hr =>
      -- All runs lie above the colon, before and after.
      have hruns : (Text.caseRuns.all fun r => decide (58 < (r.first : Int) + r.offset)) = true := by decide
      have hrun := of_decide_eq_true (List.all_eq_true.mp hruns r (List.mem_of_find?_eq_some hr))
      have hcovers := List.find?_some hr
      simp only [Text.CaseRun.covers, Bool.and_eq_true, decide_eq_true_eq] at hcovers
      intro heq
      have hcode := eq_of_ofNat_eq_colon heq
      omega
    · exact h

/-- Lower case does not make a colon. -/
theorem colon_not_mem_lowercase {c : Char} (h : c ≠ ':') : ':' ∉ Text.lowercase c := by
  unfold Text.lowercase
  split
  · decide
  · rw [List.mem_singleton]
    exact (lowercaseSimple_ne_colon h).symm

theorem colon_not_mem_tsName {p : Property} (h : IsIdentifier p.name) : ':' ∉ p.tsName.toList := by
  have hname : ':' ∉ p.name.toList := not_mem_of_isIdentifier h (TsType.mark_apart (by decide)).1
  rw [Property.tsName, Text.lowercaseInitial]
  split
  · simp
  · next c cs hcs =>
    rw [hcs, List.mem_cons, not_or] at hname
    rw [String.toList_ofList, List.mem_append, not_or]
    exact ⟨colon_not_mem_lowercase (Ne.symm hname.1), hname.2⟩

/-- The names of references are among the names of a type. -/
theorem exists_mem_names_of_shows {n : String} {t : TypeExpr} (h : Shows n t) :
    ∃ q ∈ t.names, Text.simpleName q = n := by
  induction h with
  | named name => exact ⟨_, by simp [TypeExpr.names], name⟩
  | array element ih => exact ih
  | generic known member argument ih =>
    obtain ⟨q, hq, hn⟩ := ih
    exact ⟨q, TypeExpr.mem_names_generic member hq, hn⟩

theorem Legible.brace_not_mem {x : Declaration} (h : Legible x) :
    ∀ n ∈ importNames x, '\x7d' ∉ n.toList := by
  intro n hn
  obtain ⟨-, p, hp, hshows⟩ := mem_importNames_iff.mp hn
  obtain ⟨q, hq, rfl⟩ := exists_mem_names_of_shows hshows
  exact not_mem_of_isIdentifier (h.types p hp q hq) (TsType.mark_apart (by decide)).1

/-! ## Reading a declaration -/

theorem of_of_not_enumeration {x : Declaration} (h : x.isEnumeration = false) :
    Block.of x = .interface x.name (importNames x) (x.readable.map fun p => (p.tsName, typeText p.type)) := by
  unfold Block.of
  cases hs : x.shape with
  | enumeration ms =>
    rw [Declaration.isEnumeration, hs] at h
    cases h
  | classType a ps | interfaceType ps => rfl

/-- The reader gets through the block of a declaration, and takes from it what it says. -/
theorem read_ownLines {x : Declaration} (h : Legible x) (lines : List String) :
    Reader.read .start (ownLines x ++ lines) = (Reader.read .closed lines).map (Block.of x :: ·) := by
  cases henum : x.isEnumeration with
  | true =>
    obtain ⟨name, ns, shape, nested, doc⟩ := x
    cases shape with
    | enumeration ms =>
      have hmembers : ∀ m ∈ ms, ' ' ∉ m.name.toList := fun m hm =>
        not_mem_of_isIdentifier (h.members m hm) TsType.space_apart.1
      have hlines : ownLines ⟨name, ns, .enumeration ms, nested, doc⟩ ++ lines =
          enumerationHead name :: (ms.map memberLine ++ "\x7d" :: lines) := by
        unfold enumerationHead
        simp [ownLines]
      rw [hlines, read_cons (step_enumerationHead name),
        read_map (.enumeration name) fun shown m hm => step_memberLine (hmembers m hm) name shown,
        List.nil_append]
      exact read_close rfl lines
    | classType | interfaceType => cases henum
  | false =>
    have hbody : ∀ p ∈ x.readable, ':' ∉ p.tsName.toList := fun p hp =>
      colon_not_mem_tsName (h.properties p hp)
    have hlines : ownLines x ++ lines =
        (importNames x).map importLine ++ ((if importNames x = [] then [] else [""]) ++
          interfaceHead x.name :: (x.readable.map propertyLine ++ "\x7d" :: lines)) := by
      unfold interfaceHead
      simp [ownLines_of_not_enumeration henum, importBlock_eq]
    have hnames := h.brace_not_mem
    rw [hlines, of_of_not_enumeration henum]
    cases hn : importNames x with
    | nil =>
      rw [List.map_nil, List.nil_append, if_pos rfl, List.nil_append, read_cons (step_interfaceHead x.name),
        read_body hbody]
    | cons n names =>
      rw [hn, List.forall_mem_cons] at hnames
      have hstart : Reader.step .start (importLine n) = some (.importing [n], none) := by
        simp [Reader.step, import?_importLine hnames.1]
      have hblank : Reader.step (.importing (n :: names)) "" = some (.imported (n :: names), none) := rfl
      have hhead : Reader.step (.imported (n :: names)) (interfaceHead x.name) =
          some (.interface x.name (n :: names) [], none) := by
        simp [Reader.step, afterHead?_interface]
      rw [List.map_cons, List.cons_append, read_cons hstart,
        read_map .importing fun shown m hm => step_importLine (hnames.2 m hm) shown, List.map_id',
        List.singleton_append, if_neg (List.cons_ne_nil n names), List.singleton_append, read_cons hblank,
        read_cons hhead, read_body hbody]

/-- Blocks are read one after the other. -/
theorem read_intercalate {x : Declaration} {xs : List Declaration} (h : ∀ y ∈ x :: xs, Legible y) :
    Reader.read .start ([""].intercalate ((x :: xs).map ownLines)) = some ((x :: xs).map Block.of) := by
  induction xs generalizing x with
  | nil =>
    have hread := read_ownLines (h x (by simp)) []
    rw [List.append_nil] at hread
    simpa [Reader.read] using hread
  | cons y ys ih =>
    obtain ⟨hx, hys⟩ := List.forall_mem_cons.mp h
    rw [List.map_cons, List.map_cons, List.intercalate_cons_cons, List.append_assoc, read_ownLines hx,
      List.singleton_append, read_blank, ← List.map_cons, ih hys]
    rfl

/-! ## Blank lines -/

/-- The lines of a block are those of its imports, with a blank line after them if there are any, and then its head
and others. No other line is blank. -/
structure Block.LaidOut (b : Block) (lines : List String) : Prop where
  parts : ∃ body, lines = b.imports.map importLine ++ (if b.imports = [] then [] else [""]) ++ b.head :: body ∧
    "" ∉ b.head :: body
  imports : "" ∉ b.imports.map importLine

theorem blank_not_mem_imports (names : List String) : "" ∉ names.map importLine := by
  intro h
  obtain ⟨n, -, hn⟩ := List.mem_map.mp h
  exact importLine_ne_of_head? (by simp) hn

theorem head_ne_blank (b : Block) : b.head ≠ "" := by
  intro h
  have hfirst := head?_head b
  rw [h] at hfirst
  cases hfirst

/-- No line in braces is blank, and neither is the closing brace. -/
theorem blank_not_mem_body {α : Type} {line : α → String} (h : ∀ a, line a ≠ "") (b : Block) (as : List α) :
    "" ∉ b.head :: (as.map line ++ ["\x7d"]) := by
  rw [List.mem_cons, List.mem_append, List.mem_map, List.mem_singleton]
  rintro (hhead | ⟨a, -, ha⟩ | hbrace)
  · exact head_ne_blank b hhead.symm
  · exact h a ha
  · exact absurd hbrace (by decide)

theorem laidOut_ownLines (x : Declaration) : (Block.of x).LaidOut (ownLines x) := by
  refine ⟨?_, blank_not_mem_imports _⟩
  cases henum : x.isEnumeration with
  | true =>
    obtain ⟨name, ns, shape, nested, doc⟩ := x
    cases shape with
    | enumeration ms =>
      have hmembers : ∀ m : Member, memberLine m ≠ "" := fun m => by simp [memberLine, ← String.toList_inj]
      exact ⟨ms.map memberLine ++ ["\x7d"], rfl, blank_not_mem_body hmembers _ ms⟩
    | classType | interfaceType => cases henum
  | false =>
    have hproperties : ∀ p : Property, propertyLine p ≠ "" := fun p => by
      simp [propertyLine, ← String.toList_inj]
    rw [of_of_not_enumeration henum, ownLines_of_not_enumeration henum, importBlock_eq]
    refine ⟨x.readable.map propertyLine ++ ["\x7d"], ?_, blank_not_mem_body hproperties _ x.readable⟩
    simp only [List.append_assoc, List.singleton_append]
    rfl

/-- A block neither begins nor ends with a blank line. -/
theorem Block.LaidOut.ends {b : Block} {lines : List String} (h : b.LaidOut lines) :
    lines ≠ [] ∧ lines.head? ≠ some "" ∧ lines.getLast? ≠ some "" := by
  obtain ⟨body, rfl, hbody⟩ := h.parts
  refine ⟨by simp, ?_, ?_⟩
  · cases himports : b.imports with
    | nil => simpa using (head_ne_blank b)
    | cons n names => simpa using importLine_ne_of_head? (by simp)
  · rw [List.getLast?_append_of_ne_nil _ (List.cons_ne_nil _ _)]
    exact fun hlast => hbody (List.mem_of_getLast? hlast)

/-- Parts that do not begin or end with an element do not either when they are joined. -/
theorem ends_intercalate {α : Type} {sep : List α} {a : α} {part : List α} {parts : List (List α)}
    (h : ∀ l ∈ part :: parts, l ≠ [] ∧ l.head? ≠ some a ∧ l.getLast? ≠ some a) :
    sep.intercalate (part :: parts) ≠ [] ∧ (sep.intercalate (part :: parts)).head? ≠ some a ∧
      (sep.intercalate (part :: parts)).getLast? ≠ some a := by
  induction parts generalizing part with
  | nil => simpa using h
  | cons next parts ih =>
    obtain ⟨⟨hne, hhead, -⟩, hrest⟩ := List.forall_mem_cons.mp h
    obtain ⟨hne', -, hlast⟩ := ih hrest
    rw [List.intercalate_cons_cons, List.append_assoc, List.head?_append_of_ne_nil _ hne,
      List.getLast?_append_of_ne_nil _ (List.append_ne_nil_of_right_ne_nil _ hne'),
      List.getLast?_append_of_ne_nil _ hne']
    exact ⟨List.append_ne_nil_of_left_ne_nil hne _, hhead, hlast⟩

/-- **Modules are read back.** Say that the names in a module are identifiers; those of the declarations may be
any. Then the lines of the module give back the declaration and all that is nested in it, each once and depth
first: its name, the imports and the properties that can be read, with their types as they are written, or the
members with their values. One blank line stands between two blocks, and one after the imports of an interface if
there are any; all other lines are not blank, and so the module neither begins nor ends with a blank line. -/
theorem readModule_declarationLines {d : Declaration} (h : ∀ x ∈ d.flatten, Legible x) :
    readModule (declarationLines d) = some (d.flatten.map Block.of) ∧
    (∃ blocks, declarationLines d = [""].intercalate blocks ∧
      List.Forall₂ Block.LaidOut (d.flatten.map Block.of) blocks) ∧
    (declarationLines d).head? ≠ some "" ∧ (declarationLines d).getLast? ≠ some "" := by
  have hends : ∀ lines ∈ d.flatten.map ownLines,
      lines ≠ [] ∧ lines.head? ≠ some "" ∧ lines.getLast? ≠ some "" :=
    List.forall_mem_map.mpr fun x _ => (laidOut_ownLines x).ends
  have hblocks : List.Forall₂ Block.LaidOut (d.flatten.map Block.of) (d.flatten.map ownLines) := by
    rw [List.forall₂_map_left_iff, List.forall₂_map_right_iff, List.forall₂_same]
    exact fun x _ => laidOut_ownLines x
  obtain ⟨xs, hxs⟩ : ∃ xs, d.flatten = d :: xs := by
    obtain ⟨name, ns, shape, nested, doc⟩ := d
    exact ⟨_, rfl⟩
  refine ⟨?_, ⟨_, rfl, hblocks⟩, ?_⟩
  · rw [declarationLines, readModule, hxs]
    rw [hxs] at h
    exact read_intercalate h
  · rw [declarationLines, hxs]
    rw [hxs] at hends
    exact (ends_intercalate hends).2

/-- An order with an enumeration and with lines nested in it. -/
def orderWithStatus : Declaration where
  name := "Order"
  ns := "Shop"
  shape := .classType false [
    ⟨"Rows", .generic .dictionary [.primitive .string, .array (.named "Shop.Line")], .exposed, none⟩,
    ⟨"Secret", .named "Secret", .hidden, none⟩,
    ⟨"Status", .generic .nullable [.named "Status"], .exposed, none⟩]
  nested := [
    { name := "Status", ns := "Shop", shape := .enumeration [⟨"Open", 0⟩, ⟨"Lost", -1⟩] },
    { name := "Empty", ns := "Shop", shape := .interfaceType [] }]

theorem readModule_declarationLines_orderWithStatus :
    (∀ x ∈ orderWithStatus.flatten, Legible x) ∧
    readModule (declarationLines orderWithStatus) = some [
      .interface "Order" ["Line", "Status"]
        [("rows", "\x7b [key: string]: Line[] \x7d"), ("status", "Status|null")],
      .enumeration "Status" [("Open", 0), ("Lost", -1)],
      .interface "Empty" [] []] ∧
    (declarationLines orderWithStatus).head? ≠ some "" := by
  have h : ∀ x ∈ orderWithStatus.flatten, Legible x := by decide +kernel
  obtain ⟨hread, -, hhead, -⟩ := readModule_declarationLines h
  exact ⟨h, hread.trans (by decide), hhead⟩

end TypeExport.Output
