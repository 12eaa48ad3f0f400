import Mathlib.Logic.Unique
import TypeExport.Proofs.Data.Decoder

/-!
# The order of keys

A map may be written in any order. `Node.Reorders` puts the entries of one map of a tree in another order;
a map with a repeated key keeps its order.

* `Data.Orderless`: a decoder to which the order of keys makes no difference. Which error it reports may
  depend on the order.
* `Data.toOption_foldlM_of_perm`: steps that commute can be taken in any order.
* `Data.orderless_skip`, `Data.orderless_read`: looking at a tree is orderless.
* `Data.RecordForm.Orderless.decode`: so is decoding a record whose fields can be filled in any order.
-/

namespace TypeExport.Data

/-! ## Steps in another order -/

section

variable {ε α β γ : Type}

@[simp] theorem toOption_bind (x : Except ε α) (f : α → Except ε β) :
    (x >>= f).toOption = x.toOption.bind fun a => (f a).toOption := by
  cases x <;> rfl

@[simp] theorem toOption_map (x : Except ε α) (f : α → β) : (x.map f).toOption = x.toOption.map f := by
  cases x <;> rfl

@[simp] theorem toOption_ok (a : α) : (.ok a : Except ε α).toOption = some a := rfl

@[simp] theorem toOption_error (e : ε) : (.error e : Except ε α).toOption = none := rfl

theorem map_bind_ok (x : Except ε α) (f : α → β) (g : β → γ) :
    (x >>= fun a => .ok (f a)).map g = x >>= fun a => .ok (g (f a)) := by
  cases x <;> rfl

/-- Of two steps that do not depend on each other, either one can be the first. -/
theorem toOption_bind_comm (x : Except ε α) (y : Except ε β) (f : α → β → Except ε γ) :
    (x >>= fun a => y >>= fun b => f a b).toOption = (y >>= fun b => x >>= fun a => f a b).toOption := by
  simp only [toOption_bind]
  exact Option.bind_comm _ _

/-- Two steps may change places. -/
def StepsCommute (step : β → α → Except ε β) (x y : α) : Prop :=
  ∀ b, (step b x >>= (step · y)).toOption = (step b y >>= (step · x)).toOption

variable {step : β → α → Except ε β} {R : α → α → Prop} {x y : α}

theorem StepsCommute.symm (h : StepsCommute step x y) : StepsCommute step y x := fun b => (h b).symm

/-- A step that changes nothing, and only may fail, commutes with all others. -/
theorem stepsCommute_of_check {check : Except ε Unit} (h : ∀ b, step b x = check >>= fun _ => .ok b) (y : α) :
    StepsCommute step x y := by
  intro b
  cases check <;> cases hy : step b y <;> simp [h, hy]

theorem toOption_foldlM_of_perm (hR : ∀ {x y}, R x y → R y x) (hstep : ∀ x y, R x y → StepsCommute step x y)
    {l l' : List α} (hl : l.Pairwise R) (h : l.Perm l') (b : β) :
    (l.foldlM step b).toOption = (l'.foldlM step b).toOption := by
  induction h generalizing b with
  | nil => rfl
  | cons x h ih =>
    simp only [List.foldlM_cons, toOption_bind]
    exact congrArg _ (funext fun c => ih (List.pairwise_cons.mp hl).2 c)
  | swap x y l =>
    -- The two steps come first on both sides; the rest of the fold is the same.
    have hxy : R y x := (List.pairwise_cons.mp hl).1 x (by simp)
    simp only [List.foldlM_cons, ← bind_assoc]
    rw [toOption_bind (step b y >>= (step · x)), toOption_bind (step b x >>= (step · y)), hstep y x hxy b]
  | trans h h' ih ih' => rw [ih hl b, ih' ((h.pairwise_iff hR).mp hl) b]

/-- What takes part in a fold may be replaced by what does the same. -/
theorem toOption_foldlM_congr (h : ∀ b, (step b x).toOption = (step b y).toOption)
    (before after : List α) (b : β) :
    ((before ++ x :: after).foldlM step b).toOption = ((before ++ y :: after).foldlM step b).toOption := by
  simp only [List.foldlM_append, List.foldlM_cons, toOption_bind, h]

theorem toOption_mapM_congr {f : α → Except ε β} {x y : α} (h : (f x).toOption = (f y).toOption)
    (before after : List α) :
    ((before ++ x :: after).mapM f).toOption = ((before ++ y :: after).mapM f).toOption := by
  simp only [List.mapM_append, List.mapM_cons, toOption_bind, h]

end

/-! ## Reordered trees -/

/-- Two entries do not have the same key. A key that cannot be used has none like it. -/
def KeysDiffer (e e' : MapEntry) : Prop := ∀ k, e.1 = .ok k → e'.1 ≠ .ok k

theorem KeysDiffer.symm {e e' : MapEntry} (h : KeysDiffer e e') : KeysDiffer e' e :=
  fun k hk' hk => h k hk hk'

/-- The entries of one map in a tree change places, and their keys are all different. -/
inductive Node.Reorders : Node → Node → Prop
  | entries {es es' : List MapEntry} (hkeys : es.Pairwise KeysDiffer) (h : es.Perm es') :
    Reorders (.map es) (.map es')
  | value (before after : List MapEntry) {key : Except Json.Fault String} {n n' : Node} (h : Reorders n n') :
    Reorders (.map (before ++ (key, n) :: after)) (.map (before ++ (key, n') :: after))
  | item (before after : List Node) {n n' : Node} (h : Reorders n n') :
    Reorders (.seq (before ++ n :: after)) (.seq (before ++ n' :: after))
  | tooDeep {n n' : Node} (h : Reorders n n') : Reorders (.tooDeep n) (.tooDeep n')

section

variable {ε α β : Type}

/-- The order of keys makes no difference to what is decoded, and whether anything is. -/
def Orderless (f : Node → Except ε α) : Prop :=
  ∀ n n' : Node, n.Reorders n' → (f n).toOption = (f n').toOption

namespace Orderless

variable {f : Node → Except ε α}

/-- A decoder that refuses all containers is orderless. -/
theorem of_eq_none (hmap : ∀ es, (f (.map es)).toOption = none) (hseq : ∀ items, (f (.seq items)).toOption = none)
    (hdeep : ∀ n, (f (.tooDeep n)).toOption = none) : Orderless f := by
  intro n n' h
  cases h <;> simp only [hmap, hseq, hdeep]

theorem bind (h : Orderless f) (g : α → Except ε β) : Orderless fun n => f n >>= g := by
  intro n n' hn
  rw [toOption_bind, toOption_bind, h n n' hn]

theorem map (h : Orderless f) (g : α → β) : Orderless fun n => (f n).map g := by
  intro n n' hn
  rw [toOption_map, toOption_map, h n n' hn]

end Orderless

/-! ## Looking at trees -/

namespace Node

theorem skipItems_eq_ok_iff {ns : List Node} : skipItems ns = .ok () ↔ ∀ n ∈ ns, n.skip = .ok () := by
  induction ns with
  | nil => simp [skipItems]
  | cons n ns ih => simp [skipItems, Except.bind_eq_ok_iff, Unique.exists_iff, ih]

theorem skipEntries_eq_ok_iff {es : List MapEntry} :
    skipEntries es = .ok () ↔ ∀ e ∈ es, e.2.skip = .ok () := by
  induction es with
  | nil => simp [skipEntries]
  | cons e es ih => simp [skipEntries, Except.bind_eq_ok_iff, Unique.exists_iff, ih]

theorem readItems_eq_ok_iff {ns : List Node} : readItems ns = .ok () ↔ ∀ n ∈ ns, n.read = .ok () := by
  induction ns with
  | nil => simp [readItems]
  | cons n ns ih => simp [readItems, Except.bind_eq_ok_iff, Unique.exists_iff, ih]

theorem readEntries_eq_ok_iff {es : List MapEntry} :
    readEntries es = .ok () ↔ ∀ e ∈ es, (∃ k, e.1 = .ok k) ∧ e.2.read = .ok () := by
  induction es with
  | nil => simp [readEntries]
  | cons e es ih =>
    obtain ⟨f | k, n⟩ := e
    · simp [readEntries]
    · simp [readEntries, Except.bind_eq_ok_iff, Unique.exists_iff, ih]

/-- Whether a tree can be passed over does not depend on the order of keys. -/
theorem Reorders.skip_iff {n n' : Node} (h : n.Reorders n') : n.skip = .ok () ↔ n'.skip = .ok () := by
  induction h with
  | entries hkeys h => simp only [skip, skipEntries_eq_ok_iff, h.mem_iff]
  | value before after h ih =>
    simp only [skip, skipEntries_eq_ok_iff, List.forall_mem_append, List.forall_mem_cons, ih]
  | item before after h ih =>
    simp only [skip, skipItems_eq_ok_iff, List.forall_mem_append, List.forall_mem_cons, ih]
  | tooDeep h ih => simpa only [skip] using ih

theorem Reorders.read_iff {n n' : Node} (h : n.Reorders n') : n.read = .ok () ↔ n'.read = .ok () := by
  induction h with
  | entries hkeys h => simp only [read, readEntries_eq_ok_iff, h.mem_iff]
  | value before after h ih =>
    simp only [read, readEntries_eq_ok_iff, List.forall_mem_append, List.forall_mem_cons, ih]
  | item before after h ih =>
    simp only [read, readItems_eq_ok_iff, List.forall_mem_append, List.forall_mem_cons, ih]
  | tooDeep h ih => simp only [read, reduceCtorEq]

end Node

theorem toOption_liftFault_congr {x y : Except Json.Fault Unit} (h : x = .ok () ↔ y = .ok ()) :
    (liftFault x).toOption = (liftFault y).toOption := by
  cases x <;> cases y <;> simp_all [liftFault]

theorem orderless_skip : Orderless fun n => liftFault n.skip :=
  fun _ _ h => toOption_liftFault_congr h.skip_iff

theorem orderless_read : Orderless fun n => liftFault n.read :=
  fun _ _ h => toOption_liftFault_congr h.read_iff

/-! ## Simple values and sequences -/

theorem orderless_string : Orderless Node.string :=
  .of_eq_none (fun _ => rfl) (fun _ => rfl) fun _ => rfl

theorem orderless_flag : Orderless Node.flag :=
  .of_eq_none (fun _ => rfl) (fun _ => rfl) fun _ => rfl

theorem orderless_int64 : Orderless Node.int64 :=
  .of_eq_none (fun _ => rfl) (fun _ => rfl) fun _ => rfl

theorem orderless_typeExpr : Orderless Node.typeExpr := orderless_string.bind _

theorem toOption_once_congr {x y : Decoded α} (h : x.toOption = y.toOption) (slot : Option α) (name : String) :
    (once slot name x).toOption = (once slot name y).toOption := by
  cases slot with
  | some a => rfl
  | none => simp only [once, toOption_map, h]

namespace Orderless

variable {f : Node → Decoded α}

theorem optional (h : Orderless f) : Orderless (Node.optional f) := by
  intro n n' hn
  have heq := h.map some n n' hn
  cases hn <;> exact heq

theorem list (h : Orderless f) : Orderless (Node.list f) := by
  intro n n' hn
  cases hn with
  | entries hkeys hn => rfl
  | value before after hn => rfl
  | tooDeep hn => cases hn <;> rfl
  | item before after hn => exact toOption_mapM_congr (h _ _ hn) _ _

theorem once (h : Orderless f) (slot : Option α) (name : String) :
    Orderless fun n => Data.once slot name (f n) :=
  fun n n' hn => toOption_once_congr (h n n' hn) slot name

end Orderless

end

/-! ## Records -/

namespace RecordForm

variable {δ : Type}

/-- The fields of a record can be filled in any order. -/
structure Orderless (form : RecordForm δ) : Prop where
  put : ∀ field ∈ form.fields, ∀ d, Data.Orderless fun n => form.put d field.1 n
  comm : ∀ field ∈ form.fields, ∀ field' ∈ form.fields, field.1 ≠ field'.1 → ∀ d n n',
    (form.put d field.1 n >>= fun d => form.put d field'.1 n').toOption =
      (form.put d field'.1 n' >>= fun d => form.put d field.1 n).toOption

/-- An entry is no field, or fills one. -/
theorem exists_check_or_field (form : RecordForm δ) (e : MapEntry) :
    (∃ check : Decoded Unit, ∀ d, form.putEntry d e = check >>= fun _ => .ok d) ∨
      ∃ field ∈ form.fields, e.1 = .ok field.1 ∧ ∀ d, form.putEntry d e = form.put d field.1 e.2 := by
  obtain ⟨f | k, n⟩ := e
  · exact .inl ⟨.error (.fault f), fun _ => rfl⟩
  · simp only [putEntry]
    split
    · next hfield =>
      obtain ⟨field, hmem, hk⟩ := List.any_eq_true.mp hfield
      obtain rfl := eq_of_beq hk
      exact .inr ⟨field, hmem, rfl, fun _ => rfl⟩
    · exact .inl ⟨liftFault n.skip, fun _ => rfl⟩

/-- Whether elements after the last field are refused depends on nothing but that there are any. -/
theorem toOption_refuseSurplus (form : RecordForm δ) (surplus : Surplus) (n n' : Node)
    (before after : List Node) : (form.refuseSurplus surplus (before ++ n :: after)).toOption =
      (form.refuseSurplus surplus (before ++ n' :: after)).toOption := by
  have hrefused (m : Node) (rest : List Node) :
      (form.refuseSurplus surplus (m :: rest)).toOption = match surplus with
        | .ignore => some ()
        | _ => none := by
    cases surplus
    · simp only [refuseSurplus]
      split <;> rfl
    all_goals rfl
  cases before <;> simp only [List.nil_append, List.cons_append, hrefused]

namespace Orderless

variable {form : RecordForm δ}

theorem putEntry (h : form.Orderless) (d : δ) (key : Except Json.Fault String) :
    Data.Orderless fun n => form.putEntry d (key, n) := by
  cases key with
  | error f => exact fun _ _ _ => rfl
  | ok k =>
    simp only [RecordForm.putEntry]
    split
    · next hfield =>
      obtain ⟨field, hmem, hk⟩ := List.any_eq_true.mp hfield
      obtain rfl := eq_of_beq hk
      exact h.put field hmem d
    · exact orderless_skip.bind _

theorem stepsCommute (h : form.Orderless) {e e' : MapEntry} (hdiffer : KeysDiffer e e') :
    StepsCommute form.putEntry e e' := by
  obtain ⟨check, hcheck⟩ | ⟨field, hfield, hkey, hput⟩ := form.exists_check_or_field e
  · exact stepsCommute_of_check hcheck e'
  obtain ⟨check, hcheck⟩ | ⟨field', hfield', hkey', hput'⟩ := form.exists_check_or_field e'
  · exact (stepsCommute_of_check hcheck e).symm
  intro d
  simp only [hput, hput']
  exact h.comm field hfield field' hfield' (fun heq => hdiffer _ hkey (by rw [hkey', heq])) d e.2 e'.2

theorem toOption_ofEntries (h : form.Orderless) {es es' : List MapEntry}
    (hes : (Node.map es).Reorders (.map es')) : (form.ofEntries es).toOption = (form.ofEntries es').toOption := by
  unfold ofEntries
  cases hes with
  | entries hkeys hes =>
    exact toOption_foldlM_of_perm KeysDiffer.symm (fun _ _ => h.stepsCommute) hkeys hes _
  | value before after hn => exact toOption_foldlM_congr (fun d => h.putEntry d _ _ _ hn) _ _ _

theorem toOption_putItems (h : form.Orderless) (surplus : Surplus) {n n' : Node} (hn : n.Reorders n')
    {fields : List (String × Bool)} (hfields : ∀ field ∈ fields, field ∈ form.fields) (i : Nat)
    (before after : List Node) (d : δ) :
    (form.putItems surplus fields i (before ++ n :: after) d).toOption =
      (form.putItems surplus fields i (before ++ n' :: after) d).toOption := by
  induction fields generalizing i before d with
  | nil => simp only [putItems, toOption_bind, form.toOption_refuseSurplus surplus n n' before after]
  | cons field fields ih =>
    obtain ⟨name, needed⟩ := field
    cases before with
    | nil =>
      simp only [List.nil_append, putItems, toOption_bind]
      rw [h.put (name, needed) (hfields _ (by simp)) d n n' hn]
    | cons m before =>
      simp only [List.cons_append, putItems, toOption_bind]
      exact congrArg _ (funext fun d => ih (fun f hf => hfields f (.tail _ hf)) (i + 1) before d)

theorem decode (h : form.Orderless) (surplus : Surplus) : Data.Orderless (form.decode surplus) := by
  intro n n' hn
  cases hn with
  | entries hkeys hes => exact h.toOption_ofEntries (.entries hkeys hes)
  | value before after hn => exact h.toOption_ofEntries (.value before after hn)
  | item before after hn => exact h.toOption_putItems surplus hn (fun _ => id) 0 _ _ _
  | tooDeep hn => rfl

end Orderless

end RecordForm

end TypeExport.Data
