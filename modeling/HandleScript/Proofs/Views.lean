import HandleScript.Operation.Plan
import HandleScript.Proofs.Ensures

/-!
# What operations read

An operation reads of a value its kind, its payload, its text and how many elements it
has, and never a handle. So two values of which all this is the same, each in a store of
its own, are the same to every operation: what it reads of them comes out equal, or it
fails on both for the same cause. A value that is compared with itself gives what holds of
a single reading.
-/

namespace HandleScript

/-- A cause that is no loop exit. -/
def Cause.Plain (cause : Cause) : Prop :=
  cause.sort ≠ .controlFlow

/-- The sorts of causes that are names which nothing has. -/
def FailureSort.ofNames : List FailureSort :=
  [undefinedVariable, undefinedFunction, unknownMethod]

/-- A cause for which an operation may fail: no loop exit and, if the receiver fits the
operation, no unknown name. -/
def Cause.OfOperation (fits : Prop) (cause : Cause) : Prop :=
  cause.Plain ∧ (fits → cause.sort ∉ FailureSort.ofNames)

theorem Cause.ofOperation_of_sort {fits : Prop} {cause : Cause}
    (h : (FailureSort.controlFlow :: FailureSort.ofNames).contains cause.sort = false) :
    cause.OfOperation fits := by
  rw [← Bool.not_eq_true, List.contains_iff_mem, List.mem_cons, not_or] at h
  exact ⟨h.1, fun _ => h.2⟩

theorem unknownMethod_ofOperation {fits : Prop} (h : ¬fits) (kind : Kind)
    (method : String) : (unknownMethod kind method).OfOperation fits := by
  refine ⟨?_, fun hfits => absurd hfits h⟩
  simp [unknownMethod, Cause.Plain, Cause.sort]

/-! ## Two results -/

/-- Values that are related, or one and the same cause, which is of the given sort. -/
inductive Concurs {α β : Type} (R : α → β → Prop) (C : Cause → Prop) :
    Except Cause α → Except Cause β → Prop
  | ok {x : α} {y : β} (h : R x y) : Concurs R C (.ok x) (.ok y)
  | error {cause : Cause} (h : C cause) : Concurs R C (.error cause) (.error cause)

namespace Concurs

variable {α β γ δ : Type} {Q : α → β → Prop} {R : γ → δ → Prop} {C : Cause → Prop}

theorem bind
    {x : Except Cause α} {y : Except Cause β} {f : α → Except Cause γ}
    {g : β → Except Cause δ} (h : Concurs Q C x y)
    (hnext : ∀ a b, Q a b → Concurs R C (f a) (g b)) :
    Concurs R C (x >>= f) (y >>= g) := by
  cases h with
  | ok hab => exact hnext _ _ hab
  | error hcause => exact .error hcause

theorem mono
    {Q' : α → β → Prop} {C' : Cause → Prop} {x : Except Cause α} {y : Except Cause β}
    (h : Concurs Q C x y) (hvalues : ∀ a b, Q a b → Q' a b)
    (hcauses : ∀ cause, C cause → C' cause) : Concurs Q' C' x y := by
  cases h with
  | ok hab => exact .ok (hvalues _ _ hab)
  | error hcause => exact .error (hcauses _ hcause)

theorem map
    {x : Except Cause α} {y : Except Cause β} {f : α → γ} {g : β → δ}
    (h : Concurs Q C x y) (hnext : ∀ a b, Q a b → R (f a) (g b)) :
    Concurs R C (x.map f) (y.map g) := by
  cases h with
  | ok hab => exact .ok (hnext _ _ hab)
  | error hcause => exact .error hcause

/-- What two results have in common that are one and the same. -/
theorem yields {R : α → α → Prop} {x : Except Cause α} (h : Concurs R C x x) :
    Yields (fun a => R a a) C x := by
  cases x with
  | ok a =>
      cases h with
      | ok h => exact h
  | error cause =>
      cases h with
      | error h => exact h

theorem of_yields
    {x : Except Cause α} {P : α → Prop} (h : Yields P C x) :
    Concurs (fun a b => a = b ∧ P a) C x x := by
  cases x with
  | ok a => exact .ok ⟨rfl, h⟩
  | error cause => exact .error h

end Concurs

/-! ## Two values -/

/-- Two values of which operations read the same, each in its store. -/
inductive LooksLike (store store' : Store) : Value → Value → Prop
  | int {a b : Nat} (h : store.integers.get a = store'.integers.get b) :
      LooksLike store store' (.int a) (.int b)
  | long {a b : Nat} (h : store.integers.get a = store'.integers.get b) :
      LooksLike store store' (.long a) (.long b)
  | double {a b : Nat} (h : store.doubles.get a = store'.doubles.get b) :
      LooksLike store store' (.double a) (.double b)
  | bool {a b : Nat} (h : store.bools.get a = store'.bools.get b) :
      LooksLike store store' (.bool a) (.bool b)
  | text {a b : Nat} (h : store.texts.get a = store'.texts.get b) :
      LooksLike store store' (.text a) (.text b)
  | list {a b : Nat} (size : (store.elements a).size = (store'.elements b).size)
      (shown : store.render (.list a) = store'.render (.list b)) :
      LooksLike store store' (.list a) (.list b)
  | array {a b : Nat} (size : (store.elements a).size = (store'.elements b).size)
      (shown : store.render (.array a) = store'.render (.array b)) :
      LooksLike store store' (.array a) (.array b)
  | iterator {a b : Nat} (next : (store.cursors.get a).next = (store'.cursors.get b).next)
      (size : (store.elements (store.cursors.get a).items).size =
        (store'.elements (store'.cursors.get b).items).size) :
      LooksLike store store' (.iterator a) (.iterator b)
  | file (path : String) : LooksLike store store' (.file path) (.file path)
  | lambda {a b : Nat} (shown : store.render (.lambda a) = store'.render (.lambda b)) :
      LooksLike store store' (.lambda a) (.lambda b)
  | void : LooksLike store store' .void .void
  | dispatcher : LooksLike store store' .dispatcher .dispatcher
  | factory : LooksLike store store' .factory .factory

namespace LooksLike

variable {store store' : Store} {v w x y : Value} {fits : Prop}

theorem refl (store : Store) (v : Value) : LooksLike store store v v := by
  cases v with
  | int | long | double | bool | text => constructor; rfl
  | list cell => exact .list rfl rfl
  | array cell => exact .array rfl rfl
  | iterator cell => exact .iterator rfl rfl
  | file path => exact .file path
  | lambda cell => exact .lambda rfl
  | void | dispatcher | factory => constructor

theorem kind_eq (h : LooksLike store store' v w) : v.kind = w.kind := by
  cases h <;> rfl

theorem number?_eq (h : LooksLike store store' v w) :
    store.number? v = store'.number? w := by
  cases h with
  | int h | long h | double h => simp only [Store.number?, h]
  | _ => rfl

theorem int?_eq (h : LooksLike store store' v w) : store.int? v = store'.int? w := by
  cases h with
  | int h => simp only [Store.int?, h]
  | _ => rfl

theorem bool?_eq (h : LooksLike store store' v w) : store.bool? v = store'.bool? w := by
  cases h with
  | bool h => simp only [Store.bool?, h]
  | _ => rfl

theorem text?_eq (h : LooksLike store store' v w) : store.text? v = store'.text? w := by
  cases h with
  | text h => simp only [Store.text?, h]
  | _ => rfl

theorem render_eq (h : LooksLike store store' v w) :
    store.render v = store'.render w := by
  cases h with
  | list _ shown => exact shown
  | array _ shown => exact shown
  | lambda shown => exact shown
  | int h | long h | double h | bool h | text h =>
      simp only [Store.render, Store.renderFrom, Store.container?, Store.renderSimple, h]
  | iterator | file | void | dispatcher | factory => rfl

/-! ## Reading receivers and operands -/

theorem numberPair
    (hv : LooksLike store store' v w) (hx : LooksLike store store' x y)
    (method : String) :
    Concurs Eq (Cause.OfOperation fits) (NumberPair.of store method v x)
      (NumberPair.of store' method w y) := by
  rw [NumberPair.of, NumberPair.of, hv.number?_eq, hx.number?_eq, hv.kind_eq, hx.kind_eq]
  split
  · exact .ok rfl
  · exact .ok rfl
  · exact .ok rfl
  · exact .error (Cause.ofOperation_of_sort rfl)

theorem receiverNumber
    (h : LooksLike store store' v w) (hkind : fits → v.kind ∈ [Kind.int, .long, .double])
    (method : String) :
    Concurs Eq (Cause.OfOperation fits) (receiverNumber store v method)
      (receiverNumber store' w method) := by
  cases h with
  | int h | long h | double h =>
      simp only [HandleScript.receiverNumber, Store.number?, h]
      exact .ok rfl
  | _ =>
      exact .error (unknownMethod_ofOperation
        (fun hfits => by simpa [Value.kind] using hkind hfits) _ _)

theorem receiverBool
    (h : LooksLike store store' v w) (hkind : fits → v.kind = .bool) (method : String) :
    Concurs Eq (Cause.OfOperation fits) (receiverBool store v method)
      (receiverBool store' w method) := by
  cases h with
  | bool h =>
      simp only [HandleScript.receiverBool, Store.bool?, h]
      exact .ok rfl
  | _ => exact .error (unknownMethod_ofOperation (fun hfits => nomatch hkind hfits) _ _)

theorem receiverText
    (h : LooksLike store store' v w) (hkind : fits → v.kind = .text) (method : String) :
    Concurs Eq (Cause.OfOperation fits) (receiverText store v method)
      (receiverText store' w method) := by
  cases h with
  | text h =>
      simp only [HandleScript.receiverText, Store.text?, h]
      exact .ok rfl
  | _ => exact .error (unknownMethod_ofOperation (fun hfits => nomatch hkind hfits) _ _)

/-- The cells of two containers of the same size. -/
theorem receiverContainer
    (h : LooksLike store store' v w) (hkind : fits → v.kind ∈ [Kind.list, .array])
    (method : String) :
    Concurs
      (fun a b => Store.container? v = some a ∧ Store.container? w = some b ∧
        (store.elements a).size = (store'.elements b).size)
      (Cause.OfOperation fits) (receiverContainer v method)
        (receiverContainer w method) := by
  cases h with
  | list size => exact .ok ⟨rfl, rfl, size⟩
  | array size => exact .ok ⟨rfl, rfl, size⟩
  | _ =>
      exact .error (unknownMethod_ofOperation
        (fun hfits => by simpa [Value.kind] using hkind hfits) _ _)

/-- The cells of two iterators that have come to the same place, with as much before
them. -/
theorem receiverIterator
    (h : LooksLike store store' v w) (hkind : fits → v.kind = .iterator)
    (method : String) :
    Concurs
      (fun a b => v = .iterator a ∧ w = .iterator b ∧
        (store.cursors.get a).next = (store'.cursors.get b).next ∧
        (store.elements (store.cursors.get a).items).size =
          (store'.elements (store'.cursors.get b).items).size)
      (Cause.OfOperation fits) (receiverIterator v method)
        (receiverIterator w method) := by
  cases h with
  | iterator next size => exact .ok ⟨rfl, rfl, next, size⟩
  | _ => exact .error (unknownMethod_ofOperation (fun hfits => nomatch hkind hfits) _ _)

theorem receiverPath
    (h : LooksLike store store' v w) (hkind : fits → v.kind = .file) (method : String) :
    Concurs Eq (Cause.OfOperation fits) (receiverPath v method)
      (receiverPath w method) := by
  cases h with
  | file path => exact .ok rfl
  | _ => exact .error (unknownMethod_ofOperation (fun hfits => nomatch hkind hfits) _ _)

theorem indexOf (h : LooksLike store store' v w) (length : Nat) :
    Concurs (fun i j => i = j ∧ i < length) (Cause.OfOperation fits)
        (indexOf store v length)
      (indexOf store' w length) := by
  rw [HandleScript.indexOf, HandleScript.indexOf, h.int?_eq, h.kind_eq]
  refine .of_yields ?_
  split
  · exact Cause.ofOperation_of_sort rfl
  · split
    next n _ hbounds =>
      change n.toInt.toNat < length
      omega
    · exact Cause.ofOperation_of_sort rfl

theorem textOf (h : LooksLike store store' v w) :
    Concurs (fun a b => a = b ∧ store.text? v = some a) (Cause.OfOperation fits)
      (textOf store v) (textOf store' w) := by
  rw [HandleScript.textOf, HandleScript.textOf, ← h.text?_eq, ← h.kind_eq]
  refine .of_yields ?_
  split
  next htext => exact htext
  · exact Cause.ofOperation_of_sort rfl

theorem convertee_eq (h : LooksLike store store' v w) :
    convertee store v = convertee store' w := by
  rw [convertee, convertee, h.text?_eq, h.kind_eq]

theorem toWord (h : LooksLike store store' v w) (target : Kind) :
    Concurs Eq (Cause.OfOperation fits) (toWord store v target)
      (toWord store' w target) := by
  have heq : HandleScript.toWord store v target =
      HandleScript.toWord store' w target := by
    have hconvertee := h.convertee_eq
    cases h with
    | int h | long h | double h | text h => simp only [HandleScript.toWord, h, hconvertee]
    | _ => simp only [HandleScript.toWord, hconvertee]
  rw [← heq]
  unfold HandleScript.toWord
  dsimp only
  split
  · exact .ok rfl
  · exact .error (Cause.ofOperation_of_sort rfl)

theorem toDouble (h : LooksLike store store' v w) :
    Concurs Eq (Cause.OfOperation fits) (toDouble store v) (toDouble store' w) := by
  have heq : HandleScript.toDouble store v = HandleScript.toDouble store' w := by
    have hconvertee := h.convertee_eq
    cases h with
    | int h | long h | double h | text h =>
        simp only [HandleScript.toDouble, h, hconvertee]
    | _ => simp only [HandleScript.toDouble, hconvertee]
  rw [← heq]
  unfold HandleScript.toDouble
  dsimp only
  split
  · exact .ok rfl
  · exact .error (Cause.ofOperation_of_sort rfl)

theorem toText (h : LooksLike store store' v w) :
    Concurs Eq (Cause.OfOperation fits) (toText store v) (toText store' w) := by
  have hrender := h.render_eq
  cases h with
  | int | long | double | text =>
      simp only [HandleScript.toText, hrender]
      exact .ok rfl
  | _ => exact .error (Cause.ofOperation_of_sort rfl)

theorem slotsOf (h : LooksLike store store' v w) :
    Concurs (fun m n => m = n ∧ slotsOf store v = .ok m ∧ slotsOf store' w = .ok n)
      (Cause.OfOperation fits) (slotsOf store v) (slotsOf store' w) := by
  have heq : HandleScript.slotsOf store v = HandleScript.slotsOf store' w := by
    rw [HandleScript.slotsOf, HandleScript.slotsOf, h.int?_eq, h.kind_eq]
  rw [← heq]
  cases hslots : HandleScript.slotsOf store v with
  | ok n => exact .ok ⟨rfl, rfl, rfl⟩
  | error cause =>
      refine .error (Cause.ofOperation_of_sort ?_)
      unfold HandleScript.slotsOf at hslots
      split at hslots
      · cases hslots
        rfl
      · split at hslots
        · cases hslots
          rfl
        · cases hslots

end LooksLike

theorem indexOf_lt {store : Store} {v : Value} {length index : Nat}
    (h : indexOf store v length = .ok index) : index < length := by
  have hyields : Yields _ (Cause.OfOperation True) _ :=
    ((LooksLike.refl store v).indexOf length).yields
  rw [h] at hyields
  exact hyields.2

/-! ## Results without a store -/

theorem Arithmetic.onWords_concurs (op : Arithmetic) (a b : Int64) (fits : Prop) :
    Concurs Eq (Cause.OfOperation fits) (op.onWords a b) (op.onWords a b) := by
  have hdivision (q : Int64) : Concurs Eq (Cause.OfOperation fits)
      (if b = 0 then .error .divisionByZero else .ok q)
      (if b = 0 then .error .divisionByZero else .ok q) := by
    split
    · exact .error (Cause.ofOperation_of_sort rfl)
    · exact .ok rfl
  cases op with
  | plus | minus | multiply => exact .ok rfl
  | divide => exact hdivision (a / b)
  | mod => exact hdivision (a % b)

theorem NumberPair.compute_concurs (pair : NumberPair) (op : Arithmetic) (fits : Prop) :
    Concurs Eq (Cause.OfOperation fits) (pair.compute op) (pair.compute op) := by
  cases pair with
  | int a b => exact (op.onWords_concurs a b fits).map fun _ _ h => congrArg _ h
  | long a b => exact (op.onWords_concurs a b fits).map fun _ _ h => congrArg _ h
  | double a b => exact .ok rfl

theorem readFileText_concurs (files : Files) (path : String) (fits : Prop) :
    Concurs Eq (Cause.OfOperation fits) (readFileText files path)
      (readFileText files path) := by
  unfold readFileText
  cases files.read path with
  | ok text => exact .ok rfl
  | error why => exact .error (Cause.ofOperation_of_sort rfl)

end HandleScript
