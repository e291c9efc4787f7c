import HandleScript.Proofs.Views
import Mathlib.Data.List.Forall2

/-!
# What operations can do

An operation decides on one effect or fails. This module says once which effects can arise
from which operations: every operation is taken apart a single time, on two calls of which
it reads the same. It decides on effects that differ in nothing but the handles, or fails
for the same cause, which is no loop exit, and no unknown name on a receiver that the
operation is meant for. Everything that holds of all operations is derived from that, for
one call as for two.
-/

namespace HandleScript

/-- The operation is meant for receivers of the kind. -/
def EagerOp.serves : EagerOp → Kind → Bool
  | common _, _ => true
  | number _, kind => kind ∈ [Kind.int, .long, .double]
  | bool _, kind => kind = .bool
  | text _, kind => kind = .text
  | sequence _, kind => kind ∈ [Kind.list, .array]
  | growth _, kind => kind ∈ [Kind.list, .array]
  | iterator _, kind => kind = .iterator
  | file _, kind => kind = .file
  | factory _, _ => true

/-- How an operation treats its receiver. -/
inductive Treatment where
  /-- It makes a new value. -/
  | makes
  /-- It gives a file, which is no more than its path. -/
  | opens
  /-- It gives an element of the receiver. -/
  | reads
  /-- It changes the receiver and gives it back. -/
  | changes
  /-- It changes the receiver and gives an element of it. -/
  | takes
deriving DecidableEq, Repr

/-- How each operation treats its receiver. -/
def EagerOp.treatment : EagerOp → Treatment
  | .number .set => .changes
  | .number .increment => .changes
  | .number .decrement => .changes
  | .number (.assign _) => .changes
  | .bool .set => .changes
  | .text .plusAssign => .changes
  | .text .set => .changes
  | .sequence .set => .changes
  | .growth .add => .changes
  | .growth .remove => .takes
  | .iterator .moveNext => .takes
  | .sequence .get => .reads
  | .factory .file => .opens
  | _ => .makes

/-- How an operation treats its receiver; what a function literal does is left open. -/
def Operation.treatment : Operation → Treatment
  | .eager op => op.treatment
  | .connective _ => .makes
  | .invoke => .makes

/-- A number, a truth value or a text. -/
def Content.IsScalar : Content → Prop
  | .number _ => True
  | .bool _ => True
  | .text _ => True
  | _ => False

/-- What an operation decides on, without the handles that come into it: those of the
receiver, of its elements and of the arguments. -/
inductive Sketch where
  | scalar (content : Content)
  | texts (parts : List String)
  | list
  | array (slots : Nat)
  | file (path : String)
  | self
  | copy
  | element (index : Nat)
  | iterator
  | write (content : Content)
  | setItem (index : Nat)
  | addItem
  | removeItem (index : Nat)
  | advance

/-- The effects that can arise from an operation on evaluated arguments, with their
sketches. -/
inductive Arises (store : Store) (receiver : Value) (args : List Value) :
    Operation → Sketch → Effect → Prop
  /-- A new number, truth value or text. -/
  | scalar {op : Operation} {content : Content} (h : content.IsScalar)
      (makes : op.treatment = .makes) :
      Arises store receiver args op (.scalar content) (.fresh content)
  /-- A new list of new texts. -/
  | texts {op : Operation} (parts : List String) (makes : op.treatment = .makes) :
      Arises store receiver args op (.texts parts) (.freshTexts parts)
  /-- A new list of the arguments. -/
  | list : Arises store receiver args (.eager (.factory .list)) .list
      (.fresh (.list args.toArray))
  /-- A new array of empty slots. -/
  | array {size : Value} {slots : Nat} (hargs : args = [size])
      (hslots : slotsOf store size = .ok slots) :
      Arises store receiver args (.eager (.factory .array))
        (.array slots) (.freshArray slots)
  | file {operand : Value} {path : String} (hargs : args = [operand])
      (htext : store.text? operand = some path) :
      Arises store receiver args (.eager (.factory .file))
        (.file path) (.give (.file path))
  /-- A value without a payload to copy. -/
  | self (h : store.copyContent? receiver = none) :
      Arises store receiver args (.eager (.common .copy)) .self (.give receiver)
  | copyList {cell : Nat} (h : receiver = .list cell) :
      Arises store receiver args (.eager (.common .copy)) .copy
        (.fresh (.list (store.elements cell)))
  | copyArray {cell : Nat} (h : receiver = .array cell) :
      Arises store receiver args (.eager (.common .copy)) .copy
        (.fresh (.array (store.elements cell)))
  | element {cell index : Nat} (h : Store.container? receiver = some cell)
      (hindex : index < (store.elements cell).size) :
      Arises store receiver args (.eager (.sequence .get)) (.element index)
        (.give (elementAt (store.elements cell) index))
  | iterator {cell : Nat} (h : Store.container? receiver = some cell) :
      Arises store receiver args (.eager (.sequence .getIterator)) .iterator
        (.fresh (.iterator cell))
  | write {op : Operation} {content : Content} (h : content.IsScalar)
      (changes : op.treatment = .changes) :
      Arises store receiver args op (.write content) (.write receiver content)
  | setItem {cell index : Nat} {place element : Value}
      (h : Store.container? receiver = some cell)
      (hindex : index < (store.elements cell).size) (hargs : args = [place, element]) :
      Arises store receiver args (.eager (.sequence .set)) (.setItem index)
        (.setItem receiver cell index element)
  | addItem {cell : Nat} {element : Value} (h : Store.container? receiver = some cell)
      (hargs : args = [element]) :
      Arises store receiver args (.eager (.growth .add)) .addItem
        (.addItem receiver cell element)
  | removeItem {cell index : Nat} (h : Store.container? receiver = some cell)
      (hindex : index < (store.elements cell).size) :
      Arises store receiver args (.eager (.growth .remove)) (.removeItem index)
        (.removeItem cell index (elementAt (store.elements cell) index))
  | advance {cell : Nat} (h : receiver = .iterator cell)
      (hnext : (store.cursors.get cell).next <
        (store.elements (store.cursors.get cell).items).size) :
      Arises store receiver args (.eager (.iterator .moveNext)) .advance
        (.advance cell
          (elementAt (store.elements (store.cursors.get cell).items)
            (store.cursors.get cell).next))

/-! ## The families of operations -/

/-- Two calls of which an operation reads the same. -/
structure SameView (store store' : Store) (v w : Value) (vs ws : List Value) : Prop where
  receiver : LooksLike store store' v w
  args : List.Forall₂ (LooksLike store store') vs ws
  /-- The receiver equals the same arguments. -/
  equal : List.Forall₂ (fun x y => store.scriptEq v x = store'.scriptEq w y) vs ws

theorem SameView.refl (store : Store) (v : Value) (vs : List Value) :
    SameView store store v v vs vs where
  receiver := .refl store v
  args := List.forall₂_same.mpr fun x _ => .refl store x
  equal := List.forall₂_same.mpr fun _ _ => rfl

section Families

variable {store store' : Store} {v w : Value} {vs ws : List Value} (method : String)

/-- Two decisions of an operation that differ in nothing but the handles. -/
def Corresponds (store store' : Store) (v w : Value) (vs ws : List Value) (op : Operation)
    (e e' : Effect) : Prop :=
  ∃ sketch, Arises store v vs op sketch e ∧ Arises store' w ws op sketch e'

theorem Corresponds.scalar
    {op : Operation} {content : Content} (h : content.IsScalar)
    (makes : op.treatment = .makes) :
    Corresponds store store' v w vs ws op (.fresh content) (.fresh content) :=
  ⟨_, .scalar h makes, .scalar h makes⟩

theorem Corresponds.texts {op : Operation} (parts : List String)
    (makes : op.treatment = .makes) :
    Corresponds store store' v w vs ws op (.freshTexts parts) (.freshTexts parts) :=
  ⟨_, .texts parts makes, .texts parts makes⟩

theorem Corresponds.write
    {op : Operation} {content : Content} (h : content.IsScalar)
    (changes : op.treatment = .changes) :
    Corresponds store store' v w vs ws op (.write v content) (.write w content) :=
  ⟨_, .write h changes, .write h changes⟩

theorem arityMismatch_concurs
    {α β : Type} {R : α → β → Prop} (fits : Prop) (h : vs.length = ws.length) (n : Nat) :
    Concurs R (Cause.OfOperation fits) (.error (.arityMismatch method n vs.length))
      (.error (.arityMismatch method n ws.length)) := by
  rw [h]
  exact .error (Cause.ofOperation_of_sort rfl)

theorem NumberOp.plan_concurs (op : NumberOp) (h : SameView store store' v w vs ws) :
    Concurs (Corresponds store store' v w vs ws (.eager (.number op)))
      (Cause.OfOperation ((EagerOp.number op).serves v.kind))
      (op.plan store v method vs) (op.plan store' w method ws) := by
  obtain ⟨hv, hvs, -⟩ := h
  have harity := arityMismatch_concurs
      (R := Corresponds store store' v w vs ws (.eager (.number op)))
    method ((EagerOp.number op).serves v.kind) hvs.length_eq
      (((EagerOp.number op).arity).getD 0)
  rcases hvs with _ | ⟨hx, _ | ⟨_, _⟩⟩
  · cases op with
    | negate =>
        refine (hv.receiverNumber of_decide_eq_true method).bind ?_
        rintro n _ rfl
        exact .ok (.scalar trivial rfl)
    | increment =>
        refine (hv.receiverNumber of_decide_eq_true method).bind ?_
        rintro n _ rfl
        exact .ok (.write trivial rfl)
    | decrement =>
        refine (hv.receiverNumber of_decide_eq_true method).bind ?_
        rintro n _ rfl
        exact .ok (.write trivial rfl)
    | arithmetic | compare | set | assign => exact harity
  · cases op with
    | arithmetic op =>
        refine (hv.numberPair hx method).bind ?_
        rintro pair _ rfl
        refine (pair.compute_concurs op _).bind ?_
        rintro n _ rfl
        exact .ok (.scalar trivial rfl)
    | compare op =>
        refine (hv.numberPair hx method).bind ?_
        rintro pair _ rfl
        exact .ok (.scalar trivial rfl)
    | set =>
        refine (hv.numberPair hx method).bind ?_
        rintro pair _ rfl
        exact .ok (.write trivial rfl)
    | assign op =>
        refine (hv.numberPair hx method).bind ?_
        rintro pair _ rfl
        refine (pair.compute_concurs op _).bind ?_
        rintro n _ rfl
        exact .ok (.write trivial rfl)
    | negate | increment | decrement => exact harity
  · cases op <;> exact harity

theorem Connective.plan_concurs (op : Connective)
    (hvs : List.Forall₂ (LooksLike store store') vs ws) :
    Concurs (Corresponds store store' v w vs ws (.connective op)) (Cause.OfOperation True)
      (Connective.plan store method vs) (Connective.plan store' method ws) := by
  have harity := arityMismatch_concurs
      (R := Corresponds store store' v w vs ws (.connective op)) method True
    hvs.length_eq 1
  rcases hvs with _ | ⟨hx, _ | ⟨_, _⟩⟩
  · exact harity
  · simp only [Connective.plan, hx.bool?_eq, hx.kind_eq]
    split
    · exact .ok (.scalar trivial rfl)
    · exact .error (Cause.ofOperation_of_sort rfl)
  · exact harity

theorem BoolOp.plan_concurs (op : BoolOp) (h : SameView store store' v w vs ws) :
    Concurs (Corresponds store store' v w vs ws (.eager (.bool op)))
      (Cause.OfOperation ((EagerOp.bool op).serves v.kind))
      (op.plan store v method vs) (op.plan store' w method ws) := by
  obtain ⟨hv, hvs, -⟩ := h
  have harity := arityMismatch_concurs
      (R := Corresponds store store' v w vs ws (.eager (.bool op)))
    method ((EagerOp.bool op).serves v.kind) hvs.length_eq
      (((EagerOp.bool op).arity).getD 0)
  rcases hvs with _ | ⟨hx, _ | ⟨_, _⟩⟩
  · cases op with
    | not =>
        refine (hv.receiverBool of_decide_eq_true method).bind ?_
        rintro b _ rfl
        exact .ok (.scalar trivial rfl)
    | set => exact harity
  · cases op with
    | not => exact harity
    | set =>
        simp only [BoolOp.plan, hx.bool?_eq, hx.kind_eq]
        split
        · exact .ok (.write trivial rfl)
        · exact .error (Cause.ofOperation_of_sort rfl)
  · cases op <;> exact harity

theorem TextOp.plan_concurs (op : TextOp) (h : SameView store store' v w vs ws) :
    Concurs (Corresponds store store' v w vs ws (.eager (.text op)))
      (Cause.OfOperation ((EagerOp.text op).serves v.kind))
      (op.plan store v method vs) (op.plan store' w method ws) := by
  obtain ⟨hv, hvs, -⟩ := h
  have harity := arityMismatch_concurs
      (R := Corresponds store store' v w vs ws (.eager (.text op)))
    method ((EagerOp.text op).serves v.kind) hvs.length_eq
      (((EagerOp.text op).arity).getD 0)
  refine (hv.receiverText of_decide_eq_true method).bind ?_
  rintro s _ rfl
  rcases hvs with _ | ⟨hx, _ | ⟨hy, _ | ⟨_, _⟩⟩⟩
  · cases op with
    | size => exact .ok (.scalar trivial rfl)
    | get | split | replaceAt | plus | plusAssign | set => exact harity
  · cases op with
    | get =>
        refine (hx.indexOf s.toList.length).bind ?_
        rintro index _ ⟨rfl, -⟩
        exact .ok (.scalar trivial rfl)
    | split =>
        refine hx.textOf.bind ?_
        rintro separator _ ⟨rfl, -⟩
        exact .ok (.texts _ rfl)
    | plus =>
        simp only [hx.render_eq]
        exact .ok (.scalar trivial rfl)
    | plusAssign =>
        simp only [hx.render_eq]
        exact .ok (.write trivial rfl)
    | set =>
        refine hx.textOf.bind ?_
        rintro other _ ⟨rfl, -⟩
        exact .ok (.write trivial rfl)
    | replaceAt | size => exact harity
  · cases op with
    | replaceAt =>
        refine hy.textOf.bind ?_
        rintro replacement _ ⟨rfl, -⟩
        refine (hx.indexOf s.toList.length).bind ?_
        rintro index _ ⟨rfl, -⟩
        exact .ok (.scalar trivial rfl)
    | get | split | plus | plusAssign | set | size => exact harity
  · cases op <;> exact harity

theorem SequenceOp.plan_concurs (op : SequenceOp) (h : SameView store store' v w vs ws) :
    Concurs (Corresponds store store' v w vs ws (.eager (.sequence op)))
      (Cause.OfOperation ((EagerOp.sequence op).serves v.kind))
      (op.plan store v method vs) (op.plan store' w method ws) := by
  obtain ⟨hv, hvs, -⟩ := h
  have harity := arityMismatch_concurs
      (R := Corresponds store store' v w vs ws (.eager (.sequence op)))
    method ((EagerOp.sequence op).serves v.kind) hvs.length_eq
      (((EagerOp.sequence op).arity).getD 0)
  refine (hv.receiverContainer of_decide_eq_true method).bind ?_
  rintro a b ⟨ha, hb, hsize⟩
  dsimp only
  rw [← hsize]
  rcases hvs with _ | ⟨hx, _ | ⟨hy, _ | ⟨_, _⟩⟩⟩
  · cases op with
    | size => exact .ok (.scalar trivial rfl)
    | getIterator => exact .ok ⟨_, .iterator ha, .iterator hb⟩
    | get | set => exact harity
  · cases op with
    | get =>
        refine (hx.indexOf (store.elements a).size).bind ?_
        rintro index _ ⟨rfl, hindex⟩
        exact .ok ⟨_, .element ha hindex, .element hb (hsize ▸ hindex)⟩
    | set | size | getIterator => exact harity
  · cases op with
    | set =>
        refine (hx.indexOf (store.elements a).size).bind ?_
        rintro index _ ⟨rfl, hindex⟩
        exact .ok ⟨_, .setItem ha hindex rfl, .setItem hb (hsize ▸ hindex) rfl⟩
    | get | size | getIterator => exact harity
  · cases op <;> exact harity

theorem GrowthOp.plan_concurs (op : GrowthOp) (h : SameView store store' v w vs ws) :
    Concurs (Corresponds store store' v w vs ws (.eager (.growth op)))
      (Cause.OfOperation ((EagerOp.growth op).serves v.kind))
      (op.plan store v method vs) (op.plan store' w method ws) := by
  obtain ⟨hv, hvs, -⟩ := h
  have harity := arityMismatch_concurs
      (R := Corresponds store store' v w vs ws (.eager (.growth op)))
    method ((EagerOp.growth op).serves v.kind) hvs.length_eq
      (((EagerOp.growth op).arity).getD 0)
  refine (hv.receiverContainer of_decide_eq_true method).bind ?_
  rintro a b ⟨ha, hb, hsize⟩
  rcases hvs with _ | ⟨hx, _ | ⟨_, _⟩⟩
  · cases op <;> exact harity
  · cases op with
    | add => exact .ok ⟨_, .addItem ha rfl, .addItem hb rfl⟩
    | remove =>
        simp only [← hsize]
        refine (hx.indexOf (store.elements a).size).bind ?_
        rintro index _ ⟨rfl, hindex⟩
        exact .ok ⟨_, .removeItem ha hindex, .removeItem hb (hsize ▸ hindex)⟩
  · cases op <;> exact harity

theorem IteratorOp.plan_concurs (op : IteratorOp) (h : SameView store store' v w vs ws) :
    Concurs (Corresponds store store' v w vs ws (.eager (.iterator op)))
      (Cause.OfOperation ((EagerOp.iterator op).serves v.kind))
      (op.plan store v method vs) (op.plan store' w method ws) := by
  obtain ⟨hv, hvs, -⟩ := h
  have harity := arityMismatch_concurs
      (R := Corresponds store store' v w vs ws (.eager (.iterator op)))
    method ((EagerOp.iterator op).serves v.kind) hvs.length_eq 0
  refine (hv.receiverIterator of_decide_eq_true method).bind ?_
  rintro a b ⟨ha, hb, hnext, hsize⟩
  rcases hvs with _ | ⟨_, _⟩
  · cases op with
    | hasNext =>
        simp only [Store.hasNext, hnext, hsize]
        exact .ok (.scalar trivial rfl)
    | moveNext =>
        simp only [← hsize, ← hnext]
        split
        next hmore =>
          refine .ok ⟨_, .advance ha hmore, ?_⟩
          rw [hnext]
          exact .advance hb (by rwa [← hnext, ← hsize])
        · exact .error (Cause.ofOperation_of_sort rfl)
  · cases op <;> exact harity

theorem FileOp.plan_concurs (op : FileOp) (files : Files)
    (h : SameView store store' v w vs ws) :
    Concurs (Corresponds store store' v w vs ws (.eager (.file op)))
      (Cause.OfOperation ((EagerOp.file op).serves v.kind))
      (op.plan files v method vs) (op.plan files w method ws) := by
  obtain ⟨hv, hvs, -⟩ := h
  have harity := arityMismatch_concurs
      (R := Corresponds store store' v w vs ws (.eager (.file op)))
    method ((EagerOp.file op).serves v.kind) hvs.length_eq 0
  refine (hv.receiverPath of_decide_eq_true method).bind ?_
  rintro path _ rfl
  rcases hvs with _ | ⟨_, _⟩
  · cases op with
    | readText =>
        refine (readFileText_concurs files path _).bind ?_
        rintro text _ rfl
        exact .ok (.scalar trivial rfl)
    | readLines =>
        refine (readFileText_concurs files path _).bind ?_
        rintro text _ rfl
        exact .ok (.texts _ rfl)
  · cases op <;> exact harity

theorem FactoryOp.plan_concurs (op : FactoryOp)
    (hvs : List.Forall₂ (LooksLike store store') vs ws) :
    Concurs (Corresponds store store' v w vs ws (.eager (.factory op)))
      (Cause.OfOperation ((EagerOp.factory op).serves v.kind))
      (op.plan store method vs) (op.plan store' method ws) := by
  have harity := arityMismatch_concurs
      (R := Corresponds store store' v w vs ws (.eager (.factory op)))
    method ((EagerOp.factory op).serves v.kind) hvs.length_eq 1
  by_cases hlist : op = .list
  · subst hlist
    exact .ok ⟨_, .list, .list⟩
  · rcases hvs with _ | ⟨hx, _ | ⟨_, _⟩⟩
    · cases op with
      | list => exact absurd rfl hlist
      | array | int | long | double | text | file => exact harity
    · cases op with
      | list => exact absurd rfl hlist
      | array =>
          refine hx.slotsOf.map ?_
          rintro slots _ ⟨rfl, hleft, hright⟩
          exact ⟨_, .array rfl hleft, .array rfl hright⟩
      | int =>
          refine (hx.toWord .int).bind ?_
          rintro n _ rfl
          exact .ok (.scalar trivial rfl)
      | long =>
          refine (hx.toWord .long).bind ?_
          rintro n _ rfl
          exact .ok (.scalar trivial rfl)
      | double =>
          refine hx.toDouble.bind ?_
          rintro x _ rfl
          exact .ok (.scalar trivial rfl)
      | text =>
          refine hx.toText.bind ?_
          rintro s _ rfl
          exact .ok (.scalar trivial rfl)
      | file =>
          refine hx.textOf.bind ?_
          rintro path _ ⟨rfl, htext⟩
          exact .ok ⟨_, .file rfl htext, .file rfl (hx.text?_eq ▸ htext)⟩
    · cases op with
      | list => exact absurd rfl hlist
      | array | int | long | double | text | file => exact harity

theorem CommonOp.plan_concurs (op : CommonOp) (h : SameView store store' v w vs ws) :
    Concurs (Corresponds store store' v w vs ws (.eager (.common op)))
      (Cause.OfOperation ((EagerOp.common op).serves v.kind))
      (op.plan store v method vs) (op.plan store' w method ws) := by
  obtain ⟨hv, hvs, hequal⟩ := h
  have harity := arityMismatch_concurs
      (R := Corresponds store store' v w vs ws (.eager (.common op)))
    method ((EagerOp.common op).serves v.kind) hvs.length_eq
      (((EagerOp.common op).arity).getD 0)
  rcases hvs with _ | ⟨hx, _ | ⟨_, _⟩⟩
  · cases op with
    | copy =>
        cases hv with
        | int h | long h | double h | bool h | text h =>
            simp only [CommonOp.plan, Store.copyContent?, h]
            exact .ok (.scalar trivial rfl)
        | list => exact .ok ⟨_, .copyList rfl, .copyList rfl⟩
        | array => exact .ok ⟨_, .copyArray rfl, .copyArray rfl⟩
        | iterator | file | lambda | void | dispatcher | factory =>
            exact .ok ⟨_, .self rfl, .self rfl⟩
    | toText =>
        simp only [CommonOp.plan, hv.render_eq]
        exact .ok (.scalar trivial rfl)
    | equal | notEqual => exact harity
  · cases hequal with
    | cons hfirst _ =>
        cases op with
        | equal =>
            simp only [CommonOp.plan, hfirst]
            exact .ok (.scalar trivial rfl)
        | notEqual =>
            simp only [CommonOp.plan, hfirst]
            exact .ok (.scalar trivial rfl)
        | copy | toText => exact harity
  · cases op <;> exact harity

/-- On two calls of which it reads the same, an operation decides on effects that differ
in nothing but the handles, or fails for the same cause: for no loop exit, and for no
unknown name if it is meant for the receiver. -/
theorem EagerOp.plan_concurs (op : EagerOp) (files : Files)
    (h : SameView store store' v w vs ws) :
    Concurs (Corresponds store store' v w vs ws (.eager op))
        (Cause.OfOperation (op.serves v.kind))
      (op.plan files store v method vs) (op.plan files store' w method ws) := by
  cases op with
  | common op => exact op.plan_concurs method h
  | number op => exact op.plan_concurs method h
  | bool op => exact op.plan_concurs method h
  | text op => exact op.plan_concurs method h
  | sequence op => exact op.plan_concurs method h
  | growth op => exact op.plan_concurs method h
  | iterator op => exact op.plan_concurs method h
  | file op => exact op.plan_concurs method files h
  | factory op => exact op.plan_concurs method h.args

end Families

/-! ## A single call -/

section Single

variable (store : Store) (receiver : Value) (method : String) (args : List Value)

/-- The effect can arise from the operation. -/
def Operation.Allows (op : Operation) (effect : Effect) : Prop :=
  ∃ sketch, Arises store receiver args op sketch effect

variable {store receiver args} in
theorem allows_of_concurs
    {op : Operation} {plan : Plan} {causes : Cause → Prop}
    (h : Concurs (Corresponds store store receiver receiver args args op)
      causes plan plan) :
    Yields (op.Allows store receiver args) causes plan := by
  have hyields := h.yields
  cases plan with
  | ok effect =>
      obtain ⟨sketch, harises, -⟩ := hyields
      exact ⟨sketch, harises⟩
  | error cause => exact hyields

/-- Whatever an operation decides on is among the effects that can arise from it. It fails
for no loop exit, and for no unknown name if it is meant for the receiver. -/
theorem EagerOp.plan_allows (op : EagerOp) (files : Files) :
    Yields (Operation.Allows store receiver args (.eager op))
        (Cause.OfOperation (op.serves receiver.kind))
      (op.plan files store receiver method args) :=
  allows_of_concurs (op.plan_concurs method files (.refl store receiver args))

theorem Connective.plan_allows (op : Connective) :
    Yields (Operation.Allows store receiver args (.connective op))
        (Cause.OfOperation True)
      (Connective.plan store method args) :=
  allows_of_concurs (op.plan_concurs method (SameView.refl store receiver args).args)

theorem FactoryOp.plan_allows (op : FactoryOp) :
    Yields (Operation.Allows store receiver args (.eager (.factory op)))
        (Cause.OfOperation True)
      (op.plan store method args) := by
  have hyields :=
      allows_of_concurs (op.plan_concurs (v := receiver) (w := receiver) method
    (SameView.refl store receiver args).args)
  simpa [EagerOp.serves] using hyields

/-- Only an array can be too large. -/
theorem Arises.fits_or_array
    {store : Store} {receiver : Value} {args : List Value} {op : Operation}
    {sketch : Sketch} {effect : Effect}
    (h : Arises store receiver args op sketch effect) :
    effect.fits = true ∨
      op = .eager (.factory .array) ∧ ∃ size slots, args = [size] ∧
        slotsOf store size = .ok slots ∧ effect = .freshArray slots := by
  cases h with
  | array hargs hslots => exact .inr ⟨rfl, _, _, hargs, hslots, rfl⟩
  | _ => exact .inl rfl

end Single

/-! ## What effects leave alone -/

/-- Numbers, truth values and texts have cells of their own. -/
theorem Store.alloc_scalar (store : Store) {content : Content} (h : content.IsScalar) :
    (store.alloc content).2.items = store.items ∧
      (store.alloc content).2.closures = store.closures := by
  cases content with
  | number n => cases n <;> exact ⟨rfl, rfl⟩
  | bool b => exact ⟨rfl, rfl⟩
  | text t => exact ⟨rfl, rfl⟩
  | list elements => cases h
  | array elements => cases h
  | iterator items => cases h
  | lambda c => cases h

theorem Store.allocTexts_scalar (store : Store) (parts : List String) :
    (store.allocTexts parts).2.items = store.items ∧
      (store.allocTexts parts).2.closures = store.closures := by
  induction parts generalizing store with
  | nil => exact ⟨rfl, rfl⟩
  | cons s rest ih => exact ih (store.alloc (.text s)).2

theorem Store.write_scalar (store : Store) (v : Value) (content : Content) :
    (store.write v content).items = store.items ∧
      (store.write v content).closures = store.closures := by
  unfold Store.write
  split <;> exact ⟨rfl, rfl⟩

theorem Arises.closures_commit
    {store : Store} {receiver : Value} {args : List Value} {op : Operation}
    {sketch : Sketch} {effect : Effect}
    (h : Arises store receiver args op sketch effect) :
    (store.commit effect).2.closures = store.closures := by
  cases h with
  | scalar hscalar => exact (store.alloc_scalar hscalar).2
  | texts parts => exact (store.allocTexts_scalar parts).2
  | write => exact (store.write_scalar _ _).2
  | list | array | file | self | copyList | copyArray | element | iterator => rfl
  | setItem | addItem | removeItem | advance => rfl

end HandleScript
