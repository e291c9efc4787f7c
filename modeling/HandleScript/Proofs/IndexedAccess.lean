import HandleScript.Proofs.Arguments
import HandleScript.Proofs.Heap

/-!
# Access by index

Texts, lists and arrays are read at an index, containers are also changed there. Each of
these methods decides on the index by one rule, and fails by it or goes on to one place of
the receiver. What it does there is stated on the contents as a whole: the part before the
index, what stands at it, and the part behind.
-/

namespace HandleScript

/-- A method that takes an index, with the other argument that it takes. -/
inductive IndexedMethod where
  | get
  | set (element : Value)
  | remove
  | replaceAt (replacement : Value)

namespace IndexedMethod

/-- The name that a script calls the method by. -/
def name : IndexedMethod → String
  | get => "get"
  | set _ => "set"
  | remove => "remove"
  | replaceAt _ => "replaceAt"

/-- The arguments of a call of the method, for the value that is given as the index. -/
def args (i : Value) : IndexedMethod → List Value
  | get => [i]
  | set element => [i, element]
  | remove => [i]
  | replaceAt replacement => [i, replacement]

/-- The kinds of values that have the method. -/
def kinds : IndexedMethod → List Kind
  | get => [.text, .list, .array]
  | set _ => [.list, .array]
  | remove => [.list]
  | replaceAt _ => [.text]

/-- The receiver has the method, and a replacement is a text. -/
def Applies : IndexedMethod → Value → Prop
  | replaceAt replacement, receiver =>
    receiver.kind ∈ (replaceAt replacement).kinds ∧ replacement.kind = .text
  | method, receiver => receiver.kind ∈ method.kinds

end IndexedMethod

/-- The number of characters of a text, or of elements of a container. -/
def Store.lengthOf (store : Store) : Value → Nat
  | .text cell => (store.texts.get cell).length
  | .list cell => (store.elements cell).size
  | .array cell => (store.elements cell).size
  | _ => 0

/-- The value is a new text, and nothing else changes. -/
def State.MakesText (s : State) (t : String) (v : Value) (s' : State) : Prop :=
  v = .text s.store.texts.size ∧ s.Writes (s.store.next .text) (.text t) s'

/-- What a method does at an index of its receiver: the value that it gives and the state
that it leaves. -/
inductive ActsAt (s : State) :
    IndexedMethod → (receiver : Value) → (index : Nat) → Value → State → Prop
  /-- The character at the index becomes a text of its own. -/
  | character {cell index : Nat} {before after : List Char} {c : Char}
      {v : Value} {s' : State}
      (contents : (s.store.texts.get cell).toList = before ++ c :: after)
        (place : before.length = index)
      (makes : s.MakesText (String.singleton c) v s') :
        ActsAt s .get (.text cell) index v s'
  /-- A new text has the replacement in place of the character. -/
  | replaced {cell other index : Nat} {before after : List Char} {c : Char}
      {v : Value} {s' : State}
      (contents : (s.store.texts.get cell).toList = before ++ c :: after)
        (place : before.length = index)
      (makes : s.MakesText
        (String.ofList (before ++ (s.store.texts.get other).toList ++ after)) v s') :
      ActsAt s (.replaceAt (.text other)) (.text cell) index v s'
  | element {receiver x : Value} {cell index : Nat} {before after : List Value}
      (container : Store.container? receiver = some cell)
      (contents : (s.store.elements cell).toList = before ++ x :: after)
        (place : before.length = index) :
      ActsAt s .get receiver index x s
  | stored {receiver x y : Value} {cell index : Nat}
      {before after : List Value} {s' : State}
      (container : Store.container? receiver = some cell)
      (contents : (s.store.elements cell).toList = before ++ x :: after)
        (place : before.length = index)
      (writes : s.Writes ⟨.items, cell⟩ (.items (before ++ y :: after).toArray) s') :
      ActsAt s (.set y) receiver index receiver s'
  | removed {receiver x : Value} {cell index : Nat}
      {before after : List Value} {s' : State}
      (container : Store.container? receiver = some cell)
      (contents : (s.store.elements cell).toList = before ++ x :: after)
        (place : before.length = index)
      (writes : s.Writes ⟨.items, cell⟩ (.items (before ++ after).toArray) s') :
      ActsAt s .remove receiver index x s'

/-! ## Indices -/

section Indices

variable {store : Store} {i : Value} {length : Nat}

theorem indexOf_of_kind_ne (h : i.kind ≠ .int) :
    indexOf store i length = .error (.unsuitable .intIndex i.kind) := by
  cases i with
  | int cell => exact absurd rfl h
  | _ => rfl

theorem indexOf_of_lt {n : Int64} (h : store.int? i = some n)
    (hn : 0 ≤ n.toInt ∧ n.toInt < length) :
    indexOf store i length = .ok n.toInt.toNat := by
  simp only [indexOf, h, if_pos hn]

theorem indexOf_of_not_lt {n : Int64} (h : store.int? i = some n)
    (hn : ¬(0 ≤ n.toInt ∧ n.toInt < length)) :
    indexOf store i length = .error (.indexOutOfBounds n.toInt length) := by
  simp only [indexOf, h, if_neg hn]

theorem exists_int_of_indexOf {index : Nat} (h : indexOf store i length = .ok index) :
    ∃ n : Int64, store.int? i = some n ∧ (0 ≤ n.toInt ∧ n.toInt < length) ∧
      index = n.toInt.toNat := by
  unfold indexOf at h
  split at h
  · cases h
  next n hn =>
    split at h
    next hbounds =>
      cases h
      exact ⟨n, hn, hbounds, rfl⟩
    · cases h

end Indices

/-! ## What stands at an index -/

theorem exists_split_of_lt {α : Type} {xs : List α} {index : Nat}
    (h : index < xs.length) :
    ∃ before x after, xs = before ++ x :: after ∧ before.length = index :=
  ⟨xs.take index, xs.get ⟨index, h⟩,
    xs.drop (index + 1), by simp, List.length_take_of_le (Nat.le_of_lt h)⟩

section Split

variable {elements : Array Value} {before after : List Value} {x : Value}

theorem eq_toArray_of_split (h : elements.toList = before ++ x :: after) :
    elements = (before ++ x :: after).toArray := by
  rw [← h]

theorem lt_size_of_split {store : Store} {cell : Nat}
    (h : (store.elements cell).toList = before ++ x :: after) : cell < store.items.size :=
  Store.lt_size_of_mem_elements (h ▸ List.mem_append_right before List.mem_cons_self)

theorem elementAt_of_split (h : elements.toList = before ++ x :: after) :
    elementAt elements before.length = x := by
  simp [eq_toArray_of_split h, elementAt, Array.getD_eq_getD_getElem?]

theorem setIfInBounds_of_split (h : elements.toList = before ++ x :: after) (y : Value) :
    elements.setIfInBounds before.length y = (before ++ y :: after).toArray := by
  simp [eq_toArray_of_split h]

theorem eraseIdxIfInBounds_of_split (h : elements.toList = before ++ x :: after) :
    elements.eraseIdxIfInBounds before.length = (before ++ after).toArray := by
  simp [eq_toArray_of_split h, Array.eraseIdxIfInBounds,
    List.eraseIdx_append_of_length_le]

end Split

/-! ## Methods and their plans -/

theorem Store.lengthOf_of_container (store : Store) {receiver : Value} {cell : Nat}
    (h : Store.container? receiver = some cell) :
    store.lengthOf receiver = (store.elements cell).size := by
  cases receiver <;> cases h <;> rfl

/-- The method is an operation that decides on the index first, and then on an effect at
it. -/
structure PlansAt (files : Files) (s : State) (method : IndexedMethod)
    (receiver i : Value) (op : EagerOp) (effect : Nat → Effect) : Prop where
  found : receiver.kind.operation? method.name = some (.eager op)
  accepts : (Operation.eager op).accepts (Arguments.ready (method.args i)).count = true
  plan : op.plan files s.store receiver method.name (method.args i) =
    (indexOf s.store i (s.store.lengthOf receiver)).map effect
  fits : ∀ index, (effect index).fits = true
  acts : ∀ index, index < s.store.lengthOf receiver → ActsAt s method receiver index
    (s.store.commit (effect index)).1
      { s with store := (s.store.commit (effect index)).2 }

theorem PlansAt.dispatch_eq
    {s : State} {method : IndexedMethod} {receiver i : Value} {op : EagerOp}
    {effect : Nat → Effect} (host : Host) (fuel scope : Nat)
    (h : PlansAt host.files s method receiver i op effect) :
    dispatch host (fuel + 3) scope receiver method.name (.ready (method.args i)) s =
      match indexOf s.store i (s.store.lengthOf receiver) with
      | .error cause => .failed ⟨cause, none⟩ s
      | .ok index =>
          .done (s.store.commit (effect index)).1
            { s with store := (s.store.commit (effect index)).2 } := by
  rw [dispatch_of_eager h.found h.accepts, Run.carryOut, h.plan]
  cases indexOf s.store i (s.store.lengthOf receiver) with
  | error cause => rfl
  | ok index => exact if_pos (h.fits index)

/-- A method acts at an index within the length of its receiver. -/
theorem PlansAt.exists_done
    {s : State} {method : IndexedMethod} {receiver i : Value} {op : EagerOp}
    {effect : Nat → Effect} {host : Host}
    (h : PlansAt host.files s method receiver i op effect) {n : Int64}
    (hn : s.store.int? i = some n)
    (hbounds : 0 ≤ n.toInt ∧ n.toInt < s.store.lengthOf receiver) (fuel scope : Nat) :
    ∃ v s', dispatch host (fuel + 3) scope receiver method.name
        (.ready (method.args i)) s = .done v s' ∧
      ActsAt s method receiver n.toInt.toNat v s' := by
  refine ⟨_, _, ?_, h.acts n.toInt.toNat (by omega)⟩
  rw [h.dispatch_eq, indexOf_of_lt hn hbounds]

/-- A method fails where the index is none. -/
theorem PlansAt.dispatch_of_error
    {s : State} {method : IndexedMethod} {receiver i : Value} {op : EagerOp}
    {effect : Nat → Effect} {host : Host}
    (h : PlansAt host.files s method receiver i op effect) {cause : Cause}
    (hcause : indexOf s.store i (s.store.lengthOf receiver) = .error cause)
    (fuel scope : Nat) :
    dispatch host (fuel + 3) scope receiver method.name (.ready (method.args i)) s =
      .failed ⟨cause, none⟩ s := by
  rw [h.dispatch_eq, hcause]

section Plans

variable (files : Files) (s : State) (i : Value)

theorem plansAt_get_text (cell : Nat) :
    ∃ op effect, PlansAt files s .get (.text cell) i op effect := by
  refine ⟨.text .get, fun index => .fresh
      (.text (String.ofList (((s.store.texts.get cell).toList.drop index).take 1))),
    rfl, rfl, rfl, fun _ => rfl, ?_⟩
  intro index hindex
  obtain ⟨before, c, after, hsplit, rfl⟩ := exists_split_of_lt hindex
  have hchar : String.ofList
      (((s.store.texts.get cell).toList.drop before.length).take 1) =
      String.singleton c := by
    rw [hsplit, List.drop_left, String.singleton_eq_ofList]
    rfl
  rw [hchar]
  exact .character hsplit rfl ⟨rfl, s.writes_alloc (.text _)⟩

theorem plansAt_replaceAt (cell other : Nat) :
    ∃ op effect, PlansAt files s (.replaceAt (.text other)) (.text cell) i op effect := by
  refine ⟨.text .replaceAt,
    fun index => .fresh
      (.text (replaceChar (s.store.texts.get cell).toList index
      (s.store.texts.get other))),
    rfl, rfl, rfl, fun _ => rfl, ?_⟩
  intro index hindex
  obtain ⟨before, c, after, hsplit, rfl⟩ := exists_split_of_lt hindex
  have hreplaced : replaceChar (s.store.texts.get cell).toList before.length
      (s.store.texts.get other) =
      String.ofList (before ++ (s.store.texts.get other).toList ++ after) := by
    simp [replaceChar, hsplit, String.ofList_append, String.append_assoc]
  rw [hreplaced]
  exact .replaced hsplit rfl ⟨rfl, s.writes_alloc (.text _)⟩

variable {receiver : Value} {cell : Nat}

theorem plansAt_get (hfound : receiver.kind.operation? "get" = some (.sequence .get))
    (hcontainer : Store.container? receiver = some cell) :
    ∃ op effect, PlansAt files s .get receiver i op effect := by
  have hlength := s.store.lengthOf_of_container hcontainer
  refine ⟨.sequence .get, fun index => .give (elementAt (s.store.elements cell) index),
    hfound, rfl, ?_, fun _ => rfl, ?_⟩
  · rw [hlength]
    simp only [EagerOp.plan, SequenceOp.plan, receiverContainer, hcontainer]
    rfl
  · intro index hindex
    rw [hlength] at hindex
    obtain ⟨before, x, after, hsplit, rfl⟩ := exists_split_of_lt hindex
    rw [elementAt_of_split hsplit]
    exact .element hcontainer hsplit rfl

theorem plansAt_set (hfound : receiver.kind.operation? "set" = some (.sequence .set))
    (hcontainer : Store.container? receiver = some cell) (element : Value) :
    ∃ op effect, PlansAt files s (.set element) receiver i op effect := by
  have hlength := s.store.lengthOf_of_container hcontainer
  refine ⟨.sequence .set, fun index => .setItem receiver cell index element, hfound,
    rfl, ?_, fun _ => rfl, ?_⟩
  · rw [hlength]
    simp only [EagerOp.plan, SequenceOp.plan, receiverContainer, hcontainer]
    rfl
  · intro index hindex
    rw [hlength] at hindex
    obtain ⟨before, x, after, hsplit, rfl⟩ := exists_split_of_lt hindex
    have hcell := lt_size_of_split hsplit
    have hwrites := s.writes_modifyItems
      (fun elements => elements.setIfInBounds before.length element) hcell
    rw [setIfInBounds_of_split hsplit] at hwrites
    exact .stored hcontainer hsplit rfl hwrites

theorem plansAt_remove (cell : Nat) :
    ∃ op effect, PlansAt files s .remove (.list cell) i op effect := by
  refine ⟨.growth .remove, fun index => .removeItem cell index
      (elementAt (s.store.elements cell) index),
    rfl, rfl, rfl, fun _ => rfl, ?_⟩
  intro index hindex
  obtain ⟨before, x, after, hsplit, rfl⟩ := exists_split_of_lt hindex
  have hcell := lt_size_of_split hsplit
  have hwrites := s.writes_modifyItems
    (fun elements => elements.eraseIdxIfInBounds before.length) hcell
  rw [eraseIdxIfInBounds_of_split hsplit] at hwrites
  rw [elementAt_of_split hsplit]
  exact .removed rfl hsplit rfl hwrites

theorem exists_plansAt {method : IndexedMethod} (h : method.Applies receiver) :
    ∃ op effect, PlansAt files s method receiver i op effect := by
  cases method with
  | get =>
      cases receiver with
      | text cell => exact plansAt_get_text files s i cell
      | list cell => exact plansAt_get files s i rfl rfl
      | array cell => exact plansAt_get files s i rfl rfl
      | _ => simp [IndexedMethod.Applies, IndexedMethod.kinds, Value.kind] at h
  | set element =>
      cases receiver with
      | list cell => exact plansAt_set files s i rfl rfl element
      | array cell => exact plansAt_set files s i rfl rfl element
      | _ => simp [IndexedMethod.Applies, IndexedMethod.kinds, Value.kind] at h
  | remove =>
      cases receiver with
      | list cell => exact plansAt_remove files s i cell
      | _ => simp [IndexedMethod.Applies, IndexedMethod.kinds, Value.kind] at h
  | replaceAt replacement =>
      obtain ⟨hreceiver, hreplacement⟩ := h
      cases receiver with
      | text cell =>
          cases replacement with
          | text other => exact plansAt_replaceAt files s i cell other
          | _ => cases hreplacement
      | _ => simp [IndexedMethod.kinds, Value.kind] at hreceiver

end Plans

/-- A method that takes an index succeeds just when the index is an int within the length
of its receiver, and then it acts at that index alone. For a value of another kind it
fails with a type error, and for any other int it fails with the index and the length;
then nothing changes. -/
theorem indexed_methods_act_at_index
    (host : Host) (fuel scope : Nat) (s : State) {method : IndexedMethod}
    {receiver : Value} (i : Value) (h : method.Applies receiver) :
    let outcome := dispatch host (fuel + 3) scope receiver method.name
      (.ready (method.args i)) s
    let length := s.store.lengthOf receiver
    ((∃ v s', outcome = .done v s') ↔ ∃ n, s.store.int? i = some n ∧
      0 ≤ n.toInt ∧ n.toInt < length) ∧
    (∀ v s', outcome = .done v s' → ∃ n, s.store.int? i = some n ∧
      ActsAt s method receiver n.toInt.toNat v s') ∧
    (i.kind ≠ .int → outcome = .failed ⟨.unsuitable .intIndex i.kind, none⟩ s) ∧
    (∀ n, s.store.int? i = some n → ¬(0 ≤ n.toInt ∧ n.toInt < length) →
      outcome = .failed ⟨.indexOutOfBounds n.toInt length, none⟩ s) := by
  intro outcome length
  obtain ⟨op, effect, hplans⟩ := exists_plansAt host.files s i h
  have houtcome : outcome = _ := hplans.dispatch_eq host fuel scope
  have hfails {cause : Cause} (hindex : indexOf s.store i length = .error cause) :
      outcome = .failed ⟨cause, none⟩ s := by
    rw [houtcome, hindex]
  have hdone {index : Nat} (hindex : indexOf s.store i length = .ok index) :
      outcome = .done (s.store.commit (effect index)).1
        { s with store := (s.store.commit (effect index)).2 } := by
    rw [houtcome, hindex]
  have hindexed {v : Value} {s' : State} (hout : outcome = .done v s') :
      ∃ index, indexOf s.store i length = .ok index := by
    cases hindex : indexOf s.store i length with
    | ok index => exact ⟨index, rfl⟩
    | error cause => cases hout.symm.trans (hfails hindex)
  refine ⟨⟨?_, ?_⟩, ?_, fun hkind => hfails (indexOf_of_kind_ne hkind),
    fun n hn hout => hfails (indexOf_of_not_lt hn hout)⟩
  · rintro ⟨v, s', hout⟩
    obtain ⟨index, hindex⟩ := hindexed hout
    obtain ⟨n, hn, hbounds, -⟩ := exists_int_of_indexOf hindex
    exact ⟨n, hn, hbounds⟩
  · rintro ⟨n, hn, hbounds⟩
    exact ⟨_, _, hdone (indexOf_of_lt hn hbounds)⟩
  · intro v s' hout
    obtain ⟨index, hindex⟩ := hindexed hout
    obtain ⟨n, hn, ⟨hnonneg, hlt⟩, rfl⟩ := exists_int_of_indexOf hindex
    cases hout.symm.trans (hdone hindex)
    exact ⟨n, hn, hplans.acts _ (by omega)⟩

/-- In a text with characters of several bytes, the third one is replaced by a longer
text, which makes a new text; and the least int is no index. -/
theorem indexed_methods_act_at_index_wide :
    let s : State := { State.initial (.ofLines [] none) with
      store := { Store.empty with
        integers := ⟨#[2, Int64.minValue]⟩, texts := ⟨#["aé😀b", "xyz"]⟩ } }
    (∃ s', dispatch ⟨0, .empty, .asBound⟩ 3 globalScope (.text 0) "replaceAt"
        (.ready [.int 0, .text 1]) s = .done (.text 2) s' ∧
      s'.item? ⟨.text, 2⟩ = some (.text "aéxyzb") ∧
        s'.item? ⟨.text, 0⟩ = some (.text "aé😀b")) ∧
    dispatch ⟨0, .empty, .asBound⟩ 3 globalScope (.text 0) "get" (.ready [.int 1]) s =
      .failed ⟨.indexOutOfBounds (-9223372036854775808) 4, none⟩ s := by
  intro s
  have hreplace := indexed_methods_act_at_index ⟨0, .empty, .asBound⟩
      0 globalScope s (.int 0)
    (show (IndexedMethod.replaceAt (.text 1)).Applies
      (.text 0) from ⟨List.mem_cons_self, rfl⟩)
  have hget := indexed_methods_act_at_index ⟨0, .empty, .asBound⟩ 0 globalScope s (.int 1)
    (show IndexedMethod.get.Applies (.text 0) from List.mem_cons_self)
  have hlength : s.store.lengthOf (.text 0) = 4 := by decide +kernel
  have hchars : (s.store.texts.get 0).toList = ['a', 'é'] ++ '😀' :: ['b'] := by
    decide +kernel
  have hmade : String.ofList (['a', 'é'] ++ (s.store.texts.get 1).toList ++ ['b']) =
    "aéxyzb" := by decide +kernel
  rw [hlength] at hreplace hget
  refine ⟨?_, hget.2.2.2 Int64.minValue rfl (by decide)⟩
  obtain ⟨v, s', hrun⟩ := hreplace.1.mpr ⟨2, rfl, by decide, by decide⟩
  obtain ⟨n, hn, hacts⟩ := hreplace.2.1 v s' hrun
  cases hn
  cases hacts with
  | @replaced _ _ _ before after c _ _ hcontents hplace hmakes =>
      obtain ⟨rfl, hwrites⟩ := hmakes
      obtain ⟨rfl, hrest⟩ := List.append_inj (hchars.symm.trans hcontents) hplace.symm
      cases hrest
      rw [hmade] at hwrites
      exact ⟨s', hrun, hwrites.item? _, hwrites.item? _⟩

end HandleScript
