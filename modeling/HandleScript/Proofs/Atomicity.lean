import HandleScript.Proofs.Arguments
import HandleScript.Proofs.Heap
import HandleScript.Proofs.Plan

/-!
# Operations act on their receiver alone

A method treats its receiver in one of a few ways, which its name tells. An operation that
fails leaves everything as it was. One that succeeds changes no cell that was there
before, except that some change the cell of their receiver; and what it gives back is the
receiver, an element of the receiver or something new.
-/

namespace HandleScript

/-- How the method of a name treats a receiver of a kind. -/
def Kind.treatment (kind : Kind) (method : String) : Treatment :=
  if method ∈ ["set", "increment", "decrement", "plusAssign", "minusAssign",
      "multiplyAssign", "divideAssign", "add"] then
    .changes
  else if method ∈ ["remove", "moveNext"] then .takes
  else if method = "get" ∧ (kind = .list ∨ kind = .array) then .reads
  else if method = "File" then .opens
  else .makes

/-- Whether the receiver's cell may change. -/
def Treatment.mutates : Treatment → Bool
  | makes => false
  | opens => false
  | reads => false
  | changes => true
  | takes => true

/-- The elements that a container holds or that an iterator goes through. -/
def Store.elementsOf (store : Store) : Value → Array Value
  | .list cell => store.elements cell
  | .array cell => store.elements cell
  | .iterator cell => store.elements (store.cursors.get cell).items
  | _ => #[]

/-- What a method gives back, by how it treats its receiver. -/
def Treatment.Returns
    (treatment : Treatment) (before after : Store) (receiver : Value) (args : List Value)
    (v : Value) : Prop :=
  match treatment with
  | makes => ∃ loc, v.loc? = some loc ∧ before.item? loc = none ∧ (after.item? loc).isSome
  | opens =>
    ∃ operand path, args = [operand] ∧ before.text? operand = some path ∧ v = .file path
  | reads => v ∈ before.elementsOf receiver
  | changes => v = receiver
  | takes => v ∈ before.elementsOf receiver

/-- The call is for a new array with more slots than a block of memory holds. -/
def AsksTooMuch (store : Store) (receiver : Value) (method : String) (args : List Value) :
    Prop :=
  receiver = .factory ∧ method = "array" ∧
    ∃ size slots, args = [size] ∧ slotsOf store size = .ok slots ∧
      largestBlock < slots * slotBytes

/-- The outcome of a method that acts on its receiver alone, treating it as its name
tells. -/
def ActsAlone (s : State) (receiver : Value) (method : String) (args : List Value) :
    Outcome State Failure Value → Prop
  | .failed _ s' => s' = s
  | .done v s' =>
    s' = { s with store := s'.store } ∧
    (∀ loc, (s.store.item? loc).isSome →
      (receiver.loc? = some loc → (receiver.kind.treatment method).mutates = false) →
      s'.store.item? loc = s.store.item? loc) ∧
    (receiver.kind.treatment method).Returns s.store s'.store receiver args v
  | .crashed s' => s' = s ∧ AsksTooMuch s.store receiver method args
  | .exhausted => False

/-! ## Effects -/

namespace Store

theorem item?_write_of_ne (store : Store) {v : Value} (content : Content) {loc : Loc}
    (h : v.loc? ≠ some loc) : (store.write v content).item? loc = store.item? loc := by
  obtain ⟨region, n⟩ := loc
  cases hsuits : content.suits v.kind with
  | false => rw [write_of_not_suits store hsuits]
  | true =>
      rcases cases_of_suits hsuits with
        ⟨cell, x, rfl, rfl⟩ | ⟨cell, x, rfl, rfl⟩ | ⟨cell, x, rfl, rfl⟩ |
          ⟨cell, x, rfl, rfl⟩ | ⟨cell, x, rfl, rfl⟩ <;>
        cases region <;> simp_all [Value.loc?, write, item?, Pool.set]

theorem item?_modifyItems_of_ne
    (store : Store) {cell : Nat} (f : Array Value → Array Value) {loc : Loc}
    (h : loc ≠ ⟨.items, cell⟩) :
    item? { store with items := store.items.modify cell f } loc = store.item? loc := by
  obtain ⟨region, n⟩ := loc
  cases region with
  | items =>
      have hcell : cell ≠ n := fun heq => h (heq ▸ rfl)
      simp [item?, Pool.modify, Array.getElem?_modify, hcell]
  | scope | integer | double | bool | text | cursor | closure => rfl

theorem item?_modifyCursors_of_ne
    (store : Store) {cell : Nat} (f : Cursor → Cursor) {loc : Loc}
    (h : loc ≠ ⟨.cursor, cell⟩) :
    item? { store with cursors := store.cursors.modify cell f } loc =
      store.item? loc := by
  obtain ⟨region, n⟩ := loc
  cases region with
  | cursor =>
      have hcell : cell ≠ n := fun heq => h (heq ▸ rfl)
      simp [item?, Pool.modify, Array.getElem?_modify, hcell]
  | scope | integer | double | bool | text | items | closure => rfl

theorem item?_alloc_of_isSome (store : Store) (content : Content) {loc : Loc}
    (h : (store.item? loc).isSome) :
    (store.alloc content).2.item? loc = store.item? loc := by
  have hne : loc ≠ store.next content.region := by
    rintro rfl
    rw [item?_next] at h
    cases h
  rw [item?_alloc, if_neg hne]

/-- The handle of a new cell names a place that was free. -/
theorem returns_alloc (store : Store) (content : Content) :
    ∃ loc, (store.alloc content).1.loc? = some loc ∧ store.item? loc = none ∧
      ((store.alloc content).2.item? loc).isSome := by
  refine ⟨store.next content.region, store.loc?_alloc content, store.item?_next _, ?_⟩
  rw [item?_alloc, if_pos rfl, Option.isSome_some]

theorem item?_allocTexts_of_isSome (store : Store) (parts : List String) {loc : Loc}
    (h : (store.item? loc).isSome) :
    (store.allocTexts parts).2.item? loc = store.item? loc := by
  induction parts generalizing store with
  | nil => rfl
  | cons part rest ih =>
      have hfirst := store.item?_alloc_of_isSome (.text part) h
      exact (ih (store.alloc (.text part)).2 (by rwa [hfirst])).trans hfirst

end Store

theorem elementAt_mem {elements : Array Value} {index : Nat} (h : index < elements.size) :
    elementAt elements index ∈ elements := by
  rw [elementAt, Array.getD_eq_getD_getElem?, Array.getElem?_eq_getElem h]
  exact Array.getElem_mem h

theorem Value.loc?_of_container? {v : Value} {cell : Nat}
    (h : Store.container? v = some cell) : v.loc? = some ⟨.items, cell⟩ := by
  cases v with
  | list | array =>
      cases h
      rfl
  | _ => cases h

theorem Store.elementsOf_of_container? (store : Store) {v : Value} {cell : Nat}
    (h : Store.container? v = some cell) : store.elementsOf v = store.elements cell := by
  cases v with
  | list | array =>
      cases h
      rfl
  | _ => cases h

/-- No cell that was there changes, except that of a receiver which is changed or taken
from. -/
theorem Arises.item?_commit
    {store : Store} {receiver : Value} {args : List Value} {op : Operation}
    {sketch : Sketch} {effect : Effect} (h : Arises store receiver args op sketch effect)
    {loc : Loc} (hthere : (store.item? loc).isSome)
    (hother : receiver.loc? = some loc → op.treatment.mutates = false) :
    (store.commit effect).2.item? loc = store.item? loc := by
  have hitems : ∀ {cell} f, Store.container? receiver = some cell →
      op.treatment.mutates = true →
      Store.item? { store with items := store.items.modify cell f } loc =
        store.item? loc := by
    intro cell f hcell hmutates
    refine store.item?_modifyItems_of_ne f ?_
    rintro rfl
    rw [hother (Value.loc?_of_container? hcell)] at hmutates
    cases hmutates
  cases h with
  | scalar | list | array | copyList | copyArray | iterator =>
      exact store.item?_alloc_of_isSome _ hthere
  | texts parts =>
      have htexts := store.item?_allocTexts_of_isSome parts hthere
      exact (Store.item?_alloc_of_isSome _ _ (by rwa [htexts])).trans htexts
  | file | self | element => rfl
  | write _ changes =>
      refine store.item?_write_of_ne _ fun hloc => ?_
      have hkept := hother hloc
      rw [changes] at hkept
      cases hkept
  | setItem hcell => exact hitems _ hcell rfl
  | addItem hcell => exact hitems _ hcell rfl
  | removeItem hcell => exact hitems _ hcell rfl
  | advance hreceiver =>
      subst hreceiver
      refine store.item?_modifyCursors_of_ne _ ?_
      rintro rfl
      cases hother rfl

/-- What the effect gives back is what its operation is to give back. -/
theorem Arises.returns
    {store : Store} {receiver : Value} {args : List Value} {op : Operation}
    {sketch : Sketch} {effect : Effect} (h : Arises store receiver args op sketch effect)
    (hcopy : op = .eager (.common .copy) → (store.copyContent? receiver).isSome) :
    op.treatment.Returns store (store.commit effect).2 receiver args
      (store.commit effect).1 := by
  cases h with
  | scalar _ makes =>
      rw [makes]
      exact store.returns_alloc _
  | texts parts makes =>
      -- The texts are no lists, so the place of the new list was free before they were
      -- made.
      rw [makes]
      have hitems := (store.allocTexts_scalar parts).1
      obtain ⟨loc, hloc, hfree, hthere⟩ :=
        (store.allocTexts parts).2.returns_alloc
          (.list (store.allocTexts parts).1.toArray)
      refine ⟨loc, hloc, ?_, hthere⟩
      cases hloc
      rw [← hfree]
      simp only [Store.item?, hitems]
  | list | array | copyList | copyArray | iterator => exact store.returns_alloc _
  | file hargs htext => exact ⟨_, _, hargs, htext, rfl⟩
  | self hnone =>
      have hsome := hcopy rfl
      rw [hnone] at hsome
      cases hsome
  | element hcell hindex =>
      change _ ∈ store.elementsOf receiver
      rw [store.elementsOf_of_container? hcell]
      exact elementAt_mem hindex
  | write _ changes =>
      rw [changes]
      rfl
  | setItem | addItem => rfl
  | removeItem hcell hindex =>
      change _ ∈ store.elementsOf receiver
      rw [store.elementsOf_of_container? hcell]
      exact elementAt_mem hindex
  | advance hreceiver hnext =>
      subst hreceiver
      exact elementAt_mem hnext

/-! ## Operations -/

/-- The name of a method tells how its operation treats the receiver; and only what has a
payload can be copied. -/
theorem Kind.treatment_of_operation?
    {kind : Kind} {method : String} {op : Operation}
    (h : kind.operation? method = some op) :
    op.treatment = kind.treatment method ∧
        (op = .invoke → kind = .lambda ∧ method = "invoke") ∧
      (op = .common .copy →
        kind ∈ [.int, .long, .double, .bool, .text, .list, .array]) := by
  have hall : ∀ entry ∈ kind.operations,
      entry.2.treatment = kind.treatment entry.1 ∧
          (entry.2 = .invoke → kind = .lambda ∧ entry.1 = "invoke") ∧
        (entry.2 = .common .copy →
          kind ∈ [.int, .long, .double, .bool, .text, .list, .array]) := by
    cases kind <;> decide
  exact hall _ (Kind.mem_operations h)

/-- Arrays are made by one method alone. -/
theorem Kind.eq_factory_of_array
    {kind : Kind} {method : String}
    (h : kind.operation? method = some (.eager (.factory .array))) :
    kind = .factory ∧ method = "array" := by
  have hall : ∀ entry ∈ kind.operations, entry.2 = .eager (.factory .array) →
      kind = .factory ∧ entry.1 = "array" := by
    cases kind <;> decide
  exact hall _ (Kind.mem_operations h) rfl

theorem Value.eq_factory_of_kind {v : Value} (h : v.kind = .factory) : v = .factory := by
  cases v <;> cases h
  rfl

theorem Store.isSome_copyContent?
    (store : Store) {v : Value}
    (h : v.kind ∈ [Kind.int, .long, .double, .bool, .text, .list, .array]) :
    (store.copyContent? v).isSome := by
  cases v with
  | int | long | double | bool | text | list | array => rfl
  | iterator | file | lambda | void | dispatcher | factory => simp [Value.kind] at h

/-- What becomes of a method on evaluated arguments, other than the call of a function
literal: it fails, or asks for more than there can be, and changes nothing; or it carries
out an effect of the operation that it names. -/
inductive Performs (s : State) (receiver : Value) (method : String) (args : List Value) :
    Outcome State Failure Value → Prop
  | failed (failure : Failure) : Performs s receiver method args (.failed failure s)
  | crashed (asks : AsksTooMuch s.store receiver method args) :
      Performs s receiver method args (.crashed s)
  | done {op : Operation} {sketch : Sketch} {effect : Effect}
      (found : receiver.kind.operation? method = some op)
      (arises : Arises s.store receiver args op sketch effect) :
      Performs s receiver method args
        (.done (s.store.commit effect).1 { s with store := (s.store.commit effect).2 })

theorem performs_carryOut
    {plan : Store → Plan} {s : State} {receiver : Value} {method : String}
    {args : List Value} {op : Operation} {causes : Cause → Prop}
    (hfound : receiver.kind.operation? method = some op)
    (h : Yields (op.Allows s.store receiver args) causes (plan s.store)) :
    Performs s receiver method args (Run.carryOut plan s) := by
  unfold Run.carryOut
  cases hplan : plan s.store with
  | error cause => exact .failed _
  | ok effect =>
      rw [hplan] at h
      obtain ⟨sketch, harises⟩ := h
      dsimp only
      split
      next hfits => exact .done hfound harises
      next hlarge =>
        obtain hfits | ⟨rfl, size, slots, hargs, hslots, rfl⟩ := harises.fits_or_array
        · exact absurd hfits hlarge
        · obtain ⟨hfactory, hmethod⟩ := Kind.eq_factory_of_array hfound
          refine .crashed ⟨Value.eq_factory_of_kind hfactory, hmethod, size,
            slots, hargs, hslots, ?_⟩
          simpa [Effect.fits] using hlarge

theorem dispatch_performs
    (host : Host) (fuel scope : Nat) (s : State) {receiver : Value} {method : String}
    (args : List Value) (hreceiver : receiver ≠ .dispatcher)
    (hmethod : ¬(receiver.kind = .lambda ∧ method = "invoke")) :
    Performs s receiver method args
      (dispatch host (fuel + 3) scope receiver method (.ready args) s) := by
  by_cases hvoid : receiver = .void
  · subst hvoid
    exact .failed _
  · cases hfound : receiver.kind.operation? method with
    | none =>
        rw [dispatch_eq_dispatchKind host _ scope method _ hvoid hreceiver,
          dispatchKind, hfound]
        exact .failed _
    | some op =>
        by_cases haccepts : op.accepts (Arguments.ready args).count = true
        · cases op with
          | invoke => exact absurd ((Kind.treatment_of_operation? hfound).2.1 rfl) hmethod
          | eager op =>
              rw [dispatch_of_eager hfound haccepts]
              exact performs_carryOut hfound
                (op.plan_allows s.store receiver method args host.files)
          | connective op =>
              rw [dispatch_of_found hfound haccepts]
              cases hdecided : (s.store.bool? receiver).filter op.decidedBy with
              | some b =>
                  rw [operate_decided host (fuel + 1) hdecided]
                  have harises : Arises s.store receiver args (.connective op)
                      (.scalar (.bool b)) (.fresh (.bool b)) :=
                    .scalar trivial rfl
                  exact .done hfound harises
              | none =>
                  rw [operate_undecided host (fuel + 1) hdecided]
                  change Performs s receiver method args
                    (Run.carryOut (fun store => Connective.plan store method args) s)
                  exact performs_carryOut hfound
                    (op.plan_allows s.store receiver method args)
        · rw [dispatch_eq_dispatchKind host _ scope method _ hvoid hreceiver,
            dispatchKind, hfound]
          simp only [haccepts]
          exact .failed _

theorem Performs.acts
    {s : State} {receiver : Value} {method : String} {args : List Value}
    {o : Outcome State Failure Value} (h : Performs s receiver method args o) :
    ActsAlone s receiver method args o := by
  cases h with
  | failed => rfl
  | crashed asks => exact ⟨rfl, asks⟩
  | done found arises =>
      obtain ⟨htreatment, -, hcopy⟩ := Kind.treatment_of_operation? found
      rw [ActsAlone, ← htreatment]
      refine ⟨rfl, fun loc hthere hother => arises.item?_commit hthere hother, ?_⟩
      exact arises.returns fun hop => s.store.isSome_copyContent? (hcopy hop)

/-- A method with evaluated arguments, other than calling a function literal, acts on its
receiver alone: when it fails, nothing has changed; when it succeeds, no cell has changed
that was there before, except the receiver's own for those methods that change it, and it
gives back what its name tells; and it crashes only when it asks for too large an
array. -/
theorem methods_act_on_receiver_alone
    (host : Host) (fuel scope : Nat) (s : State) {receiver : Value} {method : String}
    (args : List Value) (hreceiver : receiver ≠ .dispatcher)
    (hmethod : ¬(receiver.kind = .lambda ∧ method = "invoke")) :
    ActsAlone s receiver method args
      (dispatch host (fuel + 3) scope receiver method (.ready args) s) :=
  (dispatch_performs host fuel scope s args hreceiver hmethod).acts

/-- A list gives its only element back when it is taken out by an index that is the
element itself, and the element stays what it was. -/
theorem methods_act_on_receiver_alone_removal :
    let s : State := { State.initial (.ofLines [] none) with
      store := { Store.empty with integers := ⟨#[0]⟩, items := ⟨#[#[.int 0]]⟩ } }
    ∃ s', dispatch ⟨0, .empty, .asBound⟩ 3 globalScope (.list 0) "remove"
        (.ready [.int 0]) s = .done (.int 0) s' ∧
      Value.int 0 ∈ s.store.elementsOf (.list 0) ∧
        s'.store.item? ⟨.integer, 0⟩ = some (.integer 0) := by
  intro s
  have hfound : (Value.list 0).kind.operation? "remove" = some (.growth .remove) := by
    decide
  have hrun : dispatch ⟨0, .empty, .asBound⟩ 3 globalScope
      (.list 0) "remove" (.ready [.int 0]) s =
      .done (.int 0) { s with store := { s.store with items := ⟨#[#[]]⟩ } } := by
    rw [dispatch_of_eager hfound rfl]
    with_unfolding_all rfl
  have hacts := methods_act_on_receiver_alone ⟨0, .empty, .asBound⟩ 0 globalScope s
      [.int 0] (show Value.list 0 ≠ _ from nofun)
    (show ¬(_ ∧ "remove" = _) from nofun)
  rw [hrun] at hacts
  obtain ⟨-, hkept, helement⟩ := hacts
  exact ⟨_, hrun, helement, hkept ⟨.integer, 0⟩ rfl nofun⟩

end HandleScript
