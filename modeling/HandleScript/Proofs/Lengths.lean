import HandleScript.Proofs.Arrays
import HandleScript.Proofs.Chains
import HandleScript.Proofs.Requests

/-!
# The lengths of containers

Lists and arrays share one pool of cells and most of their operations, and handles to them
travel through scopes, containers, closures and the hands of the host. Still no container
ever has both a list's and an array's handle, so that no code changes the length of an
array, and the length of a list changes by one with each `add` and each `remove` that
succeeds on a handle of that list, and in no other way.
-/

namespace HandleScript

/-! ## What operations do to lengths -/

namespace Store

variable {store store' store'' : Store} {change change' : Nat → Int}

/-- All containers of the first store are in the second one, where the length of each is
larger by the given number. -/
def Lengthens (store : Store) (change : Nat → Int) (store' : Store) : Prop :=
  ∀ cell, cell < store.items.size →
    cell < store'.items.size ∧
      ((store'.elements cell).size : Int) = (store.elements cell).size + change cell

theorem Lengthens.of_items_eq (h : store'.items = store.items) :
    store.Lengthens (fun _ => 0) store' := by
  intro cell hcell
  rw [elements, h]
  exact ⟨hcell, (Int.add_zero _).symm⟩

/-- A new container leaves the lengths of the others. -/
theorem Lengthens.of_push {elements : Array Value}
    (h : store'.items = store.items.push elements) :
    store.Lengthens (fun _ => 0) store' := by
  intro cell hcell
  have hne : cell ≠ store.items.size := Nat.ne_of_lt hcell
  rw [Store.elements, h, Pool.get_push, if_neg hne]
  refine ⟨?_, (Int.add_zero _).symm⟩
  simp only [Pool.size, Pool.push, Array.size_push] at hcell ⊢
  exact Nat.lt_succ_of_lt hcell

/-- Where one container is changed, its length is the only one that may change. -/
theorem Lengthens.of_modify
    {target : Nat} {f : Array Value → Array Value}
    (h : store'.items = store.items.modify target f)
    (htarget : ((f (store.elements target)).size : Int) =
      (store.elements target).size + change target)
    (hother : ∀ cell, cell ≠ target → change cell = 0) :
    store.Lengthens change store' := by
  intro cell hcell
  have hsize : store'.items.size = store.items.size := by
    rw [h]
    simp only [Pool.size, Pool.modify, Array.size_modify]
  refine ⟨Nat.lt_of_lt_of_eq hcell hsize.symm, ?_⟩
  rw [elements, h]
  by_cases heq : cell = target
  · subst heq
    rw [Pool.get_modify _ _ hcell]
    exact htarget
  · have hsame : (store.items.modify target f).get cell = store.elements cell := by
      simp only [elements, Pool.get, Pool.modify, Array.getD_eq_getD_getElem?,
        Array.getElem?_modify, if_neg (Ne.symm heq)]
    rw [hsame, hother cell heq, Int.add_zero]

theorem Lengthens.trans (h : store.Lengthens change store')
    (h' : store'.Lengthens change' store'') :
    store.Lengthens (fun cell => change cell + change' cell) store'' := by
  intro cell hcell
  obtain ⟨hcell', hlength⟩ := h cell hcell
  obtain ⟨hcell'', hlength'⟩ := h' cell hcell'
  exact ⟨hcell'', by rw [hlength', hlength, Int.add_assoc]⟩

end Store

/-- By how much an operation changes the length of its list. -/
def GrowthOp.change : GrowthOp → Int
  | add => 1
  | remove => -1

/-- Only the operations of growth change a length. -/
theorem Arises.lengthens
    {store : Store} {receiver : Value} {args : List Value} {op : EagerOp}
    {sketch : Sketch} {effect : Effect}
    (h : Arises store receiver args (.eager op) sketch effect)
    (hop : ∀ growth, op ≠ .growth growth) :
    store.Lengthens (fun _ => 0) (store.commit effect).2 := by
  cases h with
  | scalar hscalar => exact .of_items_eq (store.alloc_scalar hscalar).1
  | write => exact .of_items_eq (store.write_scalar _ _).1
  | file | self | element | iterator | advance => exact .of_items_eq rfl
  | list | array | copyList | copyArray => exact .of_push rfl
  | texts parts =>
      have hitems := (store.allocTexts_scalar parts).1
      have hpush : (store.commit (.freshTexts parts)).2.items =
          store.items.push (store.allocTexts parts).1.toArray := by
        rw [← hitems]
        rfl
      exact .of_push hpush
  | setItem =>
      refine .of_modify rfl ?_ fun _ _ => rfl
      rw [Array.size_setIfInBounds, Int.add_zero]
  | addItem => exact absurd rfl (hop .add)
  | removeItem => exact absurd rfl (hop .remove)

/-- An operation of growth that succeeds on a list changes its length by one, and no other
length. -/
theorem GrowthOp.plan_lengthens
    {op : GrowthOp} {store : Store} {cell : Nat} {method : String} {args : List Value}
    {effect : Effect} (h : op.plan store (.list cell) method args = .ok effect) :
    store.Lengthens (fun other => if other = cell then op.change else 0)
      (store.commit effect).2 := by
  obtain ⟨found, hfound, hplan⟩ := except_bind_eq_ok h
  cases hfound
  rcases args with _ | ⟨arg, _ | ⟨_, _⟩⟩
  · cases op <;> cases hplan
  · cases op with
    | add =>
        cases hplan
        refine .of_modify rfl ?_ fun other hother => if_neg hother
        rw [if_pos rfl, Array.size_push]
        rfl
    | remove =>
        obtain ⟨index, hindex, hremove⟩ := except_bind_eq_ok hplan
        cases hremove
        have hlt := indexOf_lt hindex
        refine .of_modify rfl ?_ fun other hother => if_neg hother
        rw [if_pos rfl, Array.eraseIdxIfInBounds, dif_pos hlt,
          Array.size_eraseIdx, GrowthOp.change]
        omega
  · cases op <;> cases hplan

/-! ## What running code does to lengths -/

namespace Job

/-- By how much an act of the job changes the length of the container with this cell. -/
def growth (cell : Nat) : Job → Int
  | operate (.eager (.growth op)) (.list target) _ _ =>
    if cell = target then op.change else 0
  | _ => 0

/-- By how much acts of these jobs, one after the other, change the length of the
container with this cell. -/
def growthAll (cell : Nat) : List Job → Int
  | [] => 0
  | job :: jobs => job.growth cell + growthAll cell jobs

/-- The operations of growth are done on lists only. -/
def GrowsLists : Job → Prop
  | operate op receiver _ _ => op.grows = true → receiver.kind = .list
  | _ => True

variable {host : Host} {fuel : Nat} {job job' : Job} {s s' t t' : State}

/-- The evaluator finds an operation of growth for lists only. -/
theorem Calls.growsLists (h : Calls host fuel job s job' s') : job'.GrowsLists := by
  cases h with
  | operation _ _ found => exact fun hgrows => Kind.eq_list_of_grows found hgrows
  | started hstarts =>
      induction hstarts with
      | expr | stmt => trivial
      | afterExpr _ _ ih => exact ih
      | afterStmt _ _ _ ih => exact ih
  | _ => trivial

theorem Active.growsLists
    {entered left : Nat} {last : Job} (h : Active host fuel job s entered left last t)
    (hjob : job.GrowsLists) : last.GrowsLists := by
  induction h with
  | here => exact hjob
  | inside calls _ ih => exact ih calls.growsLists

/-- An act that is no operation on evaluated arguments changes no length. -/
theorem Change.lengthens
    (h : Change job s t t')
    (hjob : ∀ op receiver method args, job ≠ .operate (.eager op) receiver method args) :
    t.store.Lengthens (fun _ => 0) t'.store := by
  cases h with
  | scalar content console hscalar => exact .of_items_eq (t.store.alloc_scalar hscalar).1
  | operation heq => exact absurd heq (hjob _ _ _ _)
  | console | lambda | enter | leave | opened | define => exact .of_items_eq rfl

theorem growth_eq_zero
    (h : ∀ op receiver method args, job ≠
      .operate (.eager (.growth op)) receiver method args) :
    (fun cell => job.growth cell) = fun _ => 0 := by
  funext cell
  unfold growth
  split
  · exact absurd rfl (h _ _ _ _)
  · rfl

/-- An operation on evaluated arguments changes the length of its receiver if it is one of
growth, and no other. -/
theorem lengthens_of_eager
    {op : EagerOp} {receiver : Value} {method : String} {values : List Value}
    {effect : Effect} {store : Store}
    (planned : op.plan host.files store receiver method values = .ok effect)
    (args : Arguments)
    (hjob : (Job.operate (.eager op) receiver method args).GrowsLists) :
    store.Lengthens
        (fun cell => (Job.operate (.eager op) receiver method args).growth cell)
      (store.commit effect).2 := by
  by_cases hop : ∃ growth, op = .growth growth
  · obtain ⟨growth, rfl⟩ := hop
    have hkind : receiver.kind = .list := hjob rfl
    cases receiver with
    | list cell => exact GrowthOp.plan_lengthens planned
    | int | long | double | bool | text | array | iterator | file | lambda | void
    | dispatcher | factory =>
        cases hkind
  · have hother : ∀ growth, op ≠ .growth growth := fun growth heq => hop ⟨growth, heq⟩
    have hallows := op.plan_allows store receiver method values host.files
    rw [planned] at hallows
    obtain ⟨sketch, harises⟩ := hallows
    rw [growth_eq_zero]
    · exact harises.lengthens hother
    · intro growth _ _ _ heq
      cases heq
      exact hother growth rfl

theorem Acts.lengthens (h : Acts host fuel job s t t') (hjob : job.GrowsLists) :
    t.store.Lengthens (fun cell => job.growth cell) t'.store := by
  by_cases hop : ∃ op receiver method args, job =
    .operate (.eager op) receiver method args
  · obtain ⟨op, receiver, method, args, rfl⟩ := hop
    cases h with
    | eager _ planned => exact lengthens_of_eager planned args hjob
  · have hother : ∀ op receiver method args, job ≠
        .operate (.eager op) receiver method args :=
      fun op receiver method args heq => hop ⟨op, receiver, method, args, heq⟩
    rw [growth_eq_zero fun growth => hother (.growth growth)]
    exact h.change.lengthens hother

/-- A sequence of acts changes lengths by what each of them does. -/
theorem Trace.lengthens
    {actors : List Job} (h : Trace host fuel job s t actors t') (hjob : job.GrowsLists) :
    t.store.Lengthens (fun cell => growthAll cell actors) t'.store := by
  induction h with
  | nil => exact .of_items_eq rfl
  | cons step _ ih =>
      obtain ⟨active, acts⟩ := step
      exact (acts.lengthens (active.growsLists hjob)).trans ih

end Job

/-! ## Lists and arrays apart -/

/-- The given kinds tell lists and arrays apart: all handles in the state agree with them,
and no container is both. -/
structure State.SortedBy (s : State) (kinds : Nat → Kind → Prop) : Prop where
  sane : s.Sane
  fits : ∀ v, s.Mentions v → v.Fits kinds
  apart : ∀ cell, (s.item? ⟨.items, cell⟩).isSome →
    ¬(kinds cell .list ∧ kinds cell .array)

/-- All places of the state correspond to themselves, with handles of the given kinds. -/
def State.under (s : State) (kinds : Nat → Kind → Prop) : Renaming :=
  .beside (fun loc => (s.item? loc).isSome) (fun _ => False) kinds

section Sorted

variable {s s' t t' : State} {kinds : Nat → Kind → Prop} {ρ ρ' : Renaming} {v w : Value}

theorem State.SortedBy.related (h : s.SortedBy kinds) : Related (s.under kinds) s s := by
  obtain ⟨hwell, -⟩ := h.sane
  refine hwell.closed_all.related_beside ?_ _ hwell.linked hwell.linked
    (fun _ _ => rfl) rfl rfl rfl
  intro loc x v _ hx hv
  exact h.fits v ⟨loc, x, hx, hv⟩

/-- A handle that corresponds to some handle names a cell that exists, and is of its
kind. -/
theorem Renaming.OnValues.under (h : ρ.OnValues v w) (hrelated : Related ρ s t) :
    (s.under ρ.kinds).OnValues v v := by
  refine onValues_beside _ ?_ h.fits
  intro loc hloc
  obtain ⟨b, hb⟩ := h.domain hloc
  exact hrelated.isSome_left hb

/-- What has been sorted stays so, and what is new is sorted as well. -/
theorem State.SortedBy.later
    (h : s.SortedBy kinds) (hgrown : Extends (s.under kinds) s s ρ' s' s')
    (hrelated : Related ρ' s' s') : s'.SortedBy ρ'.kinds := by
  constructor
  · exact ⟨hgrown.wellFormed hrelated, Nat.lt_of_lt_of_le h.sane.2 hgrown.left.size_le⟩
  · rintro v ⟨loc, x, hx, hv⟩
    have hloc := hgrown.domain_of_isSome (Option.isSome_iff_exists.mpr ⟨x, hx⟩)
    obtain ⟨w, hw⟩ := hrelated.exists_onValues hgrown.not_hidden hloc hx hv
    exact hw.fits
  · rintro cell hcell ⟨hlist, harray⟩
    obtain ⟨b, hb⟩ := hgrown.domain_of_isSome hcell
    rcases hgrown.sorted hb with hold | hnew
    · have hkinds := hgrown.grows.kinds hold
      exact h.apart cell hold.2 ⟨(hkinds .list).mp hlist, (hkinds .array).mp harray⟩
    · exact hnew ⟨hlist, harray⟩

theorem State.SortedBy.onValues_of_mentions (h : s.SortedBy kinds) (hv : s.Mentions v) :
    (s.under kinds).OnValues v v := by
  obtain ⟨loc, x, hx, hholds⟩ := hv
  have hloc : (s.under kinds).Domain loc :=
    ⟨loc.number, rfl, Option.isSome_iff_exists.mpr ⟨x, hx⟩⟩
  obtain ⟨w, hw⟩ := h.related.exists_onValues (fun _ => id) hloc hx hholds
  exact hw.under h.related

/-- No container has both a list's and an array's handle. -/
theorem State.SortedBy.not_both
    (h : s.SortedBy ρ.kinds) (hrelated : Related ρ s s) {cell : Nat}
    (hlist : ρ.OnValues (.list cell) v) (harray : ρ.OnValues (.array cell) w) :
    False := by
  cases hlist with
  | list hcell hkind =>
      exact h.apart cell (hrelated.isSome_left hcell) ⟨hkind, harray.fits⟩

/-- What has an array's handle keeps its length. -/
theorem State.SortedBy.array_length
    (h : s.SortedBy ρ.kinds) (hrelated : Related ρ s s) (hgrown : Extends ρ s s ρ' s' s')
    {cell : Nat} (harray : ρ.OnValues (.array cell) w) :
    (s'.store.elements cell).size = (s.store.elements cell).size := by
  cases harray with
  | array hcell hkind =>
      refine hgrown.lengths hcell ?_
      intro hlist
      exact h.apart cell (hrelated.isSome_left hcell) ⟨hlist, hkind⟩

end Sorted

/-! ## Whole histories -/

/-- The handles in what a host makes. -/
def Content.elements : Content → List Value
  | list elements => elements.toList
  | array elements => elements.toList
  | _ => []

/-- The handles that the host gives with a request. -/
def Request.handles : Request → List Value
  | .host (.call _ _ values) => values
  | .host (.make content _) => content.elements
  | .host (.define _ v) => [v]
  | _ => []

/-- The container over which the host makes an iterator. -/
def Request.container? : Request → Option Nat
  | .host (.make (.iterator cell) _) => some cell
  | _ => none

namespace Interpreter

/-- The host has been handed this value. -/
def Held (past : Past) (v : Value) : Prop :=
  ∃ i request, (i, request) ∈ past ∧ i.HandsOut request v

/-- The handle is in the hands of the host or somewhere in the state. -/
def Known (past : Past) (i : Interpreter) (v : Value) : Prop :=
  Held past v ∨ i.state.Mentions v

/-- The request names nothing but what there is: handles that are known, or that name no
cell, scopes, and containers to iterate over. -/
structure Proper (past : Past) (i : Interpreter) (request : Request) : Prop where
  handles : ∀ v ∈ request.handles, v.loc? = none ∨ Known past i v
  scope : i.HasScope request
  container : ∀ cell, request.container? = some cell →
    (i.state.item? ⟨.items, cell⟩).isSome

theorem Proper.of_plain
    {past : Past} {i : Interpreter} {request : Request} (hhandles : request.handles = [])
    (hcontainer : request.container? = none) (hscope : i.HasScope request) :
    Proper past i request := by
  refine ⟨?_, hscope, ?_⟩
  · intro v hv
    rw [hhandles] at hv
    cases hv
  · intro cell hcell
    rw [hcontainer] at hcell
    cases hcell

/-- The kinds tell lists and arrays apart, also among the handles in the hands of the
host. -/
structure SortedBy (past : Past) (i : Interpreter) (kinds : Nat → Kind → Prop) :
    Prop where
  state : i.state.SortedBy kinds
  held : ∀ v, Held past v → (i.state.under kinds).OnValues v v

variable {past : Past} {i i' : Interpreter} {request : Request}
  {kinds : Nat → Kind → Prop}

theorem SortedBy.onValues (h : SortedBy past i kinds) {v : Value} (hv : Known past i v) :
    (i.state.under kinds).OnValues v v := by
  rcases hv with hheld | hmentions
  · exact h.held v hheld
  · exact h.state.onValues_of_mentions hmentions

theorem SortedBy.onHandles (h : SortedBy past i kinds) (hproper : Proper past i request)
    {v : Value} (hv : v ∈ request.handles) : (i.state.under kinds).OnValues v v := by
  rcases hproper.handles v hv with hnone | hknown
  · refine Renaming.onValues_beside _ ?_ ?_
    · intro loc hloc
      rw [hnone] at hloc
      cases hloc
    · cases v <;> trivial
  · exact h.onValues hknown

/-- A job that a proper request sets off suits the state that it is done from. -/
theorem SortedBy.suits
    (h : SortedBy past i kinds) (hproper : Proper past i request) {fuel : Nat} {job : Job}
    {s : State} (hsets : i.SetsOff request fuel job s)
    (hs : Related (i.state.under kinds) s s) : job.Suits (i.state.under kinds) s := by
  have hsees : ∀ scope names, scope < i.state.scopes.size →
      (i.state.under kinds).Sees scope scope names :=
    fun scope names hscope =>
      ⟨⟨rfl, State.isSome_item?_scope.mpr hscope⟩, fun _ _ => trivial⟩
  have hroots := (hsees globalScope [] h.state.sane.2).onRoots hs
  cases hsets with
  | run => exact ⟨hroots, .ready .nil⟩
  | call =>
      exact ⟨hroots, .ready (List.forall₂_same.mpr fun v hv => h.onHandles hproper hv)⟩
  | input => exact hsees _ _ hproper.scope
  | statements => exact hsees _ _ hproper.scope

/-- From the interpreter's state beside itself the request leads to a state beside itself,
in which what the request hands out corresponds to itself. -/
def LeadsBeside (i : Interpreter) (request : Request) (ρ : Renaming) (s : State)
    (i' : Interpreter) : Prop :=
  ∃ ρ', Extends ρ s s ρ' i'.state i'.state ∧ Related ρ' i'.state i'.state ∧
    ∀ v, i.HandsOut request v → ρ'.OnValues v v

theorem LeadsBeside.of_ends
    {α : Type} {R : Renaming → α → α → Prop} {give : α → Option Value} {ρ : Renaming}
    {s : State} {o : Outcome State Failure α} (h : Ends ρ s s R o o)
    (hanswer : i.answer request =
      (o.lift (fun s' => { i with state := s' }) .runtime).map give)
    (hgive : ∀ ρ' a v, R ρ' a a → give a = some v → ρ'.OnValues v v)
    (hends : (i.answer request).state? = some i') : LeadsBeside i request ρ s i' := by
  rw [hanswer] at hends
  cases o with
  | done a s' =>
      cases hends
      obtain ⟨ρ', hgrown, hrelated, ha⟩ := h.of_done rfl
      refine ⟨ρ', hgrown, hrelated, fun v hv => ?_⟩
      rw [HandsOut, hanswer] at hv
      exact hgive ρ' a v ha (Option.some.inj hv)
  | failed failure s' =>
      cases hends
      obtain ⟨ρ', hgrown, hrelated⟩ := h.of_state? rfl
      refine ⟨ρ', hgrown, hrelated, fun v hv => ?_⟩
      rw [HandsOut, hanswer] at hv
      cases hv
  | crashed | exhausted => cases hends

/-- A job that is set off leads from the state that it is done from to a state beside
itself. -/
theorem SortedBy.setsOff_leadsBeside
    (h : SortedBy past i kinds) (hproper : Proper past i request) {fuel : Nat} {job : Job}
    {s : State} (hsets : i.SetsOff request fuel job s)
    (hs : Related (i.state.under kinds) s s)
    (hends : (i.answer request).state? = some i') :
    LeadsBeside i request (i.state.under kinds) s i' := by
  have hsuits := h.suits hproper hsets hs
  have hcalled : ∀ ρ' (a v : Value), ρ'.OnValues a a → some a = some v →
      Renaming.OnValues ρ' v v := by
    rintro ρ' a v ha ⟨⟩
    exact ha
  have hevaluated : ∀ ρ' (a : Option Value) v, Option.Rel ρ'.OnValues a a →
      id a = some v →
      Renaming.OnValues ρ' v v := by
    rintro ρ' a v ha rfl
    cases ha with
    | some hv => exact hv
  have hmap : ∀ o : Reply (Option Value), o = o.map id := by
    intro o
    cases o <;> rfl
  cases hsets with
  | run hload =>
      exact .of_ends ((Simulates.always i.host fuel).callNamed hs hsuits.1 hsuits.2)
          (SetsOff.run hload).answer_call
        hcalled hends
  | call =>
      exact .of_ends ((Simulates.always i.host fuel).callNamed hs hsuits.1 hsuits.2)
          SetsOff.call.answer_call
        hcalled hends
  | @input fuel _ _ _ hread =>
      have hruns := hs.evalStatements i.host fuel hsuits .none
      exact .of_ends hruns ((SetsOff.input hread).answer_input.trans (hmap _))
        hevaluated hends
  | @statements fuel =>
      have hruns := hs.evalStatements i.host fuel hsuits .none
      exact .of_ends hruns (SetsOff.statements.answer_input.trans (hmap _))
        hevaluated hends

theorem SortedBy.onContents
    (h : SortedBy past i kinds) {content : Content} {data : content.IsData}
    (hproper : Proper past i (.host (.make content data))) :
    (i.state.under kinds).OnContents content content := by
  cases content with
  | number n => exact .number n
  | bool b => exact .bool b
  | text text => exact .text text
  | list elements =>
      exact .list (List.forall₂_same.mpr fun v hv => h.onHandles hproper hv)
  | array elements =>
      exact .array (List.forall₂_same.mpr fun v hv => h.onHandles hproper hv)
  | iterator cell => exact .iterator ⟨rfl, hproper.container cell rfl⟩
  | lambda closure => cases data

/-- What a request does without running code leads to a state beside itself. -/
theorem SortedBy.settles_leadsBeside
    (h : SortedBy past i kinds) (hproper : Proper past i request) {given : Option Value}
    {s' : State} (hsettles : i.Settles request given s')
    (hgiven : ∀ v, i.HandsOut request v → given = some v) :
    LeadsBeside i request (i.state.under kinds) i.state { i with state := s' } := by
  have hrelated := h.state.related
  have hglobal : (i.state.under kinds).rel .scope globalScope globalScope :=
    ⟨rfl, State.isSome_item?_scope.mpr h.state.sane.2⟩
  have hnothing : ∀ ρ' v, given = none → i.HandsOut request v →
      Renaming.OnValues ρ' v v := by
    intro ρ' v hnone hv
    rw [hgiven v hv] at hnone
    cases hnone
  cases hsettles with
  | refused => exact ⟨_, .refl _ _ _, hrelated, fun v => hnothing _ v rfl⟩
  | loaded functions =>
      let s' := { i.state with functions := functions }
      have hloaded : Extends (i.state.under kinds) i.state i.state
          (i.state.under kinds) s' s' ∧
          Related (i.state.under kinds) s' s' :=
            hrelated.of_eq rfl rfl rfl rfl rfl rfl rfl
      exact ⟨_, hloaded.1, hloaded.2, fun v => hnothing _ v rfl⟩
  | made =>
      obtain ⟨ρ', hgrown, hmade, hnew⟩ :=
        (hrelated.alloc (h.onContents hproper)).of_done rfl
      refine ⟨ρ', hgrown, hmade, fun v hv => ?_⟩
      cases hgiven v hv
      exact hnew
  | @defined name v =>
      have hv := h.onHandles hproper (List.mem_singleton_self v)
      obtain ⟨ρ', hgrown, hdefined, -⟩ :=
        (hrelated.define hglobal name trivial hv).of_done rfl
      exact ⟨ρ', hgrown, hdefined, fun v => hnothing _ v rfl⟩
  | opened =>
      obtain ⟨ρ', hgrown, hopened, -⟩ := (hrelated.openScope hglobal).of_done rfl
      exact ⟨ρ', hgrown, hopened, fun v => hnothing _ v rfl⟩

/-- A job is set off from a state that differs from the interpreter's in its functions
only. -/
theorem SortedBy.related_of_setsOff
    (h : SortedBy past i kinds) {fuel : Nat} {job : Job} {s : State}
    (hsets : i.SetsOff request fuel job s) :
    Extends (i.state.under kinds) i.state i.state (i.state.under kinds) s s ∧
      Related (i.state.under kinds) s s := by
  obtain ⟨hstore, hscopes⟩ := hsets.same
  exact h.state.related.of_eq hstore hscopes hstore hscopes rfl rfl rfl

theorem SortedBy.leadsBeside
    (h : SortedBy past i kinds) (hproper : Proper past i request)
    (hends : (i.answer request).state? = some i') :
    LeadsBeside i request (i.state.under kinds) i.state i' := by
  rcases i.setsOff_or_settled request with ⟨fuel, job, s, hsets⟩ |
    ⟨given, s', hsettles, hstate, hgiven⟩
  · obtain ⟨hfirst, hs⟩ := h.related_of_setsOff hsets
    obtain ⟨ρ', hgrown, hrelated, hgives⟩ := h.setsOff_leadsBeside hproper hsets hs hends
    exact ⟨ρ', hfirst.trans hgrown, hrelated, hgives⟩
  · cases hstate.symm.trans hends
    exact h.settles_leadsBeside hproper hsettles hgiven

/-- A proper request leaves lists and arrays told apart. -/
theorem SortedBy.next
    (h : SortedBy past i kinds) (hproper : Proper past i request)
    (hends : (i.answer request).state? = some i') :
    ∃ kinds', SortedBy ((i, request) :: past) i' kinds' := by
  obtain ⟨ρ', hgrown, hrelated, hgives⟩ := h.leadsBeside hproper hends
  refine ⟨ρ'.kinds, h.state.later hgrown hrelated, ?_⟩
  rintro v ⟨j, request', hmem, hv⟩
  rcases List.mem_cons.mp hmem with heq | hbefore
  · cases heq
    exact (hgives v hv).under hrelated
  · have hold := h.held v ⟨j, request', hbefore, hv⟩
    exact (hold.mono hgrown.grows).under hrelated

theorem Served.exists_sortedBy (h : Served Proper past i) :
    ∃ kinds, SortedBy past i kinds := by
  induction h with
  | fresh settings files listing console =>
      refine ⟨fun _ _ => True, ⟨State.initial_sane console, fun v _ => v.fits_any, ?_⟩,
        ?_⟩
      · intro cell hcell
        cases hcell
      · rintro v ⟨_, _, hmem, -⟩
        cases hmem
  | next _ permitted hends ih =>
      obtain ⟨kinds, hsorted⟩ := ih
      exact hsorted.next permitted hends

end Interpreter

/-! ## Jobs in the middle of a request -/

/-- The handles among evaluated arguments. -/
def Arguments.handles : Arguments → List Value
  | ready values => values
  | deferred _ _ => []

/-- The handles that a job carries. -/
def Job.handles : Job → List Value
  | force args => args.handles
  | dispatch _ receiver _ args => receiver :: args.handles
  | operate _ receiver _ args => receiver :: args.handles
  | callNamed _ _ args => args.handles
  | invoke receiver values => receiver :: values
  | callFunction _ values _ => values
  | _ => []

theorem Renaming.OnArguments.onHandles
    {ρ : Renaming} {args : Arguments} (h : ρ.OnArguments args args) {v : Value}
    (hv : v ∈ args.handles) : ρ.OnValues v v := by
  cases h with
  | deferred => cases hv
  | ready hvalues => exact List.forall₂_same.mp hvalues v hv

theorem Job.Suits.onHandles
    {ρ : Renaming} {s : State} {job : Job} (h : job.Suits ρ s) {v : Value}
    (hv : v ∈ job.handles) : ρ.OnValues v v := by
  have hcons : ∀ {receiver : Value} {values : List Value}, v ∈ receiver :: values →
      ρ.OnValues receiver receiver →
      (v ∈ values → ρ.OnValues v v) → ρ.OnValues v v := by
    intro receiver values hmem hreceiver hvalues
    rcases List.mem_cons.mp hmem with rfl | hother
    · exact hreceiver
    · exact hvalues hother
  cases job with
  | force => exact Renaming.OnArguments.onHandles h hv
  | dispatch => exact hcons hv h.2.1 h.2.2.onHandles
  | operate => exact hcons hv h.2.1 h.2.2.onHandles
  | callNamed => exact h.2.onHandles hv
  | invoke => exact hcons hv h.1 fun hother => List.forall₂_same.mp h.2 v hother
  | callFunction => exact List.forall₂_same.mp h.2 v hv
  | eval | evalAll | execAll | execBody | exec | execArms | execLoop | condition
  | input => cases hv

/-- The handle is in the hands of the host, somewhere in the state, or carried by the job
that is done from it. -/
def Job.Known (past : Interpreter.Past) (job : Job) (s : State) (v : Value) : Prop :=
  Interpreter.Held past v ∨ s.Mentions v ∨ v ∈ job.handles

namespace Interpreter

variable {past : Past} {i i' : Interpreter} {request : Request}
  {kinds : Nat → Kind → Prop}

/-- Lists and arrays are told apart whenever a job is started, also among the handles that
the job carries. -/
theorem SortedBy.active
    (h : SortedBy past i kinds) (hproper : Proper past i request)
    {fuel entered left : Nat} {job last : Job} {s t : State}
    (hsets : i.SetsOff request fuel job s)
    (hactive : Job.Active i.host fuel job s entered left last t) :
    ∃ ρ, t.SortedBy ρ.kinds ∧ Related ρ t t ∧ last.Suits ρ t ∧ ∀ v, last.Known past t v →
      ∃ w, ρ.OnValues v w := by
  obtain ⟨hfirst, hs⟩ := h.related_of_setsOff hsets
  obtain ⟨ρ, hmore, hrelated, hlast⟩ := hactive.suitsLater hs (h.suits hproper hsets hs)
  have hgrown := hfirst.trans hmore
  refine ⟨ρ, h.state.later hgrown hrelated, hrelated, hlast, ?_⟩
  rintro v (hheld | ⟨loc, x, hx, hv⟩ | hcarried)
  · exact ⟨v, (h.held v hheld).mono hgrown.grows⟩
  · have hloc := hgrown.domain_of_isSome (Option.isSome_iff_exists.mpr ⟨x, hx⟩)
    exact hrelated.exists_onValues hgrown.not_hidden hloc hx hv
  · exact ⟨v, hlast.onHandles hcarried⟩

theorem SetsOff.growsLists {fuel : Nat} {job : Job} {s : State}
    (h : i.SetsOff request fuel job s) : job.GrowsLists := by
  cases h <;> trivial

/-- What runs no code changes no length. -/
theorem Settles.lengthens {given : Option Value} {s : State}
    (h : i.Settles request given s) : i.state.store.Lengthens (fun _ => 0) s.store := by
  cases h with
  | refused | loaded | defined | opened => exact .of_items_eq rfl
  | @made content =>
      cases content with
      | number n => cases n <;> exact .of_items_eq rfl
      | bool | text | iterator | lambda => exact .of_items_eq rfl
      | list | array => exact .of_push rfl

end Interpreter

/-- Whatever proper requests have been made of an interpreter, no container has both a
list's and an array's handle, and however a further request ends, every array has the
length that it had; without running code, so has every list. The same holds of every job
that the request sets off or that is started in its course. The length of a container is
what it was when a job was started and the changes, by one each, that operations of growth
have made to a handle of that list. -/
theorem arrays_keep_lengths_apart_from_lists :
    ∀ past i, Interpreter.Served Interpreter.Proper past i →
      (∀ cell, ¬(Interpreter.Known past i (.list cell) ∧
        Interpreter.Known past i (.array cell))) ∧
      ∀ request, Interpreter.Proper past i request →
        (∀ i', (i.answer request).state? = some i' →
          (∀ cell, Interpreter.Known past i (.array cell) →
            (i'.state.store.elements cell).size = (i.state.store.elements cell).size) ∧
          ((∀ fuel job s, ¬i.SetsOff request fuel job s) →
              ∀ cell, cell < i.state.store.items.size →
            (i'.state.store.elements cell).size = (i.state.store.elements cell).size)) ∧
        ∀ fuel job s, i.SetsOff request fuel job s →
          ∀ entered left last t, Job.Active i.host fuel job s entered left last t →
            (∀ cell, ¬(last.Known past t (.list cell) ∧
              last.Known past t (.array cell))) ∧
            ∀ t', (last.run i.host left t).state? = some t' →
              (∀ cell, last.Known past t (.array cell) →
                (t'.store.elements cell).size = (t.store.elements cell).size) ∧
              ∃ actors, Job.Trace i.host left last t t actors t' ∧
                ∀ cell, cell < t.store.items.size →
                  ((t'.store.elements cell).size : Int) =
                    (t.store.elements cell).size + Job.growthAll cell actors := by
  intro past i hserved
  obtain ⟨kinds, hsorted⟩ := hserved.exists_sortedBy
  have hrelated := hsorted.state.related
  refine ⟨?_, fun request hproper => ⟨fun i' hends => ⟨?_, ?_⟩, ?_⟩⟩
  · rintro cell ⟨hlist, harray⟩
    exact hsorted.state.not_both hrelated (hsorted.onValues hlist)
      (hsorted.onValues harray)
  · intro cell harray
    obtain ⟨ρ', hgrown, -⟩ := hsorted.leadsBeside hproper hends
    exact hsorted.state.array_length hrelated hgrown (hsorted.onValues harray)
  · intro hquiet cell hcell
    rcases i.setsOff_or_settled request with ⟨fuel, job, s, hsets⟩ |
      ⟨given, s', hsettles, hstate, -⟩
    · exact absurd hsets (hquiet fuel job s)
    · cases hstate.symm.trans hends
      obtain ⟨-, hlength⟩ := hsettles.lengthens cell hcell
      rw [Int.add_zero] at hlength
      exact Int.ofNat.inj hlength
  · intro fuel job s hsets entered left last t hactive
    obtain ⟨ρ, hsortedNow, hnow, hlast, hknown⟩ := hsorted.active hproper hsets hactive
    refine ⟨?_, fun t' hended => ⟨?_, ?_⟩⟩
    · rintro cell ⟨hlist, harray⟩
      obtain ⟨v, hv⟩ := hknown _ hlist
      obtain ⟨w, hw⟩ := hknown _ harray
      exact hsortedNow.not_both hnow hv hw
    · intro cell harray
      obtain ⟨w, hw⟩ := hknown _ harray
      obtain ⟨ρ', hgrown, -⟩ := hlast.of_state? hnow hended
      exact hsortedNow.array_length hnow hgrown hw
    · obtain ⟨actors, htrace⟩ := Job.exists_trace hended
      refine ⟨actors, htrace, fun cell hcell => ?_⟩
      exact (htrace.lengthens (hactive.growsLists hsets.growsLists) cell hcell).2

/-- A host makes an array of two elements and binds it for a session, in which a list of
one element is made. Then the list is given the array as an element, and the array the
list: the list has grown by one, and the array still has two elements. -/
theorem arrays_keep_lengths_apart_from_lists_nested :
    ∃ past i i' fuel job s, Interpreter.Served Interpreter.Proper past i ∧
      Interpreter.Known past i (.array 0) ∧ ¬Interpreter.Known past i (.list 0) ∧
      i.SetsOff (.input 1 (.eval 40 "l.add(a) a.set(0, l)")) fuel job s ∧
      (i.answer (.input 1 (.eval 40 "l.add(a) a.set(0, l)"))).state? = some i' ∧
      (i.state.store.elements 0).size = 2 ∧ (i'.state.store.elements 0).size = 2 ∧
      (i.state.store.elements 1).size = 1 ∧ (i'.state.store.elements 1).size = 2 ∧
      ∃ actors, Job.Trace i.host fuel job s s actors i'.state ∧
        Job.growthAll 1 actors = 1 := by
  let fresh : Interpreter := .fresh {} .empty .asBound (.ofLines [] none)
  let make : Request := .host (.make (.array #[.void, .void]) trivial)
  let define : Request := .host (.define "a" (.array 0))
  let bind : Request := .input 1 (.eval 40 "var l = new.list(1)")
  let request : Request := .input 1 (.eval 40 "l.add(a) a.set(0, l)")
  let made := (fresh.make (.array #[.void, .void])).2
  let defined := made.defineGlobal "a" (.array 0)
  let start := (Session.new defined).interpreter
  let bound := (start.answer bind).state?
  have hends : bound.isSome := by decide +kernel
  have hends' : ((bound.getD default).answer request).state?.isSome := by decide +kernel
  have hreads : (match Session.read "l.add(a) a.set(0, l)" with
      | .ok (.statements _) => true
      | _ => false) = true := by decide +kernel
  have hlengths : ((bound.getD default).state.store.items.size,
      ((bound.getD default).state.store.elements 0).size,
      ((bound.getD default).state.store.elements 1).size,
      ((((bound.getD default).answer request).state?.getD default).state.store.elements
        1).size) = (2, 2, 1, 2) := by
    decide +kernel
  have hscope : 1 < (bound.getD default).state.scopes.size := by decide +kernel
  obtain ⟨i, hi⟩ := Option.isSome_iff_exists.mp hends
  rw [hi, Option.getD_some] at hends' hlengths hscope
  obtain ⟨i', hi'⟩ := Option.isSome_iff_exists.mp hends'
  rw [hi', Option.getD_some] at hlengths
  simp only [Prod.mk.injEq] at hlengths
  obtain ⟨hcells, harray, hlist, hlist'⟩ := hlengths
  have hfresh : Interpreter.Served Interpreter.Proper [] fresh :=
    .fresh {} .empty .asBound (.ofLines [] none)
  have hmake : Interpreter.Proper [] fresh make := by
    constructor
    · intro v hv
      have hvoid : v = .void := by
        simpa [make, Request.handles, Content.elements] using hv
      rw [hvoid]
      exact .inl rfl
    · trivial
    · intro cell hcell
      cases hcell
  have hmade := hfresh.next hmake (show (fresh.answer make).state? = some made from rfl)
  have hdefine : Interpreter.Proper [(fresh, make)] made define := by
    constructor
    · intro v hv
      cases List.mem_singleton.mp hv
      exact .inr (.inl ⟨fresh, make, List.mem_singleton_self _, rfl⟩)
    · trivial
    · intro cell hcell
      cases hcell
  have hdefined :=
    hmade.next hdefine (show (made.answer define).state? = some defined from rfl)
  have hopen : Interpreter.Proper [(made, define), (fresh, make)] defined .session :=
    .of_plain rfl rfl trivial
  have hopened := hdefined.next hopen
    (show (defined.answer .session).state? = some start from rfl)
  have hbind : Interpreter.Proper [(defined, .session), (made, define), (fresh, make)]
      start bind :=
    .of_plain rfl rfl (Nat.lt_succ_self 1)
  let past : Interpreter.Past :=
    [(start, bind), (defined, .session), (made, define), (fresh, make)]
  have hserved : Interpreter.Served Interpreter.Proper past i := hopened.next hbind hi
  have hproper : Interpreter.Proper past i request := .of_plain rfl rfl hscope
  obtain ⟨hboth, hrequests⟩ := arrays_keep_lengths_apart_from_lists past i hserved
  obtain ⟨hafter, hjobs⟩ := hrequests request hproper
  have hknown : Interpreter.Known past i (.array 0) :=
    .inl ⟨fresh, make, List.mem_of_getLast? rfl, rfl⟩
  obtain ⟨stmts, hstmts⟩ : ∃ stmts, Session.read "l.add(a) a.set(0, l)" =
      .ok (.statements stmts) := by
    split at hreads
    next stmts hread => exact ⟨stmts, hread⟩
    · cases hreads
  have hsets : i.SetsOff request 41 (.input 1 stmts) i.state := .input hstmts
  obtain ⟨s', hended, heq⟩ := hsets.ended hi'
  cases heq
  obtain ⟨-, hends⟩ := hjobs 41 _ _ hsets _ _ _ _ .here
  obtain ⟨-, actors, htrace, hchange⟩ := hends s' hended
  have hgrown := hchange 1 (Nat.lt_of_lt_of_eq Nat.one_lt_two hcells.symm)
  refine ⟨past, i, _, 41, _, _, hserved, hknown, fun hlist => hboth 0 ⟨hlist, hknown⟩,
      hsets, hi', harray, ?_, hlist,
    hlist', actors, htrace, ?_⟩
  · exact ((hafter _ hi').1 0 hknown).trans harray
  · rw [hlist, hlist'] at hgrown
    omega

end HandleScript
