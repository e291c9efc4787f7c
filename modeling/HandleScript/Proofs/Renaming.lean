import HandleScript.Interpreter.Eval
import HandleScript.Proofs.Heap
import HandleScript.Proofs.Holder
import Mathlib.Data.List.Forall2
import Mathlib.Data.Option.Basic

/-!
# States that agree up to a renaming

Scripts never see the numbers of places, only what is found there. Two states look alike
to code that runs in corresponding scopes when a renaming takes places of the first one to
places of the second one, corresponding places hold corresponding items, and the names
that the code uses mean corresponding values. Places without a counterpart are out of
sight on both sides.

A name may be bound in one of two corresponding scopes only. Such a name is not clear
there, and code that runs there does not use it.
-/

namespace HandleScript

/-! ## The names in code -/

mutual

/-- The names that occur in an expression, those in function literals included. -/
def Expr.used : Expr → List String
  | .call receiver _ args _ => receiver.used ++ Expr.usedAll args
  | .lambda ⟨_, params, body, _⟩ => params.map Located.node ++ Stmt.usedAll body
  | .name text _ => [text]
  | .literal _ _ => []

/-- The names that occur in expressions. -/
def Expr.usedAll : List Expr → List String
  | [] => []
  | e :: es => e.used ++ Expr.usedAll es

/-- The names that occur in a statement, whether it reads, rebinds or declares them. -/
def Stmt.used : Stmt → List String
  | .branch arms _ => arms.used
  | .loop condition body _ => condition.used ++ Stmt.usedAll body
  | .declare name init _ => name.node :: init.used
  | .assign name value _ => name.node :: value.used
  | .giveBack none _ => []
  | .giveBack (some value) _ => value.used
  | .leave _ => []
  | .skip _ => []
  | .block body _ => Stmt.usedAll body
  | .expr value _ => value.used

/-- The names that occur in statements. -/
def Stmt.usedAll : List Stmt → List String
  | [] => []
  | stmt :: rest => stmt.used ++ Stmt.usedAll rest

/-- The names that occur in the tests and bodies of an `if` statement. -/
def Arms.used : Arms → List String
  | .done => []
  | .otherwise body => Stmt.usedAll body
  | .test condition body rest => condition.used ++ Stmt.usedAll body ++ rest.used

end

/-- The names that occur in a function. -/
def Function.used (f : Function) : List String :=
  f.paramNames ++ Stmt.usedAll f.body

theorem Expr.used_lambda (f : Function) : (Expr.lambda f).used = f.used := by
  cases f
  rfl

/-! ## Corresponding places -/

/-- Which places of two states correspond, which names are clear in corresponding scopes
(all but hidden ones are), and which kinds of handles can name a container of the first
state. -/
structure Renaming where
  rel : Region → Nat → Nat → Prop
  clear : Nat → Nat → String → Prop
  hidden : String → Prop
  kinds : Nat → Kind → Prop

namespace Renaming

/-- The places of the first state that have a counterpart. -/
def Domain (ρ : Renaming) (loc : Loc) : Prop :=
  ∃ b, ρ.rel loc.region loc.number b

/-- The places of the second state that have a counterpart. -/
def Range (ρ : Renaming) (loc : Loc) : Prop :=
  ∃ a, ρ.rel loc.region a loc.number

section Correspondence

variable (ρ : Renaming)

/-- Handles of one kind that name corresponding cells. -/
inductive OnValues : Value → Value → Prop
  | int {a b : Nat} (h : ρ.rel .integer a b) : OnValues (.int a) (.int b)
  | long {a b : Nat} (h : ρ.rel .integer a b) : OnValues (.long a) (.long b)
  | double {a b : Nat} (h : ρ.rel .double a b) : OnValues (.double a) (.double b)
  | bool {a b : Nat} (h : ρ.rel .bool a b) : OnValues (.bool a) (.bool b)
  | text {a b : Nat} (h : ρ.rel .text a b) : OnValues (.text a) (.text b)
  | list {a b : Nat} (h : ρ.rel .items a b) (kind : ρ.kinds a .list) :
      OnValues (.list a) (.list b)
  | array {a b : Nat} (h : ρ.rel .items a b) (kind : ρ.kinds a .array) :
      OnValues (.array a) (.array b)
  | iterator {a b : Nat} (h : ρ.rel .cursor a b) : OnValues (.iterator a) (.iterator b)
  | file (path : String) : OnValues (.file path) (.file path)
  | lambda {a b : Nat} (h : ρ.rel .closure a b) : OnValues (.lambda a) (.lambda b)
  | void : OnValues .void .void
  | dispatcher : OnValues .dispatcher .dispatcher
  | factory : OnValues .factory .factory

/-- Two functions literals with one text, in scopes where the names that they use are
clear. -/
structure OnClosures (c d : Closure) : Prop where
  function : c.function = d.function
  scope : ρ.rel .scope c.scope d.scope
  used : ∀ name ∈ c.function.used, ρ.clear c.scope d.scope name

/-- Scopes in which the clear names have corresponding values, inside corresponding
scopes. In the outermost ones all names are clear. -/
structure OnScopes (a b : Nat) (sc sd : Scope Value) : Prop where
  parent : Option.Rel (fun p q => ρ.rel .scope p q ∧
      ∀ name, ρ.clear a b name → ρ.clear p q name)
    sc.parent sd.parent
  root : ρ.rel .scope sc.root sd.root
  rootClear : ∀ name, ρ.clear sc.root sd.root name
  names : Run.suggestable sc.bindings.names = Run.suggestable sd.bindings.names
  values : ∀ name, ρ.clear a b name →
    Option.Rel ρ.OnValues (sc.bindings.get? name) (sd.bindings.get? name)

/-- Items that are alike at places of a region with the given numbers. -/
inductive OnItems (a b : Nat) : Region → Item → Item → Prop
  | scope {sc sd : Scope Value} (h : ρ.OnScopes a b sc sd) :
      OnItems a b .scope (.scope sc) (.scope sd)
  | integer (n : Int64) : OnItems a b .integer (.integer n) (.integer n)
  | double (x : Float) : OnItems a b .double (.double x) (.double x)
  | bool (x : Bool) : OnItems a b .bool (.bool x) (.bool x)
  | text (x : String) : OnItems a b .text (.text x) (.text x)
  | items {xs ys : Array Value} (h : List.Forall₂ ρ.OnValues xs.toList ys.toList) :
      OnItems a b .items (.items xs) (.items ys)
  | cursor {c d : Nat} (next : Nat) (h : ρ.rel .items c d) :
      OnItems a b .cursor (.cursor ⟨c, next⟩) (.cursor ⟨d, next⟩)
  | closure {c d : Closure} (h : ρ.OnClosures c d) :
      OnItems a b .closure (.closure c) (.closure d)

end Correspondence

end Renaming

/-- The two states are alike under the renaming, which is one to one. -/
structure Related (ρ : Renaming) (s t : State) : Prop where
  leftUnique : ∀ {r a b b'}, ρ.rel r a b → ρ.rel r a b' → b = b'
  rightUnique : ∀ {r a a' b}, ρ.rel r a b → ρ.rel r a' b → a = a'
  item : ∀ {r a b}, ρ.rel r a b →
    ∃ x y, s.item? ⟨r, a⟩ = some x ∧ t.item? ⟨r, b⟩ = some y ∧ ρ.OnItems a b r x y
  plain : ∀ {a b}, ρ.rel .scope a b → ∀ name, ¬ρ.hidden name → ρ.clear a b name
  leftLinked : s.scopes.Linked
  rightLinked : t.scopes.Linked
  functions : s.functions = t.functions
  console : s.console = t.console
  depth : s.depth = t.depth

/-! ## Growing renamings -/

theorem optionRel_mono
    {α β : Type} {R R' : α → β → Prop} {o : Option α} {o' : Option β}
    (h : Option.Rel R o o') (himp : ∀ a b, R a b → R' a b) : Option.Rel R' o o' := by
  cases h with
  | none => exact .none
  | some hab => exact .some (himp _ _ hab)

/-- The second renaming adds places to the first one, and leaves the clear names of old
scopes and the kinds of old containers. -/
structure Renaming.Within (ρ ρ' : Renaming) : Prop where
  rel : ∀ {r a b}, ρ.rel r a b → ρ'.rel r a b
  clear : ∀ {a b}, ρ.rel .scope a b → ∀ name, ρ'.clear a b name ↔ ρ.clear a b name
  kinds : ∀ {a b}, ρ.rel .items a b → ∀ kind, ρ'.kinds a kind ↔ ρ.kinds a kind
  hidden : ρ'.hidden = ρ.hidden

namespace Renaming

theorem Within.refl (ρ : Renaming) : ρ.Within ρ :=
  ⟨id, fun _ _ => Iff.rfl, fun _ _ => Iff.rfl, rfl⟩

theorem Within.trans {ρ ρ' ρ'' : Renaming} (h : ρ.Within ρ') (h' : ρ'.Within ρ'') :
    ρ.Within ρ'' :=
  ⟨fun hab => h'.rel (h.rel hab), fun hab name =>
      (h'.clear (h.rel hab) name).trans (h.clear hab name),
    fun hab kind => (h'.kinds (h.rel hab) kind).trans (h.kinds hab kind),
      h'.hidden.trans h.hidden⟩

variable {ρ ρ' : Renaming}

theorem OnValues.mono {v w : Value} (h : ρ.OnValues v w) (hρ : ρ.Within ρ') :
    ρ'.OnValues v w := by
  cases h with
  | int h => exact .int (hρ.rel h)
  | long h => exact .long (hρ.rel h)
  | double h => exact .double (hρ.rel h)
  | bool h => exact .bool (hρ.rel h)
  | text h => exact .text (hρ.rel h)
  | list h kind => exact .list (hρ.rel h) ((hρ.kinds h .list).mpr kind)
  | array h kind => exact .array (hρ.rel h) ((hρ.kinds h .array).mpr kind)
  | iterator h => exact .iterator (hρ.rel h)
  | lambda h => exact .lambda (hρ.rel h)
  | file path => exact .file path
  | void => exact .void
  | dispatcher => exact .dispatcher
  | factory => exact .factory

theorem forall₂_mono
    {vs ws : List Value} (h : List.Forall₂ ρ.OnValues vs ws) (hρ : ρ.Within ρ') :
    List.Forall₂ ρ'.OnValues vs ws :=
  h.imp fun _ _ hvw => hvw.mono hρ

theorem OnClosures.mono {c d : Closure} (h : ρ.OnClosures c d) (hρ : ρ.Within ρ') :
    ρ'.OnClosures c d :=
  ⟨h.function, hρ.rel h.scope, fun name hname =>
    (hρ.clear h.scope name).mpr (h.used name hname)⟩

theorem OnScopes.mono
    {a b : Nat} {sc sd : Scope Value} (h : ρ.OnScopes a b sc sd) (hab : ρ.rel .scope a b)
    (hρ : ρ.Within ρ') : ρ'.OnScopes a b sc sd := by
  obtain ⟨hparent, hroot, hrootClear, hnames, hvalues⟩ := h
  refine ⟨?_, hρ.rel hroot, fun name => (hρ.clear hroot name).mpr
    (hrootClear name), hnames, ?_⟩
  · refine optionRel_mono hparent fun p q hpq => ⟨hρ.rel hpq.1, fun name hname => ?_⟩
    exact (hρ.clear hpq.1 name).mpr (hpq.2 name ((hρ.clear hab name).mp hname))
  · intro name hname
    have hold := hvalues name ((hρ.clear hab name).mp hname)
    exact optionRel_mono hold fun v w hvw => hvw.mono hρ

theorem OnItems.mono
    {r : Region} {a b : Nat} {x y : Item} (h : ρ.OnItems a b r x y) (hab : ρ.rel r a b)
    (hρ : ρ.Within ρ') : ρ'.OnItems a b r x y := by
  cases h with
  | scope h => exact .scope (h.mono hab hρ)
  | items h => exact .items (forall₂_mono h hρ)
  | cursor next h => exact .cursor next (hρ.rel h)
  | closure h => exact .closure (h.mono hρ)
  | integer n => exact .integer n
  | double x => exact .double x
  | bool x => exact .bool x
  | text x => exact .text x

end Renaming

/-- From the first state to the second one nothing changes outside the given places, and
no place is lost. -/
structure State.Frame (inside : Loc → Prop) (s s' : State) : Prop where
  unchanged : ∀ loc, (s.item? loc).isSome → ¬inside loc → s'.item? loc = s.item? loc
  kept : ∀ loc, (s.item? loc).isSome → (s'.item? loc).isSome
  roots : ∀ id, id < s.scopes.size → s'.scopes.rootOf id = s.scopes.rootOf id

namespace State.Frame

variable {inside inside' : Loc → Prop} {s s' s'' : State}

theorem refl (inside : Loc → Prop) (s : State) : Frame inside s s :=
  ⟨fun _ _ _ => rfl, fun _ h => h, fun _ _ => rfl⟩

theorem trans
    (h : Frame inside s s') (h' : Frame inside' s' s'')
    (hinside : ∀ loc, inside' loc → inside loc ∨ s.item? loc = none) :
    Frame inside s s'' := by
  refine ⟨fun loc hloc hout => ?_, fun loc hloc => h'.kept loc (h.kept loc hloc),
    fun id hid => ?_⟩
  · have hout' : ¬inside' loc := by
      intro hin
      rcases hinside loc hin with hold | hnone
      · exact hout hold
      · rw [hnone] at hloc
        cases hloc
    rw [h'.unchanged loc (h.kept loc hloc) hout', h.unchanged loc hloc hout]
  · have hid' : id < s'.scopes.size :=
      isSome_item?_scope.mp (h.kept ⟨.scope, id⟩ (isSome_item?_scope.mpr hid))
    rw [h'.roots id hid', h.roots id hid]

theorem of_writes
    {place : Loc} {x : Item} (h : s.Writes place x s')
    (hplace : inside place ∨ s.item? place = none) : Frame inside s s' := by
  refine ⟨fun loc hloc hout => ?_, fun loc hloc => ?_, h.roots⟩
  · rw [h.item?, if_neg]
    rintro rfl
    rcases hplace with hin | hnone
    · exact hout hin
    · rw [hnone] at hloc
      cases hloc
  · rw [h.item?]
    split
    · rfl
    · exact hloc

theorem none_of_none {loc : Loc} (h : Frame inside s s') (hnone : s'.item? loc = none) :
    s.item? loc = none := by
  by_contra hsome
  have hkept := h.kept loc (Option.isSome_iff_ne_none.mpr hsome)
  rw [hnone] at hkept
  cases hkept

theorem size_le (h : Frame inside s s') : s.scopes.size ≤ s'.scopes.size := by
  by_contra hlt
  have hold : (s.item? ⟨.scope, s'.scopes.size⟩).isSome :=
    isSome_item?_scope.mpr (Nat.lt_of_not_le hlt)
  exact Nat.lt_irrefl _ (isSome_item?_scope.mp (h.kept _ hold))

end State.Frame

/-- The renaming grows by new places of both states. Old places without a counterpart are
unchanged, and so are the bindings of names that are not clear and the lengths of
containers that no list names. The new places of the first state all have a counterpart,
and a new container is a list or an array and not both. -/
structure Extends (ρ : Renaming) (s t : State) (ρ' : Renaming) (s' t' : State) :
    Prop where
  grows : ρ.Within ρ'
  fresh : ∀ {r a b}, ρ'.rel r a b →
    ρ.rel r a b ∨ (s.item? ⟨r, a⟩ = none ∧ t.item? ⟨r, b⟩ = none)
  left : s.Frame ρ.Domain s'
  right : t.Frame ρ.Range t'
  covers : ∀ loc, s.item? loc = none → (s'.item? loc).isSome → ρ'.Domain loc
  guarded : ∀ {a b}, ρ.rel .scope a b → ∀ name, ¬ρ.clear a b name →
    (t'.scopes.bindings b).get? name = (t.scopes.bindings b).get? name
  lengths : ∀ {a b}, ρ.rel .items a b → ¬ρ.kinds a .list →
    (s'.store.elements a).size = (s.store.elements a).size
  sorted : ∀ {a b}, ρ'.rel .items a b →
    ρ.rel .items a b ∨ ¬(ρ'.kinds a .list ∧ ρ'.kinds a .array)

namespace Extends

variable {ρ ρ' ρ'' : Renaming} {s t s' t' s'' t'' : State}

theorem refl (ρ : Renaming) (s t : State) : Extends ρ s t ρ s t := by
  refine ⟨.refl ρ, Or.inl, .refl _ s, .refl _ t, fun loc hnone hsome => ?_,
      fun _ _ _ => rfl,
    fun _ _ => rfl, Or.inl⟩
  rw [hnone] at hsome
  cases hsome

theorem trans (h : Extends ρ s t ρ' s' t') (h' : Extends ρ' s' t' ρ'' s'' t'') :
    Extends ρ s t ρ'' s'' t'' := by
  constructor
  · exact h.grows.trans h'.grows
  · intro r a b hab
    rcases h'.fresh hab with hold | ⟨ha, hb⟩
    · exact h.fresh hold
    · exact Or.inr ⟨h.left.none_of_none ha, h.right.none_of_none hb⟩
  · refine h.left.trans h'.left fun loc hin => ?_
    obtain ⟨b, hb⟩ := hin
    rcases h.fresh hb with hold | ⟨hnone, -⟩
    · exact Or.inl ⟨b, hold⟩
    · exact Or.inr hnone
  · refine h.right.trans h'.right fun loc hin => ?_
    obtain ⟨a, ha⟩ := hin
    rcases h.fresh ha with hold | ⟨-, hnone⟩
    · exact Or.inl ⟨a, hold⟩
    · exact Or.inr hnone
  · intro loc hnone hsome
    cases hmid : s'.item? loc with
    | none => exact h'.covers loc hmid hsome
    | some x =>
        obtain ⟨b, hb⟩ := h.covers loc hnone (by rw [hmid]; rfl)
        exact ⟨b, h'.grows.rel hb⟩
  · intro a b hab name hname
    have hname' : ¬ρ'.clear a b name := fun hclear =>
      hname ((h.grows.clear hab name).mp hclear)
    rw [h'.guarded (h.grows.rel hab) name hname', h.guarded hab name hname]
  · intro a b hab hkind
    have hkind' : ¬ρ'.kinds a .list := fun hlist =>
      hkind ((h.grows.kinds hab .list).mp hlist)
    rw [h'.lengths (h.grows.rel hab) hkind', h.lengths hab hkind]
  · intro a b hab
    rcases h'.sorted hab with hmid | hapart
    · rcases h.sorted hmid with hold | hapart
      · exact Or.inl hold
      · refine Or.inr fun hboth => hapart ?_
        exact ⟨(h'.grows.kinds hmid .list).mp hboth.1,
          (h'.grows.kinds hmid .array).mp hboth.2⟩
    · exact Or.inr hapart

end Extends

/-! ## Steps in two states at once -/

/-- The renaming with one more pair of places, with the names that are clear if these are
scopes, and with the kinds of handles if they are containers. -/
def Renaming.add (ρ : Renaming) (r : Region) (a b : Nat) (clear : String → Prop)
    (kinds : Kind → Prop) : Renaming where
  rel r' a' b' := ρ.rel r' a' b' ∨ (r' = r ∧ a' = a ∧ b' = b)
  clear a' b' name := if r = .scope ∧ a' = a ∧ b' = b then
    clear name else ρ.clear a' b' name
  hidden := ρ.hidden
  kinds a' kind := if r = .items ∧ a' = a then kinds kind else ρ.kinds a' kind

theorem State.bindings_eq
    {t t' : State} {b : Nat} (h : t'.item? ⟨.scope, b⟩ = t.item? ⟨.scope, b⟩) :
    t'.scopes.bindings b = t.scopes.bindings b := by
  have hscope : t'.scopes.scopes[b]? = t.scopes.scopes[b]? :=
    Option.map_injective (fun _ _ heq => Item.scope.inj heq) h
  simp only [Scopes.bindings, hscope]

theorem State.elements_eq
    {s s' : State} {a : Nat} (h : s'.item? ⟨.items, a⟩ = s.item? ⟨.items, a⟩) :
    s'.store.elements a = s.store.elements a := by
  have hcell : s'.store.items.cells[a]? = s.store.items.cells[a]? :=
    Option.map_injective (fun _ _ heq => Item.items.inj heq) h
  simp only [Store.elements, Pool.get, Array.getD_eq_getD_getElem?, hcell]

theorem Extends.of_writes
    {ρ : Renaming} {s t s' t' : State} {r : Region} {a b : Nat} {x y : Item}
    (h : Related ρ s t) (hab : ρ.rel r a b) (hs : s.Writes ⟨r, a⟩ x s')
    (ht : t.Writes ⟨r, b⟩ y t') (hguarded : r = .scope → ∀ name, ¬ρ.clear a b name →
      (t'.scopes.bindings b).get? name = (t.scopes.bindings b).get? name)
    (hlength : r = .items → ¬ρ.kinds a .list →
      (s'.store.elements a).size = (s.store.elements a).size) :
    Extends ρ s t ρ s' t' := by
  refine ⟨.refl ρ, Or.inl, .of_writes hs (.inl ⟨b, hab⟩),
    .of_writes ht (.inl ⟨a, hab⟩), ?_, ?_, ?_, Or.inl⟩
  · intro loc hnone hsome
    by_cases heq : loc = ⟨r, a⟩
    · subst heq
      exact ⟨b, hab⟩
    · rw [hs.item?, if_neg heq, hnone] at hsome
      cases hsome
  · intro a' b' hab' name hname
    by_cases heq : (⟨.scope, b'⟩ : Loc) = ⟨r, b⟩
    · cases heq
      cases h.rightUnique hab hab'
      exact hguarded rfl name hname
    · rw [State.bindings_eq (ht.item?_of_ne heq)]
  · intro a' b' hab' hkind
    by_cases heq : (⟨.items, a'⟩ : Loc) = ⟨r, a⟩
    · cases heq
      exact hlength rfl hkind
    · rw [State.elements_eq (hs.item?_of_ne heq)]

namespace Related

variable {ρ : Renaming} {s t s' t' : State} {r : Region} {a b : Nat} {x y : Item}

theorem isSome_left (h : Related ρ s t) (hab : ρ.rel r a b) :
    (s.item? ⟨r, a⟩).isSome := by
  obtain ⟨x, y, hx, -, -⟩ := h.item hab
  rw [hx]
  rfl

theorem isSome_right (h : Related ρ s t) (hab : ρ.rel r a b) :
    (t.item? ⟨r, b⟩).isSome := by
  obtain ⟨x, y, -, hy, -⟩ := h.item hab
  rw [hy]
  rfl

theorem not_domain (h : Related ρ s t) {loc : Loc} (hnone : s.item? loc = none) :
    ¬ρ.Domain loc := by
  rintro ⟨b, hb⟩
  have hsome := h.isSome_left hb
  rw [hnone] at hsome
  cases hsome

theorem not_range (h : Related ρ s t) {loc : Loc} (hnone : t.item? loc = none) :
    ¬ρ.Range loc := by
  rintro ⟨a, ha⟩
  have hsome := h.isSome_right ha
  rw [hnone] at hsome
  cases hsome

/-- Corresponding places take new items that are alike. -/
theorem update
    (h : Related ρ s t) (hab : ρ.rel r a b) (hs : s.Writes ⟨r, a⟩ x s')
    (ht : t.Writes ⟨r, b⟩ y t') (hxy : ρ.OnItems a b r x y) : Related ρ s' t' := by
  constructor
  · exact h.leftUnique
  · exact h.rightUnique
  · intro r' a' b' hab'
    rw [hs.item?, ht.item?]
    by_cases heq : (⟨r', a'⟩ : Loc) = ⟨r, a⟩
    · cases heq
      cases h.leftUnique hab hab'
      exact ⟨x, y, by simp, by simp, hxy⟩
    · have hne : (⟨r', b'⟩ : Loc) ≠ ⟨r, b⟩ := by
        intro hb
        cases hb
        cases h.rightUnique hab hab'
        exact heq rfl
      rw [if_neg heq, if_neg hne]
      exact h.item hab'
  · exact h.plain
  · exact hs.linked h.leftLinked
  · exact ht.linked h.rightLinked
  · rw [hs.functions, ht.functions, h.functions]
  · rw [hs.console, ht.console, h.console]
  · rw [hs.depth, ht.depth, h.depth]

theorem within_add
    (h : Related ρ s t) (ha : s.item? ⟨r, a⟩ = none) (b : Nat) (clear : String → Prop)
    (kinds : Kind → Prop) : ρ.Within (ρ.add r a b clear kinds) := by
  refine ⟨Or.inl, fun {a' b'} hab' name => ?_, fun {a' b'} hab' kind => ?_, rfl⟩
  · have hne : ¬(r = .scope ∧ a' = a ∧ b' = b) := by
      rintro ⟨rfl, rfl, -⟩
      exact h.not_domain ha ⟨b', hab'⟩
    simp only [Renaming.add, if_neg hne]
  · have hne : ¬(r = .items ∧ a' = a) := by
      rintro ⟨rfl, rfl⟩
      exact h.not_domain ha ⟨b', hab'⟩
    simp only [Renaming.add, if_neg hne]

/-- New places with items that are alike become corresponding places. -/
theorem add
    (h : Related ρ s t) {clear : String → Prop} {kinds : Kind → Prop}
    (ha : s.item? ⟨r, a⟩ = none) (hb : t.item? ⟨r, b⟩ = none)
    (hs : s.Writes ⟨r, a⟩ x s') (ht : t.Writes ⟨r, b⟩ y t')
    (hxy : (ρ.add r a b clear kinds).OnItems a b r x y)
    (hplain : r = .scope → ∀ name, ¬ρ.hidden name → clear name) :
    Related (ρ.add r a b clear kinds) s' t' := by
  have holdLeft : ∀ {b'}, ¬ρ.rel r a b' := fun hab' => h.not_domain ha ⟨_, hab'⟩
  have holdRight : ∀ {a'}, ¬ρ.rel r a' b := fun hab' => h.not_range hb ⟨_, hab'⟩
  constructor
  · rintro r' a' b₁ b₂ (h₁ | ⟨rfl, rfl, rfl⟩) (h₂ | ⟨hr, ha', rfl⟩)
    · exact h.leftUnique h₁ h₂
    · cases hr
      cases ha'
      exact absurd h₁ holdLeft
    · exact absurd h₂ holdLeft
    · rfl
  · rintro r' a₁ a₂ b' (h₁ | ⟨rfl, rfl, rfl⟩) (h₂ | ⟨hr, rfl, hb'⟩)
    · exact h.rightUnique h₁ h₂
    · cases hr
      cases hb'
      exact absurd h₁ holdRight
    · exact absurd h₂ holdRight
    · rfl
  · rintro r' a' b' (hab' | ⟨rfl, rfl, rfl⟩)
    · have hneLeft : (⟨r', a'⟩ : Loc) ≠ ⟨r, a⟩ := by
        intro heq
        cases heq
        exact holdLeft hab'
      have hneRight : (⟨r', b'⟩ : Loc) ≠ ⟨r, b⟩ := by
        intro heq
        cases heq
        exact holdRight hab'
      obtain ⟨x', y', hx', hy', hxy'⟩ := h.item hab'
      rw [hs.item?, ht.item?, if_neg hneLeft, if_neg hneRight]
      exact ⟨x', y', hx', hy', hxy'.mono hab' (h.within_add ha b clear kinds)⟩
    · exact ⟨x, y, by rw [hs.item?, if_pos rfl], by rw [ht.item?, if_pos rfl], hxy⟩
  · rintro a' b' (hab' | ⟨rfl, rfl, rfl⟩) name hname
    · exact ((h.within_add ha b clear kinds).clear hab' name).mpr
        (h.plain hab' name hname)
    · simp only [Renaming.add, and_self, if_true]
      exact hplain rfl name hname
  · exact hs.linked h.leftLinked
  · exact ht.linked h.rightLinked
  · rw [hs.functions, ht.functions, h.functions]
  · rw [hs.console, ht.console, h.console]
  · rw [hs.depth, ht.depth, h.depth]

theorem extends_add
    (h : Related ρ s t) (clear : String → Prop) (kinds : Kind → Prop)
    (ha : s.item? ⟨r, a⟩ = none) (hb : t.item? ⟨r, b⟩ = none)
    (hs : s.Writes ⟨r, a⟩ x s') (ht : t.Writes ⟨r, b⟩ y t')
    (hkinds : r = .items → ¬(kinds .list ∧ kinds .array)) :
    Extends ρ s t (ρ.add r a b clear kinds) s' t' := by
  refine ⟨h.within_add ha b clear kinds, ?_, .of_writes hs (.inr ha),
    .of_writes ht (.inr hb), ?_, ?_, ?_, ?_⟩
  · rintro r' a' b' (hab' | ⟨rfl, rfl, rfl⟩)
    · exact Or.inl hab'
    · exact Or.inr ⟨ha, hb⟩
  · intro loc hnone hsome
    by_cases heq : loc = ⟨r, a⟩
    · subst heq
      exact ⟨b, Or.inr ⟨rfl, rfl, rfl⟩⟩
    · rw [hs.item?, if_neg heq, hnone] at hsome
      cases hsome
  · intro a' b' hab' name hname
    have hne : (⟨.scope, b'⟩ : Loc) ≠ ⟨r, b⟩ := by
      rintro ⟨rfl, rfl⟩
      exact h.not_range hb ⟨a', hab'⟩
    rw [State.bindings_eq (ht.item?_of_ne hne)]
  · intro a' b' hab' hkind
    have hne : (⟨.items, a'⟩ : Loc) ≠ ⟨r, a⟩ := by
      rintro ⟨rfl, rfl⟩
      exact h.not_domain ha ⟨b', hab'⟩
    rw [State.elements_eq (hs.item?_of_ne hne)]
  · rintro a' b' (hab' | ⟨rfl, rfl, rfl⟩)
    · exact Or.inl hab'
    · refine Or.inr ?_
      simp only [Renaming.add, and_self, if_true]
      exact hkinds rfl

end Related

/-! ## Outcomes that are alike -/

/-- Two outcomes, of runs that start from states that are alike: values that are related
or the same failure or crashes, in states that are alike again, under a renaming that has
grown. -/
inductive Ends {α β : Type} (ρ : Renaming) (s t : State) (R : Renaming → α → β → Prop) :
    Outcome State Failure α → Outcome State Failure β → Prop
  | done {ρ' : Renaming} {s' t' : State} {v : α} {w : β} (grown : Extends ρ s t ρ' s' t')
      (related : Related ρ' s' t') (h : R ρ' v w) : Ends ρ s t R (.done v s') (.done w t')
  | failed {ρ' : Renaming} {s' t' : State} (failure : Failure)
      (grown : Extends ρ s t ρ' s' t')
      (related : Related ρ' s' t') :
        Ends ρ s t R (.failed failure s') (.failed failure t')
  | crashed {ρ' : Renaming} {s' t' : State} (grown : Extends ρ s t ρ' s' t')
      (related : Related ρ' s' t') :
      Ends ρ s t R (.crashed s') (.crashed t')
  | exhausted : Ends ρ s t R .exhausted .exhausted

namespace Ends

variable {α β γ δ : Type} {ρ ρ' : Renaming} {s t s' t' : State}
variable {Q : Renaming → α → β → Prop} {R : Renaming → γ → δ → Prop}

theorem pure {v : α} {w : β} (h : Related ρ s t) (hvw : Q ρ v w) :
    Ends ρ s t Q (.done v s) (.done w t) :=
  .done (.refl ρ s t) h hvw

theorem fail (h : Related ρ s t) (failure : Failure) :
    Ends ρ s t Q (.failed failure s) (.failed failure t) :=
  .failed failure (.refl ρ s t) h

theorem inspect
    {f g : State → α} (h : Related ρ s t) (heq : f s = g t) :
    Ends ρ s t (fun _ => Eq) (Computation.inspect f s) (Computation.inspect g t) :=
  .pure h heq

/-- What holds from a later pair of states on holds from an earlier one on. -/
theorem later
    {o : Outcome State Failure α} {o' : Outcome State Failure β}
    (hgrown : Extends ρ s t ρ' s' t') (h : Ends ρ' s' t' Q o o') : Ends ρ s t Q o o' := by
  cases h with
  | done hmore hrelated hvw => exact .done (hgrown.trans hmore) hrelated hvw
  | failed failure hmore hrelated => exact .failed failure (hgrown.trans hmore) hrelated
  | crashed hmore hrelated => exact .crashed (hgrown.trans hmore) hrelated
  | exhausted => exact .exhausted

theorem bind
    {c : Run α} {d : Run β} {f : α → Run γ} {g : β → Run δ} (h : Ends ρ s t Q (c s) (d t))
    (hnext : ∀ ρ' s' t' v w, Extends ρ s t ρ' s' t' → Related ρ' s' t' → Q ρ' v w →
      Ends ρ' s' t' R (f v s') (g w t')) :
    Ends ρ s t R ((c >>= f) s) ((d >>= g) t) := by
  change Ends ρ s t R (Computation.bind c f s) (Computation.bind d g t)
  unfold Computation.bind
  generalize c s = o, d t = o' at h
  cases h with
  | done hgrown hrelated hvw => exact (hnext _ _ _ _ _ hgrown hrelated hvw).later hgrown
  | failed failure hgrown hrelated => exact .failed failure hgrown hrelated
  | crashed hgrown hrelated => exact .crashed hgrown hrelated
  | exhausted => exact .exhausted

theorem located
    {c : Run α} {d : Run β} (h : Ends ρ s t Q (c s) (d t)) (span : Span) :
    Ends ρ s t Q (Run.located span c s) (Run.located span d t) := by
  unfold Run.located Computation.adjustFailure
  generalize c s = o, d t = o' at h
  cases h with
  | done hgrown hrelated hvw => exact .done hgrown hrelated hvw
  | failed failure hgrown hrelated => exact .failed _ hgrown hrelated
  | crashed hgrown hrelated => exact .crashed hgrown hrelated
  | exhausted => exact .exhausted

theorem mono
    {R : Renaming → α → β → Prop} {o : Outcome State Failure α}
    {o' : Outcome State Failure β} (h : Ends ρ s t Q o o')
    (himp : ∀ ρ' s' t' v w, Extends ρ s t ρ' s' t' → Q ρ' v w → R ρ' v w) :
    Ends ρ s t R o o' := by
  cases h with
  | done hgrown hrelated hvw => exact .done hgrown hrelated (himp _ _ _ _ _ hgrown hvw)
  | failed failure hgrown hrelated => exact .failed failure hgrown hrelated
  | crashed hgrown hrelated => exact .crashed hgrown hrelated
  | exhausted => exact .exhausted

theorem ne_exhausted
    {o : Outcome State Failure α} {o' : Outcome State Failure β} (h : Ends ρ s t Q o o') :
    o ≠ .exhausted ↔ o' ≠ .exhausted := by
  cases h with
  | done | failed | crashed => simp
  | exhausted => simp

end Ends

end HandleScript
