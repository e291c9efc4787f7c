import HandleScript.Proofs.Store
import HandleScript.Value.Equality
import Mathlib.Data.List.Perm.Subperm
import Mathlib.Data.List.ProdSigma
import Mathlib.Order.Bounds.Defs

/-!
# Structural equality is bisimilarity

Structural equality takes a pair of containers that is already being compared to be equal,
and forgets this assumption on the way back. The comparison is stated here once more as
rules without a bound on their nesting. A measure shows that every comparison ends: the
pairs that are open at one time are distinct pairs of cells, and there are only so many of
them. What it answers is the greatest relation that goes through lists and arrays element
by element. That an answer `true` is right is an argument by coinduction with assumptions:
under the assumption that a pair is related, its elements are related, so the pair is
related without the assumption.
-/

namespace HandleScript

/-! ## Doubles -/

section

open Float.Model (UnpackedFloat)

/-- What equality compares of a double: a zero counts without its sign, and what is not a
number equals nothing. -/
def comparand? : UnpackedFloat → Option UnpackedFloat
  | .notANumber => none
  | .zero _ => some (.zero .positive)
  | x => some x

theorem compare_self_of_number {x : UnpackedFloat} (h : x.isNaN = false) :
    x.compare x = some .eq := by
  cases x with
  | notANumber => cases h
  | zero => rfl
  | infinity s => cases s <;> rfl
  | finite s m e =>
    have hsame : (compare e e).then (compare m m) = .eq :=
      Ordering.then_eq_eq.mpr ⟨Std.compare_self, Std.compare_self⟩
    cases s with
    | negative => exact congrArg (fun o : Ordering => some o.swap) hsame
    | positive => exact congrArg some hsame

theorem comparand?_eq_of_compare {a b : UnpackedFloat} (h : a.compare b = some .eq) :
    ∃ k, comparand? a = some k ∧ comparand? b = some k := by
  cases a with
  | notANumber => cases h
  | zero =>
    cases b with
    | zero => exact ⟨_, rfl, rfl⟩
    | notANumber => cases h
    | infinity s | finite s => cases s <;> cases h
  | infinity s =>
    cases b with
    | infinity s' =>
      cases s <;> cases s'
      all_goals first | exact ⟨_, rfl, rfl⟩ | cases h
    | zero | notANumber | finite => cases s <;> cases h
  | finite s m e =>
    cases b with
    | zero | notANumber => cases s <;> cases h
    | infinity s' => cases s <;> cases s' <;> cases h
    | finite s' m' e' =>
      have hsame : s = s' ∧ (compare e e').then (compare m m') = .eq := by
        cases s <;> cases s'
        · exact ⟨rfl, Ordering.swap_eq_eq.mp (Option.some.inj h)⟩
        · cases h
        · cases h
        · exact ⟨rfl, Option.some.inj h⟩
      obtain ⟨rfl, hthen⟩ := hsame
      rw [Ordering.then_eq_eq, Std.compare_eq_iff_eq, Std.compare_eq_iff_eq] at hthen
      obtain ⟨rfl, rfl⟩ := hthen
      exact ⟨_, rfl, rfl⟩

theorem compare_of_comparand?_eq {a b k : UnpackedFloat} (ha : comparand? a = some k)
    (hb : comparand? b = some k) : a.compare b = some .eq := by
  cases a with
  | notANumber => cases ha
  | zero =>
    cases ha
    cases b with
    | zero => rfl
    | notANumber | infinity | finite => cases hb
  | infinity =>
    cases ha
    cases b with
    | infinity =>
      cases hb
      exact compare_self_of_number rfl
    | notANumber | zero | finite => cases hb
  | finite =>
    cases ha
    cases b with
    | finite =>
      cases hb
      exact compare_self_of_number rfl
    | notANumber | zero | infinity => cases hb

theorem float_beq_iff_compare {x y : Float} :
    (x == y) = true ↔ x.toModel.unpack.compare y.toModel.unpack = some .eq := by
  change (x.toModel.unpack.compare y.toModel.unpack == some .eq) = true ↔ _
  exact beq_iff_eq

theorem float_beq_symm {x y : Float} (h : (x == y) = true) : (y == x) = true := by
  rw [float_beq_iff_compare] at h ⊢
  obtain ⟨k, hx, hy⟩ := comparand?_eq_of_compare h
  exact compare_of_comparand?_eq hy hx

theorem float_beq_trans {x y z : Float} (h : (x == y) = true) (h' : (y == z) = true) :
    (x == z) = true := by
  rw [float_beq_iff_compare] at h h' ⊢
  obtain ⟨k, hx, hy⟩ := comparand?_eq_of_compare h
  obtain ⟨k', hy', hz⟩ := comparand?_eq_of_compare h'
  cases hy.symm.trans hy'
  exact compare_of_comparand?_eq hx hz

end

namespace Store

/-! ## The relation -/

/-- Two lists or two arrays are one container, or have elements that are related in order;
any other two values are equal as scripts see it. -/
def Agree (store : Store) (R : Value → Value → Prop) (v w : Value) : Prop :=
  match containers? v w with
  | some (a, b) =>
    a = b ∨ List.Forall₂ R (store.elements a).toList (store.elements b).toList
  | none => store.scriptEq v w = true

/-- Related values agree, up to related elements. -/
def IsBisimulation (store : Store) (R : Value → Value → Prop) : Prop :=
  ∀ v w, R v w → store.Agree R v w

/-- Some bisimulation relates the values. -/
def Bisimilar (store : Store) (v w : Value) : Prop :=
  ∃ R, store.IsBisimulation R ∧ R v w

variable {store : Store}

theorem Agree.mono
    {R R' : Value → Value → Prop} {v w : Value} (h : store.Agree R v w)
    (hle : ∀ x y, R x y → R' x y) : store.Agree R' v w := by
  unfold Agree at h ⊢
  split at h
  · exact h.imp_right fun helements => helements.imp hle
  · exact h

theorem bisimilar_isBisimulation (store : Store) :
    store.IsBisimulation store.Bisimilar := by
  rintro v w ⟨R, hR, hvw⟩
  exact (hR v w hvw).mono fun x y hxy => ⟨R, hR, hxy⟩

/-! ## The comparison as rules -/

/-- Two containers need not be gone through: they are one, or they are being compared
already. -/
def Settled (opened : List (Nat × Nat)) (a b : Nat) : Prop :=
  a = b ∨ (a, b) ∈ opened

/-- The elements of two containers side by side. -/
def pairs (store : Store) (a b : Nat) : List (Value × Value) :=
  (store.elements a).toList.zip (store.elements b).toList

/-- Comparing pairs of values one after the other, up to the first difference, while the
pairs of containers in `opened` are being compared. -/
inductive Compares (store : Store) : List (Nat × Nat) → List (Value × Value) → Bool → Prop
  | nil (opened : List (Nat × Nat)) : Compares store opened [] true
  | equal {opened : List (Nat × Nat)} {v w : Value}
      {rest : List (Value × Value)} {r : Bool}
      (simple : containers? v w = none) (h : store.scriptEq v w = true)
      (later : Compares store opened rest r) : Compares store opened ((v, w) :: rest) r
  | different {opened : List (Nat × Nat)} {v w : Value} {rest : List (Value × Value)}
      (simple : containers? v w = none) (h : store.scriptEq v w = false) :
      Compares store opened ((v, w) :: rest) false
  | settled {opened : List (Nat × Nat)} {v w : Value} {a b : Nat}
      {rest : List (Value × Value)} {r : Bool}
      (both : containers? v w = some (a, b)) (h : Settled opened a b)
      (later : Compares store opened rest r) : Compares store opened ((v, w) :: rest) r
  | lengths {opened : List (Nat × Nat)} {v w : Value} {a b : Nat}
      {rest : List (Value × Value)}
      (both : containers? v w = some (a, b)) (new : ¬Settled opened a b)
      (h : (store.elements a).size ≠ (store.elements b).size) :
      Compares store opened ((v, w) :: rest) false
  | elements {opened : List (Nat × Nat)} {v w : Value} {a b : Nat}
      {rest : List (Value × Value)} {r : Bool}
      (both : containers? v w = some (a, b)) (new : ¬Settled opened a b)
      (h : (store.elements a).size = (store.elements b).size)
      (inside : Compares store ((a, b) :: opened) (store.pairs a b) true)
      (later : Compares store opened rest r) : Compares store opened ((v, w) :: rest) r
  | unequal {opened : List (Nat × Nat)} {v w : Value} {a b : Nat}
      {rest : List (Value × Value)}
      (both : containers? v w = some (a, b)) (new : ¬Settled opened a b)
      (h : (store.elements a).size = (store.elements b).size)
      (inside : Compares store ((a, b) :: opened) (store.pairs a b) false) :
      Compares store opened ((v, w) :: rest) false

/-! ## Every comparison ends -/

/-- Pairs that can be open at one time: distinct pairs of cells of the store. -/
structure Opened (store : Store) (opened : List (Nat × Nat)) : Prop where
  nodup : opened.Nodup
  cells : ∀ p ∈ opened, p.1 < store.items.size ∧ p.2 < store.items.size

theorem Opened.length_le {opened : List (Nat × Nat)} (h : store.Opened opened) :
    opened.length ≤ store.items.size * store.items.size := by
  have hcells : opened ⊆ List.range store.items.size ×ˢ List.range store.items.size := by
    intro p hp
    have hp' := h.cells p hp
    exact List.mem_product.mpr ⟨List.mem_range.mpr hp'.1, List.mem_range.mpr hp'.2⟩
  simpa [List.length_product] using (h.nodup.subperm hcells).length_le

theorem Opened.cons
    {opened : List (Nat × Nat)} (h : store.Opened opened) {a b : Nat}
    (hnew : ¬Settled opened a b) {p : Value × Value} (hp : p ∈ store.pairs a b) :
    store.Opened ((a, b) :: opened) := by
  have hmem := List.of_mem_zip hp
  constructor
  · exact List.nodup_cons.mpr ⟨fun hopen => hnew (.inr hopen), h.nodup⟩
  · intro q hq
    rcases List.mem_cons.mp hq with rfl | hold
    · exact ⟨lt_size_of_mem_elements hmem.1, lt_size_of_mem_elements hmem.2⟩
    · exact h.cells q hold

/-- A pair of values is compared by the rules once the pairs inside it are. -/
theorem compares_cons
    {fuel : Nat} {opened : List (Nat × Nat)} {rest : List (Value × Value)} (v w : Value)
    (hinside : ∀ a b, ¬Settled opened a b →
      store.Compares ((a, b) :: opened) (store.pairs a b)
      ((store.pairs a b).all fun (x, y) => store.structuralEqFrom fuel
        ((a, b) :: opened) x y))
    {r : Bool} (hrest : store.Compares opened rest r) :
    store.Compares opened ((v, w) :: rest)
      (store.structuralEqFrom (fuel + 1) opened v w && r) := by
  rw [structuralEqFrom]
  cases hboth : containers? v w with
  | none =>
      cases heq : store.scriptEq v w with
      | true => simpa [heq] using Compares.equal hboth heq hrest
      | false => simpa [heq] using Compares.different hboth heq
  | some cells =>
      obtain ⟨a, b⟩ := cells
      dsimp only
      by_cases hsettled : Settled opened a b
      · have htest : (a == b || opened.contains (a, b)) = true := by
          simpa [Settled] using hsettled
        rw [if_pos htest]
        exact .settled hboth hsettled hrest
      · have htest : ¬(a == b || opened.contains (a, b)) = true := by
          simpa [Settled] using hsettled
        rw [if_neg htest]
        by_cases hsize : (store.elements a).size = (store.elements b).size
        · have hin := hinside a b hsettled
          simp only [pairs] at hin
          cases hall : ((store.elements a).toList.zip (store.elements b).toList).all
              fun (x, y) => store.structuralEqFrom fuel ((a, b) :: opened) x y with
          | true =>
              rw [hall] at hin
              simpa [hsize] using Compares.elements hboth hsettled hsize hin hrest
          | false =>
              rw [hall] at hin
              simpa [hsize] using Compares.unequal hboth hsettled hsize hin
        · have hne : ((store.elements a).size == (store.elements b).size) = false := by
            simpa using hsize
          simpa only [hne, Bool.false_and] using Compares.lengths hboth hsettled hsize

/-- The open pairs do not repeat, so the steps that are granted are never used up. -/
theorem compares_structuralEqFrom
    (fuel : Nat) {opened : List (Nat × Nat)} (hopened : store.Opened opened)
    (hfuel : store.items.size * store.items.size < fuel + opened.length)
    (ps : List (Value × Value)) :
    store.Compares opened ps
      (ps.all fun (v, w) => store.structuralEqFrom fuel opened v w) := by
  induction fuel generalizing opened ps with
  | zero =>
      have hle := hopened.length_le
      omega
  | succ fuel ih =>
      have hinside : ∀ a b, ¬Settled opened a b →
          store.Compares ((a, b) :: opened) (store.pairs a b)
          ((store.pairs a b).all fun (x, y) => store.structuralEqFrom fuel
            ((a, b) :: opened) x y) := by
        intro a b hnew
        -- Containers without elements need not be cells, but then nothing is compared
        -- inside them.
        cases hpairs : store.pairs a b with
        | nil => exact .nil _
        | cons p rest =>
            have hp : p ∈ store.pairs a b := by simp [hpairs]
            refine ih (hopened.cons hnew hp) ?_ _
            simp only [List.length_cons]
            omega
      induction ps with
      | nil => exact .nil _
      | cons p rest ihrest =>
          obtain ⟨v, w⟩ := p
          exact compares_cons v w hinside ihrest

theorem compares_structuralEq (store : Store) (v w : Value) :
    store.Compares [] [(v, w)] (store.structuralEq v w) := by
  have hnone : store.Opened [] := ⟨.nil, fun _ hp => nomatch hp⟩
  have hcompares := compares_structuralEqFrom (store.items.size * store.items.size + 1)
    hnone (by simp) [(v, w)]
  simpa [structuralEq] using hcompares

/-! ## What a comparison answers -/

/-- Related values are in a pair of containers that is assumed to be equal, or agree. -/
def IsBisimulationUpTo (store : Store) (opened : List (Nat × Nat))
    (R : Value → Value → Prop) : Prop :=
  ∀ v w, R v w → (∃ p ∈ opened, containers? v w = some p) ∨ store.Agree R v w

/-- Some bisimulation under the assumptions relates the values. -/
def BisimilarUpTo (store : Store) (opened : List (Nat × Nat)) (v w : Value) : Prop :=
  ∃ R, store.IsBisimulationUpTo opened R ∧ R v w

theorem bisimilarUpTo_nil {v w : Value} :
    store.BisimilarUpTo [] v w ↔ store.Bisimilar v w := by
  simp [BisimilarUpTo, Bisimilar, IsBisimulationUpTo, IsBisimulation]

theorem bisimilarUpTo_isBisimulationUpTo (store : Store) (opened : List (Nat × Nat)) :
    store.IsBisimulationUpTo opened (store.BisimilarUpTo opened) := by
  rintro v w ⟨R, hR, hvw⟩
  exact (hR v w hvw).imp_right fun hagree => hagree.mono fun x y hxy => ⟨R, hR, hxy⟩

/-- Values that agree up to bisimilar elements are bisimilar. -/
theorem BisimilarUpTo.of_agree
    {opened : List (Nat × Nat)} {v w : Value}
    (h : store.Agree (store.BisimilarUpTo opened) v w) :
    store.BisimilarUpTo opened v w := by
  let R : Value → Value → Prop := fun x y =>
    store.BisimilarUpTo opened x y ∨ store.Agree (store.BisimilarUpTo opened) x y
  refine ⟨R, ?_, .inr h⟩
  intro x y hxy
  rcases hxy with hold | hagree
  · have hstep := bisimilarUpTo_isBisimulationUpTo store opened x y hold
    exact hstep.imp_right fun hagree => hagree.mono fun _ _ => .inl
  · exact .inr (hagree.mono fun _ _ => .inl)

/-- An assumption that implies what it assumes can be dropped: two containers whose
elements are bisimilar under the assumption that the containers are equal are bisimilar
without it. -/
theorem BisimilarUpTo.discharge
    {opened : List (Nat × Nat)} {v w : Value} {a b : Nat}
    (hboth : containers? v w = some (a, b))
    (h : List.Forall₂ (store.BisimilarUpTo ((a, b) :: opened)) (store.elements a).toList
      (store.elements b).toList) : store.BisimilarUpTo opened v w := by
  let R : Value → Value → Prop := fun x y =>
    store.BisimilarUpTo ((a, b) :: opened) x y ∨ containers? x y = some (a, b)
  have hhere : ∀ x y, containers? x y = some (a, b) → store.Agree R x y := by
    intro x y hxy
    simp only [Agree, hxy]
    exact .inr (h.imp fun _ _ => .inl)
  refine ⟨R, ?_, .inr hboth⟩
  intro x y hxy
  rcases hxy with hassumed | hcells
  · rcases bisimilarUpTo_isBisimulationUpTo store _ x y hassumed with ⟨p, hp, hcells⟩ |
      hagree
    · rcases List.mem_cons.mp hp with rfl | hold
      · exact .inr (hhere x y hcells)
      · exact .inl ⟨p, hold, hcells⟩
    · exact .inr (hagree.mono fun _ _ => .inl)
  · exact .inr (hhere x y hcells)

theorem forall₂_of_pairs
    {R : Value → Value → Prop} {a b : Nat}
    (hsize : (store.elements a).size = (store.elements b).size)
    (h : ∀ p ∈ store.pairs a b, R p.1 p.2) :
    List.Forall₂ R (store.elements a).toList (store.elements b).toList :=
  List.forall₂_iff_zip.mpr ⟨by simpa using hsize, fun {_ _} hp => h _ hp⟩

/-- A comparison that finds no difference has compared bisimilar values only. -/
theorem Compares.sound
    {opened : List (Nat × Nat)} {ps : List (Value × Value)} {r : Bool}
    (h : store.Compares opened ps r) (hr : r = true) :
    ∀ p ∈ ps, store.BisimilarUpTo opened p.1 p.2 := by
  induction h with
  | nil opened =>
      intro p hp
      cases hp
  | different => cases hr
  | lengths => cases hr
  | unequal => cases hr
  | equal hsimple heq _ ih =>
      refine List.forall_mem_cons.mpr ⟨?_, ih hr⟩
      exact .of_agree (by simpa only [Agree, hsimple] using heq)
  | settled hboth hsettled _ ih =>
      refine List.forall_mem_cons.mpr ⟨?_, ih hr⟩
      rcases hsettled with hsame | hopen
      · exact .of_agree (by simpa only [Agree, hboth] using Or.inl hsame)
      · refine ⟨fun x y => containers? x y = some _, ?_, hboth⟩
        exact fun x y hxy => .inl ⟨_, hopen, hxy⟩
  | elements hboth hnew hsize _ _ ihinside ihlater =>
      refine List.forall_mem_cons.mpr ⟨?_, ihlater hr⟩
      exact .discharge hboth (forall₂_of_pairs hsize (ihinside rfl))

/-- A comparison finds no difference between bisimilar values, whatever is open. -/
theorem Compares.complete
    {opened : List (Nat × Nat)} {ps : List (Value × Value)} {r : Bool}
    (h : store.Compares opened ps r) (hps : ∀ p ∈ ps, store.Bisimilar p.1 p.2) :
    r = true := by
  have hagree : ∀ v w a b, store.Bisimilar v w → containers? v w = some (a, b) → a ≠ b →
      List.Forall₂ store.Bisimilar (store.elements a).toList
        (store.elements b).toList := by
    intro v w a b hvw hboth hne
    have hstep := bisimilar_isBisimulation store v w hvw
    simp only [Agree, hboth] at hstep
    exact hstep.resolve_left hne
  induction h with
  | nil => rfl
  | equal _ _ _ ih => exact ih (List.forall_mem_cons.mp hps).2
  | settled _ _ _ ih => exact ih (List.forall_mem_cons.mp hps).2
  | elements _ _ _ _ _ _ ih => exact ih (List.forall_mem_cons.mp hps).2
  | different hsimple hne =>
      have hstep := bisimilar_isBisimulation store _ _ (List.forall_mem_cons.mp hps).1
      simp only [Agree, hsimple] at hstep
      rw [hne] at hstep
      exact hstep
  | lengths hboth hnew hsize =>
      have helements := hagree _ _ _ _ (List.forall_mem_cons.mp hps).1 hboth
        fun hsame => hnew (.inl hsame)
      exact absurd (by simpa using helements.length_eq) hsize
  | unequal hboth hnew hsize _ ih =>
      have helements := hagree _ _ _ _ (List.forall_mem_cons.mp hps).1 hboth
        fun hsame => hnew (.inl hsame)
      exact ih fun p hp => (List.forall₂_iff_zip.mp helements).2 hp

theorem Compares.eq_true_iff {v w : Value} {r : Bool} (h : store.Compares [] [(v, w)] r) :
    r = true ↔ store.Bisimilar v w := by
  constructor
  · intro hr
    exact bisimilarUpTo_nil.mp (h.sound hr (v, w) List.mem_cons_self)
  · intro hvw
    exact h.complete (by simpa using hvw)

theorem structuralEq_iff_bisimilar (store : Store) (v w : Value) :
    store.structuralEq v w = true ↔ store.Bisimilar v w :=
  (store.compares_structuralEq v w).eq_true_iff

/-! ## Symmetry and transitivity -/

theorem scriptEq_symm {v w : Value} (h : store.scriptEq v w = true) :
    store.scriptEq w v = true := by
  unfold scriptEq at h
  split at h
  case h_3 a b => exact float_beq_symm h
  case h_14 => cases h
  all_goals simp_all [scriptEq, Text.samePath]

theorem scriptEq_trans
    {u v w : Value} (h : store.scriptEq u v = true) (h' : store.scriptEq v w = true) :
    store.scriptEq u w = true := by
  unfold scriptEq at h
  split at h
  case h_14 => cases h
  all_goals unfold scriptEq at h'; split at h' <;> simp_all [scriptEq, Text.samePath]
  exact float_beq_trans h h'

theorem containers?_swap (v w : Value) :
    containers? w v = (containers? v w).map Prod.swap := by
  cases v <;> cases w <;> rfl

theorem containers?_trans
    {u v w : Value} {a b b' c : Nat} (h : containers? u v = some (a, b))
    (h' : containers? v w = some (b', c)) : b' = b ∧ containers? u w = some (a, c) := by
  unfold containers? at h
  split at h <;> cases h <;> unfold containers? at h' <;>
    split at h' <;> simp_all [containers?]

/-- What equals a container as scripts see it is a container of the same kind. -/
theorem isSome_containers?_of_scriptEq
    {u v w : Value} {p : Nat × Nat} (h : containers? u v = some p)
    (heq : store.scriptEq v w = true) : (containers? v w).isSome := by
  unfold containers? at h
  split at h <;> cases h <;> unfold scriptEq at heq <;>
    split at heq <;> simp_all [containers?]

/-- What equals no container as scripts see it is no container. -/
theorem containers?_eq_none_of_scriptEq
    {u v : Value} (h : containers? u v = none) (heq : store.scriptEq u v = true)
    (w : Value) : containers? v w = none ∧ containers? u w = none := by
  unfold scriptEq at heq
  split at heq <;> simp_all [containers?]

theorem forall₂_comp
    {R S T : Value → Value → Prop} (hcomp : ∀ x y z, R x y → S y z → T x z)
    {us vs ws : List Value} (h : List.Forall₂ R us vs) (h' : List.Forall₂ S vs ws) :
    List.Forall₂ T us ws := by
  induction h generalizing ws with
  | nil =>
      cases h'
      exact .nil
  | cons huv _ ih =>
      cases h' with
      | cons hvw hrest => exact .cons (hcomp _ _ _ huv hvw) (ih hrest)

theorem Agree.swap
    {R S : Value → Value → Prop} (hswap : ∀ x y, R x y → S y x) {v w : Value}
    (h : store.Agree R v w) : store.Agree S w v := by
  unfold Agree at h ⊢
  rw [containers?_swap v w]
  cases hboth : containers? v w with
  | none =>
      rw [hboth] at h
      exact scriptEq_symm h
  | some cells =>
      obtain ⟨a, b⟩ := cells
      rw [hboth] at h
      rcases h with rfl | helements
      · exact .inl rfl
      · exact .inr (List.Forall₂.flip (helements.imp hswap))

theorem Agree.comp
    {R S T : Value → Value → Prop} (hR : ∀ x y, R x y → T x y) (hS : ∀ x y, S x y → T x y)
    (hcomp : ∀ x y z, R x y → S y z → T x z) {u v w : Value} (h : store.Agree R u v)
    (h' : store.Agree S v w) : store.Agree T u w := by
  unfold Agree at h h' ⊢
  cases hboth : containers? u v with
  | none =>
      rw [hboth] at h
      obtain ⟨hnext, hends⟩ := containers?_eq_none_of_scriptEq hboth h w
      rw [hnext] at h'
      rw [hends]
      exact scriptEq_trans h h'
  | some cells =>
      obtain ⟨a, b⟩ := cells
      rw [hboth] at h
      cases hnext : containers? v w with
      | none =>
          rw [hnext] at h'
          have hsome := isSome_containers?_of_scriptEq hboth h'
          rw [hnext] at hsome
          cases hsome
      | some cells =>
          obtain ⟨b', c⟩ := cells
          rw [hnext] at h'
          obtain ⟨rfl, hends⟩ := containers?_trans hboth hnext
          rw [hends]
          -- One container on either side hands over what the other side says.
          rcases h with rfl | helements
          · exact h'.imp_right fun helements' => helements'.imp hS
          · rcases h' with rfl | helements'
            · exact .inr (helements.imp hR)
            · exact .inr (forall₂_comp hcomp helements helements')

theorem Bisimilar.symm {v w : Value} (h : store.Bisimilar v w) : store.Bisimilar w v := by
  refine ⟨fun x y => store.Bisimilar y x, ?_, h⟩
  intro x y hyx
  exact (bisimilar_isBisimulation store y x hyx).swap fun _ _ hab => hab

theorem Bisimilar.trans
    {u v w : Value} (h : store.Bisimilar u v) (h' : store.Bisimilar v w) :
    store.Bisimilar u w := by
  let R : Value → Value → Prop := fun x z =>
    store.Bisimilar x z ∨ ∃ y, store.Bisimilar x y ∧ store.Bisimilar y z
  refine ⟨R, ?_, .inr ⟨v, h, h'⟩⟩
  intro x z hxz
  rcases hxz with hdirect | ⟨y, hxy, hyz⟩
  · exact (bisimilar_isBisimulation store x z hdirect).mono fun _ _ => .inl
  · have hleft := bisimilar_isBisimulation store x y hxy
    have hright := bisimilar_isBisimulation store y z hyz
    exact hleft.comp (fun _ _ => .inl) (fun _ _ => .inl)
      (fun a b c hab hbc => .inr ⟨b, hab, hbc⟩) hright

/-- Every comparison ends, and structural equality is its answer: the greatest relation
under which related lists or arrays are one container or have the same length and related
elements in order, and any other related values are equal as scripts see it. In particular
it is symmetric and transitive. -/
theorem structural_equality_is_bisimilarity (store : Store) :
    (∀ v w r, store.Compares [] [(v, w)] r ↔ store.structuralEq v w = r) ∧
    IsGreatest {R | store.IsBisimulation R} (fun v w => store.structuralEq v w = true) ∧
    (∀ v w, store.structuralEq v w = true → store.structuralEq w v = true) ∧
    (∀ u v w, store.structuralEq u v = true → store.structuralEq v w = true →
      store.structuralEq u w = true) := by
  have hsame : (fun v w => store.structuralEq v w = true) = store.Bisimilar := by
    funext v w
    exact propext (store.structuralEq_iff_bisimilar v w)
  refine ⟨?_, ?_, ?_, ?_⟩
  · intro v w r
    constructor
    · intro h
      rw [Bool.eq_iff_iff, structuralEq_iff_bisimilar, h.eq_true_iff]
    · rintro rfl
      exact store.compares_structuralEq v w
  · rw [hsame]
    constructor
    · exact store.bisimilar_isBisimulation
    · intro R hR v w hvw
      exact ⟨R, hR, hvw⟩
  · intro v w h
    rw [structuralEq_iff_bisimilar] at h ⊢
    exact h.symm
  · intro u v w h h'
    rw [structuralEq_iff_bisimilar] at h h' ⊢
    exact h.trans h'

/-- A list that contains itself, and two lists that contain each other: no comparison of
them finds a difference. -/
theorem structural_equality_is_bisimilarity_cycles :
    let store : Store :=
      { Store.empty with items := ⟨#[#[.list 0], #[.list 2], #[.list 1]]⟩ }
    store.structuralEq (.list 0) (.list 1) = true ∧
        store.structuralEq (.list 1) (.list 2) = true ∧
      store.structuralEq (.list 0) (.list 2) = true ∧
        store.Compares [] [(.list 0, .list 2)] true := by
  intro store
  have hfirst : store.structuralEq (.list 0) (.list 1) = true := by decide
  have hsecond : store.structuralEq (.list 1) (.list 2) = true := by decide
  obtain ⟨hcompares, -, -, htrans⟩ := structural_equality_is_bisimilarity store
  have hends := htrans _ _ _ hfirst hsecond
  exact ⟨hfirst, hsecond, hends, (hcompares _ _ _).mpr hends⟩

end Store

end HandleScript
