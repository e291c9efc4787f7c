import HandleScript.Proofs.Arguments
import HandleScript.Proofs.Failing
import HandleScript.Proofs.Heap
import Mathlib.Data.Int.ModEq

/-!
# Arithmetic on 64-bit integers

Ints and longs are 64-bit integers, and their methods are compared here with the integers
themselves. A result out of range is replaced by the one integer in range that is
congruent to it. Division is rounded towards zero; its only result out of range is that of
the least integer divided by minus one.
-/

namespace HandleScript

/-- The kinds of 64-bit integers. -/
inductive WordKind where
  | int
  | long
deriving DecidableEq, Repr

namespace WordKind

/-- The handle of the kind that names a cell. -/
def handle : WordKind → Nat → Value
  | int, cell => .int cell
  | long, cell => .long cell

/-- A number of the kind. -/
def number : WordKind → Int64 → Number
  | int, n => .int n
  | long, n => .long n

/-- Two numbers of the kind, as the operands of an operation. -/
def pair : WordKind → Int64 → Int64 → NumberPair
  | int, a, b => .int a b
  | long, a, b => .long a b

end WordKind

/-- The 64-bit integer that is congruent to the exact one modulo 2⁶⁴. -/
structure Reduces (exact : Int) (r : Int64) : Prop where
  congruent : r.toInt ≡ exact [ZMOD 2 ^ 64]
  range : -2 ^ 63 ≤ r.toInt ∧ r.toInt < 2 ^ 63

/-- The quotient and the remainder of a division of 64-bit integers. -/
structure DividesInto (a b q r : Int) : Prop where
  recombined : q * b + r ≡ a [ZMOD 2 ^ 64]
  /-- The quotient is rounded towards zero. -/
  truncated : ¬(a = -2 ^ 63 ∧ b = -1) → q = a.tdiv b
  /-- The only quotient out of range wraps around. -/
  wrapped : a = -2 ^ 63 ∧ b = -1 → q = -2 ^ 63 ∧ r = 0
  bounded : r.natAbs < b.natAbs
  signed : r = 0 ∨ r.sign = a.sign

/-! ## Results -/

theorem bmod_modEq (n : Int) : n.bmod (2 ^ 64) ≡ n [ZMOD 2 ^ 64] :=
  Int.bmod_emod

theorem reduces_of_eq_bmod {exact : Int} {r : Int64} (h : r.toInt = exact.bmod (2 ^ 64)) :
    Reduces exact r := by
  refine ⟨?_, r.le_toInt, r.toInt_lt⟩
  rw [h]
  exact bmod_modEq exact

theorem reduces_add (a b : Int64) : Reduces (a.toInt + b.toInt) (a + b) :=
  reduces_of_eq_bmod (Int64.toInt_add a b)

theorem reduces_sub (a b : Int64) : Reduces (a.toInt - b.toInt) (a - b) :=
  reduces_of_eq_bmod (Int64.toInt_sub a b)

theorem reduces_mul (a b : Int64) : Reduces (a.toInt * b.toInt) (a * b) :=
  reduces_of_eq_bmod (Int64.toInt_mul a b)

theorem reduces_neg (a : Int64) : Reduces (-a.toInt) (-a) :=
  reduces_of_eq_bmod (Int64.toInt_neg a)

/-- A quotient is out of range for one dividend and one divisor only. -/
theorem toInt_div_of_not_wrapped {a b : Int64} (h : ¬(a.toInt = -2 ^ 63 ∧ b.toInt = -1)) :
    (a / b).toInt = a.toInt.tdiv b.toInt := by
  by_cases ha : a = Int64.minValue
  · refine Int64.toInt_div_of_ne_right a b ?_
    rintro rfl
    exact h ⟨by rw [ha, Int64.toInt_minValue], rfl⟩
  · exact Int64.toInt_div_of_ne_left a b ha

theorem dividesInto_div_mod {a b : Int64} (hb : b ≠ 0) :
    DividesInto a.toInt b.toInt (a / b).toInt (a % b).toInt where
  recombined := by
    calc (a / b).toInt * b.toInt + (a % b).toInt
        ≡ a.toInt.tdiv b.toInt * b.toInt + a.toInt.tmod b.toInt [ZMOD 2 ^ 64] := by
          rw [Int64.toInt_div, Int64.toInt_mod]
          exact ((bmod_modEq _).mul_right _).add_right _
      _ = a.toInt := Int.tdiv_mul_add_tmod a.toInt b.toInt
  truncated := toInt_div_of_not_wrapped
  wrapped := by
    rintro ⟨ha, hb⟩
    rw [Int64.toInt_div, Int64.toInt_mod, ha, hb]
    decide
  bounded := by
    have hne : b.toInt ≠ 0 := fun hzero => hb (Int64.toInt_inj.mp hzero)
    rw [Int64.toInt_mod, Int.natAbs_tmod]
    exact Nat.mod_lt _ (Int.natAbs_pos.mpr hne)
  signed := by
    rw [Int64.toInt_mod, Int.sign_tmod]
    by_cases hdvd : b.toInt ∣ a.toInt
    · exact .inl (Int.tmod_eq_zero_of_dvd hdvd)
    · exact .inr (if_neg hdvd)

/-! ## Methods -/

/-- The name of the method. -/
def Arithmetic.name : Arithmetic → String
  | plus => "plus"
  | minus => "minus"
  | multiply => "multiply"
  | divide => "divide"
  | mod => "mod"

/-- The name of the method. -/
def Comparison.name : Comparison → String
  | less => "less"
  | greater => "greater"
  | lessOrEqual => "lessOrEqual"
  | greaterOrEqual => "greaterOrEqual"

theorem Operation.accepts_ready {op : EagerOp} (values : List Value)
    (h : op.arity = some values.length) :
    (Operation.eager op).accepts (Arguments.ready values).count = true := by
  rw [Operation.accepts, Operation.arity, h]
  exact beq_self_eq_true values.length

namespace WordKind

variable (host : Host) (fuel scope : Nat) {s : State} (kind : WordKind)
  {m n : Nat} {a b : Int64}

theorem integers_get (ha : s.item? ⟨.integer, m⟩ = some (.integer a)) :
    s.store.integers.get m = a :=
  Pool.get_of_map_eq_some (fun heq => Item.integer.inj heq) ha

theorem pair_of (ha : s.item? ⟨.integer, m⟩ = some (.integer a))
    (hb : s.item? ⟨.integer, n⟩ = some (.integer b)) (method : String) :
    NumberPair.of s.store method (kind.handle m) (kind.handle n) =
      .ok (kind.pair a b) := by
  rw [← integers_get ha, ← integers_get hb]
  cases kind <;> rfl

theorem receiverNumber_handle (ha : s.item? ⟨.integer, m⟩ = some (.integer a))
    (method : String) :
    receiverNumber s.store (kind.handle m) method = .ok (kind.number a) := by
  rw [← integers_get ha]
  cases kind <;> rfl

theorem operation?_handle (cell : Nat) {method : String} {op : Operation}
    (h : Operation.numberTable.lookup method = some op) :
    (kind.handle cell).kind.operation? method = some op := by
  cases kind <;> exact h

theorem plan_arithmetic (ha : s.item? ⟨.integer, m⟩ = some (.integer a))
    (hb : s.item? ⟨.integer, n⟩ = some (.integer b)) (op : Arithmetic) (method : String) :
    (NumberOp.arithmetic op).plan s.store (kind.handle m) method [kind.handle n] =
      (op.onWords a b).map fun r => .fresh (.number (kind.number r)) := by
  simp only [NumberOp.plan, kind.pair_of ha hb]
  cases kind <;> change (op.onWords a b).map _ >>= _ = _ <;> cases op.onWords a b <;> rfl

theorem dispatch_arithmetic (ha : s.item? ⟨.integer, m⟩ = some (.integer a))
    (hb : s.item? ⟨.integer, n⟩ = some (.integer b)) (op : Arithmetic) :
    dispatch host (fuel + 3) scope (kind.handle m) op.name (.ready [kind.handle n]) s =
      match op.onWords a b with
      | .ok r => Run.alloc (.number (kind.number r)) s
      | .error cause => .failed ⟨cause, none⟩ s := by
  have hfound : (kind.handle m).kind.operation? op.name =
      some (.number (.arithmetic op)) :=
    kind.operation?_handle m (by cases op <;> decide)
  have hplan := kind.plan_arithmetic ha hb op op.name
  rw [dispatch_of_eager hfound rfl]
  cases hresult : op.onWords a b with
  | ok r => exact Run.carryOut_fresh (by rw [EagerOp.plan, hplan, hresult]; rfl)
  | error cause => exact Run.carryOut_of_error (by rw [EagerOp.plan, hplan, hresult]; rfl)

theorem dispatch_comparison (ha : s.item? ⟨.integer, m⟩ = some (.integer a))
    (hb : s.item? ⟨.integer, n⟩ = some (.integer b)) (op : Comparison) :
    dispatch host (fuel + 3) scope (kind.handle m) op.name (.ready [kind.handle n]) s =
      Run.alloc (.bool (op.onWords a b)) s := by
  have hfound : (kind.handle m).kind.operation? op.name = some (.number (.compare op)) :=
    kind.operation?_handle m (by cases op <;> decide)
  have hcompare : (kind.pair a b).compare op = op.onWords a b := by cases kind <;> rfl
  rw [dispatch_of_eager hfound rfl]
  refine Run.carryOut_fresh ?_
  simp only [EagerOp.plan, NumberOp.plan, kind.pair_of ha hb, ← hcompare]
  rfl

theorem dispatch_equal (ha : s.item? ⟨.integer, m⟩ = some (.integer a))
    (hb : s.item? ⟨.integer, n⟩ = some (.integer b)) :
    dispatch host (fuel + 3) scope (kind.handle m) "equal" (.ready [kind.handle n]) s =
      Run.alloc (.bool (a == b)) s := by
  have hfound : (kind.handle m).kind.operation? "equal" = some (.common .equal) :=
    kind.operation?_handle m (by decide)
  have hequal : s.store.scriptEq (kind.handle m) (kind.handle n) = (a == b) := by
    rw [← integers_get ha, ← integers_get hb]
    cases kind <;> rfl
  rw [dispatch_of_eager hfound rfl, ← hequal]
  exact Run.carryOut_fresh rfl

theorem dispatch_negate (ha : s.item? ⟨.integer, m⟩ = some (.integer a)) :
    dispatch host (fuel + 3) scope (kind.handle m) "negate" (.ready []) s =
      Run.alloc (.number (kind.number (-a))) s := by
  have hfound : (kind.handle m).kind.operation? "negate" = some (.number .negate) :=
    kind.operation?_handle m (by decide)
  rw [dispatch_of_eager hfound rfl]
  refine Run.carryOut_fresh ?_
  simp only [EagerOp.plan, NumberOp.plan, kind.receiverNumber_handle ha]
  cases kind <;> rfl

/-- What is written to the receiver is there afterwards, and nothing else has changed. -/
theorem writes_handle (ha : s.item? ⟨.integer, m⟩ = some (.integer a)) (r : Int64) :
    s.Writes ⟨.integer, m⟩ (.integer r)
      { s with store := s.store.write (kind.handle m) (.number (kind.number r)) } := by
  have hsuits : (Content.number (kind.number r)).suits (kind.handle m).kind = true := by
    cases kind <;> rfl
  have hplace : (kind.handle m).loc? = some ⟨.integer, m⟩ := by cases kind <;> rfl
  have hwrites := s.writes_write hsuits hplace (by rw [ha]; rfl)
  cases kind <;> exact hwrites

/-- A method without arguments that writes a number to the receiver gives the receiver
back. -/
theorem dispatch_step {method : String} {op : NumberOp} {r : Int64}
    (hfound : Operation.numberTable.lookup method = some (.number op))
    (harity : (EagerOp.number op).arity = some 0)
    (hplan : op.plan s.store (kind.handle m) method [] =
      .ok (.write (kind.handle m) (.number (kind.number r)))) :
    dispatch host (fuel + 3) scope (kind.handle m) method (.ready []) s =
      .done (kind.handle m)
        { s with store := s.store.write (kind.handle m) (.number (kind.number r)) } := by
  rw [dispatch_of_eager (kind.operation?_handle m hfound)
    (Operation.accepts_ready [] harity)]
  exact Run.carryOut_write hplan

theorem dispatch_increment (ha : s.item? ⟨.integer, m⟩ = some (.integer a)) :
    dispatch host (fuel + 3) scope (kind.handle m) "increment" (.ready []) s =
      .done (kind.handle m)
        { s with
          store := s.store.write (kind.handle m) (.number (kind.number (a + 1))) } := by
  have hfound : Operation.numberTable.lookup "increment" = some (.number .increment) := by
    decide
  refine kind.dispatch_step host fuel scope hfound rfl ?_
  simp only [NumberOp.plan, kind.receiverNumber_handle ha]
  cases kind <;> rfl

theorem dispatch_decrement (ha : s.item? ⟨.integer, m⟩ = some (.integer a)) :
    dispatch host (fuel + 3) scope (kind.handle m) "decrement" (.ready []) s =
      .done (kind.handle m)
        { s with
          store := s.store.write (kind.handle m) (.number (kind.number (a - 1))) } := by
  have hfound : Operation.numberTable.lookup "decrement" = some (.number .decrement) := by
    decide
  refine kind.dispatch_step host fuel scope hfound rfl ?_
  simp only [NumberOp.plan, kind.receiverNumber_handle ha]
  cases kind <;> rfl

end WordKind

/-- For all 64-bit integers, ints as well as longs: addition, subtraction, multiplication,
negation and steps by one give the exact result reduced into range, division by zero
fails, any other division gives a truncated quotient and its remainder, and comparisons
are those of the integers. Nothing else fails. -/
theorem integer_arithmetic_is_exact_modulo_range
    (host : Host) (fuel scope : Nat) (s : State) (kind : WordKind) {m n : Nat}
    {a b : Int64} (ha : s.item? ⟨.integer, m⟩ = some (.integer a))
    (hb : s.item? ⟨.integer, n⟩ = some (.integer b)) :
    let call method args := dispatch host (fuel + 3) scope
      (kind.handle m) method (.ready args) s
    let gives method args r := call method args = Run.alloc (.number (kind.number r)) s
    (∃ r, gives "plus" [kind.handle n] r ∧ Reduces (a.toInt + b.toInt) r) ∧
    (∃ r, gives "minus" [kind.handle n] r ∧ Reduces (a.toInt - b.toInt) r) ∧
    (∃ r, gives "multiply" [kind.handle n] r ∧ Reduces (a.toInt * b.toInt) r) ∧
    (∃ r, gives "negate" [] r ∧ Reduces (-a.toInt) r) ∧
    (∃ r s', call "increment" [] = .done (kind.handle m) s' ∧
        s.Writes ⟨.integer, m⟩ (.integer r) s' ∧
      Reduces (a.toInt + 1) r) ∧
    (∃ r s', call "decrement" [] = .done (kind.handle m) s' ∧
        s.Writes ⟨.integer, m⟩ (.integer r) s' ∧
      Reduces (a.toInt - 1) r) ∧
    (b = 0 → ∀ method ∈ ["divide", "mod"], call method [kind.handle n] =
      .failed ⟨.divisionByZero, none⟩ s) ∧
    (b ≠ 0 → ∃ q r, gives "divide" [kind.handle n] q ∧ gives "mod" [kind.handle n] r ∧
      DividesInto a.toInt b.toInt q.toInt r.toInt) ∧
    ∀ method holds, (method, holds) ∈
        [("less", decide (a.toInt < b.toInt)), ("greater", decide (b.toInt < a.toInt)),
          ("lessOrEqual", decide (a.toInt ≤ b.toInt)),
            ("greaterOrEqual", decide (b.toInt ≤ a.toInt)),
          ("equal", decide (a.toInt = b.toInt))] →
      call method [kind.handle n] = Run.alloc (.bool holds) s := by
  intro call gives
  have harithmetic := kind.dispatch_arithmetic host fuel scope ha hb
  have hcompare := kind.dispatch_comparison host fuel scope ha hb
  refine ⟨⟨a + b, harithmetic .plus, reduces_add a b⟩,
      ⟨a - b, harithmetic .minus, reduces_sub a b⟩,
    ⟨a * b, harithmetic .multiply, reduces_mul a b⟩,
      ⟨-a, kind.dispatch_negate host fuel scope ha, reduces_neg a⟩,
    ⟨a + 1, _, kind.dispatch_increment host fuel scope ha,
      kind.writes_handle ha _, reduces_add a 1⟩,
    ⟨a - 1, _, kind.dispatch_decrement host fuel scope ha, kind.writes_handle ha _,
      reduces_sub a 1⟩, ?_, ?_, ?_⟩
  · rintro rfl method hmethod
    simp only [List.mem_cons, List.not_mem_nil, or_false] at hmethod
    rcases hmethod with rfl | rfl
    · exact harithmetic .divide
    · exact harithmetic .mod
  · intro hne
    refine ⟨a / b, a % b, (harithmetic .divide).trans ?_, (harithmetic .mod).trans ?_,
        dividesInto_div_mod hne⟩ <;>
      simp only [Arithmetic.onWords, if_neg hne]
  · intro method holds hmethod
    simp only [List.mem_cons, Prod.mk.injEq, List.not_mem_nil, or_false] at hmethod
    rcases hmethod with ⟨rfl, rfl⟩ | ⟨rfl, rfl⟩ | ⟨rfl, rfl⟩ | ⟨rfl, rfl⟩ | ⟨rfl, rfl⟩
    · exact (hcompare .less).trans
        (by simp only [Comparison.onWords, Int64.lt_iff_toInt_lt])
    · exact (hcompare .greater).trans
        (by simp only [Comparison.onWords, Int64.lt_iff_toInt_lt])
    · exact (hcompare .lessOrEqual).trans
        (by simp only [Comparison.onWords, Int64.le_iff_toInt_le])
    · exact (hcompare .greaterOrEqual).trans
        (by simp only [Comparison.onWords, Int64.le_iff_toInt_le])
    · have hequal := kind.dispatch_equal host fuel scope ha hb
      rwa [beq_eq_decide, show decide (a = b) = decide (a.toInt = b.toInt) by
        simp only [Int64.toInt_inj]] at hequal

/-- The least long divided by minus one is the least long again, without a remainder; so
is the product of the two, and one less is the greatest long. -/
theorem integer_arithmetic_is_exact_modulo_range_least :
    let s : State := { State.initial (.ofLines [] none) with
      store := { Store.empty with integers := ⟨#[Int64.minValue, -1]⟩ } }
    let call method args := dispatch ⟨0, .empty, .asBound⟩ 3 globalScope
      (.long 0) method (.ready args) s
    (∃ q r, call "divide" [.long 1] = Run.alloc (.number (.long q)) s ∧
      call "mod" [.long 1] = Run.alloc (.number (.long r)) s ∧
        q.toInt = -2 ^ 63 ∧ r.toInt = 0) ∧
    (∃ r, call "multiply" [.long 1] = Run.alloc (.number (.long r)) s ∧
      r.toInt = -2 ^ 63) ∧
    (∃ r s', call "decrement" [] = .done (.long 0) s' ∧
        s'.item? ⟨.integer, 0⟩ = some (.integer r) ∧
      r.toInt = 2 ^ 63 - 1) ∧
    call "less" [.long 1] = Run.alloc (.bool true) s := by
  intro s call
  obtain ⟨-, -, ⟨p, hmultiply, hp⟩, -, -, ⟨d, s', hdecrement, hwrites, hd⟩,
      -, hdivide, hcompare⟩ :=
    integer_arithmetic_is_exact_modulo_range ⟨0, .empty, .asBound⟩ 0 globalScope s .long
      (show s.item? ⟨.integer, 0⟩ = some (.integer Int64.minValue) from rfl)
      (show s.item? ⟨.integer, 1⟩ = some (.integer (-1)) from rfl)
  have hleast : Int64.minValue.toInt = -2 ^ 63 := Int64.toInt_minValue
  have hone : (-1 : Int64).toInt = -1 := by decide
  rw [hleast, hone] at hp hdivide
  rw [hleast] at hd
  obtain ⟨q, r, hq, hr, hdivides⟩ := hdivide (by decide)
  obtain ⟨hquotient, hremainder⟩ := hdivides.wrapped ⟨rfl, rfl⟩
  refine ⟨⟨q, r, hq, hr, hquotient, hremainder⟩, ⟨p, hmultiply, ?_⟩,
    ⟨d, s', hdecrement, hwrites.item? _, ?_⟩, ?_⟩
  · obtain ⟨hcongruent, hrange⟩ := hp
    unfold Int.ModEq at hcongruent
    omega
  · obtain ⟨hcongruent, hrange⟩ := hd
    unfold Int.ModEq at hcongruent
    omega
  · exact hcompare "less" true (by decide)

end HandleScript
