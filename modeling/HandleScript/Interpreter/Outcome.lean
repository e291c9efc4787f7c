/-!
# Outcomes

A computation over a state ends with a value or with a failure, and with a state in both
cases. It may also crash: then the whole program ends on the spot, and nobody learns of a
value or a failure. Or it uses up the steps it was granted, and then nothing is known
about it.
-/

namespace HandleScript

/-- The outcome of a computation that starts from a state. -/
inductive Outcome (σ ε α : Type) where
  | done (value : α) (state : σ)
  | failed (failure : ε) (state : σ)
  /-- The program ends in the midst of the computation, which has come to the given
  state. -/
  | crashed (state : σ)
  /-- The steps granted to the computation did not suffice. -/
  | exhausted

/-- A computation that reads and changes a state. -/
def Computation (σ ε α : Type) := σ → Outcome σ ε α

namespace Computation

variable {σ ε δ α β : Type}

/-- Ends with a value. -/
@[inline]
protected def pure (a : α) : Computation σ ε α :=
  fun s => .done a s

/-- Goes on with the value of the first computation, if it has one. -/
@[inline]
protected def bind (c : Computation σ ε α) (f : α → Computation σ ε β) :
    Computation σ ε β :=
  fun s =>
    match c s with
    | .done a s => f a s
    | .failed e s => .failed e s
    | .crashed s => .crashed s
    | .exhausted => .exhausted

instance : Monad (Computation σ ε) where
  pure := Computation.pure
  bind := Computation.bind

/-- Ends with a failure. -/
@[inline]
def fail (e : ε) : Computation σ ε α :=
  fun s => .failed e s

/-- Ends with the answer of a part of the work that does not touch the state. -/
@[inline]
def ofExcept (wrap : δ → ε) (answer : Except δ α) : Computation σ ε α :=
  fun s =>
    match answer with
    | .ok a => .done a s
    | .error e => .failed (wrap e) s

/-- Ends without an answer. -/
@[inline]
def giveUp : Computation σ ε α :=
  fun _ => .exhausted

/-- Changes the failure of a computation. -/
@[inline]
def adjustFailure (f : ε → ε) (c : Computation σ ε α) : Computation σ ε α :=
  fun s =>
    match c s with
    | .done a s => .done a s
    | .failed e s => .failed (f e) s
    | .crashed s => .crashed s
    | .exhausted => .exhausted

/-- Reads the state. -/
@[inline]
def inspect (f : σ → α) : Computation σ ε α :=
  fun s => .done (f s) s

/-- Changes the state. -/
@[inline]
def update (f : σ → σ) : Computation σ ε Unit :=
  fun s => .done () (f s)

end Computation

namespace Outcome

variable {σ τ ε δ α : Type}

/-- The outcome seen from a larger state, with failures among further ones. -/
def lift (state : σ → τ) (failure : ε → δ) : Outcome σ ε α → Outcome τ δ α
  | done a s => .done a (state s)
  | failed e s => .failed (failure e) (state s)
  | crashed s => .crashed (state s)
  | exhausted => .exhausted

end Outcome

end HandleScript
