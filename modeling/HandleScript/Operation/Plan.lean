import HandleScript.Failure
import HandleScript.Number.Conversion
import HandleScript.Operation
import HandleScript.Operation.Effect
import HandleScript.Text.Lines
import HandleScript.Text.Split
import HandleScript.Value.Equality
import HandleScript.Value.Render

/-!
# What operations do

For every operation, its effect on given arguments or the cause for which it fails, read
off the store as it is. The number of arguments is checked here once more, so that each
rule stands for itself.
-/

namespace HandleScript

/-- The decision of an operation: its effect, or why it fails. -/
abbrev Plan := Except Cause Effect

/-! ## Numbers -/

/-- The result of an arithmetical operation on 64-bit integers. Results wrap around; the
quotient is rounded towards zero, and the remainder has the sign of the dividend. -/
def Arithmetic.onWords (op : Arithmetic) (a b : Int64) : Except Cause Int64 :=
  match op with
  | plus => .ok (a + b)
  | minus => .ok (a - b)
  | multiply => .ok (a * b)
  | divide => if b = 0 then .error .divisionByZero else .ok (a / b)
  | mod => if b = 0 then .error .divisionByZero else .ok (a % b)

/-- The result of an arithmetical operation on doubles. -/
def Arithmetic.onDoubles (op : Arithmetic) (a b : Float) : Float :=
  match op with
  | plus => a + b
  | minus => a - b
  | multiply => a * b
  | divide => a / b
  | mod => Binary64.remainder a b

/-- Whether a comparison of integers holds. -/
def Comparison.onWords (op : Comparison) (a b : Int64) : Bool :=
  match op with
  | less => a < b
  | greater => b < a
  | lessOrEqual => a ≤ b
  | greaterOrEqual => b ≤ a

/-- Whether a comparison of doubles holds; none holds for a value that is not a number. -/
def Comparison.onDoubles (op : Comparison) (a b : Float) : Bool :=
  match op with
  | less => a < b
  | greater => b < a
  | lessOrEqual => a ≤ b
  | greaterOrEqual => b ≤ a

/-- Two numbers of the same kind. -/
inductive NumberPair where
  | int (a b : Int64)
  | long (a b : Int64)
  | double (a b : Float)

namespace NumberPair

/-- The numbers that a receiver and an operand name, which have to be of one kind. -/
def of (store : Store) (method : String) (receiver operand : Value) :
    Except Cause NumberPair :=
  match store.number? receiver, store.number? operand with
  | some (.int a), some (.int b) => .ok (.int a b)
  | some (.long a), some (.long b) => .ok (.long a b)
  | some (.double a), some (.double b) => .ok (.double a b)
  | _, _ => .error (.operandMismatch method receiver.kind operand.kind)

/-- The result of an arithmetical operation, which is of the same kind. -/
def compute (pair : NumberPair) (op : Arithmetic) : Except Cause Number :=
  match pair with
  | int a b => (op.onWords a b).map .int
  | long a b => (op.onWords a b).map .long
  | double a b => .ok (.double (op.onDoubles a b))

/-- Whether a comparison holds. -/
def compare (pair : NumberPair) (op : Comparison) : Bool :=
  match pair with
  | int a b => op.onWords a b
  | long a b => op.onWords a b
  | double a b => op.onDoubles a b

/-- The second number. -/
def operand : NumberPair → Number
  | int _ b => .int b
  | long _ b => .long b
  | double _ b => .double b

end NumberPair

/-- A number with its sign changed. -/
def Number.negate : Number → Number
  | int n => .int (-n)
  | long n => .long (-n)
  | double x => .double (-x)

/-- A number with one added. -/
def Number.increment : Number → Number
  | int n => .int (n + 1)
  | long n => .long (n + 1)
  | double x => .double (x + 1)

/-- A number with one taken away. -/
def Number.decrement : Number → Number
  | int n => .int (n - 1)
  | long n => .long (n - 1)
  | double x => .double (x - 1)

/-- The failure of an operation that a kind of value does not have, with the closest name
that it has. -/
def unknownMethod (kind : Kind) (method : String) : Cause :=
  .unknownMethod kind method (Text.suggestion method kind.operationNames)

/-- The number of a receiver; only numbers have the operations that ask for it. -/
def receiverNumber (store : Store) (receiver : Value) (method : String) :
    Except Cause Number :=
  match store.number? receiver with
  | some n => .ok n
  | none => .error (unknownMethod receiver.kind method)

/-- The effect of an operation on numbers. -/
def NumberOp.plan (op : NumberOp) (store : Store) (receiver : Value) (method : String)
    (args : List Value) : Plan :=
  match op, args with
  | arithmetic a, [operand] => do
    let result ← (← NumberPair.of store method receiver operand).compute a
    return .fresh (.number result)
  | compare c, [operand] => do
    let pair ← NumberPair.of store method receiver operand
    return .fresh (.bool (pair.compare c))
  | negate, [] => do
    return .fresh (.number (← receiverNumber store receiver method).negate)
  | set, [operand] => do
    let pair ← NumberPair.of store method receiver operand
    return .write receiver (.number pair.operand)
  | increment, [] => do
    return .write receiver (.number (← receiverNumber store receiver method).increment)
  | decrement, [] => do
    return .write receiver (.number (← receiverNumber store receiver method).decrement)
  | assign a, [operand] => do
    let result ← (← NumberPair.of store method receiver operand).compute a
    return .write receiver (.number result)
  | _, _ =>
    .error (.arityMismatch method (((EagerOp.number op).arity).getD 0) args.length)

/-! ## Truth values -/

/-- Whether the receiver alone decides the result. -/
def Connective.decidedBy : Connective → Bool → Bool
  | and, b => !b
  | or, b => b

/-- The result when the receiver does not decide it: the operand's truth value. -/
def Connective.plan (store : Store) (method : String) (args : List Value) : Plan :=
  match args with
  | [operand] =>
    match store.bool? operand with
    | some b => .ok (.fresh (.bool b))
    | none => .error (.operandMismatch method .bool operand.kind)
  | _ => .error (.arityMismatch method 1 args.length)

/-- The truth value of a receiver; only truth values have the operations that ask for
it. -/
def receiverBool (store : Store) (receiver : Value) (method : String) :
    Except Cause Bool :=
  match store.bool? receiver with
  | some b => .ok b
  | none => .error (unknownMethod receiver.kind method)

/-- The effect of another operation on truth values. -/
def BoolOp.plan (op : BoolOp) (store : Store) (receiver : Value) (method : String)
    (args : List Value) : Plan :=
  match op, args with
  | not, [] => do
    return .fresh (.bool !(← receiverBool store receiver method))
  | set, [operand] =>
    match store.bool? operand with
    | some b => .ok (.write receiver (.bool b))
    | none => .error (.operandMismatch method .bool operand.kind)
  | _, _ => .error (.arityMismatch method (((EagerOp.bool op).arity).getD 0) args.length)

/-! ## Indices and texts -/

/-- The index that a value stands for in something of the given length. -/
def indexOf (store : Store) (v : Value) (length : Nat) : Except Cause Nat :=
  match store.int? v with
  | none => .error (.unsuitable .intIndex v.kind)
  | some n =>
    if 0 ≤ n.toInt ∧ n.toInt < length then .ok n.toInt.toNat
    else .error (.indexOutOfBounds n.toInt length)

/-- The text that a value has to be. -/
def textOf (store : Store) (v : Value) : Except Cause String :=
  match store.text? v with
  | some s => .ok s
  | none => .error (.unsuitable .text v.kind)

/-- A count as an int. -/
def countContent (n : Nat) : Content :=
  .number (.int (Int64.ofNat n))

/-- The text of a receiver; only texts have the operations that ask for it. -/
def receiverText (store : Store) (receiver : Value) (method : String) :
    Except Cause String :=
  match store.text? receiver with
  | some s => .ok s
  | none => .error (unknownMethod receiver.kind method)

/-- A list of characters with the one at an index replaced by a text. -/
def replaceChar (cs : List Char) (index : Nat) (replacement : String) : String :=
  String.ofList (cs.take index) ++ replacement ++ String.ofList (cs.drop (index + 1))

/-- The effect of an operation on texts. -/
def TextOp.plan (op : TextOp) (store : Store) (receiver : Value) (method : String)
    (args : List Value) : Plan := do
  let s ← receiverText store receiver method
  match op, args with
  | get, [i] =>
    let cs := s.toList
    let index ← indexOf store i cs.length
    return .fresh (.text (String.ofList ((cs.drop index).take 1)))
  | split, [separator] =>
    return .freshTexts (Text.split s (← textOf store separator))
  | replaceAt, [i, replacement] =>
    let replacement ← textOf store replacement
    let cs := s.toList
    let index ← indexOf store i cs.length
    return .fresh (.text (replaceChar cs index replacement))
  | plus, [other] => return .fresh (.text (s ++ store.render other))
  | plusAssign, [other] => return .write receiver (.text (s ++ store.render other))
  | set, [other] => return .write receiver (.text (← textOf store other))
  | size, [] => return .fresh (countContent s.length)
  | _, _ => .error (.arityMismatch method (((EagerOp.text op).arity).getD 0) args.length)

/-! ## Containers and iterators -/

/-- The cell of a receiver that is a list or an array; only those have the operations that
ask for it. -/
def receiverContainer (receiver : Value) (method : String) : Except Cause Nat :=
  match Store.container? receiver with
  | some cell => .ok cell
  | none => .error (unknownMethod receiver.kind method)

/-- The element of a container at an index, which has been checked. -/
def elementAt (elements : Array Value) (index : Nat) : Value :=
  elements.getD index .void

/-- The effect of an operation on lists and arrays. -/
def SequenceOp.plan (op : SequenceOp) (store : Store) (receiver : Value) (method : String)
    (args : List Value) : Plan := do
  let cell ← receiverContainer receiver method
  let elements := store.elements cell
  match op, args with
  | get, [i] => return .give (elementAt elements (← indexOf store i elements.size))
  | set, [i, element] =>
    return .setItem receiver cell (← indexOf store i elements.size) element
  | size, [] => return .fresh (countContent elements.size)
  | getIterator, [] => return .fresh (.iterator cell)
  | _, _ =>
    .error (.arityMismatch method (((EagerOp.sequence op).arity).getD 0) args.length)

/-- The effect of an operation that changes the length of a list. -/
def GrowthOp.plan (op : GrowthOp) (store : Store) (receiver : Value) (method : String)
    (args : List Value) : Plan := do
  let cell ← receiverContainer receiver method
  match op, args with
  | add, [element] => return .addItem receiver cell element
  | remove, [i] =>
    let elements := store.elements cell
    let index ← indexOf store i elements.size
    return .removeItem cell index (elementAt elements index)
  | _, _ =>
    .error (.arityMismatch method (((EagerOp.growth op).arity).getD 0) args.length)

/-- The cell of a receiver that is an iterator; only iterators have the operations that
ask for it. -/
def receiverIterator (receiver : Value) (method : String) : Except Cause Nat :=
  match receiver with
  | .iterator cell => .ok cell
  | _ => .error (unknownMethod receiver.kind method)

/-- The effect of an operation on iterators. -/
def IteratorOp.plan (op : IteratorOp) (store : Store) (receiver : Value) (method : String)
    (args : List Value) : Plan := do
  let cell ← receiverIterator receiver method
  let cursor := store.cursors.get cell
  match op, args with
  | hasNext, [] => return .fresh (.bool (store.hasNext cursor))
  | moveNext, [] =>
    let elements := store.elements cursor.items
    if cursor.next < elements.size then
      return .advance cell (elementAt elements cursor.next)
    .error (.indexOutOfBounds cursor.next elements.size)
  | _, _ => .error (.arityMismatch method 0 args.length)

/-! ## Files -/

/-- The path of a receiver that is a file; only files have the operations that ask for
it. -/
def receiverPath (receiver : Value) (method : String) : Except Cause String :=
  match receiver with
  | .file path => .ok path
  | _ => .error (unknownMethod receiver.kind method)

/-- The text of a file. -/
def readFileText (files : Files) (path : String) : Except Cause String :=
  (files.read path).mapError fun why => .trouble (.file path why)

/-- The effect of an operation on files. -/
def FileOp.plan (op : FileOp) (files : Files) (receiver : Value) (method : String)
    (args : List Value) : Plan := do
  let path ← receiverPath receiver method
  match op, args with
  | readText, [] => return .fresh (.text (← readFileText files path))
  | readLines, [] => return .freshTexts (Text.fileLines (← readFileText files path))
  | _, _ => .error (.arityMismatch method 0 args.length)

/-! ## New values -/

/-- What a message names when a value cannot be converted. -/
def convertee (store : Store) (v : Value) : Convertee :=
  match store.text? v with
  | some s => .text s
  | none => .kind v.kind

/-- The 64-bit integer that a value converts to; `target` is the kind that is asked
for. -/
def toWord (store : Store) (v : Value) (target : Kind) : Except Cause Int64 :=
  let converted :=
    match v with
    | .int cell => some (store.integers.get cell)
    | .long cell => some (store.integers.get cell)
    | .double cell => Number.truncate? (store.doubles.get cell)
    | .text cell => Number.wordOfText? (store.texts.get cell)
    | _ => none
  match converted with
  | some n => .ok n
  | none => .error (.invalidConversion (convertee store v) target)

/-- The double that a value converts to. -/
def toDouble (store : Store) (v : Value) : Except Cause Float :=
  let converted :=
    match v with
    | .int cell => some (Number.ofWord (store.integers.get cell))
    | .long cell => some (Number.ofWord (store.integers.get cell))
    | .double cell => some (store.doubles.get cell)
    | .text cell => Number.doubleOfText? (store.texts.get cell)
    | _ => none
  match converted with
  | some x => .ok x
  | none => .error (.invalidConversion (convertee store v) .double)

/-- The text that a number or a text converts to. -/
def toText (store : Store) (v : Value) : Except Cause String :=
  match v with
  | .int _ => .ok (store.render v)
  | .long _ => .ok (store.render v)
  | .double _ => .ok (store.render v)
  | .text _ => .ok (store.render v)
  | _ => .error (.invalidConversion (.kind v.kind) .text)

/-- The number of slots that a value asks for. -/
def slotsOf (store : Store) (size : Value) : Except Cause Nat :=
  match store.int? size with
  | none => .error (.unsuitable .intSize size.kind)
  | some n =>
    if n.toInt < 0 then .error (.indexOutOfBounds n.toInt 0) else .ok n.toInt.toNat

/-- The effect of making a new value. -/
def FactoryOp.plan (op : FactoryOp) (store : Store) (method : String)
    (args : List Value) : Plan :=
  match op, args with
  | list, elements => .ok (.fresh (.list elements.toArray))
  | array, [size] => (slotsOf store size).map .freshArray
  | int, [v] => do return .fresh (.number (.int (← toWord store v .int)))
  | long, [v] => do return .fresh (.number (.long (← toWord store v .long)))
  | double, [v] => do return .fresh (.number (.double (← toDouble store v)))
  | text, [v] => do return .fresh (.text (← toText store v))
  | file, [path] => do return .give (.file (← textOf store path))
  | _, _ => .error (.arityMismatch method 1 args.length)

/-! ## All operations -/

/-- The effect of an operation that most kinds share. -/
def CommonOp.plan (op : CommonOp) (store : Store) (receiver : Value) (method : String)
    (args : List Value) : Plan :=
  match op, args with
  | equal, [other] => .ok (.fresh (.bool (store.scriptEq receiver other)))
  | notEqual, [other] => .ok (.fresh (.bool !(store.scriptEq receiver other)))
  | copy, [] =>
    match store.copyContent? receiver with
    | some content => .ok (.fresh content)
    | none => .ok (.give receiver)
  | toText, [] => .ok (.fresh (.text (store.render receiver)))
  | _, _ =>
    .error (.arityMismatch method (((EagerOp.common op).arity).getD 0) args.length)

/-- The effect of an operation on arguments that have been evaluated. -/
def EagerOp.plan (op : EagerOp) (files : Files) (store : Store) (receiver : Value)
    (method : String) (args : List Value) : Plan :=
  match op with
  | common op => op.plan store receiver method args
  | number op => op.plan store receiver method args
  | bool op => op.plan store receiver method args
  | text op => op.plan store receiver method args
  | sequence op => op.plan store receiver method args
  | growth op => op.plan store receiver method args
  | iterator op => op.plan store receiver method args
  | file op => op.plan files receiver method args
  | factory op => op.plan store method args

end HandleScript
