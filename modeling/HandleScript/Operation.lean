import HandleScript.Text.Suggestion
import HandleScript.Value

/-!
# Operations

What can be called on a value. Each kind of value has a table of its operations by name,
in the order in which they are considered as suggestions for an unknown name. An operation
takes a fixed number of arguments or any number of them.
-/

namespace HandleScript

/-- The four rules of arithmetic and the remainder. -/
inductive Arithmetic where
  | plus
  | minus
  | multiply
  | divide
  | mod
deriving DecidableEq, Repr

/-- The ways to compare two numbers. -/
inductive Comparison where
  | less
  | greater
  | lessOrEqual
  | greaterOrEqual
deriving DecidableEq, Repr

/-- The operations on numbers. -/
inductive NumberOp where
  | arithmetic (op : Arithmetic)
  | compare (op : Comparison)
  | negate
  | set
  /-- Adds one to the receiver. -/
  | increment
  /-- Takes one from the receiver. -/
  | decrement
  /-- Replaces the receiver by the result of an arithmetical operation. -/
  | assign (op : Arithmetic)
deriving DecidableEq, Repr

/-- The operations that leave their operand alone when the receiver decides the result. -/
inductive Connective where
  | and
  | or
deriving DecidableEq, Repr

/-- The other operations on truth values. -/
inductive BoolOp where
  | not
  | set
deriving DecidableEq, Repr

/-- The operations on texts. -/
inductive TextOp where
  | get
  | split
  | replaceAt
  | plus
  | plusAssign
  | set
  | size
deriving DecidableEq, Repr

/-- The operations on lists and arrays. -/
inductive SequenceOp where
  | get
  | set
  | size
  | getIterator
deriving DecidableEq, Repr

/-- The operations that change the length of a list. -/
inductive GrowthOp where
  | add
  | remove
deriving DecidableEq, Repr

/-- The operations on iterators. -/
inductive IteratorOp where
  | hasNext
  | moveNext
deriving DecidableEq, Repr

/-- The operations on files. -/
inductive FileOp where
  | readText
  | readLines
deriving DecidableEq, Repr

/-- The values that can be made. -/
inductive FactoryOp where
  | list
  | array
  | int
  | long
  | double
  | text
  | file
deriving DecidableEq, Repr

/-- The operations that most kinds share. -/
inductive CommonOp where
  | equal
  | notEqual
  | copy
  | toText
deriving DecidableEq, Repr

/-- An operation that evaluates all of its arguments and then acts on the store at
once. -/
inductive EagerOp where
  | common (op : CommonOp)
  | number (op : NumberOp)
  | bool (op : BoolOp)
  | text (op : TextOp)
  | sequence (op : SequenceOp)
  | growth (op : GrowthOp)
  | iterator (op : IteratorOp)
  | file (op : FileOp)
  | factory (op : FactoryOp)
deriving DecidableEq, Repr

/-- An operation of some kind of value. -/
inductive Operation where
  | eager (op : EagerOp)
  | connective (op : Connective)
  /-- Calls a function literal. -/
  | invoke
deriving DecidableEq, Repr

/-- The number of arguments that an operation takes; `none` when it takes any number. -/
def EagerOp.arity : EagerOp → Option Nat
  | common .equal => some 1
  | common .notEqual => some 1
  | common .copy => some 0
  | common .toText => some 0
  | number (.arithmetic _) => some 1
  | number (.compare _) => some 1
  | number .negate => some 0
  | number .set => some 1
  | number .increment => some 0
  | number .decrement => some 0
  | number (.assign _) => some 1
  | bool .not => some 0
  | bool .set => some 1
  | text .get => some 1
  | text .split => some 1
  | text .replaceAt => some 2
  | text .plus => some 1
  | text .plusAssign => some 1
  | text .set => some 1
  | text .size => some 0
  | sequence .get => some 1
  | sequence .set => some 2
  | sequence .size => some 0
  | sequence .getIterator => some 0
  | growth .add => some 1
  | growth .remove => some 1
  | iterator _ => some 0
  | file _ => some 0
  | factory .list => none
  | factory _ => some 1

namespace Operation

/-- The number of arguments that an operation takes; `none` when it takes any number. -/
def arity : Operation → Option Nat
  | eager op => op.arity
  | connective _ => some 1
  | invoke => none

/-- Whether an operation takes so many arguments. -/
def accepts (op : Operation) (count : Nat) : Bool :=
  match op.arity with
  | some n => n == count
  | none => true

/-- An operation that most kinds share. -/
def common (op : CommonOp) : Operation := eager (.common op)

/-- An operation on numbers. -/
def number (op : NumberOp) : Operation := eager (.number op)

/-- An operation on truth values. -/
def bool (op : BoolOp) : Operation := eager (.bool op)

/-- An operation on texts. -/
def text (op : TextOp) : Operation := eager (.text op)

/-- An operation on lists and arrays. -/
def sequence (op : SequenceOp) : Operation := eager (.sequence op)

/-- An operation that changes the length of a list. -/
def growth (op : GrowthOp) : Operation := eager (.growth op)

/-- An operation on iterators. -/
def iterator (op : IteratorOp) : Operation := eager (.iterator op)

/-- An operation on files. -/
def file (op : FileOp) : Operation := eager (.file op)

/-- An operation of the factory. -/
def factory (op : FactoryOp) : Operation := eager (.factory op)

/-- The operations on numbers, by name. -/
def numberTable : List (String × Operation) :=
  [("plus", number (.arithmetic .plus)),
    ("minus", number (.arithmetic .minus)),
    ("multiply", number (.arithmetic .multiply)),
    ("divide", number (.arithmetic .divide)),
    ("mod", number (.arithmetic .mod)),
    ("less", number (.compare .less)),
    ("greater", number (.compare .greater)),
    ("lessOrEqual", number (.compare .lessOrEqual)),
    ("greaterOrEqual", number (.compare .greaterOrEqual)),
    ("equal", common .equal),
    ("notEqual", common .notEqual),
    ("negate", number .negate),
    ("set", number .set),
    ("increment", number .increment),
    ("decrement", number .decrement),
    ("plusAssign", number (.assign .plus)),
    ("minusAssign", number (.assign .minus)),
    ("multiplyAssign", number (.assign .multiply)),
    ("divideAssign", number (.assign .divide)),
    ("copy", common .copy),
    ("toString", common .toText)]

/-- The operations on truth values, by name. -/
def boolTable : List (String × Operation) :=
  [("and", connective .and),
    ("or", connective .or),
    ("not", bool .not),
    ("equal", common .equal),
    ("notEqual", common .notEqual),
    ("set", bool .set),
    ("copy", common .copy),
    ("toString", common .toText)]

/-- The operations on texts, by name. -/
def textTable : List (String × Operation) :=
  [("get", text .get),
    ("split", text .split),
    ("replaceAt", text .replaceAt),
    ("plus", text .plus),
    ("plusAssign", text .plusAssign),
    ("set", text .set),
    ("get_size", text .size),
    ("size", text .size),
    ("equal", common .equal),
    ("notEqual", common .notEqual),
    ("copy", common .copy),
    ("toString", common .toText)]

/-- The operations that lists and arrays share from the sizes on, by name. -/
def sequenceTail : List (String × Operation) :=
  [("get_size", sequence .size),
    ("size", sequence .size),
    ("getIterator", sequence .getIterator),
    ("equal", common .equal),
    ("notEqual", common .notEqual),
    ("copy", common .copy),
    ("toString", common .toText)]

/-- The operations on lists, by name. -/
def listTable : List (String × Operation) :=
  [("get", sequence .get),
    ("set", sequence .set),
    ("add", growth .add),
    ("remove", growth .remove)] ++ sequenceTail

/-- The operations on arrays, by name. -/
def arrayTable : List (String × Operation) :=
  [("get", sequence .get),
    ("set", sequence .set)] ++ sequenceTail

/-- The operations on iterators, by name. -/
def iteratorTable : List (String × Operation) :=
  [("hasNext", iterator .hasNext),
    ("moveNext", iterator .moveNext),
    ("equal", common .equal),
    ("notEqual", common .notEqual)]

/-- The operations on files, by name. -/
def fileTable : List (String × Operation) :=
  [("readText", file .readText),
    ("readLines", file .readLines),
    ("equal", common .equal),
    ("notEqual", common .notEqual),
    ("toString", common .toText)]

/-- The operations on function literals, by name. -/
def lambdaTable : List (String × Operation) :=
  [("invoke", invoke),
    ("equal", common .equal),
    ("notEqual", common .notEqual),
    ("toString", common .toText)]

/-- The values that the factory makes, by name. -/
def factoryTable : List (String × Operation) :=
  [("list", factory .list),
    ("array", factory .array),
    ("int", factory .int),
    ("long", factory .long),
    ("double", factory .double),
    ("string", factory .text),
    ("File", factory .file)]

end Operation

namespace Kind

/-- The operations of a kind, by name. Nothing can be called on `void`, and the dispatcher
calls functions instead. -/
def operations : Kind → List (String × Operation)
  | int => Operation.numberTable
  | long => Operation.numberTable
  | double => Operation.numberTable
  | bool => Operation.boolTable
  | text => Operation.textTable
  | list => Operation.listTable
  | array => Operation.arrayTable
  | iterator => Operation.iteratorTable
  | file => Operation.fileTable
  | lambda => Operation.lambdaTable
  | void => []
  | dispatcher => []
  | factory => Operation.factoryTable

/-- The names of a kind's operations. -/
def operationNames (kind : Kind) : List String :=
  kind.operations.map Prod.fst

/-- The operation that a kind has under a name. -/
def operation? (kind : Kind) (method : String) : Option Operation :=
  kind.operations.lookup method

end Kind

end HandleScript
