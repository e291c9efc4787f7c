import HandleScript.Program
import HandleScript.Program.CompileError

/-!
# Reading programs from tokens

Recursive descent with at most two tokens of lookahead. Call chains associate to the left,
a word directly before an opening parenthesis is a call on the dispatcher, and a `for`
loop is read as a block that steps an iterator held in a hidden variable. The readers that
recurse take a count of the readers that may still be nested in them. A reader that runs
out of it stops without having found an error; `budget` is a count that no token sequence
exhausts.
-/

namespace HandleScript

namespace Parser

/-- The state of reading: the tokens ahead, the token just read, and the loops numbered so
far. -/
structure Cursor where
  /-- The tokens that have not been read. -/
  rest : List (Located Token)
  /-- The span of the token read last. -/
  previous : Span
  /-- The number of `for` loops read so far. -/
  loops : Nat
  /-- The empty span at the end of the source text. -/
  ending : Span
deriving Inhabited

/-- Why a reader stops before it has read anything of use. -/
inductive Stop where
  /-- The tokens are not what the grammar asks for. -/
  | refused (e : Located GrammarError)
  /-- No more readers may be nested. -/
  | exhausted
deriving Repr

/-- A reader of some part of a program. -/
abbrev Reader (α : Type) := StateT Cursor (Except Stop) α

/-! ## Single tokens -/

/-- Whether a token is the mark `m`. -/
def isMark (m : Mark) : Token → Bool
  | .mark other => other = m
  | _ => false

/-- Whether a token is the keyword `k`. -/
def isKeyword (k : Keyword) : Token → Bool
  | .keyword other => other = k
  | _ => false

/-- The next token, which is not read. -/
def peek : Reader (Option Token) := do
  return (← get).rest.head?.map Located.node

/-- The token after the next one. -/
def peekSecond : Reader (Option Token) := do
  return ((← get).rest.drop 1).head?.map Located.node

/-- The span of the next token, or the end of the source text. -/
def here : Reader Span := do
  let cursor ← get
  return (cursor.rest.head?.map Located.span).getD cursor.ending

/-- The span of the token read last. -/
def previous : Reader Span := do
  return (← get).previous

/-- Reads the next token, whatever it is. -/
def advance : Reader Unit :=
  modify fun cursor =>
    match cursor.rest with
    | [] => cursor
    | token :: rest => { cursor with rest := rest, previous := token.span }

/-- Fails because the next token is not what the grammar asks for. -/
def unexpected {α : Type} (what : Expected) : Reader α := do
  throw (.refused ⟨.unexpected what (← peek), ← here⟩)

/-- Stops because no more readers may be nested. -/
def exhausted {α : Type} : Reader α :=
  throw .exhausted

/-- Whether the next token is the mark `m`. -/
def atMark (m : Mark) : Reader Bool := do
  return (← peek).any (isMark m)

/-- Reads the mark `m` if it comes next, and tells whether it did. -/
def acceptMark (m : Mark) : Reader Bool := do
  if ← atMark m then
    advance
    return true
  return false

/-- Reads the keyword `k` if it comes next, and tells whether it did. -/
def acceptKeyword (k : Keyword) : Reader Bool := do
  if (← peek).any (isKeyword k) then
    advance
    return true
  return false

/-- Reads the mark `m`. -/
def mark (m : Mark) : Reader Span := do
  if ← acceptMark m then previous else unexpected (.mark m)

/-- Reads the keyword `k`. -/
def keyword (k : Keyword) : Reader Span := do
  if ← acceptKeyword k then previous else unexpected (.keyword k)

/-- Reads a word; `what` says what it is for. -/
def word (what : Expected) : Reader (Located String) := do
  match ← peek with
  | some (.word w) =>
    advance
    return ⟨w, ← previous⟩
  | _ => unexpected what

/-! ## Parts without bodies -/

/-- Reads the parameters that are left in a list, at least one, up to the closing
parenthesis. -/
def moreParams : (fuel : Nat) → Reader (List (Located String))
  | 0 => exhausted
  | fuel + 1 => do
    let param ← word .parameterName
    if ← acceptMark .closeParen then
      return [param]
    else if ← acceptMark .comma then
      return param :: (← moreParams fuel)
    else unexpected .parameterSeparator

/-- Reads a parameter list with its parentheses. -/
def params : (fuel : Nat) → Reader (List (Located String))
  | 0 => exhausted
  | fuel + 1 => do
    let _ ← mark .openParen
    if ← acceptMark .closeParen then return []
    moreParams fuel

/-- A call of a method without arguments that is not written in the source and stands for
the text at `span`. -/
def impliedCall (receiver : Expr) (method : String) (span : Span) : Expr :=
  .call receiver ⟨method, span⟩ [] span

/-- The block that a `for` loop stands for: it keeps an iterator of `iterable` in the
variable `hidden`, and binds `x` to each element in turn before it runs `body`. `start` is
the span of the word `for`. -/
def forBlock (hidden : String) (start : Span) (x : Located String) (iterable : Expr)
    (body : List Stmt) : List Stmt :=
  let iterator := Expr.name hidden start
  [.declare ⟨hidden, start⟩ (impliedCall iterable "getIterator" iterable.span) start,
    .loop (impliedCall iterator "hasNext" start)
      (.declare x (impliedCall iterator "moveNext" start) start :: body) start]

/-- Reads the word `in`, which is a word like any other outside of a `for` loop. -/
def inWord : Reader Unit := do
  match ← peek with
  | some (.word "in") => advance
  | _ => unexpected .inWord

/-- Takes the hidden variable of the `for` loop whose body has just been read. -/
def takeHidden : Reader String :=
  modifyGet fun cursor =>
    (hiddenName cursor.loops, { cursor with loops := cursor.loops + 1 })

/-- What the next tokens start, as far as a statement's first two tokens tell. -/
inductive StmtStart where
  | branch
  | loop
  | each
  | declare
  | giveBack
  | leave
  | skip
  | block
  | assign
  | expr

/-- The sort of statement that starts with the next two tokens. -/
def stmtStart (first second : Option Token) : StmtStart :=
  match first with
  | some (.keyword .branch) => .branch
  | some (.keyword .loop) => .loop
  | some (.keyword .each) => .each
  | some (.keyword .declare) => .declare
  | some (.keyword .giveBack) => .giveBack
  | some (.keyword .leave) => .leave
  | some (.keyword .skip) => .skip
  | some (.mark .openBrace) => .block
  | some (.word _) => if second.any (isMark .equals) then .assign else .expr
  | _ => .expr

/-! ## Expressions, statements and functions -/

mutual

/-- Reads the parameters and the body of a function. `start` is the span of the word
`fun`. -/
def functionRest : (fuel : Nat) → Located String → Span → Reader Function
  | 0, _, _ => exhausted
  | fuel + 1, name, start => do
    let params ← params fuel
    let body ← body fuel
    return ⟨name, params, body, start.merge (← previous)⟩

/-- Reads a braced sequence of statements. -/
def body : (fuel : Nat) → Reader (List Stmt)
  | 0 => exhausted
  | fuel + 1 => do
    let opened ← mark .openBrace
    bodyRest fuel opened

/-- Reads the statements that are left in a body, and its closing brace. -/
def bodyRest : (fuel : Nat) → (opened : Span) → Reader (List Stmt)
  | 0, _ => exhausted
  | fuel + 1, opened => do
    if ← acceptMark .closeBrace then return []
    if (← peek).isNone then
      throw (.refused ⟨.unterminatedBody opened, (← get).ending⟩)
    let first ← statement fuel
    return first :: (← bodyRest fuel opened)

/-- Reads a statement. -/
def statement : (fuel : Nat) → Reader Stmt
  | 0 => exhausted
  | fuel + 1 => do
    let start ← here
    match stmtStart (← peek) (← peekSecond) with
    | .branch =>
      advance
      let arms ← firstArm fuel
      return .branch arms (start.merge (← previous))
    | .loop =>
      advance
      let condition ← condition fuel
      let body ← body fuel
      return .loop condition body (start.merge (← previous))
    | .each =>
      advance
      let stmts ← eachLoop fuel start
      return .block stmts (start.merge (← previous))
    | .declare =>
      advance
      let name ← word .variableName
      let _ ← mark .equals
      let init ← expr fuel
      return .declare name init (start.merge (← previous))
    | .giveBack =>
      advance
      if (← atMark .closeBrace) || (← peek).isNone then
        return .giveBack none (start.merge (← previous))
      let value ← expr fuel
      return .giveBack (some value) (start.merge (← previous))
    | .leave =>
      advance
      return .leave (start.merge (← previous))
    | .skip =>
      advance
      return .skip (start.merge (← previous))
    | .block =>
      let stmts ← body fuel
      return .block stmts (start.merge (← previous))
    | .assign =>
      let name ← word .variableName
      let _ ← mark .equals
      let value ← expr fuel
      return .assign name value (start.merge (← previous))
    | .expr =>
      let value ← expr fuel
      return .expr value (start.merge (← previous))

/-- Reads the condition of a branch or a loop, with its parentheses. -/
def condition : (fuel : Nat) → Reader Expr
  | 0 => exhausted
  | fuel + 1 => do
    let _ ← mark .openParen
    let value ← expr fuel
    let _ ← mark .closeParen
    return value

/-- Reads a test of an `if` statement, after the word `if`, with its body and the tests
that follow. -/
def firstArm : (fuel : Nat) → Reader Arms
  | 0 => exhausted
  | fuel + 1 => do
    let condition ← condition fuel
    let body ← body fuel
    return .test condition body (← moreArms fuel)

/-- Reads the tests that follow a body of an `if` statement. -/
def moreArms : (fuel : Nat) → Reader Arms
  | 0 => exhausted
  | fuel + 1 => do
    if ← acceptKeyword .otherwise then
      if ← acceptKeyword .branch then firstArm fuel
      else return .otherwise (← body fuel)
    else return .done

/-- Reads a `for` loop after its first word, whose span is `start`. -/
def eachLoop : (fuel : Nat) → (start : Span) → Reader (List Stmt)
  | 0, _ => exhausted
  | fuel + 1, start => do
    let _ ← mark .openParen
    let x ← word .loopVariableName
    inWord
    let iterable ← expr fuel
    let _ ← mark .closeParen
    let body ← body fuel
    return forBlock (← takeHidden) start x iterable body

/-- Reads an expression. -/
def expr : (fuel : Nat) → Reader Expr
  | 0 => exhausted
  | fuel + 1 => do
    let receiver ← primary fuel
    calls fuel receiver

/-- Reads the method calls that follow an expression. -/
def calls : (fuel : Nat) → (receiver : Expr) → Reader Expr
  | 0, _ => exhausted
  | fuel + 1, receiver => do
    if ← acceptMark .dot then
      let method ← word .methodName
      let args ← args fuel
      calls fuel (.call receiver method args (receiver.span.merge (← previous)))
    else return receiver

/-- Reads an expression that is not a method call with a receiver. -/
def primary : (fuel : Nat) → Reader Expr
  | 0 => exhausted
  | fuel + 1 => do
    let span ← here
    match ← peek with
    | some (.int n) =>
      advance
      return .literal (.int n) span
    | some (.double x) =>
      advance
      return .literal (.double x) span
    | some (.text s) =>
      advance
      return .literal (.text s) span
    | some (.keyword .yes) =>
      advance
      return .literal (.bool true) span
    | some (.keyword .no) =>
      advance
      return .literal (.bool false) span
    | some (.keyword .nothing) =>
      advance
      return .literal .void span
    | some (.keyword .function) =>
      if (← peekSecond).any (isMark .openParen) then
        advance
        return .lambda (← functionRest fuel ⟨lambdaName, span⟩ span)
      else unexpected .expression
    | some (.word w) =>
      advance
      if ← atMark .openParen then
        let args ← args fuel
        return .call (.name dispatcherName span) ⟨w, span⟩ args (span.merge (← previous))
      else return .name w span
    | _ => unexpected .expression

/-- Reads the arguments of a call, with their parentheses. -/
def args : (fuel : Nat) → Reader (List Expr)
  | 0 => exhausted
  | fuel + 1 => do
    let _ ← mark .openParen
    if ← acceptMark .closeParen then return []
    moreArgs fuel

/-- Reads the arguments that are left in a list, at least one, up to the closing
parenthesis. -/
def moreArgs : (fuel : Nat) → Reader (List Expr)
  | 0 => exhausted
  | fuel + 1 => do
    let first ← expr fuel
    if ← acceptMark .closeParen then return [first]
    else if ← acceptMark .comma then return first :: (← moreArgs fuel)
    else unexpected .argumentSeparator

end

/-- Reads a function declaration. -/
def function (fuel : Nat) : Reader Function := do
  let start ← keyword .function
  let name ← word .functionName
  functionRest fuel name start

/-- Reads with `item` until the tokens end, in less than `rounds` rounds. -/
def untilEnd {α : Type} (item : Reader α) : (rounds : Nat) → Reader (List α)
  | 0 => exhausted
  | rounds + 1 => do
    if (← peek).isNone then return []
    let first ← item
    return first :: (← untilEnd item rounds)

/-- How deeply readers can be nested on so many tokens: at most three readers in a row
leave the cursor where it is. -/
def budget (tokens : Nat) : Nat :=
  4 * tokens + 4

/-- The cursor at the beginning of a source text with the given tokens. -/
def start (source : String) (tokens : List (Located Token)) : Cursor :=
  let size := source.utf8ByteSize
  let ending := (LineIndex.ofSource source).span size size
  { rest := tokens, previous := ending, loops := 0, ending := ending }

/-- Reads items of one sort up to the end of the tokens of a source text. -/
def readAll {α : Type} (item : (fuel : Nat) → Reader α) (source : String)
    (tokens : List (Located Token)) : Except Stop (List α) :=
  (untilEnd (item (budget tokens.length)) (tokens.length + 1)).run' (start source tokens)

end Parser

end HandleScript
