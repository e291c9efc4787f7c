import HandleScript.Program.Parser

/-!
# The grammar

Derivations as trees: each type is a part of speech, and its constructors are the rules

program   ::= function* function  ::= fun Word ( params ) body params    ::= empty | Word
(, Word)* body      ::= { stmt* } stmt      ::= if ( expr ) body (else if ( expr ) body)*
(else body)? | while ( expr ) body | for ( Word in expr ) body | var Word = expr | return
expr | return | break | continue | body | Word = expr | expr expr      ::= primary (. Word
( args ))* primary   ::= literal | Word | Word ( args ) | fun ( params ) body args
::= empty | expr (, expr)*

where `return` without a value stands directly before a closing brace or the end, that is,
at the end of a sequence of statements. A tree yields the tokens that it derives, and
denotes a piece of a program. No tokens have two trees.
-/

namespace HandleScript

/-- The token that a literal is written as. -/
def Literal.token : Literal → Token
  | int n => .int n
  | double x => .double x
  | bool true => .keyword .yes
  | bool false => .keyword .no
  | text s => .text s
  | void => .keyword .nothing

/-! ## Programs without places -/

/-- A piece of a program that comes from no place. -/
abbrev unplaced {α : Type} (node : α) : Located α :=
  ⟨node, default⟩

mutual

/-- An expression without its places. -/
def Expr.unplace : Expr → Expr
  | .call receiver method args _ =>
    .call receiver.unplace (unplaced method.node) (Expr.unplaceAll args) default
  | .name text _ => .name text default
  | .literal value _ => .literal value default
  | .lambda ⟨name, params, body, _⟩ =>
    .lambda ⟨unplaced name.node, params.map fun p => unplaced p.node,
      Stmt.unplaceAll body, default⟩

/-- Expressions without their places. -/
def Expr.unplaceAll : List Expr → List Expr
  | [] => []
  | e :: es => e.unplace :: Expr.unplaceAll es

/-- A statement without its places. -/
def Stmt.unplace : Stmt → Stmt
  | .branch arms _ => .branch arms.unplace default
  | .loop condition body _ => .loop condition.unplace (Stmt.unplaceAll body) default
  | .declare name init _ => .declare (unplaced name.node) init.unplace default
  | .assign name value _ => .assign (unplaced name.node) value.unplace default
  | .giveBack none _ => .giveBack none default
  | .giveBack (some value) _ => .giveBack (some value.unplace) default
  | .leave _ => .leave default
  | .skip _ => .skip default
  | .block body _ => .block (Stmt.unplaceAll body) default
  | .expr value _ => .expr value.unplace default

/-- Statements without their places. -/
def Stmt.unplaceAll : List Stmt → List Stmt
  | [] => []
  | stmt :: rest => stmt.unplace :: Stmt.unplaceAll rest

/-- The tests and bodies of an `if` statement without their places. -/
def Arms.unplace : Arms → Arms
  | .done => .done
  | .otherwise body => .otherwise (Stmt.unplaceAll body)
  | .test condition body rest =>
    .test condition.unplace (Stmt.unplaceAll body) rest.unplace

end

/-- A function without its places. -/
def Function.unplace (f : Function) : Function :=
  ⟨unplaced f.name.node, f.params.map fun p => unplaced p.node,
    Stmt.unplaceAll f.body, default⟩

/-- A program without its places. -/
def Program.unplace (p : Program) : Program :=
  ⟨p.functions.map Function.unplace⟩

theorem Parser.any_isMark {t : Option Token} {m : Mark} :
    t.any (isMark m) = true ↔ t = some (.mark m) := by
  cases t with
  | none => simp
  | some t => cases t <;> simp [isMark]

theorem Parser.any_isKeyword {t : Option Token} {k : Keyword} :
    t.any (isKeyword k) = true ↔ t = some (.keyword k) := by
  cases t with
  | none => simp
  | some t => cases t <;> simp [isKeyword]

namespace Grammar

/-! ## Trees -/

mutual

/-- `primary (. Word ( args ))*` -/
inductive Expr where
  | chain (head : Primary) (calls : Calls)

/-- An expression that is not a call with a receiver. -/
inductive Primary where
  | literal (value : Literal)
  | name (w : String)
  /-- `Word ( args )` -/
  | call (w : String) (args : Args)
  /-- `fun ( params ) body` -/
  | lambda (params : List String) (body : Stmts)

/-- `(. Word ( args ))*` -/
inductive Calls where
  | done
  | next (method : String) (args : Args) (rest : Calls)

/-- `empty | expr (, expr)*` -/
inductive Args where
  | empty
  | list (first : Expr) (rest : MoreArgs)

/-- `(, expr)*` -/
inductive MoreArgs where
  | done
  | next (arg : Expr) (rest : MoreArgs)

/-- A statement other than `return` without a value. -/
inductive Stmt where
  | branch (arms : Arms)
  | loop (condition : Expr) (body : Stmts)
  | each (x : String) (iterable : Expr) (body : Stmts)
  | declare (x : String) (init : Expr)
  | giveBack (value : Expr)
  | leave
  | skip
  | block (body : Stmts)
  | assign (x : String) (value : Expr)
  | expr (value : Expr)

/-- `( expr ) body (else if ( expr ) body)* (else body)?` -/
inductive Arms where
  | arm (condition : Expr) (body : Stmts) (rest : MoreArms)

/-- `(else if ( expr ) body)* (else body)?` -/
inductive MoreArms where
  | done
  | otherwise (body : Stmts)
  | elseIf (arms : Arms)

/-- A sequence of statements, which may end with a `return` without a value. -/
inductive Stmts where
  | done
  | giveBack
  | cons (stmt : Stmt) (rest : Stmts)

end

/-- `fun Word ( params ) body` -/
structure Function where
  name : String
  params : List String
  body : Stmts

/-- `function*` -/
structure Program where
  functions : List Function

/-! ## The tokens of a tree -/

/-- Tokens in parentheses. -/
def parens (ts : List Token) : List Token :=
  .mark .openParen :: (ts ++ [.mark .closeParen])

/-- Tokens in braces. -/
def braces (ts : List Token) : List Token :=
  .mark .openBrace :: (ts ++ [.mark .closeBrace])

/-- The tokens of the words of a list that follow its first one. -/
def moreWords : List String → List Token
  | [] => []
  | w :: ws => .mark .comma :: .word w :: moreWords ws

/-- The tokens of a list of words. -/
def words : List String → List Token
  | [] => []
  | w :: ws => .word w :: moreWords ws

mutual

/-- The tokens of an expression. -/
def Expr.yield : Expr → List Token
  | .chain head calls => head.yield ++ calls.yield

/-- The tokens of an expression without a receiver. -/
def Primary.yield : Primary → List Token
  | .literal value => [value.token]
  | .name w => [.word w]
  | .call w args => .word w :: parens args.yield
  | .lambda params body =>
    .keyword .function :: (parens (words params) ++ braces body.yield)

/-- The tokens of calls that follow an expression. -/
def Calls.yield : Calls → List Token
  | .done => []
  | .next method args rest =>
    .mark .dot :: .word method :: (parens args.yield ++ rest.yield)

/-- The tokens of arguments. -/
def Args.yield : Args → List Token
  | .empty => []
  | .list first rest => first.yield ++ rest.yield

/-- The tokens of the arguments that follow the first one. -/
def MoreArgs.yield : MoreArgs → List Token
  | .done => []
  | .next arg rest => .mark .comma :: (arg.yield ++ rest.yield)

/-- The tokens of a statement. -/
def Stmt.yield : Stmt → List Token
  | .branch arms => .keyword .branch :: arms.yield
  | .loop condition body =>
    .keyword .loop :: (parens condition.yield ++ braces body.yield)
  | .each x iterable body =>
    .keyword .each ::
      (parens (.word x :: .word "in" :: iterable.yield) ++ braces body.yield)
  | .declare x init => .keyword .declare :: .word x :: .mark .equals :: init.yield
  | .giveBack value => .keyword .giveBack :: value.yield
  | .leave => [.keyword .leave]
  | .skip => [.keyword .skip]
  | .block body => braces body.yield
  | .assign x value => .word x :: .mark .equals :: value.yield
  | .expr value => value.yield

/-- The tokens of the tests of a branch after its first word. -/
def Arms.yield : Arms → List Token
  | .arm condition body rest =>
    parens condition.yield ++ (braces body.yield ++ rest.yield)

/-- The tokens of the tests that follow a body. -/
def MoreArms.yield : MoreArms → List Token
  | .done => []
  | .otherwise body => .keyword .otherwise :: braces body.yield
  | .elseIf arms => .keyword .otherwise :: .keyword .branch :: arms.yield

/-- The tokens of a sequence of statements. -/
def Stmts.yield : Stmts → List Token
  | .done => []
  | .giveBack => [.keyword .giveBack]
  | .cons stmt rest => stmt.yield ++ rest.yield

end

/-- The tokens of a function. -/
def Function.yield (f : Function) : List Token :=
  .keyword .function :: .word f.name :: (parens (words f.params) ++ braces f.body.yield)

/-- The tokens of a program. -/
def Program.yield (p : Program) : List Token :=
  p.functions.flatMap Function.yield

/-! ## The program that a tree denotes -/

mutual

/-- What an expression denotes, when `n` loops have ended before, and the number of loops
that have ended after it. -/
def Expr.denote : Expr → (n : Nat) → HandleScript.Expr × Nat
  | .chain head calls, n =>
    let (receiver, n) := head.denote n
    calls.denote receiver n

/-- What an expression without a receiver denotes; a bare call is a call on `this`. -/
def Primary.denote : Primary → (n : Nat) → HandleScript.Expr × Nat
  | .literal value, n => (.literal value default, n)
  | .name w, n => (.name w default, n)
  | .call w args, n =>
    let (args, n) := args.denote n
    (.call (.name "this" default) (unplaced w) args default, n)
  | .lambda params body, n =>
    let (body, n) := body.denote n
    (.lambda ⟨unplaced "<lambda>", params.map unplaced, body, default⟩, n)

/-- What calls on a receiver denote: each is the receiver of the next one. -/
def Calls.denote :
    Calls → (receiver : HandleScript.Expr) → (n : Nat) → HandleScript.Expr × Nat
  | .done, receiver, n => (receiver, n)
  | .next method args rest, receiver, n =>
    let (args, n) := args.denote n
    rest.denote (.call receiver (unplaced method) args default) n

/-- What arguments denote. -/
def Args.denote : Args → (n : Nat) → List HandleScript.Expr × Nat
  | .empty, n => ([], n)
  | .list first rest, n =>
    let (first, n) := first.denote n
    let (rest, n) := rest.denote n
    (first :: rest, n)

/-- What the arguments after the first one denote. -/
def MoreArgs.denote : MoreArgs → (n : Nat) → List HandleScript.Expr × Nat
  | .done, n => ([], n)
  | .next arg rest, n =>
    let (arg, n) := arg.denote n
    let (rest, n) := rest.denote n
    (arg :: rest, n)

/-- What a statement denotes. A `for` loop is a block that keeps an iterator in a hidden
variable, which has the number of loops whose bodies have ended. -/
def Stmt.denote : Stmt → (n : Nat) → HandleScript.Stmt × Nat
  | .branch arms, n =>
    let (arms, n) := arms.denote n
    (.branch arms default, n)
  | .loop condition body, n =>
    let (condition, n) := condition.denote n
    let (body, n) := body.denote n
    (.loop condition body default, n)
  | .each x iterable body, n =>
    let (iterable, n) := iterable.denote n
    let (body, n) := body.denote n
    let iterator := HandleScript.Expr.name (hiddenName n) default
    (.block
      [.declare (unplaced (hiddenName n))
          (.call iterable (unplaced "getIterator") [] default) default,
        .loop (.call iterator (unplaced "hasNext") [] default)
          (.declare (unplaced x) (.call iterator (unplaced "moveNext") [] default)
            default :: body) default]
      default, n + 1)
  | .declare x init, n =>
    let (init, n) := init.denote n
    (.declare (unplaced x) init default, n)
  | .giveBack value, n =>
    let (value, n) := value.denote n
    (.giveBack (some value) default, n)
  | .leave, n => (.leave default, n)
  | .skip, n => (.skip default, n)
  | .block body, n =>
    let (body, n) := body.denote n
    (.block body default, n)
  | .assign x value, n =>
    let (value, n) := value.denote n
    (.assign (unplaced x) value default, n)
  | .expr value, n =>
    let (value, n) := value.denote n
    (.expr value default, n)

/-- What the tests of a branch denote. -/
def Arms.denote : Arms → (n : Nat) → HandleScript.Arms × Nat
  | .arm condition body rest, n =>
    let (condition, n) := condition.denote n
    let (body, n) := body.denote n
    let (rest, n) := rest.denote n
    (.test condition body rest, n)

/-- What the tests that follow a body denote. -/
def MoreArms.denote : MoreArms → (n : Nat) → HandleScript.Arms × Nat
  | .done, n => (.done, n)
  | .otherwise body, n =>
    let (body, n) := body.denote n
    (.otherwise body, n)
  | .elseIf arms, n => arms.denote n

/-- What a sequence of statements denotes. -/
def Stmts.denote : Stmts → (n : Nat) → List HandleScript.Stmt × Nat
  | .done, n => ([], n)
  | .giveBack, n => ([.giveBack none default], n)
  | .cons stmt rest, n =>
    let (stmt, n) := stmt.denote n
    let (rest, n) := rest.denote n
    (stmt :: rest, n)

end

/-- What a function denotes. -/
def Function.denote (f : Function) (n : Nat) : HandleScript.Function × Nat :=
  let (body, n) := f.body.denote n
  (⟨unplaced f.name, f.params.map unplaced, body, default⟩, n)

/-- What functions denote, one after the other. -/
def Function.denoteAll : List Function → (n : Nat) → List HandleScript.Function × Nat
  | [], n => ([], n)
  | f :: fs, n =>
    let (f, n) := f.denote n
    let (fs, n) := denoteAll fs n
    (f :: fs, n)

/-- What a program denotes. -/
def Program.denote (p : Program) : HandleScript.Program :=
  ⟨(Function.denoteAll p.functions 0).1⟩

/-! ## No tokens have two trees -/

/-- Tokens that can follow an expression or a statement begin with none of these. -/
structure Follow (ts : List Token) : Prop where
  dot : ts.head? ≠ some (.mark .dot)
  paren : ts.head? ≠ some (.mark .openParen)
  equals : ts.head? ≠ some (.mark .equals)
  otherwise : ts.head? ≠ some (.keyword .otherwise)

/-- Tokens that can follow a sequence of statements: none, or a closing brace and more. -/
inductive Closes : List Token → Prop
  | ending : Closes []
  | brace (ts : List Token) : Closes (.mark .closeBrace :: ts)

theorem Closes.follow {ts : List Token} (h : Closes ts) : Follow ts := by
  cases h <;> constructor <;> simp

theorem cons_of_not_closes {ts : List Token} (h : ¬ Closes ts) :
    ∃ t ts', ts = t :: ts' ∧ t ≠ .mark .closeBrace := by
  cases ts with
  | nil => exact absurd .ending h
  | cons t ts' =>
      refine ⟨t, ts', rfl, ?_⟩
      rintro rfl
      exact h (.brace ts')

theorem follow_mark {m : Mark} (h : m ≠ .dot ∧ m ≠ .openParen ∧ m ≠ .equals)
    (ts : List Token) : Follow (.mark m :: ts) := by
  constructor <;> simp [h]

theorem follow_cons {t : Token} (hmark : ∀ m, t ≠ .mark m)
    (helse : t ≠ .keyword .otherwise) (ts : List Token) : Follow (t :: ts) := by
  constructor <;> simp [hmark, helse]

/-- An expression does not begin with a mark or `else`. -/
theorem Primary.yield_cons (p : Primary) :
    ∃ t ts, p.yield = t :: ts ∧ (∀ m, t ≠ .mark m) ∧ t ≠ .keyword .otherwise := by
  cases p with
  | literal value =>
      refine ⟨value.token, [], rfl, ?_⟩
      rcases value with _ | _ | (_ | _) | _ | _ <;> simp [Literal.token]
  | name w => exact ⟨_, _, rfl, by simp, by simp⟩
  | call w args => exact ⟨_, _, rfl, by simp, by simp⟩
  | lambda params body => exact ⟨_, _, rfl, by simp, by simp⟩

theorem Primary.length_pos (p : Primary) : 0 < p.yield.length := by
  obtain ⟨t, ts, hyield, -, -⟩ := p.yield_cons
  rw [hyield]
  exact Nat.succ_pos _

theorem Expr.yield_cons (e : Expr) :
    ∃ t ts, e.yield = t :: ts ∧ (∀ m, t ≠ .mark m) ∧ t ≠ .keyword .otherwise := by
  cases e with
  | chain head calls =>
      obtain ⟨t, ts, hyield, hmark, helse⟩ := head.yield_cons
      exact ⟨t, ts ++ calls.yield, by
        rw [Expr.yield, hyield, List.cons_append], hmark, helse⟩

theorem Expr.follow (e : Expr) (r : List Token) : Follow (e.yield ++ r) := by
  obtain ⟨t, ts, hyield, hmark, helse⟩ := e.yield_cons
  rw [hyield]
  exact follow_cons hmark helse _

theorem Expr.head?_ne_mark (e : Expr) (r : List Token) (m : Mark) :
    (e.yield ++ r).head? ≠ some (.mark m) := by
  obtain ⟨t, ts, hyield, hmark, -⟩ := e.yield_cons
  rw [hyield]
  simp [hmark]

theorem Expr.not_closes (e : Expr) (r : List Token) : ¬ Closes (e.yield ++ r) := by
  obtain ⟨t, ts, hyield, hmark, -⟩ := e.yield_cons
  rw [hyield]
  intro h
  cases h
  exact hmark _ rfl

theorem Stmt.not_closes (stmt : Stmt) (r : List Token) : ¬ Closes (stmt.yield ++ r) := by
  cases stmt with
  | expr value => exact value.not_closes r
  | branch | loop | each | declare | giveBack | leave | skip | block | assign =>
      intro h
      cases h

theorem Stmt.length_pos (stmt : Stmt) : 0 < stmt.yield.length := by
  obtain ⟨t, ts, hts, -⟩ := cons_of_not_closes (stmt.not_closes [])
  rw [List.append_nil] at hts
  rw [hts]
  exact Nat.succ_pos _

theorem Stmt.follow (stmt : Stmt) (r : List Token) : Follow (stmt.yield ++ r) := by
  cases stmt with
  | expr value => exact value.follow r
  | branch | loop | each | declare | giveBack | leave | skip | block | assign =>
      constructor <;> simp [Stmt.yield, braces]

theorem Stmts.follow (stmts : Stmts) {r : List Token} (hr : Closes r) :
    Follow (stmts.yield ++ r) := by
  cases stmts with
  | done => exact hr.follow
  | giveBack => constructor <;> simp [Stmts.yield]
  | cons stmt rest =>
      rw [Stmts.yield, List.append_assoc]
      exact stmt.follow _

theorem Calls.head?_ne_paren (calls : Calls) {r : List Token} (hr : Follow r) :
    (calls.yield ++ r).head? ≠ some (.mark .openParen) := by
  cases calls with
  | done => exact hr.paren
  | next method args rest => simp [Calls.yield]

/-- The sort of a statement, as its first two tokens tell. -/
def Stmt.start : Stmt → Parser.StmtStart
  | .branch _ => .branch
  | .loop _ _ => .loop
  | .each _ _ _ => .each
  | .declare _ _ => .declare
  | .giveBack _ => .giveBack
  | .leave => .leave
  | .skip => .skip
  | .block _ => .block
  | .assign _ _ => .assign
  | .expr _ => .expr

theorem Calls.any_equals (calls : Calls) {r : List Token} (hr : Follow r) :
    (calls.yield ++ r).head?.any (Parser.isMark .equals) = false := by
  cases calls with
  | next method args rest => rfl
  | done =>
      exact Bool.eq_false_iff.2 (mt Parser.any_isMark.1 hr.equals)

theorem Stmt.stmtStart_yield (stmt : Stmt) {r : List Token} (hr : Follow r) :
    Parser.stmtStart (stmt.yield ++ r).head? ((stmt.yield ++ r).drop 1).head? =
      stmt.start := by
  cases stmt with
  | expr value =>
      cases value with
      | chain head calls =>
          cases head with
          | literal value => rcases value with _ | _ | (_ | _) | _ | _ <;> rfl
          | name w =>
              have hequals := calls.any_equals hr
              change (if (calls.yield ++ r).head?.any (Parser.isMark .equals) then
                _ else _) = _
              rw [hequals]
              rfl
          | call w args => rfl
          | lambda params body => rfl
  | branch | loop | each | declare | giveBack | leave | skip | block | assign => rfl

end Grammar

end HandleScript
