import HandleScript.Proofs.Parser.Composition
import HandleScript.Proofs.Parser.Progress
import HandleScript.Proofs.Renaming

/-!
# Hygiene of hidden names

A name occurs in a program as something, and somewhere: the way outwards from it leads
from each piece of code to the one that directly holds it. Every name is a word of the
source or made up by the parser, and of those that are made up only the hidden names have
a point in them. The hidden name of a `for` loop has a number of its own, because the loop
takes the number when all loops inside of it have taken theirs. It is declared once and
read by its own loop alone, and what the loop goes over and its body do not use it.
-/

namespace HandleScript

/-! ## Where names occur -/

/-- What a name is where it occurs. -/
inductive NameRole where
  /-- A variable that is declared. -/
  | declared
  /-- A variable that is assigned to. -/
  | assigned
  /-- A variable that is read. -/
  | read
  | parameter
  | function
  | method
deriving DecidableEq, Repr

/-- What a piece of code is to the one that directly holds it. -/
inductive Step where
  /-- The receiver of a call of the method. -/
  | receiver (method : String)
  | argument
  /-- The value that a declared variable starts with. -/
  | init
  /-- The value of a statement of another sort. -/
  | value
  /-- The condition of a loop. -/
  | condition
  /-- The sequence of statements in a loop. -/
  | loopBody
  /-- A test of an `if` statement. -/
  | test
  /-- A sequence of statements in an `if` statement. -/
  | arm
  /-- The sequence of statements in a block. -/
  | block
  /-- The sequence of statements in a function. -/
  | functionBody
  /-- The statement that directly follows the statements `before` in a sequence. -/
  | after (before : List Stmt)

/-- A name where it occurs, and the steps that lead outwards from there, the innermost
first. -/
structure Occurrence where
  role : NameRole
  name : String
  trail : List Step

mutual

/-- The names in an expression from which `trail` leads outwards. -/
def Expr.occurrences (trail : List Step) : Expr → List Occurrence
  | .call receiver method args _ =>
    ⟨.method, method.node, trail⟩ ::
      (receiver.occurrences (.receiver method.node :: trail) ++ Expr.occurrencesAll
        (.argument :: trail) args)
  | .name text _ => [⟨.read, text, trail⟩]
  | .literal _ _ => []
  | .lambda ⟨name, params, body, _⟩ =>
    ⟨.function, name.node, trail⟩ ::
      (params.map (fun p => ⟨.parameter, p.node, trail⟩) ++ Stmt.occurrencesAll
        (.functionBody :: trail) [] body)

/-- The names in expressions. -/
def Expr.occurrencesAll (trail : List Step) : List Expr → List Occurrence
  | [] => []
  | e :: es => e.occurrences trail ++ Expr.occurrencesAll trail es

/-- The names in a statement. -/
def Stmt.occurrences (trail : List Step) : Stmt → List Occurrence
  | .branch arms _ => arms.occurrences trail
  | .loop condition body _ =>
    condition.occurrences (.condition :: trail) ++ Stmt.occurrencesAll
      (.loopBody :: trail) [] body
  | .declare name init _ =>
    ⟨.declared, name.node, trail⟩ :: init.occurrences (.init :: trail)
  | .assign name value _ =>
    ⟨.assigned, name.node, trail⟩ :: value.occurrences (.value :: trail)
  | .giveBack none _ => []
  | .giveBack (some value) _ => value.occurrences (.value :: trail)
  | .leave _ => []
  | .skip _ => []
  | .block body _ => Stmt.occurrencesAll (.block :: trail) [] body
  | .expr value _ => value.occurrences (.value :: trail)

/-- The names in the statements that follow `before` in a sequence. -/
def Stmt.occurrencesAll (trail : List Step) (before : List Stmt) :
    List Stmt → List Occurrence
  | [] => []
  | stmt :: rest =>
    stmt.occurrences (.after before :: trail) ++
      Stmt.occurrencesAll trail (before ++ [stmt]) rest

/-- The names in the tests and bodies of an `if` statement. -/
def Arms.occurrences (trail : List Step) : Arms → List Occurrence
  | .done => []
  | .otherwise body => Stmt.occurrencesAll (.arm :: trail) [] body
  | .test condition body rest =>
    condition.occurrences (.test :: trail) ++
      (Stmt.occurrencesAll (.arm :: trail) [] body ++ rest.occurrences trail)

end

/-- The names in a function. -/
def Function.occurrences (trail : List Step) (f : Function) : List Occurrence :=
  ⟨.function, f.name.node, trail⟩ ::
    (f.params.map (fun p => ⟨.parameter, p.node, trail⟩) ++ Stmt.occurrencesAll
      (.functionBody :: trail) [] f.body)

/-- The names in a program. -/
def Program.occurrences (p : Program) : List Occurrence :=
  p.functions.flatMap (Function.occurrences [])

/-- How often a variable with this name is declared. -/
def declarations (name : String) (names : List Occurrence) : Nat :=
  names.countP fun o => o.role = .declared ∧ o.name = name

@[simp] theorem declarations_nil (name : String) : declarations name [] = 0 := rfl

@[simp] theorem declarations_append (name : String) (names names' : List Occurrence) :
    declarations name (names ++ names') = declarations name names +
      declarations name names' :=
  List.countP_append

@[simp] theorem declarations_cons (name : String) (o : Occurrence)
    (names : List Occurrence) :
    declarations name (o :: names) = declarations name names + if o.role = .declared ∧
      o.name = name then 1 else 0 := by
  simp [declarations, List.countP_cons]

/-- The way outwards from the variable `hidden` where a loop reads it. The statement
before the loop declares it, and it is the receiver of `hasNext` in the condition of the
loop, or of `moveNext` in the first statement of its body. -/
inductive ReadByLoop (hidden : String) : List Step → Prop
  | condition {before : List Stmt} {place span : Span} {init : Expr} {outer : List Step}
      (declared : before.getLast? = some (.declare ⟨hidden, place⟩ init span)) :
      ReadByLoop hidden (.receiver "hasNext" :: .condition :: .after before :: outer)
  | first {before : List Stmt} {place span : Span} {init : Expr} {outer : List Step}
      (declared : before.getLast? = some (.declare ⟨hidden, place⟩ init span)) :
      ReadByLoop hidden (.receiver "moveNext" :: .init :: .after
        [] :: .loopBody :: .after before :: outer)

/-- The hidden name with the number `k` is declared, or read by its loop. -/
def Occurrence.OfLoop (o : Occurrence) (k : Nat) : Prop :=
  o.name = hiddenName k ∧
    (o.role = .declared ∨ o.role = .read ∧ ReadByLoop (hiddenName k) o.trail)

/-- The names other than hidden names that are not taken from the source. -/
def madeUpNames : List (NameRole × String) :=
  [(.read, dispatcherName), (.function, lambdaName), (.method, "getIterator"),
    (.method, "hasNext"), (.method, "moveNext")]

theorem dot_notMem_madeUp : ∀ p ∈ madeUpNames, '.' ∉ p.2.toList := by
  decide

/-- The names are words among the tokens or made up, and the hidden ones are those with
the numbers from `n` to below `m`, each declared once unless a token spells one. -/
structure Hygienic (ts : List Token) (n m : Nat) (names : List Occurrence) : Prop where
  le : n ≤ m
  origin : ∀ o ∈ names, .word o.name ∈ ts ∨ (o.role, o.name) ∈ madeUpNames ∨
    ∃ k, n ≤ k ∧ k < m ∧ o.OfLoop k
  once : (∀ k, .word (hiddenName k) ∉ ts) →
    ∀ k, declarations (hiddenName k) names = if n ≤ k ∧ k < m then 1 else 0

namespace Hygienic

variable {ts : List Token} {n m l : Nat} {names names' : List Occurrence} {o : Occurrence}

theorem nil (ts : List Token) (n : Nat) : Hygienic ts n n [] := by
  refine ⟨Nat.le_refl n, nofun, fun _ k => ?_⟩
  rw [declarations_nil, if_neg (by omega)]

theorem append (h : Hygienic ts n m names) (h' : Hygienic ts m l names') :
    Hygienic ts n l (names ++ names') := by
  have hle := h.le
  have hle' := h'.le
  refine ⟨by omega, fun o ho => ?_, fun hfree k => ?_⟩
  · rcases List.mem_append.mp ho with ho | ho
    · rcases h.origin o ho with hword | hmade | ⟨k, hn, hm, hloop⟩
      · exact .inl hword
      · exact .inr (.inl hmade)
      · exact .inr (.inr ⟨k, hn, by omega, hloop⟩)
    · rcases h'.origin o ho with hword | hmade | ⟨k, hm, hl, hloop⟩
      · exact .inl hword
      · exact .inr (.inl hmade)
      · exact .inr (.inr ⟨k, by omega, hl, hloop⟩)
  · rw [declarations_append, h.once hfree, h'.once hfree]
    split_ifs <;> omega

/-- The order of the names does not matter. -/
theorem reorder (h : Hygienic ts n m names) (hmem : names' ⊆ names)
    (hcount : ∀ name, declarations name names' = declarations name names) :
    Hygienic ts n m names' :=
  ⟨h.le, fun o ho => h.origin o (hmem ho), fun hfree k =>
    (hcount _).trans (h.once hfree k)⟩

theorem cons (h : Hygienic ts n m names)
    (ho : .word o.name ∈ ts ∨ (o.role, o.name) ∈ madeUpNames)
    (hdeclared : o.role = .declared → .word o.name ∈ ts) :
    Hygienic ts n m (o :: names) := by
  refine ⟨h.le, List.forall_mem_cons.mpr ⟨ho.imp_right .inl, h.origin⟩, fun hfree k => ?_⟩
  have hother : ¬ (o.role = .declared ∧ o.name = hiddenName k) := by
    rintro ⟨hrole, hname⟩
    exact hfree k (hname ▸ hdeclared hrole)
  rw [declarations_cons, if_neg hother, Nat.add_zero, h.once hfree]

theorem made (h : Hygienic ts n m names) (role : NameRole) (name : String)
    (trail : List Step) (ho : (role, name) ∈ madeUpNames) :
    Hygienic ts n m (⟨role, name, trail⟩ :: names) := by
  have hrole : ∀ p ∈ madeUpNames, p.1 ≠ .declared := by decide
  exact h.cons (.inr ho) fun hdeclared => absurd hdeclared (hrole _ ho)

theorem word (h : Hygienic ts n m names) (role : NameRole) {name : String}
    (trail : List Step) (ho : .word name ∈ ts) :
    Hygienic ts n m (⟨role, name, trail⟩ :: names) :=
  h.cons (.inl ho) fun _ => ho

theorem words (h : Hygienic ts n m names) {role : NameRole} {trail : List Step}
    {params : List (Located String)} (hparams : ∀ p ∈ params, .word p.node ∈ ts) :
    Hygienic ts n m (params.map (fun p => ⟨role, p.node, trail⟩) ++ names) := by
  induction params with
  | nil => exact h
  | cons p params ih =>
      obtain ⟨hp, hparams⟩ := List.forall_mem_cons.mp hparams
      exact (ih hparams).word role trail hp

/-- The names that a loop makes up for itself when it takes its number. -/
theorem ofLoop (ts : List Token) (m : Nat) {trail trail₁ trail₂ : List Step}
    (h₁ : ReadByLoop (hiddenName m) trail₁) (h₂ : ReadByLoop (hiddenName m) trail₂) :
    Hygienic ts m (m + 1)
      [⟨.declared, hiddenName m, trail⟩, ⟨.read, hiddenName m, trail₁⟩,
        ⟨.read, hiddenName m, trail₂⟩] := by
  refine ⟨Nat.le_succ m, fun o ho =>
    .inr (.inr ⟨m, Nat.le_refl m, Nat.lt_succ_self m, ?_⟩), fun _ k => ?_⟩
  · simp only [List.mem_cons, List.not_mem_nil, or_false] at ho
    rcases ho with rfl | rfl | rfl
    · exact ⟨rfl, .inl rfl⟩
    · exact ⟨rfl, .inr ⟨rfl, h₁⟩⟩
    · exact ⟨rfl, .inr ⟨rfl, h₂⟩⟩
  · have hsame : hiddenName m = hiddenName k ↔ m ≤ k ∧ k < m + 1 := by
      constructor
      · intro heq
        have hnumber := hiddenName_injective heq
        omega
      · intro hk
        rw [Nat.le_antisymm hk.1 (Nat.le_of_lt_succ hk.2)]
    simp [hsame]

end Hygienic

/-! ## The names of trees -/

namespace Grammar

theorem mem_placeWords {params : List String} {spans : Places} {p : Located String}
    (hp : p ∈ placeWords params spans) : p.node ∈ params := by
  induction params generalizing spans with
  | nil => cases hp
  | cons w ws ih =>
      rcases List.mem_cons.mp hp with rfl | hp
      · exact List.mem_cons_self
      · exact List.mem_cons_of_mem _ (ih hp)

section Trees

variable {ts : List Token}

/-- A loop comes after its parts, which are numbered before it. -/
theorem hygienic_forBlock {n m l : Nat} {start : Span} {x : Located String}
    {iterable : HandleScript.Expr} {body : List HandleScript.Stmt}
    (hx : .word x.node ∈ ts)
    (hiterable : ∀ trail, Hygienic ts n m (iterable.occurrences trail))
    (hbody : ∀ trail before, Hygienic ts m l
      (HandleScript.Stmt.occurrencesAll trail before body))
    (trail : List Step) :
    Hygienic ts n (l + 1)
      (HandleScript.Stmt.occurrencesAll trail []
        (Parser.forBlock (hiddenName l) start x iterable body)) := by
  let declaration : HandleScript.Stmt :=
    .declare ⟨hiddenName l, start⟩
      (Parser.impliedCall iterable "getIterator" iterable.span) start
  let first : HandleScript.Stmt :=
    .declare x (Parser.impliedCall (.name (hiddenName l) start) "moveNext" start) start
  let inLoop : List Step := .after [declaration] :: trail
  let inFirst : List Step := .after [] :: .loopBody :: inLoop
  have hnames : HandleScript.Stmt.occurrencesAll trail []
      (Parser.forBlock (hiddenName l) start x iterable body) =
      ⟨.declared, hiddenName l, .after [] :: trail⟩ ::
          ⟨.method, "getIterator", .init :: .after [] :: trail⟩ ::
        (iterable.occurrences (.receiver "getIterator" :: .init :: .after [] :: trail) ++
          (⟨.method, "hasNext", .condition :: inLoop⟩ ::
            ⟨.read, hiddenName l, .receiver "hasNext" :: .condition :: inLoop⟩ ::
            ⟨.declared, x.node, inFirst⟩ :: ⟨.method, "moveNext", .init :: inFirst⟩ ::
            ⟨.read, hiddenName l, .receiver "moveNext" :: .init :: inFirst⟩ ::
            HandleScript.Stmt.occurrencesAll (.loopBody :: inLoop) [first] body)) := by
    simp [Parser.forBlock, Parser.impliedCall, HandleScript.Stmt.occurrencesAll,
      HandleScript.Stmt.occurrences, HandleScript.Expr.occurrences,
      HandleScript.Expr.occurrencesAll, declaration, first, inLoop, inFirst]
  have hdeclared : [declaration].getLast? = some declaration := List.getLast?_singleton
  have hown : Hygienic ts l (l + 1)
      [⟨.declared, hiddenName l, .after [] :: trail⟩,
        ⟨.read, hiddenName l, .receiver "hasNext" :: .condition :: inLoop⟩,
        ⟨.read, hiddenName l, .receiver "moveNext" :: .init :: inFirst⟩] :=
    .ofLoop ts l (.condition hdeclared) (.first hdeclared)
  have hparts :=
      (hiterable (.receiver "getIterator" :: .init :: .after [] :: trail)).append
    ((hbody (.loopBody :: inLoop) [first]).append hown)
  have hmethods :=
      ((hparts.made .method "getIterator" (.init :: .after [] :: trail) (by decide)).made
    .method "hasNext" (.condition :: inLoop) (by decide)).made .method "moveNext"
      (.init :: inFirst) (by decide)
  -- The hidden name is declared before its parts occur and read among them, but it has
  -- the last number.
  rw [hnames]
  refine (hmethods.word .declared inFirst hx).reorder (fun o ho => ?_) fun name => ?_
  · simp only [List.mem_cons, List.mem_append, List.not_mem_nil, or_false] at ho ⊢
    tauto
  · simp only [declarations_cons, declarations_append, declarations_nil]
    omega

mutual

theorem Expr.hygienic (e : Expr) (hts : e.yield ⊆ ts) (spans : Places) (n : Nat)
    (trail : List Step) :
    Hygienic ts n (e.place spans n).2 ((e.place spans n).1.occurrences trail) := by
  match e, hts with
  | .chain head calls, hts =>
      have hhead := head.hygienic (fun t ht => hts (by simp [Expr.yield, ht])) spans n
      exact calls.hygienic (fun t ht => hts (by simp [Expr.yield, ht])) hhead _ trail
termination_by structural e

theorem Primary.hygienic (e : Primary) (hts : e.yield ⊆ ts) (spans : Places) (n : Nat)
    (trail : List Step) :
    Hygienic ts n (e.place spans n).2 ((e.place spans n).1.occurrences trail) := by
  match e, hts with
  | .literal value, hts => exact .nil ts n
  | .name w, hts =>
      exact (Hygienic.nil ts n).word .read trail (hts (by simp [Primary.yield]))
  | .call w args, hts =>
      have hargs := args.hygienic (fun t ht => hts (by simp [Primary.yield, parens, ht]))
        (spans.past [.word w, .mark .openParen]) n (.argument :: trail)
      exact (hargs.made .read dispatcherName _ (by decide)).word .method _
        (hts (by simp [Primary.yield]))
  | .lambda params body, hts =>
      have hbody := body.hygienic (fun t ht => hts (by simp [Primary.yield, braces, ht]))
        (spans.past (.keyword .function :: (parens (words params) ++ [.mark .openBrace])))
          n (.functionBody :: trail) []
      refine (hbody.words fun p hp => hts ?_).made .function lambdaName trail (by decide)
      simp [Primary.yield, parens, mem_words (mem_placeWords hp)]
termination_by structural e

theorem Calls.hygienic (calls : Calls) (hts : calls.yield ⊆ ts) {k n : Nat}
    {receiver : HandleScript.Expr}
    (hreceiver : ∀ trail, Hygienic ts k n (receiver.occurrences trail)) (spans : Places)
    (trail : List Step) :
    Hygienic ts k (calls.place receiver spans n).2
      ((calls.place receiver spans n).1.occurrences trail) := by
  match calls, hts with
  | .done, hts => exact hreceiver trail
  | .next method args rest, hts =>
      have hargs := args.hygienic (fun t ht => hts (by simp [Calls.yield, parens, ht]))
        (spans.past [.mark .dot, .word method, .mark .openParen]) n
      refine rest.hygienic (fun t ht => hts (by simp [Calls.yield, ht]))
        (fun trail => ?_) _ trail
      exact ((hreceiver _).append (hargs _)).word .method trail
        (hts (by simp [Calls.yield]))
termination_by structural calls

theorem Args.hygienic (args : Args) (hts : args.yield ⊆ ts) (spans : Places) (n : Nat)
    (trail : List Step) :
    Hygienic ts n (args.place spans n).2
      (HandleScript.Expr.occurrencesAll trail (args.place spans n).1) := by
  match args, hts with
  | .empty, hts => exact .nil ts n
  | .list first rest, hts =>
      have hfirst := first.hygienic (fun t ht => hts (by simp [Args.yield, ht]))
        spans n trail
      exact hfirst.append
        (rest.hygienic (fun t ht => hts (by simp [Args.yield, ht])) _ _ trail)
termination_by structural args

theorem MoreArgs.hygienic (args : MoreArgs) (hts : args.yield ⊆ ts) (spans : Places)
    (n : Nat) (trail : List Step) :
    Hygienic ts n (args.place spans n).2
      (HandleScript.Expr.occurrencesAll trail (args.place spans n).1) := by
  match args, hts with
  | .done, hts => exact .nil ts n
  | .next arg rest, hts =>
      have harg := arg.hygienic (fun t ht => hts (by simp [MoreArgs.yield, ht]))
        (spans.past [.mark .comma]) n trail
      exact harg.append
        (rest.hygienic (fun t ht => hts (by simp [MoreArgs.yield, ht])) _ _ trail)
termination_by structural args

theorem Stmt.hygienic (stmt : Stmt) (hts : stmt.yield ⊆ ts) (spans : Places) (n : Nat)
    (trail : List Step) :
    Hygienic ts n (stmt.place spans n).2 ((stmt.place spans n).1.occurrences trail) := by
  match stmt, hts with
  | .branch arms, hts =>
      exact arms.hygienic (fun t ht => hts (by simp [Stmt.yield, ht])) _ n trail
  | .loop condition body, hts =>
      have hcondition :=
          condition.hygienic (fun t ht => hts (by simp [Stmt.yield, parens, ht]))
        (spans.past [.keyword .loop, .mark .openParen]) n (.condition :: trail)
      exact hcondition.append
        (body.hygienic (fun t ht => hts (by simp [Stmt.yield, braces, ht])) _ _
          (.loopBody :: trail) [])
  | .each x iterable body, hts =>
      have hiterable :=
          iterable.hygienic (fun t ht => hts (by simp [Stmt.yield, parens, ht]))
        (spans.past [.keyword .each, .mark .openParen, .word x, .word "in"]) n
      have hbody := body.hygienic (fun t ht => hts (by simp [Stmt.yield, braces, ht]))
        (spans.past (.keyword .each ::
          (parens (.word x :: .word "in" :: iterable.yield) ++ [.mark .openBrace])))
        (iterable.place
          (spans.past [.keyword .each, .mark .openParen, .word x, .word "in"]) n).2
      exact hygienic_forBlock (hts (by simp [Stmt.yield, parens]))
        hiterable hbody (.block :: trail)
  | .declare x init, hts =>
      have hinit := init.hygienic (fun t ht => hts (by simp [Stmt.yield, ht]))
        (spans.past [.keyword .declare, .word x, .mark .equals]) n (.init :: trail)
      exact hinit.word .declared trail (hts (by simp [Stmt.yield]))
  | .giveBack value, hts =>
      exact value.hygienic (fun t ht => hts (by simp [Stmt.yield, ht])) _ n
        (.value :: trail)
  | .leave, hts => exact .nil ts n
  | .skip, hts => exact .nil ts n
  | .block body, hts =>
      exact body.hygienic (fun t ht => hts (by simp [Stmt.yield, braces, ht]))
        _ n (.block :: trail) []
  | .assign x value, hts =>
      have hvalue := value.hygienic (fun t ht => hts (by simp [Stmt.yield, ht]))
        (spans.past [.word x, .mark .equals]) n (.value :: trail)
      exact hvalue.word .assigned trail (hts (by simp [Stmt.yield]))
  | .expr value, hts =>
      exact value.hygienic (fun t ht => hts (by simp [Stmt.yield, ht]))
        spans n (.value :: trail)
termination_by structural stmt

theorem Arms.hygienic (arms : Arms) (hts : arms.yield ⊆ ts) (spans : Places) (n : Nat)
    (trail : List Step) :
    Hygienic ts n (arms.place spans n).2 ((arms.place spans n).1.occurrences trail) := by
  match arms, hts with
  | .arm condition body rest, hts =>
      have hcondition :=
          condition.hygienic (fun t ht => hts (by simp [Arms.yield, parens, ht]))
        (spans.past [.mark .openParen]) n (.test :: trail)
      have hbody := body.hygienic (fun t ht => hts (by simp [Arms.yield, braces, ht]))
        (spans.past (parens condition.yield ++ [.mark .openBrace]))
        (condition.place (spans.past [.mark .openParen]) n).2 (.arm :: trail) []
      exact hcondition.append
        (hbody.append
        (rest.hygienic (fun t ht => hts (by simp [Arms.yield, ht])) _ _ trail))
termination_by structural arms

theorem MoreArms.hygienic (arms : MoreArms) (hts : arms.yield ⊆ ts) (spans : Places)
    (n : Nat) (trail : List Step) :
    Hygienic ts n (arms.place spans n).2 ((arms.place spans n).1.occurrences trail) := by
  match arms, hts with
  | .done, hts => exact .nil ts n
  | .otherwise body, hts =>
      exact body.hygienic (fun t ht => hts (by simp [MoreArms.yield, braces, ht])) _ n
        (.arm :: trail) []
  | .elseIf arms, hts =>
      exact arms.hygienic (fun t ht => hts (by simp [MoreArms.yield, ht])) _ n trail
termination_by structural arms

theorem Stmts.hygienic (stmts : Stmts) (hts : stmts.yield ⊆ ts) (spans : Places) (n : Nat)
    (trail : List Step) (before : List HandleScript.Stmt) :
    Hygienic ts n (stmts.place spans n).2
      (HandleScript.Stmt.occurrencesAll trail before (stmts.place spans n).1) := by
  match stmts, hts with
  | .done, hts => exact .nil ts n
  | .giveBack, hts => exact .nil ts n
  | .cons stmt rest, hts =>
      have hfirst := stmt.hygienic (fun t ht => hts (by simp [Stmts.yield, ht])) spans n
        (.after before :: trail)
      exact hfirst.append
        (rest.hygienic (fun t ht => hts (by simp [Stmts.yield, ht])) _ _ trail _)
termination_by structural stmts

end

theorem Function.hygienic (f : Function) (hts : f.yield ⊆ ts) (spans : Places) (n : Nat)
    (trail : List Step) :
    Hygienic ts n (f.place spans n).2 ((f.place spans n).1.occurrences trail) := by
  have hbody := f.body.hygienic (fun t ht => hts (by simp [Function.yield, braces, ht]))
    (spans.past (.keyword .function :: .word f.name ::
      (parens (words f.params) ++ [.mark .openBrace]))) n
    (.functionBody :: trail) []
  have hname : .word f.name ∈ ts := hts (by simp [Function.yield])
  refine (hbody.words fun p hp => hts ?_).word .function trail hname
  simp [Function.yield, parens, mem_words (mem_placeWords hp)]

theorem Function.hygienic_all (fs : List Function) (hts : fs.flatMap yield ⊆ ts)
    (spans : Places) (n : Nat) :
    Hygienic ts n (placeAll fs spans n).2
      ((placeAll fs spans n).1.flatMap (HandleScript.Function.occurrences [])) := by
  induction fs generalizing spans n with
  | nil => exact .nil ts n
  | cons f fs ih =>
      rw [List.flatMap_cons, List.append_subset] at hts
      exact (f.hygienic hts.1 spans n []).append (ih hts.2 _ _)

end Trees

end Grammar

/-! ## Names that are used -/

theorem append_subset_map_name {used used' : List String} {names names' : List Occurrence}
    (h : used ⊆ names.map Occurrence.name) (h' : used' ⊆ names'.map Occurrence.name) :
    used ++ used' ⊆ (names ++ names').map Occurrence.name := by
  rw [List.map_append]
  exact List.append_subset.2
    ⟨List.subset_append_of_subset_left _ h, List.subset_append_of_subset_right _ h'⟩

mutual

/-- The names that code uses occur in it. -/
theorem Expr.used_subset (e : Expr) (trail : List Step) :
    e.used ⊆ (e.occurrences trail).map Occurrence.name := by
  match e with
  | .call receiver method args span =>
      exact List.subset_cons_of_subset _
        (append_subset_map_name (receiver.used_subset _) (Expr.usedAll_subset args _))
  | .name text span => exact List.Subset.refl _
  | .literal value span => exact List.nil_subset _
  | .lambda ⟨name, params, body, span⟩ =>
      have hparams : params.map Located.node ⊆
          (params.map fun p => (⟨.parameter, p.node, trail⟩ : Occurrence)).map
            Occurrence.name := by
        rw [List.map_map]
        exact List.Subset.refl _
      exact List.subset_cons_of_subset _
        (append_subset_map_name hparams (Stmt.usedAll_subset body _ _))
termination_by structural e

theorem Expr.usedAll_subset (es : List Expr) (trail : List Step) :
    Expr.usedAll es ⊆ (Expr.occurrencesAll trail es).map Occurrence.name := by
  match es with
  | [] => exact List.nil_subset _
  | e :: es =>
      exact append_subset_map_name (e.used_subset _) (Expr.usedAll_subset es _)
termination_by structural es

theorem Stmt.used_subset (stmt : Stmt) (trail : List Step) :
    stmt.used ⊆ (stmt.occurrences trail).map Occurrence.name := by
  match stmt with
  | .branch arms span => exact arms.used_subset _
  | .loop condition body span =>
      exact append_subset_map_name (condition.used_subset _)
        (Stmt.usedAll_subset body _ _)
  | .declare name init span => exact List.cons_subset_cons _ (init.used_subset _)
  | .assign name value span => exact List.cons_subset_cons _ (value.used_subset _)
  | .giveBack none span => exact List.nil_subset _
  | .giveBack (some value) span => exact value.used_subset _
  | .leave span => exact List.nil_subset _
  | .skip span => exact List.nil_subset _
  | .block body span => exact Stmt.usedAll_subset body _ _
  | .expr value span => exact value.used_subset _
termination_by structural stmt

theorem Stmt.usedAll_subset (stmts : List Stmt) (trail : List Step) (before : List Stmt) :
    Stmt.usedAll stmts ⊆ (Stmt.occurrencesAll trail before stmts).map
      Occurrence.name := by
  match stmts with
  | [] => exact List.nil_subset _
  | stmt :: rest =>
      exact append_subset_map_name (stmt.used_subset _) (Stmt.usedAll_subset rest _ _)
termination_by structural stmts

theorem Arms.used_subset (arms : Arms) (trail : List Step) :
    arms.used ⊆ (arms.occurrences trail).map Occurrence.name := by
  match arms with
  | .done => exact List.nil_subset _
  | .otherwise body => exact Stmt.usedAll_subset body _ _
  | .test condition body rest =>
      rw [Arms.used, List.append_assoc]
      exact append_subset_map_name (condition.used_subset _)
        (append_subset_map_name (Stmt.usedAll_subset body _ _) (rest.used_subset _))
termination_by structural arms

end

/-! ## The loop's own name -/

/-- A name with a dot that occurs nowhere in a loop, for a block to keep its iterator
under. -/
structure Hides (hidden x : String) (iterable : Expr) (body : List Stmt) : Prop where
  dotted : '.' ∈ hidden.toList
  name : x ≠ hidden
  iterable : hidden ∉ iterable.used
  body : hidden ∉ Stmt.usedAll body

/-- Numbers from `m` on are not in use yet. -/
theorem Hygienic.hiddenName_notMem {ts : List Token} {n m number : Nat}
    {names : List Occurrence} (h : Hygienic ts n m names)
    (hwords : ∀ w, .word w ∈ ts → '.' ∉ w.toList) (hnumber : m ≤ number) :
    hiddenName number ∉ names.map Occurrence.name := by
  intro hname
  obtain ⟨o, ho, hhidden⟩ := List.mem_map.mp hname
  rcases h.origin o ho with hword | hother | ⟨k, -, hk, hloop, -⟩
  · exact ne_hiddenName (hwords o.name hword) number hhidden
  · exact ne_hiddenName (dot_notMem_madeUp _ hother) number hhidden
  · have hsame := hiddenName_injective (hhidden.symm.trans hloop)
    omega

namespace Grammar

/-- The parts of a `for` loop are numbered before the loop itself. -/
theorem hides_each {x : String} {iterable : Expr} {body : Stmts} {ts : List Token}
    (hts : (Stmt.each x iterable body).yield ⊆ ts)
    (hwords : ∀ w, .word w ∈ ts → '.' ∉ w.toList) (spans spans' : Places) (n : Nat) :
    let value := iterable.place spans n
    let stmts := body.place spans' value.2
    Hides (hiddenName stmts.2) x value.1 stmts.1 := by
  intro value stmts
  have hiterable :=
    iterable.hygienic (fun t ht => hts (by simp [Stmt.yield, parens, ht])) spans n []
  have hbody := body.hygienic (fun t ht => hts (by simp [Stmt.yield, braces, ht]))
    spans' value.2 [] []
  have hx : .word x ∈ ts := hts (by simp [Stmt.yield, parens])
  refine ⟨dot_mem_hiddenName _, ne_hiddenName (hwords x hx) _,
    fun hused => ?_, fun hused => ?_⟩
  · exact hiterable.hiddenName_notMem hwords hbody.le
      (HandleScript.Expr.used_subset _ _ hused)
  · exact hbody.hiddenName_notMem hwords (Nat.le_refl _)
      (HandleScript.Stmt.usedAll_subset _ _ _ hused)

theorem Stmt.exists_each {stmt : Stmt} (h : stmt.yield.head? = some (.keyword .each)) :
    ∃ x iterable body, stmt = .each x iterable body := by
  cases stmt with
  | each x iterable body => exact ⟨x, iterable, body, rfl⟩
  | expr value =>
      obtain ⟨head, calls⟩ := value
      cases head with
      | literal value => rcases value with _ | _ | (_ | _) | _ | _ <;> cases h
      | name w => cases h
      | call w args => cases h
      | lambda params body => cases h
  | branch | loop | declare | giveBack | leave | skip | block | assign => cases h

end Grammar

/-- What is read for a `for` loop anywhere in a source text is a block with a hidden name
of its own. -/
theorem Parser.statement_hides {source : String} {tokens : List (Located Token)}
    (htokens : tokenize source = .ok tokens) {c c' : Cursor} (hc : c.rest ⊆ tokens)
    (hfirst : c.tokens.head? = some (.keyword .each)) {fuel : Nat} {stmt : Stmt}
    (h : statement fuel c = .ok (stmt, c')) :
    ∃ number start span x iterable body,
      stmt = .block (forBlock (hiddenName number) start x iterable body) span ∧
        Hides (hiddenName number) x.node iterable body := by
  have hwords : ∀ w, .word w ∈ c.tokens → '.' ∉ w.toList := by
    intro w hw
    obtain ⟨t, ht, hword⟩ := List.mem_map.mp hw
    exact tokenize_pointless htokens t (hc ht) w hword
  rw [statement_readsPart.run_tokens] at h
  obtain ⟨tree, stop, hparse, rfl, -⟩ := Source.realize_eq_ok h
  have hfaithful := Grammar.parse_faithful c.tokens (fuel + 0) .statement 0
  rw [hparse] at hfaithful
  obtain ⟨more, hmore⟩ := hfaithful.2
  rw [List.drop_zero] at hmore
  cases tree with
  | none =>
      rw [← hmore] at hfirst
      cases hfirst
  | some tree =>
      have hhead : tree.yield.head? = some (.keyword .each) := by
        rw [← hfirst, ← hmore]
        exact (List.head?_append_of_ne_nil _ tree.yield_ne_nil).symm
      obtain ⟨x, iterable, body, rfl⟩ := Grammar.Stmt.exists_each hhead
      refine ⟨_, _, _, ⟨x, _⟩, _, _, rfl, Grammar.hides_each ?_ hwords _ _ _⟩
      rw [← hmore]
      exact List.subset_append_left _ _

/-! ## The names of sources -/

/-- There is one hidden variable for each `for` loop among the tokens, which is declared
once and read by its loop alone, and no other name in the program has a point in it. -/
structure IteratorsHidden (ts : List Token) (names : List Occurrence) : Prop where
  bound : ∀ k, declarations (hiddenName k) names = if k <
    Grammar.loopCount ts then 1 else 0
  uses : ∀ o ∈ names, ∀ k, o.name = hiddenName k →
    o.role = .declared ∨ o.role = .read ∧ ReadByLoop (hiddenName k) o.trail
  others : ∀ o ∈ names, (∃ k, k < Grammar.loopCount ts ∧ o.name = hiddenName k) ∨
    '.' ∉ o.name.toList ∧ (.word o.name ∈ ts ∨ (o.role, o.name) ∈ madeUpNames)

theorem Hygienic.iteratorsHidden {ts : List Token} {names : List Occurrence}
    (h : Hygienic ts 0 (Grammar.loopCount ts) names)
    (hwords : ∀ w, .word w ∈ ts → '.' ∉ w.toList) : IteratorsHidden ts names := by
  have hpointless : ∀ o : Occurrence, .word o.name ∈ ts ∨
      (o.role, o.name) ∈ madeUpNames → '.' ∉ o.name.toList :=
    fun o ho => ho.elim (hwords o.name) (dot_notMem_madeUp (o.role, o.name))
  refine ⟨fun k => ?_, fun o ho k hk => ?_, fun o ho => ?_⟩
  · have hfree : ∀ k, .word (hiddenName k) ∉ ts :=
      fun k hk => hwords _ hk (dot_mem_hiddenName k)
    simpa using h.once hfree k
  · rcases or_assoc.mpr (h.origin o ho) with hother | ⟨j, -, -, hj, hrole⟩
    · exact absurd hk (ne_hiddenName (hpointless o hother) k)
    · rwa [hiddenName_injective (hk.symm.trans hj)]
  · rcases or_assoc.mpr (h.origin o ho) with hother | ⟨k, -, hk, hname, -⟩
    · exact .inr ⟨hpointless o hother, hother⟩
    · exact .inl ⟨k, hk, hname⟩

/-- The `for` loops of a source text hide their iterators from it. Whether it is read as a
program or as statements, the hidden variables are numbered from zero up to the number of
its loops. Each of them is declared once, and read only by the loop that follows the
declaration, in its condition and in its first statement. No word of the source has a
point in it, so that none is a hidden name. -/
theorem hidden_names_are_hygienic {source : String} {tokens : List (Located Token)}
    (h : tokenize source = .ok tokens) :
    (∀ program, parseProgram source tokens = .ok program →
      IteratorsHidden (tokens.map Located.node) program.occurrences) ∧
    (∀ stmts, parseStatements source tokens = .ok stmts →
      IteratorsHidden (tokens.map Located.node) (Stmt.occurrencesAll [] [] stmts)) ∧
    ∀ w, .word w ∈ tokens.map Located.node → '.' ∉ w.toList ∧ ∀ k, w ≠ hiddenName k := by
  have hwords : ∀ w, .word w ∈ tokens.map Located.node → '.' ∉ w.toList := by
    intro w hw
    obtain ⟨t, ht, hword⟩ := List.mem_map.mp hw
    exact tokenize_pointless h t ht w hword
  refine ⟨fun program hparse => ?_, fun stmts hparse => ?_, fun w hw =>
    ⟨hwords w hw, ne_hiddenName (hwords w hw)⟩⟩
  · obtain ⟨tree, hyield, hplace⟩ := parseProgram_place hparse []
    have hnames := Grammar.Function.hygienic_all tree.functions (List.Subset.refl _)
      (placesOf (tokens ++ [])) 0
    have hyield' : tree.functions.flatMap Grammar.Function.yield =
      tokens.map Located.node := hyield
    rw [Grammar.Function.placeAll_snd, hplace, hyield', Nat.zero_add] at hnames
    exact hnames.iteratorsHidden hwords
  · obtain ⟨tree, hyield, rfl⟩ := parseStatements_place hparse []
    have hnames := tree.hygienic (List.Subset.refl _) (placesOf (tokens ++ [])) 0 [] []
    rw [Grammar.Stmts.place_snd, hyield, Nat.zero_add] at hnames
    exact hnames.iteratorsHidden hwords

/-- A loop in the body of a loop, and one in a function that the outer loop goes
through. -/
theorem hidden_names_are_hygienic_nested :
    let source :=
      "fun f(xs) \x7b for (x in g(fun (y) \x7b for (z in y) \x7b\x7d \x7d)) " ++
      "\x7b for (y in x) \x7b\x7d \x7d \x7d"
    ∃ tokens program, tokenize source = .ok tokens ∧
        parseProgram source tokens = .ok program ∧
      Grammar.loopCount (tokens.map Located.node) = 3 ∧
      IteratorsHidden (tokens.map Located.node) program.occurrences := by
  intro source
  have hread : ((tokenize source).toOption.any fun tokens =>
      Grammar.loopCount (tokens.map Located.node) = 3 &&
        (parseProgram source tokens).toOption.isSome) = true := by
    decide +kernel
  cases htokens : tokenize source with
  | error e =>
      rw [htokens] at hread
      cases hread
  | ok tokens =>
      simp only [htokens, Except.toOption, Option.any_some, Bool.and_eq_true,
        decide_eq_true_eq] at hread
      obtain ⟨hloops, hprogram⟩ := hread
      cases hparse : parseProgram source tokens with
      | error e =>
          rw [hparse] at hprogram
          cases hprogram
      | ok program =>
          exact ⟨tokens, program, rfl, hparse, hloops,
            (hidden_names_are_hygienic htokens).1 program hparse⟩

end HandleScript
