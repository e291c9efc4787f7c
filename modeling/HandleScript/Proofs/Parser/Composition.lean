import HandleScript.Proofs.Lexer.Pieces
import HandleScript.Proofs.Parser.Completeness
import HandleScript.Proofs.Parser.Hidden

/-!
# Sources one after the other

No token that can begin a statement can also go on a statement before it, so two accepted
sequences of statements make up an accepted sequence, unless the first ends with a
`return` that would take its value from the second. What the second one denotes is the
same as alone, but that its loops are numbered after those of the first.
-/

namespace HandleScript

/-! ## Renaming variables -/

mutual

/-- An expression with its variables renamed. -/
def Expr.rename (f : String → String) : Expr → Expr
  | .call receiver method args span =>
    .call (receiver.rename f) method (Expr.renameAll f args) span
  | .name text span => .name (f text) span
  | .literal value span => .literal value span
  | .lambda ⟨name, params, body, span⟩ =>
    .lambda ⟨name, params.map fun p => ⟨f p.node, p.span⟩, Stmt.renameAll f body, span⟩

/-- Expressions with their variables renamed. -/
def Expr.renameAll (f : String → String) : List Expr → List Expr
  | [] => []
  | e :: es => e.rename f :: Expr.renameAll f es

/-- A statement with its variables renamed. -/
def Stmt.rename (f : String → String) : Stmt → Stmt
  | .branch arms span => .branch (arms.rename f) span
  | .loop condition body span => .loop (condition.rename f) (Stmt.renameAll f body) span
  | .declare name init span => .declare ⟨f name.node, name.span⟩ (init.rename f) span
  | .assign name value span => .assign ⟨f name.node, name.span⟩ (value.rename f) span
  | .giveBack none span => .giveBack none span
  | .giveBack (some value) span => .giveBack (some (value.rename f)) span
  | .leave span => .leave span
  | .skip span => .skip span
  | .block body span => .block (Stmt.renameAll f body) span
  | .expr value span => .expr (value.rename f) span

/-- Statements with their variables renamed. -/
def Stmt.renameAll (f : String → String) : List Stmt → List Stmt
  | [] => []
  | stmt :: rest => stmt.rename f :: Stmt.renameAll f rest

/-- The tests and bodies of an `if` statement with their variables renamed. -/
def Arms.rename (f : String → String) : Arms → Arms
  | .done => .done
  | .otherwise body => .otherwise (Stmt.renameAll f body)
  | .test condition body rest =>
    .test (condition.rename f) (Stmt.renameAll f body) (rest.rename f)

end

/-- A function with its variables renamed. -/
def Function.rename (f : String → String) (g : Function) : Function :=
  ⟨g.name, g.params.map fun p => ⟨f p.node, p.span⟩, Stmt.renameAll f g.body, g.span⟩

@[simp] theorem Expr.span_rename (f : String → String) (e : Expr) :
    (e.rename f).span = e.span := by
  cases e with
  | call receiver method args span => rfl
  | name text span => rfl
  | literal value span => rfl
  | lambda g =>
      cases g
      rfl

theorem renameAll_forBlock (f : String → String) (hidden : String) (start : Span)
    (x : Located String) (iterable : Expr) (body : List Stmt) :
    Stmt.renameAll f (Parser.forBlock hidden start x iterable body) =
      Parser.forBlock (f hidden) start ⟨f x.node, x.span⟩ (iterable.rename f)
        (Stmt.renameAll f body) := by
  simp only [Parser.forBlock, Parser.impliedCall, Stmt.renameAll, Stmt.rename,
    Expr.rename, Expr.renameAll, Expr.span_rename]

/-- The number in a hidden name. -/
def hiddenNumber? (name : String) : Option Nat :=
  (Number.readNat? (name.toList.drop 4)).filter fun k => hiddenName k = name

theorem hiddenNumber?_hiddenName (k : Nat) : hiddenNumber? (hiddenName k) = some k := by
  have hdrop : (hiddenName k).toList.drop 4 = Nat.toDigits 10 k := by
    have hdigits : (toString k).toList = Nat.toDigits 10 k := by
      rw [Nat.toString_eq_ofList_toDigits, String.toList_ofList]
    rw [hiddenName, String.toList_append, hdigits]
    rfl
  have hdigits : Lexer.Digits (Nat.toDigits 10 k) := by
    refine ⟨Nat.toDigits_ne_nil, fun c hc => ?_⟩
    have hdigit := Nat.isDigit_of_mem_toDigits (by decide) (by decide) hc
    simpa [Char.isDigit, Number.isDigit, Char.le_def] using hdigit
  have hread := Lexer.readNat?_eq_some_iff.mpr ⟨hdigits, Nat.ofDigitChars_ten_toDigits⟩
  rw [hiddenNumber?, hdrop, hread]
  simp

/-- A hidden name with its number raised by `n`, and any other name as it is. -/
def renumberName (n : Nat) (name : String) : String :=
  match hiddenNumber? name with
  | some k => hiddenName (k + n)
  | none => name

theorem renumberName_hiddenName (n k : Nat) :
    renumberName n (hiddenName k) = hiddenName (k + n) := by
  rw [renumberName, hiddenNumber?_hiddenName]

theorem renumberName_of_ne {n : Nat} {name : String} (h : ∀ k, name ≠ hiddenName k) :
    renumberName n name = name := by
  have hnone : hiddenNumber? name = none := by
    rw [hiddenNumber?, Option.filter_eq_none_iff]
    intro k _ hk
    exact h k (of_decide_eq_true hk).symm
  rw [renumberName, hnone]

theorem ne_hiddenName {name : String} (h : '.' ∉ name.toList) (k : Nat) :
    name ≠ hiddenName k := by
  rintro rfl
  exact h (dot_mem_hiddenName k)

theorem renumberName_dispatcher (n : Nat) :
    renumberName n dispatcherName = dispatcherName :=
  renumberName_of_ne (ne_hiddenName (by decide))

theorem renumberName_words {ts : List Token} (h : ∀ k, .word (hiddenName k) ∉ ts)
    (n : Nat) : ∀ w, .word w ∈ ts → renumberName n w = w := by
  intro w hw
  apply renumberName_of_ne
  rintro k rfl
  exact h k hw

/-- A renaming of variables that raises the number of every hidden name by `n`. -/
structure Renumbers (f : String → String) (n : Nat) : Prop where
  hidden : ∀ k, f (hiddenName k) = hiddenName (k + n)
  dispatcher : f dispatcherName = dispatcherName

theorem renumbers_renumberName (n : Nat) : Renumbers (renumberName n) n :=
  ⟨renumberName_hiddenName n, renumberName_dispatcher n⟩

namespace Grammar

section Renumbering

variable {f : String → String} {n : Nat}

theorem placeWords_renamed (params : List String)
    (hwords : ∀ w, .word w ∈ words params → f w = w) (spans : Places) :
    (placeWords params spans).map (fun p => ⟨f p.node, p.span⟩) =
      placeWords params spans := by
  have hparams : ∀ w ∈ params, f w = w := fun w hw => hwords w (mem_words hw)
  clear hwords
  induction params generalizing spans with
  | nil => rfl
  | cons w ws ih =>
      have hrest := ih (spans.past [.word w, .mark .comma]) fun w hw =>
        hparams w (List.mem_cons_of_mem _ hw)
      rw [placeWords, List.map_cons, hparams w List.mem_cons_self, hrest]

mutual

/-- A tree whose words are not renamed denotes the same when `n` more loops have ended,
but for its hidden names. -/
theorem Expr.place_add (e : Expr) (hf : Renumbers f n)
    (hwords : ∀ w, .word w ∈ e.yield → f w = w) (spans : Places) (m : Nat) :
    e.place spans (m + n) = ((e.place spans m).1.rename f, (e.place spans m).2 + n) := by
  match e, hwords with
  | .chain head calls, hwords =>
      have hhead := head.place_add hf
        (fun w hw => hwords w (by simp [Expr.yield, hw])) spans m
      have hcalls := calls.place_add hf (fun w hw => hwords w (by simp [Expr.yield, hw]))
          (head.place spans m).1
        (spans.past head.yield) (head.place spans m).2
      simp only [Expr.place, hhead, hcalls]
termination_by structural e

theorem Primary.place_add (e : Primary) (hf : Renumbers f n)
    (hwords : ∀ w, .word w ∈ e.yield → f w = w) (spans : Places) (m : Nat) :
    e.place spans (m + n) = ((e.place spans m).1.rename f, (e.place spans m).2 + n) := by
  match e, hwords with
  | .literal value, _ => rfl
  | .name w, hwords =>
      rw [Primary.place, Primary.place, HandleScript.Expr.rename,
        hwords w (by simp [Primary.yield])]
  | .call w args, hwords =>
      have hargs := args.place_add hf
          (fun w hw => hwords w (by simp [Primary.yield, parens, hw]))
        (spans.past [.word w, .mark .openParen]) m
      simp only [Primary.place, hargs, HandleScript.Expr.rename, hf.dispatcher]
  | .lambda params body, hwords =>
      have hparams := placeWords_renamed params
          (fun w hw => hwords w (by simp [Primary.yield, parens, hw]))
        (spans.past [.keyword .function, .mark .openParen])
      have hbody := body.place_add hf
          (fun w hw => hwords w (by simp [Primary.yield, braces, hw]))
        (spans.past (.keyword .function :: (parens (words params) ++ [.mark .openBrace])))
          m
      simp only [Primary.place, hbody, HandleScript.Expr.rename, hparams]
termination_by structural e

theorem Calls.place_add (calls : Calls) (hf : Renumbers f n)
    (hwords : ∀ w, .word w ∈ calls.yield → f w = w) (receiver : HandleScript.Expr)
    (spans : Places) (m : Nat) :
    calls.place (receiver.rename f) spans (m + n) =
      ((calls.place receiver spans m).1.rename f,
        (calls.place receiver spans m).2 + n) := by
  match calls, hwords with
  | .done, _ => rfl
  | .next method args rest, hwords =>
      have hargs := args.place_add hf
          (fun w hw => hwords w (by simp [Calls.yield, parens, hw]))
        (spans.past [.mark .dot, .word method, .mark .openParen]) m
      have hrest := rest.place_add hf (fun w hw => hwords w (by simp [Calls.yield, hw]))
      simp only [Calls.place, hargs, HandleScript.Expr.span_rename, ← hrest,
        HandleScript.Expr.rename]
termination_by structural calls

theorem Args.place_add (args : Args) (hf : Renumbers f n)
    (hwords : ∀ w, .word w ∈ args.yield → f w = w) (spans : Places) (m : Nat) :
    args.place spans (m + n) = (HandleScript.Expr.renameAll f (args.place spans m).1,
      (args.place spans m).2 + n) := by
  match args, hwords with
  | .empty, _ => rfl
  | .list first rest, hwords =>
      have hfirst :=
        first.place_add hf (fun w hw => hwords w (by simp [Args.yield, hw])) spans m
      have hrest := rest.place_add hf (fun w hw => hwords w (by simp [Args.yield, hw]))
          (spans.past first.yield)
        (first.place spans m).2
      simp only [Args.place, hfirst, hrest, HandleScript.Expr.renameAll]
termination_by structural args

theorem MoreArgs.place_add (args : MoreArgs) (hf : Renumbers f n)
    (hwords : ∀ w, .word w ∈ args.yield → f w = w) (spans : Places) (m : Nat) :
    args.place spans (m + n) = (HandleScript.Expr.renameAll f (args.place spans m).1,
      (args.place spans m).2 + n) := by
  match args, hwords with
  | .done, _ => rfl
  | .next arg rest, hwords =>
      have harg := arg.place_add hf (fun w hw => hwords w (by simp [MoreArgs.yield, hw]))
        (spans.past [.mark .comma]) m
      have hrest := rest.place_add hf
          (fun w hw => hwords w (by simp [MoreArgs.yield, hw]))
        (spans.past (.mark .comma :: arg.yield))
          (arg.place (spans.past [.mark .comma]) m).2
      simp only [MoreArgs.place, harg, hrest, HandleScript.Expr.renameAll]
termination_by structural args

theorem Stmt.place_add (stmt : Stmt) (hf : Renumbers f n)
    (hwords : ∀ w, .word w ∈ stmt.yield → f w = w) (spans : Places) (m : Nat) :
    stmt.place spans (m + n) = ((stmt.place spans m).1.rename f,
      (stmt.place spans m).2 + n) := by
  match stmt, hwords with
  | .branch arms, hwords =>
      have harms := arms.place_add hf (fun w hw => hwords w (by simp [Stmt.yield, hw]))
        (spans.past [.keyword .branch]) m
      simp only [Stmt.place, harms, HandleScript.Stmt.rename]
  | .loop condition body, hwords =>
      have htest := condition.place_add hf
          (fun w hw => hwords w (by simp [Stmt.yield, parens, hw]))
        (spans.past [.keyword .loop, .mark .openParen]) m
      have hbody := body.place_add hf
        (fun w hw => hwords w (by simp [Stmt.yield, braces, hw]))
      simp only [Stmt.place, htest, hbody, HandleScript.Stmt.rename]
  | .each x iterable body, hwords =>
      have hiterable := iterable.place_add hf
          (fun w hw => hwords w (by simp [Stmt.yield, parens, hw]))
        (spans.past [.keyword .each, .mark .openParen, .word x, .word "in"]) m
      have hbody := body.place_add hf
        (fun w hw => hwords w (by simp [Stmt.yield, braces, hw]))
      simp only [Stmt.place, hiterable, hbody, HandleScript.Stmt.rename,
        renameAll_forBlock, hf.hidden, hwords x (by simp [Stmt.yield, parens]),
        Nat.add_right_comm]
  | .declare x init, hwords =>
      have hinit := init.place_add hf (fun w hw => hwords w (by simp [Stmt.yield, hw]))
        (spans.past [.keyword .declare, .word x, .mark .equals]) m
      simp only [Stmt.place, hinit, HandleScript.Stmt.rename,
        hwords x (by simp [Stmt.yield])]
  | .giveBack value, hwords =>
      have hvalue := value.place_add hf (fun w hw => hwords w (by simp [Stmt.yield, hw]))
        (spans.past [.keyword .giveBack]) m
      simp only [Stmt.place, hvalue, HandleScript.Stmt.rename]
  | .leave, _ => rfl
  | .skip, _ => rfl
  | .block body, hwords =>
      have hbody := body.place_add hf
          (fun w hw => hwords w (by simp [Stmt.yield, braces, hw]))
        (spans.past [.mark .openBrace]) m
      simp only [Stmt.place, hbody, HandleScript.Stmt.rename]
  | .assign x value, hwords =>
      have hvalue := value.place_add hf (fun w hw => hwords w (by simp [Stmt.yield, hw]))
        (spans.past [.word x, .mark .equals]) m
      simp only [Stmt.place, hvalue, HandleScript.Stmt.rename,
        hwords x (by simp [Stmt.yield])]
  | .expr value, hwords =>
      have hvalue :=
        value.place_add hf (fun w hw => hwords w (by simp [Stmt.yield, hw])) spans m
      simp only [Stmt.place, hvalue, HandleScript.Stmt.rename]
termination_by structural stmt

theorem Arms.place_add (arms : Arms) (hf : Renumbers f n)
    (hwords : ∀ w, .word w ∈ arms.yield → f w = w) (spans : Places) (m : Nat) :
    arms.place spans (m + n) = ((arms.place spans m).1.rename f,
      (arms.place spans m).2 + n) := by
  match arms, hwords with
  | .arm condition body rest, hwords =>
      have htest := condition.place_add hf
          (fun w hw => hwords w (by simp [Arms.yield, parens, hw]))
        (spans.past [.mark .openParen]) m
      have hbody := body.place_add hf
        (fun w hw => hwords w (by simp [Arms.yield, braces, hw]))
      have hrest := rest.place_add hf (fun w hw => hwords w (by simp [Arms.yield, hw]))
      simp only [Arms.place, htest, hbody, hrest, HandleScript.Arms.rename]
termination_by structural arms

theorem MoreArms.place_add (arms : MoreArms) (hf : Renumbers f n)
    (hwords : ∀ w, .word w ∈ arms.yield → f w = w) (spans : Places) (m : Nat) :
    arms.place spans (m + n) = ((arms.place spans m).1.rename f,
      (arms.place spans m).2 + n) := by
  match arms, hwords with
  | .done, _ => rfl
  | .otherwise body, hwords =>
      have hbody := body.place_add hf
          (fun w hw => hwords w (by simp [MoreArms.yield, braces, hw]))
        (spans.past [.keyword .otherwise, .mark .openBrace]) m
      simp only [MoreArms.place, hbody, HandleScript.Arms.rename]
  | .elseIf arms, hwords =>
      exact arms.place_add hf (fun w hw => hwords w (by simp [MoreArms.yield, hw])) _ m
termination_by structural arms

theorem Stmts.place_add (stmts : Stmts) (hf : Renumbers f n)
    (hwords : ∀ w, .word w ∈ stmts.yield → f w = w) (spans : Places) (m : Nat) :
    stmts.place spans (m + n) = (HandleScript.Stmt.renameAll f (stmts.place spans m).1,
      (stmts.place spans m).2 + n) := by
  match stmts, hwords with
  | .done, _ => rfl
  | .giveBack, _ => rfl
  | .cons stmt rest, hwords =>
      have hstmt := stmt.place_add hf
        (fun w hw => hwords w (by simp [Stmts.yield, hw])) spans m
      have hrest := rest.place_add hf (fun w hw => hwords w (by simp [Stmts.yield, hw]))
          (spans.past stmt.yield)
        (stmt.place spans m).2
      simp only [Stmts.place, hstmt, hrest, HandleScript.Stmt.renameAll]
termination_by structural stmts

end

theorem Function.place_add (g : Function) (hf : Renumbers f n)
    (hwords : ∀ w, .word w ∈ g.yield → f w = w) (spans : Places) (m : Nat) :
    g.place spans (m + n) = ((g.place spans m).1.rename f, (g.place spans m).2 + n) := by
  have hparams := placeWords_renamed g.params
      (fun w hw => hwords w (by simp [Function.yield, parens, hw]))
    (spans.past [.keyword .function, .word g.name, .mark .openParen])
  have hbody := g.body.place_add hf
    (fun w hw => hwords w (by simp [Function.yield, braces, hw]))
  simp only [Function.place, hbody, HandleScript.Function.rename, hparams]

theorem Function.placeAll_add (gs : List Function) (hf : Renumbers f n)
    (hwords : ∀ w, .word w ∈ gs.flatMap yield → f w = w) (spans : Places) (m : Nat) :
    placeAll gs spans (m + n) =
      ((placeAll gs spans m).1.map (HandleScript.Function.rename f),
        (placeAll gs spans m).2 + n) := by
  induction gs generalizing spans m with
  | nil => rfl
  | cons g gs ih =>
      have hfirst := g.place_add hf (fun w hw => hwords w (by simp [hw])) spans m
      have hrest := ih (fun w hw =>
          hwords w (by rw [List.flatMap_cons]; exact List.mem_append_right _ hw))
        (spans.past g.yield) (g.place spans m).2
      simp only [placeAll, hfirst, hrest, List.map_cons]

theorem Stmts.place_renumbered {stmts : Stmts}
    (hwords : ∀ k, .word (hiddenName k) ∉ stmts.yield) (spans : Places) (n : Nat) :
    (stmts.place spans n).1 = HandleScript.Stmt.renameAll (renumberName n)
      (stmts.place spans 0).1 := by
  have hadd := stmts.place_add (renumbers_renumberName n)
    (renumberName_words hwords n) spans 0
  rw [Nat.zero_add] at hadd
  rw [hadd]

theorem Function.placeAll_renumbered {gs : List Function}
    (hwords : ∀ k, .word (hiddenName k) ∉ gs.flatMap yield) (spans : Places) (n : Nat) :
    (placeAll gs spans n).1 = (placeAll gs spans 0).1.map
      (HandleScript.Function.rename (renumberName n)) := by
  have hadd := placeAll_add gs (renumbers_renumberName n)
    (renumberName_words hwords n) spans 0
  rw [Nat.zero_add] at hadd
  rw [hadd]

end Renumbering

/-! ## Trees one after the other -/

/-- Two sequences of statements make up one, unless the first one ends with a `return`
without a value. -/
theorem Stmts.exists_append {stmts : Stmts}
    (h : stmts.yield.getLast? ≠ some (.keyword .giveBack)) (others : Stmts) :
    ∃ whole : Stmts, whole.yield = stmts.yield ++ others.yield ∧
      ∀ spans n, (whole.place spans n).1 =
        (stmts.place spans n).1 ++
          (others.place (spans.past stmts.yield) (stmts.place spans n).2).1 := by
  match stmts with
  | .done =>
      refine ⟨others, rfl, fun spans n => ?_⟩
      rw [Stmts.place, Stmts.yield, Places.past_nil, List.nil_append]
  | .giveBack => exact absurd rfl h
  | .cons stmt rest =>
      have hrest : rest.yield.getLast? ≠ some (.keyword .giveBack) := by
        intro hlast
        apply h
        rw [Stmts.yield, List.getLast?_append, hlast, Option.some_or]
      obtain ⟨whole, hyield, hplace⟩ := exists_append hrest others
      refine ⟨.cons stmt whole, by
        rw [Stmts.yield, hyield, Stmts.yield, List.append_assoc], fun spans n => ?_⟩
      simp only [Stmts.place, Stmts.yield, hplace, Places.past_past, List.cons_append]
termination_by structural stmts

theorem Function.placeAll_append (gs hs : List Function) (spans : Places) (n : Nat) :
    (placeAll (gs ++ hs) spans n).1 =
      (placeAll gs spans n).1 ++
        (placeAll hs (spans.past (gs.flatMap yield)) (placeAll gs spans n).2).1 := by
  induction gs generalizing spans n with
  | nil =>
      rw [List.nil_append, placeAll, List.flatMap_nil, Places.past_nil, List.nil_append]
  | cons g gs ih =>
      simp only [List.cons_append, placeAll, ih, List.flatMap_cons, Places.past_past]

end Grammar

/-! ## Sources -/

section Sources

variable {source : String} {tokens : List (Located Token)}

/-- What is read from accepted tokens is what their tree denotes at their places, whatever
follows them. -/
theorem parseStatements_append (source : String) {first second : List (Located Token)}
    {tree tree' : Grammar.Stmts} (hyield : tree.yield = first.map Located.node)
    (hyield' : tree'.yield = second.map Located.node)
    (hlast : (first.map Located.node).getLast? ≠ some (.keyword .giveBack)) :
    parseStatements source (first ++ second) =
      .ok ((tree.place (placesOf (first ++ second)) 0).1 ++
        (tree'.place (placesOf second)
          (Grammar.loopCount (first.map Located.node))).1) := by
  rw [← hyield] at hlast
  obtain ⟨whole, hwhole, hplace⟩ := Grammar.Stmts.exists_append hlast tree'
  have hnodes : whole.yield = (first ++ second).map Located.node := by
    rw [hwhole, hyield, hyield', List.map_append]
  have hparse := parseStatements_locate source (placesOf (first ++ second)) whole
  rw [locate_yield hnodes, hplace, tree.place_snd, Nat.zero_add, hyield,
    placesOf_past] at hparse
  exact hparse

theorem parseProgram_append (source : String) {first second : List (Located Token)}
    {tree tree' : Grammar.Program} (hyield : tree.yield = first.map Located.node)
    (hyield' : tree'.yield = second.map Located.node) :
    parseProgram source (first ++ second) =
      .ok ⟨(Grammar.Function.placeAll tree.functions (placesOf (first ++ second)) 0).1 ++
        (Grammar.Function.placeAll tree'.functions (placesOf second)
          (Grammar.loopCount (first.map Located.node))).1⟩ := by
  have hnodes : Grammar.Program.yield ⟨tree.functions ++ tree'.functions⟩ =
      (first ++ second).map Located.node := by
    rw [List.map_append, ← hyield, ← hyield']
    exact List.flatMap_append
  have hparse := parseProgram_locate source (placesOf (first ++ second))
    ⟨tree.functions ++ tree'.functions⟩
  rw [Grammar.Program.yield] at hyield
  rw [locate_yield hnodes, Grammar.Function.placeAll_append,
    Grammar.Function.placeAll_snd, Nat.zero_add, hyield, placesOf_past] at hparse
  exact hparse

end Sources

/-- Two sequences of tokens that are accepted, one after the other, are accepted. What is
read is what is read from the first one, and then what is read from the second one with
its hidden variables numbered after the loops of the first one and every span as it was. A
sequence of statements that ends with `return` is the exception: the second one would be
its value. The tree of the second one tells its hidden variables from its words. When none
of its words is a hidden name, as in every text that is lexed, the names alone tell them
apart, and to number them anew is to rename them. -/
theorem accepted_tokens_concatenate (source source₁ source₂ : String)
    (first second : List (Located Token)) :
    (∀ stmts stmts', parseStatements source₁ first = .ok stmts →
        parseStatements source₂ second = .ok stmts' →
      (first.map Located.node).getLast? ≠ some (.keyword .giveBack) →
        ∃ renumbered, parseStatements source (first ++ second) =
            .ok (stmts ++ renumbered) ∧
          (∃ tree : Grammar.Stmts, tree.yield = second.map Located.node ∧
            stmts' = (tree.place (placesOf second) 0).1 ∧
            renumbered = (tree.place (placesOf second)
              (Grammar.loopCount (first.map Located.node))).1) ∧
          ((∀ k, .word (hiddenName k) ∉ second.map Located.node) →
            renumbered = Stmt.renameAll
              (renumberName (Grammar.loopCount (first.map Located.node))) stmts')) ∧
    (∀ program program', parseProgram source₁ first = .ok program →
        parseProgram source₂ second = .ok program' →
        ∃ renumbered, parseProgram source (first ++ second) =
            .ok ⟨program.functions ++ renumbered⟩ ∧
          (∃ tree : Grammar.Program, tree.yield = second.map Located.node ∧
            program'.functions =
              (Grammar.Function.placeAll tree.functions (placesOf second) 0).1 ∧
            renumbered = (Grammar.Function.placeAll tree.functions (placesOf second)
              (Grammar.loopCount (first.map Located.node))).1) ∧
          ((∀ k, .word (hiddenName k) ∉ second.map Located.node) →
            renumbered = program'.functions.map
              (Function.rename
                (renumberName (Grammar.loopCount (first.map Located.node)))))) := by
  constructor
  · intro stmts stmts' hfirst hsecond hlast
    obtain ⟨tree, hyield, rfl⟩ := parseStatements_place hfirst second
    obtain ⟨tree', hyield', rfl⟩ := parseStatements_place hsecond []
    rw [List.append_nil]
    refine ⟨_, parseStatements_append source hyield hyield' hlast,
      ⟨tree', hyield', rfl, rfl⟩, fun hwords => ?_⟩
    rw [← hyield'] at hwords
    exact Grammar.Stmts.place_renumbered hwords _ _
  · intro program program' hfirst hsecond
    obtain ⟨tree, hyield, hfunctions⟩ := parseProgram_place hfirst second
    obtain ⟨tree', hyield', hfunctions'⟩ := parseProgram_place hsecond []
    rw [← hfunctions, ← hfunctions', List.append_nil]
    refine ⟨_, parseProgram_append source hyield hyield',
      ⟨tree', hyield', rfl, rfl⟩, fun hwords => ?_⟩
    rw [← hyield'] at hwords
    exact Grammar.Function.placeAll_renumbered hwords _ _

/-- A loop before a loop and a `return`, and a function that loops before another one: the
second loop is numbered one. -/
theorem accepted_tokens_concatenate_loops :
    let spans : Places := fun i => ⟨i, i + 1, 1, 1⟩
    let loop (x xs : String) : List Token :=
      [.keyword .each, .mark .openParen, .word x, .word "in", .word xs,
          .mark .closeParen, .mark .openBrace,
        .mark .closeBrace]
    let function (name : String) (body : List Token) : List Token :=
      [.keyword .function, .word name, .mark .openParen, .mark .closeParen,
          .mark .openBrace] ++ body ++
        [.mark .closeBrace]
    (∃ stmts stmts',
      parseStatements "" (locate spans (loop "x" "xs")) = .ok stmts ∧
      parseStatements "" (locate spans (loop "y" "x" ++ [.keyword .giveBack])) =
        .ok stmts' ∧
      parseStatements "" (locate spans (loop "x" "xs") ++ locate spans
          (loop "y" "x" ++ [.keyword .giveBack])) =
        .ok (stmts ++ Stmt.renameAll (renumberName 1) stmts')) ∧
    (∃ program program',
      parseProgram ""
        (locate spans (function "f" (loop "x" "xs" ++ [.keyword .giveBack]))) =
        .ok program ∧
      parseProgram "" (locate spans (function "g" (loop "y" "ys"))) = .ok program' ∧
      parseProgram ""
          (locate spans (function "f" (loop "x" "xs" ++ [.keyword .giveBack])) ++
          locate spans (function "g" (loop "y" "ys"))) =
        .ok ⟨program.functions ++ program'.functions.map
          (Function.rename (renumberName 1))⟩) := by
  intro spans loop function
  constructor
  · obtain ⟨stmts, hfirst⟩ : ∃ stmts, parseStatements "" (locate spans (loop "x" "xs")) =
      .ok stmts := ⟨_, rfl⟩
    obtain ⟨stmts', hsecond⟩ : ∃ stmts',
        parseStatements "" (locate spans (loop "y" "x" ++ [.keyword .giveBack])) =
          .ok stmts' := ⟨_, rfl⟩
    have hlast : ((locate spans (loop "x" "xs")).map Located.node).getLast? ≠
        some (.keyword .giveBack) := by
      simp [loop]
    have hwords : ∀ k, .word (hiddenName k) ∉
        (locate spans (loop "y" "x" ++ [.keyword .giveBack])).map Located.node := by
      intro k hk
      have hword : hiddenName k = "y" ∨ hiddenName k = "in" ∨
        hiddenName k = "x" := by simpa [loop] using hk
      rcases hword with hword | hword | hword <;>
        exact ne_hiddenName (by decide) k hword.symm
    obtain ⟨renumbered, hboth, -, hrenamed⟩ :=
      (accepted_tokens_concatenate "" "" "" _ _).1 stmts stmts' hfirst hsecond hlast
    rw [hrenamed hwords] at hboth
    exact ⟨stmts, stmts', hfirst, hsecond, hboth⟩
  · obtain ⟨program, hfirst⟩ : ∃ program,
        parseProgram ""
          (locate spans (function "f" (loop "x" "xs" ++ [.keyword .giveBack]))) =
          .ok program := ⟨_, rfl⟩
    obtain ⟨program', hsecond⟩ : ∃ program',
        parseProgram "" (locate spans (function "g" (loop "y" "ys"))) =
          .ok program' := ⟨_, rfl⟩
    have hwords : ∀ k, .word (hiddenName k) ∉
        (locate spans (function "g" (loop "y" "ys"))).map Located.node := by
      intro k hk
      have hword : hiddenName k = "g" ∨ hiddenName k = "y" ∨ hiddenName k = "in" ∨
          hiddenName k = "ys" := by
        simpa [function, loop] using hk
      rcases hword with hword | hword | hword | hword <;>
        exact ne_hiddenName (by decide) k hword.symm
    obtain ⟨renumbered, hboth, -, hrenamed⟩ :=
      (accepted_tokens_concatenate "" "" "" _ _).2 program program' hfirst hsecond
    rw [hrenamed hwords] at hboth
    exact ⟨program, program', hfirst, hsecond, hboth⟩

end HandleScript
