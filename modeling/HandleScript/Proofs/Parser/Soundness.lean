import HandleScript.Program.OfSource

/-!
# What the parser accepts is derived

A source is accepted if its tokens are those of a tree, and the result is what the
tree denotes at the places of the tokens. Places aside, that is what the tree
denotes.
-/

namespace HandleScript

namespace Grammar

/-! ## Trees without places -/

theorem unplace_placeWords (ws : List String) (spans : Places) :
    ((placeWords ws spans).map fun w => unplaced w.node) = ws.map unplaced := by
  induction ws generalizing spans with
  | nil => rfl
  | cons w ws ih => rw [placeWords, List.map_cons, ih, List.map_cons]

mutual

theorem Expr.unplace_place (e : Expr) (spans : Places) (n : Nat) :
    ((e.place spans n).1.unplace, (e.place spans n).2) = e.denote n := by
  match e with
  | .chain head calls =>
      rw [Expr.denote, ← head.unplace_place spans n]
      exact calls.unplace_place _ _ _
termination_by structural e

theorem Primary.unplace_place (p : Primary) (spans : Places) (n : Nat) :
    ((p.place spans n).1.unplace, (p.place spans n).2) = p.denote n := by
  match p with
  | .literal value => rfl
  | .name w => rfl
  | .call w args =>
      rw [Primary.denote, ← args.unplace_place (spans.past [.word w, .mark .openParen]) n]
      rfl
  | .lambda params body =>
      rw [Primary.denote, ← body.unplace_place
        (spans.past (.keyword .function :: (parens (words params) ++ [.mark .openBrace])))
          n,
        ← unplace_placeWords params (spans.past [.keyword .function, .mark .openParen])]
      rfl
termination_by structural p

theorem Calls.unplace_place (calls : Calls) (receiver : HandleScript.Expr)
    (spans : Places) (n : Nat) :
    ((calls.place receiver spans n).1.unplace, (calls.place receiver spans n).2) =
      calls.denote receiver.unplace n := by
  match calls with
  | .done => rfl
  | .next method args rest =>
      rw [Calls.denote,
        ← args.unplace_place (spans.past [.mark .dot, .word method, .mark .openParen]) n]
      exact rest.unplace_place _ _ _
termination_by structural calls

theorem Args.unplace_place (args : Args) (spans : Places) (n : Nat) :
    (Expr.unplaceAll (args.place spans n).1, (args.place spans n).2) = args.denote n := by
  match args with
  | .empty => rfl
  | .list first rest =>
      rw [Args.denote, ← first.unplace_place spans n]
      simp only
      rw [← rest.unplace_place (spans.past first.yield) _]
      rfl
termination_by structural args

theorem MoreArgs.unplace_place (args : MoreArgs) (spans : Places) (n : Nat) :
    (HandleScript.Expr.unplaceAll (args.place spans n).1, (args.place spans n).2) =
      args.denote n := by
  match args with
  | .done => rfl
  | .next arg rest =>
      rw [MoreArgs.denote, ← arg.unplace_place (spans.past [.mark .comma]) n]
      simp only
      rw [← rest.unplace_place (spans.past (.mark .comma :: arg.yield)) _]
      rfl
termination_by structural args

theorem Stmt.unplace_place (stmt : Stmt) (spans : Places) (n : Nat) :
    ((stmt.place spans n).1.unplace, (stmt.place spans n).2) = stmt.denote n := by
  match stmt with
  | .branch arms =>
      rw [Stmt.denote, ← arms.unplace_place (spans.past [.keyword .branch]) n]
      rfl
  | .loop condition body =>
      rw [Stmt.denote,
        ← condition.unplace_place (spans.past [.keyword .loop, .mark .openParen]) n]
      simp only
      rw [← body.unplace_place
        (spans.past (.keyword .loop :: (parens condition.yield ++ [.mark .openBrace]))) _]
      rfl
  | .each x iterable body =>
      rw [Stmt.denote, ← iterable.unplace_place
        (spans.past [.keyword .each, .mark .openParen, .word x, .word "in"]) n]
      simp only
      rw [← body.unplace_place (spans.past (.keyword .each ::
        (parens (.word x :: .word "in" :: iterable.yield) ++ [.mark .openBrace]))) _]
      rfl
  | .declare x init =>
      rw [Stmt.denote,
        ← init.unplace_place (spans.past [.keyword .declare, .word x, .mark .equals]) n]
      rfl
  | .giveBack value =>
      rw [Stmt.denote, ← value.unplace_place (spans.past [.keyword .giveBack]) n]
      rfl
  | .leave => rfl
  | .skip => rfl
  | .block body =>
      rw [Stmt.denote, ← body.unplace_place (spans.past [.mark .openBrace]) n]
      rfl
  | .assign x value =>
      rw [Stmt.denote, ← value.unplace_place (spans.past [.word x, .mark .equals]) n]
      rfl
  | .expr value =>
      rw [Stmt.denote, ← value.unplace_place spans n]
      rfl
termination_by structural stmt

theorem Arms.unplace_place (arms : Arms) (spans : Places) (n : Nat) :
    ((arms.place spans n).1.unplace, (arms.place spans n).2) = arms.denote n := by
  match arms with
  | .arm condition body rest =>
      rw [Arms.denote, ← condition.unplace_place (spans.past [.mark .openParen]) n]
      simp only
      rw [← body.unplace_place (spans.past (parens condition.yield ++ [.mark .openBrace]))
        _]
      simp only
      rw [← rest.unplace_place (spans.past (parens condition.yield ++ braces body.yield))
        _]
      rfl
termination_by structural arms

theorem MoreArms.unplace_place (arms : MoreArms) (spans : Places) (n : Nat) :
    ((arms.place spans n).1.unplace, (arms.place spans n).2) = arms.denote n := by
  match arms with
  | .done => rfl
  | .otherwise body =>
      rw [MoreArms.denote,
        ← body.unplace_place (spans.past [.keyword .otherwise, .mark .openBrace]) n]
      rfl
  | .elseIf arms => exact arms.unplace_place _ n
termination_by structural arms

theorem Stmts.unplace_place (stmts : Stmts) (spans : Places) (n : Nat) :
    (HandleScript.Stmt.unplaceAll (stmts.place spans n).1, (stmts.place spans n).2) =
      stmts.denote n := by
  match stmts with
  | .done => rfl
  | .giveBack => rfl
  | .cons stmt rest =>
      rw [Stmts.denote, ← stmt.unplace_place spans n]
      simp only
      rw [← rest.unplace_place (spans.past stmt.yield) _]
      rfl
termination_by structural stmts

end

theorem Function.unplace_place (f : Function) (spans : Places) (n : Nat) :
    ((f.place spans n).1.unplace, (f.place spans n).2) = f.denote n := by
  rw [Function.denote, ← f.body.unplace_place
    (spans.past (.keyword .function :: .word f.name ::
      (parens (words f.params) ++ [.mark .openBrace]))) n,
    ← unplace_placeWords f.params
      (spans.past [.keyword .function, .word f.name, .mark .openParen])]
  rfl

theorem Function.unplace_placeAll (fs : List Function) (spans : Places) (n : Nat) :
    ((placeAll fs spans n).1.map HandleScript.Function.unplace, (placeAll fs spans n).2) =
      denoteAll fs n := by
  induction fs generalizing spans n with
  | nil => rfl
  | cons f fs ih =>
      rw [denoteAll, ← f.unplace_place spans n]
      simp only
      rw [← ih (spans.past f.yield)]
      rfl

end Grammar

/-! ## Sources -/

namespace Parser

variable {α : Type} {outcome : Except Stop α} {hsettles : outcome ≠ .error .exhausted}

theorem settle_eq_ok {a : α} : settle outcome hsettles = .ok a ↔ outcome = .ok a := by
  rcases outcome with (_ | -) | _
  · simp [settle]
  · exact absurd rfl hsettles
  · simp [settle]

theorem settle_eq_error {e : Located GrammarError} :
    settle outcome hsettles = .error e ↔ outcome = .error (.refused e) := by
  rcases outcome with (_ | -) | _
  · simp [settle]
  · exact absurd rfl hsettles
  · simp [settle]

theorem map_settle_eq_ok {β : Type} {f : α → β} {b : β} :
    (settle outcome hsettles).map f = .ok b ↔ ∃ a, outcome = .ok a ∧ f a = b := by
  rcases outcome with (_ | -) | _
  · simp [settle, Except.map]
  · exact absurd rfl hsettles
  · simp [settle, Except.map]

theorem map_settle_eq_error {β : Type} {f : α → β} {e : Located GrammarError} :
    (settle outcome hsettles).map f = .error e ↔ outcome = .error (.refused e) := by
  rw [← @settle_eq_error _ _ hsettles]
  cases settle outcome hsettles <;> simp [Except.map]

variable {T : Type} {src : Source} {value : T → α × Nat} {result : Grammar.Parsed T}

theorem Source.realize_eq_ok {a : α} {c : Cursor}
    (h : src.realize value result = .ok (a, c)) :
    ∃ tree stop, result = .read tree stop ∧ (value tree).1 = a ∧
      src.cursor stop (value tree).2 = c := by
  cases result with
  | read tree stop =>
      cases h
      exact ⟨tree, stop, rfl, rfl, rfl⟩
  | refused place cause => cases h
  | exhausted => cases h

theorem Source.map_realize_eq_ok {a : α} :
    (src.realize value result).map Prod.fst = .ok a ↔
      ∃ tree stop, result = .read tree stop ∧ (value tree).1 = a := by
  cases result <;> simp [realize, Except.map]

theorem Source.map_realize_eq_error {e : Located GrammarError} :
    (src.realize value result).map Prod.fst = .error (.refused e) ↔
      ∃ place cause, result = .refused place cause ∧ src.error place cause = e := by
  cases result with
  | read tree stop => simp [realize, Except.map]
  | refused place cause =>
      constructor
      · intro h
        cases h
        exact ⟨place, cause, rfl, rfl⟩
      · rintro ⟨place', cause', h, rfl⟩
        cases h
        rfl
  | exhausted => simp [realize, Except.map]

end Parser

section Sources

variable {source : String} {spans : Places} {ts : List Token}
  {tokens : List (Located Token)}

open Grammar (parseAll)

theorem parseStatements_eq_ok {stmts : List Stmt} :
    parseStatements source (locate spans ts) = .ok stmts ↔
      ∃ tree stop, parseAll ts .statements 0 = .read tree stop ∧
        (tree.place spans 0).1 = stmts := by
  rw [parseStatements, Parser.settle_eq_ok, Parser.readAll_statement,
    Parser.Source.map_realize_eq_ok]

theorem parseStatements_eq_error {e : Located GrammarError} :
    parseStatements source (locate spans ts) = .error e ↔
      ∃ place cause, parseAll ts .statements 0 = .refused place cause ∧
        (Parser.Source.ofText source spans ts).error place cause = e := by
  rw [parseStatements, Parser.settle_eq_error, Parser.readAll_statement,
    Parser.Source.map_realize_eq_error]

theorem parseProgram_eq_ok {program : Program} :
    parseProgram source (locate spans ts) = .ok program ↔
      ∃ fs stop, parseAll ts .functions 0 = .read fs stop ∧
        (Grammar.Function.placeAll fs spans 0).1 = program.functions := by
  rw [parseProgram, Parser.map_settle_eq_ok, Parser.readAll_function]
  constructor
  · rintro ⟨functions, hread, rfl⟩
    exact Parser.Source.map_realize_eq_ok.1 hread
  · intro h
    exact ⟨program.functions, Parser.Source.map_realize_eq_ok.2 h, rfl⟩

theorem parseProgram_eq_error {e : Located GrammarError} :
    parseProgram source (locate spans ts) = .error e ↔
      ∃ place cause, parseAll ts .functions 0 = .refused place cause ∧
        (Parser.Source.ofText source spans ts).error place cause = e := by
  rw [parseProgram, Parser.map_settle_eq_error, Parser.readAll_function,
    Parser.Source.map_realize_eq_error]

/-- Statements that are read come from a tree, at the places of its tokens. More tokens
may come after them. -/
theorem parseStatements_place {stmts : List Stmt}
    (h : parseStatements source tokens = .ok stmts) (more : List (Located Token)) :
    ∃ tree : Grammar.Stmts, tree.yield = tokens.map Located.node ∧
      (tree.place (placesOf (tokens ++ more)) 0).1 = stmts := by
  rw [← locate_placesOf tokens more] at h
  obtain ⟨tree, stop, hread, hplace⟩ := parseStatements_eq_ok.1 h
  exact ⟨tree, Grammar.yield_of_parseAll hread (Grammar.end_of_statements hread), hplace⟩

theorem parseProgram_place {program : Program}
    (h : parseProgram source tokens = .ok program) (more : List (Located Token)) :
    ∃ tree : Grammar.Program, tree.yield = tokens.map Located.node ∧
      (Grammar.Function.placeAll tree.functions (placesOf (tokens ++ more)) 0).1 =
        program.functions := by
  rw [← locate_placesOf tokens more] at h
  obtain ⟨fs, stop, hread, hplace⟩ := parseProgram_eq_ok.1 h
  exact ⟨⟨fs⟩, Grammar.yield_of_parseAll hread (Grammar.end_of_functions hread), hplace⟩

theorem parseStatements_sound {stmts : List Stmt}
    (h : parseStatements source tokens = .ok stmts) :
    ∃ tree : Grammar.Stmts,
      tree.yield = tokens.map Located.node ∧
        (tree.denote 0).1 = Stmt.unplaceAll stmts := by
  obtain ⟨tree, hyield, rfl⟩ := parseStatements_place h []
  exact ⟨tree, hyield, by rw [← tree.unplace_place]⟩

theorem parseProgram_sound {program : Program}
    (h : parseProgram source tokens = .ok program) :
    ∃ tree : Grammar.Program,
      tree.yield = tokens.map Located.node ∧ tree.denote = program.unplace := by
  obtain ⟨tree, hyield, hplace⟩ := parseProgram_place h []
  refine ⟨tree, hyield, ?_⟩
  rw [Grammar.Program.denote, ← Grammar.Function.unplace_placeAll, hplace]
  rfl

end Sources

end HandleScript
