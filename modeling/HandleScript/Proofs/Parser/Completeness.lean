import HandleScript.Proofs.Parser.Exactness
import HandleScript.Proofs.Parser.Soundness

/-!
# The parser accepts what the grammar derives

Whatever the parser accepts as a whole source is derived by a tree of the grammar, and the
tokens of every tree are accepted.
-/

namespace HandleScript

section Sources

variable {tokens : List (Located Token)}

/-- On the tokens of a sequence of statements, the parser returns what the sequence
denotes at their places. -/
theorem parseStatements_locate (source : String) (spans : Places) (tree : Grammar.Stmts) :
    parseStatements source (locate spans tree.yield) = .ok (tree.place spans 0).1 :=
  parseStatements_eq_ok.2 ⟨tree, _, Grammar.parseAll_statements tree, rfl⟩

/-- On the tokens of a program, the parser returns what the program denotes at their
places. -/
theorem parseProgram_locate (source : String) (spans : Places) (tree : Grammar.Program) :
    parseProgram source (locate spans tree.yield) =
      .ok ⟨(Grammar.Function.placeAll tree.functions spans 0).1⟩ :=
  parseProgram_eq_ok.2 ⟨tree.functions, _, Grammar.parseAll_functions tree, rfl⟩

theorem parseStatements_complete (source : String) {tree : Grammar.Stmts}
    (h : tree.yield = tokens.map Located.node) :
    ∃ stmts, parseStatements source tokens = .ok stmts := by
  have hparse := parseStatements_locate source (placesOf tokens) tree
  rw [locate_yield h] at hparse
  exact ⟨_, hparse⟩

theorem parseProgram_complete (source : String) {tree : Grammar.Program}
    (h : tree.yield = tokens.map Located.node) :
    ∃ p, parseProgram source tokens = .ok p := by
  have hparse := parseProgram_locate source (placesOf tokens) tree
  rw [locate_yield h] at hparse
  exact ⟨_, hparse⟩

end Sources

/-- The parser accepts exactly what the grammar derives, as programs and as sequences of
statements. Places aside, it returns what the derivation denotes, and there is only one
derivation. -/
theorem parser_accepts_exactly_grammar (source : String) (tokens : List (Located Token)) :
    (∀ result : Program,
      (∃ program, parseProgram source tokens = .ok program ∧ program.unplace = result) ↔
        ∃ tree : Grammar.Program, tree.yield = tokens.map Located.node ∧
          tree.denote = result) ∧
    Function.Injective Grammar.Program.yield ∧
    (∀ result : List Stmt,
      (∃ stmts, parseStatements source tokens = .ok stmts ∧
          Stmt.unplaceAll stmts = result) ↔
        ∃ tree : Grammar.Stmts, tree.yield = tokens.map Located.node ∧
          (tree.denote 0).1 = result) ∧
    Function.Injective Grammar.Stmts.yield := by
  refine ⟨fun result => ⟨?_, ?_⟩, Grammar.Program.yield_injective, fun result => ⟨?_, ?_⟩,
    Grammar.Stmts.yield_injective⟩
  · rintro ⟨p, hparse, rfl⟩
    exact parseProgram_sound hparse
  · rintro ⟨tree, hyield, rfl⟩
    obtain ⟨p, hparse⟩ := parseProgram_complete source hyield
    obtain ⟨tree', hyield', hdenote⟩ := parseProgram_sound hparse
    have htree : tree' = tree := Grammar.Program.yield_injective
      (hyield'.trans hyield.symm)
    exact ⟨p, hparse, by rw [← hdenote, htree]⟩
  · rintro ⟨stmts, hparse, rfl⟩
    exact parseStatements_sound hparse
  · rintro ⟨tree, hyield, rfl⟩
    obtain ⟨stmts, hparse⟩ := parseStatements_complete source hyield
    obtain ⟨tree', hyield', hdenote⟩ := parseStatements_sound hparse
    have htree : tree' = tree := Grammar.Stmts.yield_injective (hyield'.trans hyield.symm)
    exact ⟨stmts, hparse, by rw [← hdenote, htree]⟩

end HandleScript
