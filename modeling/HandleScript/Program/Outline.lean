import HandleScript.Number.Text
import HandleScript.Program
import HandleScript.Text.Json

/-!
# Programs as JSON documents

The outline of a program names the sort of every node, its parts in order, and the spans.
How a double is written is left to the reader of the outline.
-/

namespace HandleScript.Outline

open JsonValue (record list text)

/-- A natural number in an outline. -/
def natural (n : Nat) : JsonValue :=
  .number (toString n)

/-- A span in an outline. -/
def ofSpan (s : Span) : JsonValue :=
  record [("start", natural s.start), ("end", natural s.stop),
      ("line", natural s.line.toNat),
    ("column", natural s.column.toNat)]

/-- A node with its span. -/
def placed (node : JsonValue) (span : Span) : JsonValue :=
  record [("node", node), ("span", ofSpan span)]

/-- A name with its span. -/
def ofName (name : Located String) : JsonValue :=
  placed (text name.node) name.span

/-- A node that consists of its sort and one part. -/
def tagged (sort : String) (part : JsonValue) : JsonValue :=
  record [(sort, part)]

/-- A literal; `double` writes the doubles. -/
def ofLiteral (double : Float → JsonValue) : Literal → JsonValue
  | .int n => tagged "Int" (.number (toString n.toInt))
  | .double x => tagged "Double" (double x)
  | .bool b => tagged "Bool" (.bool b)
  | .text s => tagged "Str" (text s)
  | .void => text "Void"

/-- A body of statements that are already in the outline. -/
def ofBody (stmts : List JsonValue) : JsonValue :=
  record [("stmts", list stmts)]

mutual

/-- The outline of an expression. -/
def ofExpr (double : Float → JsonValue) : Expr → JsonValue
  | .call receiver method args span =>
    placed (tagged "Call"
        (record [("receiver", ofExpr double receiver), ("method", ofName method),
      ("args", list (ofExprs double args))])) span
  | .name name span => placed (tagged "Var" (text name)) span
  | .literal value span => placed (tagged "Const" (ofLiteral double value)) span
  | .lambda ⟨name, params, body, span⟩ =>
    placed (tagged "Lambda"
        (record [("name", ofName name), ("params", list (params.map ofName)),
      ("body", ofBody (ofStmts double body)), ("span", ofSpan span)])) span

/-- The outlines of expressions. -/
def ofExprs (double : Float → JsonValue) : List Expr → List JsonValue
  | [] => []
  | e :: es => ofExpr double e :: ofExprs double es

/-- The outline of a statement. -/
def ofStmt (double : Float → JsonValue) : Stmt → JsonValue
  | .branch arms span =>
    placed
      (tagged "If" (record [("branches", list (ofTests double arms)),
      ("else_body", ofLast double arms)])) span
  | .loop condition body span =>
    placed (tagged "While"
      (record [("cond", ofExpr double condition),
      ("body", ofBody (ofStmts double body))])) span
  | .declare name init span =>
    placed (tagged "VarDecl"
      (record [("name", ofName name), ("init", ofExpr double init)])) span
  | .assign name value span =>
    placed (tagged "Assign"
      (record [("name", ofName name), ("value", ofExpr double value)])) span
  | .giveBack none span => placed (tagged "Return" .null) span
  | .giveBack (some value) span => placed (tagged "Return" (ofExpr double value)) span
  | .leave span => placed (text "Break") span
  | .skip span => placed (text "Continue") span
  | .block body span => placed (tagged "Block" (ofBody (ofStmts double body))) span
  | .expr value span => placed (tagged "Expr" (ofExpr double value)) span

/-- The outlines of statements. -/
def ofStmts (double : Float → JsonValue) : List Stmt → List JsonValue
  | [] => []
  | s :: ss => ofStmt double s :: ofStmts double ss

/-- The tests of an `if` statement, each with its body. -/
def ofTests (double : Float → JsonValue) : Arms → List JsonValue
  | .done => []
  | .otherwise _ => []
  | .test condition body rest =>
    list [ofExpr double condition, ofBody (ofStmts double body)] :: ofTests double rest

/-- The body that an `if` statement runs when no test holds. -/
def ofLast (double : Float → JsonValue) : Arms → JsonValue
  | .done => .null
  | .otherwise body => ofBody (ofStmts double body)
  | .test _ _ rest => ofLast double rest

end

/-- The outline of a function. -/
def ofFunction (double : Float → JsonValue) (f : Function) : JsonValue :=
  record [("name", ofName f.name), ("params", list (f.params.map ofName)),
    ("body", ofBody (ofStmts double f.body)), ("span", ofSpan f.span)]

/-- The outline of a program. -/
def ofProgram (double : Float → JsonValue) (p : Program) : JsonValue :=
  record [("functions", list (p.functions.map (ofFunction double)))]

/-- A double as a JSON number; JSON has none for the values that are not finite. -/
def doubleNumber (x : Float) : JsonValue :=
  match Number.programListingText? x with
  | some digits => .number digits
  | none => .null

/-- A double as a text that shows it the way literals are shown. -/
def doubleText (x : Float) : JsonValue :=
  match Binary64.ofFloat x with
  | .finite .. => text (Number.literalText x)
  | _ => .null

end HandleScript.Outline
