import HandleScript.Proofs.Grammar

/-!
# Scripts for reading trees

What a reader does to the tokens ahead, places and values aside, is a script: it
asks for certain tokens and for words, has other parts of speech read, and looks
at the next two tokens to choose how to go on. The table `plan` has one script
for each part of speech. Following it, at most so many parts deep, reads a tree
from the tokens, or stops at the token that was not expected.

What holds of all parts of speech is proved of scripts, once: the tokens that
have been read are those of the tree, those before an error begin a tree, and a
depth of about four times the number of tokens is enough. A law of the table
(`plan_lawful`) supplies what these facts need to know about each part.
-/

namespace HandleScript

deriving instance DecidableEq for Token

namespace Grammar

/-! ## Parts of speech -/

/-- The parts of speech, as they are read. -/
inductive Goal where
  /-- The parameters and the body of a function. -/
  | functionRest
  | params
  /-- The parameters that are left, at least one, with the closing parenthesis. -/
  | moreParams
  | body
  /-- The statements that are left in the body whose opening brace has the index
  `opened`, with the closing brace. -/
  | bodyRest (opened : Nat)
  | statement
  | condition
  | firstArm
  | moreArms
  /-- A `for` loop after its first word. -/
  | eachLoop
  | expr
  | calls
  | primary
  | args
  /-- The arguments that are left, at least one, with the closing parenthesis. -/
  | moreArgs
  | function
  | statements
  | functions

/-- The trees of a part of speech. A statement that is no tree is a `return`
without a value. -/
@[reducible] def Goal.Tree : Goal → Type
  | functionRest => List String × Stmts
  | params => List String
  | moreParams => String × List String
  | body => Stmts
  | bodyRest _ => Stmts
  | statement => Option Stmt
  | condition => Expr
  | firstArm => Arms
  | moreArms => MoreArms
  | eachLoop => String × Expr × Stmts
  | expr => Expr
  | calls => Calls
  | primary => Primary
  | args => Args
  | moreArgs => Expr × MoreArgs
  | function => Function
  | statements => Stmts
  | functions => List Function

/-- The tokens of a tree. -/
def Goal.yield : (g : Goal) → g.Tree → List Token
  | functionRest, (ws, stmts) => parens (words ws) ++ braces stmts.yield
  | params, ws => parens (words ws)
  | moreParams, (w, ws) => words (w :: ws) ++ [.mark .closeParen]
  | body, stmts => braces stmts.yield
  | bodyRest _, stmts => stmts.yield ++ [.mark .closeBrace]
  | statement, some stmt => stmt.yield
  | statement, none => [.keyword .giveBack]
  | condition, e => parens e.yield
  | firstArm, arms => arms.yield
  | moreArms, arms => arms.yield
  | eachLoop, (x, iterable, stmts) =>
    parens (.word x :: .word "in" :: iterable.yield) ++ braces stmts.yield
  | expr, e => e.yield
  | calls, rest => rest.yield
  | primary, p => p.yield
  | args, list => parens list.yield
  | moreArgs, (first, rest) => first.yield ++ rest.yield ++ [.mark .closeParen]
  | function, f => f.yield
  | statements, stmts => stmts.yield
  | functions, fs => fs.flatMap Function.yield

/-- Some tree of each part of speech. -/
def Goal.sample : (g : Goal) → g.Tree
  | functionRest => ([], .done)
  | params => []
  | moreParams => ("", [])
  | body => .done
  | bodyRest _ => .done
  | statement => none
  | condition => .chain (.name "") .done
  | firstArm => .arm (.chain (.name "") .done) .done .done
  | moreArms => .done
  | eachLoop => ("", .chain (.name "") .done, .done)
  | expr => .chain (.name "") .done
  | calls => .done
  | primary => .name ""
  | args => .empty
  | moreArgs => (.chain (.name "") .done, .done)
  | function => ⟨"", [], .done⟩
  | statements => .done
  | functions => []

/-- How many parts of speech can begin at one token, the part itself included. -/
def Goal.depth : Goal → Nat
  | params | moreParams | body | condition | moreArms | eachLoop | calls | primary | args
  | function => 1
  | functionRest | firstArm | expr | functions => 2
  | statement | moreArgs => 3
  | bodyRest _ | statements => 4

theorem Goal.depth_pos (g : Goal) : 0 < g.depth := by
  cases g <;> simp [Goal.depth]

theorem Goal.depth_le (g : Goal) : g.depth ≤ 4 := by
  cases g <;> simp [Goal.depth]

/-! ## Scripts -/

/-- Why reading stops at a token. -/
inductive Fault where
  | unexpected (what : Expected)
  /-- The tokens end inside the body whose opening brace has the index `opened`. -/
  | unclosed (opened : Nat)

/-- What is done to read a tree of the type `T`. -/
inductive Script (T : Type) where
  | done (tree : T)
  | fault (cause : Fault)
  /-- To read the token `t`. -/
  | token (t : Token) (what : Expected) (next : Script T)
  | word (what : Expected) (next : String → Script T)
  /-- To have a part of speech read. -/
  | nest (g : Goal) (next : g.Tree → Script T)
  /-- To look at the index of the next token, at that token and at the one after it. -/
  | look (next : (pos : Nat) → (first second : Option Token) → Script T)

namespace Script

variable {T : Type}

/-- To read a mark. -/
def mark (m : Mark) (next : Script T) : Script T :=
  token (.mark m) (.mark m) next

/-- To read a keyword. -/
def keyword (k : Keyword) (next : Script T) : Script T :=
  token (.keyword k) (.keyword k) next

/-- To read the token `t`, which is known to come next. -/
def take (t : Token) (next : Script T) : Script T :=
  token t .expression next

/-- To read a token if it comes next, and to go on as it does or does not. -/
def accept (t : Token) (yes no : Script T) : Script T :=
  look fun _ first _ => if first = some t then take t yes else no

/-- To read a literal. -/
def literal (value : Literal) : Script Primary :=
  take value.token (done (.literal value))

end Script

/-- Whether a sequence of statements ends before the token. -/
def closes (next : Option Token) : Bool :=
  next.any (Parser.isMark .closeBrace) || next.isNone

/-- How each part of speech is read. -/
def plan : (g : Goal) → Script g.Tree
  | .functionRest =>
    .nest .params fun params => .nest .body fun body => .done (params, body)
  | .params =>
    .mark .openParen <|
    .accept (.mark .closeParen) (.done []) <|
    .nest .moreParams fun (w, ws) => .done (w :: ws)
  | .moreParams =>
    .word .parameterName fun w =>
    .accept (.mark .closeParen) (.done (w, [])) <|
    .accept (.mark .comma)
      (.nest .moreParams fun (v, ws) => .done (w, v :: ws)) <|
    .fault (.unexpected .parameterSeparator)
  | .body => .look fun pos _ _ => .mark .openBrace <| .nest (.bodyRest pos) .done
  | .bodyRest opened =>
    .accept (.mark .closeBrace) (.done .done) <|
    .look fun _ first _ =>
    if first.isNone then .fault (.unclosed opened) else
    .nest .statement fun
      | some stmt => .nest (.bodyRest opened) fun rest => .done (.cons stmt rest)
      | none =>
        .accept (.mark .closeBrace) (.done .giveBack) <|
        .fault (.unclosed opened)
  | .statement =>
    .look fun _ first second =>
    match Parser.stmtStart first second with
    | .branch =>
      .take (.keyword .branch) <| .nest .firstArm fun arms => .done (some (.branch arms))
    | .loop =>
      .take (.keyword .loop) <| .nest .condition fun condition => .nest .body fun body =>
      .done (some (.loop condition body))
    | .each =>
      .take (.keyword .each) <| .nest .eachLoop fun (x, iterable, body) =>
      .done (some (.each x iterable body))
    | .declare =>
      .take (.keyword .declare) <| .word .variableName fun x => .mark .equals <|
      .nest .expr fun init => .done (some (.declare x init))
    | .giveBack =>
      .take (.keyword .giveBack) <| .look fun _ next _ =>
      if closes next then .done none
      else .nest .expr fun value => .done (some (.giveBack value))
    | .leave => .take (.keyword .leave) <| .done (some .leave)
    | .skip => .take (.keyword .skip) <| .done (some .skip)
    | .block => .nest .body fun body => .done (some (.block body))
    | .assign =>
      .word .variableName fun x => .mark .equals <| .nest .expr fun value =>
      .done (some (.assign x value))
    | .expr => .nest .expr fun value => .done (some (.expr value))
  | .condition =>
    .mark .openParen <| .nest .expr fun value => .mark .closeParen <| .done value
  | .firstArm =>
    .nest .condition fun condition => .nest .body fun body => .nest .moreArms fun rest =>
    .done (.arm condition body rest)
  | .moreArms =>
    .accept (.keyword .otherwise)
      (.accept (.keyword .branch)
        (.nest .firstArm fun arms => .done (.elseIf arms)) <|
        .nest .body fun body => .done (.otherwise body)) <|
    .done .done
  | .eachLoop =>
    .mark .openParen <| .word .loopVariableName fun x => .token (.word "in") .inWord <|
    .nest .expr fun iterable => .mark .closeParen <| .nest .body fun body =>
    .done (x, iterable, body)
  | .expr =>
    .nest .primary fun head => .nest .calls fun calls => .done (.chain head calls)
  | .calls =>
    .accept (.mark .dot)
      (.word .methodName fun method => .nest .args fun args => .nest .calls fun rest =>
        .done (.next method args rest)) <|
    .done .done
  | .primary =>
    .look fun _ first second =>
    match first with
    | some (.int n) => .literal (.int n)
    | some (.double x) => .literal (.double x)
    | some (.text s) => .literal (.text s)
    | some (.keyword .yes) => .literal (.bool true)
    | some (.keyword .no) => .literal (.bool false)
    | some (.keyword .nothing) => .literal .void
    | some (.keyword .function) =>
      if second.any (Parser.isMark .openParen) then
        .take (.keyword .function) <| .nest .functionRest fun (params, body) =>
        .done (.lambda params body)
      else .fault (.unexpected .expression)
    | some (.word w) =>
      .take (.word w) <| .look fun _ next _ =>
      if next.any (Parser.isMark .openParen) then
        .nest .args fun args => .done (.call w args)
      else .done (.name w)
    | _ => .fault (.unexpected .expression)
  | .args =>
    .mark .openParen <|
    .accept (.mark .closeParen) (.done .empty) <|
    .nest .moreArgs fun (first, rest) => .done (.list first rest)
  | .moreArgs =>
    .nest .expr fun first =>
    .accept (.mark .closeParen) (.done (first, .done)) <|
    .accept (.mark .comma)
      (.nest .moreArgs fun (arg, rest) => .done (first, .next arg rest)) <|
    .fault (.unexpected .argumentSeparator)
  | .function =>
    .keyword .function <| .word .functionName fun name =>
    .nest .functionRest fun (params, body) => .done ⟨name, params, body⟩
  | .statements =>
    .look fun _ first _ =>
    if first.isNone then .done .done else
    .nest .statement fun
      | some stmt => .nest .statements fun rest => .done (.cons stmt rest)
      | none =>
        .look fun _ next _ =>
        if next.isNone then .done .giveBack else .fault (.unexpected .expression)
  | .functions =>
    .look fun _ first _ =>
    if first.isNone then .done [] else
    .nest .function fun f => .nest .functions fun fs => .done (f :: fs)

/-! ## Reading -/

/-- What reading comes to. -/
inductive Parsed (T : Type) where
  /-- The tree ends before the token with the index `stop`. -/
  | read (tree : T) (stop : Nat)
  /-- The token with the index `place`, or the end, was not expected. -/
  | refused (place : Nat) (cause : Fault)
  /-- Too many parts of speech are inside of each other. -/
  | exhausted

/-- Follows a script from the token with the index `pos` on. -/
def Script.run {T : Type} (ts : List Token) (nested : (g : Goal) → Nat → Parsed g.Tree) :
    Script T → (pos : Nat) → Parsed T
  | done tree, pos => .read tree pos
  | fault cause, pos => .refused pos cause
  | token t what next, pos =>
    if ts[pos]? = some t then next.run ts nested (pos + 1) else
      .refused pos (.unexpected what)
  | word what next, pos =>
    match ts[pos]? with
    | some (.word w) => (next w).run ts nested (pos + 1)
    | _ => .refused pos (.unexpected what)
  | nest g next, pos =>
    match nested g pos with
    | .read tree stop => (next tree).run ts nested stop
    | .refused place cause => .refused place cause
    | .exhausted => .exhausted
  | look next, pos => (next pos ts[pos]? ts[pos + 1]?).run ts nested pos

/-- Reads a part of speech from the token with the index `pos` on, with at most
`fuel` parts inside of each other. -/
def parse (ts : List Token) : (fuel : Nat) → (g : Goal) → (pos : Nat) → Parsed g.Tree
  | 0, _, _ => .exhausted
  | fuel + 1, g, pos => (plan g).run ts (parse ts fuel) pos

/-! ## The law of the table -/

/-- After the tokens `us` of the part `g` have been read, the script goes on so
that the tree at the end has the tokens that have been read then, a fault comes
after tokens that begin a tree, and a part at the first token is one of less
depth. -/
def Script.Lawful (g : Goal) : (us : List Token) → Script g.Tree → Prop
  | us, done tree => g.yield tree = us
  | us, fault _ => ∃ tree, us <+: g.yield tree
  | us, token t _ next => next.Lawful g (us ++ [t])
  | us, word _ next => ∀ w, (next w).Lawful g (us ++ [.word w])
  | us, nest g' next =>
    (us = [] → g'.depth < g.depth) ∧ ∀ tree, (next tree).Lawful g (us ++ g'.yield tree)
  | us, look next => ∀ pos first second, (next pos first second).Lawful g us

section Law

variable {g : Goal} {us : List Token} {t : Token}

theorem Script.lawful_accept {yes no : Script g.Tree} (hyes : yes.Lawful g (us ++ [t]))
    (hno : no.Lawful g us) : (accept t yes no).Lawful g us := by
  intro pos first second
  simp only
  split
  · exact hyes
  · exact hno

theorem Stmt.yield_ne_nil (stmt : Stmt) : stmt.yield ≠ [] :=
  List.ne_nil_of_length_pos stmt.length_pos

theorem Expr.yield_ne_nil (e : Expr) : e.yield ≠ [] := by
  obtain ⟨t, ts, hyield, -⟩ := e.yield_cons
  rw [hyield]
  exact List.cons_ne_nil t ts

theorem Primary.yield_ne_nil (p : Primary) : p.yield ≠ [] :=
  List.ne_nil_of_length_pos p.length_pos

/-- Once a token has been read, any part of speech may come next. -/
theorem Script.lawful_nest {g' : Goal} {next : g'.Tree → Script g.Tree}
    (h : ∀ tree, (next tree).Lawful g (t :: us ++ g'.yield tree)) :
    (nest g' next).Lawful g (t :: us) :=
  ⟨fun hnil => absurd hnil (List.cons_ne_nil t us), h⟩

theorem plan_lawful (g : Goal) : (plan g).Lawful g [] := by
  cases g with
  | functionRest =>
      exact ⟨fun _ => by decide, fun ws => Script.lawful_nest fun stmts => rfl⟩
  | params => exact Script.lawful_accept rfl (Script.lawful_nest fun rest => rfl)
  | moreParams =>
      intro w
      refine Script.lawful_accept rfl (Script.lawful_accept ?_ ?_)
      · exact Script.lawful_nest fun rest => rfl
      · exact ⟨(w, []), [.mark .closeParen], rfl⟩
  | body => exact fun pos first second => Script.lawful_nest fun stmts => rfl
  | bodyRest opened =>
      refine Script.lawful_accept rfl fun pos first second => ?_
      simp only
      split
      · exact ⟨.done, List.nil_prefix⟩
      · refine ⟨fun _ => by simp [Goal.depth], fun tree => ?_⟩
        cases tree with
        | some stmt =>
            exact ⟨fun h => absurd h stmt.yield_ne_nil, fun rest =>
              List.append_assoc _ _ _⟩
        | none => exact Script.lawful_accept rfl ⟨.giveBack, List.prefix_append _ _⟩
  | statement =>
      intro pos first second
      simp only
      generalize Parser.stmtStart first second = start
      cases start with
      | branch => exact Script.lawful_nest fun arms => rfl
      | loop =>
          exact Script.lawful_nest fun condition => Script.lawful_nest fun body => rfl
      | each => exact Script.lawful_nest fun parts => rfl
      | declare => exact fun x => Script.lawful_nest fun init => rfl
      | giveBack =>
          intro pos next second
          simp only
          split
          · rfl
          · exact Script.lawful_nest fun value => rfl
      | leave => rfl
      | skip => rfl
      | block => exact ⟨fun _ => by decide, fun body => rfl⟩
      | assign => exact fun x => Script.lawful_nest fun value => rfl
      | expr => exact ⟨fun _ => by decide, fun value => rfl⟩
  | condition => exact Script.lawful_nest fun value => rfl
  | firstArm =>
      refine ⟨fun _ => by decide, fun condition => ?_⟩
      refine Script.lawful_nest fun body => Script.lawful_nest fun rest => ?_
      exact (List.append_assoc _ _ _).symm
  | moreArms =>
      refine Script.lawful_accept (Script.lawful_accept ?_ ?_) rfl
      · exact Script.lawful_nest fun arms => rfl
      · exact Script.lawful_nest fun body => rfl
  | eachLoop =>
      exact fun x => Script.lawful_nest fun iterable => Script.lawful_nest fun body => rfl
  | expr =>
      refine ⟨fun _ => by decide, fun head => ?_⟩
      exact ⟨fun h => absurd h head.yield_ne_nil, fun calls => rfl⟩
  | calls =>
      refine Script.lawful_accept (fun method => ?_) rfl
      exact Script.lawful_nest fun args => Script.lawful_nest fun rest => rfl
  | primary =>
      intro pos first second
      simp only
      split
      · rfl
      · rfl
      · rfl
      · rfl
      · rfl
      · rfl
      · split
        · exact Script.lawful_nest fun parts => rfl
        · exact ⟨.name "", List.nil_prefix⟩
      · intro pos next second
        simp only
        split
        · exact Script.lawful_nest fun args => rfl
        · rfl
      · exact ⟨.name "", List.nil_prefix⟩
  | args => exact Script.lawful_accept rfl (Script.lawful_nest fun rest => rfl)
  | moreArgs =>
      refine ⟨fun _ => by decide, fun first => ?_⟩
      refine Script.lawful_accept ?_ (Script.lawful_accept ?_ ?_)
      · simp [Script.Lawful, Goal.yield, MoreArgs.yield]
      · exact ⟨by simp, fun rest => by simp [Script.Lawful, Goal.yield, MoreArgs.yield]⟩
      · exact ⟨(first, .done), by simp [Goal.yield, MoreArgs.yield]⟩
  | function => exact fun name => Script.lawful_nest fun parts => rfl
  | statements =>
      intro pos first second
      simp only
      split
      · rfl
      · refine ⟨fun _ => by decide, fun tree => ?_⟩
        cases tree with
        | some stmt => exact ⟨fun h => absurd h stmt.yield_ne_nil, fun rest => rfl⟩
        | none =>
            intro pos next second
            simp only
            split
            · rfl
            · exact ⟨.giveBack, List.prefix_rfl⟩
  | functions =>
      intro pos first second
      simp only
      split
      · rfl
      · exact ⟨fun _ => by decide, fun f => Script.lawful_nest fun fs => rfl⟩

end Law

/-! ## The tokens that are read -/

section Faithful

variable {g : Goal} {T : Type} {ts us vs : List Token} {t : Token} {pos : Nat}
  {nested : (g : Goal) → Nat → Parsed g.Tree}

/-- The tokens of a tree, and those before an error, are read from the token with
the index `pos` on. Those before an error begin a tree. Nothing else is found out
unless `stuck`. -/
def Parsed.FaithfulUnless (stuck : Prop) (ts : List Token) (g : Goal) (pos : Nat) :
    Parsed g.Tree → Prop
  | read tree stop => stop = pos + (g.yield tree).length ∧ g.yield tree <+: ts.drop pos
  | refused place _ =>
    ∃ us tree, place = pos + us.length ∧ us <+: ts.drop pos ∧ us <+: g.yield tree
  | exhausted => stuck

/-- What is found out is faithful to the tokens from the index `pos` on. -/
abbrev Parsed.Faithful (ts : List Token) (g : Goal) (pos : Nat) : Parsed g.Tree → Prop :=
  FaithfulUnless True ts g pos

/-- Some part inside of `g`, which is read from a later token on or is one of less
depth, exhausts the depth. -/
def Stuck (ts : List Token) (nested : (g : Goal) → Nat → Parsed g.Tree) (g : Goal)
    (pos : Nat) : Prop :=
  ∃ g' us, nested g' (pos + us.length) = .exhausted ∧ us <+: ts.drop pos ∧
    (us = [] → g'.depth < g.depth)

theorem Parsed.FaithfulUnless.mono {stuck stuck' : Prop} {result : Parsed g.Tree}
    (h : result.FaithfulUnless stuck ts g pos) (himp : stuck → stuck') :
    result.FaithfulUnless stuck' ts g pos := by
  cases result with
  | read tree stop => exact h
  | refused place cause => exact h
  | exhausted => exact himp h

theorem append_prefix_drop (hus : us <+: ts.drop pos)
    (hvs : vs <+: ts.drop (pos + us.length)) : us ++ vs <+: ts.drop pos := by
  obtain ⟨rest, hrest⟩ := hus
  rw [← List.drop_drop, ← hrest, List.drop_left] at hvs
  rw [← hrest]
  exact (List.prefix_append_right_inj us).2 hvs

theorem singleton_prefix_drop (h : ts[pos]? = some t) : [t] <+: ts.drop pos := by
  obtain ⟨hlt, hget⟩ := List.getElem?_eq_some_iff.1 h
  rw [List.drop_eq_getElem_cons hlt, hget]
  exact List.prefix_append [t] _

/-- What has been read by a script of the table begins a tree. -/
theorem Script.Lawful.viable {s : Script g.Tree} (h : s.Lawful g us) :
    ∃ tree, us <+: g.yield tree := by
  induction s generalizing us with
  | done tree => exact ⟨tree, h ▸ List.prefix_rfl⟩
  | fault cause => exact h
  | token t what next ih =>
      obtain ⟨tree, htree⟩ := ih h
      exact ⟨tree, (List.prefix_append _ _).trans htree⟩
  | word what next ih =>
      obtain ⟨tree, htree⟩ := ih "" (h "")
      exact ⟨tree, (List.prefix_append _ _).trans htree⟩
  | nest g' next ih =>
      obtain ⟨tree, htree⟩ := ih g'.sample (h.2 g'.sample)
      exact ⟨tree, (List.prefix_append _ _).trans htree⟩
  | look next ih => exact ih 0 none none (h 0 none none)

theorem Script.Lawful.run_faithful (hnested : ∀ g pos, (nested g pos).Faithful ts g pos)
    {s : Script g.Tree} (h : s.Lawful g us) (hus : us <+: ts.drop pos) :
    (s.run ts nested (pos + us.length)).FaithfulUnless
      (Stuck ts nested g pos) ts g pos := by
  induction s generalizing us with
  | done tree =>
      obtain rfl : g.yield tree = us := h
      exact ⟨rfl, hus⟩
  | fault cause =>
      obtain ⟨tree, htree⟩ := h
      exact ⟨us, tree, rfl, hus, htree⟩
  | token t what next ih =>
      rw [run]
      split
      case isTrue ht =>
          have hread := ih h (append_prefix_drop hus (singleton_prefix_drop ht))
          rwa [List.length_append, List.length_singleton, ← Nat.add_assoc] at hread
      case isFalse ht =>
          obtain ⟨tree, htree⟩ := h.viable
          exact ⟨us, tree, rfl, hus, htree⟩
  | word what next ih =>
      rw [run]
      split
      next w hw =>
          have hread := ih w (h w) (append_prefix_drop hus (singleton_prefix_drop hw))
          rwa [List.length_append, List.length_singleton, ← Nat.add_assoc] at hread
      next =>
          obtain ⟨tree, htree⟩ := h.viable
          exact ⟨us, tree, rfl, hus, htree⟩
  | nest g' next ih =>
      have hpart := hnested g' (pos + us.length)
      rw [run]
      cases hrun : nested g' (pos + us.length) with
      | read tree stop =>
          rw [hrun] at hpart
          obtain ⟨rfl, hyield⟩ := hpart
          have hread := ih tree (h.2 tree) (append_prefix_drop hus hyield)
          rwa [List.length_append, ← Nat.add_assoc] at hread
      | refused place cause =>
          rw [hrun] at hpart
          obtain ⟨vs, tree, rfl, hvs, hyield⟩ := hpart
          obtain ⟨whole, hwhole⟩ := (h.2 tree).viable
          refine ⟨us ++ vs, whole, by rw [List.length_append, Nat.add_assoc],
            append_prefix_drop hus hvs, ?_⟩
          exact ((List.prefix_append_right_inj us).2 hyield).trans hwhole
      | exhausted => exact ⟨g', us, hrun, hus, h.1⟩
  | look next ih => exact ih _ _ _ (h _ _ _) hus

theorem plan_faithful (hnested : ∀ g pos, (nested g pos).Faithful ts g pos) (g : Goal)
    (pos : Nat) :
    ((plan g).run ts nested pos).FaithfulUnless (Stuck ts nested g pos) ts g pos :=
  (plan_lawful g).run_faithful hnested List.nil_prefix

/-- Reading is faithful, whatever the depth. -/
theorem parse_faithful (ts : List Token) (fuel : Nat) (g : Goal) (pos : Nat) :
    (parse ts fuel g pos).Faithful ts g pos := by
  induction fuel generalizing g pos with
  | zero => trivial
  | succ fuel ih => exact (plan_faithful ih g pos).mono fun _ => trivial

/-- A tree ends after its tokens, and not after all tokens. -/
theorem stop_of_read {fuel stop : Nat} {tree : g.Tree}
    (h : parse ts fuel g pos = .read tree stop) (hpos : pos ≤ ts.length) :
    stop = pos + (g.yield tree).length ∧ stop ≤ ts.length := by
  have hfaithful := parse_faithful ts fuel g pos
  rw [h] at hfaithful
  obtain ⟨rfl, hyield⟩ := hfaithful
  have hle := hyield.length_le
  rw [List.length_drop] at hle
  exact ⟨rfl, by omega⟩

end Faithful

/-! ## Where trees end -/

section Ends

variable {T : Type} {P : T → Prop} {ts : List Token} {fuel pos stop : Nat}
  {nested : (g : Goal) → Nat → Parsed g.Tree}

theorem Script.read_nest {g : Goal} {next : g.Tree → Script T} {tree : T}
    (h : (nest g next).run ts nested pos = .read tree stop) :
    ∃ part mid, nested g pos = .read part mid ∧
      (next part).run ts nested mid = .read tree stop := by
  rw [run] at h
  split at h
  next part mid hpart => exact ⟨part, mid, hpart, h⟩
  · cases h
  · cases h

/-- All trees that the script can end with have the property. -/
def Script.Ends (P : T → Prop) : Script T → Prop
  | done tree => P tree
  | fault _ => True
  | token _ _ next => next.Ends P
  | word _ next => ∀ w, (next w).Ends P
  | nest _ next => ∀ tree, (next tree).Ends P
  | look next => ∀ pos first second, (next pos first second).Ends P

theorem Script.Ends.of_read {s : Script T} {tree : T} (h : s.Ends P)
    (hrun : s.run ts nested pos = .read tree stop) : P tree := by
  induction s generalizing pos with
  | done tree' =>
      cases hrun
      exact h
  | fault cause => cases hrun
  | token t what next ih =>
      rw [run] at hrun
      split at hrun
      · exact ih h hrun
      · cases hrun
  | word what next ih =>
      rw [run] at hrun
      split at hrun
      next w _ => exact ih w (h w) hrun
      · cases hrun
  | nest g next ih =>
      obtain ⟨part, mid, -, hrest⟩ := read_nest hrun
      exact ih part (h part) hrest
  | look next ih => exact ih _ _ _ (h _ _ _) hrun

/-- A `return` without a value stands where a sequence of statements ends. -/
theorem closes_of_read_none (hread : parse ts fuel .statement pos = .read none stop) :
    closes ts[stop]? := by
  cases fuel with
  | zero => cases hread
  | succ fuel =>
      have hsome {pos : Nat} : ∀ s : Script (Option Stmt), s.Ends (· ≠ none) →
          s.run ts (parse ts fuel) pos = .read none stop → closes ts[stop]? :=
        fun s hends hrun => absurd rfl (hends.of_read hrun)
      rw [parse, plan, Script.run] at hread
      revert hread
      generalize Parser.stmtStart ts[pos]? ts[pos + 1]? = start
      cases start with
      | giveBack =>
          intro hread
          simp only [Script.take, Script.run] at hread
          split at hread
          · by_cases hcloses : closes ts[pos + 1]?
            · rw [if_pos hcloses] at hread
              cases hread
              exact hcloses
            · rw [if_neg hcloses] at hread
              exact hsome (.nest .expr fun value => .done (some (.giveBack value)))
                (fun value => Option.some_ne_none _) hread
          · cases hread
      | branch => exact hsome _ fun arms => Option.some_ne_none _
      | loop => exact hsome _ fun condition body => Option.some_ne_none _
      | each => exact hsome _ fun parts => Option.some_ne_none _
      | declare => exact hsome _ fun x init => Option.some_ne_none _
      | leave => exact hsome _ (Option.some_ne_none _)
      | skip => exact hsome _ (Option.some_ne_none _)
      | block => exact hsome _ fun body => Option.some_ne_none _
      | assign => exact hsome _ fun x value => Option.some_ne_none _
      | expr => exact hsome _ fun value => Option.some_ne_none _

/-- A sequence of statements that is not in a body ends with the tokens. -/
theorem end_of_statements {tree : Stmts}
    (h : parse ts fuel .statements pos = .read tree stop) : ts[stop]? = none := by
  induction fuel generalizing pos tree with
  | zero => cases h
  | succ fuel ih =>
      rw [parse, plan, Script.run] at h
      split at h
      case isTrue hnone =>
          cases h
          exact Option.isNone_iff_eq_none.1 hnone
      case isFalse =>
          obtain ⟨item, mid, -, hrest⟩ := Script.read_nest h
          cases item with
          | some stmt =>
              obtain ⟨rest, last, hmore, hdone⟩ := Script.read_nest hrest
              cases hdone
              exact ih hmore
          | none =>
              simp only [Script.run] at hrest
              split at hrest
              case isTrue hnone =>
                  cases hrest
                  exact Option.isNone_iff_eq_none.1 hnone
              case isFalse => cases hrest

/-- The functions of a source end with the tokens. -/
theorem end_of_functions {fs : List Function}
    (h : parse ts fuel .functions pos = .read fs stop) : ts[stop]? = none := by
  induction fuel generalizing pos fs with
  | zero => cases h
  | succ fuel ih =>
      rw [parse, plan, Script.run] at h
      split at h
      case isTrue hnone =>
          cases h
          exact Option.isNone_iff_eq_none.1 hnone
      case isFalse =>
          obtain ⟨f, mid, -, hrest⟩ := Script.read_nest h
          obtain ⟨rest, last, hmore, hdone⟩ := Script.read_nest hrest
          cases hdone
          exact ih hmore

end Ends

/-! ## Depth -/

section Depth

variable {g : Goal} {T : Type} {ts us : List Token} {pos fuel : Nat}
  {nested nested' : (g : Goal) → Nat → Parsed g.Tree}

/-- A larger depth changes nothing but what was exhausted. -/
theorem Script.run_mono
    (h : ∀ g pos, nested g pos = .exhausted ∨ nested g pos = nested' g pos) (s : Script T)
    (pos : Nat) :
    s.run ts nested pos = .exhausted ∨ s.run ts nested pos = s.run ts nested' pos := by
  induction s generalizing pos with
  | done tree => exact .inr rfl
  | fault cause => exact .inr rfl
  | token t what next ih =>
      simp only [run]
      split
      · exact ih (pos + 1)
      · exact .inr rfl
  | word what next ih =>
      simp only [run]
      split
      next w _ => exact ih w (pos + 1)
      · exact .inr rfl
  | nest g next ih =>
      simp only [run]
      rcases h g pos with hnone | hsame
      · exact .inl (by rw [hnone])
      · rw [← hsame]
        cases nested g pos with
        | read tree stop => exact ih tree stop
        | refused place cause => exact .inr rfl
        | exhausted => exact .inr rfl
  | look next ih => exact ih _ _ _ pos

theorem parse_succ (ts : List Token) (fuel : Nat) (g : Goal) (pos : Nat) :
    parse ts fuel g pos = .exhausted ∨
      parse ts fuel g pos = parse ts (fuel + 1) g pos := by
  induction fuel generalizing g pos with
  | zero => exact .inl rfl
  | succ fuel ih => exact Script.run_mono ih (plan g) pos

theorem parse_mono {fuel' : Nat} (hle : fuel ≤ fuel')
    (h : parse ts fuel g pos ≠ .exhausted) :
    parse ts fuel' g pos = parse ts fuel g pos := by
  induction hle with
  | refl => rfl
  | step hle ih =>
      rcases parse_succ ts _ g pos with hnone | hsame
      · rw [ih] at hnone
        exact absurd hnone h
      · rw [← hsame, ih]

theorem parse_ne_exhausted (h : 4 * (ts.length - pos) + g.depth ≤ fuel) :
    parse ts fuel g pos ≠ .exhausted := by
  induction fuel generalizing g pos with
  | zero =>
      have hpos := g.depth_pos
      omega
  | succ fuel ih =>
      intro hrun
      have hstuck := plan_faithful (parse_faithful ts fuel) g pos
      rw [parse] at hrun
      rw [hrun] at hstuck
      obtain ⟨g', us, hnested, hus, hdepth⟩ := hstuck
      refine ih ?_ hnested
      cases us with
      | nil =>
          have hless := hdepth rfl
          rw [List.length_nil]
          omega
      | cons u us =>
          have hle := hus.length_le
          have hsmall := g'.depth_le
          have hpos := g.depth_pos
          rw [List.length_drop, List.length_cons] at hle
          rw [List.length_cons]
          omega

/-- Reads a part of speech, with all the depth that the tokens can need. -/
def parseAll (ts : List Token) (g : Goal) (pos : Nat) : Parsed g.Tree :=
  parse ts (Parser.budget ts.length) g pos

theorem parseAll_ne_exhausted : parseAll ts g pos ≠ .exhausted := by
  have hdepth := g.depth_le
  exact parse_ne_exhausted (by rw [Parser.budget]; omega)

theorem parse_eq_parseAll (h : Parser.budget ts.length ≤ fuel) :
    parse ts fuel g pos = parseAll ts g pos :=
  parse_mono h parseAll_ne_exhausted

/-- The table as a system of equations. -/
theorem parseAll_eq (ts : List Token) (g : Goal) (pos : Nat) :
    parseAll ts g pos = (plan g).run ts (parseAll ts) pos :=
  (parse_eq_parseAll (Nat.le_succ _)).symm

/-- What is read from the first token to the last one is all of the tokens. -/
theorem yield_of_parseAll {tree : g.Tree} {stop : Nat}
    (h : parseAll ts g 0 = .read tree stop) (hend : ts[stop]? = none) :
    g.yield tree = ts := by
  have hfaithful := parse_faithful ts (Parser.budget ts.length) g 0
  rw [parseAll] at h
  rw [h] at hfaithful
  obtain ⟨rfl, hyield⟩ := hfaithful
  rw [List.drop_zero] at hyield
  rw [Nat.zero_add, List.getElem?_eq_none_iff] at hend
  exact hyield.eq_of_length_le hend

theorem parseAll_faithful (ts : List Token) (g : Goal) (pos : Nat) :
    (parseAll ts g pos).Faithful ts g pos :=
  parse_faithful ts _ g pos

end Depth

end Grammar

end HandleScript
