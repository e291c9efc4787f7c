import HandleScript.Proofs.Parser.Script

/-!
# The tokens of a tree are read as that tree

Where what follows cannot extend a tree, its tokens are read as the tree and as
nothing else. So no tokens have two trees.
-/

namespace HandleScript

namespace Grammar

/-- Where the tokens `us` come next and then the tokens `rest`, the script reads
the former, as `tree`. -/
def Script.Gets {T : Type} (s : Script T) (us rest : List Token) (tree : T) : Prop :=
  ∀ ts pos, ts.drop pos = us ++ rest →
    s.run ts (parseAll ts) pos = .read tree (pos + us.length)

section Rules

variable {T : Type} {g : Goal} {ts us vs rest : List Token}
  {pos : Nat} {t : Token} {tree : T}
  {next yes no : Script T}

theorem getElem?_of_drop (h : ts.drop pos = us) : ts[pos]? = us.head? := by
  rw [← h, List.head?_drop]

theorem getElem?_succ_of_drop (h : ts.drop pos = us) : ts[pos + 1]? = us.tail.head? := by
  rw [← h, List.tail_drop, List.head?_drop]

theorem drop_succ_of_drop (h : ts.drop pos = t :: us) : ts.drop (pos + 1) = us := by
  rw [← List.tail_drop, h, List.tail_cons]

theorem gets_done : (Script.done tree).Gets [] rest tree :=
  fun _ _ _ => rfl

theorem gets_token {what : Expected} (h : next.Gets us rest tree) :
    (Script.token t what next).Gets (t :: us) rest tree := by
  intro ts pos hdrop
  have hhead : ts[pos]? = some t := getElem?_of_drop hdrop
  rw [Script.run, if_pos hhead, h ts (pos + 1) (drop_succ_of_drop hdrop),
    List.length_cons, Nat.add_assoc, Nat.add_comm 1]

theorem gets_word {what : Expected} {w : String} {next : String → Script T}
    (h : (next w).Gets us rest tree) :
    (Script.word what next).Gets (.word w :: us) rest tree := by
  intro ts pos hdrop
  have hhead : ts[pos]? = some (.word w) := getElem?_of_drop hdrop
  rw [Script.run, hhead]
  simp only
  rw [h ts (pos + 1) (drop_succ_of_drop hdrop), List.length_cons,
    Nat.add_assoc, Nat.add_comm 1]

theorem gets_nest {part : g.Tree} {next : g.Tree → Script T}
    (hpart : (plan g).Gets us (vs ++ rest) part) (h : (next part).Gets vs rest tree) :
    (Script.nest g next).Gets (us ++ vs) rest tree := by
  intro ts pos hdrop
  rw [List.append_assoc] at hdrop
  have hread := hpart ts pos hdrop
  rw [← parseAll_eq] at hread
  have hrest : ts.drop (pos + us.length) = vs ++ rest := by
    rw [← List.drop_drop, hdrop, List.drop_left]
  rw [Script.run, hread, List.length_append, ← Nat.add_assoc]
  exact h ts _ hrest

/-- A part of speech is all that is left to read. -/
theorem gets_last {part : g.Tree} {next : g.Tree → Script T}
    (hpart : (plan g).Gets us rest part) (h : (next part).Gets [] rest tree) :
    (Script.nest g next).Gets us rest tree := by
  have hread : (Script.nest g next).Gets (us ++ []) rest tree := gets_nest hpart h
  rwa [List.append_nil] at hread

theorem gets_look {next : Nat → Option Token → Option Token → Script T}
    (h : ∀ pos, (next pos (us ++ rest).head? (us ++ rest).tail.head?).Gets us rest tree) :
    (Script.look next).Gets us rest tree := by
  intro ts pos hdrop
  rw [Script.run, getElem?_of_drop hdrop, getElem?_succ_of_drop hdrop]
  exact h pos ts pos hdrop

theorem gets_accept (h : yes.Gets us rest tree) :
    (Script.accept t yes no).Gets (t :: us) rest tree := by
  apply gets_look
  intro pos
  rw [List.cons_append, List.head?_cons, if_pos rfl]
  exact gets_token h

theorem gets_accept_of_ne (hne : (us ++ rest).head? ≠ some t) (h : no.Gets us rest tree) :
    (Script.accept t yes no).Gets us rest tree := by
  apply gets_look
  intro pos
  rw [if_neg hne]
  exact h

end Rules

theorem gets_moreParams (w : String) (ws : List String) (rest : List Token) :
    (plan .moreParams).Gets (words (w :: ws) ++ [.mark .closeParen]) rest (w, ws) := by
  induction ws generalizing w with
  | nil =>
      apply gets_word
      apply gets_accept
      exact gets_done
  | cons v ws ih =>
      apply gets_word
      apply gets_accept_of_ne (by simp [moreWords])
      apply gets_accept
      exact gets_last (ih v) gets_done

theorem gets_params (ws : List String) (rest : List Token) :
    (plan .params).Gets (parens (words ws)) rest ws := by
  apply gets_token
  cases ws with
  | nil =>
      apply gets_accept
      exact gets_done
  | cons w ws =>
      apply gets_accept_of_ne (by simp [words])
      exact gets_last (gets_moreParams w ws rest) gets_done

/-- A `return` without a value is read where a sequence of statements ends. -/
theorem gets_giveBack {rest : List Token} (hrest : Closes rest) :
    (plan .statement).Gets [.keyword .giveBack] rest none := by
  apply gets_look
  intro pos
  apply gets_token
  apply gets_look
  intro pos
  cases hrest <;> exact gets_done

theorem Expr.not_closes_head (e : Expr) (rest : List Token) :
    ¬ closes (e.yield ++ rest).head? = true := by
  have hmark := Bool.eq_false_iff.2
    (mt Parser.any_isMark.1 (e.head?_ne_mark rest .closeBrace))
  obtain ⟨t, ts, hyield, -⟩ := e.yield_cons
  rw [closes, hmark, hyield]
  exact Bool.false_ne_true

theorem gets_body {stmts : Stmts} {rest : List Token}
    (h : ∀ opened, (plan (.bodyRest opened)).Gets
      (stmts.yield ++ [.mark .closeBrace]) rest stmts) :
    (plan .body).Gets (braces stmts.yield) rest stmts := by
  apply gets_look
  intro pos
  apply gets_token
  exact gets_last (h pos) gets_done

theorem gets_condition {e : Expr} {rest : List Token}
    (h : ∀ {rest}, Follow rest → (plan .expr).Gets e.yield rest e) :
    (plan .condition).Gets (parens e.yield) rest e := by
  apply gets_token
  apply gets_nest (h (follow_mark (by decide) _))
  exact gets_token gets_done

theorem gets_eachLoop (x : String) {iterable : Expr} {body : Stmts} {rest : List Token}
    (hiterable : ∀ {rest}, Follow rest → (plan .expr).Gets iterable.yield rest iterable)
    (hbody : ∀ opened,
      (plan (.bodyRest opened)).Gets (body.yield ++ [.mark .closeBrace]) rest body) :
    (plan .eachLoop).Gets
    (parens (.word x :: .word "in" :: iterable.yield) ++ braces body.yield)
      rest (x, iterable, body) := by
  simp only [parens, List.cons_append, List.append_assoc, List.nil_append]
  apply gets_token
  apply gets_word
  apply gets_token
  apply gets_nest (hiterable (follow_mark (by decide) _))
  apply gets_token
  exact gets_last (gets_body hbody) gets_done

theorem gets_functionRest (params : List String) {body : Stmts} {rest : List Token}
    (hbody : ∀ opened,
      (plan (.bodyRest opened)).Gets (body.yield ++ [.mark .closeBrace]) rest body) :
    (plan .functionRest).Gets (parens (words params) ++ braces body.yield) rest
    (params, body) := by
  apply gets_nest (gets_params params _)
  exact gets_last (gets_body hbody) gets_done

mutual

theorem Expr.gets (e : Expr) {rest : List Token} (hrest : Follow rest) :
    (plan .expr).Gets e.yield rest e := by
  match e with
  | .chain head calls =>
      apply gets_nest (head.gets (calls.head?_ne_paren hrest))
      exact gets_last (calls.gets hrest) gets_done
termination_by structural e

theorem Primary.gets (p : Primary) {rest : List Token}
    (hrest : rest.head? ≠ some (.mark .openParen)) :
    (plan .primary).Gets p.yield rest p := by
  match p with
  | .literal value =>
      apply gets_look
      intro pos
      rcases value with _ | _ | (_ | _) | _ | _ <;> exact gets_token gets_done
  | .name w =>
      apply gets_look
      intro pos
      apply gets_token
      apply gets_look
      intro pos
      rw [List.nil_append, if_neg (mt Parser.any_isMark.1 hrest)]
      exact gets_done
  | .call w args =>
      apply gets_look
      intro pos
      apply gets_token
      apply gets_look
      intro pos
      exact gets_last args.gets gets_done
  | .lambda params body =>
      apply gets_look
      intro pos
      apply gets_token
      exact gets_last (gets_functionRest params body.gets) gets_done
termination_by structural p

theorem Calls.gets (calls : Calls) {rest : List Token} (hrest : Follow rest) :
    (plan .calls).Gets calls.yield rest calls := by
  match calls with
  | .done => exact gets_accept_of_ne hrest.dot gets_done
  | .next method args more =>
      apply gets_accept
      apply gets_word
      apply gets_nest args.gets
      exact gets_last (more.gets hrest) gets_done
termination_by structural calls

theorem Args.gets (args : Args) {rest : List Token} :
    (plan .args).Gets (parens args.yield) rest args := by
  match args with
  | .empty =>
      apply gets_token
      apply gets_accept
      exact gets_done
  | .list first more =>
      apply gets_token
      apply gets_accept_of_ne (by
        rw [Args.yield, List.append_assoc, List.append_assoc]
        exact first.head?_ne_mark _ _)
      exact gets_last (more.gets first fun h => first.gets h) gets_done
termination_by structural args

theorem MoreArgs.gets (more : MoreArgs) (first : Expr) {rest : List Token}
    (hfirst : ∀ {rest}, Follow rest → (plan .expr).Gets first.yield rest first) :
    (plan .moreArgs).Gets (first.yield ++ more.yield ++ [.mark .closeParen])
      rest (first, more) := by
  rw [List.append_assoc]
  match more with
  | .done =>
      apply gets_nest (hfirst (follow_mark (by decide) _))
      apply gets_accept
      exact gets_done
  | .next arg more =>
      apply gets_nest (hfirst (follow_mark (by decide) _))
      apply gets_accept_of_ne (by simp [MoreArgs.yield])
      apply gets_accept
      exact gets_last (more.gets arg fun h => arg.gets h) gets_done
termination_by structural more

theorem Stmt.gets (stmt : Stmt) {rest : List Token} (hrest : Follow rest) :
    (plan .statement).Gets stmt.yield rest (some stmt) := by
  apply gets_look
  intro pos
  rw [← List.drop_one, stmt.stmtStart_yield hrest]
  match stmt with
  | .branch arms =>
      apply gets_token
      exact gets_last (arms.gets hrest) gets_done
  | .loop condition body =>
      apply gets_token
      apply gets_nest (gets_condition condition.gets)
      exact gets_last (gets_body body.gets) gets_done
  | .each x iterable body =>
      apply gets_token
      exact gets_last (gets_eachLoop x iterable.gets body.gets) gets_done
  | .declare x init =>
      apply gets_token
      apply gets_word
      apply gets_token
      exact gets_last (init.gets hrest) gets_done
  | .giveBack value =>
      apply gets_token
      apply gets_look
      intro pos
      rw [if_neg (value.not_closes_head rest)]
      exact gets_last (value.gets hrest) gets_done
  | .leave => exact gets_token gets_done
  | .skip => exact gets_token gets_done
  | .block body => exact gets_last (gets_body body.gets) gets_done
  | .assign x value =>
      apply gets_word
      apply gets_token
      exact gets_last (value.gets hrest) gets_done
  | .expr value => exact gets_last (value.gets hrest) gets_done
termination_by structural stmt

theorem Arms.gets (arms : Arms) {rest : List Token} (hrest : Follow rest) :
    (plan .firstArm).Gets arms.yield rest arms := by
  match arms with
  | .arm condition body more =>
      apply gets_nest (gets_condition condition.gets)
      apply gets_nest (gets_body body.gets)
      exact gets_last (more.gets hrest) gets_done
termination_by structural arms

theorem MoreArms.gets (arms : MoreArms) {rest : List Token} (hrest : Follow rest) :
    (plan .moreArms).Gets arms.yield rest arms := by
  match arms with
  | .done => exact gets_accept_of_ne hrest.otherwise gets_done
  | .otherwise body =>
      apply gets_accept
      apply gets_accept_of_ne (by simp [braces])
      exact gets_last (gets_body body.gets) gets_done
  | .elseIf arms =>
      apply gets_accept
      apply gets_accept
      exact gets_last (arms.gets hrest) gets_done
termination_by structural arms

theorem Stmts.gets (stmts : Stmts) {rest : List Token} (opened : Nat) :
    (plan (.bodyRest opened)).Gets (stmts.yield ++ [.mark .closeBrace]) rest stmts := by
  match stmts with
  | .done => exact gets_accept gets_done
  | .giveBack =>
      apply gets_accept_of_ne (by simp [Stmts.yield])
      apply gets_look
      intro pos
      apply gets_nest (gets_giveBack (.brace _))
      exact gets_accept gets_done
  | .cons stmt more =>
      rw [Stmts.yield, List.append_assoc]
      obtain ⟨t, ts, hts, ht⟩ := cons_of_not_closes
        (stmt.not_closes (more.yield ++ [.mark .closeBrace] ++ rest))
      have hhead : (stmt.yield ++ (more.yield ++ [Token.mark .closeBrace]) ++
          rest).head? = some t := by
        rw [List.append_assoc, hts, List.head?_cons]
      apply gets_accept_of_ne (by rw [hhead]; simpa using ht)
      apply gets_look
      intro pos
      rw [hhead]
      apply gets_nest (stmt.gets (by
        rw [List.append_assoc]
        exact more.follow (.brace rest)))
      exact gets_last (more.gets opened) gets_done
termination_by structural stmts

end

/-! ## Whole sources -/

theorem Stmts.gets_all (stmts : Stmts) :
    (plan .statements).Gets stmts.yield [] stmts := by
  match stmts with
  | .done =>
      apply gets_look
      intro pos
      exact gets_done
  | .giveBack =>
      apply gets_look
      intro pos
      apply gets_last (gets_giveBack .ending)
      apply gets_look
      intro pos
      exact gets_done
  | .cons stmt more =>
      obtain ⟨t, ts, hts, -⟩ := cons_of_not_closes (stmt.not_closes (more.yield ++ []))
      apply gets_look
      intro pos
      rw [Stmts.yield, List.append_assoc, hts]
      apply gets_nest (stmt.gets (more.follow .ending))
      exact gets_last more.gets_all gets_done
termination_by structural stmts

theorem Function.gets (f : Function) (rest : List Token) :
    (plan .function).Gets f.yield rest f := by
  apply gets_token
  apply gets_word
  exact gets_last (gets_functionRest f.params f.body.gets) gets_done

theorem gets_functions (fs : List Function) :
    (plan .functions).Gets (fs.flatMap Function.yield) [] fs := by
  induction fs with
  | nil =>
      apply gets_look
      intro pos
      exact gets_done
  | cons f fs ih =>
      apply gets_look
      intro pos
      rw [List.flatMap_cons]
      apply gets_nest (f.gets _)
      exact gets_last ih gets_done

theorem parseAll_of_gets {g : Goal} {us : List Token} {tree : g.Tree}
    (h : (plan g).Gets us [] tree) : parseAll us g 0 = .read tree us.length := by
  have hread := h us 0 (List.append_nil us).symm
  rwa [← parseAll_eq, Nat.zero_add] at hread

theorem parseAll_statements (stmts : Stmts) :
    parseAll stmts.yield .statements 0 = .read stmts stmts.yield.length :=
  parseAll_of_gets stmts.gets_all

theorem parseAll_functions (p : Program) :
    parseAll p.yield .functions 0 = .read p.functions p.yield.length :=
  parseAll_of_gets (gets_functions p.functions)

/-- No tokens are derived by two programs. -/
theorem Program.yield_injective : Function.Injective Program.yield := by
  intro p p' h
  have hread := parseAll_functions p'
  rw [← h, parseAll_functions] at hread
  cases p
  cases p'
  cases hread
  rfl

/-- No tokens are derived by two sequences of statements. -/
theorem Stmts.yield_injective : Function.Injective Stmts.yield := by
  intro stmts stmts' h
  have hread := parseAll_statements stmts'
  rw [← h, parseAll_statements] at hread
  cases hread
  rfl

end Grammar

end HandleScript
