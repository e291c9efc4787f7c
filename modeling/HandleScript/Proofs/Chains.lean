import HandleScript.Proofs.Acts
import HandleScript.Proofs.Frame

/-!
# Jobs beside themselves

Code that runs in a state beside itself runs alike, and what is known of the two states
afterwards is known of the state itself: which places are new, of which kind the handles
to containers are, and which lengths have stayed. Here this is said of every job along a
chain of jobs that have been started and have not ended, not only of whole runs.
-/

namespace HandleScript

section Beside

variable {α : Type} {ρ : Renaming} {s s' : State} {R : Renaming → α → α → Prop}
  {o : Outcome State Failure α}

theorem Ends.of_done {v : α} (h : Ends ρ s s R o o) (ho : o = .done v s') :
    ∃ ρ', Extends ρ s s ρ' s' s' ∧ Related ρ' s' s' ∧ R ρ' v v := by
  subst ho
  cases h with
  | done hgrown hrelated hv => exact ⟨_, hgrown, hrelated, hv⟩

theorem Ends.of_state? (h : Ends ρ s s R o o) (ho : o.state? = some s') :
    ∃ ρ', Extends ρ s s ρ' s' s' ∧ Related ρ' s' s' := by
  cases o with
  | done v t =>
      cases ho
      obtain ⟨ρ', hgrown, hrelated, -⟩ := h.of_done rfl
      exact ⟨ρ', hgrown, hrelated⟩
  | failed failure t =>
      cases ho
      cases h with
      | failed _ hgrown hrelated => exact ⟨_, hgrown, hrelated⟩
  | crashed | exhausted => cases ho

end Beside

namespace Job

/-- All that the job carries corresponds to itself: the scopes, where the names that its
code uses are clear, and the handles. An operation by which a container grows is done on a
list. -/
def Suits (ρ : Renaming) (s : State) : Job → Prop
  | eval scope e => ρ.Sees scope scope e.used
  | evalAll scope es => ρ.Sees scope scope (Expr.usedAll es)
  | force args => ρ.OnArguments args args
  | dispatch scope receiver _ args =>
      ρ.OnRoots s s scope scope ∧ ρ.OnValues receiver receiver ∧ ρ.OnArguments args args
  | operate op receiver _ args =>
      (op.grows = true → receiver.kind = .list) ∧ ρ.OnValues receiver receiver ∧
        ρ.OnArguments args args
  | callNamed scope _ args => ρ.OnRoots s s scope scope ∧ ρ.OnArguments args args
  | invoke receiver values =>
    ρ.OnValues receiver receiver ∧ List.Forall₂ ρ.OnValues values values
  | callFunction f values outer =>
    ρ.Sees outer outer f.used ∧ List.Forall₂ ρ.OnValues values values
  | execAll scope stmts => ρ.Sees scope scope (Stmt.usedAll stmts)
  | execBody scope body => ρ.Sees scope scope (Stmt.usedAll body)
  | exec scope stmt => ρ.Sees scope scope stmt.used
  | execArms scope arms => ρ.Sees scope scope arms.used
  | execLoop scope test body =>
    ρ.Sees scope scope test.used ∧ ρ.Sees scope scope (Stmt.usedAll body)
  | condition scope test => ρ.Sees scope scope test.used
  | input scope stmts => ρ.Sees scope scope (Stmt.usedAll stmts)

/-- From the state `s` beside itself one gets to the state `t` beside itself, and the job
suits it. -/
def SuitsLater (ρ : Renaming) (s : State) (job : Job) (t : State) : Prop :=
  ∃ ρ', Extends ρ s s ρ' t t ∧ Related ρ' t t ∧ job.Suits ρ' t

variable {host : Host} {fuel : Nat} {ρ : Renaming} {job job' : Job} {s s' t : State}

theorem SuitsLater.now (h : Related ρ s s) (hjob : job.Suits ρ s) :
    SuitsLater ρ s job s :=
  ⟨ρ, .refl ρ s s, h, hjob⟩

/-- What suits after a run that has given a value. -/
theorem SuitsLater.of_done
    {α : Type} {R : Renaming → α → α → Prop} {o : Outcome State Failure α} {v : α}
    (h : Ends ρ s s R o o) (ho : o = .done v s')
    (hjob : ∀ ρ', Extends ρ s s ρ' s' s' → Related ρ' s' s' →
      R ρ' v v → job.Suits ρ' s') :
    SuitsLater ρ s job s' := by
  obtain ⟨ρ', hgrown, hrelated, hv⟩ := h.of_done ho
  exact ⟨ρ', hgrown, hrelated, hjob ρ' hgrown hrelated hv⟩

theorem Starts.suitsLater
    {scope : Nat} {stmts : List Stmt} (h : Starts host fuel scope stmts s job t)
    (hs : Related ρ s s) (hsees : ρ.Sees scope scope (Stmt.usedAll stmts)) :
    SuitsLater ρ s job t := by
  have hruns := Simulates.always host fuel
  induction h generalizing ρ with
  | expr => exact .now hs hsees.left
  | stmt => exact .now hs hsees.left
  | afterExpr before _ ih =>
      obtain ⟨ρ', hgrown, hrelated, -⟩ := (hruns.eval hs hsees.left).of_done before
      obtain ⟨ρ'', hmore, hlater⟩ := ih hrelated (hsees.right.mono hgrown.grows)
      exact ⟨ρ'', hgrown.trans hmore, hlater⟩
  | afterStmt _ before _ ih =>
      obtain ⟨ρ', hgrown, hrelated, -⟩ := (hruns.exec hs hsees.left).of_done before
      obtain ⟨ρ'', hmore, hlater⟩ := ih hrelated (hsees.right.mono hgrown.grows)
      exact ⟨ρ'', hgrown.trans hmore, hlater⟩

/-- Jobs that suit call for jobs that suit. -/
theorem Calls.suitsLater (h : Calls host fuel job s job' s') (hs : Related ρ s s)
    (hjob : job.Suits ρ s) : SuitsLater ρ s job' s' := by
  have hruns := Simulates.always host fuel
  cases h with
  | receiver | first | statement => exact .now hs hjob.left
  | arms | result | block | expr | otherwise | tested => exact .now hs hjob
  | init | value => exact .now hs hjob.tail
  | loop => exact .now hs ⟨hjob.left, hjob.right⟩
  | armTest => exact .now hs hjob.left.left
  | loopTest => exact .now hs hjob.1
  | deferred =>
      cases hjob with
      | deferred hsees => exact .now hs hsees
  | named => exact .now hs ⟨hjob.1, hjob.2.2⟩
  | operation _ _ found =>
      exact .now hs ⟨fun hgrows => Kind.eq_list_of_grows found hgrows, hjob.2⟩
  | invokeArgs | operand | operands => exact .now hs hjob.2.2
  | builtinArgs | functionArgs => exact .now hs hjob.2
  | started hstarts => exact hstarts.suitsLater hs hjob
  | method before =>
      refine .of_done (hruns.eval hs hjob.left) before ?_
      intro ρ' hgrown hrelated hvalue
      have hargs := hjob.right.mono hgrown.grows
      exact ⟨hargs.onRoots hrelated, hvalue, .deferred hargs⟩
  | others before =>
      refine .of_done (hruns.eval hs hjob.left) before ?_
      intro ρ' hgrown _ _
      exact hjob.right.mono hgrown.grows
  | invoke before =>
      refine .of_done (hruns.force hs hjob.2.2) before ?_
      intro ρ' hgrown _ hvalues
      exact ⟨hjob.2.1.mono hgrown.grows, hvalues⟩
  | function _ _ before =>
      refine .of_done (hruns.force hs hjob.2) before ?_
      intro ρ' hgrown _ hvalues
      have hroots := hjob.1.mono hgrown
      exact ⟨⟨hroots.root, fun name _ => hroots.clear name⟩, hvalues⟩
  | lambda =>
      obtain ⟨hreceiver, hvalues⟩ := hjob
      cases hreceiver with
      | lambda hcell =>
          obtain ⟨-, hscope, hused⟩ := hs.closure hcell
          exact .now hs ⟨⟨hscope, hused⟩, hvalues⟩
  | body =>
      refine .of_done (hs.enter hjob.1 hjob.2) rfl ?_
      intro ρ' _ _ hinner
      exact hinner.right
  | statements before =>
      refine .of_done (hruns.exec hs hjob.left) before ?_
      intro ρ' hgrown _ _
      exact hjob.right.mono hgrown.grows
  | opened =>
      refine .of_done (hs.openScope hjob.scope) rfl ?_
      intro ρ' _ _ hinner
      exact ⟨hinner.1, fun name hname => hinner.2 name (hjob.clear name hname)⟩
  | armBody before =>
      refine .of_done (hruns.condition hs hjob.left.left) before ?_
      intro ρ' hgrown _ _
      exact hjob.left.right.mono hgrown.grows
  | armRest before =>
      refine .of_done (hruns.condition hs hjob.left.left) before ?_
      intro ρ' hgrown _ _
      exact hjob.right.mono hgrown.grows
  | loopBody before =>
      refine .of_done (hruns.condition hs hjob.1) before ?_
      intro ρ' hgrown _ _
      exact hjob.2.mono hgrown.grows
  | again holds before =>
      obtain ⟨ρ', hgrown, hrelated, -⟩ := (hruns.condition hs hjob.1).of_done holds
      have htest := hjob.1.mono hgrown.grows
      have hbody := hjob.2.mono hgrown.grows
      obtain ⟨ρ'', hmore, hrelated', -⟩ := (hruns.execBody hrelated hbody).of_done before
      exact ⟨ρ'', hgrown.trans hmore, hrelated',
        htest.mono hmore.grows, hbody.mono hmore.grows⟩

/-- All jobs along a chain suit the states from which they are started. -/
theorem Active.suitsLater
    {entered left : Nat} {last : Job} (h : Active host fuel job s entered left last t)
    (hs : Related ρ s s) (hjob : job.Suits ρ s) : SuitsLater ρ s last t := by
  induction h generalizing ρ with
  | here => exact .now hs hjob
  | inside calls _ ih =>
      obtain ⟨ρ', hgrown, hrelated, hjob'⟩ := calls.suitsLater hs hjob
      obtain ⟨ρ'', hmore, hlast⟩ := ih hrelated hjob'
      exact ⟨ρ'', hgrown.trans hmore, hlast⟩

/-- However a job that suits ends, it leaves a state that is beside itself. -/
theorem Suits.of_state?
    (hjob : job.Suits ρ s) (hs : Related ρ s s)
    (h : (job.run host fuel s).state? = some s') :
    ∃ ρ', Extends ρ s s ρ' s' s' ∧ Related ρ' s' s' := by
  have hruns := Simulates.always host fuel
  cases job with
  | eval => exact (hruns.eval hs hjob).of_state? h
  | evalAll => exact (hruns.evalAll hs hjob).of_state? h
  | force => exact (hruns.force hs hjob).of_state? h
  | dispatch => exact (hruns.dispatch hs hjob.1 hjob.2.1 hjob.2.2).of_state? h
  | operate => exact (hruns.operate hs hjob.2.1 hjob.1 hjob.2.2).of_state? h
  | callNamed => exact (hruns.callNamed hs hjob.1 hjob.2).of_state? h
  | invoke => exact (hruns.invoke hs hjob.1 hjob.2).of_state? h
  | callFunction => exact (hruns.callFunction hs hjob.1 hjob.2).of_state? h
  | execAll => exact (hruns.execAll hs hjob).of_state? h
  | execBody => exact (hruns.execBody hs hjob).of_state? h
  | exec => exact (hruns.exec hs hjob).of_state? h
  | execArms => exact (hruns.execArms hs hjob).of_state? h
  | execLoop => exact (hruns.execLoop hs hjob.1 hjob.2).of_state? h
  | condition => exact (hruns.condition hs hjob).of_state? h
  | input scope stmts =>
      cases fuel with
      | zero => cases h
      | succ fuel => exact (hs.evalStatements host fuel hjob .none).of_state? h

end Job

end HandleScript
