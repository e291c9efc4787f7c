import HandleScript.Proofs.Parser.Script

/-!
# How far the parser looks ahead

The first tokens of two sequences are the same. What is read from one of them is
read from the other, and an error at one of these tokens is an error of the other,
unless a `fun` is the last of them: a `fun` is refused where an expression is
expected if no opening parenthesis follows it.
-/

namespace HandleScript

namespace Grammar

variable {T : Type} {g : Goal} {ts us : List Token} {t : Token} {fuel n pos : Nat}

/-! ## Past a token -/

/-- The result is not before the token with the index `n`. -/
def Parsed.Past (n : Nat) : Parsed T → Prop
  | read _ stop => n ≤ stop
  | refused place _ => n ≤ place
  | exhausted => True

theorem Parsed.Past.mono {m : Nat} {result : Parsed T} (h : result.Past n) (hle : m ≤ n) :
    result.Past m := by
  cases result with
  | read tree stop => exact Nat.le_trans hle h
  | refused place cause => exact Nat.le_trans hle h
  | exhausted => trivial

theorem parse_past (ts : List Token) (fuel : Nat) (g : Goal) (pos : Nat) :
    (parse ts fuel g pos).Past pos := by
  have hfaithful := parse_faithful ts fuel g pos
  cases hrun : parse ts fuel g pos with
  | read tree stop =>
      rw [hrun] at hfaithful
      rw [hfaithful.1]
      exact Nat.le_add_right _ _
  | refused place cause =>
      rw [hrun] at hfaithful
      obtain ⟨us, tree, rfl, -⟩ := hfaithful
      exact Nat.le_add_right _ _
  | exhausted => trivial

/-- A script does not go back. -/
theorem Script.run_past (s : Script T) (pos : Nat) :
    (s.run ts (parse ts fuel) pos).Past pos := by
  induction s generalizing pos with
  | done tree => exact Nat.le_refl pos
  | fault cause => exact Nat.le_refl pos
  | token t what next ih =>
      rw [run]
      split
      · exact (ih (pos + 1)).mono (Nat.le_succ pos)
      · exact Nat.le_refl pos
  | word what next ih =>
      rw [run]
      split
      next w _ => exact (ih w (pos + 1)).mono (Nat.le_succ pos)
      · exact Nat.le_refl pos
  | nest g next ih =>
      have hpart := parse_past ts fuel g pos
      rw [run]
      cases hrun : parse ts fuel g pos with
      | read tree stop =>
          rw [hrun] at hpart
          exact (ih tree stop).mono hpart
      | refused place cause =>
          rw [hrun] at hpart
          exact hpart
      | exhausted => trivial
  | look next ih => exact ih _ _ _ pos

theorem Script.take_past {next : Script T} (h : ts[pos]? = some t) :
    ((take t next).run ts (parse ts fuel) pos).Past (pos + 1) := by
  rw [take, run, if_pos h]
  exact next.run_past (pos + 1)

theorem Script.nest_past {next : g.Tree → Script T} (h : (parse ts fuel g pos).Past n) :
    ((nest g next).run ts (parse ts fuel) pos).Past n := by
  rw [run]
  cases hrun : parse ts fuel g pos with
  | read tree stop =>
      rw [hrun] at h
      exact ((next tree).run_past stop).mono h
  | refused place cause =>
      rw [hrun] at h
      exact h
  | exhausted => trivial

/-- An expression can begin with any word. -/
theorem parse_expr_past {w : String} (h : ts[pos]? = some (.word w)) :
    (parse ts fuel .expr pos).Past (pos + 1) := by
  match fuel with
  | 0 => trivial
  | 1 =>
      rw [parse, plan]
      exact Script.nest_past trivial
  | fuel + 2 =>
      rw [parse, plan]
      apply Script.nest_past
      rw [parse, plan, Script.run, h]
      exact Script.take_past h

/-! ## Steady scripts -/

/-- Where the second token ahead decides how the script goes on, it goes past the
first one, or the first one is a `fun` that is refused because no parenthesis
follows it. -/
def Script.Steady (ts : List Token) (fuel : Nat) : Script T → Prop
  | done _ => True
  | fault _ => True
  | token _ _ next => next.Steady ts fuel
  | word _ next => ∀ w, (next w).Steady ts fuel
  | nest _ next => ∀ tree, (next tree).Steady ts fuel
  | look next => (∀ pos first second, (next pos first second).Steady ts fuel) ∧
    ∀ pos t second, ts[pos]? = some t →
      next pos (some t) second = next pos (some t) ts[pos + 1]? ∨
        ((next pos (some t) ts[pos + 1]?).run ts (parse ts fuel) pos).Past (pos + 1) ∨
        ((∃ cause, next pos (some t) ts[pos + 1]? = fault cause) ∧
            t = .keyword .function ∧
          ts[pos + 1]? ≠ some (.mark .openParen) ∧ second = some (.mark .openParen))

/-- A script that looks only at the first token ahead. -/
theorem Script.steady_look {next : Nat → Option Token → Script T}
    (h : ∀ pos first, (next pos first).Steady ts fuel) :
    (look fun pos first _ => next pos first).Steady ts fuel :=
  ⟨fun pos first _ => h pos first, fun _ _ _ _ => .inl rfl⟩

theorem Script.steady_ite {p : Prop} [Decidable p] {s s' : Script T}
    (h : s.Steady ts fuel) (h' : s'.Steady ts fuel) :
    (if p then s else s').Steady ts fuel := by
  split
  · exact h
  · exact h'

theorem Script.steady_accept {yes no : Script T} (hyes : yes.Steady ts fuel)
    (hno : no.Steady ts fuel) : (accept t yes no).Steady ts fuel :=
  steady_look fun _ _ => steady_ite hyes hno

theorem stmtStart_second (h : ∀ w, t ≠ .word w) (second second' : Option Token) :
    Parser.stmtStart (some t) second = Parser.stmtStart (some t) second' := by
  cases t with
  | keyword k => cases k <;> rfl
  | mark m => cases m <;> rfl
  | int | double | text => rfl
  | word w => exact absurd rfl (h w)

theorem plan_statement_steady : (plan .statement).Steady ts fuel := by
  refine ⟨fun pos first second => ?_, fun pos t second ht => ?_⟩
  · simp only
    generalize Parser.stmtStart first second = start
    cases start with
    | giveBack =>
        exact Script.steady_look fun _ _ => Script.steady_ite trivial fun _ => trivial
    | loop | declare | assign => exact fun _ _ => trivial
    | branch | each | block | expr => exact fun _ => trivial
    | leave | skip => trivial
  · by_cases hword : ∃ w, t = .word w
    · obtain ⟨w, rfl⟩ := hword
      refine .inr (.inl ?_)
      by_cases hequals : ts[pos + 1]?.any (Parser.isMark .equals) = true
      · have hstart : Parser.stmtStart (some (.word w)) ts[pos + 1]? = .assign :=
          if_pos hequals
        simp only [hstart]
        rw [Script.run, ht]
        exact Script.run_past _ (pos + 1)
      · have hstart : Parser.stmtStart (some (.word w)) ts[pos + 1]? = .expr :=
          if_neg hequals
        simp only [hstart]
        exact Script.nest_past (parse_expr_past ht)
    · refine .inl ?_
      simp only [stmtStart_second (fun w hw => hword ⟨w, hw⟩) second ts[pos + 1]?]

theorem plan_primary_steady : (plan .primary).Steady ts fuel := by
  refine ⟨fun pos first second => ?_, fun pos t second ht => ?_⟩
  · simp only
    split
    case h_7 => exact Script.steady_ite (fun _ => trivial) trivial
    case h_8 => exact Script.steady_look fun _ _ =>
      Script.steady_ite (fun _ => trivial) trivial
    all_goals trivial
  · by_cases hfunction : t = .keyword .function
    · subst hfunction
      simp only
      by_cases hparen : ts[pos + 1]?.any (Parser.isMark .openParen) = true
      · refine .inr (.inl ?_)
        rw [if_pos hparen]
        exact Script.take_past ht
      · by_cases hsecond : second.any (Parser.isMark .openParen) = true
        · refine .inr
            (.inr ⟨⟨_, if_neg hparen⟩, trivial, ?_, Parser.any_isMark.1 hsecond⟩)
          exact mt Parser.any_isMark.2 hparen
        · rw [if_neg hparen, if_neg hsecond]
          exact .inl rfl
    · refine .inl ?_
      cases t with
      | keyword k =>
          cases k with
          | function => exact absurd rfl hfunction
          | _ => rfl
      | mark | int | double | text | word => rfl

theorem plan_steady (ts : List Token) (fuel : Nat) (g : Goal) :
    (plan g).Steady ts fuel := by
  cases g with
  | functionRest => exact fun _ _ => trivial
  | params => exact Script.steady_accept trivial fun _ => trivial
  | moreParams =>
      exact fun _ => Script.steady_accept trivial
        (Script.steady_accept (fun _ => trivial) trivial)
  | body => exact Script.steady_look fun _ _ _ => trivial
  | bodyRest opened =>
      refine Script.steady_accept trivial (Script.steady_look fun _ _ => ?_)
      refine Script.steady_ite trivial fun item => ?_
      cases item with
      | some stmt => exact fun _ => trivial
      | none => exact Script.steady_accept trivial trivial
  | statement => exact plan_statement_steady
  | condition => exact fun _ => trivial
  | firstArm => exact fun _ _ _ => trivial
  | moreArms =>
      exact Script.steady_accept
        (Script.steady_accept (fun _ => trivial) fun _ => trivial) trivial
  | eachLoop => exact fun _ _ _ => trivial
  | expr => exact fun _ _ => trivial
  | calls => exact Script.steady_accept (fun _ _ _ => trivial) trivial
  | primary => exact plan_primary_steady
  | args => exact Script.steady_accept trivial fun _ => trivial
  | moreArgs =>
      exact fun _ => Script.steady_accept trivial
        (Script.steady_accept (fun _ => trivial) trivial)
  | function => exact fun _ _ => trivial
  | statements =>
      refine Script.steady_look fun _ _ => Script.steady_ite trivial fun item => ?_
      cases item with
      | some stmt => exact fun _ => trivial
      | none => exact Script.steady_look fun _ _ => Script.steady_ite trivial trivial
  | functions =>
      exact Script.steady_look fun _ _ => Script.steady_ite trivial fun _ _ => trivial

/-! ## Sequences with the same first tokens -/

/-- The index is that of a `fun`, the last token that two sequences share, and an
opening parenthesis follows it in the second one only. -/
structure LoneAt (n : Nat) (ts us : List Token) (place : Nat) : Prop where
  last : place + 1 = n
  function : ts[place]? = some (.keyword .function)
  next : ts[place + 1]? ≠ some (.mark .openParen)
  next' : us[place + 1]? = some (.mark .openParen)

/-- A result at one of the first `n` tokens of a sequence is that of another
sequence with these tokens. -/
def Settled (n : Nat) (ts us : List Token) : (result result' : Parsed T) → Prop
  | .read tree stop, result' => stop < n → result' = .read tree stop
  | .refused place cause, result' =>
    place < n → result' = .refused place cause ∨ LoneAt n ts us place
  | .exhausted, _ => True

theorem settled_of_past {result : Parsed T} (h : result.Past n) (result' : Parsed T) :
    Settled n ts us result result' := by
  cases result with
  | read tree stop => exact fun hlt => absurd hlt (Nat.not_lt.2 h)
  | refused place cause => exact fun hlt => absurd hlt (Nat.not_lt.2 h)
  | exhausted => trivial

theorem settled_refl (result : Parsed T) : Settled n ts us result result := by
  cases result with
  | read tree stop => exact fun _ => rfl
  | refused place cause => exact fun _ => .inl rfl
  | exhausted => trivial

/-- The sequences have the same first `n` tokens. -/
structure Agree (n : Nat) (ts us : List Token) : Prop where
  le : n ≤ ts.length
  same : ∀ i < n, us[i]? = ts[i]?

/-- A script that starts after the common tokens stays there. -/
theorem Script.settled_of_lt {s : Script T} {result' : Parsed T}
    (h : pos < n → Settled n ts us (s.run ts (parse ts fuel) pos) result') :
    Settled n ts us (s.run ts (parse ts fuel) pos) result' := by
  by_cases hpos : pos < n
  · exact h hpos
  · exact settled_of_past ((s.run_past pos).mono (Nat.not_lt.1 hpos)) _

theorem Script.look_settled (hagree : Agree n ts us)
    {next : Nat → Option Token → Option Token → Script T}
    (hsteady : (look next).Steady ts fuel)
    (h : ∀ first second, Settled n ts us
      ((next pos first second).run ts (parse ts fuel) pos)
      ((next pos first second).run us (parse us fuel) pos)) :
    Settled n ts us ((look next).run ts (parse ts fuel) pos)
      ((look next).run us (parse us fuel) pos) := by
  refine settled_of_lt fun hpos => ?_
  have hle := hagree.le
  have hfirst : ts[pos]? = some ts[pos] := List.getElem?_eq_getElem (by omega)
  rw [run, run, hagree.same pos hpos, hfirst]
  rcases hsteady.2 pos _ us[pos + 1]? hfirst with
    hsame | hpast | ⟨⟨cause, hfault⟩, hfunction, hnext, hnext'⟩
  · rw [hsame]
    exact h _ _
  · by_cases hlast : pos + 1 < n
    · rw [hagree.same (pos + 1) hlast]
      exact h _ _
    · exact settled_of_past (hpast.mono (by omega)) _
  · rw [hfault]
    have hlast : ¬ pos + 1 < n := fun hlt =>
      hnext ((hagree.same (pos + 1) hlt).symm.trans hnext')
    exact fun _ => .inr ⟨by omega, hfirst.trans (congrArg some hfunction), hnext, hnext'⟩

theorem Script.run_settled (hagree : Agree n ts us)
    (hnested : ∀ g pos, Settled n ts us (parse ts fuel g pos) (parse us fuel g pos))
    {s : Script T} (hsteady : s.Steady ts fuel) (pos : Nat) :
    Settled n ts us (s.run ts (parse ts fuel) pos) (s.run us (parse us fuel) pos) := by
  induction s generalizing pos with
  | done tree => exact settled_refl _
  | fault cause => exact settled_refl _
  | token t what next ih =>
      refine settled_of_lt fun hpos => ?_
      rw [run, run, hagree.same pos hpos]
      split
      · exact ih hsteady (pos + 1)
      · exact settled_refl _
  | word what next ih =>
      refine settled_of_lt fun hpos => ?_
      rw [run, run, hagree.same pos hpos]
      split
      next w _ => exact ih w (hsteady w) (pos + 1)
      · exact settled_refl _
  | nest g next ih =>
      have hpart := hnested g pos
      rw [run, run]
      cases hrun : parse ts fuel g pos with
      | read tree stop =>
          rw [hrun] at hpart
          refine settled_of_lt fun hstop => ?_
          rw [hpart hstop]
          exact ih tree (hsteady tree) stop
      | refused place cause =>
          rw [hrun] at hpart
          intro hplace
          rcases hpart hplace with hsame | hlone
          · exact .inl (by rw [hsame])
          · exact .inr hlone
      | exhausted => trivial
  | look next ih =>
      exact look_settled hagree hsteady fun _ _ => ih _ _ _ (hsteady.1 _ _ _) pos

theorem parse_settled (hagree : Agree n ts us) (fuel : Nat) (g : Goal) (pos : Nat) :
    Settled n ts us (parse ts fuel g pos) (parse us fuel g pos) := by
  induction fuel generalizing g pos with
  | zero => trivial
  | succ fuel ih => exact Script.run_settled hagree ih (plan_steady ts fuel g) pos

end Grammar

end HandleScript
