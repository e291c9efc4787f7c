import HandleScript.Proofs.Arrays
import HandleScript.Proofs.Loop.Block
import HandleScript.Proofs.Parser.Hygiene

/-!
# `for` loops

A `for` loop stands for a block that keeps an iterator under a hidden name. The block does
what a loop over the indices of the container does: the two run side by side through
states that are alike, where the iterator and the truth values that the block makes have
no counterpart, and the hidden name is not clear in the scope of the block.
-/

namespace HandleScript

/-! ## Steps of the second state alone -/

section Alone

variable {ρ₀ ρ : Renaming} {s₀ t₀ s t t' : State} {place : Loc} {y : Item}

/-- The second state may change where no place of the first one corresponds. -/
theorem Related.write_right
    (h : Related ρ s t) (ht : t.Writes place y t') (hplace : ¬ρ.Range place) :
    Related ρ s t' := by
  refine ⟨h.leftUnique, h.rightUnique, fun {r a b} hab => ?_, h.plain, h.leftLinked,
      ht.linked h.rightLinked,
    ?_, ?_, ?_⟩
  · have hne : (⟨r, b⟩ : Loc) ≠ place := by
      rintro rfl
      exact hplace ⟨a, hab⟩
    rw [ht.item?_of_ne hne]
    exact h.item hab
  · rw [ht.functions, h.functions]
  · rw [ht.console, h.console]
  · rw [ht.depth, h.depth]

/-- A write to a place that is new in the second state does not show from where the runs
started. -/
theorem Extends.write_right
    (h : Extends ρ₀ s₀ t₀ ρ s t) (h₀ : Related ρ₀ s₀ t₀) (ht : t.Writes place y t')
    (hnew : t₀.item? place = none) : Extends ρ₀ s₀ t₀ ρ s t' := by
  refine ⟨h.grows, h.fresh, h.left, ?_, h.covers, ?_, h.lengths, h.sorted⟩
  · have hlast : t.Frame (· = place) t' := .of_writes ht (.inl rfl)
    refine h.right.trans hlast fun loc hloc => ?_
    exact .inr (hloc ▸ hnew)
  · intro a b hab name hname
    have hne : (⟨.scope, b⟩ : Loc) ≠ place := by
      rintro rfl
      exact h₀.not_range hnew ⟨a, hab⟩
    rw [State.bindings_eq (ht.item?_of_ne hne)]
    exact h.guarded hab name hname

/-- A name that is not clear, and never suggested, may be bound in the second state
alone. -/
theorem Related.define_right
    {a b : Nat} {name : String} (h : Related ρ s t) (hab : ρ.rel .scope a b)
    (hmasked : ¬ρ.clear a b name) (hdot : '.' ∈ name.toList) (v : Value) :
    Related ρ s { t with scopes := t.scopes.define b name v } := by
  obtain ⟨sc, sd, hsc, hsd, hscopes⟩ := h.scope hab
  have ht := t.writes_define name v hsd
  refine ⟨h.leftUnique, h.rightUnique, fun {r a' b'} hab' => ?_, h.plain, h.leftLinked,
    ht.linked h.rightLinked, h.functions, h.console, h.depth⟩
  by_cases heq : (⟨r, b'⟩ : Loc) = ⟨.scope, b⟩
  · cases heq
    cases h.rightUnique hab hab'
    refine ⟨.scope sc, _, by simp [hsc], by rw [ht.item?, if_pos rfl], .scope ?_⟩
    refine ⟨hscopes.parent, hscopes.root, hscopes.rootClear, ?_, fun other hother => ?_⟩
    · rw [hscopes.names, Bindings.names_insert]
      split
      · rfl
      · simp [Run.suggestable, hdot]
    · have hne : other ≠ name := by
        rintro rfl
        exact hmasked hother
      rw [Bindings.get?_insert, if_neg hne]
      exact hscopes.values other hother
  · rw [ht.item?_of_ne heq]
    exact h.item hab'

end Alone

/-! ## Both loops side by side -/

/-- A direct loop and a block that does the same, both on their way. -/
structure LoopPair where
  /-- How the states were alike where the loops were reached. -/
  ρ : Renaming
  left : State
  right : State
  alike : Related ρ left right
  /-- The block's name for its iterator. -/
  hidden : String
  /-- The scopes of the direct loop and of the block. -/
  scope : Nat
  scope' : Nat
  /-- The container, in the direct loop's states and in the block's. -/
  cell : Nat
  cell' : Nat
  /-- The cell of the block's iterator. -/
  cursor : Nat

/-- Both loops are about to look at the index `k`, and the states are alike under `ρ`. The
block's cursor has no counterpart, and the name for it is not clear. -/
structure AtHead (p : LoopPair) (k : Nat) (ρ : Renaming) (s t : State) : Prop where
  grown : Extends p.ρ p.left p.right ρ s t
  related : Related ρ s t
  scopes : ρ.rel .scope p.scope p.scope'
  clear : ∀ name, ρ.clear p.scope p.scope' name ↔ name ≠ p.hidden
  items : ρ.rel .items p.cell p.cell'
  bound : (t.scopes.bindings p.scope').get? p.hidden = some (.iterator p.cursor)
  position : t.item? ⟨.cursor, p.cursor⟩ = some (.cursor ⟨p.cell', k⟩)
  apart : ¬ρ.Range ⟨.cursor, p.cursor⟩
  new : p.right.item? ⟨.cursor, p.cursor⟩ = none

namespace AtHead

variable {p : LoopPair} {k : Nat} {ρ ρ' : Renaming} {s t s' t' : State}

theorem get_cursor (h : AtHead p k ρ s t) : t.store.cursors.get p.cursor = ⟨p.cell', k⟩ :=
  Pool.get_of_map_eq_some Item.cursor.inj h.position

theorem lt_cursors (h : AtHead p k ρ s t) : p.cursor < t.store.cursors.size := by
  have hsome : (t.item? ⟨.cursor, p.cursor⟩).isSome := by
    rw [h.position]
    rfl
  simpa [State.item?, Store.item?, Pool.size] using hsome

/-- What code that both loops run does keeps both at the same index. -/
theorem later
    (h : AtHead p k ρ s t) (hgrown : Extends ρ s t ρ' s' t')
    (hrelated : Related ρ' s' t') : AtHead p k ρ' s' t' where
  grown := h.grown.trans hgrown
  related := hrelated
  scopes := hgrown.grows.rel h.scopes
  clear name := (hgrown.grows.clear h.scopes name).trans (h.clear name)
  items := hgrown.grows.rel h.items
  bound := by
    rw [hgrown.guarded h.scopes p.hidden fun hclear => (h.clear p.hidden).mp hclear rfl]
    exact h.bound
  position := by
    rw [hgrown.right.unchanged _ (Option.isSome_iff_exists.mpr ⟨_, h.position⟩) h.apart]
    exact h.position
  apart := by
    rintro ⟨a, ha⟩
    rcases hgrown.fresh ha with hold | ⟨-, hnone⟩
    · exact h.apart ⟨a, hold⟩
    · rw [h.position] at hnone
      cases hnone
  new := h.new

/-- The truth value that the block makes is out of sight. -/
theorem tested (h : AtHead p k ρ s t) (holds : Bool) :
    AtHead p k ρ s (t.tested holds) := by
  have hwrites := t.writes_alloc (.bool holds)
  have hnone : t.item? (t.store.next .bool) = none := t.store.item?_next .bool
  exact
    { h with
      grown := h.grown.write_right p.alike hwrites (h.grown.right.none_of_none hnone)
      related := h.related.write_right hwrites (h.related.not_range hnone)
      bound := h.bound
      position := h.position }

/-- The block's cursor moves on. -/
theorem advanced (h : AtHead p k ρ s t) : AtHead p (k + 1) ρ s (t.advanced p.cursor) := by
  have hwrites := t.writes_modifyCursors (fun c => { c with next := c.next + 1 })
    h.lt_cursors
  rw [h.get_cursor] at hwrites
  exact
    { h with
      grown := h.grown.write_right p.alike hwrites h.new
      related := h.related.write_right hwrites h.apart
      bound := h.bound
      position := (hwrites.item? _).trans (if_pos rfl) }

/-- Both loops see the same length. -/
theorem hasNext_eq (h : AtHead p k ρ s t) :
    t.store.hasNext (t.store.cursors.get p.cursor) =
      decide (k < (s.store.elements p.cell).size) := by
  have hsize := (h.related.elements h.items).length_eq
  rw [h.get_cursor, Store.hasNext]
  simp only [Array.length_toList] at hsize
  rw [hsize]

/-- Both loops start a round alike. -/
theorem round (h : AtHead p k ρ s t) {x : String} (hx : x ≠ p.hidden) :
    ∃ ρ', AtHead p (k + 1) ρ' (s.enterRound p.scope x p.cell k)
        (t.enterNext p.scope' x p.cursor) ∧
      ρ'.rel .scope s.scopes.size t.scopes.size ∧
      ∀ name, name ≠ p.hidden → ρ'.clear s.scopes.size t.scopes.size name := by
  have hvalues := Related.elementAt_rel (h.related.elements h.items) k
  rw [State.enterNext, h.get_cursor]
  cases h.related.openScope h.scopes with
  | done hopened hrelated₁ hinner =>
      have h₁ := (h.later hopened hrelated₁).advanced
      have hclear := hinner.2 x ((h.clear x).mpr hx)
      cases h₁.related.define hinner.1 x hclear (hvalues.mono hopened.grows) with
      | done hbound hrelated₂ _ =>
          refine ⟨_, h₁.later hbound hrelated₂, hbound.grows.rel hinner.1,
            fun name hname => ?_⟩
          exact (hbound.grows.clear hinner.1 name).mpr
            (hinner.2 name ((h.clear name).mpr hname))

end AtHead

/-- As `Ends.bind`, for states that have come a way from where the runs started. -/
theorem Ends.bind_later
    {α β γ δ : Type} {ρ₀ ρ : Renaming} {s₀ t₀ s t : State} {Q : Renaming → α → β → Prop}
    {R : Renaming → γ → δ → Prop} {c : Run α} {d : Run β} {f : α → Run γ} {g : β → Run δ}
    (h : Ends ρ s t Q (c s) (d t)) (hgrown₀ : Extends ρ₀ s₀ t₀ ρ s t)
    (hnext : ∀ ρ' s' t' v w, c s = .done v s' → d t = .done w t' →
      Extends ρ s t ρ' s' t' →
      Related ρ' s' t' → Q ρ' v w → Ends ρ₀ s₀ t₀ R (f v s') (g w t')) :
    Ends ρ₀ s₀ t₀ R ((c >>= f) s) ((d >>= g) t) := by
  generalize hc : c s = o, hd : d t = o' at h
  cases h with
  | done hgrown hrelated hvw =>
      rw [Computation.bind_of_done hc, Computation.bind_of_done hd]
      exact hnext _ _ _ _ _ hc hd hgrown hrelated hvw
  | failed failure hgrown hrelated =>
      rw [Computation.bind_of_failed hc, Computation.bind_of_failed hd]
      exact .failed failure (hgrown₀.trans hgrown) hrelated
  | crashed hgrown hrelated =>
      rw [Computation.bind_of_crashed hc, Computation.bind_of_crashed hd]
      exact .crashed (hgrown₀.trans hgrown) hrelated
  | exhausted =>
      rw [Computation.bind_of_exhausted hc, Computation.bind_of_exhausted hd]
      exact .exhausted

section Loops

variable {p : LoopPair} {k : Nat} {ρ : Renaming} {s t : State}
  {x : Located String} {body : List Stmt}

/-- The block tests for the end of the container, and goes on or stops as the direct loop
does. -/
theorem AtHead.condition_eq (h : AtHead p k ρ s t) (host : Host) (fuel : Nat)
    (start : Span) :
    condition host (fuel + 6) p.scope' (eachTest p.hidden start) t =
      .done (decide (k < (s.store.elements p.cell).size))
        (t.tested (decide (k < (s.store.elements p.cell).size))) := by
  rw [condition_hasNext host fuel start (Scopes.get?_of_bindings h.bound), h.hasNext_eq]

theorem AtHead.execBody_eq
    (h : AtHead p k ρ s t) (hk : k < (s.store.elements p.cell).size) (host : Host)
    (fuel : Nat) (start : Span) (x : Located String) (body : List Stmt) :
    execBody host (fuel + 8) p.scope' (eachBody p.hidden start x body) t =
      execAll host (fuel + 6) t.scopes.size body
        (t.enterNext p.scope' x.node p.cursor) := by
  have hscope := State.isSome_item?_scope.mp (h.related.isSome_right h.scopes)
  exact execBody_round host fuel start x body hscope h.bound
    (h.hasNext_eq.trans (decide_eq_true hk))

/-- The body runs alike in both loops. -/
theorem AtHead.body_alike
    (h : AtHead p k ρ s t) (hx : x.node ≠ p.hidden) (hbody : p.hidden ∉ Stmt.usedAll body)
    (host : Host) (fuel : Nat) :
    ∃ ρ', AtHead p (k + 1) ρ' (s.enterRound p.scope x.node p.cell k)
        (t.enterNext p.scope' x.node p.cursor) ∧
      Ends ρ' (s.enterRound p.scope x.node p.cell k)
          (t.enterNext p.scope' x.node p.cursor) Renaming.OnFlows
        (execAll host fuel s.scopes.size body (s.enterRound p.scope x.node p.cell k))
        (execAll host fuel t.scopes.size body
          (t.enterNext p.scope' x.node p.cursor)) := by
  obtain ⟨ρ', hround, hscopes, hclear⟩ := h.round hx
  refine ⟨ρ', hround, (Simulates.always host fuel).execAll hround.related
    ⟨hscopes, fun name hname => ?_⟩⟩
  exact hclear name fun heq => hbody (heq ▸ hname)

/-- Where the direct loop ends, the block ends alike. -/
theorem AtHead.execLoop_of_eachFrom
    (h : AtHead p k ρ s t) (hx : x.node ≠ p.hidden) (hbody : p.hidden ∉ Stmt.usedAll body)
    (host : Host) (fuel : Nat) (start : Span)
    (hends : eachFrom host fuel p.scope x.node p.cell k body s ≠ .exhausted) :
    Ends p.ρ p.left p.right Renaming.OnFlows
        (eachFrom host fuel p.scope x.node p.cell k body s)
      (execLoop host (fuel + 8) p.scope' (eachTest p.hidden start)
        (eachBody p.hidden start x body) t) := by
  induction fuel generalizing k ρ s t with
  | zero => exact absurd rfl hends
  | succ fuel ih =>
      rw [execLoop_of_condition (h.condition_eq host (fuel + 2) start)]
      rw [eachFrom_succ] at hends ⊢
      by_cases hk : k < (s.store.elements p.cell).size
      · rw [if_pos hk] at hends ⊢
        rw [if_pos (by simp [hk])]
        have hhead := h.tested (decide (k < (s.store.elements p.cell).size))
        rw [Computation.bind_congr (hhead.execBody_eq hk host fuel start x body)]
        obtain ⟨ρ', hround, halike⟩ := hhead.body_alike hx hbody host (fuel + 6)
        have hsettled := settled_of_le (execAll_settles host · s.scopes.size body _)
            (Nat.le_add_right fuel 6)
          fun hout => hends (Computation.bind_of_exhausted hout _)
        rw [Computation.bind_congr hsettled.symm] at hends ⊢
        refine halike.bind_later hround.grown ?_
        intro ρ'' s' t' flow flow' hleft hright hgrown hrelated hflow
        rw [Computation.bind_of_done hleft] at hends
        have hlater := hround.later hgrown hrelated
        cases hflow with
        | pass => exact ih hlater hends
        | skip => exact ih hlater hends
        | giveBack hvw => exact .done hlater.grown hrelated (.giveBack hvw)
        | leave => exact .done hlater.grown hrelated .pass
      · rw [if_neg hk, if_neg (by simp [hk])]
        exact .done (h.tested _).grown (h.tested _).related .pass

/-- Where the block ends, the direct loop ends alike. -/
theorem AtHead.eachFrom_of_execLoop
    (h : AtHead p k ρ s t) (hx : x.node ≠ p.hidden) (hbody : p.hidden ∉ Stmt.usedAll body)
    (host : Host) (fuel : Nat) (start : Span)
    (hends : execLoop host fuel p.scope' (eachTest p.hidden start)
      (eachBody p.hidden start x body) t ≠
      .exhausted) :
    ∃ more, Ends p.ρ p.left p.right Renaming.OnFlows
        (eachFrom host more p.scope x.node p.cell k body s)
      (execLoop host fuel p.scope' (eachTest p.hidden start)
        (eachBody p.hidden start x body) t) := by
  induction fuel generalizing k ρ s t with
  | zero => exact absurd rfl hends
  | succ fuel ih =>
      -- What the block does with few steps and ends is what it does with enough steps for
      -- a whole round.
      have htest := settled_of_le (condition_settles host · p.scope' _ t)
          (Nat.le_add_right fuel 6)
        fun hout => hends (Computation.bind_of_exhausted hout _)
      rw [h.condition_eq host fuel start] at htest
      rw [execLoop_of_condition htest.symm] at hends ⊢
      have hhead := h.tested (decide (k < (s.store.elements p.cell).size))
      by_cases hk : k < (s.store.elements p.cell).size
      · rw [if_pos (by simp [hk])] at hends ⊢
        have hsettled := settled_of_le (execBody_settles host · p.scope' _ _)
            (Nat.le_add_right fuel 8)
          fun hout => hends (Computation.bind_of_exhausted hout _)
        rw [Computation.bind_congr
          (hsettled.symm.trans (hhead.execBody_eq hk host fuel start x body))] at hends ⊢
        obtain ⟨ρ', hround, halike⟩ := hhead.body_alike hx hbody host (fuel + 6)
        generalize hleft : execAll host (fuel + 6) s.scopes.size body _ = o,
          hright : execAll host (fuel + 6) _ body (State.enterNext _ _ _ _) = o' at halike
        cases halike with
        | exhausted => exact absurd (Computation.bind_of_exhausted hright _) hends
        | failed failure hgrown hrelated =>
            refine ⟨fuel + 6 + 1, ?_⟩
            rw [eachFrom_succ, if_pos hk, Computation.bind_of_failed hleft,
              Computation.bind_of_failed hright]
            exact .failed failure (hround.grown.trans hgrown) hrelated
        | crashed hgrown hrelated =>
            refine ⟨fuel + 6 + 1, ?_⟩
            rw [eachFrom_succ, if_pos hk, Computation.bind_of_crashed hleft,
              Computation.bind_of_crashed hright]
            exact .crashed (hround.grown.trans hgrown) hrelated
        | @done ρ'' s' t' flow flow' hgrown hrelated hflow =>
            have hlater := hround.later hgrown hrelated
            rw [Computation.bind_of_done hright] at hends ⊢
            have hrest : ∃ more, Ends p.ρ p.left p.right Renaming.OnFlows
                (afterRound (eachFrom host more p.scope x.node p.cell (k + 1) body)
                  flow s')
                (afterRound (execLoop host fuel p.scope' (eachTest p.hidden start)
                    (eachBody p.hidden start x body))
                  flow' t') := by
              cases hflow with
              | pass => exact ih hlater hends
              | skip => exact ih hlater hends
              | giveBack hvw => exact ⟨0, .done hlater.grown hrelated (.giveBack hvw)⟩
              | leave => exact ⟨0, .done hlater.grown hrelated .pass⟩
            obtain ⟨more, hmore⟩ := hrest
            obtain ⟨all, hall⟩ :=
              exists_eachFrom_eq hk hleft (hmore.ne_exhausted.mpr hends)
            exact ⟨all, hall ▸ hmore⟩
      · rw [if_neg (by simp [hk])]
        refine ⟨1, ?_⟩
        rw [eachFrom_succ, if_neg hk]
        exact .done hhead.grown hhead.related .pass

end Loops

/-! ## The whole block -/

/-- Both loops are at their first index when the container is there and the block has made
its iterator. -/
theorem AtHead.start
    {ρ ρ' : Renaming} {s t s' t' : State} (h : Related ρ s t) {hidden : String}
    (hdot : '.' ∈ hidden.toList) {a b cell cell' : Nat} (hgrown : Extends ρ s t ρ' s' t')
    (hrelated : Related ρ' s' t') (hscopes : ρ'.rel .scope a b)
    (hnew : t.item? ⟨.scope, b⟩ = none)
    (hclear : ∀ name, ρ'.clear a b name ↔ name ≠ hidden)
    (hitems : ρ'.rel .items cell cell') :
    AtHead ⟨ρ, s, t, h, hidden, a, b, cell, cell', t'.store.cursors.size⟩ 0 ρ' s'
      (t'.iterating b hidden cell') := by
  have halloc := t'.writes_alloc (.iterator cell')
  have hnone : t'.item? ⟨.cursor, t'.store.cursors.size⟩ = none :=
    t'.store.item?_next .cursor
  have hrelated' := hrelated.write_right halloc (hrelated.not_range hnone)
  have hgrown' := hgrown.write_right h halloc (hgrown.right.none_of_none hnone)
  obtain ⟨-, sd, -, hsd, -⟩ := hrelated'.scope hscopes
  have hdefine := State.writes_define _ hidden (.iterator t'.store.cursors.size) hsd
  have hmasked : ¬ρ'.clear a b hidden := fun hhidden => (hclear hidden).mp hhidden rfl
  exact
    { grown := hgrown'.write_right h hdefine hnew
      related := hrelated'.define_right hscopes hmasked hdot _
      scopes := hscopes
      clear := hclear
      items := hitems
      bound := by
        have hb := State.isSome_item?_scope.mp (hrelated'.isSome_right hscopes)
        change Bindings.get? (Scopes.bindings (Scopes.define _ _ _ _) b) hidden = _
        rw [Scopes.bindings_define _ _ _ hb, if_pos rfl, Bindings.get?_insert, if_pos rfl]
      position := by
        have hne : (⟨.cursor, t'.store.cursors.size⟩ : Loc) ≠ ⟨.scope, b⟩ := nofun
        exact (hdefine.item?_of_ne hne).trans ((halloc.item? _).trans (if_pos rfl))
      apart := hrelated.not_range hnone
      new := hgrown.right.none_of_none hnone }

theorem Hides.of_mem_iterable
    {hidden x : String} {iterable : Expr} {body : List Stmt}
    (h : Hides hidden x iterable body) (name : String) (hname : name ∈ iterable.used) :
    name ≠ hidden := by
  rintro rfl
  exact h.iterable hname

section Equivalence

variable {ρ : Renaming} {s t : State} {a b : Nat} {hidden : String}
  {x : Located String} {iterable : Expr}
variable {body : List Stmt} {host : Host}

/-- What a loop goes over comes out alike, whichever names are clear in the scope of the
loop. -/
theorem Related.iterable_alike
    (h : Related ρ s t) (hab : ρ.rel .scope a b) {clear : String → Prop}
    (hinside : ∀ name, clear name → ρ.clear a b name)
    (hplain : ∀ name, ¬ρ.hidden name → clear name)
    (hused : ∀ name ∈ iterable.used, clear name) (host : Host) (fuel : Nat) :
    Ends ρ s t
      (fun ρ' v w => ρ'.OnValues v w ∧ ρ'.rel .scope s.scopes.size t.scopes.size ∧
        ∀ name, ρ'.clear s.scopes.size t.scopes.size name ↔ clear name)
      (eval host fuel s.scopes.size iterable (s.opened a))
      (eval host fuel t.scopes.size iterable (t.opened b)) := by
  cases h.openScopeWith hab hinside hplain with
  | done hopened hrelated hinner =>
      obtain ⟨hscopes, hclear⟩ := hinner
      have heval := (Simulates.always host fuel).eval hrelated
        ⟨hscopes, fun name hname => (hclear name).mpr (hused name hname)⟩
      refine (heval.mono fun ρ' s' t' v w hgrown hvw => ?_).later hopened
      refine ⟨hvw, hgrown.grows.rel hscopes, fun name => ?_⟩
      exact (hgrown.grows.clear hscopes name).trans (hclear name)

/-- A handle that corresponds to a container names a container that corresponds. -/
theorem Renaming.OnValues.container?_eq_some
    {v w : Value} {cell : Nat} (h : ρ.OnValues v w)
    (hcell : Store.container? v = some cell) :
    ∃ cell', Store.container? w = some cell' ∧ ρ.rel .items cell cell' := by
  have hrel := h.container?_rel
  rw [hcell] at hrel
  generalize Store.container? w = o at hrel
  cases hrel with
  | some hitems => exact ⟨_, rfl, hitems⟩

/-- What it takes to compare the two forms of a loop: states that are alike, in which all
names but the hidden one are clear, and something to go over. -/
structure Comparable (ρ : Renaming) (s t : State) (a b : Nat) (hidden x : String)
    (iterable : Expr) (body : List Stmt) (host : Host) : Prop where
  related : Related ρ s t
  scopes : ρ.rel .scope a b
  clear : ∀ name, name ≠ hidden → ρ.clear a b name
  plain : ∀ name, ¬ρ.hidden name → name ≠ hidden
  hides : Hides hidden x iterable body
  container : ∀ fuel v s', eval host fuel s.scopes.size iterable
      (s.opened a) = .done v s' →
    (Store.container? v).isSome

namespace Comparable

theorem iterable_alike (h : Comparable ρ s t a b hidden x.node iterable body host)
    (fuel : Nat) :
    Ends ρ s t
      (fun ρ' v w => ρ'.OnValues v w ∧ ρ'.rel .scope s.scopes.size t.scopes.size ∧
        ∀ name, ρ'.clear s.scopes.size t.scopes.size name ↔ name ≠ hidden)
      (eval host fuel s.scopes.size iterable (s.opened a))
      (eval host fuel t.scopes.size iterable (t.opened b)) :=
  h.related.iterable_alike h.scopes h.clear h.plain h.hides.of_mem_iterable host fuel

/-- Once both loops have something to go over, they are at their first index. -/
theorem atHead
    {ρ' : Renaming} {s' t' : State} {v w : Value} {fuel : Nat}
    (h : Comparable ρ s t a b hidden x.node iterable body host)
    (hv : eval host fuel s.scopes.size iterable (s.opened a) = .done v s')
    (hgrown : Extends ρ s t ρ' s' t') (hrelated : Related ρ' s' t')
    (hvw : ρ'.OnValues v w) (hscopes : ρ'.rel .scope s.scopes.size t.scopes.size)
    (hclear : ∀ name, ρ'.clear s.scopes.size t.scopes.size name ↔ name ≠ hidden) :
    ∃ cell cell', Store.container? v = some cell ∧ Store.container? w = some cell' ∧
      AtHead ⟨ρ, s, t, h.related, hidden, s.scopes.size, t.scopes.size, cell, cell',
          t'.store.cursors.size⟩ 0 ρ' s'
        (t'.iterating t.scopes.size hidden cell') := by
  obtain ⟨cell, hcell⟩ := Option.isSome_iff_exists.mp (h.container _ _ _ hv)
  obtain ⟨cell', hcell', hitems⟩ := hvw.container?_eq_some hcell
  have hnew : t.item? ⟨.scope, t.scopes.size⟩ = none := by simp [Scopes.size]
  exact ⟨cell, cell', hcell, hcell',
    .start h.related h.hides.dotted hgrown hrelated hscopes hnew hclear hitems⟩

/-- Where the direct loop ends, the block ends alike. -/
theorem exec_forBlock_of_forEach
    (h : Comparable ρ s t a b hidden x.node iterable body host) (fuel : Nat)
    (start span : Span)
    (hends : forEach host fuel a x.node iterable body s ≠ .exhausted) :
    Ends ρ s t Renaming.OnFlows (forEach host fuel a x.node iterable body s)
      (exec host (fuel + 4 + 9) b
        (.block (Parser.forBlock hidden start x iterable body) span) t) := by
  have halike := h.iterable_alike (fuel + 4 + 4)
  have hsettled := settled_of_le (eval_settles host · s.scopes.size iterable (s.opened a))
    (Nat.le_add_right fuel (4 + 4)) fun hout =>
      hends (Computation.bind_of_exhausted hout _)
  generalize hleft : eval host (fuel + 4 + 4) s.scopes.size iterable (s.opened a) = o,
    hright : eval host (fuel + 4 + 4) t.scopes.size iterable (t.opened b) = o' at halike
  have hleft' := hsettled.symm.trans hleft
  cases halike with
  | exhausted => exact absurd (Computation.bind_of_exhausted hleft' _) hends
  | failed failure hgrown hrelated =>
      rw [exec_forBlock_of_breaksOff hright (.failed ..), forEach_eq,
        Computation.bind_of_failed hleft']
      exact .failed failure hgrown hrelated
  | crashed hgrown hrelated =>
      rw [exec_forBlock_of_breaksOff hright (.crashed _), forEach_eq,
        Computation.bind_of_crashed hleft']
      exact .crashed hgrown hrelated
  | @done ρ' s' t' v w hgrown hrelated hvalues =>
      obtain ⟨hvw, hscopes, hclear⟩ := hvalues
      obtain ⟨cell, cell', hcell, hcell', hhead⟩ :=
        h.atHead hleft hgrown hrelated hvw hscopes hclear
      have hforEach : forEach host fuel a x.node iterable body s =
          eachFrom host fuel s.scopes.size x.node cell 0 body s' := by
        rw [forEach_eq, Computation.bind_of_done hleft']
        simp only [hcell]
      rw [exec_forBlock hright hcell', hforEach]
      exact hhead.execLoop_of_eachFrom h.hides.name h.hides.body host fuel start
        (hforEach ▸ hends)

/-- Where the block ends, the direct loop ends alike. -/
theorem forEach_of_exec_forBlock
    (h : Comparable ρ s t a b hidden x.node iterable body host) (fuel : Nat)
    (start span : Span)
    (hends : exec host fuel b (.block (Parser.forBlock hidden start x iterable body) span)
      t ≠ .exhausted) :
    ∃ more, Ends ρ s t Renaming.OnFlows (forEach host more a x.node iterable body s)
      (exec host fuel b (.block (Parser.forBlock hidden start x iterable body) span)
        t) := by
  have halike := h.iterable_alike (fuel + 4)
  have hsettled := settled_of_le (exec_settles host · b _ t)
    (Nat.le_add_right fuel 9) hends
  rw [← hsettled] at hends ⊢
  generalize hleft : eval host (fuel + 4) s.scopes.size iterable (s.opened a) = o,
    hright : eval host (fuel + 4) t.scopes.size iterable (t.opened b) = o' at halike
  cases halike with
  | exhausted =>
      exact absurd (exec_forBlock_of_breaksOff hright .exhausted start span body) hends
  | failed failure hgrown hrelated =>
      refine ⟨fuel + 4, ?_⟩
      rw [exec_forBlock_of_breaksOff hright (.failed ..), forEach_eq,
        Computation.bind_of_failed hleft]
      exact .failed failure hgrown hrelated
  | crashed hgrown hrelated =>
      refine ⟨fuel + 4, ?_⟩
      rw [exec_forBlock_of_breaksOff hright (.crashed _), forEach_eq,
        Computation.bind_of_crashed hleft]
      exact .crashed hgrown hrelated
  | @done ρ' s' t' v w hgrown hrelated hvalues =>
      obtain ⟨hvw, hscopes, hclear⟩ := hvalues
      obtain ⟨cell, cell', hcell, hcell', hhead⟩ :=
        h.atHead hleft hgrown hrelated hvw hscopes hclear
      rw [exec_forBlock hright hcell'] at hends ⊢
      obtain ⟨more, hmore⟩ :=
        hhead.eachFrom_of_execLoop h.hides.name h.hides.body host (fuel + 4) start hends
      obtain ⟨all, hall⟩ := forEach_of_eval hleft hcell (hmore.ne_exhausted.mpr hends)
      exact ⟨all, hall ▸ hmore⟩

end Comparable

end Equivalence

/-! ## Arrays -/

section Arrays

variable {host : Host} {scope cell k : Nat} {x : String} {body : List Stmt} {s s' : State}

theorem Related.eachRound_alike
    {ρ : Renaming} {s t : State} {a b cell cell' : Nat} (h : Related ρ s t)
    (hsees : ρ.Sees a b (x :: Stmt.usedAll body)) (hitems : ρ.rel .items cell cell')
    (host : Host) (fuel k : Nat) :
    Ends ρ s t Renaming.OnFlows (eachRound host fuel a x cell k body s)
      (eachRound host fuel b x cell' k body t) := by
  have hvalues := Related.elementAt_rel (h.elements hitems) k
  refine Ends.bind (Q := Renaming.OnValues) (.pure h hvalues)
    fun ρ₀ s₀ t₀ v w hgrown₀ hrelated₀ hvw => ?_
  have hsees₀ := hsees.mono hgrown₀.grows
  refine (hrelated₀.openScope hsees₀.scope).bind
    fun ρ₁ s₁ t₁ c d hopened hrelated₁ hinner => ?_
  refine (hrelated₁.define hinner.1 x (hinner.2 x hsees₀.head)
    (hvw.mono hopened.grows)).bind ?_
  intro ρ₂ s₂ t₂ _ _ hbound hrelated₂ _
  have hinside : ρ₁.Sees c d (Stmt.usedAll body) :=
    ⟨hinner.1, fun name hname => hinner.2 name (hsees₀.tail.clear name hname)⟩
  exact (Simulates.always host fuel).execAll hrelated₂ (hinside.mono hbound.grows)

/-- No round changes the length of a container that no list names. -/
theorem Rounds.size_eq
    (h : Rounds host scope x cell body s k s') (hs : s.WellFormed)
    (hscope : scope < s.scopes.size) (hcell : (s.item? ⟨.items, cell⟩).isSome)
    (hlist : ¬s.Mentions (.list cell)) :
    s'.WellFormed ∧ scope < s'.scopes.size ∧ (s'.item? ⟨.items, cell⟩).isSome ∧
        ¬s'.Mentions (.list cell) ∧
      (s'.store.elements cell).size = (s.store.elements cell).size := by
  induction h with
  | start => exact ⟨hs, hscope, hcell, hlist, rfl⟩
  | @next k fuel s' s'' flow before more round goesOn ih =>
      obtain ⟨hs', hscope', hcell', hlist', hsize⟩ := ih
      have hsees := State.sees_beside hscope' (x :: Stmt.usedAll body)
      have halike := hs'.related_beside.eachRound_alike hsees ⟨rfl, hcell'⟩ host fuel k
      rw [round] at halike
      cases halike with
      | done hgrown hrelated _ =>
          obtain ⟨hlist'', hsize'⟩ := hgrown.not_mentions_list hrelated hcell' hlist'
          exact ⟨hgrown.wellFormed hrelated,
              Nat.lt_of_lt_of_le hscope' hgrown.left.size_le,
            hgrown.left.kept _ hcell', hlist'', hsize'.trans hsize⟩

/-- An array that a loop goes over is no list. -/
theorem State.WellFormed.array_apart
    {s s' : State} (hs : s.WellFormed) (hapart : s.Apart) {scope cell fuel : Nat}
    (hscope : scope < s.scopes.size) {host : Host} {iterable : Expr}
    (h : eval host fuel s.scopes.size iterable (s.opened scope) =
      .done (.array cell) s') :
    s'.WellFormed ∧ s.scopes.size < s'.scopes.size ∧ (s'.item? ⟨.items, cell⟩).isSome ∧
      ¬s'.Mentions (.list cell) := by
  have hsees := State.sees_beside hscope iterable.used
  have halike := hs.related_beside.iterable_alike hsees.scope (fun _ hname => hname)
    (fun _ _ => trivial) hsees.clear host fuel
  rw [h] at halike
  generalize hsame : Outcome.done (Value.array cell) s' = o at halike
  cases halike with
  | failed | crashed | exhausted => cases hsame
  | done hgrown hrelated hvalues =>
      cases hsame
      obtain ⟨hvw, hscopes, -⟩ := hvalues
      cases hvw with
      | array hcell hkind =>
          refine ⟨hgrown.wellFormed hrelated, ?_, hrelated.isSome_left hcell,
            fun hlist => ?_⟩
          · exact State.isSome_item?_scope.mp (hrelated.isSome_left hscopes)
          · obtain ⟨w, hw⟩ := hgrown.exists_onValues hrelated hlist
            rcases hgrown.sorted hcell with hold | hboth
            · exact hapart cell ⟨(hgrown.grows.kinds hold .list).mp hw.fits,
                (hgrown.grows.kinds hold .array).mp hkind⟩
            · exact hboth ⟨hw.fits, hkind⟩

end Arrays

/-! ## The meaning of `for` -/

/-- All places of the state correspond to themselves, and one name is hidden. -/
def State.hiding (s : State) (hidden : String) : Renaming :=
  .beside (fun loc => (s.item? loc).isSome) (· = hidden) fun _ _ => True

theorem State.WellFormed.related_hiding {s : State} (hs : s.WellFormed)
    (hidden : String) : Related (s.hiding hidden) s s :=
  hs.closed_all.related_beside (fun _ _ v _ _ _ => v.fits_any) _ hs.linked hs.linked
    (fun _ _ => rfl) rfl rfl rfl

/-- In a state beside itself the two forms of a loop can be compared, whatever hidden
names there are already. -/
theorem State.WellFormed.comparable
    {s : State} {scope : Nat} {hidden x : String} {iterable : Expr} {body : List Stmt}
    {host : Host} (hs : s.WellFormed) (hscope : scope < s.scopes.size)
    (hides : Hides hidden x iterable body)
    (hcontainer : ∀ fuel v s', eval host fuel s.scopes.size iterable
      (s.opened scope) = .done v s' →
      (Store.container? v).isSome) :
    Comparable (s.hiding hidden) s s scope scope hidden x iterable body host where
  related := hs.related_hiding hidden
  scopes := ⟨rfl, isSome_item?_scope.mpr hscope⟩
  clear _ _ := trivial
  plain _ hname := hname
  hides := hides
  container := hcontainer

section Meaning

variable {s s₁ : State} {scope fuel cell : Nat} {hidden : String}
  {x : Located String} {iterable : Expr}
variable {body : List Stmt} {host : Host} {v : Value}

/-- Over a container that keeps its length, and with a body that no round breaks off, the
direct loop runs the body once for each index, in order. -/
theorem forEach_of_rounds
    (hv : eval host fuel s.scopes.size iterable (s.opened scope) = .done v s₁)
    (hcell : Store.container? v = some cell)
    (hlength : ∀ k s', Rounds host s.scopes.size x.node cell body s₁ k s' →
      (s'.store.elements cell).size = (s₁.store.elements cell).size)
    (hbody : ∀ k s', Rounds host s.scopes.size x.node cell body s₁ k s' →
      k < (s₁.store.elements cell).size →
      ∃ fuel flow s'', eachRound host fuel s.scopes.size x.node cell k body s' =
          .done flow s'' ∧
        (flow = .pass ∨ flow = .skip)) :
    ∃ s', Rounds host s.scopes.size x.node cell body s₁ (s₁.store.elements cell).size s' ∧
      ∃ fuel, forEach host fuel scope x.node iterable body s = .done .pass s' := by
  obtain ⟨s', hrounds⟩ := exists_rounds hlength hbody _ (Nat.le_refl _)
  obtain ⟨fuel', hloop⟩ := hrounds.eachFrom_eq (hlength _ s' hrounds)
  obtain ⟨all, hall⟩ := forEach_of_eval hv hcell (by rw [hloop]; nofun)
  exact ⟨s', hrounds, all, hall.trans hloop⟩

/-- What ends once as a container is a container whenever it ends. -/
theorem container_of_eval
    (hv : eval host fuel s.scopes.size iterable (s.opened scope) = .done v s₁)
    (hcell : Store.container? v = some cell) :
    ∀ fuel v s', eval host fuel s.scopes.size iterable (s.opened scope) = .done v s' →
      (Store.container? v).isSome := by
  intro fuel' v' s' hv'
  have hsame := settled_unique
      (eval_settles host · s.scopes.size iterable (s.opened scope))
    (by rw [hv]; nofun) (by rw [hv']; nofun)
  rw [hv, hv'] at hsame
  cases hsame
  rw [hcell]
  rfl

end Meaning

/-- A `for` loop means the loop over the indices of its container. What is read for a
`for` loop anywhere in a source text is a block whose hidden name occurs nowhere else in
the loop. Such a block, run in any scope of a well-formed state, ends if and only if the
direct loop ends, and then alike: in the same way or with the same failure, with the same
output, and with every old place as the direct loop leaves it. This says nothing of what
the body does to the container, or of the names in other code. Hence over an array, or
over a list whose length the body leaves, a body that never breaks off runs once for each
index, in order; and scripts keep lists and arrays apart, so an array has the length that
it was made with. -/
theorem for_block_runs_as_direct_loop :
    (∀ source tokens, tokenize source = .ok tokens →
        ∀ c c' : Parser.Cursor, c.rest ⊆ tokens →
      c.tokens.head? = some (.keyword .each) →
        ∀ fuel stmt, Parser.statement fuel c = .ok (stmt, c') →
      ∃ number start span x iterable body,
        stmt = .block (Parser.forBlock (hiddenName number) start x iterable body) span ∧
          Hides (hiddenName number) x.node iterable body) ∧
    (∀ s : State, s.WellFormed → ∀ scope, scope < s.scopes.size →
        ∀ hidden x iterable body,
      Hides hidden x.node iterable body → ∀ host,
      (∀ fuel v s', eval host fuel s.scopes.size iterable (s.opened scope) = .done v s' →
        (Store.container? v).isSome) → ∀ start span,
      (∀ fuel, forEach host fuel scope x.node iterable body s ≠ .exhausted →
        ∃ more, Ends (s.hiding hidden) s s Renaming.OnFlows
          (forEach host fuel scope x.node iterable body s)
          (exec host more scope
            (.block (Parser.forBlock hidden start x iterable body) span) s)) ∧
      (∀ fuel, exec host fuel scope
          (.block (Parser.forBlock hidden start x iterable body) span) s ≠ .exhausted →
        ∃ more, Ends (s.hiding hidden) s s Renaming.OnFlows
          (forEach host more scope x.node iterable body s)
          (exec host fuel scope
            (.block (Parser.forBlock hidden start x iterable body) span) s))) ∧
    (∀ s : State, s.WellFormed → ∀ scope, scope < s.scopes.size →
        ∀ hidden x iterable body,
      Hides hidden x.node iterable body → ∀ host fuel v s₁ cell,
      eval host fuel s.scopes.size iterable (s.opened scope) = .done v s₁ →
        Store.container? v = some cell →
      (v = .array cell ∧ s.Apart) ∨
          (∀ k s', Rounds host s.scopes.size x.node cell body s₁ k s' →
        (s'.store.elements cell).size = (s₁.store.elements cell).size) →
      (∀ k s', Rounds host s.scopes.size x.node cell body s₁ k s' →
          k < (s₁.store.elements cell).size →
        ∃ fuel flow s'', eachRound host fuel s.scopes.size x.node cell k body s' =
            .done flow s'' ∧
          (flow = .pass ∨ flow = .skip)) →
      ∃ s', Rounds host s.scopes.size x.node cell body s₁
          (s₁.store.elements cell).size s' ∧
        (∃ fuel, forEach host fuel scope x.node iterable body s = .done .pass s') ∧
        ∀ start span, ∃ fuel, Ends (s.hiding hidden) s s Renaming.OnFlows (.done .pass s')
          (exec host fuel scope
            (.block (Parser.forBlock hidden start x iterable body) span) s)) ∧
    (∀ console, (State.initial console).Apart) ∧
    (∀ s : State, s.WellFormed → s.Apart → ∀ scope, scope < s.scopes.size →
        ∀ host fuel stmts,
      (evalStatements host fuel scope none stmts s).Meets (fun _ s' => s'.Apart)
        (fun _ s' => s'.Apart)) := by
  refine ⟨?_, ?_, ?_, State.initial_apart, ?_⟩
  · intro source tokens htokens c c' hc hfirst fuel stmt h
    exact Parser.statement_hides htokens hc hfirst h
  · intro s hs scope hscope hidden x iterable body hides host hcontainer start span
    have hcomparable := hs.comparable hscope hides hcontainer
    constructor
    · intro fuel hends
      exact ⟨fuel + 4 + 9, hcomparable.exec_forBlock_of_forEach fuel start span hends⟩
    · intro fuel hends
      exact hcomparable.forEach_of_exec_forBlock fuel start span hends
  · intro s hs scope hscope hidden x iterable body hides host fuel v s₁
      cell hv hcell hkeeps hbody
    have hlength : ∀ k s', Rounds host s.scopes.size x.node cell body s₁ k s' →
        (s'.store.elements cell).size = (s₁.store.elements cell).size := by
      rcases hkeeps with ⟨rfl, hapart⟩ | hlength
      · intro k s' hrounds
        obtain ⟨hs₁, hscope₁, hthere, hlist⟩ := hs.array_apart hapart hscope hv
        exact (hrounds.size_eq hs₁ hscope₁ hthere hlist).2.2.2.2
      · exact hlength
    obtain ⟨s', hrounds, fuel', hloop⟩ := forEach_of_rounds hv hcell hlength hbody
    refine ⟨s', hrounds, ⟨fuel', hloop⟩, fun start span => ⟨fuel' + 4 + 9, ?_⟩⟩
    have hcomparable := hs.comparable hscope hides (container_of_eval hv hcell)
    rw [← hloop]
    exact hcomparable.exec_forBlock_of_forEach fuel' start span (by rw [hloop]; nofun)
  · intro s hs hapart scope hscope host fuel stmts
    exact hs.evalStatements_apart hapart hscope host fuel stmts

theorem for_block_runs_as_direct_loop_array :
    let s := State.initial (.ofLines [] none)
    let host : Host := ⟨100, .empty, .asBound⟩
    let iterable : Expr := .call (.name "new" default) ⟨"array", default⟩
      [.literal (.int 2) default] default
    let body : List Stmt := [.expr (.literal (.int 7) default) default, .skip default]
    let block := Stmt.block
      (Parser.forBlock (hiddenName 0) default ⟨"x", default⟩ iterable body) default
    (∃ tokens, tokenize "for (x in new.array(2)) \x7b 7 continue \x7d" = .ok tokens ∧
      ∃ stmt c', Parser.statement 40 ⟨tokens, default, 0, default⟩ = .ok (stmt, c') ∧
        ∃ number start span x iterable body,
          stmt = .block (Parser.forBlock (hiddenName number) start x iterable body) span ∧
            Hides (hiddenName number) x.node iterable body) ∧
    (∃ more, Ends (s.hiding (hiddenName 0)) s s Renaming.OnFlows
        (forEach host more 0 "x" iterable body s)
      (exec host 40 0 block s)) ∧
    (∃ s₁ s', (s₁.store.elements 0).size = 2 ∧ Rounds host 1 "x" 0 body s₁ 2 s' ∧
      ∃ fuel, Ends (s.hiding (hiddenName 0)) s s Renaming.OnFlows (.done .pass s')
        (exec host fuel 0 block s)) ∧
    (evalStatements host 40 0 none [block] s).Meets (fun _ s' => s'.Apart)
      (fun _ s' => s'.Apart) := by
  intro s host iterable body block
  have hs : s.WellFormed := (State.initial_sane _).1
  have hides : Hides (hiddenName 0) "x" iterable body :=
    ⟨dot_mem_hiddenName 0, by decide, by decide, by decide⟩
  obtain ⟨s₁, hv, hsize⟩ : ∃ s₁, eval host 10 s.scopes.size iterable
      (s.opened 0) = .done (.array 0) s₁ ∧
      (s₁.store.elements 0).size = 2 := by
    have hrun : (match eval host 10 s.scopes.size iterable (s.opened 0) with
        | .done v s₁ => v = .array 0 && (s₁.store.elements 0).size = 2
        | _ => false) = true := by decide +kernel
    generalize eval host 10 s.scopes.size iterable (s.opened 0) = o at hrun
    cases o with
    | done v s₁ =>
        obtain ⟨hv, hsize⟩ : v = .array 0 ∧ (s₁.store.elements 0).size = 2 := by
          simpa using hrun
        exact ⟨s₁, by rw [hv], hsize⟩
    | failed | crashed | exhausted => cases hrun
  refine ⟨?_, ?_, ?_, ?_⟩
  · have hread : ((tokenize "for (x in new.array(2)) \x7b 7 continue \x7d").toOption.any
        fun tokens =>
        let c : Parser.Cursor := ⟨tokens, default, 0, default⟩
        c.tokens.head?.any (Parser.isKeyword .each) &&
          (Parser.statement 40 c).toOption.isSome) = true := by
      decide +kernel
    cases htokens : tokenize "for (x in new.array(2)) \x7b 7 continue \x7d" with
    | error e =>
        rw [htokens] at hread
        cases hread
    | ok tokens =>
        simp only [htokens, Except.toOption, Option.any_some, Bool.and_eq_true] at hread
        obtain ⟨hfirst, hstatement⟩ := hread
        cases hloop : Parser.statement 40 ⟨tokens, default, 0, default⟩ with
        | error e =>
            rw [hloop] at hstatement
            cases hstatement
        | ok result =>
            refine ⟨tokens, rfl, result.1, result.2, hloop, ?_⟩
            exact for_block_runs_as_direct_loop.1 _ tokens htokens _ _ (fun _ ht => ht)
              (Parser.any_isKeyword.mp hfirst) 40 _ hloop
  · refine (for_block_runs_as_direct_loop.2.1 s hs 0 (by decide) (hiddenName 0)
        ⟨"x", default⟩ iterable body hides
      host (container_of_eval hv rfl) default default).2 40 fun hout => ?_
    have hends : (exec host 40 0 block s).state?.isSome = true := by decide +kernel
    rw [hout] at hends
    cases hends
  · obtain ⟨s', hrounds, -, hblock⟩ := for_block_runs_as_direct_loop.2.2.1 s hs 0
        (by decide) (hiddenName 0)
      ⟨"x", default⟩ iterable body hides host 10 (.array 0) s₁ 0 hv rfl
        (.inl ⟨rfl, State.initial_apart _⟩)
      fun _ _ _ _ => ⟨4, .skip, _, rfl, .inr rfl⟩
    rw [hsize] at hrounds
    exact ⟨s₁, s', hsize, hrounds, hblock default default⟩
  · exact for_block_runs_as_direct_loop.2.2.2.2 s hs (State.initial_apart _) 0
      (by decide) host 40 [block]

end HandleScript
