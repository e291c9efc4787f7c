import HandleScript.Proofs.Bisimilarity
import HandleScript.Value.Render
import Mathlib.Data.Finset.Card

/-!
# Every value has a text

A container that is met again inside itself shows as `[...]`. The text of a value is
stated here once more as rules without a bound on their nesting. A container that is
opened was not open before, and there are only so many of them; so the bound that the text
is computed with is never reached, and the rules lead to the text that is shown.

What stands inside of a value is also named by paths of indices, and whether a container
is open at the end of a path is read off the path. Each occurrence has a text of its own,
and no container shows as `[...]` that is not open where it stands. When no container
contains itself, the text is the one that knows nothing of open containers.
-/

namespace HandleScript.Store

variable {store : Store}

/-- The text of a value inside the containers `opened`. -/
inductive Renders (store : Store) : List Nat → Value → String → Prop
  | simple {opened : List Nat} {v : Value} (plain : container? v = none) :
      Renders store opened v (store.renderSimple v)
  | again {opened : List Nat} {v : Value} {cell : Nat}
      (container : container? v = some cell) (isOpen : cell ∈ opened) :
      Renders store opened v "[...]"
  | elements {opened : List Nat} {v : Value} {cell : Nat} (text : Value → String)
      (container : container? v = some cell) (new : cell ∉ opened)
      (inside : ∀ x ∈ (store.elements cell).toList, Renders store
        (cell :: opened) x (text x)) :
      Renders store opened v
        ("[" ++ ", ".intercalate ((store.elements cell).toList.map text) ++ "]")

/-- The number of containers that can still be opened. -/
def unopened (store : Store) (opened : List Nat) : Nat :=
  {cell ∈ Finset.range store.items.size | cell ∉ opened}.card

theorem unopened_le (store : Store) (opened : List Nat) :
    store.unopened opened ≤ store.items.size := by
  have hle := Finset.card_filter_le (Finset.range store.items.size) (· ∉ opened)
  rwa [Finset.card_range] at hle

theorem unopened_cons_lt {opened : List Nat} {cell : Nat} (hnew : cell ∉ opened)
    {x : Value} (hx : x ∈ (store.elements cell).toList) :
    store.unopened (cell :: opened) < store.unopened opened := by
  have hcell := lt_size_of_mem_elements hx
  refine Finset.card_lt_card ((Finset.ssubset_iff_of_subset ?_).mpr ⟨cell, ?_, ?_⟩)
  · intro other hother
    simp_all
  · simpa using ⟨hcell, hnew⟩
  · simp

/-- Each step inwards opens a container, so a bound beyond the number of those that are
not open is never reached. -/
theorem renders_renderFrom
    {fuel : Nat} {opened : List Nat} (hfuel : store.unopened opened < fuel) (v : Value) :
    store.Renders opened v (store.renderFrom fuel opened v) := by
  induction fuel generalizing opened v with
  | zero => exact absurd hfuel (Nat.not_lt_zero _)
  | succ fuel ih =>
      rw [renderFrom]
      cases hcontainer : container? v with
      | none => exact .simple hcontainer
      | some cell =>
          dsimp only
          by_cases hopen : cell ∈ opened
          · rw [if_pos (List.contains_iff_mem.mpr hopen)]
            exact .again hcontainer hopen
          · rw [if_neg fun hcontains => hopen (List.contains_iff_mem.mp hcontains)]
            refine .elements _ hcontainer hopen ?_
            intro x hx
            have hless := unopened_cons_lt hopen hx
            exact ih (by omega) x

/-- By the rules, which know no bound, every value has a text: the one that is shown. -/
theorem renders_render (store : Store) (v : Value) :
    store.Renders [] v (store.render v) :=
  renders_renderFrom (Nat.lt_succ_of_le (store.unopened_le [])) v

theorem Renders.unique {opened : List Nat} {v : Value} {t t' : String}
    (h : store.Renders opened v t) (h' : store.Renders opened v t') : t = t' := by
  induction h generalizing t' with
  | simple hplain =>
      cases h' with
      | simple => rfl
      | again hcontainer => cases hplain.symm.trans hcontainer
      | elements _ hcontainer => cases hplain.symm.trans hcontainer
  | again hcontainer hopen =>
      cases h' with
      | simple hplain => cases hplain.symm.trans hcontainer
      | again => rfl
      | elements _ hcontainer' hnew =>
          cases hcontainer.symm.trans hcontainer'
          exact absurd hopen hnew
  | elements text hcontainer hnew _ ih =>
      cases h' with
      | simple hplain => cases hplain.symm.trans hcontainer
      | again hcontainer' hopen =>
          cases hcontainer.symm.trans hcontainer'
          exact absurd hopen hnew
      | elements text' hcontainer' _ hinside' =>
          cases hcontainer.symm.trans hcontainer'
          rw [List.map_congr_left fun x hx => ih x hx (hinside' x hx)]

theorem renders_iff {v : Value} {t : String} :
    store.Renders [] v t ↔ t = store.render v := by
  constructor
  · intro h
    exact h.unique (store.renders_render v)
  · rintro rfl
    exact store.renders_render v

/-! ## Occurrences -/

/-- The value that a path of indices leads to, the last index first. -/
def at? (store : Store) (v : Value) : (path : List Nat) → Option Value
  | [] => some v
  | i :: path => do
    let outer ← store.at? v path
    let cell ← container? outer
    (store.elements cell)[i]?

/-- On the way to the end of the path, the container is entered. -/
def IsOpen (store : Store) (v : Value) (path : List Nat) (cell : Nat) : Prop :=
  ∃ inner outer, path = inner ++ outer ∧ inner ≠ [] ∧
    (store.at? v outer).bind container? = some cell

/-- The texts of all that stands inside of a value, by paths: a container shows its
elements in order, unless it has been entered on the way. -/
structure ShowsInside (store : Store) (v : Value) (text : List Nat → String) : Prop where
  simple : ∀ path w, store.at? v path = some w → container? w = none →
    text path = store.renderSimple w
  again : ∀ path w cell, store.at? v path = some w → container? w = some cell →
      store.IsOpen v path cell →
    text path = "[...]"
  elements : ∀ path w cell, store.at? v path = some w → container? w = some cell →
      ¬ store.IsOpen v path cell →
    text path = "[" ++ ", ".intercalate
      ((List.range (store.elements cell).size).map fun i => text (i :: path)) ++ "]"

/-- The containers that are entered on the way to the end of a path. -/
def entered (store : Store) (v : Value) : (path : List Nat) → List Nat
  | [] => []
  | _ :: path =>
    match (store.at? v path).bind container? with
    | some cell => cell :: store.entered v path
    | none => store.entered v path

theorem isOpen_iff_mem_entered {v : Value} {path : List Nat} {cell : Nat} :
    store.IsOpen v path cell ↔ cell ∈ store.entered v path := by
  induction path with
  | nil => simp [IsOpen, entered]
  | cons i path ih =>
      have hsplit : store.IsOpen v (i :: path) cell ↔
          (store.at? v path).bind container? = some cell ∨ store.IsOpen v path cell := by
        constructor
        · rintro ⟨inner, outer, hpath, hinner, hcell⟩
          cases inner with
          | nil => exact absurd rfl hinner
          | cons j inner =>
              cases hpath
              cases inner with
              | nil => exact .inl hcell
              | cons k inner =>
                  exact .inr ⟨k :: inner, outer, rfl, List.cons_ne_nil _ _, hcell⟩
        · rintro (hhere | ⟨inner, outer, rfl, hinner, hcell⟩)
          · exact ⟨[i], path, rfl, List.cons_ne_nil _ _, hhere⟩
          · exact ⟨i :: inner, outer, rfl, List.cons_ne_nil _ _, hcell⟩
      rw [hsplit, ih, entered]
      cases (store.at? v path).bind container? with
      | none => simp
      | some other => simp [eq_comm]

section Inside

variable {v w : Value} {path : List Nat} {cell : Nat}

theorem at?_cons (hat : store.at? v path = some w) (hcontainer : container? w = some cell)
    (i : Nat) : store.at? v (i :: path) = (store.elements cell)[i]? := by
  rw [at?, hat]
  simp [hcontainer]

theorem entered_cons (hat : store.at? v path = some w)
    (hcontainer : container? w = some cell) (i : Nat) :
    store.entered v (i :: path) = cell :: store.entered v path := by
  simp [entered, hat, hcontainer]

/-- What is said of the elements by their indices is said of them in order. -/
theorem map_range_eq_map_elements {text : Nat → String} {shown : Value → String}
    (h : ∀ i x, (store.elements cell)[i]? = some x → text i = shown x) :
    (List.range (store.elements cell).size).map text =
      (store.elements cell).toList.map shown := by
  refine List.ext_getElem (by simp) fun i hi hi' => ?_
  simp only [List.getElem_map, List.getElem_range]
  refine h i _ ?_
  simp at hi
  simp [hi]

/-- The texts by paths are those that the computation comes to. -/
theorem ShowsInside.eq_renderFrom {text : List Nat → String}
    (h : store.ShowsInside v text) {fuel : Nat}
    (hfuel : store.unopened (store.entered v path) < fuel)
    (hat : store.at? v path = some w) :
    text path = store.renderFrom fuel (store.entered v path) w := by
  induction fuel generalizing path w with
  | zero => exact absurd hfuel (Nat.not_lt_zero _)
  | succ fuel ih =>
      rw [renderFrom]
      cases hcontainer : container? w with
      | none => exact h.simple path w hat hcontainer
      | some cell =>
          dsimp only
          by_cases hopen : cell ∈ store.entered v path
          · rw [if_pos (List.contains_iff_mem.mpr hopen)]
            exact h.again path w cell hat hcontainer (isOpen_iff_mem_entered.mpr hopen)
          · rw [if_neg fun hcontains => hopen (List.contains_iff_mem.mp hcontains)]
            rw [h.elements path w cell hat hcontainer
              (mt isOpen_iff_mem_entered.mp hopen)]
            rw [map_range_eq_map_elements]
            intro i x hx
            have hless := unopened_cons_lt hopen
              (Array.mem_toList_iff.mpr (Array.mem_of_getElem? hx))
            rw [← entered_cons hat hcontainer i] at hless ⊢
            exact ih (by omega) ((at?_cons hat hcontainer i).trans hx)

end Inside

/-- Every occurrence inside of a value has a text. -/
theorem exists_showsInside (store : Store) (v : Value) :
    ∃ text, store.ShowsInside v text := by
  let shown (opened : List Nat) (w : Value) : String :=
    store.renderFrom (store.items.size + 1) opened w
  have hshown : ∀ opened w, store.Renders opened w (shown opened w) :=
    fun opened w => renders_renderFrom (Nat.lt_succ_of_le (store.unopened_le opened)) w
  let text (path : List Nat) : String :=
    ((store.at? v path).map (shown (store.entered v path))).getD ""
  have htext {path : List Nat} {w : Value} (hat : store.at? v path = some w) :
      text path = shown (store.entered v path) w := by
    simp [text, hat]
  refine ⟨text, ?_, ?_, ?_⟩
  · intro path w hat hplain
    exact (htext hat).trans ((hshown _ w).unique (.simple hplain))
  · intro path w cell hat hcontainer hopen
    exact (htext hat).trans
      ((hshown _ w).unique (.again hcontainer (isOpen_iff_mem_entered.mp hopen)))
  · intro path w cell hat hcontainer hnew
    have hinside : ∀ i x, (store.elements cell)[i]? = some x →
        text (i :: path) = shown (cell :: store.entered v path) x := by
      intro i x hx
      rw [htext ((at?_cons hat hcontainer i).trans hx), entered_cons hat hcontainer]
    rw [map_range_eq_map_elements hinside, htext hat]
    exact (hshown _ w).unique
      (.elements _ hcontainer (mt isOpen_iff_mem_entered.mpr hnew) fun x _ => hshown _ x)

/-! ## Containers that do not contain themselves -/

/-- The text of a value by its elements alone. -/
inductive PlainText (store : Store) : Value → String → Prop
  | simple {v : Value} (plain : container? v = none) :
      PlainText store v (store.renderSimple v)
  | elements {v : Value} {cell : Nat} (text : Value → String)
      (container : container? v = some cell)
      (inside : ∀ x ∈ (store.elements cell).toList, PlainText store x (text x)) :
      PlainText store v
        ("[" ++ ", ".intercalate ((store.elements cell).toList.map text) ++ "]")

/-- The second container is an element of the first. -/
def Holds (store : Store) (cell other : Nat) : Prop :=
  ∃ x ∈ (store.elements cell).toList, container? x = some other

/-- The container is the value, or stands inside of it. -/
def Reaches (store : Store) (v : Value) (cell : Nat) : Prop :=
  ∃ root, container? v = some root ∧ Relation.ReflTransGen store.Holds root cell

/-- No container that the value reaches contains itself, directly or further inside. -/
def Acyclic (store : Store) (v : Value) : Prop :=
  ∀ cell, store.Reaches v cell → ¬ Relation.TransGen store.Holds cell cell

section Acyclic

variable {v x : Value} {cell other : Nat}

theorem Reaches.of_element (hcontainer : container? v = some cell)
    (hx : x ∈ (store.elements cell).toList) (h : store.Reaches x other) :
    store.Reaches v other := by
  obtain ⟨root, hroot, hinside⟩ := h
  exact ⟨cell, hcontainer, .head ⟨x, hx, hroot⟩ hinside⟩

theorem Acyclic.element (h : store.Acyclic v) (hcontainer : container? v = some cell)
    (hx : x ∈ (store.elements cell).toList) : store.Acyclic x :=
  fun _ hreaches => h _ (hreaches.of_element hcontainer hx)

theorem Acyclic.not_reaches (h : store.Acyclic v) (hcontainer : container? v = some cell)
    (hx : x ∈ (store.elements cell).toList) : ¬ store.Reaches x cell := by
  rintro ⟨root, hroot, hinside⟩
  exact h cell ⟨cell, hcontainer, .refl⟩ (.head' ⟨x, hx, hroot⟩ hinside)

/-- As long as nothing that is open can be reached, the rules do not come upon an open
container. -/
theorem Acyclic.plainText_of_renders {opened : List Nat} {t : String}
    (h : store.Acyclic v) (hopened : ∀ c ∈ opened, ¬ store.Reaches v c)
    (hrenders : store.Renders opened v t) : store.PlainText v t := by
  induction hrenders with
  | simple hplain => exact .simple hplain
  | again hcontainer hopen => exact absurd ⟨_, hcontainer, .refl⟩ (hopened _ hopen)
  | elements text hcontainer hnew _ ih =>
      refine .elements text hcontainer fun x hx => ih x hx (h.element hcontainer hx) ?_
      intro c hc
      rcases List.mem_cons.mp hc with rfl | hold
      · exact h.not_reaches hcontainer hx
      · exact fun hreaches => hopened c hold (hreaches.of_element hcontainer hx)

theorem PlainText.acyclic {t : String} (h : store.PlainText v t) : store.Acyclic v := by
  induction h with
  | simple hplain =>
      rintro cell ⟨root, hroot, -⟩
      cases hplain.symm.trans hroot
  | @elements v cell text hcontainer _ ih =>
      have hinside : ∀ other root, store.Holds cell root →
          Relation.ReflTransGen store.Holds root other →
          ¬ Relation.TransGen store.Holds other other := by
        rintro other root ⟨x, hx, hroot⟩ hreaches
        exact ih x hx other ⟨root, hroot, hreaches⟩
      rintro other ⟨root, hroot, hreaches⟩ hcycle
      cases hcontainer.symm.trans hroot
      rcases hreaches.cases_head with rfl | ⟨next, hnext, hlater⟩
      · obtain ⟨next, hnext, hback⟩ := Relation.TransGen.head'_iff.mp hcycle
        exact hinside _ next hnext hback hcycle
      · exact hinside other next hnext hlater hcycle

theorem PlainText.unique {t t' : String} (h : store.PlainText v t)
    (h' : store.PlainText v t') : t = t' := by
  induction h generalizing t' with
  | simple hplain =>
      cases h' with
      | simple => rfl
      | elements _ hcontainer => cases hplain.symm.trans hcontainer
  | elements text hcontainer _ ih =>
      cases h' with
      | simple hplain => cases hplain.symm.trans hcontainer
      | elements text' hcontainer' hinside' =>
          cases hcontainer.symm.trans hcontainer'
          rw [List.map_congr_left fun x hx => ih x hx (hinside' x hx)]

end Acyclic

/-- The text by elements alone exists just when nothing contains itself, and then it is
the one that is shown. -/
theorem plainText_iff {v : Value} {t : String} :
    store.PlainText v t ↔ store.Acyclic v ∧ t = store.render v := by
  constructor
  · intro h
    have hrendered := h.acyclic.plainText_of_renders (List.forall_mem_nil _)
      (store.renders_render v)
    exact ⟨h.acyclic, h.unique hrendered⟩
  · rintro ⟨hacyclic, rfl⟩
    exact hacyclic.plainText_of_renders (List.forall_mem_nil _) (store.renders_render v)

/-- Every value has one text by the rules, and it is the one that is shown. In it, each
occurrence shows its elements in order unless its container is open there. A text by
elements alone exists just when no container that the value reaches contains itself,
however often others are shared, and is then the same. -/
theorem render_marks_only_open_containers (store : Store) (v : Value) :
    (∀ t, store.Renders [] v t ↔ t = store.render v) ∧
    (∃ text, store.ShowsInside v text) ∧
    (∀ text, store.ShowsInside v text → text [] = store.render v) ∧
    (∀ t, store.PlainText v t ↔ store.Acyclic v ∧ t = store.render v) := by
  refine ⟨fun t => renders_iff, store.exists_showsInside v, fun text htext =>
    ?_, fun t => plainText_iff⟩
  exact htext.eq_renderFrom (Nat.lt_succ_of_le (store.unopened_le [])) rfl

/-- A list that holds an empty list twice and itself once. -/
example :
    render { Store.empty with items := ⟨#[#[.list 1, .list 1, .list 0], #[]]⟩ }
      (.list 0) = "[[], [], [...]]" := by
  decide

end HandleScript.Store
