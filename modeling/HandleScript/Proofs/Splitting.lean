import HandleScript.Proofs.Atomicity
import HandleScript.Proofs.IndexedAccess
import Mathlib.Data.List.Forall2

/-!
# Splitting texts

A text is cut at the leftmost occurrence of a separator, and what follows is cut again.
The loop that does this holds the characters since the last cut, at none of which the
separator starts. So the parts joined by the separator are the text again, and the
separator is in none of them. The parts become a new list of new texts.
-/

namespace HandleScript

namespace Text

/-- The parts of a text between the occurrences of a separator, each of which is the
leftmost one after the one before. -/
inductive Splits (separator : List Char) : List Char → List (List Char) → Prop
  | last {text : List Char} (free : ¬separator <:+: text) : Splits separator text [text]
  | cut {part rest : List Char} {parts : List (List Char)}
      (leftmost : ∀ skipped, skipped ++ separator <+: part ++ separator ++ rest →
        part.length ≤ skipped.length)
      (h : Splits separator rest parts) : Splits separator
        (part ++ separator ++ rest) (part :: parts)

/-- The parts are what a separator divides a text into. -/
structure SplitsInto (text separator : String) (parts : List String) : Prop where
  nonempty : parts ≠ []
  joined : separator.intercalate parts = text
  free : ∀ part ∈ parts, ¬separator.toList <:+: part.toList
  /-- In what the separators before it leave, no occurrence starts before the one that
  ends a part. -/
  leftmost : ∀ before part next after, parts = before ++ part :: next :: after →
    ∀ skipped, skipped ++ separator.toList <+:
        (separator.intercalate (part :: next :: after)).toList →
      part.length ≤ skipped.length

/-! ## The loop -/

theorem afterSeparator?_eq_some_iff {separator cs rest : List Char} :
    afterSeparator? separator cs = some rest ↔ cs = separator ++ rest := by
  fun_induction afterSeparator? separator cs with
  | case1 cs => simp
  | case2 => simp
  | case3 separator c cs ih => simp [ih]
  | case4 s separator c cs hne => simp [Ne.symm hne]

/-- Where the separator does not start at the first of the remaining characters either,
the loop goes on with that character. -/
theorem length_lt_of_not_prefix {separator front rest : List Char} {c : Char}
    (hleftmost : ∀ skipped, skipped ++ separator <+: front ++ c :: rest →
      front.length ≤ skipped.length)
    (hnot : ¬separator <+: c :: rest) {skipped : List Char}
    (h : skipped ++ separator <+: front ++ c :: rest) :
    front.length < skipped.length := by
  refine Nat.lt_of_le_of_ne (hleftmost skipped h) fun hlength => hnot ?_
  obtain ⟨after, hafter⟩ := h
  rw [List.append_assoc] at hafter
  obtain ⟨-, hrest⟩ := List.append_inj hafter hlength.symm
  exact ⟨after, hrest⟩

/-- No occurrence of the separator starts at the characters since the last cut. -/
theorem splits_splitFrom {separator : List Char} (hne : separator ≠ []) (fuel : Nat)
    (piece cs : List Char) (hfuel : cs.length < fuel)
    (hleftmost : ∀ skipped, skipped ++ separator <+: piece.reverse ++ cs →
      piece.reverse.length ≤ skipped.length) :
    Splits separator (piece.reverse ++ cs) (splitFrom separator fuel piece cs) := by
  induction fuel generalizing piece cs with
  | zero => exact absurd hfuel (Nat.not_lt_zero _)
  | succ fuel ih =>
      unfold splitFrom
      split
      next rest hafter =>
        -- A cut: the loop starts anew behind the separator, where nothing has been
        -- skipped yet.
        obtain rfl := afterSeparator?_eq_some_iff.mp hafter
        have hpos := List.length_pos_iff.mpr hne
        rw [List.length_append] at hfuel
        rw [← List.append_assoc] at hleftmost ⊢
        exact .cut hleftmost (ih [] rest (by omega) fun skipped _ => Nat.zero_le _)
      next hafter =>
        have hnot : ¬separator <+: cs := by
          rintro ⟨rest, hrest⟩
          rw [afterSeparator?_eq_some_iff.mpr hrest.symm] at hafter
          cases hafter
        split
        · rw [List.append_nil] at hleftmost ⊢
          refine .last ?_
          rintro ⟨skipped, after, hinside⟩
          have hle := hleftmost skipped ⟨after, hinside⟩
          have hpos := List.length_pos_iff.mpr hne
          have hlength := congrArg List.length hinside
          rw [List.length_append, List.length_append] at hlength
          omega
        next c cs =>
          have hnext : (c :: piece).reverse ++ cs = piece.reverse ++ c :: cs := by simp
          rw [← hnext]
          refine ih (c :: piece) cs (Nat.lt_of_succ_lt_succ hfuel)
            fun skipped hskipped => ?_
          rw [hnext] at hskipped
          rw [List.reverse_cons, List.length_append, List.length_singleton]
          exact length_lt_of_not_prefix hleftmost hnot hskipped

/-! ## The parts -/

section Parts

variable {separator text : List Char} {parts : List (List Char)}

theorem Splits.ne_nil (h : Splits separator text parts) : parts ≠ [] := by
  cases h <;> exact List.cons_ne_nil _ _

theorem Splits.intercalate_eq (h : Splits separator text parts) :
    separator.intercalate parts = text := by
  induction h with
  | last => exact List.intercalate_singleton
  | cut _ h ih => rw [List.intercalate_cons_of_ne_nil h.ne_nil, ih]

theorem Splits.not_infix (hne : separator ≠ []) (h : Splits separator text parts) :
    ∀ part ∈ parts, ¬separator <:+: part := by
  induction h with
  | last free => simpa using free
  | @cut part rest parts leftmost _ ih =>
      refine List.forall_mem_cons.mpr ⟨?_, ih⟩
      -- An occurrence inside of the part would start before the one at which the part
      -- ends.
      rintro ⟨skipped, after, rfl⟩
      have hpos := List.length_pos_iff.mpr hne
      have hle := leftmost skipped ⟨after ++ (separator ++ rest), by simp⟩
      rw [List.length_append, List.length_append] at hle
      omega

theorem Splits.length_le (h : Splits separator text parts)
    {before after : List (List Char)} {part next : List Char}
    (hparts : parts = before ++ part :: next :: after) {skipped : List Char}
    (hskipped : skipped ++ separator <+: separator.intercalate (part :: next :: after)) :
    part.length ≤ skipped.length := by
  induction h generalizing before with
  | last =>
      have hlength := congrArg List.length hparts
      simp only [List.length_append, List.length_cons, List.length_nil] at hlength
      omega
  | @cut first rest parts leftmost h ih =>
      rcases before with _ | ⟨b, before⟩
      · obtain ⟨rfl, rfl⟩ := List.cons.inj hparts
        rw [List.intercalate_cons_cons, h.intercalate_eq] at hskipped
        exact leftmost skipped hskipped
      · exact ih (List.cons.inj hparts).2

end Parts

theorem splitsInto_split {text separator : String} (hne : separator ≠ "") :
    SplitsInto text separator (split text separator) := by
  have hlist : separator.toList ≠ [] := by simpa using hne
  have hsplits := splits_splitFrom hlist (text.length + 1)
      [] text.toList (Nat.lt_succ_self _)
    fun skipped _ => Nat.zero_le _
  have hparts : (split text separator).map String.toList =
      splitFrom separator.toList (text.length + 1) [] text.toList := by
    simp [split, hne, Function.comp_def]
  rw [← hparts, List.reverse_nil, List.nil_append] at hsplits
  constructor
  · intro hempty
    rw [hempty] at hsplits
    exact hsplits.ne_nil rfl
  · rw [← String.toList_inj, String.toList_intercalate, hsplits.intercalate_eq]
  · intro part hpart
    exact hsplits.not_infix hlist _ (List.mem_map_of_mem hpart)
  · intro before part next after hsplit skipped hskipped
    rw [String.toList_intercalate] at hskipped
    exact hsplits.length_le (by rw [hsplit, List.map_append]; rfl) hskipped

end Text

/-! ## New lists of new texts -/

/-- A new list has the handles of new texts as its elements, one for each part, and
nothing else changes. -/
structure State.MakesTexts (s : State) (parts : List String) (list : Nat)
    (cells : List Nat) (s' : State) : Prop where
  new : s.item? ⟨.items, list⟩ = none
  elements : s'.item? ⟨.items, list⟩ = some (.items (cells.map .text).toArray)
  distinct : cells.Nodup
  texts : List.Forall₂ (fun cell part => s.item? ⟨.text, cell⟩ = none ∧
      s'.item? ⟨.text, cell⟩ = some (.text part))
    cells parts
  kept : ∀ loc, (s.item? loc).isSome → s'.item? loc = s.item? loc
  others : s' = { s with store := s'.store }

theorem State.makesTexts_commit (s : State) (parts : List String) :
    s.MakesTexts parts s.store.items.size (List.range' s.store.texts.size parts.length)
      { s with store := (s.store.commit (.freshTexts parts)).2 } where
  new := s.store.item?_next .items
  elements := by
    have hlist := s.store.items.getElem?_push
      (s.store.nextTexts parts.length).toArray s.store.items.size
    rw [if_pos rfl] at hlist
    rw [Store.commit_freshTexts]
    exact congrArg (Option.map Item.items) hlist
  distinct := List.nodup_range'
  texts := by
    refine List.forall₂_iff_get.mpr ⟨List.length_range', fun i hcell hpart => ?_⟩
    rw [Store.commit_freshTexts]
    simp [State.item?, Store.item?, Store.withTexts, Pool.size, hpart]
  kept := by
    intro loc hthere
    have harises : Arises s.store .void [] (.eager (.text .split)) (.texts parts)
      (.freshTexts parts) := .texts parts rfl
    by_cases hscope : loc.region = .scope
    · simp only [State.item?, hscope]
    · rw [State.item?_of_ne_scope _ hscope] at hthere
      rw [State.item?_of_ne_scope _ hscope, State.item?_of_ne_scope _ hscope]
      exact harises.item?_commit hthere fun _ => rfl
  others := rfl

theorem State.texts_get {s : State} {cell : Nat} {text : String}
    (h : s.item? ⟨.text, cell⟩ = some (.text text)) : s.store.texts.get cell = text :=
  Pool.get_of_map_eq_some Item.text.inj h

namespace State.MakesTexts

variable {s s' : State} {parts : List String} {list : Nat} {cells : List Nat}

theorem elements_eq (h : s.MakesTexts parts list cells s') :
    s'.store.elements list = (cells.map .text).toArray :=
  Pool.get_of_map_eq_some Item.items.inj h.elements

theorem lengthOf_eq (h : s.MakesTexts parts list cells s') :
    s'.store.lengthOf (.list list) = parts.length := by
  simp only [Store.lengthOf, h.elements_eq, List.size_toArray, List.length_map]
  exact h.texts.length_eq

/-- What the list holds at an index is the text of the part at that index. -/
theorem exists_cell (h : s.MakesTexts parts list cells s') {before after : List Value}
    {x : Value} {part : String}
    (hcontents : (s'.store.elements list).toList = before ++ x :: after)
    (hpart : parts[before.length]? = some part) :
    ∃ cell, x = .text cell ∧ s'.item? ⟨.text, cell⟩ = some (.text part) := by
  rw [h.elements_eq] at hcontents
  obtain ⟨front, back, hcells, rfl, hback⟩ := List.map_eq_append_iff.mp hcontents
  obtain ⟨cell, rest, rfl, rfl, -⟩ := List.map_eq_cons_iff.mp hback
  rw [List.length_map] at hpart
  obtain ⟨hlt, rfl⟩ := List.getElem?_eq_some_iff.mp hpart
  have htext := h.texts.get (by simp [hcells]) hlt
  simp only [hcells, List.get_eq_getElem, List.getElem_append_right (Nat.le_refl _),
    Nat.sub_self, List.getElem_cons_zero] at htext
  exact ⟨cell, rfl, htext.2⟩

end State.MakesTexts

/-! ## The method -/

/-- Up to a length, two values have equal values at an index; any other index they refuse
alike. -/
structure ReadsAlike (host : Host) (fuel scope : Nat) (s : State) (length : Nat)
    (v w i : Value) : Prop where
  within : ∀ n, s.store.int? i = some n → 0 ≤ n.toInt ∧ n.toInt < length →
    ∃ x y s', dispatch host (fuel + 3) scope v "get" (.ready [i]) s = .done x s ∧
      dispatch host (fuel + 3) scope w "get" (.ready [i]) s = .done y s' ∧
        s'.store.scriptEq x y = true
  outside : (¬∃ n, s.store.int? i = some n ∧ 0 ≤ n.toInt ∧ n.toInt < length) →
    ∃ failure, dispatch host (fuel + 3) scope v "get" (.ready [i]) s = .failed failure s ∧
      dispatch host (fuel + 3) scope w "get" (.ready [i]) s = .failed failure s

section Method

variable (host : Host) (fuel scope : Nat) {s s' : State} {a b list : Nat}
  {text separator : String} {cells : List Nat}

theorem dispatch_split (ha : s.item? ⟨.text, a⟩ = some (.text text))
    (hb : s.item? ⟨.text, b⟩ = some (.text separator)) :
    ∃ list cells s', dispatch host (fuel + 3) scope (.text a) "split"
        (.ready [.text b]) s = .done (.list list) s' ∧
      s.MakesTexts (Text.split text separator) list cells s' := by
  have hfound : (Value.text a).kind.operation? "split" = some (.text .split) := rfl
  have hplan : (EagerOp.text .split).plan host.files s.store (.text a) "split" [.text b] =
      .ok (.freshTexts (Text.split text separator)) := by
    rw [← State.texts_get ha, ← State.texts_get hb]
    rfl
  refine ⟨_, _, _, ?_, s.makesTexts_commit (Text.split text separator)⟩
  rw [dispatch_of_eager hfound rfl, Run.carryOut, hplan]
  simp only [Store.commit_freshTexts, Effect.fits, if_true]

theorem dispatch_size_text (ha : s.item? ⟨.text, a⟩ = some (.text text)) :
    dispatch host (fuel + 3) scope (.text a) "size" (.ready []) s = Run.alloc
      (countContent text.length) s := by
  have hfound : (Value.text a).kind.operation? "size" = some (.text .size) := rfl
  rw [dispatch_of_eager hfound rfl, ← State.texts_get ha]
  exact Run.carryOut_fresh rfl

theorem dispatch_size_list (s : State) (list : Nat) :
    dispatch host (fuel + 3) scope (.list list) "size" (.ready []) s =
      Run.alloc (countContent (s.store.elements list).size) s := by
  have hfound : (Value.list list).kind.operation? "size" = some (.sequence .size) := rfl
  rw [dispatch_of_eager hfound rfl]
  exact Run.carryOut_fresh rfl

/-- A new text equals an old one with the same characters. -/
theorem scriptEq_of_writes {cell : Nat} {t : String}
    (hcell : s.item? ⟨.text, cell⟩ = some (.text t))
    (h : s.Writes (s.store.next .text) (.text t) s') :
    s'.store.scriptEq (.text cell) (.text s.store.texts.size) = true := by
  have hne : (⟨.text, cell⟩ : Loc) ≠ s.store.next .text := by
    intro heq
    have hnone : s.item? ⟨.text, cell⟩ = none := heq ▸ s.store.item?_next .text
    cases hcell.symm.trans hnone
  have hold : s'.item? ⟨.text, cell⟩ = some (.text t) := (h.item?_of_ne hne).trans hcell
  have hnew : s'.item? ⟨.text, s.store.texts.size⟩ = some (.text t) :=
    (h.item? _).trans (if_pos rfl)
  rw [Store.scriptEq, State.texts_get hold, State.texts_get hnew]
  exact beq_self_eq_true t

/-- The list of the characters of a text is read as the text is. -/
theorem readsAlike_characters (ha : s'.item? ⟨.text, a⟩ = some (.text text))
    (h : s.MakesTexts (text.toList.map String.singleton) list cells s') (i : Value) :
    ReadsAlike host fuel scope s' text.length (.list list) (.text a) i := by
  have hfound : (Value.list list).kind.operation? "get" = some (.sequence .get) := rfl
  obtain ⟨op, effect, hlist⟩ := plansAt_get host.files s' i hfound rfl
  obtain ⟨op', effect', htext⟩ := plansAt_get_text host.files s' i a
  have hlistLength : s'.store.lengthOf (.list list) = text.length := by
    rw [h.lengthOf_eq, List.length_map]
    rfl
  have htextLength : s'.store.lengthOf (.text a) = text.length := by
    rw [Store.lengthOf, State.texts_get ha]
  constructor
  · intro n hn hbounds
    obtain ⟨x, t, hx, hreads⟩ := hlist.exists_done hn (hlistLength ▸ hbounds) fuel scope
    obtain ⟨y, s'', hy, hmakes⟩ := htext.exists_done hn (htextLength ▸ hbounds) fuel scope
    cases hreads with
    | @element _ _ _ _ before _ hcontainer hcontents hplace =>
        cases hcontainer
        cases hmakes with
        | @character _ _ _ _ c _ _ hchars hfront hmade =>
            obtain ⟨rfl, hwrites⟩ := hmade
            have hpart : (text.toList.map String.singleton)[before.length]? =
                some (String.singleton c) := by
              rw [State.texts_get ha] at hchars
              rw [hplace, ← hfront, hchars]
              simp
            obtain ⟨cell, rfl, hcell⟩ := h.exists_cell hcontents hpart
            exact ⟨_, _, s'', hx, hy, scriptEq_of_writes hcell hwrites⟩
        | element hnone => cases hnone
  · intro hout
    cases hindex : indexOf s'.store i text.length with
    | ok index =>
        obtain ⟨n, hn, hbounds, -⟩ := exists_int_of_indexOf hindex
        exact absurd ⟨n, hn, hbounds⟩ hout
    | error cause =>
        refine ⟨⟨cause, none⟩, hlist.dispatch_of_error ?_ fuel scope,
          htext.dispatch_of_error ?_ fuel scope⟩
        · rw [hlistLength, hindex]
        · rw [htextLength, hindex]

end Method

/-- Splitting a text by another one makes a new list of new texts. Joined by the separator
they are the text again; the separator is in none of them, and each cut is made at its
leftmost occurrence after the cut before. An empty separator leaves the single characters,
so that the list has the size of the text and equal elements. -/
theorem split_inverts_join
    (host : Host) (fuel scope : Nat) (s : State) {a b : Nat} {text separator : String}
    (ha : s.item? ⟨.text, a⟩ = some (.text text))
    (hb : s.item? ⟨.text, b⟩ = some (.text separator)) :
    let parts := Text.split text separator
    ∃ list cells s',
      dispatch host (fuel + 3) scope (.text a) "split" (.ready [.text b])
        s = .done (.list list) s' ∧
      s.MakesTexts parts list cells s' ∧
      (separator ≠ "" → Text.SplitsInto text separator parts) ∧
      (separator = "" →
        parts = text.toList.map String.singleton ∧
        (∀ v ∈ [.list list, .text a],
            dispatch host (fuel + 3) scope v "size" (.ready []) s' =
          Run.alloc (.number (.int (Int64.ofNat text.length))) s') ∧
        ∀ i, ReadsAlike host fuel scope s' text.length (.list list) (.text a) i) := by
  obtain ⟨list, cells, s', hsplit, hmakes⟩ := dispatch_split host fuel scope ha hb
  refine ⟨list, cells, s', hsplit, hmakes, Text.splitsInto_split, ?_⟩
  rintro rfl
  have hcharacters : Text.split text "" = text.toList.map String.singleton := rfl
  rw [hcharacters] at hmakes
  have hkept := (hmakes.kept ⟨.text, a⟩ (by rw [ha]; rfl)).trans ha
  refine ⟨hcharacters, ?_, readsAlike_characters host fuel scope hkept hmakes⟩
  intro v hv
  simp only [List.mem_cons, List.not_mem_nil, or_false] at hv
  rcases hv with rfl | rfl
  · have hsize := hmakes.lengthOf_eq
    rw [Store.lengthOf, List.length_map] at hsize
    rw [dispatch_size_list, hsize]
    rfl
  · exact dispatch_size_text host fuel scope hkept

/-- Of separators that overlap, the leftmost one is taken; those at the two ends leave
empty parts. -/
theorem split_inverts_join_overlapping :
    let s : State := { State.initial (.ofLines [] none) with
      store := { Store.empty with texts := ⟨#["ééébéé", "éé", ""]⟩ } }
    (∃ list cells s',
      dispatch ⟨0, .empty, .asBound⟩ 3 globalScope (.text 0) "split"
        (.ready [.text 1]) s = .done (.list list) s' ∧
      s.MakesTexts ["", "éb", ""] list cells s') ∧
    Text.SplitsInto "ééébéé" "éé" ["", "éb", ""] ∧
    ∃ list s',
      dispatch ⟨0, .empty, .asBound⟩ 3 globalScope (.text 0) "split"
        (.ready [.text 2]) s = .done (.list list) s' ∧
      dispatch ⟨0, .empty, .asBound⟩ 3 globalScope (.list list) "size" (.ready []) s' =
        Run.alloc (.number (.int 6)) s' := by
  intro s
  have htext : s.item? ⟨.text, 0⟩ = some (.text "ééébéé") := rfl
  have hparts : Text.split "ééébéé" "éé" = ["", "éb", ""] := by decide
  obtain ⟨list, cells, s', hsplit, hmakes, hinto, -⟩ :=
    split_inverts_join ⟨0, .empty, .asBound⟩ 0 globalScope s htext
      (show s.item? ⟨.text, 1⟩ = some (.text "éé") from rfl)
  obtain ⟨letters, _, s'', hletters, -, -, hcharacters⟩ :=
    split_inverts_join ⟨0, .empty, .asBound⟩ 0 globalScope s htext
      (show s.item? ⟨.text, 2⟩ = some (.text "") from rfl)
  rw [hparts] at hmakes hinto
  refine ⟨⟨list, cells, s', hsplit, hmakes⟩, hinto (by decide),
    letters, s'', hletters, ?_⟩
  exact (hcharacters rfl).2.1 (.list letters) List.mem_cons_self

end HandleScript
