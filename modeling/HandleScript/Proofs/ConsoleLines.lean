import HandleScript.Proofs.Arguments
import Mathlib.Data.List.DropRight

/-!
# Lines of the console and of files

The console gives the lines of a text as `readLines` gives those of a file, but without
any carriage returns at their ends: a file keeps those that are not part of a line's end.
It makes no difference that the console gets bytes, for in a text's bytes a newline stands
only for itself.
-/

namespace HandleScript

/-! ## The lines of a text -/

namespace Text

/-- A text without the carriage returns at its end. -/
def trimReturns (line : String) : String :=
  String.ofList (line.toList.rdropWhile (· = '\r'))

theorem trimReturns_eq_self_iff {line : String} :
    trimReturns line = line ↔ line.toList.getLast? ≠ some '\r' := by
  have hlist : trimReturns line = line ↔
      line.toList.rdropWhile (· = '\r') = line.toList := by
    rw [trimReturns, ← String.toList_inj, String.toList_ofList]
  rw [hlist, List.rdropWhile_eq_self_iff]
  rcases List.eq_nil_or_concat line.toList with hline | ⟨front, c, hline⟩
  · simp [hline]
  · simp [hline]

/-- A raw line has no newline but the one that may end it. -/
theorem exists_of_mem_cutAfter {α : Type} [DecidableEq α] {mark : α}
    {piece as line : List α} (hpiece : mark ∉ piece) (h : line ∈ cutAfter mark piece as) :
    ∃ body, mark ∉ body ∧ (line = body ∨ line = body ++ [mark]) := by
  induction as generalizing piece with
  | nil =>
      rw [cutAfter] at h
      split at h
      · cases h
      · rw [List.mem_singleton] at h
        exact ⟨piece.reverse, by simpa using hpiece, .inl h⟩
  | cons a as ih =>
      rw [cutAfter] at h
      split at h
      next heq =>
        rcases List.mem_cons.mp h with hline | hlater
        · exact ⟨piece.reverse, by
            simpa using hpiece, .inr (by rw [hline, List.reverse_cons, heq])⟩
        · exact ih (by simp) hlater
      next hne => exact ih (by simpa [Ne.symm hne] using hpiece) h

theorem dropWhile_ends {body : List Char} (h : '\n' ∉ body) :
    body.dropWhile (fun c => c = '\n' || c = '\r') = body.dropWhile (· = '\r') := by
  induction body with
  | nil => rfl
  | cons c rest ih =>
      rw [List.mem_cons, not_or] at h
      simp only [List.dropWhile_cons, Ne.symm h.1, decide_false, Bool.false_or, ih h.2]

theorem fileLine_of_notMem {body : List Char} (h : '\n' ∉ body) :
    fileLine body = body := by
  have hreverse : '\n' ∉ body.reverse := by simpa using h
  unfold fileLine
  split
  next heq => simp [heq] at hreverse
  next heq => simp [heq] at hreverse
  next => rfl

theorem rdropWhile_fileLine (body : List Char) :
    (fileLine (body ++ ['\n'])).rdropWhile (· = '\r') = body.rdropWhile (· = '\r') := by
  rw [fileLine, List.reverse_append, List.reverse_singleton, List.singleton_append]
  split
  next rest heq =>
    have hbody : body = rest.reverse ++ ['\r'] := by
      rw [← List.reverse_cons, ← (List.cons.inj heq).2, List.reverse_reverse]
    rw [hbody, List.rdropWhile_concat_pos _ _ _ (by simp)]
  next rest _ heq => rw [← (List.cons.inj heq).2, List.reverse_reverse]
  next hnone => exact absurd rfl (hnone _)

/-- The console takes all carriage returns from the end of a line, a file at most one that
stands before a newline. -/
theorem consoleLine_eq_rdropWhile {cs line : List Char} (h : line ∈ rawLines cs) :
    consoleLine line = (fileLine line).rdropWhile (· = '\r') := by
  obtain ⟨body, hbody, rfl | rfl⟩ := exists_of_mem_cutAfter (List.not_mem_nil) h
  · rw [fileLine_of_notMem hbody, consoleLine, dropWhile_ends (by simpa using hbody),
      List.rdropWhile]
  · rw [rdropWhile_fileLine, consoleLine, List.reverse_append, List.reverse_singleton,
      List.singleton_append, List.dropWhile_cons_of_pos (by simp),
      dropWhile_ends (by simpa using hbody), List.rdropWhile]

/-- The lines that the console gives of a text. -/
def consoleLines (s : String) : List String :=
  (rawLines s.toList).map fun line => String.ofList (consoleLine line)

theorem consoleLines_eq_map (s : String) :
    consoleLines s = (fileLines s).map trimReturns := by
  rw [consoleLines, fileLines, List.map_map]
  refine List.map_congr_left fun line hline => ?_
  rw [Function.comp_apply, trimReturns, String.toList_ofList,
    consoleLine_eq_rdropWhile hline]

end Text

/-! ## The bytes of a text -/

namespace Console

theorem toList_loop (bytes : ByteArray) (i : Nat) (done : List UInt8) :
    ByteArray.toList.loop bytes i done = done.reverse ++ bytes.data.toList.drop i := by
  fun_induction ByteArray.toList.loop bytes i done with
  | case1 i done hlt ih =>
      have hdrop : bytes.data.toList.drop i = bytes.get! i ::
          bytes.data.toList.drop (i + 1) := by
        rw [List.drop_eq_getElem_cons (by simpa using hlt)]
        congr 1
        simp [ByteArray.get!, hlt]
      rw [ih, hdrop, List.reverse_cons, List.append_assoc, List.singleton_append]
  | case2 i done hge =>
      rw [List.drop_of_length_le (by simpa using Nat.le_of_not_lt hge), List.append_nil]

theorem toList_eq (bytes : ByteArray) : bytes.toList = bytes.data.toList :=
  toList_loop bytes 0 []

/-- A byte of a character is a newline only if the character is one. -/
theorem newline_notMem_utf8EncodeChar {c : Char} (h : c ≠ '\n') :
    (10 : UInt8) ∉ String.utf8EncodeChar c := by
  have hval : c.val.toNat ≠ 10 := fun hten => h (Char.ext (UInt32.toNat_inj.mp hten))
  have hbyte (n : Nat) (hn : n < 256) (hne : n ≠ 10) : (10 : UInt8) ≠ UInt8.ofNat n := by
    intro heq
    have hnat : 10 = n % 256 := congrArg UInt8.toNat heq
    omega
  fun_cases String.utf8EncodeChar c with
  | case1 v hle => exact fun hmem => hbyte v (by omega) hval (List.mem_singleton.mp hmem)
  | case2 v =>
      simp only [List.mem_cons, List.not_mem_nil, or_false, not_or]
      exact ⟨hbyte _ (by omega) (by omega), hbyte _ (by omega) (by omega)⟩
  | case3 v =>
      simp only [List.mem_cons, List.not_mem_nil, or_false, not_or]
      exact ⟨hbyte _ (by omega) (by omega), hbyte _ (by omega) (by omega),
        hbyte _ (by omega) (by omega)⟩
  | case4 v =>
      simp only [List.mem_cons, List.not_mem_nil, or_false, not_or]
      exact ⟨hbyte _ (by omega) (by omega), hbyte _ (by omega) (by omega),
          hbyte _ (by omega) (by omega),
        hbyte _ (by omega) (by omega)⟩

theorem cutAfter_append {α : Type} [DecidableEq α] {mark : α} {bs : List α}
    (h : mark ∉ bs) (piece as : List α) :
    Text.cutAfter mark piece (bs ++ as) = Text.cutAfter mark
      (bs.reverse ++ piece) as := by
  induction bs generalizing piece with
  | nil => rfl
  | cons b bs ih =>
      rw [List.mem_cons, not_or] at h
      rw [List.cons_append, Text.cutAfter, if_neg (Ne.symm h.1), ih h.2,
        List.reverse_cons, List.append_assoc, List.singleton_append]

/-- Cutting the bytes of a text gives the bytes of its lines. -/
theorem cutAfter_utf8 (piece cs : List Char) :
    Text.cutAfter 10 (piece.reverse.flatMap String.utf8EncodeChar).reverse
        (cs.flatMap String.utf8EncodeChar) =
      (Text.cutAfter '\n' piece cs).map (·.flatMap String.utf8EncodeChar) := by
  induction cs generalizing piece with
  | nil =>
      cases piece with
      | nil => rfl
      | cons c piece => simp [Text.cutAfter, String.utf8EncodeChar_ne_nil]
  | cons c cs ih =>
      rw [List.flatMap_cons, Text.cutAfter]
      split
      next heq =>
        have hbytes : String.utf8EncodeChar c = [10] := by rw [heq]; decide
        have hnext := ih []
        rw [List.reverse_nil, List.flatMap_nil, List.reverse_nil] at hnext
        rw [hbytes, List.singleton_append, Text.cutAfter,
          if_pos rfl, hnext, List.map_cons]
        simp [hbytes]
      next hne =>
        rw [cutAfter_append (newline_notMem_utf8EncodeChar hne), ← ih]
        simp

theorem fromUTF8?_utf8Encode (cs : List Char) :
    String.fromUTF8? ⟨(cs.flatMap String.utf8EncodeChar).toArray⟩ =
      some (String.ofList cs) := by
  have hbytes : (⟨(cs.flatMap String.utf8EncodeChar).toArray⟩ : ByteArray) =
      (String.ofList cs).toByteArray := by
    rw [String.toByteArray_ofList, List.utf8Encode]
    ext1
    rw [List.data_toByteArray]
  rw [hbytes, String.fromUTF8?, dif_pos (String.ofList cs).isValidUTF8]
  rfl

/-- Read as bytes, a text has the same lines. -/
theorem linesOfBytes_toUTF8 (s : String) : linesOfBytes s.toUTF8 = linesOfText s := by
  have hbytes : s.toUTF8.toList = s.toList.flatMap String.utf8EncodeChar := by
    rw [toList_eq, String.toUTF8_eq_toByteArray, ← String.utf8Encode_toList,
      List.utf8Encode, List.data_toByteArray]
  have hcut := cutAfter_utf8 [] s.toList
  rw [List.reverse_nil, List.flatMap_nil, List.reverse_nil] at hcut
  rw [linesOfBytes, linesOfText, Text.rawLines, hbytes, hcut, List.map_map]
  refine List.map_congr_left fun line _ => ?_
  rw [Function.comp_apply, fromUTF8?_utf8Encode]
  simp only [String.toList_ofList]

end Console

/-! ## Reading -/

/-- Calls `readln` so many times, and gives what it returned, in order. -/
def readlnTimes (host : Host) (fuel scope : Nat) : (times : Nat) → Run (List Value)
  | 0 => pure []
  | times + 1 => do
    let first ← dispatch host fuel scope .dispatcher "readln" (.ready [])
    let rest ← readlnTimes host fuel scope times
    return first :: rest

section Reading

variable (host : Host) (fuel scope : Nat)

theorem dispatch_readln :
    dispatch host (fuel + 3) scope .dispatcher "readln" (.ready []) = Run.readLine := by
  have hname : Builtin.ofName? "readln" = some .readln := by decide
  rw [dispatch, callNamed_builtin host (fuel + 1) hname, force]
  rfl

theorem readLine_of_nil {s : State} (h : s.console.input = []) :
    Run.readLine s = .done .void s := by
  simp only [Run.readLine, Console.readLine, h]

theorem readLine_of_cons {s : State} {raw : List Char} {rest : List InputLine}
    (h : s.console.input = .text raw :: rest) :
    Run.readLine s =
      .done (.text s.store.texts.size)
        { s with
          store := s.store.withTexts [String.ofList (Text.consoleLine raw)]
          console := { s.console with input := rest } } := by
  simp only [Run.readLine, Console.readLine, h, Run.alloc, Store.alloc_text]

/-- Reading takes lines from the input, and makes a text of each; after the last one it
gives `void`. -/
theorem readlnTimes_eq (n : Nat) {raws : List (List Char)} {s : State}
    (h : s.console.input = raws.map .text) :
    readlnTimes host (fuel + 3) scope n s =
      .done (s.store.nextTexts (raws.take n).length ++ List.replicate
          (n - raws.length) .void)
        { s with
          store := s.store.withTexts
            ((raws.take n).map fun raw => String.ofList (Text.consoleLine raw))
          console := { s.console with input := (raws.drop n).map .text } } := by
  induction n generalizing raws s with
  | zero =>
      simp only [List.take_zero, List.map_nil, Store.withTexts_nil,
        List.drop_zero, ← h, Nat.zero_sub]
      rfl
  | succ n ih =>
      rw [readlnTimes, dispatch_readln]
      cases raws with
      | nil =>
          rw [Computation.bind_of_done (readLine_of_nil h),
            Computation.bind_of_done (ih h)]
          simp [Store.nextTexts, List.replicate_succ]
          rfl
      | cons raw raws =>
          rw [Computation.bind_of_done (readLine_of_cons h),
            Computation.bind_of_done (ih rfl)]
          simp only [List.take_succ_cons, List.map_cons, List.length_cons,
            List.drop_succ_cons, Nat.add_sub_add_right, Store.withTexts_withTexts,
            Store.nextTexts_succ s.store (String.ofList (Text.consoleLine raw)),
            List.cons_append]
          rfl

theorem dispatch_readLines {path text : String} (h : host.files.read path = .ok text)
    (s : State) :
    dispatch host (fuel + 3) scope (.file path) "readLines" (.ready []) s =
      .done (.list s.store.items.size)
        { s with
          store := { s.store.withTexts (Text.fileLines text) with
            items := s.store.items.push
              (s.store.nextTexts (Text.fileLines text).length).toArray } } := by
  have hfound : (Value.file path).kind.operation? "readLines" =
      some (.file .readLines) := by
    change Kind.operation? .file _ = _
    decide
  have hplan : (EagerOp.file .readLines).plan host.files s.store
      (.file path) "readLines" [] =
      .ok (.freshTexts (Text.fileLines text)) := by
    change (Except.mapError _ (host.files.read path) >>= _) = _
    rw [h]
    rfl
  rw [dispatch_of_eager hfound rfl, Run.carryOut, hplan]
  simp only [Store.commit_freshTexts, Effect.fits, if_true]

end Reading

/-- What `readLines` gives of a file, and what `readln` gives when the same text is typed
in. They give the lines of the text one by one, and `readln` goes on with `void`. But
`readln` takes all the carriage returns from the end of a line, where `readLines` takes
only one that belongs to the line's end; so they agree exactly when none is left at the
end of a line. -/
theorem console_lines_trim_file_lines
    (host : Host) (fuel scope : Nat) (s : State) {path text : String}
    (hfile : host.files.read path = .ok text)
    (hinput : s.console.input = Console.linesOfBytes text.toUTF8) :
    (∃ cell s', dispatch host (fuel + 3) scope (.file path) "readLines"
        (.ready []) s = .done (.list cell) s' ∧
      (s'.store.elements cell).toList.map s'.store.text? =
        (Text.fileLines text).map some) ∧
    (∀ n, ∃ handles s',
      readlnTimes host (fuel + 3) scope n s =
        .done (handles ++ List.replicate (n - (Text.fileLines text).length) .void) s' ∧
      handles.map s'.store.text? =
        (((Text.fileLines text).map Text.trimReturns).take n).map some) ∧
    ((Text.fileLines text).map Text.trimReturns = Text.fileLines text ↔
      ∀ line ∈ Text.fileLines text, line.toList.getLast? ≠ some '\r') := by
  rw [Console.linesOfBytes_toUTF8] at hinput
  refine ⟨⟨_, _, dispatch_readLines host fuel scope hfile s, ?_⟩, ?_, ?_⟩
  · rw [Store.elements, Pool.get_push, if_pos rfl, List.toList_toArray]
    exact s.store.map_text?_nextTexts _
  · intro n
    have hread := readlnTimes_eq host fuel scope n hinput
    have hlength : (Text.rawLines text.toList).length = (Text.fileLines text).length := by
      rw [Text.fileLines, List.length_map]
    refine ⟨_, _, hlength ▸ hread, ?_⟩
    rw [← Text.consoleLines_eq_map, Text.consoleLines, ← List.map_take]
    have hlines := s.store.map_text?_nextTexts
      (((Text.rawLines text.toList).take n).map fun raw =>
        String.ofList (Text.consoleLine raw))
    rwa [List.length_map] at hlines
  · have hsame := List.map_inj_left (f := Text.trimReturns) (g := id)
      (l := Text.fileLines text)
    rw [List.map_id] at hsame
    exact hsame.trans (forall₂_congr fun line _ => Text.trimReturns_eq_self_iff)

/-- Of a line that ends with two carriage returns before its newline, `readLines` keeps
one and `readln` none. -/
theorem console_lines_trim_file_lines_returns :
    ∃ (host : Host) (s : State) (path : String),
      host.files.read path = .ok "a\r\r\n" ∧
      s.console.input = Console.linesOfBytes "a\r\r\n".toUTF8 ∧
      (∃ cell s', dispatch host 3 globalScope (.file path) "readLines"
          (.ready []) s = .done (.list cell) s' ∧
        (s'.store.elements cell).toList.map s'.store.text? = [some "a\r"]) ∧
      ∃ handle s', readlnTimes host 3 globalScope 2 s = .done [handle, .void] s' ∧
        s'.store.text? handle = some "a" := by
  let host : Host := ⟨0, ⟨[(["t"], .file "a\r\r\n".toUTF8)]⟩, .asBound⟩
  have hfile : host.files.read "t" = .ok "a\r\r\n" := by decide +kernel
  have hlines : Text.fileLines "a\r\r\n" = ["a\r"] := by decide
  let s := State.initial (.ofLines (Console.linesOfBytes "a\r\r\n".toUTF8) none)
  obtain ⟨hfileLines, hconsole, -⟩ :=
    console_lines_trim_file_lines host 0 globalScope s hfile rfl
  rw [hlines] at hfileLines
  refine ⟨host, s, "t", hfile, rfl, hfileLines, ?_⟩
  obtain ⟨handles, s', hread, htexts⟩ := hconsole 2
  rw [hlines] at hread htexts
  have htrim : ((["a\r"].map Text.trimReturns).take 2).map some = [some "a"] := by decide
  obtain ⟨handle, rest, rfl, htext, hrest⟩ := List.map_eq_cons_iff.mp (htexts.trans htrim)
  rw [List.map_eq_nil_iff.mp hrest] at hread
  exact ⟨handle, s', hread, htext⟩

end HandleScript
