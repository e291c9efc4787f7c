import HandleScript.Proofs.Lines

/-!
# Positions of bytes

The line of a byte offset is counted by the newlines among the bytes before it, and the
column by the bytes since the last of them. An offset may lie inside of a character. Such
a character takes several bytes, none of which is a newline, so the line is that of the
beginning of the character. Positions grow with the offset, so different offsets have
different ones.
-/

namespace HandleScript

namespace LineIndex

open Lexer

/-- The number of newlines among bytes. -/
def newlines (bytes : List UInt8) : Nat :=
  bytes.count 10

/-- The number of bytes after the last newline, or of all bytes when there is none. -/
def sinceNewline (bytes : List UInt8) : Nat :=
  (bytes.reverse.takeWhile (· ≠ 10)).length

section Bytes

variable {bytes more : List UInt8}

theorem newlines_append (bytes more : List UInt8) :
    newlines (bytes ++ more) = newlines bytes + newlines more :=
  List.count_append

theorem newlines_eq_zero (h : 10 ∉ more) : newlines more = 0 :=
  List.count_eq_zero.mpr h

theorem newlines_pos (h : 10 ∈ more) : 0 < newlines more :=
  List.count_pos_iff.mpr h

theorem sinceNewline_append (h : 10 ∉ more) :
    sinceNewline (bytes ++ more) = sinceNewline bytes + more.length := by
  have hplain : ∀ b ∈ more.reverse, decide (b ≠ 10) = true := by
    intro b hb
    apply decide_eq_true
    rintro rfl
    exact h (List.mem_reverse.mp hb)
  rw [sinceNewline, List.reverse_append, List.takeWhile_append_of_pos hplain,
    List.length_append, List.length_reverse, Nat.add_comm]
  rfl

theorem sinceNewline_concat_newline (bytes : List UInt8) :
    sinceNewline (bytes ++ [10]) = 0 := by
  simp [sinceNewline]

theorem newlines_le_length (bytes : List UInt8) : newlines bytes ≤ bytes.length :=
  List.count_le_length

theorem sinceNewline_le_length (bytes : List UInt8) :
    sinceNewline bytes ≤ bytes.length := by
  have hlength := (List.takeWhile_sublist (l := bytes.reverse) fun b =>
    decide (b ≠ 10)).length_le
  rwa [List.length_reverse] at hlength

/-- With more bytes the place goes on, to a further line or further on in its line. -/
theorem newlines_lt_or_sinceNewline_lt (bytes : List UInt8) (h : more ≠ []) :
    newlines bytes < newlines (bytes ++ more) ∨
      newlines bytes = newlines (bytes ++ more) ∧
        sinceNewline bytes < sinceNewline (bytes ++ more) := by
  have hlength := List.length_pos_iff.mpr h
  by_cases hmore : 10 ∈ more
  · have hpos := newlines_pos hmore
    left
    rw [newlines_append]
    omega
  · right
    rw [newlines_append, newlines_eq_zero hmore, sinceNewline_append hmore]
    omega

theorem place_take_lt {i j : Nat} (hlt : i < j) (hj : j ≤ bytes.length) :
    newlines (bytes.take i) < newlines (bytes.take j) ∨
      newlines (bytes.take i) = newlines (bytes.take j) ∧
        sinceNewline (bytes.take i) < sinceNewline (bytes.take j) := by
  have htake : bytes.take j = bytes.take i ++ (bytes.drop i).take (j - i) := by
    rw [← List.take_add, Nat.add_sub_cancel' (Nat.le_of_lt hlt)]
  have hmore : (bytes.drop i).take (j - i) ≠ [] := by
    apply List.ne_nil_of_length_pos
    rw [List.length_take, List.length_drop]
    omega
  rw [htake]
  exact newlines_lt_or_sinceNewline_lt _ hmore

end Bytes

/-! ## The bytes of characters -/

/-- The bytes of characters, one after the other. -/
def encode (cs : List Char) : List UInt8 :=
  cs.flatMap String.utf8EncodeChar

theorem encode_cons (c : Char) (cs : List Char) :
    encode (c :: cs) = String.utf8EncodeChar c ++ encode cs :=
  rfl

theorem encode_append (cs ds : List Char) : encode (cs ++ ds) = encode cs ++ encode ds :=
  List.flatMap_append

theorem encode_singleton (c : Char) : encode [c] = String.utf8EncodeChar c :=
  List.append_nil _

theorem length_encode (cs : List Char) : (encode cs).length = byteSize cs := by
  induction cs with
  | nil => rfl
  | cons c cs ih =>
      rw [encode_cons, List.length_append, String.length_utf8EncodeChar, ih,
        byteSize_cons]

theorem bytes_eq_encode (source : String) :
    source.toByteArray.data.toList = encode source.toList := by
  have hbytes : source.toByteArray = source.toList.utf8Encode := by
    conv_lhs => rw [← String.ofList_toList (s := source)]
    exact String.toByteArray_ofList
  rw [hbytes, List.utf8Encode, List.data_toByteArray]
  rfl

/-- A byte whose highest bit is set is no newline. -/
theorem or_ne_newline (b : UInt8) {high : UInt8} (h : high.toBitVec[7] = true) :
    10 ≠ b ||| high := by
  intro heq
  have hbit := congrArg (fun x : UInt8 => x.toBitVec.getLsbD 7) heq
  simp [h] at hbit

theorem notMem_utf8EncodeChar {c : Char} (hc : c ≠ '\n') :
    10 ∉ String.utf8EncodeChar c := by
  rcases c.utf8Size_eq with hsize | hsize | hsize | hsize
  · rw [String.utf8EncodeChar_eq_singleton hsize, List.mem_singleton]
    intro hbyte
    have hle : c.val.toNat ≤ 127 :=
      UInt32.le_iff_toNat_le.mp (Char.utf8Size_eq_one_iff.mp hsize)
    have hnat : 10 = c.val.toNat % 2 ^ 8 :=
      (congrArg UInt8.toNat hbyte).trans (UInt32.toNat_toUInt8 _)
    have hvalue : c.val.toNat = 10 := by omega
    exact hc (Char.ext (UInt32.toNat_inj.mp hvalue))
  · rw [String.utf8EncodeChar_eq_cons_cons hsize]
    simp [or_ne_newline]
  · rw [String.utf8EncodeChar_eq_cons_cons_cons hsize]
    simp [or_ne_newline]
  · rw [String.utf8EncodeChar_eq_cons_cons_cons_cons hsize]
    simp [or_ne_newline]

theorem utf8EncodeChar_newline : String.utf8EncodeChar '\n' = [10] := by
  decide

theorem newlines_encode (cs : List Char) : newlines (encode cs) = cs.count '\n' := by
  induction cs with
  | nil => rfl
  | cons c cs ih =>
      rw [encode_cons, newlines_append, ih]
      by_cases hc : c = '\n'
      · rw [hc, utf8EncodeChar_newline, List.count_cons_self, Nat.add_comm]
        rfl
      · rw [newlines_eq_zero (notMem_utf8EncodeChar hc),
          List.count_cons_of_ne hc, Nat.zero_add]

theorem sinceNewline_encode (cs : List Char) :
    sinceNewline (encode cs) = byteSize (lastLine cs) := by
  induction cs using List.reverseRecOn with
  | nil => rfl
  | append_singleton cs c ih =>
      rw [encode_append, encode_singleton, lastLine_concat]
      by_cases hc : c = '\n'
      · rw [hc, utf8EncodeChar_newline, sinceNewline_concat_newline,
          if_pos rfl, byteSize_nil]
      · rw [sinceNewline_append (notMem_utf8EncodeChar hc), ih, if_neg hc,
          byteSize_append, String.length_utf8EncodeChar, byteSize_cons,
          byteSize_nil, Nat.add_zero]

/-! ## Offsets inside of characters -/

/-- Every offset in a text lies at the end of the text or in a character, after all bytes
of the characters before it. -/
theorem exists_char_at {cs : List Char} {offset : Nat} (h : offset ≤ byteSize cs) :
    ∃ before after, cs = before ++ after ∧ byteSize before ≤ offset ∧
      ∀ c ∈ after.head?, offset < byteSize before + c.utf8Size := by
  induction cs generalizing offset with
  | nil => exact ⟨[], [], rfl, Nat.zero_le _, nofun⟩
  | cons c cs ih =>
      rw [byteSize_cons] at h
      by_cases hinside : offset < c.utf8Size
      · refine ⟨[], c :: cs, rfl, Nat.zero_le _, ?_⟩
        rintro _ ⟨⟩
        rwa [byteSize_nil, Nat.zero_add]
      · obtain ⟨before, after, rfl, hbefore, hafter⟩ :=
          ih (show offset - c.utf8Size ≤ byteSize cs by omega)
        refine ⟨c :: before, after, rfl, by rw [byteSize_cons]; omega, fun d hd => ?_⟩
        have hlt := hafter d hd
        rw [byteSize_cons]
        omega

/-- Inside of a character, no byte before the offset is a newline. -/
theorem notMem_take_encode {after : List Char} {inner : Nat}
    (h : ∀ c ∈ after.head?, inner < c.utf8Size) : 10 ∉ (encode after).take inner := by
  cases after with
  | nil => simp [encode]
  | cons c rest =>
      have hinner : inner < c.utf8Size := h c rfl
      rw [encode_cons, List.take_append_of_le_length
        (by rw [String.length_utf8EncodeChar]; omega)]
      by_cases hc : c = '\n'
      · have hzero : inner = 0 := by
          rw [hc] at hinner
          exact Nat.lt_one_iff.mp hinner
        rw [hzero, List.take_zero]
        exact List.not_mem_nil
      · exact fun hmem => notMem_utf8EncodeChar hc (List.mem_of_mem_take hmem)

/-- No line starts before the end of the next character. -/
theorem startsAfter_of_lt (starts : Array Nat) {place offset : Nat} {after : List Char}
    (h : ∀ c ∈ after.head?, offset < place + c.utf8Size) :
    StartsAfter starts offset (addStarts starts place after) := by
  cases after with
  | nil =>
      exact ⟨Nat.le_refl _, fun _ _ => rfl, fun i hge hlt =>
        absurd hlt (Nat.not_lt.mpr hge)⟩
  | cons c rest =>
      have hoffset : offset < place + c.utf8Size := h c rfl
      rw [addStarts]
      by_cases hc : c = '\n'
      · have hrest := startsAfter_addStarts (starts.push (place + c.utf8Size))
          (place + c.utf8Size) rest
        have hsize := hrest.size_le
        rw [Array.size_push] at hsize
        rw [if_pos hc]
        refine ⟨by omega, fun i hi => ?_, fun i hge hlt => ?_⟩
        · rw [hrest.kept i (by rw [Array.size_push]; omega), getD_push, if_neg (by omega)]
        · by_cases hnew : i = starts.size
          · rw [hrest.kept i (by rw [Array.size_push]; omega), getD_push, if_pos hnew]
            exact hoffset
          · exact Nat.lt_trans hoffset
              (hrest.added i (by rw [Array.size_push]; omega) hlt)
      · have hrest := startsAfter_addStarts starts (place + c.utf8Size) rest
        rw [if_neg hc]
        exact ⟨hrest.size_le, hrest.kept, fun i hge hlt =>
          Nat.lt_trans hoffset (hrest.added i hge hlt)⟩

/-- The line of an offset has as many lines before it as there are newlines before the
offset, and starts so many bytes before it as follow the last of them. -/
theorem exists_findsLine {source : String} {offset : Nat}
    (h : offset ≤ source.utf8ByteSize) :
    ∃ start, FindsLine (ofSource source) offset
        (newlines (source.toByteArray.data.toList.take offset)) start ∧
      offset - start = sinceNewline (source.toByteArray.data.toList.take offset) := by
  rw [← byteSize_toList] at h
  obtain ⟨before, after, hsource, hbefore, hafter⟩ := exists_char_at h
  have hinner : 10 ∉ (encode after).take (offset - byteSize before) := by
    refine notMem_take_encode fun c hc => ?_
    have hlt := hafter c hc
    omega
  have htake : source.toByteArray.data.toList.take offset =
      encode before ++ (encode after).take (offset - byteSize before) := by
    rw [bytes_eq_encode, hsource, encode_append, List.take_append, length_encode,
      List.take_of_length_le (by rw [length_encode]; exact hbefore)]
  have hlength : ((encode after).take (offset - byteSize before)).length =
      offset - byteSize before := by
    rw [hsource, byteSize_append] at h
    rw [List.length_take, length_encode]
    omega
  have hstarts := startsAfter_of_lt (addStarts #[0] 0 before) hafter
  rw [← starts_of_append hsource] at hstarts
  have hfinds := findsLine_of_startsAfter hstarts hbefore
  have hlast := byteSize_lastLine_le before
  refine ⟨byteSize before - byteSize (lastLine before), ?_, ?_⟩
  · rwa [htake, newlines_append, newlines_encode, newlines_eq_zero hinner, Nat.add_zero]
  · rw [htake, sinceNewline_append hinner, sinceNewline_encode, hlength]
    omega

theorem toNat_ofNat_add_one {n : Nat} (h : n + 1 < UInt32.size) :
    (UInt32.ofNat n + 1).toNat = n + 1 := by
  have hn : n < UInt32.size := Nat.lt_of_succ_lt h
  rw [UInt32.toNat_add, UInt32.toNat_ofNat_of_lt' hn]
  exact Nat.mod_eq_of_lt h

/-- In a source that is short enough for lines and columns of 32 bits, the line of an
offset is one more than the number of newlines before it, and the column is one more than
the number of bytes since the last of them. The search for the line always finds one, or a
place after the first one; the line is there and does not start beyond the offset.
Positions are in the order of their offsets, and no two offsets have the same position. -/
theorem positions_count_newlines_and_bytes (source : String)
    (hsize : source.utf8ByteSize < UInt32.size - 1) :
    (∀ offset ≤ source.utf8ByteSize,
      ((ofSource source).position offset).1.toNat = 1 + newlines
        (source.toByteArray.data.toList.take offset) ∧
      ((ofSource source).position offset).2.toNat = 1 + sinceNewline
        (source.toByteArray.data.toList.take offset) ∧
      ∃ line start, (search (ofSource source).starts offset 0
          (ofSource source).starts.size = .found line ∨
          search (ofSource source).starts offset 0 (ofSource source).starts.size =
            .absent (line + 1)) ∧
        (ofSource source).starts[line]? = some start ∧ start ≤ offset) ∧
    (∀ i j, i < j → j ≤ source.utf8ByteSize →
      Prod.Lex (· < ·) (· < ·) ((ofSource source).position i)
        ((ofSource source).position j)) ∧
    (∀ i j, i ≤ source.utf8ByteSize → j ≤ source.utf8ByteSize →
      (ofSource source).position i = (ofSource source).position j → i = j) := by
  generalize hindex : ofSource source = index
  have hposition : ∀ offset ≤ source.utf8ByteSize,
      (index.position offset).1.toNat = 1 + newlines
        (source.toByteArray.data.toList.take offset) ∧
      (index.position offset).2.toNat = 1 + sinceNewline
        (source.toByteArray.data.toList.take offset) := by
    intro offset hoffset
    obtain ⟨start, hfinds, hcolumn⟩ := exists_findsLine hoffset
    have hlength := List.length_take_le offset source.toByteArray.data.toList
    have hlines := newlines_le_length (source.toByteArray.data.toList.take offset)
    have hbytes := sinceNewline_le_length (source.toByteArray.data.toList.take offset)
    rw [← hindex, hfinds.position, hcolumn, Nat.add_comm 1, Nat.add_comm 1]
    exact ⟨toNat_ofNat_add_one (by omega), toNat_ofNat_add_one (by omega)⟩
  have hincreasing : ∀ i j, i < j → j ≤ source.utf8ByteSize →
      Prod.Lex (· < ·) (· < ·) (index.position i) (index.position j) := by
    intro i j hlt hj
    obtain ⟨hline, hcolumn⟩ := hposition i (by omega)
    obtain ⟨hline', hcolumn'⟩ := hposition j hj
    have hgrows :=
      place_take_lt hlt (show j ≤ source.toByteArray.data.toList.length from hj)
    rw [Prod.lex_def, UInt32.lt_iff_toNat_lt, UInt32.lt_iff_toNat_lt, ← UInt32.toNat_inj]
    omega
  have hdiffer : ∀ i j, i < j → j ≤ source.utf8ByteSize →
      index.position i ≠ index.position j := by
    intro i j hlt hj hsame
    have hless := hincreasing i j hlt hj
    rw [hsame, Prod.lex_def] at hless
    rcases hless with hline | ⟨-, hcolumn⟩
    · exact UInt32.lt_irrefl _ hline
    · exact UInt32.lt_irrefl _ hcolumn
  refine ⟨fun offset hoffset => ?_, hincreasing, fun i j hi hj hsame => ?_⟩
  · obtain ⟨start, hfinds, -⟩ := exists_findsLine hoffset
    obtain ⟨hline, hcolumn⟩ := hposition offset hoffset
    rw [hindex] at hfinds
    exact ⟨hline, hcolumn, _, start, hfinds.found, hfinds.entry, hfinds.le⟩
  · rcases Nat.lt_trichotomy i j with hlt | heq | hgt
    · exact absurd hsame (hdiffer i j hlt hj)
    · exact heq
    · exact absurd hsame.symm (hdiffer j i hgt hi)

/-- The second byte of the first character is in the first line; a line starts after the
newline at the end. -/
theorem positions_count_newlines_and_bytes_inside :
    "é\nb\n".utf8ByteSize < UInt32.size - 1 ∧
    ((ofSource "é\nb\n").position 1).1.toNat = 1 ∧
      ((ofSource "é\nb\n").position 1).2.toNat = 2 ∧
    ((ofSource "é\nb\n").position 5).1.toNat = 3 ∧
      ((ofSource "é\nb\n").position 5).2.toNat = 1 ∧
    Prod.Lex (· < ·) (· < ·) ((ofSource "é\nb\n").position 2)
      ((ofSource "é\nb\n").position 3) ∧
    (ofSource "é\nb\n").position 2 ≠ (ofSource "é\nb\n").position 3 := by
  have hsize : "é\nb\n".utf8ByteSize = 5 := by decide
  have hshort : "é\nb\n".utf8ByteSize < UInt32.size - 1 := by decide
  obtain ⟨hplaces, hordered, hdiffer⟩ :=
    positions_count_newlines_and_bytes "é\nb\n" hshort
  obtain ⟨hline, hcolumn, -⟩ := hplaces 1 (by omega)
  obtain ⟨hline', hcolumn', -⟩ := hplaces 5 (by omega)
  refine ⟨hshort, hline, hcolumn, hline', hcolumn', hordered 2 3 (by omega) (by omega),
    fun hsame => ?_⟩
  have hequal := hdiffer 2 3 (by omega) (by omega) hsame
  omega

end LineIndex

end HandleScript
