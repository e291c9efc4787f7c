import HandleScript.Failure
import HandleScript.Text.Lines

/-!
# The console

Lines to read, and the text written so far. The console may take only so many bytes in
total: a text that does not fit is refused whole, while a shorter one may still fit later.
-/

namespace HandleScript

/-- A line of console input, with the newline that ends it. -/
inductive InputLine where
  | text (raw : List Char)
  /-- Bytes that are no text. -/
  | garbled
deriving Repr

/-- The console. -/
structure Console where
  /-- The lines that have not been read. -/
  input : List InputLine
  /-- Everything written so far. -/
  output : String
  /-- The number of bytes that can be written in total. -/
  limit : Option Nat
deriving Inhabited

namespace Console

/-- The lines of a text that is to be read from the console. -/
def linesOfText (s : String) : List InputLine :=
  (Text.rawLines s.toList).map .text

/-- The lines of bytes that are to be read from the console. -/
def linesOfBytes (bytes : ByteArray) : List InputLine :=
  (Text.cutAfter 10 [] bytes.toList).map fun line =>
    match String.fromUTF8? ⟨line.toArray⟩ with
    | some text => .text text.toList
    | none => .garbled

/-- A console with the given lines to read and nothing written. -/
def ofLines (input : List InputLine) (limit : Option Nat) : Console :=
  ⟨input, "", limit⟩

/-- Whether a text still fits on the console. -/
def fits (c : Console) (text : String) : Bool :=
  match c.limit with
  | none => true
  | some limit => text.isEmpty || c.output.utf8ByteSize + text.utf8ByteSize ≤ limit

/-- Writes a text. -/
def append (c : Console) (text : String) : Console :=
  { c with output := c.output ++ text }

/-- Reads a line without the newlines and carriage returns at its end; `none` at the end
of the input. A line that is no text is read too. -/
def readLine (c : Console) : Except Cause (Option String) × Console :=
  match c.input with
  | [] => (.ok none, c)
  | .text raw :: rest =>
    (.ok (some (String.ofList (Text.consoleLine raw))), { c with input := rest })
  | .garbled :: rest => (.error (.trouble .inputNotText), { c with input := rest })

end Console

end HandleScript
