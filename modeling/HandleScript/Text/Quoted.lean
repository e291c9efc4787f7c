import HandleScript.Text.Unseen

/-!
# Quoted texts

The form in which a text stands inside a message: between double quotes, on one line, with
every character visible. A double quote and a backslash are written after a backslash, the
common control characters by a letter, and every other character without a glyph by its
number in braces.
-/

namespace HandleScript.Text

/-- The number of a character, in lower-case hexadecimal digits. -/
def hexNumber (c : Char) : String :=
  String.ofList (Nat.toDigits 16 c.toNat)

/-- One character of a quoted text. -/
def quoteChar (c : Char) : String :=
  if c = '"' then "\\\""
  else if c = '\\' then "\\\\"
  else if c.toNat = 0 then "\\0"
  else if c = '\t' then "\\t"
  else if c = '\r' then "\\r"
  else if c = '\n' then "\\n"
  else if isUnseen c then "\\u\x7b" ++ hexNumber c ++ "\x7d"
  else c.toString

/-- A text in quotes. -/
def quote (s : String) : String :=
  s.toList.foldl (fun shown c => shown ++ quoteChar c) "\"" ++ "\""

end HandleScript.Text
