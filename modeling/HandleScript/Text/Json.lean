/-!
# JSON documents

Documents with ordered fields, and their layout over several lines: two blanks for each
level, one element or field a line, and empty lists and records on one line.
-/

namespace HandleScript

/-- A JSON document. Numbers are kept as they are to be written. -/
inductive JsonValue where
  | null
  | bool (b : Bool)
  | number (digits : String)
  | text (s : String)
  | list (items : List JsonValue)
  | record (fields : List (String × JsonValue))
deriving Repr, Inhabited

namespace JsonValue

/-- A hexadecimal digit, in lower case. -/
def hexDigit (n : Nat) : Char :=
  (Nat.toDigits 16 n).headD '0'

/-- One character of a JSON string. -/
def escapeChar (c : Char) : String :=
  if c = '"' then "\\\""
  else if c = '\\' then "\\\\"
  else if c = '\n' then "\\n"
  else if c = '\r' then "\\r"
  else if c = '\t' then "\\t"
  else if c = '\x08' then "\\b"
  else if c = '\x0c' then "\\f"
  else if c.toNat < 0x20 then
    "\\u00" ++ (hexDigit (c.toNat / 16)).toString ++ (hexDigit (c.toNat % 16)).toString
  else c.toString

/-- A text as a JSON string. -/
def quoted (s : String) : String :=
  s.toList.foldl (fun shown c => shown ++ escapeChar c) "\"" ++ "\""

/-- The blanks at the beginning of a line at the given level. -/
def indent (level : Nat) : String :=
  "".pushn ' ' (2 * level)

mutual

/-- A document laid out over several lines; the lines after the first start at the given
level. -/
def layout (level : Nat) : JsonValue → String
  | null => "null"
  | bool b => if b then "true" else "false"
  | number digits => digits
  | text s => quoted s
  | list [] => "[]"
  | list (first :: rest) =>
    "[\n" ++ indent (level + 1) ++ layout (level + 1) first ++ layoutItems
      (level + 1) rest ++ "\n" ++ indent level ++ "]"
  | record [] => "\x7b\x7d"
  | record ((key, value) :: rest) =>
    "\x7b\n" ++ indent (level + 1) ++ quoted key ++ ": " ++ layout (level + 1) value ++
        layoutFields (level + 1) rest ++
      "\n" ++ indent level ++ "\x7d"

/-- The elements of a list after the first. -/
def layoutItems (level : Nat) : List JsonValue → String
  | [] => ""
  | item :: rest => ",\n" ++ indent level ++ layout level item ++ layoutItems level rest

/-- The fields of a record after the first. -/
def layoutFields (level : Nat) : List (String × JsonValue) → String
  | [] => ""
  | (key, value) :: rest =>
    ",\n" ++ indent level ++ quoted key ++ ": " ++
      layout level value ++ layoutFields level rest

end

/-- A document laid out over several lines. -/
def pretty (v : JsonValue) : String :=
  layout 0 v

end JsonValue

end HandleScript
