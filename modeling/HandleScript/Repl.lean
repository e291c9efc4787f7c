import HandleScript.Session
import HandleScript.Text.Blank
import HandleScript.Text.Cluster

/-!
# The interactive loop

Each line is a command, which starts with a colon, or an input for the session. What a
line prints goes to the console of the session, after what scripts have printed there; the
loop reads its lines from that console too.
-/

namespace HandleScript.Repl

/-- The lines that greet the user. -/
def banner : String :=
  "hlang REPL v0.1.0\nType :help for help, :quit to exit.\n\n"

/-- The lines that take leave of the user. -/
def farewell : String :=
  "Goodbye!\n"

/-- The lines of the help text. -/
def helpLines : List String :=
  ["hlang REPL Commands:",
    "  :help, :h, :?      Show this help",
    "  :quit, :q          Exit the REPL",
    "  :clear             Clear the screen",
    "  :reset             Forget top-level variables",
    "  :functions, :f     List declared functions",
    "",
    "You can enter:",
    "  - Statements: var x = 1  x.increment()",
    "  - Expressions: x.plus(2).multiply(3)",
    "  - Function declarations: fun twice(n) \x7b return n.multiply(2) \x7d",
    "",
    "Built-in functions:",
    "  println(x, ...)    Print values with newline",
    "  print(x, ...)      Print values without newline",
    "  readln()           Read a line of input",
    "  int(s)             Parse an integer"]

/-- The help text. -/
def help : String :=
  String.join (helpLines.map fun line => line ++ "\n")

/-- The commands of the loop. -/
inductive Command where
  | quit
  | help
  | clear
  | reset
  | functions
  | unknown (line : String)
deriving DecidableEq, Repr

/-- The command that a line spells. -/
def Command.ofLine (line : String) : Command :=
  if line = ":quit" || line = ":q" || line = ":exit" then quit
  else if line = ":help" || line = ":h" || line = ":?" then help
  else if line = ":clear" then clear
  else if line = ":reset" then reset
  else if line = ":functions" || line = ":f" then functions
  else unknown line

/-- Prints a text on the session's console. -/
def say (session : Session) (text : String) : Session :=
  let ⟨i, scope⟩ := session
  ⟨i.modifyState fun s => { s with console := s.console.append text }, scope⟩

/-- What follows a line. -/
inductive Reaction where
  /-- The loop waits for the next line. -/
  | proceed (session : Session) (error : Option Error)
  /-- The loop ends. -/
  | quit (session : Session)
  /-- The program crashes. -/
  | crashed (session : Session)
  /-- The steps granted to the line did not suffice. -/
  | exhausted

/-- Carries out a command. -/
def obey (session : Session) : Command → Reaction
  | .quit => .quit (say session farewell)
  | .help => .proceed (say session help) none
  | .clear => .proceed (say session "\x1b[2J\x1b[1;1H") none
  | .reset => .proceed (say session.reset "Bindings cleared.\n") none
  | .functions =>
    let names := session.interpreter.functionNames.map fun name => "  " ++ name ++ "\n"
    .proceed (say session (String.join names)) none
  | .unknown line =>
    .proceed (say session ("Unknown command: " ++ line ++ "\nType :help for help.\n"))
      none

/-- Evaluates an input and prints its value, unless that is `void`. -/
def evaluate (fuel : Nat) (session : Session) (input : String) : Reaction :=
  match session.eval fuel input with
  | .done (some v) session =>
    if v = .void then .proceed session none
    else .proceed (say session (session.interpreter.state.store.render v ++ "\n")) none
  | .done none session => .proceed session none
  | .failed e session => .proceed session (some e)
  | .crashed session => .crashed session
  | .exhausted => .exhausted

/-- What has been typed on a line. -/
structure Typed where
  /-- The characters, latest first. -/
  chars : List Char
  /-- How many bytes a backspace takes back for each cluster, latest first. -/
  sizes : List Nat

namespace Typed

/-- Drops so many bytes of characters. -/
def dropBytes : Nat → List Char → List Char
  | 0, cs => cs
  | _ + 1, [] => []
  | n + 1, c :: cs => dropBytes (n + 1 - c.utf8Size) cs

/-- Types a cluster. The number of its bytes is kept in a single byte. -/
def type (t : Typed) (cluster : List Char) : Typed :=
  ⟨cluster.reverse ++ t.chars, (String.ofList cluster).utf8ByteSize % 256 :: t.sizes⟩

/-- Takes back a cluster, if there is one. -/
def takeBack (t : Typed) : Typed :=
  match t.sizes with
  | [] => t
  | size :: sizes => ⟨dropBytes size t.chars, sizes⟩

/-- Types a cluster, or takes one back if it is a backspace. -/
def press (t : Typed) (cluster : List Char) : Typed :=
  if cluster = ['\x08'] then t.takeBack else t.type cluster

end Typed

/-- A line in which each backspace has taken back the cluster before it. -/
def applyBackspaces (cs : List Char) : List Char :=
  ((Text.clusters cs).foldl Typed.press ⟨[], []⟩).chars.reverse

/-- What a raw line says: its characters without the newline, backspaces applied, and no
blanks around them. -/
def lineText (raw : List Char) : String :=
  String.ofList (Text.trimChars (applyBackspaces (Text.fileLine raw)))

/-- Reacts to a line. -/
def react (fuel : Nat) (session : Session) (raw : List Char) : Reaction :=
  let line := lineText raw
  if line.isEmpty then .proceed session none
  else if line.startsWith ":" then obey session (.ofLine line)
  else evaluate fuel session line

/-- Takes the next line from the session's console. -/
def takeLine (session : Session) : Option InputLine × Session :=
  match session.interpreter.state.console.input with
  | [] => (none, session)
  | line :: rest =>
    (some line,
      { session with
        interpreter := session.interpreter.modifyState fun s =>
          { s with console := { s.console with input := rest } } })

/-- How the loop ends. -/
inductive Ending where
  /-- The lines ended, or the user quit. -/
  | finished (session : Session)
  /-- A line was no text, which ends the loop without a farewell. -/
  | garbled (session : Session)
  /-- The program crashed on a line. -/
  | crashed (session : Session)
  /-- The steps granted to a line did not suffice. -/
  | exhausted

/-- Reacts to the lines of the session's console until they end, at most `rounds` of
them. -/
def runLines (fuel : Nat) : (rounds : Nat) → Session → Ending
  | 0, session => .finished session
  | rounds + 1, session =>
    match takeLine session with
    | (none, session) => .finished (say session farewell)
    | (some .garbled, session) => .garbled session
    | (some (.text raw), session) =>
      match react fuel session raw with
      | .proceed session _ => runLines fuel rounds session
      | .quit session => .finished session
      | .crashed session => .crashed session
      | .exhausted => .exhausted

/-- Greets the user and reacts to all lines of the session's console. -/
def run (fuel : Nat) (session : Session) : Ending :=
  let rounds := session.interpreter.state.console.input.length + 1
  runLines fuel rounds (say session banner)

end HandleScript.Repl
