import HandleScript.Program.Outline
import HandleScript.Repl

/-!
# The command line

Commands that run, check and list a script, and the interactive loop. A command is a
function of its arguments, the files, the order in which names are listed and the standard
input; its report holds what goes to the two output streams and the exit code.
-/

namespace HandleScript.CommandLine

/-- What the user asks for. -/
inductive Command where
  /-- Calls the entry function of a script. -/
  | run (path : String) (settings : Settings)
  /-- Reads and checks a script. -/
  | check (path : String)
  /-- Lists the outline of a script. -/
  | parse (path : String)
  /-- Lists the tokens of a script. -/
  | tokens (path : String)
  /-- Starts the interactive loop. -/
  | repl
deriving Repr

/-- The result of a command. -/
structure Report where
  /-- The text for the output stream. -/
  output : String
  /-- What is wrong with the script, for the error stream. -/
  diagnosis : Option String
  /-- The last line for the error stream. -/
  failure : Option String
  /-- The exit code. -/
  code : UInt32
deriving Repr

/-- The report of a command that succeeded. -/
def Report.success (output : String) : Report :=
  ⟨output, none, none, 0⟩

/-- The report of a command that failed. -/
def Report.failed (output : String) (diagnosis : Option String) (why : String) : Report :=
  ⟨output, diagnosis, some ("Error: " ++ why), 1⟩

/-- The report on a script that has an error. -/
def Report.ofError (output : String) (e : Error) : Report :=
  .failed output (some e.text) "script failed"

/-- The report on a command in which the program crashed. -/
def Report.crashed (output : String) : Report :=
  ⟨output, some "capacity overflow", none, 101⟩

/-- The report on a command that used up its steps. -/
def Report.exhausted : Report :=
  .failed "" none "out of steps"

/-- The report on a command line that asks for nothing known. -/
def Report.usage : Report :=
  ⟨"",
    some ("usage: run FILE [--entry NAME] [--max-depth N] | check FILE | parse FILE | " ++
      "tokens FILE | repl"),
    none, 2⟩

/-! ## Arguments -/

/-- The arguments of `run` as far as they have been read. -/
structure RunArguments where
  path : Option String := none
  entry : Option String := none
  maxDepth : Option Nat := none

/-- The command that the arguments ask for. -/
def RunArguments.command? (a : RunArguments) : Option Command :=
  a.path.map fun path =>
    let standard : Settings := {}
    .run path
      { entry := a.entry.getD standard.entry
        maxDepth := a.maxDepth.getD standard.maxDepth }

/-- Adds the script, which may be given once. -/
def RunArguments.addPath (a : RunArguments) (path : String) : Option RunArguments :=
  if a.path.isSome || path.isEmpty then none else some { a with path := some path }

/-- Adds the entry function, which may be given once. -/
def RunArguments.addEntry (a : RunArguments) (name : String) : Option RunArguments :=
  if a.entry.isSome then none else some { a with entry := some name }

/-- The recursion limit that a text spells: a natural number of 64 bits with an optional
plus sign. -/
def readDepth? (text : String) : Option Nat :=
  let digits := match text.toList with
    | '+' :: digits => digits
    | digits => digits
  (Number.readNat? digits).filter (· < UInt64.size)

/-- Adds the recursion limit, which may be given once. -/
def RunArguments.addDepth (a : RunArguments) (text : String) : Option RunArguments :=
  if a.maxDepth.isSome then none
  else (readDepth? text).map fun n => { a with maxDepth := some n }

/-- Whether an argument looks like an option. -/
def isOption (arg : String) : Bool :=
  arg.startsWith "-" && arg ≠ "-"

/-- What follows a beginning of an argument. -/
def after? (beginning arg : String) : Option String :=
  if arg.startsWith beginning then
    some (String.ofList (arg.toList.drop beginning.length)) else none

/-- Reads the arguments of `run`. After `--` every argument is a script. -/
def readRun (a : RunArguments) : List String → Option RunArguments
  | [] => some a
  | "--" :: rest => rest.foldlM RunArguments.addPath a
  | "--entry" :: name :: rest =>
    if isOption name then none
    else
      match a.addEntry name with
      | some a => readRun a rest
      | none => none
  | "--max-depth" :: text :: rest =>
    if isOption text then none
    else
      match a.addDepth text with
      | some a => readRun a rest
      | none => none
  | arg :: rest =>
    let added :=
      match after? "--entry=" arg, after? "--max-depth=" arg with
      | some name, _ => a.addEntry name
      | none, some text => a.addDepth text
      | none, none => if isOption arg then none else a.addPath arg
    match added with
    | some a => readRun a rest
    | none => none

/-- The arguments of a command that has no options. After `--` every argument counts as it
is. -/
def plainArguments : List String → Option (List String)
  | [] => some []
  | "--" :: rest => some rest
  | arg :: rest => if isOption arg then none else (plainArguments rest).map (arg :: ·)

/-- Reads the single script of a command. -/
def readPath (args : List String) : Option String :=
  match plainArguments args with
  | some [path] => if path.isEmpty then none else some path
  | _ => none

/-- Reads the command line. -/
def readCommand : List String → Option Command
  | "run" :: rest => (readRun {} rest).bind RunArguments.command?
  | "check" :: rest => (readPath rest).map .check
  | "parse" :: rest => (readPath rest).map .parse
  | "tokens" :: rest => (readPath rest).map .tokens
  | "repl" :: rest => if plainArguments rest = some [] then some .repl else none
  | _ => none

/-! ## Commands -/

/-- Runs a script. -/
def reportRun (fuel : Nat) (settings : Settings) (files : Files) (listing : Listing)
    (input : List InputLine) (source : String) : Report :=
  match (Interpreter.fresh settings files listing (.ofLines input none)).runSource
    fuel source with
  | .done _ i => .success i.state.console.output
  | .failed e i => .ofError i.state.console.output e
  | .crashed i => .crashed i.state.console.output
  | .exhausted => .exhausted

/-- Checks a script. -/
def reportCheck (path source : String) : Report :=
  let checked : Except CompileError Program := do
    let p ← Program.ofSource source
    p.check
    return p
  match checked with
  | .ok p =>
    .success ("✓ " ++ path ++ " is well-formed (" ++
      toString p.functions.length ++ " functions)\n")
  | .error e => .ofError "" (.compile e)

/-- Lists the outline of a script. -/
def reportParse (source : String) : Report :=
  match Program.ofSource source with
  | .ok p => .success ((Outline.ofProgram Outline.doubleNumber p).pretty ++ "\n")
  | .error e => .ofError "" (.compile e)

/-- A line of the token listing. -/
def tokenLine (t : Located Token) : String :=
  t.node.listing ++ " @ " ++ t.span.position ++ "\n"

/-- Lists the tokens of a script. -/
def reportTokens (source : String) : Report :=
  match tokenize source with
  | .ok tokens => .success (tokens.foldl (fun shown t => shown ++ tokenLine t) "")
  | .error e => .ofError "" (.compile (.lexical e))

/-- Runs the interactive loop on all of the input. -/
def reportRepl (fuel : Nat) (files : Files) (listing : Listing) (input : List InputLine) :
    Report :=
  match Repl.run fuel
    (Session.new (Interpreter.fresh {} files listing (.ofLines input none))) with
  | .finished session => .success session.interpreter.state.console.output
  | .garbled session =>
    ⟨session.interpreter.state.console.output, none,
      some ("Error: " ++ ReadFailure.notText.message), 0⟩
  | .crashed session => .crashed session.interpreter.state.console.output
  | .exhausted => .exhausted

/-- Goes on with the text of a script, if it can be read. -/
def withScript (files : Files) (path : String) (report : String → Report) : Report :=
  match files.read path with
  | .ok source => report source
  | .error why => .failed "" none why.message

/-- Carries out a command. -/
def report (fuel : Nat) (files : Files) (listing : Listing) (input : List InputLine) :
    Command → Report
  | .run path settings =>
    withScript files path (reportRun fuel settings files listing input)
  | .check path => withScript files path (reportCheck path)
  | .parse path => withScript files path reportParse
  | .tokens path => withScript files path reportTokens
  | .repl => reportRepl fuel files listing input

/-- Carries out the command that the arguments ask for. -/
def reportArguments (fuel : Nat) (files : Files) (listing : Listing)
    (input : List InputLine) (args : List String) : Report :=
  match readCommand args with
  | some command => report fuel files listing input command
  | none => .usage

end HandleScript.CommandLine
