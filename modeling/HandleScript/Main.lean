import HandleScript.CommandLine

/-!
# The program

The outermost layer: it reads the disk and the standard input as far as a command needs
them, and passes the report on to the output streams. What a command does is said in
`HandleScript.CommandLine`.
-/

namespace HandleScript.CommandLine

/-- The script that a command is about. -/
def Command.script? : Command → Option String
  | .run path _ => some path
  | .check path => some path
  | .parse path => some path
  | .tokens path => some path
  | .repl => none

/-- The tokens of a script, none if it has an error. -/
def tokensOf (source : String) : List Token :=
  match tokenize source with
  | .ok tokens => tokens.map Located.node
  | .error _ => []

/-- The string literals among tokens. -/
def stringsOf (tokens : List Token) : List String :=
  tokens.filterMap fun
    | .text s => some s
    | _ => none

/-- The words among tokens. -/
def wordsOf (tokens : List Token) : List String :=
  tokens.filterMap fun
    | .word w => some w
    | _ => none

/-- Adds a file of the disk, if it can be read. -/
def addFile (files : Files) (path : String) : IO Files := do
  try
    return files.insert path (← IO.FS.readBinFile path)
  catch _ =>
    return files

/-- Adds the file under a path, or the files of the directory there. -/
def addPath (files : Files) (path : String) : IO Files := do
  try
    let place ← IO.FS.realPath path
    if ← place.isDir then
      let entries ← place.readDir
      let files := files.insertDirectory path
      entries.foldlM (fun files entry => addFile files (path ++ "/" ++ entry.fileName))
        files
    else
      addFile files path
  catch _ =>
    return files

/-- The files that a script may name: those of the working directory and those that its
string literals spell. -/
def filesFor (files : Files) (tokens : List Token) : IO Files := do
  if (wordsOf tokens).contains "File" then ("." :: stringsOf tokens).foldlM addPath files
  else return files

/-- The lines of the standard input, if a script may read them. -/
def inputFor (tokens : List Token) : IO (List InputLine) := do
  if (wordsOf tokens).contains "readln" then
    return Console.linesOfBytes (← (← IO.getStdin).readBinToEnd)
  else return []

/-- Passes a report on to the output streams. The result is the exit code. -/
def deliver (report : Report) : IO UInt32 := do
  IO.print report.output
  (← IO.getStdout).flush
  report.diagnosis.forM IO.eprintln
  report.failure.forM IO.eprintln
  return report.code

/-- Carries out a command on a script. -/
def reportScript (path : String) (command : Command) : IO UInt32 := do
  let files ← addPath .empty path
  match command, files.read path with
  | .run .., .ok source =>
    let tokens := tokensOf source
    deliver (report ampleFuel (← filesFor files tokens) .asBound
      (← inputFor tokens) command)
  | _, _ => deliver (report ampleFuel files .asBound [] command)

/-- Prints what the session's console holds, and empties it. -/
def showConsole (session : Session) : IO Session := do
  IO.print session.interpreter.state.console.output
  (← IO.getStdout).flush
  return { session with
    interpreter := session.interpreter.modifyState fun s =>
      { s with console := { s.console with output := "" } } }

/-- Reacts to the lines of the standard input until they end or the user quits. The result
is the exit code. -/
partial def converse (session : Session) : IO UInt32 := do
  let session ← showConsole session
  let line ← (← IO.getStdin).getLine
  if line.isEmpty then
    discard (showConsole (Repl.say session Repl.farewell))
    return 0
  else
    match Repl.react ampleFuel session line.toList with
    | .proceed session error =>
      error.forM fun e => IO.eprintln e.text
      converse session
    | .quit session =>
      discard (showConsole session)
      return 0
    | .crashed session => deliver (.crashed session.interpreter.state.console.output)
    | .exhausted => throw (IO.userError "out of steps")

/-- Runs the interactive loop at the standard input. -/
def interact : IO UInt32 := do
  let files ← addPath .empty "."
  try
    converse (Repl.say
      (Session.new (Interpreter.fresh {} files .asBound (.ofLines [] none))) Repl.banner)
  catch e =>
    IO.eprintln ("Error: " ++ toString e)
    return 0

end HandleScript.CommandLine

open HandleScript.CommandLine in
/-- Carries out the command that the arguments ask for. -/
def main (args : List String) : IO UInt32 := do
  match readCommand args with
  | none => deliver .usage
  | some command =>
    match command.script? with
    | some path => reportScript path command
    | none => interact
