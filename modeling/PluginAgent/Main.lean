import PluginAgent.Agent.Session
import PluginAgent.Logging.Choice
import PluginAgent.Logging.Setup

/-!
The command. Standard input lists the paths that the agent can see, one a line, directories with a
slash at the end. An empty line ends the list and starts the agent, which runs until the input ends.
-/

namespace PluginAgent.Command

partial def readPaths (input : IO.FS.Stream) (done : List String) : IO (List String) := do
  match Text.lines (← input.getLine).toList with
  | (c :: line) :: _ => readPaths input (String.ofList (c :: line) :: done)
  | _ => return done.reverse

partial def readToEnd (input : IO.FS.Stream) : IO Unit := do
  if !(← input.getLine).isEmpty then readToEnd input

def addEntry (disk : Disk) (path : String) : IO Disk := do
  let added ←
    if Archive.endsWith path "/" then pure (disk.makeDirectories path)
    else pure (disk.writeDeep path (← IO.FS.readBinFile path))
  return added.toOption.getD disk

def readDisk (input : IO.FS.Stream) : IO Disk := do
  let here := (← IO.getEnv "PWD").getD "/"
  let disk := Disk.makeDirectories {} here >>= (·.enterDirectory here)
  (← readPaths input []).foldlM addEntry (disk.toOption.getD {})

def readProperties : IO (List (String × String)) := do
  let values ← Properties.keys.mapM fun key => do return (key, ← IO.getEnv key)
  return values.filterMap fun (key, value) => value.map (key, ·)

def write (settings : Option LogConfig) (events : List Event) : IO Unit := do
  match settings with
  | none => return
  | some c => match c.target with
    | .stdout => events.forM fun e => IO.println e.line
    | .stderr => events.forM fun e => IO.eprintln e.line
    | .file folder =>
      IO.FS.createDirAll folder
      IO.FS.withFile (Path.join folder c.file.stem) .append fun file =>
        events.forM fun e => file.putStrLn e.line

def setUpLog (settings : LogConfig) (disk : Disk) : IO (Option LogConfig) := do
  let settings := { settings with file := { settings.file with rotation := .never } }
  match settings.setUp false "" disk with
  | .ok _ => return some settings
  | .error e =>
    IO.eprintln s!"Failed to initialize logging: {e.report.render}"
    return none
  | .panic m =>
    IO.eprintln (panicText m)
    return none

def run (c : CommandLine) : IO UInt32 := do
  let input ← IO.getStdin
  let session := Session.ofCommandLine c (← readDisk input) (← readProperties)
  let (settings, _) := LogConfig.forRun ⟨c.home⟩ session.properties c.toStderr session.disk
  let settings ← setUpLog settings session.disk
  let (outcome, session) := session.start c
  write settings session.log
  match outcome with
  | .started =>
    readToEnd input
    write settings (Session.shutDown { session with log := [] }).log
    return 0
  | .alreadyStarted => return 0
  | .failed =>
    IO.eprintln Product.banner
    return 1

end PluginAgent.Command

open PluginAgent in
def main (words : List String) : IO UInt32 := do
  match CommandLine.parseWith (← IO.getEnv "PROBE_HOME") words with
  | .ok c => Command.run c
  | .error flaw =>
    IO.eprintln flaw.message
    return flaw.exitCode
