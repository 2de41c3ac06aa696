import AuditPanel.Command.Run
import AuditPanel.Digest
import Std.Time.DateTime.Timestamp

/-!
The program: it collects the files and variables that a command line names, runs the command and
tells how it ended.
-/

set_option autoImplicit false

namespace AuditPanel.Program

def usage : String :=
  "Multi-agent smart contract auditor\n\n"
    ++ "Usage: chainaudit [OPTIONS] <COMMAND>\n\n"
    ++ "Commands:\n"
    ++ "  audit     Audit a Solidity source file\n"
    ++ "  address   Audit a deployed contract by address\n"
    ++ "  serve     Start the HTTP REST API server\n"
    ++ "  validate  Validate a configuration file\n"
    ++ "  help      Print this message\n\n"
    ++ "Options:\n"
    ++ "  -v, --verbose          Increase log verbosity (repeat for more)\n"
    ++ "      --json-logs        Emit logs as JSON lines\n"
    ++ "      --no-color         Disable colored output\n"
    ++ "  -c, --config <CONFIG>  YAML configuration file\n"
    ++ "  -h, --help             Print help\n"
    ++ "  -V, --version          Print version\n"

/-- The entry of a file in a table of files; a directory is an entry below itself, and nothing has
no entry. -/
def entriesAt (path : String) : IO (List (String × String)) := do
  let place := (← IO.currentDir) / path
  if ← place.isDir then return [(path ++ "/", "")]
  try
    return [(path, ← IO.FS.readFile place)]
  catch _ => return []

/-- The entries of the files in a directory and below. -/
partial def entriesBelow (dir : String) : IO (List (String × String)) := do
  let place := (← IO.currentDir) / dir
  if !(← place.isDir) then return []
  let mut entries := []
  for e in ← place.readDir do
    let path := String.ofList ((Directory.mk [] dir).pathTo e.fileName.toList)
    entries := entries ++ (← if ← e.path.isDir then entriesBelow path else entriesAt path)
  return entries

def environmentOf (names : List String) : IO Config.Environment := do
  let values ← names.mapM fun name => do return (name, ← IO.getEnv name)
  return fun name => (values.find? (·.1 = name)).bind (·.2)

/-- A random id: 32 hexadecimal digits in five groups, with the marks of a random one. -/
def idOf (bytes : ByteArray) : String :=
  let digits := (Digest.hex bytes).toList
  let group (start length : Nat) : List Char := (digits.drop start).take length
  String.ofList (group 0 8 ++ ['-'] ++ group 8 4 ++ ['-', '4'] ++ group 13 3 ++ ['-', 'a'] ++
    group 17 3 ++ ['-'] ++ group 20 12)

def occasionNow : IO Occasion := do
  let bytes ← IO.getRandomBytes 16
  let nanos := (← Std.Time.Timestamp.now).toNanosecondsSinceUnixEpoch.val.toNat
  return ⟨idOf bytes, ⟨nanos / 1000000000, nanos % 1000000000⟩⟩

def surroundingsOf (line : CommandLine) : IO Surroundings := do
  let named := (← line.files.mapM entriesAt).flatten
  let c :=
    (Command.configOf ⟨.root named, fun _ => none, Http.offline, default, fun _ => false⟩
      line.config).toOption
  let config := c.getD .empty
  let configured := (← (line.filesOfConfig config).mapM entriesAt).flatten
  let templates ← match config.analysis.bind (·.promptsDir) with
    | some dir => entriesBelow dir
    | none => pure []
  return ⟨.root (named ++ configured ++ templates), ← environmentOf (line.variableNames config),
    Http.offline, ← occasionNow, fun _ => false⟩

/-- A text put behind the end of a file, which is made with its directories if it is not there. -/
def appendTo (path text : String) : IO Unit := do
  let place := (← IO.currentDir) / path
  if let some parent := place.parent then IO.FS.createDirAll parent
  let handle ← IO.FS.Handle.mk place .append
  handle.putStr text

def execute (line : CommandLine) : IO UInt32 := do
  let r := line.run (← surroundingsOf line)
  if let some (path, text) := r.trail then appendTo path text
  match r.outcome with
  | .ok text => IO.print text
  | .error e => IO.eprintln ("Error: " ++ e.message)
  | .crashed => IO.eprintln "overflow when adding a duration to an instant"
  return UInt32.ofNat r.exitCode

end AuditPanel.Program

def main (words : List String) : IO UInt32 := do
  match AuditPanel.CommandLine.ofWords words with
  | .ok line => AuditPanel.Program.execute line
  | .error e =>
    if e = .help then IO.print AuditPanel.Program.usage else IO.eprint AuditPanel.Program.usage
    return UInt32.ofNat e.exitCode
