import ReplayLog.Cli.Run
import ReplayLog.Time.ZoneRule

/-! # The command on a machine

The local zone is the rule in the environment variable TZ, and UTC without one. -/
namespace ReplayLog

def wordsOf : IO.Error → String
  | .noFileOrDirectory _ code details => s!"{details} (os error {code})"
  | .permissionDenied _ code details => s!"{details} (os error {code})"
  | .inappropriateType _ code details => s!"{details} (os error {code})"
  | e => toString e

/-- The code that a shell shows for a program that is aborted. -/
def abortCode : UInt32 := 134

def attempt {α : Type} (action : IO α) : IO (Except String α) := do
  try
    return .ok (← action)
  catch e =>
    return .error (wordsOf e)

/-- Opens a file and reads it; where reading fails, the source fails in the place of its end. -/
def openFile (path : Text) : IO (Except String Source) := do
  match ← attempt (IO.FS.Handle.mk (String.ofList path) .read) with
  | .error reason => return .error reason
  | .ok file =>
    match ← attempt file.readBinToEnd with
    | .ok bytes => return .ok (.ofReads [bytes.toList] none)
    | .error reason => return .ok (.ofReads [] (some reason))

/-- Number of bytes that a process can address. -/
def addressSpace : Nat := 140737488355328

def machine : Cli.Host IO where
  memory := pure addressSpace
  truncate path := attempt (IO.FS.writeFile (String.ofList path) "")
  openSource := openFile
  append path text := do
    let file ← IO.FS.Handle.mk (String.ofList path) .append
    file.putStr (String.ofList text)
  say line := IO.eprintln line
  log level message := IO.eprintln (level.name ++ " " ++ message)

end ReplayLog

/-- Runs the command. -/
def main (args : List String) : IO UInt32 := do
  let rule := (← IO.getEnv "TZ").getD "UTC0"
  let zone := (ReplayLog.ZoneRule.read? rule.toList).getD (.fixed 0)
  match ← ReplayLog.Cli.run ReplayLog.machine zone (args.map String.toList) with
  | .code n => return n.toUInt32
  | .aborted => return ReplayLog.abortCode
