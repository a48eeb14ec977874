import ValueEngine.Inspector

/-! The command line of the inspector. The settings are read from the file that the
variable `DYNSH_CONFIG` names; an argument names a file to show. Without one, lines
are read and replied to until the input ends. -/

namespace ValueEngine.Inspector

/-- Reply to lines as they come; the result is the exit status. -/
partial def serve (config : Config) (input output : IO.FS.Stream) : IO Nat := do
  if ← input.isTty then output.putStr "> "
  output.flush
  let line ← input.getLine
  if line.isEmpty then
    output.putStrLn ""
    return 0
  else
    match reply config line.toList with
    | .silence => serve config input output
    | .text s =>
      output.putStrLn s
      serve config input output
    | .leave => return 0
    | .abort => return abortStatus

/-- The text of the file of settings, if one is named. -/
def settingsText : IO (Option String) := do
  match ← IO.getEnv "DYNSH_CONFIG" with
  | some path => return some (← IO.FS.readFile path)
  | none => return none

end ValueEngine.Inspector

open ValueEngine.Inspector

def main (args : List String) : IO UInt32 := do
  match settings (← settingsText) with
  | .error f =>
    (← IO.getStderr).putStrLn (errorText f.message)
    return 1
  | .ok config =>
    let output ← IO.getStdout
    match args with
    | path :: _ =>
      output.putStrLn (inspectFile config (← IO.FS.readFile path))
      return 0
    | [] =>
      output.putStrLn banner
      return UInt32.ofNat (← serve config (← IO.getStdin) output)
