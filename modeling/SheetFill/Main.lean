import SheetFill.CommandLine.Run

/-!
# The program

The command line on the files and streams of the system.
-/

namespace SheetFill.CommandLine

/-- The reason of a failure in the words of the system, with its number. -/
def systemReason (e : IO.Error) : String :=
  match e with
  | .alreadyExists _ code details | .otherError code details | .resourceBusy code details
  | .resourceVanished code details | .unsupportedOperation code details
  | .hardwareFault code details | .unsatisfiedConstraints code details
  | .illegalOperation code details | .protocolError code details | .timeExpired code details
  | .interrupted _ code details | .noFileOrDirectory _ code details
  | .invalidArgument _ code details | .permissionDenied _ code details
  | .resourceExhausted _ code details | .inappropriateType _ code details
  | .noSuchThing _ code details =>
      details ++ " (os error " ++ Text.Numeral.text code.toNat ++ ")"
  | .unexpectedEof => "unexpected end of file"
  | .userError text => text

/-- Do something, or tell the reason why it failed. -/
def attempt {α : Type} (action : IO α) : IO (Except String α) := do
  match ← action.toBaseIO with
  | .ok result => pure (.ok result)
  | .error e => pure (.error (systemReason e))

/-- The terminal of the system. -/
def systemTerminal : Terminal IO where
  load path := attempt do (← IO.FS.Handle.mk path .read).readBinToEnd
  store path content := attempt do (← IO.FS.Handle.mk path .write).write content
  input := attempt do (← IO.getStdin).readBinToEnd
  output content := attempt do
    let out ← IO.getStdout
    out.write content
    out.flush
  report text := do (← IO.getStderr).putStr text

end SheetFill.CommandLine

/-- Run the program. -/
def main (args : List String) : IO UInt32 :=
  SheetFill.CommandLine.run SheetFill.CommandLine.systemTerminal args
