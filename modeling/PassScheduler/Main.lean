import PassScheduler.CommandLine.Run

/-!
Contract: the command on the files and streams of the system.

Does not own: any decision; `CommandLine.run` makes them all.
-/

namespace PassScheduler.CommandLine

/-- A failure of the system, with its number where it has one. -/
def FileError.ofSystem : IO.Error → FileError
  | .noFileOrDirectory .. => .notFound
  | .permissionDenied _ code reason | .inappropriateType _ code reason
  | .invalidArgument _ code reason | .resourceExhausted _ code reason
  | .noSuchThing _ code reason | .alreadyExists _ code reason
  | .resourceBusy code reason | .unsupportedOperation code reason | .otherError code reason =>
      .other (reason ++ " (os error " ++ code.toNat.repr ++ ")")
  | error => .other (toString error)

def systemHost : Host IO where
  read path := do
    try
      let bytes ← IO.FS.readBinFile path
      match String.fromUTF8? bytes with
      | some text => pure (.ok text)
      | none => pure (.error .notText)
    catch error => pure (.error (.ofSystem error))
  write path text := do
    try
      IO.FS.writeFile path text
      pure (.ok ())
    catch error => pure (.error (.ofSystem error))

end PassScheduler.CommandLine

open PassScheduler in
def main (arguments : List String) : IO UInt32 := do
  let outcome ← CommandLine.run CommandLine.systemHost arguments
  outcome.log.forM fun notice => IO.eprintln notice.line
  outcome.messages.forM IO.eprintln
  if outcome.exitCode = 0 then IO.print outcome.guidance else IO.eprint outcome.guidance
  IO.print outcome.output
  pure (UInt32.ofNat outcome.exitCode)
