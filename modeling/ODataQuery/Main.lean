import ODataQuery.Command.Run
import Std.Time

/-!
# The program

Reads the schema file, the input and the clock, and runs the command line.
-/

namespace ODataQuery

/-- The reason why a file or the input cannot be read. -/
def reasonOf : IO.Error → String
  | .noFileOrDirectory .. => "No such file or directory (os error 2)"
  | .permissionDenied .. => "Permission denied (os error 13)"
  | e => toString e

/-- Reads bytes as a text, or gives the reason why they cannot be read. -/
def readText (read : IO ByteArray) : IO (Except String String) := do
  try
    match String.fromUTF8? (← read) with
    | some text => return .ok text
    | none => return .error "stream did not contain valid UTF-8"
  catch e => return .error (reasonOf e)

/-- The present instant in universal time. -/
def presentInstant : IO Instant := do
  let stamp ← Std.Time.Timestamp.now
  let t := Std.Time.PlainDateTime.ofWallTime (.ofTimestamp stamp .zero)
  let time := t.time
  match Date.ofParts? t.date.year t.date.month.val.toNat t.date.day.val.toNat,
    TimeOfDay.ofParts? time.hour.val.toNat time.minute.val.toNat time.second.val.toNat
      time.nanosecond.val.toNat with
  | some date, some time => return .ofUtc date time
  | _, _ => return .earliest

/-- The input, unless it is a terminal. -/
def readInput : IO (Option (Except String String)) := do
  let stdin ← IO.getStdin
  if ← stdin.isTty then return none else return some (← readText stdin.readBinToEnd)

end ODataQuery

open ODataQuery in
/-- Runs the program. -/
def main (arguments : List String) : IO UInt32 := do
  let now ← presentInstant
  let result ← match Invocation.ofArguments arguments with
    | .check a =>
      let schema ← readText (IO.FS.readBinFile (a.schema.getD ""))
      let stdin ← if schema.isOk && CommandResult.readsInput a then readInput else pure none
      pure (CommandResult.runCheck now a schema stdin)
    | _ => pure (CommandResult.run now (fun _ => .error "") none arguments)
  IO.print result.stdout
  IO.eprint result.stderr
  return result.code.toUInt32
