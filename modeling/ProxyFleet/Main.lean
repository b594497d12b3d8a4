import ProxyFleet.CommandLine.Run
import ProxyFleet.Fleet.Archive
import Std.Time.DateTime.Timestamp

/-!
# The program

`main` reads the command line, carries the command out on the fleet that is stored, and keeps what
became of the fleet. The fleet is stored as the document of `Fleet.archive`, where the settings say
that the database is.

The clock and random bytes come from the system. Ports that other programs have bound are not looked
for, and no agent is called: every command sees a system without others.
-/

namespace ProxyFleet

set_option autoImplicit false

/-- The bytes of a file, if it is there. -/
def fileBytes? (path : String) : IO (Option ByteArray) := do
  match ← (IO.FS.readBinFile path).toBaseIO with
  | .ok bytes => return some bytes
  | .error (.noFileOrDirectory ..) => return none
  | .error e => throw e

/-- What a command draws on. -/
def systemContext : IO CommandContext := do
  let time ← Std.Time.Timestamp.now
  let uuid ← IO.getRandomBytes 16
  let token ← IO.getRandomBytes 32
  let key ← IO.getRandomBytes 32
  return {
    now := ⟨time.toNanosecondsSinceUnixEpoch.val⟩
    refused := fun _ => false
    transport := fun _ => none
    uuid := Text.randomUuid uuid.data.toList
    token := Base64.urlSafe.text token.data.toList
    key := fun n => Base64.standard.text (key.data.toList.take n) }

/-- The fleet that is stored under a path, without a row if nothing is. -/
def storedFleet (settings : Settings) (path : String) : IO (Except CommandFailure Fleet) := do
  let some bytes ← fileBytes? path | return .ok (Fleet.empty settings)
  let document := (String.fromUTF8? bytes).bind Json.parseRaw?
  return orFailure "Failed to open database" StoreError.causes
    (JsonColumn.read document (Fleet.ofArchive settings))

/-- Show the output of a command. The answer is the exit code. -/
def CommandOutput.print (output : CommandOutput) : IO UInt32 := do
  IO.print output.stdout
  IO.eprint output.stderr
  return UInt32.ofNat output.code

/-- Carry out a command with the settings of a file, and store what became of the fleet. -/
def runStored (file : Option ByteArray) (command : Command) : IO CommandOutput := do
  let context ← systemContext
  let .ok settings := Settings.load file | return ((Fleet.empty {}).runCommand context file command).1
  let path := settings.database.path
  match ← storedFleet settings path with
  | .error failure => return failure.output
  | .ok fleet =>
    let (output, changed) := fleet.runCommand context file command
    let document := changed.archive.compact
    if document != fleet.archive.compact then IO.FS.writeFile path document
    return output

end ProxyFleet

open ProxyFleet in
/-- Carry out the command of a command line. -/
def main (words : List String) : IO UInt32 := do
  match Command.ofWords words with
  | .error interruption => interruption.output.print
  | .ok (path, command) =>
    try (← runStored (← fileBytes? path) command).print
    catch e => CommandOutput.print (CommandOutput.complaint s!"Error: {e}")
