import ProxyFleet.Nodes.Roster
import ProxyFleet.Settings.File
import ProxyFleet.Sync.Traffic
import ProxyFleet.Text.Letters

/-!
# Failures on the command line

A `CommandFailure` is a failure with its causes, the outermost first. Where one failure is only the
wrapping of another, both are in the list.

* `StoreError.causes`, `PortError.causes`, `NodeError.causes`, `SyncError.causes`,
  `LoadError.causes` : a failure as a list of causes;
* `CommandFailure.text` : what is shown; several causes under the outermost are numbered.
-/

namespace ProxyFleet

set_option autoImplicit false

/-- A failure with its causes, the outermost first. -/
abbrev CommandFailure := List String

/-- The causes of a refused statement. -/
def Refusal.causes (r : Refusal) : CommandFailure :=
  [s!"error returned from database: {r.message}", r.message]

/-- The causes of a failure of the store. -/
def StoreError.causes (e : StoreError) : CommandFailure :=
  e.message :: match e with
    | .database r => r.causes
    | .serialization (some reason) => [reason.message]
    | _ => []

/-- The causes of a port that is not to be had. -/
def PortError.causes (e : PortError) : CommandFailure :=
  e.message :: match e with
    | .store inner => inner.causes
    | _ => []

/-- The causes of a failed request about a node. -/
def NodeError.causes (e : NodeError) : CommandFailure :=
  match e with
  | .port inner => inner.causes
  | .store inner => e.message :: inner.causes
  | _ => [e.message]

/-- The causes of what could not be done with agents. -/
def SyncError.causes (e : SyncError) : CommandFailure :=
  e.message :: match e with
    | .store inner => inner.causes
    | .agent inner => [inner.message]

/-- The causes of a configuration file that was refused. -/
def LoadError.causes (e : LoadError) : CommandFailure :=
  e.message :: match e with
    | .unreadable => ["stream did not contain valid UTF-8"]
    | .malformed => [e.message]
    | .invalid _ => []

namespace CommandFailure

/-- A cause with its head; the lines of one cause are aligned. -/
def indented (head indent : String) (cause : String) : String :=
  head ++ ("\n" ++ indent).intercalate (Text.split '\n' cause)

/-- The causes under the outermost one; several are numbered. -/
def causesText (causes : List String) : String :=
  match causes with
  | [] => ""
  | [cause] => "\n\nCaused by:\n" ++ indented "    " "    " cause
  | _ =>
    let numbered := (List.range causes.length).zip causes
    "\n\nCaused by:" ++ String.join (numbered.map fun (n, cause) =>
      "\n" ++ indented (Text.padLeft 5 (toString n) ++ ": ") "       " cause)

/-- What is shown of a failure. -/
def text (f : CommandFailure) : String :=
  match f with
  | [] => ""
  | first :: causes => s!"Error: {first}" ++ causesText causes ++ "\n"

end CommandFailure

/-- A value, or the failure of what was tried. -/
def orFailure {ε α : Type} (tried : String) (causes : ε → CommandFailure) (r : Except ε α) :
    Except CommandFailure α :=
  r.mapError fun e => tried :: causes e

end ProxyFleet
