import ProxyFleet.Text.Base64
import ProxyFleet.Text.Letters
import ProxyFleet.Text.Sha256

/-!
# Keys of AEAD-2022 shadowsocks

A multi-user AEAD-2022 server knows a key of its own and one per user, which is derived from the
user's uuid and so never stored. The agent is given the user's key, and the client connects with
both, a colon between them.
-/

namespace ProxyFleet.UserKey

set_option autoImplicit false

/-- A method of the AEAD-2022 family. -/
def isAead2022 (method : String) : Bool := "2022-blake3-".toList.isPrefixOf method.toList

/-- The length in bytes of an AEAD-2022 method's keys. -/
def size? (method : String) : Option Nat :=
  if method = "2022-blake3-aes-128-gcm" then some 16
  else if method = "2022-blake3-aes-256-gcm" ∨ method = "2022-blake3-chacha20-poly1305" then some 32
  else none

/-- What the hash of a user's key starts from. -/
def seed : String := "nodeplane-ss2022-user-key-"

/-- The key of a user in base64: the front of a hash over the uuid without its hyphens. -/
def derive? (method uuid : String) : Option String :=
  (size? method).map fun size =>
    let plain := String.ofList (uuid.toList.filter (· ≠ '-'))
    Base64.standard.text ((Sha256.digest (Text.utf8 seed ++ Text.utf8 plain)).take size)

/-- The length of the text of a fresh server key. -/
def serverKeyLength? (method : String) : Option Nat :=
  (size? method).map fun size => (Base64.standard.encode (List.replicate size 0)).length

/-- The secret that an agent is given for a user. -/
def agentSecret (method uuid : String) : String := (derive? method uuid).getD uuid

/-- The password with which a client connects. -/
def clientPassword (method serverKey uuid : String) : String :=
  match derive? method uuid with
  | some key => if isAead2022 method then s!"{serverKey}:{key}" else uuid
  | none => uuid

end ProxyFleet.UserKey
