import ProxyFleet.Proofs.Protocol.Accepted
import ProxyFleet.Proofs.Text.Base64
import ProxyFleet.Proofs.Text.Split

/-!
# Keys of users

The key of a user is base64 of as many bytes as its method asks for, so that no colon is in it; none is
in a server key either, and a client's password can be split into the two.

* `UserKey.decode?_derive` : the length of a user's key;
* `UserKey.Joined` : the password of a client, and what can be had back from it;
* `UserKey.joined_clientPassword` : what clients are told, where the server key has the right length.
-/

namespace ProxyFleet

set_option autoImplicit false

theorem Sha256.length_digest (message : List UInt8) : (digest message).length = 32 := by
  simp [digest, bigEndian]

namespace UserKey

theorem isAead2022_iff {method : String} (h : method ∈ shadowsocksMethods) :
    isAead2022 method = true ↔ (size? method).isSome = true := by
  revert h method
  decide

theorem size?_le {method : String} {size : Nat} (h : size? method = some size) : size ≤ 32 := by
  unfold size? at h
  split_ifs at h with hsmall hlarge
  · obtain rfl := Option.some.inj h
    decide
  · obtain rfl := Option.some.inj h
    decide

theorem derive?_eq_none_iff {method uuid : String} : derive? method uuid = none ↔ size? method = none :=
  Option.map_eq_none_iff

/-- The key of a user has as many bytes as the method's keys have. -/
theorem decode?_derive {method uuid key : String} (h : derive? method uuid = some key) :
    ∃ size bytes, size? method = some size ∧ Base64.standard.decode? key.toList = some bytes ∧
      bytes.length = size := by
  obtain ⟨size, hsize, rfl⟩ := Option.map_eq_some_iff.1 h
  refine ⟨size, _, hsize, Base64.decode?_text Base64.lawful_standard _, ?_⟩
  have hle := size?_le hsize
  rw [List.length_take, Sha256.length_digest]
  omega

/-- No colon is in base64. -/
theorem colon_notMem_of_decode? {cs : List Char} {bytes : List UInt8}
    (h : Base64.standard.decode? cs = some bytes) : ':' ∉ cs := by
  intro hcolon
  have hunknown : ¬Base64.standard.Known ':' := by
    unfold Base64.Known
    decide
  exact hunknown (Base64.known_of_decode?_eq_some h ':' hcolon)

/-- The password with which a client connects is the key of the server, a colon, and the secret of the
user. Both can be had back from it, and the secret has as many bytes as the method's keys have. -/
structure Joined (method serverKey secret password : String) : Prop where
  password_eq : password = serverKey ++ ":" ++ secret
  notMem : ':' ∉ serverKey.toList
  split : Text.splitOnce? ':' password.toList = some (serverKey.toList, secret.toList)
  length : ∃ size bytes, size? method = some size ∧
    Base64.standard.decode? secret.toList = some bytes ∧ bytes.length = size

theorem joined_clientPassword {p : Shadowsocks} (hp : (Params.shadowsocks p).Offerable)
    (hfits : (Params.shadowsocks p).KeyFits) (haead : isAead2022 p.method = true) (uuid : String) :
    Joined p.method p.password (agentSecret p.method uuid) (clientPassword p.method p.password uuid) := by
  obtain ⟨size, hsize⟩ := Option.isSome_iff_exists.1 ((isAead2022_iff hp.1).1 haead)
  obtain ⟨key, hkey⟩ : ∃ key, derive? p.method uuid = some key := by
    rw [derive?, hsize]
    exact ⟨_, rfl⟩
  have hsecret : agentSecret p.method uuid = key := by rw [agentSecret, hkey, Option.getD_some]
  have hpassword : clientPassword p.method p.password uuid = p.password ++ ":" ++ key := by
    rw [clientPassword, hkey]
    dsimp only
    rw [if_pos haead]
    rfl
  obtain ⟨bytes, hbytes, -⟩ := hfits size hsize
  have hcolon := colon_notMem_of_decode? hbytes
  rw [hsecret, hpassword]
  refine ⟨rfl, hcolon, ?_, decode?_derive hkey⟩
  have hsplit := Text.splitOnce?_of_notMem hcolon key.toList
  simpa using hsplit

/-- Of other methods users have no key, and both sides are given the uuid. -/
theorem agentSecret_eq_clientPassword {method : String} (hlisted : method ∈ shadowsocksMethods)
    (h : isAead2022 method = false) (serverKey uuid : String) :
    agentSecret method uuid = uuid ∧ clientPassword method serverKey uuid = uuid := by
  have hnone : derive? method uuid = none := by
    rw [derive?_eq_none_iff, ← Option.not_isSome_iff_eq_none, ← isAead2022_iff hlisted]
    simp [h]
  constructor
  · rw [agentSecret, hnone, Option.getD_none]
  · rw [clientPassword, hnone]

end UserKey

end ProxyFleet
