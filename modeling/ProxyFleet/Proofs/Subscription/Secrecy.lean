import Mathlib.Data.List.Forall2
import ProxyFleet.Proofs.Protocol.UserKey
import ProxyFleet.Subscription.Render

/-!
# Subscribers never see what a node signs in with

A node has a credential of its own beside those of its users: a uuid, a password, or both. Before
anything is rendered it gives way to the credential of the subscriber, so that two nodes which differ in
it alone cannot be told apart by what a subscriber gets. The password of shadowsocks is such a credential
only where the method takes no keys; with AEAD-2022 it is the key of the server, which clients need.

* `Params.SameService` : the parameters differ in the node's own credential at most;
* `Server.SameService.forUser_eq` : such servers are one and the same for a user;
* `render_eq_of_sameService` : so are the subscriptions to lists of them.
-/

namespace ProxyFleet

set_option autoImplicit false

/-- The second parameters are the first with another credential of the node, or with the same. -/
inductive Params.SameService : Params → Params → Prop
  | same (p : Params) : SameService p p
  | anytls (p : AnyTls) (password : String) : SameService (.anytls p) (.anytls { p with password })
  | hysteria (p : Hysteria) (password : String) : SameService (.hysteria p) (.hysteria { p with password })
  | hysteria2 (p : Hysteria2) (password : String) : SameService (.hysteria2 p) (.hysteria2 { p with password })
  | shadowsocks (p : Shadowsocks) (password : String) (h : UserKey.isAead2022 p.method = false) :
      SameService (.shadowsocks p) (.shadowsocks { p with password })
  | trojan (p : Trojan) (password : String) : SameService (.trojan p) (.trojan { p with password })
  | tuic (p : Tuic) (uuid password : String) : SameService (.tuic p) (.tuic { p with uuid, password })
  | vless (p : Vless) (uuid : String) : SameService (.vless p) (.vless { p with uuid })
  | vmess (p : Vmess) (uuid : String) : SameService (.vmess p) (.vmess { p with uuid })

namespace Subscription

/-- The servers differ in the node's own credential at most. -/
structure Server.SameService (s t : Server) : Prop where
  name : t.name = s.name
  host : t.host = s.host
  port : t.port = s.port
  params : s.params.SameService t.params

theorem clientPassword_of_not_aead2022 {method : String} (h : UserKey.isAead2022 method = false)
    (serverKey uuid : String) : UserKey.clientPassword method serverKey uuid = uuid := by
  unfold UserKey.clientPassword
  cases UserKey.derive? method uuid with
  | none => rfl
  | some key => exact if_neg (by simp [h])

theorem withCredential_eq {p q : Params} (h : p.SameService q) (uuid : String) :
    q.withCredential uuid (passwordFor q uuid) = p.withCredential uuid (passwordFor p uuid) := by
  cases h with
  | shadowsocks p password haead =>
    -- the one password that depends on the node's own, where the method takes keys
    have hold : passwordFor (.shadowsocks p) uuid = uuid := clientPassword_of_not_aead2022 haead _ _
    have hnew : passwordFor (.shadowsocks { p with password }) uuid = uuid :=
      clientPassword_of_not_aead2022 haead _ _
    rw [hold, hnew]
    rfl
  | _ => rfl

theorem Server.SameService.forUser_eq {s t : Server} (h : s.SameService t) (uuid : String) :
    t.forUser uuid = s.forUser uuid := by
  obtain ⟨name, host, port, params⟩ := s
  obtain ⟨_, _, _, params'⟩ := t
  obtain ⟨rfl, rfl, rfl, hparams⟩ := h
  have hcredential : params'.withCredential uuid (passwordFor params' uuid) =
      params.withCredential uuid (passwordFor params uuid) := withCredential_eq hparams uuid
  unfold Server.forUser
  rw [hcredential]

theorem map_forUser_eq {servers others : List Server} (h : List.Forall₂ Server.SameService servers others)
    (uuid : String) : others.map (·.forUser uuid) = servers.map (·.forUser uuid) := by
  induction h with
  | nil => rfl
  | cons hserver _ ih => rw [List.map_cons, List.map_cons, hserver.forUser_eq uuid, ih]

/-- **The credential of a node does not reach subscribers.** Two lists of servers that differ in the
nodes' own credentials at most are rendered alike, in every format, with any settings and for any user. -/
theorem render_eq_of_sameService {servers others : List Server}
    (h : List.Forall₂ Server.SameService servers others) (format : Format) (uuid : String)
    (settings : EngineSettings) : render format others uuid settings = render format servers uuid settings := by
  rw [render, render, map_forUser_eq h uuid]

/-- A node of each protocol, all with this uuid and this password as their own credential. -/
def oneOfEach (uuid password : String) : List Server :=
  [.anytls ⟨password, {}⟩, .hysteria ⟨password, 100, 100, none, {}⟩, .hysteria2 ⟨password, none, none, none, {}⟩,
    .shadowsocks ⟨"aes-128-gcm", password, none, none⟩, .trojan ⟨password, {}, none⟩,
    .tuic ⟨uuid, password, "cubic", "native", {}⟩, .vless ⟨uuid, "", "none", "xudp", none, none⟩,
    .vmess ⟨uuid, 0, "auto", none, none⟩].map fun params => ⟨"a", "127.0.0.1", 10000, params⟩

theorem render_eq_oneOfEach :
    List.Forall₂ Server.SameService (oneOfEach "b" "secret") (oneOfEach "c" "other") ∧
    render .base64 (oneOfEach "c" "other") "a" {} = render .base64 (oneOfEach "b" "secret") "a" {} := by
  have hsame : List.Forall₂ Server.SameService (oneOfEach "b" "secret") (oneOfEach "c" "other") := by
    refine .cons ⟨rfl, rfl, rfl, .anytls _ _⟩ (.cons ⟨rfl, rfl, rfl, .hysteria _ _⟩ ?_)
    refine .cons ⟨rfl, rfl, rfl, .hysteria2 _ _⟩ (.cons ⟨rfl, rfl, rfl, .shadowsocks _ _ (by decide)⟩ ?_)
    refine .cons ⟨rfl, rfl, rfl, .trojan _ _⟩ (.cons ⟨rfl, rfl, rfl, .tuic _ _ _⟩ ?_)
    exact .cons ⟨rfl, rfl, rfl, .vless _ _⟩ (.cons ⟨rfl, rfl, rfl, .vmess _ _⟩ .nil)
  exact ⟨hsame, render_eq_of_sameService hsame .base64 "a" {}⟩

end Subscription

end ProxyFleet
