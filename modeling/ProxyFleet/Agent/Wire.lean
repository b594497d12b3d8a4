import ProxyFleet.Json.Decode

/-!
# What agents say

The documents that the agent of a node answers with: what it is, the users it knows, and what it has
counted. What an agent leaves out is empty or zero.
-/

namespace ProxyFleet

set_option autoImplicit false

/-- What an agent is. -/
structure AgentInfo where
  server : String := ""
  apiVersion : String := ""
  deriving DecidableEq

/-- A user as an agent knows it; the name is the user's uuid. -/
structure RemoteUser where
  username : String
  secret : String := ""
  uplinkBytes : Int := 0
  downlinkBytes : Int := 0
  uplinkPackets : Int := 0
  downlinkPackets : Int := 0
  tcpSessions : Int := 0
  udpSessions : Int := 0
  deriving DecidableEq

/-- What an agent has counted. -/
structure RemoteStats where
  uplinkBytes : Int := 0
  downlinkBytes : Int := 0
  users : List RemoteUser := []
  deriving DecidableEq

/-! ## Documents -/

/-- The document of what an agent is. -/
def AgentInfo.toJson (i : AgentInfo) : Json :=
  .obj [("server", .str i.server), ("apiVersion", .str i.apiVersion)]

/-- The document of a user. -/
def RemoteUser.toJson (u : RemoteUser) : Json :=
  .obj [("username", .str u.username), ("uPSK", .str u.secret), ("uplinkBytes", .int u.uplinkBytes),
    ("downlinkBytes", .int u.downlinkBytes), ("uplinkPackets", .int u.uplinkPackets),
    ("downlinkPackets", .int u.downlinkPackets), ("tcpSessions", .int u.tcpSessions),
    ("udpSessions", .int u.udpSessions)]

/-- The document of what was counted. -/
def RemoteStats.toJson (s : RemoteStats) : Json :=
  .obj [("uplinkBytes", .int s.uplinkBytes), ("downlinkBytes", .int s.downlinkBytes),
    ("users", .arr (s.users.map RemoteUser.toJson))]

open Decoder

/-- Reads what an agent is. -/
def AgentInfo.decoder : Decoder AgentInfo :=
  record "AgentInfo" (AgentInfo.mk <$> Fields.default "server" text ""
    <*> Fields.default "apiVersion" text "")

/-- Reads a user. -/
def RemoteUser.decoder : Decoder RemoteUser :=
  record "RemoteUser" (RemoteUser.mk <$> Fields.required "username" text
    <*> Fields.default "uPSK" text "" <*> Fields.default "uplinkBytes" i64 0
    <*> Fields.default "downlinkBytes" i64 0 <*> Fields.default "uplinkPackets" i64 0
    <*> Fields.default "downlinkPackets" i64 0 <*> Fields.default "tcpSessions" i64 0
    <*> Fields.default "udpSessions" i64 0)

/-- Reads what was counted. -/
def RemoteStats.decoder : Decoder RemoteStats :=
  record "RemoteStats" (RemoteStats.mk <$> Fields.default "uplinkBytes" i64 0
    <*> Fields.default "downlinkBytes" i64 0 <*> Fields.default "users" (list RemoteUser.decoder) [])

/-- Reads the list of users. -/
def RemoteUser.listDecoder : Decoder (List RemoteUser) :=
  record "UserList" (id <$> Fields.default "users" (list RemoteUser.decoder) [])

end ProxyFleet
