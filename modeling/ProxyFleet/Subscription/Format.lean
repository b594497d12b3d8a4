import ProxyFleet.Text.Blank
import ProxyFleet.Text.Letters

/-!
# Subscription formats

The formats a subscription is rendered in, the names they go by, and which one a request gets: the
format it names, else the one its client is known for, else the bundle of share links.
-/

namespace ProxyFleet.Subscription

set_option autoImplicit false

/-- A subscription format. -/
inductive Format where
  | singBox
  | clash
  | clashMeta
  | surge
  | surfboard
  | quantumultX
  | loon
  | base64
  deriving DecidableEq

namespace Format

/-- Every format. -/
def all : List Format :=
  [singBox, clash, clashMeta, surge, surfboard, quantumultX, loon, base64]

/-- The name of a format. -/
def name : Format → String
  | singBox => "singbox"
  | clash => "clash"
  | clashMeta => "clashmeta"
  | surge => "surge"
  | surfboard => "surfboard"
  | quantumultX => "quantumultx"
  | loon => "loon"
  | base64 => "base64"

/-- The media type of a format. -/
def contentType : Format → String
  | singBox => "application/json; charset=utf-8"
  | clash | clashMeta => "text/yaml; charset=utf-8"
  | _ => "text/plain; charset=utf-8"

/-- The names by which a format may be asked for. -/
def names : Format → List String
  | singBox => ["singbox", "sing-box", "sing_box"]
  | clash => ["clash"]
  | clashMeta => ["clashmeta", "clash-meta", "clash.meta", "meta", "mihomo"]
  | surge => ["surge"]
  | surfboard => ["surfboard"]
  | quantumultX => ["quantumultx", "quantumult-x", "quantumult", "qx"]
  | loon => ["loon"]
  | base64 => ["base64", "v2ray", "uri", "shadowrocket"]

/-- How a name is compared: without the blanks around it, and in any letter case. -/
def foldedName (s : String) : String := Text.lower (Text.trim s)

/-- The format of a name. -/
def ofName? (s : String) : Option Format := all.find? (·.names.contains (foldedName s))

/-- Parts of a client's name, in the order in which they are looked for. -/
def clients : List (String × Format) :=
  [("clash.meta", clashMeta), ("clash-meta", clashMeta), ("mihomo", clashMeta),
   ("clash-verge", clashMeta), ("stash", clashMeta), ("clash", clash), ("sing-box", singBox),
   ("sfa", singBox), ("sfi", singBox), ("sfm", singBox), ("surfboard", surfboard),
   ("surge", surge), ("quantumult", quantumultX), ("loon", loon)]

/-- The format that a client is known for. -/
def ofUserAgent? (userAgent : String) : Option Format :=
  (clients.find? fun (part, _) => Text.contains (Text.lower userAgent) part).map (·.2)

/-- The format that a request gets. -/
def select (format userAgent : Option String) : Format :=
  ((format.bind ofName?).or (userAgent.bind ofUserAgent?)).getD base64

end Format

/-- The text that reports a name no format has. -/
def unknownFormat (s : String) : String :=
  let folded := Format.foldedName s
  s!"unknown subscription format: {folded}"

end ProxyFleet.Subscription
