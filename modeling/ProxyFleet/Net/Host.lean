import ProxyFleet.Net.Address

/-!
# Host names

`Net.isHost` accepts what may stand as a server: `localhost`, an IP literal, or a domain name of
at least two labels whose last is made of letters. `Net.authority` puts a host and a port together.
-/

namespace ProxyFleet.Net

set_option autoImplicit false

/-- A label: one to 63 ASCII letters, digits and hyphens, with no hyphen at either end. -/
def isLabel (cs : List Char) : Bool :=
  1 ≤ cs.length && cs.length ≤ 63 && cs.all (fun c => c.isAlphanum || c == '-') &&
    cs.head? != some '-' && cs.getLast? != some '-'

/-- A last label: two to 63 ASCII letters. -/
def isTopLabel (cs : List Char) : Bool :=
  2 ≤ cs.length && cs.length ≤ 63 && cs.all Char.isAlpha

/-- Labels with points between them, the last a top label. `label` holds the characters since the
last point, last first, and `inner` tells whether there was a point. -/
def endsAsDomain (inner : Bool) (label : List Char) : List Char → Bool
  | [] => inner && isTopLabel label.reverse
  | c :: rest =>
    if c = '.' then isLabel label.reverse && endsAsDomain true [] rest
    else endsAsDomain inner (c :: label) rest

/-- A domain name of at least two labels. -/
def isDomain (s : String) : Bool := endsAsDomain false [] s.toList

/-- A host that may stand as a server. -/
def isHost (s : String) : Bool := s == "localhost" || isIPAddress s || isDomain s

/-- A host and a port; a host with colons stands in brackets. -/
def authority (host : String) (port : Nat) : String :=
  let cs := host.toList
  if cs.contains ':' && cs.head? != some '[' then s!"[{host}]:{port}" else s!"{host}:{port}"

end ProxyFleet.Net
