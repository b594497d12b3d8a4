/-!
# The name of the service

The name and version that the service gives to agents, to clients, and on the command line.
-/

namespace ProxyFleet

set_option autoImplicit false

/-- The name of the service. -/
def serviceName : String := "nodeplane"

/-- The version of the service. -/
def serviceVersion : String := "0.1.0"

end ProxyFleet
