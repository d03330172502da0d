import StationGateway.Quota.Plan
import StationGateway.Settings.Address

/-!
# Settings

What the gateway is told by its environment: where it listens, which database it asks, what it says
about itself, and which limits it keeps.
-/

namespace StationGateway

open Text

/-- The settings of the gateway. -/
structure Settings where
  /-- The address it listens on. -/
  listen : Settings.Address
  /-- The URL of the database. -/
  databaseUrl : String
  /-- The greatest number of connections to the database. -/
  poolSize : Nat
  /-- The file of the certificates that the database is trusted by. -/
  rootCertificate : Option String
  /-- The file of the gateway's certificate. -/
  certificate : Option String
  /-- The file of the key of that certificate. -/
  key : Option String
  /-- The time that a statement may take, in milliseconds. -/
  statementTimeout : Nat
  /-- The URL of the gateway in its answers. -/
  baseUrl : String
  /-- The URL of the gateway in its description. -/
  hostUrl : String
  /-- The origins of pages that may read answers, none for all of them. -/
  allowedOrigins : Option (List String)
  /-- The greatest size of a tree in megabytes, if it is positive. -/
  sizeLimit : Int
  /-- What the plans allow. -/
  allowances : Quota.Allowances
  /-- The directory of the access rules, if they are not the standard ones. -/
  rulesDirectory : Option String
  deriving Repr

namespace Settings

/-- The port unless the environment says otherwise. -/
def defaultPort : Nat := 8080

/-- The address of the gateway itself. -/
def localAddress : Address :=
  ⟨.short [127, 0, 0, 1], 0, defaultPort⟩

/-- The URL of a port of the gateway's own host. -/
def localUrl (port : Nat) : String :=
  "http://localhost:" ++ toString port

/-- The greatest number of connections unless the environment says otherwise. -/
def defaultPoolSize : Nat := 10

/-- The seconds that a statement may take unless the environment says otherwise. -/
def defaultTimeout : Nat := 30

/-- The greatest size of a tree in megabytes unless the environment says otherwise. -/
def defaultSizeLimit : Int := 100

/-- The settings with nothing but a database given. -/
def forDatabase (databaseUrl : String) : Settings :=
  { listen := localAddress
    databaseUrl
    poolSize := defaultPoolSize
    rootCertificate := none
    certificate := none
    key := none
    statementTimeout := defaultTimeout * 1000
    baseUrl := localUrl defaultPort
    hostUrl := localUrl defaultPort
    allowedOrigins := none
    sizeLimit := defaultSizeLimit
    allowances := .standard
    rulesDirectory := none }

end Settings

end StationGateway
