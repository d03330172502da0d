import StationGateway.Order.Sorted
import StationGateway.Settings.Basic
import StationGateway.Text.Blank

/-!
# Settings from the environment

Settings are given by variables, whose names may be written in capital or small letters. Variables
are read in order, the first fault decides, and only then are the settings put together. -/

namespace StationGateway.Settings

open Text

/-- Why the environment gives no settings. -/
inductive EnvironmentError where
  /-- A variable should be a whole number. -/
  | integer (error : IntegerError) (value name : String)
  /-- A variable is given twice. -/
  | repeated (name : String)
  /-- The address to listen on is malformed. -/
  | listenAddress (error : AddressError)
  /-- The host and port to listen on are malformed. -/
  | listenHost (error : AddressError)
  /-- No database is given. -/
  | noDatabase
  deriving DecidableEq, Repr

/-- The wording of a fault of a variable. -/
def variableFault (reason : String) : String :=
  "failed to parse NINJA_* environment variables: " ++ reason

/-- The wording of an error. -/
def EnvironmentError.message : EnvironmentError → String
  | integer error value name =>
      variableFault (error.message ++ s!" while parsing value '{value}' provided by {name}")
  | repeated name => variableFault s!"duplicate field `{name}`"
  | listenAddress error => "invalid NINJA_LISTEN_ADDR value: " ++ error.message
  | listenHost error => "invalid NINJA listen host/port combination: " ++ error.message
  | noDatabase => "NINJA_DATABASE_URL or DATABASE_URL must be set"

/-- The bounds of the variables that are whole numbers: the least number without its sign, and the
greatest one. -/
def numberVariables : List (String × Nat × Nat) :=
  [("ninja_listen_port", 0, 0xFFFF),
    ("ninja_max_pool_size", 0, 0xFFFFFFFF),
    ("ninja_statement_timeout_secs", 0, 0xFFFFFFFFFFFFFFFF),
    ("ninja_response_max_size_mb", 0x8000000000000000, 0x7FFFFFFFFFFFFFFF),
    ("ninja_quota_guest", 0, 0xFFFFFFFF),
    ("ninja_quota_referer", 0, 0xFFFFFFFF),
    ("ninja_quota_basic", 0, 0xFFFFFFFF),
    ("ninja_quota_advanced", 0, 0xFFFFFFFF),
    ("ninja_quota_premium", 0, 0xFFFFFFFF),
    ("ninja_quota_history_guest", 0x8000000000000000, 0x7FFFFFFFFFFFFFFF),
    ("ninja_quota_history_referer", 0x8000000000000000, 0x7FFFFFFFFFFFFFFF),
    ("ninja_quota_history_basic", 0x8000000000000000, 0x7FFFFFFFFFFFFFFF),
    ("ninja_quota_history_advanced", 0x8000000000000000, 0x7FFFFFFFFFFFFFFF),
    ("ninja_quota_history_premium", 0x8000000000000000, 0x7FFFFFFFFFFFFFFF)]

/-- The variables that are texts. -/
def textVariables : List String :=
  ["ninja_listen_addr", "ninja_listen_host", "ninja_database_url", "database_url",
    "ninja_pg_ssl_root_cert", "ninja_pg_ssl_cert", "ninja_pg_ssl_key", "ninja_base_url",
    "ninja_host_url", "ninja_allowed_origins", "ninja_quota_history_url", "ninja_acl_rules_dir"]

/-- The variables that have been read, by name in small letters. -/
structure Variables where
  /-- The texts. -/
  texts : List (String × String)
  /-- The whole numbers. -/
  numbers : List (String × Int)
  deriving Repr

namespace Variables

/-- Nothing read yet. -/
def empty : Variables :=
  ⟨[], []⟩

/-- Whether a variable has been read. -/
def has (given : Variables) (name : String) : Bool :=
  Order.hasKey name given.texts || Order.hasKey name given.numbers

/-- The text of a variable. -/
def text? (given : Variables) (name : String) : Option String :=
  Order.find? name given.texts

/-- The number of a variable. -/
def number (given : Variables) (name : String) (byDefault : Int) : Int :=
  (Order.find? name given.numbers).getD byDefault

/-- The small letter of a capital letter of the Latin alphabet, of which the sign of the kelvin is
one too; any other character as it is. -/
def smallLetter (char : Char) : Char :=
  if char.toNat = 0x212A then 'k' else char.toLower

/-- The variables with one more, of which the environment writes the name in its own way. Others
than those of the settings do not matter. -/
def add (given : Variables) (entry : String × String) : Except EnvironmentError Variables :=
  let (written, value) := entry
  let name := String.ofList (written.toList.map smallLetter)
  match numberVariables.find? fun known => known.1 = name with
  | some (_, negative, greatest) =>
      if given.has name then .error (.repeated name)
      else
        match readInteger negative greatest value.toList with
        | .ok number => .ok { given with numbers := Order.put name number given.numbers }
        | .error error => .error (.integer error value written)
  | none =>
      if textVariables.contains name then
        if given.has name then .error (.repeated name)
        else .ok { given with texts := Order.put name value given.texts }
      else .ok given

/-- The address to listen on: a whole address, or a host and a port. -/
def listen (given : Variables) : Except EnvironmentError Address :=
  match given.text? "ninja_listen_addr" with
  | some given => (Address.ofText given).mapError .listenAddress
  | none =>
      let host := (given.text? "ninja_listen_host").getD "0.0.0.0"
      let port := given.number "ninja_listen_port" defaultPort
      (Address.ofText (host ++ ":" ++ toString port)).mapError .listenHost

/-- A URL without slashes at its end. -/
def dropSlashes (url : String) : String :=
  String.ofList (url.toList.reverse.dropWhile (· = '/')).reverse

/-- The origins of a list, none if all of them are meant: with no origin or a star among them. -/
def origins? (given : String) : Option (List String) :=
  let origins := (pieces ',' given).map trimmed |>.filter (· ≠ "")
  if origins.isEmpty || origins.contains "*" then none else some origins

/-- The limits of a plan, where the names of the variables end in the name of the plan. -/
def limits (given : Variables) (plan : String) (byDefault : Quota.Limits) : Quota.Limits :=
  { rate := (given.number ("ninja_quota_" ++ plan) byDefault.rate).toNat
    days := given.number ("ninja_quota_history_" ++ plan) byDefault.days }

/-- What the plans allow. -/
def allowances (given : Variables) : Quota.Allowances :=
  let standard := Quota.Allowances.standard
  { anonymous := given.limits "guest" standard.anonymous
    referer := given.limits "referer" standard.referer
    basic := given.limits "basic" standard.basic
    advanced := given.limits "advanced" standard.advanced
    premium := given.limits "premium" standard.premium
    historyPage := (given.text? "ninja_quota_history_url").getD standard.historyPage }

/-- The settings that the variables give. -/
def settings (given : Variables) : Except EnvironmentError Settings := do
  let listen ← given.listen
  match (given.text? "ninja_database_url").or (given.text? "database_url") with
  | none => .error .noDatabase
  | some databaseUrl =>
      let baseUrl :=
        ((given.text? "ninja_base_url").map dropSlashes).getD (localUrl listen.port)
      .ok
        { listen
          databaseUrl
          poolSize := max (given.number "ninja_max_pool_size" defaultPoolSize).toNat 1
          rootCertificate := given.text? "ninja_pg_ssl_root_cert"
          certificate := given.text? "ninja_pg_ssl_cert"
          key := given.text? "ninja_pg_ssl_key"
          statementTimeout :=
            max (given.number "ninja_statement_timeout_secs" defaultTimeout).toNat 1 * 1000
          baseUrl
          hostUrl := ((given.text? "ninja_host_url").map dropSlashes).getD baseUrl
          allowedOrigins := (given.text? "ninja_allowed_origins").bind origins?
          sizeLimit := given.number "ninja_response_max_size_mb" defaultSizeLimit
          allowances := given.allowances
          rulesDirectory := given.text? "ninja_acl_rules_dir" }

end Variables

/-- The settings that an environment gives. -/
def ofEnvironment (environment : List (String × String)) : Except EnvironmentError Settings := do
  let given ← environment.foldlM Variables.add .empty
  given.settings

end StationGateway.Settings
