/-
# Warehouse.Bootstrap.Configuration — loading the server configuration

`configuration.cpp`.  A source is asked for each key once in a load, so one load sees a function of
the key.  Every check adds its issues behind those of the checks before it; the texts of the issues
are those of the source.
-/
import Warehouse.Bootstrap.LegacyStartup

namespace Warehouse.Bootstrap

/-! ## Data -/

/-- `ConfigurationSource`, as one load sees it. -/
abbrev ConfigurationSource : Type := Bytes → Option Bytes

/-- `ConfigurationIssueCode` -/
inductive ConfigurationIssueCode
  | missing | empty | invalidInteger | outOfRange | inconsistent
  deriving DecidableEq, Repr

/-- `ConfigurationIssue` -/
structure ConfigurationIssue where
  key : Bytes
  code : ConfigurationIssueCode
  message : Bytes
  deriving DecidableEq, Repr

/-- `HttpServerConfiguration` -/
structure HttpServerConfiguration where
  bindAddress : Bytes := lit "127.0.0.1"
  port : ℕ := 8081
  workerThreads : ℕ := 1
  allowedOrigins : List Bytes := []

/-- `MySqlConfiguration` -/
structure MySqlConfiguration where
  host : Bytes := []
  port : ℕ := 0
  database : Bytes := []
  username : Bytes := []
  password : Bytes := []
  poolSize : ℕ := 1

/-- `ServerConfiguration` -/
structure ServerConfiguration where
  http : HttpServerConfiguration := {}
  mysql : MySqlConfiguration := {}
  legacy : LegacyStartupConfiguration := {}

/-- `ConfigurationResult` -/
structure ConfigurationResult where
  configuration : Option ServerConfiguration
  issues : List ConfigurationIssue

/-- `ConfigurationResult::ok` -/
def ConfigurationResult.ok (result : ConfigurationResult) : Bool :=
  result.configuration.isSome && result.issues.isEmpty

/-! ## Single settings -/

/-- The largest `std::uint16_t`. -/
def uint16Max : ℕ := 2 ^ 16 - 1

/-- The largest `std::size_t`. -/
def sizeMax : ℕ := 2 ^ 64 - 1

/-- `trim`, the same text as the end of `normalizeField`. -/
def trim (value : Bytes) : Bytes :=
  let first := value.findIdx fun c => !isspace c
  let last := value.length - value.reverse.findIdx fun c => !isspace c
  if first < last then (value.drop first).take (last - first) else []

/-- `required`: the value, and the issues that it adds. -/
def required (source : ConfigurationSource) (key : Bytes) :
    Option Bytes × List ConfigurationIssue :=
  match source key with
  | none => (none, [⟨key, .missing, lit "required configuration is missing"⟩])
  | some value =>
      if value.isEmpty then (none, [⟨key, .empty, lit "required configuration is empty"⟩])
      else (some value, [])

/-- `parsePositive`: `std::from_chars` reports a sign, a rest and a number that is too long alike. -/
def parsePositive (key value : Bytes) (maximum : ℕ) : Option ℕ × List ConfigurationIssue :=
  if value.isEmpty || value.head? = some 45 || value.head? = some 43 then
    (none, [⟨key, .invalidInteger, lit "configuration must be an unsigned decimal integer"⟩])
  else
    match parseUnsigned (2 ^ 64) value with
    | none =>
        (none, [⟨key, .invalidInteger, lit "configuration must be an unsigned decimal integer"⟩])
    | some parsed =>
        -- a number that fits into 64 bits may still be out of range
        if parsed = 0 || parsed > maximum then
          (none, [⟨key, .outOfRange, lit "configuration integer is outside the allowed range"⟩])
        else (some parsed, [])

/-- `optionalPositive`: what the target is afterwards, and the issues. -/
def optionalPositive (source : ConfigurationSource) (key : Bytes) (maximum target : ℕ) :
    ℕ × List ConfigurationIssue :=
  match source key with
  | none => (target, [])
  | some value =>
      if value.isEmpty then (target, [⟨key, .empty, lit "configuration is empty"⟩])
      else
        let (parsed, issues) := parsePositive key value maximum
        (parsed.getD target, issues)

/-- The port of the database, if there is a text for it. -/
def databasePort (port : Option Bytes) : ℕ × List ConfigurationIssue :=
  match port with
  | none => (0, [])
  | some value =>
      let (parsed, issues) := parsePositive (lit "WAREHOUSE_DB_PORT") value uint16Max
      (parsed.getD 0, issues)

/-- The address to listen on. -/
def bindAddress (source : ConfigurationSource) (target : Bytes) : Bytes × List ConfigurationIssue :=
  match source (lit "WAREHOUSE_HTTP_BIND_ADDRESS") with
  | none => (target, [])
  | some value =>
      if value.isEmpty then
        (target, [⟨lit "WAREHOUSE_HTTP_BIND_ADDRESS", .empty, lit "configuration is empty"⟩])
      else (value, [])

/-- The issue of a wildcard among the origins. -/
def wildcardIssue : ConfigurationIssue :=
  ⟨lit "WAREHOUSE_CORS_ALLOWED_ORIGINS", .inconsistent, lit "wildcard origin is not allowed"⟩

/-- One turn of the loop over the comma-separated origins. -/
def addOrigin (state : List Bytes × List ConfigurationIssue) (segment : Bytes) :
    List Bytes × List ConfigurationIssue :=
  let origin := trim segment
  if origin = lit "*" then (state.1, state.2 ++ [wildcardIssue])
  -- blank segments and repetitions are passed over
  else if !origin.isEmpty && !state.1.contains origin then (state.1 ++ [origin], state.2)
  else state

/-- `std::string::find` of a character, from a position on. -/
def find (value : Bytes) (c : UInt8) (start : ℕ) : Option ℕ :=
  ((value.drop start).findIdx? (· == c)).map (start + ·)

/-- `std::string::substr`; without a length, all of the rest. -/
def substr (value : Bytes) (start : ℕ) : Option ℕ → Bytes
  | none => value.drop start
  | some length => (value.drop start).take length

/-- The loop over the origins from a position on.  A turn passes at least one byte or is the last. -/
def originsFrom (cors : Bytes) :
    ℕ → ℕ → List Bytes × List ConfigurationIssue → List Bytes × List ConfigurationIssue
  | 0, _, state => state
  | turns + 1, start, state =>
      if start ≤ cors.length then
        let comma := find cors 44 start
        let state := addOrigin state (substr cors start (comma.map (· - start)))
        match comma with
        | none => state
        | some comma => originsFrom cors turns (comma + 1) state
      else state

/-- The origins that may share resources. -/
def allowedOrigins (source : ConfigurationSource) : List Bytes × List ConfigurationIssue :=
  match source (lit "WAREHOUSE_CORS_ALLOWED_ORIGINS") with
  | none => ([], [])
  | some cors => originsFrom cors (cors.length + 1) 0 ([], [])

/-- The two settings of the initial administrator come together. -/
def administratorPair (username password : Option Bytes) : List ConfigurationIssue :=
  if username.isSome ≠ password.isSome then
    [⟨lit "WAREHOUSE_ADMIN_USERNAME/WAREHOUSE_ADMIN_PASSWORD", .inconsistent,
      lit "initial administrator username and password must be supplied together"⟩]
  else []

/-- The flag for the migration of plaintext passwords. -/
def migrationFlag (source : ConfigurationSource) : Bool × List ConfigurationIssue :=
  match source (lit "WAREHOUSE_MIGRATE_PASSWORDS") with
  | none => (false, [])
  | some migrate =>
      let normalized := lowercaseAscii (trim migrate)
      if normalized = lit "1" || normalized = lit "true" || normalized = lit "yes" then (true, [])
      else if normalized = lit "0" || normalized = lit "false" || normalized = lit "no" then
        (false, [])
      else (false, [⟨lit "WAREHOUSE_MIGRATE_PASSWORDS", .inconsistent,
        lit "migration flag must be a boolean value"⟩])

/-! ## The whole configuration -/

/-- `loadServerConfiguration` -/
def loadServerConfiguration (source : ConfigurationSource) : ConfigurationResult :=
  let (host, hostIssues) := required source (lit "WAREHOUSE_DB_HOST")
  let (port, portIssues) := required source (lit "WAREHOUSE_DB_PORT")
  let (database, databaseIssues) := required source (lit "WAREHOUSE_DB_NAME")
  let (username, usernameIssues) := required source (lit "WAREHOUSE_DB_USER")
  let (password, passwordIssues) := required source (lit "WAREHOUSE_DB_PASSWORD")
  let (databasePort, databasePortIssues) := databasePort port
  let (address, addressIssues) := bindAddress source (lit "127.0.0.1")
  let (httpPort, httpPortIssues) :=
    optionalPositive source (lit "WAREHOUSE_HTTP_PORT") uint16Max 8081
  let (workerThreads, workerIssues) :=
    optionalPositive source (lit "WAREHOUSE_HTTP_WORKER_THREADS") sizeMax 1
  let (poolSize, poolIssues) :=
    optionalPositive source (lit "WAREHOUSE_DB_POOL_SIZE") sizeMax 1
  let (origins, originIssues) := allowedOrigins source
  let administrator := source (lit "WAREHOUSE_ADMIN_USERNAME")
  let administratorPassword := source (lit "WAREHOUSE_ADMIN_PASSWORD")
  let (migrate, migrateIssues) := migrationFlag source
  let issues := hostIssues ++ portIssues ++ databaseIssues ++ usernameIssues ++ passwordIssues ++
    databasePortIssues ++ addressIssues ++ httpPortIssues ++ workerIssues ++ poolIssues ++
    originIssues ++ administratorPair administrator administratorPassword ++ migrateIssues
  let configuration : ServerConfiguration :=
    { http :=
        { bindAddress := address
          port := httpPort
          workerThreads := workerThreads
          allowedOrigins := origins }
      mysql :=
        { host := host.getD []
          port := databasePort
          database := database.getD []
          username := username.getD []
          password := password.getD []
          poolSize := poolSize }
      legacy :=
        { initialAdministratorUsername := administrator
          initialAdministratorPassword := administratorPassword
          migratePlaintextPasswords := migrate } }
  { configuration := if issues.isEmpty then some configuration else none
    issues := issues }

end Warehouse.Bootstrap
