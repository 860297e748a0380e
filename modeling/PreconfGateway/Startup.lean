import Mathlib.Data.List.Infix
import PreconfGateway.Gateway

/-! Starting the gateway: the configuration with its checks, then the constructors in the
order of the main function. -/
namespace PreconfGateway.Startup
open Encoding Types Crypto Services
variable {P : Platform}

structure BeaconApiSection extends BeaconApiConfig where
  primaryEndpoint : String
  requestTimeoutSecs : UInt64

structure ConstraintsApiSection extends ConstraintsApiConfig where
  relayEndpoint : String

structure RethSection (P : Platform) extends RethConfig P where
  endpoint : String
  requestTimeoutSecs : UInt64

/-- What the file says, as far as startup or the modelled functions read it. -/
structure ConfigFile (P : Platform) where
  validation : ValidationConfig
  beaconApi : BeaconApiSection
  constraintsApi : ConstraintsApiSection
  delegation : DelegationConfig
  reth : RethSection P

def ConfigFile.default : ConfigFile P where
  validation := ⟨[]⟩
  beaconApi := ⟨⟨1606824023⟩, "https://eth-mainnet.g.alchemy.com/v2/YOUR_API_KEY", 30⟩
  constraintsApi := ⟨⟨10, 3, []⟩, "https://relay.example.com"⟩
  delegation := ⟨2, "0x00000002"⟩
  reth := ⟨⟨⟨P.float.literal 2, 30000000, P.float.literal 1, P.float.literal 100⟩⟩, "http://localhost:8545", 10⟩

def ConfigFile.config (file : ConfigFile P) (signing : SigningConfig P) : Config P :=
  ⟨file.validation, file.beaconApi.toBeaconApiConfig, file.constraintsApi.toConstraintsApiConfig, file.delegation,
    file.reth.toRethConfig, signing⟩

/-- What startup meets outside the program: its surroundings, and the libraries it asks for
keys, clients and schedulers. -/
structure Host (P : Platform) where
  env : String → Option String
  /-- A file that is there is read and parsed, or not. -/
  configFile : Option (Result (ConfigFile P))
  secretKeyFromSlice : Bytes → Except String P.SecretKey
  serializeUncompressed : P.SecretKey → Bytes
  blsSecretKeyFromBytes : Bytes → Except String P.BlsSecretKey
  skToPk : P.BlsSecretKey → BlsPublicKey
  /-- An HTTP client with this timeout in seconds. -/
  httpClient : UInt64 → Except String Unit
  jobScheduler : Except String Unit

variable (host : Host P)

section Keys

def parsePrivateKey (hexStr : String) : Result P.SecretKey := do
  let keyBytes ← parseHexBytes hexStr 32
  (host.secretKeyFromSlice keyBytes).mapError (fun e => ["Invalid private key", e])

def ecdsaToAddress (privateKey : P.SecretKey) : String :=
  "0x" ++ Hex.encode ((P.keccak256 ((host.serializeUncompressed privateKey).drop 1)).drop 12)

def parseBlsKey (hexStr : String) : Result (P.BlsSecretKey × BlsPublicKey) := do
  let keyBytes ← Result.context (parseHexBytes hexStr 32) "Invalid BLS private key hex"
  let privateKey ← (host.blsSecretKeyFromBytes keyBytes).mapError (fun e => ["Invalid BLS private key: " ++ e])
  .ok (privateKey, host.skToPk privateKey)

/-- A variable of the environment, with the text for a missing one. -/
def envVar (name missing : String) : Result String :=
  match host.env name with
  | some v => .ok v
  | none => .error [missing, "environment variable not found"]

def SigningConfig.load : Result (SigningConfig P) := do
  let privateKeyHex ← envVar host "COMMITTER_PRIVATE_KEY" "COMMITTER_PRIVATE_KEY environment variable is required. Set it to a valid ECDSA private key (64 hex characters)"
  let ecdsaPrivateKey ← Result.context (parsePrivateKey host privateKeyHex)
    "Invalid COMMITTER_PRIVATE_KEY format. Expected 64 hex characters (32 bytes)"
  let blsHex ← envVar host "BLS_PRIVATE_KEY" "BLS_PRIVATE_KEY environment variable is required. Set it to a valid BLS private key (64 hex characters)"
  let (blsPrivateKey, blsPublicKey) ← Result.context (parseBlsKey host blsHex)
    "Invalid BLS_PRIVATE_KEY format. Expected 64 hex characters (32 bytes)"
  .ok ⟨ecdsaPrivateKey, blsPrivateKey, blsPublicKey, ecdsaToAddress host ecdsaPrivateKey⟩

end Keys

section Load

def contains (text pattern : String) : Bool := decide (pattern.toList <:+: text.toList)

def startsWith (text pre : String) : Bool := decide (pre.toList <+: text.toList)

def placeholder (name : String) : String := "$\x7b" ++ name ++ "\x7d"

/-- An endpoint with the placeholder gives way to the variable, if that is set. -/
def substitute (name endpoint : String) : String :=
  if contains endpoint (placeholder name) then (host.env name).getD endpoint else endpoint

def substituteEnvVars (file : ConfigFile P) : ConfigFile P :=
  { file with
    beaconApi := { file.beaconApi with
      primaryEndpoint := substitute host "BEACON_API_ENDPOINT" file.beaconApi.primaryEndpoint }
    reth := { file.reth with endpoint := substitute host "RETH_ENDPOINT" file.reth.endpoint }
    constraintsApi := { file.constraintsApi with
      relayEndpoint := substitute host "CONSTRAINTS_API_ENDPOINT" file.constraintsApi.relayEndpoint } }

def validateBeaconEndpoint (endpoint : String) : Result Unit :=
  if endpoint = "" then bail "Beacon API endpoint is empty. Please set BEACON_API_ENDPOINT environment variable or configure primary_endpoint in config.toml"
  else
    match [placeholder "BEACON_API_ENDPOINT","YOUR_API_KEY","YOUR_PROJECT_ID","REPLACE_ME"].find? (contains endpoint) with
    | some found => bail ("Beacon API endpoint contains placeholder '" ++ found ++ "'. Please set BEACON_API_ENDPOINT environment variable with a valid endpoint. Example: https://eth-mainnet.g.alchemy.com/v2/YOUR_ACTUAL_KEY")
    | none =>
      if startsWith endpoint "http://" || startsWith endpoint "https://" then .ok ()
      else bail ("Beacon API endpoint must be a valid HTTP/HTTPS URL, got: " ++ endpoint)

def validateEndpoint (endpoint envVarName serviceName : String) : Result Unit :=
  if endpoint = "" then bail (serviceName ++ " endpoint is empty. Please set " ++ envVarName ++ " environment variable or configure the endpoint in config.toml")
  else
    match [placeholder envVarName,"REPLACE_ME","example.com"].find? (contains endpoint) with
    | some found => bail (serviceName ++ " endpoint contains placeholder '" ++ found ++ "'. Please set " ++ envVarName ++ " environment variable with a valid endpoint")
    | none =>
      if startsWith endpoint "http://" || startsWith endpoint "https://" then .ok ()
      else bail (serviceName ++ " endpoint must be a valid HTTP/HTTPS URL, got: " ++ endpoint)

/-- The prefix, and forty bytes after it. -/
def addressShape (address : String) : Bool := startsWith address "0x" && address.utf8ByteSize = 42

def validateSlasherWhitelist (validation : ValidationConfig) : Result Unit :=
  if validation.slasherWhitelist.isEmpty then bail "Slasher whitelist is empty. For security, you must configure at least one allowed slasher contract address in config.toml under [validation] slasher_whitelist"
  else
    match validation.slasherWhitelist.find? (fun address => !addressShape address) with
    | some address => bail ("Invalid slasher address in whitelist: '" ++ address ++ "'. Expected format: 0x followed by 40 hex characters (e.g., 0x1234567890123456789012345678901234567890)")
    | none => .ok ()

def loadFromFile : Result (ConfigFile P) := host.configFile.getD (.ok .default)

def Config.load : Result (ConfigFile P × SigningConfig P) := do
  let file ← loadFromFile host
  let file := substituteEnvVars host file
  let signing ← Result.context (SigningConfig.load host) "Failed to load signing configuration from environment variables. Please set COMMITTER_PRIVATE_KEY and BLS_PRIVATE_KEY"
  validateBeaconEndpoint file.beaconApi.primaryEndpoint
  validateEndpoint file.reth.endpoint "RETH_ENDPOINT" "Reth"
  validateEndpoint file.constraintsApi.relayEndpoint "CONSTRAINTS_API_ENDPOINT" "Constraints API"
  validateSlasherWhitelist file.validation
  .ok (file, signing)

end Load

section Constructors

/-- White space beyond the seven-bit range too. -/
def isWhitespace (c : Char) : Bool :=
  let n := c.toNat
  9 ≤ n && n ≤ 13 || 0x2000 ≤ n && n ≤ 0x200a || n ∈ [0x20,0x85,0xa0,0x1680,0x2028,0x2029,0x202f,0x205f,0x3000]

def isBlank (s : String) : Bool := s.toList.all isWhitespace

def httpClient (timeoutSecs : UInt64) : Result Unit :=
  (host.httpClient timeoutSecs).mapError (fun e => ["Failed to create HTTP client", e])

def RethApiClient.new (config : RethSection P) : Result Unit := httpClient host config.requestTimeoutSecs

def BeaconApiClient.new (config : BeaconApiSection) : Result Unit :=
  if isBlank config.primaryEndpoint then bail "Primary endpoint cannot be empty"
  else if config.requestTimeoutSecs = 0 then bail "Request timeout must be greater than zero"
  else .ok ()

def BeaconApiClient.withDefaultClient (config : BeaconApiSection) : Result Unit := do
  httpClient host config.requestTimeoutSecs
  BeaconApiClient.new config

def ConstraintsApiClient.new (config : ConstraintsApiSection) : Result Unit :=
  if isBlank config.relayEndpoint then bail "Relay endpoint cannot be empty"
  else if config.requestTimeoutSecs = 0 then bail "Request timeout must be greater than zero"
  else if 10 < config.maxRetries then
    bail ("Max retries cannot exceed 10 (got " ++ toString config.maxRetries ++ ")")
  else httpClient host config.requestTimeoutSecs

def DelegationPollingService.new (config : DelegationConfig) : Result BlsManager := do
  (host.jobScheduler).mapError (fun e => ["Failed to create job scheduler", e])
  Result.context (BlsManager.new config.domainApplicationGateway)
    "Failed to create BLS manager for delegation signature verification"

def ConstraintSubmissionService.new : Result Unit :=
  (host.jobScheduler).mapError (fun e => ["Failed to create constraint submission scheduler", e])

end Constructors

/-- What is started runs on the configuration that was loaded. -/
def start (limits : Limits) : Result (Gateway P) := do
  let (file, signing) ← Config.load host
  RethApiClient.new host file.reth
  BeaconApiClient.withDefaultClient host file.beaconApi
  ConstraintsApiClient.new host file.constraintsApi
  let _ ← DelegationPollingService.new host file.delegation
  match h : BlsManager.new file.delegation.domainApplicationGateway with
  | .error e => .error e
  | .ok blsManager => do
    ConstraintSubmissionService.new host
    .ok ⟨file.config signing, limits, blsManager, h⟩

end PreconfGateway.Startup
