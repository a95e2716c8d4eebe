-- SUMMARY: The SchemaRegistry resource and the checks of its spec.
import KrabkaOperator.Crd.BrokerTuning
import KrabkaOperator.Crd.NodePool

/-!
# Schema registries

A `SchemaRegistry` runs some replicas of the registry, which are clients of a Kafka cluster.
-/

namespace Registry

open Kube Crd
open Tuning (Measure)

/-! ## The resource -/

structure SchemaRegistryRuntime where
  clientDispatchQueueCapacity : Option Nat := none
  clientFrameMax : Option Measure := none
  electionSessionTimeout : Option Measure := none
  electionRebalanceTimeout : Option Measure := none
  electionHeartbeatInterval : Option Measure := none
  electionReconnectBackoff : Option Measure := none
  storeReaderRetryBackoff : Option Measure := none
  storeReaderFetchMaxWait : Option Measure := none
  storeReaderFetchMax : Option Measure := none
  schemasTopicCreateTimeout : Option Measure := none
  forwardMaxBody : Option Measure := none
  defaultCompatibilityLevel : Option String := none
  defaultMode : Option String := none

structure SchemaRegistryHealthChecks where
  startupPeriodSeconds : Option Int := none
  startupFailureThreshold : Option Int := none
  readinessInitialDelaySeconds : Option Int := none
  readinessPeriodSeconds : Option Int := none
  livenessInitialDelaySeconds : Option Int := none
  livenessPeriodSeconds : Option Int := none

structure CertManagerIssuerRef where
  name : String
  kind : Option String := none
  group : Option String := none
  deriving DecidableEq, Repr

inductive TlsClientAuth where
  | disabled
  | optional
  | required
  deriving DecidableEq, Repr

structure SchemaRegistryTls where
  secretName : Option String := none
  issuerRef : Option CertManagerIssuerRef := none
  clientAuth : Option TlsClientAuth := none
  clientCaSecretName : Option String := none
  deriving DecidableEq, Repr

structure BasicAuthn where
  usersSecretName : String
  usersSecretKey : Option String := none
  deriving DecidableEq, Repr

inductive BearerMode where
  | unsecured
  | jwks
  deriving DecidableEq, Repr

structure BearerAuthn where
  mode : BearerMode
  principalClaim : Option String := none
  jwksEndpointUri : Option String := none
  jwksValidIssuer : Option String := none
  jwksExpectedAudience : Option String := none
  jwksTlsSecretName : Option String := none
  jwksPrincipalClaim : Option String := none
  jwksRefresh : Option Measure := none

structure SchemaRegistryAuthn where
  requireAuth : Bool := false
  realm : Option String := none
  basic : Option BasicAuthn := none
  bearer : Option BearerAuthn := none

structure SchemaRegistryAuthz where
  enabled : Bool := false
  superUsers : List String := []
  aclRefresh : Option Measure := none

structure KafkaClientSasl where
  mechanism : String
  secretRef : String
  deriving DecidableEq, Repr

structure KafkaClientTls where
  caSecretName : Option String := none
  serverNameOverride : Option String := none
  deriving DecidableEq, Repr

structure SchemaRegistryKafkaClient where
  securityProtocol : Option String := none
  sasl : Option KafkaClientSasl := none
  tls : Option KafkaClientTls := none
  deriving DecidableEq, Repr

structure SchemaRegistrySpec where
  replicas : Int
  image : Option String := none
  bootstrapServers : Option String := none
  schemasTopic : Option String := none
  schemasTopicReplicationFactor : Option Int := none
  groupId : Option String := none
  runtime : Option SchemaRegistryRuntime := none
  clientId : Option String := none
  healthChecks : Option SchemaRegistryHealthChecks := none
  kafkaClient : Option SchemaRegistryKafkaClient := none
  tls : Option SchemaRegistryTls := none
  authentication : Option SchemaRegistryAuthn := none
  authorization : Option SchemaRegistryAuthz := none

structure SchemaRegistryStatus where
  conditions : List Condition := []
  observedGeneration : Option Int := none
  replicas : Option Int := none
  readyReplicas : Option Int := none
  url : Option String := none

structure SchemaRegistry where
  name : String
  ns : Option String := none
  uid : Option String := none
  generation : Option Int := none
  labels : BTreeMap String := ∅
  spec : SchemaRegistrySpec
  status : Option SchemaRegistryStatus := none

/-- The namespace of an object whose metadata names none. -/
def SchemaRegistry.namespace? (obj : SchemaRegistry) : String := obj.ns.getD "default"

/-! ## Checks -/

/-- Code beyond the operator: conversions and texts of measures, and rules of the clients. -/
structure Lib where
  millisI64 : Measure → Int
  bytesU64 : Measure → Nat
  humanTime : Measure → String
  humanSize : Measure → String
  greaterError : (least value : Int) → String
  emptyStringError : String
  dispatchQueueCapacity : Nat → Except String Unit
  clientFrameMax : Measure → Except String Unit

abbrev Check := Except String Unit

def ensure (c : Prop) [Decidable c] (e : String) : Check := if c then .ok () else .error e

/-- A check of a value that may not be set. -/
def optional (check : α → Check) : Option α → Check
  | none => .ok ()
  | some value => check value

def defaultElectionSessionTimeout : Measure := Tuning.millis 10000

def defaultElectionRebalanceTimeout : Measure := Tuning.millis 30000

def defaultElectionHeartbeatInterval : Measure := Tuning.millis 3000

def compatibilityLevels : List String :=
  ["NONE", "BACKWARD", "BACKWARD_TRANSITIVE", "FORWARD", "FORWARD_TRANSITIVE", "FULL",
    "FULL_TRANSITIVE"]

def modes : List String := ["READWRITE", "READONLY", "IMPORT"]

variable (lib : Lib)

/-- An integer that is not below `least`. -/
def validate (least : Int) (path : String) : Option Int → Check :=
  optional fun value => ensure (least ≤ value) (path ++ ": " ++ lib.greaterError least value)

def wholeMillis (path : String) : String :=
  path ++ ": must be a positive whole number of milliseconds within 1..=i32::MAX"

def wholeBytes (path : String) : String :=
  path ++ ": must be a positive whole number of bytes within 1..=i32::MAX"

def validateProtocolMillisI32 (value : Option Measure) (path : String) : Check :=
  value |> optional fun value => do
    let millis := lib.millisI64 value
    ensure (value ≠ .nonFinite ∧ Tuning.millis millis = value) (wholeMillis path)
    ensure (-2147483648 ≤ millis ∧ millis ≤ 2147483647) (wholeMillis path)
    ensure (0 < millis) (wholeMillis path)

def validateProtocolBytesI32 (value : Option Measure) (path : String) : Check :=
  value |> optional fun value => do
    let bytes := lib.bytesU64 value
    ensure (value ≠ .nonFinite ∧ Tuning.bytes bytes = value) (wholeBytes path)
    ensure (bytes ≤ 2147483647) (wholeBytes path)
    ensure (0 < bytes) (wholeBytes path)

def validatePositive (value : Option Measure) (path : String) : Check :=
  value |> optional fun value =>
    ensure (value ≠ .nonFinite ∧ ¬ value ≤ .finite 0) (path ++ ": must be positive")

/-- The relations between the intervals of the election, with their defaults. -/
def validateElection (runtime : SchemaRegistryRuntime) : Check := do
  let session := runtime.electionSessionTimeout.getD defaultElectionSessionTimeout
  let rebalance := runtime.electionRebalanceTimeout.getD defaultElectionRebalanceTimeout
  let heartbeat := runtime.electionHeartbeatInterval.getD defaultElectionHeartbeatInterval
  ensure (¬ session ≤ heartbeat)
    "spec.runtime.electionHeartbeatInterval must be below electionSessionTimeout"
  ensure (¬ rebalance < session)
    "spec.runtime.electionSessionTimeout must not exceed electionRebalanceTimeout"

def validateRuntime (runtime : SchemaRegistryRuntime) : Check := do
  runtime.clientDispatchQueueCapacity |> optional fun value =>
    (lib.dispatchQueueCapacity value).mapError ("spec.runtime.clientDispatchQueueCapacity: " ++ ·)
  runtime.clientFrameMax |> optional fun value =>
    (lib.clientFrameMax value).mapError ("spec.runtime.clientFrameMax: " ++ ·)
  validateProtocolMillisI32 lib runtime.storeReaderFetchMaxWait
    "spec.runtime.storeReaderFetchMaxWait"
  validateProtocolBytesI32 lib runtime.storeReaderFetchMax "spec.runtime.storeReaderFetchMax"
  validateProtocolMillisI32 lib runtime.schemasTopicCreateTimeout
    "spec.runtime.schemasTopicCreateTimeout"
  validatePositive runtime.electionSessionTimeout "spec.runtime.electionSessionTimeout"
  validatePositive runtime.electionRebalanceTimeout "spec.runtime.electionRebalanceTimeout"
  validatePositive runtime.electionHeartbeatInterval "spec.runtime.electionHeartbeatInterval"
  validatePositive runtime.electionReconnectBackoff "spec.runtime.electionReconnectBackoff"
  validatePositive runtime.storeReaderRetryBackoff "spec.runtime.storeReaderRetryBackoff"
  validatePositive runtime.forwardMaxBody "spec.runtime.forwardMaxBody"
  validateElection runtime
  runtime.defaultCompatibilityLevel |> optional fun level =>
    ensure (level ∈ compatibilityLevels) "spec.runtime.defaultCompatibilityLevel is invalid"
  runtime.defaultMode |> optional fun mode =>
    ensure (mode ∈ modes) "spec.runtime.defaultMode is invalid"

def validateHealth (health : SchemaRegistryHealthChecks) : Check := do
  validate lib 1 "spec.healthChecks.startupPeriodSeconds" health.startupPeriodSeconds
  validate lib 1 "spec.healthChecks.startupFailureThreshold" health.startupFailureThreshold
  validate lib 0 "spec.healthChecks.readinessInitialDelaySeconds"
    health.readinessInitialDelaySeconds
  validate lib 1 "spec.healthChecks.readinessPeriodSeconds" health.readinessPeriodSeconds
  validate lib 0 "spec.healthChecks.livenessInitialDelaySeconds" health.livenessInitialDelaySeconds
  validate lib 1 "spec.healthChecks.livenessPeriodSeconds" health.livenessPeriodSeconds

def validateConfig (spec : SchemaRegistrySpec) : Check := do
  validate lib 1 "spec.schemasTopicReplicationFactor" spec.schemasTopicReplicationFactor
  spec.clientId |> optional fun value =>
    ensure (value ≠ "") ("spec.clientId: " ++ lib.emptyStringError)
  spec.runtime |> optional (validateRuntime lib)
  spec.healthChecks |> optional (validateHealth lib)
  validatePositive (spec.authentication >>= (·.bearer) >>= (·.jwksRefresh))
    "spec.authentication.bearer.jwksRefresh"
  validatePositive (spec.authorization >>= (·.aclRefresh)) "spec.authorization.aclRefresh"

end Registry
