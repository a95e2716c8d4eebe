-- SUMMARY: The Kafka resource: certificate authorities, listeners, authorization, storage tiers and the other parts of the spec that the controllers read.
import KrabkaOperator.Crd.Listener

/-!
# Kafka
-/

namespace Crd

/-- `spec.clusterCa` and `spec.clientsCa`, with the defaults of the schema. -/
structure CertificateAuthority where
  generateCertificateAuthority : Bool := true
  validityDays : Nat := 365
  renewalDays : Nat := 30
  deriving DecidableEq, Repr

/-! ## Authorization -/

structure OpaAuthorization where
  url : String
  allowOnError : Option Bool := none
  initialCacheCapacity : Option Nat := none
  maximumCacheSize : Option Nat := none
  expireAfterMs : Option Int := none
  superUsers : List String := []
  deriving DecidableEq, Repr

inductive Authorization where
  | simple (superUsers : List String)
  | opa (cfg : OpaAuthorization)
  deriving DecidableEq, Repr

/-! ## Tiered storage -/

inductive TieredStorageType where
  | local
  | s3
  | gcs
  deriving DecidableEq, Repr

structure S3StorageSpec where
  bucket : String
  region : String
  keyPrefix : Option String := none
  endpoint : Option String := none
  allowHttp : Bool := false
  multipartThreshold : Option Nat := none
  multipartChunkSize : Option Nat := none
  deriving DecidableEq, Repr

structure GcsStorageSpec where
  bucket : String
  keyPrefix : Option String := none
  endpoint : Option String := none
  /-- The key of the service account, as a Secret name with an optional key. -/
  credentials : Option (String × Option String) := none
  allowHttp : Bool := false
  multipartThreshold : Option Nat := none
  multipartChunkSize : Option Nat := none
  deriving DecidableEq, Repr

inductive MetadataManagerType where
  | inMemory
  | topic
  deriving DecidableEq, Repr

structure TopicMetadataManagerSpec where
  bootstrap : String
  numPartitions : Option Int := none
  replication : Option Int := none
  topicCreateTimeout : Option String := none
  fetchMaxWait : Option String := none
  fetchMaxBytes : Option String := none
  fetchRetryBackoff : Option String := none
  eventQueueCapacity : Option Nat := none
  snapshotInterval : Option String := none
  deriving DecidableEq, Repr

structure MetadataManagerSpec where
  kind : MetadataManagerType
  topic : Option TopicMetadataManagerSpec := none
  deriving DecidableEq, Repr

structure TieredStoragePersistence where
  size : String
  className : Option String := none
  deleteClaim : Bool := false
  deriving DecidableEq, Repr

structure TieredStorage where
  kind : TieredStorageType
  s3 : Option S3StorageSpec := none
  gcs : Option GcsStorageSpec := none
  metadataManager : Option MetadataManagerSpec := none
  persistence : Option TieredStoragePersistence := none
  deriving DecidableEq, Repr

/-! ## Spec -/

structure InterBrokerKerberos where
  clientPrincipal : String
  serviceName : Option String := none
  kdcUrl : String
  deriving DecidableEq, Repr

/-- `spec.brokerTuning`: the fields that are set, in the order of the schema, each
    with the text of its value. -/
structure BrokerTuning where
  fields : List (String × String) := []
  deriving DecidableEq, Repr

/-- `spec.metricsConfig`, of which only the presence matters to a broker. -/
structure MetricsConfig where
  deriving DecidableEq, Repr

/-- `spec.networkPolicy`, an opt-in without fields. -/
structure NetworkPolicySpec where
  deriving DecidableEq, Repr

/-- `spec.delegationToken`, which names the Secret of the master key. -/
structure DelegationTokenConfig where
  secretKeyRef : String × Option String
  deriving DecidableEq, Repr

structure KafkaSpec where
  kafkaVersion : String := ""
  metadataVersion : Option String := none
  config : Option (Kube.BTreeMap String) := none
  listeners : List Listener := []
  interBrokerListenerName : Option String := none
  metricsConfig : Option MetricsConfig := none
  networkPolicy : Option NetworkPolicySpec := none
  clusterCa : Option CertificateAuthority := none
  clientsCa : Option CertificateAuthority := none
  delegationToken : Option DelegationTokenConfig := none
  authorization : Option Authorization := none
  tieredStorage : Option TieredStorage := none
  interBrokerKerberos : Option InterBrokerKerberos := none
  krb5ConfSecretRef : Option SecretRef := none
  brokerTuning : Option BrokerTuning := none

structure Kafka where
  name : String
  ns : Option String
  uid : Option String
  annotations : Kube.BTreeMap String
  spec : KafkaSpec

/-- A stored `Kafka` whose spec leaves everything to its defaults. -/
def Kafka.minimal (name : String) : Kafka where
  name
  ns := some "default"
  uid := some "uid"
  annotations := ∅
  spec := {}

end Crd
