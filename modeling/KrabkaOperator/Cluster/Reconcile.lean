-- SUMMARY: One reconcile pass over a Kafka: both CAs with their TLS users, the listener phase with the broker keystore, and the rollout of the config hash.
import KrabkaOperator.Cluster.Rollout
import KrabkaOperator.ClusterCa.Keystore
import KrabkaOperator.Config.Hash
import KrabkaOperator.Listeners.Validation
import KrabkaOperator.User.Tls

/-!
# Kafka passes

A pass is one program over API requests. What it reads from objects outside of the
`World` (versions, logging, addresses, pods) is part of `KafkaPass`; the calls that
read or write these objects are effects, which may fail.
-/

namespace Cluster

open Kube Crd Operator ClusterCa

/-- What a pass over a `Kafka` gets from outside of the store. -/
structure KafkaPass where
  kafka : Kafka
  /-- The checks of `spec.brokerTuning`, `spec.tieredStorage` and `spec.tracing` that patch
      the status, in order, each with its error. -/
  runtimeChecks : List (Option String) := []
  /-- Whether the pods and pools form a valid topology. -/
  topologyValid : Bool := true
  /-- The metadata version that the cluster runs with, when it is known. -/
  resolvedMetadata : Option String := none
  loggingFilter : Option String := none
  /-- The parser of GSSAPI name rules. -/
  ruleParses : String → Bool := fun _ => true
  /-- The extra names that the observed addresses add to the leaf of a node. -/
  extraSans : List (Int × List SubjectAltName) := []
  /-- Whether every advertised address is known. -/
  addressesResolved : Bool := true

variable (lib : CaLib)

/-! ## Cluster id -/

def clusterIdSecretName (cluster : String) : String := cluster ++ "-cluster-id"

/-- Get-or-create the cluster-id Secret. -/
def ensureClusterIdSecret (kafka : Kafka) : Op Unit := do
  match ← getOpt (clusterIdSecretName kafka.name) with
  | some existing =>
    match existing.readPemKey "clusterId" with
    | some id => if lib.isUuid id then pure () else .fail (.malformedSecret "clusterId")
    | none => .fail (.malformedSecret "clusterId")
  | none =>
    let d ← draw
    match kafka.uid with
    | none => .fail .missingUid
    | some _ =>
      createSecret (clusterIdSecretName kafka.name)
        ⟨∅, BTreeMap.ofList [("clusterId", .text (lib.newUuid d))]⟩

/-! ## CA phase -/

def caAnnotations : List String :=
  [annForceRenew, annForceReplaceKey, annForceReplaceClientsKey, annRenewAfter]

/-- The users that the batch skips. -/
def isReservedOperatorUser (cluster : String) (user : KafkaUser) : Bool :=
  user.name = User.operatorSecretName cluster || user.name = cluster ++ "-operator-admin" ||
    "-operator-identity".toList.isSuffixOf user.name.toList

def excludeReservedOperatorUser (users : List KafkaUser) (cluster : String) : List KafkaUser :=
  users.filter fun user => !isReservedOperatorUser cluster user

/-- Whether a pass visits the Secrets of the TLS users. -/
def syncTlsUserSecrets (clients : CaReconcileOutcome) : Bool :=
  clients.leafTransition.requiresReissue || clients.leafTransition.prunedOldTrust ||
    0 < clients.certGeneration || 0 < clients.keyGeneration

/-- The batch over the TLS users, and the marker that it is complete. -/
def syncUsers (cluster : String) (clients : CaReconcileOutcome) : Op Unit := do
  if syncTlsUserSecrets clients then
    let users ← listUsers cluster
    let _ ← User.reissueTlsUserCertSecrets lib clients.signingMaterial clients.trustBundlePem
      (excludeReservedOperatorUser users cluster)
    if clients.leafTransition.requiresReissue then
      markLeafsReissued cluster clients.keyGeneration

/-- The trust material in the config hash. The clients bundle belongs to it while a
    replacement of the clients key is under way. -/
def caTrust (cluster clients : CaReconcileOutcome) : Pem :=
  if clients.phase = .idle then
    cluster.trustBundlePem ++ "\x1Eoperator-admin-mtls-v1".toList
  else
    cluster.trustBundlePem ++ ['\x1E'] ++ clients.trustBundlePem ++
      "\x1Eoperator-admin-mtls-v1".toList

structure CaArtifacts where
  cluster : CaReconcileOutcome
  clients : CaReconcileOutcome
  configHash : String

/-- Run one CA call. A missing CA of the user ends the pass with a status. -/
def caCall (call : Op CaReconcileOutcome) : Op (Option CaReconcileOutcome) := do
  match ← call.attempt with
  | .ok out => pure (some out)
  | .error (.byoCaMissing _) => do
    effect .patchKafkaStatus
    pure none
  | .error e => .fail e

/-- Only an explicit pin enters the hash, and only with a known metadata version. -/
def explicitPin (pass : KafkaPass) : Option String :=
  if pass.resolvedMetadata.isSome then pass.kafka.spec.metadataVersion else none

/-- Reconcile both CAs, and everything that follows their rotation. `none` ends the pass. -/
def reconcileCas (pass : KafkaPass) (rolloutConverged : Bool) : Op (Option CaArtifacts) := do
  let kafka := pass.kafka
  let has := fun ann : String => kafka.annotations.contains ann
  let forceRenew := has annForceRenew || has annRenewAfter
  let now ← now
  match ← caCall (reconcileCa lib kafka .cluster forceRenew (has annForceReplaceKey)
      rolloutConverged now) with
  | none => pure none
  | some cluster =>
    match ← caCall (reconcileCa lib kafka .clients false (has annForceReplaceClientsKey)
        rolloutConverged now) with
    | none => pure none
    | some clients =>
      let _ ← User.ensureOperatorCertSecret lib kafka cluster.signingMaterial cluster.trustBundlePem
      syncUsers lib kafka.name clients
      let stripKeys := caAnnotations.filter has
      if stripKeys ≠ [] then effect (.stripAnnotations stripKeys)
      if cluster.refused.isSome then ignoredEffect (.emitEvent "CaRotationRefused")
      if clients.refused.isSome then ignoredEffect (.emitEvent "CaRotationRefused")
      pure (some ⟨cluster, clients, Config.combinedConfigHash lib kafka.spec
        (some (caTrust cluster clients)) (explicitPin pass) pass.loggingFilter⟩)

/-! ## Listener dependencies -/

/-- The bundle of the trusted certificates of an OAuth listener. -/
def oauthTrustBundle : ByteString → List SecretRef → Op ByteString
  | bundle, [] => pure bundle
  | bundle, entry :: entries => do
    match ← getOpt entry.secretName with
    | none => .fail (.missingOauthTrustSecret entry.secretName)
    | some src =>
      match src.data.value? entry.key with
      | none => .fail (.missingOauthTrustKey entry.secretName entry.key)
      | some bytes =>
        if bytes.isEmpty then .fail (.emptyOauthTrustValue entry.secretName entry.key)
        else
          let sep : ByteString :=
            if !bundle.isEmpty && !bundle.endsWithNewline then .text ['\n'] else .text []
          oauthTrustBundle ((bundle.append sep).append bytes) entries

def oauthTrustSecretName (cluster : String) : String := cluster ++ "-oauth-jwks-trust"

def reconcileOauthJwksTrust (kafka : Kafka) (canonical : Option ListenerAuthenticationOAuth) :
    Op Unit := do
  match canonical with
  | none => pure ()
  | some cfg =>
    if cfg.tlsTrustedCertificates ≠ [] then
      let bundle ← oauthTrustBundle (.text []) cfg.tlsTrustedCertificates
      match kafka.uid with
      | none => .fail .missingUid
      | some _ => applySecret (oauthTrustSecretName kafka.name) ⟨∅, BTreeMap.ofList [("ca.crt", bundle)]⟩

def reconcileOauthIntrospectionSecret (canonical : Option ListenerAuthenticationOAuth) : Op Unit := do
  match canonical with
  | none => pure ()
  | some cfg =>
    if !cfg.accessTokenIsJwt then
      match cfg.clientSecret with
      | none => .fail (.invalidListenerOauthAccessTokenIsJwt
          "introspection mode requires clientSecret")
      | some ref =>
        match ← getOpt ref.secretName with
        | none => .fail (.missingOauthIntrospectionSecret ref.secretName)
        | some src =>
          match src.data.value? ref.key with
          | none => .fail (.missingOauthIntrospectionKey ref.secretName ref.key)
          | some bytes =>
            if bytes.isEmpty then .fail (.emptyOauthIntrospectionValue ref.secretName ref.key)

/-- A Secret that must exist with a key. -/
def requireSecretKey (ref : Option SecretRef) (missing : String → ReconcileError)
    (missingKey : String → String → ReconcileError) : Op Unit := do
  match ref with
  | none => pure ()
  | some ref =>
    match ← getOpt ref.secretName with
    | none => .fail (missing ref.secretName)
    | some src => if (src.data.value? ref.key).isNone then .fail (missingKey ref.secretName ref.key)

def gssapiKeytabMount (kafka : Kafka) : Option SecretRef :=
  (Listeners.gssapiConfigs kafka.spec.listeners).head?.map (·.keytabSecretRef)

/-- The errors of a dependency that the user has to repair. -/
def ReconcileError.isMissingDependency : ReconcileError → Bool
  | .missingOauthTrustSecret _ | .missingOauthTrustKey _ _ | .emptyOauthTrustValue _ _
  | .invalidListenerOauthAccessTokenIsJwt _ | .missingOauthIntrospectionSecret _
  | .missingOauthIntrospectionKey _ _ | .emptyOauthIntrospectionValue _ _
  | .missingGssapiKeytabSecret _ | .missingGssapiKeytabKey _ _ | .missingKrb5ConfSecret _
  | .missingKrb5ConfKey _ _ => true
  | _ => false

/-- Run one dependency check. A missing dependency ends the pass with a status. -/
def dependencyCheck (check : Op Unit) : Op Bool := do
  match ← check.attempt with
  | .ok _ => pure true
  | .error e =>
    if ReconcileError.isMissingDependency e then do
      effect .patchKafkaStatus
      pure false
    else
      .fail e

/-- Whether the Secrets that the listeners refer to are there. -/
def validateListenerDependencies (kafka : Kafka) : Op Bool := do
  let effective := Listeners.effectiveListeners kafka.spec
  let canonical := (Listeners.oauthConfigs effective).head?
  if !(← dependencyCheck (reconcileOauthJwksTrust kafka canonical)) then return false
  if !(← dependencyCheck (reconcileOauthIntrospectionSecret canonical)) then return false
  let gssapiSecretCheck : Op Unit := do
    requireSecretKey (gssapiKeytabMount kafka) .missingGssapiKeytabSecret .missingGssapiKeytabKey
    requireSecretKey kafka.spec.krb5ConfSecretRef .missingKrb5ConfSecret .missingKrb5ConfKey
  if !(← dependencyCheck gssapiSecretCheck) then return false
  match Listeners.validateInterBrokerGssapi effective
      (Listeners.effectiveInterBrokerListenerName kafka.spec.listeners
        kafka.spec.interBrokerListenerName) kafka.spec.interBrokerKerberos.isSome with
  | .ok _ => pure true
  | .error _ => do
    effect .patchKafkaStatus
    pure false

/-! ## Listener phase -/

structure NodeInfo where
  brokerId : Int
  podName : String
  podFqdn : String
  roles : List NodeRole
  deriving DecidableEq, Repr

/-- The nodes of one pool. A node id must fit an `i32`. -/
def poolNodes (cluster ns : String) (p : KafkaNodePool) : List NodeInfo :=
  let replicas := max ((p.status >>= (·.replicas)).getD 0) p.spec.replicas
  (List.range replicas.toNat).filterMap fun ordinal =>
    let id := p.spec.nodeIdStart + (ordinal : Int)
    let podName := cluster ++ "-" ++ p.name ++ "-" ++ toString ordinal
    if id < 2 ^ 31 then
      some ⟨id, podName,
        podName ++ "." ++ cluster ++ "-broker-headless." ++ ns ++ ".svc.cluster.local", p.spec.roles⟩
    else
      none

def poolNameLe (a b : KafkaNodePool) : Prop := (compareBytes a.name b.name).isLE = true

instance (a b : KafkaNodePool) : Decidable (poolNameLe a b) := inferInstanceAs (Decidable (_ = _))

/-- Every pool ordinal as a stable node id and pod name. -/
def enumerateNodes (cluster ns : String) (pools : List KafkaNodePool) : List NodeInfo :=
  (pools.insertionSort poolNameLe).flatMap (poolNodes cluster ns)

def certRequest (pass : KafkaPass) (ns : String) (node : NodeInfo) : BrokerCertRequest where
  brokerId := node.brokerId
  cn := node.podName
  sans := [.dns node.podFqdn, .dns node.podName,
    .dns (pass.kafka.name ++ "-broker-headless." ++ ns ++ ".svc.cluster.local"), .ip .localhost]
  extraSans :=
    if .broker ∈ node.roles then (pass.extraSans.lookup node.brokerId).getD [] else []

/-- The leafs that a pass asks for. -/
def certRequests (pass : KafkaPass) (pools : List KafkaNodePool) : List BrokerCertRequest :=
  let ns := pass.kafka.ns.getD "default"
  (enumerateNodes pass.kafka.name ns pools).map (certRequest pass ns)

/-- The keystore, the broker config and the hash of both. -/
def reconcileValidListenerResources (pass : KafkaPass) (pools : List KafkaNodePool)
    (artifacts : CaArtifacts) : Op Unit := do
  effect .observeListenerAddresses
  let keystore ← ensureBrokerKeystore lib pass.kafka (certRequests pass pools)
    artifacts.cluster.signingMaterial artifacts.cluster.leafTransition.requiresReissue
  effect .externalListenerState
  if pass.addressesResolved then effect .applyConfigMap
  adoptPools pass.kafka pools
    (Config.rolloutConfigHash lib artifacts.configHash keystore.leafMaterial)

/-- Whether the listeners of the pass are valid. -/
def listenersValid (pass : KafkaPass) : Bool :=
  match Listeners.validateSpecListeners pass.ruleParses pass.kafka.spec with
  | .ok _ => true
  | .error _ => false

/-- With invalid listeners the pools get the hash without the leafs. `false` ends the
    pass. -/
def reconcileListenerResources (pass : KafkaPass) (pools : List KafkaNodePool)
    (artifacts : CaArtifacts) : Op Bool := do
  if !listenersValid pass then
    adoptPools pass.kafka pools artifacts.configHash
    pure true
  else if !(← validateListenerDependencies pass.kafka) then
    pure false
  else
    reconcileValidListenerResources lib pass pools artifacts
    pure true

/-! ## The pass -/

def weakAuthEvents : List String → Op Unit
  | [] => pure ()
  | message :: messages => do
    ignoredEffect (.weakAuthEvent message)
    weakAuthEvents messages

/-- Each check of the runtime settings patches the status; the first error ends the pass. -/
def validateKafkaRuntime : List (Option String) → Op Unit
  | [] => pure ()
  | check :: checks => do
    effect .patchKafkaStatus
    match check with
    | some why => .fail (.kafkaConfigInvalid why)
    | none => validateKafkaRuntime checks

/-- One pass over a `Kafka`. -/
def reconcileInner (pass : KafkaPass) : Op Unit := do
  let cluster := pass.kafka.name
  effect .applyServices
  weakAuthEvents (Listeners.weakAuthWarnings (Listeners.effectiveListeners pass.kafka.spec))
  ensureClusterIdSecret lib pass.kafka
  validateKafkaRuntime pass.runtimeChecks
  let pools ← listPools cluster
  let statefulSets ← listStatefulSets cluster
  ignoredEffect .updateMetadataVersion
  effect .resolveLogging
  effect .listPods
  if !pass.topologyValid then
    effect .patchKafkaStatus
  else
    match ← reconcileCas lib pass (poolsConverged pools statefulSets) with
    | none => pure ()
    | some artifacts =>
      if ← reconcileListenerResources lib pass pools artifacts then
        effect .finalizeKafka

end Cluster
