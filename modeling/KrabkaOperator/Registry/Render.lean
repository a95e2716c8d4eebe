-- SUMMARY: The objects of a schema registry: two Services, a StatefulSet and a Certificate, with the arguments, the environment and the files of the container.
import KrabkaOperator.Kube.Expansion
import KrabkaOperator.Kube.Service
import KrabkaOperator.Registry.Spec

/-!
# What the operator renders for a registry

Settings that are no secret are arguments. Credentials are files of Secrets, or variables of
the environment that refer to a Secret.
-/

namespace Registry

open Kube Crd Expansion

inductive RenderError where
  | missingUid
  deriving DecidableEq, Repr

def appName : String := "krabka-schema-registry"

def srPort : Int := 8081

def statefulSetName (n : String) : String := n ++ "-sr"

def serviceName (n : String) : String := n ++ "-sr"

def headlessName (n : String) : String := n ++ "-sr-headless"

def ownerRef (obj : SchemaRegistry) : Except RenderError OwnerReference :=
  match obj.uid with
  | none => .error .missingUid
  | some uid => .ok
      { apiVersion := "krabka.io/v1alpha1", kind := "SchemaRegistry", name := obj.name, uid := uid,
        controller := true, blockOwnerDeletion := true }

/-! ## Labels -/

/-- The labels that select the pods. They never change, since the selector of a StatefulSet
    cannot. -/
def selectorLabels (obj : SchemaRegistry) : BTreeMap String :=
  BTreeMap.ofList [("app.kubernetes.io/name", appName), ("app.kubernetes.io/instance", obj.name),
    ("app.kubernetes.io/component", "schema-registry")]

def metaLabels (obj : SchemaRegistry) : BTreeMap String :=
  ((selectorLabels obj).insert "app.kubernetes.io/version" "0.1.1").insert
    "app.kubernetes.io/managed-by" "krabka-operator"

/-! ## Services -/

def restPort : ServicePort :=
  { name := some "rest", port := srPort, protocol := some "TCP", targetPort := some srPort }

def renderHeadlessService (obj : SchemaRegistry) : Except RenderError Service := do
  let ownerReference ← ownerRef obj
  pure
    { name := some (headlessName obj.name), ns := obj.ns, labels := metaLabels obj
      ownerReferences := [ownerReference], clusterIp := some "None"
      publishNotReadyAddresses := some true, selector := selectorLabels obj
      ports := some [restPort] }

def renderClusteripService (obj : SchemaRegistry) : Except RenderError Service := do
  let ownerReference ← ownerRef obj
  pure
    { name := some (serviceName obj.name), ns := obj.ns, labels := metaLabels obj
      ownerReferences := [ownerReference], type := some "ClusterIP"
      selector := selectorLabels obj, ports := some [restPort] }

/-! ## Arguments -/

/-- `--name=value`, or `--name`. -/
structure Setting where
  name : String
  value : Option String := none
  deriving DecidableEq, Repr

def Setting.text (s : Setting) : String :=
  "--" ++ s.name ++ match s.value with
    | some value => "=" ++ value
    | none => ""

/-- A setting that may not be given. -/
def given (name : String) (value : Option String) : List Setting :=
  value.toList.map fun v => ⟨name, some v⟩

def switch (name : String) (on : Bool) : List Setting := if on then [⟨name, none⟩] else []

section Settings

variable (lib : Lib)

def runtimeSettings (runtime : SchemaRegistryRuntime) : List Setting :=
  given "election-session-timeout" (runtime.electionSessionTimeout.map lib.humanTime) ++
  given "election-rebalance-timeout" (runtime.electionRebalanceTimeout.map lib.humanTime) ++
  given "election-heartbeat-interval" (runtime.electionHeartbeatInterval.map lib.humanTime) ++
  given "election-reconnect-backoff" (runtime.electionReconnectBackoff.map lib.humanTime) ++
  given "store-reader-retry-backoff" (runtime.storeReaderRetryBackoff.map lib.humanTime) ++
  given "store-reader-fetch-max-wait" (runtime.storeReaderFetchMaxWait.map lib.humanTime) ++
  given "store-reader-fetch-max" (runtime.storeReaderFetchMax.map lib.humanSize) ++
  given "schemas-topic-create-timeout" (runtime.schemasTopicCreateTimeout.map lib.humanTime) ++
  given "forward-max-body" (runtime.forwardMaxBody.map lib.humanSize) ++
  given "default-compatibility-level" runtime.defaultCompatibilityLevel ++
  given "default-mode" runtime.defaultMode ++
  given "client-dispatch-queue-capacity" (runtime.clientDispatchQueueCapacity.map toString) ++
  given "client-frame-max" (runtime.clientFrameMax.map fun size =>
    toString (lib.bytesU64 size) ++ "B")

def TlsClientAuth.text : TlsClientAuth → String
  | .disabled => "disabled"
  | .optional => "optional"
  | .required => "required"

def tlsSettings (tlsSecret : Option String) (tls : SchemaRegistryTls) : List Setting :=
  given "tls-cert" (tlsSecret.map fun _ => "/etc/sr/tls/tls.crt") ++
  given "tls-key" (tlsSecret.map fun _ => "/etc/sr/tls/tls.key") ++
  [⟨"tls-client-auth", some (tls.clientAuth.getD .disabled).text⟩] ++
  given "tls-client-ca" (tls.clientCaSecretName.map fun _ => "/etc/sr/client-ca/ca.crt")

def bearerSettings (bearer : BearerAuthn) : List Setting :=
  match bearer.mode with
  | .unsecured =>
    [⟨"bearer", some "unsecured"⟩] ++ given "bearer-principal-claim" bearer.principalClaim
  | .jwks =>
    [⟨"bearer", some "jwks"⟩] ++
    given "bearer-jwks-endpoint-uri" bearer.jwksEndpointUri ++
    given "bearer-jwks-valid-issuer" bearer.jwksValidIssuer ++
    given "bearer-jwks-expected-audience" bearer.jwksExpectedAudience ++
    given "bearer-jwks-principal-claim" (bearer.jwksPrincipalClaim.or bearer.principalClaim) ++
    given "bearer-jwks-refresh" (bearer.jwksRefresh.map lib.humanTime) ++
    given "bearer-jwks-ca" (bearer.jwksTlsSecretName.map fun _ => "/etc/sr/jwks-ca/ca.crt")

def authnSettings (authn : SchemaRegistryAuthn) : List Setting :=
  switch "require-auth" authn.requireAuth ++
  given "realm" authn.realm ++
  given "basic-auth-file" (authn.basic.map fun _ => "/etc/sr/basic/users") ++
  authn.bearer.elim [] (bearerSettings lib)

def authzSettings (authz : SchemaRegistryAuthz) : List Setting :=
  switch "authz" authz.enabled ++
  authz.superUsers.map (fun user => ⟨"super-user", some user⟩) ++
  given "acl-refresh" (authz.aclRefresh.map lib.humanTime)

def kafkaClientSettings (client : SchemaRegistryKafkaClient) : List Setting :=
  [⟨"kafka-security-protocol", some (client.securityProtocol.getD "PLAINTEXT")⟩] ++
  given "kafka-sasl-mechanism" (client.sasl.map (·.mechanism)) ++
  given "kafka-tls-ca" (client.tls >>= (·.caSecretName) |>.map fun _ =>
    "/etc/sr/kafka-tls/ca.crt") ++
  given "kafka-tls-server-name" (client.tls >>= (·.serverNameOverride))

/-- All settings of a registry, in the order of its arguments. -/
def settings (spec : SchemaRegistrySpec) (bootstrap : String) (tlsSecret : Option String) :
    List Setting :=
  [⟨"bootstrap-servers", some bootstrap⟩, ⟨"listen-addr", some "0.0.0.0:8081"⟩] ++
  given "schemas-topic" spec.schemasTopic ++
  given "schemas-topic-rf" (spec.schemasTopicReplicationFactor.map toString) ++
  given "group-id" spec.groupId ++
  spec.runtime.elim [] (runtimeSettings lib) ++
  given "client-id" spec.clientId ++
  spec.tls.elim [] (tlsSettings tlsSecret) ++
  spec.authentication.elim [] (authnSettings lib) ++
  spec.authorization.elim [] (authzSettings lib) ++
  spec.kafkaClient.elim [] kafkaClientSettings

end Settings

/-! ## Files -/

structure VolumeMount where
  name : String
  mountPath : String
  readOnly : Bool := true
  deriving DecidableEq, Repr

/-- A volume with the keys of a Secret. Where `items` is empty, all keys are files. -/
structure SecretVolume where
  name : String
  secretName : String
  items : List (String × String) := []
  deriving DecidableEq, Repr

/-- A Secret under a path of the container. -/
structure Mounted where
  volume : SecretVolume
  mount : VolumeMount
  deriving DecidableEq, Repr

def mounted (name mountPath secretName : String) (items : List (String × String)) : Mounted :=
  ⟨⟨name, secretName, items⟩, ⟨name, mountPath, true⟩⟩

def tlsFiles (tlsSecret : Option String) (tls : SchemaRegistryTls) : List Mounted :=
  tlsSecret.toList.map (fun secret => mounted "tls" "/etc/sr/tls" secret []) ++
  tls.clientCaSecretName.toList.map fun secret =>
    mounted "client-ca" "/etc/sr/client-ca" secret []

def basicFile (basic : BasicAuthn) : Mounted :=
  mounted "basic" "/etc/sr/basic" basic.usersSecretName
    [(basic.usersSecretKey.getD "users", "users")]

def bearerFiles (bearer : BearerAuthn) : List Mounted :=
  match bearer.mode with
  | .unsecured => []
  | .jwks => bearer.jwksTlsSecretName.toList.map fun secret =>
      mounted "jwks-ca" "/etc/sr/jwks-ca" secret []

def authnFiles (authn : SchemaRegistryAuthn) : List Mounted :=
  authn.basic.toList.map basicFile ++ authn.bearer.elim [] bearerFiles

def kafkaClientFiles (client : SchemaRegistryKafkaClient) : List Mounted :=
  (client.tls >>= (·.caSecretName)).toList.map fun secret =>
    mounted "kafka-tls" "/etc/sr/kafka-tls" secret []

def files (spec : SchemaRegistrySpec) (tlsSecret : Option String) : List Mounted :=
  spec.tls.elim [] (tlsFiles tlsSecret) ++ spec.authentication.elim [] authnFiles ++
    spec.kafkaClient.elim [] kafkaClientFiles

/-! ## Environment -/

/-- The Secret that cert-manager writes. -/
def certSecretName (n : String) : String := n ++ "-sr-tls"

/-- The Secret with the certificate of the server, where the spec names one way to get it. -/
def tlsSecretName (obj : SchemaRegistry) : Option String :=
  obj.spec.tls >>= fun tls =>
    match tls.secretName, tls.issuerRef with
    | some secret, none => some secret
    | none, some _ => some (certSecretName obj.name)
    | _, _ => none

def kafkaClientEnv (client : SchemaRegistryKafkaClient) : List Variable :=
  client.sasl.elim [] fun sasl =>
    [⟨"SCHEMA_REGISTRY_KAFKA_SASL_USERNAME", .secretKey sasl.secretRef "username"⟩,
      ⟨"SCHEMA_REGISTRY_KAFKA_SASL_PASSWORD", .secretKey sasl.secretRef "password"⟩]

def scheme (tlsSecret : Option String) : String :=
  if tlsSecret.isSome then "https" else "http"

/-- `$(POD_NAME)` is the name of the pod. -/
def advertisedUrl (obj : SchemaRegistry) (tlsSecret : Option String) : String :=
  scheme tlsSecret ++ "://$(POD_NAME)." ++ headlessName obj.name ++ "." ++ obj.namespace? ++
    ".svc.cluster.local:" ++ toString srPort

/-- The URL of the Service, which the status names. -/
def serviceUrl (obj : SchemaRegistry) (tlsSecret : Option String) : String :=
  scheme tlsSecret ++ "://" ++ serviceName obj.name ++ "." ++ obj.namespace? ++
    ".svc.cluster.local:" ++ toString srPort

def env (obj : SchemaRegistry) (tlsSecret : Option String) : List Variable :=
  [⟨"POD_NAME", .field "metadata.name"⟩,
    ⟨"SCHEMA_REGISTRY_ADVERTISED_URL", .value (advertisedUrl obj tlsSecret)⟩] ++
    obj.spec.kafkaClient.elim [] kafkaClientEnv

/-! ## The StatefulSet -/

/-- The timing of the probes, in seconds. All of them open a TCP connection to the port. -/
structure Probes where
  startupPeriod : Int
  startupFailureThreshold : Int
  readinessInitialDelay : Int
  readinessPeriod : Int
  livenessInitialDelay : Int
  livenessPeriod : Int
  deriving DecidableEq, Repr

def probes (health : Option SchemaRegistryHealthChecks) : Probes where
  startupPeriod := (health >>= (·.startupPeriodSeconds)).getD 5
  startupFailureThreshold := (health >>= (·.startupFailureThreshold)).getD 60
  readinessInitialDelay := (health >>= (·.readinessInitialDelaySeconds)).getD 2
  readinessPeriod := (health >>= (·.readinessPeriodSeconds)).getD 5
  livenessInitialDelay := (health >>= (·.livenessInitialDelaySeconds)).getD 5
  livenessPeriod := (health >>= (·.livenessPeriodSeconds)).getD 10

/-- The template of the pods, which have one container. -/
structure PodTemplate where
  labels : BTreeMap String
  image : String
  args : List String
  env : List Variable
  containerPort : Int
  volumes : List SecretVolume
  volumeMounts : List VolumeMount
  probes : Probes
  deriving DecidableEq

structure StatefulSet where
  name : String
  ns : Option String
  labels : BTreeMap String
  ownerReferences : List OwnerReference
  serviceName : String
  replicas : Int
  podManagementPolicy : String
  updateStrategy : String
  selector : LabelSelector
  template : PodTemplate
  deriving DecidableEq

def renderTemplate (lib : Lib) (obj : SchemaRegistry) (bootstrap image : String)
    (tlsSecret : Option String) : PodTemplate where
  labels := selectorLabels obj
  image := image
  args := (settings lib obj.spec bootstrap tlsSecret).map Setting.text
  env := env obj tlsSecret
  containerPort := srPort
  volumes := (files obj.spec tlsSecret).map (·.volume)
  volumeMounts := (files obj.spec tlsSecret).map (·.mount)
  probes := probes obj.spec.healthChecks

def renderStatefulSet (lib : Lib) (obj : SchemaRegistry) (bootstrap image : String)
    (tlsSecret : Option String) : Except RenderError StatefulSet := do
  let ownerReference ← ownerRef obj
  pure
    { name := statefulSetName obj.name, ns := obj.ns, labels := metaLabels obj
      ownerReferences := [ownerReference], serviceName := headlessName obj.name
      replicas := obj.spec.replicas, podManagementPolicy := "Parallel"
      updateStrategy := "RollingUpdate"
      selector := { matchLabels := selectorLabels obj }
      template := renderTemplate lib obj bootstrap image tlsSecret }

/-! ## The Certificate -/

structure Certificate where
  name : String
  ns : String
  ownerReferences : List OwnerReference
  secretName : String
  issuerName : String
  issuerKind : String
  issuerGroup : String
  dnsNames : List String
  deriving DecidableEq

def renderCertificate (obj : SchemaRegistry) (issuer : CertManagerIssuerRef) :
    Except RenderError Certificate := do
  let ownerReference ← ownerRef obj
  pure
    { name := obj.name ++ "-sr", ns := obj.namespace?, ownerReferences := [ownerReference]
      secretName := certSecretName obj.name, issuerName := issuer.name
      issuerKind := issuer.kind.getD "Issuer", issuerGroup := issuer.group.getD "cert-manager.io"
      dnsNames :=
        ["*." ++ headlessName obj.name ++ "." ++ obj.namespace? ++ ".svc.cluster.local",
          serviceName obj.name ++ "." ++ obj.namespace? ++ ".svc.cluster.local"] }

end Registry
