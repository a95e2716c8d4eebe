-- SUMMARY: The reconcile pass of a schema registry over its API requests, and passes that run among changes from outside.
import KrabkaOperator.Base.Interleave
import KrabkaOperator.Listeners.Validation
import KrabkaOperator.Operator.World
import KrabkaOperator.Registry.Render

/-!
# The pass of a registry

A pass checks the spec, resolves the address of the cluster and the certificate, applies two
Services and a StatefulSet, deletes the Deployment of an earlier operator, and reports the
state of the StatefulSet. Between its requests anything else may happen in the namespace.
-/

namespace Registry

open Kube Crd
open Operator (KubeError answerRead answerWrite)

/-! ## The namespace -/

structure ParentListener where
  name : String
  type : ListenerType
  bootstrapServers : String
  deriving DecidableEq, Repr

/-- A `Kafka` as a registry sees it. -/
structure Parent where
  spec : KafkaSpec
  conditions : List Condition := []
  listeners : List ParentListener := []

/-- The address of the inter-broker listener, when the cluster reports `Ready`. -/
def internalListenerBootstrap (kafka : Parent) : Option String :=
  let name := Listeners.effectiveInterBrokerListenerName kafka.spec.listeners
    kafka.spec.interBrokerListenerName
  if (kafka.conditions.find? (·.type = "Ready")).any (·.status = "True") then
    ((kafka.listeners.find? fun l => l.type = .internal ∧ l.name = name).map
      (·.bootstrapServers)).filter (· ≠ "")
  else
    none

structure Deployment where
  ownerReferences : List OwnerReference
  deriving DecidableEq

/-- A stored StatefulSet, with the replicas and the ready replicas of its status. -/
structure LiveSet where
  set : StatefulSet
  status : Option (Int × Option Int) := none
  deriving DecidableEq

/-- The objects that belong to one name. -/
structure World where
  kafkas : BTreeMap Parent := ∅
  secrets : List String := []
  /-- Whether the cluster serves Certificates. -/
  certManager : Bool := true
  certificate : Option Certificate := none
  services : BTreeMap Service := ∅
  statefulSet : Option LiveSet := none
  deployment : Option Deployment := none
  status : Option SchemaRegistryStatus := none

/-- The API server refuses to change these fields of a StatefulSet. -/
def sameIdentity (a b : StatefulSet) : Bool :=
  a.serviceName = b.serviceName ∧ a.selector = b.selector ∧
    a.podManagementPolicy = b.podManagementPolicy

def World.applyStatefulSet (w : World) (set : StatefulSet) : World :=
  { w with statefulSet := some ⟨set, w.statefulSet >>= (·.status)⟩ }

/-- The stored status after a merge patch, which leaves the fields that it does not give. -/
def SchemaRegistryStatus.merge (status : SchemaRegistryStatus)
    (stored : Option SchemaRegistryStatus) : SchemaRegistryStatus :=
  let old := stored.getD {}
  { conditions := status.conditions
    observedGeneration := status.observedGeneration.or old.observedGeneration
    replicas := status.replicas.or old.replicas
    readyReplicas := status.readyReplicas.or old.readyReplicas
    url := status.url.or old.url }

/-! ## Requests -/

inductive Req where
  | getKafka (name : String)
  | applyCertificate (cert : Certificate)
  | getSecret (name : String)
  | applyService (name : String) (svc : Service)
  | applyStatefulSet (set : StatefulSet)
  | getDeployment
  | deleteDeployment
  | getStatefulSet
  | patchStatus (status : SchemaRegistryStatus)

@[reducible] def Resp : Req → Type
  | .getKafka _ => Except KubeError (Option Parent)
  | .applyCertificate _ => Except KubeError Unit
  -- Whether it is there.
  | .getSecret _ => Except KubeError Bool
  | .applyService _ _ => Except KubeError Unit
  | .applyStatefulSet _ => Except KubeError Unit
  | .getDeployment => Except KubeError (Option Deployment)
  | .deleteDeployment => Except KubeError Unit
  | .getStatefulSet => Except KubeError (Option LiveSet)
  | .patchStatus _ => Except KubeError Unit

def answer : (r : Req) → Operator.Choice → World → Resp r × World
  | .getKafka name, c, w => answerRead c w w.kafkas[name]?
  | .applyCertificate cert, c, w =>
    if w.certManager then answerWrite c w { w with certificate := some cert }
    else (.error .notFound, w)
  | .getSecret name, c, w => answerRead c w (w.secrets.contains name)
  | .applyService name svc, c, w =>
    answerWrite c w { w with services := w.services.insert name svc }
  | .applyStatefulSet set, c, w =>
    if w.statefulSet.all fun live => sameIdentity live.set set then
      answerWrite c w (w.applyStatefulSet set)
    else (.error .refused, w)
  | .getDeployment, c, w => answerRead c w w.deployment
  | .deleteDeployment, c, w =>
    match w.deployment with
    | none => (.error .notFound, w)
    | some _ => answerWrite c w { w with deployment := none }
  | .getStatefulSet, c, w => answerRead c w w.statefulSet
  | .patchStatus status, c, w =>
    answerWrite c w { w with status := some (status.merge w.status) }

inductive ReconcileError where
  | kube (e : KubeError)
  | render (e : RenderError)
  | malformed (message : String)
  | schemaRegistryConfigInvalid (why : String)
  deriving DecidableEq, Repr

abbrev Op (α : Type) := Prog Req Resp ReconcileError α

def ask (r : Req) : Op (Resp r) := Prog.request r

def kube : Except KubeError α → Op α
  | .ok x => pure x
  | .error e => .fail (.kube e)

def rendered : Except RenderError α → Op α
  | .ok x => pure x
  | .error e => .fail (.render e)

/-! ## The pass -/

/-- How long the controller waits for the next pass. -/
inductive Action where
  | driftRequeue
  | dependencyRequeue
  | certificateRequeue
  deriving DecidableEq, Repr

/-- `reason` is `Available` just when the registry is ready. -/
def statusOf (obj : SchemaRegistry) (reason message : String)
    (counts : Option Int × Option Int) (url : Option String) : SchemaRegistryStatus where
  conditions :=
    [⟨"KafkaReady", if reason ∈ ["MissingClusterLabel", "KafkaNotReady"] then "False" else "True",
      reason, message⟩,
      ⟨"Ready", if reason = "Available" then "True" else "False", reason, message⟩]
  observedGeneration :=
    if reason = "Available" then obj.generation else obj.status >>= (·.observedGeneration)
  replicas := counts.1
  readyReplicas := counts.2
  url := url

/-- A status without a word on the StatefulSet. -/
def setStatus (obj : SchemaRegistry) (reason message : String) : Op Unit :=
  ask (.patchStatus (statusOf obj reason message (none, none) none)) >>= kube

/-- Reports why the pass goes no further. -/
def stopWith (obj : SchemaRegistry) (reason message : String) (action : Action) :
    Op (Except Action α) := do
  setStatus obj reason message
  pure (.error action)

/-- The address of the Kafka cluster that a label names. -/
def kafkaBootstrap (obj : SchemaRegistry) (cluster : String) : Op (Except Action String) := do
  let kafka ← ask (.getKafka cluster) >>= kube
  match kafka >>= internalListenerBootstrap with
  | some bootstrap => pure (.ok bootstrap)
  | none =>
    stopWith obj "KafkaNotReady" "referenced Kafka is not Ready or has no internal listener"
      .dependencyRequeue

def resolveBootstrap (obj : SchemaRegistry) : Op (Except Action String) :=
  match obj.spec.bootstrapServers with
  | some bootstrap => pure (.ok bootstrap)
  | none =>
    match obj.labels["krabka.io/cluster"]? with
    | none => stopWith obj "MissingClusterLabel"
        "set metadata.labels[\"krabka.io/cluster\"] or spec.bootstrapServers" .driftRequeue
    | some cluster => kafkaBootstrap obj cluster

def applyCertificateCr (obj : SchemaRegistry) (issuer : CertManagerIssuerRef) : Op Unit := do
  let cert ← rendered (renderCertificate obj issuer)
  match ← ask (.applyCertificate cert) with
  | .ok _ => pure ()
  | .error .notFound => .fail (.malformed "cert-manager Certificate CRD not installed")
  | .error e => .fail (.kube e)

def issueTls (obj : SchemaRegistry) (issuer : CertManagerIssuerRef) :
    Op (Except Action (Option String)) := do
  let certSecret := certSecretName obj.name
  applyCertificateCr obj issuer
  if ← ask (.getSecret certSecret) >>= kube then
    pure (.ok (some certSecret))
  else
    stopWith obj "WaitingForCert"
      ("waiting for cert-manager to provision Secret " ++ certSecret) .certificateRequeue

def resolveTls (obj : SchemaRegistry) : Op (Except Action (Option String)) :=
  match obj.spec.tls with
  | none => pure (.ok none)
  | some tls =>
    match tls.secretName, tls.issuerRef with
    | some _, some _ => stopWith obj "InvalidSpec"
        "spec.tls.secretName and spec.tls.issuerRef are mutually exclusive" .dependencyRequeue
    | none, none => stopWith obj "InvalidSpec"
        "spec.tls must set either secretName or issuerRef" .dependencyRequeue
    | some secret, none => pure (.ok (some secret))
    | none, some issuer => issueTls obj issuer

def applyService (name : String) (svc : Except RenderError Service) : Op Unit := do
  let svc ← rendered svc
  ask (.applyService name svc) >>= kube

/-- Whether the registry owns a Deployment. -/
def Deployment.ownedBy (d : Deployment) (obj : SchemaRegistry) : Bool :=
  obj.uid.any fun uid => d.ownerReferences.any (·.uid = uid)

/-- Deletes the Deployment of an earlier operator, but no other one. -/
def deleteOwnedDeployment (obj : SchemaRegistry) : Op Unit := do
  match ← ask .getDeployment >>= kube with
  | none => pure ()
  | some deployment =>
    if deployment.ownedBy obj then
      match ← ask .deleteDeployment with
      | .ok _ => pure ()
      | .error .notFound => pure ()
      | .error e => .fail (.kube e)
    else
      pure ()

/-- The ready replicas of a stored StatefulSet. -/
def readyReplicas (live : Option LiveSet) : Option Int := live >>= (·.status) >>= (·.2)

/-- The status after the StatefulSet that the API server has. -/
def report (obj : SchemaRegistry) (tlsSecret : Option String) (live : Option LiveSet) :
    SchemaRegistryStatus :=
  let ready := readyReplicas live
  let desired := obj.spec.replicas
  let counts := ((live >>= (·.status)).map (·.1), ready)
  let url := some (serviceUrl obj tlsSecret)
  if desired ≤ ready.getD 0 then
    statusOf obj "Available" (toString desired ++ " replica(s) ready") counts url
  else
    statusOf obj "Progressing"
      (toString (ready.getD 0) ++ "/" ++ toString desired ++ " replica(s) ready") counts url

def reportStatus (obj : SchemaRegistry) (tlsSecret : Option String) : Op Action := do
  let live ← ask .getStatefulSet >>= kube
  ask (.patchStatus (report obj tlsSecret live)) >>= kube
  pure .driftRequeue

structure Config where
  lib : Lib
  /-- `--default-schema-registry-image`. -/
  defaultSchemaRegistryImage : Option String
  /-- The image of the release. -/
  defaultImage : String

variable (cfg : Config)

def imageOf (obj : SchemaRegistry) : String :=
  (obj.spec.image.or cfg.defaultSchemaRegistryImage).getD cfg.defaultImage

def applyStatefulSet (obj : SchemaRegistry) (bootstrap : String) (tlsSecret : Option String) :
    Op Unit := do
  let set ← rendered (renderStatefulSet cfg.lib obj bootstrap (imageOf cfg obj) tlsSecret)
  ask (.applyStatefulSet set) >>= kube

def deploy (obj : SchemaRegistry) (bootstrap : String) (tlsSecret : Option String) :
    Op Action := do
  applyService (headlessName obj.name) (renderHeadlessService obj)
  applyService (serviceName obj.name) (renderClusteripService obj)
  applyStatefulSet cfg obj bootstrap tlsSecret
  deleteOwnedDeployment obj
  reportStatus obj tlsSecret

def reconcileInner (obj : SchemaRegistry) : Op Action :=
  match validateConfig cfg.lib obj.spec with
  | .error why => do
    setStatus obj "SchemaRegistryConfigInvalid" why
    .fail (.schemaRegistryConfigInvalid why)
  | .ok _ => do
    match ← resolveBootstrap obj with
    | .error action => pure action
    | .ok bootstrap =>
      match ← resolveTls obj with
      | .error action => pure action
      | .ok tlsSecret => deploy cfg obj bootstrap tlsSecret

/-! ## Passes among changes -/

/-- The passes are numbered. Each has the object that it was started with. -/
structure State where
  obj : Nat → SchemaRegistry
  runs : Interleave.State Nat World Req Resp ReconcileError Action

inductive Event where
  | start (i : Nat) (obj : SchemaRegistry)
  /-- The next request of a pass. -/
  | call (i : Nat) (c : Operator.Choice)
  /-- Users and other controllers. -/
  | change (f : World → World)

def Event.move : Event →
    Interleave.Move Nat World Operator.Choice Req Resp ReconcileError Action
  | .start i obj => .start i (reconcileInner cfg obj)
  | .call i c => .request i c
  | .change f => .change f

def step (e : Event) (s : State) : State where
  obj :=
    match e with
    | .start i obj => Function.update s.obj i obj
    | _ => s.obj
  runs := Interleave.step answer (e.move cfg) s.runs

/-- The states of a run, as a history of single steps. -/
def exec (e : Event) (s : State) : List State := [step cfg e s]

theorem finish_exec {e : Event} {s : State} : History.finish (exec cfg) e s = step cfg e s := rfl

end Registry
