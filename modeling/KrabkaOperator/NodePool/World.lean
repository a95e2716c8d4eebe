-- SUMMARY: The world of the pool controller: pools, StatefulSets, drain proposals, partition assignments and voters, and its requests.
import KrabkaOperator.Base.Prog
import KrabkaOperator.NodePool.Identity
import KrabkaOperator.Operator.World

/-!
# World of the pool controller

The pool controller works on Kubernetes objects and, through its admin client, on
the metadata of the brokers. Both may change between its passes. A request may be
refused, and its answer may be lost.
-/

namespace NodePool

open Kube Crd Operator

/-- What the parent has published about its version. -/
inductive VersionGate where
  | cleared
  | invalid (status reason message : String)
  | waiting
  deriving DecidableEq, Repr

/-- What a pool reads of its parent. -/
structure Parent where
  name : String
  deleting : Bool := false
  gate : VersionGate := .cleared
  metrics : Bool := false
  kafkaVersion : String := "4.1"
  deriving DecidableEq, Repr

/-! ## Drain proposals -/

inductive RebalanceState where
  | new
  | proposalReady
  | rebalancing
  | ready
  | notReady
  | stopped
  deriving DecidableEq, Repr

inductive KafkaRebalanceMode where
  | full
  | addBrokers
  | removeBrokers
  deriving DecidableEq, Repr

structure SecretKeyRef where
  name : String
  key : String
  deriving DecidableEq, Repr

structure KafkaRebalanceSpec where
  mode : KafkaRebalanceMode
  brokers : List Int
  authorizationSecretRef : Option SecretKeyRef
  deriving DecidableEq, Repr

structure KafkaRebalanceStatus where
  conditions : List Condition
  observedGeneration : Option Int
  deriving DecidableEq, Repr

structure KafkaRebalance where
  name : String
  generation : Option Int
  /-- The pending command. -/
  command : Option String
  spec : KafkaRebalanceSpec
  status : Option KafkaRebalanceStatus
  deriving DecidableEq, Repr

def RebalanceState.ofConditionType : String → Option RebalanceState
  | "New" => some .new
  | "ProposalReady" => some .proposalReady
  | "Rebalancing" => some .rebalancing
  | "Ready" => some .ready
  | "NotReady" => some .notReady
  | "Stopped" => some .stopped
  | _ => none

/-- The last condition that holds. -/
def KafkaRebalance.activeCondition? (obj : KafkaRebalance) : Option Condition :=
  obj.status >>= fun status => status.conditions.reverse.find? (·.status = "True")

/-- The state that the last condition that holds stands for. -/
def KafkaRebalance.currentState (obj : KafkaRebalance) : RebalanceState :=
  (obj.activeCondition? >>= fun c => RebalanceState.ofConditionType c.type).getD .new

/-! ## The brokers -/

structure PartitionAssignment where
  topic : String
  partition : Int
  replicas : List Int
  addingReplicas : List Int := []
  removingReplicas : List Int := []
  deriving DecidableEq, Repr

/-- Whether an assignment has a replica on one of the brokers. -/
def PartitionAssignment.uses (a : PartitionAssignment) (brokers : List Int) : Bool :=
  a.replicas.any (brokers.contains ·)

/-- Whether a reassignment mentions one of the brokers. -/
def PartitionAssignment.mentions (a : PartitionAssignment) (brokers : List Int) : Bool :=
  (a.replicas ++ a.addingReplicas ++ a.removingReplicas).any (brokers.contains ·)

structure Voter where
  nodeId : Int
  directoryId : String
  deriving DecidableEq, Repr

structure Quorum where
  leaderId : Int
  voters : List Voter
  deriving DecidableEq, Repr

structure World where
  kafkas : List Parent := []
  pools : List KafkaNodePool := []
  statefulSets : List StatefulSet := []
  pods : List Pod := []
  rebalances : List KafkaRebalance := []
  assignments : List PartitionAssignment := []
  reassignments : List PartitionAssignment := []
  quorum : Quorum := ⟨0, []⟩
  /-- The brokers that are registered with the controllers. -/
  registered : List Int := []
  deriving DecidableEq

/-- Calls that read or write no object of the `World`. -/
inductive Effect where
  | ensureQuorumBootstrapState
  | ensureQuorumDirectoryId (nodeId : Int)
  | applyPodDisruptionBudget
  | markQuorumBootstrapInitialized
  | getClusterId
  | operatorBootstrapAddress
  | adminClient
  | replicationMetrics
  deriving DecidableEq, Repr

inductive Req where
  | getKafka (name : String)
  | listPools (cluster : String)
  | listStatefulSets (cluster : String)
  | listPods (cluster : String)
  | patchStatus (pool : String) (status : KafkaNodePoolStatus)
  | setFinalizers (pool : String) (finalizers : List String)
  | annotateUnregistered (pool value : String)
  | getStatefulSet (name : String)
  | applyStatefulSet (sts : StatefulSet)
  /-- Merge `spec.replicas: 0`. -/
  | scaleToZero (name : String)
  | getRebalance (name : String)
  | applyRebalance (obj : KafkaRebalance)
  | commandRebalance (name command : String)
  | deleteRebalance (name : String)
  | describePartitionAssignments
  | listPartitionReassignments
  | unregisterBroker (id : Int)
  | describeMetadataQuorum
  | removeRaftVoter (voter : Voter)
  | effect (e : Effect)

@[reducible] def Resp : Req → Type
  | .getKafka _ => Except KubeError (Option Parent)
  | .listPools _ => Except KubeError (List KafkaNodePool)
  | .listStatefulSets _ => Except KubeError (List StatefulSet)
  | .listPods _ => Except KubeError (List Pod)
  | .getStatefulSet _ => Except KubeError (Option StatefulSet)
  | .getRebalance _ => Except KubeError (Option KafkaRebalance)
  | .describePartitionAssignments => Except KubeError (List PartitionAssignment)
  | .listPartitionReassignments => Except KubeError (List PartitionAssignment)
  | .describeMetadataQuorum => Except KubeError Quorum
  | _ => Except KubeError Unit

def finalizer : String := "krabka.io/kafka-node-pool-finalizer"
def unregisteredBrokersAnnotation : String := "krabka.io/unregistered-brokers"

/-! ## Patches -/

/-- JSON merge patch of a status: absent fields are not sent and keep their values. -/
def mergeStatus (old : Option KafkaNodePoolStatus) (patch : KafkaNodePoolStatus) :
    KafkaNodePoolStatus where
  replicas := patch.replicas.or (old >>= (·.replicas))
  readyReplicas := patch.readyReplicas.or (old >>= (·.readyReplicas))
  conditions := patch.conditions

namespace World

def statefulSet? (w : World) (name : String) : Option StatefulSet :=
  w.statefulSets.find? (·.name = name)

def pool? (w : World) (name : String) : Option KafkaNodePool := w.pools.find? (·.name = name)

def rebalance? (w : World) (name : String) : Option KafkaRebalance :=
  w.rebalances.find? (·.name = name)

def poolsOf (w : World) (cluster : String) : List KafkaNodePool :=
  w.pools.filter fun p => p.cluster? = some cluster

def updatePool (w : World) (name : String) (f : KafkaNodePool → KafkaNodePool) : World :=
  { w with pools := w.pools.map fun p => if p.name = name then f p else p }

def updateStatefulSet (w : World) (name : String) (f : StatefulSet → StatefulSet) : World :=
  { w with statefulSets := w.statefulSets.map fun s => if s.name = name then f s else s }

def updateRebalance (w : World) (name : String) (f : KafkaRebalance → KafkaRebalance) : World :=
  { w with rebalances := w.rebalances.map fun r => if r.name = name then f r else r }

end World

/-- Whether two specs are the same. -/
def sameSpec (a b : StatefulSetSpec) : Bool :=
  a.replicas = b.replicas && a.templateAnnotations.toList = b.templateAnnotations.toList &&
    a.templateLabels.toList = b.templateLabels.toList && a.templateSpec = b.templateSpec

/-- The StatefulSet after an apply. Its generation counts the changes of the spec. -/
def appliedSet (old desired : StatefulSet) : StatefulSet where
  name := old.name
  labels := old.labels ∪ desired.labels
  annotations := old.annotations ∪ desired.annotations
  spec := desired.spec
  status := old.status
  generation :=
    match old.spec, desired.spec with
    | some a, some b => if sameSpec a b then old.generation else old.generation.map (· + 1)
    | _, _ => old.generation.map (· + 1)

def World.applyStatefulSet (w : World) (desired : StatefulSet) : World :=
  match w.statefulSet? desired.name with
  | none => { w with statefulSets :=
      w.statefulSets ++ [{ desired with generation := some 1, status := none }] }
  | some _ => w.updateStatefulSet desired.name fun old => appliedSet old desired

def World.scaleToZero (w : World) (name : String) : World :=
  w.updateStatefulSet name fun s => { s with
    spec := s.spec.map fun spec => { spec with replicas := some 0 }
    generation := s.generation.map (· + 1) }

/-- A created object has the first generation; an apply of the same spec changes nothing. -/
def World.applyRebalance (w : World) (obj : KafkaRebalance) : World :=
  match w.rebalance? obj.name with
  | none => { w with rebalances := w.rebalances ++ [{ obj with generation := some 1, status := none }] }
  | some _ => w.updateRebalance obj.name fun old =>
      if old.spec = obj.spec then old
      else { old with spec := obj.spec, generation := old.generation.map (· + 1) }

def removeVoter (voters : List Voter) (v : Voter) : List Voter := voters.filter (· ≠ v)

def answer : (r : Req) → Choice → World → Resp r × World
  | .getKafka name, c, w => answerRead c w (w.kafkas.find? (·.name = name))
  | .listPools cluster, c, w => answerRead c w (w.poolsOf cluster)
  | .listStatefulSets cluster, c, w => answerRead c w (w.statefulSets.filter fun s =>
      s.labels["app.kubernetes.io/instance"]? = some cluster &&
        s.labels["app.kubernetes.io/name"]? = some appLabel)
  | .listPods cluster, c, w => answerRead c w (w.pods.filter fun p =>
      p.labels["app.kubernetes.io/instance"]? = some cluster)
  | .patchStatus pool status, c, w => answerWrite c w
      (w.updatePool pool fun p => { p with status := some (mergeStatus p.status status) })
  | .setFinalizers pool finalizers, c, w => answerWrite c w
      (w.updatePool pool fun p => { p with finalizers := finalizers })
  | .annotateUnregistered pool value, c, w => answerWrite c w (w.updatePool pool fun p => { p with
      annotations := p.annotations.insert unregisteredBrokersAnnotation value })
  | .getStatefulSet name, c, w => answerRead c w (w.statefulSet? name)
  | .applyStatefulSet sts, c, w => answerWrite c w (w.applyStatefulSet sts)
  | .scaleToZero name, c, w => answerWrite c w (w.scaleToZero name)
  | .getRebalance name, c, w => answerRead c w (w.rebalance? name)
  | .applyRebalance obj, c, w => answerWrite c w (w.applyRebalance obj)
  | .commandRebalance name command, c, w => answerWrite c w
      (w.updateRebalance name fun r => { r with command := some command })
  | .deleteRebalance name, c, w => answerWrite c w
      { w with rebalances := w.rebalances.filter (·.name ≠ name) }
  | .describePartitionAssignments, c, w => answerRead c w w.assignments
  | .listPartitionReassignments, c, w => answerRead c w w.reassignments
  | .unregisterBroker id, c, w => answerWrite c w
      { w with registered := w.registered.filter (· ≠ id) }
  | .describeMetadataQuorum, c, w => answerRead c w w.quorum
  | .removeRaftVoter v, c, w => answerWrite c w
      { w with quorum := ⟨w.quorum.leaderId, removeVoter w.quorum.voters v⟩ }
  | .effect _, c, w => answerRead c w ()

/-! ## Programs -/

abbrev Op (α : Type) := Prog Req Resp ReconcileError α

def kube {α : Type} : Except KubeError α → Op α
  | .ok x => pure x
  | .error e => .fail (.kube e)

def getKafka (name : String) : Op (Option Parent) := Prog.request (.getKafka name) >>= kube
def listPools (cluster : String) : Op (List KafkaNodePool) :=
  Prog.request (.listPools cluster) >>= kube
def listStatefulSets (cluster : String) : Op (List StatefulSet) :=
  Prog.request (.listStatefulSets cluster) >>= kube
def listPods (cluster : String) : Op (List Pod) := Prog.request (.listPods cluster) >>= kube
def getStatefulSet (name : String) : Op (Option StatefulSet) :=
  Prog.request (.getStatefulSet name) >>= kube
def getRebalance (name : String) : Op (Option KafkaRebalance) :=
  Prog.request (.getRebalance name) >>= kube
def describePartitionAssignments : Op (List PartitionAssignment) :=
  Prog.request .describePartitionAssignments >>= kube
def listPartitionReassignments : Op (List PartitionAssignment) :=
  Prog.request .listPartitionReassignments >>= kube
def describeMetadataQuorum : Op Quorum := Prog.request .describeMetadataQuorum >>= kube
def patchStatus (pool : String) (status : KafkaNodePoolStatus) : Op Unit :=
  Prog.request (.patchStatus pool status) >>= kube
/-- The list that is patched is the one of the pool that the pass has started on. -/
def setFinalizer (pool : KafkaNodePool) (present : Bool) : Op Unit :=
  let finalizers :=
    if present then
      if finalizer ∈ pool.finalizers then pool.finalizers else pool.finalizers ++ [finalizer]
    else pool.finalizers.filter (· ≠ finalizer)
  Prog.request (.setFinalizers pool.name finalizers) >>= kube
def annotateUnregistered (pool value : String) : Op Unit :=
  Prog.request (.annotateUnregistered pool value) >>= kube
def applyStatefulSet (sts : StatefulSet) : Op Unit :=
  Prog.request (.applyStatefulSet sts) >>= kube
def scaleToZero (name : String) : Op Unit := Prog.request (.scaleToZero name) >>= kube
def applyRebalance (obj : KafkaRebalance) : Op Unit :=
  Prog.request (.applyRebalance obj) >>= kube
def commandRebalance (name command : String) : Op Unit :=
  Prog.request (.commandRebalance name command) >>= kube
def deleteRebalance (name : String) : Op Unit := Prog.request (.deleteRebalance name) >>= kube
def unregisterBroker (id : Int) : Op Unit := Prog.request (.unregisterBroker id) >>= kube
def removeRaftVoter (v : Voter) : Op Unit := Prog.request (.removeRaftVoter v) >>= kube
def effect (e : Effect) : Op Unit := Prog.request (.effect e) >>= kube

end NodePool
