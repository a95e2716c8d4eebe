-- SUMMARY: The ordered rollout of a config hash over the pools of a cluster: when a roll has converged, which pool rolls next, and the patches of the pools.
import KrabkaOperator.Crd.Kafka
import KrabkaOperator.Operator.World
import Mathlib.Data.List.Sort

/-!
# Rollout

The parent stamps each pool with a config hash, and the pool controller puts the
hash into the pod template of its StatefulSet. A roll is over when every pool has
the same hash and its StatefulSet has rolled to it completely.
-/

namespace Cluster

open Kube Crd Operator

/-! ## Convergence -/

/-- The StatefulSet has rolled to `hash` completely, with all replicas ready. -/
def rolledTo (sts : StatefulSet) (hash : String) (replicas : Int) : Bool :=
  match sts.spec, sts.status, sts.generation with
  | some spec, some status, some generation =>
    spec.templateAnnotations["krabka.io/config-hash"]? = some hash &&
      spec.replicas = some replicas &&
      status.observedGeneration = some generation &&
      status.currentRevision.isSome &&
      status.currentRevision = status.updateRevision &&
      status.updatedReplicas.getD 0 = replicas &&
      status.readyReplicas.getD 0 = replicas
  | _, _, _ => false

/-- The labels that tie a StatefulSet to a pool. -/
def belongsTo (sts : StatefulSet) (cluster pool : String) : Bool :=
  sts.labels["app.kubernetes.io/instance"]? = some cluster &&
    sts.labels["app.kubernetes.io/name"]? = some appLabel &&
    sts.labels["krabka.io/pool"]? = some pool

/-- The StatefulSet of a pool has rolled to the hash of the pool. -/
def poolConverged (statefulSets : List StatefulSet) (p : KafkaNodePool) : Bool :=
  match p.configHash?, p.cluster? with
  | some hash, some cluster =>
    hash ≠ "" &&
      match statefulSets.find? (·.name = cluster ++ "-" ++ p.name) with
      | some sts => belongsTo sts cluster p.name && rolledTo sts hash p.spec.replicas
      | none => false
  | _, _ => false

/-- Whether no roll is in flight. No pool counts as converged. -/
def poolsConverged (pools : List KafkaNodePool) (statefulSets : List StatefulSet) : Bool :=
  (statefulSets.map (·.name)).Nodup && pools.all (poolConverged statefulSets) &&
    pools.all fun p => pools.all fun q => p.configHash? = q.configHash?

/-! ## The plan -/

structure PoolRolloutState where
  name : String
  currentHash : Option String
  ready : Bool
  deriving DecidableEq, Repr

/-- Advance one pool at a time: the first pool that has not converged holds back all
    later ones. -/
def advance (desired : String) : Bool → List PoolRolloutState → List (String × String)
  | _, [] => []
  | true, p :: ps =>
    (p.name, desired) :: advance desired (p.currentHash = some desired && p.ready) ps
  | false, p :: ps => (p.name, p.currentHash.getD desired) :: advance desired false ps

/-- The config hash to write to each pool. During bring-up, and from more than one other
    hash, every pool gets the desired one. -/
def planRollout (pools : List PoolRolloutState) (desired : String) : List (String × String) :=
  let nonDesired := (pools.filterMap (·.currentHash)).filter (· ≠ desired)
  if !pools.all (·.currentHash.isSome) || 1 < nonDesired.dedup.length then
    pools.map fun p => (p.name, desired)
  else
    advance desired true pools

/-! ## The patches -/

/-- The roll order. -/
def poolLe (a b : KafkaNodePool) : Prop :=
  a.spec.nodeIdStart < b.spec.nodeIdStart ∨
    (a.spec.nodeIdStart = b.spec.nodeIdStart ∧ (compareBytes a.name b.name).isLE = true)

instance (a b : KafkaNodePool) : Decidable (poolLe a b) := inferInstanceAs (Decidable (_ ∨ _))

def rolloutState (p : KafkaNodePool) : PoolRolloutState where
  name := p.name
  currentHash := p.configHash?
  ready := p.spec.replicas ≤ ((p.status >>= (·.readyReplicas)).getD 0)

def labelPools : List (String × String) → Op Unit
  | [] => pure ()
  | (name, hash) :: rest => do
    labelPool name hash
    labelPools rest

/-- Stamp every pool with its planned hash, in roll order. -/
def adoptPools (parent : Kafka) (pools : List KafkaNodePool) (configHash : String) : Op Unit :=
  match parent.uid with
  | none => .fail .missingUid
  | some _ =>
    labelPools (planRollout ((pools.insertionSort poolLe).map rolloutState) configHash)

end Cluster
