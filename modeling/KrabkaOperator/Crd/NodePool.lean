-- SUMMARY: The KafkaNodePool resource: node range, roles, labels and reported status.
import KrabkaOperator.Kube.Fields

/-!
# KafkaNodePool
-/

namespace Crd

inductive NodeRole where
  | broker
  | controller
  deriving DecidableEq, Repr

structure KafkaNodePoolSpec where
  replicas : Int
  nodeIdStart : Int
  roles : List NodeRole
  deriving DecidableEq, Repr

structure Condition where
  type : String
  status : String
  reason : String
  message : String
  deriving DecidableEq, Repr

structure KafkaNodePoolStatus where
  replicas : Option Int
  readyReplicas : Option Int
  conditions : List Condition := []
  deriving DecidableEq, Repr

structure KafkaNodePool where
  name : String
  labels : Kube.BTreeMap String
  spec : KafkaNodePoolSpec
  status : Option KafkaNodePoolStatus
  annotations : Kube.BTreeMap String := ∅
  finalizers : List String := []
  /-- Whether a deletion timestamp is set. -/
  deleting : Bool := false
  deriving DecidableEq

namespace KafkaNodePool

/-- The config hash that the parent has stamped on a pool. -/
def configHash? (p : KafkaNodePool) : Option String := p.labels["krabka.io/config-hash"]?

def withConfigHash (p : KafkaNodePool) (hash : String) : KafkaNodePool :=
  { p with labels := p.labels.insert "krabka.io/config-hash" hash }

/-- The cluster that a pool belongs to. -/
def cluster? (p : KafkaNodePool) : Option String := p.labels["krabka.io/cluster"]?

end KafkaNodePool

end Crd
