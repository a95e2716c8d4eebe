-- SUMMARY: The network policy of a cluster: its rules for brokers, the operator, the peers of each listener and metrics.
import KrabkaOperator.Listeners.Validation
import KrabkaOperator.Operator.World

/-!
# Network policy of a cluster

One policy selects all pods of the cluster. Its rules come in four groups.
-/

namespace Network

open Kube Crd Operator Listeners

def operatorComponentLabel : String := "operator"

def metricsPort : Int := 9404

def policyName (cluster : String) : String := cluster ++ "-broker-policy"

def commonLabels (kafkaName kafkaVersion : String) : BTreeMap String :=
  BTreeMap.ofList [("app.kubernetes.io/name", appLabel), ("app.kubernetes.io/instance", kafkaName),
    ("app.kubernetes.io/version", kafkaVersion), ("app.kubernetes.io/managed-by", "krabka-operator")]

def ownerRef (owner : Kafka) : Except ReconcileError OwnerReference :=
  match owner.uid with
  | none => .error .missingUid
  | some uid => .ok
      { apiVersion := "krabka.io/v1alpha1", kind := "Kafka", name := owner.name, uid := uid,
        controller := true, blockOwnerDeletion := true }

/-- The labels that every pod of a cluster has. -/
def podMatch (cluster : String) : BTreeMap String :=
  BTreeMap.ofList [("app.kubernetes.io/name", appLabel), ("app.kubernetes.io/instance", cluster)]

def podSelector (cluster : String) : LabelSelector := { matchLabels := podMatch cluster }

/-- A peer of Kubernetes, as opposed to one of a listener. -/
abbrev K8sPeer := Kube.NetworkPolicyPeer

def selfPeer (cluster : String) : K8sPeer := { podSelector := some (podSelector cluster) }

def operatorPeer (operatorNamespace : String) : K8sPeer where
  podSelector := some
    { matchLabels := BTreeMap.ofList [("app.kubernetes.io/component", operatorComponentLabel)] }
  namespaceSelector := some
    { matchLabels := BTreeMap.ofList [("kubernetes.io/metadata.name", operatorNamespace)] }

/-- A rule for one TCP port. -/
def portRule (sources : List K8sPeer) (port : Int) : NetworkPolicyIngressRule :=
  ⟨sources, [⟨"TCP", port⟩]⟩

def toK8sPeer (p : Crd.NetworkPolicyPeer) : K8sPeer :=
  ⟨p.podSelector, p.namespaceSelector⟩

/-- The rule for the peers of a listener. The operator has a rule of its own, and an
    empty list of peers denies all. -/
def peerRule? (operatorName : String) (l : Listener) : Option NetworkPolicyIngressRule :=
  if l.name = operatorName then none
  else
    match l.networkPolicyPeers with
    | none => some (portRule [] l.port)
    | some [] => none
    | some peers => some (portRule (peers.map toK8sPeer) l.port)

def ingressRules (owner : Kafka) (effective : List Listener) (interBrokerPort : Int)
    (operatorNamespace : String) (metricsEnabled : Bool) : List NetworkPolicyIngressRule :=
  let operatorName := (operatorListener (userListeners owner.spec)).name
  [portRule [selfPeer owner.name] interBrokerPort] ++
    effective.map (fun l => portRule [operatorPeer operatorNamespace] l.port) ++
    effective.filterMap (peerRule? operatorName) ++
    (if metricsEnabled then [portRule [] metricsPort] else [])

def renderNetworkPolicy (owner : Kafka) (effective : List Listener) (interBrokerPort : Int)
    (operatorNamespace : String) (metricsEnabled : Bool) : Except ReconcileError NetworkPolicy := do
  let ownerReference ← ownerRef owner
  pure
    { name := policyName owner.name
      ns := owner.ns
      labels := commonLabels owner.name owner.spec.kafkaVersion
      ownerReferences := [ownerReference]
      podSelector := podSelector owner.name
      policyTypes := ["Ingress"]
      ingress := ingressRules owner effective interBrokerPort operatorNamespace metricsEnabled }

/-- The port of the listener for the traffic between brokers. -/
def interBrokerPort (spec : KafkaSpec) : Int :=
  let name := effectiveInterBrokerListenerName spec.listeners spec.interBrokerListenerName
  (((effectiveListeners spec).find? (·.name = name)).map (·.port)).getD brokerPort

/-- The policy that a pass renders for a `Kafka`. -/
def clusterPolicy (kafka : Kafka) (operatorNamespace : String) : Except ReconcileError NetworkPolicy :=
  renderNetworkPolicy kafka (effectiveListeners kafka.spec) (interBrokerPort kafka.spec)
    operatorNamespace kafka.spec.metricsConfig.isSome

end Network
