-- SUMMARY: The host and the port that a broker advertises for a listener, or why they are not known yet.
import KrabkaOperator.Kube.Fields
import KrabkaOperator.Listeners.Addresses

/-!
# Advertised addresses

An internal listener advertises the name of the pod. The other types take the host from
an override, from the node of the pod or from the Service of the broker.
-/

namespace Listeners

open Crd Kube

structure AdvertisedAddress where
  host : String
  port : Int
  deriving DecidableEq, Repr

inductive AdvertisedError where
  | podNotScheduled (broker : Int)
  | nodeNotFound (broker : Int) (nodeName : String)
  | nodeHasNoAddress (broker : Int) (nodeName : String)
  | serviceMissing (broker : Int) (serviceName : String)
  | nodePortNotAllocated (broker : Int)
  | loadBalancerPending (broker : Int) (serviceName : String)
  | ingressBrokerHostMissing (broker : Int) (listener : String)
  deriving DecidableEq, Repr

/-- The message of the status condition. -/
def AdvertisedError.message : AdvertisedError → String
  | .podNotScheduled broker => "pod for broker " ++ toString broker ++ " not yet scheduled"
  | .nodeNotFound broker nodeName =>
    "node " ++ nodeName ++ " for broker " ++ toString broker ++ " not visible"
  | .nodeHasNoAddress broker nodeName =>
    "node " ++ nodeName ++ " for broker " ++ toString broker ++ " has no addresses"
  | .serviceMissing broker serviceName =>
    "service " ++ serviceName ++ " for broker " ++ toString broker ++ " missing"
  | .nodePortNotAllocated broker =>
    "nodePort for broker " ++ toString broker ++ " not allocated yet"
  | .loadBalancerPending broker serviceName =>
    "loadBalancer for service " ++ serviceName ++ " (broker " ++ toString broker ++
      ") not provisioned"
  | .ingressBrokerHostMissing broker listener =>
    "listener '" ++ listener ++ "' broker " ++ toString broker ++
      " has no configuration.brokers[].host (or advertisedHost); ingress/route listeners require " ++
      "a hostname per broker"

/-- The port on which an ingress controller terminates. -/
def ingressPort : Int := 443

/-- The first override for a broker. -/
def overrideOf (l : Listener) (id : Int) : Option BrokerOverride :=
  l.configuration >>= fun cfg => cfg.brokers.find? (·.broker = id)

/-- The address of a node, an external one before an internal one. -/
def nodeHost (node : Node) : Option String :=
  let addrs := node.addresses.getD []
  ((addrs.find? (·.type = "ExternalIP")) <|> addrs.find? (·.type = "InternalIP")).map (·.address)

def nodeportHost (id : Int) (podNodeName : Option String) (nodes : BTreeMap Node) :
    Except AdvertisedError String :=
  match podNodeName with
  | none => .error (.podNotScheduled id)
  | some nodeName =>
    match nodes[nodeName]? with
    | none => .error (.nodeNotFound id nodeName)
    | some node =>
      match nodeHost node with
      | none => .error (.nodeHasNoAddress id nodeName)
      | some host => .ok host

def nodeportPort (id : Int) (service : Option Service) : Except AdvertisedError Int :=
  match service with
  | none => .error (.serviceMissing id "")
  | some svc =>
    match (svc.ports.getD []).head? >>= (·.nodePort) with
    | none => .error (.nodePortNotAllocated id)
    | some port => .ok port

/-- The first entry of a load balancer, its name before its address. -/
def loadbalancerHost (id : Int) (service : Option Service) : Except AdvertisedError String :=
  match service with
  | none => .error (.serviceMissing id "")
  | some svc =>
    match (svc.ingress.getD []).head? >>= fun entry => entry.hostname <|> entry.ip with
    | none => .error (.loadBalancerPending id (svc.name.getD ""))
    | some host => .ok host

/-- The advertised address of one listener of one broker. -/
def computeAdvertised (l : Listener) (id : Int) (podFqdn : String) (podNodeName : Option String)
    (nodes : BTreeMap Node) (service : Option Service) : Except AdvertisedError AdvertisedAddress :=
  let override := overrideOf l id
  match l.type with
  | .internal => .ok ⟨podFqdn, l.port⟩
  | .nodeport => do
    let host ←
      match override >>= (·.advertisedHost) with
      | some h => pure h
      | none => nodeportHost id podNodeName nodes
    let port ←
      match (override >>= (·.advertisedPort)) <|> (override >>= (·.nodePort)) with
      | some p => pure p
      | none => nodeportPort id service
    pure ⟨host, port⟩
  | .loadbalancer => do
    let host ←
      match override >>= (·.advertisedHost) with
      | some h => pure h
      | none => loadbalancerHost id service
    pure ⟨host, (override >>= (·.advertisedPort)).getD l.port⟩
  | .ingress | .route =>
    match ingressBrokerHost l id with
    | none => .error (.ingressBrokerHostMissing id l.name)
    | some host => .ok ⟨host, (override >>= (·.advertisedPort)).getD ingressPort⟩

/-- An internal listener is always resolved, to the name of the pod. -/
theorem computeAdvertised_internal {l : Listener} (h : l.type = .internal) {id : Int}
    {podFqdn : String} {podNodeName : Option String} {nodes : BTreeMap Node}
    {service : Option Service} :
    computeAdvertised l id podFqdn podNodeName nodes service = .ok ⟨podFqdn, l.port⟩ := by
  simp only [computeAdvertised, h]

end Listeners
