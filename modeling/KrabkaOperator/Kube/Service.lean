-- SUMMARY: Services as the operator renders and reads them, with the addresses that a load balancer reports, and the addresses of the nodes.
import KrabkaOperator.Kube.Network

/-!
# Services and nodes
-/

namespace Kube

structure ServicePort where
  name : Option String := none
  port : Int
  protocol : Option String := none
  targetPort : Option Int := none
  nodePort : Option Int := none
  /-- The target port, when it is given by its name. -/
  targetPortName : Option String := none
  deriving DecidableEq, Repr

structure LoadBalancerIngress where
  hostname : Option String := none
  ip : Option String := none
  deriving DecidableEq, Repr

structure Service where
  name : Option String
  ns : Option String := none
  labels : BTreeMap String := ∅
  ownerReferences : List OwnerReference := []
  type : Option String := none
  clusterIp : Option String := none
  publishNotReadyAddresses : Option Bool := none
  selector : BTreeMap String := ∅
  ports : Option (List ServicePort) := none
  /-- `status.loadBalancer.ingress`. -/
  ingress : Option (List LoadBalancerIngress) := none
  annotations : BTreeMap String := ∅
  loadBalancerIp : Option String := none
  deriving DecidableEq

/-- The port numbers that a Service takes. -/
def Service.portNumbers (svc : Service) : List Int := (svc.ports.getD []).map (·.port)

/-- A Service routes to the pods that have all labels of its selector. -/
def Service.selects (svc : Service) (labels : BTreeMap String) : Bool :=
  !svc.selector.isEmpty && LabelSelector.selects { matchLabels := svc.selector } labels

structure NodeAddress where
  type : String
  address : String
  deriving DecidableEq, Repr

structure Node where
  name : Option String
  /-- `status.addresses`. -/
  addresses : Option (List NodeAddress) := none
  deriving DecidableEq, Repr

end Kube
