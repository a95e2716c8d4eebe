-- SUMMARY: The end of a Kafka pass: the network policy is applied or cleaned up, and the status tells what became of it.
import KrabkaOperator.Base.History
import KrabkaOperator.Cluster.Reconcile
import KrabkaOperator.Network.Policy

/-!
# Network policies of a pass

The `World` here has the policies and the status conditions beside the objects of the
other phases. A pass carries out the last effect of `Cluster.reconcileInner`, and the
patches of its early ends, by requests to them.
-/

namespace Network

open Kube Crd Operator

/-! ## Requests -/

structure World where
  store : Operator.World
  policies : BTreeMap NetworkPolicy := ∅
  /-- `status.conditions` of each stored `Kafka`. -/
  conditions : BTreeMap (List Condition) := ∅

inductive Req where
  /-- A request of the other phases. -/
  | operator (r : Operator.Req)
  | reconcileMetrics
  | deletePolicy (name : String)
  | applyPolicy (np : NetworkPolicy)
  | getStatus (kafka : String)
  | patchStatus (kafka : String) (conditions : List Condition)

@[reducible] def Resp : Req → Type
  | .operator r => Operator.Resp r
  | .reconcileMetrics => Except KubeError Unit
  | .deletePolicy _ => Except KubeError Unit
  | .applyPolicy _ => Except KubeError Unit
  | .getStatus _ => Except KubeError (List Condition)
  | .patchStatus _ _ => Except KubeError Unit

def answer : (r : Req) → Choice → World → Resp r × World
  | .operator r, c, w =>
    ((Operator.answer r c w.store).1, { w with store := (Operator.answer r c w.store).2 })
  | .reconcileMetrics, c, w => answerRead c w ()
  | .deletePolicy name, c, w =>
    match w.policies[name]? with
    | none => (.error .notFound, w)
    | some _ => answerWrite c w { w with policies := w.policies.erase name }
  | .applyPolicy np, c, w => answerWrite c w { w with policies := w.policies.insert np.name np }
  | .getStatus kafka, c, w => answerRead c w (w.conditions[kafka]?.getD [])
  | .patchStatus kafka conditions, c, w =>
    answerWrite c w { w with conditions := w.conditions.insert kafka conditions }

abbrev Op (α : Type) := Prog Req Resp ReconcileError α

def kube {α : Type} : Except KubeError α → Op α
  | .ok x => pure x
  | .error e => .fail (.kube e)

def applyPolicy (np : NetworkPolicy) : Op (Except KubeError Unit) := Prog.request (Req.applyPolicy np)

def patchStatus (kafka : String) (conditions : List Condition) : Op (Except KubeError Unit) :=
  Prog.request (Req.patchStatus kafka conditions)

/-! ## Programs -/

/-- What a pass gets from outside of the `World`. -/
structure Pass where
  base : Cluster.KafkaPass
  /-- `status.conditions` of the `Kafka` as the pass has read it. -/
  status : List Condition := []
  operatorNamespace : String := "krabka-system"
  /-- What the other conditions of the last status are, before and after that of the policy. -/
  conditionsBefore : List Condition := []
  conditionsAfter : List Condition := []
  /-- The condition that an early phase surfaces. -/
  surfaced : Condition := ⟨"NodePoolTopologyValid", "False", "InvalidNodePoolTopology", ""⟩

/-- The status says that a policy is in place. -/
def wasRendered (status : List Condition) : Bool :=
  status.any fun c => c.type = "NetworkPolicyReady" && c.reason = "Available"

/-- `none` when `spec.networkPolicy` is unset, else the result of the apply. An error of the
    delete is logged only. -/
def reconcileNetworkPolicy (pass : Pass) : Op (Option (Except ReconcileError Unit)) := do
  let kafka := pass.base.kafka
  if kafka.spec.networkPolicy.isNone then
    Prog.when (wasRendered pass.status)
      (Prog.request (Req.deletePolicy (policyName kafka.name)) >>= fun _ => pure ())
    pure none
  else
    match clusterPolicy kafka pass.operatorNamespace with
    | .error e => pure (some (.error e))
    | .ok np =>
      match ← applyPolicy np with
      | .error e => pure (some (.error (.kube e)))
      | .ok _ => pure (some (.ok ()))

def npCondition : Option (Except ReconcileError Unit) → Condition
  | none => ⟨"NetworkPolicyReady", "False", "Disabled", "spec.networkPolicy is not set"⟩
  | some (.ok _) => ⟨"NetworkPolicyReady", "True", "Available", "network policy reconciled"⟩
  | some (.error _) => ⟨"NetworkPolicyReady", "False", "Error", "network policy reconcile failed"⟩

/-- Metrics and policy are reconciled, then the status is patched; only after that their
    errors end the pass. -/
def finalizeKafka (pass : Pass) : Op (Except KubeError Unit) := do
  let metrics ← Prog.request Req.reconcileMetrics
  let outcome ← reconcileNetworkPolicy pass
  patchStatus pass.base.kafka.name
    (pass.conditionsBefore ++ [npCondition outcome] ++ pass.conditionsAfter) >>= kube
  kube metrics
  match outcome with
  | some (.error e) => .fail e
  | _ => pure (.ok ())

/-- Replace the condition of the same type. -/
def upsert (conditions : List Condition) (c : Condition) : List Condition :=
  conditions.filter (·.type ≠ c.type) ++ [c]

def patchStatusWithCondition (pass : Pass) : Op (Except KubeError Unit) := do
  let current ← Prog.request (Req.getStatus pass.base.kafka.name) >>= kube
  patchStatus pass.base.kafka.name (upsert current pass.surfaced)

/-- How a pass carries out the requests of its phases. -/
def carryOut (pass : Pass) : (r : Operator.Req) → Op (Operator.Resp r)
  | .effect .finalizeKafka => finalizeKafka pass
  | .effect .patchKafkaStatus => patchStatusWithCondition pass
  | r => Prog.request (Req.operator r)

def reconcileInner (lib : ClusterCa.CaLib) (pass : Pass) : Op Unit :=
  (Cluster.reconcileInner lib pass.base).refined (carryOut pass)

/-! ## Runs -/

inductive Event where
  | pass (p : Pass) (choices : List Choice)
  | change (f : World → World)

namespace Event

variable (lib : ClusterCa.CaLib)

def exec : Event → World → List World
  | .pass p choices, w => (reconcileInner lib p).after answer choices w
  | .change f, w => [f w]

/-- The requests that an event makes. -/
def requests : Event → World → List Req
  | .pass p choices, w =>
    ((reconcileInner lib p).run (Prog.logged answer) choices (w, [])).2.2.map (·.1)
  | .change _, _ => []

end Event

end Network
