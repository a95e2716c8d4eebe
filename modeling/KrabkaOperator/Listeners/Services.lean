-- SUMMARY: The Services of a cluster beside the headless one: how they are rendered, and which pods the bootstrap Services match.
import KrabkaOperator.Listeners.Addresses
import KrabkaOperator.Listeners.Ports
import KrabkaOperator.NodePool.Reconcile

/-!
# Services

Each external listener has a bootstrap Service for the pods with the broker role and a
Service for each broker. The controllers have one bootstrap Service. The labels of a pod
come from the operator and from the template of the user, and the operator only sets the
labels of the roles that the pool has.
-/

namespace Listeners

open Crd Kube Operator

/-! ## External listeners -/

/-- A listener that is served beyond the cluster network. -/
abbrev ExternalListener := { l : Listener // l.type ≠ .internal }

/-- The listeners that get Services of their own. -/
def externalListeners (ls : List Listener) : List ExternalListener :=
  ls.filterMap fun l => if h : l.type ≠ .internal then some ⟨l, h⟩ else none

theorem mem_externalListeners {ls : List Listener} {l : ExternalListener} :
    l ∈ externalListeners ls ↔ l.1 ∈ ls := by
  simp only [externalListeners, List.mem_filterMap, Option.dite_none_right_eq_some]
  constructor
  · rintro ⟨l', hmem, hext, heq⟩
    cases heq
    exact hmem
  · intro hmem
    exact ⟨l.1, hmem, l.2, rfl⟩

/-- The type of the Services of a listener. -/
def serviceType (l : ExternalListener) : String :=
  match l.1.type, l.2 with
  | .nodeport, _ => "NodePort"
  | .loadbalancer, _ => "LoadBalancer"
  | .ingress, _ | .route, _ => "ClusterIP"
  | .internal, h => absurd rfl h

/-! ## Names -/

def controllerBootstrapServiceName (cluster : String) : String := cluster ++ "-controller-bootstrap"

def headlessServiceName (cluster : String) : String := cluster ++ "-broker-headless"

def metricsServiceName (cluster : String) : String := cluster ++ "-broker-metrics"

/-! ## Rendering -/

/-- The Service of one broker on an external listener. -/
def renderBrokerService (owner : Kafka) (l : ExternalListener) (brokerId : Int) (podName : String) :
    Except ReconcileError Service := do
  let override := l.1.configuration >>= fun cfg => cfg.brokers.find? (·.broker = brokerId)
  let ownerReference ← Network.ownerRef owner
  pure
    { name := some (brokerServiceName owner.name l.1.name brokerId)
      ns := owner.ns
      labels := BTreeMap.ofList
        [("app.kubernetes.io/name", appLabel), ("app.kubernetes.io/instance", owner.name),
          ("krabka.io/listener", l.1.name), ("krabka.io/broker", toString brokerId)]
      ownerReferences := [ownerReference]
      type := some (serviceType l)
      selector := BTreeMap.ofList [("statefulset.kubernetes.io/pod-name", podName)]
      ports := some [{ tcpPort l.1.name l.1.port with nodePort := override >>= (·.nodePort) }]
      loadBalancerIp := override >>= (·.loadBalancerIp) }

/-- The bootstrap Service of an external listener. The labels of the operator win over those of
    the user. -/
def renderBootstrapService (owner : Kafka) (l : ExternalListener) : Except ReconcileError Service := do
  let bootstrap := l.1.configuration >>= (·.bootstrap)
  let labels := BTreeMap.ofList
    [("app.kubernetes.io/name", appLabel), ("app.kubernetes.io/instance", owner.name),
      ("krabka.io/listener", l.1.name), ("krabka.io/role", "bootstrap")]
  let ownerReference ← Network.ownerRef owner
  pure
    { name := some (bootstrapServiceName owner.name l.1.name)
      ns := owner.ns
      labels := (bootstrap.map (·.labels)).getD ∅ ∪ labels
      annotations := (bootstrap.map (·.annotations)).getD ∅
      ownerReferences := [ownerReference]
      type := some (serviceType l)
      selector := BTreeMap.ofList
        [("app.kubernetes.io/name", appLabel), ("app.kubernetes.io/instance", owner.name),
          ("krabka.io/broker-role", "true")]
      ports := some [{ tcpPort l.1.name l.1.port with nodePort := bootstrap >>= (·.nodePort) }]
      loadBalancerIp := bootstrap >>= (·.loadBalancerIp) }

/-- The bootstrap Service of the controllers. -/
def renderControllerBootstrapService (owner : Kafka) : Except ReconcileError Service := do
  let ownerReference ← Network.ownerRef owner
  pure
    { name := some (controllerBootstrapServiceName owner.name)
      ns := owner.ns
      labels := Network.commonLabels owner.name owner.spec.kafkaVersion
      ownerReferences := [ownerReference]
      selector := BTreeMap.ofList
        [("app.kubernetes.io/name", appLabel), ("app.kubernetes.io/instance", owner.name),
          ("krabka.io/controller-role", "true")]
      ports := some [tcpPort "controller" controllerPort] }

/-- The Service of the metrics endpoints, with the labels of `serviceMonitor`. -/
def renderMetricsService (owner : Kafka) (monitorLabels : BTreeMap String) :
    Except ReconcileError Service := do
  let ownerReference ← Network.ownerRef owner
  pure
    { name := some (metricsServiceName owner.name)
      ns := owner.ns
      labels := monitorLabels ∪ Network.commonLabels owner.name owner.spec.kafkaVersion
      ownerReferences := [ownerReference]
      clusterIp := some "None"
      selector := BTreeMap.ofList
        [("app.kubernetes.io/name", appLabel), ("app.kubernetes.io/instance", owner.name)]
      ports := some
        [{ name := some "metrics", port := Network.metricsPort, protocol := some "TCP",
           targetPortName := some "metrics" }] }

/-! ## The labels of a pod -/

section Labels

variable {parent : NodePool.Parent} {pass : NodePool.PoolPass}

/-- The labels of the pods of a pool. -/
def podLabels (parent : NodePool.Parent) (pass : NodePool.PoolPass) : BTreeMap String :=
  NodePool.renderPodLabels pass
    (NodePool.commonLabels parent.name parent.kafkaVersion pass.pool.name)

theorem renderStatefulset_templateLabels :
    (NodePool.renderStatefulset parent pass).spec.map (·.templateLabels) =
      some (podLabels parent pass) := rfl

/-- The label of a role. -/
def roleLabel : NodeRole → String
  | .broker => "krabka.io/broker-role"
  | .controller => "krabka.io/controller-role"

/-- The labels that the operator sets. -/
def ownLabel (parent : NodePool.Parent) (pass : NodePool.PoolPass) (key : String) : Option String :=
  if key = roleLabel .broker ∧ .broker ∈ pass.pool.spec.roles then some "true"
  else if key = roleLabel .controller ∧ .controller ∈ pass.pool.spec.roles then some "true"
  else (NodePool.commonLabels parent.name parent.kafkaVersion pass.pool.name)[key]?

/-- The labels of the operator win over those of the user. -/
theorem getElem?_podLabels (key : String) :
    (podLabels parent pass)[key]? = (ownLabel parent pass key).or pass.podLabels[key]? := by
  have hinsert (m : BTreeMap String) (k : String) :
      (m.insert k "true")[key]? = if key = k then some "true" else m[key]? := by
    simp only [Std.ExtTreeMap.getElem?_insert, Std.LawfulEqCmp.compare_eq_iff_eq, @eq_comm _ k key]
  unfold podLabels NodePool.renderPodLabels ownLabel roleLabel
  rw [Std.ExtTreeMap.getElem?_union]
  congr 1
  by_cases hbroker : NodeRole.broker ∈ pass.pool.spec.roles <;>
    by_cases hcontroller : NodeRole.controller ∈ pass.pool.spec.roles <;>
    simp only [hbroker, hcontroller, if_true, if_false, hinsert, and_true, and_false]

/-- A label that only the roles set. -/
theorem getElem?_podLabels_role (role : NodeRole) :
    (podLabels parent pass)[roleLabel role]? =
      if role ∈ pass.pool.spec.roles then some "true" else pass.podLabels[roleLabel role]? := by
  have hne : roleLabel .broker ≠ roleLabel .controller := by decide
  have hcommon : (NodePool.commonLabels parent.name parent.kafkaVersion
      pass.pool.name)[roleLabel role]? = none := by
    cases role <;> simp [NodePool.commonLabels, BTreeMap.getElem?_ofList, roleLabel, List.lookup_cons]
  rw [getElem?_podLabels, ownLabel, hcommon]
  cases role with
  | broker => by_cases h : NodeRole.broker ∈ pass.pool.spec.roles <;> simp [h, hne]
  | controller => by_cases h : NodeRole.controller ∈ pass.pool.spec.roles <;> simp [h, hne.symm]

theorem getElem?_podLabels_common {key value : String} (hbroker : key ≠ roleLabel .broker)
    (hcontroller : key ≠ roleLabel .controller)
    (h : (NodePool.commonLabels parent.name parent.kafkaVersion pass.pool.name)[key]? =
      some value) : (podLabels parent pass)[key]? = some value := by
  simp [getElem?_podLabels, ownLabel, hbroker, hcontroller, h]

theorem getElem?_podLabels_name :
    (podLabels parent pass)["app.kubernetes.io/name"]? = some appLabel :=
  getElem?_podLabels_common (by decide) (by decide)
    (by simp [NodePool.commonLabels, BTreeMap.getElem?_ofList, List.lookup_cons])

theorem getElem?_podLabels_instance :
    (podLabels parent pass)["app.kubernetes.io/instance"]? = some parent.name :=
  getElem?_podLabels_common (by decide) (by decide)
    (by simp [NodePool.commonLabels, BTreeMap.getElem?_ofList, List.lookup_cons])

end Labels

/-! ## The pods of a bootstrap Service -/

/-- The selector of the bootstrap Services: the pods of a cluster with the label of a role. -/
def roleSelector (cluster : String) (role : NodeRole) : BTreeMap String :=
  BTreeMap.ofList [("app.kubernetes.io/name", appLabel), ("app.kubernetes.io/instance", cluster),
    (roleLabel role, "true")]

theorem selects_roleSelector {svc : Service} {cluster : String} {role : NodeRole}
    {labels : BTreeMap String} (h : svc.selector = roleSelector cluster role) :
    svc.selects labels = true ↔ labels["app.kubernetes.io/name"]? = some appLabel ∧
      labels["app.kubernetes.io/instance"]? = some cluster ∧
        labels[roleLabel role]? = some "true" := by
  have hne : (roleSelector cluster role).isEmpty = false := by
    simp [roleSelector, BTreeMap.ofList]
  have hnodup : ([("app.kubernetes.io/name", appLabel), ("app.kubernetes.io/instance", cluster),
      (roleLabel role, "true")].map (·.1)).Nodup := by
    cases role <;> simp [roleLabel]
  rw [Service.selects, h, hne, Bool.not_false, Bool.true_and, roleSelector,
    LabelSelector.selects_ofList hnodup]
  simp

/-- The pods that a bootstrap Service matches: those of the cluster whose pool has the role, or
    whose template has the label of the role. -/
theorem selects_podLabels {svc : Service} {cluster : String} {role : NodeRole}
    {parent : NodePool.Parent} {pass : NodePool.PoolPass}
    (h : svc.selector = roleSelector cluster role) :
    svc.selects (podLabels parent pass) = true ↔ parent.name = cluster ∧
      (role ∈ pass.pool.spec.roles ∨ pass.podLabels[roleLabel role]? = some "true") := by
  rw [selects_roleSelector h, getElem?_podLabels_name, getElem?_podLabels_instance,
    getElem?_podLabels_role]
  by_cases hrole : role ∈ pass.pool.spec.roles <;> simp [hrole]

theorem renderControllerBootstrapService_selector {owner : Kafka} {svc : Service}
    (h : renderControllerBootstrapService owner = .ok svc) :
    svc.selector = roleSelector owner.name .controller := by
  obtain ⟨ref, -, hsvc⟩ := Checks.bind_eq_ok.mp h
  cases hsvc
  rfl

theorem renderBootstrapService_selector {owner : Kafka} {l : ExternalListener} {svc : Service}
    (h : renderBootstrapService owner l = .ok svc) :
    svc.selector = roleSelector owner.name .broker := by
  obtain ⟨ref, -, hsvc⟩ := Checks.bind_eq_ok.mp h
  cases hsvc
  rfl

/-- The bootstrap Services of every cluster match the pods of a pool just when the pool is of
    that cluster and has the role. -/
structure BootstrapExact (parent : NodePool.Parent) (pass : NodePool.PoolPass) : Prop where
  controllers : ∀ owner svc, renderControllerBootstrapService owner = .ok svc →
    (svc.selects (podLabels parent pass) = true ↔
      parent.name = owner.name ∧ .controller ∈ pass.pool.spec.roles)
  brokers : ∀ owner l svc, renderBootstrapService owner l = .ok svc →
    (svc.selects (podLabels parent pass) = true ↔
      parent.name = owner.name ∧ .broker ∈ pass.pool.spec.roles)

/-- The template of the user does not set the label of a role that the pool lacks. -/
def NoForgedRole (pass : NodePool.PoolPass) : Prop :=
  ∀ role, pass.podLabels[roleLabel role]? = some "true" → role ∈ pass.pool.spec.roles

/-- The bootstrap Services match the right pods just when no template sets the label of a role
    that its pool lacks to `true`. -/
theorem bootstrapExact_iff {parent : NodePool.Parent} {pass : NodePool.PoolPass} :
    BootstrapExact parent pass ↔ NoForgedRole pass := by
  constructor
  · intro h role hlabel
    cases role with
    | controller =>
      have hrender : renderControllerBootstrapService (.minimal parent.name) = .ok _ := rfl
      exact ((h.controllers _ _ hrender).mp ((selects_podLabels
        (renderControllerBootstrapService_selector hrender)).mpr ⟨rfl, .inr hlabel⟩)).2
    | broker =>
      let l : ExternalListener := ⟨{ name := "external", port := 9094, type := .nodeport }, by decide⟩
      have hrender : renderBootstrapService (.minimal parent.name) l = .ok _ := rfl
      exact ((h.brokers _ _ _ hrender).mp ((selects_podLabels
        (renderBootstrapService_selector hrender)).mpr ⟨rfl, .inr hlabel⟩)).2
  · intro h
    refine ⟨fun owner svc hrender => ?_, fun owner l svc hrender => ?_⟩
    · rw [selects_podLabels (renderControllerBootstrapService_selector hrender)]
      exact and_congr_right' ⟨fun hor => hor.elim id (h .controller), .inl⟩
    · rw [selects_podLabels (renderBootstrapService_selector hrender)]
      exact and_congr_right' ⟨fun hor => hor.elim id (h .broker), .inl⟩

namespace Sample

/-- A pool of brokers whose template has the label of the controllers. -/
def labelledPass : NodePool.PoolPass where
  pool := { name := "a", labels := ∅, spec := ⟨1, 0, [.broker]⟩, status := none }
  podLabels := BTreeMap.ofList [("krabka.io/controller-role", "true")]

end Sample

/-- The controllers' Service matches the pods of a pool without the role. -/
theorem bootstrap_selects_labelled :
    ¬ BootstrapExact { name := "demo" } Sample.labelledPass ∧
      (renderControllerBootstrapService (.minimal "demo")).toOption.map
        (·.selects (podLabels { name := "demo" } Sample.labelledPass)) = some true ∧
      .controller ∉ Sample.labelledPass.pool.spec.roles := by
  refine ⟨fun h => ?_, by decide, by decide⟩
  have hrender : renderControllerBootstrapService (.minimal "demo") = .ok _ := rfl
  exact absurd ((h.controllers _ _ hrender).mp (by decide)).2 (by decide)

end Listeners
