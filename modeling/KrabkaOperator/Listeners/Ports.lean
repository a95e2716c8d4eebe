-- SUMMARY: The ports that a broker pod binds and that the headless Service takes: when they are valid and distinct.
import KrabkaOperator.Kube.Service
import KrabkaOperator.Listeners.Distinct
import KrabkaOperator.Network.Policy

/-!
# Ports of a broker

A broker binds the ports of its listeners and a few fixed ones. Validation compares
the listeners of the user with each other. The search for the port of the operator
avoids these and two of the fixed ports.
-/

namespace Listeners

open Crd Kube Operator

/-! ## Ports in use -/

def healthPort : Int := 9405

/-- The ports that every broker binds beside its listeners. -/
def fixedPorts (spec : KafkaSpec) : List Int :=
  [controllerPort, healthPort] ++ if spec.metricsConfig.isSome then [Network.metricsPort] else []

def boundPorts (spec : KafkaSpec) : List Int :=
  (effectiveListeners spec).map (·.port) ++ fixedPorts spec

def tcpPort (name : String) (port : Int) : ServicePort where
  name := some name
  port := port
  protocol := some "TCP"
  targetPort := some port

/-- The headless Service of a cluster. -/
def renderService (owner : Kafka) : Except ReconcileError Service := do
  let operator := operatorListener (userListeners owner.spec)
  let ownerReference ← Network.ownerRef owner
  pure
    { name := some (owner.name ++ "-broker-headless")
      ns := owner.ns
      labels := Network.commonLabels owner.name owner.spec.kafkaVersion
      ownerReferences := [ownerReference]
      clusterIp := some "None"
      publishNotReadyAddresses := some true
      selector := BTreeMap.ofList
        [("app.kubernetes.io/name", appLabel), ("app.kubernetes.io/instance", owner.name)]
      ports := some
        [tcpPort "operator-admin" operator.port, tcpPort "kafka-internal" brokerPort,
          tcpPort "controller" controllerPort] }

/-! ## The search for a port -/

theorem le_freePort {taken : List Int} {fuel : Nat} {port : Int} :
    port ≤ freePort taken fuel port := by
  induction fuel generalizing port with
  | zero => exact le_rfl
  | succ fuel ih =>
    rw [freePort]
    split
    · have hnext : port + 1 ≤ freePort taken fuel (port + 1) := ih
      omega
    · exact le_rfl

/-- The search passes taken ports only. -/
theorem mem_of_lt_freePort {taken : List Int} {fuel : Nat} {port q : Int} (hq : port ≤ q)
    (hlt : q < freePort taken fuel port) : q ∈ taken := by
  induction fuel generalizing port with
  | zero => exact absurd hlt (not_lt.mpr hq)
  | succ fuel ih =>
    rw [freePort] at hlt
    split at hlt
    · next hmem =>
      by_cases heq : q = port
      · exact heq ▸ hmem
      · exact ih (by omega) hlt
    · exact absurd hlt (not_lt.mpr hq)

/-- The ports that the operator does not take for its listener. -/
def avoided (ls : List Listener) : List Int := controllerPort :: brokerPort :: ls.map (·.port)

theorem le_operatorListener_port (ls : List Listener) : 9091 ≤ (operatorListener ls).port :=
  le_freePort

/-- The listener of the operator is on the first port that is free. -/
theorem operatorListener_port_le {ls : List Listener} {q : Int} (hq : 9091 ≤ q)
    (hfree : q ∉ avoided ls) : (operatorListener ls).port ≤ q := by
  by_contra hlt
  exact hfree (mem_of_lt_freePort hq (not_le.mp hlt))

/-! ## Valid ports -/

/-- The ports of a Kafka are in range, no two are bound by one pod, and no two are the
    same in the headless Service. -/
structure PortsValid (kafka : Kafka) : Prop where
  range : ∀ p ∈ boundPorts kafka.spec, 1 ≤ p ∧ p ≤ 65535
  bound : (boundPorts kafka.spec).Nodup
  service : ∀ svc, renderService kafka = .ok svc → svc.portNumbers.Nodup

/-- The first fixed port above the start of the search. -/
def searchLimit (spec : KafkaSpec) : Int :=
  if spec.metricsConfig.isSome then Network.metricsPort else healthPort

/-- The listeners of the user stay within the range and off the fixed ports, and they
    leave one port below the limit to the operator. -/
structure PortsFree (spec : KafkaSpec) : Prop where
  range : ∀ l ∈ userListeners spec, 1 ≤ l.port ∧ l.port ≤ 65535
  fixed : ∀ l ∈ userListeners spec, l.port ∉ fixedPorts spec
  free : ∃ q, 9091 ≤ q ∧ q < searchLimit spec ∧ q ∉ avoided (userListeners spec)

variable {ruleParses : String → Bool} {explicit : Option String} {spec : KafkaSpec}

/-- Accepted listeners have distinct ports, and so has the default list. -/
theorem userListeners_ports_nodup
    (h : validateListeners ruleParses spec.listeners explicit = .ok ()) :
    ((userListeners spec).map (·.port)).Nodup := by
  unfold userListeners
  split
  · simp
  · have hpairs := (validateUniqueListeners_apart (validateListeners_eq_ok.mp h).1).2
    exact List.pairwise_map.mpr (hpairs.imp And.right)

theorem fixedPorts_nodup : (fixedPorts spec).Nodup := by
  unfold fixedPorts
  split <;> decide

theorem searchLimit_mem_fixedPorts : searchLimit spec ∈ fixedPorts spec := by
  unfold searchLimit fixedPorts
  split <;> simp

theorem searchLimit_le : searchLimit spec ≤ healthPort := by
  unfold searchLimit
  split <;> decide

theorem le_searchLimit : Network.metricsPort ≤ searchLimit spec := by
  unfold searchLimit
  split <;> decide

/-- Below the limit only the controller has a fixed port. -/
theorem eq_controllerPort_of_lt {p : Int} (hp : p ∈ fixedPorts spec) (hlt : p < searchLimit spec) :
    p = controllerPort := by
  unfold fixedPorts searchLimit at *
  split at hp <;> simp_all [healthPort, Network.metricsPort] <;> omega

theorem mem_boundPorts {p : Int} : p ∈ boundPorts spec ↔
    (∃ l ∈ userListeners spec, l.port = p) ∨ p = (operatorListener (userListeners spec)).port ∨
      p ∈ fixedPorts spec := by
  simp only [boundPorts, effectiveListeners, List.map_append, List.mem_append, List.mem_map,
    List.map_cons, List.map_nil, List.mem_singleton, or_assoc]

/-- The ports of the headless Service never collide: the operator avoids the other two. -/
theorem renderService_portNumbers_nodup {kafka : Kafka} {svc : Service}
    (h : renderService kafka = .ok svc) : svc.portNumbers.Nodup := by
  rw [renderService, Checks.bind_eq_ok] at h
  obtain ⟨ownerReference, -, h⟩ := h
  cases h
  have hfresh : (operatorListener (userListeners kafka.spec)).port ∉ avoided _ :=
    operatorListener_port_not_mem
  simp only [avoided, controllerPort, brokerPort, List.mem_cons, not_or] at hfresh
  simp [Service.portNumbers, tcpPort, hfresh.1, hfresh.2.1, brokerPort, controllerPort]

theorem PortsFree.of_valid {kafka : Kafka} (h : PortsValid kafka) : PortsFree kafka.spec := by
  have hbound := h.bound
  rw [boundPorts, effectiveListeners, List.map_append, List.append_assoc] at hbound
  obtain ⟨-, hrest, huser⟩ := List.nodup_append.mp hbound
  have hfixed : ∀ l ∈ userListeners kafka.spec, l.port ∉ fixedPorts kafka.spec := by
    intro l hl hmem
    exact huser _ (List.mem_map_of_mem hl) _ (List.mem_append_right _ hmem) rfl
  refine ⟨fun l hl => h.range _ (mem_boundPorts.mpr (.inl ⟨l, hl, rfl⟩)), hfixed, ?_⟩
  have hfresh : (operatorListener (userListeners kafka.spec)).port ∉ avoided _ :=
    operatorListener_port_not_mem
  have hstart := le_operatorListener_port (userListeners kafka.spec)
  have hne : (operatorListener (userListeners kafka.spec)).port ≠ searchLimit kafka.spec := by
    intro heq
    exact (List.nodup_append.mp hrest).2.2 _ (by simp) _ searchLimit_mem_fixedPorts heq
  by_cases hlt : (operatorListener (userListeners kafka.spec)).port < searchLimit kafka.spec
  · exact ⟨_, hstart, hlt, hfresh⟩
  · -- The search went past the limit, so a listener of the user is on it.
    have hlow : Network.metricsPort ≤ searchLimit kafka.spec := le_searchLimit
    rw [Network.metricsPort] at hlow
    have hpass : searchLimit kafka.spec ∈ avoided (userListeners kafka.spec) :=
      mem_of_lt_freePort (show operatorListenerPort ≤ _ by rw [operatorListenerPort]; omega)
        (show _ < (operatorListener (userListeners kafka.spec)).port by omega)
    simp only [avoided, controllerPort, brokerPort, List.mem_cons] at hpass
    obtain hc | hb | huserport := hpass
    · omega
    · omega
    · obtain ⟨l, hl, hport⟩ := List.mem_map.mp huserport
      exact absurd (hport ▸ searchLimit_mem_fixedPorts) (hfixed l hl)

theorem PortsValid.of_free {kafka : Kafka} (hnodup : ((userListeners kafka.spec).map (·.port)).Nodup)
    (h : PortsFree kafka.spec) : PortsValid kafka := by
  obtain ⟨q, hq, hlimit, hfree⟩ := h.free
  have hle := operatorListener_port_le hq hfree
  have hstart := le_operatorListener_port (userListeners kafka.spec)
  have hhealth : searchLimit kafka.spec ≤ healthPort := searchLimit_le
  have hfresh : (operatorListener (userListeners kafka.spec)).port ∉ avoided _ :=
    operatorListener_port_not_mem
  have hoperator : (operatorListener (userListeners kafka.spec)).port ∉ fixedPorts kafka.spec := by
    intro hmem
    have hcontroller := eq_controllerPort_of_lt hmem (by omega)
    exact hfresh (hcontroller ▸ List.mem_cons_self)
  refine ⟨fun p hp => ?range, ?bound, fun svc => renderService_portNumbers_nodup⟩
  case range =>
    rw [healthPort] at hhealth
    rcases mem_boundPorts.mp hp with ⟨l, hl, rfl⟩ | rfl | hfixed
    · exact h.range l hl
    · omega
    · unfold fixedPorts at hfixed
      split at hfixed <;> simp [controllerPort, healthPort, Network.metricsPort] at hfixed <;> omega
  case bound =>
    rw [boundPorts, effectiveListeners, List.map_append, List.append_assoc]
    refine List.nodup_append.mpr ⟨hnodup, ?_, ?_⟩
    · simpa using ⟨hoperator, fixedPorts_nodup⟩
    · intro a ha b hb hab
      subst hab
      obtain ⟨l, hl, rfl⟩ := List.mem_map.mp ha
      rcases List.mem_append.mp hb with hop | hfixed
      · simp only [List.map_cons, List.map_nil, List.mem_singleton] at hop
        exact hfresh (hop ▸ List.mem_cons_of_mem _ (List.mem_cons_of_mem _ ha))
      · exact h.fixed l hl hfixed

/-- Accepted listeners give valid ports exactly if they keep off the fixed ports, stay in
    range and leave a port to the operator. -/
theorem portsValid_iff {kafka : Kafka}
    (h : validateListeners ruleParses kafka.spec.listeners explicit = .ok ()) :
    PortsValid kafka ↔ PortsFree kafka.spec :=
  ⟨PortsFree.of_valid, PortsValid.of_free (userListeners_ports_nodup h)⟩

/-! ## Two Kafkas -/

namespace Sample

/-- A Kafka with one internal listener. -/
def onPort (port : Int) : Kafka :=
  { Kafka.minimal "demo" with
    spec := { listeners := [⟨"plain", port, .internal, false, none, none, none⟩] } }

end Sample

theorem onPort_valid :
    validateListeners (fun _ => true) (Sample.onPort 9092).spec.listeners none = .ok () ∧
    (PortsValid (Sample.onPort 9092) ↔ PortsFree (Sample.onPort 9092).spec) :=
  have haccepted :
      validateListeners (fun _ => true) (Sample.onPort 9092).spec.listeners none = .ok () := by
    decide
  ⟨haccepted, portsValid_iff haccepted⟩

/-- A listener on the port of the controller is accepted. -/
theorem controllerPort_bound_twice :
    validateListeners (fun _ => true) (Sample.onPort controllerPort).spec.listeners none = .ok () ∧
      ¬ PortsValid (Sample.onPort controllerPort) := by
  refine ⟨by decide, fun h => ?_⟩
  have hnodup := h.bound
  exact absurd hnodup (by decide)

end Listeners
