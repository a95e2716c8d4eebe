-- SUMMARY: Whether the host that a broker advertises for a TLS listener is a name of its certificate, when both are computed from one snapshot of the cluster.
import KrabkaOperator.Cluster.ConfigMap
import KrabkaOperator.ClusterCa.SanDigest

/-!
# Advertised hosts on the certificate

The host that clients dial and the names of the certificate are computed by two functions, each
with its own choice among the addresses of a snapshot. A client verifies an address against the
addresses of the certificate, and a name against its names.
-/

namespace Cluster

open Kube Crd Operator ClusterCa Listeners

/-- The nodes, the pods and the Services at one moment. -/
structure Snapshot where
  nodes : List Node := []
  /-- The Kubernetes node that a pod is scheduled to. -/
  podNodes : BTreeMap String := ∅
  services : String → Option Service := fun _ => none

def Snapshot.view (snap : Snapshot) : ListenerView where
  nodes := snap.nodes
  service name :=
    match snap.services name with
    | some svc => .ok svc
    | none => .error .notFound

def Snapshot.state (snap : Snapshot) (cluster : String) : ExternalState where
  podNodes := snap.podNodes
  nodes := LastWins.ofList compareBytes
    (snap.nodes.filterMap fun n => n.name.map fun name => (name, n))
  brokerServices name id := snap.services (brokerServiceName cluster name id)

/-- The name that a client looks for in the certificate. -/
def sanOf (host : String) : SubjectAltName :=
  match IpAddr.parse host with
  | some ip => .ip ip
  | none => .dns host

section Snapshot

variable (lib : CaLib) (pass : KafkaPass) (snap : Snapshot) (ls : List Listener) (ids : List Int)
  (node : NodeInfo)

/-- What the broker advertises for a listener. -/
def advertisedOf (l : Listener) : Except AdvertisedError AdvertisedAddress :=
  let state := snap.state pass.kafka.name
  computeAdvertised l node.brokerId node.podFqdn state.podNodes[node.podName]? state.nodes
    (state.brokerServices l.name node.brokerId)

/-- The names of the pod. -/
def baseSans : List SubjectAltName := (certRequest pass (pass.kafka.ns.getD "default") node).sans

/-- All names of the certificate of the broker. -/
def certNames : Except SansNotReady (List SubjectAltName) := do
  let extra ← computeExtraSans lib node.brokerId ls
    (observeListenerAddresses snap.view pass.kafka.name ls ids)
  pure (baseSans pass node ++ extra)

/-- The addresses of the broker at the load balancer of a listener. -/
def balancerEntries (l : Listener) : List LbIngress :=
  snap.view.ingress (brokerServiceName pass.kafka.name l.name node.brokerId)

/-- Hosts that are advertised are on the certificate, and the certificate waits for load balancers. -/
structure HostsCovered : Prop where
  covered : ∀ l ∈ ls, l.tls = true → ∀ addr names, advertisedOf pass snap node l = .ok addr →
    certNames lib pass snap ls ids node = .ok names → sanOf addr.host ∈ names
  reported : ∀ l ∈ ls, isTlsLoadBalancer l = true → balancerEntries pass snap node l = [] →
    ∃ pending, certNames lib pass snap ls ids node = .error pending

/-! ## Where a host comes from -/

inductive HostSource where
  | pod
  | override
  | externalIp
  | internalIp
  | balancerName
  | balancerIp

/-- The override of the host. -/
def hostOverride (l : Listener) : Option String :=
  overrideOf l node.brokerId >>= (·.advertisedHost)

/-- The service of the broker for a listener. -/
def brokerService (l : Listener) : Option Service :=
  snap.services (brokerServiceName pass.kafka.name l.name node.brokerId)

/-- The addresses of the Kubernetes node of the broker. -/
def scheduledAddresses : Option (List Kube.NodeAddress) := do
  let name ← snap.podNodes[node.podName]?
  let n ← (snap.state pass.kafka.name).nodes[name]?
  pure (n.addresses.getD [])

/-- The port of a node port is set or allocated. -/
def PortKnown (l : Listener) : Prop :=
  ((overrideOf l node.brokerId >>= (·.advertisedPort)) <|>
    (overrideOf l node.brokerId >>= (·.nodePort))).isSome ∨
  (brokerService pass snap node l >>= fun svc => (svc.ports.getD []).head? >>= (·.nodePort)).isSome

/-- The field of the spec or of the snapshot that the host of a listener is read from. -/
inductive HostFrom (l : Listener) : HostSource → String → Prop
  | pod (type : l.type = .internal) : HostFrom l .pod node.podFqdn
  | nodeport {host : String} (type : l.type = .nodeport) (port : PortKnown pass snap node l)
      (set : hostOverride node l = some host) : HostFrom l .override host
  | loadbalancer {host : String} (type : l.type = .loadbalancer)
      (set : hostOverride node l = some host) : HostFrom l .override host
  | ingress {host : String} (type : l.type = .ingress ∨ l.type = .route)
      (set : ingressBrokerHost l node.brokerId = some host) : HostFrom l .override host
  | externalIp {addrs : List Kube.NodeAddress} {addr : Kube.NodeAddress} (type : l.type = .nodeport)
      (port : PortKnown pass snap node l) (unset : hostOverride node l = none)
      (scheduled : scheduledAddresses pass snap node = some addrs)
      (external : addrs.find? (·.type = "ExternalIP") = some addr) : HostFrom l .externalIp addr.address
  | internalIp {addrs : List Kube.NodeAddress} {addr : Kube.NodeAddress} (type : l.type = .nodeport)
      (port : PortKnown pass snap node l) (unset : hostOverride node l = none)
      (scheduled : scheduledAddresses pass snap node = some addrs)
      (external : addrs.find? (·.type = "ExternalIP") = none)
      (internal : addrs.find? (·.type = "InternalIP") = some addr) :
      HostFrom l .internalIp addr.address
  | balancerName {svc : Service} {entry : LoadBalancerIngress} {host : String}
      (type : l.type = .loadbalancer) (unset : hostOverride node l = none)
      (served : brokerService pass snap node l = some svc)
      (first : (svc.ingress.getD []).head? = some entry) (hostname : entry.hostname = some host) :
      HostFrom l .balancerName host
  | balancerIp {svc : Service} {entry : LoadBalancerIngress} {host : String}
      (type : l.type = .loadbalancer) (unset : hostOverride node l = none)
      (served : brokerService pass snap node l = some svc)
      (first : (svc.ingress.getD []).head? = some entry) (hostname : entry.hostname = none)
      (ip : entry.ip = some host) : HostFrom l .balancerIp host

/-- Whether a host from a place goes on the certificate as what it reads as: overrides as names, but
those of a load balancer not at all, and of the addresses of a node the external ones. -/
def Placed (type : ListenerType) : HostSource → String → Prop
  | .pod, host => IpAddr.parse host = none
  | .override, host => type ≠ .loadbalancer ∧ IpAddr.parse host = none
  | .externalIp, host => IpAddr.parse host ≠ none
  | .internalIp, _ => False
  | .balancerName, host => IpAddr.parse host = none
  | .balancerIp, host => IpAddr.parse host ≠ none

/-! ## What the certificate is offered -/

/-- The names that some field of the spec or of the snapshot puts on the certificate. -/
inductive Offered : SubjectAltName → Prop
  | base {san : SubjectAltName} (mem : san ∈ baseSans pass node) : Offered san
  | nodeIp {l : Listener} {n : Node} {text : String} {ip : IpAddr} (listener : l ∈ ls)
      (tls : l.tls = true) (type : l.type = .nodeport) (mem : n ∈ snap.nodes)
      (addr : ⟨"ExternalIP", text⟩ ∈ n.addresses.getD []) (reads : IpAddr.parse text = some ip) :
      Offered (.ip ip)
  | nodeName {l : Listener} {n : Node} {kind text : String} (listener : l ∈ ls)
      (tls : l.tls = true) (type : l.type = .nodeport) (mem : n ∈ snap.nodes)
      (addr : ⟨kind, text⟩ ∈ n.addresses.getD []) (named : kind = "ExternalDNS" ∨ kind = "Hostname") :
      Offered (.dns text)
  | nodeOverride {l : Listener} {o : BrokerOverride} {host : String} (listener : l ∈ ls)
      (tls : l.tls = true) (type : l.type = .nodeport)
      (mem : o ∈ (l.configuration.map (·.brokers)).getD []) (own : o.broker = node.brokerId)
      (set : o.advertisedHost = some host) : Offered (.dns host)
  | ingressHost {l : Listener} {host : String} (listener : l ∈ ls) (tls : l.tls = true)
      (type : l.type = .ingress ∨ l.type = .route)
      (set : ingressBrokerHost l node.brokerId = some host ∨ ingressBootstrapHost l = some host) :
      Offered (.dns host)
  | balancerIp {l : Listener} {svc : Service} {entry : LoadBalancerIngress} {text : String}
      {ip : IpAddr} (listener : l ∈ ls) (tls : l.tls = true) (type : l.type = .loadbalancer)
      (served : brokerService pass snap node l = some svc ∨
        snap.services (bootstrapServiceName pass.kafka.name l.name) = some svc)
      (mem : entry ∈ svc.ingress.getD []) (address : entry.ip = some text)
      (reads : IpAddr.parse text = some ip) : Offered (.ip ip)
  | balancerName {l : Listener} {svc : Service} {entry : LoadBalancerIngress} {host : String}
      (listener : l ∈ ls) (tls : l.tls = true) (type : l.type = .loadbalancer)
      (served : brokerService pass snap node l = some svc ∨
        snap.services (bootstrapServiceName pass.kafka.name l.name) = some svc)
      (mem : entry ∈ svc.ingress.getD []) (named : entry.hostname = some host) : Offered (.dns host)

/-! ## Advertised hosts -/

variable {pass snap ls ids node} {l : Listener} {host : String}

theorem nodeportPort_isOk {id : Int} {service : Option Service} :
    (∃ port, nodeportPort id service = .ok port) ↔
      (service >>= fun svc => (svc.ports.getD []).head? >>= (·.nodePort)).isSome := by
  unfold nodeportPort
  cases service with
  | none => simp
  | some svc =>
    simp only [Option.bind_eq_bind, Option.bind_some]
    cases (svc.ports.getD []).head?.bind (·.nodePort) with
    | none => simp
    | some port => simp

theorem nodeportHost_eq_ok :
    nodeportHost node.brokerId snap.podNodes[node.podName]? (snap.state pass.kafka.name).nodes =
        .ok host ↔
      ∃ addrs addr, scheduledAddresses pass snap node = some addrs ∧ addr.address = host ∧
        ((addrs.find? (·.type = "ExternalIP")) <|> addrs.find? (·.type = "InternalIP")) =
          some addr := by
  unfold nodeportHost scheduledAddresses
  cases snap.podNodes[node.podName]? with
  | none => simp
  | some name =>
    simp only [Option.bind_eq_bind, Option.bind_some]
    cases (snap.state pass.kafka.name).nodes[name]? with
    | none => simp
    | some n =>
      simp only [nodeHost, Option.bind_some, Option.pure_def, Option.some.injEq, exists_and_left,
        exists_eq_left']
      cases ((n.addresses.getD []).find? (·.type = "ExternalIP")) <|>
          (n.addresses.getD []).find? (·.type = "InternalIP") with
      | none => simp
      | some addr => simp

theorem loadbalancerHost_eq_ok :
    loadbalancerHost node.brokerId (brokerService pass snap node l) = .ok host ↔
      ∃ svc entry, brokerService pass snap node l = some svc ∧
        (svc.ingress.getD []).head? = some entry ∧ (entry.hostname <|> entry.ip) = some host := by
  unfold loadbalancerHost
  cases brokerService pass snap node l with
  | none => simp
  | some svc =>
    simp only [Option.some.injEq, exists_and_left, exists_eq_left', Option.bind_eq_bind]
    cases (svc.ingress.getD []).head? with
    | none => simp
    | some entry =>
      simp only [Option.bind_some, Option.some.injEq, exists_eq_left']
      cases (entry.hostname <|> entry.ip) with
      | none => simp
      | some host => simp

/-- The port that the spec sets. -/
def portOverride (node : NodeInfo) (l : Listener) : Option Int :=
  (overrideOf l node.brokerId >>= (·.advertisedPort)) <|> (overrideOf l node.brokerId >>= (·.nodePort))

theorem advertisedOf_nodeport (type : l.type = .nodeport) :
    advertisedOf pass snap node l =
      ((hostOverride node l).elim (nodeportHost node.brokerId snap.podNodes[node.podName]?
        (snap.state pass.kafka.name).nodes) .ok >>= fun host =>
      (portOverride node l).elim (nodeportPort node.brokerId (brokerService pass snap node l)) .ok >>=
        fun port => .ok ⟨host, port⟩) := by
  unfold advertisedOf computeAdvertised hostOverride portOverride
  dsimp only
  rw [type]
  dsimp only
  cases overrideOf l node.brokerId >>= (·.advertisedHost) with
  | none =>
    cases (overrideOf l node.brokerId >>= (·.advertisedPort)) <|>
      (overrideOf l node.brokerId >>= (·.nodePort)) with
    | none => rfl
    | some port => rfl
  | some host =>
    cases (overrideOf l node.brokerId >>= (·.advertisedPort)) <|>
      (overrideOf l node.brokerId >>= (·.nodePort)) with
    | none => rfl
    | some port => rfl

theorem advertisedOf_loadbalancer (type : l.type = .loadbalancer) :
    advertisedOf pass snap node l =
      ((hostOverride node l).elim (loadbalancerHost node.brokerId (brokerService pass snap node l))
        .ok >>= fun host =>
      .ok ⟨host, (overrideOf l node.brokerId >>= (·.advertisedPort)).getD l.port⟩) := by
  unfold advertisedOf computeAdvertised hostOverride
  dsimp only
  rw [type]
  dsimp only
  cases overrideOf l node.brokerId >>= (·.advertisedHost) with
  | none => rfl
  | some host => rfl

theorem advertisedOf_ingress (type : l.type = .ingress ∨ l.type = .route) :
    advertisedOf pass snap node l =
      (ingressBrokerHost l node.brokerId).elim (.error (.ingressBrokerHostMissing node.brokerId l.name))
        fun host => .ok ⟨host, (overrideOf l node.brokerId >>= (·.advertisedPort)).getD ingressPort⟩ := by
  unfold advertisedOf computeAdvertised
  dsimp only
  rcases type with type | type
  · rw [type]
    dsimp only
    cases ingressBrokerHost l node.brokerId with
    | none => rfl
    | some host => rfl
  · rw [type]
    dsimp only
    cases ingressBrokerHost l node.brokerId with
    | none => rfl
    | some host => rfl

/-- The port does not keep the host of a node port back if and only if it is known. -/
theorem portKnown_iff : PortKnown pass snap node l ↔ ∃ port,
    (portOverride node l).elim (nodeportPort node.brokerId (brokerService pass snap node l)) .ok =
      .ok port := by
  unfold PortKnown
  rw [← @nodeportPort_isOk node.brokerId, ← portOverride]
  cases portOverride node l with
  | none => simp
  | some port => simp

theorem exists_hostFrom_ingress {addr : AdvertisedAddress} (type : l.type = .ingress ∨ l.type = .route)
    (h : advertisedOf pass snap node l = .ok addr) :
    ∃ source, HostFrom pass snap node l source addr.host := by
  rw [advertisedOf_ingress type] at h
  cases hset : ingressBrokerHost l node.brokerId with
  | none =>
    rw [hset] at h
    cases h
  | some host =>
    rw [hset] at h
    obtain rfl := Except.ok.inj h
    exact ⟨.override, .ingress type hset⟩

/-- What a broker advertises is read from one of the places. -/
theorem exists_hostFrom {addr : AdvertisedAddress} (h : advertisedOf pass snap node l = .ok addr) :
    ∃ source, HostFrom pass snap node l source addr.host := by
  cases htype : l.type with
  | internal =>
    rw [advertisedOf, computeAdvertised, htype] at h
    obtain rfl := Except.ok.inj h
    exact ⟨.pod, .pod htype⟩
  | nodeport =>
    rw [advertisedOf_nodeport htype] at h
    obtain ⟨host, hhost, h⟩ := Checks.bind_eq_ok.mp h
    obtain ⟨port, hport, h⟩ := Checks.bind_eq_ok.mp h
    obtain rfl := Except.ok.inj h
    have hknown := portKnown_iff.mpr ⟨port, hport⟩
    cases hset : hostOverride node l with
    | some set =>
      rw [hset] at hhost
      obtain rfl := Except.ok.inj hhost
      exact ⟨.override, .nodeport htype hknown hset⟩
    | none =>
      rw [hset] at hhost
      obtain ⟨addrs, addr, hscheduled, rfl, hfind⟩ := nodeportHost_eq_ok.mp hhost
      cases hexternal : addrs.find? (·.type = "ExternalIP") with
      | some external =>
        rw [hexternal] at hfind
        obtain rfl := Option.some.inj hfind
        exact ⟨.externalIp, .externalIp htype hknown hset hscheduled hexternal⟩
      | none =>
        rw [hexternal] at hfind
        exact ⟨.internalIp, .internalIp htype hknown hset hscheduled hexternal hfind⟩
  | loadbalancer =>
    rw [advertisedOf_loadbalancer htype] at h
    obtain ⟨host, hhost, h⟩ := Checks.bind_eq_ok.mp h
    obtain rfl := Except.ok.inj h
    cases hset : hostOverride node l with
    | some set =>
      rw [hset] at hhost
      obtain rfl := Except.ok.inj hhost
      exact ⟨.override, .loadbalancer htype hset⟩
    | none =>
      rw [hset] at hhost
      obtain ⟨svc, entry, hserved, hfirst, hentry⟩ := loadbalancerHost_eq_ok.mp hhost
      cases hname : entry.hostname with
      | some name =>
        rw [hname] at hentry
        obtain rfl := Option.some.inj hentry
        exact ⟨.balancerName, .balancerName htype hset hserved hfirst hname⟩
      | none =>
        rw [hname] at hentry
        exact ⟨.balancerIp, .balancerIp htype hset hserved hfirst hname hentry⟩
  | ingress => exact exists_hostFrom_ingress (.inl htype) h
  | route => exact exists_hostFrom_ingress (.inr htype) h

/-- A host from one of the places is advertised. -/
theorem HostFrom.advertised {source : HostSource} (h : HostFrom pass snap node l source host) :
    ∃ port, advertisedOf pass snap node l = .ok ⟨host, port⟩ := by
  have hnodeport (type : l.type = .nodeport) (port : PortKnown pass snap node l)
      (hhost : (hostOverride node l).elim (nodeportHost node.brokerId snap.podNodes[node.podName]?
        (snap.state pass.kafka.name).nodes) .ok = .ok host) :
      ∃ port, advertisedOf pass snap node l = .ok ⟨host, port⟩ := by
    obtain ⟨port, hport⟩ := portKnown_iff.mp port
    rw [advertisedOf_nodeport type, hhost]
    exact ⟨port, Checks.bind_eq_ok.mpr ⟨host, rfl, Checks.bind_eq_ok.mpr ⟨port, hport, rfl⟩⟩⟩
  have hbalancer (type : l.type = .loadbalancer)
      (hhost : (hostOverride node l).elim (loadbalancerHost node.brokerId
        (brokerService pass snap node l)) .ok = .ok host) :
      ∃ port, advertisedOf pass snap node l = .ok ⟨host, port⟩ := by
    rw [advertisedOf_loadbalancer type, hhost]
    exact ⟨_, rfl⟩
  cases h with
  | pod type => exact ⟨_, by rw [advertisedOf, computeAdvertised, type]⟩
  | nodeport type port set => exact hnodeport type port (by rw [set]; rfl)
  | loadbalancer type set => exact hbalancer type (by rw [set]; rfl)
  | ingress type set =>
    rw [advertisedOf_ingress type, set]
    exact ⟨_, rfl⟩
  | externalIp type port unset scheduled external =>
    refine hnodeport type port ?_
    rw [unset]
    exact nodeportHost_eq_ok.mpr ⟨_, _, scheduled, rfl, by rw [external]; rfl⟩
  | internalIp type port unset scheduled external internal =>
    refine hnodeport type port ?_
    rw [unset]
    exact nodeportHost_eq_ok.mpr ⟨_, _, scheduled, rfl, by rw [external]; exact internal⟩
  | balancerName type unset served first hostname =>
    refine hbalancer type ?_
    rw [unset]
    exact loadbalancerHost_eq_ok.mpr ⟨_, _, served, first, by rw [hostname]; rfl⟩
  | balancerIp type unset served first hostname ip =>
    refine hbalancer type ?_
    rw [unset]
    exact loadbalancerHost_eq_ok.mpr ⟨_, _, served, first, by rw [hostname]; exact ip⟩

/-! ## Names of the certificate -/

variable {lib : CaLib} {names : List SubjectAltName} {san : SubjectAltName}

theorem mem_viewIngress {name : String} {e : LbIngress} :
    e ∈ snap.view.ingress name ↔ ∃ svc, snap.services name = some svc ∧ e ∈ serviceIngress svc := by
  unfold ListenerView.ingress Snapshot.view
  dsimp only
  cases snap.services name with
  | none => simp
  | some svc => simp

theorem mem_serviceIngress {svc : Service} {e : LbIngress} :
    e ∈ serviceIngress svc ↔ ∃ entry ∈ svc.ingress.getD [],
      (∃ text ip, entry.ip = some text ∧ IpAddr.parse text = some ip ∧ e = .ip ip) ∨
      ∃ name, entry.hostname = some name ∧ e = .hostname name := by
  unfold serviceIngress
  simp only [List.mem_flatMap, List.mem_append, Option.mem_toList,
    Option.map_eq_some_iff, Option.bind_eq_bind, Option.bind_eq_some_iff]
  refine exists_congr fun entry => and_congr_right fun _ => or_congr ?_ ?_
  · constructor
    · rintro ⟨ip, ⟨text, htext, hip⟩, rfl⟩
      exact ⟨text, ip, htext, hip, rfl⟩
    · rintro ⟨text, ip, htext, hip, rfl⟩
      exact ⟨ip, ⟨text, htext, hip⟩, rfl⟩
  · exact exists_congr fun name => and_congr_right fun _ => eq_comm

theorem mem_observedNodeAddresses {n : Node} {a : Listeners.NodeAddress} :
    a ∈ observedNodeAddresses n ↔ ∃ addr ∈ n.addresses.getD [],
      (addr.type = "ExternalIP" ∧ ∃ ip, IpAddr.parse addr.address = some ip ∧ a = .externalIp ip) ∨
      (addr.type = "ExternalDNS" ∨ addr.type = "Hostname") ∧ a = .externalDns addr.address := by
  unfold observedNodeAddresses
  simp only [List.mem_filterMap]
  refine exists_congr fun addr => and_congr_right fun _ => ?_
  by_cases hexternal : addr.type = "ExternalIP"
  · rw [if_pos hexternal, hexternal]
    simp [eq_comm]
  · rw [if_neg hexternal]
    by_cases hnamed : addr.type = "ExternalDNS" ∨ addr.type = "Hostname"
    · simp [hexternal, eq_comm]
    · rw [if_neg hnamed]
      simp [hexternal, not_or.mp hnamed]

theorem certNames_eq_ok (h : certNames lib pass snap ls ids node = .ok names) :
    let observed := observeListenerAddresses snap.view pass.kafka.name ls ids
    (∀ l ∈ ls, isTlsLoadBalancer l = true → observed.perBroker node.brokerId ≠ []) ∧
    ∀ san, san ∈ names ↔ san ∈ baseSans pass node ∨ ∃ l ∈ ls, san ∈ listenerSans node.brokerId
      observed.nodeportNodeAddresses (observed.perBroker node.brokerId ++ observed.lbBootstrap) l := by
  intro observed
  obtain ⟨extra, hextra, hnames⟩ := Checks.bind_eq_ok.mp h
  have hready : ∀ l ∈ ls, ¬ (isTlsLoadBalancer l = true ∧ observed.perBroker node.brokerId = []) := by
    rintro l hl ⟨hlb, hnone⟩
    obtain ⟨pending, hpending⟩ := @computeExtraSans_eq_error _ _ lib _ _ hl hlb hnone
    rw [hpending] at hextra
    cases hextra
  refine ⟨fun l hl hlb hnone => hready l hl ⟨hlb, hnone⟩, fun san => ?_⟩
  rw [computeExtraSans_eq_ok hready] at hextra
  obtain rfl := Except.ok.inj hextra
  obtain rfl := Except.ok.inj hnames
  simp only [List.mem_append, Canonical.mem_canonical, List.mem_flatMap]

/-- An entry of a load balancer is offered in its own form. -/
theorem offered_of_entry {svc : Service} {e : LbIngress} (hl : l ∈ ls) (htls : l.tls = true)
    (htype : l.type = .loadbalancer) (hserved : brokerService pass snap node l = some svc ∨
      snap.services (bootstrapServiceName pass.kafka.name l.name) = some svc)
    (he : e ∈ serviceIngress svc) : Offered pass snap ls node e.san := by
  obtain ⟨entry, hentry, ⟨text, ip, htext, hip, rfl⟩ | ⟨name, hname, rfl⟩⟩ := mem_serviceIngress.mp he
  · exact .balancerIp hl htls htype hserved hentry htext hip
  · exact .balancerName hl htls htype hserved hentry hname

theorem isTlsLoadBalancer_iff : isTlsLoadBalancer l = true ↔ l.type = .loadbalancer ∧ l.tls = true := by
  unfold isTlsLoadBalancer
  rw [Bool.and_eq_true, decide_eq_true_eq]

theorem offered_of_observed {e : LbIngress}
    (he : e ∈ (observeListenerAddresses snap.view pass.kafka.name ls ids).perBroker node.brokerId ++
      (observeListenerAddresses snap.view pass.kafka.name ls ids).lbBootstrap) :
    Offered pass snap ls node e.san := by
  rcases List.mem_append.mp he with he | he
  · obtain ⟨-, l, hl, hlb, he⟩ := mem_perBroker.mp he
    obtain ⟨svc, hsvc, he⟩ := mem_viewIngress.mp he
    have hbalancer := isTlsLoadBalancer_iff.mp hlb
    exact offered_of_entry hl hbalancer.2 hbalancer.1 (.inl hsvc) he
  · obtain ⟨l, hl, he⟩ := List.mem_flatMap.mp he
    obtain ⟨hl, hlb⟩ := List.mem_filter.mp hl
    obtain ⟨svc, hsvc, he⟩ := mem_viewIngress.mp he
    have hbalancer := isTlsLoadBalancer_iff.mp hlb
    exact offered_of_entry hl hbalancer.2 hbalancer.1 (.inr hsvc) he

theorem mem_nodeAddresses {a : Listeners.NodeAddress} (hl : l ∈ ls) (htls : l.tls = true)
    (htype : l.type = .nodeport) :
    a ∈ (observeListenerAddresses snap.view pass.kafka.name ls ids).nodeportNodeAddresses ↔
      ∃ n ∈ snap.nodes, a ∈ observedNodeAddresses n := by
  unfold observeListenerAddresses
  have hany : (ls.any fun l => l.type = .nodeport && l.tls) = true :=
    List.any_eq_true.mpr ⟨l, hl, by rw [htls, htype]; rfl⟩
  rw [if_pos hany]
  exact List.mem_flatMap

/-- The names of a node port. -/
theorem mem_nodeportSans {entries : List LbIngress} (hl : l ∈ ls) (htls : l.tls = true)
    (htype : l.type = .nodeport) :
    san ∈ listenerSans node.brokerId
        (observeListenerAddresses snap.view pass.kafka.name ls ids).nodeportNodeAddresses entries l ↔
      (∃ n ∈ snap.nodes, ∃ a ∈ observedNodeAddresses n, a.san = san) ∨
      ∃ o ∈ (l.configuration.map (·.brokers)).getD [], o.broker = node.brokerId ∧
        o.advertisedHost.map .dns = some san := by
  unfold listenerSans
  rw [htls, htype]
  simp only [Bool.not_true, Bool.false_eq_true, if_false, List.mem_append, List.mem_map,
    List.mem_filterMap, mem_nodeAddresses hl htls htype]
  refine or_congr ?_ (exists_congr fun o => and_congr_right fun _ => ?_)
  · constructor
    · rintro ⟨a, ⟨n, hn, ha⟩, hsan⟩
      exact ⟨n, hn, a, ha, hsan⟩
    · rintro ⟨n, hn, a, ha, hsan⟩
      exact ⟨a, ⟨n, hn, ha⟩, hsan⟩
  · by_cases hown : o.broker = node.brokerId
    · rw [if_pos hown, and_iff_right hown]
    · rw [if_neg hown]
      simp [hown]

theorem mem_ingressSans {nodes : List Listeners.NodeAddress} {entries : List LbIngress}
    (htls : l.tls = true) (htype : l.type = .ingress ∨ l.type = .route) :
    san ∈ listenerSans node.brokerId nodes entries l ↔ ∃ host, san = .dns host ∧
      (ingressBrokerHost l node.brokerId = some host ∨ ingressBootstrapHost l = some host) := by
  have heq : listenerSans node.brokerId nodes entries l =
      (ingressBrokerHost l node.brokerId).toList.map .dns ++
        (ingressBootstrapHost l).toList.map .dns := by
    unfold listenerSans
    rw [htls]
    rcases htype with htype | htype
    · rw [htype]
      rfl
    · rw [htype]
      rfl
  simp only [heq, List.mem_append, List.mem_map, Option.mem_toList]
  constructor
  · rintro (⟨host, hset, rfl⟩ | ⟨host, hset, rfl⟩)
    · exact ⟨host, rfl, .inl hset⟩
    · exact ⟨host, rfl, .inr hset⟩
  · rintro ⟨host, rfl, hset | hset⟩
    · exact .inl ⟨host, hset, rfl⟩
    · exact .inr ⟨host, hset, rfl⟩

theorem mem_balancerSans {nodes : List Listeners.NodeAddress} {entries : List LbIngress}
    (htls : l.tls = true) (htype : l.type = .loadbalancer) :
    san ∈ listenerSans node.brokerId nodes entries l ↔ ∃ e ∈ entries, e.san = san := by
  unfold listenerSans
  rw [htls, htype]
  exact List.mem_map

theorem offered_of_ingress {nodes : List Listeners.NodeAddress} {entries : List LbIngress}
    (hl : l ∈ ls) (htls : l.tls = true) (htype : l.type = .ingress ∨ l.type = .route)
    (hmem : san ∈ listenerSans node.brokerId nodes entries l) : Offered pass snap ls node san := by
  obtain ⟨host, rfl, hset⟩ := (mem_ingressSans htls htype).mp hmem
  exact .ingressHost hl htls htype hset

theorem offered_of_mem (h : certNames lib pass snap ls ids node = .ok names) (hsan : san ∈ names) :
    Offered pass snap ls node san := by
  rcases ((certNames_eq_ok h).2 san).mp hsan with hbase | ⟨l, hl, hmem⟩
  · exact .base hbase
  cases htls : l.tls with
  | false =>
    rw [listenerSans, htls] at hmem
    cases hmem
  | true =>
    cases htype : l.type with
    | internal =>
      rw [listenerSans, htls, htype] at hmem
      cases hmem
    | nodeport =>
      rcases (mem_nodeportSans hl htls htype).mp hmem with ⟨n, hn, a, ha, rfl⟩ | ⟨o, ho, hown, hset⟩
      · obtain ⟨⟨kind, text⟩, haddr, ⟨rfl, ip, hip, rfl⟩ | ⟨hnamed, rfl⟩⟩ :=
          mem_observedNodeAddresses.mp ha
        · exact .nodeIp hl htls htype hn haddr hip
        · exact .nodeName hl htls htype hn haddr hnamed
      · obtain ⟨host, hhost, rfl⟩ := Option.map_eq_some_iff.mp hset
        exact .nodeOverride hl htls htype ho hown hhost
    | loadbalancer =>
      obtain ⟨e, he, rfl⟩ := (mem_balancerSans htls htype).mp hmem
      exact offered_of_observed he
    | ingress => exact offered_of_ingress hl htls (.inl htype) hmem
    | route => exact offered_of_ingress hl htls (.inr htype) hmem

/-- An entry of one load balancer is on the certificate. -/
theorem mem_of_entry (hid : node.brokerId ∈ ids) {svc : Service} {e : LbIngress} (hl : l ∈ ls)
    (htls : l.tls = true) (htype : l.type = .loadbalancer)
    (hserved : brokerService pass snap node l = some svc ∨
      snap.services (bootstrapServiceName pass.kafka.name l.name) = some svc)
    (he : e ∈ serviceIngress svc) :
    e ∈ (observeListenerAddresses snap.view pass.kafka.name ls ids).perBroker node.brokerId ++
      (observeListenerAddresses snap.view pass.kafka.name ls ids).lbBootstrap := by
  have hlb := isTlsLoadBalancer_iff.mpr ⟨htype, htls⟩
  rcases hserved with hserved | hserved
  · exact List.mem_append_left _ (mem_perBroker.mpr ⟨hid, l, hl, hlb, mem_viewIngress.mpr
      ⟨svc, hserved, he⟩⟩)
  · refine List.mem_append_right _ (List.mem_flatMap.mpr ⟨l, List.mem_filter.mpr ⟨hl, hlb⟩, ?_⟩)
    exact mem_viewIngress.mpr ⟨svc, hserved, he⟩

theorem mem_of_offered (hid : node.brokerId ∈ ids)
    (h : certNames lib pass snap ls ids node = .ok names) (hoffered : Offered pass snap ls node san) :
    san ∈ names := by
  rw [(certNames_eq_ok h).2]
  cases hoffered with
  | base mem => exact .inl mem
  | @nodeIp l n text ip hl htls htype hn haddr hip =>
    refine .inr ⟨l, hl, (mem_nodeportSans hl htls htype).mpr (.inl ⟨n, hn, .externalIp ip, ?_, rfl⟩)⟩
    exact mem_observedNodeAddresses.mpr ⟨_, haddr, .inl ⟨rfl, ip, hip, rfl⟩⟩
  | @nodeName l n kind text hl htls htype hn haddr hnamed =>
    refine .inr ⟨l, hl, (mem_nodeportSans hl htls htype).mpr (.inl ⟨n, hn, .externalDns text, ?_, rfl⟩)⟩
    exact mem_observedNodeAddresses.mpr ⟨_, haddr, .inr ⟨hnamed, rfl⟩⟩
  | @nodeOverride l o host hl htls htype ho hown hset =>
    refine .inr ⟨l, hl, (mem_nodeportSans hl htls htype).mpr (.inr ⟨o, ho, hown, ?_⟩)⟩
    rw [hset, Option.map_some]
  | @ingressHost l host hl htls htype hset =>
    exact .inr ⟨l, hl, (mem_ingressSans htls htype).mpr ⟨host, rfl, hset⟩⟩
  | @balancerIp l svc entry text ip hl htls htype hserved hentry htext hip =>
    refine .inr ⟨l, hl, (mem_balancerSans htls htype).mpr ⟨.ip ip, ?_, rfl⟩⟩
    exact mem_of_entry hid hl htls htype hserved
      (mem_serviceIngress.mpr ⟨entry, hentry, .inl ⟨text, ip, htext, hip, rfl⟩⟩)
  | @balancerName l svc entry host hl htls htype hserved hentry hname =>
    refine .inr ⟨l, hl, (mem_balancerSans htls htype).mpr ⟨.hostname host, ?_, rfl⟩⟩
    exact mem_of_entry hid hl htls htype hserved
      (mem_serviceIngress.mpr ⟨entry, hentry, .inr ⟨host, hname, rfl⟩⟩)

/-! ## Hosts against names -/

theorem sanOf_name (h : IpAddr.parse host = none) : sanOf host = .dns host := by
  rw [sanOf, h]

theorem sanOf_ip {ip : IpAddr} (h : IpAddr.parse host = some ip) : sanOf host = .ip ip := by
  rw [sanOf, h]

theorem mem_of_scheduled {addrs : List Kube.NodeAddress}
    (h : scheduledAddresses pass snap node = some addrs) :
    ∃ n ∈ snap.nodes, n.addresses.getD [] = addrs := by
  unfold scheduledAddresses at h
  obtain ⟨name, -, h⟩ := Option.bind_eq_some_iff.mp h
  obtain ⟨n, hn, h⟩ := Option.bind_eq_some_iff.mp h
  have hmem := LastWins.latest_sublist.mem (LastWins.getElem?_ofList.mp hn)
  obtain ⟨n', hn', hname⟩ := List.mem_filterMap.mp hmem
  obtain ⟨name', -, heq⟩ := Option.map_eq_some_iff.mp hname
  obtain ⟨-, rfl⟩ := Prod.mk.inj heq
  exact ⟨n', hn', Option.some.inj h⟩

theorem exists_override (h : hostOverride node l = some host) :
    ∃ o ∈ (l.configuration.map (·.brokers)).getD [], o.broker = node.brokerId ∧
      o.advertisedHost = some host := by
  obtain ⟨o, ho, hset⟩ := Option.bind_eq_some_iff.mp h
  obtain ⟨cfg, hcfg, hfind⟩ := Option.bind_eq_some_iff.mp ho
  refine ⟨o, ?_, by simpa using List.find?_some hfind, hset⟩
  rw [hcfg]
  exact List.mem_of_find?_eq_some hfind

/-- What is placed on the certificate is offered to it. -/
theorem HostFrom.offered {source : HostSource} (hl : l ∈ ls) (htls : l.tls = true)
    (h : HostFrom pass snap node l source host) (hplaced : Placed l.type source host) :
    Offered pass snap ls node (sanOf host) := by
  cases h with
  | pod type =>
    rw [sanOf_name hplaced]
    exact .base List.mem_cons_self
  | nodeport type port set =>
    obtain ⟨o, ho, hown, hset⟩ := exists_override set
    rw [sanOf_name hplaced.2]
    exact .nodeOverride hl htls type ho hown hset
  | loadbalancer type set => exact absurd type hplaced.1
  | ingress type set =>
    rw [sanOf_name hplaced.2]
    exact .ingressHost hl htls type (.inl set)
  | @externalIp addrs addr type port unset scheduled external =>
    obtain ⟨n, hn, rfl⟩ := mem_of_scheduled scheduled
    obtain ⟨ip, hip⟩ := Option.ne_none_iff_exists'.mp hplaced
    obtain ⟨kind, text⟩ := addr
    obtain rfl : kind = "ExternalIP" := by simpa using List.find?_some external
    rw [sanOf_ip hip]
    exact .nodeIp hl htls type hn (List.mem_of_find?_eq_some external) hip
  | internalIp type port unset scheduled external internal => exact hplaced.elim
  | balancerName type unset served first hostname =>
    rw [sanOf_name hplaced]
    exact .balancerName hl htls type (.inl served) (List.mem_of_head? first) hostname
  | balancerIp type unset served first hostname ip =>
    obtain ⟨addr, haddr⟩ := Option.ne_none_iff_exists'.mp hplaced
    rw [sanOf_ip haddr]
    exact .balancerIp hl htls type (.inl served) (List.mem_of_head? first) ip haddr

/-- A certificate is issued once each load balancer finds an address among those of all of them. -/
theorem exists_certNames (h : ∀ l ∈ ls, isTlsLoadBalancer l = true →
      (observeListenerAddresses snap.view pass.kafka.name ls ids).perBroker node.brokerId ≠ []) :
    ∃ names, certNames lib pass snap ls ids node = .ok names := by
  unfold certNames
  rw [computeExtraSans_eq_ok fun l hl hboth => h l hl hboth.1 hboth.2]
  exact ⟨_, rfl⟩

theorem perBroker_eq_nil_iff (hid : node.brokerId ∈ ids) :
    (observeListenerAddresses snap.view pass.kafka.name ls ids).perBroker node.brokerId = [] ↔
      ∀ l ∈ ls, isTlsLoadBalancer l = true → balancerEntries pass snap node l = [] := by
  simp only [List.eq_nil_iff_forall_not_mem, mem_perBroker, balancerEntries]
  constructor
  · exact fun h l hl hlb entry hentry => h entry ⟨hid, l, hl, hlb, hentry⟩
  · rintro h entry ⟨-, l, hl, hlb, hentry⟩
    exact h l hl hlb entry hentry

section Condition

variable (pass snap ls node)

/-- The load balancers with TLS all have an address for the broker, or none has. -/
def BalancersAgree : Prop :=
  ∀ l ∈ ls, ∀ l' ∈ ls, isTlsLoadBalancer l = true → isTlsLoadBalancer l' = true →
    balancerEntries pass snap node l = [] → balancerEntries pass snap node l' = []

/-- Where no load balancer is awaited, a host that its place does not put on the certificate is
offered to it by another field. -/
def StraysOffered : Prop :=
  (∀ l ∈ ls, isTlsLoadBalancer l = true → balancerEntries pass snap node l ≠ []) →
    ∀ l ∈ ls, l.tls = true → ∀ source host, HostFrom pass snap node l source host →
      ¬ Placed l.type source host → Offered pass snap ls node (sanOf host)

end Condition

/-- Hosts are on the certificate, and the certificate waits for load balancers, if and only if the load
balancers agree and the hosts that are not placed on the certificate are on it by another field. -/
theorem hosts_covered_iff (hid : node.brokerId ∈ ids) :
    HostsCovered lib pass snap ls ids node ↔
      BalancersAgree pass snap ls node ∧ StraysOffered pass snap ls node := by
  constructor
  · rintro ⟨hcovered, hreported⟩
    constructor
    · intro l hl l' hl' hlb hlb' hnone
      by_contra hsome
      have hready : (observeListenerAddresses snap.view pass.kafka.name ls ids).perBroker
          node.brokerId ≠ [] := fun hnil => hsome ((perBroker_eq_nil_iff hid).mp hnil l' hl' hlb')
      obtain ⟨names, hnames⟩ := @exists_certNames pass snap ls ids node lib fun _ _ _ => hready
      obtain ⟨pending, hpending⟩ := hreported l hl hlb hnone
      rw [hnames] at hpending
      cases hpending
    · intro hready l hl htls source host hfrom _
      have hshown : ∀ l ∈ ls, isTlsLoadBalancer l = true →
          (observeListenerAddresses snap.view pass.kafka.name ls ids).perBroker node.brokerId ≠ [] :=
        fun l hl hlb hnil => hready l hl hlb ((perBroker_eq_nil_iff hid).mp hnil l hl hlb)
      obtain ⟨names, hnames⟩ := @exists_certNames pass snap ls ids node lib hshown
      obtain ⟨port, hport⟩ := hfrom.advertised
      have hmem := hcovered l hl htls _ names hport hnames
      exact offered_of_mem hnames hmem
  · rintro ⟨hagree, hstrays⟩
    constructor
    · intro l hl htls addr names haddr hnames
      have hready : ∀ l ∈ ls, isTlsLoadBalancer l = true → balancerEntries pass snap node l ≠ [] := by
        intro l hl hlb hnone
        refine (certNames_eq_ok hnames).1 l hl hlb ((perBroker_eq_nil_iff hid).mpr ?_)
        exact fun l' hl' hlb' => hagree l hl l' hl' hlb hlb' hnone
      obtain ⟨source, hfrom⟩ := exists_hostFrom haddr
      refine mem_of_offered hid hnames ?_
      by_cases hplaced : Placed l.type source addr.host
      · exact hfrom.offered hl htls hplaced
      · exact hstrays hready l hl htls source _ hfrom hplaced
    · intro l hl hlb hnone
      have hnil : (observeListenerAddresses snap.view pass.kafka.name ls ids).perBroker
          node.brokerId = [] :=
        (perBroker_eq_nil_iff hid).mpr fun l' hl' hlb' => hagree l hl l' hl' hlb hlb' hnone
      obtain ⟨pending, hpending⟩ := @computeExtraSans_eq_error _ _ lib _ _ hl hlb hnil
      exact ⟨pending, by rw [certNames, hpending]; rfl⟩

end Snapshot

namespace Sample

def edgePass : KafkaPass where
  kafka := Kafka.minimal "demo"

def edgeNode : NodeInfo :=
  ⟨0, "demo-a-0", "demo-a-0.demo-broker-headless.default.svc.cluster.local", [.broker]⟩

/-- One listener inside, and others outside. -/
def edgeListeners (outside : List Listener) : List Listener :=
  { name := "plain", port := 9092, type := .internal } :: outside

def edgePort : Listener := { name := "ext", port := 9094, type := .nodeport, tls := true }

/-- The broker runs on a node with these addresses, and its Services have a node port. -/
def edgeSnapshot (addrs : List Kube.NodeAddress) : Snapshot where
  nodes := [⟨some "n1", some addrs⟩]
  podNodes := Std.ExtTreeMap.ofList [("demo-a-0", "n1")] compareBytes
  services name := some
    { name := some name, ports := some [{ name := some "kafka", port := 9094, nodePort := some 31000 }] }

def edgeBalancer (name : String) (port : Int) (host : Option String) : Listener where
  name
  port
  type := .loadbalancer
  tls := true
  configuration := some { brokers := [{ broker := 0, advertisedHost := host }] }

def edgeHost : Option String := some "kafka.example.com"

/-- One load balancer has an address. -/
def balancerSnapshot : Snapshot where
  services name :=
    if name = "demo-lb-0" then
      some { name := some name, ingress := some [{ ip := some "203.0.113.9" }] }
    else
      none

end Sample

open Sample in
/-- The external address of a node is on the certificate. -/
theorem hosts_covered_external : HostsCovered SampleLib.named edgePass
    (edgeSnapshot [⟨"InternalIP", "10.0.0.7"⟩, ⟨"ExternalIP", "203.0.113.7"⟩])
    (edgeListeners [edgePort]) [0] edgeNode := by
  have hnone : ∀ l ∈ edgeListeners [edgePort], isTlsLoadBalancer l = false := by decide
  refine (hosts_covered_iff (by decide)).mpr ⟨fun l hl _ _ hlb => ?_, ?_⟩
  · rw [hnone l hl] at hlb
    cases hlb
  · intro _ l hl htls source host hfrom _
    obtain ⟨port, hport⟩ := hfrom.advertised
    rcases List.mem_cons.mp hl with rfl | hlater
    · cases htls
    · obtain rfl := List.mem_singleton.mp hlater
      have haddr : advertisedOf edgePass
          (edgeSnapshot [⟨"InternalIP", "10.0.0.7"⟩, ⟨"ExternalIP", "203.0.113.7"⟩]) edgeNode edgePort =
          .ok ⟨"203.0.113.7", 31000⟩ := by decide
      cases hport.symm.trans haddr
      have hip : IpAddr.parse "203.0.113.7" = some (.v4 203 0 113 7) := by decide
      rw [sanOf_ip hip]
      exact .nodeIp hl htls rfl List.mem_cons_self (List.mem_cons_of_mem _ List.mem_cons_self) hip

open Sample in
/-- Accepted listeners advertise an internal address of a node, or the host that a load balancer is
given, and neither is on the certificate. A certificate is also issued before one of two load balancers
has an address. -/
theorem hosts_uncovered :
    (Listeners.validateListeners (fun _ => true) (edgeListeners [edgePort]) none = .ok () ∧
      ¬ HostsCovered SampleLib.named edgePass (edgeSnapshot [⟨"InternalIP", "10.0.0.7"⟩])
        (edgeListeners [edgePort]) [0] edgeNode) ∧
    (Listeners.validateListeners (fun _ => true) (edgeListeners [edgeBalancer "lb" 9095 edgeHost])
      none = .ok () ∧
      ¬ HostsCovered SampleLib.named edgePass balancerSnapshot
        (edgeListeners [edgeBalancer "lb" 9095 edgeHost]) [0] edgeNode) ∧
    Listeners.validateListeners (fun _ => true)
      (edgeListeners [edgeBalancer "lb" 9095 none, edgeBalancer "late" 9096 none]) none = .ok () ∧
    ¬ HostsCovered SampleLib.named edgePass balancerSnapshot
      (edgeListeners [edgeBalancer "lb" 9095 none, edgeBalancer "late" 9096 none]) [0] edgeNode := by
  refine ⟨⟨by decide, fun h => ?_⟩, ⟨by decide, fun h => ?_⟩, by decide, fun h => ?_⟩
  · have hnames : certNames SampleLib.named edgePass (edgeSnapshot [⟨"InternalIP", "10.0.0.7"⟩])
        (edgeListeners [edgePort]) [0] edgeNode = .ok (baseSans edgePass edgeNode) := by decide
    have hmem := h.covered edgePort (by decide) rfl ⟨"10.0.0.7", 31000⟩ _ (by decide) hnames
    exact absurd hmem (by decide)
  · have hnames : certNames SampleLib.named edgePass balancerSnapshot
        (edgeListeners [edgeBalancer "lb" 9095 edgeHost]) [0] edgeNode =
        .ok (baseSans edgePass edgeNode ++ [.ip (.v4 203 0 113 9)]) := by decide
    have hmem := h.covered (edgeBalancer "lb" 9095 edgeHost) (by decide) rfl
      ⟨"kafka.example.com", 9095⟩ _ (by decide) hnames
    exact absurd hmem (by decide)
  · obtain ⟨pending, hpending⟩ := h.reported (edgeBalancer "late" 9096 none) (by decide) (by decide)
      (by decide)
    have hnames : certNames SampleLib.named edgePass balancerSnapshot
        (edgeListeners [edgeBalancer "lb" 9095 none, edgeBalancer "late" 9096 none]) [0] edgeNode =
        .ok (baseSans edgePass edgeNode ++ [.ip (.v4 203 0 113 9)]) := by decide
    cases hpending.symm.trans hnames

end Cluster
