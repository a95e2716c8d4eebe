-- SUMMARY: The external addresses of the listeners: what a pass observes of them, and the names that they add to the certificate of a broker.
import KrabkaOperator.Base.Canonical
import KrabkaOperator.Base.IpParse
import KrabkaOperator.ClusterCa.Library
import KrabkaOperator.Kube.Service
import KrabkaOperator.Listeners.Validation
import KrabkaOperator.Operator.World

/-!
# External addresses

A pass reads the nodes and the Services of the load balancers from the API server. A
Service that it does not get adds nothing to what it has observed. Without an address
of its load balancer a broker has no extra names at all.
-/

namespace Listeners

open Crd Kube Operator ClusterCa

/-! ## Observed addresses -/

inductive NodeAddress where
  | externalIp (ip : IpAddr)
  | externalDns (name : String)
  deriving DecidableEq, Repr

inductive LbIngress where
  | ip (addr : IpAddr)
  | hostname (name : String)
  deriving DecidableEq, Repr

/-- What a pass has observed. -/
structure ListenerObservedAddresses where
  nodeportNodeAddresses : List NodeAddress := []
  /-- The entries with their brokers, in the order in which they are found. -/
  lbPerBroker : List (Int × LbIngress) := []
  lbBootstrap : List LbIngress := []
  deriving DecidableEq, Repr

/-- The entries of one broker. -/
def ListenerObservedAddresses.perBroker (observed : ListenerObservedAddresses) (id : Int) :
    List LbIngress :=
  (observed.lbPerBroker.filter fun e => e.1 = id).map (·.2)

/-- What the API server answers to the reads of a pass. -/
structure ListenerView where
  nodes : List Node
  service : String → Except KubeError Service

def brokerServiceName (cluster listener : String) (id : Int) : String :=
  cluster ++ "-" ++ listener ++ "-" ++ toString id

def bootstrapServiceName (cluster listener : String) : String :=
  cluster ++ "-" ++ listener ++ "-bootstrap"

/-- The usable entries of a Service, an address before a name. -/
def serviceIngress (svc : Service) : List LbIngress :=
  (svc.ingress.getD []).flatMap fun entry =>
    ((entry.ip >>= IpAddr.parse).map LbIngress.ip).toList ++
      (entry.hostname.map LbIngress.hostname).toList

/-- An error counts as no entry. -/
def ListenerView.ingress (view : ListenerView) (name : String) : List LbIngress :=
  match view.service name with
  | .ok svc => serviceIngress svc
  | .error _ => []

def observedNodeAddresses (node : Node) : List NodeAddress :=
  (node.addresses.getD []).filterMap fun addr =>
    if addr.type = "ExternalIP" then (IpAddr.parse addr.address).map .externalIp
    else if addr.type = "ExternalDNS" ∨ addr.type = "Hostname" then some (.externalDns addr.address)
    else none

/-- A listener that a load balancer serves with TLS. -/
def isTlsLoadBalancer (l : Listener) : Bool := l.type = .loadbalancer && l.tls

def observeListenerAddresses (view : ListenerView) (cluster : String) (listeners : List Listener)
    (brokerIds : List Int) : ListenerObservedAddresses where
  nodeportNodeAddresses :=
    if listeners.any fun l => l.type = .nodeport && l.tls then
      view.nodes.flatMap observedNodeAddresses
    else
      []
  lbPerBroker := (listeners.filter isTlsLoadBalancer).flatMap fun l =>
    brokerIds.flatMap fun id =>
      (view.ingress (brokerServiceName cluster l.name id)).map fun entry => (id, entry)
  lbBootstrap := (listeners.filter isTlsLoadBalancer).flatMap fun l =>
    view.ingress (bootstrapServiceName cluster l.name)

/-! ## Extra names -/

def ingressBrokerHost (l : Listener) (id : Int) : Option String := do
  let cfg ← l.configuration
  let o ← cfg.brokers.find? (·.broker = id)
  o.advertisedHost <|> o.host

def ingressBootstrapHost (l : Listener) : Option String :=
  l.configuration >>= (·.bootstrap) >>= (·.host)

def NodeAddress.san : NodeAddress → SubjectAltName
  | .externalIp ip => .ip ip
  | .externalDns name => .dns name

def LbIngress.san : LbIngress → SubjectAltName
  | .ip addr => .ip addr
  | .hostname name => .dns name

/-- The names that one listener adds, given the addresses of the nodes and of the load
    balancers. -/
def listenerSans (id : Int) (nodes : List NodeAddress) (entries : List LbIngress) (l : Listener) :
    List SubjectAltName :=
  if !l.tls then []
  else
    match l.type with
    | .internal => []
    | .ingress | .route =>
      (ingressBrokerHost l id).toList.map .dns ++ (ingressBootstrapHost l).toList.map .dns
    | .nodeport =>
      nodes.map NodeAddress.san ++
        ((l.configuration.map (·.brokers)).getD []).filterMap fun o =>
          if o.broker = id then o.advertisedHost.map .dns else none
    | .loadbalancer => entries.map LbIngress.san

structure SansNotReady where
  brokerId : Int
  listener : String
  deriving DecidableEq, Repr

/-- The names of one listener, once the load balancer of the broker has an address. -/
def readySans (id : Int) (observed : ListenerObservedAddresses) (l : Listener) :
    Except SansNotReady (List SubjectAltName) :=
  if isTlsLoadBalancer l ∧ observed.perBroker id = [] then .error ⟨id, l.name⟩
  else .ok (listenerSans id observed.nodeportNodeAddresses
    (observed.perBroker id ++ observed.lbBootstrap) l)

/-- The extra names of a broker, sorted and without duplicates. -/
def computeExtraSans (lib : CaLib) (id : Int) (listeners : List Listener)
    (observed : ListenerObservedAddresses) : Except SansNotReady (List SubjectAltName) := do
  let sans ← listeners.mapM (readySans id observed)
  pure (Canonical.canonical (fun a b => lib.sanLe a b) sans.flatten)

/-! ## What is observed of a broker -/

variable {view : ListenerView} {cluster : String} {ls : List Listener} {ids : List Int} {id : Int}

theorem mem_perBroker {entry : LbIngress} :
    entry ∈ (observeListenerAddresses view cluster ls ids).perBroker id ↔
      id ∈ ids ∧ ∃ l ∈ ls, isTlsLoadBalancer l = true ∧
        entry ∈ view.ingress (brokerServiceName cluster l.name id) := by
  simp only [ListenerObservedAddresses.perBroker, observeListenerAddresses, List.mem_map,
    List.mem_filter, List.mem_flatMap, decide_eq_true_eq]
  constructor
  · rintro ⟨e, ⟨⟨l, ⟨hl, hlb⟩, id', hid', entry', hentry', rfl⟩, rfl⟩, rfl⟩
    exact ⟨hid', l, hl, hlb, hentry'⟩
  · rintro ⟨hid, l, hl, hlb, hentry⟩
    exact ⟨(id, entry), ⟨⟨l, ⟨hl, hlb⟩, id, hid, entry, hentry, rfl⟩, rfl⟩, rfl⟩

/-! ## When the names are ready -/

variable {lib : CaLib} {observed : ListenerObservedAddresses}

theorem mapM_readySans_ok (h : ∀ l ∈ ls, ¬ (isTlsLoadBalancer l = true ∧ observed.perBroker id = [])) :
    ls.mapM (readySans id observed) = .ok (ls.map (listenerSans id observed.nodeportNodeAddresses
      (observed.perBroker id ++ observed.lbBootstrap))) := by
  induction ls with
  | nil => rfl
  | cons l ls ih =>
    obtain ⟨hl, hls⟩ := List.forall_mem_cons.mp h
    rw [List.mapM_cons, ih hls, readySans, if_neg hl]
    rfl

/-- A load balancer without an address of the broker holds back all of its names. -/
theorem computeExtraSans_eq_error {l : Listener} (hl : l ∈ ls) (hlb : isTlsLoadBalancer l = true)
    (hnone : observed.perBroker id = []) :
    ∃ pending, computeExtraSans lib id ls observed = .error pending := by
  suffices h : ∃ pending, ls.mapM (readySans id observed) = .error pending by
    obtain ⟨pending, h⟩ := h
    exact ⟨pending, by rw [computeExtraSans, h]; rfl⟩
  induction ls with
  | nil => cases hl
  | cons l' ls ih =>
    rw [List.mapM_cons]
    by_cases hhead : isTlsLoadBalancer l' = true ∧ observed.perBroker id = []
    · exact ⟨⟨id, l'.name⟩, by rw [readySans, if_pos hhead]; rfl⟩
    · rcases List.mem_cons.mp hl with rfl | hlater
      · exact absurd ⟨hlb, hnone⟩ hhead
      · obtain ⟨pending, h⟩ := ih hlater
        exact ⟨pending, by rw [readySans, if_neg hhead, h]; rfl⟩

theorem computeExtraSans_eq_ok
    (h : ∀ l ∈ ls, ¬ (isTlsLoadBalancer l = true ∧ observed.perBroker id = [])) :
    computeExtraSans lib id ls observed = .ok (Canonical.canonical (fun a b => lib.sanLe a b)
      (ls.flatMap (listenerSans id observed.nodeportNodeAddresses
        (observed.perBroker id ++ observed.lbBootstrap)))) := by
  rw [computeExtraSans, mapM_readySans_ok h, List.flatMap_def]
  rfl

/-- Only the members of the entries count. -/
theorem mem_listenerSans_congr {nodes : List NodeAddress} {entries entries' : List LbIngress}
    {l : Listener} {san : SubjectAltName} (h : ∀ e, e ∈ entries ↔ e ∈ entries') :
    san ∈ listenerSans id nodes entries l ↔ san ∈ listenerSans id nodes entries' l := by
  unfold listenerSans
  split
  · exact Iff.rfl
  · cases l.type with
    | internal => exact Iff.rfl
    | nodeport => exact Iff.rfl
    | ingress => exact Iff.rfl
    | route => exact Iff.rfl
    | loadbalancer => simp only [List.mem_map, h]

/-! ## A load balancer that shows no address -/

section Unobserved

variable (view cluster ls ids id)

/-- The entries of a broker at the load balancers of other listeners than `l`. -/
def otherEntries (l : Listener) : List LbIngress :=
  (ls.filter fun l' => isTlsLoadBalancer l' ∧ l' ≠ l).flatMap fun l' =>
    view.ingress (brokerServiceName cluster l'.name id)

/-- The names that are left to a broker without the address of listener `l`: those that the other
    load balancers let the pass collect, and none at all if they show no address either. -/
def leftSans (l : Listener) : List SubjectAltName :=
  let observed := observeListenerAddresses view cluster ls ids
  let entries := otherEntries view cluster ls id l
  if entries = [] then []
  else ls.flatMap (listenerSans id observed.nodeportNodeAddresses (entries ++ observed.lbBootstrap))

variable {view cluster ls ids id} {l : Listener}

theorem mem_perBroker_iff (hid : id ∈ ids)
    (hnone : view.ingress (brokerServiceName cluster l.name id) = []) {entry : LbIngress} :
    entry ∈ (observeListenerAddresses view cluster ls ids).perBroker id ↔
      entry ∈ otherEntries view cluster ls id l := by
  simp only [mem_perBroker, otherEntries, List.mem_flatMap, List.mem_filter, decide_eq_true_eq]
  constructor
  · rintro ⟨-, l', hl', hlb', hentry⟩
    refine ⟨l', ⟨hl', hlb', ?_⟩, hentry⟩
    rintro rfl
    rw [hnone] at hentry
    cases hentry
  · rintro ⟨l', ⟨hl', hlb', -⟩, hentry⟩
    exact ⟨hid, l', hl', hlb', hentry⟩

/-- The names that a pass asks for are those that are left. -/
theorem mem_computeExtraSans (hl : l ∈ ls) (hlb : isTlsLoadBalancer l = true) (hid : id ∈ ids)
    (hnone : view.ingress (brokerServiceName cluster l.name id) = []) {san : SubjectAltName} :
    san ∈ (computeExtraSans lib id ls
        (observeListenerAddresses view cluster ls ids)).toOption.getD [] ↔
      san ∈ leftSans view cluster ls ids id l := by
  have hmem : ∀ entry, entry ∈ (observeListenerAddresses view cluster ls ids).perBroker id ↔
      entry ∈ otherEntries view cluster ls id l := fun _ => mem_perBroker_iff hid hnone
  rw [leftSans]
  by_cases hother : otherEntries view cluster ls id l = []
  · have hempty : (observeListenerAddresses view cluster ls ids).perBroker id = [] := by
      refine List.eq_nil_iff_forall_not_mem.mpr fun entry hentry => ?_
      rw [hmem, hother] at hentry
      cases hentry
    obtain ⟨pending, hpending⟩ := @computeExtraSans_eq_error ls id lib _ l hl hlb hempty
    rw [hpending, if_pos hother]
    rfl
  · have hsome : (observeListenerAddresses view cluster ls ids).perBroker id ≠ [] := by
      intro hempty
      refine hother (List.eq_nil_iff_forall_not_mem.mpr fun entry hentry => ?_)
      rw [← hmem, hempty] at hentry
      cases hentry
    rw [computeExtraSans_eq_ok fun l' _ h => hsome h.2, if_neg hother]
    simp only [Except.toOption, Option.getD_some, Canonical.mem_canonical, List.mem_flatMap]
    refine exists_congr fun l' => and_congr_right fun _ => mem_listenerSans_congr fun entry => ?_
    rw [List.mem_append, List.mem_append, hmem]

end Unobserved

end Listeners
