-- SUMMARY: The objects of external listeners, and where a client that connects to an advertised host of an Ingress or a Route ends.
import KrabkaOperator.Cluster.ConfigMap
import KrabkaOperator.Cluster.Inventory
import KrabkaOperator.Kube.Ingress
import KrabkaOperator.Listeners.Names

/-!
# External listeners

Each external listener has a Service for all brokers and one for each broker. Those of type
`ingress` and `route` have an Ingress or a Route for each host on top of them.
-/

namespace Cluster

open Crd Kube Operator Listeners

/-! ## Rendering -/

def sslPassthroughKey : String := "nginx.ingress.kubernetes.io/ssl-passthrough"

def ingressLabels (cluster : String) (l : Listener) : BTreeMap String :=
  BTreeMap.ofList
    [("app.kubernetes.io/name", appLabel), ("app.kubernetes.io/instance", cluster),
      ("krabka.io/listener", l.name)]

section Render

-- The field `ingressClass` of the configuration of a listener.
variable (classOf : Listener → Option String) (owner : Kafka) (l : Listener)

/-- An Ingress that routes one host by the name in the TLS handshake. -/
def buildIngress (objectName host serviceName : String)
    (labels extraAnnotations : BTreeMap String) : Except ReconcileError Ingress := do
  let ownerReference ← Network.ownerRef owner
  pure
    { name := objectName
      ns := owner.ns
      labels := BTreeMap.ofList [("app.kubernetes.io/name", appLabel)] ∪ labels
      annotations := BTreeMap.ofList [(sslPassthroughKey, "true")] ∪ extraAnnotations
      ownerReferences := [ownerReference]
      className := classOf l
      tls := [[host]]
      rules :=
        [{ host
           paths :=
            [{ path := "/"
               pathType := "Prefix"
               service := serviceName
               port := .number l.port }] }] }

def renderBrokerIngress (id : Int) (host : String) : Except ReconcileError Ingress :=
  let name := brokerServiceName owner.name l.name id
  buildIngress classOf owner l name host name
    ((ingressLabels owner.name l).insert "krabka.io/broker" (toString id)) ∅

def renderBootstrapIngress (host : String) : Except ReconcileError Ingress :=
  let name := bootstrapServiceName owner.name l.name
  buildIngress classOf owner l name host name
    ((ingressLabels owner.name l).insert "krabka.io/role" "bootstrap")
    ((l.configuration >>= (·.bootstrap)).map (·.annotations) |>.getD ∅)

/-- A Route that routes one host by the name in the TLS handshake. -/
def buildRoute (objectName host serviceName : String) (labels : BTreeMap String) :
    Except ReconcileError Route := do
  let ownerReference ← Network.ownerRef owner
  pure
    { name := objectName
      ns := owner.ns.getD ""
      labels := BTreeMap.ofList [("app.kubernetes.io/name", appLabel)] ∪ labels
      ownerReferences := [ownerReference]
      host
      port := .target l.port
      termination := "passthrough"
      toKind := "Service"
      service := serviceName
      weight := 100 }

def renderBrokerRoute (id : Int) (host : String) : Except ReconcileError Route :=
  let name := brokerServiceName owner.name l.name id
  buildRoute owner l name host name
    ((ingressLabels owner.name l).insert "krabka.io/broker" (toString id))

def renderBootstrapRoute (host : String) : Except ReconcileError Route :=
  let name := bootstrapServiceName owner.name l.name
  buildRoute owner l name host name
    ((ingressLabels owner.name l).insert "krabka.io/role" "bootstrap")

end Render

/-! ## Objects of a pass -/

section Apply

variable (classOf : Listener → Option String) (owner : Kafka) (brokers : List NodeInfo)

/-- The objects for the hosts of a listener, of one kind. -/
def hostObjects (l : Listener) (bootstrap : String → Except ReconcileError Applied)
    (broker : Int → String → Except ReconcileError Applied) :
    Except ReconcileError (List Applied) := do
  let ofBootstrap ← (ingressBootstrapHost l).toList.mapM bootstrap
  let hosts := brokers.filterMap fun b =>
    (ingressBrokerHost l b.brokerId).map fun host => (b.brokerId, host)
  let ofBrokers ← hosts.mapM fun h => broker h.1 h.2
  pure (ofBootstrap ++ ofBrokers)

/-- The Ingresses or the Routes of a listener. -/
def frontObjects (l : Listener) : Except ReconcileError (List Applied) :=
  match l.type with
  | .ingress =>
    hostObjects brokers l
      (fun host => (renderBootstrapIngress classOf owner l host).map
        (.ingress (bootstrapServiceName owner.name l.name)))
      (fun id host => (renderBrokerIngress classOf owner l id host).map
        (.ingress (brokerServiceName owner.name l.name id)))
  | .route =>
    hostObjects brokers l
      (fun host => (renderBootstrapRoute owner l host).map
        (.route (bootstrapServiceName owner.name l.name)))
      (fun id host => (renderBrokerRoute owner l id host).map
        (.route (brokerServiceName owner.name l.name id)))
  | _ => pure []

/-- All objects of a listener, in the order in which they are applied. -/
def listenerObjects (l : ExternalListener) : Except ReconcileError (List Applied) := do
  let bootstrap ← (renderBootstrapService owner l).map
    (Applied.service (bootstrapServiceName owner.name l.1.name))
  let ofBrokers ← brokers.mapM fun b =>
    (renderBrokerService owner l b.brokerId b.podName).map
      (Applied.service (brokerServiceName owner.name l.1.name b.brokerId))
  let fronts ← frontObjects classOf owner brokers l.1
  pure (bootstrap :: ofBrokers ++ fronts)

def applyExternalServices (effective : List Listener) : Except ReconcileError (List Applied) := do
  let objs ← (externalListeners effective).mapM (listenerObjects classOf owner brokers)
  pure objs.flatten

end Apply

/-! ## What an object is for -/

/-- The brokers of a listener together, or one of them. -/
inductive Slot where
  | bootstrap
  | broker (b : NodeInfo)
  deriving DecidableEq

namespace Slot

variable (classOf : Listener → Option String) (owner : Kafka)

def In (brokers : List NodeInfo) : Slot → Prop
  | bootstrap => True
  | broker b => b ∈ brokers

def objectName (l : Listener) : Slot → String
  | bootstrap => bootstrapServiceName owner.name l.name
  | broker b => brokerServiceName owner.name l.name b.brokerId

/-- The host that clients use. -/
def host (l : Listener) : Slot → Option String
  | bootstrap => ingressBootstrapHost l
  | broker b => ingressBrokerHost l b.brokerId

def service (l : ExternalListener) : Slot → Except ReconcileError Service
  | bootstrap => renderBootstrapService owner l
  | broker b => renderBrokerService owner l b.brokerId b.podName

def ingress (l : Listener) (host : String) : Slot → Except ReconcileError Ingress
  | bootstrap => renderBootstrapIngress classOf owner l host
  | broker b => renderBrokerIngress classOf owner l b.brokerId host

def route (l : Listener) (host : String) : Slot → Except ReconcileError Route
  | bootstrap => renderBootstrapRoute owner l host
  | broker b => renderBrokerRoute owner l b.brokerId host

end Slot

/-- The objects of a listener. -/
inductive IsObject (classOf : Listener → Option String) (owner : Kafka) (brokers : List NodeInfo)
    (l : ExternalListener) : Applied → Prop
  | service {slot : Slot} {svc : Service} (hslot : slot.In brokers)
      (h : slot.service owner l = .ok svc) :
      IsObject classOf owner brokers l (.service (slot.objectName owner l.1) svc)
  | ingress {slot : Slot} {host : String} {ing : Ingress} (htype : l.1.type = .ingress)
      (hslot : slot.In brokers) (hhost : slot.host l.1 = some host)
      (h : slot.ingress classOf owner l.1 host = .ok ing) :
      IsObject classOf owner brokers l (.ingress (slot.objectName owner l.1) ing)
  | route {slot : Slot} {host : String} {rt : Route} (htype : l.1.type = .route)
      (hslot : slot.In brokers) (hhost : slot.host l.1 = some host)
      (h : slot.route owner l.1 host = .ok rt) :
      IsObject classOf owner brokers l (.route (slot.objectName owner l.1) rt)

section Objects

open Checks

variable {classOf : Listener → Option String} {owner : Kafka} {brokers : List NodeInfo}
  {l : ExternalListener} {objs : List Applied} {a : Applied}

theorem map_eq_ok {α β ε : Type} {f : α → β} {x : Except ε α} {b : β} :
    x.map f = .ok b ↔ ∃ a, x = .ok a ∧ f a = b := by
  cases x with
  | error e => simp [Except.map]
  | ok a => simp [Except.map]

/-- The objects for the hosts, one for each slot that has one. -/
theorem mem_hostObjects {bootstrap : String → Except ReconcileError Applied}
    {broker : Int → String → Except ReconcileError Applied}
    (h : hostObjects brokers l.1 bootstrap broker = .ok objs) : a ∈ objs ↔
      (∃ host, ingressBootstrapHost l.1 = some host ∧ bootstrap host = .ok a) ∨
      ∃ b ∈ brokers, ∃ host, ingressBrokerHost l.1 b.brokerId = some host ∧
        broker b.brokerId host = .ok a := by
  obtain ⟨ofBootstrap, hbootstrap, h⟩ := bind_eq_ok.mp h
  obtain ⟨ofBrokers, hbrokers, h⟩ := bind_eq_ok.mp h
  cases h
  rw [List.mem_append, mem_of_mapM_eq_ok hbootstrap, mem_of_mapM_eq_ok hbrokers]
  refine or_congr ?_ ?_
  · simp [Option.mem_toList]
  · simp only [List.mem_filterMap, Option.map_eq_some_iff]
    constructor
    · rintro ⟨_, ⟨b, hb, host, hhost, rfl⟩, hok⟩
      exact ⟨b, hb, host, hhost, hok⟩
    · rintro ⟨b, hb, host, hhost, hok⟩
      exact ⟨_, ⟨b, hb, host, hhost, rfl⟩, hok⟩

theorem mem_frontObjects (h : frontObjects classOf owner brokers l.1 = .ok objs) : a ∈ objs ↔
    ∃ slot : Slot, slot.In brokers ∧ ∃ host, slot.host l.1 = some host ∧
      ((l.1.type = .ingress ∧ ∃ ing, slot.ingress classOf owner l.1 host = .ok ing ∧
          .ingress (slot.objectName owner l.1) ing = a) ∨
        l.1.type = .route ∧ ∃ rt, slot.route owner l.1 host = .ok rt ∧
          .route (slot.objectName owner l.1) rt = a) := by
  have hslots (P : Slot → Prop) : (∃ slot : Slot, slot.In brokers ∧ P slot) ↔
      P .bootstrap ∨ ∃ b ∈ brokers, P (.broker b) := by
    constructor
    · rintro ⟨slot, hslot, hP⟩
      cases slot with
      | bootstrap => exact .inl hP
      | broker b => exact .inr ⟨b, hslot, hP⟩
    · rintro (hP | ⟨b, hb, hP⟩)
      · exact ⟨.bootstrap, trivial, hP⟩
      · exact ⟨.broker b, hb, hP⟩
  rw [hslots]
  unfold frontObjects at h
  cases htype : l.1.type with
  | ingress =>
    simp only [htype] at h
    simp only [mem_hostObjects h, map_eq_ok, true_and, reduceCtorEq, false_and, or_false]
    rfl
  | route =>
    simp only [htype] at h
    simp only [mem_hostObjects h, map_eq_ok, true_and, reduceCtorEq, false_and, false_or]
    rfl
  | internal => exact absurd htype l.2
  | nodeport =>
    simp only [htype] at h
    cases h
    simp
  | loadbalancer =>
    simp only [htype] at h
    cases h
    simp

theorem mem_listenerObjects (h : listenerObjects classOf owner brokers l = .ok objs) :
    a ∈ objs ↔ IsObject classOf owner brokers l a := by
  obtain ⟨boot, hboot, h⟩ := bind_eq_ok.mp h
  obtain ⟨per, hper, h⟩ := bind_eq_ok.mp h
  obtain ⟨fronts, hfronts, h⟩ := bind_eq_ok.mp h
  cases h
  obtain ⟨bs, hbs, rfl⟩ := map_eq_ok.mp hboot
  rw [List.cons_append, List.mem_cons, List.mem_append, mem_of_mapM_eq_ok hper,
    mem_frontObjects hfronts]
  constructor
  · rintro (rfl | ⟨b, hb, hsvc⟩ | ⟨slot, hslot, host, hhost, hfront⟩)
    · exact @IsObject.service _ _ _ _ .bootstrap _ trivial hbs
    · obtain ⟨svc, hok, rfl⟩ := map_eq_ok.mp hsvc
      exact @IsObject.service _ _ _ _ (.broker b) _ hb hok
    · rcases hfront with ⟨htype, ing, hing, rfl⟩ | ⟨htype, rt, hrt, rfl⟩
      · exact .ingress htype hslot hhost hing
      · exact .route htype hslot hhost hrt
  · rintro (⟨hslot, hsvc⟩ | ⟨htype, hslot, hhost, hing⟩ | ⟨htype, hslot, hhost, hrt⟩)
    · rename_i slot svc
      cases slot with
      | bootstrap =>
        cases hbs.symm.trans hsvc
        exact .inl rfl
      | broker b => exact .inr (.inl ⟨b, hslot, map_eq_ok.mpr ⟨svc, hsvc, rfl⟩⟩)
    · exact .inr (.inr ⟨_, hslot, _, hhost, .inl ⟨htype, _, hing, rfl⟩⟩)
    · exact .inr (.inr ⟨_, hslot, _, hhost, .inr ⟨htype, _, hrt, rfl⟩⟩)

theorem mem_applyExternalServices {effective : List Listener}
    (h : applyExternalServices classOf owner brokers effective = .ok objs) : a ∈ objs ↔
      ∃ l : ExternalListener, l.1 ∈ effective ∧ IsObject classOf owner brokers l a := by
  obtain ⟨lists, hlists, h⟩ := bind_eq_ok.mp h
  cases h
  rw [List.mem_flatten]
  constructor
  · rintro ⟨list, hlist, ha⟩
    obtain ⟨l, hl, hobjects⟩ := (mem_of_mapM_eq_ok hlists).mp hlist
    exact ⟨l, mem_externalListeners.mp hl, (mem_listenerObjects hobjects).mp ha⟩
  · rintro ⟨l, hl, ha⟩
    obtain ⟨list, hlist, hobjects⟩ :=
      exists_of_mapM_eq_ok hlists (mem_externalListeners.mpr hl)
    exact ⟨list, hlist, (mem_listenerObjects hobjects).mpr ha⟩

end Objects

/-! ## Names -/

section Names

variable {owner : Kafka}

/-- Bootstrap names and names of brokers, of one cluster. -/
def Slot.purpose (owner : Kafka) (l : Listener) : Slot → Purpose
  | bootstrap => .bootstrap owner.name l.name
  | broker b => .broker owner.name l.name b.brokerId

theorem Slot.serviceName_purpose (l : Listener) (slot : Slot) :
    (slot.purpose owner l).serviceName = slot.objectName owner l := by
  cases slot with
  | bootstrap => rfl
  | broker b => rfl

theorem Slot.cluster_purpose (l : Listener) (slot : Slot) :
    (slot.purpose owner l).cluster = owner.name ∧ (slot.purpose owner l).middle = l.name := by
  cases slot with
  | bootstrap => exact ⟨rfl, rfl⟩
  | broker b => exact ⟨rfl, rfl⟩

/-- Ids of brokers are not negative, and no two brokers have one id, or one name of the pod. -/
structure Distinct (brokers : List NodeInfo) : Prop where
  nonneg : ∀ b ∈ brokers, 0 ≤ b.brokerId
  ids : ∀ b ∈ brokers, ∀ b' ∈ brokers, b.brokerId = b'.brokerId → b = b'
  pods : ∀ b ∈ brokers, ∀ b' ∈ brokers, b.podName = b'.podName → b = b'

/-- The brokers of the pools of a cluster. -/
def brokerNodes (cluster ns : String) (pools : List KafkaNodePool) : List NodeInfo :=
  (enumerateNodes cluster ns pools).filter (·.isBroker)

/-- Pools with names of their own, and with ids in ranges of their own. -/
structure PoolsApart (cluster ns : String) (pools : List KafkaNodePool) : Prop where
  names : ∀ p ∈ pools, ∀ q ∈ pools, p.name = q.name → p = q
  ids : ((enumerateNodes cluster ns pools).map (·.brokerId)).Nodup
  nonneg : ∀ p ∈ pools, 0 ≤ p.spec.nodeIdStart

theorem PoolsApart.distinct {cluster ns : String} {pools : List KafkaNodePool}
    (h : PoolsApart cluster ns pools) : Distinct (brokerNodes cluster ns pools) := by
  have hids : ∀ b ∈ brokerNodes cluster ns pools, ∀ b' ∈ brokerNodes cluster ns pools,
      b.brokerId = b'.brokerId → b = b' := fun b hb b' hb' =>
    List.inj_on_of_nodup_map h.ids (List.mem_of_mem_filter hb) (List.mem_of_mem_filter hb')
  have hpool (b : NodeInfo) (hb : b ∈ brokerNodes cluster ns pools) : ∃ pool ∈ pools, ∃ k : Nat,
      b.brokerId = pool.spec.nodeIdStart + k ∧
        b.podName = cluster ++ "-" ++ pool.name ++ "-" ++ toString (k : Int) := by
    obtain ⟨pool, hpool, hnode⟩ := mem_enumerateNodes.mp (List.mem_of_mem_filter hb)
    obtain ⟨k, -, -, hid, hname⟩ := mem_poolNodes hnode
    exact ⟨pool, hpool, k, hid, hname⟩
  refine ⟨fun b hb => ?_, hids, fun b hb b' hb' hname => hids b hb b' hb' ?_⟩
  · obtain ⟨pool, hpool, k, hid, -⟩ := hpool b hb
    rw [hid]
    exact Int.add_nonneg (h.nonneg pool hpool) (Int.natCast_nonneg k)
  · obtain ⟨pool, hmem, k, hid, hpod⟩ := hpool b hb
    obtain ⟨pool', hmem', k', hid', hpod'⟩ := hpool b' hb'
    rw [hpod, hpod'] at hname
    obtain ⟨hstem, hk⟩ := Separated.eq_of_dash_eq_dash
      (Decimal.dash_not_mem_toString (Int.natCast_nonneg k))
      (Decimal.dash_not_mem_toString (Int.natCast_nonneg k')) hname
    have hpoolName : pool.name = pool'.name := by
      rcases Separated.dash_eq_dash.mp hstem with ⟨-, hname⟩ | ⟨r, hr, -⟩ | ⟨r, hr, -⟩
      · exact hname
      · exact absurd hr name_ne_extended
      · exact absurd hr name_ne_extended
    rw [hid, hid', h.names pool hmem pool' hmem' hpoolName, Decimal.toString_injective hk]

theorem Slot.valid_purpose {brokers : List NodeInfo} (h : Distinct brokers) (l : Listener)
    {slot : Slot} (hslot : slot.In brokers) : (slot.purpose owner l).Valid := by
  cases slot with
  | bootstrap => trivial
  | broker b => exact h.nonneg b hslot

/-- No two objects of a cluster have one name. -/
theorem Slot.objectName_injective {brokers : List NodeInfo} (h : Distinct brokers)
    {l l' : Listener} {slot slot' : Slot} (hslot : slot.In brokers) (hslot' : slot'.In brokers)
    (hname : slot.objectName owner l = slot'.objectName owner l') :
    l.name = l'.name ∧ slot = slot' := by
  rw [← slot.serviceName_purpose, ← slot'.serviceName_purpose] at hname
  obtain ⟨hlast, hparts⟩ := Purpose.of_serviceName_eq (slot.valid_purpose h l hslot)
    (slot'.valid_purpose h l' hslot') hname
  rw [(slot.cluster_purpose l).1, (slot.cluster_purpose l).2, (slot'.cluster_purpose l').1,
    (slot'.cluster_purpose l').2] at hparts
  have hmiddle : l.name = l'.name := by
    rcases hparts with ⟨-, hmiddle⟩ | ⟨r, hr, -⟩ | ⟨r, hr, -⟩
    · exact hmiddle
    · exact absurd hr name_ne_extended
    · exact absurd hr name_ne_extended
  refine ⟨hmiddle, ?_⟩
  cases slot with
  | bootstrap =>
    cases slot' with
    | bootstrap => rfl
    | broker b' => exact absurd hlast.symm (Purpose.broker_last_ne (by simp [purpose]))
  | broker b =>
    cases slot' with
    | bootstrap => exact absurd hlast (Purpose.broker_last_ne (by simp [purpose]))
    | broker b' =>
      rw [h.ids b hslot b' hslot' (Decimal.toString_injective hlast)]

end Names

/-! ## What the objects do -/

section Rendered

open Checks

variable {classOf : Listener → Option String} {owner : Kafka} {l : ExternalListener} {slot : Slot}
  {host : String}

/-- The pods that the Service of a slot selects. -/
def Slot.Selects (owner : Kafka) (pod : Pod) : Slot → Prop
  | bootstrap => pod.labels["app.kubernetes.io/name"]? = some appLabel ∧
      pod.labels["app.kubernetes.io/instance"]? = some owner.name ∧
        pod.labels[roleLabel .broker]? = some "true"
  | broker b => pod.labels["statefulset.kubernetes.io/pod-name"]? = some b.podName

theorem selects_ofList_singleton {svc : Service} {key value : String} {labels : BTreeMap String}
    (h : svc.selector = BTreeMap.ofList [(key, value)]) :
    svc.selects labels = true ↔ labels[key]? = some value := by
  have hne : (BTreeMap.ofList [(key, value)]).isEmpty = false := by simp [BTreeMap.ofList]
  rw [Service.selects, h, hne, Bool.not_false, Bool.true_and,
    LabelSelector.selects_ofList (by simp)]
  simp

theorem Slot.service_selects {svc : Service} (h : slot.service owner l = .ok svc) {pod : Pod} :
    svc.selects pod.labels = true ↔ slot.Selects owner pod := by
  cases slot with
  | bootstrap => exact selects_roleSelector (renderBootstrapService_selector h)
  | broker b =>
    obtain ⟨ref, -, hsvc⟩ := bind_eq_ok.mp h
    cases hsvc
    exact selects_ofList_singleton rfl

/-- The one port of a Service is the port of the listener, there and at the pods. -/
theorem Slot.service_port {svc : Service} (h : slot.service owner l = .ok svc) :
    ∃ p : ServicePort, svc.ports.getD [] = [p] ∧ p.port = l.1.port ∧ p.target = l.1.port := by
  cases slot with
  | bootstrap =>
    obtain ⟨ref, -, hsvc⟩ := bind_eq_ok.mp h
    cases hsvc
    exact ⟨_, rfl, rfl, rfl⟩
  | broker b =>
    obtain ⟨ref, -, hsvc⟩ := bind_eq_ok.mp h
    cases hsvc
    exact ⟨_, rfl, rfl, rfl⟩

/-- The Service of a slot sends to its pods, at the port of the listener. -/
theorem Slot.service_sends {svc : Service} (h : slot.service owner l = .ok svc) {ref : PortRef}
    (href : ref = .number l.1.port ∨ ref = .target l.1.port) {pod : Pod} {target : Int} :
    svc.Sends ref pod target ↔ slot.Selects owner pod ∧ target = l.1.port := by
  obtain ⟨p, hports, hport, htarget⟩ := service_port h
  have hpicks : ref.Picks p := by
    rcases href with rfl | rfl
    · exact hport
    · exact htarget
  rw [Service.Sends, service_selects h, hports]
  simp [hpicks, htarget, eq_comm]

theorem Slot.ingress_eq {l : Listener} {ing : Ingress}
    (h : slot.ingress classOf owner l host = .ok ing) : ing.className = classOf l ∧
      ing.rules = [⟨host, [⟨"/", "Prefix", slot.objectName owner l, .number l.port⟩]⟩] := by
  cases slot with
  | bootstrap =>
    obtain ⟨ref, -, hing⟩ := bind_eq_ok.mp h
    cases hing
    exact ⟨rfl, rfl⟩
  | broker b =>
    obtain ⟨ref, -, hing⟩ := bind_eq_ok.mp h
    cases hing
    exact ⟨rfl, rfl⟩

theorem Slot.route_eq {l : Listener} {rt : Route} (h : slot.route owner l host = .ok rt) :
    rt.host = host ∧ rt.service = slot.objectName owner l ∧ rt.port = .target l.port := by
  cases slot with
  | bootstrap =>
    obtain ⟨ref, -, hrt⟩ := bind_eq_ok.mp h
    cases hrt
    exact ⟨rfl, rfl, rfl⟩
  | broker b =>
    obtain ⟨ref, -, hrt⟩ := bind_eq_ok.mp h
    cases hrt
    exact ⟨rfl, rfl, rfl⟩

/-- Every object of a cluster can be rendered when it has an owner. -/
theorem Slot.render_ok (classOf : Listener → Option String) {ref : OwnerReference}
    (h : Network.ownerRef owner = .ok ref) (slot : Slot) (l : ExternalListener) (host : String) :
    (∃ svc, slot.service owner l = .ok svc) ∧
      (∃ ing, slot.ingress classOf owner l.1 host = .ok ing) ∧
        ∃ rt, slot.route owner l.1 host = .ok rt := by
  cases slot with
  | bootstrap =>
    exact ⟨⟨_, bind_eq_ok.mpr ⟨ref, h, rfl⟩⟩, ⟨_, bind_eq_ok.mpr ⟨ref, h, rfl⟩⟩,
      ⟨_, bind_eq_ok.mpr ⟨ref, h, rfl⟩⟩⟩
  | broker b =>
    exact ⟨⟨_, bind_eq_ok.mpr ⟨ref, h, rfl⟩⟩, ⟨_, bind_eq_ok.mpr ⟨ref, h, rfl⟩⟩,
      ⟨_, bind_eq_ok.mpr ⟨ref, h, rfl⟩⟩⟩

end Rendered

/-! ## Where an advertised host leads -/

/-- What serves a listener from outside. -/
def routerOf (classOf : Listener → Option String) (l : Listener) : Option Router :=
  match l.type with
  | .ingress => some (.ingress (classOf l))
  | .route => some .openshift
  | _ => none

/-- Whatever takes a host was applied now: no earlier object of another name has it. -/
def Current (w : Frontends) (objs : List Applied) (host : String) : Router → Prop
  | .ingress className => ∀ (name : String) (ing : Ingress), w.ingresses[name]? = some ing →
      ing.className = className → (∃ rule ∈ ing.rules, rule.host = host) → .ingress name ing ∈ objs
  | .openshift => ∀ (name : String) (rt : Route), w.routes[name]? = some rt → rt.host = host →
      .route name rt ∈ objs

section Lead

variable {classOf : Listener → Option String} {owner : Kafka} {brokers : List NodeInfo}
  {ruleParses : String → Bool} {objs : List Applied} {w : Frontends}

/-- What a pass over the listeners has applied. -/
structure Pass (classOf : Listener → Option String) (owner : Kafka) (brokers : List NodeInfo)
    (objs : List Applied) : Prop where
  valid : ∃ ruleParses, validateListeners ruleParses (userListeners owner.spec)
    owner.spec.interBrokerListenerName = .ok ()
  distinct : Distinct brokers
  applied : applyExternalServices classOf owner brokers (effectiveListeners owner.spec) = .ok objs

theorem Pass.eq_of_name_eq (h : Pass classOf owner brokers objs) {l l' : ExternalListener}
    (hl : l.1 ∈ effectiveListeners owner.spec) (hl' : l'.1 ∈ effectiveListeners owner.spec)
    (hname : l.1.name = l'.1.name) : l = l' := by
  obtain ⟨ruleParses, hvalid⟩ := h.valid
  exact Subtype.ext (eq_of_mem_effectiveListeners hvalid hl hl' hname)

/-- The listener of the operator is internal. -/
theorem mem_userListeners_of_external {spec : KafkaSpec} {l : ExternalListener}
    (hl : l.1 ∈ effectiveListeners spec) : l.1 ∈ userListeners spec := by
  rcases List.mem_append.mp hl with hl | hl
  · exact hl
  · have htype : l.1.type = .internal := by
      rw [List.mem_singleton.mp hl]
      rfl
    exact absurd htype l.2

theorem Pass.eq_of_port_eq (h : Pass classOf owner brokers objs) {l l' : ExternalListener}
    (hl : l.1 ∈ effectiveListeners owner.spec) (hl' : l'.1 ∈ effectiveListeners owner.spec)
    (hport : l.1.port = l'.1.port) : l = l' := by
  obtain ⟨ruleParses, hvalid⟩ := h.valid
  exact Subtype.ext (Listeners.eq_of_port_eq hvalid (mem_userListeners_of_external hl)
    (mem_userListeners_of_external hl') hport)

/-- A slot of an external listener. -/
structure At (owner : Kafka) (brokers : List NodeInfo) (l : ExternalListener) (slot : Slot) :
    Prop where
  listener : l.1 ∈ effectiveListeners owner.spec
  slot : slot.In brokers

theorem Pass.eq_of_objectName (h : Pass classOf owner brokers objs) {l l' : ExternalListener}
    {slot slot' : Slot} (hat : At owner brokers l slot) (hat' : At owner brokers l' slot')
    (hname : slot.objectName owner l.1 = slot'.objectName owner l'.1) : l = l' ∧ slot = slot' := by
  obtain ⟨hlistener, hslot⟩ := Slot.objectName_injective h.distinct hat.slot hat'.slot hname
  exact ⟨h.eq_of_name_eq hat.listener hat'.listener hlistener, hslot⟩

theorem Pass.mem_service (h : Pass classOf owner brokers objs) {name : String} {svc : Service} :
    .service name svc ∈ objs ↔ ∃ l slot, At owner brokers l slot ∧
      name = slot.objectName owner l.1 ∧ slot.service owner l = .ok svc := by
  rw [mem_applyExternalServices h.applied]
  constructor
  · rintro ⟨l, hl, hobject⟩
    cases hobject with
    | service hslot hsvc => exact ⟨l, _, ⟨hl, hslot⟩, rfl, hsvc⟩
  · rintro ⟨l, slot, hat, rfl, hsvc⟩
    exact ⟨l, hat.listener, .service hat.slot hsvc⟩

theorem Pass.mem_ingress (h : Pass classOf owner brokers objs) {name : String} {ing : Ingress} :
    .ingress name ing ∈ objs ↔ ∃ l slot host, At owner brokers l slot ∧ l.1.type = .ingress ∧
      slot.host l.1 = some host ∧ name = slot.objectName owner l.1 ∧
        slot.ingress classOf owner l.1 host = .ok ing := by
  rw [mem_applyExternalServices h.applied]
  constructor
  · rintro ⟨l, hl, hobject⟩
    cases hobject with
    | ingress htype hslot hhost hing => exact ⟨l, _, _, ⟨hl, hslot⟩, htype, hhost, rfl, hing⟩
  · rintro ⟨l, slot, host, hat, htype, hhost, rfl, hing⟩
    exact ⟨l, hat.listener, .ingress htype hat.slot hhost hing⟩

theorem Pass.mem_route (h : Pass classOf owner brokers objs) {name : String} {rt : Route} :
    .route name rt ∈ objs ↔ ∃ l slot host, At owner brokers l slot ∧ l.1.type = .route ∧
      slot.host l.1 = some host ∧ name = slot.objectName owner l.1 ∧
        slot.route owner l.1 host = .ok rt := by
  rw [mem_applyExternalServices h.applied]
  constructor
  · rintro ⟨l, hl, hobject⟩
    cases hobject with
    | route htype hslot hhost hrt => exact ⟨l, _, _, ⟨hl, hslot⟩, htype, hhost, rfl, hrt⟩
  · rintro ⟨l, slot, host, hat, htype, hhost, rfl, hrt⟩
    exact ⟨l, hat.listener, .route htype hat.slot hhost hrt⟩

theorem mem_services {name : String} {svc : Service} :
    (name, svc) ∈ objs.filterMap Applied.service? ↔ .service name svc ∈ objs := by
  simp only [List.mem_filterMap]
  constructor
  · rintro ⟨obj, hobj, heq⟩
    cases obj with
    | service name' svc' =>
      cases heq
      exact hobj
    | ingress name' ing => cases heq
    | route name' rt => cases heq
  · exact fun hobj => ⟨_, hobj, rfl⟩

theorem mem_ingresses {name : String} {ing : Ingress} :
    (name, ing) ∈ objs.filterMap Applied.ingress? ↔ .ingress name ing ∈ objs := by
  simp only [List.mem_filterMap]
  constructor
  · rintro ⟨obj, hobj, heq⟩
    cases obj with
    | ingress name' ing' =>
      cases heq
      exact hobj
    | service name' svc => cases heq
    | route name' rt => cases heq
  · exact fun hobj => ⟨_, hobj, rfl⟩

theorem mem_routes {name : String} {rt : Route} :
    (name, rt) ∈ objs.filterMap Applied.route? ↔ .route name rt ∈ objs := by
  simp only [List.mem_filterMap]
  constructor
  · rintro ⟨obj, hobj, heq⟩
    cases obj with
    | route name' rt' =>
      cases heq
      exact hobj
    | service name' svc => cases heq
    | ingress name' ing => cases heq
  · exact fun hobj => ⟨_, hobj, rfl⟩

/-- What is applied stays until it is applied again. -/
theorem Pass.services (h : Pass classOf owner brokers objs) {name : String} {svc : Service}
    (hmem : .service name svc ∈ objs) : (w.applyAll objs).services[name]? = some svc := by
  refine (BTreeMap.getElem?_applyAll fun k v v' hv hv' => ?_).mpr (.inl (mem_services.mpr hmem))
  obtain ⟨l, slot, hat, hname, hsvc⟩ := h.mem_service.mp (mem_services.mp hv)
  obtain ⟨l', slot', hat', hname', hsvc'⟩ := h.mem_service.mp (mem_services.mp hv')
  obtain ⟨rfl, rfl⟩ := h.eq_of_objectName hat hat' (hname.symm.trans hname')
  exact Except.ok.inj (hsvc.symm.trans hsvc')

theorem Pass.ingresses (h : Pass classOf owner brokers objs) {name : String} {ing : Ingress}
    (hmem : .ingress name ing ∈ objs) : (w.applyAll objs).ingresses[name]? = some ing := by
  refine (BTreeMap.getElem?_applyAll fun k v v' hv hv' => ?_).mpr (.inl (mem_ingresses.mpr hmem))
  obtain ⟨l, slot, host, hat, -, hhost, hname, hing⟩ := h.mem_ingress.mp (mem_ingresses.mp hv)
  obtain ⟨l', slot', host', hat', -, hhost', hname', hing'⟩ :=
    h.mem_ingress.mp (mem_ingresses.mp hv')
  obtain ⟨rfl, rfl⟩ := h.eq_of_objectName hat hat' (hname.symm.trans hname')
  obtain rfl : host = host' := Option.some.inj (hhost.symm.trans hhost')
  exact Except.ok.inj (hing.symm.trans hing')

theorem Pass.routes (h : Pass classOf owner brokers objs) {name : String} {rt : Route}
    (hmem : .route name rt ∈ objs) : (w.applyAll objs).routes[name]? = some rt := by
  refine (BTreeMap.getElem?_applyAll fun k v v' hv hv' => ?_).mpr (.inl (mem_routes.mpr hmem))
  obtain ⟨l, slot, host, hat, -, hhost, hname, hrt⟩ := h.mem_route.mp (mem_routes.mp hv)
  obtain ⟨l', slot', host', hat', -, hhost', hname', hrt'⟩ := h.mem_route.mp (mem_routes.mp hv')
  obtain ⟨rfl, rfl⟩ := h.eq_of_objectName hat hat' (hname.symm.trans hname')
  obtain rfl : host = host' := Option.some.inj (hhost.symm.trans hhost')
  exact Except.ok.inj (hrt.symm.trans hrt')

theorem Pass.ownerRef (h : Pass classOf owner brokers objs) {l : ExternalListener}
    (hl : l.1 ∈ effectiveListeners owner.spec) :
    ∃ ref, Network.ownerRef owner = .ok ref := by
  obtain ⟨lists, hlists, -⟩ := Checks.bind_eq_ok.mp h.applied
  obtain ⟨list, -, hobjects⟩ := Checks.exists_of_mapM_eq_ok hlists (mem_externalListeners.mpr hl)
  obtain ⟨boot, hboot, -⟩ := Checks.bind_eq_ok.mp hobjects
  obtain ⟨svc, hsvc, -⟩ := map_eq_ok.mp hboot
  obtain ⟨ref, href, -⟩ := Checks.bind_eq_ok.mp hsvc
  exact ⟨ref, href⟩

/-- The port of the Service in the objects of a listener. -/
def backendPort (l : Listener) : PortRef :=
  if l.type = .route then .target l.port else .number l.port

/-- A host leads to the pods of its slot. -/
theorem Pass.sends_of (h : Pass classOf owner brokers objs) {l : ExternalListener} {slot : Slot}
    (hat : At owner brokers l slot) {router : Router} (hrouter : routerOf classOf l.1 = some router)
    {host : String} (hhost : slot.host l.1 = some host) {pod : Pod}
    (hpod : slot.Selects owner pod) : (w.applyAll objs).Sends router host pod l.1.port := by
  obtain ⟨ref, href⟩ := h.ownerRef hat.listener
  obtain ⟨⟨svc, hsvc⟩, ⟨ing, hing⟩, rt, hrt⟩ := Slot.render_ok classOf href slot l host
  have hservice : (w.applyAll objs).services[slot.objectName owner l.1]? = some svc :=
    h.services (h.mem_service.mpr ⟨l, slot, hat, rfl, hsvc⟩)
  refine ⟨slot.objectName owner l.1, backendPort l.1, svc, ?_, hservice, ?_⟩
  · unfold routerOf at hrouter
    cases htype : l.1.type with
    | ingress =>
      simp only [htype, Option.some.injEq] at hrouter
      subst hrouter
      obtain ⟨hclass, hrules⟩ := Slot.ingress_eq hing
      rw [← hclass]
      exact .ingress (h.ingresses (h.mem_ingress.mpr ⟨l, slot, host, hat, htype, hhost, rfl, hing⟩))
        (by rw [hrules]; exact List.mem_cons_self) List.mem_cons_self rfl rfl
        (by simp [backendPort, htype])
    | route =>
      simp only [htype, Option.some.injEq] at hrouter
      subst hrouter
      obtain ⟨hrthost, hrtservice, hport⟩ := Slot.route_eq hrt
      exact .route (h.routes (h.mem_route.mpr ⟨l, slot, host, hat, htype, hhost, rfl, hrt⟩)) hrthost
        hrtservice (by simp [backendPort, htype, hport])
    | internal => simp [htype] at hrouter
    | nodeport => simp [htype] at hrouter
    | loadbalancer => simp [htype] at hrouter
  · refine (Slot.service_sends hsvc ?_).mpr ⟨hpod, rfl⟩
    unfold backendPort
    split
    · exact .inr rfl
    · exact .inl rfl

/-- Where a host leads that no earlier object has. -/
theorem Pass.sends_iff (h : Pass classOf owner brokers objs) {router : Router} {host : String}
    (hcurrent : Current (w.applyAll objs) objs host router) {pod : Pod} {target : Int} :
    (w.applyAll objs).Sends router host pod target ↔ ∃ l slot, At owner brokers l slot ∧
      routerOf classOf l.1 = some router ∧ slot.host l.1 = some host ∧ slot.Selects owner pod ∧
        target = l.1.port := by
  constructor
  · rintro ⟨service, ref, svc, htakes, hservice, hsends⟩
    -- The object is one of this pass, and so is the Service behind it.
    have hown (l : ExternalListener) (slot : Slot) (hat : At owner brokers l slot)
        (hname : slot.objectName owner l.1 = service)
        (hport : ref = .number l.1.port ∨ ref = .target l.1.port) :
        slot.Selects owner pod ∧ target = l.1.port := by
      obtain ⟨oref, horef⟩ := h.ownerRef hat.listener
      obtain ⟨svc', hsvc'⟩ := (Slot.render_ok classOf horef slot l host).1
      have hlookup := h.services (w := w) (h.mem_service.mpr ⟨l, slot, hat, rfl, hsvc'⟩)
      rw [hname, hservice] at hlookup
      obtain rfl : svc = svc' := Option.some.inj hlookup
      exact (Slot.service_sends hsvc' hport).mp hsends
    cases htakes with
    | ingress hing hrule hpath hhost hserv hport =>
      obtain ⟨l, slot, host', hat, htype, hslot, -, hrender⟩ :=
        h.mem_ingress.mp (hcurrent _ _ hing rfl ⟨_, hrule, hhost⟩)
      obtain ⟨hclass, hrules⟩ := Slot.ingress_eq hrender
      rw [hrules, List.mem_singleton] at hrule
      subst hrule
      obtain rfl : host' = host := hhost
      rw [List.mem_singleton.mp hpath] at hserv hport
      refine ⟨l, slot, hat, ?_, hslot, hown l slot hat hserv (.inl hport.symm)⟩
      rw [hclass, routerOf, htype]
    | route hrt hhost hserv hport =>
      obtain ⟨l, slot, host', hat, htype, hslot, -, hrender⟩ :=
        h.mem_route.mp (hcurrent _ _ hrt hhost)
      obtain ⟨hrthost, hrtservice, hrtport⟩ := Slot.route_eq hrender
      obtain rfl : host' = host := hrthost.symm.trans hhost
      refine ⟨l, slot, hat, ?_, hslot, hown l slot hat (hrtservice.symm.trans hserv)
        (.inr (hport.symm.trans hrtport))⟩
      rw [routerOf, htype]
  · rintro ⟨l, slot, hat, hrouter, hhost, hpod, rfl⟩
    exact h.sends_of hat hrouter hhost hpod

end Lead

section Advertised

variable {classOf : Listener → Option String} {owner : Kafka} {ns : String}
  {pools : List KafkaNodePool} {ruleParses : String → Bool} {objs : List Applied} {w : Frontends}
  {l : ExternalListener} {b : NodeInfo} {router : Router}

theorem computeAdvertised_host (hrouter : routerOf classOf l.1 = some router) {id : Int}
    {podFqdn : String} {podNodeName : Option String} {nodes : BTreeMap Node}
    {service : Option Service} {addr : AdvertisedAddress}
    (h : computeAdvertised l.1 id podFqdn podNodeName nodes service = .ok addr) :
    ingressBrokerHost l.1 id = some addr.host := by
  unfold routerOf at hrouter
  unfold computeAdvertised at h
  cases htype : l.1.type with
  | ingress =>
    simp only [htype] at h
    cases hhost : ingressBrokerHost l.1 id with
    | none => simp [hhost] at h
    | some host =>
      simp only [hhost, Except.ok.injEq] at h
      rw [← h]
  | route =>
    simp only [htype] at h
    cases hhost : ingressBrokerHost l.1 id with
    | none => simp [hhost] at h
    | some host =>
      simp only [hhost, Except.ok.injEq] at h
      rw [← h]
  | internal => simp [htype] at hrouter
  | nodeport => simp [htype] at hrouter
  | loadbalancer => simp [htype] at hrouter

/-- A client that connects to the host that a broker advertises for an Ingress or a Route reaches
    the pod of that broker, at the port of the listener. Where no object is left from before, and
    no bootstrap host is the same, it reaches nothing else just when no other running broker has
    the host on a listener with the same router. -/
theorem advertised_host_leads_home
    (hvalid : validateListeners ruleParses (userListeners owner.spec)
      owner.spec.interBrokerListenerName = .ok ())
    (hpools : PoolsApart owner.name ns pools)
    (happlied : applyExternalServices classOf owner (brokerNodes owner.name ns pools)
      (effectiveListeners owner.spec) = .ok objs)
    (hl : l.1 ∈ effectiveListeners owner.spec) (hb : b ∈ brokerNodes owner.name ns pools)
    (hrouter : routerOf classOf l.1 = some router) {podFqdn : String} {podNodeName : Option String}
    {nodes : BTreeMap Node} {service : Option Service} {addr : AdvertisedAddress}
    (haddr : computeAdvertised l.1 b.brokerId podFqdn podNodeName nodes service = .ok addr) :
    (∀ pod, (Slot.broker b).Selects owner pod →
      (w.applyAll objs).Sends router addr.host pod l.1.port) ∧
    (Current (w.applyAll objs) objs addr.host router →
      (∀ l' : ExternalListener, l'.1 ∈ effectiveListeners owner.spec →
        routerOf classOf l'.1 = some router → ingressBootstrapHost l'.1 ≠ some addr.host) →
      ∀ pods : List Pod,
        (∀ pod ∈ pods, ∀ target, (w.applyAll objs).Sends router addr.host pod target →
          (Slot.broker b).Selects owner pod ∧ target = l.1.port) ↔
        ∀ l' : ExternalListener, l'.1 ∈ effectiveListeners owner.spec →
          ∀ b' ∈ brokerNodes owner.name ns pools, routerOf classOf l'.1 = some router →
            ingressBrokerHost l'.1 b'.brokerId = some addr.host →
              (∃ pod ∈ pods, (Slot.broker b').Selects owner pod) → l' = l ∧ b' = b) := by
  have hpass : Pass classOf owner (brokerNodes owner.name ns pools) objs :=
    ⟨⟨ruleParses, hvalid⟩, hpools.distinct, happlied⟩
  have hhost := computeAdvertised_host hrouter haddr
  constructor
  · have hat : At owner (brokerNodes owner.name ns pools) l (.broker b) := ⟨hl, hb⟩
    exact fun pod hpod => hpass.sends_of hat hrouter hhost hpod
  · intro hcurrent hbootstrap pods
    constructor
    · rintro hhome l' hl' b' hb' hrouter' hhost' ⟨pod, hpod, hselects⟩
      have hat' : At owner (brokerNodes owner.name ns pools) l' (.broker b') := ⟨hl', hb'⟩
      obtain ⟨hself, hport⟩ :=
        hhome pod hpod l'.1.port (hpass.sends_of hat' hrouter' hhost' hselects)
      exact ⟨hpass.eq_of_port_eq hl' hl hport,
        hpools.distinct.pods b' hb' b hb (Option.some.inj (hselects.symm.trans hself))⟩
    · intro hsole pod hpod target hsends
      obtain ⟨l', slot, hat, hrouter', hhost', hselects, htarget⟩ :=
        (hpass.sends_iff hcurrent).mp hsends
      cases slot with
      | bootstrap => exact absurd hhost' (hbootstrap l' hat.listener hrouter')
      | broker b' =>
        obtain ⟨rfl, rfl⟩ :=
          hsole l' hat.listener b' hat.slot hrouter' hhost' ⟨pod, hpod, hselects⟩
        exact ⟨hselects, htarget⟩

end Advertised

/-! ## Two brokers behind an Ingress -/

namespace Sample

/-- A listener with a host for each of two brokers. -/
def ingressListener : ExternalListener :=
  ⟨{ name := "external"
     port := 9094
     type := .ingress
     tls := true
     configuration := some
      { bootstrap := some { host := some "kafka.example" }
        brokers :=
          [{ broker := 0, host := some "b0.example" },
            { broker := 1, host := some "b1.example" }] } },
    by decide⟩

def ingressKafka : Kafka :=
  { Kafka.minimal "demo" with
    spec :=
      { listeners := [⟨"plain", 9092, .internal, false, none, none, none⟩, ingressListener.1] } }

def ingressPools : List KafkaNodePool :=
  [{ name := "a", labels := ∅, spec := ⟨2, 0, [.broker]⟩, status := none }]

def secondBroker : NodeInfo where
  brokerId := 1
  podName := "demo-a-1"
  podFqdn := "demo-a-1.demo-broker-headless.default.svc.cluster.local"
  roles := [.broker]

def secondPod : Pod where
  name := "demo-a-1"
  labels := BTreeMap.ofList [("statefulset.kubernetes.io/pod-name", "demo-a-1")]
  annotations := ∅
  spec := none

end Sample

theorem advertised_host_leads_home_second : ∃ objs,
    applyExternalServices (fun _ => some "nginx") Sample.ingressKafka
      (brokerNodes "demo" "default" Sample.ingressPools)
      (effectiveListeners Sample.ingressKafka.spec) = .ok objs ∧
    (({} : Frontends).applyAll objs).Sends (.ingress (some "nginx")) "b1.example" Sample.secondPod
      9094 := by
  obtain ⟨objs, happlied⟩ : ∃ objs, applyExternalServices (fun _ => some "nginx")
    Sample.ingressKafka (brokerNodes "demo" "default" Sample.ingressPools)
    (effectiveListeners Sample.ingressKafka.spec) = .ok objs := ⟨_, rfl⟩
  have hhome := advertised_host_leads_home (b := Sample.secondBroker) (l := Sample.ingressListener)
    (w := {})
    (show validateListeners (fun _ => true) (userListeners Sample.ingressKafka.spec) none = .ok ()
      by decide)
    (show PoolsApart "demo" "default" Sample.ingressPools from ⟨by decide, by decide, by decide⟩)
    happlied (by decide) (by decide) rfl
    (show computeAdvertised Sample.ingressListener.1 1 "" none ∅ none = .ok ⟨"b1.example", 443⟩
      by decide)
  exact ⟨objs, happlied, hhome.1 Sample.secondPod
    (show Sample.secondPod.labels["statefulset.kubernetes.io/pod-name"]? = some "demo-a-1"
      by decide)⟩

end Cluster
