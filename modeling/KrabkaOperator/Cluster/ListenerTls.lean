-- SUMMARY: The listener TLS phase of a pass: which leaf names it asks for, and what it does to the leaf of a broker whose load balancer shows no address.
import KrabkaOperator.Cluster.Reconcile
import KrabkaOperator.ClusterCa.KeystoreHealing
import KrabkaOperator.Listeners.Addresses

/-!
# Listener TLS

A pass observes the external addresses, collects the extra names of each broker and
calls the keystore program. A broker whose names are not ready is asked for without
extra names.
-/

namespace Cluster

open Kube Crd Operator ClusterCa Listeners

variable (lib : CaLib) (pass : KafkaPass) (pools : List KafkaNodePool) (view : ListenerView)

/-! ## The phase -/

def nodesOf : List NodeInfo :=
  enumerateNodes pass.kafka.name (pass.kafka.ns.getD "default") pools

def brokersOf : List NodeInfo := (nodesOf pass pools).filter (.broker ∈ ·.roles)

def brokerIdsOf : List Int := (brokersOf pass pools).map (·.brokerId)

/-- What the pass observes. -/
def observedOf : ListenerObservedAddresses :=
  observeListenerAddresses view pass.kafka.name (effectiveListeners pass.kafka.spec)
    (brokerIdsOf pass pools)

/-- The extra names of the brokers whose names are ready. Of two entries for one id the later one
    counts, so it comes first. -/
def extraSansOf : List (Int × List SubjectAltName) :=
  ((brokersOf pass pools).filterMap fun node =>
    (computeExtraSans lib node.brokerId (effectiveListeners pass.kafka.spec)
      (observedOf pass pools view)).toOption.map fun sans => (node.brokerId, sans)).reverse

/-- The brokers whose names are not ready, each with the first listener that waits. -/
def loadBalancerPending : List (Int × String) :=
  (brokersOf pass pools).filterMap fun node =>
    match computeExtraSans lib node.brokerId (effectiveListeners pass.kafka.spec)
      (observedOf pass pools view) with
    | .ok _ => none
    | .error pending => some (pending.brokerId, pending.listener)

/-- The pass with the names that it observes. -/
def KafkaPass.withView : KafkaPass := { pass with extraSans := extraSansOf lib pass pools view }

/-- The leafs that the pass asks for. -/
def tlsRequests : List BrokerCertRequest := certRequests (pass.withView lib pools view) pools

structure ListenerTlsArtifacts where
  loadBalancerPending : List (Int × String)
  leafMaterial : List Char
  deriving DecidableEq, Repr

def prepareListenerTls (artifacts : CaArtifacts) : Op ListenerTlsArtifacts := do
  effect .observeListenerAddresses
  let keystore ← ensureBrokerKeystore lib pass.kafka (tlsRequests lib pass pools view)
    artifacts.cluster.signingMaterial artifacts.cluster.leafTransition.requiresReissue
  pure ⟨loadBalancerPending lib pass pools view, keystore.leafMaterial⟩

/-- The phase is the part of a pass before its external Services. -/
theorem reconcileValidListenerResources_withView (artifacts : CaArtifacts) :
    reconcileValidListenerResources lib (pass.withView lib pools view) pools artifacts = (do
      let tls ← prepareListenerTls lib pass pools view artifacts
      effect .externalListenerState
      if pass.addressesResolved then effect .applyConfigMap
      adoptPools pass.kafka pools
        (Config.rolloutConfigHash lib artifacts.configHash tls.leafMaterial)) := by
  simp only [reconcileValidListenerResources, prepareListenerTls, Prog.bind_assoc, Prog.pure_eq,
    Prog.ret_bind]
  rfl

/-! ## The names of a broker -/

section Names

variable {lib pass pools view}

/-- The entries of a function of the key. -/
theorem lookup_of_functional {β : Type} {g : Int → Option β} {entries : List (Int × β)} {k : Int}
    (h : ∀ e ∈ entries, g e.1 = some e.2) :
    entries.lookup k = if k ∈ entries.map (·.1) then g k else none := by
  induction entries with
  | nil => rfl
  | cons e es ih =>
    obtain ⟨he, hes⟩ := List.forall_mem_cons.mp h
    rw [List.lookup_cons, List.map_cons, ih hes]
    by_cases hk : k = e.1
    · subst hk
      simp [he]
    · have hbeq : (k == e.1) = false := by simpa using hk
      simp only [hbeq, List.mem_cons, hk, false_or]

theorem lookup_extraSansOf {node : NodeInfo} (hnode : node ∈ brokersOf pass pools) :
    (extraSansOf lib pass pools view).lookup node.brokerId =
      (computeExtraSans lib node.brokerId (effectiveListeners pass.kafka.spec)
        (observedOf pass pools view)).toOption := by
  have hentries : ∀ e ∈ extraSansOf lib pass pools view,
      (computeExtraSans lib e.1 (effectiveListeners pass.kafka.spec)
        (observedOf pass pools view)).toOption = some e.2 := by
    intro e he
    rw [extraSansOf, List.mem_reverse] at he
    obtain ⟨node', -, he⟩ := List.mem_filterMap.mp he
    obtain ⟨sans, hsans, rfl⟩ := Option.map_eq_some_iff.mp he
    exact hsans
  rw [lookup_of_functional (g := fun id => (computeExtraSans lib id
    (effectiveListeners pass.kafka.spec) (observedOf pass pools view)).toOption) hentries]
  split
  · rfl
  · next hnot =>
    refine (Option.eq_none_iff_forall_ne_some.mpr fun sans hsans => hnot ?_).symm
    refine List.mem_map.mpr ⟨(node.brokerId, sans), ?_, rfl⟩
    rw [extraSansOf, List.mem_reverse]
    exact List.mem_filterMap.mpr ⟨node, hnode, Option.map_eq_some_iff.mpr ⟨sans, hsans, rfl⟩⟩

/-- The request of a node. -/
def tlsRequest (lib : CaLib) (pass : KafkaPass) (pools : List KafkaNodePool) (view : ListenerView)
    (node : NodeInfo) : BrokerCertRequest :=
  certRequest (pass.withView lib pools view) (pass.kafka.ns.getD "default") node

theorem mem_brokersOf {node : NodeInfo} :
    node ∈ brokersOf pass pools ↔ node ∈ nodesOf pass pools ∧ .broker ∈ node.roles := by
  rw [brokersOf, List.mem_filter, decide_eq_true_eq]

theorem tlsRequest_mem {node : NodeInfo} (hnode : node ∈ brokersOf pass pools) :
    tlsRequest lib pass pools view node ∈ tlsRequests lib pass pools view :=
  List.mem_map_of_mem (mem_brokersOf.mp hnode).1

theorem tlsRequest_extraSans {node : NodeInfo} (hnode : node ∈ brokersOf pass pools) :
    (tlsRequest lib pass pools view node).extraSans =
      (computeExtraSans lib node.brokerId (effectiveListeners pass.kafka.spec)
        (observedOf pass pools view)).toOption.getD [] := by
  have hrole := (mem_brokersOf.mp hnode).2
  simp only [tlsRequest, certRequest, KafkaPass.withView, if_pos hrole, lookup_extraSansOf hnode]

end Names

/-! ## A broker without an address -/

section Unobserved

variable {lib pass pools view} {ca : CaMaterial} {force : Bool} {P : Int → Prop} {w : World}
  {l : Listener} {node : NodeInfo} {covered : List SubjectAltName}

/-- The names that the pass asks for when the load balancer of a listener shows no address of the
    broker. -/
def leftOver (pass : KafkaPass) (pools : List KafkaNodePool) (view : ListenerView) (l : Listener)
    (node : NodeInfo) : List SubjectAltName :=
  leftSans view pass.kafka.name (effectiveListeners pass.kafka.spec) (brokerIdsOf pass pools)
    node.brokerId l

theorem digest_of_unobserved (hsan : lib.SanOrdered)
    (hl : l ∈ effectiveListeners pass.kafka.spec) (hlb : isTlsLoadBalancer l = true)
    (hnode : node ∈ brokersOf pass pools)
    (hnone : view.ingress (brokerServiceName pass.kafka.name l.name node.brokerId) = [])
    (sans : List SubjectAltName) :
    computeSanDigest lib sans (tlsRequest lib pass pools view node).extraSans =
      computeSanDigest lib sans (leftOver pass pools view l node) := by
  refine computeSanDigest_congr hsan fun san => ?_
  have hid : node.brokerId ∈ brokerIdsOf pass pools := List.mem_map_of_mem hnode
  rw [List.mem_append, List.mem_append, tlsRequest_extraSans hnode]
  exact or_congr_right (mem_computeExtraSans hl hlb hid hnone)

/-- A pass that sees no address of a broker at the load balancer of a TLS listener keeps the leaf that
    the broker has exactly if it is not forced, the leaf is not due, and the digest of the names that
    are left is the one that is stored. -/
theorem unobserved_spared_iff (hlib : lib.Lawful) (hsan : lib.SanOrdered)
    (hissue : Issues lib pass.kafka ca P (tlsRequests lib pass pools view))
    (hone : OneEach (tlsRequests lib pass pools view)) (huid : pass.kafka.uid.isSome = true)
    (hP : ∃ t, P t) (hl : l ∈ effectiveListeners pass.kafka.spec)
    (hlb : isTlsLoadBalancer l = true) (hnode : node ∈ brokersOf pass pools)
    (hnone : view.ingress (brokerServiceName pass.kafka.name l.name node.brokerId) = [])
    (hleaf : Complete lib (storedEntries w (brokerKeystoreName pass.kafka.name))
      { tlsRequest lib pass pools view node with extraSans := covered }) :
    let stored := storedEntries w (brokerKeystoreName pass.kafka.name)
    let req := tlsRequest lib pass pools view node
    Spares lib pass.kafka ca force P (tlsRequests lib pass pools view) req w ↔
      ((∀ req' ∈ tlsRequests lib pass pools view, Parses lib stored req') → force = false ∧
        computeSanDigest lib req.sans covered =
          computeSanDigest lib req.sans (leftOver pass pools view l node) ∧
        ∀ pem, stored[crtKey node.brokerId]? = some (.text pem) → ∀ t, P t →
          renewIfExpiring lib pem (WhichCa.spec .cluster pass.kafka).renewalDays t = .ok false) := by
  intro stored req
  rw [spares_iff hlib hissue hone huid hP (tlsRequest_mem hnode)]
  refine imp_congr_right fun _ => and_congr_right fun _ => ?_
  have hdigest : computeSanDigest lib req.sans req.extraSans =
      computeSanDigest lib req.sans (leftOver pass pools view l node) :=
    digest_of_unobserved hsan hl hlb hnode hnone _
  have hreusable : ∀ t, reusableAt lib pass.kafka stored req t = .ok true ↔
      computeSanDigest lib req.sans covered = computeSanDigest lib req.sans req.extraSans ∧
        ∀ pem, stored[crtKey node.brokerId]? = some (.text pem) →
          renewIfExpiring lib pem (WhichCa.spec .cluster pass.kafka).renewalDays t = .ok false :=
    fun t => hleaf.reusable_iff rfl
  rw [← hdigest]
  constructor
  · intro h
    obtain ⟨t, ht⟩ := hP
    exact ⟨((hreusable t).mp (h t ht)).1, fun pem hpem t' ht' =>
      ((hreusable t').mp (h t' ht')).2 pem hpem⟩
  · rintro ⟨hcovered, hwindow⟩ t ht
    exact (hreusable t).mpr ⟨hcovered, fun pem hpem => hwindow pem hpem t ht⟩

end Unobserved

/-! ## A load balancer that is asked twice -/

namespace Sample

/-- A cluster with one broker and a load balancer. -/
def lbPass : KafkaPass where
  kafka := { Kafka.minimal "demo" with
    spec := { (Kafka.minimal "demo").spec with
      listeners := [{ name := "plain", port := 9092, type := .internal },
        { name := "ext", port := 9094, type := .loadbalancer, tls := true }] } }

def lbListener : Listener := { name := "ext", port := 9094, type := .loadbalancer, tls := true }

def lbPools : List KafkaNodePool := [⟨"a", ∅, ⟨1, 0, [.broker]⟩, none, ∅, [], false⟩]

def lbNode : NodeInfo :=
  ⟨0, "demo-a-0", "demo-a-0.demo-broker-headless.default.svc.cluster.local", [.broker]⟩

/-- The load balancer has an address, and it is not read. -/
def shown : ListenerView :=
  ⟨[], fun name => .ok { name := some name, ingress := some [{ ip := some "10.0.0.9" }] }⟩

def unread : ListenerView := ⟨[], fun _ => .error .refused⟩

/-- The keystore call of a pass. -/
def lbCall (view : ListenerView) (w : World) :
    Prog.Outcome ReconcileError BrokerKeystoreStatus × World :=
  (ensureBrokerKeystore SampleLib.named lbPass.kafka (tlsRequests SampleLib.named lbPass lbPools view)
    ClusterCa.Sample.caOne false).run answer (List.replicate 4 {}) w

def lbCrt (w : World) : Option ByteString :=
  (storedEntries w (brokerKeystoreName "demo"))[crtKey 0]?

def rolloutHashOf (out : Prog.Outcome ReconcileError BrokerKeystoreStatus × World) : Option String :=
  match out.1 with
  | .done status => some (Config.rolloutConfigHash SampleLib.named "h" status.leafMaterial)
  | _ => none

end Sample

open Sample in
/-- A leaf without extra names stays while the address is not read. -/
theorem unobserved_spared_lbNode : ∃ status, (lbCall unread World.empty).1 = .done status ∧
    Spares SampleLib.named lbPass.kafka ClusterCa.Sample.caOne false (· = 0)
      (tlsRequests SampleLib.named lbPass lbPools unread)
      (tlsRequest SampleLib.named lbPass lbPools unread lbNode) (lbCall unread World.empty).2 := by
  obtain ⟨status, hdone, -⟩ := Prog.Outcome.exists_of_isDone (fun _ => true)
    (x := (lbCall unread World.empty).1) (by decide +kernel)
  have hone : OneEach (tlsRequests SampleLib.named lbPass lbPools unread) := by decide +kernel
  have hbroker : lbNode ∈ brokersOf lbPass lbPools := by decide +kernel
  have hissue : Issues SampleLib.named lbPass.kafka ClusterCa.Sample.caOne (· = 0)
      (tlsRequests SampleLib.named lbPass lbPools unread) := by
    intro req hreq d _
    have hformed : ∀ req ∈ tlsRequests SampleLib.named lbPass lbPools unread,
        (req.sans ++ req.extraSans).all SampleLib.wellFormed = true := by decide +kernel
    simp only [SampleLib.named, hformed req hreq, if_true]
    exact ⟨_, rfl⟩
  have hcomplete := complete_of_run SampleLib.named_lawful hone (tlsRequest_mem hbroker)
    (show lbCall unread World.empty = (.done status, (lbCall unread World.empty).2) from
      Prod.ext hdone rfl)
  refine ⟨status, hdone, (unobserved_spared_iff SampleLib.named_lawful SampleLib.named_sanOrdered
    hissue hone rfl ⟨0, rfl⟩ (l := lbListener) (by decide +kernel) rfl hbroker rfl hcomplete).mpr ?_⟩
  refine fun _ => ⟨rfl, by decide +kernel, ?_⟩
  rintro pem hpem t rfl
  have hcheck : ((lbCrt (lbCall unread World.empty).2).any fun b => b.utf8?.any fun pem =>
      decide (renewIfExpiring SampleLib.named pem 30 0 = .ok false)) = true := by decide +kernel
  rw [show lbCrt (lbCall unread World.empty).2 = some (.text pem) from hpem] at hcheck
  exact of_decide_eq_true hcheck

open Sample in
/-- The leaf that covers the address of the load balancer is replaced by one without it, and the rollout
    hash changes. -/
theorem covered_leaf_replaced :
    ¬ Spares SampleLib.named lbPass.kafka ClusterCa.Sample.caOne false (· = 0)
      (tlsRequests SampleLib.named lbPass lbPools unread)
      (tlsRequest SampleLib.named lbPass lbPools unread lbNode) (lbCall shown World.empty).2 ∧
    .ip (.v4 10 0 0 9) ∈ (tlsRequest SampleLib.named lbPass lbPools shown lbNode).extraSans ∧
    (tlsRequest SampleLib.named lbPass lbPools unread lbNode).extraSans = [] ∧
    loadBalancerPending SampleLib.named lbPass lbPools unread = [(0, "ext")] ∧
    lbCrt (lbCall unread (lbCall shown World.empty).2).2 ≠ lbCrt (lbCall shown World.empty).2 ∧
    rolloutHashOf (lbCall unread (lbCall shown World.empty).2) ≠
      rolloutHashOf (lbCall shown World.empty) := by
  refine ⟨fun hspares => ?_, by decide +kernel⟩
  obtain ⟨status, hdone, hissued⟩ := Prog.Outcome.exists_of_isDone (fun s => s.issued.contains 0)
    (x := (lbCall unread (lbCall shown World.empty).2).1) (by decide +kernel)
  refine (hspares (List.replicate 4 {}) status _ (fun c hc => ?_) (Prod.ext hdone rfl)).1
    (List.contains_iff_mem.mp hissued)
  obtain rfl := List.eq_of_mem_replicate hc
  rfl

end Cluster
