-- SUMMARY: Which connections the policy of a cluster lets through, and that the controller quorum is not among them.
import KrabkaOperator.Listeners.Distinct
import KrabkaOperator.Network.Policy

/-!
# Reachability

The rules of a policy are united, so its meaning is one condition on the source and
the port of a connection.
-/

namespace Network

open Kube Crd Operator Listeners

/-! ## Sources -/

def clusterNamespace (kafka : Kafka) : String := kafka.ns.getD "default"

/-- A pod of the cluster, by its namespace and its labels. -/
def IsClusterPod (kafka : Kafka) (p : PodAddress) : Prop :=
  p.ns.name = clusterNamespace kafka ∧ p.labels["app.kubernetes.io/name"]? = some appLabel ∧
    p.labels["app.kubernetes.io/instance"]? = some kafka.name

def FromCluster (kafka : Kafka) : Source → Prop
  | .pod p => IsClusterPod kafka p
  | .outside => False

/-- A pod of the operator. -/
def FromOperator (operatorNamespace : String) : Source → Prop
  | .pod p => p.ns.name = operatorNamespace ∧
      p.labels["app.kubernetes.io/component"]? = some operatorComponentLabel
  | .outside => False

/-- The sources that the peers of a listener admit. -/
def Admits (kafka : Kafka) (l : Listener) (s : Source) : Prop :=
  match l.networkPolicyPeers with
  | none => True
  | some peers => ∃ p ∈ peers, (toK8sPeer p).admits (clusterNamespace kafka) s = true

/-! ## Rules -/

theorem podSelector_selects {cluster : String} {labels : BTreeMap String} :
    (podSelector cluster).selects labels = true ↔
      labels["app.kubernetes.io/name"]? = some appLabel ∧
        labels["app.kubernetes.io/instance"]? = some cluster := by
  rw [podSelector, podMatch, LabelSelector.selects_ofList (by simp)]
  simp

theorem selects_single {k v : String} {labels : BTreeMap String} :
    LabelSelector.selects { matchLabels := BTreeMap.ofList [(k, v)] } labels = true ↔
      labels[k]? = some v := by
  rw [LabelSelector.selects_ofList (by simp)]
  simp

theorem selfPeer_admits {kafka : Kafka} {s : Source} :
    (selfPeer kafka.name).admits (clusterNamespace kafka) s = true ↔ FromCluster kafka s := by
  cases s with
  | outside => simp [NetworkPolicyPeer.admits, FromCluster]
  | pod p => simp [NetworkPolicyPeer.admits, FromCluster, IsClusterPod, selfPeer, podSelector_selects]

theorem operatorPeer_admits {operatorNamespace policyNs : String} {s : Source} :
    (operatorPeer operatorNamespace).admits policyNs s = true ↔ FromOperator operatorNamespace s := by
  cases s with
  | outside => simp [NetworkPolicyPeer.admits, FromOperator]
  | pod p =>
    simp [NetworkPolicyPeer.admits, FromOperator, operatorPeer, selects_single, Namespace.labels]

theorem portRule_allows {sources : List K8sPeer} {policyNs : String} {s : Source} {port p : Int} :
    (portRule sources port).allows policyNs s p = true ↔
      port = p ∧ (sources = [] ∨ ∃ peer ∈ sources, peer.admits policyNs s = true) := by
  simp [NetworkPolicyIngressRule.allows, portRule, and_comm]

theorem peerRule?_allows {kafka : Kafka} {operatorName : String} {l : Listener} {s : Source} {p : Int}
    (hname : l.name ≠ operatorName) :
    (∃ rule, peerRule? operatorName l = some rule ∧
      rule.allows (clusterNamespace kafka) s p = true) ↔ l.port = p ∧ Admits kafka l s := by
  unfold peerRule? Admits
  rw [if_neg hname]
  rcases l.networkPolicyPeers with _ | _ | ⟨peer, peers⟩
  · simp [portRule_allows]
  · simp
  · simp [portRule_allows]

/-! ## Policy -/

variable {kafka : Kafka} {operatorNamespace : String} {np : NetworkPolicy} {ruleParses : String → Bool}

theorem clusterPolicy_eq_ok (h : clusterPolicy kafka operatorNamespace = .ok np) :
    np.ns = kafka.ns ∧ np.podSelector = podSelector kafka.name ∧ np.policyTypes = ["Ingress"] ∧
      np.ingress = ingressRules kafka (effectiveListeners kafka.spec) (interBrokerPort kafka.spec)
        operatorNamespace kafka.spec.metricsConfig.isSome := by
  unfold clusterPolicy renderNetworkPolicy ownerRef at h
  cases huid : kafka.uid with
  | none =>
    rw [huid] at h
    cases h
  | some uid =>
    rw [huid] at h
    cases h
    exact ⟨rfl, rfl, rfl, rfl⟩

/-- Every pod of the cluster is under the policy. -/
theorem accepts_eq_any (h : clusterPolicy kafka operatorNamespace = .ok np) {t : PodAddress}
    (ht : IsClusterPod kafka t) {s : Source} {p : Int} :
    np.accepts t s p = np.ingress.any (·.allows (clusterNamespace kafka) s p) := by
  obtain ⟨hns, hsel, htypes, -⟩ := clusterPolicy_eq_ok h
  have hselects : np.selects t = true := by
    simp only [NetworkPolicy.selects, NetworkPolicy.namespace?, hns, hsel, Bool.and_eq_true,
      decide_eq_true_eq, podSelector_selects]
    exact ht
  unfold NetworkPolicy.accepts
  rw [hselects, htypes]
  simp [NetworkPolicy.namespace?, hns, clusterNamespace]

/-- What the policy lets through. -/
theorem accepts_iff (h : clusterPolicy kafka operatorNamespace = .ok np) {t : PodAddress}
    (ht : IsClusterPod kafka t) {s : Source} {p : Int} :
    np.accepts t s p = true ↔
      (FromCluster kafka s ∧ interBrokerPort kafka.spec = p) ∨
      (FromOperator operatorNamespace s ∧ ∃ l ∈ effectiveListeners kafka.spec, l.port = p) ∨
      (∃ l ∈ userListeners kafka.spec, l.port = p ∧ Admits kafka l s) ∨
      (kafka.spec.metricsConfig.isSome = true ∧ metricsPort = p) := by
  have huser : ∀ l ∈ userListeners kafka.spec,
      l.name ≠ (operatorListener (userListeners kafka.spec)).name := fun l hl heq =>
    operatorListener_name_not_mem (List.mem_map.mpr ⟨l, hl, heq⟩)
  have hpeers : (∃ rule ∈ (effectiveListeners kafka.spec).filterMap
        (peerRule? (operatorListener (userListeners kafka.spec)).name),
        rule.allows (clusterNamespace kafka) s p = true) ↔
      ∃ l ∈ userListeners kafka.spec, l.port = p ∧ Admits kafka l s := by
    have hoperator : peerRule? (operatorListener (userListeners kafka.spec)).name
        (operatorListener (userListeners kafka.spec)) = none := by
      rw [peerRule?, if_pos rfl]
    simp only [effectiveListeners, List.filterMap_append, List.filterMap_cons, hoperator,
      List.filterMap_nil, List.append_nil, List.mem_filterMap]
    constructor
    · rintro ⟨rule, ⟨l, hl, hrule⟩, hallows⟩
      exact ⟨l, hl, (peerRule?_allows (huser l hl)).mp ⟨rule, hrule, hallows⟩⟩
    · rintro ⟨l, hl, hadm⟩
      obtain ⟨rule, hrule, hallows⟩ := (peerRule?_allows (huser l hl)).mpr hadm
      exact ⟨rule, ⟨l, hl, hrule⟩, hallows⟩
  rw [accepts_eq_any h ht, (clusterPolicy_eq_ok h).2.2.2]
  simp only [ingressRules, List.any_append, Bool.or_eq_true, List.any_eq_true, hpeers, or_assoc]
  refine or_congr ?_ (or_congr ?_ (or_congr Iff.rfl ?_))
  · simp [portRule_allows, selfPeer_admits, and_comm]
  · simp only [List.mem_map, exists_exists_and_eq_and, portRule_allows, operatorPeer_admits,
      List.mem_singleton, exists_eq_left, false_or, List.cons_ne_self]
    constructor
    · rintro ⟨l, hl, hport, hop⟩
      exact ⟨hop, l, hl, hport⟩
    · rintro ⟨hop, l, hl, hport⟩
      exact ⟨l, hl, hport, hop⟩
  · cases hm : kafka.spec.metricsConfig.isSome with
    | false => simp
    | true => simp [portRule_allows]

/-! ## What the policy is for -/

/-- The sources that only the peers of a listener decide about. -/
def IsOther (kafka : Kafka) (operatorNamespace : String) (l : Listener) (s : Source) : Prop :=
  ¬ FromOperator operatorNamespace s ∧ (FromCluster kafka s → l.port ≠ interBrokerPort kafka.spec)

/-- The connections that a policy is meant to let through, for each pod of the cluster. -/
structure Reachable (kafka : Kafka) (operatorNamespace : String) (np : NetworkPolicy) : Prop where
  interBroker : ∀ t s, IsClusterPod kafka t → FromCluster kafka s →
    np.accepts t s (interBrokerPort kafka.spec) = true
  quorum : ∀ t s, IsClusterPod kafka t → FromCluster kafka s → np.accepts t s controllerPort = true
  operator : ∀ t s, IsClusterPod kafka t → FromOperator operatorNamespace s →
    ∀ l ∈ effectiveListeners kafka.spec, np.accepts t s l.port = true
  peers : ∀ t s, IsClusterPod kafka t → ∀ l ∈ userListeners kafka.spec,
    IsOther kafka operatorNamespace l s → (np.accepts t s l.port = true ↔ Admits kafka l s)
  metrics : ∀ t, IsClusterPod kafka t →
    ((∀ s, np.accepts t s metricsPort = true) ↔ kafka.spec.metricsConfig.isSome = true)
  nothingElse : ∀ t s p, IsClusterPod kafka t → np.accepts t s p = true →
    (FromCluster kafka s ∧ (p = interBrokerPort kafka.spec ∨ p = controllerPort)) ∨
    (FromOperator operatorNamespace s ∧ ∃ l ∈ effectiveListeners kafka.spec, l.port = p) ∨
    (∃ l ∈ userListeners kafka.spec, l.port = p ∧ Admits kafka l s) ∨
    (kafka.spec.metricsConfig.isSome = true ∧ p = metricsPort)

/-- A listener of the user is on the port of the controllers and lets the cluster in. -/
def QuorumServed (kafka : Kafka) (operatorNamespace : String) : Prop :=
  ∃ l ∈ userListeners kafka.spec, l.port = controllerPort ∧
    ∀ s, FromCluster kafka s → IsOther kafka operatorNamespace l s → Admits kafka l s

/-- A listener on the port of the metrics is as open as these. -/
def MetricsAgree (kafka : Kafka) (operatorNamespace : String) : Prop :=
  ∀ l ∈ userListeners kafka.spec, l.port = metricsPort →
    ((∀ s, IsOther kafka operatorNamespace l s → Admits kafka l s) ↔
      kafka.spec.metricsConfig.isSome = true)

/-- The port between brokers is that of a listener of the user. -/
theorem exists_interBrokerPort (hvalid : validateListeners ruleParses (userListeners kafka.spec)
    kafka.spec.interBrokerListenerName = .ok ()) :
    ∃ l ∈ userListeners kafka.spec, l.port = interBrokerPort kafka.spec := by
  obtain ⟨l, hl, hname, -⟩ := exists_interBroker hvalid
  unfold interBrokerPort
  dsimp only
  rw [← hname, effectiveListeners, List.find?_append]
  cases hfind : (userListeners kafka.spec).find? fun l' => l'.name = l.name with
  | none => exact absurd (List.find?_eq_none.mp hfind l hl) (by simp)
  | some l' =>
    have heq : l' = l := eq_of_name_eq hvalid (List.mem_of_find?_eq_some hfind) hl
      (by simpa using List.find?_some hfind)
    exact ⟨l, hl, by simp [heq]⟩

/-- A pod with no labels but those of the cluster. -/
def plainPod (kafka : Kafka) : PodAddress := ⟨⟨clusterNamespace kafka, ∅⟩, podMatch kafka.name⟩

theorem isClusterPod_plainPod : IsClusterPod kafka (plainPod kafka) :=
  ⟨rfl, podSelector_selects.mp (LabelSelector.selects_matchLabels.mpr fun _ _ h => h)⟩

theorem not_fromOperator_plainPod : ¬ FromOperator operatorNamespace (.pod (plainPod kafka)) := by
  rintro ⟨-, hlabel⟩
  simp [plainPod, podMatch, BTreeMap.getElem?_ofList, List.lookup_cons] at hlabel

theorem mem_effectiveListeners {l : Listener} (h : l ∈ userListeners kafka.spec) :
    l ∈ effectiveListeners kafka.spec :=
  List.mem_append_left _ h

/-- On the port of a listener of the user, every source is let in by the rules for brokers
    and the operator, or is up to the peers. -/
theorem accepts_of_admits (h : clusterPolicy kafka operatorNamespace = .ok np) {t : PodAddress}
    (ht : IsClusterPod kafka t) {l : Listener} (hl : l ∈ userListeners kafka.spec) {s : Source}
    (hadm : IsOther kafka operatorNamespace l s → Admits kafka l s) :
    np.accepts t s l.port = true := by
  rw [accepts_iff h ht]
  by_cases hop : FromOperator operatorNamespace s
  · exact .inr (.inl ⟨hop, l, mem_effectiveListeners hl, rfl⟩)
  by_cases hbroker : FromCluster kafka s ∧ interBrokerPort kafka.spec = l.port
  · exact .inl hbroker
  exact .inr (.inr (.inl ⟨l, hl, rfl, hadm ⟨hop, fun hs hport => hbroker ⟨hs, hport.symm⟩⟩⟩))

/-- Apart from the metrics, only its peers let another source reach a listener. -/
theorem admits_of_accepts (hvalid : validateListeners ruleParses (userListeners kafka.spec)
      kafka.spec.interBrokerListenerName = .ok ())
    (h : clusterPolicy kafka operatorNamespace = .ok np) {t : PodAddress}
    (ht : IsClusterPod kafka t) {l : Listener} (hl : l ∈ userListeners kafka.spec) {s : Source}
    (hs : IsOther kafka operatorNamespace l s) (hacc : np.accepts t s l.port = true) :
    Admits kafka l s ∨ (kafka.spec.metricsConfig.isSome = true ∧ metricsPort = l.port) := by
  rcases (accepts_iff h ht).mp hacc with ⟨hfrom, hport⟩ | ⟨hop, -⟩ | ⟨l', hl', hport, hadm⟩ | hmetrics
  · exact absurd hport.symm (hs.2 hfrom)
  · exact absurd hop hs.1
  · rw [eq_of_port_eq hvalid hl' hl hport] at hadm
    exact .inl hadm
  · exact .inr hmetrics

theorem quorumServed_of_reachable (hvalid : validateListeners ruleParses (userListeners kafka.spec)
      kafka.spec.interBrokerListenerName = .ok ())
    (h : clusterPolicy kafka operatorNamespace = .ok np)
    (hreach : Reachable kafka operatorNamespace np) : QuorumServed kafka operatorNamespace := by
  have hpod : IsClusterPod kafka (plainPod kafka) := isClusterPod_plainPod
  have hmetrics : metricsPort ≠ controllerPort := by decide
  rcases (accepts_iff h hpod).mp (hreach.quorum _ (.pod (plainPod kafka)) hpod hpod) with
    ⟨-, hport⟩ | ⟨hop, -⟩ | ⟨l, hl, hport, -⟩ | ⟨-, hport⟩
  · obtain ⟨l, hl, hlport⟩ := exists_interBrokerPort hvalid
    exact ⟨l, hl, hlport.trans hport, fun s hs hother => absurd hlport (hother.2 hs)⟩
  · exact absurd hop not_fromOperator_plainPod
  · refine ⟨l, hl, hport, fun s hs hother => ?_⟩
    have hacc := hreach.quorum _ _ hpod hs
    rw [← hport] at hacc
    rcases admits_of_accepts hvalid h hpod hl hother hacc with hadm | ⟨-, hclash⟩
    · exact hadm
    · exact absurd (hclash.trans hport) hmetrics
  · exact absurd hport hmetrics

/-- The policy is as it is meant to be exactly if the port of the controllers is served by
    a listener, and if the port of the metrics is left to them. -/
theorem reachable_iff (hvalid : validateListeners ruleParses (userListeners kafka.spec)
      kafka.spec.interBrokerListenerName = .ok ())
    (h : clusterPolicy kafka operatorNamespace = .ok np) :
    Reachable kafka operatorNamespace np ↔
      QuorumServed kafka operatorNamespace ∧ MetricsAgree kafka operatorNamespace := by
  constructor
  · intro hreach
    refine ⟨quorumServed_of_reachable hvalid h hreach, fun l hl hport => ?_⟩
    rw [← hreach.metrics _ isClusterPod_plainPod, ← hport]
    constructor
    · intro hall s
      exact accepts_of_admits h isClusterPod_plainPod hl (hall s)
    · intro hall s hs
      exact (hreach.peers _ _ isClusterPod_plainPod l hl hs).mp (hall s)
  · rintro ⟨⟨q, hq, hqport, hqadm⟩, hmetrics⟩
    refine ⟨?_, ?_, ?_, ?_, ?_, ?_⟩
    · intro t s ht hs
      exact (accepts_iff h ht).mpr (.inl ⟨hs, rfl⟩)
    · intro t s ht hs
      rw [← hqport]
      exact accepts_of_admits h ht hq (hqadm s hs)
    · intro t s ht hs l hl
      exact (accepts_iff h ht).mpr (.inr (.inl ⟨hs, l, hl, rfl⟩))
    · intro t s ht l hl hs
      refine ⟨fun hacc => ?_, fun hadm => accepts_of_admits h ht hl fun _ => hadm⟩
      rcases admits_of_accepts hvalid h ht hl hs hacc with hadm | ⟨hset, hclash⟩
      · exact hadm
      · exact (hmetrics l hl hclash.symm).mpr hset s hs
    · intro t ht
      refine ⟨fun hall => ?_, fun hset s => (accepts_iff h ht).mpr (.inr (.inr (.inr ⟨hset, rfl⟩)))⟩
      rcases (accepts_iff h ht).mp (hall .outside) with ⟨hs, -⟩ | ⟨hs, -⟩ | ⟨l, hl, hport, -⟩ | ⟨hset, -⟩
      · exact hs.elim
      · exact hs.elim
      · by_contra hunset
        refine hunset ((hmetrics l hl hport).mp fun s hs => ?_)
        have hacc := hall s
        rw [← hport] at hacc
        exact (admits_of_accepts hvalid h ht hl hs hacc).resolve_right fun hclash => hunset hclash.1
      · exact hset
    · intro t s p ht hacc
      rcases (accepts_iff h ht).mp hacc with ⟨hs, hport⟩ | hop | hpeer | ⟨hset, hport⟩
      · exact .inl ⟨hs, .inl hport.symm⟩
      · exact .inr (.inl hop)
      · exact .inr (.inr (.inl hpeer))
      · exact .inr (.inr (.inr ⟨hset, hport.symm⟩))

/-! ## A default cluster -/

/-- A cluster with the default listener and a policy. -/
def policedKafka : Kafka :=
  { Kafka.minimal "demo" with spec := { networkPolicy := some {} } }

theorem reachable_iff_policedKafka :
    ∃ np, clusterPolicy policedKafka "krabka-system" = .ok np ∧
      (Reachable policedKafka "krabka-system" np ↔
        QuorumServed policedKafka "krabka-system" ∧ MetricsAgree policedKafka "krabka-system") :=
  ⟨_, rfl, @reachable_iff _ _ _ (fun _ => true) (by decide) rfl⟩

/-- The controllers of a default cluster do not reach each other. -/
theorem quorum_unreachable_policedKafka :
    validateListeners (fun _ => true) (userListeners policedKafka.spec)
        policedKafka.spec.interBrokerListenerName = .ok () ∧
      policedKafka.spec.networkPolicy.isSome = true ∧
      ∃ np, clusterPolicy policedKafka "krabka-system" = .ok np ∧
        ¬ Reachable policedKafka "krabka-system" np := by
  refine ⟨by decide, rfl, _, rfl, fun hreach => ?_⟩
  have hpod : IsClusterPod policedKafka (plainPod policedKafka) := isClusterPod_plainPod
  have hacc := hreach.quorum _ (.pod (plainPod policedKafka)) hpod hpod
  revert hacc
  decide

end Network
