-- SUMMARY: Label selectors and network policies, with the connections that a policy lets through.
import KrabkaOperator.Kube.Fields
import Mathlib.Data.List.Nodup

/-!
# Network policies

A pod that a policy selects accepts the union of the ingress rules. A rule without
sources stands for any source, and one without ports for any port.
-/

namespace Kube

/-! ## Selectors -/

/-- `In`, `NotIn`, `Exists` and `DoesNotExist`. -/
inductive SelectorOperator where
  | isIn
  | notIn
  | isPresent
  | isAbsent
  deriving DecidableEq, Repr

structure LabelSelectorRequirement where
  key : String
  operator : SelectorOperator
  values : List String := []
  deriving DecidableEq, Repr

structure LabelSelector where
  matchLabels : BTreeMap String := ∅
  matchExpressions : List LabelSelectorRequirement := []
  deriving DecidableEq

def LabelSelectorRequirement.holds (r : LabelSelectorRequirement) (labels : BTreeMap String) : Bool :=
  match r.operator, labels[r.key]? with
  | .isIn, some v => v ∈ r.values
  | .isIn, none => false
  | .notIn, some v => v ∉ r.values
  | .notIn, none => true
  | .isPresent, value => value.isSome
  | .isAbsent, value => value.isNone

def LabelSelector.selects (sel : LabelSelector) (labels : BTreeMap String) : Bool :=
  sel.matchLabels.toList.all (fun e => labels[e.1]? = some e.2) &&
    sel.matchExpressions.all (·.holds labels)

/-- A selector of labels only. -/
theorem LabelSelector.selects_matchLabels {m labels : BTreeMap String} :
    LabelSelector.selects { matchLabels := m } labels = true ↔
      ∀ key value : String, m[key]? = some value → labels[key]? = some value := by
  simp only [selects, List.all_nil, Bool.and_true, List.all_eq_true, decide_eq_true_eq]
  constructor
  · intro h key value hm
    exact h (key, value) (Std.ExtTreeMap.mem_toList_iff_getElem?_eq_some.mpr hm)
  · rintro h ⟨key, value⟩ hmem
    exact h key value (Std.ExtTreeMap.mem_toList_iff_getElem?_eq_some.mp hmem)

theorem lookup_eq_some_iff {β : Type} {entries : List (String × β)} {key : String} {value : β}
    (h : (entries.map (·.1)).Nodup) :
    entries.lookup key = some value ↔ (key, value) ∈ entries := by
  induction entries with
  | nil => simp
  | cons e es ih =>
    obtain ⟨hnot, hes⟩ := List.nodup_cons.mp h
    rw [List.lookup_cons, List.mem_cons]
    by_cases hkey : key = e.1
    · subst hkey
      have hmem : (e.1, value) ∉ es := fun hmem => hnot (List.mem_map.mpr ⟨_, hmem, rfl⟩)
      simp only [beq_self_eq_true, hmem, or_false]
      constructor
      · intro heq
        cases heq
        rfl
      · intro heq
        rw [← heq]
    · have hbeq : (key == e.1) = false := by simpa using hkey
      have hne : (key, value) ≠ e := fun heq => hkey (congrArg Prod.fst heq)
      simp only [hbeq, hne, false_or]
      exact ih hes

/-- A selector with a list of labels, each key once. -/
theorem LabelSelector.selects_ofList {entries : List (String × String)} {labels : BTreeMap String}
    (h : (entries.map (·.1)).Nodup) :
    LabelSelector.selects { matchLabels := BTreeMap.ofList entries } labels = true ↔
      ∀ e ∈ entries, labels[e.1]? = some e.2 := by
  have hrev : (entries.reverse.map (·.1)).Nodup := by
    rw [List.map_reverse]
    exact List.nodup_reverse.mpr h
  rw [selects_matchLabels]
  simp only [BTreeMap.getElem?_ofList, lookup_eq_some_iff hrev, List.mem_reverse]
  constructor
  · intro hall e he
    exact hall e.1 e.2 he
  · intro hall key value he
    exact hall (key, value) he

/-! ## Policies -/

structure OwnerReference where
  apiVersion : String
  kind : String
  name : String
  uid : String
  controller : Bool
  blockOwnerDeletion : Bool
  deriving DecidableEq, Repr

/-- A source of an ingress rule. Blocks of addresses are not in use. -/
structure NetworkPolicyPeer where
  podSelector : Option LabelSelector := none
  namespaceSelector : Option LabelSelector := none
  deriving DecidableEq

structure NetworkPolicyPort where
  protocol : String
  port : Int
  deriving DecidableEq, Repr

structure NetworkPolicyIngressRule where
  /-- `from`. -/
  sources : List NetworkPolicyPeer
  ports : List NetworkPolicyPort
  deriving DecidableEq

structure NetworkPolicy where
  name : String
  ns : Option String
  labels : BTreeMap String
  ownerReferences : List OwnerReference
  podSelector : LabelSelector
  policyTypes : List String
  ingress : List NetworkPolicyIngressRule
  deriving DecidableEq

/-! ## Connections -/

/-- The API server labels every namespace with its name. -/
structure Namespace where
  name : String
  ownLabels : BTreeMap String := ∅

def Namespace.labels (ns : Namespace) : BTreeMap String :=
  ns.ownLabels.insert "kubernetes.io/metadata.name" ns.name

structure PodAddress where
  ns : Namespace
  labels : BTreeMap String

/-- Where a connection comes from. -/
inductive Source where
  | pod (p : PodAddress)
  | outside

/-- A peer without a pod selector stands for all pods of its namespaces, and one
    without a namespace selector for pods of the namespace of the policy. The API
    server refuses a peer without both. -/
def NetworkPolicyPeer.admits (peer : NetworkPolicyPeer) (policyNs : String) : Source → Bool
  | .outside => false
  | .pod p =>
    match peer.podSelector, peer.namespaceSelector with
    | none, none => false
    | some pods, none => p.ns.name = policyNs && pods.selects p.labels
    | none, some namespaces => namespaces.selects p.ns.labels
    | some pods, some namespaces => namespaces.selects p.ns.labels && pods.selects p.labels

def NetworkPolicyIngressRule.allows (rule : NetworkPolicyIngressRule) (policyNs : String)
    (s : Source) (port : Int) : Bool :=
  (rule.sources.isEmpty || rule.sources.any (·.admits policyNs s)) &&
    (rule.ports.isEmpty || rule.ports.any fun p => p.protocol = "TCP" && p.port = port)

namespace NetworkPolicy

/-- The namespace of an object whose metadata names none. -/
def namespace? (np : NetworkPolicy) : String := np.ns.getD "default"

def selects (np : NetworkPolicy) (target : PodAddress) : Bool :=
  target.ns.name = np.namespace? && np.podSelector.selects target.labels

/-- Whether a pod accepts a TCP connection under one policy. -/
def accepts (np : NetworkPolicy) (target : PodAddress) (s : Source) (port : Int) : Bool :=
  if np.selects target && "Ingress" ∈ np.policyTypes then
    np.ingress.any (·.allows np.namespace? s port)
  else
    true

end NetworkPolicy

end Kube
