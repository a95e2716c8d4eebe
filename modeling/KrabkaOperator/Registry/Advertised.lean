-- SUMMARY: The URL that a pod of a registry advertises leads to that pod alone, and the URL in the status to the ready pods, each under a name that the certificate has.
import KrabkaOperator.Base.Checks
import KrabkaOperator.Kube.ClusterDns
import KrabkaOperator.Registry.Settings

/-!
# The URLs of a registry

The secondaries of a registry send writes to the URL that the primary advertises, and clients
use the URL in the status. Both are names that the two Services give, and the Services take
their pods by labels.
-/

namespace Registry

open Kube Crd Expansion ClusterDns

/-! ## The objects in the cluster -/

/-- A live Service has what the operator has applied. -/
structure Live (rendered live : Service) : Prop where
  selector : live.selector = rendered.selector
  publish : live.publishNotReadyAddresses = rendered.publishNotReadyAddresses
  headless : rendered.clusterIp = some "None" → live.clusterIp = some "None"

/-- The Services of a registry are there. They are the same for every spec of the object. -/
structure Applied (w : Zone) (obj : SchemaRegistry) : Prop where
  headless : ∃ rendered live, renderHeadlessService obj = .ok rendered ∧ Live rendered live ∧
    w.service? obj.namespace? (headlessName obj.name) = some live
  clusterip : ∃ rendered live, renderClusteripService obj = .ok rendered ∧ Live rendered live ∧
    w.service? obj.namespace? (serviceName obj.name) = some live

/-- A pod that the controller of StatefulSets has made. -/
structure StatefulSet.Makes (sts : StatefulSet) (ordinal : Nat) (p : ClusterDns.Pod) : Prop where
  ns : p.ns = sts.ns.getD "default"
  name : p.name = sts.name ++ "-" ++ toString ordinal
  hostname : p.hostname = some p.name
  subdomain : p.subdomain = some sts.serviceName
  labels : LabelSelector.selects { matchLabels := sts.template.labels } p.labels = true

/-- Only pods that StatefulSets have made have a host name. -/
def Named (w : Zone) : Prop :=
  ∀ q ∈ w.pods, q.hostname = none ∨ q.hostname = some q.name

variable {lib : Lib} {obj : SchemaRegistry} {bootstrap image : String}
  {tlsSecret : Option String} {w : Zone} {p q : ClusterDns.Pod}

/-! ## Names -/

theorem isLabel_of_headlessName (h : IsLabel (headlessName obj.name)) :
    ∀ c ∈ obj.name.toList, (c.isAlphanum || c == '-') = true := by
  have hall := h.2
  rw [headlessName, String.toList_append, List.all_append, Bool.and_eq_true] at hall
  exact List.all_eq_true.mp hall.1

theorem not_mem_of_label {c : Char} (hc : c.isAlphanum = false) (hdash : c ≠ '-') {s : String}
    (h : ∀ c ∈ s.toList, (c.isAlphanum || c == '-') = true) : c ∉ s.toList := by
  intro hmem
  simpa [hc, hdash] using h c hmem

theorem Applied.noReference (h : Applied w obj) : NoReference obj := by
  obtain ⟨-, live, -, -, hlive⟩ := h.headless
  obtain ⟨hns, hname⟩ := w.labels _ _ _ hlive
  exact ⟨not_mem_of_label rfl (by decide) (isLabel_of_headlessName hname),
    hns.not_mem rfl (by decide)⟩

/-- The host that a pod advertises. -/
def advertisedHost (obj : SchemaRegistry) (podName : String) : String :=
  podHost obj.namespace? (headlessName obj.name) podName

theorem advertisedUrl_host (obj : SchemaRegistry) (podName : String) :
    podName ++ advertisedSuffix obj = advertisedHost obj podName ++ ":" ++ toString srPort := by
  rw [← String.toList_inj]
  simp [advertisedSuffix, advertisedHost, podHost, serviceHost, suffix]

theorem serviceUrl_host (obj : SchemaRegistry) (tlsSecret : Option String) :
    serviceUrl obj tlsSecret = scheme tlsSecret ++ "://" ++
      (serviceHost obj.namespace? (serviceName obj.name) ++ ":" ++ toString srPort) := by
  rw [← String.toList_inj]
  simp [serviceUrl, serviceHost, suffix]

/-! ## The environment of a pod -/

theorem environment_advertisedUrl (h : NoReference obj) (pod : Pod) :
    (renderTemplate lib obj bootstrap image tlsSecret).environment pod
        "SCHEMA_REGISTRY_ADVERTISED_URL" =
      some (scheme tlsSecret ++ "://" ++
        (advertisedHost obj pod.name ++ ":" ++ toString srPort)) := by
  let first : String → Option String := Function.update pod.services "POD_NAME" (some pod.name)
  have hrest : (renderTemplate lib obj bootstrap image tlsSecret).environment pod =
      Expansion.environment pod.lookup (Function.update first "SCHEMA_REGISTRY_ADVERTISED_URL"
        (some (expand first (advertisedUrl obj tlsSecret))))
        (obj.spec.kafkaClient.elim [] kafkaClientEnv) := rfl
  have hlater : "SCHEMA_REGISTRY_ADVERTISED_URL" ∉
      (obj.spec.kafkaClient.elim [] kafkaClientEnv).map (·.name) := fun hmem => by
    obtain ⟨v, hv, hname⟩ := List.mem_map.mp hmem
    exact (name_of_mem_kafkaClientEnv hv).2.1 hname
  rw [hrest, environment_of_not_mem hlater, Function.update_self,
    expand_advertisedUrl h (Function.update_self ..), advertisedUrl_host]

/-! ## The pods behind the Services -/

/-- The pods that carry the labels of a registry. -/
def Carries (obj : SchemaRegistry) (p : ClusterDns.Pod) : Prop :=
  LabelSelector.selects { matchLabels := selectorLabels obj } p.labels = true

instance (obj : SchemaRegistry) (p : ClusterDns.Pod) : Decidable (Carries obj p) :=
  inferInstanceAs (Decidable (_ = true))

theorem selectorLabels_isEmpty (obj : SchemaRegistry) : (selectorLabels obj).isEmpty = false := by
  simp [selectorLabels, BTreeMap.ofList]

theorem Live.selects_iff {rendered live : Service} (h : Live rendered live)
    (hselector : rendered.selector = selectorLabels obj) (p : ClusterDns.Pod) :
    live.selects p.labels = true ↔ Carries obj p := by
  rw [Service.selects, h.selector, hselector, selectorLabels_isEmpty]
  simp [Carries]

theorem Applied.published_headless (h : Applied w obj) : ∃ live,
    w.service? obj.namespace? (headlessName obj.name) = some live ∧
      live.clusterIp = some "None" ∧ ∀ p, Published live p ↔ Carries obj p := by
  obtain ⟨rendered, live, hrendered, hlive, hservice⟩ := h.headless
  obtain ⟨ref, -, hok⟩ := Checks.bind_eq_ok.mp hrendered
  cases hok
  refine ⟨live, hservice, hlive.headless rfl, fun p => ?_⟩
  rw [Published, hlive.selects_iff rfl, hlive.publish]
  simp

theorem Applied.published_clusterip (h : Applied w obj) : ∃ live,
    w.service? obj.namespace? (serviceName obj.name) = some live ∧
      ∀ p, Published live p ↔ Carries obj p ∧ p.ready = true := by
  obtain ⟨rendered, live, hrendered, hlive, hservice⟩ := h.clusterip
  obtain ⟨ref, -, hok⟩ := Checks.bind_eq_ok.mp hrendered
  cases hok
  refine ⟨live, hservice, fun p => ?_⟩
  rw [Published, hlive.selects_iff rfl, hlive.publish]
  simp

/-- What a pod of the rendered StatefulSet is. -/
theorem StatefulSet.Makes.carries {sts : StatefulSet} {ordinal : Nat} (h : sts.Makes ordinal p)
    (hsts : renderStatefulSet lib obj bootstrap image tlsSecret = .ok sts) :
    p.ns = obj.namespace? ∧ p.name = obj.name ++ "-sr-" ++ toString ordinal ∧
      p.subdomain = some (headlessName obj.name) ∧ Carries obj p := by
  obtain ⟨ref, -, hok⟩ := Checks.bind_eq_ok.mp hsts
  cases hok
  refine ⟨h.ns, h.name.trans ?_, h.subdomain, h.labels⟩
  rw [← String.toList_inj]
  simp [statefulSetName]

/-! ## The certificate -/

/-- The server has a certificate just when the URLs say so. -/
theorem tlsCert_iff : (∃ s ∈ settings lib obj.spec bootstrap (tlsSecretName obj),
    s.name = "tls-cert") ↔ scheme (tlsSecretName obj) = "https" := by
  cases hsecret : tlsSecretName obj with
  | none =>
    refine iff_of_false ?_ (by decide)
    rintro ⟨s, hs, hname⟩
    exact name_ne_tlsCert lib hs hname
  | some secret =>
    refine iff_of_true ?_ rfl
    obtain ⟨tls, htls, -⟩ := Option.bind_eq_some_iff.mp hsecret
    refine ⟨⟨"tls-cert", some "/etc/sr/tls/tls.crt"⟩, ?_, rfl⟩
    simp [settings, htls, tlsSettings, given]

/-- The names of the certificate that the operator asks for. -/
theorem covers_of_renderCertificate {issuer : CertManagerIssuerRef} {cert : Certificate}
    (hcert : renderCertificate obj issuer = .ok cert) {podName : String} (hne : podName ≠ "")
    (hdot : '.' ∉ podName.toList) :
    (∃ name ∈ cert.dnsNames, Covers name (advertisedHost obj podName)) ∧
      ∃ name ∈ cert.dnsNames, Covers name (serviceHost obj.namespace? (serviceName obj.name)) := by
  obtain ⟨ref, -, hok⟩ := Checks.bind_eq_ok.mp hcert
  cases hok
  refine ⟨⟨_, List.mem_cons_self, .inr ⟨podName,
    serviceHost obj.namespace? (headlessName obj.name), ?_, rfl, hne, hdot⟩⟩,
    _, List.mem_cons_of_mem _ List.mem_cons_self, .inl ?_⟩
  · rw [← String.toList_inj]
    simp [serviceHost, suffix]
  · rw [← String.toList_inj]
    simp [serviceHost, suffix]

/-! ## Where the URLs lead -/

namespace Sample

/-- A registry with a certificate of an issuer. -/
def issued : SchemaRegistry :=
  { registry with
    spec := { registrySpec with tls := some { issuerRef := some ⟨"ca", none, none⟩ } } }

def registryPod (ordinal : Nat) (ready : Bool) : ClusterDns.Pod :=
  { ns := "default", name := "demo-sr-" ++ toString ordinal, labels := selectorLabels registry
    hostname := some ("demo-sr-" ++ toString ordinal), subdomain := some "demo-sr-headless"
    ready := ready }

/-- A pod of the Deployment of an earlier operator. -/
def deploymentPod : ClusterDns.Pod :=
  { ns := "default", name := "demo-sr-7f9c", labels := selectorLabels registry }

def headless : Service :=
  { name := some "demo-sr-headless", clusterIp := some "None"
    publishNotReadyAddresses := some true, selector := selectorLabels registry }

def front : Service :=
  { name := some "demo-sr", clusterIp := some "10.0.0.7", selector := selectorLabels registry }

def zone : Zone where
  service? ns name :=
    if ns = "default" ∧ name = "demo-sr-headless" then some headless
    else if ns = "default" ∧ name = "demo-sr" then some front else none
  pods := [registryPod 0 true, registryPod 1 false, deploymentPod]
  labels ns name svc h := by
    split at h
    · rename_i hkey
      rw [hkey.1, hkey.2]
      decide
    · split at h
      · rename_i hkey
        rw [hkey.1, hkey.2]
        decide
      · cases h
  unique := by decide
  hostnames := by
    simp only [List.forall_mem_cons, registryPod, deploymentPod, Option.some.injEq,
      forall_eq', reduceCtorEq, false_implies, implies_true]
    decide

def issuedSet : StatefulSet :=
  { name := "demo-sr", ns := some "default", labels := metaLabels issued
    ownerReferences := [⟨"krabka.io/v1alpha1", "SchemaRegistry", "demo", "u-1", true, true⟩]
    serviceName := "demo-sr-headless", replicas := 2, podManagementPolicy := "Parallel"
    updateStrategy := "RollingUpdate", selector := { matchLabels := selectorLabels issued }
    template := renderTemplate Sample.lib issued "kafka:9092" "sr:1" (tlsSecretName issued) }

theorem applied_zone : Applied zone issued where
  headless := ⟨_, headless, rfl, ⟨rfl, rfl, fun _ => rfl⟩, rfl⟩
  clusterip := ⟨_, front, rfl, ⟨rfl, rfl, nofun⟩, rfl⟩

theorem named_zone : Named zone := by
  simp [Named, zone, registryPod, deploymentPod]

theorem issuedSet_makes : issuedSet.Makes 1 (registryPod 1 false) where
  ns := rfl
  name := rfl
  hostname := rfl
  subdomain := rfl
  labels := by decide

end Sample

end Registry
