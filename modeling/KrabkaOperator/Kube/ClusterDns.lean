-- SUMMARY: The names of the cluster domain: the pods that a connection to a name may reach, through the records of pods and through Services.
import KrabkaOperator.Base.Separated
import KrabkaOperator.Kube.Service

/-!
# The cluster domain

A headless Service gives a record to each of its pods that has a host name and the Service
as its subdomain. The name of any Service leads to the pods that it selects. Both take
pods in only when they are ready, unless the Service publishes all addresses.
-/

namespace ClusterDns

open Kube

/-- What the API server accepts as the name of a namespace or of a Service. -/
def IsLabel (s : String) : Prop := s ≠ "" ∧ s.toList.all fun c => c.isAlphanum || c == '-'

instance (s : String) : Decidable (IsLabel s) := inferInstanceAs (Decidable (_ ∧ _))

structure Pod where
  ns : String
  name : String
  labels : BTreeMap String
  hostname : Option String := none
  subdomain : Option String := none
  ready : Bool := true
  deriving DecidableEq

/-- The Services and the pods of a cluster. -/
structure Zone where
  service? : String → String → Option Service
  pods : List Pod
  labels : ∀ ns name svc, service? ns name = some svc → IsLabel ns ∧ IsLabel name
  /-- A namespace has one pod of a name. -/
  unique : ∀ p ∈ pods, ∀ q ∈ pods, p.ns = q.ns → p.name = q.name → p = q
  hostnames : ∀ p ∈ pods, ∀ hostname, p.hostname = some hostname → IsLabel hostname

/-- The suffix of all names. -/
def suffix : String := "svc.cluster.local"

def serviceHost (ns name : String) : String := name ++ "." ++ (ns ++ "." ++ suffix)

def podHost (ns name hostname : String) : String := hostname ++ "." ++ serviceHost ns name

/-- A Service has the address of a pod. -/
def Published (svc : Service) (p : Pod) : Prop :=
  svc.selects p.labels = true ∧ (p.ready = true ∨ svc.publishNotReadyAddresses = some true)

/-- A connection to a host may reach a pod. -/
inductive Zone.Reaches (w : Zone) : String → Pod → Prop where
  | record {p : Pod} {name hostname : String} {svc : Service}
      (hsvc : w.service? p.ns name = some svc)
      (headless : svc.clusterIp = some "None") (hpub : Published svc p)
      (hhost : p.hostname = some hostname) (hsub : p.subdomain = some name) :
      w.Reaches (podHost p.ns name hostname) p
  | service {p : Pod} {name : String} {svc : Service} (hsvc : w.service? p.ns name = some svc)
      (hpub : Published svc p) : w.Reaches (serviceHost p.ns name) p

/-! ## Names -/

theorem IsLabel.not_mem {s : String} (h : IsLabel s) {c : Char} (hc : c.isAlphanum = false)
    (hdash : c ≠ '-') : c ∉ s.toList := by
  intro hmem
  have hall := List.all_eq_true.mp h.2 c hmem
  simp [hc, hdash] at hall

theorem IsLabel.dot {s : String} (h : IsLabel s) : '.' ∉ s.toList := h.not_mem rfl (by decide)

theorem dot_inj {a a' b b' : String} (h : '.' ∉ a.toList) (h' : '.' ∉ a'.toList) :
    a ++ "." ++ b = a' ++ "." ++ b' ↔ a = a' ∧ b = b' := by
  rw [← String.toList_inj, ← @String.toList_inj a, ← @String.toList_inj b]
  simp only [String.toList_append, List.append_assoc]
  exact Separated.append_cons_inj_of_front h h'

/-- The name of a Service tells the namespace and the Service. -/
theorem serviceHost_inj {ns name ns' name' : String} (hns : IsLabel ns) (hname : IsLabel name)
    (hns' : IsLabel ns') (hname' : IsLabel name') :
    serviceHost ns name = serviceHost ns' name' ↔ ns = ns' ∧ name = name' := by
  rw [serviceHost, serviceHost, dot_inj hname.dot hname'.dot, dot_inj hns.dot hns'.dot]
  simp only [and_true]
  exact and_comm

theorem podHost_inj {ns name host ns' name' host' : String} (hns : IsLabel ns)
    (hname : IsLabel name)
    (hns' : IsLabel ns') (hname' : IsLabel name') (hhost : '.' ∉ host.toList)
    (hhost' : '.' ∉ host'.toList) :
    podHost ns name host = podHost ns' name' host' ↔ host = host' ∧ ns = ns' ∧ name = name' := by
  rw [podHost, podHost, dot_inj hhost hhost', serviceHost_inj hns hname hns' hname']

/-- A record of a pod is no name of a Service. -/
theorem podHost_ne_serviceHost {ns name host ns' name' : String} (hns : IsLabel ns)
    (hname : IsLabel name) (hns' : IsLabel ns') (hname' : IsLabel name')
    (hhost : '.' ∉ host.toList) : podHost ns name host ≠ serviceHost ns' name' := by
  intro heq
  rw [podHost, serviceHost, serviceHost, dot_inj hhost hname'.dot,
    dot_inj hname.dot hns'.dot] at heq
  have hsuffix : suffix = "svc" ++ "." ++ "cluster.local" := by decide
  rw [hsuffix, dot_inj hns.dot (by decide)] at heq
  exact absurd heq.2.2.2 (by decide)

/-! ## What a name leads to -/

namespace Zone

variable {w : Zone} {ns name host : String} {svc : Service} {p : Pod}

/-- The record of a pod leads to pods of its host name only. -/
theorem reaches_podHost_iff (hsvc : w.service? ns name = some svc) (hhost : IsLabel host)
    (hp : p ∈ w.pods) : w.Reaches (podHost ns name host) p ↔
      p.ns = ns ∧ p.hostname = some host ∧ p.subdomain = some name ∧
        svc.clusterIp = some "None" ∧ Published svc p := by
  obtain ⟨hns, hname⟩ := w.labels ns name svc hsvc
  constructor
  · intro h
    generalize heq : podHost ns name host = target at h
    cases h with
    | record hsvc' headless hpub hhost' hsub =>
      obtain ⟨hns', hname'⟩ := w.labels _ _ _ hsvc'
      obtain ⟨rfl, rfl, rfl⟩ := (podHost_inj hns hname hns' hname' hhost.dot
        (w.hostnames p hp _ hhost').dot).mp heq
      obtain rfl := Option.some.inj (hsvc.symm.trans hsvc')
      exact ⟨rfl, hhost', hsub, headless, hpub⟩
    | service hsvc' =>
      obtain ⟨hns', hname'⟩ := w.labels _ _ _ hsvc'
      exact absurd heq (podHost_ne_serviceHost hns hname hns' hname' hhost.dot)
  · rintro ⟨rfl, hhost', hsub, headless, hpub⟩
    exact .record hsvc headless hpub hhost' hsub

/-- The name of a Service leads to the pods that it publishes. -/
theorem reaches_serviceHost_iff (hsvc : w.service? ns name = some svc) (hp : p ∈ w.pods) :
    w.Reaches (serviceHost ns name) p ↔ p.ns = ns ∧ Published svc p := by
  obtain ⟨hns, hname⟩ := w.labels ns name svc hsvc
  constructor
  · intro h
    generalize heq : serviceHost ns name = target at h
    cases h with
    | record hsvc' headless hpub hhost' hsub =>
      obtain ⟨hns', hname'⟩ := w.labels _ _ _ hsvc'
      exact absurd heq.symm (podHost_ne_serviceHost hns' hname' hns hname
        (w.hostnames p hp _ hhost').dot)
    | service hsvc' hpub =>
      obtain ⟨hns', hname'⟩ := w.labels _ _ _ hsvc'
      obtain ⟨rfl, rfl⟩ := (serviceHost_inj hns hname hns' hname').mp heq
      obtain rfl := Option.some.inj (hsvc.symm.trans hsvc')
      exact ⟨rfl, hpub⟩
  · rintro ⟨rfl, hpub⟩
    exact .service hsvc hpub

end Zone

/-! ## Certificates -/

/-- A name of a certificate is for a host, or, with a `*`, for all hosts that have one more
    label. -/
def Covers (name host : String) : Prop :=
  host = name ∨ ∃ label rest, name = "*." ++ rest ∧ host = label ++ "." ++ rest ∧
    label ≠ "" ∧ '.' ∉ label.toList

end ClusterDns
