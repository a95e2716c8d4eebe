-- SUMMARY: Ingresses and Routes, which take a connection by its host name to a Service, and the pods that it ends at.
import KrabkaOperator.Kube.Objects
import KrabkaOperator.Kube.Service
import Mathlib.Data.List.Induction

/-!
# Ingresses and Routes

An ingress controller serves the Ingresses of its class, and the router of OpenShift the
Routes. Both take a connection by the host name in its handshake to the Service of an entry
with that host, and the Service to a pod that it selects.
-/

namespace Kube

/-! ## Objects -/

/-- A port of a Service, by its number or by the port of the pods. -/
inductive PortRef where
  | number (port : Int)
  | target (port : Int)
  deriving DecidableEq, Repr

structure IngressPath where
  path : String
  pathType : String
  service : String
  port : PortRef
  deriving DecidableEq, Repr

structure IngressRule where
  host : String
  paths : List IngressPath
  deriving DecidableEq, Repr

structure Ingress where
  name : String
  ns : Option String
  labels : BTreeMap String
  annotations : BTreeMap String
  ownerReferences : List OwnerReference
  className : Option String
  /-- The hosts of each entry of `tls`. -/
  tls : List (List String)
  rules : List IngressRule
  deriving DecidableEq

structure Route where
  name : String
  ns : String
  labels : BTreeMap String
  ownerReferences : List OwnerReference
  host : String
  port : PortRef
  termination : String
  toKind : String
  service : String
  weight : Int
  deriving DecidableEq

/-! ## Where a connection ends -/

/-- The port of the pods. -/
def ServicePort.target (p : ServicePort) : Int := p.targetPort.getD p.port

def PortRef.Picks : PortRef → ServicePort → Prop
  | .number port, p => p.port = port
  | .target port, p => p.target = port

/-- A Service sends what arrives at a port to a pod. -/
def Service.Sends (svc : Service) (ref : PortRef) (pod : Pod) (target : Int) : Prop :=
  svc.selects pod.labels = true ∧ ∃ p ∈ svc.ports.getD [], ref.Picks p ∧ p.target = target

/-- What serves connections from outside. -/
inductive Router where
  | ingress (className : Option String)
  | openshift
  deriving DecidableEq, Repr

/-- The objects of a namespace, by their names. -/
structure Frontends where
  services : BTreeMap Service := ∅
  ingresses : BTreeMap Ingress := ∅
  routes : BTreeMap Route := ∅

/-- A router takes a host to a port of a Service. -/
inductive Frontends.Takes (w : Frontends) (host service : String) (ref : PortRef) : Router → Prop
  | ingress {name : String} {ingress : Ingress} {rule : IngressRule} {path : IngressPath}
      (h : w.ingresses[name]? = some ingress) (hrule : rule ∈ ingress.rules)
      (hpath : path ∈ rule.paths) (hhost : rule.host = host) (hservice : path.service = service)
      (hport : path.port = ref) : Takes w host service ref (.ingress ingress.className)
  | route {name : String} {route : Route} (h : w.routes[name]? = some route)
      (hhost : route.host = host) (hservice : route.service = service) (hport : route.port = ref) :
      Takes w host service ref .openshift

/-- A router sends a connection for a host to a pod. -/
def Frontends.Sends (w : Frontends) (router : Router) (host : String) (pod : Pod) (target : Int) :
    Prop :=
  ∃ service ref svc, w.Takes host service ref router ∧ w.services[service]? = some svc ∧
    svc.Sends ref pod target

/-! ## Applying objects -/

inductive Applied where
  | service (name : String) (svc : Service)
  | ingress (name : String) (ingress : Ingress)
  | route (name : String) (route : Route)
  deriving DecidableEq

def Applied.service? : Applied → Option (String × Service)
  | .service name svc => some (name, svc)
  | _ => none

def Applied.ingress? : Applied → Option (String × Ingress)
  | .ingress name obj => some (name, obj)
  | _ => none

def Applied.route? : Applied → Option (String × Route)
  | .route name obj => some (name, obj)
  | _ => none

/-- Objects that are applied one after the other. -/
def BTreeMap.applyAll {β : Type} (m : BTreeMap β) (entries : List (String × β)) : BTreeMap β :=
  entries.foldl (fun m e => m.insert e.1 e.2) m

def Frontends.applyAll (w : Frontends) (objs : List Applied) : Frontends where
  services := w.services.applyAll (objs.filterMap Applied.service?)
  ingresses := w.ingresses.applyAll (objs.filterMap Applied.ingress?)
  routes := w.routes.applyAll (objs.filterMap Applied.route?)

section ApplyAll

variable {β : Type} {m : BTreeMap β} {entries : List (String × β)} {key : String} {value : β}

/-- An object of a name that is applied once is found there, and one of any other name is as
    it was. -/
theorem BTreeMap.getElem?_applyAll
    (h : ∀ k v v', (k, v) ∈ entries → (k, v') ∈ entries → v = v') :
    (m.applyAll entries)[key]? = some value ↔
      (key, value) ∈ entries ∨ (∀ v, (key, v) ∉ entries) ∧ m[key]? = some value := by
  unfold BTreeMap.applyAll
  induction entries using List.reverseRecOn with
  | nil => simp
  | append_singleton es e ih =>
    have hrest : ∀ k v v', (k, v) ∈ es → (k, v') ∈ es → v = v' := fun k v v' hv hv' =>
      h k v v' (List.mem_append_left _ hv) (List.mem_append_left _ hv')
    rw [List.foldl_append, List.foldl_cons, List.foldl_nil, Std.ExtTreeMap.getElem?_insert]
    obtain ⟨name, v⟩ := e
    by_cases hname : name = key
    · subst hname
      simp only [Std.ReflCmp.compare_self, if_true, Option.some.injEq]
      constructor
      · rintro rfl
        exact .inl (List.mem_append_right _ List.mem_cons_self)
      · rintro (hmem | ⟨hnone, -⟩)
        · exact h name v value (List.mem_append_right _ List.mem_cons_self) hmem
        · exact absurd (List.mem_append_right _ List.mem_cons_self) (hnone v)
    · rw [if_neg (by simpa [Std.LawfulEqCmp.compare_eq_iff_eq] using hname), ih hrest]
      simp [Ne.symm hname]

end ApplyAll

end Kube
