-- SUMMARY: Runs of Kafka passes: each pass may stop at any request, and users, pools and StatefulSets may change between passes.
import KrabkaOperator.Base.History
import KrabkaOperator.Cluster.Pass

/-!
# Runs

A run is a history of events. A pass runs with the choices of the environment and
stops when they are used up, so a pass may fail at, or crash after, any of its
requests. Between passes the objects that the pass only reads may change.
-/

namespace Cluster

open Kube Crd Operator ClusterCa

inductive Event where
  | pass (pass : KafkaPass) (choices : List Choice)
  | setUsers (users : List KafkaUser)
  | setPools (pools : List KafkaNodePool)
  | setStatefulSets (statefulSets : List StatefulSet)

namespace Event

variable (lib : CaLib)

/-- The states that an event passes. -/
def exec : Event → World → List World
  | .pass p choices, w => (reconcileInner lib p).after answer choices w
  | .setUsers users, w => [{ w with users }]
  | .setPools pools, w => [{ w with pools }]
  | .setStatefulSets statefulSets, w => [{ w with statefulSets }]

/-- The requests of a pass, with the states around them. -/
def trace : Event → World → List (Prog.Step Req World)
  | .pass p choices, w => (reconcileInner lib p).trace answer choices w
  | _, _ => []

/-- A pass is one over the given cluster. -/
def IsOn (cluster : String) : Event → Prop
  | .pass p _ => p.kafka.name = cluster
  | _ => True

end Event

/-- The requests of a run, in order. -/
def runTrace (lib : CaLib) : List Event → World → List (Prog.Step Req World)
  | [], _ => []
  | e :: es, w => e.trace lib w ++ runTrace lib es (History.finish (Event.exec lib) e w)

/-! ## Passes -/

section Pass

variable {lib : CaLib} {pass : KafkaPass} {S : World → Req → World → Prop} {w : World}
  {choices : List Choice}

theorem finish_pass : History.finish (Event.exec lib) (.pass pass choices) w =
    ((reconcileInner lib pass).run answer choices w).2 :=
  (Prog.run_eq_getLastD _ _ _).symm

/-- What every request of a pass establishes holds in every state of the pass. -/
theorem forall_exec_pass {J : World → Prop}
    (h : Prog.Sat answer S (fun _ _ => True) (reconcileInner lib pass) w)
    (hJ : ∀ a r b, S a r b → J b) : ∀ v ∈ Event.exec lib (.pass pass choices) w, J v := by
  intro v hv
  obtain ⟨st, hst, rfl⟩ := List.mem_map.mp hv
  exact hJ _ _ _ (h.trace choices st hst)

/-- An invariant that every request of a pass establishes holds at the end of the pass. -/
theorem finish_exec_pass {J : World → Prop} (hw : J w)
    (h : Prog.Sat answer S (fun _ _ => True) (reconcileInner lib pass) w)
    (hJ : ∀ a r b, S a r b → J b) : J (History.finish (Event.exec lib) (.pass pass choices) w) := by
  rcases List.mem_cons.mp (History.getLastD_mem_cons (Event.exec lib (.pass pass choices) w) w) with
    heq | hmem
  · rw [History.finish, heq]
    exact hw
  · exact forall_exec_pass h hJ _ hmem

end Pass

/-! ## A small cluster -/

namespace Sample

/-- The one pool of the cluster `demo`. -/
def pool : KafkaNodePool where
  name := "pool"
  labels := BTreeMap.ofList [("krabka.io/cluster", "demo")]
  spec := ⟨1, 0, [.broker, .controller]⟩
  status := none

/-- A StatefulSet that has rolled to the hash of its pool. -/
def rolledSet (p : KafkaNodePool) : StatefulSet where
  name := "demo-" ++ p.name
  labels := BTreeMap.ofList [("app.kubernetes.io/instance", "demo"),
    ("app.kubernetes.io/name", appLabel), ("krabka.io/pool", p.name)]
  generation := some 1
  spec := some {
    replicas := some p.spec.replicas
    templateAnnotations := BTreeMap.ofList [("krabka.io/config-hash", p.configHash?.getD "")] }
  status := some {
    observedGeneration := some 1
    replicas := p.spec.replicas
    readyReplicas := some p.spec.replicas
    updatedReplicas := some p.spec.replicas
    currentRevision := some "r"
    updateRevision := some "r" }

/-- The pool exists and nothing has been reconciled yet. -/
def start : World := { World.empty with pools := [pool] }

/-- A pass over the cluster `demo` with a default spec and some annotations. -/
def pass (annotations : List String) : KafkaPass where
  kafka := { Kafka.minimal "demo" with
    annotations := BTreeMap.ofList (annotations.map fun key => (key, "true")) }

/-- A pass that is answered without a fault for its first `n` requests and stops then. -/
def passFor (annotations : List String) (n : Nat) : Event :=
  .pass (pass annotations) (List.replicate n {})

/-- All StatefulSets roll to the hashes that the pools carry in `w`. -/
def roll (w : World) : Event := .setStatefulSets (w.pools.map rolledSet)

/-- The StatefulSets roll after each event. -/
def rolling : List Event → World → List Event
  | [], _ => []
  | e :: es, w =>
    let w₁ := History.finish (Event.exec SampleLib.lib) e w
    let r := roll w₁
    e :: r :: rolling es (History.finish (Event.exec SampleLib.lib) r w₁)

end Sample

end Cluster
