-- SUMMARY: Runs of pool passes: each pass may stop at any request, and between passes the objects and the brokers may change in any way.
import KrabkaOperator.Base.History
import KrabkaOperator.NodePool.Rules

/-!
# Runs of pool passes

A run is a history of passes, over any pools, and of changes by others.
-/

namespace NodePool

open Kube Crd Operator

inductive Event where
  | pass (p : PoolPass) (choices : List Choice)
  | change (f : World → World)

namespace Event

/-- The states that an event passes. -/
def exec : Event → World → List World
  | .pass p choices, w => (reconcileInner p).after answer choices w
  | .change f, w => [f w]

/-- The requests of a pass, with the states around them. -/
def trace : Event → World → List (Prog.Step Req World)
  | .pass p choices, w => (reconcileInner p).trace answer choices w
  | .change _, _ => []

/-- The requests of a pass, with the states and the dialogue around them. -/
def dialogue : Event → World → List (Prog.Step Req Logged)
  | .pass p choices, w => (reconcileInner p).trace (Prog.logged answer) choices (w, [])
  | .change _, _ => []

/-- The requests that a pass makes. -/
def requests : Event → World → List Req
  | .pass p choices, w =>
    ((reconcileInner p).run (Prog.logged answer) choices (w, [])).2.2.map (·.1)
  | .change _, _ => []

end Event

theorem finish_pass {p : PoolPass} {choices : List Choice} {w : World} :
    History.finish Event.exec (.pass p choices) w =
      ((reconcileInner p).run (Prog.logged answer) choices (w, [])).2.1 := by
  rw [(Prog.run_logged _ _ _ _ _).2]
  exact (Prog.run_eq_getLastD _ _ _).symm

/-- The steps of a pass, with its dialogue left out. -/
theorem exists_dialogue {e : Event} {w : World} {st : Prog.Step Req World} (h : st ∈ e.trace w) :
    ∃ sl ∈ e.dialogue w, sl.before.1 = st.before ∧ sl.req = st.req ∧ sl.after.1 = st.after := by
  cases e with
  | change f => cases h
  | pass p choices =>
    have hmap := Prog.trace_logged answer (reconcileInner p) choices w []
    have hmem : st ∈ (reconcileInner p).trace answer choices w := h
    rw [← hmap] at hmem
    obtain ⟨sl, hsl, rfl⟩ := List.mem_map.mp hmem
    exact ⟨sl, hsl, rfl, rfl, rfl⟩

/-- The events that follow from what each finds. -/
def script : List (World → Event) → World → List Event
  | [], _ => []
  | f :: fs, w => f w :: script fs (History.finish Event.exec (f w) w)

/-! ## A small pool -/

namespace Sample

/-- A pool of the cluster `demo`. -/
def pool (replicas : Int) : KafkaNodePool where
  name := "pool"
  labels := BTreeMap.ofList [("krabka.io/cluster", "demo")]
  spec := ⟨replicas, 0, [.broker, .controller]⟩
  status := none
  finalizers := [finalizer]

/-- The pool is there and nothing has been reconciled yet. -/
def start (replicas : Int) : World where
  kafkas := [{ name := "demo" }]
  pools := [pool replicas]

/-- A pass over the pool as it is, without a fault. -/
def pass (w : World) : Event :=
  .pass { pool := (w.pool? "pool").getD (pool 1) } (List.replicate 40 {})

/-- The user edits the replicas. -/
def scale (n : Int) (_ : World) : Event :=
  .change fun w => w.updatePool "pool" fun p => { p with spec := { p.spec with replicas := n } }

/-- The nodes of the StatefulSet run: they are registered and vote. -/
def boot (_ : World) : Event :=
  .change fun w =>
    let ids := intRange 0 ((w.statefulSets.head?.map observedStatefulsetReplicas).getD 0)
    { w with registered := ids, quorum := ⟨0, ids.map fun id => ⟨id, ""⟩⟩ }

/-- The rebalancer completes all proposals. -/
def rebalance (_ : World) : Event :=
  .change fun w => { w with rebalances := w.rebalances.map fun r => { r with
    status := some ⟨[⟨"Ready", "True", "", ""⟩], r.generation⟩ } }

end Sample

end NodePool
