-- SUMMARY: The part of a pool pass that works on the cluster Secret, any number of them interleaved, and the pods that format their disks.
import KrabkaOperator.Base.Interleave
import KrabkaOperator.Bootstrap.Secret
import KrabkaOperator.NodePool.Drain

/-!
# Choosing the bootstrap node

A pass reads the Secret and patches it when it finds nothing. What it patches
depends on the pools that it has listed. Pools come and go meanwhile, and a pod with
an empty disk formats it by what the Secret says then. The world is that of one
cluster, in the life of one Secret.
-/

namespace Bootstrap

open Kube Crd Operator
open NodePool (intRange validate)

structure World where
  pools : List KafkaNodePool
  /-- The data of the Secret of the cluster. -/
  data : Data
  /-- How many UUIDs have been drawn. -/
  draws : Nat := 0
  /-- The nodes that have formatted a standalone quorum, with their pools. -/
  standalone : List (Int × String) := []

inductive Req where
  | listPools
  | getSecret
  | newUuid
  | mergeSecret (patch : Patch)
  /-- The calls of a pass that do not touch the Secret. -/
  | rest

@[reducible] def Resp : Req → Type
  | .listPools => Except KubeError (List KafkaNodePool)
  | .getSecret => Except KubeError Data
  | .newUuid => Nat
  | .mergeSecret _ => Except KubeError Unit
  | .rest => Except KubeError Unit

def answer : (r : Req) → Choice → World → Resp r × World
  | .listPools, c, w => answerRead c w w.pools
  | .getSecret, c, w => answerRead c w w.data
  | .newUuid, _, w => (w.draws, { w with draws := w.draws + 1 })
  | .mergeSecret patch, c, w => answerWrite c w { w with data := mergeData w.data patch }
  | .rest, c, w => answerRead c w ()

abbrev Op (α : Type) := Prog Req Resp ReconcileError α

def kube {α : Type} : Except KubeError α → Op α
  | .ok x => pure x
  | .error e => .fail (.kube e)

def listPools : Op (List KafkaNodePool) := Prog.request .listPools >>= kube
def getSecret : Op Data := Prog.request .getSecret >>= kube
def newUuid : Op Nat := Prog.request Req.newUuid
def mergeSecret (patch : Patch) : Op Unit := Prog.request (.mergeSecret patch) >>= kube
def rest : Op Unit := Prog.request .rest >>= kube

/-! ## The pass -/

/-- The order of the candidates: by the first id, then by the name. -/
def candidateLe (a b : KafkaNodePool) : Prop :=
  a.spec.nodeIdStart < b.spec.nodeIdStart ∨
    (a.spec.nodeIdStart = b.spec.nodeIdStart ∧ (compareBytes a.name b.name).isLE = true)

instance (a b : KafkaNodePool) : Decidable (candidateLe a b) := inferInstanceAs (Decidable (_ ∨ _))

/-- The first of the pools that come first. -/
def firstPool? : List KafkaNodePool → Option KafkaNodePool
  | [] => none
  | pool :: pools =>
    match firstPool? pools with
    | none => some pool
    | some other => if candidateLe pool other then some pool else some other

def selectQuorumBootstrap (check : KafkaNodePool → Except (String × String) Unit)
    (pools : List KafkaNodePool) : Option QuorumBootstrapController :=
  (firstPool? (pools.filter fun pool =>
    (validate check pool).isOk && .controller ∈ pool.spec.roles)).map fun pool =>
      ⟨pool.spec.nodeIdStart, pool.name⟩

/-- What is there already wins. -/
def ensureQuorumBootstrapState (candidate : QuorumBootstrapController) : Op QuorumBootstrapState := do
  let data ← getSecret
  match quorumBootstrapStateFromSecret data with
  | .error why => .fail (.malformedSecret why)
  | .ok (some state) => pure state
  | .ok none => do
    mergeSecret (bootstrapPatch candidate)
    pure ⟨candidate, false⟩

def markQuorumBootstrapInitialized : Op Unit := mergeSecret initializedPatch

section Lib

variable (lib : UuidLib)

def ensureQuorumDirectoryId (nodeId : Int) : Op lib.Uuid := do
  let data ← getSecret
  match quorumDirectoryIdFromSecret lib data nodeId with
  | .error why => .fail (.malformedSecret why)
  | .ok (some u) => pure u
  | .ok none => do
    let n ← newUuid
    mergeSecret (directoryPatch lib nodeId (lib.drawn n))
    pure (lib.drawn n)

def ensureDirectoryIds : List Int → Op (List (Int × lib.Uuid))
  | [] => pure []
  | nodeId :: nodeIds => do
    let u ← ensureQuorumDirectoryId lib nodeId
    let us ← ensureDirectoryIds nodeIds
    pure ((nodeId, u) :: us)

/-- What a pass starts on, and what it makes of the rest. -/
structure Pass where
  pool : KafkaNodePool
  storageCheck : KafkaNodePool → Except (String × String) Unit := fun _ => .ok ()
  /-- Whether the pool is ready, given the directory ids of its nodes. -/
  ready : List (Int × lib.Uuid) → Bool := fun _ => true

/-- One pass. It may end early at each call, or be stopped. -/
def reconcilePool (pass : Pass lib) : Op Unit := do
  rest
  let siblings ← listPools
  rest
  match selectQuorumBootstrap pass.storageCheck siblings with
  | none => .fail (.malformed "no valid KafkaNodePool available for quorum bootstrap")
  | some candidate => do
    let bootstrap ← ensureQuorumBootstrapState candidate
    let directoryIds ← ensureDirectoryIds lib (intRange pass.pool.spec.nodeIdStart
      (pass.pool.spec.nodeIdStart + pass.pool.spec.replicas))
    rest
    Prog.when (pass.ready directoryIds && !bootstrap.initialized &&
      bootstrap.controller.nodeId = pass.pool.spec.nodeIdStart &&
      bootstrap.controller.pool = pass.pool.name) markQuorumBootstrapInitialized
    rest

/-! ## The cluster -/

/-- Whether a node with an empty disk formats a standalone quorum. A pod does not start
    without the three values. -/
def formatsStandalone (data : Data) (nodeId : Int) (pool : String) : Bool :=
  match data[ initializedKey]?, data[nodeIdKey]?, data[poolKey]? with
  | some initialized, some first, some owner =>
    initialized ≠ "true" && first = toString nodeId && owner = pool
  | _, _, _ => false

/-- The pod of a node formats its disk. -/
def World.format (nodeId : Int) (pool : String) (w : World) : World :=
  if formatsStandalone w.data nodeId pool then
    { w with standalone := (nodeId, pool) :: w.standalone }
  else w

/-- The running passes are numbered. -/
abbrev State := Interleave.State Nat World Req Resp ReconcileError Unit

inductive Event where
  | start (i : Nat) (pass : Pass lib)
  /-- The next call of a running pass. -/
  | call (i : Nat) (c : Choice)
  /-- Pools are created, edited and deleted. -/
  | pools (f : List KafkaNodePool → List KafkaNodePool)
  | format (nodeId : Int) (pool : String)

variable {lib}

def Event.move : Event lib → Interleave.Move Nat World Choice Req Resp ReconcileError Unit
  | .start i pass => .start i (reconcilePool lib pass)
  | .call i c => .request i c
  | .pools f => .change fun w => { w with pools := f w.pools }
  | .format nodeId pool => .change (World.format nodeId pool)

def step (e : Event lib) (s : State) : State := Interleave.step answer e.move s

/-- The states of a run, as a history of single steps. -/
def exec (e : Event lib) (s : State) : List State := [step e s]

theorem finish_exec {e : Event lib} {s : State} : History.finish exec e s = step e s := rfl

end Lib

/-- No pass is running, and no node has formatted its disk. -/
def State.init (pools : List KafkaNodePool) (data : Data) : State where
  world := { pools := pools, data := data }
  party := fun _ => (.ret (), [])
  history := []

end Bootstrap
