-- SUMMARY: The metadata version in a pass over a Kafka, the gate of the pools, and both controllers interleaved over one world.
import KrabkaOperator.Base.Interleave
import KrabkaOperator.Cluster.Rollout
import KrabkaOperator.NodePool.Reconcile
import KrabkaOperator.Version.Evaluate

/-!
# Finalizing a metadata version

The pass over a `Kafka` evaluates the versions of its spec, and changes the
finalized metadata version once the pools run the binary. The passes over the
pools read the version of the binary from the same object. Both run side by side;
a pass that ends early is one whose controller starts the next.
-/

namespace Version

open Kube Crd Operator

/-! ## The Kafka object -/

structure KafkaStatus where
  conditions : List Condition := []
  kafkaVersion : Option String := none
  targetMetadataVersion : Option String := none
  metadataVersion : Option String := none
  deriving DecidableEq, Repr

/-- A stored `Kafka` with its status. -/
structure Object where
  kafka : Kafka
  deleting : Bool := false
  status : Option KafkaStatus := none

def Object.metadataVersion (obj : Object) : Option String := obj.status >>= (·.metadataVersion)

/-- The finalized version clears the gate, whatever the verdict on the spec is. -/
def parentVersionGate (obj : Object) : NodePool.VersionGate :=
  let verdict := ((obj.status.map (·.conditions)).getD []).find? (·.type = "KafkaVersionValid")
  if obj.metadataVersion.isSome ∨ verdict.any (·.status = "True") then .cleared
  else
    match verdict with
    | some c => .invalid c.status c.reason c.message
    | none => .waiting

/-- What a pool sees of its parent. -/
def Object.parent (obj : Object) : NodePool.Parent where
  name := obj.kafka.name
  deleting := obj.deleting
  gate := parentVersionGate obj
  metrics := obj.kafka.spec.metricsConfig.isSome
  kafkaVersion := obj.kafka.spec.kafkaVersion

/-- A merge patch of the status. Absent fields keep their values. -/
def Object.mergeStatus (obj : Object) (patch : KafkaStatus) : Object :=
  let old := obj.status.getD {}
  { obj with
    status := some {
      conditions := patch.conditions
      kafkaVersion := patch.kafkaVersion.or old.kafkaVersion
      targetMetadataVersion := patch.targetMetadataVersion.or old.targetMetadataVersion
      metadataVersion := patch.metadataVersion.or old.metadataVersion } }

/-- One condition in place of the one with its type. -/
def Object.setCondition (obj : Object) (cond : Condition) : Object :=
  let old := obj.status.getD {}
  { obj with
    status := some { old with
      conditions := old.conditions.filter (·.type ≠ cond.type) ++ [cond] } }

/-! ## The world -/

structure World where
  kafka : Object
  pools : NodePool.World

/-- The world of the pool controller. -/
def World.view (w : World) : NodePool.World := { w.pools with kafkas := [w.kafka.parent] }

inductive UpgradeType where
  | upgrade
  | safeDowngrade
  deriving DecidableEq, Repr

inductive Req where
  /-- The object that a pass starts on. -/
  | object
  | listPools
  | listStatefulSets
  | adminClient
  | updateMetadataVersion (level : Int) (upgradeType : UpgradeType)
  /-- `patch_status_with_condition`. -/
  | patchCondition (cond : Condition)
  | patchStatus (status : KafkaStatus)
  /-- The calls of a pass that have nothing to do with versions. -/
  | rest
  | pool (r : NodePool.Req)

@[reducible] def Resp : Req → Type
  | .object => Object
  | .listPools => Except KubeError (List KafkaNodePool)
  | .listStatefulSets => Except KubeError (List StatefulSet)
  | .pool r => NodePool.Resp r
  | _ => Except KubeError Unit

def answer : (r : Req) → Choice → World → Resp r × World
  | .object, _, w => (w.kafka, w)
  | .listPools, c, w => answerRead c w (w.pools.poolsOf w.kafka.kafka.name)
  | .listStatefulSets, c, w => answerRead c w (w.pools.statefulSets.filter fun s =>
      s.labels["app.kubernetes.io/instance"]? = some w.kafka.kafka.name &&
        s.labels["app.kubernetes.io/name"]? = some appLabel)
  | .adminClient, c, w => answerRead c w ()
  | .updateMetadataVersion _ _, c, w => answerRead c w ()
  | .patchCondition cond, c, w => answerWrite c w { w with kafka := w.kafka.setCondition cond }
  | .patchStatus status, c, w => answerWrite c w { w with kafka := w.kafka.mergeStatus status }
  | .rest, c, w => answerRead c w ()
  | .pool r, c, w =>
    let (x, pools) := NodePool.answer r c w.view
    (x, { w with pools := pools })

abbrev Op (α : Type) := Prog Req Resp ReconcileError α

def kube {α : Type} : Except KubeError α → Op α
  | .ok x => pure x
  | .error e => .fail (.kube e)

def getObject : Op Object := Prog.request Req.object
def adminClient : Op (Except KubeError Unit) := Prog.request Req.adminClient
def updateMetadataVersion (level : Int) (upgradeType : UpgradeType) : Op (Except KubeError Unit) :=
  Prog.request (Req.updateMetadataVersion level upgradeType)
def listPools : Op (List KafkaNodePool) := Prog.request .listPools >>= kube
def listStatefulSets : Op (List StatefulSet) := Prog.request .listStatefulSets >>= kube
def patchCondition (cond : Condition) : Op Unit := Prog.request (.patchCondition cond) >>= kube
def patchStatus (status : KafkaStatus) : Op Unit := Prog.request (.patchStatus status) >>= kube
def rest : Op Unit := Prog.request .rest >>= kube

/-! ## The pass over the Kafka -/

/-- Every pool has rolled, and its StatefulSet has the version. -/
def poolsRolledToVersion (pools : List KafkaNodePool) (statefulSets : List StatefulSet)
    (version : String) : Bool :=
  pools ≠ [] && Cluster.poolsConverged pools statefulSets &&
    statefulSets.all fun sts => sts.labels["app.kubernetes.io/version"]? = some version

/-- What a pass finds besides the versions. -/
structure KafkaPass where
  /-- The checks of the runtime settings: a condition each, and an error. -/
  runtimeChecks : List (Condition × Option String) := []
  /-- The condition with which a stage after the finalization ends the pass. -/
  earlyExit : Option Condition := none
  conditions : List Condition := []
  laterConditions : List Condition := []
  /-- The texts of errors. -/
  errorText : KubeError → String := fun _ => ""

def validateRuntime : List (Condition × Option String) → Op Unit
  | [] => pure ()
  | (cond, why) :: checks => do
    patchCondition cond
    match why with
    | some why => .fail (.kafkaConfigInvalid why)
    | none => validateRuntime checks

section Pass

variable (printable : Char → Bool) (table : MetadataTable)

def evaluateKafkaVersion (obj : Object) : Condition × Option String :=
  match evaluate printable table obj.kafka.spec.kafkaVersion obj.kafka.spec.metadataVersion
      obj.metadataVersion with
  | .valid resolved =>
    (⟨"KafkaVersionValid", "True", "Valid",
      "kafkaVersion " ++ obj.kafka.spec.kafkaVersion ++ " metadata.version " ++ resolved⟩, some resolved)
  | .invalid reason message => (⟨"KafkaVersionValid", "False", reason.asStr, message⟩, none)

def updateFailed (message : String) : Condition :=
  ⟨"KafkaVersionValid", "False", "MetadataVersionUpdateFailed", message⟩

/-- The metadata version that is finalized after this pass. -/
def reconcileMetadataVersion (errorText : KubeError → String) (resolved finalized : Option String)
    (poolsRolled : Bool) : Op (Except Condition (Option String)) :=
  match resolved with
  | none => pure (.ok none)
  | some resolved =>
    match finalized with
    | none => pure (.ok (if poolsRolled then some resolved else none))
    | some finalized =>
      match table.fromVersionString resolved, table.fromVersionString finalized with
      | some targetLevel, some finalizedLevel =>
        if targetLevel = finalizedLevel then pure (.ok (some resolved))
        else if !poolsRolled then pure (.ok (some finalized))
        else do
          match ← adminClient with
          | .error e =>
            pure (.error (updateFailed ("UpdateFeatures connection failed: " ++ errorText e)))
          | .ok _ =>
            let upgradeType :=
              if targetLevel < finalizedLevel then .safeDowngrade else UpgradeType.upgrade
            match ← updateMetadataVersion targetLevel upgradeType with
            | .error e =>
              pure (.error (updateFailed ("UpdateFeatures rejected metadata.version " ++ resolved ++
                ": " ++ errorText e)))
            | .ok _ => pure (.ok (some resolved))
      | _, _ => pure (.ok none)

def upgradeCondition (kafkaVersion : String) (target resolved : Option String) (failed : Bool) :
    Condition :=
  match target with
  | none => ⟨"KafkaVersionUpgrade", "False", "InvalidTarget",
      "the requested Kafka or metadata version is invalid"⟩
  | some target =>
    if resolved = some target then
      ⟨"KafkaVersionUpgrade", "True", "Finalized", "all pools run " ++ kafkaVersion ++
        " and metadata.version " ++ target ++ " is finalized"⟩
    else if failed then
      ⟨"KafkaVersionUpgrade", "False", "AwaitingFinalize", "all pools run " ++ kafkaVersion ++
        ", but metadata.version " ++ target ++ " is not finalized"⟩
    else
      ⟨"KafkaVersionUpgrade", "False", "RollingImages", "waiting for every pool to run " ++
        kafkaVersion ++ " before finalizing metadata.version " ++ target⟩

/-- The status at the end of a pass. -/
def finalStatus (pass : KafkaPass) (obj : Object) (outcome : Except Condition (Option String)) :
    KafkaStatus :=
  let (evaluated, target) := evaluateKafkaVersion printable table obj
  let (verdict, resolved, failed) :=
    match outcome with
    | .ok resolved => (evaluated, resolved, false)
    | .error cond => (cond, none, true)
  { conditions := pass.conditions ++
      [verdict, upgradeCondition obj.kafka.spec.kafkaVersion target resolved failed] ++
      pass.laterConditions
    kafkaVersion := some obj.kafka.spec.kafkaVersion
    targetMetadataVersion := target
    metadataVersion := resolved.or obj.metadataVersion }

/-- The stages after the finalization. -/
def finishPass (pass : KafkaPass) (obj : Object) (outcome : Except Condition (Option String)) :
    Op Unit := do
  rest
  match pass.earlyExit with
  | some cond => patchCondition cond
  | none => do
    rest
    patchStatus (finalStatus printable table pass obj outcome)

/-- One pass over the `Kafka`. -/
def reconcileKafka (pass : KafkaPass) : Op Unit := do
  let obj ← getObject
  rest
  validateRuntime pass.runtimeChecks
  let pools ← listPools
  let statefulSets ← listStatefulSets
  let outcome ← reconcileMetadataVersion table pass.errorText
    (evaluateKafkaVersion printable table obj).2 obj.metadataVersion
    (poolsRolledToVersion pools statefulSets obj.kafka.spec.kafkaVersion)
  finishPass printable table pass obj outcome

end Pass

/-- One pass over a pool. -/
def reconcilePool (pass : NodePool.PoolPass) : Op Unit :=
  (NodePool.reconcileInner pass).refined (fun r => Prog.request (.pool r)) >>= fun _ => pure ()

/-! ## Both controllers -/

inductive Party where
  | kafka
  | pool (name : String)
  deriving DecidableEq, Repr

abbrev State := Interleave.State Party World Req Resp ReconcileError Unit

inductive Event where
  | startKafka (pass : KafkaPass)
  | startPool (pass : NodePool.PoolPass)
  /-- The next call of a running pass. -/
  | call (i : Party) (c : Choice)
  | edit (spec : KafkaSpec)
  /-- Everybody else changes the pools, the StatefulSets and the brokers. -/
  | change (f : NodePool.World → NodePool.World)

def World.editSpec (spec : KafkaSpec) (w : World) : World :=
  { w with kafka := { w.kafka with kafka := { w.kafka.kafka with spec := spec } } }

section Machine

variable (printable : Char → Bool) (table : MetadataTable)

def Event.move : Event → Interleave.Move Party World Choice Req Resp ReconcileError Unit
  | .startKafka pass => .start .kafka (reconcileKafka printable table pass)
  | .startPool pass => .start (.pool pass.pool.name) (reconcilePool pass)
  | .call i c => .request i c
  | .edit spec => .change (World.editSpec spec)
  | .change f => .change fun w => { w with pools := f w.pools }

def step (e : Event) (s : State) : State := Interleave.step answer (e.move printable table) s

/-- The states of a run, as a history of single steps. -/
def exec (e : Event) (s : State) : List State := [step printable table e s]

theorem finish_exec {e : Event} {s : State} :
    History.finish (exec printable table) e s = step printable table e s := rfl

/-- No pass is running. -/
def State.init (w : World) : State where
  world := w
  party := fun _ => (.ret (), [])
  history := []

end Machine

end Version
