-- SUMMARY: The topic controller: its resource, its requests to the API server and to the brokers, and one reconcile pass.
import KrabkaOperator.Admin.Client
import KrabkaOperator.Base.Prog
import KrabkaOperator.Base.Text
import KrabkaOperator.Operator.World

/-!
# KafkaTopic passes

The topic that a pass works on comes from the current spec only. The pass creates the
topic when the brokers do not know it and brings it in line with the spec otherwise;
the pass over a deleted resource deletes the topic, best effort, and takes the
finalizer off.
-/

namespace Topic

open Kube Crd Operator Admin

def finalizer : String := "krabka.io/topic-finalizer"

/-! ## The resource -/

structure KafkaTopicSpec where
  topicName : Option String := none
  partitions : Int := 1
  replicas : Int := 1
  config : Option (BTreeMap String) := none
  preserveTopic : Bool := false

structure KafkaTopicStatus where
  conditions : List Condition
  observedGeneration : Option Int
  topicName : Option String
  topicId : Option String
  deriving DecidableEq, Repr

structure KafkaTopic where
  name : String
  labels : BTreeMap String := ∅
  generation : Option Int := none
  /-- Whether a deletion timestamp is set. -/
  deleting : Bool := false
  finalizers : List String := []
  spec : KafkaTopicSpec := {}
  status : Option KafkaTopicStatus := none

namespace KafkaTopic

def cluster? (obj : KafkaTopic) : Option String := obj.labels["krabka.io/cluster"]?

/-- The name of the topic, which defaults to the name of the resource. -/
def topicName (obj : KafkaTopic) : String := obj.spec.topicName.getD obj.name

def hasFinalizer (obj : KafkaTopic) : Bool := obj.finalizers.contains finalizer

end KafkaTopic

/-- The rules of Kafka for a topic name. `printable` is the part of the debug format that
    depends on Unicode. -/
def validateKafkaTopicName (printable : Char → Bool) (name : String) : Except String Unit :=
  if name = "" then
    .error "topic name is empty"
  else if name.utf8ByteSize > 249 then
    .error ("topic name length " ++ toString name.utf8ByteSize ++ " exceeds 249")
  else if name = "." ∨ name = ".." then
    .error "topic name cannot be \".\" or \"..\""
  else if !name.toList.all fun c => c.isAlphanum || c = '.' || c = '_' || c = '-' then
    .error ("topic name " ++ Text.debug printable name.toList ++ " contains invalid characters")
  else
    .ok ()

/-! ## Requests -/

structure CreateTopicSpec where
  name : String
  partitions : Int
  replicas : Int
  configs : BTreeMap String

/-- What `Metadata` says about a topic. -/
structure TopicMetadata where
  name : String
  error : Option KafkaError := none
  topicId : Option String := none
  partitionCount : Int
  deriving DecidableEq, Repr

structure CreateTopicOutcome where
  error : Option KafkaError := none
  topicId : Option String := none
  deriving DecidableEq, Repr

inductive TopicReplicationStatus where
  | inSync
  | reassignmentInProgress
  | reassignmentSubmitted
  deriving DecidableEq, Repr

inductive AlterConfigOp where
  | set (key value : String)
  | delete (key : String)
  deriving DecidableEq, Repr

/-- Calls of the admin client. -/
inductive AdminReq where
  | connect (bootstrap : String)
  | metadata (topic : String)
  | createTopics (spec : CreateTopicSpec)
  | deleteTopics (topic : String)
  | createPartitions (topic : String) (newTotalCount : Int)
  | reconcileTopicReplicationFactor (topic : String) (replicas : Int)
  | describeConfigs (topic : String)
  | incrementalAlterConfigs (topic : String) (ops : List AlterConfigOp)

@[reducible] def AdminResp : AdminReq → Type
  | .connect _ => Except AdminError Unit
  | .metadata _ => Except AdminError (List TopicMetadata)
  | .createTopics _ => Except AdminError CreateTopicOutcome
  | .deleteTopics _ => Except AdminError Unit
  | .createPartitions _ _ => Except AdminError (Option KafkaError)
  | .reconcileTopicReplicationFactor _ _ => Except AdminError TopicReplicationStatus
  -- The dynamic overrides of the topic, when the answer has an entry for it.
  | .describeConfigs _ => Except AdminError (Option (Except KafkaError (BTreeMap String)))
  | .incrementalAlterConfigs _ _ => Except AdminError (Option KafkaError)

inductive Req where
  | getKafka (name : String)
  | patchStatus (status : KafkaTopicStatus)
  | setFinalizers (finalizers : List String)
  | admin (r : AdminReq)

@[reducible] def Resp : Req → Type
  | .getKafka _ => Except KubeError (Option Parent)
  | .patchStatus _ => Except KubeError Unit
  | .setFinalizers _ => Except KubeError Unit
  | .admin r => AdminResp r

abbrev Op (α : Type) := Prog Req Resp ReconcileError α

def kube {α : Type} : Except KubeError α → Op α
  | .ok x => pure x
  | .error e => .fail (.kube e)

def getKafka (name : String) : Op (Option Parent) := Prog.request (.getKafka name) >>= kube

def setFinalizers (finalizers : List String) : Op Unit :=
  Prog.request (.setFinalizers finalizers) >>= kube

def admin (r : AdminReq) : Op (AdminResp r) := Prog.request ( Req.admin r)

/-- Builds the status and patches it. -/
def patchStatus (obj : KafkaTopic) (status reason message : String) (topicId : Option String)
    (advanceGeneration : Bool) : Op Unit :=
  Prog.request (.patchStatus {
    conditions := [⟨"Ready", status, reason, message⟩]
    observedGeneration :=
      if advanceGeneration then obj.generation else obj.status >>= (·.observedGeneration)
    topicName := some obj.topicName
    topicId }) >>= kube

/-! ## One pass -/

section Pass

variable (cfg : Config) (printable : Char → Bool)

inductive TopicPreparation where
  | ready (cluster bootstrap topicName : String)
  | done (action : Action)
  deriving DecidableEq, Repr

def brokerError (op : String) (e : KafkaError) : String :=
  op ++ ": " ++ e.name ++ " (" ++ toString e.code ++ ")"

def createTopic (obj : KafkaTopic) (topicName : String) : Op Action := do
  match ← admin (.createTopics ⟨topicName, obj.spec.partitions, obj.spec.replicas,
      obj.spec.config.getD ∅⟩) with
  | .error _ => pure (.requeue cfg.controllerErrorRequeue)
  | .ok outcome =>
    match outcome.error with
    | some e =>
      patchStatus obj "False" "BrokerError" (brokerError "CreateTopics" e) none false
      pure (.requeue cfg.controllerErrorRequeue)
    | none =>
      patchStatus obj "True" "Ready" "topic created" outcome.topicId true
      pure (.requeue cfg.controllerDriftRequeue)

/-- Best effort: an error does not keep the finalizer. -/
def deleteTopic (obj : KafkaTopic) (bootstrap topicName : String) : Op Unit := do
  if obj.spec.preserveTopic then
    pure ()
  else
    match ← admin (.connect bootstrap) with
    | .error _ => pure ()
    | .ok _ =>
      let _ ← admin (.deleteTopics topicName)
      pure ()

def prepareTopic (obj : KafkaTopic) : Op TopicPreparation := do
  match obj.cluster? with
  | none =>
    patchStatus obj "False" "MissingClusterLabel"
      "metadata.labels[\"krabka.io/cluster\"] is required" none false
    pure (.done (.requeue cfg.controllerDriftRequeue))
  | some cluster =>
    match validateKafkaTopicName printable obj.topicName with
    | .error message =>
      patchStatus obj "False" "InvalidTopicName" message none false
      pure (.done (.requeue cfg.controllerInvalidRequeue))
    | .ok _ =>
      let kafka ← getKafka cluster
      match kafka >>= operatorListenerBootstrap with
      | none =>
        patchStatus obj "False" "ClusterNotReady"
          ("Kafka/" ++ cluster ++ " not Ready or no internal listener") none false
        pure (.done (.requeue cfg.controllerDependencyRequeue))
      | some bootstrap =>
        if obj.deleting then do
          deleteTopic obj bootstrap obj.topicName
          setFinalizers []
          pure (.done .awaitChange)
        else if !obj.hasFinalizer then do
          setFinalizers [finalizer]
          pure (.done (.requeue 0))
        else
          pure (.ready cluster bootstrap obj.topicName)

/-- `none` when the topic is in sync. -/
def reconcileReplicationFactor (obj : KafkaTopic) (topicName : String) (topicId : Option String) :
    Op (Option Action) := do
  let reassigning (message : String) : Op (Option Action) := do
    patchStatus obj "False" "Reassigning" message topicId false
    pure (some (.requeue cfg.controllerDependencyRequeue))
  match ← admin (.reconcileTopicReplicationFactor topicName obj.spec.replicas) with
  | .ok .inSync => pure none
  | .ok .reassignmentInProgress => reassigning "partition reassignment in progress"
  | .ok .reassignmentSubmitted => reassigning "partition reassignment submitted"
  | .error (.broker api e) =>
    patchStatus obj "False" "BrokerError"
      (brokerError api e ++ (e.message.map (": " ++ ·)).getD "") topicId false
    pure (some (.requeue cfg.controllerErrorRequeue))
  | .error (.other _ _) => pure (some (.requeue cfg.controllerErrorRequeue))

/-- The changes that bring `current` to `desired`. -/
def diffConfigs (current desired : BTreeMap String) : List AlterConfigOp :=
  (desired.toList.filter fun (k, v) => current[k]? ≠ some v).map (fun (k, v) => .set k v) ++
    (current.keys.filter fun k => !desired.contains k).map .delete

def alterConfigs (topicName : String) (ops : List AlterConfigOp) :
    Op (Except AdminError (Option KafkaError)) :=
  if ops = [] then pure (.ok none) else admin (.incrementalAlterConfigs topicName ops)

/-- The config of a topic that is in sync otherwise. -/
def reconcileConfigs (obj : KafkaTopic) (topicName : String) (topicId : Option String) :
    Op Action := do
  match ← admin (.describeConfigs topicName) with
  | .ok (some (.ok overrides)) =>
    match ← alterConfigs topicName (diffConfigs overrides (obj.spec.config.getD ∅)) with
    | .error _ => pure (.requeue cfg.controllerErrorRequeue)
    | .ok (some e) =>
      patchStatus obj "False" "BrokerError" (brokerError "IncrementalAlterConfigs" e) topicId false
      pure (.requeue cfg.controllerErrorRequeue)
    | .ok none =>
      patchStatus obj "True" "Ready" "topic in sync" topicId true
      pure (.requeue cfg.controllerDriftRequeue)
  | _ => pure (.requeue cfg.controllerErrorRequeue)

def growPartitions (obj : KafkaTopic) (topicName : String) (cur : TopicMetadata) :
    Op (Except AdminError (Option KafkaError)) :=
  if cur.partitionCount < obj.spec.partitions then
    admin (.createPartitions topicName obj.spec.partitions)
  else
    pure (.ok none)

/-- A topic that the brokers know. -/
def syncTopic (obj : KafkaTopic) (topicName : String) (cur : TopicMetadata) : Op Action := do
  if cur.partitionCount > obj.spec.partitions then
    patchStatus obj "False" "ImmutableFieldChanged"
      "spec.partitions decrease is not supported by Kafka" cur.topicId false
    pure (.requeue cfg.controllerInvalidRequeue)
  else
    match ← growPartitions obj topicName cur with
    | .error _ => pure (.requeue cfg.controllerErrorRequeue)
    | .ok (some e) =>
      patchStatus obj "False" "BrokerError" (brokerError "CreatePartitions" e) cur.topicId false
      pure (.requeue cfg.controllerErrorRequeue)
    | .ok none =>
      match ← reconcileReplicationFactor cfg obj topicName cur.topicId with
      | some action => pure action
      | none => reconcileConfigs cfg obj topicName cur.topicId

/-- A topic that the brokers answer about without an error. -/
def current? (topics : List TopicMetadata) (topicName : String) : Option TopicMetadata :=
  (topics.find? (·.name = topicName)).filter (·.error.isNone)

def reconcileInner (obj : KafkaTopic) : Op Action := do
  match ← prepareTopic cfg printable obj with
  | .done action => pure action
  | .ready _ bootstrap topicName =>
    match ← admin (.connect bootstrap) with
    | .error _ => pure (.requeue cfg.controllerErrorRequeue)
    | .ok _ =>
      match ← admin (.metadata topicName) with
      | .error _ => pure (.requeue cfg.controllerErrorRequeue)
      | .ok topics =>
        match current? topics topicName with
        | none => createTopic cfg obj topicName
        | some cur => syncTopic cfg obj topicName cur

end Pass

/-! ## The world -/

/-- The brokers as the admin client sees them: any state, and any way to answer. -/
structure Brokers (β : Type) where
  answer : (r : AdminReq) → β → AdminResp r × β

structure World (β : Type) where
  topic : KafkaTopic
  kafkas : List Parent
  brokers : β

def World.kafka? {β : Type} (w : World β) (name : String) : Option Parent :=
  w.kafkas.find? (·.kafka.name = name)

/-- The API server carries out every request. -/
def answer {β : Type} (brokers : Brokers β) : (r : Req) → World β → Resp r × World β
  | .getKafka name, w => (.ok (w.kafka? name), w)
  | .patchStatus status, w => (.ok (), { w with topic := { w.topic with status := some status } })
  | .setFinalizers finalizers, w =>
    (.ok (), { w with topic := { w.topic with finalizers := finalizers } })
  | .admin r, w => ((brokers.answer r w.brokers).1,
      { w with brokers := (brokers.answer r w.brokers).2 })

/-- One pass over the stored resource. -/
def pass {β : Type} (cfg : Config) (printable : Char → Bool) (brokers : Brokers β) (w : World β) :
    Except ReconcileError Action × World β :=
  (reconcileInner cfg printable w.topic).complete (answer brokers) w

end Topic
