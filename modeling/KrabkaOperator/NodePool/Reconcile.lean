-- SUMMARY: One reconcile pass over a KafkaNodePool: validation, the gates, the StatefulSet and the status, and the way of a pool that is deleted.
import KrabkaOperator.NodePool.Drain

/-!
# Pool passes

A pass validates the pool and the node ranges of its cluster, waits for the
controllers, opens the gates before a shrink, applies the StatefulSet, and copies
the state of the StatefulSet that it reads back into the status of the pool.
-/

namespace NodePool

open Kube Crd Operator

/-- What a pass gets from outside of the `World`. -/
structure PoolPass where
  pool : KafkaNodePool
  storageCheck : KafkaNodePool → Except (String × String) Unit := fun _ => .ok ()
  /-- Whether the storage may change from that of the live StatefulSet. -/
  storageChangeCheck : Except (String × String) Unit := .ok ()
  /-- The labels and annotations that the user adds to the pods. -/
  podLabels : BTreeMap String := ∅
  podAnnotations : BTreeMap String := ∅
  /-- Why the StatefulSet cannot be rendered. -/
  renderError : Option String := none
  /-- The directory ids of the nodes. -/
  directoryId : Int → String := fun _ => ""
  /-- Whether the pool has the controller that bootstraps the quorum, and the quorum is not
      initialized yet. -/
  bootstraps : Bool := false
  /-- Why the replication metrics of the brokers are not healthy. -/
  replicationHealth : Except (String × String) Unit := .ok ()

/-! ## The StatefulSet -/

def statefulSetName (cluster pool : String) : String := cluster ++ "-" ++ pool

def commonLabels (kafkaName kafkaVersion pool : String) : BTreeMap String :=
  BTreeMap.ofList [("app.kubernetes.io/name", appLabel), ("app.kubernetes.io/instance", kafkaName),
    ("app.kubernetes.io/version", kafkaVersion), ("app.kubernetes.io/managed-by", "krabka-operator"),
    ("krabka.io/pool", pool)]

/-- The roles variable of a pool with one role. -/
def separatedProcessRoles (roles : List NodeRole) : List EnvVar :=
  match (roleMask roles).controller, (roleMask roles).broker with
  | true, false => [⟨"KRABKA_PROCESS_ROLES", some "controller"⟩]
  | false, true => [⟨"KRABKA_PROCESS_ROLES", some "broker"⟩]
  | _, _ => []

/-- The labels of the operator win over those of the user. -/
def renderPodLabels (pass : PoolPass) (labels : BTreeMap String) : BTreeMap String :=
  let labels := if .controller ∈ pass.pool.spec.roles then
      labels.insert "krabka.io/controller-role" "true" else labels
  let labels := if .broker ∈ pass.pool.spec.roles then
      labels.insert "krabka.io/broker-role" "true" else labels
  pass.podLabels ∪ labels

def renderPodAnnotations (pass : PoolPass) : BTreeMap String :=
  let annotations := match pass.pool.configHash? with
    | some hash => pass.podAnnotations.insert "krabka.io/config-hash" hash
    | none => pass.podAnnotations
  (annotations.insert nodeIdStartAnnotation (toString pass.pool.spec.nodeIdStart)).insert
    processRolesAnnotation (roleMask pass.pool.spec.roles).name

def renderStatefulset (parent : Parent) (pass : PoolPass) : StatefulSet :=
  let pool := pass.pool
  let labels := commonLabels parent.name parent.kafkaVersion pool.name
  { name := statefulSetName parent.name pool.name
    labels
    annotations := BTreeMap.ofList [( nodeIdStartAnnotation, toString pool.spec.nodeIdStart),
      ( processRolesAnnotation, (roleMask pool.spec.roles).name)]
    generation := none
    spec := some {
      replicas := some pool.spec.replicas
      templateAnnotations := renderPodAnnotations pass
      templateLabels := renderPodLabels pass labels
      templateSpec := some {
        initContainers := [⟨[]⟩, ⟨[⟨"NODE_ID_START", some (toString pool.spec.nodeIdStart)⟩]⟩]
        containers := [⟨separatedProcessRoles pool.spec.roles⟩] } }
    status := none }

/-! ## Status -/

/-- The status fields that follow the live StatefulSet. -/
def deriveStatus (live : Option StatefulSet) (desired : Int) :
    Option Int × Option Int × String × String :=
  let (replicas, ready) := match live >>= (·.status) with
    | none => (none, none)
    | some st => (some st.replicas, st.readyReplicas)
  let count := ready.getD 0
  if count = desired then
    (replicas, ready, "Available", toString desired ++ " broker(s) ready")
  else if count = 0 then
    (replicas, ready, "NoBrokersReady", "0/" ++ toString desired ++ " brokers ready")
  else
    (replicas, ready, "PartiallyReady",
      toString count ++ "/" ++ toString desired ++ " brokers ready")

/-- Whether every node of the pool is a voter. -/
def votersCommitted (pass : PoolPass) (quorum : Quorum) : Bool :=
  (intRange pass.pool.spec.nodeIdStart (pass.pool.spec.nodeIdStart + pass.pool.spec.replicas)).all
    fun id => quorum.voters.contains ⟨id, pass.directoryId id⟩

/-- The `Ready` condition of a pool whose pods have the state `reason`. -/
def evaluatePoolReadiness (pass : PoolPass) (parent : Parent) (reason message : String) :
    Op Condition := do
  if reason ≠ "Available" then
    pure (notReady reason message)
  else
    let health ← (if .broker ∈ pass.pool.spec.roles ∧ parent.metrics = true then do
        effect .replicationMetrics
        pure pass.replicationHealth
      else
        pure (.ok ()))
    match health with
    | .error (why, text) => pure (notReady why text)
    | .ok _ =>
      if .controller ∉ pass.pool.spec.roles then
        pure ⟨"Ready", "True", reason, message⟩
      else
        match ← (effect .operatorBootstrapAddress).attempt with
        | .error _ => pure (notReady "AdminUnavailable" "")
        | .ok _ =>
          match ← (effect .adminClient).attempt with
          | .error _ => pure (notReady "QuorumMembershipUnknown"
              "pod is ready but quorum admin connection failed")
          | .ok _ =>
            match ← describeMetadataQuorum.attempt with
            | .error _ => pure (notReady "QuorumMembershipUnknown"
                "pod is ready but DescribeQuorum failed")
            | .ok quorum =>
              if votersCommitted pass quorum then
                pure ⟨"Ready", "True", "Available", message⟩
              else
                pure (notReady "QuorumMembershipPending"
                  "pods are ready but not every controller voter is committed")

/-! ## Deletion -/

/-- The drain proposal of a pool that goes away. -/
def deleteDeletionRebalance (cluster pool : String) : Op Unit := do
  match ← getRebalance (brokerDrainName cluster pool 0) with
  | none => pure ()
  | some _ => deleteRebalance (brokerDrainName cluster pool 0)

/-- Removes the last voter of a pool that goes away. `none` when it has none left. -/
def removeDeletedVoter (pool : String) (start replicas : Int) : Op (Option Action) := do
  effect .getClusterId
  effect .operatorBootstrapAddress
  match ← (effect .adminClient).attempt with
  | .error _ => pure (some .requeue)
  | .ok _ =>
    match ← describeMetadataQuorum.attempt with
    | .error _ => pure (some .requeue)
    | .ok quorum =>
      match (checkedAdd start (replicas - 1)).filter (· ≤ maxNodeId) with
      | none => .fail (.malformed "observed controller node-id range overflow")
      | some last =>
        match lastVoterIn quorum.voters start last with
        | none => pure none
        | some target =>
          if quorum.voters.length = 1 then
            patchStatusForPool pool (notReady "LastVoterDeletionBlocked"
              "cannot delete the last metadata-quorum voter")
            pure (some .requeue)
          else
            match ← (removeRaftVoter target).attempt with
            | .error _ => pure (some .requeue)
            | .ok _ => pure (some .requeue)

/-- Let a pool go once it has no pods. -/
def dropFinalizer (cluster : String) (pool : KafkaNodePool) (pods : List Pod) (roles : RoleMask) :
    Op Action :=
  if pods ≠ [] then
    pure .requeue
  else do
    Prog.when roles.broker (deleteDeletionRebalance cluster pool.name)
    setFinalizer pool false
    pure .awaitChange

/-- The end of a deletion: no replicas, no pods, no finalizer. -/
def releasePool (cluster : String) (pool : KafkaNodePool) (sts : Option StatefulSet) (pods : List Pod)
    (roles : RoleMask) : Op Action := do
  Prog.when sts.isSome (scaleToZero (statefulSetName cluster pool.name))
  dropFinalizer cluster pool pods roles

/-- The nodes that a deletion finds: those of the StatefulSet and of the pods that are
    left, with the spec as a fallback. -/
structure DeletedNodes where
  replicas : Int
  start : Int
  roles : RoleMask

def deletedNodes (pool : KafkaNodePool) (cluster : String) (sts : Option StatefulSet)
    (pods : List Pod) : DeletedNodes :=
  let identity := (sts.map observedStatefulsetIdentity).getD (none, none)
  let podIdentity := (pods.head?.map observedPodIdentity).getD (none, none)
  { replicas := max ((sts.map observedStatefulsetReplicas).getD 0)
      (observedPoolPodReplicas pods (statefulSetName cluster pool.name))
    start := (identity.1.or podIdentity.1).getD pool.spec.nodeIdStart
    roles := (identity.2.or podIdentity.2).getD (roleMask pool.spec.roles) }

/-- The way of a pool whose parent stays: its brokers are drained and its voters removed. -/
def retireNodes (pool : KafkaNodePool) (cluster : String) (sts : Option StatefulSet)
    (pods : List Pod) (nodes : DeletedNodes) : Op Action := do
  let drained ← (if nodes.roles.broker ∧ 0 < nodes.replicas then
      reconcileBrokerDrain pool cluster nodes.replicas 0 nodes.start
    else
      pure none)
  match drained with
  | some action => pure action
  | none =>
    let removed ← (if nodes.roles.controller then
        removeDeletedVoter pool.name nodes.start (max pool.spec.replicas nodes.replicas)
      else
        pure none)
    match removed with
    | some action => pure action
    | none => releasePool cluster pool sts pods nodes.roles

def reconcileDeletion (pool : KafkaNodePool) (parent : Option Parent) (cluster : String) :
    Op Action := do
  if finalizer ∉ pool.finalizers then
    pure .awaitChange
  else
    let sts ← getStatefulSet (statefulSetName cluster pool.name)
    let allPods ← listPods cluster
    let pods := allPods.filter fun p => poolLabelsMatch p.labels pool.name
    let nodes := deletedNodes pool cluster sts pods
    if (parent.map (·.deleting)).getD true then
      releasePool cluster pool sts pods nodes.roles
    else
      retireNodes pool cluster sts pods nodes

/-! ## The pass -/

def roleText : NodeRole → String
  | .broker => "Broker"
  | .controller => "Controller"

/-- The condition of an error in the spec. -/
def conditionForValidationError : PoolValidationError → Condition
  | .rolesEmpty => notReady "RolesEmpty" "spec.roles must contain at least one role"
  | .duplicateRole role =>
    notReady "DuplicateRole" ("spec.roles contains duplicate role " ++ roleText role)
  | .replicasInvalid n =>
    notReady "InvalidReplicaCount" ("spec.replicas=" ++ toString n ++ " must be at least 1")
  | .nodeIdOutOfRange n => notReady "NodeIdOutOfRange"
      ("spec.nodeIdStart=" ++ toString n ++ " is out of range 0..=999999")
  | .nodeIdRangeOutOfRange pool start replicas => notReady "NodeIdRangeOutOfRange"
      ("node-id range for pool \"" ++ pool ++ "\" exceeds 0..=999999 (start=" ++ toString start ++
        ", replicas=" ++ toString replicas ++ ")")
  | .nodeIdRangeOverlap first second => notReady "NodeIdRangeOverlap"
      ("node-id ranges overlap between pools \"" ++ first ++ "\" and \"" ++ second ++ "\"")
  | .nodeIdStartChanged pool observed desired => notReady "NodeIdStartImmutable"
      ("spec.nodeIdStart changed for pool \"" ++ pool ++ "\" from observed " ++ toString observed ++
        " to desired " ++ toString desired)
  | .rolesChanged pool observed desired => notReady "RolesImmutable"
      ("spec.roles changed for pool \"" ++ pool ++ "\" from observed " ++ observed ++
        " to desired " ++ desired)
  | .noControllerNodes => notReady "NoControllerNodes" "the cluster has no Controller-role node"
  | .storage reason message => notReady reason message

def ensureDirectoryIds : List Int → Op Unit
  | [] => pure ()
  | id :: ids => do
    effect (.ensureQuorumDirectoryId id)
    ensureDirectoryIds ids

/-- Read the StatefulSet back and copy its state into the status. -/
def reportPool (pass : PoolPass) (parent : Parent) : Op Action := do
  let pool := pass.pool
  Prog.when (.broker ∈ pool.spec.roles) (effect .applyPodDisruptionBudget)
  let live ← getStatefulSet (statefulSetName parent.name pool.name)
  let (replicas, ready, reason, message) := deriveStatus live pool.spec.replicas
  let condition ← evaluatePoolReadiness pass parent reason message
  Prog.when (condition.status = "True" ∧ pass.bootstraps)
    (effect .markQuorumBootstrapInitialized)
  patchStatus pool.name ⟨replicas, ready, [condition]⟩
  pure .requeue

/-- The StatefulSet, and what follows it. -/
def applyPool (pass : PoolPass) (parent : Parent) : Op Action :=
  match pass.renderError with
  | some why => .fail (.malformed why)
  | none => do
    applyStatefulSet (renderStatefulset parent pass)
    reportPool pass parent

/-- What a pass does once the parent is there and its version is cleared. -/
def reconcilePool (pass : PoolPass) (parent : Parent) : Op Action := do
  let pool := pass.pool
  let siblings ← listPools parent.name
  let statefulsets ← listStatefulSets parent.name
  let pods ← listPods parent.name
  match validateTopology pass.storageCheck siblings statefulsets
      (pods.filter fun p => p.labels["app.kubernetes.io/name"]? = some appLabel) with
  | .error e =>
    patchStatusForPool pool.name (conditionForValidationError e)
    pure .awaitChange
  | .ok _ =>
    if .controller ∉ pool.spec.roles ∧ (siblings.any fun sibling =>
        .controller ∈ sibling.spec.roles && !poolIsAvailable sibling) = true then
      patchStatusForPool pool.name (notReady "WaitingForControllers"
        "waiting for all Controller-role pools to become ready")
      pure .requeue
    else if (siblings.any fun sibling => (validate pass.storageCheck sibling).isOk &&
        .controller ∈ sibling.spec.roles) = false then
      .fail (.malformed "no valid KafkaNodePool available for quorum bootstrap")
    else
      effect .ensureQuorumBootstrapState
      ensureDirectoryIds (intRange pool.spec.nodeIdStart
        (pool.spec.nodeIdStart + pool.spec.replicas))
      let observed ← getStatefulSet (statefulSetName parent.name pool.name)
      match pass.storageChangeCheck with
      | .error (reason, message) =>
        patchStatusForPool pool.name (notReady reason message)
        pure .awaitChange
      | .ok _ =>
        match ← reconcileControllerScaleDown pool parent.name observed with
        | some action => pure action
        | none => applyPool pass parent

/-- One pass over a `KafkaNodePool`. -/
def reconcileInner (pass : PoolPass) : Op Action := do
  let pool := pass.pool
  match validate pass.storageCheck pool with
  | .error e =>
    patchStatusForPool pool.name (conditionForValidationError e)
    pure .awaitChange
  | .ok _ =>
    match pool.cluster? with
    | none =>
      patchStatusForPool pool.name (notReady "MissingClusterLabel"
        "metadata.labels.\"krabka.io/cluster\" is required to link a pool to its parent Kafka")
      pure .awaitChange
    | some cluster =>
      let parent ← getKafka cluster
      if pool.deleting then
        reconcileDeletion pool parent cluster
      else
        match parent with
        | none =>
          patchStatusForPool pool.name (notReady "ParentNotFound"
            ("Kafka '" ++ cluster ++ "' not found in namespace"))
          pure .requeue
        | some parent =>
          if finalizer ∉ pool.finalizers then
            setFinalizer pool true
            pure .requeue
          else
            match parent.gate with
            | .invalid status reason message =>
              patchStatusForPool pool.name (notReady "KafkaVersionInvalid"
                ("refusing to format brokers: parent Kafka '" ++ parent.name ++
                  "' KafkaVersionValid=" ++ status ++ " (" ++ reason ++ "): " ++ message))
              pure .requeue
            | .waiting =>
              patchStatusForPool pool.name (notReady "WaitingForVersionValidation"
                ("waiting for parent Kafka '" ++ parent.name ++
                  "' to publish a KafkaVersionValid verdict before formatting brokers"))
              pure .requeue
            | .cleared => reconcilePool pass parent

end NodePool
