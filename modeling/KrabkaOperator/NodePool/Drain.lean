-- SUMMARY: The gates before a pool shrinks: the drain of its brokers, their unregistration, and the removal of its voters.
import KrabkaOperator.NodePool.World

/-!
# Shrinking a pool

Before the StatefulSet of a pool gets fewer replicas, a remove-brokers proposal
must be complete, no partition may have a replica on a removed broker, each
removed broker must be recorded as unregistered, and no removed node may be a
voter. Each gate that is not open ends the pass.
-/

namespace NodePool

open Kube Crd Operator

/-- How a pass ends. -/
inductive Action where
  | awaitChange
  | requeue
  deriving DecidableEq, Repr

/-- A `Ready=False` condition. -/
def notReady (reason message : String) : Condition := ⟨"Ready", "False", reason, message⟩

/-- Patch the conditions of a pool only. -/
def patchStatusForPool (pool : String) (cond : Condition) : Op Unit :=
  patchStatus pool ⟨none, none, [cond]⟩

def patchBrokerDrainCondition (pool reason message : String) : Op Action := do
  patchStatusForPool pool (notReady reason message)
  pure .requeue

/-- The consecutive integers from `lo` up to, not including, `hi`. -/
def intRange (lo hi : Int) : List Int := (List.range (hi - lo).toNat).map fun (n : Nat) => lo + n

def removedBrokerIds (nodeIdStart observed desired : Int) : List Int :=
  intRange (saturatingAdd nodeIdStart desired) (saturatingAdd nodeIdStart observed)

def brokerDrainName (cluster pool : String) (desired : Int) : String :=
  cluster ++ "-" ++ pool ++ "-drain-to-" ++ toString desired

/-- The ids that an annotation value lists. -/
def parseIds (value : String) : List Int :=
  (value.toList.splitOn ',').filterMap fun part => Decimal.parseI32 (String.ofList part)

def recordedUnregistrations (pool : KafkaNodePool) : List Int :=
  match pool.annotations[ unregisteredBrokersAnnotation]? with
  | none => []
  | some value => parseIds value

/-- An ordered set of ids as an annotation value. -/
def idsText (ids : List Int) : String :=
  String.ofList ([','].intercalate (((ids.dedup).insertionSort (· ≤ ·)).map fun id =>
    (toString id).toList))

/-- A list of ids in messages. -/
def debugIds (ids : List Int) : String :=
  "[" ++ ", ".intercalate (ids.map toString) ++ "]"

def drainAuthorization (cluster : String) : SecretKeyRef := ⟨cluster ++ "-rebalancer-auth", "token"⟩

def managedDrainMatches (rebalance : KafkaRebalance) (brokers : List Int)
    (authorization : SecretKeyRef) : Bool :=
  rebalance.spec.mode = .removeBrokers && rebalance.spec.brokers = brokers &&
    rebalance.spec.authorizationSecretRef = some authorization

def drainProposal (cluster pool : String) (desired : Int) (brokers : List Int) : KafkaRebalance where
  name := brokerDrainName cluster pool desired
  generation := none
  command := none
  spec := ⟨.removeBrokers, brokers, some (drainAuthorization cluster)⟩
  status := none

def brokerDrainWaitingMessage (rebalance : KafkaRebalance) (brokers : List Int) : String :=
  let waiting := "waiting for remove-brokers proposal for " ++ debugIds brokers
  match rebalance.activeCondition?.filter (·.message ≠ "") with
  | some condition => waiting ++ ": " ++ condition.message
  | none => waiting

/-- Ask for a new plan, unless a command is pending. -/
def refreshBrokerDrain (name : String) (rebalance : KafkaRebalance) : Op Unit :=
  if rebalance.command.isSome then pure () else commandRebalance name "refresh"

/-- The wait for the proposal. `none` lets the pass go on. -/
def awaitProposal (pool name : String) (rebalance : KafkaRebalance) (brokers : List Int) :
    Op (Option Action) :=
  match rebalance.currentState with
  | .proposalReady => do
    commandRebalance name "approve"
    some <$> patchBrokerDrainCondition pool "BrokerDrainInProgress"
      ("approved remove-brokers proposal for " ++ debugIds brokers)
  | .notReady | .stopped =>
    some <$> patchBrokerDrainCondition pool "BrokerDrainBlocked"
      ((rebalance.activeCondition?.map (·.message)).getD
        ("remove-brokers proposal for " ++ debugIds brokers ++ " cannot proceed"))
  | .new | .rebalancing =>
    some <$> patchBrokerDrainCondition pool "BrokerDrainInProgress"
      (brokerDrainWaitingMessage rebalance brokers)
  | .ready =>
    if (rebalance.status >>= (·.observedGeneration)) ≠ rebalance.generation then
      some <$> patchBrokerDrainCondition pool "BrokerDrainInProgress"
        "waiting for the current remove-brokers proposal generation"
    else
      pure none

/-- The checks with the brokers once the proposal is complete, and the next
    unregistration. `none` lets the pass go on. -/
def checkRemoved (pool : KafkaNodePool) (name : String) (rebalance : KafkaRebalance)
    (brokers : List Int) : Op (Option Action) := do
  effect .operatorBootstrapAddress
  effect .adminClient
  let assignments ← describePartitionAssignments
  match assignments.find? (·.uses brokers) with
  | some assignment =>
    refreshBrokerDrain name rebalance
    some <$> patchBrokerDrainCondition pool.name "BrokerDrainInProgress"
      ("refreshing completed remove-brokers proposal: " ++ assignment.topic ++ "-" ++
        toString assignment.partition ++ " still has a replica on removed brokers")
  | none =>
    let inFlight ← listPartitionReassignments
    if inFlight.any (·.mentions brokers) then
      some <$> patchBrokerDrainCondition pool.name "BrokerDrainBlocked"
        "a reassignment still references a removed broker"
    else
      let recorded := recordedUnregistrations pool
      match brokers.find? (fun id => id ∉ recorded) with
      | some id =>
        unregisterBroker id
        annotateUnregistered pool.name (idsText (id :: recorded))
        some <$> patchBrokerDrainCondition pool.name "BrokerDrainInProgress"
          ("unregistered broker " ++ toString id)
      | none => pure none

/-- The message of a drain whose proposal is one for other brokers. -/
def mismatchMessage : String := "managed remove-brokers proposal does not match the requested drain"

/-- Holds the removal of pods behind a durable proposal, a fresh read of the assignments
    and one recorded unregistration for each removed broker. -/
def reconcileBrokerDrain (pool : KafkaNodePool) (cluster : String)
    (observedReplicas desiredReplicas nodeIdStart : Int) : Op (Option Action) := do
  if observedReplicas ≤ desiredReplicas then
    pure none
  else
    let brokers := removedBrokerIds nodeIdStart observedReplicas desiredReplicas
    let name := brokerDrainName cluster pool.name desiredReplicas
    match ← getRebalance name with
    | none =>
      applyRebalance (drainProposal cluster pool.name desiredReplicas brokers)
      some <$> patchBrokerDrainCondition pool.name "BrokerDrainInProgress"
        ("created remove-brokers proposal for " ++ debugIds brokers)
    | some rebalance =>
      if !managedDrainMatches rebalance brokers (drainAuthorization cluster) then
        some <$> patchBrokerDrainCondition pool.name "BrokerDrainBlocked" mismatchMessage
      else
        match ← awaitProposal pool.name name rebalance brokers with
        | some action => pure (some action)
        | none => checkRemoved pool name rebalance brokers

/-! ## Voters -/

/-- The voter with the largest id in the range. Of several with one id, it is the last. -/
def lastVoterIn (voters : List Voter) (first last : Int) : Option Voter :=
  (voters.filter fun v => first ≤ v.nodeId ∧ v.nodeId ≤ last).foldl
    (fun best v => match best with
      | none => some v
      | some b => if b.nodeId ≤ v.nodeId then some v else some b) none

def rangeOverflow : ReconcileError := .malformed "controller node-id range overflow"

/-- Removes the last voter of the removed range, unless it is the last one of all. The
    removal goes through the client of the leader. -/
def removeNextVoter (pool : String) (first last : Int) : Op (Option Action) := do
  effect .getClusterId
  effect .operatorBootstrapAddress
  effect .adminClient
  let quorum ← describeMetadataQuorum
  match lastVoterIn quorum.voters first last with
  | none => pure none
  | some target =>
    if quorum.voters.length = 1 then
      patchStatusForPool pool (notReady "LastVoterScaleDownBlocked"
        "cannot scale down the last metadata-quorum voter")
      pure (some .requeue)
    else
      effect .adminClient
      removeRaftVoter target
      patchStatusForPool pool (notReady "QuorumScaleDownInProgress"
        ("removed voter " ++ toString target.nodeId ++ "; waiting before scaling pods"))
      pure (some .requeue)

/-- The gates before a pool shrinks. `none` lets the pass apply its StatefulSet. -/
def reconcileControllerScaleDown (pool : KafkaNodePool) (cluster : String)
    (observed : Option StatefulSet) : Op (Option Action) := do
  match observed >>= (·.spec) >>= (·.replicas) with
  | none => pure none
  | some observedReplicas =>
    let identity := (observed.map observedStatefulsetIdentity).getD (none, none)
    let roles := identity.2.getD (roleMask pool.spec.roles)
    if observedReplicas ≤ pool.spec.replicas then
      pure none
    else
      let start := identity.1.getD pool.spec.nodeIdStart
      let drained ← (if roles.broker then
          reconcileBrokerDrain pool cluster observedReplicas pool.spec.replicas start
        else
          pure none)
      match drained with
      | some action => pure (some action)
      | none =>
        if !roles.controller then
          pure none
        else
          match checkedAdd start pool.spec.replicas, checkedAdd start (observedReplicas - 1) with
          | some first, some last => removeNextVoter pool.name first last
          | _, _ => .fail rangeOverflow

end NodePool
