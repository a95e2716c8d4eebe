-- SUMMARY: The KafkaRebalance resource, the proposals of the rebalancer, and the outcome and the status of a pass.
import KrabkaOperator.Base.Text
import KrabkaOperator.NodePool.World

/-!
# The life of a rebalance

The state of a `KafkaRebalance` is the type of its active condition, and a command
is the value of its annotation. A pass decides from both which call it makes, and
maps the answer to an outcome, which becomes the whole status.
-/

namespace Rebalance

open NodePool (RebalanceState KafkaRebalanceMode SecretKeyRef)

/-! ## Proposals -/

inductive ProposalStatus where
  | unspecified
  | computed
  | executing
  | completed
  | failed
  | cancelled
  deriving DecidableEq, Repr

structure ProposalSummary where
  replicaMovements : Int := 0
  leaderMovements : Int := 0
  maxReplicasBefore : Int := 0
  maxReplicasAfter : Int := 0
  maxLeadersBefore : Int := 0
  maxLeadersAfter : Int := 0
  deriving DecidableEq, Repr

structure RebalancerProposal where
  id : String
  status : ProposalStatus
  summary : ProposalSummary := {}
  goalsApplied : List String := []
  failureReason : Option String := none
  deriving DecidableEq, Repr

inductive RebalancerError where
  | transport (message : String)
  | rpc (code message : String)
  | decode (message : String)
  deriving DecidableEq, Repr

def RebalancerError.text : RebalancerError → String
  | .transport message => "rebalancer transport error: " ++ message
  | .rpc code message => "rebalancer rpc error [" ++ code ++ "]: " ++ message
  | .decode message => "rebalancer response decode error: " ++ message

def RebalancerError.isTransport : RebalancerError → Bool
  | .transport _ => true
  | _ => false

/-! ## The resource -/

structure KafkaRebalanceSpec where
  mode : KafkaRebalanceMode := .full
  brokers : List Int := []
  authorizationSecretRef : Option SecretKeyRef := none
  goals : Option (List String) := none
  throttleBytesPerSec : Option Int := none
  endpoint : Option String := none
  deriving DecidableEq, Repr

structure OptimizationResult where
  replicaMovements : Int := 0
  leaderMovements : Int := 0
  maxReplicasBefore : Int := 0
  maxReplicasAfter : Int := 0
  maxLeadersBefore : Int := 0
  maxLeadersAfter : Int := 0
  goals : List String := []
  deriving DecidableEq, Repr

structure KafkaCondition extends Crd.Condition where
  lastTransitionTime : String
  deriving DecidableEq, Repr

structure KafkaRebalanceStatus where
  conditions : List KafkaCondition := []
  observedGeneration : Option Int := none
  sessionId : Option String := none
  optimizationResult : Option OptimizationResult := none
  deriving DecidableEq, Repr

structure KafkaRebalance where
  generation : Option Int
  /-- The label `krabka.io/cluster`. -/
  cluster : Option String
  /-- The annotation `krabka.io/rebalance`. -/
  command : Option String
  /-- How often the annotation has changed. No code reads it. -/
  commandRevision : Nat := 0
  spec : KafkaRebalanceSpec
  status : Option KafkaRebalanceStatus
  deriving DecidableEq, Repr

/-- The last condition that holds. -/
def KafkaRebalanceStatus.activeCondition? (status : KafkaRebalanceStatus) : Option KafkaCondition :=
  status.conditions.reverse.find? (·.status = "True")

def KafkaRebalance.session (obj : KafkaRebalance) : Option String := obj.status >>= (·.sessionId)

def KafkaRebalance.observedGeneration (obj : KafkaRebalance) : Option Int :=
  obj.status >>= (·.observedGeneration)

def currentState (obj : KafkaRebalance) : RebalanceState :=
  (obj.status >>= KafkaRebalanceStatus.activeCondition? >>= fun c =>
    RebalanceState.ofConditionType c.type).getD .new

def conditionType : RebalanceState → String
  | .new => "New"
  | .proposalReady => "ProposalReady"
  | .rebalancing => "Rebalancing"
  | .ready => "Ready"
  | .notReady => "NotReady"
  | .stopped => "Stopped"

@[simp] theorem ofConditionType_conditionType (state : RebalanceState) :
    RebalanceState.ofConditionType (conditionType state) = some state := by
  cases state <;> rfl

/-! ## Commands -/

inductive RebalanceCommand where
  | approve
  | refresh
  | stop
  deriving DecidableEq, Repr

def RebalanceCommand.parse (v : String) : Option RebalanceCommand :=
  match String.ofList (Text.trim v.toList) with
  | "approve" => some .approve
  | "refresh" => some .refresh
  | "stop" => some .stop
  | _ => none

def readCommand (obj : KafkaRebalance) : Option RebalanceCommand :=
  obj.command >>= RebalanceCommand.parse

inductive RebalanceAction where
  | createProposal
  | execute
  | pollExecution
  | cancel
  | idle
  deriving DecidableEq, Repr

def decide (state : RebalanceState) (command : Option RebalanceCommand) (hasSession : Bool) :
    RebalanceAction :=
  match command with
  | some .refresh => .createProposal
  | some .stop => if state = .rebalancing ∧ hasSession then .cancel else .idle
  | some .approve => if state = .proposalReady ∧ hasSession then .execute else .idle
  | none =>
    match state with
    | .new => .createProposal
    | .rebalancing => if hasSession then .pollExecution else .createProposal
    | .proposalReady | .ready | .notReady | .stopped => .idle

/-- What a pass on the object does. -/
def KafkaRebalance.action (obj : KafkaRebalance) : RebalanceAction :=
  Rebalance.decide (currentState obj) (readCommand obj) obj.session.isSome

section Decide

variable {obj : KafkaRebalance}

/-- A plan is executed only with an approval, of a plan that is ready. -/
theorem action_execute (h : obj.action = .execute) :
    currentState obj = .proposalReady ∧ readCommand obj = some .approve ∧
      ∃ id, obj.session = some id := by
  unfold KafkaRebalance.action Rebalance.decide at h
  split at h
  · cases h
  · split at h <;> cases h
  · rename_i hcommand
    split at h
    · rename_i hready
      exact ⟨hready.1, hcommand, Option.isSome_iff_exists.mp hready.2⟩
    · cases h
  · split at h
    · cases h
    · split at h <;> cases h
    all_goals cases h

/-- With an execution on file, only a refresh makes a new plan. -/
theorem action_of_rebalancing {id : String} (hstate : currentState obj = .rebalancing)
    (hsession : obj.session = some id) :
    obj.action = .createProposal ∨ obj.action = .pollExecution ∨ obj.action = .cancel ∨
      obj.action = .idle := by
  unfold KafkaRebalance.action Rebalance.decide
  rw [hstate, hsession]
  cases readCommand obj with
  | none => exact .inr (.inl rfl)
  | some command =>
    cases command with
    | approve => exact .inr (.inr (.inr rfl))
    | refresh => exact .inl rfl
    | stop => exact .inr (.inr (.inl rfl))

theorem action_of_approved {id : String} (hstate : currentState obj = .proposalReady)
    (hsession : obj.session = some id) (hcommand : readCommand obj = some .approve) :
    obj.action = .execute := by
  unfold KafkaRebalance.action Rebalance.decide
  rw [hstate, hsession, hcommand]
  rfl

end Decide

/-! ## Outcomes -/

structure Outcome where
  state : RebalanceState
  reason : String
  message : String
  newSession : Option String
  newOptimization : Option OptimizationResult
  advanceGeneration : Bool
  deriving DecidableEq, Repr

def optimizationResultFrom (p : RebalancerProposal) : OptimizationResult where
  replicaMovements := p.summary.replicaMovements
  leaderMovements := p.summary.leaderMovements
  maxReplicasBefore := p.summary.maxReplicasBefore
  maxReplicasAfter := p.summary.maxReplicasAfter
  maxLeadersBefore := p.summary.maxLeadersBefore
  maxLeadersAfter := p.summary.maxLeadersAfter
  goals := p.goalsApplied

namespace Outcome

/-- An outcome that changes neither the proposal on file nor its result. -/
def transient (state : RebalanceState) (reason message : String) : Outcome where
  state := state
  reason := reason
  message := message
  newSession := none
  newOptimization := none
  advanceGeneration := false

def fromCreate (p : RebalancerProposal) : Outcome :=
  match p.status with
  | .computed =>
    { state := .proposalReady
      reason := "ProposalReady"
      message := "proposal " ++ p.id ++ " computed: " ++ toString p.summary.replicaMovements ++
        " replica / " ++ toString p.summary.leaderMovements ++ " leader movements"
      newSession := some p.id
      newOptimization := some (optimizationResultFrom p)
      advanceGeneration := true }
  | .completed =>
    { state := .ready
      reason := "AlreadyBalanced"
      message := "proposal " ++ p.id ++ " required no movements"
      newSession := some p.id
      newOptimization := some (optimizationResultFrom p)
      advanceGeneration := true }
  | _ =>
    { state := .notReady
      reason := "UnexpectedProposalStatus"
      message := "CreateProposal returned non-Computed status for " ++ p.id
      newSession := some p.id
      newOptimization := none
      advanceGeneration := false }

def fromExecuteOrPoll (p : RebalancerProposal) : Outcome :=
  match p.status with
  | .executing | .computed =>
    transient .rebalancing "Rebalancing" ("executing proposal " ++ p.id)
  | .completed => transient .ready "Ready" ("proposal " ++ p.id ++ " completed")
  | .failed =>
    transient .notReady "RebalanceFailed"
      (p.failureReason.getD ("proposal " ++ p.id ++ " failed"))
  | .cancelled => transient .stopped "Stopped" ("proposal " ++ p.id ++ " cancelled")
  | .unspecified =>
    transient .notReady "UnexpectedProposalStatus"
      ("proposal " ++ p.id ++ " reported an unknown status")

def fromCancel (p : RebalancerProposal) : Outcome :=
  transient .stopped "Stopped" ("execution of proposal " ++ p.id ++ " cancelled")

end Outcome

def retryableRpcCodes : List String :=
  ["failed_precondition", "unavailable", "aborted", "resource_exhausted", "deadline_exceeded",
    "http_502", "http_503", "http_504"]

def isRetryable : RebalancerError → Bool
  | .transport _ => true
  | .rpc code _ => retryableRpcCodes.contains code
  | .decode _ => false

def Outcome.fromRpcError (action : RebalanceAction) (e : RebalancerError) : Outcome :=
  if action = .createProposal ∧ isRetryable e then
    transient .new "RetryingProposal" ("CreateProposal will retry: " ++ e.text)
  else transient .notReady "RebalancerError" e.text

/-- The outcome of an answered call. The answer of a transport error has none. -/
def Outcome.ofAnswer (action : RebalanceAction) :
    Except RebalancerError RebalancerProposal → Option Outcome
  | .error (.transport _) => none
  | .error e => some (fromRpcError action e)
  | .ok p =>
    match action with
    | .createProposal => some (fromCreate p)
    | .execute | .pollExecution => some (fromExecuteOrPoll p)
    | .cancel => some (fromCancel p)
    | .idle => none

theorem Outcome.fromExecuteOrPoll_state {p : RebalancerProposal} :
    (Outcome.fromExecuteOrPoll p).state ≠ .proposalReady := by
  unfold Outcome.fromExecuteOrPoll
  split <;> nofun

/-- Only a computed proposal makes a plan ready, and it is put on file with the generation
    of the object. -/
theorem Outcome.ofAnswer_proposalReady {action : RebalanceAction}
    {answer : Except RebalancerError RebalancerProposal} {outcome : Outcome}
    (h : Outcome.ofAnswer action answer = some outcome) (hready : outcome.state = .proposalReady) :
    action = .createProposal ∧ outcome.advanceGeneration = true ∧
      ∃ p, answer = .ok p ∧ outcome.newSession = some p.id := by
  cases answer with
  | error e =>
    have hstate : (Outcome.fromRpcError action e).state ≠ .proposalReady := by
      unfold Outcome.fromRpcError
      split <;> nofun
    cases e with
    | transport message => cases h
    | rpc code message =>
      cases h
      exact absurd hready hstate
    | decode message =>
      cases h
      exact absurd hready hstate
  | ok p =>
    cases action with
    | createProposal =>
      cases h
      unfold Outcome.fromCreate at hready ⊢
      split at hready
      · exact ⟨rfl, rfl, p, rfl, rfl⟩
      · cases hready
      · cases hready
    | execute =>
      cases h
      exact absurd hready Outcome.fromExecuteOrPoll_state
    | pollExecution =>
      cases h
      exact absurd hready Outcome.fromExecuteOrPoll_state
    | cancel =>
      cases h
      cases hready
    | idle => cases h

/-! ## The status of an outcome -/

/-- The condition of an outcome. It keeps the time of the last change of state. -/
def activeCondition (existing : Option KafkaRebalanceStatus) (outcome : Outcome) (now : String) :
    KafkaCondition :=
  let active : KafkaCondition :=
    { type := conditionType outcome.state
      status := "True"
      reason := outcome.reason
      message := outcome.message
      lastTransitionTime := now }
  match (existing >>= KafkaRebalanceStatus.activeCondition?).filter (·.type = active.type) with
  | some previous => { active with lastTransitionTime := previous.lastTransitionTime }
  | none => active

/-- What `write_status` sends: every field of the status. -/
def writeStatus (obj : KafkaRebalance) (outcome : Outcome) (now : String) : KafkaRebalanceStatus where
  conditions := [activeCondition obj.status outcome now]
  observedGeneration :=
    if outcome.advanceGeneration then obj.generation else obj.observedGeneration
  sessionId := outcome.newSession.or obj.session
  optimizationResult := outcome.newOptimization.or (obj.status >>= (·.optimizationResult))

section WriteStatus

variable {obj stored : KafkaRebalance} {outcome : Outcome} {now : String}

theorem activeCondition_type (outcome : Outcome) (now : String)
    (existing : Option KafkaRebalanceStatus) :
    (activeCondition existing outcome now).type = conditionType outcome.state ∧
      (activeCondition existing outcome now).status = "True" := by
  unfold activeCondition
  dsimp only
  split <;> exact ⟨rfl, rfl⟩

theorem currentState_writeStatus :
    currentState { stored with status := some (writeStatus obj outcome now) } = outcome.state := by
  obtain ⟨htype, hstatus⟩ :=
    activeCondition_type outcome now obj.status
  simp [currentState, writeStatus, KafkaRebalanceStatus.activeCondition?, hstatus, htype]

theorem session_writeStatus :
    KafkaRebalance.session { stored with status := some (writeStatus obj outcome now) } =
      outcome.newSession.or obj.session := rfl

theorem observedGeneration_writeStatus :
    KafkaRebalance.observedGeneration { stored with status := some (writeStatus obj outcome now) } =
      if outcome.advanceGeneration then obj.generation else obj.observedGeneration := rfl

end WriteStatus

end Rebalance
