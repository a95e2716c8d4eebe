-- SUMMARY: The rebalance controller beside the rebalancer: the steps of a pass, the commands and edits of users, and the proposals that are executed.
import KrabkaOperator.Base.History
import KrabkaOperator.Rebalance.Endpoint

/-!
# The rebalance controller

A pass works on a version of the object that the watch has shown it, which need not
be the last one. Its calls are steps of their own: the read of the credential, the
call of the rebalancer, the removal of the command, and the write of the status.
Users give commands and edit the object between any two of them, a call may fail
with or without its effect, and the operator may stop anywhere.
-/

namespace Rebalance

open NodePool (KafkaRebalanceMode SecretKeyRef)
open Operator (KubeError Fault)

/-! ## Calls of the rebalancer -/

inductive Rpc where
  | createProposal (mode : KafkaRebalanceMode) (brokers : List Int) (goals : List String)
      (token : Option String)
  | executeProposal (id : String) (throttle : Option Int) (token : Option String)
  | getProposal (id : String)
  | cancelExecution (id : String)
  deriving DecidableEq, Repr

/-- The call of an action. -/
def rpcOf (obj : KafkaRebalance) (token : Option String) : RebalanceAction → Option Rpc
  | .createProposal =>
    some (.createProposal obj.spec.mode obj.spec.brokers (obj.spec.goals.getD []) token)
  | .execute => some (.executeProposal (obj.session.getD "") obj.spec.throttleBytesPerSec token)
  | .pollExecution => some (.getProposal (obj.session.getD ""))
  | .cancel => some (.cancelExecution (obj.session.getD ""))
  | .idle => none

/-- A call that was made, with the object as it was stored then. -/
structure Call where
  rpc : Rpc
  stored : KafkaRebalance
  answer : Except RebalancerError RebalancerProposal

/-! ## Passes -/

/-- Where the controller is. A running pass keeps the version of the object it was started on. -/
inductive Task where
  | idle
  /-- Before the removal of a command that does nothing. -/
  | consuming
  /-- Before the read of the credential. -/
  | credential (obj : KafkaRebalance) (action : RebalanceAction) (ref : SecretKeyRef)
  /-- Before the call of the rebalancer. -/
  | calling (obj : KafkaRebalance) (action : RebalanceAction) (token : Option String)
  /-- Before the removal of the command. -/
  | removing (obj : KafkaRebalance) (outcome : Outcome)
  /-- Before the write of the status. -/
  | writing (obj : KafkaRebalance) (outcome : Outcome)
  deriving DecidableEq

structure Config where
  fmt : Formats
  ns : String

def CredentialFailure.outcome (failure : CredentialFailure) : Outcome :=
  .transient .notReady failure.reason failure.message

def missingEndpoint : Outcome :=
  .transient .notReady "MissingEndpoint"
    "spec.endpoint is unset and no krabka.io/cluster label is present to derive it"

def invalidEndpoint (message : String) : Outcome :=
  .transient .notReady "InvalidEndpoint" message

/-- The first steps of `reconcile_inner`, up to its first call. -/
def Config.begin (cfg : Config) (obj : KafkaRebalance) : Task :=
  match resolveEndpoint cfg.fmt obj cfg.ns with
  | .ok none => .writing obj missingEndpoint
  | .error message => .writing obj (invalidEndpoint message)
  | .ok (some _) =>
    if obj.action = .idle then
      if (readCommand obj).isSome then .consuming else .idle
    else if needsCredential obj obj.action then
      match credentialReference obj with
      | none => .writing obj missingReference.outcome
      | some ref => .credential obj obj.action ref
    else .calling obj obj.action none

/-- After the read of the credential. An error of the API ends the pass. -/
def Config.authorized (cfg : Config) (obj : KafkaRebalance) (action : RebalanceAction)
    (ref : SecretKeyRef) : Except KubeError (Option (Kube.BTreeMap Kube.ByteString)) → Task
  | .error _ => .idle
  | .ok secret =>
    match evacuationCredential cfg.fmt ref secret with
    | .ok token => .calling obj action (some token)
    | .error failure => .writing obj failure.outcome

/-- After the call. A transport error ends the pass, and the next one tries again. -/
def answered (obj : KafkaRebalance) (action : RebalanceAction)
    (answer : Except RebalancerError RebalancerProposal) : Task :=
  match Outcome.ofAnswer action answer with
  | none => .idle
  | some outcome => if (readCommand obj).isSome then .removing obj outcome else .writing obj outcome

/-! ## States -/

/-- An execution that this object has started, with the revision of the approval. -/
structure Execution where
  id : String
  approval : Nat
  deriving DecidableEq, Repr

structure State where
  obj : KafkaRebalance
  /-- The versions of the object before this one, the last one first. -/
  earlier : List KafkaRebalance
  /-- The executions of this object that the rebalancer has not ended. -/
  executing : List Execution
  /-- The calls of the rebalancer, the last one first. -/
  calls : List Call
  task : Task

/-- All versions that the object has had. -/
def State.versions (s : State) : List KafkaRebalance := s.obj :: s.earlier

/-- A new version of the object. -/
def State.store (s : State) (obj : KafkaRebalance) : State :=
  { s with obj := obj, earlier := s.obj :: s.earlier }

def KafkaRebalance.setCommand (obj : KafkaRebalance) (value : Option String) : KafkaRebalance :=
  if obj.command = value then obj
  else { obj with command := value, commandRevision := obj.commandRevision + 1 }

/-- A changed spec has the next generation. -/
def KafkaRebalance.setSpec (obj : KafkaRebalance) (spec : KafkaRebalanceSpec) : KafkaRebalance :=
  if obj.spec = spec then obj
  else { obj with spec := spec, generation := obj.generation.map (· + 1) }

def KafkaRebalance.setStatus (obj : KafkaRebalance) (status : KafkaRebalanceStatus) :
    KafkaRebalance :=
  { obj with status := some status }

def State.ended (s : State) (id : String) : State :=
  { s with executing := s.executing.filter (·.id ≠ id) }

/-- The rebalancer carries out a call. -/
def State.carryOut (s : State) (approval : Nat) : Rpc → State
  | .executeProposal id _ _ =>
    if s.executing.any (·.id = id) then s
    else { s with executing := ⟨id, approval⟩ :: s.executing }
  | .cancelExecution id => s.ended id
  | .createProposal _ _ _ _ | .getProposal _ => s

/-- A new object without a status. -/
def State.created (cluster command : Option String) (spec : KafkaRebalanceSpec) : State where
  obj := ⟨some 1, cluster, command, 0, spec, none⟩
  earlier := []
  executing := []
  calls := []
  task := .idle

/-! ## Events -/

inductive Event where
  /-- A pass starts on an earlier version of the object, or on the last one. -/
  | start (lag : Nat)
  | secret (answer : Except KubeError (Option (Kube.BTreeMap Kube.ByteString)))
  /-- The rebalancer carries out the call or not, and the pass gets an answer. -/
  | rpc (effect : Bool) (answer : Except RebalancerError RebalancerProposal)
  | removed (fault : Fault)
  | written (fault : Fault) (now : String)
  | crash
  | command (value : Option String)
  | edit (spec : KafkaRebalanceSpec)
  | relabel (cluster : Option String)
  /-- An execution ends. -/
  | finish (id : String)

/-- The write of a new version. -/
def State.written (s : State) (fault : Fault) (obj : KafkaRebalance) (next : Task) : State :=
  match fault with
  | .none => { s.store obj with task := next }
  | .refused => { s with task := .idle }
  | .lost => { s.store obj with task := .idle }

def step (cfg : Config) : Event → State → State
  | .start lag, s =>
    match s.task, s.versions[lag]? with
    | .idle, some obj => { s with task := cfg.begin obj }
    | _, _ => s
  | .secret answer, s =>
    match s.task with
    | .credential obj action ref => { s with task := cfg.authorized obj action ref answer }
    | _ => s
  | .rpc effect answer, s =>
    match s.task with
    | .calling obj action token =>
      match rpcOf obj token action with
      | some rpc =>
        let s' := if effect then s.carryOut obj.commandRevision rpc else s
        { s' with calls := ⟨rpc, s.obj, answer⟩ :: s.calls, task := answered obj action answer }
      | none => { s with task := .idle }
    | _ => s
  | .removed fault, s =>
    match s.task with
    | .consuming => s.written fault (s.obj.setCommand none) .idle
    | .removing obj outcome => s.written fault (s.obj.setCommand none) (.writing obj outcome)
    | _ => s
  | .written fault now, s =>
    match s.task with
    | .writing obj outcome => s.written fault (s.obj.setStatus (writeStatus obj outcome now)) .idle
    | _ => s
  | .crash, s => { s with task := .idle }
  | .command value, s => s.store (s.obj.setCommand value)
  | .edit spec, s => s.store (s.obj.setSpec spec)
  | .relabel cluster, s => s.store { s.obj with cluster := cluster }
  | .finish id, s => s.ended id

/-- The states of a run, as a history of single steps. -/
def exec (cfg : Config) (e : Event) (s : State) : List State := [step cfg e s]

theorem finish_exec {cfg : Config} {e : Event} {s : State} :
    History.finish (exec cfg) e s = step cfg e s := rfl

/-! ## Fields after an update -/

section Fields

variable {obj : KafkaRebalance} {value : Option String} {spec : KafkaRebalanceSpec}

@[simp] theorem setCommand_status : (obj.setCommand value).status = obj.status := by
  unfold KafkaRebalance.setCommand
  split <;> rfl

@[simp] theorem setCommand_spec : (obj.setCommand value).spec = obj.spec := by
  unfold KafkaRebalance.setCommand
  split <;> rfl

@[simp] theorem setCommand_generation : (obj.setCommand value).generation = obj.generation := by
  unfold KafkaRebalance.setCommand
  split <;> rfl

@[simp] theorem setSpec_status : (obj.setSpec spec).status = obj.status := by
  unfold KafkaRebalance.setSpec
  split <;> rfl

@[simp] theorem setSpec_command : (obj.setSpec spec).command = obj.command := by
  unfold KafkaRebalance.setSpec
  split <;> rfl

@[simp] theorem setSpec_commandRevision :
    (obj.setSpec spec).commandRevision = obj.commandRevision := by
  unfold KafkaRebalance.setSpec
  split <;> rfl

end Fields

/-! ## What a step does -/

section Cases

variable {cfg : Config} {s : State}

/-- A write either leaves the object as it is and ends the pass, or stores the new version. -/
theorem written_cases (fault : Fault) (obj : KafkaRebalance) (next : Task) :
    (fault = .refused ∧ s.written fault obj next = { s with task := .idle }) ∨
    ∃ task, (task = next ∧ fault = .none ∨ task = .idle ∧ fault = .lost) ∧
      s.written fault obj next = { s.store obj with task := task } := by
  cases fault with
  | none => exact .inr ⟨next, .inl ⟨rfl, rfl⟩, rfl⟩
  | refused => exact .inl ⟨rfl, rfl⟩
  | lost => exact .inr ⟨.idle, .inr ⟨rfl, rfl⟩, rfl⟩

variable (cfg) in
/-- What a pass does at its start. -/
theorem begin_cases (obj : KafkaRebalance) :
    (Resolves cfg.fmt cfg.ns obj ∧ obj.action = .idle ∧
      (cfg.begin obj = .idle ∨ cfg.begin obj = .consuming)) ∨
    (Resolves cfg.fmt cfg.ns obj ∧ obj.action ≠ .idle ∧
      ((∃ ref, credentialReference obj = some ref ∧ cfg.begin obj = .credential obj obj.action ref) ∨
        cfg.begin obj = .calling obj obj.action none)) ∨
    ((¬ Resolves cfg.fmt cfg.ns obj ∨
        needsCredential obj obj.action = true ∧ credentialReference obj = none) ∧
      ∃ reason message, cfg.begin obj = .writing obj (.transient .notReady reason message)) := by
  unfold Config.begin
  split
  · rename_i hnone
    refine .inr (.inr ⟨.inl ?_, _, _, rfl⟩)
    rintro ⟨endpoint, h⟩
    rw [hnone] at h
    cases h
  · rename_i message herr
    refine .inr (.inr ⟨.inl ?_, _, _, rfl⟩)
    rintro ⟨endpoint, h⟩
    rw [herr] at h
    cases h
  · rename_i endpoint hok
    have hres : Resolves cfg.fmt cfg.ns obj := ⟨endpoint, hok⟩
    split
    · rename_i hidle
      refine .inl ⟨hres, hidle, ?_⟩
      split
      · exact .inr rfl
      · exact .inl rfl
    · rename_i hact
      split
      · rename_i hneeds
        split
        · rename_i href
          exact .inr (.inr ⟨.inr ⟨hneeds, href⟩, _, _, rfl⟩)
        · rename_i ref href
          exact .inr (.inl ⟨hres, hact, .inl ⟨ref, href, rfl⟩⟩)
      · exact .inr (.inl ⟨hres, hact, .inr rfl⟩)

variable (cfg) in
/-- What a pass does after the read of the credential. -/
theorem authorized_cases (obj : KafkaRebalance) (action : RebalanceAction) (ref : SecretKeyRef)
    (answer : Except KubeError (Option (Kube.BTreeMap Kube.ByteString))) :
    ((∃ e, answer = .error e) ∧ cfg.authorized obj action ref answer = .idle) ∨
    (∃ token, cfg.authorized obj action ref answer = .calling obj action (some token)) ∨
    ∃ secret failure, answer = .ok secret ∧
      evacuationCredential cfg.fmt ref secret = .error failure ∧
      cfg.authorized obj action ref answer = .writing obj failure.outcome := by
  unfold Config.authorized
  split
  · exact .inl ⟨⟨_, rfl⟩, rfl⟩
  · rename_i secret
    split
    · exact .inr (.inl ⟨_, rfl⟩)
    · rename_i failure hfail
      exact .inr (.inr ⟨secret, failure, rfl, hfail, rfl⟩)

/-- What a pass does after the call. -/
theorem answered_cases (obj : KafkaRebalance) (action : RebalanceAction)
    (answer : Except RebalancerError RebalancerProposal) :
    (Outcome.ofAnswer action answer = none ∧ answered obj action answer = .idle) ∨
    ∃ outcome, Outcome.ofAnswer action answer = some outcome ∧
      (answered obj action answer = .removing obj outcome ∨
        answered obj action answer = .writing obj outcome) := by
  unfold answered
  split
  · rename_i hnone
    exact .inl ⟨hnone, rfl⟩
  · rename_i outcome hsome
    refine .inr ⟨outcome, hsome, ?_⟩
    split
    · exact .inl rfl
    · exact .inr rfl

end Cases

end Rebalance
