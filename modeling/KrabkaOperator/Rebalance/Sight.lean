-- SUMMARY: Executions that stay in sight: where the status or the approval shows each execution that an object has started, and where one is lost.
import KrabkaOperator.Rebalance.Approval

/-!
# Executions in sight

Between the approval and the status there are three effects: the call, the removal
of the approval, and the write of the status. An execution is in sight when the
status records it, or when the approval that started it is still there.
-/

namespace Rebalance

open NodePool (SecretKeyRef)
open Operator (KubeError Fault)

/-- The status shows that the execution of a proposal runs. -/
def Recorded (obj : KafkaRebalance) (id : String) : Prop :=
  currentState obj = .rebalancing ∧ obj.session = some id

/-- The approval that started an execution is still there. -/
def Approved (obj : KafkaRebalance) (x : Execution) : Prop :=
  readCommand obj = some .approve ∧ obj.commandRevision = x.approval

/-- Between passes, each execution of the object is recorded or approved. -/
def InSight (s : State) : Prop :=
  s.task = .idle → ∀ x ∈ s.executing, Recorded s.obj x.id ∨ Approved s.obj x

instance (obj : KafkaRebalance) (id : String) : Decidable (Recorded obj id) :=
  inferInstanceAs (Decidable (_ ∧ _))

instance (obj : KafkaRebalance) (x : Execution) : Decidable (Approved obj x) :=
  inferInstanceAs (Decidable (_ ∧ _))

instance (s : State) : Decidable (InSight s) :=
  inferInstanceAs (Decidable (_ → _))

/-! ## The condition -/

/-- An execution runs that the status does not record. -/
def State.Unrecorded (s : State) : Prop := ∃ x ∈ s.executing, ¬ Recorded s.obj x.id

/-- The command is the one that the pass has read. -/
def State.AsRead (s : State) (obj : KafkaRebalance) : Prop :=
  s.obj.command = obj.command ∧ s.obj.commandRevision = obj.commandRevision

/-- The rebalancer tells of an execution of this object that runs, and not of one that it
    has cancelled. -/
def Truthful (rpc : Rpc) (answer : Except RebalancerError RebalancerProposal) (s : State) : Prop :=
  match rpc, answer with
  | .executeProposal id _ _, .ok p | .getProposal id, .ok p =>
    (∃ x ∈ s.executing, x.id = id) → p.status = .executing
  | .cancelExecution id, .ok _ => ∀ x ∈ s.executing, x.id ≠ id
  | _, _ => True

/-- The state after the rebalancer has carried out a call, or has not. -/
def State.afterCall (s : State) (effect : Bool) (approval : Nat) (rpc : Rpc) : State :=
  if effect then s.carryOut approval rpc else s

/-- A pass that makes or approves a plan starts on the object as it is stored, and with an
    execution under way it has an endpoint and knows its credential. -/
def StartsCurrent (cfg : Config) (s : State) (obj : KafkaRebalance) : Prop :=
  (s.executing ≠ [] ∨ obj.action = .execute → obj = s.obj) ∧
    (s.executing ≠ [] → Resolves cfg.fmt cfg.ns obj ∧
      (needsCredential obj obj.action = true → credentialReference obj ≠ none))

/-- With an execution under way the credential is there. -/
def Credited (cfg : Config) (s : State) (obj : KafkaRebalance) (ref : SecretKeyRef) :
    Except KubeError (Option (Kube.BTreeMap Kube.ByteString)) → Prop
  | .error _ => s.Unrecorded → s.AsRead obj
  | .ok secret => s.executing ≠ [] → ∃ token, evacuationCredential cfg.fmt ref secret = .ok token

/-- With an execution under way no new plan is made, and no call fails but in transport. -/
def Served (s : State) (obj : KafkaRebalance) (action : RebalanceAction) :
    Except RebalancerError RebalancerProposal → Prop
  | .error (.transport _) => s.Unrecorded → s.AsRead obj
  | .error _ => s.executing = []
  | .ok _ => s.executing ≠ [] → action ≠ .createProposal

/-- The removal of the command is not the end of a pass whose execution is not recorded. -/
def Removes (s : State) (obj : KafkaRebalance) : Fault → Prop
  | .none => True
  | .refused => s.Unrecorded → s.AsRead obj
  | .lost => ¬ s.Unrecorded

/-- What a step must meet so that no execution is lost from sight. -/
def KeepsSight (cfg : Config) (e : Event) (s : State) : Prop :=
  match e, s.task with
  | .start lag, .idle => ∀ obj ∈ s.versions[lag]?, StartsCurrent cfg s obj
  | .secret answer, .credential obj _ ref => Credited cfg s obj ref answer
  | .rpc effect answer, .calling obj action token =>
    ∀ rpc ∈ rpcOf obj token action,
      Truthful rpc answer (s.afterCall effect obj.commandRevision rpc) ∧
        Served (s.afterCall effect obj.commandRevision rpc) obj action answer
  | .removed fault, .removing obj _ => Removes s obj fault
  | .written fault _, .writing _ _ => fault = .refused → ¬ s.Unrecorded
  | .crash, .credential obj _ _ | .crash, .calling obj _ _ | .crash, .removing obj _ =>
    s.Unrecorded → s.AsRead obj
  | .crash, .writing _ _ => ¬ s.Unrecorded
  | .command value, .idle => s.Unrecorded → value = s.obj.command
  | _, _ => True

section Decide

variable {cfg : Config} {s : State} {obj : KafkaRebalance}

instance : Decidable (Resolves cfg.fmt cfg.ns obj) :=
  match h : resolveEndpoint cfg.fmt obj cfg.ns with
  | .ok (some endpoint) => isTrue ⟨endpoint, h⟩
  | .ok none => isFalse fun ⟨_, h'⟩ => nomatch h.symm.trans h'
  | .error _ => isFalse fun ⟨_, h'⟩ => nomatch h.symm.trans h'

instance : Decidable s.Unrecorded := inferInstanceAs (Decidable (∃ x ∈ s.executing, _))

instance : Decidable (s.AsRead obj) := inferInstanceAs (Decidable (_ ∧ _))

instance {rpc : Rpc} {answer : Except RebalancerError RebalancerProposal} :
    Decidable (Truthful rpc answer s) := by
  unfold Truthful
  split <;> infer_instance

instance : Decidable (StartsCurrent cfg s obj) := inferInstanceAs (Decidable (_ ∧ _))

instance {ref : SecretKeyRef} {secret : Option (Kube.BTreeMap Kube.ByteString)} :
    Decidable (∃ token, evacuationCredential cfg.fmt ref secret = .ok token) :=
  match evacuationCredential cfg.fmt ref secret with
  | .ok token => isTrue ⟨token, rfl⟩
  | .error _ => isFalse fun ⟨_, h'⟩ => nomatch h'

instance {ref : SecretKeyRef} {answer : Except KubeError (Option (Kube.BTreeMap Kube.ByteString))} :
    Decidable (Credited cfg s obj ref answer) :=
  match answer with
  | .error _ => inferInstanceAs (Decidable (s.Unrecorded → s.AsRead obj))
  | .ok _ => inferInstanceAs (Decidable (s.executing ≠ [] → _))

instance {action : RebalanceAction} {answer : Except RebalancerError RebalancerProposal} :
    Decidable (Served s obj action answer) := by
  unfold Served
  split <;> infer_instance

instance {fault : Fault} : Decidable (Removes s obj fault) := by
  unfold Removes
  split <;> infer_instance

instance {e : Event} : Decidable (KeepsSight cfg e s) := by
  unfold KeepsSight
  obtain ⟨obj, earlier, executing, calls, task⟩ := s
  rcases e with _ | _ | _ | _ | _ | _ | _ | _ | _ | _ <;>
    rcases task with _ | _ | _ | _ | _ | _ <;> dsimp only <;> infer_instance

end Decide

/-! ## What passes know of the executions -/

/-- An execution is the one on file, recorded or just approved. -/
def Held (obj : KafkaRebalance) (x : Execution) : Prop :=
  obj.session = some x.id ∧
    (currentState obj = .rebalancing ∨ currentState obj = .proposalReady ∧ Approved obj x)

/-- What a pass knows. With an execution under way its version has the stored status, and its
    outcome tells of the execution. -/
def Task.Holds (s : State) : Task → Prop
  | .idle => ∀ x ∈ s.executing, Held s.obj x
  | .consuming => ∀ x ∈ s.executing, Recorded s.obj x.id
  | .credential obj action _ | .calling obj action _ =>
    action = obj.action ∧ (s.executing ≠ [] ∨ action = .execute → obj.status = s.obj.status) ∧
      ∀ x ∈ s.executing, Held obj x
  | .removing obj outcome | .writing obj outcome =>
    (s.executing ≠ [] → obj.status = s.obj.status ∧ outcome.state = .rebalancing ∧
      outcome.newSession = none) ∧ ∀ x ∈ s.executing, Held obj x

section Held

variable {obj obj' : KafkaRebalance} {x : Execution} {s s' : State}

theorem Held.recorded (h : Held obj x) (hstate : currentState obj = .rebalancing) :
    Recorded obj x.id := ⟨hstate, h.1⟩

theorem Held.inSight (h : Held obj x) : Recorded obj x.id ∨ Approved obj x := by
  rcases h.2 with hstate | ⟨-, happroved⟩
  · exact .inl (h.recorded hstate)
  · exact .inr happroved

theorem recorded_congr {id : String} (hstatus : obj'.status = obj.status) :
    Recorded obj' id ↔ Recorded obj id := by
  simp only [Recorded, currentState, KafkaRebalance.session, hstatus]

theorem Recorded.congr {id : String} (h : Recorded obj id) (hstatus : obj.status = obj'.status) :
    Recorded obj' id :=
  (recorded_congr hstatus).mp h

/-- An approval of the plan on file would be executed. -/
theorem Held.recorded_of_idle (h : Held obj x) (hidle : obj.action = .idle) : Recorded obj x.id := by
  rcases h.2 with hreb | ⟨hready, happ, -⟩
  · exact h.recorded hreb
  · rw [action_of_approved hready h.1 happ] at hidle
    cases hidle

/-- Where an execution is held by a version with the stored status, it is held by the stored
    object as long as the command is the one of the version, or the execution is recorded. -/
theorem Held.stored (h : Held obj x) (hstatus : obj.status = s.obj.status)
    (hcommand : ¬ Recorded s.obj x.id → s.AsRead obj) : Held s.obj x := by
  obtain ⟨hsession, hstate⟩ := h
  have hsession' : s.obj.session = some x.id := by
    rw [← hsession]
    simp only [KafkaRebalance.session, hstatus]
  have hcurrent : currentState s.obj = currentState obj := by
    simp only [currentState, hstatus]
  refine ⟨hsession', ?_⟩
  rw [hcurrent]
  rcases hstate with hreb | ⟨hready, happ, hrev⟩
  · exact .inl hreb
  · refine .inr ⟨hready, ?_⟩
    have hnot : ¬ Recorded s.obj x.id := by
      rintro ⟨hreb, -⟩
      rw [hcurrent, hready] at hreb
      cases hreb
    obtain ⟨hcmd, hrevision⟩ := hcommand hnot
    refine ⟨?_, hrevision.trans hrev⟩
    rw [← happ]
    simp only [readCommand, hcmd]

/-- A pass that ends without a write of the status. -/
theorem holds_idle (hstatus : s.executing ≠ [] → obj.status = s.obj.status)
    (hheld : ∀ x ∈ s.executing, Held obj x) (hcommand : s.Unrecorded → s.AsRead obj) :
    Task.idle.Holds s := fun x hx =>
  (hheld x hx).stored (hstatus (List.ne_nil_of_mem hx)) fun hnot => hcommand ⟨x, hx, hnot⟩

/-- What a running pass knows stays so while only commands and specs change, and executions
    end. -/
theorem Task.Holds.mono {task : Task} (h : task.Holds s) (htask : task ≠ .idle)
    (hexec : s'.executing ⊆ s.executing) (hstatus : s'.obj.status = s.obj.status) :
    task.Holds s' := by
  have hne : s'.executing ≠ [] → s.executing ≠ [] := by
    intro hne hnil
    rw [hnil] at hexec
    exact hne (List.subset_nil.mp hexec)
  cases task with
  | idle => exact absurd rfl htask
  | consuming => exact fun x hx => (recorded_congr hstatus).mpr (h x (hexec hx))
  | credential obj action ref =>
    exact ⟨h.1, fun hor => (h.2.1 (hor.imp_left hne)).trans hstatus.symm,
      fun x hx => h.2.2 x (hexec hx)⟩
  | calling obj action token =>
    exact ⟨h.1, fun hor => (h.2.1 (hor.imp_left hne)).trans hstatus.symm,
      fun x hx => h.2.2 x (hexec hx)⟩
  | removing obj outcome =>
    exact ⟨fun hn => ⟨(h.1 (hne hn)).1.trans hstatus.symm, (h.1 (hne hn)).2⟩,
      fun x hx => h.2 x (hexec hx)⟩
  | writing obj outcome =>
    exact ⟨fun hn => ⟨(h.1 (hne hn)).1.trans hstatus.symm, (h.1 (hne hn)).2⟩,
      fun x hx => h.2 x (hexec hx)⟩

theorem Recorded.held (h : Recorded obj x.id) : Held obj x := ⟨h.2, .inl h.1⟩

/-- Where everything is recorded, a pass may end as it likes. -/
theorem holds_idle_of_recorded (h : ¬ s.Unrecorded) : Task.idle.Holds s := by
  intro x hx
  by_contra hnot
  exact h ⟨x, hx, fun hrec => hnot hrec.held⟩

end Held

/-! ## One lemma for each step of a pass -/

section Steps

variable {cfg : Config} {s : State} {obj : KafkaRebalance} {action : RebalanceAction}

theorem holds_begin (h : Task.idle.Holds s) (hcur : StartsCurrent cfg s obj) :
    (cfg.begin obj).Holds s := by
  have hstored : ∀ x ∈ s.executing, obj = s.obj := fun x hx =>
    hcur.1 (.inl (List.ne_nil_of_mem hx))
  have hheld : ∀ x ∈ s.executing, Held obj x := fun x hx => hstored x hx ▸ h x hx
  rcases begin_cases cfg obj with ⟨-, hidle, heq | heq⟩ |
    ⟨-, -, ⟨ref, -, heq⟩ | heq⟩ | ⟨hmissing, reason, message, heq⟩ <;> rw [heq]
  · exact h
  · intro x hx
    exact ((hheld x hx).recorded_of_idle hidle).congr (by rw [hstored x hx])
  · exact ⟨rfl, fun hor => by rw [hcur.1 hor], hheld⟩
  · exact ⟨rfl, fun hor => by rw [hcur.1 hor], hheld⟩
  · have hnil : s.executing = [] := by
      by_contra hne
      obtain ⟨hres, href⟩ := hcur.2 hne
      rcases hmissing with hnot | ⟨hneeds, hnone⟩
      · exact hnot hres
      · exact href hneeds hnone
    exact ⟨fun hne => absurd hnil hne, hheld⟩

theorem holds_authorized {ref : SecretKeyRef}
    {answer : Except KubeError (Option (Kube.BTreeMap Kube.ByteString))}
    (h : (Task.credential obj action ref).Holds s) (hcred : Credited cfg s obj ref answer) :
    (cfg.authorized obj action ref answer).Holds s := by
  obtain ⟨haction, hstatus, hheld⟩ := h
  rcases authorized_cases cfg obj action ref answer with ⟨⟨e, rfl⟩, heq⟩ | ⟨token, heq⟩ |
    ⟨secret, failure, rfl, hfail, heq⟩ <;> rw [heq]
  · exact holds_idle (fun hne => hstatus (.inl hne)) hheld hcred
  · exact ⟨haction, hstatus, hheld⟩
  · have hnil : s.executing = [] := by
      by_contra hne
      obtain ⟨token, hok⟩ := hcred hne
      rw [hfail] at hok
      cases hok
    exact ⟨fun hne => absurd hnil hne, hheld⟩

@[simp] theorem afterCall_obj {effect : Bool} {approval : Nat} {rpc : Rpc} :
    (s.afterCall effect approval rpc).obj = s.obj := by
  unfold State.afterCall
  split
  · obtain ⟨executing, heq⟩ := carryOut_eq (s := s) approval rpc
    rw [heq]
  · rfl

/-- A call adds at most the execution that the version of the pass has approved. -/
theorem mem_afterCall {effect : Bool} {token : Option String} {rpc : Rpc} {x : Execution}
    (hrpc : rpcOf obj token action = some rpc)
    (hx : x ∈ (s.afterCall effect obj.commandRevision rpc).executing) :
    x ∈ s.executing ∨ action = .execute ∧ x = ⟨obj.session.getD "", obj.commandRevision⟩ := by
  unfold State.afterCall at hx
  split at hx
  · cases action with
    | createProposal =>
      cases hrpc
      exact .inl hx
    | execute =>
      cases hrpc
      unfold State.carryOut at hx
      dsimp only at hx
      split at hx
      · exact .inl hx
      · rcases List.mem_cons.mp hx with rfl | hx
        · exact .inr ⟨rfl, rfl⟩
        · exact .inl hx
    | pollExecution =>
      cases hrpc
      exact .inl hx
    | cancel =>
      cases hrpc
      exact .inl (List.mem_filter.mp hx).1
    | idle => cases hrpc
  · exact .inl hx

/-- The executions after a call are held by the version of the pass. -/
theorem held_afterCall (effect : Bool) {token : Option String} {rpc : Rpc}
    (h : (Task.calling obj action token).Holds s) (hrpc : rpcOf obj token action = some rpc) :
    ∀ x ∈ (s.afterCall effect obj.commandRevision rpc).executing,
      Held obj x ∧ obj.status = s.obj.status := by
  obtain ⟨rfl, hstatus, hheld⟩ := h
  intro x hx
  rcases mem_afterCall hrpc hx with hx | ⟨hact, rfl⟩
  · exact ⟨hheld x hx, hstatus (.inl (List.ne_nil_of_mem hx))⟩
  · obtain ⟨hready, happ, id, hid⟩ := action_execute hact
    have hfile : obj.session = some (obj.session.getD "") := by rw [hid, Option.getD_some]
    exact ⟨⟨hfile, .inr ⟨hready, happ, rfl⟩⟩, hstatus (.inr hact)⟩

/-- With an execution under way the answer of the rebalancer is that it runs. -/
theorem outcome_rebalancing {token : Option String} {rpc : Rpc}
    {answer : Except RebalancerError RebalancerProposal} {outcome : Outcome}
    (hrpc : rpcOf obj token action = some rpc) (hheld : ∀ x ∈ s.executing, Held obj x)
    (htrue : Truthful rpc answer s) (hserved : Served s obj action answer)
    (hout : Outcome.ofAnswer action answer = some outcome) (hne : s.executing ≠ []) :
    outcome.state = .rebalancing ∧ outcome.newSession = none := by
  obtain ⟨x, hx⟩ := List.exists_mem_of_ne_nil _ hne
  have hid : x.id = obj.session.getD "" := by rw [(hheld x hx).1, Option.getD_some]
  have hpolled : ∀ p : RebalancerProposal, p.status = .executing →
      (Outcome.fromExecuteOrPoll p).state = .rebalancing ∧
        (Outcome.fromExecuteOrPoll p).newSession = none := by
    intro p hp
    unfold Outcome.fromExecuteOrPoll
    rw [hp]
    exact ⟨rfl, rfl⟩
  cases answer with
  | error e =>
    cases e with
    | transport message => cases hout
    | rpc code message => exact absurd hserved hne
    | decode message => exact absurd hserved hne
  | ok p =>
    cases action with
    | createProposal => exact absurd rfl (hserved hne)
    | execute =>
      cases hrpc
      cases hout
      exact hpolled p (htrue ⟨x, hx, hid⟩)
    | pollExecution =>
      cases hrpc
      cases hout
      exact hpolled p (htrue ⟨x, hx, hid⟩)
    | cancel =>
      cases hrpc
      exact absurd hid (htrue x hx)
    | idle => cases hrpc

/-- What a pass knows after its call, in the state that has the call carried out or not. -/
theorem holds_answered {effect : Bool} {token : Option String} {rpc : Rpc}
    {answer : Except RebalancerError RebalancerProposal}
    (h : (Task.calling obj action token).Holds s) (hrpc : rpcOf obj token action = some rpc)
    (htrue : Truthful rpc answer (s.afterCall effect obj.commandRevision rpc))
    (hserved : Served (s.afterCall effect obj.commandRevision rpc) obj action answer) :
    (answered obj action answer).Holds (s.afterCall effect obj.commandRevision rpc) := by
  have hafter := held_afterCall effect h hrpc
  have hheld : ∀ x ∈ (s.afterCall effect obj.commandRevision rpc).executing, Held obj x :=
    fun x hx => (hafter x hx).1
  have hstatus : (s.afterCall effect obj.commandRevision rpc).executing ≠ [] →
      obj.status = (s.afterCall effect obj.commandRevision rpc).obj.status := by
    intro hne
    obtain ⟨x, hx⟩ := List.exists_mem_of_ne_nil _ hne
    rw [afterCall_obj]
    exact (hafter x hx).2
  rcases answered_cases obj action answer with ⟨hnone, heq⟩ | ⟨outcome, hout, heq⟩
  · rw [heq]
    refine holds_idle hstatus hheld ?_
    cases answer with
    | error e =>
      cases e with
      | transport message => exact hserved
      | rpc code message => cases hnone
      | decode message => cases hnone
    | ok p =>
      cases action <;> cases hnone
      cases hrpc
  · have hrun := fun hne =>
      And.intro (hstatus hne) (outcome_rebalancing hrpc hheld htrue hserved hout hne)
    rcases heq with heq | heq <;> rw [heq] <;> exact ⟨hrun, hheld⟩

theorem holds_removed {outcome : Outcome} {fault : Fault}
    (h : (Task.removing obj outcome).Holds s) (hrem : Removes s obj fault) :
    (s.written fault (s.obj.setCommand none) (.writing obj outcome)).task.Holds
      (s.written fault (s.obj.setCommand none) (.writing obj outcome)) := by
  cases fault with
  | none =>
    have hwriting : (Task.writing obj outcome).Holds s := h
    exact hwriting.mono nofun (fun _ hx => hx) setCommand_status
  | refused =>
    exact holds_idle (fun hne => (h.1 hne).1) h.2 hrem
  | lost =>
    apply holds_idle_of_recorded
    rintro ⟨x, hx, hnot⟩
    exact hrem ⟨x, hx, fun hrec => hnot ((recorded_congr setCommand_status).mpr hrec)⟩

theorem holds_consumed {fault : Fault} (h : Task.consuming.Holds s) :
    (s.written fault (s.obj.setCommand none) .idle).task.Holds
      (s.written fault (s.obj.setCommand none) .idle) := by
  cases fault with
  | none => exact fun x hx => ((recorded_congr setCommand_status).mpr (h x hx)).held
  | refused => exact fun x hx => (h x hx).held
  | lost => exact fun x hx => ((recorded_congr setCommand_status).mpr (h x hx)).held

theorem holds_written {outcome : Outcome} {fault : Fault} {now : String}
    (h : (Task.writing obj outcome).Holds s) (hwrite : fault = .refused → ¬ s.Unrecorded) :
    (s.written fault (s.obj.setStatus (writeStatus obj outcome now)) .idle).task.Holds
      (s.written fault (s.obj.setStatus (writeStatus obj outcome now)) .idle) := by
  have hstored : ∀ x ∈ s.executing, Held (s.obj.setStatus (writeStatus obj outcome now)) x := by
    intro x hx
    obtain ⟨-, hstate, hsession⟩ := h.1 (List.ne_nil_of_mem hx)
    refine ⟨?_, .inl ?_⟩
    · rw [KafkaRebalance.setStatus, session_writeStatus, hsession]
      exact (h.2 x hx).1
    · rw [KafkaRebalance.setStatus, currentState_writeStatus, hstate]
  cases fault with
  | none => exact hstored
  | refused => exact holds_idle_of_recorded (hwrite rfl)
  | lost => exact hstored

theorem holds_command {value : Option String} (h : s.task.Holds s)
    (hkeep : KeepsSight cfg (.command value) s) :
    s.task.Holds (s.store (s.obj.setCommand value)) := by
  by_cases hidle : s.task = .idle
  · rw [hidle] at h ⊢
    simp only [KeepsSight, hidle] at hkeep
    by_cases hrec : s.Unrecorded
    · have hsame : s.obj.setCommand value = s.obj := by
        rw [KafkaRebalance.setCommand, if_pos (hkeep hrec).symm]
      intro x hx
      change Held (s.obj.setCommand value) x
      rw [hsame]
      exact h x hx
    · apply holds_idle_of_recorded
      rintro ⟨x, hx, hnot⟩
      exact hrec ⟨x, hx, fun hrec => hnot ((recorded_congr setCommand_status).mpr hrec)⟩
  · exact Task.Holds.mono h hidle (fun _ hx => hx) setCommand_status

/-- An edit of the spec or of the label changes nothing that a pass knows. -/
theorem holds_edited {obj' : KafkaRebalance} (h : s.task.Holds s)
    (hstatus : obj'.status = s.obj.status) (hcommand : obj'.command = s.obj.command)
    (hrevision : obj'.commandRevision = s.obj.commandRevision) : s.task.Holds (s.store obj') := by
  by_cases hidle : s.task = .idle
  · rw [hidle] at h ⊢
    exact fun x hx => (h x hx).stored hstatus.symm fun _ => ⟨hcommand, hrevision⟩
  · exact Task.Holds.mono h hidle (fun _ hx => hx) hstatus

theorem holds_finished {id : String} (h : s.task.Holds s) : s.task.Holds (s.ended id) := by
  have hsub : (s.ended id).executing ⊆ s.executing := fun x hx => (List.mem_filter.mp hx).1
  by_cases hidle : s.task = .idle
  · rw [hidle] at h ⊢
    exact fun x hx => h x (hsub hx)
  · exact Task.Holds.mono h hidle hsub rfl

theorem holds_crash (h : s.task.Holds s) (hkeep : KeepsSight cfg .crash s) :
    Task.idle.Holds { s with task := .idle } := by
  change Task.idle.Holds s
  cases htask : s.task with
  | idle =>
    rw [htask] at h
    exact h
  | consuming =>
    rw [htask] at h
    exact fun x hx => (h x hx).held
  | credential obj action ref =>
    rw [htask] at h
    simp only [KeepsSight, htask] at hkeep
    exact holds_idle (fun hne => h.2.1 (.inl hne)) h.2.2 hkeep
  | calling obj action token =>
    rw [htask] at h
    simp only [KeepsSight, htask] at hkeep
    exact holds_idle (fun hne => h.2.1 (.inl hne)) h.2.2 hkeep
  | removing obj outcome =>
    rw [htask] at h
    simp only [KeepsSight, htask] at hkeep
    exact holds_idle (fun hne => (h.1 hne).1) h.2 hkeep
  | writing obj outcome =>
    simp only [KeepsSight, htask] at hkeep
    exact holds_idle_of_recorded hkeep

end Steps

/-! ## Runs -/

section Runs

variable {cfg : Config} {s : State}

theorem holds_step {e : Event} (h : s.task.Holds s) (hkeep : KeepsSight cfg e s) :
    (step cfg e s).task.Holds (step cfg e s) := by
  cases e with
  | start lag =>
    unfold step
    dsimp only
    split
    · rename_i obj htask hobj
      simp only [KeepsSight, htask] at hkeep
      rw [htask] at h
      exact holds_begin h (hkeep obj hobj)
    · exact h
  | secret answer =>
    unfold step
    dsimp only
    split
    · rename_i obj action ref htask
      simp only [KeepsSight, htask] at hkeep
      rw [htask] at h
      exact holds_authorized h hkeep
    · exact h
  | rpc effect answer =>
    unfold step
    dsimp only
    split
    · rename_i obj action token htask
      simp only [KeepsSight, htask] at hkeep
      rw [htask] at h
      split
      · rename_i rpc hrpc
        obtain ⟨htrue, hserved⟩ := hkeep rpc hrpc
        exact holds_answered h hrpc htrue hserved
      · rename_i hrpc
        have hact : obj.action = .idle := by
          obtain ⟨rfl, -, -⟩ := h
          cases hact : obj.action <;> rw [hact] at hrpc <;> cases hrpc
        exact fun x hx => (((h.2.2 x hx).recorded_of_idle hact).congr
          (h.2.1 (.inl (List.ne_nil_of_mem hx)))).held
    · exact h
  | removed fault =>
    unfold step
    dsimp only
    split
    · rename_i htask
      rw [htask] at h
      exact holds_consumed h
    · rename_i obj outcome htask
      simp only [KeepsSight, htask] at hkeep
      rw [htask] at h
      exact holds_removed h hkeep
    · exact h
  | written fault now =>
    unfold step
    dsimp only
    split
    · rename_i obj outcome htask
      simp only [KeepsSight, htask] at hkeep
      rw [htask] at h
      exact holds_written h hkeep
    · exact h
  | crash => exact holds_crash h hkeep
  | command value => exact holds_command h hkeep
  | edit spec => exact holds_edited h setSpec_status setSpec_command setSpec_commandRevision
  | relabel cluster => exact holds_edited h rfl rfl rfl
  | finish id => exact holds_finished h

/-- In every run whose steps meet the condition, no execution is lost from sight. -/
theorem executions_in_sight (cfg : Config) (cluster command : Option String)
    (spec : KafkaRebalanceSpec) (es : List Event)
    (h : History.Along (exec cfg) (KeepsSight cfg) es (.created cluster command spec)) :
    ∀ s ∈ History.states (exec cfg) es (.created cluster command spec), InSight s := by
  refine History.invariant_along (I := fun s : State => s.task.Holds s) (J := InSight) ?_ h
    (fun s hs => ?_) (fun e s he hs => ?_) (fun e s he hs t ht => ?_)
  · exact fun x hx => nomatch hx
  · intro hidle x hx
    rw [hidle] at hs
    exact (hs x hx).inSight
  · rw [finish_exec]
    exact holds_step hs he
  · rw [List.mem_singleton.mp ht]
    intro hidle x hx
    have hnext := holds_step hs he
    rw [hidle] at hnext
    exact (hnext x hx).inSight

end Runs

namespace Sample

/-- An approved plan that is executed, and stopped while it runs. -/
def stopped : List Event :=
  approved ++ ([.command (some "stop"), .start 0,
    .rpc true (.ok { id := "p1", status := .cancelled }), .removed .none,
    .written .none "t3"] : List Event)

/-- A refresh while the plan is executed. -/
def refreshed : List Event :=
  approved ++ ([.command (some "refresh")] : List Event) ++ ([.start 0,
    .rpc true (.ok { id := "p2", status := .computed }), .removed .none,
    .written .none "t3"] : List Event)

end Sample

theorem executions_in_sight_stopped :
    InSight (History.final (exec Sample.config) Sample.stopped Sample.created) :=
  executions_in_sight Sample.config (some "demo") none Sample.spec Sample.stopped
    (by decide) _ History.final_mem_states

/-- The first plan is still executed, and the object shows the second one. -/
theorem execution_lost_by_refresh :
    ¬ ∀ s ∈ History.states (exec Sample.config) Sample.refreshed Sample.created, InSight s := by
  intro h
  have hfinal := h _ History.final_mem_states
  revert hfinal
  decide

end Rebalance
