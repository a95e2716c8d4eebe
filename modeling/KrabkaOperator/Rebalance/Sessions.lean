-- SUMMARY: When the session and the observed generation of a status change: with the answer of a CreateProposal, as long as a write carries forward what is stored.
import KrabkaOperator.Rebalance.Approval

/-!
# Sessions

A pass writes every field of the status. It takes what its outcome does not set from
the version of the object that it was started on.
-/

namespace Rebalance

open Operator (KubeError Fault)

/-! ## The condition -/

/-- A write carries forward what is stored. -/
def CarriesStored (e : Event) (s : State) : Prop :=
  match e, s.task with
  | .written fault _, .writing obj outcome =>
    fault = .refused ∨
      (outcome.newSession = none → obj.session = s.obj.session) ∧
        (outcome.advanceGeneration = false → obj.observedGeneration = s.obj.observedGeneration)
  | _, _ => True

instance (e : Event) (s : State) : Decidable (CarriesStored e s) := by
  unfold CarriesStored
  obtain ⟨obj, earlier, executing, calls, task⟩ := s
  rcases e with _ | _ | _ | _ | _ | _ | _ | _ | _ | _ <;>
    rcases task with _ | _ | _ | _ | _ | _ <;> dsimp only <;> infer_instance

/-! ## What a step may change -/

/-- A call that has made a proposal. -/
def Call.Creates (c : Call) (p : RebalancerProposal) : Prop :=
  (∃ mode brokers goals token, c.rpc = .createProposal mode brokers goals token) ∧ c.answer = .ok p

/-- The last call has made a proposal. -/
def LastCreates (calls : List Call) (p : RebalancerProposal) : Prop :=
  ∃ c rest, calls = c :: rest ∧ c.Creates p

/-- What the approval, the session and the observed generation have to do with a step. -/
structure Orderly (cfg : Config) (e : Event) (s : State) : Prop where
  /-- An execution is that of the plan on file, in a pass that has found it ready and approved. -/
  approved : ∀ effect answer obj action token id throttle credential, e = .rpc effect answer →
    s.task = .calling obj action token →
    rpcOf obj token action = some (.executeProposal id throttle credential) →
      obj ∈ s.versions ∧ readCommand obj = some .approve ∧ currentState obj = .proposalReady ∧
        obj.session = some id
  session : (step cfg e s).obj.session ≠ s.obj.session →
    ∃ p, LastCreates s.calls p ∧ (step cfg e s).obj.session = some p.id
  generation : (step cfg e s).obj.observedGeneration ≠ s.obj.observedGeneration →
    ∃ p, LastCreates s.calls p ∧ (p.status = .computed ∨ p.status = .completed)

/-! ## Outcomes of proposals -/

@[simp] theorem Outcome.fromCreate_newSession (p : RebalancerProposal) :
    (Outcome.fromCreate p).newSession = some p.id := by
  unfold Outcome.fromCreate
  split <;> rfl

theorem Outcome.fromCreate_advanceGeneration {p : RebalancerProposal}
    (h : (Outcome.fromCreate p).advanceGeneration = true) :
    p.status = .computed ∨ p.status = .completed := by
  unfold Outcome.fromCreate at h
  split at h
  · rename_i hstatus
    exact .inl hstatus
  · rename_i hstatus
    exact .inr hstatus
  · cases h

/-- An outcome that sets neither the session nor the generation. -/
def Outcome.Carries (outcome : Outcome) : Prop :=
  outcome.newSession = none ∧ outcome.advanceGeneration = false

theorem Outcome.carries_transient {state : NodePool.RebalanceState} {reason message : String} :
    (Outcome.transient state reason message).Carries := ⟨rfl, rfl⟩

theorem Outcome.carries_fromExecuteOrPoll {p : RebalancerProposal} :
    (Outcome.fromExecuteOrPoll p).Carries := by
  unfold Outcome.fromExecuteOrPoll
  split <;> exact carries_transient

theorem Outcome.carries_fromRpcError {action : RebalanceAction} {e : RebalancerError} :
    (Outcome.fromRpcError action e).Carries := by
  unfold Outcome.fromRpcError
  split <;> exact carries_transient

theorem Outcome.ofAnswer_cases {action : RebalanceAction}
    {answer : Except RebalancerError RebalancerProposal} {outcome : Outcome}
    (h : Outcome.ofAnswer action answer = some outcome) :
    outcome.Carries ∨
      ∃ p, action = .createProposal ∧ answer = .ok p ∧ outcome = .fromCreate p := by
  cases answer with
  | error e =>
    left
    cases e with
    | transport message => cases h
    | rpc code message =>
      cases h
      exact carries_fromRpcError
    | decode message =>
      cases h
      exact carries_fromRpcError
  | ok p =>
    cases action with
    | createProposal =>
      cases h
      exact .inr ⟨p, rfl, rfl, rfl⟩
    | execute =>
      cases h
      exact .inl carries_fromExecuteOrPoll
    | pollExecution =>
      cases h
      exact .inl carries_fromExecuteOrPoll
    | cancel =>
      cases h
      exact .inl carries_transient
    | idle => cases h

/-! ## What passes have to write -/

/-- An outcome carries forward, or is that of the last call. -/
def Recent (calls : List Call) (outcome : Outcome) : Prop :=
  outcome.Carries ∨ ∃ p, LastCreates calls p ∧ outcome = .fromCreate p

/-- A pass works on a version of the object, does what it has decided, and writes the outcome
    of its own call. -/
def Task.Reports (s : State) : Task → Prop
  | .idle | .consuming => True
  | .credential obj action _ | .calling obj action _ => obj ∈ s.versions ∧ action = obj.action
  | .removing _ outcome | .writing _ outcome => Recent s.calls outcome

theorem Task.Reports.mono {s s' : State} {task : Task} (h : task.Reports s)
    (hversions : s.versions ⊆ s'.versions) (hcalls : s'.calls = s.calls) : task.Reports s' := by
  cases task with
  | idle => trivial
  | consuming => trivial
  | credential obj action ref => exact ⟨hversions h.1, h.2⟩
  | calling obj action token => exact ⟨hversions h.1, h.2⟩
  | removing obj outcome =>
    unfold Task.Reports
    rw [hcalls]
    exact h
  | writing obj outcome =>
    unfold Task.Reports
    rw [hcalls]
    exact h

section Steps

variable {cfg : Config} {s : State}

theorem reports_begin {obj : KafkaRebalance} (hobj : obj ∈ s.versions) :
    (cfg.begin obj).Reports s := by
  rcases begin_cases cfg obj with ⟨-, -, heq | heq⟩ |
    ⟨-, -, ⟨ref, -, heq⟩ | heq⟩ | ⟨-, reason, message, heq⟩ <;> rw [heq]
  · trivial
  · trivial
  · exact ⟨hobj, rfl⟩
  · exact ⟨hobj, rfl⟩
  · exact .inl Outcome.carries_transient

theorem reports_authorized {obj : KafkaRebalance} {action : RebalanceAction}
    {ref : NodePool.SecretKeyRef}
    {answer : Except KubeError (Option (Kube.BTreeMap Kube.ByteString))}
    (h : obj ∈ s.versions ∧ action = obj.action) :
    (cfg.authorized obj action ref answer).Reports s := by
  rcases authorized_cases cfg obj action ref answer with ⟨-, heq⟩ | ⟨token, heq⟩ |
    ⟨secret, failure, -, -, heq⟩ <;> rw [heq]
  · trivial
  · exact h
  · exact .inl Outcome.carries_transient

theorem reports_answered {obj : KafkaRebalance} {action : RebalanceAction} {token : Option String}
    {rpc : Rpc} {answer : Except RebalancerError RebalancerProposal}
    (hrpc : rpcOf obj token action = some rpc) {stored : KafkaRebalance} {rest : List Call}
    (hcalls : s.calls = ⟨rpc, stored, answer⟩ :: rest) :
    (answered obj action answer).Reports s := by
  rcases answered_cases obj action answer with ⟨-, heq⟩ | ⟨outcome, hout, heq⟩
  · rw [heq]
    trivial
  · have hrecent : Recent s.calls outcome := by
      rcases Outcome.ofAnswer_cases hout with hcarries | ⟨p, rfl, rfl, rfl⟩
      · exact .inl hcarries
      · cases hrpc
        exact .inr ⟨p, ⟨_, rest, hcalls, ⟨_, _, _, _, rfl⟩, rfl⟩, rfl⟩
    rcases heq with heq | heq <;> rw [heq] <;> exact hrecent

theorem reports_written {fault : Fault} {obj : KafkaRebalance} {next : Task}
    (h : next.Reports s) : (s.written fault obj next).task.Reports (s.written fault obj next) := by
  rcases written_cases (s := s) fault obj next with ⟨-, heq⟩ | ⟨task, htask, heq⟩
  · rw [heq]
    trivial
  · rw [heq]
    rcases htask with ⟨rfl, -⟩ | ⟨rfl, -⟩
    · exact h.mono versions_subset_store rfl
    · trivial

theorem reports_step (h : s.task.Reports s) (e : Event) :
    (step cfg e s).task.Reports (step cfg e s) := by
  cases e with
  | start lag =>
    unfold step
    dsimp only
    split
    · rename_i obj htask hobj
      exact (reports_begin (List.mem_of_getElem? hobj)).mono (List.Subset.refl _) rfl
    · exact h
  | secret answer =>
    unfold step
    dsimp only
    split
    · rename_i obj action ref htask
      rw [htask] at h
      exact (reports_authorized h).mono (List.Subset.refl _) rfl
    · exact h
  | rpc effect answer =>
    unfold step
    dsimp only
    split
    · split
      · rename_i rpc hrpc
        exact reports_answered hrpc rfl
      · trivial
    · exact h
  | removed fault =>
    unfold step
    dsimp only
    split
    · exact reports_written trivial
    · rename_i obj outcome htask
      rw [htask] at h
      exact reports_written h
    · exact h
  | written fault now =>
    unfold step
    dsimp only
    split
    · exact reports_written trivial
    · exact h
  | crash => trivial
  | command value => exact h.mono versions_subset_store rfl
  | edit spec => exact h.mono versions_subset_store rfl
  | relabel cluster => exact h.mono versions_subset_store rfl
  | finish id => exact h.mono (List.Subset.refl _) rfl

/-- Only the write of a status changes it. -/
theorem status_step {e : Event} (hwrite : ∀ fault now, e ≠ .written fault now) :
    (step cfg e s).obj.status = s.obj.status := by
  have hwritten (fault : Fault) (next : Task) :
      (s.written fault (s.obj.setCommand none) next).obj.status = s.obj.status := by
    cases fault with
    | none => exact setCommand_status
    | refused => rfl
    | lost => exact setCommand_status
  cases e with
  | start lag =>
    unfold step
    dsimp only
    split <;> rfl
  | secret answer =>
    unfold step
    dsimp only
    split <;> rfl
  | rpc effect answer =>
    unfold step
    dsimp only
    split
    · split
      · split
        · rename_i rpc _ _
          obtain ⟨executing, heq⟩ := carryOut_eq (s := s) _ rpc
          dsimp only
          rw [heq]
        · rfl
      · rfl
    · rfl
  | removed fault =>
    unfold step
    dsimp only
    split
    · exact hwritten fault _
    · exact hwritten fault _
    · rfl
  | written fault now => exact absurd rfl (hwrite fault now)
  | crash => rfl
  | command value => exact setCommand_status
  | edit spec => exact setSpec_status
  | relabel cluster => rfl
  | finish id => rfl

/-- A write of the status that changes the session or the generation. -/
theorem status_written {fault : Fault} {now : String} :
    (step cfg (.written fault now) s).obj.status = s.obj.status ∨
      fault ≠ .refused ∧ ∃ obj outcome, s.task = .writing obj outcome ∧
        (step cfg (.written fault now) s).obj.status = some (writeStatus obj outcome now) := by
  unfold step
  dsimp only
  split
  · rename_i obj outcome htask
    cases fault with
    | none => exact .inr ⟨nofun, obj, outcome, htask, rfl⟩
    | refused => exact .inl rfl
    | lost => exact .inr ⟨nofun, obj, outcome, htask, rfl⟩
  · exact .inl rfl

theorem session_eq {obj obj' : KafkaRebalance} (h : obj.status = obj'.status) :
    obj.session = obj'.session := by
  simp only [KafkaRebalance.session, h]

theorem observedGeneration_eq {obj obj' : KafkaRebalance} (h : obj.status = obj'.status) :
    obj.observedGeneration = obj'.observedGeneration := by
  simp only [KafkaRebalance.observedGeneration, h]

/-- A step that changes the session or the generation writes the outcome of the last call. -/
theorem written_of_change (h : s.task.Reports s) {e : Event} (hcarry : CarriesStored e s)
    (hchange : (step cfg e s).obj.session ≠ s.obj.session ∨
      (step cfg e s).obj.observedGeneration ≠ s.obj.observedGeneration) :
    ∃ obj now p, LastCreates s.calls p ∧
      (step cfg e s).obj.status = some (writeStatus obj (.fromCreate p) now) ∧
      ((Outcome.fromCreate p).advanceGeneration = false →
        obj.observedGeneration = s.obj.observedGeneration) := by
  have hsame : (step cfg e s).obj.status ≠ s.obj.status := by
    intro heq
    rcases hchange with hchange | hchange
    · exact hchange (session_eq heq)
    · exact hchange (observedGeneration_eq heq)
  by_cases hwrite : ∀ fault now, e ≠ .written fault now
  · exact absurd (status_step hwrite) hsame
  push Not at hwrite
  obtain ⟨fault, now, rfl⟩ := hwrite
  rcases @status_written cfg s fault now with heq |
    ⟨hfault, obj, outcome, htask, heq⟩
  · exact absurd heq hsame
  unfold CarriesStored at hcarry
  rw [htask] at hcarry h
  dsimp only at hcarry
  obtain ⟨hsession, hgeneration⟩ := hcarry.resolve_left hfault
  rcases h with ⟨hnew, hadvance⟩ | ⟨p, hlast, rfl⟩
  · exfalso
    have hsession' : (step cfg (.written fault now) s).obj.session = s.obj.session := by
      rw [KafkaRebalance.session, heq, ← hsession hnew]
      change outcome.newSession.or obj.session = obj.session
      rw [hnew, Option.none_or]
    have hgeneration' : (step cfg (.written fault now) s).obj.observedGeneration =
        s.obj.observedGeneration := by
      rw [KafkaRebalance.observedGeneration, heq, ← hgeneration hadvance]
      change (if outcome.advanceGeneration then obj.generation else obj.observedGeneration) = _
      rw [hadvance]
      rfl
    rcases hchange with hchange | hchange
    · exact hchange hsession'
    · exact hchange hgeneration'
  · exact ⟨obj, now, p, hlast, heq, hgeneration⟩

theorem orderly_of_reports (h : s.task.Reports s) {e : Event} (hcarry : CarriesStored e s) :
    Orderly cfg e s where
  approved := by
    intro effect answer obj action token id throttle credential _ htask hrpc
    rw [htask] at h
    obtain ⟨hobj, rfl⟩ := h
    have hact : obj.action = .execute := by
      cases hact : obj.action <;> rw [hact] at hrpc <;> cases hrpc
    obtain ⟨hready, hcommand, session, hsession⟩ := action_execute hact
    rw [hact] at hrpc
    cases hrpc
    refine ⟨hobj, hcommand, hready, ?_⟩
    rw [hsession]
    rfl
  session := by
    intro hchange
    obtain ⟨obj, now, p, hlast, hstatus, -⟩ := written_of_change h hcarry (.inl hchange)
    refine ⟨p, hlast, ?_⟩
    rw [KafkaRebalance.session, hstatus]
    change (Outcome.fromCreate p).newSession.or obj.session = some p.id
    rw [Outcome.fromCreate_newSession, Option.some_or]
  generation := by
    intro hchange
    obtain ⟨obj, now, p, hlast, hstatus, hkeep⟩ := written_of_change h hcarry (.inr hchange)
    refine ⟨p, hlast, Outcome.fromCreate_advanceGeneration ?_⟩
    by_contra hadvance
    rw [Bool.not_eq_true] at hadvance
    apply hchange
    rw [KafkaRebalance.observedGeneration, hstatus, ← hkeep hadvance]
    change (if (Outcome.fromCreate p).advanceGeneration then obj.generation
      else obj.observedGeneration) = _
    rw [hadvance]
    rfl

end Steps

/-! ## Every run -/

/-- In every run whose writes carry forward what is stored, each execution is approved, and
    the session and the observed generation change with new proposals only. -/
theorem sessions_orderly (cfg : Config) (cluster command : Option String)
    (spec : KafkaRebalanceSpec) (es : List Event)
    (h : History.Along (exec cfg) CarriesStored es (.created cluster command spec)) :
    History.Along (exec cfg) (Orderly cfg) es (.created cluster command spec) := by
  refine h.of_invariant (I := fun s : State => s.task.Reports s) trivial fun e s he hs => ?_
  rw [finish_exec]
  exact ⟨orderly_of_reports hs he, reports_step hs e⟩

namespace Sample

/-- A plan is executed, and a new one is made by a refresh. Then a pass starts on the object
    as it was before the write of the new plan. -/
def refreshedLate : List Event :=
  approved ++ ([.command (some "refresh"), .start 0,
    .rpc true (.ok { id := "p2", status := .computed }), .removed .none, .written .none "t3",
    .start 1, .rpc true (.ok { id := "p1", status := .executing })] : List Event)

end Sample

theorem sessions_orderly_approved :
    History.Along (exec Sample.config) (Orderly Sample.config) Sample.approved Sample.created :=
  sessions_orderly Sample.config (some "demo") none Sample.spec Sample.approved (by decide)

/-- The poll of the old plan puts the old session back. -/
theorem session_put_back :
    ¬ ∀ es : List Event,
      History.Along (exec Sample.config) (Orderly Sample.config) es Sample.created := by
  intro h
  have horderly : Orderly Sample.config (.written .none "t4")
      (History.final (exec Sample.config) Sample.refreshedLate Sample.created) :=
    (h (Sample.refreshedLate ++ [.written .none "t4"])).append.2.1
  obtain ⟨p, ⟨c, rest, hcalls, ⟨mode, brokers, goals, token, hrpc⟩, -⟩, -⟩ :=
    horderly.session (by decide)
  have hlast : (History.final (exec Sample.config) Sample.refreshedLate Sample.created).calls.map
      (·.rpc) = [.getProposal "p1", .createProposal .addBrokers [3] [] none,
        .executeProposal "p1" none none, .createProposal .addBrokers [3] [] none] := by
    decide
  rw [hcalls, List.map_cons, hrpc] at hlast
  cases hlast

end Rebalance
