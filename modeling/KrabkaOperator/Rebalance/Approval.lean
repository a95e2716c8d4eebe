-- SUMMARY: Which plan an approval executes: the plan made from the current spec, when the status has the current generation.
import KrabkaOperator.Rebalance.Machine

/-!
# Approvals

The plan on file was made from the spec of the observed generation. An approval
executes the plan on file, whatever the generation of the object is by then, so it
executes a plan for the current spec where both generations are the same.
-/

namespace Rebalance

open Operator (KubeError Fault)

/-- A call has made a proposal, from what a spec asks for. -/
def Call.Made (c : Call) (id : String) (spec : KafkaRebalanceSpec) : Prop :=
  ∃ token p, c.rpc = .createProposal spec.mode spec.brokers (spec.goals.getD []) token ∧
    c.answer = .ok p ∧ p.id = id

/-- Each execution names a proposal that was made from the spec which was stored when the
    execution was asked for. -/
def Reviewed : List Call → Prop
  | [] => True
  | c :: earlier =>
    (∀ id throttle token, c.rpc = .executeProposal id throttle token →
      ∃ c' ∈ earlier, c'.Made id c.stored.spec) ∧ Reviewed earlier

/-- An execution is asked for only where the status has the current generation. -/
def ApprovesCurrent (e : Event) (s : State) : Prop :=
  match e, s.task with
  | .rpc _ _, .calling obj .execute _ => obj.observedGeneration = s.obj.generation
  | _, _ => True

instance (e : Event) (s : State) : Decidable (ApprovesCurrent e s) := by
  unfold ApprovesCurrent
  split <;> infer_instance

/-! ## The plan on file -/

/-- The plan on file of a version was made from the version that has its observed generation. -/
def OnFile (s : State) (v : KafkaRebalance) : Prop :=
  currentState v = .proposalReady → ∀ id, v.session = some id →
    ∃ w ∈ s.versions, w.generation = v.observedGeneration ∧ ∃ c ∈ s.calls, c.Made id w.spec

/-- An outcome that makes a plan ready puts on file what was made from the version of the pass. -/
def Planned (s : State) (obj : KafkaRebalance) (outcome : Outcome) : Prop :=
  outcome.state = .proposalReady → outcome.advanceGeneration = true ∧
    ∃ id, outcome.newSession = some id ∧ ∃ c ∈ s.calls, c.Made id obj.spec

/-- A pass works on a version of the object, and does what it has decided. -/
def Task.Follows (s : State) : Task → Prop
  | .idle | .consuming => True
  | .credential obj action _ | .calling obj action _ => obj ∈ s.versions ∧ action = obj.action
  | .removing obj outcome | .writing obj outcome => obj ∈ s.versions ∧ Planned s obj outcome

/-- A version has no later generation than the object, and its spec where both are the same. -/
def Precedes (v obj : KafkaRebalance) : Prop :=
  ∃ g g', v.generation = some g ∧ obj.generation = some g' ∧ g ≤ g' ∧ (g = g' → v.spec = obj.spec)

structure Traced (s : State) : Prop where
  precedes : ∀ v ∈ s.versions, Precedes v s.obj
  onFile : ∀ v ∈ s.versions, OnFile s v
  follows : s.task.Follows s
  reviewed : Reviewed s.calls

section Growth

variable {s s' : State} (hversions : s.versions ⊆ s'.versions) (hcalls : s.calls ⊆ s'.calls)
include hversions hcalls

theorem OnFile.mono {v : KafkaRebalance} (h : OnFile s v) : OnFile s' v := by
  intro hready id hid
  obtain ⟨w, hw, hgen, c, hc, hmade⟩ := h hready id hid
  exact ⟨w, hversions hw, hgen, c, hcalls hc, hmade⟩

omit hversions in
theorem Planned.mono {obj : KafkaRebalance} {outcome : Outcome} (h : Planned s obj outcome) :
    Planned s' obj outcome := by
  intro hready
  obtain ⟨hadv, id, hid, c, hc, hmade⟩ := h hready
  exact ⟨hadv, id, hid, c, hcalls hc, hmade⟩

theorem Task.Follows.mono {task : Task} (h : task.Follows s) : task.Follows s' := by
  cases task with
  | idle => trivial
  | consuming => trivial
  | credential obj action ref => exact ⟨hversions h.1, h.2⟩
  | calling obj action token => exact ⟨hversions h.1, h.2⟩
  | removing obj outcome => exact ⟨hversions h.1, h.2.mono hcalls⟩
  | writing obj outcome => exact ⟨hversions h.1, h.2.mono hcalls⟩

end Growth

section Versions

variable {s : State} {obj : KafkaRebalance}

theorem mem_versions_store {v : KafkaRebalance} :
    v ∈ (s.store obj).versions ↔ v = obj ∨ v ∈ s.versions := by
  simp [State.versions, State.store]

theorem versions_subset_store : s.versions ⊆ (s.store obj).versions :=
  fun _ hv => mem_versions_store.mpr (.inr hv)

theorem onFile_of_status_none {v : KafkaRebalance} (h : v.status = none) : OnFile s v := by
  intro hready
  simp [currentState, h] at hready

/-- The plan on file of a version with an old status is the old plan. -/
theorem OnFile.of_status {v : KafkaRebalance} (h : OnFile s v) (hstatus : obj.status = v.status) :
    OnFile s obj := by
  intro hready id hid
  have hready' : currentState v = .proposalReady := by
    rw [← hready]
    simp only [currentState, hstatus]
  have hid' : v.session = some id := by
    rw [← hid]
    simp only [KafkaRebalance.session, hstatus]
  have hgen : v.observedGeneration = obj.observedGeneration := by
    simp only [KafkaRebalance.observedGeneration, hstatus]
  exact hgen ▸ h hready' id hid'

/-- The status that a planned outcome leads to has the plan on file. -/
theorem Planned.onFile {v : KafkaRebalance} {outcome : Outcome} {now : String}
    (h : Planned s v outcome) (hv : v ∈ s.versions) :
    OnFile s (obj.setStatus (writeStatus v outcome now)) := by
  intro hready id hid
  rw [KafkaRebalance.setStatus, currentState_writeStatus] at hready
  obtain ⟨hadv, id', hnew, hmade⟩ := h hready
  rw [KafkaRebalance.setStatus, session_writeStatus, hnew] at hid
  cases hid
  refine ⟨v, hv, ?_, hmade⟩
  rw [KafkaRebalance.setStatus, observedGeneration_writeStatus, if_pos hadv]

end Versions

/-! ## Every step keeps the trace -/

section Steps

variable {s : State}

/-- A task of which the trace holds. -/
theorem Traced.withTask (h : Traced s) {task : Task} (htask : task.Follows s) :
    Traced { s with task := task } :=
  ⟨h.precedes, h.onFile, htask.mono (List.Subset.refl _) (List.Subset.refl _), h.reviewed⟩

/-- A new version that has the spec, or that has the next generation. -/
theorem Traced.store (h : Traced s) {obj : KafkaRebalance}
    (hgen : obj.generation = s.obj.generation ∧ obj.spec = s.obj.spec ∨
      obj.generation = s.obj.generation.map (· + 1)) (hfile : OnFile s obj) :
    Traced (s.store obj) := by
  obtain ⟨g, -, hg, -⟩ := h.precedes s.obj List.mem_cons_self
  refine ⟨fun v hv => ?_, fun v hv => ?_, h.follows.mono versions_subset_store
    (List.Subset.refl _), h.reviewed⟩
  · change Precedes v obj
    rcases mem_versions_store.mp hv with rfl | hv
    · rcases hgen with ⟨heq, -⟩ | heq
      · exact ⟨g, g, heq.trans hg, heq.trans hg, le_refl g, fun _ => rfl⟩
      · rw [hg] at heq
        exact ⟨g + 1, g + 1, heq, heq, le_refl _, fun _ => rfl⟩
    · obtain ⟨g₁, g₂, hv₁, hv₂, hle, hspec⟩ := h.precedes v hv
      rcases hgen with ⟨heq, hobj⟩ | heq
      · refine ⟨g₁, g₂, hv₁, heq.trans hv₂, hle, fun hsame => ?_⟩
        rw [hobj]
        exact hspec hsame
      · rw [hv₂] at heq
        refine ⟨g₁, g₂ + 1, hv₁, heq, by omega, fun hsame => ?_⟩
        omega
  · rcases mem_versions_store.mp hv with rfl | hv
    · exact hfile.mono versions_subset_store (List.Subset.refl _)
    · exact (h.onFile v hv).mono versions_subset_store (List.Subset.refl _)

theorem Traced.written (h : Traced s) {fault : Fault} {obj : KafkaRebalance} {next : Task}
    (hgen : obj.generation = s.obj.generation ∧ obj.spec = s.obj.spec) (hfile : OnFile s obj)
    (hnext : next.Follows s) : Traced (s.written fault obj next) := by
  rcases written_cases (s := s) fault obj next with ⟨-, heq⟩ | ⟨task, htask, heq⟩
  · rw [heq]
    exact h.withTask trivial
  · rw [heq]
    refine (h.store (.inl hgen) hfile).withTask ?_
    rcases htask with ⟨rfl, -⟩ | ⟨rfl, -⟩
    · exact hnext.mono versions_subset_store (List.Subset.refl _)
    · trivial

theorem Traced.setCommand (h : Traced s) {value : Option String} :
    OnFile s (s.obj.setCommand value) :=
  (h.onFile s.obj List.mem_cons_self).of_status setCommand_status

/-- A pass starts on a version, and its first outcomes make no plan ready. -/
theorem Traced.begin (h : Traced s) {cfg : Config} {obj : KafkaRebalance}
    (hobj : obj ∈ s.versions) : Traced { s with task := cfg.begin obj } := by
  apply h.withTask
  rcases begin_cases cfg obj with ⟨-, -, heq | heq⟩ |
    ⟨-, -, ⟨ref, -, heq⟩ | heq⟩ | ⟨-, reason, message, heq⟩ <;> rw [heq]
  · trivial
  · trivial
  · exact ⟨hobj, rfl⟩
  · exact ⟨hobj, rfl⟩
  · exact ⟨hobj, nofun⟩

theorem Traced.authorized (h : Traced s) {cfg : Config} {obj : KafkaRebalance}
    {action : RebalanceAction} {ref : NodePool.SecretKeyRef}
    {answer : Except KubeError (Option (Kube.BTreeMap Kube.ByteString))}
    (hobj : obj ∈ s.versions) (haction : action = obj.action) :
    Traced { s with task := cfg.authorized obj action ref answer } := by
  apply h.withTask
  rcases authorized_cases cfg obj action ref answer with ⟨-, heq⟩ | ⟨token, heq⟩ |
    ⟨secret, failure, -, -, heq⟩ <;> rw [heq]
  · trivial
  · exact ⟨hobj, haction⟩
  · exact ⟨hobj, nofun⟩

/-- What is executed under the condition was made from the current spec. -/
theorem Traced.executed (h : Traced s) {obj : KafkaRebalance} {id : String}
    (hobj : obj ∈ s.versions) (haction : obj.action = .execute) (hid : obj.session = some id)
    (hgen : obj.observedGeneration = s.obj.generation) : ∃ c ∈ s.calls, c.Made id s.obj.spec := by
  obtain ⟨hready, -⟩ := action_execute haction
  obtain ⟨w, hw, hwgen, c, hc, hmade⟩ := h.onFile obj hobj hready id hid
  obtain ⟨g, g', hg, hg', -, hspec⟩ := h.precedes w hw
  have hsame : g = g' := by
    rw [hwgen, hgen, hg'] at hg
    exact (Option.some.inj hg).symm
  exact ⟨c, hc, hspec hsame ▸ hmade⟩

/-- A call is kept, and its outcome is planned. -/
theorem Traced.call (h : Traced s) {obj : KafkaRebalance} {token : Option String} {rpc : Rpc}
    {answer : Except RebalancerError RebalancerProposal} {executing : List Execution}
    (hobj : obj ∈ s.versions) (hrpc : rpcOf obj token obj.action = some rpc)
    (hreview : ∀ id throttle token, rpc = .executeProposal id throttle token →
      ∃ c ∈ s.calls, c.Made id s.obj.spec) :
    Traced { s with
      executing := executing, calls := ⟨rpc, s.obj, answer⟩ :: s.calls
      task := answered obj obj.action answer } := by
  let s' : State := { s with
    executing := executing, calls := ⟨rpc, s.obj, answer⟩ :: s.calls
    task := answered obj obj.action answer }
  have hversions : s.versions ⊆ s'.versions := List.Subset.refl _
  have hcalls : s.calls ⊆ s'.calls := List.subset_cons_self _ _
  change Traced s'
  refine ⟨h.precedes, fun v hv => (h.onFile v hv).mono hversions hcalls, ?_, hreview, h.reviewed⟩
  change (answered obj obj.action answer).Follows s'
  rcases answered_cases obj obj.action answer with ⟨-, heq⟩ | ⟨outcome, hout, heq⟩
  · rw [heq]
    trivial
  · have hplan : Planned s' obj outcome := by
      intro hready
      obtain ⟨hact, hadv, p, rfl, hnew⟩ := Outcome.ofAnswer_proposalReady hout hready
      rw [hact] at hrpc
      cases hrpc
      exact ⟨hadv, p.id, hnew, _, List.mem_cons_self, _, p, rfl, rfl, rfl⟩
    rcases heq with heq | heq <;> rw [heq] <;> exact ⟨hobj, hplan⟩

/-- The fields that the rebalancer changes are not those of the trace. -/
theorem carryOut_eq (approval : Nat) (rpc : Rpc) : ∃ executing,
    s.carryOut approval rpc = { s with executing := executing } := by
  unfold State.carryOut
  split
  · split
    · exact ⟨_, rfl⟩
    · exact ⟨_, rfl⟩
  · exact ⟨_, rfl⟩
  · exact ⟨_, rfl⟩
  · exact ⟨_, rfl⟩

theorem Traced.rpc (h : Traced s) {cfg : Config} {effect : Bool}
    {answer : Except RebalancerError RebalancerProposal}
    (hcur : ApprovesCurrent (.rpc effect answer) s) : Traced (step cfg (.rpc effect answer) s) := by
  unfold step
  dsimp only
  split
  · rename_i obj action token htask
    have hfollows := h.follows
    rw [htask] at hfollows
    obtain ⟨hobj, rfl⟩ := hfollows
    split
    · rename_i rpc hrpc
      have hreview : ∀ id throttle token, rpc = .executeProposal id throttle token →
          ∃ c ∈ s.calls, c.Made id s.obj.spec := by
        rintro id throttle token' rfl
        have hact : obj.action = .execute := by
          cases hact : obj.action <;> rw [hact] at hrpc <;> cases hrpc
        obtain ⟨-, -, id', hid⟩ := action_execute hact
        simp only [ApprovesCurrent, htask, hact] at hcur
        rw [hact] at hrpc
        cases hrpc
        rw [hid]
        exact h.executed hobj hact hid hcur
      have hsplit : ∃ executing, (if effect = true then s.carryOut obj.commandRevision rpc else s) =
          { s with executing := executing } := by
        split
        · exact carryOut_eq _ _
        · exact ⟨s.executing, rfl⟩
      obtain ⟨executing, heq⟩ := hsplit
      rw [heq]
      exact h.call hobj hrpc hreview
    · exact h.withTask trivial
  · exact h

theorem Traced.step (h : Traced s) {cfg : Config} {e : Event} (hcur : ApprovesCurrent e s) :
    Traced (Rebalance.step cfg e s) := by
  have hfollows := h.follows
  cases e with
  | start lag =>
    unfold Rebalance.step
    dsimp only
    split
    · rename_i obj htask hobj
      exact h.begin (List.mem_of_getElem? hobj)
    · exact h
  | secret answer =>
    unfold Rebalance.step
    dsimp only
    split
    · rename_i obj action ref htask
      rw [htask] at hfollows
      exact h.authorized hfollows.1 hfollows.2
    · exact h
  | rpc effect answer => exact h.rpc hcur
  | removed fault =>
    unfold Rebalance.step
    dsimp only
    split
    · exact h.written ⟨setCommand_generation, setCommand_spec⟩ h.setCommand trivial
    · rename_i obj outcome htask
      rw [htask] at hfollows
      exact h.written ⟨setCommand_generation, setCommand_spec⟩ h.setCommand hfollows
    · exact h
  | written fault now =>
    unfold Rebalance.step
    dsimp only
    split
    · rename_i obj outcome htask
      rw [htask] at hfollows
      exact h.written ⟨rfl, rfl⟩ (hfollows.2.onFile hfollows.1) trivial
    · exact h
  | crash => exact h.withTask trivial
  | command value =>
    exact h.store (.inl ⟨setCommand_generation, setCommand_spec⟩) h.setCommand
  | edit spec =>
    refine h.store ?_ ((h.onFile s.obj List.mem_cons_self).of_status setSpec_status)
    unfold KafkaRebalance.setSpec
    split
    · exact .inl ⟨rfl, rfl⟩
    · exact .inr rfl
  | relabel cluster =>
    exact h.store (.inl ⟨rfl, rfl⟩) ((h.onFile s.obj List.mem_cons_self).of_status rfl)
  | finish id =>
    exact ⟨h.precedes, h.onFile, h.follows.mono (List.Subset.refl _) (List.Subset.refl _),
      h.reviewed⟩

theorem traced_created (cluster command : Option String) (spec : KafkaRebalanceSpec) :
    Traced (.created cluster command spec) where
  precedes := by
    intro v hv
    rw [List.mem_singleton.mp hv]
    exact ⟨1, 1, rfl, rfl, le_refl _, fun _ => rfl⟩
  onFile := by
    intro v hv
    rw [List.mem_singleton.mp hv]
    exact onFile_of_status_none rfl
  follows := trivial
  reviewed := trivial

end Steps

/-! ## Approvals of the current spec -/

/-- In every run in which each execution is asked for at the observed generation, each
    execution is one of a plan for the current spec. -/
theorem executions_reviewed (cfg : Config) (cluster command : Option String)
    (spec : KafkaRebalanceSpec) (es : List Event)
    (h : History.Along (exec cfg) ApprovesCurrent es (.created cluster command spec)) :
    ∀ s ∈ History.states (exec cfg) es (.created cluster command spec), Reviewed s.calls := by
  refine History.invariant_along (I := Traced) (J := fun s : State => Reviewed s.calls)
    (traced_created cluster command spec) h
    (fun s hs => hs.reviewed) (fun e s he hs => ?_) (fun e s he hs t ht => ?_)
  · rw [finish_exec]
    exact hs.step he
  · rw [List.mem_singleton.mp ht]
    exact (hs.step he).reviewed

namespace Sample

def config : Config := ⟨⟨fun _ => true, fun _ => ""⟩, "kafka"⟩

def spec : KafkaRebalanceSpec := { mode := .addBrokers, brokers := [3] }

def created : State := .created (some "demo") none spec

/-- A pass that makes a plan. -/
def proposes (id : String) : List Event :=
  [.start 0, .rpc true (.ok { id := id, status := .computed }), .written .none "t1"]

/-- A pass that executes the plan on file. -/
def executes (id : String) : List Event :=
  [.start 0, .rpc true (.ok { id := id, status := .executing }), .removed .none, .written .none "t2"]

/-- A plan that is approved at once. -/
def approved : List Event := proposes "p1" ++ [.command (some "approve")] ++ executes "p1"

/-- A plan that is approved after another broker was asked for. -/
def editedAndApproved : List Event :=
  proposes "p1" ++ [.edit { spec with brokers := [4] }, .command (some "approve")] ++ executes "p1"

end Sample

theorem executions_reviewed_approved :
    (History.final (exec Sample.config) Sample.approved Sample.created).executing = [⟨"p1", 1⟩] ∧
      ∀ s ∈ History.states (exec Sample.config) Sample.approved Sample.created, Reviewed s.calls :=
  ⟨by decide, executions_reviewed Sample.config (some "demo") none Sample.spec
    Sample.approved (by decide)⟩

/-- The plan for the old brokers is executed. -/
theorem executes_old_plan :
    ¬ ∀ s ∈ History.states (exec Sample.config) Sample.editedAndApproved Sample.created,
      Reviewed s.calls := by
  intro h
  have hfinal := h _ History.final_mem_states
  have hcalls : ∃ o₁ o₂ a₁ a₂,
      (History.final (exec Sample.config) Sample.editedAndApproved Sample.created).calls =
        [⟨.executeProposal "p1" none none, o₂, a₂⟩,
          ⟨.createProposal .addBrokers [3] [] none, o₁, a₁⟩] ∧ o₂.spec.brokers = [4] :=
    ⟨_, _, _, _, rfl, by decide⟩
  obtain ⟨o₁, o₂, a₁, a₂, hcalls, hbrokers⟩ := hcalls
  rw [hcalls] at hfinal
  obtain ⟨c, hc, token, p, hrpc, -⟩ := hfinal.1 "p1" none none rfl
  rw [List.mem_singleton.mp hc] at hrpc
  dsimp only at hrpc
  rw [hbrokers] at hrpc
  simp at hrpc

end Rebalance
