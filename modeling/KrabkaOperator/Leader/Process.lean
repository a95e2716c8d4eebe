-- SUMMARY: One operator process: its phases and what its health server shows, its controllers, and how it takes the lease and gives it back.
import KrabkaOperator.Leader.Exclusion

/-!
# The operator process

A process is ready as soon as it can serve, waits for the lease, runs its controllers
while it leads, and stops them before it gives the lease back. Its steps run beside the
calls of its lease task, and beside all other processes.
-/

namespace Leader

/-! ## Health -/

/-- The lifecycle phase of a process. -/
inductive Phase where
  | starting
  | standby
  | leading
  | stopping
  deriving DecidableEq, Repr

def Phase.toRaw : Phase → Nat
  | .starting => 0
  | .standby => 1
  | .leading => 2
  | .stopping => 3

def Phase.fromRaw : Nat → Phase
  | 0 => .starting
  | 1 => .standby
  | 2 => .leading
  | _ => .stopping

def Phase.isReady : Phase → Bool
  | .standby | .leading => true
  | _ => false

def Phase.isLeader : Phase → Bool
  | .leading => true
  | _ => false

def Phase.name : Phase → String
  | .starting => "starting"
  | .standby => "standby"
  | .leading => "leading"
  | .stopping => "stopping"

structure HealthState where
  /-- The phase as a number. -/
  raw : Nat := Phase.toRaw .starting
  deriving DecidableEq, Repr

def HealthState.phase (health : HealthState) : Phase := .fromRaw health.raw

/-- A move to an earlier phase has no effect. -/
def HealthState.advance (health : HealthState) (next : Phase) : HealthState :=
  { raw := max health.raw next.toRaw }

/-- The answer of `/readyz`. -/
def HealthState.readyz (health : HealthState) : Nat × String :=
  if health.phase.isReady then (200, "ready: " ++ health.phase.name)
  else (503, "not ready: " ++ health.phase.name)

/-- The gauge `krabka_operator_leader` at a scrape. -/
def HealthState.leaderGauge (health : HealthState) : Nat := if health.phase.isLeader then 1 else 0

@[simp] theorem Phase.fromRaw_toRaw (phase : Phase) : fromRaw phase.toRaw = phase := by
  cases phase <;> rfl

/-! ## The process -/

/-- Where `run` is. -/
inductive Stage where
  /-- There is no process. -/
  | off
  /-- The Kubernetes client is being built. -/
  | building
  | acquiring
  /-- In the `select!` over the lease, the health server, the controllers and the signal. -/
  | supervising
  /-- `controllers.stop()`: each controller is told to stop, and waited for. -/
  | stopping
  /-- `leadership.release(..)`. -/
  | releasing
  /-- `run` returns with the error of the lease. Its controllers are aborted, not waited for. -/
  | leaving
  deriving DecidableEq, Repr

def controllerNames : List String :=
  ["Kafka", "KafkaNodePool", "KafkaTopic", "KafkaUser", "KafkaRebalance", "KafkaGrpcGateway",
    "KafkaConnector", "SchemaRegistry"]

structure Process where
  stage : Stage := .off
  health : HealthState := {}
  /-- The controllers that run. -/
  controllers : List String := []
  /-- A controller has ended by itself. -/
  ended : Bool := false
  deriving DecidableEq, Repr

/-- What ends the `select!`. -/
inductive Branch where
  | leaseLost
  | healthServer
  | controllerExit
  | signal
  deriving DecidableEq, Repr

/-- All processes with the lease. -/
structure System (ι : Type) where
  lease : State ι
  process : ι → Process

inductive ProcessEvent (ι : Type) where
  | tick (extent : Time)
  /-- The next call of the lease task of a process, or its next look at the clock. -/
  | call (i : ι) (fault : Fault)
  | boot (i : ι)
  /-- The Kubernetes client is there, or cannot be built. -/
  | connect (i : ι) (ok : Bool)
  /-- `acquire` has returned. -/
  | acquired (i : ι)
  | exits (i : ι) (controller : String)
  | select (i : ι) (branch : Branch)
  /-- An aborted controller has ended. -/
  | aborted (i : ι) (controller : String)
  /-- All controllers have stopped. -/
  | stopped (i : ι)
  | released (i : ι)
  /-- The release takes longer than its limit. -/
  | timedOut (i : ι)
  /-- The process that lost the lease ends. -/
  | quit (i : ι)
  /-- The process is killed, wherever it is. -/
  | kill (i : ι)
  deriving DecidableEq, Repr

section Steps

variable {ι : Type} [DecidableEq ι] (cfg : Config ι)

def System.set (s : System ι) (i : ι) (p : Process) : System ι :=
  { s with process := Function.update s.process i p }

/-- A step of a process that is also one of its lease task. -/
def System.setWith (s : System ι) (i : ι) (p : Process) (e : Event ι) : System ι where
  lease := step cfg e s.lease
  process := Function.update s.process i p

/-- What a process does when it starts to stop. -/
def Process.begin (p : Process) (stage : Stage) : Process :=
  { p with stage, health := p.health.advance .stopping }

/-- Whether a branch of the `select!` can be taken. -/
def Branch.enabled (p : Process) (task : Task) : Branch → Bool
  | .leaseLost => task = .ended
  | .controllerExit => p.ended
  | .healthServer | .signal => true

def Branch.target : Branch → Stage
  | .leaseLost => .leaving
  | _ => .stopping

def System.step (e : ProcessEvent ι) (s : System ι) : System ι :=
  match e with
  | .tick extent => { s with lease := Leader.step cfg (.tick extent) s.lease }
  | .call i fault => { s with lease := Leader.step cfg (.step i fault) s.lease }
  | .boot i => if (s.process i).stage = .off then s.set i { stage := .building } else s
  | .connect i ok =>
    if (s.process i).stage = .building then
      if ok then
        s.setWith cfg i { s.process i with
          stage := .acquiring, health := (s.process i).health.advance .standby } (.start i)
      else s.set i {}
    else s
  | .acquired i =>
    if (s.process i).stage = .acquiring then
      if (s.lease.task i).leads || s.lease.task i = .ended then
        s.set i { s.process i with
          stage := .supervising
          health := (s.process i).health.advance .leading
          controllers := controllerNames }
      else if s.lease.task i = .down then s.set i {}
      else s
    else s
  | .exits i controller =>
    if controller ∈ (s.process i).controllers then
      s.set i { s.process i with
        controllers := (s.process i).controllers.erase controller, ended := true }
    else s
  | .select i branch =>
    if (s.process i).stage = .supervising ∧ branch.enabled (s.process i) (s.lease.task i) then
      s.set i ((s.process i).begin branch.target)
    else s
  | .aborted i controller =>
    if (s.process i).stage = .stopping ∨ (s.process i).stage = .leaving then
      s.set i { s.process i with controllers := (s.process i).controllers.erase controller }
    else s
  | .stopped i =>
    if (s.process i).stage = .stopping ∧ (s.process i).controllers = [] then
      s.setWith cfg i { s.process i with stage := .releasing } (.release i)
    else s
  | .released i =>
    if (s.process i).stage = .releasing ∧ s.lease.task i = .down then s.set i {} else s
  | .timedOut i =>
    if (s.process i).stage = .releasing then s.setWith cfg i {} (.crash i) else s
  | .quit i => if (s.process i).stage = .leaving then s.setWith cfg i {} (.crash i) else s
  | .kill i => s.setWith cfg i {} (.crash i)

/-- The states of a run, as a history of single steps. -/
def System.exec (e : ProcessEvent ι) (s : System ι) : List (System ι) := [s.step cfg e]

theorem System.finish_exec {e : ProcessEvent ι} {s : System ι} :
    History.finish (System.exec cfg) e s = s.step cfg e := rfl

end Steps

/-! ## What a process and its lease task are at -/

/-- Before `acquire` has returned. -/
def Task.acquires : Task → Bool
  | .acquiring | .found _ | .creating _ | .claiming _ | .waiting _ => true
  | _ => false

/-- In `release`. -/
def Task.releases : Task → Bool
  | .releasing _ | .clearing _ => true
  | _ => false

/-- The lease task, the phase and the controllers of a process at each stage of `run`. -/
def Process.Linked (p : Process) (task : Task) : Prop :=
  match p.stage with
  | .off => task = .down ∧ p.controllers = [] ∧ p.health.raw = Phase.toRaw .starting
  | .building => task = .down ∧ p.controllers = [] ∧ p.health.raw = Phase.toRaw .starting
  | .acquiring =>
    (task.acquires = true ∨ task.leads = true ∨ task = .ended ∨ task = .down) ∧
      p.controllers = [] ∧ p.health.raw = Phase.toRaw .standby
  | .supervising =>
    (task.leads = true ∨ task = .ended) ∧ p.health.raw = Phase.toRaw .leading
  | .stopping => (task.leads = true ∨ task = .ended) ∧ p.health.raw = Phase.toRaw .stopping
  | .releasing =>
    (task.releases = true ∨ task = .down) ∧ p.controllers = [] ∧
      p.health.raw = Phase.toRaw .stopping
  | .leaving => task = .ended ∧ p.health.raw = Phase.toRaw .stopping

section Advance

variable {ι : Type} (cfg : Config ι) (i : ι) (fault : Fault) (now : Time) (store : Store)
  {task : Task}

theorem advance_acquires (h : task.acquires = true) :
    (cfg.advance i fault now store task).1.acquires = true ∨
      (cfg.advance i fault now store task).1.leads = true ∨
      (cfg.advance i fault now store task).1 = .down := by
  cases task with
  | acquiring =>
    simp only [Config.advance]
    cases answerRead fault store with
    | ok lease => exact .inl rfl
    | error e => exact .inr (.inr rfl)
  | found lease =>
    simp only [Config.advance]
    cases lease with
    | none => exact .inl rfl
    | some existing =>
      simp only [Config.decide]
      split
      · exact .inr (.inl rfl)
      · split
        · exact .inl rfl
        · exact .inl rfl
  | creating spec =>
    simp only [Config.advance]
    split
    · exact .inr (.inl rfl)
    · exact .inl rfl
    · exact .inr (.inr rfl)
  | claiming lease =>
    simp only [Config.advance]
    split
    · exact .inr (.inl rfl)
    · exact .inl rfl
  | waiting wake =>
    simp only [Config.advance]
    split
    · exact .inl rfl
    · exact .inl rfl
  | down => cases h
  | leading lastSuccess wake => cases h
  | renewing lastSuccess => cases h
  | refreshing lastSuccess lease => cases h
  | replacing lastSuccess lease => cases h
  | ended => cases h
  | releasing called => cases h
  | clearing lease => cases h

theorem retry_leads (lastSuccess : Time) :
    (cfg.retry lastSuccess now).leads = true ∨ cfg.retry lastSuccess now = .ended := by
  unfold Config.retry
  split
  · exact .inr rfl
  · exact .inl rfl

theorem advance_leads (h : task.leads = true) :
    (cfg.advance i fault now store task).1.leads = true ∨
      (cfg.advance i fault now store task).1 = .ended := by
  cases task with
  | leading lastSuccess wake =>
    simp only [Config.advance]
    split
    · exact .inl rfl
    · exact .inl rfl
  | renewing lastSuccess =>
    simp only [Config.advance]
    split
    · exact .inl rfl
    · exact .inr rfl
    · exact retry_leads cfg now lastSuccess
  | refreshing lastSuccess lease =>
    simp only [Config.advance]
    split
    · exact .inl rfl
    · exact .inr rfl
  | replacing lastSuccess lease =>
    simp only [Config.advance]
    split
    · exact .inl rfl
    · exact retry_leads cfg now lastSuccess
  | acquiring => cases h
  | found lease => cases h
  | creating spec => cases h
  | claiming lease => cases h
  | waiting wake => cases h
  | down => cases h
  | ended => cases h
  | releasing called => cases h
  | clearing lease => cases h

theorem advance_releases (h : task.releases = true) :
    (cfg.advance i fault now store task).1.releases = true ∨
      (cfg.advance i fault now store task).1 = .down := by
  cases task with
  | releasing called =>
    simp only [Config.advance]
    cases answerRead fault store with
    | error e => exact .inr rfl
    | ok lease =>
      cases lease with
      | none => exact .inr rfl
      | some lease =>
        simp only
        split
        · exact .inl rfl
        · exact .inr rfl
  | clearing lease => exact .inr rfl
  | acquiring => cases h
  | found lease => cases h
  | creating spec => cases h
  | claiming lease => cases h
  | waiting wake => cases h
  | down => cases h
  | leading lastSuccess wake => cases h
  | renewing lastSuccess => cases h
  | refreshing lastSuccess lease => cases h
  | replacing lastSuccess lease => cases h
  | ended => cases h

theorem advance_down : (cfg.advance i fault now store .down).1 = .down := rfl

theorem advance_ended : (cfg.advance i fault now store .ended).1 = .ended := rfl

/-- A call of the lease task leaves the process where it is. -/
theorem Process.Linked.advance {p : Process} (h : p.Linked task) :
    p.Linked (cfg.advance i fault now store task).1 := by
  have hheld : task.leads = true ∨ task = .ended →
      (cfg.advance i fault now store task).1.leads = true ∨
        (cfg.advance i fault now store task).1 = .ended := by
    rintro (h | rfl)
    · exact advance_leads cfg i fault now store h
    · exact .inr rfl
  unfold Process.Linked at h ⊢
  cases hstage : p.stage with
  | off =>
    simp only [hstage] at h ⊢
    obtain ⟨rfl, hrest⟩ := h
    exact ⟨rfl, hrest⟩
  | building =>
    simp only [hstage] at h ⊢
    obtain ⟨rfl, hrest⟩ := h
    exact ⟨rfl, hrest⟩
  | acquiring =>
    simp only [hstage] at h ⊢
    refine ⟨?_, h.2⟩
    rcases h.1 with h | h | rfl | rfl
    · rcases advance_acquires cfg i fault now store h with h | h | h
      · exact .inl h
      · exact .inr (.inl h)
      · exact .inr (.inr (.inr h))
    · rcases hheld (.inl h) with h | h
      · exact .inr (.inl h)
      · exact .inr (.inr (.inl h))
    · exact .inr (.inr (.inl rfl))
    · exact .inr (.inr (.inr rfl))
  | supervising =>
    simp only [hstage] at h ⊢
    exact ⟨hheld h.1, h.2⟩
  | stopping =>
    simp only [hstage] at h ⊢
    exact ⟨hheld h.1, h.2⟩
  | releasing =>
    simp only [hstage] at h ⊢
    refine ⟨?_, h.2⟩
    rcases h.1 with h | rfl
    · exact advance_releases cfg i fault now store h
    · exact .inr rfl
  | leaving =>
    simp only [hstage] at h ⊢
    obtain ⟨rfl, hrest⟩ := h
    exact ⟨rfl, hrest⟩

end Advance

/-! ## All processes -/

section Systems

variable {ι : Type} [DecidableEq ι] {cfg : Config ι} {s : System ι} {i : ι} {p : Process}

theorem linked_off : ({} : Process).Linked .down := ⟨rfl, rfl, rfl⟩

/-- Each process is where its lease task is. -/
def System.Linked (s : System ι) : Prop := ∀ i, (s.process i).Linked (s.lease.task i)

theorem System.Linked.set (h : s.Linked) (hp : p.Linked (s.lease.task i)) : (s.set i p).Linked := by
  intro j
  by_cases hj : j = i
  · subst hj
    simpa [System.set] using hp
  · simpa [System.set, Function.update_of_ne hj] using h j

/-- The events of a lease task that a process drives. -/
def Event.DrivenBy (i : ι) : Event ι → Prop
  | .start j | .crash j | .release j => j = i
  | _ => False

theorem task_of_drivenBy {e : Event ι} (he : e.DrivenBy i) {j : ι} (hj : j ≠ i) :
    (step cfg e s.lease).task j = s.lease.task j := by
  cases e with
  | tick extent => exact he.elim
  | step k fault => exact he.elim
  | start k =>
    obtain rfl : k = i := he
    simp only [step]
    split
    · split
      · simp [State.withTask, Function.update_of_ne hj]
      · rfl
    · rfl
  | crash k =>
    obtain rfl : k = i := he
    simp [step, State.withTask, Function.update_of_ne hj]
  | release k =>
    obtain rfl : k = i := he
    simp only [step]
    split
    · simp [State.withTask, Function.update_of_ne hj]
    · rfl

theorem System.Linked.setWith (h : s.Linked) {e : Event ι} (he : e.DrivenBy i)
    (hp : p.Linked ((Leader.step cfg e s.lease).task i)) : (s.setWith cfg i p e).Linked := by
  intro j
  by_cases hj : j = i
  · subst hj
    simpa [System.setWith] using hp
  · simp only [System.setWith, task_of_drivenBy he hj, Function.update_of_ne hj]
    exact h j

theorem System.Linked.crash (h : s.Linked) : (s.setWith cfg i {} (.crash i)).Linked :=
  h.setWith (e := .crash i) rfl (by
    rw [show (Leader.step cfg (.crash i) s.lease).task i = .down from Function.update_self ..]
    exact linked_off)

theorem System.Linked.step (h : s.Linked) (e : ProcessEvent ι) : (s.step cfg e).Linked := by
  cases e with
  | tick extent => exact h
  | call j fault =>
    intro i
    by_cases hi : i = j
    · subst hi
      simpa [System.step, Leader.step] using (h i).advance cfg i fault s.lease.now s.lease.store
    · simpa [System.step, Leader.step, Function.update_of_ne hi] using h i
  | boot i =>
    simp only [System.step]
    split
    · rename_i hstage
      have hi := h i
      simp only [Process.Linked, hstage] at hi
      exact h.set ⟨hi.1, rfl, rfl⟩
    · exact h
  | connect i ok =>
    simp only [System.step]
    split
    · rename_i hstage
      have hi := h i
      simp only [Process.Linked, hstage] at hi
      split
      · refine h.setWith (e := .start i) rfl ?_
        refine ⟨?_, hi.2.1, by simp [HealthState.advance, hi.2.2, Phase.toRaw]⟩
        simp only [Leader.step, hi.1]
        split
        · exact .inl (by simp [State.withTask, Task.acquires])
        · exact .inr (.inr (.inr hi.1))
      · exact h.set (hi.1 ▸ linked_off)
    · exact h
  | acquired i =>
    simp only [System.step]
    split
    · rename_i hstage
      have hi := h i
      simp only [Process.Linked, hstage] at hi
      split
      · rename_i htask
        refine h.set ⟨?_, by simp [HealthState.advance, hi.2.2, Phase.toRaw]⟩
        simpa using htask
      · split
        · rename_i hdown
          exact h.set (hdown ▸ linked_off)
        · exact h
    · exact h
  | exits i controller =>
    simp only [System.step]
    split
    · rename_i hmem
      refine h.set ?_
      have hi := h i
      have hne : (s.process i).controllers ≠ [] := List.ne_nil_of_mem hmem
      unfold Process.Linked at hi ⊢
      cases hstage : (s.process i).stage with
      | off => simp only [hstage] at hi; exact absurd hi.2.1 hne
      | building => simp only [hstage] at hi; exact absurd hi.2.1 hne
      | acquiring => simp only [hstage] at hi; exact absurd hi.2.1 hne
      | releasing => simp only [hstage] at hi; exact absurd hi.2.1 hne
      | supervising => simpa only [hstage] using hi
      | stopping => simpa only [hstage] using hi
      | leaving => simpa only [hstage] using hi
    · exact h
  | select i branch =>
    simp only [System.step]
    split
    · rename_i hselect
      have hi := h i
      simp only [Process.Linked, hselect.1] at hi
      have hraw : ((s.process i).health.advance .stopping).raw = Phase.toRaw .stopping := by
        simp [HealthState.advance, hi.2, Phase.toRaw]
      cases branch with
      | leaseLost => exact h.set ⟨by simpa [Branch.enabled] using hselect.2, hraw⟩
      | healthServer => exact h.set ⟨hi.1, hraw⟩
      | controllerExit => exact h.set ⟨hi.1, hraw⟩
      | signal => exact h.set ⟨hi.1, hraw⟩
    · exact h
  | aborted i controller =>
    simp only [System.step]
    split
    · rename_i hstage
      refine h.set ?_
      have hi := h i
      rcases hstage with hstage | hstage
      · simpa only [Process.Linked, hstage] using hi
      · simpa only [Process.Linked, hstage] using hi
    · exact h
  | stopped i =>
    simp only [System.step]
    split
    · rename_i hstopped
      have hi := h i
      simp only [Process.Linked, hstopped.1] at hi
      refine h.setWith (e := .release i) rfl ⟨.inl ?_, hstopped.2, hi.2⟩
      have htask : ((s.lease.task i).leads || s.lease.task i = .ended) = true := by
        simpa using hi.1
      simp [Leader.step, htask, State.withTask, Task.releases]
    · exact h
  | released i =>
    simp only [System.step]
    split
    · rename_i hreleased
      exact h.set (hreleased.2 ▸ linked_off)
    · exact h
  | timedOut i =>
    simp only [System.step]
    split
    · exact h.crash
    · exact h
  | quit i =>
    simp only [System.step]
    split
    · exact h.crash
    · exact h
  | kill i => exact h.crash

end Systems

end Leader
