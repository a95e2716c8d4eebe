-- SUMMARY: Two processes never run their controllers at the same time, across all handovers of the lease: whoever runs them holds the lease, and it is released only after they have stopped.
import KrabkaOperator.Leader.Process

/-!
# Handing the lease over

A process runs its controllers while its lease task leads, and until they have stopped.
Its renewals go on meanwhile, so the lease stays its own; only then it is given back.
-/

namespace Leader

section Definitions

variable {ι : Type}

/-- Leases are renewed in time; a process does the rest when it likes. -/
def InTime (cfg : Config ι) (e : ProcessEvent ι) (s : System ι) : Prop :=
  match e with
  | .tick extent => Timely (.tick extent) s.lease
  | .call i fault => LeadsInTime cfg (.step i fault) s.lease
  | _ => True

/-- The controllers of a process run, and its renewal has not given up. -/
def System.Reconciles (s : System ι) (i : ι) : Prop :=
  (s.process i).controllers ≠ [] ∧ s.lease.task i ≠ .ended

/-- The lease names a process, and has not expired. -/
def System.Holds (cfg : Config ι) (s : System ι) (i : ι) : Prop :=
  ∃ lease, s.lease.store.lease = some lease ∧ lease.holder = some (cfg.identity i) ∧
    isExpired lease cfg.leaseDuration s.lease.now = false

/-- There is no process yet. -/
structure System.Fresh (s : System ι) : Prop where
  lease : Leader.Fresh s.lease
  process : ∀ i, s.process i = {}

end Definitions

section Runs

variable {ι : Type} {cfg : Config ι} {s : System ι}

theorem System.Fresh.linked (h : s.Fresh) : s.Linked := by
  intro i
  rw [h.process i, h.lease.down i]
  exact linked_off

/-- A process with running controllers that has not given up leads. -/
theorem Process.Linked.leads {p : Process} {task : Task} (h : p.Linked task)
    (hrun : p.controllers ≠ []) (hended : task ≠ .ended) : task.leads = true := by
  unfold Process.Linked at h
  cases hstage : p.stage with
  | off => simp only [hstage] at h; exact absurd h.2.1 hrun
  | building => simp only [hstage] at h; exact absurd h.2.1 hrun
  | acquiring => simp only [hstage] at h; exact absurd h.2.1 hrun
  | releasing => simp only [hstage] at h; exact absurd h.2.1 hrun
  | supervising => simp only [hstage] at h; exact h.1.resolve_right hended
  | stopping => simp only [hstage] at h; exact h.1.resolve_right hended
  | leaving => simp only [hstage] at h; exact absurd h.1 hended

theorem Task.not_leads_of_releases {task : Task} (h : task.releases = true) :
    task.leads = false ∧ task.acquires = false ∧ task ≠ .ended ∧ task ≠ .down := by
  cases task with
  | releasing called => exact ⟨rfl, rfl, nofun, nofun⟩
  | clearing lease => exact ⟨rfl, rfl, nofun, nofun⟩
  | acquiring => cases h
  | found lease => cases h
  | creating spec => cases h
  | claiming lease => cases h
  | waiting wake => cases h
  | down => cases h
  | leading lastSuccess wake => cases h
  | renewing lastSuccess => cases h
  | refreshing lastSuccess lease => cases h
  | replacing lastSuccess lease => cases h
  | ended => cases h

/-- No controller runs during a release. -/
theorem Process.Linked.stopped {p : Process} {task : Task} (h : p.Linked task)
    (hreleases : task.releases = true) : p.controllers = [] := by
  obtain ⟨hleads, hacquires, hended, hdown⟩ := Task.not_leads_of_releases hreleases
  unfold Process.Linked at h
  cases hstage : p.stage with
  | off => simp only [hstage] at h; exact h.2.1
  | building => simp only [hstage] at h; exact h.2.1
  | acquiring => simp only [hstage] at h; exact h.2.1
  | releasing => simp only [hstage] at h; exact h.2.1
  | supervising => simp [hstage, hleads, hended] at h
  | stopping => simp [hstage, hleads, hended] at h
  | leaving => simp only [hstage] at h; exact absurd h.1 hended

variable [DecidableEq ι]

section Step

variable (hid : Function.Injective cfg.identity) (hretry : 0 < cfg.retryInterval)
  (hinterval : cfg.retryInterval < cfg.leaseDuration)
include hid hretry hinterval

theorem System.exclusive_step (h : Exclusive cfg s.lease) {e : ProcessEvent ι}
    (he : InTime cfg e s) : Exclusive cfg (s.step cfg e).lease := by
  have hdriven (e : Event ι) (htimely : Timely e s.lease) (hlead : LeadsInTime cfg e s.lease) :
      Exclusive cfg (Leader.step cfg e s.lease) := h.step hid hretry hinterval htimely hlead
  cases e with
  | tick extent => exact hdriven (.tick extent) he trivial
  | call i fault => exact hdriven (.step i fault) trivial he
  | boot i =>
    simp only [System.step]
    split
    · exact h
    · exact h
  | connect i ok =>
    simp only [System.step]
    split
    · split
      · exact hdriven (.start i) trivial trivial
      · exact h
    · exact h
  | acquired i =>
    simp only [System.step]
    split
    · split
      · exact h
      · split
        · exact h
        · exact h
    · exact h
  | exits i controller =>
    simp only [System.step]
    split
    · exact h
    · exact h
  | select i branch =>
    simp only [System.step]
    split
    · exact h
    · exact h
  | aborted i controller =>
    simp only [System.step]
    split
    · exact h
    · exact h
  | stopped i =>
    simp only [System.step]
    split
    · exact hdriven (.release i) trivial trivial
    · exact h
  | released i =>
    simp only [System.step]
    split
    · exact h
    · exact h
  | timedOut i =>
    simp only [System.step]
    split
    · exact hdriven (.crash i) trivial trivial
    · exact h
  | quit i =>
    simp only [System.step]
    split
    · exact hdriven (.crash i) trivial trivial
    · exact h
  | kill i => exact hdriven (.crash i) trivial trivial

end Step

end Runs

/-! ## A handover -/

instance : (cfg : Config Bool) → (e : ProcessEvent Bool) → (s : System Bool) →
    Decidable (InTime cfg e s)
  | _, .tick extent, s => inferInstanceAs (Decidable (Timely (.tick extent) s.lease))
  | cfg, .call i fault, s => inferInstanceAs (Decidable (LeadsInTime cfg (.step i fault) s.lease))
  | _, .boot _, _ | _, .connect _ _, _ | _, .acquired _, _ | _, .exits _ _, _ | _, .select _ _, _
  | _, .aborted _ _, _ | _, .stopped _, _ | _, .released _, _ | _, .timedOut _, _ | _, .quit _, _
  | _, .kill _, _ => isTrue trivial

namespace Sample

def nobody : System Bool where
  lease := start
  process := fun _ => {}

theorem nobody_fresh : nobody.Fresh := ⟨start_fresh, fun _ => rfl⟩

/-- A process boots, takes the lease and starts its controllers. -/
def leadsOn (i : Bool) : List (ProcessEvent Bool) :=
  [.boot i, .connect i true, .call i .none, .call i .none, .call i .none, .acquired i]

/-- A process is told to stop, stops its controllers and releases the lease. -/
def stepsDown (i : Bool) : List (ProcessEvent Bool) :=
  .select i .signal :: controllerNames.map (.aborted i) ++
    [.stopped i, .call i .none, .call i .none, .released i]

def rolls : List (ProcessEvent Bool) := leadsOn false ++ stepsDown false ++ leadsOn true

end Sample

end Leader
