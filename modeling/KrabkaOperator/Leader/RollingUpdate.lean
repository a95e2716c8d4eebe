-- SUMMARY: A rolling update of the operator never waits for the lease: it keeps its ready replicas, and from every state it can be completed without a call on the lease.
import KrabkaOperator.Leader.Process
import Mathlib.Data.List.Nodup

/-!
# The rolling update of the operator

The Deployment rolls with `maxUnavailable: 0` and `maxSurge: 1`: an old pod stops only when
enough other pods are ready, while it may hold the lease until it stops. A new pod is ready
before it has the lease, so the one never waits for the other.
-/

namespace Leader

/-- The pods of the Deployment, numbered as they are created. -/
structure Update where
  system : System Nat
  /-- The pods that are not being deleted. -/
  live : List Nat
  /-- The pods of the new template. -/
  new : Nat → Bool
  next : Nat

def maxSurge : Nat := 1

def maxUnavailable : Nat := 0

/-- Whether the readiness probe of a pod succeeds. -/
def Update.ready (u : Update) (i : Nat) : Bool := (u.system.process i).health.readyz.1 = 200

def Update.newLive (u : Update) : List Nat := u.live.filter u.new

def Update.oldLive (u : Update) : List Nat := u.live.filter fun i => !u.new i

/-- The number of ready pods among some. -/
def Update.readyOf (u : Update) (pods : List Nat) : Nat := (pods.filter u.ready).length

inductive UpdateEvent where
  /-- The Deployment creates a pod of the new template. -/
  | create
  /-- The Deployment deletes a pod of the old template. -/
  | remove (i : Nat)
  /-- A step of the process of a pod, or of the clock. -/
  | process (e : ProcessEvent Nat)

section Steps

variable (cfg : Config Nat) (replicas : Nat)

def Update.step (e : UpdateEvent) (u : Update) : Update :=
  match e with
  | .create =>
    if u.live.length < replicas + maxSurge ∧ u.newLive.length < replicas then
      { u with
        live := u.live ++ [u.next]
        new := Function.update u.new u.next true
        next := u.next + 1 }
    else u
  | .remove i =>
    if i ∈ u.oldLive ∧ replicas - maxUnavailable ≤ u.readyOf (u.live.erase i) then
      { u with live := u.live.erase i }
    else u
  | .process e => { u with system := u.system.step cfg e }

def Update.exec (e : UpdateEvent) (u : Update) : List Update := [u.step cfg replicas e]

theorem Update.finish_exec {e : UpdateEvent} {u : Update} :
    History.finish (Update.exec cfg replicas) e u = u.step cfg replicas e := rfl

end Steps

/-- The pod that a step is of. -/
def ProcessEvent.pod? {ι : Type} : ProcessEvent ι → Option ι
  | .tick _ => none
  | .call i _ | .boot i | .connect i _ | .acquired i | .exits i _ | .select i _ | .aborted i _
  | .stopped i | .released i | .timedOut i | .quit i | .kill i => some i

/-- Neither a call on the lease nor the passing of time. -/
def UpdateEvent.LeaseFree : UpdateEvent → Prop
  | .process (.call _ _) | .process (.tick _) => False
  | _ => True

/-- A step after which a process that was ready still is. -/
def ProcessEvent.Lasts {ι : Type} (e : ProcessEvent ι) (s : System ι) : Prop :=
  match e with
  | .tick _ | .call _ _ | .boot _ | .connect _ _ | .exits _ _ | .aborted _ _ | .stopped _
  | .released _ => True
  | .acquired i => s.lease.task i ≠ .down
  | .select _ _ | .timedOut _ | .quit _ | .kill _ => False

/-- No ready pod of the Deployment stops or fails by itself. -/
def UpdateEvent.Calm (e : UpdateEvent) (u : Update) : Prop :=
  match e with
  | .process e => ∀ i ∈ e.pod?, i ∈ u.live → u.ready i = true → e.Lasts u.system
  | _ => True

/-- What every state of an update meets. -/
structure Update.Ok (replicas : Nat) (u : Update) : Prop where
  linked : u.system.Linked
  nodup : u.live.Nodup
  live : ∀ i ∈ u.live, i < u.next
  surge : u.live.length ≤ replicas + maxSurge
  newLive : u.newLive.length ≤ replicas

/-- All pods are ready. -/
structure Update.Steady (replicas : Nat) (u : Update) : Prop where
  ok : u.Ok replicas
  length : u.live.length = replicas
  ready : ∀ i ∈ u.live, u.ready i = true

/-- All pods are of the new template, and ready. -/
structure Update.Done (replicas : Nat) (u : Update) : Prop extends u.Steady replicas where
  new : ∀ i ∈ u.live, u.new i = true

/-! ## Readiness of one process -/

section Processes

variable {ι : Type} [DecidableEq ι] {cfg : Config ι} {s : System ι} {i : ι}

theorem Process.Linked.ready_iff {p : Process} {task : Task} (h : p.Linked task) :
    p.health.readyz.1 = 200 ↔ p.stage = .acquiring ∨ p.stage = .supervising := by
  have hraw (phase : Phase) (hp : p.health.raw = phase.toRaw) :
      p.health.readyz.1 = 200 ↔ phase.isReady = true := by
    unfold HealthState.readyz HealthState.phase
    rw [hp, Phase.fromRaw_toRaw]
    cases phase.isReady with
    | true => simp
    | false => simp
  unfold Process.Linked at h
  cases hstage : p.stage with
  | off => simp only [hstage] at h; simpa [Phase.isReady] using hraw .starting h.2.2
  | building => simp only [hstage] at h; simpa [Phase.isReady] using hraw .starting h.2.2
  | acquiring => simp only [hstage] at h; simpa [Phase.isReady] using hraw .standby h.2.2
  | supervising => simp only [hstage] at h; simpa [Phase.isReady] using hraw .leading h.2
  | stopping => simp only [hstage] at h; simpa [Phase.isReady] using hraw .stopping h.2
  | releasing => simp only [hstage] at h; simpa [Phase.isReady] using hraw .stopping h.2.2
  | leaving => simp only [hstage] at h; simpa [Phase.isReady] using hraw .stopping h.2

/-- A step is one of its own pod. -/
theorem System.step_process {e : ProcessEvent ι} {j : ι} (hj : ∀ i ∈ e.pod?, j ≠ i) :
    (s.step cfg e).process j = s.process j := by
  have hset (i : ι) (p : Process) (hi : j ≠ i) : (s.set i p).process j = s.process j :=
    Function.update_of_ne hi ..
  have hsetWith (i : ι) (p : Process) (e : Event ι) (hi : j ≠ i) :
      (s.setWith cfg i p e).process j = s.process j := Function.update_of_ne hi ..
  cases e with
  | tick extent => rfl
  | call i fault => rfl
  | boot i => simp only [System.step]; split <;> first | exact hset i _ (hj i rfl) | rfl
  | connect i ok =>
    simp only [System.step]
    split
    · split
      · exact hsetWith i _ _ (hj i rfl)
      · exact hset i _ (hj i rfl)
    · rfl
  | acquired i =>
    simp only [System.step]
    split
    · split
      · exact hset i _ (hj i rfl)
      · split
        · exact hset i _ (hj i rfl)
        · rfl
    · rfl
  | exits i controller => simp only [System.step]; split <;> first | exact hset i _ (hj i rfl) | rfl
  | select i branch => simp only [System.step]; split <;> first | exact hset i _ (hj i rfl) | rfl
  | aborted i controller =>
    simp only [System.step]; split <;> first | exact hset i _ (hj i rfl) | rfl
  | stopped i => simp only [System.step]; split <;> first | exact hsetWith i _ _ (hj i rfl) | rfl
  | released i => simp only [System.step]; split <;> first | exact hset i _ (hj i rfl) | rfl
  | timedOut i => simp only [System.step]; split <;> first | exact hsetWith i _ _ (hj i rfl) | rfl
  | quit i => simp only [System.step]; split <;> first | exact hsetWith i _ _ (hj i rfl) | rfl
  | kill i => exact hsetWith i _ _ (hj i rfl)

end Processes

section Ready

variable {cfg : Config Nat} {replicas : Nat} {u : Update} {i : Nat}

theorem Update.ready_iff (h : u.system.Linked) :
    u.ready i = true ↔
      (u.system.process i).stage = .acquiring ∨ (u.system.process i).stage = .supervising := by
  simpa [Update.ready] using (h i).ready_iff

/-- Steps that a rolling update can take whatever the lease is. -/
def UpdateEvent.Free (e : UpdateEvent) (u : Update) : Prop := e.LeaseFree ∧ e.Calm u

abbrev Update.Leads (cfg : Config Nat) (replicas : Nat) : Update → Update → Prop :=
  History.Reach (Update.exec cfg replicas) UpdateEvent.Free

/-- A pod becomes ready by steps of its own. -/
def Update.Readies (cfg : Config Nat) (replicas i : Nat) (u : Update) : Prop :=
  ∃ s : System Nat, u.Leads cfg replicas { u with system := s } ∧ s.Linked ∧
    (s.process i).health.readyz.1 = 200 ∧ ∀ j ≠ i, s.process j = u.system.process j

theorem Update.Readies.prepend {e : ProcessEvent Nat} (hpod : e.pod? = some i)
    (hfree : (UpdateEvent.process e).LeaseFree) (hready : ¬u.ready i = true)
    (h : Update.Readies cfg replicas i { u with system := u.system.step cfg e }) :
    u.Readies cfg replicas i := by
  obtain ⟨s, hleads, hlinked, hi, hothers⟩ := h
  refine ⟨s, .head ⟨hfree, ?_⟩ hleads, hlinked, hi, fun j hj => ?_⟩
  · intro j hj _ hjready
    obtain rfl : i = j := by simpa [hpod] using hj
    exact absurd hjready hready
  · rw [hothers j hj]
    exact System.step_process fun k hk => by
      obtain rfl : i = k := by simpa [hpod] using hk
      exact hj

theorem Update.readies_of_ready (h : u.system.Linked) (hready : u.ready i = true) :
    u.Readies cfg replicas i :=
  ⟨u.system, .refl u, h, by simpa [Update.ready] using hready, fun _ _ => rfl⟩

section Stages

variable (h : u.system.Linked)
include h

theorem Update.readies_of_building (hstage : (u.system.process i).stage = .building) :
    u.Readies cfg replicas i := by
  refine .prepend (e := .connect i true) rfl trivial ?_ (readies_of_ready (h.step _) ?_)
  · simp [ready_iff h, hstage]
  · refine (ready_iff (h.step _)).mpr (.inl ?_)
    simp [System.step, hstage, System.setWith]

theorem Update.readies_of_off (hstage : (u.system.process i).stage = .off) :
    u.Readies cfg replicas i := by
  refine .prepend (e := .boot i) rfl trivial ?_ (readies_of_building (h.step _) ?_)
  · simp [ready_iff h, hstage]
  · simp [System.step, hstage, System.set]

theorem Update.readies_of_releasing (hstage : (u.system.process i).stage = .releasing) :
    u.Readies cfg replicas i := by
  refine .prepend (e := .timedOut i) rfl trivial ?_ (readies_of_off (h.step _) ?_)
  · simp [ready_iff h, hstage]
  · simp [System.step, hstage, System.setWith]

theorem Update.readies_of_leaving (hstage : (u.system.process i).stage = .leaving) :
    u.Readies cfg replicas i := by
  refine .prepend (e := .quit i) rfl trivial ?_ (readies_of_off (h.step _) ?_)
  · simp [ready_iff h, hstage]
  · simp [System.step, hstage, System.setWith]

/-- The controllers stop one after the other. -/
theorem Update.readies_of_stopping (hstage : (u.system.process i).stage = .stopping) :
    u.Readies cfg replicas i := by
  have hready : ¬u.ready i = true := by simp [ready_iff h, hstage]
  induction hcs : (u.system.process i).controllers generalizing u with
  | nil =>
    refine .prepend (e := .stopped i) rfl trivial hready (readies_of_releasing (h.step _) ?_)
    simp [System.step, hstage, hcs, System.setWith]
  | cons c cs ih =>
    have hstep : ((u.system.step cfg (.aborted i c)).process i).stage = .stopping := by
      simp [System.step, hstage, System.set]
    refine .prepend (e := .aborted i c) rfl trivial hready (ih (h.step _) hstep ?_ ?_)
    · intro hnext
      rcases (ready_iff (h.step _)).mp hnext with hnext | hnext
      · exact absurd (hstep.symm.trans hnext) (by decide)
      · exact absurd (hstep.symm.trans hnext) (by decide)
    · simp [System.step, hstage, System.set, hcs]

theorem Update.readies : u.Readies cfg replicas i := by
  cases hstage : (u.system.process i).stage with
  | off => exact readies_of_off h hstage
  | building => exact readies_of_building h hstage
  | acquiring => exact readies_of_ready h ((ready_iff h).mpr (.inl hstage))
  | supervising => exact readies_of_ready h ((ready_iff h).mpr (.inr hstage))
  | stopping => exact readies_of_stopping h hstage
  | releasing => exact readies_of_releasing h hstage
  | leaving => exact readies_of_leaving h hstage

/-- All pods become ready, one after the other. -/
theorem Update.all_ready (pods : List Nat) :
    ∃ s : System Nat, u.Leads cfg replicas { u with system := s } ∧ s.Linked ∧
      (∀ i ∈ pods, (s.process i).health.readyz.1 = 200) := by
  induction pods with
  | nil => exact ⟨u.system, .refl u, h, nofun⟩
  | cons i pods ih =>
    obtain ⟨s, hleads, hlinked, hpods⟩ := ih
    have hreadies : ({ u with system := s } : Update).Readies cfg replicas i := readies hlinked
    obtain ⟨t, hleads', hlinked', hi, hothers⟩ := hreadies
    refine ⟨t, hleads.trans hleads', hlinked', ?_⟩
    refine List.forall_mem_cons.mpr ⟨hi, fun j hj => ?_⟩
    by_cases hji : j = i
    · rwa [hji]
    · rw [hothers j hji]
      exact hpods j hj

end Stages

end Ready

/-! ## Steps of the Deployment -/

section Deployment

variable {cfg : Config Nat} {replicas : Nat} {u : Update}

theorem Update.length_live : u.live.length = u.newLive.length + u.oldLive.length := by
  simp only [Update.newLive, Update.oldLive, ← List.countP_eq_length_filter]
  simpa using List.length_eq_countP_add_countP u.new (l := u.live)

/-- The update after a new pod is created. -/
def Update.created (u : Update) : Update :=
  { u with
    live := u.live ++ [u.next], new := Function.update u.new u.next true, next := u.next + 1 }

theorem Update.new_created (h : ∀ i ∈ u.live, i < u.next) :
    ∀ i ∈ u.live, u.created.new i = u.new i :=
  fun i hi => Function.update_of_ne (Nat.ne_of_lt (h i hi)) ..

theorem Update.newLive_created (h : ∀ i ∈ u.live, i < u.next) :
    u.created.newLive = u.newLive ++ [u.next] := by
  have hlive : u.live.filter u.created.new = u.newLive := List.filter_congr (new_created h)
  have hnext : [u.next].filter u.created.new = [u.next] := by simp [created]
  calc
    u.created.newLive = u.live.filter u.created.new ++ [u.next].filter u.created.new :=
      List.filter_append ..
    _ = u.newLive ++ [u.next] := by rw [hlive, hnext]

theorem Update.oldLive_created (h : ∀ i ∈ u.live, i < u.next) :
    u.created.oldLive = u.oldLive := by
  have hlive : (u.live.filter fun i => !u.created.new i) = u.oldLive :=
    List.filter_congr fun i hi => by rw [new_created h i hi]
  have hnext : ([u.next].filter fun i => !u.created.new i) = [] := by simp [created]
  calc
    u.created.oldLive = (u.live.filter fun i => !u.created.new i) ++
        [u.next].filter fun i => !u.created.new i := List.filter_append ..
    _ = u.oldLive := by rw [hlive, hnext, List.append_nil]

theorem Update.Ok.create (h : u.Ok replicas) (hlive : u.live.length < replicas + maxSurge)
    (hnew : u.newLive.length < replicas) : u.created.Ok replicas where
  linked := h.linked
  nodup := List.nodup_append.mpr ⟨h.nodup, List.nodup_singleton _, fun i hi j hj => by
    rw [List.mem_singleton.mp hj]
    exact Nat.ne_of_lt (h.live i hi)⟩
  live := fun i hi => by
    rcases List.mem_append.mp hi with hi | hi
    · exact Nat.lt_succ_of_lt (h.live i hi)
    · rw [List.mem_singleton.mp hi]
      exact Nat.lt_succ_self _
  surge := by simpa [created] using Nat.succ_le_of_lt hlive
  newLive := by simpa [newLive_created h.live] using Nat.succ_le_of_lt hnew

theorem Update.Ok.remove (h : u.Ok replicas) (i : Nat) :
    ({ u with live := u.live.erase i } : Update).Ok replicas where
  linked := h.linked
  nodup := h.nodup.erase i
  live := fun j hj => h.live j (List.mem_of_mem_erase hj)
  surge := (List.length_erase_le ..).trans h.surge
  newLive := (List.Sublist.length_le ((List.erase_sublist ..).filter _)).trans h.newLive

theorem Update.Ok.step (h : u.Ok replicas) (e : UpdateEvent) :
    (u.step cfg replicas e).Ok replicas := by
  cases e with
  | create =>
    simp only [Update.step]
    split
    · rename_i hcreate
      exact h.create hcreate.1 hcreate.2
    · exact h
  | remove i =>
    simp only [Update.step]
    split
    · exact h.remove i
    · exact h
  | process e => exact ⟨h.linked.step e, h.nodup, h.live, h.surge, h.newLive⟩

/-! ## Readiness is kept -/

/-- A process that waits for the lease, or leads. -/
def Stage.Serves (stage : Stage) : Prop := stage = .acquiring ∨ stage = .supervising

theorem System.step_serves {s : System Nat} {e : ProcessEvent Nat} {i : Nat}
    (hpod : e.pod? = some i) (hlasts : e.Lasts s) (h : (s.process i).stage.Serves) :
    ((s.step cfg e).process i).stage.Serves := by
  unfold Stage.Serves at h ⊢
  cases e with
  | tick extent => cases hpod
  | call j fault => exact h
  | boot j =>
    cases hpod
    rcases h with h | h
    · simp [System.step, h]
    · simp [System.step, h]
  | connect j ok =>
    cases hpod
    rcases h with h | h
    · simp [System.step, h]
    · simp [System.step, h]
  | acquired j =>
    cases hpod
    rcases h with h | h
    · simp only [System.step, h, if_true]
      split
      · simp [System.set]
      · rw [if_neg hlasts]
        exact .inl h
    · simp [System.step, h]
  | exits j c =>
    cases hpod
    simp only [System.step]
    split
    · simpa [System.set] using h
    · exact h
  | aborted j c =>
    cases hpod
    rcases h with h | h
    · simp [System.step, h]
    · simp [System.step, h]
  | stopped j =>
    cases hpod
    rcases h with h | h
    · simp [System.step, h]
    · simp [System.step, h]
  | released j =>
    cases hpod
    rcases h with h | h
    · simp [System.step, h]
    · simp [System.step, h]
  | select j branch => exact hlasts.elim
  | timedOut j => exact hlasts.elim
  | quit j => exact hlasts.elim
  | kill j => exact hlasts.elim

theorem Update.ready_step {e : ProcessEvent Nat} (h : u.system.Linked) {i : Nat}
    (hi : i ∈ u.live) (hready : u.ready i = true) (hcalm : (UpdateEvent.process e).Calm u) :
    (u.step cfg replicas (.process e)).ready i = true := by
  by_cases hpod : e.pod? = some i
  · exact (ready_iff (h.step e)).mpr
      (System.step_serves hpod (hcalm i hpod hi hready) ((ready_iff h).mp hready))
  · have : (u.system.step cfg e).process i = u.system.process i :=
      System.step_process fun j hj hij => hpod (hij ▸ hj)
    simpa [Update.ready, Update.step, this] using hready

/-- The number of ready pods never falls below the number of replicas. -/
def Update.Available (replicas : Nat) (u : Update) : Prop := replicas ≤ u.readyOf u.live

theorem Update.Available.step (h : u.Ok replicas) (hu : u.Available replicas) {e : UpdateEvent}
    (hcalm : e.Calm u) : (u.step cfg replicas e).Available replicas := by
  cases e with
  | create =>
    simp only [Update.step]
    split
    · exact hu.trans (((List.sublist_append_left _ _).filter _).length_le)
    · exact hu
  | remove i =>
    simp only [Update.step]
    split
    · rename_i hremove
      exact hremove.2
    · exact hu
  | process e =>
    have hready (i : Nat) (hi : i ∈ u.live) (hready : u.ready i = true) :
        (u.step cfg replicas (.process e)).ready i = true := ready_step h.linked hi hready hcalm
    have hkeep := List.countP_mono_left hready
    simp only [List.countP_eq_length_filter] at hkeep
    exact hu.trans hkeep

theorem Update.Steady.available (h : u.Steady replicas) : u.Available replicas := by
  rw [Available, readyOf, List.filter_eq_self.mpr h.ready, h.length]

/-! ## The update can be completed -/

theorem Update.leads_create (hlive : u.live.length < replicas + maxSurge)
    (hnew : u.newLive.length < replicas) : u.Leads cfg replicas u.created := by
  refine .head (e := .create) ⟨trivial, trivial⟩ ?_
  rw [Update.finish_exec, Update.step, if_pos ⟨hlive, hnew⟩]
  exact .refl _

/-- A pod of the old template can go when there is one pod more than replicas, all of them
    ready. -/
theorem Update.leads_remove {i : Nat} (hi : i ∈ u.oldLive)
    (hready : ∀ i ∈ u.live, u.ready i = true) (hlength : replicas < u.live.length) :
    u.Leads cfg replicas { u with live := u.live.erase i } := by
  have hreadyOf : u.readyOf (u.live.erase i) = u.live.length - 1 := by
    rw [readyOf, List.filter_eq_self.mpr fun j hj => hready j (List.mem_of_mem_erase hj),
      List.length_erase_of_mem (List.mem_of_mem_filter hi)]
  refine .head (e := .remove i) ⟨trivial, trivial⟩ ?_
  rw [Update.finish_exec, Update.step, if_pos ⟨hi, by
    rw [hreadyOf]
    exact (Nat.sub_le ..).trans (Nat.le_sub_one_of_lt hlength)⟩]
  exact .refl _

theorem Update.oldLive_erase {i : Nat} (hi : i ∈ u.oldLive) :
    ({ u with live := u.live.erase i } : Update).oldLive.length < u.oldLive.length ∧
      ({ u with live := u.live.erase i } : Update).newLive.length = u.newLive.length := by
  obtain ⟨hmem, hold⟩ := List.mem_filter.mp hi
  have hperm := List.perm_cons_erase hmem
  have holds := (hperm.filter fun i => !u.new i).length_eq
  have hnews := (hperm.filter u.new).length_eq
  simp only [List.filter_cons, hold, if_true, List.length_cons] at holds
  simp only [List.filter_cons, show u.new i = false by simpa using hold] at hnews
  exact ⟨Nat.lt_of_succ_le holds.ge, hnews.symm⟩

/-- The pods that are still to come and to go. -/
def Update.remaining (replicas : Nat) (u : Update) : Nat :=
  2 * (replicas - u.newLive.length) + u.oldLive.length

theorem Update.completes (h : u.Ok replicas) :
    ∃ t, u.Leads cfg replicas t ∧ t.Done replicas := by
  -- Each round makes all pods ready, then creates a new pod or removes an old one.
  induction hn : u.remaining replicas using Nat.strongRecOn generalizing u with
  | ind n ih =>
    obtain ⟨s, hleads, hlinked, hready⟩ :
        ∃ s : System Nat, u.Leads cfg replicas { u with system := s } ∧ s.Linked ∧
          ∀ i ∈ u.live, (s.process i).health.readyz.1 = 200 := Update.all_ready h.linked u.live
    have hs : ({ u with system := s } : Update).Ok replicas :=
      ⟨hlinked, h.nodup, h.live, h.surge, h.newLive⟩
    have hready : ∀ i ∈ u.live, ({ u with system := s } : Update).ready i = true := by
      simpa [Update.ready] using hready
    have hlength := u.length_live
    have hnext (t : Update) (ht : t.Ok replicas) (hstep : Update.Leads cfg replicas
        { u with system := s } t) (hless : t.remaining replicas < u.remaining replicas) :
        ∃ t, u.Leads cfg replicas t ∧ t.Done replicas := by
      obtain ⟨t', hleads', hdone⟩ := ih _ (hn ▸ hless) ht rfl
      exact ⟨t', hleads.trans (hstep.trans hleads'), hdone⟩
    by_cases hcreate : u.live.length < replicas + maxSurge ∧ u.newLive.length < replicas
    · refine hnext _ (hs.create hcreate.1 hcreate.2) (leads_create hcreate.1 hcreate.2) ?_
      have hnew := congrArg List.length (newLive_created (u := { u with system := s }) h.live)
      have hold := congrArg List.length (oldLive_created (u := { u with system := s }) h.live)
      simp only [List.length_append, List.length_singleton] at hnew
      simp only [Update.remaining, hnew, hold]
      simp only [Update.newLive, Update.oldLive] at hcreate ⊢
      omega
    · rw [maxSurge] at hcreate
      have hnewLive := h.newLive
      cases hold : u.oldLive with
      | nil =>
        rw [hold, List.length_nil] at hlength
        refine ⟨_, hleads, ⟨hs, by dsimp only; omega, hready⟩, fun i hi => ?_⟩
        simpa using List.filter_eq_nil_iff.mp hold i hi
      | cons i rest =>
        rw [hold, List.length_cons] at hlength
        have hi : i ∈ u.oldLive := by simp [hold]
        refine hnext _ (hs.remove i) (leads_remove hi hready (by dsimp only; omega)) ?_
        obtain ⟨hfewer, hsame⟩ := oldLive_erase (u := { u with system := s }) hi
        simp only [Update.remaining, hsame]
        exact Nat.add_lt_add_left hfewer _

/-- In every run of a rolling update of any number of pods that were ready before it, with any
    calls on the lease at any time: no fewer pods than replicas are ready while no ready pod
    stops by itself, and from every state the update can be completed by steps none of which is
    a call on the lease. -/
theorem rolling_update_never_waits_for_the_lease (hu : u.Steady replicas)
    (events : List UpdateEvent) :
    (History.Along (Update.exec cfg replicas) UpdateEvent.Calm events u →
      ∀ t ∈ History.states (Update.exec cfg replicas) events u, t.Available replicas) ∧
    ∀ t ∈ History.states (Update.exec cfg replicas) events u,
      ∃ done, t.Leads cfg replicas done ∧ done.Done replicas := by
  constructor
  · intro hcalm t ht
    refine (History.invariant_states (I := fun t => t.Ok replicas ∧ t.Available replicas)
      ⟨hu.ok, hu.available⟩ hcalm (fun e a he ha b hb => ?_) t ht).2
    rw [List.mem_singleton.mp hb]
    exact ⟨ha.1.step e, ha.2.step ha.1 he⟩
  · intro t ht
    refine Update.completes (History.invariant (P := fun _ => True) (I := Update.Ok replicas)
      hu.ok (fun _ _ => trivial) (fun e a _ ha b hb => ?_) t ht)
    rw [List.mem_singleton.mp hb]
    exact ha.step e

end Deployment

/-! ## An update of one replica -/

namespace Sample

def podConfig : Config Nat where
  identity := fun i => "operator-" ++ toString i
  leaseDuration := 15 * nanosPerSecond
  retryInterval := 2 * nanosPerSecond

/-- One pod waits for the lease. -/
def waits : Update where
  system :=
    { lease :=
        { now := 0
          store := { lease := none, version := 0 }
          task := fun i => if i = 0 then .acquiring else .down }
      process := fun i =>
        if i = 0 then { stage := .acquiring, health := { raw := Phase.toRaw .standby } } else {} }
  live := [0]
  new := fun _ => false
  next := 1

theorem waits_linked : waits.system.Linked := by
  intro i
  cases i with
  | zero => exact ⟨.inl rfl, rfl, rfl⟩
  | succ i => exact linked_off

theorem waits_steady : waits.Steady 1 where
  ok := ⟨waits_linked, by decide, by decide, by decide, by decide⟩
  length := rfl
  ready := by decide

/-- The old pod takes the lease and leads, and a new one boots. -/
def surges : List UpdateEvent :=
  [.process (.call 0 .none), .process (.call 0 .none), .process (.call 0 .none),
    .process (.acquired 0), .create, .process (.boot 1)]

end Sample

theorem rolling_update_never_waits_for_the_lease_surge :
    ∃ done, (History.final (Update.exec Sample.podConfig 1) Sample.surges Sample.waits).Leads
      Sample.podConfig 1 done ∧ done.Done 1 :=
  (rolling_update_never_waits_for_the_lease Sample.waits_steady Sample.surges).2 _
    History.final_mem_states

end Leader
