-- SUMMARY: A registry is reported as ready only by a pass that has applied its StatefulSet and read enough ready replicas.
import KrabkaOperator.Registry.Migration

/-!
# Ready

A status that says ready goes back to one request of one pass. This pass has applied the
StatefulSet of its object, and has read it with as many ready replicas as the object asks for.
The pods that the StatefulSet counts can be those of an earlier template.
-/

namespace Registry

open Kube Crd Interleave

/-! ## What a status says -/

def SchemaRegistryStatus.isReady (status : SchemaRegistryStatus) : Bool :=
  status.conditions.any fun c => c.type = "Ready" ∧ c.status = "True"

variable {cfg : Config} {obj : SchemaRegistry}

theorem isReady_statusOf {reason message : String} {counts : Option Int × Option Int}
    {url : Option String} :
    (statusOf obj reason message counts url).isReady = true ↔ reason = "Available" := by
  by_cases h : reason = "Available"
  · simp [SchemaRegistryStatus.isReady, statusOf, h]
  · simp [SchemaRegistryStatus.isReady, statusOf, h]

/-- A merge patch gives all conditions. -/
theorem isReady_merge (status : SchemaRegistryStatus) (stored : Option SchemaRegistryStatus) :
    (status.merge stored).isReady = status.isReady := rfl

theorem isReady_report_iff {tlsSecret : Option String} {live : Option LiveSet} :
    (report obj tlsSecret live).isReady = true ↔
      obj.spec.replicas ≤ (readyReplicas live).getD 0 := by
  unfold report
  dsimp only
  split
  · rename_i henough
    exact iff_of_true (isReady_statusOf.mpr rfl) henough
  · rename_i hfew
    exact iff_of_false (fun h => absurd (isReady_statusOf.mp h) (by decide)) hfew

/-! ## The answers -/

theorem status_write {w w' : World} (h : w'.status = w.status) (c : Operator.Choice) :
    (Operator.answerWrite c w w').2.status = w.status := by
  rcases Operator.answerWrite_world c w w' with heq | heq
  · rw [heq]
  · rw [heq, h]

/-- Only a patch changes the status. -/
theorem answer_status (r : Req) (c : Operator.Choice) (w : World) :
    (answer r c w).2.status = w.status ∨
      ∃ status, r = .patchStatus status ∧
        (answer r c w).2.status = some (status.merge w.status) := by
  cases r with
  | getKafka name => exact .inl (congrArg World.status (Operator.answerRead_world ..))
  | getSecret name => exact .inl (congrArg World.status (Operator.answerRead_world ..))
  | getDeployment => exact .inl (congrArg World.status (Operator.answerRead_world ..))
  | getStatefulSet => exact .inl (congrArg World.status (Operator.answerRead_world ..))
  | applyService name svc =>
    rw [answer]
    refine .inl (status_write ?_ c)
    rfl
  | applyCertificate cert =>
    rw [answer]
    split
    · refine .inl (status_write ?_ c)
      rfl
    · exact .inl rfl
  | applyStatefulSet set =>
    rw [answer]
    split
    · refine .inl (status_write ?_ c)
      rfl
    · exact .inl rfl
  | deleteDeployment =>
    rw [answer]
    split
    · exact .inl rfl
    · refine .inl (status_write ?_ c)
      rfl
  | patchStatus status =>
    rw [answer]
    rcases Operator.answerWrite_world c w { w with status := some (status.merge w.status) } with
      heq | heq
    · exact .inl (by rw [heq])
    · exact .inr ⟨status, rfl, by rw [heq]⟩

/-! ## Runs -/

/-- A pass that is about to report its registry as ready, and the status that it writes. -/
inductive Backs (cfg : Config) (s : State) (i : Nat) : SchemaRegistryStatus → Prop where
  | intro {tlsSecret : Option String} {live : Option LiveSet}
      (happlied : HasApplied cfg (s.obj i) tlsSecret (s.dialogue i))
      (hread : (s.dialogue i).getLast? = some ⟨.getStatefulSet, .ok live⟩)
      (henough : (s.obj i).spec.replicas ≤ (readyReplicas live).getD 0) :
    Backs cfg s i ((report (s.obj i) tlsSecret live).merge s.world.status)

/-- Users and other controllers leave the status to the operator. -/
def Event.KeepsStatus (e : Event) : Prop :=
  ∀ f, e = .change f → ∀ w, (f w).status = w.status

theorem keepsStatus_start (i : Nat) (obj : SchemaRegistry) : Event.KeepsStatus (.start i obj) :=
  fun _ h => nomatch h

theorem keepsStatus_call (i : Nat) (c : Operator.Choice) : Event.KeepsStatus (.call i c) :=
  fun _ h => nomatch h

/-- A call that makes the status say ready. -/
theorem backs_of_call {s : State} {i : Nat} {c : Operator.Choice} {status : SchemaRegistryStatus}
    (h : Guarded cfg s) (hnew : (step cfg (.call i c) s).world.status = some status)
    (hready : status.isReady = true) (hold : s.world.status ≠ some status) :
    Backs cfg s i status := by
  rcases step_call cfg s i c with ⟨r, k, -, hnext, hruns⟩ | ⟨-, hruns⟩
  · rw [State.world, hruns, answered_world] at hnew
    rcases answer_status r c s.runs.world with hsame | ⟨patch, rfl, hpatch⟩
    · exact absurd (hsame.symm.trans hnew) hold
    · have heq : patch.merge s.world.status = status := Option.some.inj (hpatch.symm.trans hnew)
      rw [← heq, isReady_merge] at hready
      rw [← heq]
      -- Of the patches only a report says ready.
      cases h.guard hnext with
      | quiet hdelete hstatus => exact absurd rfl (hstatus patch)
      | stopped hreason => exact absurd (isReady_statusOf.mp hready) hreason
      | report happlied hread => exact .intro happlied hread (isReady_report_iff.mp hready)
  · rw [State.world, hruns] at hnew
    exact absurd hnew hold

theorem Guarded.backs {s t : State} (h : Guarded cfg s) {events : List Event}
    (hkeeps : ∀ e ∈ events, e.KeepsStatus) (ht : t ∈ History.states (exec cfg) events s)
    {status : SchemaRegistryStatus} (hstatus : t.world.status = some status)
    (hready : status.isReady = true) :
    s.world.status = some status ∨ ∃ pre i c post, events = pre ++ .call i c :: post ∧
      Backs cfg (History.final (exec cfg) pre s) i status := by
  -- On the events: the status stands from the start, or one of the calls has written it.
  induction events generalizing s with
  | nil =>
    rw [List.mem_singleton.mp ht] at hstatus
    exact .inl hstatus
  | cons e es ih =>
    rcases List.mem_cons.mp ht with rfl | hmem
    · exact .inl hstatus
    · have hlater : t ∈ History.states (exec cfg) es (Registry.step cfg e s) := hmem
      rcases ih (h.step e) (fun e' he' => hkeeps e' (List.mem_cons_of_mem _ he')) hlater with
        hfirst | ⟨pre, i, c, post, rfl, hbacks⟩
      · by_cases hold : s.world.status = some status
        · exact .inl hold
        · cases e with
          | start i obj => exact absurd hfirst hold
          | change f =>
            have hsame := hkeeps _ List.mem_cons_self f rfl s.world
            exact absurd (hsame.symm.trans hfirst) hold
          | call i c => exact .inr ⟨[], i, c, es, rfl, backs_of_call h hfirst hready hold⟩
      · exact .inr ⟨e :: pre, i, c, post, rfl, hbacks⟩

/-- In every run of any number of passes beside each other, with faults and with changes that
    leave the status to the operator: a status that says ready was there from the start, or is
    the report of one pass after it has applied the StatefulSet of its object and read it back
    with enough ready replicas. -/
theorem ready_only_when_seen {s t : State} (hs : s.Fresh) {events : List Event}
    (hkeeps : ∀ e ∈ events, e.KeepsStatus) (ht : t ∈ History.states (exec cfg) events s)
    {status : SchemaRegistryStatus} (hstatus : t.world.status = some status)
    (hready : status.isReady = true) :
    s.world.status = some status ∨ ∃ pre i c post, events = pre ++ .call i c :: post ∧
      Backs cfg (History.final (exec cfg) pre s) i status :=
  (inv_of_fresh hs).behaves.backs hkeeps ht hstatus hready

namespace Sample

/-- The StatefulSet of an earlier release. -/
def earlierSet : StatefulSet :=
  { name := "demo-sr", ns := some "default", labels := metaLabels registry, ownerReferences := []
    serviceName := "demo-sr-headless", replicas := 2, podManagementPolicy := "Parallel"
    updateStrategy := "RollingUpdate", selector := { matchLabels := selectorLabels registry }
    template := renderTemplate Sample.lib registry "kafka:9092" "registry:0" (some "sr-cert") }

/-- Two pods of the earlier release are ready. -/
def outdated : State :=
  ⟨fun _ => registry, ⟨{ statefulSet := some ⟨earlierSet, some (2, some 2)⟩ },
    fun _ => (.ret .driftRequeue, []), []⟩⟩

def onePass : List Event :=
  [.start 0 registry, .call 0 {}, .call 0 {}, .call 0 {}, .call 0 {}, .call 0 {}, .call 0 {}]

def readyStatus : SchemaRegistryStatus where
  conditions := [⟨"KafkaReady", "True", "Available", "2 replica(s) ready"⟩,
    ⟨"Ready", "True", "Available", "2 replica(s) ready"⟩]
  observedGeneration := some 3
  replicas := some 2
  readyReplicas := some 2
  url := some "https://demo-sr.default.svc.cluster.local:8081"

end Sample

open Sample in
/-- The pass that changes the image counts the pods of the earlier release. -/
theorem ready_only_when_seen_outdated :
    (History.final (exec Sample.config) onePass outdated).world.status = some readyStatus ∧
    (∃ pre i c post, onePass = pre ++ .call i c :: post ∧
      Backs Sample.config (History.final (exec Sample.config) pre outdated) i readyStatus) ∧
    (History.final (exec Sample.config) onePass outdated).world.statefulSet.any
      (fun live => live.set.template.image = "registry:1" ∧ live.status = some (2, some 2)) =
        true := by
  have hstatus : (History.final (exec Sample.config) onePass outdated).world.status =
      some readyStatus := rfl
  have hkeeps : ∀ e ∈ onePass, e.KeepsStatus := by
    simp only [onePass, List.forall_mem_cons]
    exact ⟨keepsStatus_start _ _, keepsStatus_call _ _, keepsStatus_call _ _,
      keepsStatus_call _ _, keepsStatus_call _ _, keepsStatus_call _ _, keepsStatus_call _ _,
      fun _ he => absurd he List.not_mem_nil⟩
  have hfresh : outdated.Fresh := fun i => ⟨rfl, rfl⟩
  refine ⟨hstatus, ?_, by decide⟩
  have hseen := ready_only_when_seen hfresh hkeeps History.final_mem_states hstatus (by decide)
  exact hseen.resolve_left fun h => Option.some_ne_none _ h.symm

end Registry
