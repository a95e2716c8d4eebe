-- SUMMARY: When the finalized metadata version changes: after a roll of all pools and an accepted update, and never to nothing.
import KrabkaOperator.NodePool.Run
import KrabkaOperator.Version.Guards

/-!
# The finalized metadata version

Only the patch at the end of a pass over the `Kafka` writes the metadata version.
Whatever it writes follows from what the pass has read and done, and what the pass
has read of the metadata version is what is stored.
-/

namespace Version

open Kube Crd Operator Interleave

/-- The StatefulSet of a pool has rolled to the config of the pool, and has the version. -/
def RolledOut (statefulSets : List StatefulSet) (version : String) (p : KafkaNodePool) : Prop :=
  ∃ hash cluster, p.configHash? = some hash ∧ p.cluster? = some cluster ∧
    ∃ sts ∈ statefulSets, sts.name = cluster ++ "-" ++ p.name ∧
      Cluster.belongsTo sts cluster p.name = true ∧
      Cluster.rolledTo sts hash p.spec.replicas = true ∧
      sts.labels["app.kubernetes.io/version"]? = some version

theorem rolledOut_of_rolled {pools : List KafkaNodePool} {statefulSets : List StatefulSet}
    {version : String} (h : poolsRolledToVersion pools statefulSets version = true) :
    pools ≠ [] ∧ ∀ p ∈ pools, RolledOut statefulSets version p := by
  simp only [poolsRolledToVersion, Bool.and_eq_true, decide_eq_true_eq, List.all_eq_true] at h
  obtain ⟨⟨hne, hconv⟩, hversion⟩ := h
  refine ⟨hne, fun p hp => ?_⟩
  simp only [Cluster.poolsConverged, Bool.and_eq_true, List.all_eq_true] at hconv
  have hpool := hconv.1.2 p hp
  unfold Cluster.poolConverged at hpool
  split at hpool
  · rename_i hash cluster hhash hcluster
    rw [Bool.and_eq_true] at hpool
    obtain ⟨-, hfound⟩ := hpool
    split at hfound
    · rename_i sts hsts
      rw [Bool.and_eq_true] at hfound
      have hmem := List.mem_of_find?_eq_some hsts
      have hname := List.find?_some hsts
      exact ⟨hash, cluster, hhash, hcluster, sts, hmem, by simpa using hname, hfound.1, hfound.2,
        hversion sts hmem⟩
    · cases hfound
  · cases hpool

/-! ## What a request does to the metadata version -/

section Answer

variable {c : Choice} {w : World}

@[simp] theorem setCondition_metadataVersion {obj : Object} {cond : Condition} :
    (obj.setCondition cond).metadataVersion = obj.metadataVersion := by
  cases h : obj.status <;> simp [Object.setCondition, Object.metadataVersion, h]

@[simp] theorem mergeStatus_metadataVersion {obj : Object} {patch : KafkaStatus} :
    (obj.mergeStatus patch).metadataVersion = patch.metadataVersion.or obj.metadataVersion := by
  cases h : obj.status <;> simp [Object.mergeStatus, Object.metadataVersion, h]

/-- Only a patch of the status changes the metadata version. -/
theorem answer_metadataVersion {r : Req} (h : ∀ status, r ≠ .patchStatus status) :
    (answer r c w).2.kafka.metadataVersion = w.kafka.metadataVersion := by
  cases r with
  | patchStatus status => exact absurd rfl (h status)
  | patchCondition cond =>
    rcases answerWrite_world c w { w with kafka := w.kafka.setCondition cond } with heq | heq
    · exact congrArg (fun w : World => w.kafka.metadataVersion) heq
    · exact (congrArg (fun w : World => w.kafka.metadataVersion) heq).trans
        setCondition_metadataVersion
  | object => rfl
  | pool r => rfl
  | listPools => exact congrArg (fun w : World => w.kafka.metadataVersion) (answerRead_world c w _)
  | listStatefulSets =>
    exact congrArg (fun w : World => w.kafka.metadataVersion) (answerRead_world c w _)
  | adminClient => exact congrArg (fun w : World => w.kafka.metadataVersion) (answerRead_world c w ())
  | updateMetadataVersion level kind =>
    exact congrArg (fun w : World => w.kafka.metadataVersion) (answerRead_world c w ())
  | rest => exact congrArg (fun w : World => w.kafka.metadataVersion) (answerRead_world c w ())

theorem patchStatus_metadataVersion (status : KafkaStatus) :
    (answer (.patchStatus status) c w).2.kafka.metadataVersion = w.kafka.metadataVersion ∨
    (answer (.patchStatus status) c w).2.kafka.metadataVersion =
      status.metadataVersion.or w.kafka.metadataVersion := by
  rcases answerWrite_world c w { w with kafka := w.kafka.mergeStatus status } with heq | heq
  · exact .inl (congrArg (fun w : World => w.kafka.metadataVersion) heq)
  · exact .inr ((congrArg (fun w : World => w.kafka.metadataVersion) heq).trans
      mergeStatus_metadataVersion)

end Answer

/-! ## Runs -/

section Runs

variable {printable : Char → Bool} {table : MetadataTable} {s : State}

/-- A pass over the `Kafka` has read the metadata version that is stored until it patches. -/
def ReadsStored (s : State) : Prop :=
  Unpatched (s.party .kafka).2 → ∀ obj, ⟨.object, obj⟩ ∈ (s.party .kafka).2 →
    obj.metadataVersion = s.world.kafka.metadataVersion

/-- Both controllers follow their guards, and the finalized metadata version is known to the
    pass that may change it. -/
structure Sound (table : MetadataTable) (s : State) : Prop where
  behaves : ∀ i, Behaves (Guard table i) (s.party i).1 (s.party i).2
  read : ReadsStored s

theorem sound_init (w : World) : Sound table (State.init w) :=
  ⟨fun _ => trivial, fun _ _ h => nomatch h⟩

/-- The passes that are started follow their guards. -/
theorem started_behaves {e : Event} (i : Party) (p : Op Unit)
    (h : e.move printable table = .start i p) : Behaves (Guard table i) p [] := by
  cases e <;> cases h
  · exact reconcileKafka_behaves _
  · exact reconcilePool_behaves table _

/-- The party that makes a request is guarded. -/
theorem Sound.guard (h : Sound table s) {i : Party} {r : Req} {k : Resp r → Op Unit}
    (hcall : (s.party i).1 = .call r k) : Guard table i (s.party i).2 r := by
  have hb := h.behaves i
  rw [hcall] at hb
  exact hb.1

/-- A request of a pool leaves the `Kafka`. -/
theorem pool_answer_kafka {name : String} {log : Dialogue} {r : Req} {c : Choice} {w : World}
    (h : Guard table (.pool name) log r) : (answer r c w).2.kafka = w.kafka := by
  cases r with
  | pool r => rfl
  | _ => cases h

theorem readsStored_answered {i : Party} {r : Req} {k : Resp r → Op Unit} {c : Choice}
    (h : ReadsStored s) (hguard : Guard table i (s.party i).2 r) :
    ReadsStored (Interleave.answered answer i c s r k) := by
  intro hunpatched obj hobj
  cases i with
  | pool name =>
    have hkafka : (Interleave.answered answer (.pool name) c s r k).world.kafka = s.world.kafka :=
      pool_answer_kafka hguard
    rw [hkafka]
    rw [answered_party_of_ne (by nofun)] at hunpatched hobj
    exact h hunpatched obj hobj
  | kafka =>
    rw [answered_party_self] at hunpatched hobj
    have hr : ∀ status, r ≠ .patchStatus status := fun status =>
      hunpatched ⟨r, _⟩ List.mem_concat_self status
    rw [answered_world, answer_metadataVersion hr]
    rcases List.mem_append.mp hobj with hobj | hobj
    · exact h hguard.1 obj hobj
    · cases List.mem_singleton.mp hobj
      rfl

theorem Sound.step (h : Sound table s) (e : Event) :
    Sound table (Version.step printable table e s) := by
  refine ⟨Behaves.step_party answer h.behaves fun i p hp => started_behaves i p hp, ?_⟩
  cases e with
  | startKafka pass =>
    intro _ obj hobj
    simp [Version.step, Event.move, Interleave.step] at hobj
  | startPool pass => simpa [ReadsStored, Version.step, Event.move, Interleave.step] using h.read
  | edit spec => exact h.read
  | change f => exact h.read
  | call i c =>
    change ReadsStored (Interleave.step answer (.request i c) s)
    rcases step_request answer i c s with ⟨r, k, hcall, hstep⟩ | ⟨-, hstep⟩
    · rw [hstep]
      exact readsStored_answered h.read (h.guard hcall)
    · rw [hstep]
      exact h.read

theorem sound_final (w : World) (es : List Event) :
    Sound table (History.final (exec printable table) es (State.init w)) := by
  have hall : ∀ t ∈ History.states (exec printable table) es (State.init w), Sound table t :=
    History.invariant (P := fun _ => True) (sound_init w) (fun _ _ => trivial)
      fun e s _ hs t ht => by
        rw [List.mem_singleton.mp ht]
        exact hs.step e
  exact hall _ History.final_mem_states

/-! ## The change of the metadata version -/

/-- A step that changes the metadata version is the patch at the end of a pass. -/
theorem changes_by_patch (h : Sound table s) {e : Event}
    (hne : (step printable table e s).world.kafka.metadataVersion ≠ s.world.kafka.metadataVersion) :
    ∃ status, (step printable table e s).world.kafka.metadataVersion =
        status.metadataVersion.or s.world.kafka.metadataVersion ∧
      Guard table .kafka (s.party .kafka).2 (.patchStatus status) := by
  cases e with
  | startKafka pass => exact absurd rfl hne
  | startPool pass => exact absurd rfl hne
  | edit spec => exact absurd rfl hne
  | change f => exact absurd rfl hne
  | call i c =>
    change (Interleave.step answer (.request i c) s).world.kafka.metadataVersion ≠ _ at hne
    change ∃ status, (Interleave.step answer (.request i c) s).world.kafka.metadataVersion = _ ∧ _
    rcases step_request answer i c s with ⟨r, k, hcall, hstep⟩ | ⟨-, hstep⟩
    · rw [hstep] at hne ⊢
      have hguard := h.guard hcall
      cases i with
      | pool name =>
        have hkafka : (Interleave.answered answer (.pool name) c s r k).world.kafka = s.world.kafka :=
          pool_answer_kafka hguard
        rw [hkafka] at hne
        exact absurd rfl hne
      | kafka =>
        by_cases hr : ∃ status, r = .patchStatus status
        · obtain ⟨status, rfl⟩ := hr
          rcases patchStatus_metadataVersion (c := c) (w := s.world) status with heq | heq
          · exact absurd heq hne
          · exact ⟨status, heq, hguard⟩
        · exact absurd (answer_metadataVersion fun status heq => hr ⟨status, heq⟩) hne
    · rw [hstep] at hne
      exact absurd rfl hne

/-- In one pass every pool was rolled out to the version of the spec, and the update to the
    level of the metadata version was accepted. -/
def FinalizedIn (table : MetadataTable) (log : Dialogue) (metadata : String) : Prop :=
  ∃ obj pools statefulSets level upgradeType,
    ⟨.object, obj⟩ ∈ log ∧ ⟨.listPools, .ok pools⟩ ∈ log ∧
    ⟨.listStatefulSets, .ok statefulSets⟩ ∈ log ∧
    (pools ≠ [] ∧ ∀ p ∈ pools, RolledOut statefulSets obj.kafka.spec.kafkaVersion p) ∧
    table.fromVersionString metadata = some level ∧
    ⟨.updateMetadataVersion level upgradeType, .ok ()⟩ ∈ log

end Runs

namespace Sample

def table : MetadataTable where
  fromVersionString v := [("3.6", 14), ("3.7", 19), ("3.8", 20)].lookup v
  metadataVersionMin := 7
  onlineDowngradeMinLevel := 19

def printable (_ : Char) : Bool := true

def spec (version : String) : KafkaSpec := { kafkaVersion := version }

def pool : KafkaNodePool := (NodePool.Sample.pool 1).withConfigHash "hash"

/-- A cluster with one pool and a finalized metadata version. -/
def world (version finalized : String) : World where
  kafka := {
    kafka := { Kafka.minimal "demo" with spec := spec version }
    status := some { metadataVersion := some finalized } }
  pools := { NodePool.Sample.start 1 with pools := [pool] }

def calls (i : Party) (n : Nat) : List Event := List.replicate n (.call i {})

/-- The StatefulSets have rolled. -/
def report : Event :=
  .change fun w => { w with statefulSets := w.statefulSets.map fun s => { s with
    status := some ⟨s.generation, 1, some 1, some 1, some "r1", some "r1", none, none⟩ } }

/-- The pool is rolled out, and a pass over the `Kafka` comes to the patch of the status. -/
def upgrade : List Event :=
  [.startPool { pool := pool }] ++ calls (.pool "pool") 20 ++ [report, .startKafka {}] ++
    calls .kafka 8

/-- The state before the patch. -/
def upgraded : State :=
  History.final (exec printable table) upgrade (State.init (world "3.8" "3.7"))

end Sample

end Version
