-- SUMMARY: The order of the roll and the finalization: which binaries the pools apply, and where one is older than the finalized metadata version.
import KrabkaOperator.Version.Finalize

/-!
# Binaries and the finalized metadata version

Once a metadata version is finalized, the gate of the pools is clear for every
version of the spec. So the pools apply no older binary as long as the spec asks
for none, and no finalization overtakes a pass that has read the spec before.
-/

namespace Version

open Kube Crd Operator Interleave

/-- A binary whose `major.minor` is below that of a metadata version. -/
def below (kafkaVersion metadata : String) : Bool :=
  match KafkaVersion.parse kafkaVersion, KafkaVersion.parse metadata with
  | some binary, some level => binary.metadataKey < level.metadataKey
  | _, _ => false

/-- A binary is older than the finalized metadata version. -/
def Object.outdates (obj : Object) (kafkaVersion : String) : Bool :=
  obj.metadataVersion.any (below kafkaVersion)

/-- A StatefulSet that a pool applies has no binary older than the finalized metadata version. -/
def AppliesCurrent (e : Event) (s : State) : Prop :=
  match e with
  | .call (.pool name) _ => ∀ sts version,
      next (s.party (.pool name)).1 = some (.pool (.applyStatefulSet sts)) →
      sts.labels["app.kubernetes.io/version"]? = some version →
      s.world.kafka.outdates version = false
  | _ => True

/-- A pass over a pool has read a parent and makes further calls. -/
def HasRead (s : State) (parent : NodePool.Parent) : Prop :=
  ∃ name cluster, next (s.party (.pool name)).1 ≠ none ∧
    ⟨.pool (.getKafka cluster), .ok (some parent)⟩ ∈ (s.party (.pool name)).2

/-- The spec is never edited to a binary older than the finalized metadata version. And when
    another metadata version is about to be finalized, the binary of the spec is not older, nor
    is one that a running pass over a pool has read. -/
def KeepsOrder (e : Event) (s : State) : Prop :=
  match e with
  | .edit spec => s.world.kafka.outdates spec.kafkaVersion = false
  | .call .kafka _ => ∀ status metadata, next (s.party .kafka).1 = some (.patchStatus status) →
      status.metadataVersion = some metadata → s.world.kafka.metadataVersion ≠ some metadata →
      below s.world.kafka.kafka.spec.kafkaVersion metadata = false ∧
        ∀ parent, HasRead s parent → below parent.kafkaVersion metadata = false
  | _ => True

/-! ## What a request leaves -/

section Answer

variable {c : Choice} {w : World}

theorem answer_kafka (r : Req) : (answer r c w).2.kafka.kafka = w.kafka.kafka := by
  cases r with
  | patchStatus status =>
    rcases answerWrite_world c w { w with kafka := w.kafka.mergeStatus status } with heq | heq
    · exact congrArg (fun w : World => w.kafka.kafka) heq
    · exact (congrArg (fun w : World => w.kafka.kafka) heq).trans rfl
  | patchCondition cond =>
    rcases answerWrite_world c w { w with kafka := w.kafka.setCondition cond } with heq | heq
    · exact congrArg (fun w : World => w.kafka.kafka) heq
    · exact (congrArg (fun w : World => w.kafka.kafka) heq).trans rfl
  | object => rfl
  | pool r => rfl
  | listPools => exact congrArg (fun w : World => w.kafka.kafka) (answerRead_world c w _)
  | listStatefulSets => exact congrArg (fun w : World => w.kafka.kafka) (answerRead_world c w _)
  | adminClient => exact congrArg (fun w : World => w.kafka.kafka) (answerRead_world c w ())
  | updateMetadataVersion level kind =>
    exact congrArg (fun w : World => w.kafka.kafka) (answerRead_world c w ())
  | rest => exact congrArg (fun w : World => w.kafka.kafka) (answerRead_world c w ())

/-- A pool reads the version of the spec. -/
theorem getKafka_version {cluster : String} {parent : NodePool.Parent}
    (h : (answer (.pool (.getKafka cluster)) c w).1 = .ok (some parent)) :
    parent.kafkaVersion = w.kafka.kafka.spec.kafkaVersion := by
  obtain ⟨fault, clock⟩ := c
  cases fault with
  | none =>
    have hfound : [w.kafka.parent].find? (·.name = cluster) = some parent := Except.ok.inj h
    rw [List.mem_singleton.mp (List.mem_of_find?_eq_some hfound)]
    rfl
  | refused => cases h
  | lost => cases h

end Answer

/-! ## The order along a run -/

section Runs

variable {printable : Char → Bool} {table : MetadataTable} {s : State}

/-- Neither the spec nor what a running pass over a pool has read is older than the finalized
    metadata version. -/
structure Ordered (table : MetadataTable) (s : State) : Prop where
  sound : Sound table s
  spec : s.world.kafka.outdates s.world.kafka.kafka.spec.kafkaVersion = false
  read : ∀ parent, HasRead s parent → s.world.kafka.outdates parent.kafkaVersion = false

/-- The order depends on the finalized metadata version, the spec and the passes only. -/
theorem Ordered.congr {s' : State} (h : Ordered table s) (hsound : Sound table s')
    (hfin : s'.world.kafka.metadataVersion = s.world.kafka.metadataVersion)
    (hspec : s'.world.kafka.outdates s'.world.kafka.kafka.spec.kafkaVersion = false)
    (hread : ∀ parent, HasRead s' parent → HasRead s parent ∨
      parent.kafkaVersion = s.world.kafka.kafka.spec.kafkaVersion) : Ordered table s' := by
  refine ⟨hsound, hspec, fun parent hparent => ?_⟩
  have hsame : s'.world.kafka.outdates parent.kafkaVersion =
      s.world.kafka.outdates parent.kafkaVersion := by
    simp only [Object.outdates, hfin]
  rw [hsame]
  rcases hread parent hparent with hold | heq
  · exact h.read parent hold
  · rw [heq]
    exact h.spec

/-- What the passes over the pools have read after a call. -/
theorem hasRead_answered {i : Party} {r : Req} {k : Resp r → Op Unit} {c : Choice}
    {parent : NodePool.Parent} (hcall : (s.party i).1 = .call r k)
    (h : HasRead (Interleave.answered answer i c s r k) parent) :
    HasRead s parent ∨ parent.kafkaVersion = s.world.kafka.kafka.spec.kafkaVersion := by
  obtain ⟨name, cluster, hnext, hmem⟩ := h
  by_cases hi : Party.pool name = i
  · subst hi
    rw [answered_party_self] at hmem
    rcases List.mem_append.mp hmem with hmem | hmem
    · refine .inl ⟨name, cluster, ?_, hmem⟩
      rw [hcall]
      nofun
    · obtain ⟨rfl, hx⟩ := Sigma.mk.inj_iff.mp (List.mem_singleton.mp hmem)
      exact .inr (getKafka_version (eq_of_heq hx).symm)
  · rw [answered_party_of_ne hi] at hnext hmem
    exact .inl ⟨name, cluster, hnext, hmem⟩

/-- A finalization that the order allows. -/
theorem Ordered.patched (h : Ordered table s) {status : KafkaStatus}
    {k : Resp (.patchStatus status) → Op Unit} {c : Choice}
    (hcall : (s.party .kafka).1 = .call (.patchStatus status) k)
    (hsound : Sound table (Interleave.answered answer .kafka c s (.patchStatus status) k))
    (hkeep : KeepsOrder (.call .kafka c) s) :
    Ordered table (Interleave.answered answer .kafka c s (.patchStatus status) k) := by
  have hread (parent : NodePool.Parent)
      (hp : HasRead (Interleave.answered answer .kafka c s (.patchStatus status) k) parent) :
      HasRead s parent := by
    obtain ⟨name, cluster, hnext, hmem⟩ := hp
    have hne : Party.pool name ≠ Party.kafka := nofun
    rw [answered_party_of_ne hne] at hnext hmem
    exact ⟨name, cluster, hnext, hmem⟩
  have hkafka := answer_kafka (c := c) (w := s.world) (.patchStatus status)
  by_cases hsame : (answer (.patchStatus status) c s.world).2.kafka.metadataVersion =
      s.world.kafka.metadataVersion
  · refine h.congr hsound hsame ?_ fun parent hp => .inl (hread parent hp)
    rw [answered_world, hkafka, Object.outdates, hsame]
    exact h.spec
  · rcases patchStatus_metadataVersion (c := c) (w := s.world) status with heq | heq
    · exact absurd heq hsame
    cases hmeta : status.metadataVersion with
    | none =>
      rw [hmeta] at heq
      exact absurd heq hsame
    | some metadata =>
      rw [hmeta, Option.some_or] at heq
      have hne : s.world.kafka.metadataVersion ≠ some metadata := fun heq' =>
        hsame (heq.trans heq'.symm)
      have hnext : next (s.party .kafka).1 = some (.patchStatus status) := by
        rw [hcall]
        rfl
      obtain ⟨hspec, hreads⟩ := hkeep status metadata hnext hmeta hne
      refine ⟨hsound, ?_, fun parent hp => ?_⟩
      · rw [answered_world, hkafka, Object.outdates, heq]
        exact hspec
      · rw [answered_world, Object.outdates, heq]
        exact hreads parent (hread parent hp)

theorem Ordered.call (h : Ordered table s) {i : Party} {r : Req} {k : Resp r → Op Unit} {c : Choice}
    (hcall : (s.party i).1 = .call r k)
    (hsound : Sound table (Interleave.answered answer i c s r k))
    (hkeep : KeepsOrder (.call i c) s) : Ordered table (Interleave.answered answer i c s r k) := by
  by_cases hr : ∃ status, r = .patchStatus status
  · obtain ⟨status, rfl⟩ := hr
    cases i with
    | kafka => exact h.patched hcall hsound hkeep
    | pool name => exact (h.sound.guard hcall).elim
  · have hfin := answer_metadataVersion (c := c) (w := s.world) fun status heq => hr ⟨status, heq⟩
    refine h.congr hsound hfin ?_ fun parent hp => hasRead_answered hcall hp
    rw [answered_world, answer_kafka, Object.outdates, hfin]
    exact h.spec

theorem Ordered.step (h : Ordered table s) {e : Event} (hkeep : KeepsOrder e s) :
    Ordered table (Version.step printable table e s) := by
  have hsound : Sound table (Version.step printable table e s) := h.sound.step e
  cases e with
  | startKafka pass =>
    refine h.congr hsound rfl h.spec fun parent hp => .inl ?_
    simpa [HasRead, Version.step, Event.move, Interleave.step] using hp
  | startPool pass =>
    refine h.congr hsound rfl h.spec fun parent hp => .inl ?_
    obtain ⟨name, cluster, hnext, hmem⟩ := hp
    by_cases hname : name = pass.pool.name
    · subst hname
      simp [Version.step, Event.move, Interleave.step] at hmem
    · have hne : Party.pool name ≠ Party.pool pass.pool.name := fun heq =>
        hname (Party.pool.inj heq)
      simp only [Version.step, Event.move, Interleave.step, Function.update_of_ne hne] at hnext hmem
      exact ⟨name, cluster, hnext, hmem⟩
  | edit spec => exact h.congr hsound rfl hkeep fun parent hp => .inl hp
  | change f => exact h.congr hsound rfl h.spec fun parent hp => .inl hp
  | call i c =>
    change Sound table (Interleave.step answer (.request i c) s) at hsound
    change Ordered table (Interleave.step answer (.request i c) s)
    rcases step_request answer i c s with ⟨r, k, hcall, hstep⟩ | ⟨-, hstep⟩
    · rw [hstep] at hsound ⊢
      exact h.call hcall hsound hkeep
    · rw [hstep]
      exact h

theorem Ordered.appliesCurrent (h : Ordered table s) (e : Event) : AppliesCurrent e s := by
  cases e with
  | call i c =>
    cases i with
    | kafka => trivial
    | pool name =>
      intro sts version hnext hversion
      obtain ⟨k, hcall⟩ := call_of_next hnext
      obtain ⟨cluster, parent, hmem, -, hlabel⟩ := h.sound.guard hcall
      rw [hversion] at hlabel
      cases hlabel
      refine h.read parent ⟨name, cluster, ?_, hmem⟩
      rw [hnext]
      nofun
  | _ => trivial

/-- In every run whose steps keep the order, no pool applies a binary that is older than the
    finalized metadata version. -/
theorem binaries_current {w : World} {es : List Event}
    (hspec : w.kafka.outdates w.kafka.kafka.spec.kafkaVersion = false)
    (h : History.Along (exec printable table) KeepsOrder es (State.init w)) :
    History.Along (exec printable table) AppliesCurrent es (State.init w) := by
  refine h.of_invariant (I := Ordered table) ?_ fun e s he hs => ⟨hs.appliesCurrent e, ?_⟩
  · refine ⟨sound_init _, hspec, ?_⟩
    rintro parent ⟨name, cluster, -, hmem⟩
    cases hmem
  · rw [finish_exec]
    exact hs.step he

end Runs

namespace Sample

/-- The spec is raised, and a pool applies the newer binary. -/
def raise : List Event :=
  ([.edit (spec "3.8"), .startPool { pool := pool }] : List Event) ++ calls (.pool "pool") 20

/-- A new cluster. -/
def created : World where
  kafka := { kafka := { Kafka.minimal "demo" with spec := spec "3.8" } }
  pools := { NodePool.Sample.start 1 with pools := [pool] }

/-- The pool runs 3.8, which is finalized. Then the spec is lowered to 3.7, and a pass over the
    pool comes to the StatefulSet. -/
def lower : List Event :=
  ([.startKafka {}] : List Event) ++ calls .kafka 8 ++ ([.startPool { pool := pool }] : List Event) ++
    calls (.pool "pool") 20 ++ ([report, .startKafka {}] : List Event) ++ calls .kafka 8 ++
    ([.edit (spec "3.7"), .startPool { pool := pool }] : List Event) ++ calls (.pool "pool") 7

/-- The state before the apply. -/
def lowered : State := History.final (exec printable table) lower (State.init created)

/-- The version of the StatefulSet that the pass is about to apply. -/
def applying (s : State) : Option String :=
  match next (s.party (.pool "pool")).1 with
  | some (.pool (.applyStatefulSet sts)) => sts.labels["app.kubernetes.io/version"]?
  | _ => none

theorem next_of_applying {s : State} {version : String} (h : applying s = some version) :
    ∃ sts, next (s.party (.pool "pool")).1 = some (.pool (.applyStatefulSet sts)) ∧
      sts.labels["app.kubernetes.io/version"]? = some version := by
  unfold applying at h
  split at h
  · rename_i sts hnext
    exact ⟨sts, hnext, h⟩
  · cases h

end Sample

theorem binaries_current_raise :
    History.Along (exec Sample.printable Sample.table) AppliesCurrent Sample.raise
      (State.init (Sample.world "3.7" "3.7")) := by
  have hedit : (Sample.world "3.7" "3.7").kafka.outdates "3.8" = false := by decide
  refine binaries_current (by decide) ⟨hedit, trivial, ?_⟩
  simp [Sample.calls, List.replicate, History.Along, KeepsOrder]

/-- The gate is clear for the older binary, whose level is finalized only after the roll. -/
theorem downgrade_rolls_first :
    ¬ History.Along (exec Sample.printable Sample.table) AppliesCurrent
      (Sample.lower ++ [.call (.pool "pool") {}]) (State.init Sample.created) := by
  intro h
  have hlast : AppliesCurrent (.call (.pool "pool") {}) Sample.lowered := h.append.2.1
  have happly : Sample.applying Sample.lowered = some "3.7" := by decide +kernel
  have hold : Sample.lowered.world.kafka.outdates "3.7" = true := by decide +kernel
  obtain ⟨sts, hnext, hversion⟩ := Sample.next_of_applying happly
  exact Bool.noConfusion (hold.symm.trans (hlast sts "3.7" hnext hversion))

end Version
