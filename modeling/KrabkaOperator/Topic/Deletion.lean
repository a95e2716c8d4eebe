-- SUMMARY: The prologue of a topic pass, and the pass over a deleted resource: the finalizer goes exactly when the prologue lets the pass through.
import KrabkaOperator.Topic.Reconcile

/-!
# Deletion of a topic

The label, the name and the parent are checked before the deletion is looked at. A
resource that fails there gets a condition and keeps its finalizer.
-/

namespace Topic

open Kube Crd Operator Admin

variable {β : Type} {printable : Char → Bool} {w : World β}
  {cluster bootstrap : String}

/-- The cluster of a topic, when its Kafka is ready, with the address of the brokers. -/
def World.bootstrap? (w : World β) : Option (String × String) :=
  match w.topic.cluster? with
  | none => none
  | some cluster =>
    (w.kafka? cluster >>= operatorListenerBootstrap).map fun bootstrap => (cluster, bootstrap)

theorem World.bootstrap?_eq_some : w.bootstrap? = some (cluster, bootstrap) ↔
    w.topic.cluster? = some cluster ∧
      w.kafka? cluster >>= operatorListenerBootstrap = some bootstrap := by
  unfold World.bootstrap?
  cases w.topic.cluster? with
  | none => simp
  | some c =>
    simp only [Option.map_eq_some_iff, Prod.mk.injEq, Option.some.injEq]
    constructor
    · rintro ⟨_, hready, rfl, rfl⟩
      exact ⟨rfl, hready⟩
    · rintro ⟨rfl, hready⟩
      exact ⟨bootstrap, hready, rfl, rfl⟩

/-- The checks of a pass: a label and a parent that is ready, and a valid name. -/
structure PassesPrologue (printable : Char → Bool) (w : World β) : Prop where
  parent : w.bootstrap?.isSome
  name : validateKafkaTopicName printable w.topic.topicName = .ok ()

instance : Decidable (PassesPrologue printable w) :=
  decidable_of_iff (w.bootstrap?.isSome ∧ validateKafkaTopicName printable w.topic.topicName = .ok ())
    ⟨fun h => ⟨h.1, h.2⟩, fun h => ⟨h.parent, h.name⟩⟩

theorem complete_getKafka (brokers : Brokers β) (cluster : String) (w : World β) :
    (getKafka cluster).complete (answer brokers) w = (.ok (w.kafka? cluster), w) := rfl

variable (cfg : Config) (brokers : Brokers β)

/-- A pass that the prologue stops reports a condition and nothing else. -/
theorem complete_prepareTopic_of_not (h : ¬ PassesPrologue printable w) :
    ∃ action status, (prepareTopic cfg printable w.topic).complete (answer brokers) w =
      (.ok (.done action), { w with topic := { w.topic with status := some status } }) := by
  unfold prepareTopic
  cases hcluster : w.topic.cluster? with
  | none => exact ⟨_, _, rfl⟩
  | some cluster =>
    cases hname : validateKafkaTopicName printable w.topic.topicName with
    | error message => exact ⟨_, _, rfl⟩
    | ok u =>
      dsimp only
      rw [Prog.complete_bind_of_ok (complete_getKafka brokers cluster w)]
      have hbootstrap : w.kafka? cluster >>= operatorListenerBootstrap = none := by
        cases hready : w.kafka? cluster >>= operatorListenerBootstrap with
        | none => rfl
        | some bootstrap =>
          have hparent := World.bootstrap?_eq_some.mpr ⟨hcluster, hready⟩
          exact absurd ⟨by rw [hparent]; rfl, hname⟩ h
      rw [hbootstrap]
      exact ⟨_, _, rfl⟩

/-- The rest of the prologue, for a resource that passes the checks. -/
theorem complete_prepareTopic (h : PassesPrologue printable w) :
    ∃ cluster bootstrap, w.bootstrap? = some (cluster, bootstrap) ∧
      (prepareTopic cfg printable w.topic).complete (answer brokers) w =
        (if w.topic.deleting then do
          deleteTopic w.topic bootstrap w.topic.topicName
          setFinalizers []
          pure (TopicPreparation.done .awaitChange)
        else if !w.topic.hasFinalizer then do
          setFinalizers [finalizer]
          pure (.done (.requeue 0))
        else
          pure (.ready cluster bootstrap w.topic.topicName) : Op TopicPreparation).complete
            (answer brokers) w := by
  obtain ⟨⟨cluster, bootstrap⟩, hparent⟩ := Option.isSome_iff_exists.mp h.parent
  refine ⟨cluster, bootstrap, hparent, ?_⟩
  obtain ⟨hcluster, hready⟩ := World.bootstrap?_eq_some.mp hparent
  unfold prepareTopic
  rw [hcluster, h.name]
  dsimp only
  rw [Prog.complete_bind_of_ok (complete_getKafka brokers cluster w), hready]

/-- The clean-up on the brokers is best effort, and leaves the resource. -/
theorem complete_deleteTopic (obj : KafkaTopic) (bootstrap topicName : String) (w : World β) :
    ∃ b, (deleteTopic obj bootstrap topicName).complete (answer brokers) w =
      (.ok (), { w with brokers := b }) := by
  unfold deleteTopic
  cases obj.spec.preserveTopic with
  | true => exact ⟨w.brokers, rfl⟩
  | false =>
    have hconnect : (admin (.connect bootstrap)).complete (answer brokers) w =
        (.ok (brokers.answer (.connect bootstrap) w.brokers).1,
          { w with brokers := (brokers.answer (.connect bootstrap) w.brokers).2 }) := rfl
    rw [if_neg Bool.false_ne_true, Prog.complete_bind_of_ok hconnect]
    cases (brokers.answer (.connect bootstrap) w.brokers).1 with
    | error e => exact ⟨_, rfl⟩
    | ok u => exact ⟨_, rfl⟩

/-! ## The finalizer -/

/-- A deleted resource that the prologue lets through: the clean-up, then the finalizers. -/
theorem pass_of_cleanup (h : PassesPrologue printable w) (hdel : w.topic.deleting = true) :
    ∃ bootstrap, ∀ w', (deleteTopic w.topic bootstrap w.topic.topicName).complete (answer brokers) w =
        (.ok (), w') →
      pass cfg printable brokers w =
        (.ok .awaitChange, { w' with topic := { w'.topic with finalizers := [] } }) := by
  obtain ⟨cluster, bootstrap, _, hprepare⟩ := complete_prepareTopic cfg brokers h
  refine ⟨bootstrap, fun w' hdelete => ?_⟩
  rw [if_pos hdel, Prog.complete_bind_of_ok hdelete] at hprepare
  unfold pass reconcileInner
  rw [Prog.complete_bind_of_ok (hprepare.trans rfl)]
  rfl

theorem pass_of_deleting (h : PassesPrologue printable w) (hdel : w.topic.deleting = true) :
    ∃ b, pass cfg printable brokers w = (.ok .awaitChange,
      { w with topic := { w.topic with finalizers := [] }, brokers := b }) := by
  obtain ⟨bootstrap, hpass⟩ := pass_of_cleanup cfg brokers h hdel
  obtain ⟨b, hdelete⟩ := complete_deleteTopic brokers w.topic bootstrap w.topic.topicName w
  exact ⟨b, hpass _ hdelete⟩

/-- Any other pass over a resource that the prologue stops only reports. -/
theorem pass_of_not_prologue (h : ¬ PassesPrologue printable w) :
    ∃ action status, pass cfg printable brokers w =
      (.ok action, { w with topic := { w.topic with status := some status } }) := by
  obtain ⟨action, status, hprepare⟩ := complete_prepareTopic_of_not cfg brokers h
  refine ⟨action, status, ?_⟩
  unfold pass reconcileInner
  rw [Prog.complete_bind_of_ok hprepare]
  rfl

/-- The pass over a deleted resource takes the finalizer off exactly when the prologue
    lets it through. -/
theorem pass_releases_iff (hdel : w.topic.deleting = true) (hfin : w.topic.hasFinalizer = true) :
    ((∃ action, (pass cfg printable brokers w).1 = .ok action) ∧
      (pass cfg printable brokers w).2.topic.hasFinalizer = false) ↔ PassesPrologue printable w := by
  constructor
  · rintro ⟨_, hreleased⟩
    by_contra h
    obtain ⟨action, status, hpass⟩ := pass_of_not_prologue cfg brokers h
    rw [hpass] at hreleased
    exact absurd (hfin.symm.trans hreleased) (by simp)
  · intro h
    obtain ⟨b, hpass⟩ := pass_of_deleting cfg brokers h hdel
    rw [hpass]
    exact ⟨⟨_, rfl⟩, rfl⟩

/-- A call that does not reach the brokers. -/
def refuse : (r : AdminReq) → AdminResp r
  | .connect _ => .error (.other true "refused")
  | .metadata _ => .error (.other true "refused")
  | .createTopics _ => .error (.other true "refused")
  | .deleteTopics _ => .error (.other true "refused")
  | .createPartitions _ _ => .error (.other true "refused")
  | .reconcileTopicReplicationFactor _ _ => .error (.other true "refused")
  | .describeConfigs _ => .error (.other true "refused")
  | .incrementalAlterConfigs _ _ => .error (.other true "refused")

def refusing : Brokers Unit := ⟨fun r b => (refuse r, b)⟩

/-- A deleted resource with these labels, in a cluster that is ready. -/
def deletedIn (labels : List (String × String)) : World Unit where
  topic := {
    name := "a", labels := BTreeMap.ofList labels, deleting := true, finalizers := [finalizer] }
  kafkas := [.ready "demo"]
  brokers := ()

end Topic
