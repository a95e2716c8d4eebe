-- SUMMARY: Runs of edits and passes over one topic: the topics that its passes create, and when its deletion leaves none of them on the brokers.
import KrabkaOperator.Base.History
import KrabkaOperator.Topic.Deletion

/-!
# Ownership of topics

The topic of a pass comes from the current spec. A pass that finds no topic of this
name creates one, and the pass over a deleted resource deletes one name: a topic that
was created under an earlier name stays.
-/

namespace Topic

open Kube Crd Operator Admin

/-! ## Brokers that carry out every call -/

structure BrokerTopic where
  name : String
  topicId : String
  partitionCount : Int
  configs : BTreeMap String

structure BrokerState where
  topics : List BrokerTopic := []
  /-- The names of the topics that `CreateTopics` made. -/
  created : List String := []

namespace BrokerState

def topic? (b : BrokerState) (name : String) : Option BrokerTopic := b.topics.find? (·.name = name)

def Has (b : BrokerState) (name : String) : Prop := ∃ t ∈ b.topics, t.name = name

instance (b : BrokerState) (name : String) : Decidable (b.Has name) :=
  inferInstanceAs (Decidable (∃ t ∈ b.topics, t.name = name))

def update (b : BrokerState) (name : String) (f : BrokerTopic → BrokerTopic) : BrokerState :=
  { b with topics := b.topics.map fun t => if t.name = name then { f t with name } else t }

/-- The answer about one name. -/
def metadata (b : BrokerState) (name : String) : List TopicMetadata :=
  match b.topic? name with
  | some t => [⟨name, none, some t.topicId, t.partitionCount⟩]
  | none => [⟨name, some ⟨3, "UNKNOWN_TOPIC_OR_PARTITION", none⟩, none, 0⟩]

theorem topic?_eq_none {b : BrokerState} {name : String} : b.topic? name = none ↔ ¬ b.Has name := by
  simp [topic?, Has, List.find?_eq_none]

theorem current?_metadata (b : BrokerState) (name : String) : current? (b.metadata name) name =
    (b.topic? name).map fun t => ⟨name, none, some t.topicId, t.partitionCount⟩ := by
  unfold metadata
  cases b.topic? name with
  | none => simp [current?, Option.filter]
  | some t => simp [current?, Option.filter]

end BrokerState

def AlterConfigOp.apply (configs : BTreeMap String) : AlterConfigOp → BTreeMap String
  | .set key value => configs.insert key value
  | .delete key => configs.erase key

section Healthy

variable (mint : List BrokerTopic → String) (replication : String → Int → TopicReplicationStatus)

/-- Every call succeeds. How new ids are drawn and how far a reassignment is does not matter. -/
def healthy : Brokers BrokerState where
  answer
    | .connect _, b => (.ok (), b)
    | .metadata name, b => (.ok (b.metadata name), b)
    | .createTopics spec, b =>
      if b.Has spec.name then
        (.ok ⟨some ⟨36, "TOPIC_ALREADY_EXISTS", none⟩, none⟩, b)
      else
        (.ok ⟨none, some (mint b.topics)⟩, {
          topics := b.topics ++ [⟨spec.name, mint b.topics, spec.partitions, spec.configs⟩]
          created := b.created ++ [spec.name] })
    | .deleteTopics name, b => (.ok (), { b with topics := b.topics.filter (·.name ≠ name) })
    | .createPartitions name count, b => (.ok none, b.update name ({ · with partitionCount := count }))
    | .reconcileTopicReplicationFactor name replicas, b => (.ok (replication name replicas), b)
    | .describeConfigs name, b => (.ok ((b.topic? name).map fun t => .ok t.configs), b)
    | .incrementalAlterConfigs name ops, b =>
      (.ok none, b.update name fun t => { t with configs := ops.foldl AlterConfigOp.apply t.configs })

end Healthy

variable {cfg : Config} {printable : Char → Bool} {mint : List BrokerTopic → String}
  {replication : String → Int → TopicReplicationStatus} {w v : World BrokerState}

/-! ## What a pass does to the topics -/

/-- The pass over this state sends `CreateTopics`. -/
structure Creates (printable : Char → Bool) (w : World BrokerState) : Prop where
  prologue : PassesPrologue printable w
  live : w.topic.deleting = false
  finalizer : w.topic.hasFinalizer = true
  missing : ¬ w.brokers.Has w.topic.topicName

instance : Decidable (Creates printable w) :=
  decidable_of_iff (PassesPrologue printable w ∧ w.topic.deleting = false ∧
      w.topic.hasFinalizer = true ∧ ¬ w.brokers.Has w.topic.topicName)
    ⟨fun h => ⟨h.1, h.2.1, h.2.2.1, h.2.2.2⟩,
      fun h => ⟨h.prologue, h.live, h.finalizer, h.missing⟩⟩

/-- The resource, apart from its status and its finalizers, and the parents. -/
structure SameSpec (w v : World BrokerState) : Prop where
  topic : ∃ status finalizers,
    v.topic = { w.topic with status := status, finalizers := finalizers }
  kafkas : v.kafkas = w.kafkas

/-- No topic comes or goes. -/
structure Adjusted (w v : World BrokerState) : Prop extends SameSpec w v where
  names : v.brokers.topics.map (·.name) = w.brokers.topics.map (·.name)
  created : v.brokers.created = w.brokers.created

theorem SameSpec.refl (w : World BrokerState) : SameSpec w w := ⟨⟨_, _, rfl⟩, rfl⟩

theorem Adjusted.refl (w : World BrokerState) : Adjusted w w := ⟨.refl w, rfl, rfl⟩

theorem SameSpec.spec (h : SameSpec w v) : v.topic.spec = w.topic.spec := by
  obtain ⟨_, _, h⟩ := h.topic
  rw [h]

theorem SameSpec.deleting (h : SameSpec w v) : v.topic.deleting = w.topic.deleting := by
  obtain ⟨_, _, h⟩ := h.topic
  rw [h]

/-- Requests that change the status of the resource, or the settings of a topic. -/
def Adjusts : Req → Prop
  | .patchStatus _ => True
  | .admin (.createPartitions _ _) => True
  | .admin (.reconcileTopicReplicationFactor _ _) => True
  | .admin (.describeConfigs _) => True
  | .admin (.incrementalAlterConfigs _ _) => True
  | _ => False

theorem BrokerState.names_update (b : BrokerState) (name : String) (f : BrokerTopic → BrokerTopic) :
    (b.update name f).topics.map (·.name) = b.topics.map (·.name) := by
  simp only [BrokerState.update, List.map_map]
  apply List.map_congr_left
  intro t _
  simp only [Function.comp_apply]
  split
  · next h => exact h.symm
  · rfl

theorem adjusted_answer {r : Req} (hr : Adjusts r) (h : Adjusted w v) :
    Adjusted w (answer (healthy mint replication) r v).2 := by
  obtain ⟨⟨⟨status, finalizers, htopic⟩, hkafkas⟩, hnames, hcreated⟩ := h
  cases r with
  | getKafka name => exact hr.elim
  | setFinalizers finalizers => exact hr.elim
  | patchStatus new =>
    refine ⟨⟨⟨some new, finalizers, ?_⟩, hkafkas⟩, hnames, hcreated⟩
    simp only [answer, htopic]
  | admin r =>
    refine ⟨⟨⟨status, finalizers, htopic⟩, hkafkas⟩, ?_, ?_⟩
    · cases r with
      | createPartitions name count => exact (BrokerState.names_update _ _ _).trans hnames
      | incrementalAlterConfigs name ops => exact (BrokerState.names_update _ _ _).trans hnames
      | reconcileTopicReplicationFactor name replicas => exact hnames
      | describeConfigs name => exact hnames
      | connect bootstrap => exact hr.elim
      | metadata name => exact hr.elim
      | createTopics spec => exact hr.elim
      | deleteTopics name => exact hr.elim
    · cases r with
      | createPartitions name count => exact hcreated
      | incrementalAlterConfigs name ops => exact hcreated
      | reconcileTopicReplicationFactor name replicas => exact hcreated
      | describeConfigs name => exact hcreated
      | connect bootstrap => exact hr.elim
      | metadata name => exact hr.elim
      | createTopics spec => exact hr.elim
      | deleteTopics name => exact hr.elim

section Makes

variable {obj : KafkaTopic} {cur : TopicMetadata} {name : String} {topicId : Option String}

theorem patchStatus_makes (value reason message : String) (advance : Bool) :
    (patchStatus obj value reason message topicId advance).Makes Adjusts := by
  apply Prog.makes_request
  · exact trivial
  · intro x
    cases x with
    | ok u => trivial
    | error e => trivial

/-- A report of the pass, and its end. -/
theorem report_makes {α : Type} (value reason message : String) (advance : Bool) (a : α) :
    (patchStatus obj value reason message topicId advance >>= fun _ => pure a).Makes Adjusts :=
  (patchStatus_makes value reason message advance).bind fun _ => trivial

theorem reconcileReplicationFactor_makes :
    (reconcileReplicationFactor cfg obj name topicId).Makes Adjusts := by
  apply Prog.makes_request
  · exact trivial
  · intro x
    cases x with
    | ok status =>
      cases status with
      | inSync => trivial
      | reassignmentInProgress => exact report_makes _ _ _ _ _
      | reassignmentSubmitted => exact report_makes _ _ _ _ _
    | error e =>
      cases e with
      | broker api e => exact report_makes _ _ _ _ _
      | other transport text => trivial

theorem reconcileConfigs_makes : (reconcileConfigs cfg obj name topicId).Makes Adjusts := by
  apply Prog.makes_request
  · exact trivial
  · intro x
    rcases x with e | (_ | (e | overrides))
    · trivial
    · trivial
    · trivial
    · dsimp only
      apply Prog.Makes.bind
      · apply Prog.makes_ite
        · trivial
        · exact ⟨trivial, fun _ => trivial⟩
      · intro altered
        rcases altered with e | (_ | e)
        · trivial
        · exact report_makes _ _ _ _ _
        · exact report_makes _ _ _ _ _

theorem syncTopic_makes : (syncTopic cfg obj name cur).Makes Adjusts := by
  apply Prog.makes_ite
  · exact report_makes _ _ _ _ _
  · apply Prog.Makes.bind
    · apply Prog.makes_ite
      · exact ⟨trivial, fun _ => trivial⟩
      · trivial
    · intro grown
      rcases grown with e | (_ | e)
      · trivial
      · apply reconcileReplicationFactor_makes.bind
        intro action
        cases action with
        | none => exact reconcileConfigs_makes
        | some action => trivial
      · exact report_makes _ _ _ _ _

end Makes

section Passes

variable (cfg : Config) (mint : List BrokerTopic → String)
  (replication : String → Int → TopicReplicationStatus)

/-- A live resource that has its finalizer goes on to the brokers. -/
theorem pass_of_ready (h : PassesPrologue printable w) (hlive : w.topic.deleting = false)
    (hfin : w.topic.hasFinalizer = true) : pass cfg printable (healthy mint replication) w =
      ((w.brokers.topic? w.topic.topicName).elim (createTopic cfg w.topic w.topic.topicName) fun t =>
        syncTopic cfg w.topic w.topic.topicName
          ⟨w.topic.topicName, none, some t.topicId, t.partitionCount⟩).complete
        (answer (healthy mint replication)) w := by
  obtain ⟨cluster, bootstrap, _, hprepare⟩ := complete_prepareTopic cfg (healthy mint replication) h
  rw [if_neg (by simp [hlive]), if_neg (by simp [hfin])] at hprepare
  have hconnect : (admin (.connect bootstrap)).complete (answer (healthy mint replication)) w =
      (.ok (.ok ()), w) := rfl
  have hmetadata : (admin (.metadata w.topic.topicName)).complete
      (answer (healthy mint replication)) w = (.ok (.ok (w.brokers.metadata w.topic.topicName)), w) := rfl
  unfold pass reconcileInner
  rw [Prog.complete_bind_of_ok (hprepare.trans rfl)]
  dsimp only
  rw [Prog.complete_bind_of_ok hconnect]
  dsimp only
  rw [Prog.complete_bind_of_ok hmetadata]
  dsimp only
  rw [BrokerState.current?_metadata]
  cases w.brokers.topic? w.topic.topicName with
  | none => rfl
  | some t => rfl

theorem pass_of_creates (h : Creates printable w) : ∃ status t, t.name = w.topic.topicName ∧
    (pass cfg printable (healthy mint replication) w).2 = { w with
      topic := { w.topic with status := some status }
      brokers := { topics := w.brokers.topics ++ [t]
                   created := w.brokers.created ++ [w.topic.topicName] } } := by
  rw [pass_of_ready cfg mint replication h.prologue h.live h.finalizer, BrokerState.topic?_eq_none.mpr h.missing]
  have hcreate : ∀ spec : CreateTopicSpec, spec.name = w.topic.topicName →
      (admin (.createTopics spec)).complete (answer (healthy mint replication)) w =
        (.ok (.ok ⟨none, some (mint w.brokers.topics)⟩), { w with brokers := {
          topics := w.brokers.topics ++
            [⟨spec.name, mint w.brokers.topics, spec.partitions, spec.configs⟩]
          created := w.brokers.created ++ [spec.name] } }) := by
    intro spec hname
    simp only [admin, Prog.request, Prog.complete, answer, healthy]
    rw [if_neg (hname ▸ h.missing)]
  rw [Option.elim_none]
  unfold createTopic
  rw [Prog.complete_bind_of_ok (hcreate _ rfl)]
  exact ⟨_, _, rfl, rfl⟩

theorem pass_of_not_creates (hlive : w.topic.deleting = false) (h : ¬ Creates printable w) :
    Adjusted w (pass cfg printable (healthy mint replication) w).2 := by
  by_cases hprologue : PassesPrologue printable w
  · by_cases hfin : w.topic.hasFinalizer = true
    · rw [pass_of_ready cfg mint replication hprologue hlive hfin]
      cases htopic : w.brokers.topic? w.topic.topicName with
      | none => exact absurd ⟨hprologue, hlive, hfin, BrokerState.topic?_eq_none.mp htopic⟩ h
      | some t =>
        exact syncTopic_makes.complete_invariant (fun _ _ hr hv => adjusted_answer hr hv) (.refl w)
    · obtain ⟨cluster, bootstrap, _, hprepare⟩ := complete_prepareTopic cfg (healthy mint replication) hprologue
      rw [if_neg (by simp [hlive]), if_pos (by simpa using hfin)] at hprepare
      unfold pass reconcileInner
      rw [Prog.complete_bind_of_ok (hprepare.trans rfl)]
      exact ⟨⟨⟨_, _, rfl⟩, rfl⟩, rfl, rfl⟩
  · obtain ⟨action, status, hpass⟩ := pass_of_not_prologue cfg (healthy mint replication) hprologue
    rw [hpass]
    exact ⟨⟨⟨_, _, rfl⟩, rfl⟩, rfl, rfl⟩

end Passes

/-! ## Runs -/

inductive Event where
  | edit (spec : KafkaTopicSpec)
  | kafkas (kafkas : List Parent)
  | pass

instance : (e : Event) → Decidable (e = .pass)
  | .pass => isTrue rfl
  | .edit _ => isFalse (by simp)
  | .kafkas _ => isFalse (by simp)

section Run

variable (cfg : Config) (printable : Char → Bool) (mint : List BrokerTopic → String)
  (replication : String → Int → TopicReplicationStatus)

def step : Event → World BrokerState → World BrokerState
  | .edit spec, w => { w with topic := { w.topic with spec := spec } }
  | .kafkas kafkas, w => { w with kafkas := kafkas }
  | .pass, w => (pass cfg printable (healthy mint replication) w).2

/-- A pass runs to its end before the next event. -/
def exec (e : Event) (w : World BrokerState) : List (World BrokerState) :=
  [step cfg printable mint replication e w]

/-- The resource is deleted, together with its topic. -/
def World.marked (w : World BrokerState) : World BrokerState :=
  { w with topic := { w.topic with
      deleting := true
      spec := { w.topic.spec with preserveTopic := false } } }

/-- The end of the pass over the deleted resource. -/
def removed (w : World BrokerState) : World BrokerState :=
  (pass cfg printable (healthy mint replication) w.marked).2

end Run

/-- A topic that a pass created is on the brokers. -/
def Leftover (w : World BrokerState) : Prop := ∃ name ∈ w.brokers.created, w.brokers.Has name

instance (w : World BrokerState) : Decidable (Leftover w) :=
  inferInstanceAs (Decidable (∃ name ∈ w.brokers.created, w.brokers.Has name))

/-- What holds of a resource that lives: the topics that its passes created are there. -/
structure Owned (w : World BrokerState) : Prop where
  live : w.topic.deleting = false
  has : ∀ name ∈ w.brokers.created, w.brokers.Has name

theorem has_of_names {b b' : BrokerState} {name : String}
    (h : b'.topics.map (·.name) = b.topics.map (·.name)) (hname : b.Has name) : b'.Has name := by
  have hmem : name ∈ b'.topics.map (·.name) := h ▸ List.mem_map.mpr hname
  exact List.mem_map.mp hmem

theorem owned_step (e : Event) (h : Owned w) : Owned (step cfg printable mint replication e w) := by
  cases e with
  | edit spec => exact ⟨h.live, h.has⟩
  | kafkas kafkas => exact ⟨h.live, h.has⟩
  | pass =>
    by_cases hcreates : Creates printable w
    · obtain ⟨status, t, ht, hpass⟩ := pass_of_creates cfg mint replication hcreates
      rw [step, hpass]
      refine ⟨h.live, fun name hname => ?_⟩
      rcases List.mem_append.mp hname with hold | hnew
      · obtain ⟨t', ht', hname'⟩ := h.has name hold
        exact ⟨t', List.mem_append_left _ ht', hname'⟩
      · exact ⟨t, by simp, ht.trans (List.mem_singleton.mp hnew).symm⟩
    · have hsame := pass_of_not_creates cfg mint replication
        h.live hcreates
      refine ⟨hsame.deleting.trans h.live, fun name hname => has_of_names hsame.names ?_⟩
      exact h.has name (hsame.created ▸ hname)

/-- The topic that an event creates. -/
def creation (printable : Char → Bool) : Event → World BrokerState → List String
  | .pass, w => if Creates printable w then [w.topic.topicName] else []
  | _, _ => []

theorem created_step (e : Event) (h : Owned w) :
    (step cfg printable mint replication e w).brokers.created =
      w.brokers.created ++ creation printable e w := by
  cases e with
  | edit spec => exact (List.append_nil _).symm
  | kafkas kafkas => exact (List.append_nil _).symm
  | pass =>
    by_cases hcreates : Creates printable w
    · obtain ⟨status, t, ht, hpass⟩ := pass_of_creates cfg mint replication hcreates
      rw [step, hpass, creation, if_pos hcreates]
    · have hsame := pass_of_not_creates cfg mint replication
        h.live hcreates
      rw [step, hsame.created, creation, if_neg hcreates, List.append_nil]

theorem owned_final (es : List Event) (h : Owned w) :
    Owned (History.final (exec cfg printable mint replication) es w) := by
  induction es generalizing w with
  | nil => exact h
  | cons e es ih => exact ih (owned_step e h)

/-- All created topics have a property exactly when every pass that creates one meets it. -/
theorem forall_created_iff (P : String → Prop) (es : List Event) (h : Owned w) :
    (∀ name ∈ (History.final (exec cfg printable mint replication) es w).brokers.created, P name) ↔
      (∀ name ∈ w.brokers.created, P name) ∧
        History.Along (exec cfg printable mint replication)
          (fun e v => e = .pass → Creates printable v → P v.topic.topicName) es w := by
  induction es generalizing w with
  | nil => simp [History.final, History.Along]
  | cons e es ih =>
    have hfirst : (∀ name ∈ creation printable e w, P name) ↔
        (e = .pass → Creates printable w → P w.topic.topicName) := by
      cases e with
      | edit spec => simp [creation]
      | kafkas kafkas => simp [creation]
      | pass =>
        by_cases hcreates : Creates printable w
        · simp [creation, hcreates]
        · simp [creation, hcreates]
    refine (ih (owned_step e h)).trans ?_
    rw [History.Along, ← hfirst, created_step e h, List.forall_mem_append, and_assoc]
    rfl

/-! ## The end of a topic -/

theorem prologue_marked : PassesPrologue printable w.marked ↔ PassesPrologue printable w :=
  ⟨fun h => ⟨h.parent, h.name⟩, fun h => ⟨h.parent, h.name⟩⟩

/-- The pass over the deleted resource, where it gets to the brokers. -/
theorem removed_of_prologue (h : PassesPrologue printable w) :
    (removed cfg printable mint replication w).brokers =
      { w.brokers with topics := w.brokers.topics.filter (·.name ≠ w.topic.topicName) } := by
  obtain ⟨bootstrap, hpass⟩ := pass_of_cleanup cfg (healthy mint replication)
    (prologue_marked.mpr h) rfl
  unfold removed
  rw [hpass { w.marked with brokers :=
    { w.brokers with topics := w.brokers.topics.filter (·.name ≠ w.topic.topicName) } } rfl]

theorem removed_of_not_prologue (h : ¬ PassesPrologue printable w) :
    (removed cfg printable mint replication w).brokers = w.brokers := by
  obtain ⟨action, status, hpass⟩ := pass_of_not_prologue cfg (healthy mint replication) (mt prologue_marked.mp h)
  unfold removed
  rw [hpass]
  rfl

/-- The deletion leaves no created topic when each has the name that is in the spec then, and
    the pass gets to the brokers. -/
theorem not_leftover_removed_iff (h : Owned w) :
    (¬ Leftover (removed cfg printable mint replication w)) ↔
      ∀ name ∈ w.brokers.created, name = w.topic.topicName ∧ PassesPrologue printable w := by
  unfold Leftover
  by_cases hprologue : PassesPrologue printable w
  · rw [removed_of_prologue hprologue]
    constructor
    · intro hnone name hname
      refine ⟨?_, hprologue⟩
      by_contra hother
      obtain ⟨t, ht, htname⟩ := h.has name hname
      exact hnone ⟨name, hname, t, List.mem_filter.mpr ⟨ht, by simpa [htname] using hother⟩, htname⟩
    · rintro hall ⟨name, hname, t, ht, htname⟩
      have hkept := (List.mem_filter.mp ht).2
      simp [htname, (hall name hname).1] at hkept
  · rw [removed_of_not_prologue hprologue]
    constructor
    · intro hnone name hname
      exact absurd ⟨name, hname, h.has name hname⟩ hnone
    · rintro hall ⟨name, hname, _⟩
      exact hprologue (hall name hname).2

/-- After any edits and passes, the deletion leaves none of the created topics exactly when
    every pass that created one did it under the last name. -/
theorem removed_leaves_none_iff {es : List Event} (hlive : w.topic.deleting = false)
    (hclean : w.brokers.created = []) :
    (¬ Leftover (removed cfg printable mint replication
        (History.final (exec cfg printable mint replication) es w))) ↔
      History.Along (exec cfg printable mint replication) (fun e v => e = .pass → Creates printable v →
        v.topic.topicName =
            (History.final (exec cfg printable mint replication) es w).topic.topicName ∧
          PassesPrologue printable (History.final (exec cfg printable mint replication) es w))
        es w := by
  have howned : Owned w := ⟨hlive, by simp [hclean]⟩
  rw [not_leftover_removed_iff (owned_final es howned), forall_created_iff _ es howned]
  simp [hclean]

/-- A resource in a ready cluster, and brokers without topics. -/
def freshTopic : World BrokerState where
  topic := { name := "a", labels := BTreeMap.ofList [("krabka.io/cluster", "demo")] }
  kafkas := [.ready "demo"]
  brokers := {}

/-- Two passes, for the finalizer and for the topic, and a rename with its pass. -/
def renameEvents : List Event := [.pass, .pass, .edit { topicName := some "b" }, .pass]

theorem unrenamed_leaves_none :
    let last := History.final (exec {} (fun _ => true) (fun _ => "id") fun _ _ => .inSync)
      [.pass, .pass] freshTopic
    last.brokers.created = ["a"] ∧
      ¬ Leftover (removed {} (fun _ => true) (fun _ => "id") (fun _ _ => .inSync) last) :=
  ⟨by decide, (removed_leaves_none_iff rfl rfl).mpr (by decide)⟩

/-- The topic of the first name outlives the resource, whose finalizer is gone. -/
theorem rename_leaves_topic :
    let last := removed {} (fun _ => true) (fun _ => "id") (fun _ _ => .inSync)
      (History.final (exec {} (fun _ => true) (fun _ => "id") fun _ _ => .inSync) renameEvents
        freshTopic)
    last.brokers.created = ["a", "b"] ∧ last.brokers.Has "a" ∧ Leftover last ∧
      last.topic.finalizers = [] := by
  decide

end Topic
