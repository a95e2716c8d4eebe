-- SUMMARY: Passes over a topic with calls that may fail: the generation is observed only where the topic is as its spec says, and a further pass changes nothing there.
import KrabkaOperator.Base.MapDiff
import KrabkaOperator.Topic.Ownership

/-!
# Convergence of a topic

A pass drives the partitions, the replicas and the configs of a topic one after the other, and ends
at the first that is not in line. The brokers may refuse any call or lose its answer.
-/

namespace Topic

open Kube Crd Operator Admin

/-! ## Configs -/

def AlterConfigOp.key : AlterConfigOp → String
  | .set key _ => key
  | .delete key => key

def AlterConfigOp.toChange : AlterConfigOp → MapDiff.Change String String
  | .set key value => (key, some value)
  | .delete key => (key, none)

theorem AlterConfigOp.fst_toChange (op : AlterConfigOp) : op.toChange.1 = op.key := by
  cases op with
  | set key value => rfl
  | delete key => rfl

theorem toChange_diffConfigs (current desired : BTreeMap String) :
    (diffConfigs current desired).map AlterConfigOp.toChange = MapDiff.diff current desired := by
  simp only [diffConfigs, MapDiff.diff, List.map_append, List.map_map]
  rfl

theorem foldl_diffConfigs (current desired : BTreeMap String) :
    (diffConfigs current desired).foldl AlterConfigOp.apply current = desired := by
  have happly : AlterConfigOp.apply = fun m op => MapDiff.change m op.toChange := by
    funext m op
    cases op with
    | set key value => rfl
    | delete key => rfl
  rw [happly, ← List.foldl_map, toChange_diffConfigs, MapDiff.foldl_diff]

theorem nodup_diffConfigs (current desired : BTreeMap String) :
    ((diffConfigs current desired).map AlterConfigOp.key).Nodup := by
  have hkeys := MapDiff.nodup_diff current desired
  rw [← toChange_diffConfigs, List.map_map] at hkeys
  refine (List.map_congr_left fun op _ => ?_) ▸ hkeys
  exact op.fst_toChange

theorem eq_of_diffConfigs_nil {current desired : BTreeMap String}
    (h : diffConfigs current desired = []) : current = desired := by
  have happly := foldl_diffConfigs current desired
  rwa [h, List.foldl_nil] at happly

/-! ## Brokers with faults -/

/-- A topic with its replicas, and why the brokers do not describe it. -/
structure TopicState extends BrokerTopic where
  factor : Int
  reassigning : Bool := false
  error : Option KafkaError := none

/-- What the environment chooses at one call. -/
structure Call extends Operator.Choice where
  /-- The error of a call that fails. -/
  callError : AdminError := .other true "unreachable"
  /-- An error that the brokers report for the topic, which then stays as it is. -/
  topicError : Option KafkaError := none
  topicId : String := ""

abbrev Topics := List TopicState

def Topics.topic? (topics : Topics) (name : String) : Option TopicState :=
  topics.find? (·.name = name)

def Topics.update (topics : Topics) (name : String) (f : TopicState → TopicState) : Topics :=
  topics.map fun t => if t.name = name then f t else t

def Topics.metadata (topics : Topics) (name : String) : List TopicMetadata :=
  match topics.topic? name with
  | some t => [⟨name, t.error, some t.topicId, t.partitionCount⟩]
  | none => [⟨name, some ⟨3, "UNKNOWN_TOPIC_OR_PARTITION", none⟩, none, 0⟩]

/-- A call that is carried out, refused, or carried out without an answer. -/
def attempted {α : Type} (c : Call) (x : α) (b b' : Topics) : Except AdminError α × Topics :=
  match c.fault with
  | .none => (.ok x, b')
  | .refused => (.error c.callError, b)
  | .lost => (.error c.callError, b')

/-- A change of a topic, unless the brokers report an error for it. -/
def changed (c : Call) (b b' : Topics) : Except AdminError (Option KafkaError) × Topics :=
  match c.topicError with
  | some e => attempted c (some e) b b
  | none => attempted c none b b'

def topicAnswer (c : Call) : (r : AdminReq) → Topics → AdminResp r × Topics
  | .connect _, b => attempted c () b b
  | .metadata name, b => attempted c (b.metadata name) b b
  | .createTopics spec, b =>
    match b.topic? spec.name, c.topicError with
    | some _, _ => attempted c ⟨some ⟨36, "TOPIC_ALREADY_EXISTS", none⟩, none⟩ b b
    | none, some e => attempted c ⟨some e, none⟩ b b
    | none, none => attempted c ⟨none, some c.topicId⟩ b (b ++
        [⟨⟨spec.name, c.topicId, spec.partitions, spec.configs⟩, spec.replicas, false, none⟩])
  | .deleteTopics name, b => attempted c () b (b.filter (·.name ≠ name))
  | .createPartitions name count, b => changed c b (b.update name ({ · with partitionCount := count }))
  | .reconcileTopicReplicationFactor name replicas, b =>
    match b.topic? name with
    | none => (.error c.callError, b)
    | some t =>
      if t.reassigning then attempted c .reassignmentInProgress b b
      else if t.factor = replicas then attempted c .inSync b b
      else attempted c .reassignmentSubmitted b (b.update name ({ · with reassigning := true }))
  | .describeConfigs name, b =>
    attempted c ((b.topic? name).map fun t => c.topicError.elim (.ok t.configs) .error) b b
  | .incrementalAlterConfigs name ops, b => changed c b
    (b.update name fun t => { t with configs := ops.foldl AlterConfigOp.apply t.configs })

def troubled : (r : Req) → Call → World Topics → Resp r × World Topics
  | .getKafka name, c, w => answerRead c.toChoice w (w.kafka? name)
  | .patchStatus status, c, w =>
    answerWrite c.toChoice w { w with topic := { w.topic with status := some status } }
  | .setFinalizers finalizers, c, w =>
    answerWrite c.toChoice w { w with topic := { w.topic with finalizers := finalizers } }
  | .admin r, c, w => ((topicAnswer c r w.brokers).1,
      { w with brokers := (topicAnswer c r w.brokers).2 })

/-! ## Converged topics -/

/-- The topic is as the spec says. -/
def InSync (obj : KafkaTopic) (topics : Topics) : Prop :=
  ∃ t, topics.topic? obj.topicName = some t ∧ t.error = none ∧
    t.partitionCount = obj.spec.partitions ∧ t.factor = obj.spec.replicas ∧ t.reassigning = false ∧
    t.configs = obj.spec.config.getD ∅

def World.observed (w : World Topics) : Option Int := w.topic.status >>= (·.observedGeneration)

/-- The requests that change topics. -/
def Mutates : Req → Prop
  | .admin (.createTopics _) => True
  | .admin (.deleteTopics _) => True
  | .admin (.createPartitions _ _) => True
  | .admin (.incrementalAlterConfigs _ _) => True
  | _ => False

/-- The resource lives with its finalizer, its status may be new, and its topic is in sync. -/
structure Converged (obj : KafkaTopic) (v : World Topics) : Prop where
  topic : ∃ status, v.topic = { obj with status := status }
  live : obj.deleting = false
  finalizer : obj.hasFinalizer = true
  sync : InSync obj v.brokers

/-- Before a request the partitions do not shrink by it, and after it the generation is as before the
pass or the topic has converged. -/
structure Sound (obj : KafkaTopic) (before : Option Int) (a : World Topics) (r : Req)
    (b : World Topics) : Prop where
  grows : ∀ name count t, r = .admin (.createPartitions name count) →
    a.brokers.topic? name = some t → t.partitionCount ≤ count
  observed : b.observed = before ∨ Converged obj b

/-! ## Answers -/

variable {b : Topics} {c : Call} {name : String} {t : TopicState}

theorem topic?_update {f : TopicState → TopicState} (hf : ∀ t, (f t).name = t.name)
    (h : b.topic? name = some t) : (b.update name f).topic? name = some (f t) := by
  unfold Topics.update Topics.topic? at *
  rw [List.find?_map]
  have hsame : ((fun u : TopicState => Decidable.decide (u.name = name)) ∘
      fun u => if u.name = name then f u else u) = fun u => Decidable.decide (u.name = name) := by
    funext u
    simp only [Function.comp_apply]
    split
    · rename_i hname
      simp only [hf, hname]
    · rfl
  have hname : t.name = name := by simpa using List.find?_some h
  rw [hsame, h, Option.map_some, if_pos hname]

theorem attempted_state {α : Type} (c : Call) (x : α) (b b' : Topics) :
    (attempted c x b b').2 = b ∨ (attempted c x b b').2 = b' := by
  unfold attempted
  cases c.fault with
  | none => exact .inr rfl
  | refused => exact .inl rfl
  | lost => exact .inr rfl

theorem attempted_of_ok {α : Type} {x y : α} {b' : Topics} (h : (attempted c x b b').1 = .ok y) :
    y = x ∧ (attempted c x b b').2 = b' := by
  unfold attempted at *
  cases hfault : c.fault with
  | none =>
    rw [hfault] at h
    exact ⟨(Except.ok.inj h).symm, rfl⟩
  | refused =>
    rw [hfault] at h
    cases h
  | lost =>
    rw [hfault] at h
    cases h

theorem attempted_same {α : Type} (c : Call) (x : α) (b : Topics) : (attempted c x b b).2 = b :=
  (attempted_state c x b b).elim id id

theorem changed_of_ok {b' : Topics} (h : (changed c b b').1 = .ok none) : (changed c b b').2 = b' := by
  unfold changed at *
  cases herror : c.topicError with
  | some e =>
    rw [herror] at h
    cases (attempted_of_ok h).1
  | none =>
    rw [herror] at h
    exact (attempted_of_ok h).2

theorem answer_metadata {topics : List TopicMetadata} {cur : TopicMetadata}
    (h : (topicAnswer c (.metadata name) b).1 = .ok topics) (hcur : current? topics name = some cur) :
    ∃ t, b.topic? name = some t ∧ t.error = none ∧ cur.partitionCount = t.partitionCount := by
  obtain rfl := (attempted_of_ok h).1
  unfold Topics.metadata at hcur
  cases htopic : b.topic? name with
  | none =>
    rw [htopic] at hcur
    simp [current?, Option.filter] at hcur
  | some t =>
    rw [htopic] at hcur
    simp only [current?, List.find?_cons_of_pos, Option.filter_eq_some_iff, Option.some_inj,
      Option.isNone_iff_eq_none, decide_true] at hcur
    obtain ⟨rfl, herror⟩ := hcur
    exact ⟨t, rfl, herror, rfl⟩

theorem answer_create {spec : CreateTopicSpec} {outcome : CreateTopicOutcome}
    (h : (topicAnswer c (.createTopics spec) b).1 = .ok outcome) (hok : outcome.error = none) :
    (topicAnswer c (.createTopics spec) b).2.topic? spec.name =
      some ⟨⟨spec.name, c.topicId, spec.partitions, spec.configs⟩, spec.replicas, false, none⟩ := by
  unfold topicAnswer at *
  dsimp only at *
  split at h
  · rw [(attempted_of_ok h).1] at hok
    cases hok
  · rw [(attempted_of_ok h).1] at hok
    cases hok
  · rename_i hmissing _
    rw [(attempted_of_ok h).2]
    unfold Topics.topic? at *
    simp [List.find?_append, hmissing]

theorem answer_grow {count : Int} (htopic : b.topic? name = some t)
    (h : (topicAnswer c (.createPartitions name count) b).1 = .ok none) :
    (topicAnswer c (.createPartitions name count) b).2.topic? name =
      some { t with partitionCount := count } := by
  rw [topicAnswer, changed_of_ok h]
  exact topic?_update (fun _ => rfl) htopic

theorem answer_replication {replicas : Int} (htopic : b.topic? name = some t)
    (h : (topicAnswer c (.reconcileTopicReplicationFactor name replicas) b).1 = .ok .inSync) :
    (topicAnswer c (.reconcileTopicReplicationFactor name replicas) b).2 = b ∧ t.factor = replicas ∧
      t.reassigning = false := by
  unfold topicAnswer at *
  dsimp only at *
  rw [htopic] at h ⊢
  dsimp only at *
  split at h
  · cases (attempted_of_ok h).1
  · rename_i hidle
    split at h
    · rename_i hfactor
      rw [if_neg hidle, if_pos hfactor]
      exact ⟨attempted_same _ _ _, hfactor, by simpa using hidle⟩
    · cases (attempted_of_ok h).1

theorem answer_describe {overrides : BTreeMap String} (htopic : b.topic? name = some t)
    (h : (topicAnswer c (.describeConfigs name) b).1 = .ok (some (.ok overrides))) :
    overrides = t.configs := by
  have heq := (attempted_of_ok h).1
  rw [htopic, Option.map_some, Option.some_inj] at heq
  cases herror : c.topicError with
  | some e =>
    rw [herror] at heq
    cases heq
  | none =>
    rw [herror] at heq
    exact Except.ok.inj heq

theorem answer_alter {ops : List AlterConfigOp} (htopic : b.topic? name = some t)
    (h : (topicAnswer c (.incrementalAlterConfigs name ops) b).1 = .ok none) :
    (topicAnswer c (.incrementalAlterConfigs name ops) b).2.topic? name =
      some { t with configs := ops.foldl AlterConfigOp.apply t.configs } := by
  rw [topicAnswer, changed_of_ok h]
  exact topic?_update (fun _ => rfl) htopic

/-! ## Requests that observe no generation -/

variable {cfg : Config} {printable : Char → Bool} {obj : KafkaTopic} {before : Option Int}
  {a v w : World Topics} {topicId : Option String}

/-- The generation in the status stays, and no partitions are created. -/
def Keeps (before : Option Int) : Req → Prop
  | .patchStatus status => status.observedGeneration = before
  | .admin (.createPartitions _ _) => False
  | _ => True

theorem patch_cases (status : KafkaTopicStatus) (c : Call) (a : World Topics) :
    (troubled (.patchStatus status) c a).2 = a ∨ (troubled (.patchStatus status) c a).2 =
      { a with topic := { a.topic with status := some status } } :=
  answerWrite_world _ _ _

theorem keeps_troubled {r : Req} (hr : Keeps before r) (ha : a.observed = before) :
    Sound obj before a r (troubled r c a).2 ∧ (troubled r c a).2.observed = before := by
  have hkept : (troubled r c a).2.observed = before := by
    cases r with
    | getKafka name =>
      rw [troubled, answerRead_world]
      exact ha
    | admin r => exact ha
    | setFinalizers finalizers =>
      rcases answerWrite_world c.toChoice a
        { a with topic := { a.topic with finalizers := finalizers } } with h | h
      · rw [troubled, h]
        exact ha
      · rw [troubled, h]
        exact ha
    | patchStatus status =>
      rcases patch_cases status c a with h | h
      · rw [h]
        exact ha
      · rw [h]
        exact hr
  refine ⟨⟨fun name count t hrequest => ?_, .inl hkept⟩, hkept⟩
  rw [hrequest] at hr
  exact hr.elim

theorem sat_keeps {α : Type} {p : Op α} (h : p.Makes (Keeps before)) (ha : a.observed = before) :
    p.Sat troubled (Sound obj before) (fun _ _ => True) a :=
  (h.stage (I := fun b => b.observed = before) (fun _ _ _ hr hb => keeps_troubled hr hb) ha).mono
    (fun _ _ _ h => h) fun _ _ _ => trivial

theorem kube_keeps {α : Type} {R : Req → Prop} (x : Except KubeError α) : (kube x).Makes R := by
  cases x with
  | ok a => trivial
  | error e => trivial

/-- A report that leaves the generation, and the end of the pass. -/
theorem report_keeps {α : Type} (value reason message : String) (x : α) :
    (patchStatus obj value reason message topicId false >>= fun _ => pure x).Makes
      (Keeps (obj.status >>= (·.observedGeneration))) :=
  Prog.Makes.bind ⟨rfl, kube_keeps⟩ fun _ => trivial

/-! ## Stages -/

/-- The pass works on the stored resource, which lives with its finalizer. -/
structure Working (obj : KafkaTopic) (a : World Topics) : Prop where
  topic : a.topic = obj
  live : obj.deleting = false
  finalizer : obj.hasFinalizer = true

/-- A pass over a topic that the brokers describe. -/
structure Driving (obj : KafkaTopic) (t : TopicState) (a : World Topics) : Prop extends
    Working obj a where
  found : a.brokers.topic? obj.topicName = some t
  described : t.error = none

theorem Working.observed (h : Working obj a) : a.observed = obj.status >>= (·.observedGeneration) := by
  rw [World.observed, h.topic]

theorem Working.admin (h : Working obj a) (c : Call) (r : AdminReq) :
    Working obj (troubled (.admin r) c a).2 := ⟨h.topic, h.live, h.finalizer⟩

/-- A call of the brokers that creates no partitions. -/
theorem Working.sound (h : Working obj a) (c : Call) {r : AdminReq}
    (hr : ∀ name count, r ≠ .createPartitions name count) :
    Sound obj (obj.status >>= (·.observedGeneration)) a (.admin r) (troubled (.admin r) c a).2 := by
  refine ⟨fun name count t hrequest => ?_, .inl (h.admin c r).observed⟩
  cases hrequest
  exact absurd rfl (hr name count)

/-- The last patch of a pass, over a topic in sync. -/
theorem sat_ready (h : Working obj a) (hsync : InSync obj a.brokers) (message : String)
    (action : Action) :
    (patchStatus obj "True" "Ready" message topicId true >>= fun _ => pure action).Sat troubled
      (Sound obj (obj.status >>= (·.observedGeneration))) (fun _ _ => True) a := by
  intro c
  refine ⟨⟨fun name count t hrequest => ?_, ?_⟩, ?_⟩
  · cases hrequest
  · rcases patch_cases _ c a with hsame | hpatched
    · rw [hsame]
      exact .inl h.observed
    · rw [hpatched]
      exact .inr ⟨⟨_, by rw [h.topic]⟩, h.live, h.finalizer, hsync⟩
  · cases (troubled (.patchStatus _) c a).1 with
    | ok u => trivial
    | error e => trivial

/-- A report of a topic that is not in line, and the end of the pass. -/
theorem sat_report {α : Type} (h : a.observed = obj.status >>= (·.observedGeneration))
    (value reason message : String) (x : α) :
    (patchStatus obj value reason message topicId false >>= fun _ => pure x).Sat troubled
      (Sound obj (obj.status >>= (·.observedGeneration))) (fun y _ => ∀ z, y = .ok z → z = x) a := by
  have hkeeps := @report_keeps obj topicId _ value reason message x
  refine fun c => ⟨(keeps_troubled hkeeps.1 h).1, ?_⟩
  cases (troubled (.patchStatus _) c a).1 with
  | ok u => exact fun z hz => (Except.ok.inj hz).symm
  | error e => exact nofun

theorem troubled_same {r : AdminReq} (h : (topicAnswer c r a.brokers).2 = a.brokers) :
    (troubled (.admin r) c a).2 = a := by
  rw [troubled, h]

theorem sat_alterConfigs (h : Driving obj t a) (hcount : t.partitionCount = obj.spec.partitions)
    (hfactor : t.factor = obj.spec.replicas) (hidle : t.reassigning = false) :
    (alterConfigs obj.topicName (diffConfigs t.configs (obj.spec.config.getD ∅))).Sat troubled
      (Sound obj (obj.status >>= (·.observedGeneration)))
      (fun x b => Working obj b ∧ (x = .ok (.ok none) → InSync obj b.brokers)) a := by
  unfold alterConfigs
  split
  · rename_i hnil
    exact ⟨h.toWorking, fun _ =>
      ⟨t, h.found, h.described, hcount, hfactor, hidle, eq_of_diffConfigs_nil hnil⟩⟩
  · refine fun c => ⟨h.sound c nofun, h.admin c _, fun hok => ?_⟩
    exact ⟨_, answer_alter h.found (Except.ok.inj hok), h.described, hcount, hfactor, hidle,
      foldl_diffConfigs _ _⟩

/-- The configs are the last to be driven. -/
theorem sat_reconcileConfigs (h : Driving obj t a) (hcount : t.partitionCount = obj.spec.partitions)
    (hfactor : t.factor = obj.spec.replicas) (hidle : t.reassigning = false) :
    (reconcileConfigs cfg obj obj.topicName topicId).Sat troubled
      (Sound obj (obj.status >>= (·.observedGeneration))) (fun _ _ => True) a := by
  unfold reconcileConfigs
  refine fun c => ⟨h.sound c nofun, ?_⟩
  have hsame : (troubled (.admin (.describeConfigs obj.topicName)) c a).2 = a :=
    troubled_same (attempted_same _ _ _)
  rw [hsame]
  generalize hanswer : (troubled (.admin (.describeConfigs obj.topicName)) c a).1 = described
  rcases described with e | (_ | (e | overrides))
  · trivial
  · trivial
  · trivial
  · obtain rfl := answer_describe h.found hanswer
    change Prog.Sat troubled _ _ (alterConfigs obj.topicName _ >>= _) a
    apply Prog.Sat.bind
    refine (sat_alterConfigs h hcount hfactor hidle).mono (fun _ _ _ hstep => hstep) fun x b hb => ?_
    rcases x with e | (e | (_ | e))
    · trivial
    · trivial
    · exact sat_ready hb.1 (hb.2 rfl) "topic in sync" _
    · exact (sat_report hb.1.observed _ _ _ _).mono (fun _ _ _ hstep => hstep) fun _ _ _ => trivial

theorem sat_reconcileReplicationFactor (h : Driving obj t a) :
    (reconcileReplicationFactor cfg obj obj.topicName topicId).Sat troubled
      (Sound obj (obj.status >>= (·.observedGeneration)))
      (fun x b => x = .ok none → b = a ∧ t.factor = obj.spec.replicas ∧ t.reassigning = false) a := by
  unfold reconcileReplicationFactor
  refine fun c => ⟨h.sound c nofun, ?_⟩
  have hworking := h.admin c (.reconcileTopicReplicationFactor obj.topicName obj.spec.replicas)
  have hreported (reason message : String) (action : Action) :
      (patchStatus obj "False" reason message topicId false >>= fun _ => pure (some action)).Sat
        troubled (Sound obj (obj.status >>= (·.observedGeneration)))
        (fun x b => x = .ok none → b = a ∧ t.factor = obj.spec.replicas ∧ t.reassigning = false)
        (troubled (.admin (.reconcileTopicReplicationFactor obj.topicName obj.spec.replicas)) c a).2 :=
    (sat_report hworking.observed _ _ _ _).mono (fun _ _ _ hstep => hstep) fun y b hy hnone => by
      cases hy none hnone
  generalize hanswer : (troubled (.admin (.reconcileTopicReplicationFactor obj.topicName
    obj.spec.replicas)) c a).1 = result at hreported ⊢
  rcases result with (⟨api, e⟩ | ⟨transport, text⟩) | status
  · exact hreported _ _ _
  · exact nofun
  · cases status with
    | inSync =>
      obtain ⟨hsame, hfactor, hidle⟩ := answer_replication h.found hanswer
      exact fun _ => ⟨troubled_same hsame, hfactor, hidle⟩
    | reassignmentInProgress => exact hreported _ _ _
    | reassignmentSubmitted => exact hreported _ _ _

theorem sat_growPartitions (h : Driving obj t a) {cur : TopicMetadata}
    (hcur : cur.partitionCount = t.partitionCount) (hle : ¬ cur.partitionCount > obj.spec.partitions) :
    (growPartitions obj obj.topicName cur).Sat troubled
      (Sound obj (obj.status >>= (·.observedGeneration)))
      (fun x b => Working obj b ∧ (x = .ok (.ok none) →
        Driving obj { t with partitionCount := obj.spec.partitions } b)) a := by
  unfold growPartitions
  split
  · rename_i hlt
    refine fun c => ⟨⟨fun name count u hrequest hfound => ?_, .inl (h.admin c _).observed⟩,
      h.admin c _, fun hok => ?_⟩
    · cases hrequest
      cases h.found.symm.trans hfound
      exact (hcur ▸ hlt).le
    · exact ⟨h.admin c _, answer_grow h.found (Except.ok.inj hok), h.described⟩
  · rename_i hge
    refine ⟨h.toWorking, fun _ => ⟨h.toWorking, ?_, h.described⟩⟩
    have hcount : t.partitionCount = obj.spec.partitions := by omega
    rw [h.found, ← hcount]

/-- A topic that the brokers describe: its partitions, then its replicas, then its configs. -/
theorem sat_syncTopic (h : Driving obj t a) {cur : TopicMetadata}
    (hcur : cur.partitionCount = t.partitionCount) :
    (syncTopic cfg obj obj.topicName cur).Sat troubled
      (Sound obj (obj.status >>= (·.observedGeneration))) (fun _ _ => True) a := by
  unfold syncTopic
  split
  · exact (sat_report h.toWorking.observed _ _ _ _).mono (fun _ _ _ hstep => hstep) fun _ _ _ => trivial
  · rename_i hle
    apply Prog.Sat.bind
    refine (sat_growPartitions h hcur hle).mono (fun _ _ _ hstep => hstep) fun x b hb => ?_
    rcases x with e | (e | (_ | e))
    · trivial
    · trivial
    · have hdriving := hb.2 rfl
      apply Prog.Sat.bind
      refine (sat_reconcileReplicationFactor hdriving).mono (fun _ _ _ hstep => hstep)
        fun y d hd => ?_
      rcases y with e | (_ | action)
      · trivial
      · obtain ⟨rfl, hfactor, hidle⟩ := hd rfl
        exact sat_reconcileConfigs hdriving rfl hfactor hidle
      · trivial
    · exact (sat_report hb.1.observed _ _ _ _).mono (fun _ _ _ hstep => hstep) fun _ _ _ => trivial

theorem sat_createTopic (h : Working obj a) :
    (createTopic cfg obj obj.topicName).Sat troubled
      (Sound obj (obj.status >>= (·.observedGeneration))) (fun _ _ => True) a := by
  unfold createTopic
  refine fun c => ⟨h.sound c nofun, ?_⟩
  have hworking := h.admin c (.createTopics ⟨obj.topicName, obj.spec.partitions, obj.spec.replicas,
    obj.spec.config.getD ∅⟩)
  generalize hanswer : (troubled (.admin (.createTopics ⟨obj.topicName, obj.spec.partitions,
    obj.spec.replicas, obj.spec.config.getD ∅⟩)) c a).1 = result
  rcases result with e | outcome
  · trivial
  · obtain ⟨error, topicId⟩ := outcome
    cases error with
    | some e => exact (sat_report hworking.observed _ _ _ _).mono (fun _ _ _ hstep => hstep) fun _ _ _ => trivial
    | none =>
      have hcreated := answer_create hanswer rfl
      exact sat_ready hworking ⟨_, hcreated, rfl, rfl, rfl, rfl, rfl⟩ "topic created" _

/-! ## The pass -/

theorem deleteTopic_keeps (bootstrap topicName : String) :
    (deleteTopic obj bootstrap topicName).Makes (Keeps before) := by
  apply Prog.makes_ite
  · trivial
  · refine ⟨trivial, fun connected => ?_⟩
    cases connected with
    | error e => trivial
    | ok u => exact ⟨trivial, fun _ => trivial⟩

/-- A pass that goes on to the brokers has changed nothing. -/
def Prepared (obj : KafkaTopic) (w : World Topics) (x : Except ReconcileError TopicPreparation)
    (v : World Topics) : Prop :=
  ∀ cluster bootstrap name, x = .ok (.ready cluster bootstrap name) →
    v = w ∧ name = obj.topicName ∧ Working obj v

/-- A prologue that ends the pass. -/
theorem sat_stopped (h : a.observed = obj.status >>= (·.observedGeneration))
    (value reason message : String) (action : Action) :
    (patchStatus obj value reason message none false >>= fun _ =>
      pure (TopicPreparation.done action)).Sat troubled
      (Sound obj (obj.status >>= (·.observedGeneration))) (Prepared obj w) a := by
  refine (sat_report h value reason message _).mono (fun _ _ _ hstep => hstep) fun y b hy => ?_
  intro cluster bootstrap name hready
  cases hy _ hready

theorem sat_finalizers {finalizers : List String} {action : Action}
    (h : a.observed = obj.status >>= (·.observedGeneration)) :
    (setFinalizers finalizers >>= fun _ => pure (TopicPreparation.done action)).Sat troubled
      (Sound obj (obj.status >>= (·.observedGeneration))) (Prepared obj w) a := by
  refine fun c => ⟨(keeps_troubled (r := .setFinalizers finalizers) trivial h).1, ?_⟩
  cases (troubled (.setFinalizers finalizers) c a).1 with
  | ok u => exact nofun
  | error e => exact nofun

theorem sat_getKafka (cluster : String) (h : w.observed = before) :
    (getKafka cluster).Sat troubled (Sound obj before) (fun _ v => v = w) w := by
  refine fun c => ⟨(keeps_troubled (r := .getKafka cluster) trivial h).1, ?_⟩
  have hsame : (troubled (.getKafka cluster) c w).2 = w := answerRead_world _ _ _
  rw [hsame]
  cases (troubled (.getKafka cluster) c w).1 with
  | error e => rfl
  | ok kafka => rfl

theorem sat_prepareTopic (htopic : w.topic = obj) :
    (prepareTopic cfg printable obj).Sat troubled
      (Sound obj (obj.status >>= (·.observedGeneration))) (Prepared obj w) w := by
  have hobserved : w.observed = obj.status >>= (·.observedGeneration) := by
    rw [World.observed, htopic]
  unfold prepareTopic
  cases obj.cluster? with
  | none => exact sat_stopped hobserved _ _ _ _
  | some cluster =>
    cases validateKafkaTopicName printable obj.topicName with
    | error message => exact sat_stopped hobserved _ _ _ _
    | ok u =>
      apply Prog.Sat.bind
      refine (sat_getKafka cluster hobserved).mono (fun _ _ _ hstep => hstep) fun x v hsame => ?_
      subst hsame
      cases x with
      | error e => exact nofun
      | ok kafka =>
        dsimp only
        cases kafka >>= operatorListenerBootstrap with
        | none => exact sat_stopped hobserved _ _ _ _
        | some bootstrap =>
          dsimp only
          split
          · apply Prog.Sat.bind
            refine ((deleteTopic_keeps bootstrap obj.topicName).stage
              (I := fun b => b.observed = obj.status >>= (·.observedGeneration))
              (fun _ _ _ hr hb => keeps_troubled hr hb) hobserved).mono (fun _ _ _ hstep => hstep)
              fun x b hb => ?_
            cases x with
            | error e => exact nofun
            | ok u => exact sat_finalizers hb
          · rename_i hlive
            split
            · exact sat_finalizers hobserved
            · rename_i hfinalizer
              intro cluster bootstrap name hready
              cases hready
              exact ⟨rfl, rfl, htopic, by simpa using hlive, by simpa using hfinalizer⟩

theorem sat_reconcileInner (htopic : w.topic = obj) :
    (reconcileInner cfg printable obj).Sat troubled
      (Sound obj (obj.status >>= (·.observedGeneration))) (fun _ _ => True) w := by
  unfold reconcileInner
  apply Prog.Sat.bind
  refine (sat_prepareTopic htopic).mono (fun _ _ _ hstep => hstep) fun x v hprepared => ?_
  cases x with
  | error e => trivial
  | ok prepared =>
    cases prepared with
    | done action => trivial
    | ready cluster bootstrap name =>
      obtain ⟨-, rfl, hworking⟩ := hprepared cluster bootstrap name rfl
      refine fun c => ⟨hworking.sound c nofun, ?_⟩
      have hconnected := hworking.admin c (.connect bootstrap)
      generalize troubled (.admin (.connect bootstrap)) c v = connected at hconnected ⊢
      obtain ⟨answer, a⟩ := connected
      cases answer with
      | error e => trivial
      | ok u =>
        refine fun c => ⟨hconnected.sound c nofun, ?_⟩
        have hsame : (troubled (.admin (.metadata obj.topicName)) c a).2 = a :=
          troubled_same (attempted_same _ _ _)
        rw [hsame]
        generalize hanswer : (troubled (.admin (.metadata obj.topicName)) c a).1 = described
        cases described with
        | error e => trivial
        | ok topics =>
          dsimp only [Prog.bind]
          cases hcur : current? topics obj.topicName with
          | none => exact sat_createTopic hconnected
          | some cur =>
            obtain ⟨t, hfound, hdescribed, hcount⟩ := answer_metadata hanswer hcur
            exact sat_syncTopic ⟨hconnected, hfound, hdescribed⟩ hcount

/-! ## A further pass -/

/-- The brokers stay as they are. -/
def Untouched (a : World Topics) (r : Req) (b : World Topics) : Prop :=
  ¬ Mutates r ∧ b.brokers = a.brokers

/-- The requests that change no topic. -/
def Reads : Req → Prop
  | .getKafka _ => True
  | .patchStatus _ => True
  | .admin (.connect _) => True
  | .admin (.metadata _) => True
  | .admin (.describeConfigs _) => True
  | _ => False

theorem untouched_troubled {r : Req} (hr : Reads r) : Untouched a r (troubled r c a).2 := by
  cases r with
  | getKafka name => exact ⟨id, congrArg World.brokers (answerRead_world _ _ _)⟩
  | patchStatus status =>
    rcases patch_cases status c a with h | h
    · rw [h]
      exact ⟨id, rfl⟩
    · rw [h]
      exact ⟨id, rfl⟩
  | setFinalizers finalizers => exact hr.elim
  | admin r =>
    cases r with
    | connect bootstrap => exact ⟨id, attempted_same _ _ _⟩
    | metadata name => exact ⟨id, attempted_same _ _ _⟩
    | describeConfigs name => exact ⟨id, attempted_same _ _ _⟩
    | createTopics spec => exact hr.elim
    | deleteTopics name => exact hr.elim
    | createPartitions name count => exact hr.elim
    | reconcileTopicReplicationFactor name replicas => exact hr.elim
    | incrementalAlterConfigs name ops => exact hr.elim

theorem sat_reads {α : Type} {p : Op α} (h : p.Makes Reads) (a : World Topics) :
    p.Sat troubled Untouched (fun _ (b : World Topics) => b.brokers = a.brokers) a := by
  refine h.stage (I := fun (b : World Topics) => b.brokers = a.brokers) (fun b r c hr hb => ?_) rfl
  have huntouched := @untouched_troubled c b r hr
  exact ⟨huntouched, huntouched.2.trans hb⟩

theorem patchStatus_reads {α : Type} (value reason message : String) (advance : Bool) (x : α) :
    (patchStatus obj value reason message topicId advance >>= fun _ => pure x).Makes Reads :=
  Prog.Makes.bind ⟨trivial, kube_keeps⟩ fun _ => trivial

theorem prepareTopic_reads (hlive : obj.deleting = false) (hfinalizer : obj.hasFinalizer = true) :
    (prepareTopic cfg printable obj).Makes Reads := by
  unfold prepareTopic
  cases obj.cluster? with
  | none => exact patchStatus_reads _ _ _ _ _
  | some cluster =>
    cases validateKafkaTopicName printable obj.topicName with
    | error message => exact patchStatus_reads _ _ _ _ _
    | ok u =>
      apply Prog.Makes.bind
      · exact ⟨trivial, kube_keeps⟩
      intro kafka
      cases kafka >>= operatorListenerBootstrap with
      | none => exact patchStatus_reads _ _ _ _ _
      | some bootstrap =>
        dsimp only
        rw [hlive, hfinalizer]
        trivial

theorem current?_metadata (hfound : b.topic? name = some t) (herror : t.error = none) :
    current? (b.metadata name) name = some ⟨name, none, some t.topicId, t.partitionCount⟩ := by
  rw [Topics.metadata, hfound]
  simp [current?, herror, Option.filter]

theorem diffConfigs_self (configs : BTreeMap String) : diffConfigs configs configs = [] := by
  have hnil := MapDiff.diff_eq_nil_iff.mpr (Eq.refl configs)
  rw [← toChange_diffConfigs] at hnil
  exact List.map_eq_nil_iff.mp hnil

/-- The configs of a topic in sync need no change. -/
theorem sat_reconcileConfigs_synced (hfound : a.brokers.topic? obj.topicName = some t)
    (hconfigs : t.configs = obj.spec.config.getD ∅) :
    (reconcileConfigs cfg obj obj.topicName topicId).Sat troubled Untouched (fun _ _ => True) a := by
  unfold reconcileConfigs
  refine fun c => ⟨untouched_troubled (r := .admin (.describeConfigs obj.topicName)) trivial, ?_⟩
  generalize hanswer : (troubled (.admin (.describeConfigs obj.topicName)) c a).1 = described
  rcases described with e | (_ | (e | overrides))
  · trivial
  · trivial
  · trivial
  · rw [answer_describe hfound hanswer, hconfigs]
    dsimp only [Prog.bind]
    rw [diffConfigs_self, alterConfigs, if_pos rfl]
    exact (sat_reads (patchStatus_reads _ _ _ _ _) _).mono (fun _ _ _ hstep => hstep)
      fun _ _ _ => trivial

theorem answer_replication_synced {replicas : Int} (hfound : b.topic? name = some t)
    (hfactor : t.factor = replicas) (hidle : t.reassigning = false) :
    topicAnswer c (.reconcileTopicReplicationFactor name replicas) b = attempted c .inSync b b := by
  unfold topicAnswer
  dsimp only
  rw [hfound]
  dsimp only
  rw [hidle, if_neg Bool.false_ne_true, if_pos hfactor]

/-- The replicas of a topic in sync need no change. -/
theorem sat_replication_synced (hfound : a.brokers.topic? obj.topicName = some t)
    (hfactor : t.factor = obj.spec.replicas) (hidle : t.reassigning = false) :
    (reconcileReplicationFactor cfg obj obj.topicName topicId).Sat troubled Untouched
      (fun _ b => b.brokers = a.brokers) a := by
  unfold reconcileReplicationFactor
  intro c
  have hanswer := answer_replication_synced (c := c) hfound hfactor hidle
  have hsame : (troubled (.admin (.reconcileTopicReplicationFactor obj.topicName
      obj.spec.replicas)) c a).2 = a :=
    troubled_same (by rw [hanswer, attempted_same])
  refine ⟨⟨id, congrArg World.brokers hsame⟩, ?_⟩
  rw [hsame]
  generalize hresult : (troubled (.admin (.reconcileTopicReplicationFactor obj.topicName
    obj.spec.replicas)) c a).1 = result
  rcases result with (⟨api, e⟩ | ⟨transport, text⟩) | status
  · exact sat_reads (patchStatus_reads _ _ _ _ _) a
  · rfl
  · rw [troubled, hanswer] at hresult
    obtain rfl := (attempted_of_ok hresult).1
    rfl

theorem sat_syncTopic_synced (hsync : InSync obj a.brokers) {cur : TopicMetadata}
    (hcur : ∀ t, a.brokers.topic? obj.topicName = some t → cur.partitionCount = t.partitionCount) :
    (syncTopic cfg obj obj.topicName cur).Sat troubled Untouched (fun _ _ => True) a := by
  obtain ⟨t, hfound, -, hcount, hfactor, hidle, hconfigs⟩ := hsync
  have hcur' : cur.partitionCount = obj.spec.partitions := (hcur t hfound).trans hcount
  unfold syncTopic growPartitions
  rw [if_neg (by omega), if_neg (by omega)]
  apply Prog.Sat.bind
  apply Prog.Sat.bind
  refine (sat_replication_synced hfound hfactor hidle).mono (fun _ _ _ hstep => hstep)
    fun x b hbrokers => ?_
  rcases x with e | (_ | action)
  · trivial
  · exact sat_reconcileConfigs_synced (hbrokers ▸ hfound) hconfigs
  · trivial

/-- A pass over a converged topic changes none, whatever fails. -/
theorem sat_reconcileInner_converged (hworking : Working obj w) (hsync : InSync obj w.brokers) :
    (reconcileInner cfg printable obj).Sat troubled Untouched (fun _ _ => True) w := by
  unfold reconcileInner
  apply Prog.Sat.bind
  have hprepare : (prepareTopic cfg printable obj).Makes Reads :=
    prepareTopic_reads hworking.live hworking.finalizer
  have hreads := sat_reads hprepare w
  refine ((sat_prepareTopic hworking.topic).and hreads).mono (fun _ _ _ hstep => hstep.2)
    fun x v hprepared => ?_
  cases x with
  | error e => trivial
  | ok prepared =>
    cases prepared with
    | done action => trivial
    | ready cluster bootstrap name =>
      obtain ⟨rfl, rfl, -⟩ := hprepared.1 cluster bootstrap name rfl
      refine fun c => ⟨untouched_troubled (r := .admin (.connect bootstrap)) trivial, ?_⟩
      have hsame : (troubled (.admin (.connect bootstrap)) c v).2 = v :=
        troubled_same (attempted_same _ _ _)
      rw [hsame]
      cases (troubled (.admin (.connect bootstrap)) c v).1 with
      | error e => trivial
      | ok u =>
        refine fun c => ⟨untouched_troubled (r := .admin (.metadata obj.topicName)) trivial, ?_⟩
        have hsame : (troubled (.admin (.metadata obj.topicName)) c v).2 = v :=
          troubled_same (attempted_same _ _ _)
        rw [hsame]
        generalize hanswer : (troubled (.admin (.metadata obj.topicName)) c v).1 = described
        cases described with
        | error e => trivial
        | ok topics =>
          have htopics : topics = v.brokers.metadata obj.topicName := (attempted_of_ok hanswer).1
          obtain ⟨t, hfound, herror, -⟩ := id hsync
          dsimp only [Prog.bind]
          rw [htopics, current?_metadata hfound herror]
          refine sat_syncTopic_synced hsync fun u hu => ?_
          cases hfound.symm.trans hu
          rfl

/-- The diff of the configs is exact. In every pass the partitions never shrink, and the observed
generation changes only where the topic is as its spec says, so that a further pass, whatever fails,
changes nothing. -/
theorem topic_converges (cfg : Config) (printable : Char → Bool) (w : World Topics) :
    (∀ current desired : BTreeMap String,
      (diffConfigs current desired).foldl AlterConfigOp.apply current = desired ∧
      ((diffConfigs current desired).map AlterConfigOp.key).Nodup ∧
      (diffConfigs current desired = [] → current = desired)) ∧
    ∀ calls : List Call,
      (∀ st ∈ (reconcileInner cfg printable w.topic).trace troubled calls w, ∀ name count t,
        st.req = .admin (.createPartitions name count) →
        st.before.brokers.topic? name = some t → t.partitionCount ≤ count) ∧
      ∀ v ∈ (reconcileInner cfg printable w.topic).after troubled calls w, v.observed ≠ w.observed →
        InSync w.topic v.brokers ∧
        ∀ calls', ∀ st ∈ (reconcileInner cfg printable v.topic).trace troubled calls' v,
          ¬ Mutates st.req ∧ st.after.brokers = st.before.brokers := by
  refine ⟨fun current desired => ⟨foldl_diffConfigs current desired, nodup_diffConfigs current desired,
    eq_of_diffConfigs_nil⟩, fun calls => ?_⟩
  have hsound := (@sat_reconcileInner cfg printable w.topic w rfl).trace calls
  constructor
  · exact fun st hst name count t => (hsound st hst).grows name count t
  · intro v hv hchanged
    obtain ⟨st, hst, rfl⟩ := List.mem_map.mp hv
    have hconverged := (hsound st hst).observed.resolve_left hchanged
    obtain ⟨⟨status, htopic⟩, hlive, hfinalizer, hsync⟩ := hconverged
    refine ⟨hsync, fun calls' => ?_⟩
    have hworking : Working st.after.topic st.after := by
      rw [htopic]
      exact ⟨htopic, hlive, hfinalizer⟩
    refine Prog.Sat.trace (sat_reconcileInner_converged hworking ?_) calls'
    rw [htopic]
    exact hsync

end Topic
