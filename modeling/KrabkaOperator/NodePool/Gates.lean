-- SUMMARY: What lets a pass through the gates of a shrink: the state that it finds, and the answers that it has read.
import KrabkaOperator.NodePool.Rules

/-!
# The gates of a shrink

The gates are early returns. A pass that gets through them has changed nothing so
far. Each gate has one lemma that says when it is open.
-/

namespace NodePool

open Kube Crd Operator

/-! ## What a pass has read -/

/-- A pass has read that no partition and no reassignment mentions a removed broker. -/
def DrainRead (log : Prog.Dialogue Resp) (start live desired : Int) : Prop :=
  ∃ assignments reassignments,
    ⟨.describePartitionAssignments, .ok assignments⟩ ∈ log ∧
    ⟨.listPartitionReassignments, .ok reassignments⟩ ∈ log ∧
    ∀ id, Removed start live desired id →
      (∀ a ∈ assignments, id ∉ a.replicas) ∧
      (∀ a ∈ reassignments, id ∉ a.replicas ∧ id ∉ a.addingReplicas ∧ id ∉ a.removingReplicas)

/-- A pass has read that no voter is among the removed nodes. -/
def VotersRead (log : Prog.Dialogue Resp) (start live desired : Int) : Prop :=
  ∃ quorum, ⟨.describeMetadataQuorum, .ok quorum⟩ ∈ log ∧
    ∀ v ∈ quorum.voters, ¬ (start + desired ≤ v.nodeId ∧ v.nodeId < start + live)

theorem DrainRead.mono {log log' : Prog.Dialogue Resp} {start live desired : Int}
    (h : DrainRead log start live desired) (hsub : log ⊆ log') :
    DrainRead log' start live desired := by
  obtain ⟨as, rs, has, hrs, hfree⟩ := h
  exact ⟨as, rs, hsub has, hsub hrs, hfree⟩

theorem VotersRead.mono {log log' : Prog.Dialogue Resp} {start live desired : Int}
    (h : VotersRead log start live desired) (hsub : log ⊆ log') :
    VotersRead log' start live desired := by
  obtain ⟨quorum, hq, hfree⟩ := h
  exact ⟨quorum, hsub hq, hfree⟩

theorem DrainRead.of_le {log : Prog.Dialogue Resp} {start live live' desired : Int}
    (h : DrainRead log start live' desired) (hle : live ≤ live') :
    DrainRead log start live desired := by
  obtain ⟨as, rs, has, hrs, hfree⟩ := h
  refine ⟨as, rs, has, hrs, fun id hid => hfree id ?_⟩
  obtain ⟨hlo, hhi, hmin, hmax⟩ := hid
  exact ⟨hlo, by omega, hmin, hmax⟩

theorem VotersRead.of_le {log : Prog.Dialogue Resp} {start live live' desired : Int}
    (h : VotersRead log start live' desired) (hle : live ≤ live') :
    VotersRead log start live desired := by
  obtain ⟨quorum, hq, hfree⟩ := h
  exact ⟨quorum, hq, fun v hv hrange => hfree v hv (by omega)⟩

theorem PartitionAssignment.not_mem_of_uses {a : PartitionAssignment} {brokers : List Int}
    (h : a.uses brokers = false) {id : Int} (hid : id ∈ brokers) : id ∉ a.replicas := by
  intro hmem
  have hno : ∀ x ∈ a.replicas, x ∉ brokers := by simpa [uses] using h
  exact hno id hmem hid

theorem PartitionAssignment.not_mem_of_mentions {a : PartitionAssignment} {brokers : List Int}
    (h : a.mentions brokers = false) {id : Int} (hid : id ∈ brokers) :
    id ∉ a.replicas ∧ id ∉ a.addingReplicas ∧ id ∉ a.removingReplicas := by
  have hno : ∀ x ∈ a.replicas ++ a.addingReplicas ++ a.removingReplicas, x ∉ brokers := by
    intro x hx hb
    have hany : a.mentions brokers = true := by
      unfold mentions
      exact List.any_eq_true.mpr ⟨x, hx, by simpa using hb⟩
    rw [hany] at h
    cases h
  refine ⟨fun h => hno id ?_ hid, fun h => hno id ?_ hid, fun h => hno id ?_ hid⟩ <;> simp [h]

theorem drainRead_of_brokers {log : Prog.Dialogue Resp} {start live desired : Int}
    {assignments reassignments : List PartitionAssignment}
    (has : ⟨.describePartitionAssignments, .ok assignments⟩ ∈ log)
    (hrs : ⟨.listPartitionReassignments, .ok reassignments⟩ ∈ log)
    (huses : assignments.find? (·.uses (removedBrokerIds start live desired)) = none)
    (hmentions : reassignments.any (·.mentions (removedBrokerIds start live desired)) = false) :
    DrainRead log start live desired := by
  refine ⟨assignments, reassignments, has, hrs, fun id hid => ⟨fun a ha => ?_, fun a ha => ?_⟩⟩
  · have hfree := List.find?_eq_none.mp huses a ha
    exact PartitionAssignment.not_mem_of_uses (by simpa using hfree) hid.mem
  · have hfree := List.any_eq_false.mp hmentions a ha
    exact PartitionAssignment.not_mem_of_mentions (by simpa using hfree) hid.mem

/-- A fold that finds something at each element finds nothing only in the empty list. -/
theorem eq_nil_of_foldl_eq_none {α β : Type} {f : Option β → α → Option β} {xs : List α}
    (hf : ∀ best a, f best a ≠ none) (h : xs.foldl f none = none) : xs = [] := by
  rcases xs.eq_nil_or_concat with hnil | ⟨ys, a, hsnoc⟩
  · exact hnil
  · rw [hsnoc, List.concat_eq_append, List.foldl_append] at h
    exact absurd h (hf _ a)

/-- The last voter of a range is missing only when no voter is in the range. -/
theorem lastVoterIn_eq_none {voters : List Voter} {first last : Int}
    (h : lastVoterIn voters first last = none) :
    ∀ v ∈ voters, ¬ (first ≤ v.nodeId ∧ v.nodeId ≤ last) := by
  intro v hv hrange
  have hempty : (voters.filter fun v => first ≤ v.nodeId ∧ v.nodeId ≤ last) = [] := by
    refine eq_nil_of_foldl_eq_none (fun best a => ?_) h
    cases best with
    | none => simp
    | some b =>
      dsimp only
      split <;> simp
  have hmem : v ∈ voters.filter fun v => first ≤ v.nodeId ∧ v.nodeId ≤ last := by
    simpa using ⟨hv, hrange⟩
  rw [hempty] at hmem
  cases hmem

/-! ## The gates -/

/-- Every step of a logged run is allowed. -/
abbrev anyStep : Logged → Req → Logged → Prop := fun _ _ _ => True

theorem sat_any {α : Type} (p : Op α) (s : Logged) :
    Prog.Sat (Prog.logged answer) anyStep (fun _ _ => True) p s :=
  (Prog.sat_logged_subset p s).mono (fun _ _ _ _ => trivial) fun _ _ _ => trivial

/-- A gate that ends a pass lets nothing through. -/
theorem sat_closed {p : Op (Option Action)} (h : Prog.Returns (· ≠ none) p) (s : Logged)
    (P : Logged → Prop) :
    Prog.Sat (Prog.logged answer) anyStep (fun x b => x = .ok none → P b) p s :=
  (h.sat s).mono (fun _ _ _ h => h) fun _ _ hx heq => absurd rfl (hx none heq)

theorem patchBrokerDrainCondition_closed {pool reason message : String} :
    Prog.Returns (· ≠ none) (some <$> patchBrokerDrainCondition pool reason message) :=
  Prog.Returns.map fun _ h => nomatch h

/-- What lets a shrink through the drain. -/
structure DrainOpen (w : World) (pool : KafkaNodePool) (cluster : String)
    (start live desired : Int) : Prop where
  proposal : ∃ r, w.rebalance? (brokerDrainName cluster pool.name desired) = some r ∧
    managedDrainMatches r (removedBrokerIds start live desired) (drainAuthorization cluster) ∧
    r.currentState = .ready ∧ (r.status >>= (·.observedGeneration)) = r.generation
  recorded : ∀ id ∈ removedBrokerIds start live desired, id ∈ recordedUnregistrations pool

theorem checkRemoved_sat {pool : KafkaNodePool} {name : String} {rebalance : KafkaRebalance}
    {start live desired : Int} (s : Logged) :
    Prog.Sat (Prog.logged answer) anyStep
      (fun x b => x = .ok none → b.1 = s.1 ∧ DrainRead b.2 start live desired ∧
        ∀ id ∈ removedBrokerIds start live desired, id ∈ recordedUnregistrations pool)
      (checkRemoved pool name rebalance (removedBrokerIds start live desired)) s := by
  obtain ⟨w, l⟩ := s
  unfold checkRemoved
  refine sat_effect (fun _ => trivial) (fun _ _ h => nomatch h) fun l => ?_
  refine sat_effect (fun _ => trivial) (fun _ _ h => nomatch h) fun l => ?_
  refine sat_describePartitionAssignments (fun _ => trivial) (fun _ _ h => nomatch h) ?_
  split
  · exact sat_closed (Prog.Returns.bind fun _ => patchBrokerDrainCondition_closed) _ _
  · next hassignments =>
    refine sat_listPartitionReassignments (fun _ => trivial) (fun _ _ h => nomatch h) ?_
    split
    · exact sat_closed patchBrokerDrainCondition_closed _ _
    · next hreassignments =>
      dsimp only
      split
      · exact sat_closed (Prog.Returns.bind fun _ => Prog.Returns.bind fun _ =>
          patchBrokerDrainCondition_closed) _ _
      · next hrecorded =>
        refine fun _ => ⟨rfl, ?_, ?_⟩
        · refine drainRead_of_brokers ?_ ?_ hassignments (Bool.eq_false_iff.mpr hreassignments)
          · simp
          · simp
        · intro id hid
          simpa using List.find?_eq_none.mp hrecorded id hid

theorem awaitProposal_sat {pool name : String} {rebalance : KafkaRebalance} {brokers : List Int}
    (s : Logged) :
    Prog.Sat (Prog.logged answer) anyStep
      (fun x b => x = .ok none → b.1 = s.1 ∧ rebalance.currentState = .ready ∧
        (rebalance.status >>= (·.observedGeneration)) = rebalance.generation)
      (awaitProposal pool name rebalance brokers) s := by
  unfold awaitProposal
  split
  · exact sat_closed (Prog.Returns.bind fun _ => patchBrokerDrainCondition_closed) _ _
  · exact sat_closed patchBrokerDrainCondition_closed _ _
  · exact sat_closed patchBrokerDrainCondition_closed _ _
  · exact sat_closed patchBrokerDrainCondition_closed _ _
  · exact sat_closed patchBrokerDrainCondition_closed _ _
  · next hready =>
    split
    · exact sat_closed patchBrokerDrainCondition_closed _ _
    · next hgen => exact fun _ => ⟨rfl, hready, not_not.mp hgen⟩

/-- The drain lets a shrink through only when it is open, and after the reads. -/
theorem reconcileBrokerDrain_sat {pool : KafkaNodePool} {cluster : String}
    {start live desired : Int} (hshrink : desired < live) (s : Logged) :
    Prog.Sat (Prog.logged answer) anyStep
      (fun x b => x = .ok none → b.1 = s.1 ∧ DrainRead b.2 start live desired ∧
        DrainOpen s.1 pool cluster start live desired)
      (reconcileBrokerDrain pool cluster live desired start) s := by
  obtain ⟨w, l⟩ := s
  unfold reconcileBrokerDrain
  rw [if_neg (by omega)]
  refine sat_getRebalance (fun _ => trivial) (fun _ _ h => nomatch h) fun l => ?_
  split
  · exact sat_closed (Prog.Returns.bind fun _ => patchBrokerDrainCondition_closed) _ _
  · next rebalance hfound =>
    split
    · exact sat_closed patchBrokerDrainCondition_closed _ _
    · next hmatches =>
      refine Prog.Sat.bind ((awaitProposal_sat (w, l)).mono (fun _ _ _ h => h) ?_)
      intro x b hx
      cases x with
      | error e => exact fun h => nomatch h
      | ok waited =>
        cases waited with
        | some action => exact fun h => nomatch h
        | none =>
          obtain ⟨hw, hready, hgen⟩ := hx rfl
          refine (checkRemoved_sat b).mono (fun _ _ _ h => h) fun y b' hy hnone => ?_
          obtain ⟨hb, hread, hrecorded⟩ := hy hnone
          exact ⟨hb.trans hw, hread, ⟨rebalance, hfound, by simpa using hmatches, hready, hgen⟩,
            hrecorded⟩

theorem removeNextVoter_sat {pool : String} {start live desired first last : Int}
    (hfirst : first ≤ start + desired) (hlast : start + live ≤ last + 1) (s : Logged) :
    Prog.Sat (Prog.logged answer) anyStep
      (fun x b => x = .ok none → b.1 = s.1 ∧ VotersRead b.2 start live desired)
      (removeNextVoter pool first last) s := by
  obtain ⟨w, l⟩ := s
  unfold removeNextVoter
  refine sat_effect (fun _ => trivial) (fun _ _ h => nomatch h) fun l => ?_
  refine sat_effect (fun _ => trivial) (fun _ _ h => nomatch h) fun l => ?_
  refine sat_effect (fun _ => trivial) (fun _ _ h => nomatch h) fun l => ?_
  refine sat_describeMetadataQuorum (fun _ => trivial) (fun _ _ h => nomatch h) ?_
  split
  · next hnone =>
    refine fun _ => ⟨rfl, w.quorum, by simp, fun v hv hrange => ?_⟩
    exact lastVoterIn_eq_none hnone v hv (by omega)
  · split
    · exact sat_closed (Prog.Returns.bind fun _ => Prog.returns_pure (Option.some_ne_none _)) _ _
    · exact sat_closed (Prog.Returns.bind fun _ => Prog.Returns.bind fun _ =>
        Prog.Returns.bind fun _ => Prog.returns_pure (Option.some_ne_none _)) _ _

/-- The gate of a deletion is the one for the removal of all nodes. -/
theorem removeDeletedVoter_sat {pool : String} {start replicas : Int} (s : Logged) :
    Prog.Sat (Prog.logged answer) anyStep
      (fun x b => x = .ok none → b.1 = s.1 ∧ VotersRead b.2 start replicas 0)
      (removeDeletedVoter pool start replicas) s := by
  obtain ⟨w, l⟩ := s
  unfold removeDeletedVoter
  refine sat_effect (fun _ => trivial) (fun _ _ h => nomatch h) fun l => ?_
  refine sat_effect (fun _ => trivial) (fun _ _ h => nomatch h) fun l => ?_
  refine sat_effect_attempt (fun _ => trivial) fun client l => ?_
  cases client with
  | error e => exact fun h => nomatch h
  | ok _ =>
    refine sat_describeMetadataQuorum_attempt (fun _ => trivial) (fun _ _ h => nomatch h) ?_
    dsimp only
    split
    · exact fun h => nomatch h
    · next last hlast =>
      have hadd := (checkedAdd_eq_some.mp (Option.filter_eq_some_iff.mp hlast).1).1
      split
      · next hnone =>
        refine fun _ => ⟨rfl, w.quorum, by simp, fun v hv hrange => ?_⟩
        exact lastVoterIn_eq_none hnone v hv (by omega)
      · split
        · exact sat_closed (Prog.Returns.bind fun _ => Prog.returns_pure (Option.some_ne_none _)) _ _
        · refine sat_closed (Prog.Returns.bind fun removed => ?_) _ _
          cases removed <;> exact Option.some_ne_none _

/-- A gate after a gate: what the first has read stays read. -/
theorem sat_after_gate {p q : Op (Option Action)} {P R : Logged → Prop} {s : Logged}
    (hp : Prog.Sat (Prog.logged answer) anyStep (fun x b => x = .ok none → b.1 = s.1 ∧ P b) p s)
    (hmono : ∀ a b : Logged, b.1 = a.1 → a.2 ⊆ b.2 → P a → P b)
    (hq : ∀ s, Prog.Sat (Prog.logged answer) anyStep (fun x b => x = .ok none → b.1 = s.1 ∧ R b)
      q s) :
    Prog.Sat (Prog.logged answer) anyStep (fun x b => x = .ok none → b.1 = s.1 ∧ P b ∧ R b)
      (p >>= fun x => match x with | some action => pure (some action) | none => q) s := by
  refine Prog.Sat.bind (hp.mono (fun _ _ _ h => h) ?_)
  intro x b hx
  cases x with
  | error e => exact fun h => nomatch h
  | ok found =>
    cases found with
    | some action => exact fun h => nomatch h
    | none =>
      refine ((Prog.sat_logged_subset q b).and (hq b)).mono (fun _ _ _ _ => trivial) ?_
      rintro y b' ⟨hsub, hR⟩ hy
      obtain ⟨hb, hP⟩ := hx rfl
      obtain ⟨hb', hR'⟩ := hR hy
      exact ⟨hb'.trans hb, hmono _ _ hb' hsub hP, hR'⟩

/-! ## The live StatefulSet -/

/-- The replicas of a live StatefulSet. The default of Kubernetes is one. -/
def liveReplicas (live : StatefulSet) : Int := (live.spec >>= (·.replicas)).getD 1

/-- The first node id of a live StatefulSet, with that of the spec as a fallback. -/
def liveStart (pool : KafkaNodePool) (live : StatefulSet) : Int :=
  (observedStatefulsetIdentity live).1.getD pool.spec.nodeIdStart

/-- The roles of a live StatefulSet, with those of the spec as a fallback. -/
def liveRoles (pool : KafkaNodePool) (live : StatefulSet) : RoleMask :=
  (observedStatefulsetIdentity live).2.getD (roleMask pool.spec.roles)

/-- The gates let a pass through to a smaller StatefulSet only when they are open, and
    after the reads. -/
theorem reconcileControllerScaleDown_sat {pool : KafkaNodePool} {cluster : String}
    {live : StatefulSet} (hpos : 1 ≤ pool.spec.replicas)
    (hshrink : pool.spec.replicas < liveReplicas live) (s : Logged) :
    Prog.Sat (Prog.logged answer) anyStep
      (fun x b => x = .ok none → b.1 = s.1 ∧
        ((liveRoles pool live).broker = true →
          DrainRead b.2 (liveStart pool live) (liveReplicas live) pool.spec.replicas ∧
          DrainOpen b.1 pool cluster (liveStart pool live) (liveReplicas live) pool.spec.replicas) ∧
        ((liveRoles pool live).controller = true →
          VotersRead b.2 (liveStart pool live) (liveReplicas live) pool.spec.replicas))
      (reconcileControllerScaleDown pool cluster (some live)) s := by
  unfold reconcileControllerScaleDown
  split
  · next hnone =>
    -- without a count there is one replica, and a valid spec asks for as many
    have hone : liveReplicas live = 1 := by simpa [liveReplicas] using congrArg (·.getD 1) hnone
    omega
  · next n hn =>
    have hlive : liveReplicas live = n := by simpa [liveReplicas] using congrArg (·.getD 1) hn
    rw [if_neg (by omega)]
    refine sat_after_gate
      (P := fun b => (liveRoles pool live).broker = true →
        DrainRead b.2 (liveStart pool live) (liveReplicas live) pool.spec.replicas ∧
        DrainOpen b.1 pool cluster (liveStart pool live) (liveReplicas live) pool.spec.replicas)
      (R := fun b => (liveRoles pool live).controller = true →
        VotersRead b.2 (liveStart pool live) (liveReplicas live) pool.spec.replicas)
      ?_ (fun a b hb hsub h hbroker => ⟨(h hbroker).1.mono hsub, hb ▸ (h hbroker).2⟩) fun s => ?_
    · split
      · rw [hlive]
        refine (reconcileBrokerDrain_sat (by omega) s).mono (fun _ _ _ h => h) fun _ b h hx => ?_
        obtain ⟨hb, hread, hopen⟩ := h hx
        exact ⟨hb, fun _ => ⟨hread, hb ▸ hopen⟩⟩
      · next hbroker => exact fun _ => ⟨rfl, fun hb => absurd hb hbroker⟩
    · split
      · next hcontroller =>
        exact fun _ => ⟨rfl, fun hc => absurd hc (by simpa [liveRoles] using hcontroller)⟩
      · split
        · next first last hfirst hlast =>
          have hf := (checkedAdd_eq_some.mp hfirst).1.symm
          have hl := (checkedAdd_eq_some.mp hlast).1.symm
          change last = liveStart pool live + (n - 1) at hl
          refine (@removeNextVoter_sat _ (liveStart pool live) (liveReplicas live)
            pool.spec.replicas _ _ (le_of_eq hf) (by omega) s).mono (fun _ _ _ h => h)
            fun _ _ h hx => ⟨(h hx).1, fun _ => (h hx).2⟩
        · exact fun h => nomatch h

end NodePool
