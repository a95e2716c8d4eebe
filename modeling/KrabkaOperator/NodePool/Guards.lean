-- SUMMARY: The guard of each request of a pool pass: what the state and the dialogue of the pass are when it makes the request.
import KrabkaOperator.Base.History
import KrabkaOperator.NodePool.Gates

/-!
# Guards

A request of a pass comes after checks. Its guard says what these checks have
established in the state in which the request is made. All that is shown about the
steps of a pool pass comes from the guards.
-/

namespace NodePool

open Kube Crd Operator

/-- A pass has read that the parent is not there or goes away. -/
def ParentGone (log : Prog.Dialogue Resp) : Prop :=
  ∃ name parent, ⟨.getKafka name, .ok parent⟩ ∈ log ∧ (parent.map (·.deleting)).getD true = true

/-- A pool asks for fewer replicas than its live StatefulSet has. -/
structure ShrinkRequested (pool : KafkaNodePool) (w : World) (cluster : String)
    (live : StatefulSet) : Prop where
  cluster_eq : pool.cluster? = some cluster
  live_eq : w.statefulSet? (statefulSetName cluster pool.name) = some live
  lt : pool.spec.replicas < liveReplicas live

/-- The brokers that a pool loses when its live StatefulSet shrinks. -/
def shrinkIds (pool : KafkaNodePool) (live : StatefulSet) : List Int :=
  removedBrokerIds (liveStart pool live) (liveReplicas live) pool.spec.replicas

/-- What lets a pass through to a smaller StatefulSet. -/
structure ShrinkOpen (pool : KafkaNodePool) (s : Logged) (cluster : String) (live : StatefulSet) :
    Prop where
  drained : (liveRoles pool live).broker = true →
    DrainRead s.2 (liveStart pool live) (liveReplicas live) pool.spec.replicas ∧
    DrainOpen s.1 pool cluster (liveStart pool live) (liveReplicas live) pool.spec.replicas
  voters : (liveRoles pool live).controller = true →
    VotersRead s.2 (liveStart pool live) (liveReplicas live) pool.spec.replicas

/-- What is known when a pass makes a request. -/
def Req.Guard (pass : PoolPass) (s : Logged) : Req → Prop
  | .applyStatefulSet desired => ∃ parent, pass.pool.cluster? = some parent.name ∧
      desired = renderStatefulset parent pass ∧
      ∀ live, ShrinkRequested pass.pool s.1 parent.name live →
        ShrinkOpen pass.pool s parent.name live
  | .scaleToZero name => pass.pool.deleting = true ∧
      ∀ live n start roles, s.1.statefulSet? name = some live →
      live.spec >>= (·.replicas) = some n → 0 < n →
      observedStatefulsetIdentity live = (some start, some roles) → ParentGone s.2 ∨
        (roles.broker = true → DrainRead s.2 start n 0) ∧
        (roles.controller = true → VotersRead s.2 start n 0)
  | .getRebalance name => pass.pool.deleting = true ∨ ∃ cluster live,
      ShrinkRequested pass.pool s.1 cluster live ∧
      name = brokerDrainName cluster pass.pool.name pass.pool.spec.replicas
  | .applyRebalance obj => pass.pool.deleting = true ∨ ∃ cluster live,
      ShrinkRequested pass.pool s.1 cluster live ∧ s.1.rebalance? obj.name = none ∧
      obj = drainProposal cluster pass.pool.name pass.pool.spec.replicas (shrinkIds pass.pool live)
  | .deleteRebalance _ => pass.pool.deleting = true
  | .annotateUnregistered name value => name = pass.pool.name ∧ ∃ id, id ∉ s.1.registered ∧
      value = idsText (id :: recordedUnregistrations pass.pool)
  | _ => True

theorem Req.guard_of_kind {pass : PoolPass} {s : Logged} {r : Req} {K : List ReqKind}
    (h : r.kind ∈ K) (hks : .drain ∉ K ∧ .life ∉ K ∧ .sets ∉ K) : r.Guard pass s := by
  cases r with
  | applyStatefulSet desired => exact absurd h hks.2.2
  | scaleToZero name => exact absurd h hks.2.2
  | getRebalance name => exact absurd h hks.1
  | applyRebalance obj => exact absurd h hks.1
  | annotateUnregistered name value => exact absurd h hks.1
  | deleteRebalance name => exact absurd h hks.2.1
  | _ => trivial

/-- Every request meets its guard. -/
abbrev Guarded (pass : PoolPass) : Logged → Req → Logged → Prop := fun a r _ => r.Guard pass a

/-- Parts of a pass that have no guards. -/
theorem MakesKinds.guarded {α : Type} {K : List ReqKind} {p : Op α} (h : MakesKinds K p)
    (hks : .drain ∉ K ∧ .life ∉ K ∧ .sets ∉ K) (pass : PoolPass) (s : Logged) :
    Prog.Sat (Prog.logged answer) (Guarded pass) (fun _ _ => True) p s :=
  h.stage (I := fun _ => True) (fun _ _ _ hr _ => ⟨Req.guard_of_kind hr hks, trivial⟩) trivial

/-- A sequence: the steps of the first part, with what is known of its end. -/
theorem sat_guarded_bind {α β : Type} {p : Op α} {f : α → Op β}
    {P : Except ReconcileError α → Logged → Prop} {pass : PoolPass} {s : Logged}
    (h : Prog.Sat (Prog.logged answer) (Guarded pass) (fun _ _ => True) p s)
    (hp : Prog.Sat (Prog.logged answer) anyStep P p s)
    (hf : ∀ v b, P (.ok v) b → s.2 ⊆ b.2 →
      Prog.Sat (Prog.logged answer) (Guarded pass) (fun _ _ => True) (f v) b) :
    Prog.Sat (Prog.logged answer) (Guarded pass) (fun _ _ => True) (p >>= f) s := by
  have hall := (h.and (Prog.sat_logged_subset p s)).and hp
  refine Prog.Sat.bind (hall.mono (fun _ _ _ h => h.1.1) ?_)
  rintro x b ⟨⟨_, hsub⟩, hP⟩
  cases x with
  | error e => trivial
  | ok v => exact hf v b hP hsub

/-- Reads change nothing. -/
theorem sat_guarded_read {α β : Type} {p : Op α} {f : α → Op β} {pass : PoolPass} {s : Logged}
    (h : MakesKinds [.read] p)
    (hf : ∀ v b, b.1 = s.1 → s.2 ⊆ b.2 →
      Prog.Sat (Prog.logged answer) (Guarded pass) (fun _ _ => True) (f v) b) :
    Prog.Sat (Prog.logged answer) (Guarded pass) (fun _ _ => True) (p >>= f) s := by
  refine sat_guarded_bind (h.guarded (by decide) pass s)
    (h.stage (I := fun b : Logged => b.1 = s.1) (fun a r c hr ha => ⟨trivial, ?_⟩) rfl)
    fun v b hb hsub => hf v b hb hsub
  exact (answer_read (List.mem_singleton.mp hr) c a.1).trans ha

theorem sat_guarded_status {pass : PoolPass} {cond : Condition} {action : Action} (s : Logged) :
    Prog.Sat (Prog.logged answer) (Guarded pass) (fun _ _ => True)
      (patchStatusForPool pass.pool.name cond >>= fun _ => pure action) s :=
  MakesKinds.guarded ((patchStatusForPool_makes (List.mem_singleton.mpr rfl)).bind
    fun _ => makes_pure) (by decide) pass s

/-! ## The drain -/

theorem commandRebalance_guarded {pass : PoolPass} {name command : String} (s : Logged) :
    Prog.Sat (Prog.logged answer) (Guarded pass) (fun _ _ => True) (commandRebalance name command)
      s := by
  rintro ⟨_ | _ | _, clock⟩ <;> exact ⟨trivial, trivial⟩

theorem patchBrokerDrainCondition_guarded {pass : PoolPass} {pool reason message : String}
    (s : Logged) :
    Prog.Sat (Prog.logged answer) (Guarded pass) (fun _ _ => True)
      (some <$> patchBrokerDrainCondition pool reason message) s :=
  MakesKinds.guarded (patchBrokerDrainCondition_makes (List.mem_singleton.mpr rfl)) (by decide)
    pass s

theorem awaitProposal_guarded {pass : PoolPass} {pool name : String} {rebalance : KafkaRebalance}
    {brokers : List Int} (s : Logged) :
    Prog.Sat (Prog.logged answer) (Guarded pass) (fun _ _ => True)
      (awaitProposal pool name rebalance brokers) s := by
  unfold awaitProposal
  split
  · exact sat_guarded_bind (commandRebalance_guarded s) (sat_any _ _)
      fun _ b _ _ => patchBrokerDrainCondition_guarded b
  · exact patchBrokerDrainCondition_guarded s
  · exact patchBrokerDrainCondition_guarded s
  · exact patchBrokerDrainCondition_guarded s
  · exact patchBrokerDrainCondition_guarded s
  · split
    · exact patchBrokerDrainCondition_guarded s
    · trivial

theorem not_mem_unregistered {w : World} {id : Int} : id ∉ w.registered.filter (· ≠ id) := by
  simp

theorem checkRemoved_guarded {pass : PoolPass} {name : String} {rebalance : KafkaRebalance}
    {brokers : List Int} (s : Logged) :
    Prog.Sat (Prog.logged answer) (Guarded pass) (fun _ _ => True)
      (checkRemoved pass.pool name rebalance brokers) s := by
  have hq : ReqKind.read ∈ [ReqKind.read] := List.mem_singleton.mpr rfl
  unfold checkRemoved
  refine sat_guarded_read (effect_makes hq) fun _ s _ _ => ?_
  refine sat_guarded_read (effect_makes hq) fun _ s _ _ => ?_
  refine sat_guarded_read (Prog.makes_request hq fun _ => makes_kube) fun assignments s _ _ => ?_
  split
  · refine sat_guarded_bind (P := fun _ _ => True) ?_ (sat_any _ _)
      fun _ b _ _ => patchBrokerDrainCondition_guarded b
    unfold refreshBrokerDrain
    split
    · trivial
    · exact commandRebalance_guarded s
  · refine sat_guarded_read (Prog.makes_request hq fun _ => makes_kube) fun inFlight s _ _ => ?_
    split
    · exact patchBrokerDrainCondition_guarded s
    · dsimp only
      split
      · -- the record is written after the broker is unregistered
        next id _ =>
        rintro ⟨_ | _ | _, clock⟩
        · refine ⟨trivial, ?_⟩
          change Prog.Sat _ _ _ (annotateUnregistered _ _ >>= fun _ => _) _
          refine sat_guarded_bind (P := fun _ _ => True) ?_ (sat_any _ _)
            fun _ b _ _ => patchBrokerDrainCondition_guarded b
          rintro ⟨_ | _ | _, clock⟩ <;>
            exact ⟨⟨rfl, id, not_mem_unregistered, rfl⟩, trivial⟩
        · exact ⟨trivial, trivial⟩
        · exact ⟨trivial, trivial⟩
      · trivial

theorem reconcileBrokerDrain_guarded {pass : PoolPass} {cluster : String}
    {live desired start : Int} {s : Logged}
    (hget : ∀ l, (Req.getRebalance (brokerDrainName cluster pass.pool.name desired)).Guard pass
      (s.1, l))
    (hpropose : s.1.rebalance? (brokerDrainName cluster pass.pool.name desired) = none →
      ∀ l, (Req.applyRebalance (drainProposal cluster pass.pool.name desired
        (removedBrokerIds start live desired))).Guard pass (s.1, l)) :
    Prog.Sat (Prog.logged answer) (Guarded pass) (fun _ _ => True)
      (reconcileBrokerDrain pass.pool cluster live desired start) s := by
  obtain ⟨w, l⟩ := s
  unfold reconcileBrokerDrain
  split
  · trivial
  refine sat_getRebalance (fun _ => hget l) (fun _ _ => trivial) fun l => ?_
  split
  · next hnone =>
    refine sat_guarded_bind (P := fun _ _ => True) ?_ (sat_any _ _)
      fun _ b _ _ => patchBrokerDrainCondition_guarded b
    rintro ⟨_ | _ | _, clock⟩ <;> exact ⟨hpropose hnone l, trivial⟩
  · split
    · exact patchBrokerDrainCondition_guarded _
    · refine sat_guarded_bind (awaitProposal_guarded _) (sat_any _ _) fun waited b _ _ => ?_
      cases waited with
      | some action => trivial
      | none => exact checkRemoved_guarded b

theorem reconcileControllerScaleDown_guarded {pass : PoolPass} {cluster : String} {s : Logged}
    (hcluster : pass.pool.cluster? = some cluster) {observed : Option StatefulSet}
    (hobs : s.1.statefulSet? (statefulSetName cluster pass.pool.name) = observed) :
    Prog.Sat (Prog.logged answer) (Guarded pass) (fun _ _ => True)
      (reconcileControllerScaleDown pass.pool cluster observed) s := by
  unfold reconcileControllerScaleDown
  split
  · trivial
  · next n hn =>
    obtain ⟨live, rfl, hspec⟩ : ∃ live, observed = some live ∧ liveReplicas live = n := by
      cases observed with
      | none => cases hn
      | some live => exact ⟨live, rfl, by simpa [liveReplicas] using congrArg (·.getD 1) hn⟩
    split
    · trivial
    · next hlt =>
      have hreq : ShrinkRequested pass.pool s.1 cluster live := ⟨hcluster, hobs, by omega⟩
      refine sat_guarded_bind (P := fun _ _ => True) ?_ (sat_any _ _) fun drained b _ _ => ?_
      · split
        · refine reconcileBrokerDrain_guarded (fun _ => .inr ⟨cluster, live, hreq, rfl⟩) ?_
          intro hnone _
          refine .inr ⟨cluster, live, hreq, hnone, ?_⟩
          unfold shrinkIds
          rw [hspec]
          rfl
        · trivial
      · cases drained with
        | some action => trivial
        | none =>
          dsimp only
          split
          · trivial
          · split
            · exact MakesKinds.guarded (removeNextVoter_makes (K := [.read, .status, .voter])
                (by decide) (by decide) (by decide)) (by decide) pass b
            · trivial

/-! ## Deletion -/

theorem releasePool_guarded {pass : PoolPass} {cluster : String} {sts : Option StatefulSet}
    {pods : List Pod} {roles : RoleMask} {s : Logged} (hdel : pass.pool.deleting = true)
    (h : (Req.scaleToZero (statefulSetName cluster pass.pool.name)).Guard pass s) :
    Prog.Sat (Prog.logged answer) (Guarded pass) (fun _ _ => True)
      (releasePool cluster pass.pool sts pods roles) s := by
  have hrest (b : Logged) : Prog.Sat (Prog.logged answer) (Guarded pass) (fun _ _ => True)
      (dropFinalizer cluster pass.pool pods roles) b := by
    have hmakes : Prog.Makes (fun r => ∀ s, r.Guard pass s)
        (dropFinalizer cluster pass.pool pods roles) := by
      unfold dropFinalizer
      refine Prog.makes_ite trivial ?_
      refine Prog.Makes.bind (Prog.makes_when ?_) fun _ => ?_
      · refine Prog.Makes.bind (Prog.makes_request (fun _ => .inl hdel) fun _ => makes_kube)
          fun found => ?_
        cases found with
        | none => trivial
        | some obj => exact Prog.makes_request (fun _ => hdel) fun _ => makes_kube
      · exact Prog.Makes.bind (Prog.makes_request (fun _ => trivial) fun _ => makes_kube)
          fun _ => makes_pure
    exact hmakes.stage (I := fun _ => True) (fun a r c hr _ => ⟨hr a, trivial⟩) trivial
  unfold releasePool
  cases sts with
  | none => exact hrest s
  | some live =>
    rintro ⟨_ | _ | _, clock⟩
    · exact ⟨h, hrest _⟩
    · exact ⟨h, trivial⟩
    · exact ⟨h, trivial⟩

theorem le_observedStatefulsetReplicas {live : StatefulSet} {n : Int}
    (h : live.spec >>= (·.replicas) = some n) : n ≤ observedStatefulsetReplicas live := by
  have hmax : ∀ (xs : List Int) (a : Int), a ≤ xs.foldl max a := by
    intro xs
    induction xs with
    | nil => exact fun a => le_refl a
    | cons x xs ih => exact fun a => (le_max_left a x).trans (ih _)
  simp only [observedStatefulsetReplicas, h, Option.getD_some]
  split
  · exact le_max_left _ _
  · exact (hmax _ _).trans (le_max_left _ _)

/-- The nodes that a deletion finds are at least those of a live StatefulSet. -/
theorem deletedNodes_of_live {pool : KafkaNodePool} {cluster : String} {live : StatefulSet}
    {pods : List Pod} {n start : Int} {roles : RoleMask} (hn : live.spec >>= (·.replicas) = some n)
    (hid : observedStatefulsetIdentity live = (some start, some roles)) :
    n ≤ (deletedNodes pool cluster (some live) pods).replicas ∧
      (deletedNodes pool cluster (some live) pods).start = start ∧
      (deletedNodes pool cluster (some live) pods).roles = roles := by
  have hle := le_observedStatefulsetReplicas hn
  simp only [deletedNodes, Option.map_some, Option.getD_some, hid, Option.or]
  exact ⟨hle.trans (le_max_left _ _), trivial, trivial⟩

theorem retireNodes_guarded {pass : PoolPass} {cluster : String} {sts : Option StatefulSet}
    {pods : List Pod} {s : Logged} (hdel : pass.pool.deleting = true)
    (hsts : s.1.statefulSet? (statefulSetName cluster pass.pool.name) = sts) :
    Prog.Sat (Prog.logged answer) (Guarded pass) (fun _ _ => True)
      (retireNodes pass.pool cluster sts pods (deletedNodes pass.pool cluster sts pods)) s := by
  generalize hnodes : deletedNodes pass.pool cluster sts pods = nodes
  unfold retireNodes
  refine sat_guarded_bind (P := fun x b => x = .ok none → b.1 = s.1 ∧
    (nodes.roles.broker = true → 0 < nodes.replicas →
      DrainRead b.2 nodes.start nodes.replicas 0)) ?_ ?_ fun drained b hdrained hsub => ?_
  · split
    · exact reconcileBrokerDrain_guarded (fun _ => .inl hdel) fun _ _ => .inl hdel
    · trivial
  · split
    · next hdrain =>
      refine (reconcileBrokerDrain_sat hdrain.2 s).mono (fun _ _ _ h => h) fun _ _ h hx => ?_
      exact ⟨(h hx).1, fun _ _ => (h hx).2.1⟩
    · next hdrain => exact fun _ => ⟨rfl, fun hb hpos => absurd ⟨hb, hpos⟩ hdrain⟩
  cases drained with
  | some action => trivial
  | none =>
    obtain ⟨hb, hread⟩ := hdrained rfl
    refine sat_guarded_bind (P := fun x b' => x = .ok none → b'.1 = b.1 ∧
      (nodes.roles.controller = true →
        VotersRead b'.2 nodes.start (max pass.pool.spec.replicas nodes.replicas) 0)) ?_ ?_
      fun removed b' hremoved hsub' => ?_
    · split
      · exact MakesKinds.guarded (removeDeletedVoter_makes (K := [.read, .status, .voter])
          (by decide) (by decide) (by decide)) (by decide) pass b
      · trivial
    · split
      · exact (removeDeletedVoter_sat b).mono (fun _ _ _ h => h)
          fun _ _ h hx => ⟨(h hx).1, fun _ => (h hx).2⟩
      · next hcontroller => exact fun _ => ⟨rfl, fun hc => absurd hc hcontroller⟩
    cases removed with
    | some action => trivial
    | none =>
      obtain ⟨hb', hvoters⟩ := hremoved rfl
      refine releasePool_guarded hdel ⟨hdel, fun live n start roles hlive hn hpos hid => .inr ?_⟩
      have heq : sts = some live := by rw [← hsts, ← hlive, hb', hb]
      obtain ⟨hle, rfl, rfl⟩ := @deletedNodes_of_live pass.pool cluster _ pods _ _ _
        hn hid
      rw [← heq, hnodes] at *
      exact ⟨fun hbroker => ((hread hbroker (by omega)).mono hsub').of_le hle,
        fun hc => (hvoters hc).of_le (hle.trans (le_max_right _ _))⟩

theorem reconcileDeletion_guarded {pass : PoolPass} {parent : Option Parent} {cluster : String}
    {s : Logged} (hdel : pass.pool.deleting = true)
    (hparent : ⟨.getKafka cluster, .ok parent⟩ ∈ s.2) :
    Prog.Sat (Prog.logged answer) (Guarded pass) (fun _ _ => True)
      (reconcileDeletion pass.pool parent cluster) s := by
  obtain ⟨w, l⟩ := s
  unfold reconcileDeletion
  split
  · trivial
  refine sat_getStatefulSet (fun _ => trivial) (fun _ _ => trivial) ?_
  refine sat_guarded_read (listPods_makes (List.mem_singleton.mpr rfl)) fun allPods b hb hsub => ?_
  dsimp only
  split
  · next hgone =>
    refine releasePool_guarded hdel ⟨hdel, fun live n start roles _ _ _ _ => .inl ?_⟩
    exact ⟨cluster, parent, hsub (List.mem_append_left _ hparent), hgone⟩
  · exact retireNodes_guarded hdel (by rw [hb])

/-! ## The pass -/

theorem applyPool_guarded {pass : PoolPass} {parent : Parent} {s : Logged}
    (h : (Req.applyStatefulSet (renderStatefulset parent pass)).Guard pass s) :
    Prog.Sat (Prog.logged answer) (Guarded pass) (fun _ _ => True) (applyPool pass parent) s := by
  have hrest (b : Logged) : Prog.Sat (Prog.logged answer) (Guarded pass) (fun _ _ => True)
      (reportPool pass parent) b :=
    MakesKinds.guarded (reportPool_makes (K := [.read, .status]) (by decide) (by decide))
      (by decide) pass b
  unfold applyPool
  split
  · trivial
  · rintro ⟨_ | _ | _, clock⟩
    · exact ⟨h, hrest _⟩
    · exact ⟨h, trivial⟩
    · exact ⟨h, trivial⟩

/-- What the gates leave open when they let a pass through. -/
theorem reconcileControllerScaleDown_open {pool : KafkaNodePool} {cluster : String}
    (hpos : 1 ≤ pool.spec.replicas) {s : Logged} {observed : Option StatefulSet}
    (hobs : s.1.statefulSet? (statefulSetName cluster pool.name) = observed) :
    Prog.Sat (Prog.logged answer) anyStep
      (fun x b => x = .ok none → b.1 = s.1 ∧ ∀ live, ShrinkRequested pool b.1 cluster live →
        ShrinkOpen pool b cluster live)
      (reconcileControllerScaleDown pool cluster observed) s := by
  cases observed with
  | none =>
    refine fun _ => ⟨rfl, fun live hreq => ?_⟩
    rw [hreq.live_eq] at hobs
    cases hobs
  | some live =>
    by_cases hshrink : pool.spec.replicas < liveReplicas live
    · refine (reconcileControllerScaleDown_sat hpos hshrink s).mono (fun _ _ _ h => h) ?_
      intro x b h hx
      obtain ⟨hb, hdrained, hvoters⟩ := h hx
      refine ⟨hb, fun live' hreq => ?_⟩
      rw [hb] at hreq
      have heq := hobs.symm.trans hreq.live_eq
      cases heq
      exact ⟨hdrained, hvoters⟩
    · -- without a shrink the gates are not looked at
      have hclosed : ∀ b : Logged, b.1 = s.1 → ∀ live', ShrinkRequested pool b.1 cluster live' →
          ShrinkOpen pool b cluster live' := by
        intro b hb live' hreq
        rw [hb] at hreq
        have heq := hobs.symm.trans hreq.live_eq
        cases heq
        exact absurd hreq.lt hshrink
      unfold reconcileControllerScaleDown
      split
      · exact fun _ => ⟨rfl, hclosed s rfl⟩
      · next n hn =>
        have hlive : liveReplicas live = n := by simpa [liveReplicas] using congrArg (·.getD 1) hn
        rw [if_pos (by omega)]
        exact fun _ => ⟨rfl, hclosed s rfl⟩

/-- The pass of a pool that stays. -/
theorem reconcilePool_guarded {pass : PoolPass} {parent : Parent}
    (hpos : 1 ≤ pass.pool.spec.replicas) (hcluster : pass.pool.cluster? = some parent.name)
    (s : Logged) :
    Prog.Sat (Prog.logged answer) (Guarded pass) (fun _ _ => True) (reconcilePool pass parent)
      s := by
  have hq : ReqKind.read ∈ [ReqKind.read] := List.mem_singleton.mpr rfl
  unfold reconcilePool
  refine sat_guarded_read (listPools_makes hq) fun siblings s _ _ => ?_
  refine sat_guarded_read (listStatefulSets_makes hq) fun statefulsets s _ _ => ?_
  refine sat_guarded_read (listPods_makes hq) fun pods s _ _ => ?_
  split
  · exact sat_guarded_status s
  split
  · exact sat_guarded_status s
  split
  · trivial
  refine sat_guarded_read (effect_makes hq) fun _ s _ _ => ?_
  refine sat_guarded_read (ensureDirectoryIds_makes hq _) fun _ s _ _ => ?_
  refine sat_getStatefulSet (fun _ => trivial) (fun _ _ => trivial) ?_
  split
  · exact sat_guarded_status _
  refine sat_guarded_bind (reconcileControllerScaleDown_guarded hcluster rfl)
    (reconcileControllerScaleDown_open hpos rfl) fun action b hopen _ => ?_
  cases action with
  | some action => trivial
  | none => exact applyPool_guarded ⟨parent, hcluster, rfl, (hopen rfl).2⟩

/-- Every request of a pass meets its guard. -/
theorem reconcileInner_guarded (pass : PoolPass) (s : Logged) :
    Prog.Sat (Prog.logged answer) (Guarded pass) (fun _ _ => True) (reconcileInner pass) s := by
  unfold reconcileInner
  dsimp only
  split
  · exact sat_guarded_status s
  · next hvalid =>
    split
    · exact sat_guarded_status s
    · next cluster hcluster =>
      obtain ⟨w, l⟩ := s
      refine sat_getKafka (fun _ => trivial) (fun _ _ => trivial) ?_
      split
      · next hdel => exact reconcileDeletion_guarded hdel (by simp)
      · split
        · exact sat_guarded_status _
        · next parent hparent =>
          have hname : parent.name = cluster := by simpa using List.find?_some hparent
          split
          · rintro ⟨_ | _ | _, clock⟩ <;> exact ⟨trivial, trivial⟩
          · split
            · exact sat_guarded_status _
            · exact sat_guarded_status _
            · exact reconcilePool_guarded (validate_nodes hvalid).1 (hname ▸ hcluster) _

/-! ## Invariants of a pass -/

section Invariant

variable {pass : PoolPass} {I : Logged → Prop} {s : Logged}
  (hstep : ∀ a r c, I a → r.Guard pass a → I (Prog.logged answer r c a).2) (hs : I s)
include hstep hs

/-- What guarded requests keep holds around each request of a pass. -/
theorem reconcileInner_invariant :
    Prog.Sat (Prog.logged answer) (fun a r b => r.Guard pass a ∧ I a ∧ I b) (fun _ _ => True)
      (reconcileInner pass) s := by
  have hsteps := (reconcileInner_guarded pass s).and
    (Prog.sat_answered (Prog.logged answer) (reconcileInner pass) s)
  refine (hsteps.invariant (I := I) ?_ hs).mono ?_ fun _ _ _ => trivial
  · rintro a r b ⟨hguard, c, rfl⟩ ha
    exact hstep a r c ha hguard
  · rintro a r b ⟨⟨hguard, -⟩, ha, hb⟩
    exact ⟨hguard, ha, hb⟩

/-- What guarded requests keep holds where a pass ends or stops. -/
theorem run_reconcileInner_invariant (choices : List Choice) :
    I ((reconcileInner pass).run (Prog.logged answer) choices s).2 := by
  rw [Prog.run_eq_getLastD]
  have hkeep : Prog.Sat (Prog.logged answer) (fun a _ b => I a → I b) (fun _ _ => True)
      (reconcileInner pass) s :=
    (reconcileInner_invariant hstep hs).mono (fun _ _ _ h _ => h.2.2) fun _ _ h => h
  have hall := hkeep.forall_after hs choices
  rcases List.mem_cons.mp (History.getLastD_mem_cons _ s) with heq | hmem
  · rw [heq]
    exact hs
  · exact hall _ hmem

end Invariant

end NodePool
