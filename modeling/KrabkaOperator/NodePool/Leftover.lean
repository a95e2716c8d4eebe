-- SUMMARY: A drain uses the proposal that was created for it, as long as no proposal with the same target is left from an earlier drain.
import KrabkaOperator.NodePool.Unregister

/-!
# Proposals that are left over

The proposal of a drain is named for the cluster, the pool and the target count, and
stays when the drain is complete. A later drain to the same count finds it. When the
brokers differ, each pass is blocked; when they are the same, the old result is taken
for the new drain.
-/

namespace NodePool

open Kube Crd Operator

theorem statefulSet?_applyStatefulSet {w : World} {desired s : StatefulSet}
    (h : (w.applyStatefulSet desired).statefulSet? desired.name = some s) :
    s.spec = desired.spec := by
  unfold World.applyStatefulSet at h
  split at h
  · next hnone =>
    have hnone' : w.statefulSets.find? (·.name = desired.name) = none := hnone
    simp only [World.statefulSet?, List.find?_append, hnone', Option.none_or,
      List.find?_singleton, decide_true, if_true, Option.some.injEq] at h
    rw [← h]
  · have hmap : (w.updateStatefulSet desired.name fun old => appliedSet old desired).statefulSet?
        desired.name = (w.statefulSet? desired.name).map
          fun p => if p.name = desired.name then appliedSet p desired else p := by
      refine find?_map_of_same fun p => ?_
      split <;> rfl
    rw [hmap] at h
    obtain ⟨old, hold, rfl⟩ := Option.map_eq_some_iff.mp h
    have hname : old.name = desired.name := by simpa using List.find?_some hold
    rw [if_pos hname]
    rfl

theorem rebalance?_applyRebalance {w : World} {obj r : KafkaRebalance}
    (hnone : w.rebalance? obj.name = none)
    (h : (w.applyRebalance obj).rebalance? obj.name = some r) : r.spec = obj.spec := by
  unfold World.applyRebalance at h
  rw [hnone] at h
  have hnone' : w.rebalances.find? (·.name = obj.name) = none := hnone
  simp only [World.rebalance?, List.find?_append, hnone', Option.none_or, List.find?_singleton,
    decide_true, if_true, Option.some.injEq] at h
  rw [← h]

/-! ## The proposal of the present drain -/

section Drain

variable (cluster name : String)

/-- The proposal for the shrink that a pool asks for, where there is one, is for the
    brokers that the shrink removes, and one of the requests `since` has created it. -/
def ProposalOwn (since : List Req) (w : World) : Prop :=
  ∀ q live r, w.pool? name = some q → w.statefulSet? (statefulSetName cluster name) = some live →
    q.spec.replicas < liveReplicas live →
    w.rebalance? (brokerDrainName cluster name q.spec.replicas) = some r →
    managedDrainMatches r (shrinkIds q live) (drainAuthorization cluster) = true ∧
      ∃ obj, .applyRebalance obj ∈ since ∧ obj.name = brokerDrainName cluster name q.spec.replicas

/-- What a drain depends on stays: the live nodes, and no proposal appears or gets another
    spec. -/
structure SameLive (w w' : World) : Prop where
  live : (w'.statefulSet? (statefulSetName cluster name)).map
      (fun s => (liveReplicas s, observedStatefulsetIdentity s)) =
    (w.statefulSet? (statefulSetName cluster name)).map
      (fun s => (liveReplicas s, observedStatefulsetIdentity s))
  proposals : ∀ d r', w'.rebalance? (brokerDrainName cluster name d) = some r' →
    ∃ r, w.rebalance? (brokerDrainName cluster name d) = some r ∧ r.spec = r'.spec

/-- The spec of the pool stays, too. -/
structure SameDrain (w w' : World) : Prop extends SameLive cluster name w w' where
  pool : (w'.pool? name).map (·.spec) = (w.pool? name).map (·.spec)

variable {cluster name}

theorem SameDrain.refl (w : World) : SameDrain cluster name w w :=
  ⟨⟨rfl, fun _ r h => ⟨r, h, rfl⟩⟩, rfl⟩

theorem shrinkIds_congr {q q' : KafkaNodePool} {live live' : StatefulSet} (hspec : q'.spec = q.spec)
    (hlive : (liveReplicas live', observedStatefulsetIdentity live') =
      (liveReplicas live, observedStatefulsetIdentity live)) :
    shrinkIds q' live' = shrinkIds q live := by
  obtain ⟨hreplicas, hidentity⟩ := Prod.mk.inj hlive
  unfold shrinkIds liveStart
  rw [hspec, hreplicas, hidentity]

theorem managedDrainMatches_congr {r r' : KafkaRebalance} (h : r.spec = r'.spec)
    (brokers : List Int) (authorization : SecretKeyRef) :
    managedDrainMatches r' brokers authorization = managedDrainMatches r brokers authorization := by
  unfold managedDrainMatches
  rw [h]

theorem ProposalOwn.of_same {since since' : List Req} {w w' : World}
    (h : ProposalOwn cluster name since w) (hsame : SameDrain cluster name w w')
    (hsub : since ⊆ since') : ProposalOwn cluster name since' w' := by
  intro q' live' r' hq' hlive' hlt hr'
  have hpool := hsame.pool
  have hlive := hsame.live
  rw [hq', Option.map_some] at hpool
  rw [hlive', Option.map_some] at hlive
  obtain ⟨q, hq, hspec⟩ := Option.map_eq_some_iff.mp hpool.symm
  obtain ⟨live, hl, hsamelive⟩ := Option.map_eq_some_iff.mp hlive.symm
  obtain ⟨r, hr, hrspec⟩ := hsame.proposals _ _ hr'
  have hreplicas : liveReplicas live = liveReplicas live' := (Prod.mk.inj hsamelive).1
  rw [← hspec] at hlt hr ⊢
  rw [← hreplicas] at hlt
  obtain ⟨hmatches, obj, hobj, hname⟩ := h q live r hq hl hlt hr
  refine ⟨?_, obj, hsub hobj, hname⟩
  rwa [managedDrainMatches_congr hrspec, shrinkIds_congr hspec.symm hsamelive.symm]

/-- The user edits the replicas of the pool. -/
def Edits (name : String) (w w' : World) : Prop :=
  (w'.pool? name).map (·.spec.replicas) ≠ (w.pool? name).map (·.spec.replicas)

instance (w w' : World) : Decidable (Edits name w w') :=
  inferInstanceAs (Decidable (_ ≠ _))

/-! ## Requests -/

/-- The requests of a pass that stays, other than those that propose a drain or apply the
    StatefulSet, change nothing that a drain depends on. -/
theorem sameDrain_done {pass : PoolPass} {a : Logged} {r : Req} (hdel : pass.pool.deleting = false)
    (hguard : r.Guard pass a) (happly : ∀ desired, r ≠ .applyStatefulSet desired)
    (hpropose : ∀ obj, r ≠ .applyRebalance obj) : SameDrain cluster name a.1 (r.done a.1) := by
  have hpool {n : String} {f : KafkaNodePool → KafkaNodePool} (hname : ∀ p, (f p).name = p.name)
      (hspec : ∀ p, (f p).spec = p.spec) :
      SameDrain cluster name a.1 (a.1.updatePool n f) := by
    refine ⟨⟨rfl, fun _ r h => ⟨r, h, rfl⟩⟩, ?_⟩
    rw [pool?_updatePool hname, Option.map_map]
    congr 1
    funext p
    simp only [Function.comp_apply]
    split
    · exact hspec p
    · rfl
  cases r with
  | applyStatefulSet desired => exact absurd rfl (happly desired)
  | applyRebalance obj => exact absurd rfl (hpropose obj)
  | scaleToZero n => exact absurd hguard.1 (by simp [hdel])
  | deleteRebalance n => exact absurd hguard (by simp [Req.Guard, hdel])
  | patchStatus n status => exact hpool (fun _ => rfl) fun _ => rfl
  | setFinalizers n finalizers => exact hpool (fun _ => rfl) fun _ => rfl
  | annotateUnregistered n value => exact hpool (fun _ => rfl) fun _ => rfl
  | commandRebalance n command =>
    refine ⟨⟨rfl, fun d r' h => ?_⟩, rfl⟩
    have hmap := @rebalance?_updateRebalance a.1 n (brokerDrainName cluster name d)
      (fun r => { r with command := some command }) fun _ => rfl
    have hfound := hmap.symm.trans h
    obtain ⟨r, hr, rfl⟩ := Option.map_eq_some_iff.mp hfound
    refine ⟨r, hr, ?_⟩
    split <;> rfl
  | _ => exact ⟨⟨rfl, fun _ r h => ⟨r, h, rfl⟩⟩, rfl⟩

/-- A pass works on the stored pool. -/
structure Current (cluster name : String) (pass : PoolPass) (w : World) : Prop where
  name_eq : pass.pool.name = name
  cluster_eq : pass.pool.cluster? = some cluster
  stays : pass.pool.deleting = false
  stored : (w.pool? name).map (·.spec) = some pass.pool.spec

theorem Current.of_pools {pass : PoolPass} {w w' : World} (h : Current cluster name pass w)
    (hpool : (w'.pool? name).map (·.spec) = (w.pool? name).map (·.spec)) :
    Current cluster name pass w' :=
  ⟨h.name_eq, h.cluster_eq, h.stays, hpool.trans h.stored⟩

theorem Current.spec_eq {pass : PoolPass} {w : World} (h : Current cluster name pass w)
    {q : KafkaNodePool} (hq : w.pool? name = some q) : q.spec = pass.pool.spec := by
  have hstored := h.stored
  rw [hq] at hstored
  exact Option.some.inj hstored

/-- After an apply the StatefulSet has the replicas of the pool, and no shrink is left. -/
theorem proposalOwn_applied {pass : PoolPass} {w : World} {parent : Parent} {since : List Req}
    (hcur : Current cluster name pass w) (hparent : pass.pool.cluster? = some parent.name) :
    ProposalOwn cluster name since (w.applyStatefulSet (renderStatefulset parent pass)) := by
  intro q live r hq hlive hlt _
  have hname : parent.name = cluster := Option.some.inj (hparent.symm.trans hcur.cluster_eq)
  have hpool : (w.applyStatefulSet (renderStatefulset parent pass)).pool? name = w.pool? name := by
    unfold World.pool?
    rw [applyStatefulSet_pools.1]
  rw [hpool] at hq
  have hset : live.spec = (renderStatefulset parent pass).spec := by
    refine statefulSet?_applyStatefulSet (w := w) ?_
    have hn : (renderStatefulset parent pass).name = statefulSetName cluster name := by
      rw [← hname, ← hcur.name_eq]
      rfl
    rw [hn]
    exact hlive
  have hcount : liveReplicas live = pass.pool.spec.replicas := by
    unfold liveReplicas
    rw [hset]
    rfl
  rw [hcur.spec_eq hq, hcount] at hlt
  exact absurd hlt (lt_irrefl _)

/-- A new proposal is for the brokers of the shrink that the pool asks for. -/
theorem proposalOwn_proposed {pass : PoolPass} {w : World} {live : StatefulSet}
    {obj : KafkaRebalance} {since : List Req} (hcur : Current cluster name pass w)
    (hlive : w.statefulSet? (statefulSetName cluster name) = some live)
    (hnone : w.rebalance? obj.name = none)
    (hobj : obj = drainProposal cluster pass.pool.name pass.pool.spec.replicas
      (shrinkIds pass.pool live)) (hmem : .applyRebalance obj ∈ since) :
    ProposalOwn cluster name since (w.applyRebalance obj) := by
  intro q live' r hq hlive' _ hr
  have hpool : (w.applyRebalance obj).pool? name = w.pool? name := by
    unfold World.pool?
    rw [applyRebalance_pools.1]
  have hsets : (w.applyRebalance obj).statefulSets = w.statefulSets := by
    unfold World.applyRebalance
    split <;> rfl
  have hsame : live' = live := by
    unfold World.statefulSet? at hlive' hlive
    rw [hsets, hlive] at hlive'
    exact (Option.some.inj hlive').symm
  rw [hpool] at hq
  have hspec := hcur.spec_eq hq
  have hname : obj.name = brokerDrainName cluster name q.spec.replicas := by
    rw [hobj, hspec, ← hcur.name_eq]
    rfl
  rw [← hname] at hr
  have hrspec := rebalance?_applyRebalance hnone hr
  refine ⟨?_, obj, hmem, hname⟩
  rw [managedDrainMatches_congr hrspec.symm, hsame,
    @shrinkIds_congr pass.pool _ live _ hspec rfl, hobj]
  simp [managedDrainMatches, drainProposal]

/-- What a pass keeps at each of its requests. -/
def PassOwn (cluster name : String) (pass : PoolPass) (since : List Req) (a : Logged) : Prop :=
  Current cluster name pass a.1 ∧ ProposalOwn cluster name (since ++ a.2.map (·.1)) a.1

theorem PassOwn.step {pass : PoolPass} {since : List Req} {a : Logged} {r : Req}
    (h : PassOwn cluster name pass since a) (hguard : r.Guard pass a) (c : Choice) :
    PassOwn cluster name pass since (Prog.logged answer r c a).2 := by
  obtain ⟨hcur, hown⟩ := h
  obtain ⟨w, l⟩ := a
  generalize hlog : (Prog.logged answer r c (w, l)).2.2 = l'
  have hl' : l' = l ++ [⟨r, (answer r c w).1⟩] := hlog.symm
  have hsub : since ++ l.map (·.1) ⊆ since ++ l'.map (·.1) := by
    intro x hx
    rw [hl']
    simp only [List.map_append, List.mem_append] at hx ⊢
    rcases hx with hx | hx
    · exact .inl hx
    · exact .inr (.inl hx)
  have hmem : r ∈ since ++ l'.map (·.1) := by simp [hl']
  suffices hend : Current cluster name pass (answer r c w).2 ∧
      ProposalOwn cluster name (since ++ l'.map (·.1)) (answer r c w).2 by
    refine ⟨hend.1, ?_⟩
    rw [hlog]
    exact hend.2
  rcases answer_cases r c w with heq | heq <;> rw [heq]
  · exact ⟨hcur, hown.of_same (SameDrain.refl _) hsub⟩
  · cases r with
    | applyStatefulSet desired =>
      obtain ⟨parent, hparent, rfl, -⟩ := hguard
      refine ⟨hcur.of_pools ?_, proposalOwn_applied hcur hparent⟩
      have hpools := (applyStatefulSet_pools (w := w)
        (d := renderStatefulset parent pass)).1
      exact congrArg (fun ps => (ps.find? (·.name = name)).map (·.spec)) hpools
    | applyRebalance obj =>
      rcases hguard with hdel | ⟨cluster', live, hreq, hnone, hobj⟩
      · exact absurd hdel (by simp [hcur.stays])
      have hname : cluster' = cluster :=
        Option.some.inj (hreq.cluster_eq.symm.trans hcur.cluster_eq)
      subst hname
      refine ⟨hcur.of_pools ?_, proposalOwn_proposed hcur (hcur.name_eq ▸ hreq.live_eq) hnone hobj
        hmem⟩
      have hpools := (applyRebalance_pools (w := w) (o := obj)).1
      exact congrArg (fun ps => (ps.find? (·.name = name)).map (·.spec)) hpools
    | _ =>
      have hs := @sameDrain_done cluster name _ _ _ hcur.stays hguard
        (fun _ h => nomatch h) (fun _ h => nomatch h)
      exact ⟨hcur.of_pools hs.pool, hown.of_same hs hsub⟩

/-! ## Runs -/

variable (cluster name)

/-- Whenever the replicas are edited to a count below the live one, no proposal for this
    count is left. Others change no proposal and not the live nodes, and passes work on
    the stored pool. -/
def FreshTarget : Event → World → Prop
  | .pass p _, w => Current cluster name p w
  | .change f, w =>
      SameLive cluster name w (f w) ∧
      ((f w).pool? name).map (fun q => { q.spec with replicas := 0 }) =
        (w.pool? name).map (fun q => { q.spec with replicas := 0 }) ∧
      (Edits name w (f w) → ∀ q live, (f w).pool? name = some q →
        w.statefulSet? (statefulSetName cluster name) = some live →
        q.spec.replicas < liveReplicas live →
        w.rebalance? (brokerDrainName cluster name q.spec.replicas) = none)

/-- A pass reads no proposal for other brokers than those that it removes, and when it
    lowers the replicas of brokers, a request after the last edit has created the proposal
    that it has waited for. -/
def DrainsOwn (since : List Req) (e : Event) (w : World) : Prop :=
  ∀ p choices, e = .pass p choices → ∀ st ∈ e.dialogue w,
    (∀ n r, st.req = .getRebalance n → st.before.1.rebalance? n = some r →
      ∃ live, st.before.1.statefulSet? (statefulSetName cluster name) = some live ∧
        managedDrainMatches r (shrinkIds p.pool live) (drainAuthorization cluster) = true) ∧
    (∀ desired live n, st.req = .applyStatefulSet desired →
      st.before.1.statefulSet? desired.name = some live →
      desired.spec >>= (·.replicas) = some n → n < liveReplicas live →
      (liveRoles p.pool live).broker = true →
      ∃ obj, .applyRebalance obj ∈ since ++ st.before.2.map (·.1) ∧
        obj.name = brokerDrainName cluster name n)

/-- Every pass of a run drains with proposals of its own. `since` holds the requests after
    the last edit of the replicas. -/
def DrainsAnew : List Req → List Event → World → Prop
  | _, [], _ => True
  | since, e :: es, w => DrainsOwn cluster name since e w ∧
      DrainsAnew (if Edits name w (History.finish Event.exec e w) then []
        else since ++ e.requests w) es (History.finish Event.exec e w)

/-- The requests after the last edit in a run. -/
def sinceEdit (name : String) : List Req → List Event → World → List Req
  | since, [], _ => since
  | since, e :: es, w => sinceEdit name (if Edits name w (History.finish Event.exec e w) then []
      else since ++ e.requests w) es (History.finish Event.exec e w)

variable {cluster name}

theorem DrainsAnew.last {since : List Req} {es : List Event} {e : Event} {w : World}
    (h : DrainsAnew cluster name since (es ++ [e]) w) :
    DrainsOwn cluster name (sinceEdit name since es w) e (History.final Event.exec es w) := by
  induction es generalizing since w with
  | nil => exact h.1
  | cons e' es ih => exact ih h.2

theorem not_edits_of_same {w w' : World}
    (h : (w'.pool? name).map (·.spec) = (w.pool? name).map (·.spec)) : ¬ Edits name w w' := by
  intro hedit
  refine hedit ?_
  have := congrArg (·.map (·.replicas)) h
  simpa [Option.map_map, Function.comp_def] using this

/-- A pass keeps the own proposal, and its requests follow the edit. -/
theorem ProposalOwn.pass {since : List Req} {p : PoolPass} {choices : List Choice} {w : World}
    (h : ProposalOwn cluster name since w) (hcur : Current cluster name p w) :
    ¬ Edits name w (History.finish Event.exec (.pass p choices) w) ∧
      ProposalOwn cluster name (since ++ Event.requests (.pass p choices) w)
        (History.finish Event.exec (.pass p choices) w) := by
  have hend := @run_reconcileInner_invariant p (PassOwn cluster name p since) (w, [])
    (fun a r c ha hguard => ha.step hguard c) ⟨hcur, by simpa using h⟩ choices
  rw [finish_pass]
  exact ⟨not_edits_of_same (hend.1.stored.trans hcur.stored.symm), hend.2⟩

theorem spec_eq_of_zero {a b : KafkaNodePoolSpec}
    (h : { a with replicas := 0 } = { b with replicas := 0 }) (hr : a.replicas = b.replicas) :
    a = b := by
  cases a
  cases b
  simp_all

/-- A change by others keeps the own proposal; an edit leaves none. -/
theorem ProposalOwn.change {since : List Req} {f : World → World} {w : World}
    (h : ProposalOwn cluster name since w) (hf : FreshTarget cluster name (.change f) w) :
    ProposalOwn cluster name (if Edits name w (f w) then [] else since) (f w) := by
  obtain ⟨hlive, hspec, hedit⟩ := hf
  split
  · next hedits =>
    intro q live' r' hq hlive' hlt hr'
    have hl := hlive.live
    rw [hlive', Option.map_some] at hl
    obtain ⟨live, hl, hsame⟩ := Option.map_eq_some_iff.mp hl.symm
    obtain ⟨r, hr, -⟩ := hlive.proposals _ _ hr'
    have hcount : liveReplicas live = liveReplicas live' := (Prod.mk.inj hsame).1
    rw [hedit hedits q live hq hl (by omega)] at hr
    cases hr
  · next hno =>
    refine h.of_same ⟨hlive, ?_⟩ (List.Subset.refl _)
    have hreplicas := not_not.mp hno
    cases hq' : (f w).pool? name with
    | none =>
      rw [hq'] at hspec
      cases hq : w.pool? name with
      | none => rfl
      | some q =>
        rw [hq] at hspec
        cases hspec
    | some q' =>
      rw [hq'] at hspec hreplicas
      cases hq : w.pool? name with
      | none =>
        rw [hq] at hspec
        cases hspec
      | some q =>
        rw [hq] at hspec hreplicas
        exact congrArg some (spec_eq_of_zero (Option.some.inj hspec) (Option.some.inj hreplicas))

theorem ProposalOwn.drainsOwn {since : List Req} {e : Event} {w : World}
    (h : ProposalOwn cluster name since w) (he : FreshTarget cluster name e w) :
    DrainsOwn cluster name since e w := by
  rintro p choices rfl st hst
  have hcur : Current cluster name p w := he
  obtain ⟨hguard, ⟨hcur', hown⟩, -⟩ := (@reconcileInner_invariant p
    (PassOwn cluster name p since) (w, []) (fun a r c ha hguard => ha.step hguard c)
    ⟨hcur, by simpa using h⟩).trace choices st hst
  obtain ⟨q, hq, hspec⟩ := Option.map_eq_some_iff.mp hcur'.stored
  constructor
  · intro n r hreq hr
    rw [hreq] at hguard
    rcases hguard with hdel | ⟨cluster', live, hshrink, rfl⟩
    · exact absurd hdel (by simp [hcur.stays])
    have hname : cluster' = cluster :=
      Option.some.inj (hshrink.cluster_eq.symm.trans hcur.cluster_eq)
    subst hname
    have hlive := hcur.name_eq ▸ hshrink.live_eq
    have hlt := hshrink.lt
    rw [hcur.name_eq, ← hspec] at hr
    rw [← hspec] at hlt
    refine ⟨live, hlive, ?_⟩
    rw [← shrinkIds_congr (q := p.pool) hspec rfl]
    exact (hown q live r hq hlive hlt hr).1
  · intro desired live n hreq hlive hn hlt hbroker
    rw [hreq] at hguard
    obtain ⟨parent, hparent, rfl, hopen⟩ := hguard
    cases hn
    have hname : parent.name = cluster := Option.some.inj (hparent.symm.trans hcur.cluster_eq)
    subst hname
    obtain ⟨r, hr, -⟩ := ((hopen live ⟨hparent, hlive, hlt⟩).drained hbroker).2.proposal
    rw [hcur.name_eq, ← hspec] at hr
    have hlive' : st.before.1.statefulSet? (statefulSetName parent.name name) = some live :=
      hcur.name_eq ▸ hlive
    have hlt' : q.spec.replicas < liveReplicas live := by
      rw [hspec]
      exact hlt
    have hobj := (hown q live r hq hlive' hlt' hr).2
    rwa [hspec] at hobj

end Drain

/-- In every run in which no proposal is left where a shrink is asked for, no pass finds a
    proposal for other brokers, and no shrink is let through by an older proposal. -/
theorem drains_anew {cluster name : String} {events : List Event} {w : World}
    (hw : ∀ d, w.rebalance? (brokerDrainName cluster name d) = none)
    (h : History.Along Event.exec (FreshTarget cluster name) events w) :
    DrainsAnew cluster name [] events w := by
  have hown : ProposalOwn cluster name [] w := by
    intro q live r _ _ _ hr
    rw [hw] at hr
    cases hr
  clear hw
  generalize [] = since at hown
  induction events generalizing w since with
  | nil => trivial
  | cons e es ih =>
    refine ⟨hown.drainsOwn h.1, ih h.2 _ ?_⟩
    cases e with
    | pass p choices =>
      obtain ⟨hno, hnext⟩ := @ProposalOwn.pass cluster name since p choices w hown h.1
      rw [if_neg hno]
      exact hnext
    | change f =>
      have hnext := hown.change h.1
      simpa [Event.requests, History.finish, Event.exec] using hnext

namespace Sample

/-- A check of `FreshTarget` for the sample pool, for changes that leave the StatefulSets. -/
def freshTarget : Event → World → Bool
  | .pass p _, w => p.pool.name = "pool" ∧ p.pool.cluster? = some "demo" ∧
      p.pool.deleting = false ∧ (w.pool? "pool").map (·.spec) = some p.pool.spec
  | .change f, w => (f w).statefulSets = w.statefulSets ∧
      (f w).rebalances.map (fun r => (r.name, r.spec)) =
        w.rebalances.map (fun r => (r.name, r.spec)) ∧
      ((f w).pool? "pool").map (fun q => { q.spec with replicas := 0 }) =
        (w.pool? "pool").map (fun q => { q.spec with replicas := 0 }) ∧
      (Edits "pool" w (f w) → ∀ q ∈ (f w).pool? "pool",
        w.rebalance? (brokerDrainName "demo" "pool" q.spec.replicas) = none)

theorem find?_of_map_eq {l l' : List KafkaRebalance}
    (h : l'.map (fun r => (r.name, r.spec)) = l.map (fun r => (r.name, r.spec))) {n : String}
    {r' : KafkaRebalance} (hr' : l'.find? (·.name = n) = some r') :
    ∃ r, l.find? (·.name = n) = some r ∧ r.spec = r'.spec := by
  induction l' generalizing l with
  | nil => cases hr'
  | cons a' l' ih =>
    cases l with
    | nil => cases h
    | cons a l =>
      obtain ⟨hhead, htail⟩ := List.cons.inj h
      obtain ⟨hname, hspec⟩ := Prod.mk.inj hhead
      by_cases hn : a'.name = n
      · rw [List.find?_cons_of_pos (by simpa using hn)] at hr'
        rw [List.find?_cons_of_pos (by simpa [← hname] using hn)]
        cases hr'
        exact ⟨a, rfl, hspec.symm⟩
      · rw [List.find?_cons_of_neg (by simpa using hn)] at hr'
        rw [List.find?_cons_of_neg (by simpa [← hname] using hn)]
        exact ih htail hr'

theorem freshTarget_of_check {e : Event} {w : World} (h : freshTarget e w = true) :
    FreshTarget "demo" "pool" e w := by
  cases e with
  | pass p choices =>
    obtain ⟨hname, hcluster, hstays, hstored⟩ := of_decide_eq_true h
    exact ⟨hname, hcluster, hstays, hstored⟩
  | change f =>
    obtain ⟨hsets, hrebalances, hspec, hedit⟩ := of_decide_eq_true h
    refine ⟨⟨?_, fun d r' hr' => find?_of_map_eq hrebalances hr'⟩, hspec, ?_⟩
    · unfold World.statefulSet?
      rw [hsets]
    · intro hedits q live hq _ _
      exact hedit hedits q hq

/-- The pool shrinks from three nodes to two and then to one. -/
def shrinkTwice : List Event :=
  script ([pass, boot] ++ shrinkTurns ++ [boot, scale 1, pass, rebalance, pass, pass, pass])
    (start 3)

theorem drains_anew_demo : DrainsAnew "demo" "pool" [] shrinkTwice (start 3) :=
  drains_anew (fun _ => rfl) <|
    History.Along.mono (P := fun e w => freshTarget e w = true) (by decide +kernel)
      fun _ _ => freshTarget_of_check

/-- The pool shrinks to two nodes, grows to five, and is to shrink to two again. -/
def blockedRun : List Event :=
  script ([pass, boot] ++ shrinkTurns ++ [scale 5, pass, boot, scale 2, pass]) (start 3)

def blocked : World := History.final Event.exec blockedRun (start 3)

/-- Five nodes run, two are asked for, and the last pass was blocked by the proposal. -/
def isBlocked (w : World) : Bool :=
  (w.statefulSets.map liveReplicas, w.pools.map (·.spec.replicas),
      w.pools.map fun p => p.status.map (·.conditions)) =
    ([5], [2], [some [notReady "BrokerDrainBlocked" mismatchMessage]])

/-- The rebalancer answers and a pass runs, again and again. -/
def retries : Nat → List (World → Event)
  | 0 => []
  | n + 1 => rebalance :: pass :: retries n

theorem final_retries {w : World} (hrebalance : History.finish Event.exec (rebalance w) w = w)
    (hpass : History.finish Event.exec (pass w) w = w) (n : Nat) :
    History.final Event.exec (script (retries n) w) w = w := by
  induction n with
  | zero => rfl
  | succ n ih =>
    simp only [retries, script, History.final]
    rw [hrebalance, hpass]
    exact ih

/-- Whether a step removes nodes of the sample pool with brokers. -/
def lowersTo (n : Int) (pool : KafkaNodePool) (st : Prog.Step Req Logged) : Bool :=
  match st.req with
  | .applyStatefulSet desired => (st.before.1.statefulSet? desired.name).any fun live =>
      desired.spec >>= (·.replicas) = some n ∧ n < liveReplicas live ∧
        (liveRoles pool live).broker = true
  | _ => false

def proposes : Req → Bool
  | .applyRebalance _ => true
  | _ => false

/-- A drain is blocked for ever by the proposal of an earlier one, and the completed
    proposal of an earlier drain lets a later one through. -/
theorem leftover_proposal_used :
    (∀ n, isBlocked (History.final Event.exec (script (retries n) blocked) blocked) = true) ∧
    ¬ DrainsAnew "demo" "pool" [] (regrowRun ++ [pass regrown]) (start 3) := by
  constructor
  · intro n
    rw [final_retries (by decide +kernel) (by decide +kernel)]
    decide +kernel
  · intro h
    have hlast := h.last
    have hstep : ((pass regrown).dialogue regrown).any (fun st =>
        lowersTo 2 ((regrown.pool? "pool").getD (pool 1)) st &&
          !(sinceEdit "pool" [] regrowRun (start 3) ++ st.before.2.map (·.1)).any proposes) =
        true := by decide +kernel
    obtain ⟨st, hst, hcheck⟩ := List.any_eq_true.mp hstep
    obtain ⟨hlowers, hnone⟩ := (Bool.and_eq_true _ _).mp hcheck
    unfold lowersTo at hlowers
    split at hlowers
    · next desired hreq =>
      obtain ⟨live, hlive, hdata⟩ := (Option.any_eq_true _ _).mp hlowers
      obtain ⟨hn, hlt, hbroker⟩ := of_decide_eq_true hdata
      obtain ⟨obj, hobj, -⟩ := (hlast _ _ rfl st hst).2 desired live 2 hreq hlive hn hlt hbroker
      have hany : (sinceEdit "pool" [] regrowRun (start 3) ++ st.before.2.map (·.1)).any
          proposes = true := List.any_eq_true.mpr ⟨_, hobj, rfl⟩
      rw [hany] at hnone
      cases hnone
    · cases hlowers

end Sample

end NodePool
