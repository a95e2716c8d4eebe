-- SUMMARY: Interleaved passes never remove the last voter, as long as no other removal takes effect between a pass's read of the quorum and its removal.
import KrabkaOperator.Base.Interleave
import KrabkaOperator.NodePool.Run

/-!
# The last voter

A pass removes a voter only when it has read a quorum with more than one voter. The
read and the removal are two requests. Another pass may remove a voter between them.
-/

namespace NodePool

open Kube Crd Operator Interleave

/-! ## What a pass has read before it removes a voter -/

def Req.readsQuorum : Req → Bool
  | .describeMetadataQuorum => true
  | _ => false

def Req.removesVoter : Req → Bool
  | .removeRaftVoter _ => true
  | _ => false

/-- The last quorum that a pass has asked for is `q`. -/
def LastQuorum (log : Prog.Dialogue Resp) (q : Quorum) : Prop :=
  ∃ pre post, log = pre ++ ⟨.describeMetadataQuorum, .ok q⟩ :: post ∧
    ∀ x ∈ post, x.1.readsQuorum = false

/-- A voter is removed only from a quorum that has been read with another one. -/
def VoterGuard (log : Prog.Dialogue Resp) (r : Req) : Prop :=
  ∀ v, r = .removeRaftVoter v → ∃ q, LastQuorum log q ∧ v ∈ q.voters ∧ q.voters.length ≠ 1

theorem lastVoterIn_mem {voters : List Voter} {first last : Int} {v : Voter}
    (h : lastVoterIn voters first last = some v) : v ∈ voters := by
  suffices hfound : ∀ b ∈ lastVoterIn voters first last, b ∈ voters from hfound v h
  unfold lastVoterIn
  apply List.foldlRecOn (motive := fun best => ∀ b ∈ best, b ∈ voters)
  · intro b hb
    cases hb
  · intro best hbest a ha
    have hvoter : a ∈ voters := List.mem_of_mem_filter ha
    cases best with
    | none => simpa using hvoter
    | some b =>
      dsimp only
      split
      · simpa using hvoter
      · exact hbest

section Guard

variable {α : Type} {log : Prog.Dialogue Resp}

theorem behaves_of_kinds {K : List ReqKind} {p : Op α} (h : MakesKinds K p)
    (hks : .voter ∉ K) (log : Prog.Dialogue Resp) : Behaves VoterGuard p log := by
  refine behaves_of_makes h (fun log r hr v heq => ?_) log
  subst heq
  exact absurd hr hks

/-- The voter guard does not look at a read of the quorum. -/
theorem describeMetadataQuorum_behaves {f : Quorum → Op α}
    (h : ∀ quorum, Behaves VoterGuard (f quorum)
      (log ++ [⟨.describeMetadataQuorum, .ok quorum⟩])) :
    Behaves VoterGuard (describeMetadataQuorum >>= f) log := by
  refine ⟨(fun _ h => nomatch h), fun x => ?_⟩
  cases x with
  | error e => trivial
  | ok quorum => exact h quorum

theorem describeMetadataQuorum_attempt_behaves {f : Except ReconcileError Quorum → Op α}
    (herror : ∀ e log, Behaves VoterGuard (f (.error e)) log)
    (h : ∀ quorum, Behaves VoterGuard (f (.ok quorum))
      (log ++ [⟨.describeMetadataQuorum, .ok quorum⟩])) :
    Behaves VoterGuard (describeMetadataQuorum.attempt >>= f) log := by
  refine ⟨(fun _ h => nomatch h), fun x => ?_⟩
  cases x with
  | error e => exact herror (.kube e) _
  | ok quorum => exact h quorum

theorem removeNextVoter_behaves {pool : String} {first last : Int} (log : Prog.Dialogue Resp) :
    Behaves VoterGuard (removeNextVoter pool first last) log := by
  have hq : ReqKind.read ∈ [ReqKind.read] := List.mem_singleton.mpr rfl
  have heffect {e : Effect} (log : Prog.Dialogue Resp) : Behaves VoterGuard (effect e) log :=
    behaves_of_kinds (effect_makes hq) (by decide) log
  have hpatch {cond : Condition} (log : Prog.Dialogue Resp) : Behaves VoterGuard
      (patchStatusForPool pool cond >>= fun _ => pure (some Action.requeue)) log :=
    behaves_of_kinds (K := [.status])
      ((patchStatusForPool_makes (by decide)).bind fun _ => makes_pure) (by decide) log
  unfold removeNextVoter
  refine (heffect log).bind fun _ log => (heffect log).bind fun _ log => ?_
  refine (heffect log).bind fun _ log => describeMetadataQuorum_behaves fun quorum => ?_
  split
  · trivial
  · next target htarget =>
    split
    · exact hpatch _
    · next hlength =>
      refine ⟨(fun _ h => nomatch h), fun client => ?_⟩
      cases client with
      | error e => trivial
      | ok _ =>
        refine ⟨fun v hv => ?_, fun removed => ?_⟩
        · cases hv
          refine ⟨quorum, ⟨log, [⟨.effect .adminClient, .ok ()⟩], by simp, ?_⟩,
            lastVoterIn_mem htarget, hlength⟩
          simp [Req.readsQuorum]
        · cases removed with
          | error e => trivial
          | ok _ => exact hpatch _

theorem removeDeletedVoter_behaves {pool : String} {start replicas : Int}
    (log : Prog.Dialogue Resp) : Behaves VoterGuard (removeDeletedVoter pool start replicas) log := by
  have hq : ReqKind.read ∈ [ReqKind.read] := List.mem_singleton.mpr rfl
  have heffect {e : Effect} (log : Prog.Dialogue Resp) : Behaves VoterGuard (effect e) log :=
    behaves_of_kinds (effect_makes hq) (by decide) log
  unfold removeDeletedVoter
  refine (heffect log).bind fun _ log => (heffect log).bind fun _ log => ?_
  refine (behaves_of_kinds (effect_makes hq).attempt (by decide) log).bind fun client log => ?_
  cases client with
  | error e => trivial
  | ok _ =>
    refine describeMetadataQuorum_attempt_behaves (fun _ _ => trivial) fun quorum => ?_
    dsimp only
    split
    · trivial
    · split
      · trivial
      · next target htarget =>
        split
        · exact behaves_of_kinds (K := [.status])
            ((patchStatusForPool_makes (by decide)).bind fun _ => makes_pure) (by decide) _
        · next hlength =>
          refine ⟨fun v hv => ?_, fun removed => ?_⟩
          · cases hv
            exact ⟨quorum, ⟨log, [], by simp, by simp⟩, lastVoterIn_mem htarget, hlength⟩
          · cases removed <;> trivial

theorem behaves_status {pool : String} {cond : Condition} {action : Action}
    (log : Prog.Dialogue Resp) :
    Behaves VoterGuard (patchStatusForPool pool cond >>= fun _ => pure action) log :=
  behaves_of_kinds (K := [.status])
    ((patchStatusForPool_makes (by decide)).bind fun _ => makes_pure) (by decide) log

theorem reconcileControllerScaleDown_behaves {pool : KafkaNodePool} {cluster : String}
    {observed : Option StatefulSet} (log : Prog.Dialogue Resp) :
    Behaves VoterGuard (reconcileControllerScaleDown pool cluster observed) log := by
  unfold reconcileControllerScaleDown
  split
  · trivial
  split
  · trivial
  refine Behaves.bind ?_ fun drained log => ?_
  · exact behaves_of_kinds (K := [.read, .status, .drain]) (Prog.makes_ite
      (reconcileBrokerDrain_makes (by decide) (by decide) (by decide)) makes_pure) (by decide) log
  cases drained with
  | some action => trivial
  | none =>
    dsimp only
    split
    · trivial
    · split
      · exact removeNextVoter_behaves log
      · trivial

theorem reconcileDeletion_behaves {pool : KafkaNodePool} {parent : Option Parent} {cluster : String}
    (log : Prog.Dialogue Resp) : Behaves VoterGuard (reconcileDeletion pool parent cluster) log := by
  have hrelease {sts : Option StatefulSet} {pods : List Pod} {roles : RoleMask}
      (log : Prog.Dialogue Resp) :
      Behaves VoterGuard (releasePool cluster pool sts pods roles) log := by
    refine behaves_of_kinds (K := [.drain, .life, .sets]) ?_ (by decide) log
    refine Prog.Makes.bind (Prog.makes_when ?_) fun _ => dropFinalizer_makes (by decide) (by decide)
    exact Prog.makes_request (by simp [Req.kind]) fun _ => makes_kube
  have hq : ReqKind.read ∈ [ReqKind.read] := List.mem_singleton.mpr rfl
  unfold reconcileDeletion
  split
  · trivial
  refine (behaves_of_kinds (getStatefulSet_makes hq) (by decide) log).bind fun sts log => ?_
  refine (behaves_of_kinds (listPods_makes hq) (by decide) log).bind fun allPods log => ?_
  dsimp only
  split
  · exact hrelease log
  unfold retireNodes
  refine Behaves.bind ?_ fun drained log => ?_
  · exact behaves_of_kinds (K := [.read, .status, .drain]) (Prog.makes_ite
      (reconcileBrokerDrain_makes (by decide) (by decide) (by decide)) makes_pure) (by decide) log
  cases drained with
  | some action => trivial
  | none =>
    refine Behaves.bind ?_ fun removed log => ?_
    · split
      · exact removeDeletedVoter_behaves log
      · trivial
    cases removed with
    | some action => trivial
    | none => exact hrelease log

theorem reconcilePool_behaves {pass : PoolPass} {parent : Parent} (log : Prog.Dialogue Resp) :
    Behaves VoterGuard (reconcilePool pass parent) log := by
  have hq : ReqKind.read ∈ [ReqKind.read] := List.mem_singleton.mpr rfl
  have hread {β : Type} {p : Op β} (h : MakesKinds [.read] p) (log : Prog.Dialogue Resp) :
      Behaves VoterGuard p log := behaves_of_kinds h (by decide) log
  unfold reconcilePool
  refine (hread (listPools_makes hq) log).bind fun siblings log => ?_
  refine (hread (listStatefulSets_makes hq) log).bind fun statefulsets log => ?_
  refine (hread (listPods_makes hq) log).bind fun pods log => ?_
  split
  · exact behaves_status log
  split
  · exact behaves_status log
  split
  · trivial
  refine (hread (effect_makes hq) log).bind fun _ log => ?_
  refine (hread (ensureDirectoryIds_makes hq _) log).bind fun _ log => ?_
  refine (hread (getStatefulSet_makes hq) log).bind fun observed log => ?_
  split
  · exact behaves_status log
  refine (reconcileControllerScaleDown_behaves log).bind fun action log => ?_
  cases action with
  | some action => trivial
  | none =>
    dsimp only
    unfold applyPool
    split
    · trivial
    · refine behaves_of_kinds (K := [.read, .status, .sets]) ?_ (by decide) log
      exact Prog.Makes.bind (Prog.makes_request (by simp [Req.kind]) fun _ => makes_kube)
        fun _ => reportPool_makes (by decide) (by decide)

/-- Whatever it is answered, a pass removes a voter only after it has read that there is
    another one. -/
theorem reconcileInner_behaves (pass : PoolPass) (log : Prog.Dialogue Resp) :
    Behaves VoterGuard (reconcileInner pass) log := by
  unfold reconcileInner
  dsimp only
  split
  · exact behaves_status log
  split
  · exact behaves_status log
  refine (behaves_of_kinds (getKafka_makes (List.mem_singleton.mpr rfl)) (by decide) log).bind
    fun parent log => ?_
  split
  · exact reconcileDeletion_behaves log
  split
  · exact behaves_status log
  split
  · refine behaves_of_kinds (K := [.life]) ?_ (by decide) log
    exact Prog.Makes.bind (Prog.makes_request (by simp [Req.kind]) fun _ => makes_kube)
      fun _ => makes_pure
  split
  · exact behaves_status log
  · exact behaves_status log
  · exact reconcilePool_behaves log

end Guard

/-! ## Parties -/

abbrev Parties (ι : Type) := State ι World Req Resp ReconcileError Action
abbrev PoolMove (ι : Type) := Move ι World Choice Req Resp ReconcileError Action

section Parties

variable {ι : Type} [DecidableEq ι]

/-- No voter has been removed since a party has last asked for the quorum. -/
def quietFor (i : ι) : List (ι × Req) → Bool
  | [] => true
  | (j, r) :: rest =>
    if j = i ∧ r.readsQuorum = true then true
    else if r.removesVoter then false
    else quietFor i rest

/-- Passes over any pools run in any order. A party removes a voter only when no removal has
    taken effect since it has read the quorum; others only add voters. -/
def RemovesQuietly : PoolMove ι → Parties ι → Prop
  | .start _ p, _ => ∃ pass, p = reconcileInner pass
  | .request i _, s => ∀ v, next (s.party i).1 = some (.removeRaftVoter v) →
      quietFor i s.history = true
  | .change f, s => s.world.quorum.voters ⊆ (f s.world).quorum.voters ∧
      (f s.world).quorum.voters.Nodup

/-- What holds in every state: there is a voter, and a party that has read the quorum
    knows voters that are still there. -/
structure VotersKept (s : Parties ι) : Prop where
  nodup : s.world.quorum.voters.Nodup
  nonempty : s.world.quorum.voters ≠ []
  behaves : ∀ i, Behaves VoterGuard (s.party i).1 (s.party i).2
  known : ∀ i q, LastQuorum (s.party i).2 q → q.voters.Nodup ∧
    (quietFor i s.history = true → q.voters ⊆ s.world.quorum.voters)

/-- The last quorum after one more request. -/
theorem LastQuorum.of_append {log : Prog.Dialogue Resp} {x : (r : Req) × Resp r} {q : Quorum}
    (h : LastQuorum (log ++ [x]) q) :
    (x.1.readsQuorum = false ∧ LastQuorum log q) ∨ x = ⟨.describeMetadataQuorum, .ok q⟩ := by
  obtain ⟨pre, post, heq, hpost⟩ := h
  rcases List.eq_nil_or_concat post with rfl | ⟨post', y, rfl⟩
  · exact .inr (List.cons.inj (List.append_inj' heq rfl).2).1
  · rw [List.concat_eq_append] at heq hpost
    have heq' : log ++ [x] = (pre ++ ⟨.describeMetadataQuorum, .ok q⟩ :: post') ++ [y] := by
      rw [heq]
      simp
    obtain ⟨hlog, hy⟩ := List.append_inj' heq' rfl
    have hxy : x = y := (List.cons.inj hy).1
    subst hxy
    refine .inl ⟨hpost x (by simp), pre, post', hlog, fun z hz => hpost z ?_⟩
    exact List.mem_append_left _ hz

theorem answer_quorum {r : Req} (h : r.removesVoter = false) (c : Choice) (w : World) :
    (answer r c w).2.quorum = w.quorum := by
  have hdone : (r.done w).quorum = w.quorum := by
    cases r with
    | removeRaftVoter v => cases h
    | applyRebalance obj =>
      change (w.applyRebalance obj).quorum = _
      unfold World.applyRebalance
      split <;> rfl
    | applyStatefulSet desired =>
      change (w.applyStatefulSet desired).quorum = _
      unfold World.applyStatefulSet
      split <;> rfl
    | _ => rfl
  rcases answer_cases r c w with heq | heq
  · rw [heq]
  · rw [heq, hdone]

/-- A quorum with another voter keeps it when one is removed. -/
theorem exists_ne_of_length {voters : List Voter} {v : Voter} (hnodup : voters.Nodup)
    (hv : v ∈ voters) (hlength : voters.length ≠ 1) : ∃ u ∈ voters, u ≠ v := by
  by_contra hnone
  have hall : ∀ u ∈ voters, u = v := fun u hu => by_contra fun hne => hnone ⟨u, hu, hne⟩
  have hsub : voters ⊆ [v] := fun u hu => List.mem_singleton.mpr (hall u hu)
  have hle := (List.subperm_of_subset hnodup hsub).length_le
  have hpos := List.length_pos_of_mem hv
  simp only [List.length_singleton] at hle
  omega

/-- A removal with a fresh read leaves a voter. -/
theorem VotersKept.remove {s : Parties ι} (h : VotersKept s) {i : ι} {v : Voter}
    {k : Resp (.removeRaftVoter v) → Op Action}
    (hp : (s.party i).1 = .call (.removeRaftVoter v) k)
    (hquiet : quietFor i s.history = true) :
    removeVoter s.world.quorum.voters v ≠ [] := by
  have hguard := h.behaves i
  rw [hp] at hguard
  obtain ⟨q, hlast, hv, hlength⟩ := hguard.1 v rfl
  obtain ⟨hnodup, hknown⟩ := h.known i q hlast
  obtain ⟨u, hu, hne⟩ := exists_ne_of_length hnodup hv hlength
  have hmem : u ∈ removeVoter s.world.quorum.voters v := by
    simpa [removeVoter] using ⟨hknown hquiet hu, hne⟩
  exact List.ne_nil_of_mem hmem

theorem lastQuorum_answered {s : Parties ι} {i j : ι} {c : Choice} {r : Req}
    {k : Resp r → Op Action} {q : Quorum}
    (h : LastQuorum ((Interleave.answered answer i c s r k).party j).2 q) :
    (LastQuorum (s.party j).2 q ∧ ¬ (i = j ∧ r.readsQuorum = true)) ∨
      (i = j ∧ r.readsQuorum = true ∧ q = s.world.quorum) := by
  by_cases hj : j = i
  · subst hj
    simp only [Interleave.answered, Function.update_self] at h
    rcases h.of_append with ⟨hreads, hlast⟩ | heq
    · exact .inl ⟨hlast, fun hr => by simp [hreads] at hr⟩
    · obtain ⟨rfl, hx⟩ := Sigma.mk.inj heq
      refine .inr ⟨rfl, rfl, ?_⟩
      obtain ⟨fault, clock⟩ := c
      cases fault with
      | none => exact (Except.ok.inj (eq_of_heq hx)).symm
      | refused => cases eq_of_heq hx
      | lost => cases eq_of_heq hx
  · simp only [Interleave.answered, Function.update_of_ne hj] at h
    exact .inl ⟨h, fun hr => hj hr.1.symm⟩

/-- A request of a party that keeps to the rule. -/
theorem VotersKept.answered {s : Parties ι} (h : VotersKept s) {i : ι} {c : Choice} {r : Req}
    {k : Resp r → Op Action} (hp : (s.party i).1 = .call r k)
    (hquiet : ∀ v, r = .removeRaftVoter v → quietFor i s.history = true)
    (hbehaves : ∀ j, Behaves VoterGuard ((Interleave.answered answer i c s r k).party j).1
      ((Interleave.answered answer i c s r k).party j).2) :
    VotersKept (Interleave.answered answer i c s r k) := by
  have hvoters : (answer r c s.world).2.quorum = s.world.quorum ∨ ∃ v, r = .removeRaftVoter v ∧
      (answer r c s.world).2.quorum.voters = removeVoter s.world.quorum.voters v := by
    by_cases hremoves : r.removesVoter = true
    · cases r with
      | removeRaftVoter v =>
        rcases answer_cases (.removeRaftVoter v) c s.world with heq | heq
        · exact .inl (by rw [heq])
        · exact .inr ⟨v, rfl, by rw [heq]; rfl⟩
      | _ => cases hremoves
    · exact .inl (answer_quorum (by simpa using hremoves) c s.world)
  refine ⟨?_, ?_, hbehaves, fun j q hlast => ?_⟩
  · change (answer r c s.world).2.quorum.voters.Nodup
    rcases hvoters with heq | ⟨v, -, heq⟩
    · exact heq ▸ h.nodup
    · exact heq ▸ h.nodup.filter _
  · change (answer r c s.world).2.quorum.voters ≠ []
    rcases hvoters with heq | ⟨v, rfl, heq⟩
    · exact heq ▸ h.nonempty
    · exact heq ▸ h.remove hp (hquiet v rfl)
  · change _ ∧ (quietFor j ((i, r) :: s.history) = true →
      q.voters ⊆ (answer r c s.world).2.quorum.voters)
    rcases lastQuorum_answered hlast with ⟨hold, hno⟩ | ⟨rfl, hreads, rfl⟩
    · refine ⟨(h.known j q hold).1, fun hq => ?_⟩
      unfold quietFor at hq
      rw [if_neg hno] at hq
      split at hq
      · cases hq
      · next hremoves =>
        rw [answer_quorum (by simpa using hremoves) c s.world]
        exact (h.known j q hold).2 hq
    · refine ⟨h.nodup, fun _ => ?_⟩
      have hremoves : r.removesVoter = false := by
        cases r with
        | removeRaftVoter v => cases hreads
        | _ => rfl
      rw [answer_quorum hremoves c s.world]
      exact List.Subset.refl _

theorem VotersKept.step {s : Parties ι} (h : VotersKept s) {m : PoolMove ι}
    (hm : RemovesQuietly m s) : VotersKept (Interleave.step answer m s) := by
  have hbehaves := Behaves.step answer (m := m) h.behaves fun i p heq => by
    subst heq
    obtain ⟨pass, rfl⟩ := hm
    exact reconcileInner_behaves pass []
  cases m with
  | start i p =>
    refine ⟨h.nodup, h.nonempty, hbehaves, fun j q hlast => ?_⟩
    by_cases hj : j = i
    · subst hj
      simp only [Interleave.step, Function.update_self] at hlast
      obtain ⟨pre, post, heq, -⟩ := hlast
      simp at heq
    · simp only [Interleave.step, Function.update_of_ne hj] at hlast
      exact h.known j q hlast
  | change f =>
    obtain ⟨hsub, hnodup⟩ := hm
    refine ⟨hnodup, fun hnil => ?_, hbehaves, fun j q hlast => ?_⟩
    · obtain ⟨v, hv⟩ := List.exists_mem_of_ne_nil _ h.nonempty
      have hmem := hsub hv
      rw [show (f s.world).quorum.voters = [] from hnil] at hmem
      cases hmem
    · obtain ⟨hq, hknown⟩ := h.known j q hlast
      exact ⟨hq, fun hquiet => List.Subset.trans (hknown hquiet) hsub⟩
  | request i c =>
    rcases step_request answer i c s with ⟨r, k, hp, hstep⟩ | ⟨-, hstep⟩
    · rw [hstep] at hbehaves ⊢
      refine h.answered hp (fun v hr => hm v ?_) hbehaves
      subst hr
      rw [hp]
      rfl
    · rw [hstep]
      exact h

/-- In every interleaving of passes in which no removal takes effect between a pass's read
    of the quorum and its own removal, there is always a voter. -/
theorem voters_never_empty {moves : List (PoolMove ι)} {s : Parties ι}
    (hvoters : s.world.quorum.voters ≠ []) (hnodup : s.world.quorum.voters.Nodup)
    (hidle : ∀ i, ∃ a, s.party i = (.ret a, []))
    (h : History.Along (exec answer) RemovesQuietly moves s) :
    ∀ t ∈ History.states (exec answer) moves s, t.world.quorum.voters ≠ [] := by
  have hstart : VotersKept s := by
    refine ⟨hnodup, hvoters, fun i => ?_, fun i q hlast => ?_⟩
    · obtain ⟨a, ha⟩ := hidle i
      rw [ha]
      trivial
    · obtain ⟨a, ha⟩ := hidle i
      rw [ha] at hlast
      obtain ⟨pre, post, heq, -⟩ := hlast
      simp at heq
  refine fun t ht => VotersKept.nonempty (History.invariant_states hstart h ?_ t ht)
  intro m s hm hs t ht
  obtain rfl := List.mem_singleton.mp ht
  exact hs.step hm

end Parties

namespace Sample

/-- A pool of one controller, whose StatefulSet still has two. -/
def controllerPool (name : String) (start : Int) : KafkaNodePool where
  name := name
  labels := BTreeMap.ofList [("krabka.io/cluster", "demo")]
  spec := ⟨1, start, [.controller]⟩
  status := none
  finalizers := [finalizer]

def controllerPass (name : String) (start : Int) : PoolPass := { pool := controllerPool name start }

/-- The StatefulSet of such a pool. -/
def controllerSet (name : String) (start : Int) : StatefulSet :=
  let desired := renderStatefulset { name := "demo" } (controllerPass name start)
  { desired with spec := desired.spec.map fun spec => { spec with replicas := some 2 } }

/-- Two pools are to lose the voters 1 and 11, which are the only ones. -/
def twoPools : Parties Bool where
  world := {
    kafkas := [{ name := "demo" }]
    pools := [controllerPool "a" 0, controllerPool "b" 10]
    statefulSets := [controllerSet "a" 0, controllerSet "b" 10]
    quorum := ⟨1, [⟨1, ""⟩, ⟨11, ""⟩]⟩ }
  party := fun _ => (.ret .requeue, [])
  history := []

def startA : PoolMove Bool := .start true (reconcileInner (controllerPass "a" 0))
def startB : PoolMove Bool := .start false (reconcileInner (controllerPass "b" 10))

/-- The next `n` requests of one party. -/
def requests (i : Bool) (n : Nat) : List (PoolMove Bool) := List.replicate n (.request i {})

/-- A check of `RemovesQuietly` for requests. -/
def quietRequest : PoolMove Bool → Parties Bool → Bool
  | .request i _, s => match next (s.party i).1 with
    | some (.removeRaftVoter _) => quietFor i s.history
    | _ => true
  | _, _ => false

theorem removesQuietly_of_check {m : PoolMove Bool} {s : Parties Bool}
    (h : quietRequest m s = true) : RemovesQuietly m s := by
  cases m with
  | start i p => cases h
  | change f => cases h
  | request i c =>
    intro v hv
    simpa [quietRequest, hv] using h

/-- One of the pools removes its voter. -/
theorem voters_never_empty_demo :
    (History.final (exec answer) (startA :: requests true 13) twoPools).world.quorum.voters ≠ [] := by
  have hrun : History.Along (exec answer) RemovesQuietly (startA :: requests true 13) twoPools := by
    refine ⟨⟨_, rfl⟩, ?_⟩
    exact History.Along.mono (P := fun m s => quietRequest m s = true) (by decide)
      fun _ _ => removesQuietly_of_check
  exact voters_never_empty (by decide) (by decide) (fun _ => ⟨_, rfl⟩) hrun _
    History.final_mem_states

/-- Both pools read two voters, and each removes one. -/
theorem last_voter_removed :
    twoPools.world.quorum.voters ≠ [] ∧
    (History.final (exec answer) ([startA, startB] ++ requests true 11 ++ requests false 11 ++
      requests true 2 ++ requests false 2) twoPools).world.quorum.voters = [] := by
  constructor <;> decide

end Sample

end NodePool
