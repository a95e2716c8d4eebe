-- SUMMARY: The status of a pool follows its StatefulSet, except for counts that the StatefulSet leaves out.
import KrabkaOperator.NodePool.Guards
import KrabkaOperator.NodePool.Leftover

/-!
# Status of a pool

A pass reads its StatefulSet back and patches the status of the pool. A count that
is absent there is absent in the merge patch, which keeps the stored one.
-/

namespace NodePool

open Kube Crd Operator

theorem deriveStatus_counts (live : Option StatefulSet) (desired : Int) :
    (deriveStatus live desired).1 = (live >>= (·.status)).map (·.replicas) ∧
      (deriveStatus live desired).2.1 = (live >>= (·.status)) >>= (·.readyReplicas) := by
  unfold deriveStatus
  cases hst : live >>= (·.status) with
  | none =>
    dsimp only
    split
    · exact ⟨rfl, rfl⟩
    · split <;> exact ⟨rfl, rfl⟩
  | some st =>
    dsimp only
    split
    · exact ⟨rfl, rfl⟩
    · split <;> exact ⟨rfl, rfl⟩

/-! ## What a pass that applies has done -/

/-- The counts of a StatefulSet, as a patch of the status. -/
def countsOf (live : Option StatefulSet) (condition : Condition) : KafkaNodePoolStatus where
  replicas := (live >>= (·.status)).map (·.replicas)
  readyReplicas := (live >>= (·.status)) >>= (·.readyReplicas)
  conditions := [condition]

/-- The world after a pass that applies its StatefulSet and completes. -/
def reported (pass : PoolPass) (parent : Parent) (condition : Condition) (w : World) : World :=
  let applied := w.applyStatefulSet (renderStatefulset parent pass)
  let live := applied.statefulSet? (statefulSetName parent.name pass.pool.name)
  applied.updatePool pass.pool.name fun p =>
    { p with status := some (mergeStatus p.status (countsOf live condition)) }

/-- Reads keep the world, and a program of reads returns in it. -/
theorem sat_reads {α : Type} {p : Op α} (h : MakesKinds [.read] p) (s : Logged) :
    Prog.Sat (Prog.logged answer) anyStep (fun _ b => b.1 = s.1) p s :=
  h.stage (I := fun b : Logged => b.1 = s.1)
    (fun a _ c hr ha => ⟨trivial, (answer_read (List.mem_singleton.mp hr) c a.1).trans ha⟩) rfl

theorem sat_reads_bind {α β : Type} {p : Op α} {f : α → Op β}
    {Q : Except ReconcileError β → Logged → Prop} {s : Logged} (h : MakesKinds [.read] p)
    (herr : ∀ e b, Q (.error e) b)
    (hf : ∀ v b, b.1 = s.1 → Prog.Sat (Prog.logged answer) anyStep Q (f v) b) :
    Prog.Sat (Prog.logged answer) anyStep Q (p >>= f) s := by
  refine Prog.Sat.bind ((sat_reads h s).mono (fun _ _ _ h => h) ?_)
  intro x b hb
  cases x with
  | error e => exact herr e b
  | ok v => exact hf v b hb

theorem reportPool_sat {pass : PoolPass} {parent : Parent} (s : Logged) :
    Prog.Sat (Prog.logged answer) anyStep (fun x b => ∀ a, x = .ok a → ∃ condition,
        b.1 = s.1.updatePool pass.pool.name fun p => { p with status := some (mergeStatus p.status
          (countsOf (s.1.statefulSet? (statefulSetName parent.name pass.pool.name)) condition)) })
      (reportPool pass parent) s := by
  have hq : ReqKind.read ∈ [ReqKind.read] := List.mem_singleton.mpr rfl
  unfold reportPool
  refine sat_reads_bind (Prog.makes_when (effect_makes hq)) (fun _ _ _ h => nomatch h)
    fun _ b hb => ?_
  obtain ⟨w, l⟩ := b
  subst hb
  refine sat_getStatefulSet (fun _ => trivial) (fun _ _ _ h => nomatch h) ?_
  obtain ⟨hreplicas, hready⟩ := deriveStatus_counts
    (s.1.statefulSet? (statefulSetName parent.name pass.pool.name)) pass.pool.spec.replicas
  dsimp only
  generalize deriveStatus _ _ = counts at hreplicas hready ⊢
  obtain ⟨replicas, ready, reason, message⟩ := counts
  dsimp only at hreplicas hready ⊢
  refine sat_reads_bind (evaluatePoolReadiness_makes hq) (fun _ _ _ h => nomatch h)
    fun condition b hb => ?_
  refine sat_reads_bind (Prog.makes_when (effect_makes hq)) (fun _ _ _ h => nomatch h)
    fun _ b' hb' => ?_
  have hw : b'.1 = s.1 := hb'.trans hb
  rintro ⟨_ | _ | _, clock⟩
  · refine ⟨trivial, fun a _ => ⟨condition, ?_⟩⟩
    change b'.1.updatePool _ _ = _
    rw [hw, hreplicas, hready]
    rfl
  · exact ⟨trivial, fun _ h => nomatch h⟩
  · exact ⟨trivial, fun _ h => nomatch h⟩

theorem applyPool_sat {pass : PoolPass} {parent : Parent} (s : Logged) :
    Prog.Sat (Prog.logged answer) anyStep
      (fun x b => ∀ a, x = .ok a → ∃ condition, b.1 = reported pass parent condition s.1)
      (applyPool pass parent) s := by
  unfold applyPool
  split
  · exact fun _ h => nomatch h
  · rintro ⟨_ | _ | _, clock⟩
    · have hreport := @reportPool_sat pass parent
        (Prog.logged answer (.applyStatefulSet (renderStatefulset parent pass)) { clock } s).2
      exact ⟨trivial, hreport⟩
    · exact ⟨trivial, fun _ h => nomatch h⟩
    · exact ⟨trivial, fun _ h => nomatch h⟩

/-! ## Passes -/

/-- A pass has applied a StatefulSet. -/
def Applied (log : Prog.Dialogue Resp) : Prop := ∃ desired, .applyStatefulSet desired ∈ log.map (·.1)

/-- A program that applies no StatefulSet. -/
abbrev Unapplied {α : Type} (p : Op α) : Prop :=
  Prog.Makes (fun r => ∀ desired, r ≠ .applyStatefulSet desired) p

theorem MakesKinds.unapplied {α : Type} {K : List ReqKind} {p : Op α} (h : MakesKinds K p)
    (hks : .sets ∉ K) : Unapplied p := by
  refine h.mono fun r hr desired heq => ?_
  subst heq
  exact hks hr

theorem sat_unapplied {α : Type} {p : Op α} (h : Unapplied p) {s : Logged} (hs : ¬ Applied s.2) :
    Prog.Sat (Prog.logged answer) anyStep (fun _ b => ¬ Applied b.2) p s := by
  refine h.stage (I := fun b : Logged => ¬ Applied b.2) (fun a r c hr ha => ⟨trivial, ?_⟩) hs
  rintro ⟨desired, hmem⟩
  simp only [Prog.logged, List.map_append, List.map_cons, List.map_nil, List.mem_append,
    List.mem_singleton] at hmem
  rcases hmem with hmem | heq
  · exact ha ⟨desired, hmem⟩
  · exact hr desired heq.symm

theorem reconcileDeletion_unapplied {pool : KafkaNodePool} {parent : Option Parent}
    {cluster : String} : Unapplied (reconcileDeletion pool parent cluster) := by
  have hrelease {sts : Option StatefulSet} {pods : List Pod} {roles : RoleMask} :
      Unapplied (releasePool cluster pool sts pods roles) := by
    unfold releasePool
    refine Prog.Makes.bind (Prog.makes_when ?_) fun _ => ?_
    · exact Prog.makes_request (fun _ h => nomatch h) fun _ => makes_kube
    · exact (dropFinalizer_makes (K := [.drain, .life]) (by decide) (by decide)).unapplied
        (by decide)
  unfold reconcileDeletion
  refine Prog.makes_ite trivial ?_
  refine Prog.Makes.bind (Prog.makes_request (fun _ h => nomatch h) fun _ => makes_kube)
    fun sts => ?_
  refine Prog.Makes.bind (Prog.makes_request (fun _ h => nomatch h) fun _ => makes_kube)
    fun allPods => ?_
  refine Prog.makes_ite hrelease ?_
  unfold retireNodes
  refine Prog.Makes.bind ?_ fun drained => ?_
  · exact Prog.makes_ite ((reconcileBrokerDrain_makes (K := [.read, .status, .drain]) (by decide)
      (by decide) (by decide)).unapplied (by decide)) makes_pure
  cases drained with
  | some action => trivial
  | none =>
    refine Prog.Makes.bind ?_ fun removed => ?_
    · exact Prog.makes_ite ((removeDeletedVoter_makes (K := [.read, .status, .voter]) (by decide)
        (by decide) (by decide)).unapplied (by decide)) makes_pure
    cases removed with
    | some action => trivial
    | none => exact hrelease

/-- The end of a pass that has applied its StatefulSet. -/
abbrev Reports (pass : PoolPass) (w : World) (x : Except ReconcileError Action) (b : Logged) :
    Prop :=
  ∀ a, x = .ok a → Applied b.2 → ∃ parent condition, pass.pool.cluster? = some parent.name ∧
    b.1 = reported pass parent condition w

theorem reports_of_unapplied {pass : PoolPass} {w : World} {p : Op Action} {s : Logged}
    (h : Unapplied p) (hs : ¬ Applied s.2) :
    Prog.Sat (Prog.logged answer) anyStep (Reports pass w) p s :=
  (sat_unapplied h hs).mono (fun _ _ _ h => h) fun _ _ hb _ _ happ => absurd happ hb

/-- Reads before the apply. -/
theorem reports_reads_bind {α : Type} {pass : PoolPass} {p : Op α} {f : α → Op Action} {s : Logged}
    (h : MakesKinds [.read] p) (hs : ¬ Applied s.2)
    (hf : ∀ v b, b.1 = s.1 → ¬ Applied b.2 →
      Prog.Sat (Prog.logged answer) anyStep (Reports pass s.1) (f v) b) :
    Prog.Sat (Prog.logged answer) anyStep (Reports pass s.1) (p >>= f) s := by
  have hboth := (sat_reads h s).and (sat_unapplied (h.unapplied (by decide)) hs)
  refine Prog.Sat.bind (hboth.mono (fun _ _ _ _ => trivial) ?_)
  rintro x b ⟨hb, hnot⟩
  cases x with
  | error e => exact fun _ h => nomatch h
  | ok v => exact hf v b hb hnot

theorem reports_status {pass : PoolPass} {w : World} {cond : Condition} {action : Action}
    {s : Logged} (hs : ¬ Applied s.2) :
    Prog.Sat (Prog.logged answer) anyStep (Reports pass w)
      (patchStatusForPool pass.pool.name cond >>= fun _ => pure action) s :=
  reports_of_unapplied (MakesKinds.unapplied (K := [.status])
    ((patchStatusForPool_makes (by decide)).bind fun _ => makes_pure) (by decide)) hs

theorem reconcilePool_reports {pass : PoolPass} {parent : Parent}
    (hpos : 1 ≤ pass.pool.spec.replicas) (hcluster : pass.pool.cluster? = some parent.name)
    {s : Logged} (hs : ¬ Applied s.2) :
    Prog.Sat (Prog.logged answer) anyStep (Reports pass s.1) (reconcilePool pass parent) s := by
  have hq : ReqKind.read ∈ [ReqKind.read] := List.mem_singleton.mpr rfl
  obtain ⟨w, l⟩ := s
  unfold reconcilePool
  refine reports_reads_bind (listPools_makes hq) hs fun siblings ⟨w, l⟩ hw hs => ?_
  cases hw
  refine reports_reads_bind (listStatefulSets_makes hq) hs fun statefulsets ⟨w, l⟩ hw hs => ?_
  cases hw
  refine reports_reads_bind (listPods_makes hq) hs fun pods ⟨w, l⟩ hw hs => ?_
  cases hw
  split
  · exact reports_status hs
  split
  · exact reports_status hs
  split
  · exact fun _ h => nomatch h
  refine reports_reads_bind (effect_makes hq) hs fun _ ⟨w, l⟩ hw hs => ?_
  cases hw
  refine reports_reads_bind (ensureDirectoryIds_makes hq _) hs fun _ ⟨w, l⟩ hw hs => ?_
  cases hw
  refine sat_getStatefulSet (fun _ => trivial) (fun _ _ _ h => nomatch h) ?_
  have hread : ¬ Applied (l ++ [⟨.getStatefulSet (statefulSetName parent.name pass.pool.name),
      .ok (w.statefulSet? (statefulSetName parent.name pass.pool.name))⟩]) := by
    simpa [Applied] using hs
  split
  · exact reports_status hread
  have hgates := (@reconcileControllerScaleDown_open _ parent.name hpos
    (w, l ++ _) _ rfl).and (sat_unapplied ((reconcileControllerScaleDown_makes
      (K := [.read, .status, .drain, .voter]) (by decide) (by decide) (by decide)
      (by decide)).unapplied (by decide)) hread)
  refine Prog.Sat.bind (hgates.mono (fun _ _ _ _ => trivial) ?_)
  rintro x b ⟨hopen, hnot⟩
  cases x with
  | error e => exact fun _ h => nomatch h
  | ok action =>
    cases action with
    | some action => exact fun _ _ happ => absurd happ hnot
    | none =>
      have hb : b.1 = w := (hopen rfl).1
      refine (applyPool_sat b).mono (fun _ _ _ h => h) fun x b' h a hx _ => ?_
      obtain ⟨condition, hreport⟩ := h a hx
      exact ⟨parent, condition, hcluster, hb ▸ hreport⟩

theorem reconcileInner_reports {pass : PoolPass} (w : World) :
    Prog.Sat (Prog.logged answer) anyStep (Reports pass w) (reconcileInner pass) (w, []) := by
  have hstart : ¬ Applied ([] : Prog.Dialogue Resp) := by simp [Applied]
  unfold reconcileInner
  dsimp only
  split
  · exact reports_status hstart
  · next hvalid =>
    split
    · exact reports_status hstart
    · next cluster hcluster =>
      refine sat_getKafka (fun _ => trivial) (fun _ _ _ h => nomatch h) ?_
      have hread : ¬ Applied ([] ++ [⟨.getKafka cluster,
          .ok (w.kafkas.find? (·.name = cluster))⟩]) := by simp [Applied]
      split
      · exact reports_of_unapplied reconcileDeletion_unapplied hread
      · split
        · exact reports_status hread
        · next parent hparent =>
          have hname : parent.name = cluster := by simpa using List.find?_some hparent
          split
          · refine reports_of_unapplied ?_ hread
            exact Prog.Makes.bind (Prog.makes_request (fun _ h => nomatch h) fun _ => makes_kube)
              fun _ => makes_pure
          · split
            · exact reports_status hread
            · exact reports_status hread
            · exact reconcilePool_reports (validate_nodes hvalid).1 (hname ▸ hcluster) hread

/-! ## Counts -/

section Counts

variable (cluster name : String)

/-- The status of the live StatefulSet of a pool. -/
def liveStatus (w : World) : Option StatefulSetStatus :=
  w.statefulSet? (statefulSetName cluster name) >>= (·.status)

/-- The stored counts of a pool are those of its StatefulSet; absent is zero. -/
def Mirrors (w : World) : Prop :=
  ∀ q ∈ w.pool? name,
    (q.status >>= (·.replicas)).getD 0 = ((liveStatus cluster name w).map (·.replicas)).getD 0 ∧
    (q.status >>= (·.readyReplicas)).getD 0 =
      ((liveStatus cluster name w) >>= (·.readyReplicas)).getD 0

/-- Where the StatefulSet leaves out a count, the stored one is zero or absent. -/
def NoStaleCount (w : World) : Prop :=
  ∀ q ∈ w.pool? name,
    (liveStatus cluster name w = none → (q.status >>= (·.replicas)).getD 0 = 0) ∧
    ((liveStatus cluster name w) >>= (·.readyReplicas) = none →
      (q.status >>= (·.readyReplicas)).getD 0 = 0)

instance (w : World) : Decidable (Mirrors cluster name w) :=
  inferInstanceAs (Decidable (∀ q ∈ w.pool? name, _ ∧ _))

instance (w : World) : Decidable (NoStaleCount cluster name w) :=
  inferInstanceAs (Decidable (∀ q ∈ w.pool? name, _ ∧ _))

end Counts

/-- An apply keeps the status. -/
theorem status_applyStatefulSet {w : World} {desired : StatefulSet} {name : String} :
    (w.applyStatefulSet desired).statefulSet? name >>= (·.status) =
      w.statefulSet? name >>= (·.status) := by
  unfold World.applyStatefulSet
  split
  · next hnone =>
    by_cases hname : desired.name = name
    · subst hname
      have hnone' : w.statefulSets.find? (·.name = desired.name) = none := hnone
      simp [World.statefulSet?, List.find?_append, hnone']
    · simp [World.statefulSet?, List.find?_append, hname]
  · have hmap : (w.updateStatefulSet desired.name fun old => appliedSet old desired).statefulSet?
        name = (w.statefulSet? name).map
          fun p => if p.name = desired.name then appliedSet p desired else p := by
      refine find?_map_of_same fun p => ?_
      split <;> rfl
    rw [hmap]
    cases w.statefulSet? name with
    | none => rfl
    | some old =>
      simp only [Option.map_some, Option.bind_eq_bind, Option.bind_some]
      split <;> rfl

section Reported

variable {pass : PoolPass} {parent : Parent} {condition : Condition} {w : World}

theorem liveStatus_reported :
    liveStatus parent.name pass.pool.name (reported pass parent condition w) =
      liveStatus parent.name pass.pool.name w :=
  status_applyStatefulSet

/-- The stored pool after a pass: the counts that the StatefulSet has replace the old ones. -/
theorem pool?_reported :
    (reported pass parent condition w).pool? pass.pool.name =
      (w.pool? pass.pool.name).map fun q => { q with status := some (mergeStatus q.status
        ⟨(liveStatus parent.name pass.pool.name w).map (·.replicas),
          (liveStatus parent.name pass.pool.name w) >>= (·.readyReplicas), [condition]⟩) } := by
  have hpool : (w.applyStatefulSet (renderStatefulset parent pass)).pool? pass.pool.name =
      w.pool? pass.pool.name := by
    unfold World.pool?
    rw [applyStatefulSet_pools.1]
  refine (pool?_updatePool ?_).trans ?_
  · exact fun _ => rfl
  rw [hpool]
  cases hq : w.pool? pass.pool.name with
  | none => rfl
  | some q =>
    have hname : q.name = pass.pool.name := by simpa using List.find?_some hq
    simp only [Option.map_some, hname, if_true, countsOf, status_applyStatefulSet]
    rfl

theorem getD_or_eq_iff {x old : Option Int} :
    ((x.or old).getD 0 = x.getD 0) ↔ (x = none → old.getD 0 = 0) := by
  cases x with
  | none => simp
  | some n => simp

/-- A completed pass mirrors its StatefulSet exactly when no stale count is stored. -/
theorem mirrors_reported_iff :
    Mirrors parent.name pass.pool.name (reported pass parent condition w) ↔
      NoStaleCount parent.name pass.pool.name w := by
  unfold Mirrors NoStaleCount
  rw [liveStatus_reported, pool?_reported]
  cases w.pool? pass.pool.name with
  | none => simp
  | some q =>
    simp only [Option.map_some, Option.mem_def, Option.some.injEq, forall_eq', mergeStatus, Option.bind_eq_bind,
      Option.bind_some, getD_or_eq_iff, Option.map_eq_none_iff]

end Reported

/-! ## Runs -/

/-- A pass completes normally and has applied its StatefulSet. -/
def CompletesApplied (p : PoolPass) (choices : List Choice) (w : World) : Prop :=
  (∃ a, ((reconcileInner p).run answer choices w).1 = .done a) ∧
    ∃ desired, .applyStatefulSet desired ∈ Event.requests (.pass p choices) w

/-- In every run, a pass that completes with an applied StatefulSet leaves the counts of the
    StatefulSet in the status exactly when it finds no stale count. -/
theorem status_mirrors_iff (events : List Event) (w : World) :
    History.Along Event.exec (fun e w => ∀ p choices cluster, e = .pass p choices →
      p.pool.cluster? = some cluster → CompletesApplied p choices w →
      (Mirrors cluster p.pool.name (History.finish Event.exec e w) ↔
        NoStaleCount cluster p.pool.name w)) events w := by
  refine History.along_of_forall (fun e w p choices cluster he hcluster hdone => ?_) events w
  subst he
  obtain ⟨⟨a, hrun⟩, happlied⟩ := hdone
  have hsame := (Prog.run_logged answer (reconcileInner p) choices w []).1
  have hpost := (@reconcileInner_reports p w).run_done
    (Prod.ext (hsame.trans hrun) rfl)
  obtain ⟨parent, condition, hparent, hreported⟩ := hpost a rfl happlied
  have hname : cluster = parent.name := Option.some.inj (hcluster.symm.trans hparent)
  rw [finish_pass, hreported, hname]
  exact mirrors_reported_iff

namespace Sample

/-- The StatefulSets report their pods. -/
def report (ready : Option Int) (_ : World) : Event :=
  .change fun w => { w with statefulSets := w.statefulSets.map fun s => { s with
    status := some ⟨s.generation, liveReplicas s, ready, none, none, none, none, none⟩ } }

/-- All three pods of the pool are ready, and a pass copies that. -/
def readyPool : World := History.final Event.exec (script [pass, report (some 3), pass] (start 3))
  (start 3)

/-- Then no pod is ready, and the StatefulSet leaves the count out. -/
def downPool : World := History.finish Event.exec (report none readyPool) readyPool

def applies : Req → Bool
  | .applyStatefulSet _ => true
  | _ => false

theorem completesApplied_of_check {w : World}
    (hdone : ((reconcileInner { pool := (w.pool? "pool").getD (pool 1) }).run answer
      (List.replicate 40 {}) w).1 = .done .requeue)
    (hany : ((pass w).requests w).any applies = true) :
    CompletesApplied { pool := (w.pool? "pool").getD (pool 1) } (List.replicate 40 {}) w := by
  refine ⟨⟨_, hdone⟩, ?_⟩
  obtain ⟨r, hr, happ⟩ := List.any_eq_true.mp hany
  cases r with
  | applyStatefulSet desired => exact ⟨desired, hr⟩
  | _ => cases happ

theorem status_mirrors_ready :
    Mirrors "demo" "pool" (History.finish Event.exec (pass readyPool) readyPool) ↔
      NoStaleCount "demo" "pool" readyPool :=
  (status_mirrors_iff [pass readyPool] readyPool).1 _ _ "demo" rfl (by decide)
    (completesApplied_of_check (by decide) (by decide))

/-- The pass completes, and the pool still shows three ready pods. -/
theorem stale_ready_count :
    CompletesApplied { pool := (downPool.pool? "pool").getD (pool 1) } (List.replicate 40 {})
      downPool ∧
    ¬ Mirrors "demo" "pool" (History.finish Event.exec (pass downPool) downPool) :=
  ⟨completesApplied_of_check (by decide) (by decide), by decide⟩

end Sample

end NodePool
