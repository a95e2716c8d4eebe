-- SUMMARY: Trust before promotion: a CA moves on only after every pool has rolled to a hash of its current bundle, in runs whose passes stamp a pool after they have changed the bundle.
import KrabkaOperator.Cluster.Adopt
import KrabkaOperator.Cluster.Frames
import KrabkaOperator.Cluster.Run
import KrabkaOperator.ClusterCa.Signing

/-!
# Trust before promotion

A pass reads whether the roll has converged before it touches the CAs, and it
stamps the pools with the hash of the new bundle at its end. `TrustStamped` ties
the two: while a CA is in a staged phase, some pool carries a hash that a pass has
computed from the bundle that is stored. All pools of a converged cluster carry one
hash, so then the whole cluster has rolled to that bundle.
-/

namespace Cluster

open Kube Crd Operator ClusterCa

/-! ## Hashes of a bundle -/

/-- The bundle of a CA enters the config hash of a pass with the outcomes `o` and `o'`. -/
def Trusts (which : WhichCa) (bundlePem : Pem) (o o' : CaReconcileOutcome) : Prop :=
  match which with
  | .cluster => o.trustBundlePem = bundlePem
  | .clients => o'.trustBundlePem = bundlePem ∧ o'.phase ≠ .idle

/-- The hash is one of those that a pass computes from the bundle. -/
def ComputedFrom (lib : CaLib) (which : WhichCa) (bundlePem : Pem) (hash : String) : Prop :=
  ∃ pass o o', Trusts which bundlePem o o' ∧ (hash = passConfigHash lib pass o o' ∨
    ∃ leafs, hash = Config.rolloutConfigHash lib (passConfigHash lib pass o o') leafs)

def bundleIn (w : World) (which : WhichCa) (cluster : String) : Option Pem :=
  (certPartIn w which cluster).map (·.bundlePem)

/-- The hash is computed from the bundle, and one of the steps in `log` has stamped a pool
    with it while the bundle was stored. -/
structure Stamped (lib : CaLib) (cluster : String) (log : List (Prog.Step Req World))
    (which : WhichCa) (bundlePem : Pem) (hash : String) : Prop where
  computed : ComputedFrom lib which bundlePem hash
  stamped : ∃ st ∈ log, ∃ name, st.req = .labelPool name hash ∧
    st.after = st.before.labelPool name hash ∧ bundleIn st.before which cluster = some bundlePem

/-- While a CA is in a staged phase, some pool carries a hash of its bundle. -/
def TrustStamped (lib : CaLib) (cluster : String) (log : List (Prog.Step Req World)) (w : World) :
    Prop :=
  ∀ which K C, Stored which cluster w K C → C.phase ≠ .idle → w.poolsOf cluster = [] ∨
    ∃ p ∈ w.poolsOf cluster, ∃ hash, p.configHash? = some hash ∧
      Stamped lib cluster log which C.bundlePem hash

/-- Every pool has rolled to a hash of the bundle. -/
def AllRolled (lib : CaLib) (cluster : String) (log : List (Prog.Step Req World))
    (which : WhichCa) (bundlePem : Pem) (w : World) : Prop :=
  ∀ p ∈ w.poolsOf cluster, ∃ hash sts, p.configHash? = some hash ∧
    RolledSet (w.statefulSetsOf cluster) cluster p hash sts ∧
    Stamped lib cluster log which bundlePem hash

/-- The step changes the key of a CA or its phase. -/
def Advances (which : WhichCa) (cluster : String) (st : Prog.Step Req World) : Prop :=
  keyPartIn st.after which cluster ≠ keyPartIn st.before which cluster ∨
    phase? st.after which cluster ≠ phase? st.before which cluster

/-- A step that advances a CA in a staged phase, which is the promotion of the new key or
    the prune of the old trust, is made where every pool has rolled to its bundle. The
    bundle of the trust phase has the staged certificate. -/
def AdvanceOk (lib : CaLib) (cluster : String) (log : List (Prog.Step Req World))
    (st : Prog.Step Req World) : Prop :=
  ∀ which K C, Stored which cluster st.before K C → C.phase ≠ .idle → Advances which cluster st →
    AllRolled lib cluster log which C.bundlePem st.before ∧
    (C.phase = .keyReplaceTrust → ∃ pc nb, K.pendingCert = some pc ∧ splitPemCerts pc = [nb] ∧
      nb ∈ C.bundle)

/-- The step changes the bundle of a CA of a cluster with pools: it stages a new key, or
    promotes it. -/
def NewTrust (cluster : String) (st : Prog.Step Req World) : Prop :=
  st.before.poolsOf cluster ≠ [] ∧ ∃ which,
    (phase? st.before which cluster = some .idle ∧
      phase? st.after which cluster = some .keyReplaceTrust) ∨
    (phase? st.before which cluster = some .keyReplaceTrust ∧
      phase? st.after which cluster = some .keyReplacePromote)

/-- The step has stamped the first pool in roll order. -/
def FirstPoolStamped (cluster : String) (st : Prog.Step Req World) : Prop :=
  ∃ name hash, (rollOrder st.before cluster).head? = some name ∧
    st.req = .labelPool name hash ∧ st.after = st.before.labelPool name hash

/-! ## Steps that leave the bundles -/

/-- A CA is the same up to its leafs marker. -/
structure Alike (which : WhichCa) (cluster : String) (a b : World) : Prop where
  key : keyPartIn b which cluster = keyPartIn a which cluster
  cert : ∃ leafs : CertPart → Option Nat, certPartIn b which cluster =
    (certPartIn a which cluster).map fun C => { C with leafs := leafs C }

section Alike

variable {lib : CaLib} {cluster : String} {a b w w₀ : World} {r : Req} {which : WhichCa}
  {log : List (Prog.Step Req World)}

theorem SameCa.alike (h : SameCa which cluster a b) : Alike which cluster a b where
  key := by rw [keyPartIn, keyPartIn, h.key]
  cert := by
    refine ⟨(·.leafs), ?_⟩
    rw [h.certPartIn]
    cases ClusterCa.certPartIn a which cluster <;> rfl

theorem Alike.phase? (h : Alike which cluster a b) :
    Cluster.phase? b which cluster = Cluster.phase? a which cluster := by
  obtain ⟨leafs, hcert⟩ := h.cert
  rw [Cluster.phase?, hcert, Option.map_map]
  rfl

theorem Alike.not_advances (h : Alike which cluster a b) : ¬ Advances which cluster ⟨a, r, b⟩ := by
  rintro (hkey | hphase)
  · exact hkey h.key
  · exact hphase h.phase?

/-- The CA before the step. -/
theorem Alike.stored {K : KeyPart} {C : CertPart} (h : Alike which cluster a b)
    (hst : Stored which cluster b K C) : ∃ C₀, Stored which cluster a K C₀ ∧
      C.bundlePem = C₀.bundlePem ∧ C.phase = C₀.phase := by
  obtain ⟨leafs, hcert⟩ := h.cert
  obtain ⟨C₀, hC₀, rfl⟩ := Option.map_eq_some_iff.mp (hcert.symm.trans hst.cert)
  exact ⟨C₀, ⟨h.key.symm.trans hst.key, hC₀⟩, rfl, rfl⟩

/-- A step that leaves both bundles and the pools. -/
theorem TrustStamped.of_alike (h : TrustStamped lib cluster log a)
    (hca : ∀ which, Alike which cluster a b) (hpools : b.pools = a.pools) :
    TrustStamped lib cluster log b := by
  intro which K C hst hphase
  obtain ⟨C₀, hst₀, hbundle, hphase₀⟩ := (hca which).stored hst
  rw [hbundle, World.poolsOf, hpools, ← World.poolsOf]
  exact h which K C₀ hst₀ (hphase₀ ▸ hphase)

end Alike

/-! ## One pass -/

/-- What each request of a pass does. The pass starts after the steps in `log`. -/
structure RollStep (lib : CaLib) (cluster : String) (log : List (Prog.Step Req World))
    (a : World) (r : Req) (b : World) : Prop where
  ok : BothOk lib cluster b
  unique : PoolNamesUnique b
  advance : AdvanceOk lib cluster log ⟨a, r, b⟩
  keeps : ∀ log', ⟨a, r, b⟩ ∈ log' → TrustStamped lib cluster log' a →
    TrustStamped lib cluster log' b ∨ NewTrust cluster ⟨a, r, b⟩
  stamps : ∀ log', ⟨a, r, b⟩ ∈ log' → FirstPoolStamped cluster ⟨a, r, b⟩ →
    TrustStamped lib cluster log' b

/-- The invariant of a pass that started in `w₀` and has not patched a pool yet. -/
structure Rolling (lib : CaLib) (cluster : String) (w₀ w : World) : Prop where
  ok : BothOk lib cluster w
  users : w.users = w₀.users
  pools : w.pools = w₀.pools
  statefulSets : w.statefulSets = w₀.statefulSets

section Pass

variable {lib : CaLib} {cluster : String} {a b w w₀ : World} {r : Req} {which : WhichCa}
  {log : List (Prog.Step Req World)}

theorem not_firstPoolStamped (h : r.quiet = true) : ¬ FirstPoolStamped cluster ⟨a, r, b⟩ := by
  rintro ⟨name, hash, -, rfl, -⟩
  cases h

/-- A request that leaves both bundles and the pools. -/
theorem Rolling.quiet (h : Rolling lib cluster w₀ a) (hw₀ : PoolNamesUnique w₀)
    (hok : BothOk lib cluster b) (hca : ∀ which, Alike which cluster a b)
    (husers : b.users = a.users) (hpools : b.pools = a.pools)
    (hsts : b.statefulSets = a.statefulSets) (hquiet : r.quiet = true) :
    RollStep lib cluster log a r b ∧ Rolling lib cluster w₀ b := by
  refine ⟨⟨hok, ?_, ?_, ?_, ?_⟩, ⟨hok, husers.trans h.users, hpools.trans h.pools,
    hsts.trans h.statefulSets⟩⟩
  · rw [PoolNamesUnique, hpools, h.pools]
    exact hw₀
  · exact fun which K C _ _ hadv => absurd hadv (hca which).not_advances
  · exact fun log' _ ha => .inl (ha.of_alike hca hpools)
  · exact fun log' _ hstamped => absurd hstamped (not_firstPoolStamped hquiet)

theorem Rolling.same (h : Rolling lib cluster w₀ a) (hw₀ : PoolNamesUnique w₀)
    (hca : ∀ which, SameCa which cluster a b) (husers : b.users = a.users)
    (hpools : b.pools = a.pools) (hsts : b.statefulSets = a.statefulSets)
    (hquiet : r.quiet = true) : RollStep lib cluster log a r b ∧ Rolling lib cluster w₀ b :=
  h.quiet hw₀ (fun which => (hca which).ok (h.ok which)) (fun which => (hca which).alike) husers
    hpools hsts hquiet

/-! ### The CA calls -/

/-- Where the roll has converged, every pool has rolled to the bundle that is stored. -/
theorem AllRolled.of_converged {K : KeyPart} {C : CertPart}
    (htrust : TrustStamped lib cluster log w₀) (hst : Stored which cluster w₀ K C)
    (hphase : C.phase ≠ .idle) (hconv : convergedIn w₀ cluster = true) :
    AllRolled lib cluster log which C.bundlePem w₀ := by
  obtain ⟨hrolled, hone⟩ := poolsConverged_rolled hconv
  intro p hp
  obtain ⟨hash, sts, hhash, hsts⟩ := hrolled p hp
  refine ⟨hash, sts, hhash, hsts, ?_⟩
  rcases htrust which K C hst hphase with hnone | ⟨q, hq, hash', hhash', hstamped⟩
  · rw [hnone] at hp
    cases hp
  · have heq : some hash = some hash' := by rw [← hhash, hone p hp q hq, hhash']
    rwa [Option.some_inj.mp heq]

/-- A write in a staged phase needs a converged roll. -/
theorem converged_of_write {conv : Bool} {n : Nat} {K K' : KeyPart} {C C' : CertPart}
    (hw : CaWrite lib which conv n K C K' C') (hphase : C.phase ≠ .idle) : conv = true := by
  cases hw with
  | renew phase => exact absurd phase hphase
  | stage phase => exact absurd phase hphase
  | trust phase => exact absurd phase hphase
  | promoteKey converged => exact converged
  | promoteCert converged => exact converged
  | pruneKey converged => exact converged
  | pruneCert converged => exact converged
  | expire phase => exact absurd phase hphase

theorem Rolling.advance (h : Rolling lib cluster w₀ a) (hw₀ : BothOk lib cluster w₀)
    (htrust : TrustStamped lib cluster log w₀)
    (hw : w.secret? (which.certName cluster) = w₀.secret? (which.certName cluster))
    (hstep : CaStep lib which (convergedIn w₀ cluster) cluster a b)
    (hframe : CallFrame which cluster w a r b) : AdvanceOk lib cluster log ⟨a, r, b⟩ := by
  intro which' K C hst hphase hadv
  by_cases hne : which' = which
  swap
  · exact absurd hadv (SameCa.of_callFrame hframe hne).alike.not_advances
  subst hne
  -- The cert half is still the one that the pass has found.
  have hcert : certPartIn w₀ which' cluster = some C := by
    rcases hframe.once with ⟨hk, hc⟩ | heq
    · exact absurd hadv (SameCa.alike ⟨hk, hc, hframe.draws⟩).not_advances
    · have := hst.cert
      rwa [certPartIn, heq, hw, ← certPartIn] at this
  obtain ⟨K₀, hst₀⟩ : ∃ K₀, Stored which' cluster w₀ K₀ C := by
    rcases hw₀ which' with hnone | ⟨K₀, C₀, hst₀, -⟩
    · simp [certPartIn, hnone] at hcert
    · obtain rfl : C₀ = C := Option.some_inj.mp (hst₀.cert.symm.trans hcert)
      exact ⟨K₀, hst₀⟩
  have hconv : convergedIn w₀ cluster = true := by
    cases hstep.trans with
    | absent before after => exact absurd before hst.secret?
    | created before after => exact absurd before hst.secret?
    | same before after =>
      refine absurd hadv ?_
      rintro (hkey | hph)
      · exact hkey (after.key.trans before.key.symm)
      · exact hph ((phase?_eq_of_stored after).trans (phase?_eq_of_stored before).symm)
    | write before after write =>
      obtain ⟨rfl, rfl⟩ := before.unique hst
      exact converged_of_write write hphase
  refine ⟨?_, fun htrustPhase => ?_⟩
  · have hrolled := AllRolled.of_converged htrust hst₀ hphase hconv
    simp only [AllRolled, World.poolsOf, World.statefulSetsOf, h.pools, h.statefulSets] at hrolled ⊢
    exact hrolled
  · rcases h.ok which' with hnone | ⟨K₁, C₁, hst₁, hinv⟩
    · exact absurd hnone hst.secret?
    · obtain ⟨rfl, rfl⟩ := hst₁.unique hst
      obtain ⟨_, nk, pc, nb, -, hstaged⟩ := hinv.staged htrustPhase
      exact ⟨pc, nb, hstaged.pendingCert, hstaged.split, hstaged.trusted⟩

/-- A write of the machine changes a bundle in the staged phases only with the phase. -/
theorem TrustStamped.write {conv : Bool} (h : TrustStamped lib cluster log a)
    (hother : ∀ which', which' ≠ which → SameCa which' cluster a b) (hpools : b.pools = a.pools)
    (htrans : CaTrans lib which conv cluster a b) :
    TrustStamped lib cluster log b ∨ NewTrust cluster ⟨a, r, b⟩ := by
  -- A new phase is new trust, unless the cluster has no pools.
  have hnew : ((phase? a which cluster = some .idle ∧ phase? b which cluster = some .keyReplaceTrust) ∨
      (phase? a which cluster = some .keyReplaceTrust ∧
        phase? b which cluster = some .keyReplacePromote)) →
      TrustStamped lib cluster log b ∨ NewTrust cluster ⟨a, r, b⟩ := by
    intro hphases
    by_cases hnone : a.poolsOf cluster = []
    · refine .inl fun _ _ _ _ _ => .inl ?_
      rwa [World.poolsOf, hpools, ← World.poolsOf]
    · exact .inr ⟨hnone, which, hphases⟩
  have hkeep : (∀ K' C', Stored which cluster b K' C' → C'.phase ≠ .idle →
      ∃ K, Stored which cluster a K C') → TrustStamped lib cluster log b := by
    intro hback which' K C hst hphase
    rw [World.poolsOf, hpools, ← World.poolsOf]
    by_cases hne : which' = which
    · subst hne
      obtain ⟨K₀, hst₀⟩ := hback K C hst hphase
      exact h which' K₀ C hst₀ hphase
    · exact h which' K C ((hother which' hne).stored.mp hst) hphase
  cases htrans with
  | absent before after =>
    exact .inl (hkeep fun K' C' hst _ => absurd after hst.secret?)
  | created before after inv phase =>
    refine .inl (hkeep fun K' C' hst hph => ?_)
    obtain ⟨rfl, rfl⟩ := after.unique hst
    exact absurd phase hph
  | @same K C before after =>
    refine .inl (hkeep fun K' C' hst hph => ?_)
    obtain ⟨rfl, rfl⟩ := after.unique hst
    exact ⟨K, before⟩
  | @write K K' C C' before after write =>
    have hidle : C'.phase = .idle → TrustStamped lib cluster log b ∨ NewTrust cluster ⟨a, r, b⟩ := by
      intro hC'
      refine .inl (hkeep fun K₁ C₁ hst hph => ?_)
      obtain ⟨rfl, rfl⟩ := after.unique hst
      exact absurd hC' hph
    have hsame : C' = C → TrustStamped lib cluster log b ∨ NewTrust cluster ⟨a, r, b⟩ := by
      rintro rfl
      refine .inl (hkeep fun K₁ C₁ hst hph => ?_)
      obtain ⟨rfl, rfl⟩ := after.unique hst
      exact ⟨K, before⟩
    have hphaseA := phase?_eq_of_stored before
    have hphaseB := phase?_eq_of_stored after
    cases write with
    | renew phase => exact hidle rfl
    | stage phase => exact hsame rfl
    | trust phase => exact hnew (.inl ⟨phase ▸ hphaseA, hphaseB⟩)
    | promoteKey converged phase => exact hsame rfl
    | promoteCert converged phase => exact hnew (.inr ⟨phase ▸ hphaseA, hphaseB⟩)
    | pruneKey converged phase => exact hsame rfl
    | pruneCert converged phase => exact hidle rfl
    | expire phase => exact hidle rfl

theorem Rolling.call (h : Rolling lib cluster w₀ a) (hw₀ : BothOk lib cluster w₀)
    (hunique : PoolNamesUnique w₀) (htrust : TrustStamped lib cluster log w₀)
    (hw : w.secret? (which.certName cluster) = w₀.secret? (which.certName cluster))
    (hstep : CaStep lib which (convergedIn w₀ cluster) cluster a b)
    (hframe : CallFrame which cluster w a r b) :
    RollStep lib cluster log a r b ∧ Rolling lib cluster w₀ b := by
  have hother : ∀ which', which' ≠ which → SameCa which' cluster a b :=
    fun which' hne => .of_callFrame hframe hne
  have hok : BothOk lib cluster b := fun which' => by
    by_cases hne : which' = which
    · exact hne ▸ hstep.ok (h.ok which)
    · exact (hother which' hne).ok (h.ok which')
  have hpools : b.pools = a.pools := hstep.frame.pools
  refine ⟨⟨hok, ?_, h.advance hw₀ htrust hw hstep hframe, ?_, ?_⟩, hok,
    hstep.frame.users.trans h.users, hpools.trans h.pools,
    hstep.frame.statefulSets.trans h.statefulSets⟩
  · rw [PoolNamesUnique, hpools, h.pools]
    exact hunique
  · exact fun log' _ ha => ha.write hother hpools hstep.trans
  · exact fun log' _ hstamped => absurd hstamped (not_firstPoolStamped hframe.quiet)

/-! ### The outcomes -/

/-- The outcome of a call describes the CA that is stored. -/
def Told (lib : CaLib) (which : WhichCa) (cluster : String) (o : CaReconcileOutcome) (w : World) :
    Prop :=
  ∃ K C, OutcomeOk lib which cluster w o K C

theorem Told.alike {o : CaReconcileOutcome} (h : Told lib which cluster o a)
    (hca : Alike which cluster a b) : Told lib which cluster o b := by
  obtain ⟨K, C, hout⟩ := h
  obtain ⟨leafs, hcert⟩ := hca.cert
  refine ⟨K, { C with leafs := leafs C }, ⟨⟨hca.key.trans hout.stored.key, ?_⟩, hout.keyPem,
    hout.certKey, hout.trustBundle, hout.keyGeneration, hout.certGeneration, hout.phase,
    hout.reissue⟩⟩
  rw [hcert, hout.stored.cert]
  rfl

/-- The hashes of a pass are computed from the bundles that are stored. -/
theorem computedFrom_of_told {pass : KafkaPass} {o o' : CaReconcileOutcome} {hash : String}
    (ho : Told lib .cluster cluster o w) (ho' : Told lib .clients cluster o' w)
    (hhash : hash = passConfigHash lib pass o o' ∨
      ∃ leafs, hash = Config.rolloutConfigHash lib (passConfigHash lib pass o o') leafs)
    {K : KeyPart} {C : CertPart} (hst : Stored which cluster w K C) (hphase : C.phase ≠ .idle) :
    ComputedFrom lib which C.bundlePem hash := by
  refine ⟨pass, o, o', ?_, hhash⟩
  cases which with
  | cluster =>
    obtain ⟨K', C', hout⟩ := ho
    obtain ⟨rfl, rfl⟩ := hout.stored.unique hst
    exact hout.trustBundle
  | clients =>
    obtain ⟨K', C', hout⟩ := ho'
    obtain ⟨rfl, rfl⟩ := hout.stored.unique hst
    exact ⟨hout.trustBundle, fun hidle => hphase (hout.phase.symm.trans hidle)⟩

/-- The marker leaves the CAs, up to itself. -/
theorem alike_of_mark {generation : Nat} (hg : generation < 2 ^ 64)
    (hans : Answered a (markReq cluster generation) b) (which : WhichCa) :
    Alike which cluster a b := by
  cases which with
  | cluster =>
    refine SameCa.alike (.of_answered hans (fun heq => ?_) fun heq => ?_)
    · exact keyName_ne_certName (Option.some_inj.mp heq).symm
    · exact certName_ne_of_ne (by decide) (Option.some_inj.mp heq)
  | clients =>
    cases hans with
    | same hr => exact SameCa.alike ⟨rfl, rfl, le_rfl⟩
    | @merged _ _ s hs =>
      refine ⟨?_, fun _ => some generation, ?_⟩
      · rw [keyPartIn, World.secret?_setSecret_of_ne (Ne.symm keyName_ne_certName), keyPartIn]
      · rw [certPartIn, World.secret?_setSecret_self, certPartIn, hs]
        exact certPart?_mark s defaultManager hg

theorem ok_of_mark {generation : Nat} (hg : generation < 2 ^ 64)
    (hans : Answered a (markReq cluster generation) b) (hok : BothOk lib cluster a) :
    BothOk lib cluster b := by
  intro which
  have halike := alike_of_mark hg hans which
  rcases hok which with hnone | ⟨K, C, hst, hinv⟩
  · refine .inl ?_
    cases hans with
    | same hr => exact hnone
    | @merged _ _ s hs =>
      by_cases hname : WhichCa.clients.certName cluster = which.certName cluster
      · rw [hname, hnone] at hs
        cases hs
      · rwa [World.secret?_setSecret_of_ne hname]
  · obtain ⟨leafs, hcert⟩ := halike.cert
    refine .inr ⟨K, { C with leafs := leafs C }, ⟨halike.key.trans hst.key, ?_⟩,
      (hinv.mono hans.frame.draws).setLeafs _⟩
    rw [hcert, hst.cert]
    rfl

/-! ### The pools -/

/-- The invariant of a pass that patches the pools. -/
structure Stamping (lib : CaLib) (cluster : String) (o o' : CaReconcileOutcome) (w : World) :
    Prop where
  ok : BothOk lib cluster w
  clusterTold : Told lib .cluster cluster o w
  clientsTold : Told lib .clients cluster o' w

/-- A patch of a pool with a hash of the stored bundles. -/
theorem trustStamped_labelPool {name hash : String} {log' : List (Prog.Step Req World)}
    (hcomputed : ∀ which K C, Stored which cluster a K C → C.phase ≠ .idle →
      ComputedFrom lib which C.bundlePem hash)
    (hfound : ∃ p ∈ a.poolsOf cluster, p.name = name)
    (hlog : ⟨a, .labelPool name hash, a.labelPool name hash⟩ ∈ log') :
    TrustStamped lib cluster log' (a.labelPool name hash) := by
  intro which K C hst hphase
  have hst' : Stored which cluster a K C := ⟨hst.key, hst.cert⟩
  obtain ⟨p, hp, hname⟩ := hfound
  refine .inr ⟨relabel name hash p, ?_, hash, configHash?_relabel_self hname,
    hcomputed which K C hst' hphase, _, hlog, name, rfl, rfl, ?_⟩
  · rw [poolsOf_labelPool]
    exact List.mem_map_of_mem hp
  · show bundleIn a which cluster = some C.bundlePem
    rw [bundleIn, hst'.cert]
    rfl

/-- A patch of a pool with the hash that it has. -/
theorem TrustStamped.relabel {name hash : String} (h : TrustStamped lib cluster log a)
    (hcurrent : ∀ p ∈ a.pools, p.name = name → p.configHash? = some hash) :
    TrustStamped lib cluster log (a.labelPool name hash) := by
  intro which K C hst hphase
  rw [poolsOf_labelPool]
  rcases h which K C ⟨hst.key, hst.cert⟩ hphase with hnone | ⟨p, hp, hash', hhash, hstamped⟩
  · exact .inl (by rw [hnone]; rfl)
  · refine .inr ⟨_, List.mem_map_of_mem hp, hash', ?_, hstamped⟩
    by_cases hname : p.name = name
    · rw [configHash?_relabel_self hname, ← hhash,
        hcurrent p (mem_pools_of_mem_poolsOf hp) hname]
    · rw [configHash?_relabel_of_ne hname, hhash]

theorem Stamping.step {pass : KafkaPass} {o o' : CaReconcileOutcome} {name hash desired : String}
    (h : Stamping lib cluster o o' a) (hunique : PoolNamesUnique a)
    (hdesired : desired = passConfigHash lib pass o o' ∨
      ∃ leafs, desired = Config.rolloutConfigHash lib (passConfigHash lib pass o o') leafs)
    (hreq : LabelReq cluster desired a name hash) (hans : Answered a (.labelPool name hash) b) :
    RollStep lib cluster log a (.labelPool name hash) b ∧ Stamping lib cluster o o' b := by
  have hca : ∀ which, SameCa which cluster a b := fun which =>
    .of_answered hans (by simp [Req.secretName?]) (by simp [Req.secretName?])
  have hcomputed : ∀ which K C, Stored which cluster a K C → C.phase ≠ .idle →
      ComputedFrom lib which C.bundlePem desired :=
    fun which K C hst hphase => computedFrom_of_told h.clusterTold h.clientsTold hdesired hst hphase
  have hok : BothOk lib cluster b := fun which => (hca which).ok (h.ok which)
  refine ⟨⟨hok, ?_, fun which K C _ _ hadv => absurd hadv (hca which).alike.not_advances, ?_, ?_⟩,
    hok, h.clusterTold.alike (hca .cluster).alike, h.clientsTold.alike (hca .clients).alike⟩
  · cases hans with
    | same hr => exact hunique
    | labelled => exact hunique.labelPool
  · intro log' hlog ha
    cases hans with
    | same hr => exact .inl ha
    | labelled =>
      rcases hreq.hash with rfl | ⟨hcurrent, -⟩
      · exact .inl (trustStamped_labelPool hcomputed hreq.found hlog)
      · exact .inl (ha.relabel hcurrent)
  · rintro log' hlog ⟨name', hash', hfirst, hr, hb⟩
    cases hr
    obtain rfl : b = a.labelPool name hash := hb
    rcases hreq.hash with rfl | ⟨-, hne⟩
    · exact trustStamped_labelPool hcomputed hreq.found hlog
    · exact absurd hfirst hne

/-! ### The stages -/

/-- The invariants of the stages of a pass that starts in `w₀`. -/
def rollStages (lib : CaLib) (cluster : String) (w₀ : World) : Stages where
  start w := Rolling lib cluster w₀ w ∧
    ∀ which : WhichCa, w.secret? (which.certName cluster) = w₀.secret? (which.certName cluster)
  cluster o w := Rolling lib cluster w₀ w ∧ Told lib .cluster cluster o w ∧
    w.secret? (WhichCa.clients.certName cluster) = w₀.secret? (WhichCa.clients.certName cluster)
  clients o o' w := Rolling lib cluster w₀ w ∧ Stamping lib cluster o o' w
  users o o' w := Rolling lib cluster w₀ w ∧ Stamping lib cluster o o' w
  keystore o o' _ w := Rolling lib cluster w₀ w ∧ Stamping lib cluster o o' w
  failed w := Rolling lib cluster w₀ w
  finished w := BothOk lib cluster w ∧ PoolNamesUnique w

theorem Stamping.alike {o o' : CaReconcileOutcome} (h : Stamping lib cluster o o' a)
    (hok : BothOk lib cluster b) (hca : ∀ which, Alike which cluster a b) :
    Stamping lib cluster o o' b :=
  ⟨hok, h.clusterTold.alike (hca .cluster), h.clientsTold.alike (hca .clients)⟩

theorem adoptPools_rollStep {pass : KafkaPass} {o o' : CaReconcileOutcome} {desired : String}
    (hunique : PoolNamesUnique w₀)
    (hw : Rolling lib pass.kafka.name w₀ w ∧ Stamping lib pass.kafka.name o o' w)
    (hdesired : desired = passConfigHash lib pass o o' ∨
      ∃ leafs, desired = Config.rolloutConfigHash lib (passConfigHash lib pass o o') leafs) :
    Prog.Sat answer (RollStep lib pass.kafka.name log)
      (fun x v => x = .ok () → BothOk lib pass.kafka.name v ∧ PoolNamesUnique v)
      (adoptPools pass.kafka (w₀.poolsOf pass.kafka.name) desired) w := by
  have hpools : w.poolsOf pass.kafka.name = w₀.poolsOf pass.kafka.name := by
    rw [World.poolsOf, World.poolsOf, hw.1.pools]
  have huniquew : PoolNamesUnique w := by
    rw [PoolNamesUnique, hw.1.pools]
    exact hunique
  rw [← hpools]
  refine ((adoptPools_sat pass.kafka huniquew).stage (I := fun v =>
    Stamping lib pass.kafka.name o o' v ∧ PoolNamesUnique v) ?_ ⟨hw.2, huniquew⟩).mono
    (fun _ _ _ h => h) fun x v hx _ => ⟨hx.2.1.ok, hx.2.2⟩
  rintro a r b ⟨ha, hua⟩ ⟨⟨name, hash, rfl, hreq⟩, -, hans⟩
  obtain ⟨hstep, hb⟩ := ha.step hua hdesired hreq hans
  exact ⟨hstep, hb, hstep.unique⟩

theorem rollStages_sound (hlib : lib.Lawful) {pass : KafkaPass}
    (hok₀ : BothOk lib pass.kafka.name w₀) (hunique : PoolNamesUnique w₀)
    (htrust : TrustStamped lib pass.kafka.name log w₀)
    (hnames : ∀ which, NoUserNamedLike which pass.kafka.name w₀) :
    (rollStages lib pass.kafka.name w₀).Sound lib pass id
      (RollStep lib pass.kafka.name log) w₀ := by
  have hquiet : ∀ {a r b}, Rolling lib pass.kafka.name w₀ a → NeutralReq pass.kafka.name r →
      Answered a r b → RollStep lib pass.kafka.name log a r b ∧ Rolling lib pass.kafka.name w₀ b := by
    intro a r b ha hr hans
    have hn := hr.neutral hans
    exact ha.same hunique (fun which => .of_neutral hn) hn.users hn.pools hn.statefulSets hn.quiet
  have hstamping : ∀ o o', Kept pass.kafka.name (RollStep lib pass.kafka.name log)
      (fun w => Rolling lib pass.kafka.name w₀ w ∧ Stamping lib pass.kafka.name o o' w) := by
    intro o o' a r b hr hans ha
    obtain ⟨hstep, hb⟩ := hquiet ha.1 hr hans
    exact ⟨hstep, hb, ha.2.alike hb.ok fun which => (SameCa.of_neutral (hr.neutral hans)).alike⟩
  constructor
  case keptStart =>
    intro a r b hr hans ha
    obtain ⟨hstep, hb⟩ := hquiet ha.1 hr hans
    exact ⟨hstep, hb, fun which => ((hr.neutral hans).secret certName_notMem).trans (ha.2 which)⟩
  case keptCluster =>
    intro o a r b hr hans ha
    obtain ⟨hstep, hb⟩ := hquiet ha.1 hr hans
    have hn := hr.neutral hans
    exact ⟨hstep, hb, ha.2.1.alike (SameCa.of_neutral hn).alike,
      (hn.secret certName_notMem).trans ha.2.2⟩
  case keptClients => exact hstamping
  case keptUsers => exact hstamping
  case keptKeystore => exact fun o o' _ => hstamping o o'
  case keptFailed => exact fun a r b hr hans ha => hquiet ha hr hans
  case clusterCall =>
    intro w now hw
    have hsat := (reconcileCa_sat hlib (hw.1.ok .cluster)
      (pass.kafka.annotations.contains annForceRenew ||
        pass.kafka.annotations.contains annRenewAfter)
      (pass.kafka.annotations.contains annForceReplaceKey) (convergedIn w₀ pass.kafka.name) now).and
        (@reconcileCa_frame lib pass.kafka .cluster _ _ _ now w)
    refine (hsat.stage (I := fun v => Rolling lib pass.kafka.name w₀ v ∧
      v.secret? (WhichCa.clients.certName pass.kafka.name) =
        w₀.secret? (WhichCa.clients.certName pass.kafka.name)) ?_ ⟨hw.1, hw.2 .clients⟩).mono
      (fun _ _ _ h => h) fun x v hx => ?_
    · intro a r b ha hab
      obtain ⟨hstep, hb⟩ := ha.1.call hok₀ hunique htrust (hw.2 .cluster) hab.1 hab.2
      exact ⟨hstep, hb, (SameCa.of_callFrame hab.2 (by decide)).cert.trans ha.2⟩
    · cases x with
      | error e => exact hx.2.1
      | ok out =>
        obtain ⟨K, C, hout, -⟩ := hx.1.1 out rfl
        exact ⟨hx.2.1, ⟨K, C, hout⟩, hx.2.2⟩
  case clientsCall =>
    intro w now o hw
    have hsat := (reconcileCa_sat hlib (hw.1.ok .clients) false
      (pass.kafka.annotations.contains annForceReplaceClientsKey) (convergedIn w₀ pass.kafka.name)
      now).and (@reconcileCa_frame lib pass.kafka .clients _ _ _ now w)
    refine (hsat.stage (I := fun v => Rolling lib pass.kafka.name w₀ v ∧
      Told lib .cluster pass.kafka.name o v) ?_ ⟨hw.1, hw.2.1⟩).mono
      (fun _ _ _ h => h) fun x v hx => ?_
    · intro a r b ha hab
      obtain ⟨hstep, hb⟩ := ha.1.call hok₀ hunique htrust hw.2.2 hab.1 hab.2
      exact ⟨hstep, hb, ha.2.alike (SameCa.of_callFrame hab.2 (by decide)).alike⟩
    · cases x with
      | error e => exact hx.2.1
      | ok out =>
        obtain ⟨K, C, hout, -⟩ := hx.1.1 out rfl
        exact ⟨hx.2.1, hx.2.1.ok, hx.2.2, K, C, hout⟩
  case syncUsers =>
    intro w o o' hw
    have hgen : o'.keyGeneration < 2 ^ 64 := by
      obtain ⟨K, C, hout⟩ := hw.2.clientsTold
      rw [hout.keyGeneration]
      exact hout.stored.generation_lt.1
    refine ((syncUsers_sat hlib pass.kafka.name o' w).stage (I := fun v =>
      Rolling lib pass.kafka.name w₀ v ∧ Stamping lib pass.kafka.name o o' v) ?_ hw).mono
      (fun _ _ _ h => h) fun x v hx _ => hx.2
    rintro a r b ha ⟨hreq, hans⟩
    rw [hw.1.users] at hreq
    have hrest : (∀ which, Alike which pass.kafka.name a b) → BothOk lib pass.kafka.name b →
        RollStep lib pass.kafka.name log a r b ∧ Rolling lib pass.kafka.name w₀ b ∧
          Stamping lib pass.kafka.name o o' b := by
      intro hca hok
      obtain ⟨hstep, hb⟩ : RollStep lib pass.kafka.name log a r b ∧
          Rolling lib pass.kafka.name w₀ b := ha.1.quiet hunique hok hca hans.frame.users
        (hans.pools hreq.quiet) hans.frame.statefulSets hreq.quiet
      exact ⟨hstep, hb, ha.2.alike hok hca⟩
    have hsame : (∀ which, SameCa which pass.kafka.name a b) →
        RollStep lib pass.kafka.name log a r b ∧ Rolling lib pass.kafka.name w₀ b ∧
          Stamping lib pass.kafka.name o o' b := fun hca =>
      hrest (fun which => (hca which).alike) fun which => (hca which).ok (ha.1.ok which)
    cases hreq with
    | list =>
      exact hsame fun which => .of_answered hans (by simp [Req.secretName?])
        (by simp [Req.secretName?])
    | user hu hr =>
      refine hsame fun which => .of_answered hans (fun heq => ?_) fun heq => ?_
      · exact (hnames which _ hu).1 (hr.secretName? heq).symm
      · exact (hnames which _ hu).2 (hr.secretName? heq).symm
    | mark h => exact hrest (alike_of_mark hgen hans) (ok_of_mark hgen hans ha.1.ok)
  case ensureKeystore =>
    intro w o o' hw
    refine ((ensureBrokerKeystore_sat hlib (P := fun _ => True) (fun _ => trivial)
      ⟨0, trivial⟩ w).stage (I := fun v => Rolling lib pass.kafka.name w₀ v ∧
        Stamping lib pass.kafka.name o o' v) ?_ hw).mono
      (fun _ _ _ h => h) fun x v hx ks _ => hx.2
    intro a r b ha hab
    have hca : ∀ which, SameCa which pass.kafka.name a b := fun which => KeystoreStep.sameCa hab
    obtain ⟨hstep, hb⟩ : RollStep lib pass.kafka.name log a r b ∧
        Rolling lib pass.kafka.name w₀ b := ha.1.same hunique hca (KeystoreStep.rest hab).1
      (KeystoreStep.rest hab).2.1 (KeystoreStep.rest hab).2.2 (KeystoreStep.quiet hab)
    exact ⟨hstep, hb, ha.2.alike hb.ok fun which => (hca which).alike⟩
  case adoptInvalid => exact fun w o o' _ hw => adoptPools_rollStep hunique hw (.inl rfl)
  case adopt => exact fun w o o' ks hw => adoptPools_rollStep hunique hw (.inr ⟨_, rfl⟩)
  case finalize =>
    intro w hw
    refine ⟨hw.1, hw.2, ?_, fun _ _ ha => .inl ha, ?_⟩
    · intro which K C _ _ hadv
      exact absurd hadv (SameCa.alike ⟨rfl, rfl, le_rfl⟩).not_advances
    · rintro log' - ⟨name, hash, -, hr, -⟩
      cases hr

end Pass

/-! ## Runs -/

/-- The condition on a run: a pass that stages or promotes a key stamps the first pool
    afterwards, no TLS user is named like a Secret of a CA, and only the passes change the
    labels of the pools. -/
def TrustCarriedOut (lib : CaLib) (cluster : String) : Event → World → Prop
  | .pass p choices, w => p.kafka.name = cluster ∧ (∀ which, NoUserNamedLike which cluster w) ∧
      Prog.Covered (NewTrust cluster) (FirstPoolStamped cluster)
        ((reconcileInner lib p).trace answer choices w)
  | .setPools pools, w => ∃ status : KafkaNodePool → Option KafkaNodePoolStatus,
      pools = w.pools.map fun p => { p with status := status p }
  | .setUsers _, _ => True
  | .setStatefulSets _, _ => True

section Runs

variable {lib : CaLib} {cluster : String} {w w₀ : World} {log log' : List (Prog.Step Req World)}

theorem TrustStamped.mono (h : TrustStamped lib cluster log w) (hlog : ∀ st ∈ log, st ∈ log') :
    TrustStamped lib cluster log' w := by
  intro which K C hst hphase
  rcases h which K C hst hphase with hnone | ⟨p, hp, hash, hhash, hcomputed, st, hst, hstamped⟩
  · exact .inl hnone
  · exact .inr ⟨p, hp, hash, hhash, hcomputed, st, hlog st hst, hstamped⟩

/-- The invariant of the states between the events of a run. -/
structure RollInv (lib : CaLib) (cluster : String) (log : List (Prog.Step Req World)) (w : World) :
    Prop where
  ok : BothOk lib cluster w
  unique : PoolNamesUnique w
  trust : TrustStamped lib cluster log w

theorem RollInv.rolling (h : RollInv lib cluster log w) : Rolling lib cluster w w :=
  ⟨h.ok, rfl, rfl, rfl⟩

/-- A change outside of the Secrets that keeps the labels of the pools. -/
theorem RollInv.outside {v : World} (h : RollInv lib cluster log w)
    (hsecrets : v.secrets = w.secrets) (hdraws : v.draws = w.draws)
    {status : KafkaNodePool → Option KafkaNodePoolStatus}
    (hpools : v.pools = w.pools.map fun p => { p with status := status p }) :
    RollInv lib cluster (log ++ []) v := by
  have hsecret : ∀ name, v.secret? name = w.secret? name := fun name => by
    rw [World.secret?, hsecrets, World.secret?]
  have hca : ∀ which, SameCa which cluster w v := fun which =>
    ⟨hsecret _, hsecret _, hdraws.ge⟩
  have hof : v.poolsOf cluster = (w.poolsOf cluster).map fun p => { p with status := status p } := by
    simp only [World.poolsOf, hpools, List.filter_map]
    rfl
  refine ⟨fun which => (hca which).ok (h.ok which), ?_, ?_⟩
  · rw [PoolNamesUnique, hpools, List.map_map]
    exact h.unique
  · rw [List.append_nil]
    intro which K C hst hphase
    rw [hof]
    rcases h.trust which K C ((hca which).stored.mp hst) hphase with hnone | ⟨p, hp, hash, hrest⟩
    · exact .inl (by rw [hnone]; rfl)
    · exact .inr ⟨_, List.mem_map_of_mem hp, hash, hrest⟩

theorem RollInv.exec (hlib : lib.Lawful) {e : Event} (h : RollInv lib cluster log w)
    (he : TrustCarriedOut lib cluster e w) :
    RollInv lib cluster (log ++ e.trace lib w) (History.finish (Event.exec lib) e w) ∧
      ∀ st ∈ e.trace lib w, AdvanceOk lib cluster log st := by
  have hsame : w.pools = w.pools.map fun p => { p with status := p.status } :=
    (List.map_id _).symm
  cases e with
  | pass p choices =>
    obtain ⟨rfl, hnames, hcov⟩ := he
    have hsat := (rollStages_sound hlib h.ok h.unique h.trust hnames).sat
      ⟨h.rolling, fun _ => rfl⟩
    refine ⟨⟨finish_exec_pass h.ok hsat fun _ _ _ hstep => hstep.ok,
      finish_exec_pass h.unique hsat fun _ _ _ hstep => hstep.unique, ?_⟩, ?_⟩
    · rw [finish_pass]
      refine Prog.Sat.recovers hsat (fun st hst hstep => ?_) (fun st hst hstep => ?_) hcov
        (.inl (h.trust.mono fun st hst => List.mem_append_left _ hst))
      · exact hstep.keeps _ (List.mem_append_right _ hst)
      · exact hstep.stamps _ (List.mem_append_right _ hst)
    · exact fun st hst => (hsat.trace choices st hst).advance
  | setUsers users => exact ⟨h.outside rfl rfl hsame, fun st hst => nomatch hst⟩
  | setPools pools =>
    obtain ⟨status, rfl⟩ := he
    exact ⟨h.outside rfl rfl rfl, fun st hst => nomatch hst⟩
  | setStatefulSets statefulSets => exact ⟨h.outside rfl rfl hsame, fun st hst => nomatch hst⟩

theorem RollInv.run (hlib : lib.Lawful) {events : List Event} (h : RollInv lib cluster log w)
    (hrun : History.Along (Event.exec lib) (TrustCarriedOut lib cluster) events w) :
    RollInv lib cluster (log ++ runTrace lib events w)
      (History.final (Event.exec lib) events w) := by
  induction events generalizing w log with
  | nil =>
    rw [runTrace, List.append_nil]
    exact h
  | cons e events ih =>
    rw [runTrace, ← List.append_assoc]
    exact ih (h.exec hlib hrun.1).1 hrun.2

theorem Uncreated.rollInv (h : Uncreated cluster w) (hunique : PoolNamesUnique w) :
    RollInv lib cluster [] w :=
  ⟨h.bothOk, hunique, fun which _ _ hst => absurd (h which) hst.secret?⟩

/-- In every run in which each pass that stages or promotes a key stamps the first pool
    afterwards, a CA in a staged phase advances only where the StatefulSet of every pool has
    rolled to a hash that an earlier pass has computed from the bundle of that phase. -/
theorem advance_of_trust_carried_out (hlib : lib.Lawful) (hw₀ : Uncreated cluster w₀)
    (hunique : PoolNamesUnique w₀) (events : List Event)
    (hrun : History.Along (Event.exec lib) (TrustCarriedOut lib cluster) events w₀) :
    ∀ pre e post, events = pre ++ e :: post →
      ∀ st ∈ e.trace lib (History.final (Event.exec lib) pre w₀),
        AdvanceOk lib cluster (runTrace lib pre w₀) st := by
  rintro pre e post rfl
  obtain ⟨hpre, hpost⟩ := hrun.append
  have hinv := (Uncreated.rollInv hw₀ hunique).run hlib hpre
  rw [List.nil_append] at hinv
  exact (hinv.exec hlib hpost.1).2

end Runs

/-! ## A complete rotation, and one that is cut -/

/-- A label patch of the first pool in roll order. -/
def labelsFirst (cluster : String) (st : Prog.Step Req World) : Bool :=
  match st.req with
  | .labelPool name _ =>
    (rollOrder st.before cluster).head? = some name && st.before.pools.any (·.name = name)
  | _ => false

/-- A condition for passes without faults that can be evaluated. -/
def TrustChecked (lib : CaLib) (cluster : String) : Event → World → Prop
  | .pass p choices, w => p.kafka.name = cluster ∧
      (NoUserNamedLike .cluster cluster w ∧ NoUserNamedLike .clients cluster w) ∧
      (∀ c ∈ choices, c.fault = .none) ∧
      Prog.Covered (NewTrust cluster) (labelsFirst cluster ·)
        ((reconcileInner lib p).trace answer choices w)
  | .setPools _, _ => False
  | _, _ => True

instance {p : WhichCa → Prop} [Decidable (p .cluster)] [Decidable (p .clients)] :
    Decidable (∃ which, p which) :=
  decidable_of_iff (p .cluster ∨ p .clients)
    ⟨fun h => h.elim (fun h => ⟨_, h⟩) fun h => ⟨_, h⟩, fun ⟨which, h⟩ => by cases which <;> simp [h]⟩

instance (cluster : String) : DecidablePred (NewTrust cluster) :=
  fun _ => inferInstanceAs (Decidable (_ ∧ _))

instance (lib : CaLib) (cluster : String) (e : Event) (w : World) :
    Decidable (TrustChecked lib cluster e w) :=
  match e with
  | .pass _ _ => inferInstanceAs (Decidable (_ ∧ _))
  | .setUsers _ => isTrue trivial
  | .setPools _ => isFalse id
  | .setStatefulSets _ => isTrue trivial

theorem TrustChecked.carriedOut {lib : CaLib} {cluster : String} (e : Event) (w : World)
    (h : TrustChecked lib cluster e w) : TrustCarriedOut lib cluster e w := by
  cases e with
  | pass p choices =>
    obtain ⟨hname, hnames, hfaults, hcov⟩ := h
    refine ⟨hname, fun which => ?_, hcov.mono fun st hst hreq => ?_⟩
    · cases which
      · exact hnames.1
      · exact hnames.2
    · unfold labelsFirst at hreq
      split at hreq
      · rename_i name hash hr
        simp only [Bool.and_eq_true, decide_eq_true_eq] at hreq
        exact ⟨name, hash, hreq.1, hr, labelled_of_faultless hfaults st hst hr hreq.2⟩
      · cases hreq
  | setUsers users => trivial
  | setPools pools => exact h.elim
  | setStatefulSets statefulSets => trivial

/-- The cluster CA is created, its key is replaced and promoted, and the old trust is
    pruned, with a roll after each pass. -/
def trustRolled : List Event := Sample.rolling [Sample.passFor [] 60,
  Sample.passFor [annForceReplaceKey] 60, Sample.passFor [] 60, Sample.passFor [] 60] Sample.start

/-- The pass that stages the new key stops after its patch of the cert Secret. -/
def trustCut : List Event := Sample.rolling [Sample.passFor [] 60,
  Sample.passFor [annForceReplaceKey] 13] Sample.start

/-- The step promotes the key of the cluster CA, and no pool has been stamped while the
    bundle with the new certificate was stored. -/
def promotesUnstamped (log : List (Prog.Step Req World)) (st : Prog.Step Req World) : Bool :=
  match keyPartIn st.before .cluster "demo", certPartIn st.before .cluster "demo" with
  | some K, some C =>
    C.phase = .keyReplaceTrust && keyPartIn st.after .cluster "demo" ≠ some K &&
      st.before.poolsOf "demo" ≠ [] && log.all fun st' => match st'.req with
        | .labelPool _ _ => bundleIn st'.before .cluster "demo" ≠ some C.bundlePem
        | _ => true
  | _, _ => false

theorem not_advanceOk_of_promotesUnstamped {lib : CaLib} {log : List (Prog.Step Req World)}
    {st : Prog.Step Req World} (h : promotesUnstamped log st = true) :
    ¬ AdvanceOk lib "demo" log st := by
  unfold promotesUnstamped at h
  split at h
  · rename_i K C hK hC
    simp only [Bool.and_eq_true, decide_eq_true_eq, List.all_eq_true] at h
    obtain ⟨⟨⟨hphase, hkey⟩, hpools⟩, hlog⟩ := h
    intro hok
    have hrolled := (hok .cluster K C ⟨hK, hC⟩ (by rw [hphase]; decide)
      (.inl (by rw [hK]; exact hkey))).1
    obtain ⟨p, hp⟩ := List.exists_mem_of_ne_nil _ hpools
    obtain ⟨hash, _, -, -, -, st', hst', name, hr, -, hbundle⟩ := hrolled p hp
    have := hlog st' hst'
    rw [hr] at this
    simp only [decide_eq_true_eq] at this
    exact this hbundle
  · cases h

/-- The step that marks the promotion of the new key. -/
def promotes (st : Prog.Step Req World) : Bool :=
  phase? st.before .cluster "demo" = some .keyReplaceTrust &&
    phase? st.after .cluster "demo" = some .keyReplacePromote

theorem four_lt_trustRolled : 4 < trustRolled.length := by decide +kernel

/-- The run goes through a promotion, which is made where it may be made. -/
theorem advance_of_rotation :
    ∃ pre e post, trustRolled = pre ++ e :: post ∧
      ∃ st ∈ e.trace SampleLib.lib (History.final (Event.exec SampleLib.lib) pre Sample.start),
        promotes st = true ∧
          AdvanceOk SampleLib.lib "demo" (runTrace SampleLib.lib pre Sample.start) st := by
  have hchecked : History.Along (Event.exec SampleLib.lib) (TrustChecked SampleLib.lib "demo")
      trustRolled Sample.start := by decide +kernel
  have hsplit : trustRolled = trustRolled.take 4 ++ trustRolled.get ⟨4, four_lt_trustRolled⟩ ::
      trustRolled.drop 5 := by
    rw [List.get_eq_getElem, ← List.drop_eq_getElem_cons, List.take_append_drop]
  have hpromotes : ((trustRolled.get ⟨4, four_lt_trustRolled⟩).trace SampleLib.lib
      (History.final (Event.exec SampleLib.lib) (trustRolled.take 4) Sample.start)).any
        promotes = true := by decide +kernel
  obtain ⟨st, hst, hp⟩ := List.any_eq_true.mp hpromotes
  refine ⟨_, _, _, hsplit, st, hst, hp, ?_⟩
  exact advance_of_trust_carried_out SampleLib.lib_lawful
    (fun which => by simp [World.secret?, Sample.start, World.empty])
    (by simp [PoolNamesUnique, Sample.start]) trustRolled
    (hchecked.mono TrustChecked.carriedOut) _ _ _ hsplit st hst

/-- After a pass that stops between its CA patches and its label patch, the next pass finds
    the roll to the old hash converged and promotes the new key. -/
theorem promotion_of_trust_cut :
    SampleLib.lib.Lawful ∧ Uncreated "demo" Sample.start ∧ PoolNamesUnique Sample.start ∧
      (∀ e ∈ trustCut ++ [Sample.passFor [] 60], e.IsOn "demo") ∧
      ∃ st ∈ (Sample.passFor [] 60).trace SampleLib.lib
          (History.final (Event.exec SampleLib.lib) trustCut Sample.start),
        ¬ AdvanceOk SampleLib.lib "demo" (runTrace SampleLib.lib trustCut Sample.start) st := by
  refine ⟨SampleLib.lib_lawful, fun which => by simp [World.secret?, Sample.start, World.empty],
    by simp [PoolNamesUnique, Sample.start], ?_, ?_⟩
  · simp [trustCut, Sample.rolling, Sample.passFor, Sample.roll, Event.IsOn, Sample.pass,
      Kafka.minimal]
  · have hany : ((Sample.passFor [] 60).trace SampleLib.lib
        (History.final (Event.exec SampleLib.lib) trustCut Sample.start)).any
        (promotesUnstamped (runTrace SampleLib.lib trustCut Sample.start)) = true := by
      decide +kernel
    obtain ⟨st, hst, h⟩ := List.any_eq_true.mp hany
    exact ⟨st, hst, not_advanceOk_of_promotesUnstamped h⟩

end Cluster
