-- SUMMARY: The proof rule for a whole Kafka pass: stages with an invariant each, which the requests between the stages keep.
import KrabkaOperator.Cluster.Reconcile
import KrabkaOperator.User.Requests

/-!
# The rule for a pass

A pass goes through five stages: before the CA calls, after each of the two calls,
after the batch over the users, and after the keystore. Between them it makes
requests that touch neither a CA, nor a user, nor the keystore, nor a pool. A
property of all passes needs one invariant for each stage, a proof for each of the
programs between the stages, and a proof that the other requests keep the
invariants.
-/

namespace Cluster

open Kube Crd Operator ClusterCa

/-! ## The requests between the stages -/

inductive NeutralReq (cluster : String) : Req → Prop
  | getSecret {name : String} : NeutralReq cluster (.getSecret name)
  | now : NeutralReq cluster .now
  | draw : NeutralReq cluster .draw
  | listPools : NeutralReq cluster (.listPools cluster)
  | listStatefulSets : NeutralReq cluster (.listStatefulSets cluster)
  | effect {e : Effect} (h : e ≠ .finalizeKafka) : NeutralReq cluster (.effect e)
  | clusterId {v : ByteString} : NeutralReq cluster
      (.createSecret (clusterIdSecretName cluster) ⟨∅, BTreeMap.ofList [("clusterId", v)]⟩)
  | oauthTrust {v : ByteString} : NeutralReq cluster
      (.applySecret (oauthTrustSecretName cluster) ⟨∅, BTreeMap.ofList [("ca.crt", v)]⟩)
  | operatorIssue {cfg : SecretConfig} : NeutralReq cluster
      (.applySecret (User.operatorSecretName cluster) cfg)
  | operatorRefresh {cfg : SecretConfig} : NeutralReq cluster
      (.mergeSecret (User.operatorSecretName cluster) cfg)

/-- The Secrets that these requests write. -/
def neutralNames (cluster : String) : List String :=
  [clusterIdSecretName cluster, oauthTrustSecretName cluster, User.operatorSecretName cluster]

/-- What these requests leave unchanged. -/
structure Neutral (cluster : String) (a : World) (r : Req) (b : World) : Prop where
  secret : ∀ {name}, name ∉ neutralNames cluster → b.secret? name = a.secret? name
  users : b.users = a.users
  pools : b.pools = a.pools
  statefulSets : b.statefulSets = a.statefulSets
  draws : a.draws ≤ b.draws
  quiet : r.quiet = true
  writes : ∀ {name}, r.secretName? = some name → name ∈ neutralNames cluster
  /-- The only certificate of a user among them is that of the operator. -/
  userCrt : ∀ {name pem}, name ≠ User.operatorSecretName cluster →
    b.readPem name "user.crt" = some pem → a.readPem name "user.crt" = some pem

namespace NeutralReq

variable {cluster : String} {r : Req} {a b : World}

theorem quiet (h : NeutralReq cluster r) : r.quiet = true := by
  cases h with
  | effect he => simpa [Req.quiet] using he
  | _ => rfl

theorem writes (h : NeutralReq cluster r) {name : String} (hn : r.secretName? = some name) :
    name ∈ neutralNames cluster := by
  cases h with
  | clusterId => cases hn; simp [neutralNames]
  | oauthTrust => cases hn; simp [neutralNames]
  | operatorIssue => cases hn; simp [neutralNames]
  | operatorRefresh => cases hn; simp [neutralNames]
  | _ => cases hn

theorem userCrt (h : NeutralReq cluster r) (hans : Answered a r b) {name : String} {pem : Pem}
    (hname : name ≠ User.operatorSecretName cluster)
    (hpem : b.readPem name "user.crt" = some pem) : a.readPem name "user.crt" = some pem := by
  -- A request that does not write the Secret leaves it.
  have hother : r.secretName? ≠ some name → a.readPem name "user.crt" = some pem := by
    intro hne
    rwa [World.readPem, hans.frame.secret name hne, ← World.readPem] at hpem
  cases h with
  | @clusterId v =>
    cases hans with
    | same hr => exact hpem
    | created hnone =>
      by_cases hn : clusterIdSecretName cluster = name
      · subst hn
        rw [World.readPem_setSecret_self, Secret.readPemKey_merge, BTreeMap.getElem?_ofList] at hpem
        simp [Secret.empty, List.lookup_cons] at hpem
      · exact hother fun heq => hn (Option.some_inj.mp heq)
  | @oauthTrust v =>
    cases hans with
    | same hr => exact hpem
    | applied =>
      refine World.readPem_applySecret_of_none ?_ hpem
      rw [BTreeMap.getElem?_ofList]
      rfl
  | operatorIssue => exact hother fun heq => hname (Option.some_inj.mp heq).symm
  | operatorRefresh => exact hother fun heq => hname (Option.some_inj.mp heq).symm
  | _ => exact hother (by simp [Req.secretName?])

theorem neutral (h : NeutralReq cluster r) (hans : Answered a r b) : Neutral cluster a r b where
  secret {_} hname := hans.frame.secret _ fun heq => hname (h.writes heq)
  users := hans.frame.users
  pools := hans.pools h.quiet
  statefulSets := hans.frame.statefulSets
  draws := hans.frame.draws
  quiet := h.quiet
  writes hn := h.writes hn
  userCrt hname hpem := h.userCrt hans hname hpem

end NeutralReq

/-! ## The programs between the stages -/

section Makes

variable {lib : CaLib} {cluster : String}

private theorem makes_quietEffect {e : Effect} (h : e ≠ .finalizeKafka) :
    Prog.Makes (NeutralReq cluster) (effect e) :=
  makes_effect (.effect h)

theorem weakAuthEvents_makes (messages : List String) :
    Prog.Makes (NeutralReq cluster) (weakAuthEvents messages) := by
  induction messages with
  | nil => trivial
  | cons message messages ih => exact (makes_ignoredEffect (.effect (by simp))).bind fun _ => ih

theorem ensureClusterIdSecret_makes (kafka : Kafka) :
    Prog.Makes (NeutralReq kafka.name) (ensureClusterIdSecret lib kafka) := by
  refine (makes_getOpt .getSecret).bind fun existing => ?_
  cases existing with
  | some existing =>
    simp only
    split
    · exact Prog.makes_ite trivial trivial
    · trivial
  | none =>
    refine (makes_draw .draw).bind fun d => ?_
    split
    · trivial
    · exact makes_createSecret .clusterId

theorem validateKafkaRuntime_makes (checks : List (Option String)) :
    Prog.Makes (NeutralReq cluster) (validateKafkaRuntime checks) := by
  induction checks with
  | nil => trivial
  | cons check checks ih =>
    refine (makes_quietEffect (by decide)).bind fun _ => ?_
    cases check with
    | some why => trivial
    | none => exact ih

theorem issueOperatorCert_makes (kafka : Kafka) (signing : CaMaterial) (trustBundlePem : Pem) :
    Prog.Makes (NeutralReq kafka.name) (User.issueOperatorCert lib kafka signing trustBundlePem) := by
  refine (makes_draw .draw).bind fun d => makes_orFail fun cert _ => ?_
  cases kafka.uid with
  | none => trivial
  | some uid => exact (makes_applySecret .operatorIssue).bind fun _ => trivial

theorem ensureOperatorCertSecret_makes (kafka : Kafka) (signing : CaMaterial)
    (trustBundlePem : Pem) : Prog.Makes (NeutralReq kafka.name)
      (User.ensureOperatorCertSecret lib kafka signing trustBundlePem) := by
  have hissue := @issueOperatorCert_makes lib kafka signing trustBundlePem
  refine (makes_getOpt .getSecret).bind fun existing => ?_
  cases existing with
  | none => exact hissue
  | some existing =>
    refine Prog.makes_ite trivial ?_
    split
    · exact hissue
    · refine (makes_now .now).bind fun t => Prog.makes_ite ?_ hissue
      exact User.refreshTrust_makes .operatorRefresh

theorem oauthTrustBundle_makes (bundle : ByteString) (entries : List SecretRef) :
    Prog.Makes (NeutralReq cluster) (oauthTrustBundle bundle entries) := by
  induction entries generalizing bundle with
  | nil => trivial
  | cons entry entries ih =>
    refine (makes_getOpt .getSecret).bind fun existing => ?_
    cases existing with
    | none => trivial
    | some src =>
      simp only
      split
      · trivial
      · exact Prog.makes_ite trivial (ih _)

theorem reconcileOauthJwksTrust_makes (kafka : Kafka)
    (canonical : Option ListenerAuthenticationOAuth) :
    Prog.Makes (NeutralReq kafka.name) (reconcileOauthJwksTrust kafka canonical) := by
  cases canonical with
  | none => trivial
  | some cfg =>
    refine Prog.makes_ite ((oauthTrustBundle_makes _ _).bind fun bundle => ?_) trivial
    cases kafka.uid with
    | none => trivial
    | some uid => exact makes_applySecret .oauthTrust

theorem reconcileOauthIntrospectionSecret_makes (canonical : Option ListenerAuthenticationOAuth) :
    Prog.Makes (NeutralReq cluster) (reconcileOauthIntrospectionSecret canonical) := by
  cases canonical with
  | none => trivial
  | some cfg =>
    refine Prog.makes_ite ?_ trivial
    split
    · trivial
    · refine (makes_getOpt .getSecret).bind fun existing => ?_
      cases existing with
      | none => trivial
      | some src =>
        simp only
        split
        · trivial
        · exact Prog.makes_ite trivial trivial

theorem requireSecretKey_makes (ref : Option SecretRef) (missing : String → ReconcileError)
    (missingKey : String → String → ReconcileError) :
    Prog.Makes (NeutralReq cluster) (requireSecretKey ref missing missingKey) := by
  cases ref with
  | none => trivial
  | some ref =>
    refine (makes_getOpt .getSecret).bind fun existing => ?_
    cases existing with
    | none => trivial
    | some src => exact Prog.makes_ite trivial trivial

theorem dependencyCheck_makes {check : Op Unit} (h : Prog.Makes (NeutralReq cluster) check) :
    Prog.Makes (NeutralReq cluster) (dependencyCheck check) := by
  refine h.attempt.bind fun x => ?_
  cases x with
  | ok _ => trivial
  | error e =>
    exact Prog.makes_ite ((makes_quietEffect (by decide)).bind fun _ => trivial) trivial

theorem validateListenerDependencies_makes (kafka : Kafka) :
    Prog.Makes (NeutralReq kafka.name) (validateListenerDependencies kafka) := by
  refine (dependencyCheck_makes (reconcileOauthJwksTrust_makes kafka _)).bind fun ok => ?_
  refine Prog.makes_ite trivial ?_
  refine (dependencyCheck_makes (reconcileOauthIntrospectionSecret_makes _)).bind fun ok => ?_
  refine Prog.makes_ite trivial ?_
  refine (dependencyCheck_makes ?_).bind fun ok => Prog.makes_ite trivial ?_
  · exact (requireSecretKey_makes _ _ _).bind fun _ => requireSecretKey_makes _ _ _
  · split
    · trivial
    · exact (makes_quietEffect (by decide)).bind fun _ => trivial

end Makes

/-! ## The batch over the users -/

/-- The users whose Secrets a pass writes: live TLS users of the cluster whose names are
    not reserved. -/
def managedUsers (cluster : String) (users : List KafkaUser) : List KafkaUser :=
  (excludeReservedOperatorUser (users.filter fun u => u.cluster? = some cluster) cluster).filter
    fun u => (User.liveTlsAuth? u).isSome

/-- The marker that the batch is complete. -/
def markReq (cluster : String) (generation : Nat) : Req :=
  .mergeSecret (WhichCa.clients.certName cluster)
    ⟨BTreeMap.ofList [(annLeafsKeyGeneration, toString generation)], ∅⟩

/-- The requests of the batch. -/
inductive SyncReq (lib : CaLib) (cluster : String) (users : List KafkaUser)
    (clients : CaReconcileOutcome) : Req → Prop
  | list : SyncReq lib cluster users clients (.listUsers cluster)
  | user {u : KafkaUser} {r : Req} (hu : u ∈ managedUsers cluster users)
      (hr : User.UserReq lib u.name clients.signingMaterial.keyPem r) :
      SyncReq lib cluster users clients r
  | mark (h : clients.leafTransition.requiresReissue = true) :
      SyncReq lib cluster users clients (markReq cluster clients.keyGeneration)

namespace SyncReq

variable {lib : CaLib} {cluster : String} {users : List KafkaUser} {clients : CaReconcileOutcome}
  {r : Req} {a b : World}

theorem quiet (h : SyncReq lib cluster users clients r) : r.quiet = true := by
  cases h with
  | list => rfl
  | user hu hr => exact hr.quiet
  | mark h => rfl

/-- The Secrets that the batch writes. -/
theorem writes (h : SyncReq lib cluster users clients r) {name : String}
    (hn : r.secretName? = some name) :
    (∃ u ∈ managedUsers cluster users, u.name = name) ∨
      name = WhichCa.clients.certName cluster := by
  cases h with
  | list => cases hn
  | user hu hr => exact .inl ⟨_, hu, (hr.secretName? hn).symm⟩
  | mark h => exact .inr (Option.some_inj.mp hn).symm

end SyncReq

theorem mem_managedUsers {cluster : String} {users : List KafkaUser} {u : KafkaUser}
    (hu : u ∈ excludeReservedOperatorUser (users.filter fun u => u.cluster? = some cluster) cluster)
    (hlive : (User.liveTlsAuth? u).isSome) : u ∈ managedUsers cluster users :=
  List.mem_filter.mpr ⟨hu, hlive⟩

/-- Every request of the batch is one for a managed user, or the marker. -/
theorem syncUsers_sat {lib : CaLib} (hlib : lib.Lawful) (cluster : String)
    (clients : CaReconcileOutcome) (w : World) :
    Prog.Sat answer (fun a r b => SyncReq lib cluster w.users clients r ∧ Answered a r b)
      (fun _ _ => True) (syncUsers lib cluster clients) w := by
  unfold syncUsers
  split
  · refine sat_listUsers ⟨.list, .same (by simp)⟩ (fun _ => trivial) ?_
    have hmakes : Prog.Makes (SyncReq lib cluster w.users clients) (do
        let _ ← User.reissueTlsUserCertSecrets lib clients.signingMaterial clients.trustBundlePem
          (excludeReservedOperatorUser (w.users.filter fun u => u.cluster? = some cluster) cluster)
        if clients.leafTransition.requiresReissue then
          markLeafsReissued cluster clients.keyGeneration) := by
      refine Prog.Makes.bind ?_ fun _ => ?_
      · refine (User.reissueTlsUserCertSecrets_makes hlib _ _ _).mono ?_
        rintro r ⟨u, hu, hlive, hr⟩
        exact .user (mem_managedUsers hu hlive) hr
      · split
        · rename_i hreissue
          exact makes_mergeSecret (.mark hreissue)
        · trivial
    refine (hmakes.sat w).mono ?_ fun _ _ h => h
    rintro a r b ⟨hr, c, rfl⟩
    exact ⟨hr, answered r c a⟩
  · trivial

/-! ## The pools -/

/-- The patches of the pools are the only requests of `adoptPools`. -/
theorem adoptPools_makes (parent : Kafka) (pools : List KafkaNodePool) (configHash : String) :
    Prog.Makes (fun r => ∃ name hash, r = .labelPool name hash)
      (adoptPools parent pools configHash) := by
  have hlabels : ∀ labels, Prog.Makes (fun r => ∃ name hash, r = .labelPool name hash)
      (labelPools labels) := by
    intro labels
    induction labels with
    | nil => trivial
    | cons label labels ih =>
      exact Prog.Makes.bind ⟨⟨_, _, rfl⟩, fun _ => makes_kube⟩ fun _ => ih
  unfold adoptPools
  split
  · trivial
  · exact hlabels _

/-! ## The stages -/

/-- One invariant for each stage of a pass. -/
structure Stages where
  start : World → Prop
  /-- After the call on the cluster CA. -/
  cluster : CaReconcileOutcome → World → Prop
  /-- After the call on the clients CA. -/
  clients : CaReconcileOutcome → CaReconcileOutcome → World → Prop
  /-- After the batch over the users. -/
  users : CaReconcileOutcome → CaReconcileOutcome → World → Prop
  keystore : CaReconcileOutcome → CaReconcileOutcome → BrokerKeystoreStatus → World → Prop
  /-- After a CA call that failed. -/
  failed : World → Prop
  /-- After the pools. -/
  finished : World → Prop

/-- The requests between the stages keep an invariant, and are steps in `S`. -/
def Kept (cluster : String) (S : World → Req → World → Prop) (I : World → Prop) : Prop :=
  ∀ a r b, NeutralReq cluster r → Answered a r b → I a → S a r b ∧ I b

/-- The rollout hash of a pass that has its CAs. -/
def passConfigHash (lib : CaLib) (pass : KafkaPass) (cluster clients : CaReconcileOutcome) : String :=
  Config.combinedConfigHash lib pass.kafka.spec (some (caTrust cluster clients)) (explicitPin pass)
    pass.loggingFilter

/-- The call on the cluster CA. -/
def clusterCall (lib : CaLib) (pass : KafkaPass) (conv : Bool) (now : Int) : Op CaReconcileOutcome :=
  reconcileCa lib pass.kafka .cluster (pass.kafka.annotations.contains annForceRenew ||
    pass.kafka.annotations.contains annRenewAfter)
    (pass.kafka.annotations.contains annForceReplaceKey) conv now

/-- The call on the clients CA. -/
def clientsCall (lib : CaLib) (pass : KafkaPass) (conv : Bool) (now : Int) : Op CaReconcileOutcome :=
  reconcileCa lib pass.kafka .clients false
    (pass.kafka.annotations.contains annForceReplaceClientsKey) conv now

/-- Whether the roll has converged for a pass that starts in `w`. -/
def convergedIn (w : World) (cluster : String) : Bool :=
  poolsConverged (w.poolsOf cluster) (w.statefulSetsOf cluster)

/-- The obligations of a property of passes over `pass` that start in `w₀`. -/
structure Stages.Sound {C : Type} (st : Stages) (lib : CaLib) (pass : KafkaPass) (f : C → Choice)
    (S : World → Req → World → Prop) (w₀ : World) : Prop where
  keptStart : Kept pass.kafka.name S st.start
  keptCluster : ∀ o, Kept pass.kafka.name S (st.cluster o)
  keptClients : ∀ o o', Kept pass.kafka.name S (st.clients o o')
  keptUsers : ∀ o o', Kept pass.kafka.name S (st.users o o')
  keptKeystore : ∀ o o' ks, Kept pass.kafka.name S (st.keystore o o' ks)
  keptFailed : Kept pass.kafka.name S st.failed
  clusterCall : ∀ w now, st.start w → Prog.Sat (Prog.via answer f) S
    (fun x v => match x with
      | .ok out => st.cluster out v
      | .error _ => st.failed v)
    (Cluster.clusterCall lib pass (convergedIn w₀ pass.kafka.name) now) w
  clientsCall : ∀ w now o, st.cluster o w → Prog.Sat (Prog.via answer f) S
    (fun x v => match x with
      | .ok out => st.clients o out v
      | .error _ => st.failed v)
    (Cluster.clientsCall lib pass (convergedIn w₀ pass.kafka.name) now) w
  syncUsers : ∀ w o o', st.clients o o' w → Prog.Sat (Prog.via answer f) S
    (fun x v => x = .ok () → st.users o o' v) (Cluster.syncUsers lib pass.kafka.name o') w
  ensureKeystore : ∀ w o o', st.users o o' w → Prog.Sat (Prog.via answer f) S
    (fun x v => ∀ ks, x = .ok ks → st.keystore o o' ks v)
    (ensureBrokerKeystore lib pass.kafka (certRequests pass (w₀.poolsOf pass.kafka.name))
      o.signingMaterial o.leafTransition.requiresReissue) w
  /-- With invalid listeners the pools get the hash without the leafs. -/
  adoptInvalid : ∀ w o o', listenersValid pass = false → st.users o o' w →
    Prog.Sat (Prog.via answer f) S (fun x v => x = .ok () → st.finished v)
      (adoptPools pass.kafka (w₀.poolsOf pass.kafka.name) (passConfigHash lib pass o o')) w
  adopt : ∀ w o o' ks, st.keystore o o' ks w →
    Prog.Sat (Prog.via answer f) S (fun x v => x = .ok () → st.finished v)
      (adoptPools pass.kafka (w₀.poolsOf pass.kafka.name)
        (Config.rolloutConfigHash lib (passConfigHash lib pass o o') ks.leafMaterial)) w
  finalize : ∀ w, st.finished w → S w (.effect .finalizeKafka) w

section Rule

variable {C : Type} {f : C → Choice} {S : World → Req → World → Prop} {lib : CaLib}
  {pass : KafkaPass} {w₀ w : World} {α β : Type}

/-- A program between the stages, at the end of a pass. -/
theorem Kept.sat {cluster : String} {I : World → Prop} (hI : Kept cluster S I) {p : Op α}
    (hp : Prog.Makes (NeutralReq cluster) p) (hw : I w) :
    Prog.Sat (Prog.via answer f) S (fun _ v => I v) p w :=
  hp.stage (fun a r c hr ha => hI a r _ hr (answered r (f c) a) ha) hw

/-- A program between the stages, and what follows it. -/
theorem Kept.bind {cluster : String} {I : World → Prop} (hI : Kept cluster S I) {p : Op α}
    {k : α → Op β} {Q : Except ReconcileError β → World → Prop}
    (hp : Prog.Makes (NeutralReq cluster) p) (hw : I w) (herr : ∀ e v, I v → Q (.error e) v)
    (hk : ∀ a v, I v → Prog.Sat (Prog.via answer f) S Q (k a) v) :
    Prog.Sat (Prog.via answer f) S Q (p >>= k) w := by
  refine Prog.Sat.bind ((hI.sat hp hw).mono (fun _ _ _ h => h) fun x v hv => ?_)
  cases x with
  | error e => exact herr e v hv
  | ok a => exact hk a v hv

/-- An optional program between the stages, and what follows it. -/
theorem Kept.optional {cluster : String} {I : World → Prop} (hI : Kept cluster S I) {c : Prop}
    [Decidable c] {p : Op Unit} {k : Unit → Op β} {Q : Except ReconcileError β → World → Prop}
    (hp : Prog.Makes (NeutralReq cluster) p) (hw : I w) (herr : ∀ e v, I v → Q (.error e) v)
    (hk : ∀ v, I v → Prog.Sat (Prog.via answer f) S Q (k ()) v) :
    Prog.Sat (Prog.via answer f) S Q (if c then p >>= k else k ()) w := by
  split
  · exact hI.bind hp hw herr fun _ v hv => hk v hv
  · exact hk w hw

/-- A CA call and what follows it. -/
theorem sat_caCall {call : Op CaReconcileOutcome} {I : CaReconcileOutcome → World → Prop}
    {J : World → Prop} {k : Option CaReconcileOutcome → Op β}
    (hcall : Prog.Sat (Prog.via answer f) S (fun x v => match x with
      | .ok out => I out v
      | .error _ => J v) call w)
    (hJ : Kept pass.kafka.name S J)
    (hnone : ∀ v, J v → Prog.Sat (Prog.via answer f) S (fun _ _ => True) (k none) v)
    (hsome : ∀ out v, I out v → Prog.Sat (Prog.via answer f) S (fun _ _ => True) (k (some out)) v) :
    Prog.Sat (Prog.via answer f) S (fun _ _ => True) (caCall call >>= k) w := by
  unfold caCall
  rw [Prog.bind_assoc]
  refine Prog.Sat.bind (Prog.Sat.attempt (hcall.mono (fun _ _ _ h => h) fun x v hv => ?_))
  cases x with
  | ok out => exact hsome out v hv
  | error e =>
    cases e with
    | byoCaMissing which =>
      simp only [Prog.bind_assoc]
      exact hJ.bind (makes_effect (.effect (by decide))) hv (fun _ _ _ => trivial)
        fun _ v hv => hnone v hv
    | _ => trivial

variable {st : Stages}

theorem Stages.Sound.reconcileListenerResources (h : st.Sound lib pass f S w₀)
    {o o' : CaReconcileOutcome} (hw : st.users o o' w) :
    Prog.Sat (Prog.via answer f) S (fun x v => x = .ok true → st.finished v)
      (reconcileListenerResources lib pass (w₀.poolsOf pass.kafka.name)
        ⟨o, o', passConfigHash lib pass o o'⟩) w := by
  unfold Cluster.reconcileListenerResources
  cases hvalid : listenersValid pass with
  | false =>
    refine Prog.Sat.bind ((h.adoptInvalid w o o' hvalid hw).mono (fun _ _ _ h => h) fun x v hx => ?_)
    cases x with
    | error e => exact fun h => nomatch h
    | ok _ => exact fun _ => hx rfl
  | true =>
    refine (h.keptUsers o o').bind (validateListenerDependencies_makes pass.kafka) hw
      (fun e v _ h => nomatch h) fun ok v hv => ?_
    cases ok with
    | false => exact fun h => nomatch h
    | true =>
      unfold reconcileValidListenerResources
      simp only [Bool.not_true, Bool.false_eq_true, if_false, Prog.bind_assoc]
      refine (h.keptUsers o o').bind (makes_effect (.effect (by decide))) hv
        (fun e v _ h => nomatch h) fun _ v hv => ?_
      refine Prog.Sat.bind ((h.ensureKeystore v o o' hv).mono (fun _ _ _ h => h) fun x v hx => ?_)
      cases x with
      | error e => exact fun h => nomatch h
      | ok ks =>
        refine (h.keptKeystore o o' ks).bind (makes_effect (.effect (by decide))) (hx ks rfl)
          (fun e v _ h => nomatch h) fun _ v hv => ?_
        have hadopt : ∀ v, st.keystore o o' ks v →
            Prog.Sat (Prog.via answer f) S (fun x v => x = .ok true → st.finished v)
              (adoptPools pass.kafka (w₀.poolsOf pass.kafka.name)
                (Config.rolloutConfigHash lib (passConfigHash lib pass o o') ks.leafMaterial) >>=
                fun _ => pure true) v := by
          intro v hv
          refine Prog.Sat.bind ((h.adopt v o o' ks hv).mono (fun _ _ _ h => h) fun x v hx => ?_)
          cases x with
          | error e => exact fun h => nomatch h
          | ok _ => exact fun _ => hx rfl
        rw [Prog.ite_bind, Prog.bind_assoc]
        exact (h.keptKeystore o o' ks).optional (makes_effect (.effect (by decide))) hv
          (fun e v _ h => nomatch h) hadopt

theorem Stages.Sound.reconcileCas (h : st.Sound lib pass f S w₀) (hw : st.start w)
    {k : Option CaArtifacts → Op Unit}
    (hnone : ∀ v, st.failed v → Prog.Sat (Prog.via answer f) S (fun _ _ => True) (k none) v)
    (hsome : ∀ o o' v, st.users o o' v → Prog.Sat (Prog.via answer f) S (fun _ _ => True)
      (k (some ⟨o, o', passConfigHash lib pass o o'⟩)) v) :
    Prog.Sat (Prog.via answer f) S (fun _ _ => True)
      (reconcileCas lib pass (convergedIn w₀ pass.kafka.name) >>= k) w := by
  unfold Cluster.reconcileCas
  simp only [Prog.bind_assoc]
  refine h.keptStart.bind (makes_now .now) hw (fun _ _ _ => trivial) fun now v hv => ?_
  refine sat_caCall (h.clusterCall v now hv) h.keptFailed hnone fun o v hv => ?_
  simp only [Prog.bind_assoc]
  refine sat_caCall (h.clientsCall v now o hv) h.keptFailed hnone fun o' v hv => ?_
  simp only [Prog.bind_assoc]
  refine (h.keptClients o o').bind (ensureOperatorCertSecret_makes pass.kafka _ _) hv
    (fun _ _ _ => trivial) fun _ v hv => ?_
  refine Prog.Sat.bind ((h.syncUsers v o o' hv).mono (fun _ _ _ h => h) fun x v hx => ?_)
  cases x with
  | error e => trivial
  | ok _ =>
    have hkept := h.keptUsers o o'
    have hv := hx rfl
    simp only [Prog.ite_bind, Prog.bind_assoc]
    refine hkept.optional (makes_effect (.effect (by simp))) hv (fun _ _ _ => trivial)
      fun v hv => ?_
    refine hkept.optional (makes_ignoredEffect (.effect (by simp))) hv (fun _ _ _ => trivial)
      fun v hv => ?_
    exact hkept.optional (makes_ignoredEffect (.effect (by simp))) hv (fun _ _ _ => trivial)
      fun v hv => hsome o o' v hv

/-- A pass whose stages are sound makes steps in `S` only. -/
theorem Stages.Sound.sat (h : st.Sound lib pass f S w₀) (hw₀ : st.start w₀) :
    Prog.Sat (Prog.via answer f) S (fun _ _ => True) (reconcileInner lib pass) w₀ := by
  -- The pools and StatefulSets that the pass reads are those it starts with.
  let I : World → Prop := fun w => st.start w ∧ w.pools = w₀.pools ∧
    w.statefulSets = w₀.statefulSets
  have hI : Kept pass.kafka.name S I := by
    rintro a r b hr hans ⟨hstart, hpools, hsts⟩
    obtain ⟨hS, hb⟩ := h.keptStart a r b hr hans hstart
    have hneutral := hr.neutral hans
    exact ⟨hS, hb, hneutral.pools.trans hpools, hneutral.statefulSets.trans hsts⟩
  unfold reconcileInner
  refine hI.bind (makes_effect (.effect (by decide))) ⟨hw₀, rfl, rfl⟩ (fun _ _ _ => trivial)
    fun _ w hw => ?_
  refine hI.bind (weakAuthEvents_makes _) hw (fun _ _ _ => trivial) fun _ w hw => ?_
  refine hI.bind (ensureClusterIdSecret_makes pass.kafka) hw (fun _ _ _ => trivial) fun _ w hw => ?_
  refine hI.bind (validateKafkaRuntime_makes _) hw (fun _ _ _ => trivial) fun _ w hw => ?_
  have hread : ∀ r, NeutralReq pass.kafka.name r → r ≠ .draw → S w r w := fun r hr hne =>
    (hI w r w hr (.same hne) hw).1
  have hpools : w.poolsOf pass.kafka.name = w₀.poolsOf pass.kafka.name := by
    rw [World.poolsOf, World.poolsOf, hw.2.1]
  have hsts : w.statefulSetsOf pass.kafka.name = w₀.statefulSetsOf pass.kafka.name := by
    rw [World.statefulSetsOf, World.statefulSetsOf, hw.2.2]
  refine sat_listPools_via (hread _ .listPools (by simp)) (fun _ => trivial) ?_
  refine sat_listStatefulSets_via (hread _ .listStatefulSets (by simp)) (fun _ => trivial) ?_
  refine hI.bind (makes_ignoredEffect (.effect (by decide))) hw (fun _ _ _ => trivial)
    fun _ w hw => ?_
  refine hI.bind (makes_effect (.effect (by decide))) hw (fun _ _ _ => trivial) fun _ w hw => ?_
  refine hI.bind (makes_effect (.effect (by decide))) hw (fun _ _ _ => trivial) fun _ w hw => ?_
  split
  · exact (hI.sat (makes_effect (.effect (by decide))) hw).mono (fun _ _ _ h => h)
      fun _ _ _ => trivial
  · rw [hpools, hsts]
    refine h.reconcileCas hw.1 (fun _ _ => trivial) fun o o' v hv => ?_
    refine Prog.Sat.bind ((h.reconcileListenerResources hv).mono (fun _ _ _ h => h)
      fun x v hx => ?_)
    cases x with
    | error e => trivial
    | ok ready =>
      cases ready with
      | false => trivial
      | true =>
        simp only [if_true]
        rw [← Prog.bind_pure (effect .finalizeKafka)]
        exact sat_effect_via (h.finalize v (hx rfl)) (fun _ => trivial) trivial

end Rule

end Cluster
