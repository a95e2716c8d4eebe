-- SUMMARY: A pass is split where it adopts the pools, and an adoption with the hash that all pools have changes none of them.
import KrabkaOperator.Cluster.Adopt
import KrabkaOperator.Cluster.Run
import KrabkaOperator.ClusterCa.Frame

/-!
# Adoption

Everything that a pass does before it stamps the pools is one program, whose result
determines the hash.
-/

namespace Cluster

open Kube Crd Operator ClusterCa

/-- What a pass adopts its pools with. -/
structure Adoption where
  pools : List KafkaNodePool
  artifacts : CaArtifacts
  /-- The served leafs; with invalid listeners they are not looked at. -/
  leafs : List Char := []

variable (lib : CaLib)

def Adoption.hash (pass : KafkaPass) (ad : Adoption) : String :=
  if listenersValid pass then Config.rolloutConfigHash lib ad.artifacts.configHash ad.leafs
  else ad.artifacts.configHash

/-- The keystore and the broker config of valid listeners. -/
def prepareListeners (pass : KafkaPass) (pools : List KafkaNodePool) (artifacts : CaArtifacts) :
    Op (Option Adoption) := do
  if !listenersValid pass then pure (some { pools, artifacts })
  else if !(← validateListenerDependencies pass.kafka) then pure none
  else
    effect .observeListenerAddresses
    let keystore ← ensureBrokerKeystore lib pass.kafka (certRequests pass pools)
      artifacts.cluster.signingMaterial artifacts.cluster.leafTransition.requiresReissue
    effect .externalListenerState
    Prog.when pass.addressesResolved (effect .applyConfigMap)
    pure (some { pools, artifacts, leafs := keystore.leafMaterial })

/-- The phases after the pools are read, up to the point where they are stamped. -/
def adoptionOf (pass : KafkaPass) (pools : List KafkaNodePool) : Op (Option Adoption) := do
  let statefulSets ← listStatefulSets pass.kafka.name
  ignoredEffect .updateMetadataVersion
  effect .resolveLogging
  effect .listPods
  if !pass.topologyValid then
    effect .patchKafkaStatus
    pure none
  else
    match ← reconcileCas lib pass (poolsConverged pools statefulSets) with
    | none => pure none
    | some artifacts => prepareListeners lib pass pools artifacts

/-- A pass up to the point where it stamps the pools. `none` ends the pass before. -/
def adoption (pass : KafkaPass) : Op (Option Adoption) := do
  effect .applyServices
  weakAuthEvents (Listeners.weakAuthWarnings (Listeners.effectiveListeners pass.kafka.spec))
  ensureClusterIdSecret lib pass.kafka
  validateKafkaRuntime pass.runtimeChecks
  let pools ← listPools pass.kafka.name
  adoptionOf lib pass pools

/-- The rest of a pass. -/
def adopt (pass : KafkaPass) : Option Adoption → Op Unit
  | none => pure ()
  | some ad => do
    adoptPools pass.kafka ad.pools (ad.hash lib pass)
    effect .finalizeKafka

theorem reconcileListenerResources_eq (pass : KafkaPass) (pools : List KafkaNodePool)
    (artifacts : CaArtifacts) :
    (do if ← reconcileListenerResources lib pass pools artifacts then effect .finalizeKafka) =
      prepareListeners lib pass pools artifacts >>= adopt lib pass := by
  unfold reconcileListenerResources prepareListeners
  cases hvalid : listenersValid pass with
  | false =>
    simp [Prog.bind_assoc, adopt, Adoption.hash, hvalid]
  | true =>
    simp only [Bool.not_true, Bool.false_eq_true, if_false, Prog.bind_assoc]
    refine Prog.bind_congr fun ok => ?_
    cases ok with
    | false => rfl
    | true =>
      simp only [Bool.not_true, Bool.false_eq_true, if_false, reconcileValidListenerResources,
        Prog.bind_assoc]
      refine Prog.bind_congr fun _ => Prog.bind_congr fun keystore => Prog.bind_congr fun _ => ?_
      cases hres : pass.addressesResolved with
      | false => simp [Prog.when, adopt, Adoption.hash, hvalid]
      | true => simp [Prog.when, adopt, Adoption.hash, hvalid, Prog.bind_assoc]

/-- A pass adopts its pools after everything else but the last phase. -/
theorem reconcileInner_eq (pass : KafkaPass) :
    reconcileInner lib pass = adoption lib pass >>= adopt lib pass := by
  unfold reconcileInner adoption adoptionOf
  simp only [Prog.bind_assoc]
  refine Prog.bind_congr fun _ => Prog.bind_congr fun _ => Prog.bind_congr fun _ =>
    Prog.bind_congr fun _ => Prog.bind_congr fun pools => Prog.bind_congr fun statefulSets =>
    Prog.bind_congr fun _ => Prog.bind_congr fun _ => Prog.bind_congr fun _ => ?_
  split
  · rw [Prog.bind_assoc]
    exact (Prog.bind_pure _).symm
  · rw [Prog.bind_assoc]
    refine Prog.bind_congr fun artifacts => ?_
    cases artifacts with
    | none => rfl
    | some artifacts => exact reconcileListenerResources_eq lib pass pools artifacts

/-! ## Requests before the adoption -/

/-- A program that stamps no pool. -/
abbrev Quiet {α : Type} (p : Op α) : Prop := Prog.Makes (fun r => r.quiet = true) p

section Quiet

variable {lib : CaLib} {kafka : Kafka}

theorem getOpt_quiet {name : String} : Quiet (getOpt name) :=
  makes_getOpt (R := fun r => r.quiet = true) rfl

theorem applySecret_quiet {name : String} {cfg : SecretConfig} : Quiet (applySecret name cfg) :=
  makes_applySecret (R := fun r => r.quiet = true) rfl

theorem mergeSecret_quiet {name : String} {cfg : SecretConfig} : Quiet (mergeSecret name cfg) :=
  makes_mergeSecret (R := fun r => r.quiet = true) rfl

theorem listUsers_quiet {cluster : String} : Quiet (listUsers cluster) :=
  makes_listUsers (R := fun r => r.quiet = true) rfl

theorem listPools_quiet {cluster : String} : Quiet (listPools cluster) :=
  Prog.makes_request (R := fun r => r.quiet = true) rfl fun _ => makes_kube

theorem listStatefulSets_quiet {cluster : String} : Quiet (listStatefulSets cluster) :=
  Prog.makes_request (R := fun r => r.quiet = true) rfl fun _ => makes_kube

theorem draw_quiet : Quiet draw := makes_draw (R := fun r => r.quiet = true) rfl

theorem now_quiet : Quiet now := makes_now (R := fun r => r.quiet = true) rfl

theorem effect_quiet {e : Effect} (h : e ≠ .finalizeKafka) : Quiet (effect e) :=
  makes_effect (R := fun r => r.quiet = true) (by simpa [Req.quiet] using h)

theorem ignoredEffect_quiet {e : Effect} (h : e ≠ .finalizeKafka) : Quiet (ignoredEffect e) :=
  makes_ignoredEffect (R := fun r => r.quiet = true) (by simpa [Req.quiet] using h)

theorem ite_quiet {α : Type} {c : Prop} [Decidable c] {p q : Op α} (hp : Quiet p) (hq : Quiet q) :
    Quiet (if c then p else q) :=
  Prog.makes_ite hp hq

theorem optional_quiet {α : Type} {c : Prop} [Decidable c] {p : Op Unit} {k : Unit → Op α}
    (hp : Quiet p) (hk : Quiet (k ())) : Quiet (if c then p >>= k else k ()) :=
  ite_quiet (hp.bind fun _ => hk) hk

theorem patchSecret_quiet {name : String} {data : List (String × Pem)}
    {annotations : List (String × String)} : Quiet (patchSecret kafka name data annotations) := by
  unfold patchSecret
  split
  · trivial
  · exact applySecret_quiet

theorem executePlan_quiet {which : WhichCa} {state : CaState} {plan : CaRotationPlan}
    {inp : RotationInputs} {raw : Pem} : Quiet (executePlan lib kafka which state plan inp raw) := by
  cases plan with
  | noOp => trivial
  | refuse reason => trivial
  | renewCertSameKey =>
    refine draw_quiet.bind fun d => makes_orFail fun _ _ => ?_
    exact patchSecret_quiet.bind fun _ => trivial
  | startKeyReplace =>
    refine draw_quiet.bind fun d => makes_orFail fun _ _ => ?_
    exact patchSecret_quiet.bind fun _ => patchSecret_quiet.bind fun _ => trivial
  | promoteNewKey =>
    simp only [executePlan, promoteNewKey]
    split
    · trivial
    · split
      · trivial
      · exact patchSecret_quiet.bind fun _ => patchSecret_quiet.bind fun _ => trivial
  | pruneOldTrust =>
    simp only [executePlan, pruneOldTrust]
    split
    · exact patchSecret_quiet.bind fun _ => patchSecret_quiet.bind fun _ => trivial
    · exact patchSecret_quiet.bind fun _ => trivial

theorem readNotAfter_quiet {certPem : Pem} : Quiet (readNotAfter lib certPem) := by
  refine makes_orFail fun t _ => ?_
  unfold orFail
  split <;> trivial

theorem reconcileCa_quiet {which : WhichCa} {forceRenew forceReplaceKey conv : Bool} {now : Int} :
    Quiet (reconcileCa lib kafka which forceRenew forceReplaceKey conv now) := by
  refine getOpt_quiet.bind fun k => getOpt_quiet.bind fun c => ?_
  rw [reconcileCaFrom_eq]
  cases existingState? k c with
  | some existing =>
    exact executePlan_quiet.bind fun r => readNotAfter_quiet.bind fun _ => trivial
  | none =>
    refine ite_quiet trivial ?_
    refine draw_quiet.bind fun d => makes_orFail fun _ _ => ?_
    exact patchSecret_quiet.bind fun _ => patchSecret_quiet.bind fun _ =>
      readNotAfter_quiet.bind fun _ => trivial

theorem caCall_quiet {call : Op CaReconcileOutcome} (h : Quiet call) : Quiet (caCall call) := by
  refine h.attempt.bind fun x => ?_
  split
  · trivial
  · exact (effect_quiet (by decide)).bind fun _ => trivial
  · trivial

theorem syncUsers_quiet (hlib : lib.Lawful) {cluster : String} {clients : CaReconcileOutcome} :
    Quiet (syncUsers lib cluster clients) := by
  unfold syncUsers
  split
  · refine listUsers_quiet.bind fun users => Prog.Makes.bind ?_ fun _ => ?_
    · exact (User.reissueTlsUserCertSecrets_makes hlib _ _ _).mono fun r ⟨u, _, _, hr⟩ => hr.quiet
    · exact ite_quiet mergeSecret_quiet trivial
  · trivial

theorem ensureBrokerKeystore_quiet {requests : List BrokerCertRequest} {ca : CaMaterial}
    {force : Bool} : Quiet (ensureBrokerKeystore lib kafka requests ca force) := by
  have hleafs : ∀ reqs draft, Quiet (ensureLeafs lib kafka ca force draft reqs) := by
    intro reqs
    induction reqs with
    | nil => exact fun _ => trivial
    | cons req reqs ih =>
      intro draft
      refine Prog.Makes.bind ?_ fun draft => ih draft
      unfold ensureLeaf
      dsimp only
      have hrest : ∀ now, Quiet (do
          let reusable ← orFail .certParse
            (leafReusable lib (WhichCa.spec .cluster kafka).renewalDays draft.data req now)
          if reusable && !force then
            pure { draft with reused := draft.reused ++ [req.brokerId] }
          else
            let d ← draw
            let leaf ← orFail .ca (lib.issueBrokerCert ca.certPem ca.keyPem req.cn req.sans
              req.extraSans (WhichCa.spec .cluster kafka).validityDays d)
            pure (draft.issue lib req leaf)) := by
        intro now
        refine makes_orFail fun reusable _ => ?_
        split
        · trivial
        · exact draw_quiet.bind fun d => makes_orFail fun _ _ => trivial
      split
      · exact now_quiet.bind hrest
      · exact hrest 0
  refine getOpt_quiet.bind fun existing => (hleafs _ _).bind fun draft => ?_
  cases kafka.uid with
  | none => trivial
  | some uid => exact applySecret_quiet.bind fun _ => trivial

theorem quiet_of_neutral {α : Type} {cluster : String} {p : Op α}
    (h : Prog.Makes (NeutralReq cluster) p) : Quiet p :=
  h.mono fun _ hr => hr.quiet

theorem reconcileCas_quiet (hlib : lib.Lawful) {pass : KafkaPass} {conv : Bool} :
    Quiet (reconcileCas lib pass conv) := by
  refine now_quiet.bind fun now => (caCall_quiet reconcileCa_quiet).bind fun cluster => ?_
  cases cluster with
  | none => trivial
  | some cluster =>
    refine (caCall_quiet reconcileCa_quiet).bind fun clients => ?_
    cases clients with
    | none => trivial
    | some clients =>
      refine (quiet_of_neutral (ensureOperatorCertSecret_makes _ _ _)).bind fun _ => ?_
      refine (syncUsers_quiet hlib).bind fun _ => ?_
      refine optional_quiet (effect_quiet (by simp)) ?_
      refine optional_quiet (ignoredEffect_quiet (by decide)) ?_
      exact optional_quiet (ignoredEffect_quiet (by decide)) trivial

theorem prepareListeners_quiet {pass : KafkaPass} {pools : List KafkaNodePool}
    {artifacts : CaArtifacts} : Quiet (prepareListeners lib pass pools artifacts) := by
  unfold prepareListeners
  split
  · trivial
  · refine (quiet_of_neutral (validateListenerDependencies_makes _)).bind fun ok => ?_
    split
    · trivial
    · refine (effect_quiet (by decide)).bind fun _ => ensureBrokerKeystore_quiet.bind fun keystore =>
        (effect_quiet (by decide)).bind fun _ => ?_
      exact (Prog.makes_when (effect_quiet (by decide))).bind fun _ => trivial

theorem adoptionOf_quiet (hlib : lib.Lawful) {pass : KafkaPass} {pools : List KafkaNodePool} :
    Quiet (adoptionOf lib pass pools) := by
  refine listStatefulSets_quiet.bind fun statefulSets => ?_
  refine (ignoredEffect_quiet (by decide)).bind fun _ => ?_
  refine (effect_quiet (by decide)).bind fun _ => (effect_quiet (by decide)).bind fun _ => ?_
  refine ite_quiet ((effect_quiet (by decide)).bind fun _ => trivial) ?_
  refine (reconcileCas_quiet hlib).bind fun artifacts => ?_
  cases artifacts with
  | none => trivial
  | some artifacts => exact prepareListeners_quiet

/-- Before the adoption no pool is stamped. -/
theorem adoption_quiet (hlib : lib.Lawful) {pass : KafkaPass} : Quiet (adoption lib pass) := by
  refine (effect_quiet (by decide)).bind fun _ => ?_
  refine (quiet_of_neutral (@weakAuthEvents_makes pass.kafka.name _)).bind fun _ => ?_
  refine (quiet_of_neutral (ensureClusterIdSecret_makes _)).bind fun _ => ?_
  refine (quiet_of_neutral (@validateKafkaRuntime_makes pass.kafka.name _)).bind
    fun _ => ?_
  exact listPools_quiet.bind fun pools => adoptionOf_quiet hlib

end Quiet

end Cluster
