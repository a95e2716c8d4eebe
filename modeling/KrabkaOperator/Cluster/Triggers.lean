-- SUMMARY: The annotations that ask for a rotation: which plans a CA phase executes, and what becomes of the triggers on the resource.
import KrabkaOperator.Base.Tracked
import KrabkaOperator.ClusterCa.Renewal
import KrabkaOperator.ClusterCa.Requests
import KrabkaOperator.Cluster.Frames
import KrabkaOperator.Cluster.Run

/-!
# Rotation triggers

Four annotations of a `Kafka` ask for a rotation. An administrator sets three of
them, the renewal check sets the fourth. A CA phase reads them all at its start,
runs one call for each CA, and removes what it has read from the resource, whatever
the two calls have done.

The annotations are tracked beside the world: the requests of the phase and of the
check change them.
-/

namespace Cluster

open Kube Crd Operator ClusterCa

/-! ## Triggers -/

inductive Trigger where
  | forceRenew
  | renewAfter
  | forceReplaceKey
  | forceReplaceClientsKey
  deriving DecidableEq, Repr

namespace Trigger

def annotation : Trigger → String
  | .forceRenew => annForceRenew
  | .renewAfter => annRenewAfter
  | .forceReplaceKey => annForceReplaceKey
  | .forceReplaceClientsKey => annForceReplaceClientsKey

/-- The CA that the reconciler takes the trigger for. -/
def ca : Trigger → WhichCa
  | .forceReplaceClientsKey => .clients
  | _ => .cluster

/-- The rotation step that the trigger asks for. -/
def step : Trigger → CaRotationPlan
  | .forceRenew | .renewAfter => .renewCertSameKey
  | .forceReplaceKey | .forceReplaceClientsKey => .startKeyReplace

def all : List Trigger := [.forceRenew, .forceReplaceKey, .forceReplaceClientsKey, .renewAfter]

theorem mem_all (t : Trigger) : t ∈ all := by
  cases t <;> decide

theorem annotation_injective {t t' : Trigger} (h : t.annotation = t'.annotation) : t = t' := by
  cases t <;> cases t' <;> first | rfl | exact absurd h (by decide)

end Trigger

theorem caAnnotations_eq : caAnnotations = Trigger.all.map Trigger.annotation := rfl

/-! ## The annotations of the resource -/

/-- A namespace, and the keys of the annotations of one `Kafka` in it. -/
abbrev Site := World × List String

/-- What a request that is carried out does to the annotations. -/
def annotate (r : Req) (c : Choice) (annotations : List String) : List String :=
  if c.fault = .refused then annotations
  else
    match r with
    | .effect (.stripAnnotations keys) => annotations.filter (· ∉ keys)
    | .effect ( Effect.patchKafkaAnnotation key) => key :: annotations
    | _ => annotations

/-- The requests are answered as in the world alone. -/
abbrev answerSite : (r : Req) → Choice → Site → Resp r × Site := Prog.tracked answer annotate

/-- A `Kafka` as a controller reads it. -/
def reading (kafka : Kafka) (annotations : List String) : Kafka :=
  { kafka with annotations := BTreeMap.ofList (annotations.map fun key => (key, "")) }

/-- A phase reads the annotations once, at its start. -/
def casPhase (lib : CaLib) (pass : KafkaPass) (conv : Bool) (annotations : List String) :
    Op (Option CaArtifacts) :=
  reconcileCas lib { pass with kafka := reading pass.kafka annotations } conv

/-! ## The plans that a phase executes -/

variable (lib : CaLib)

/-- Whether the phase asks for a renewal and for a new key of a CA. -/
def forced (kafka : Kafka) : WhichCa → Bool × Bool
  | .cluster => (kafka.annotations.contains annForceRenew ||
      kafka.annotations.contains annRenewAfter, kafka.annotations.contains annForceReplaceKey)
  | .clients => (false, kafka.annotations.contains annForceReplaceClientsKey)

def caInputs (kafka : Kafka) (which : WhichCa) (conv : Bool) (now : Int) : RotationInputs :=
  rotationInputs kafka which (forced kafka which).1 (forced kafka which).2 conv now

/-- The call of the phase for one CA. -/
def phaseCall (kafka : Kafka) (which : WhichCa) (conv : Bool) (now : Int) :
    Op CaReconcileOutcome :=
  reconcileCa lib kafka which (forced kafka which).1 (forced kafka which).2 conv now

/-- The plan for a CA that is stored and readable. -/
def plannedIn (kafka : Kafka) (which : WhichCa) (conv : Bool) (now : Int) (w : World) :
    Option CaRotationPlan :=
  (keyPartIn w which kafka.name).bind fun K => (certPartIn w which kafka.name).map fun C =>
    planCaRotation lib (.ofParts K C) (caInputs kafka which conv now)

/-- The plan that a call executes, if the call returns. -/
def executedBy (kafka : Kafka) (which : WhichCa) (conv : Bool) (now : Int) (choices : List Choice)
    (w : World) : Option CaRotationPlan :=
  match (phaseCall lib kafka which conv now).runRest answer choices w with
  | (.done _, _, _) => plannedIn lib kafka which conv now w
  | _ => none

/-- The plan that a phase executes for a CA. The clients CA comes after the cluster CA. -/
def executed (kafka : Kafka) (conv : Bool) : List Choice → World → WhichCa → Option CaRotationPlan
  | [], _, _ => none
  | c :: choices, w, .cluster => executedBy lib kafka .cluster conv c.clock choices w
  | c :: choices, w, .clients =>
    match (phaseCall lib kafka .cluster conv c.clock).runRest answer choices w with
    | (.done _, w₁, rest) => executedBy lib kafka .clients conv c.clock rest w₁
    | _ => none

/-- The phase applies the step of a trigger to its CA, or it refuses to change a CA that
    the user brings. -/
def Acted (kafka : Kafka) (conv : Bool) (choices : List Choice) (w : World) (t : Trigger) : Prop :=
  executed lib kafka conv choices w t.ca = some t.step ∨
    executed lib kafka conv choices w t.ca = some (.refuse .byo)

instance (kafka : Kafka) (conv : Bool) (choices : List Choice) (w : World) (t : Trigger) :
    Decidable (Acted lib kafka conv choices w t) := inferInstanceAs (Decidable (_ ∨ _))

/-- The CA of a trigger is stored, and either the user brings it, or no rotation of it is
    under way and nothing asks for a new key where the trigger asks for a renewal. -/
def Consumable (kafka : Kafka) (w : World) (t : Trigger) : Prop :=
  (keyPartIn w t.ca kafka.name).isSome ∧
    match certPartIn w t.ca kafka.name with
    | none => False
    | some C => (t.ca.spec kafka).generateCertificateAuthority = true → C.phase = .idle ∧
        (t.step = .renewCertSameKey → (forced kafka t.ca).2 = false)

instance (kafka : Kafka) (w : World) (t : Trigger) : Decidable (Consumable kafka w t) := by
  unfold Consumable
  split <;> infer_instance

/-! ## The phase in stages -/

/-- What follows the two calls. -/
def afterCalls (pass : KafkaPass) (cluster clients : CaReconcileOutcome) :
    Op (Option CaArtifacts) := do
  let kafka := pass.kafka
  let _ ← User.ensureOperatorCertSecret lib kafka cluster.signingMaterial cluster.trustBundlePem
  syncUsers lib kafka.name clients
  let stripKeys := caAnnotations.filter fun ann => kafka.annotations.contains ann
  if stripKeys ≠ [] then effect (.stripAnnotations stripKeys)
  if cluster.refused.isSome then ignoredEffect (.emitEvent "CaRotationRefused")
  if clients.refused.isSome then ignoredEffect (.emitEvent "CaRotationRefused")
  pure (some ⟨cluster, clients, Config.combinedConfigHash lib kafka.spec
    (some (caTrust cluster clients)) (explicitPin pass) pass.loggingFilter⟩)

variable {lib}

theorem reconcileCas_eq (pass : KafkaPass) (conv : Bool) :
    reconcileCas lib pass conv = now >>= fun t =>
      caCall (phaseCall lib pass.kafka .cluster conv t) >>= fun x =>
        match x with
        | none => pure none
        | some cluster => caCall (phaseCall lib pass.kafka .clients conv t) >>= fun y =>
          match y with
          | none => pure none
          | some clients => afterCalls lib pass cluster clients := rfl

/-! ## Which requests change the annotations -/

/-- A request that leaves the annotations of the resource. -/
abbrev KeepsAnnotations (r : Req) : Prop := Prog.Silent annotate r

theorem keepsAnnotations_of_ne {r : Req} (hstrip : ∀ keys, r ≠ .effect (.stripAnnotations keys))
    (hstamp : ∀ key, r ≠ .effect ( Effect.patchKafkaAnnotation key)) : KeepsAnnotations r := by
  intro c annotations
  unfold annotate
  split
  · rfl
  · split
    · exact absurd rfl (hstrip _)
    · exact absurd rfl (hstamp _)
    · rfl

theorem keepsAnnotations_of_callReq {which : WhichCa} {cluster : String} {r : Req}
    (h : CallReq which cluster r) : KeepsAnnotations r := by
  cases h <;> exact keepsAnnotations_of_ne (by simp) (by simp)

theorem phaseCall_makes (kafka : Kafka) (which : WhichCa) (conv : Bool) (now : Int) :
    Prog.Makes KeepsAnnotations (phaseCall lib kafka which conv now) :=
  (reconcileCa_makes _ _ _ _).mono fun _ => keepsAnnotations_of_callReq

theorem caCall_makes {call : Op CaReconcileOutcome} (h : Prog.Makes KeepsAnnotations call) :
    Prog.Makes KeepsAnnotations (caCall call) := by
  apply h.attempt.bind
  intro x
  split
  · trivial
  · exact (makes_effect (keepsAnnotations_of_ne (by simp) (by simp))).bind fun _ => trivial
  · trivial

/-- A call that lets the phase go on has returned. -/
theorem returned_of_caCall {call : Op CaReconcileOutcome} {choices rest : List Choice} {w w' : World}
    {out : CaReconcileOutcome}
    (h : (caCall call).runRest answer choices w = (.done (some out), w', rest)) :
    call.runRest answer choices w = (.done out, w', rest) := by
  obtain ⟨x, w₁, rest₁, hcall, hnext⟩ := Prog.runRest_bind h
  cases x with
  | ok out' =>
    cases hnext
    exact Prog.runRest_of_attempt hcall
  | error e =>
    split at hnext
    · cases hnext
      rename_i heq
      cases heq
    · obtain ⟨u, w₂, rest₂, -, hnone⟩ := Prog.runRest_bind hnext
      cases hnone
    · cases hnext

theorem issueOperatorCert_keepsAnnotations (kafka : Kafka) (signing : CaMaterial)
    (trustBundlePem : Pem) :
    Prog.Makes KeepsAnnotations (User.issueOperatorCert lib kafka signing trustBundlePem) := by
  apply (makes_draw (keepsAnnotations_of_ne (by simp) (by simp))).bind
  intro d
  apply makes_orFail
  intro cert _
  cases kafka.uid with
  | none => trivial
  | some uid =>
    exact (makes_applySecret (keepsAnnotations_of_ne (by simp) (by simp))).bind fun _ => trivial

theorem ensureOperatorCertSecret_keepsAnnotations (kafka : Kafka) (signing : CaMaterial)
    (trustBundlePem : Pem) :
    Prog.Makes KeepsAnnotations (User.ensureOperatorCertSecret lib kafka signing trustBundlePem) := by
  have hissue := @issueOperatorCert_keepsAnnotations lib kafka signing trustBundlePem
  apply (makes_getOpt (keepsAnnotations_of_ne (by simp) (by simp))).bind
  intro existing
  cases existing with
  | none => exact hissue
  | some existing =>
    refine Prog.makes_ite trivial ?_
    split
    · exact hissue
    · apply (makes_now (keepsAnnotations_of_ne (by simp) (by simp))).bind
      intro t
      exact Prog.makes_ite (User.refreshTrust_makes (keepsAnnotations_of_ne (by simp) (by simp))) hissue

theorem syncUsers_keepsAnnotations (hlib : lib.Lawful) (cluster : String)
    (clients : CaReconcileOutcome) :
    Prog.Makes KeepsAnnotations (syncUsers lib cluster clients) := by
  unfold syncUsers
  apply Prog.makes_ite
  · apply (makes_listUsers (keepsAnnotations_of_ne (by simp) (by simp))).bind
    intro users
    have hbatch : Prog.Makes KeepsAnnotations (User.reissueTlsUserCertSecrets lib
        clients.signingMaterial clients.trustBundlePem (excludeReservedOperatorUser users cluster)) := by
      refine (User.reissueTlsUserCertSecrets_makes hlib _ _ _).mono ?_
      rintro r ⟨u, hu, hlive, hr⟩
      cases hr <;> exact keepsAnnotations_of_ne (by simp) (by simp)
    apply hbatch.bind
    intro _
    apply Prog.makes_ite
    · exact makes_mergeSecret (keepsAnnotations_of_ne (by simp) (by simp))
    · trivial
  · trivial

/-- The triggers that a phase removes: all that it has read. -/
def stripKeys (kafka : Kafka) : List String :=
  caAnnotations.filter fun ann => kafka.annotations.contains ann

theorem afterCalls_makes (hlib : lib.Lawful) (pass : KafkaPass) (cluster clients : CaReconcileOutcome) :
    Prog.Makes (fun r => KeepsAnnotations r ∨ r = .effect (.stripAnnotations (stripKeys pass.kafka)))
      (afterCalls lib pass cluster clients) := by
  have hquiet : ∀ {α : Type} {p : Op α}, Prog.Makes KeepsAnnotations p →
      Prog.Makes (fun r => KeepsAnnotations r ∨
        r = .effect (.stripAnnotations (stripKeys pass.kafka))) p :=
    fun h => h.mono fun _ => .inl
  have hevent : Prog.Makes (fun r => KeepsAnnotations r ∨
      r = .effect (.stripAnnotations (stripKeys pass.kafka)))
      (ignoredEffect (.emitEvent "CaRotationRefused")) :=
    hquiet (makes_ignoredEffect (keepsAnnotations_of_ne (by simp) (by simp)))
  have hend : ∀ out : Option CaArtifacts,
      Prog.Makes (fun r => KeepsAnnotations r ∨ r = .effect (.stripAnnotations (stripKeys pass.kafka)))
        (do
          if cluster.refused.isSome then ignoredEffect (.emitEvent "CaRotationRefused")
          if clients.refused.isSome then ignoredEffect (.emitEvent "CaRotationRefused")
          pure out) := by
    intro out
    have hclients : Prog.Makes
        (fun r => KeepsAnnotations r ∨ r = .effect (.stripAnnotations (stripKeys pass.kafka)))
        (do
          if clients.refused.isSome then ignoredEffect (.emitEvent "CaRotationRefused")
          pure out) :=
      Prog.makes_ite (hevent.bind fun _ => trivial) trivial
    exact Prog.makes_ite (hevent.bind fun _ => hclients) hclients
  apply (hquiet (ensureOperatorCertSecret_keepsAnnotations _ _ _)).bind
  intro _
  apply (hquiet (syncUsers_keepsAnnotations hlib _ _)).bind
  intro _
  apply Prog.makes_ite
  · exact (makes_effect (.inr rfl)).bind fun _ => hend _
  · exact hend _

/-! ## What a phase removes -/

theorem record_afterCalls (hlib : lib.Lawful) (pass : KafkaPass) (cluster clients : CaReconcileOutcome)
    (choices : List Choice) (s : Site) :
    let after := ((afterCalls lib pass cluster clients).run answerSite choices s).2.2
    after = s.2 ∨ after = s.2.filter (· ∉ stripKeys pass.kafka) := by
  refine (afterCalls_makes hlib pass cluster clients).run_invariant
    (I := fun v : Site => v.2 = s.2 ∨ v.2 = s.2.filter (· ∉ stripKeys pass.kafka)) ?_ (.inl rfl) choices
  rintro a r c hr ha
  rcases hr with hquiet | rfl
  · simpa only [Prog.tracked, hquiet c a.2] using ha
  · by_cases hfault : c.fault = .refused
    · simpa only [Prog.tracked, annotate, hfault, if_true] using ha
    · right
      simp only [Prog.tracked, annotate, hfault, if_false]
      rcases ha with ha | ha
      · rw [ha]
      · rw [ha, List.filter_filter]
        simp

/-- A phase that changes the annotations has finished both calls, and it has removed all
    triggers that it has read. -/
theorem phase_changed (hlib : lib.Lawful) {pass : KafkaPass} {conv : Bool} {choices : List Choice}
    {s : Site} (hne : ((reconcileCas lib pass conv).run answerSite choices s).2.2 ≠ s.2) :
    ((reconcileCas lib pass conv).run answerSite choices s).2.2 =
        s.2.filter (· ∉ stripKeys pass.kafka) ∧
      ∃ c cs out w₁ rest₁ out' w₂ rest₂, choices = c :: cs ∧
        (phaseCall lib pass.kafka .cluster conv c.clock).runRest answer cs s.1 =
          (.done out, w₁, rest₁) ∧
        (phaseCall lib pass.kafka .clients conv c.clock).runRest answer rest₁ w₁ =
          (.done out', w₂, rest₂) := by
  rw [reconcileCas_eq] at hne ⊢
  cases choices with
  | nil => exact absurd rfl hne
  | cons c cs =>
    have hclock : ∀ k : Int → Op (Option CaArtifacts),
        (now >>= k).run answerSite (c :: cs) s = (k c.clock).run answerSite cs s := by
      intro k
      have hquiet : annotate .now c s.2 = s.2 := keepsAnnotations_of_ne (by simp) (by simp) c s.2
      show (k c.clock).run answerSite cs (s.1, annotate .now c s.2) = _
      rw [hquiet]
    rw [hclock] at hne ⊢
    obtain ⟨x, w₁, rest₁, hcluster, hnext⟩ := Prog.returned_of_changed
      (caCall_makes (phaseCall_makes _ _ _ _)) hne
    rw [hnext] at hne ⊢
    cases x with
    | none => exact absurd rfl hne
    | some out =>
      obtain ⟨y, w₂, rest₂, hclients, hlast⟩ := Prog.returned_of_changed
        (caCall_makes (phaseCall_makes _ _ _ _)) hne
      rw [hlast] at hne ⊢
      cases y with
      | none => exact absurd rfl hne
      | some out' =>
        refine ⟨?_, c, cs, out, w₁, rest₁, out', w₂, rest₂, rfl, returned_of_caCall hcluster,
          returned_of_caCall hclients⟩
        rcases record_afterCalls hlib pass out out' rest₂ (w₂, s.2) with hsame | hremoved
        · exact absurd hsame hne
        · exact hremoved

/-! ## When a trigger is acted on -/

section Planned

variable {state : CaState} {inp : RotationInputs}

/-- A renewal that is asked for waits for a rotation under way, and a new key replaces it. -/
theorem plan_of_renews (hforce : inp.force.renewsCertificate = true) :
    (planCaRotation lib state inp = .renewCertSameKey ∨
      planCaRotation lib state inp = .refuse .byo) ↔
    (inp.generate = true → state.phase = .idle ∧ inp.force.replacesKey = false) := by
  unfold planCaRotation
  cases hg : inp.generate with
  | false => simp [hforce]
  | true =>
    cases hp : state.phase with
    | idle => cases hr : inp.force.replacesKey <;> simp [hforce]
    | keyReplaceTrust => cases hc : inp.rolloutConverged <;> simp
    | keyReplacePromote =>
      simp only [Bool.not_true, Bool.false_eq_true, if_false]
      split <;> simp

/-- So does a new key that is asked for. -/
theorem plan_of_replaces (hforce : inp.force.replacesKey = true) :
    (planCaRotation lib state inp = .startKeyReplace ∨
      planCaRotation lib state inp = .refuse .byo) ↔
    (inp.generate = true → state.phase = .idle) := by
  unfold planCaRotation
  cases hg : inp.generate with
  | false => simp [hforce]
  | true =>
    cases hp : state.phase with
    | idle => simp [hforce]
    | keyReplaceTrust => cases hc : inp.rolloutConverged <;> simp
    | keyReplacePromote =>
      simp only [Bool.not_true, Bool.false_eq_true, if_false]
      split <;> simp

theorem renewsCertificate_ofFlags (renew replace : Bool) :
    (ForceRotation.ofFlags renew replace).renewsCertificate = renew := by
  cases renew <;> cases replace <;> rfl

theorem replacesKey_ofFlags (renew replace : Bool) :
    (ForceRotation.ofFlags renew replace).replacesKey = replace := by
  cases renew <;> cases replace <;> rfl

end Planned

/-- The plan for a CA whose trigger is on the resource. -/
theorem plan_of_trigger {kafka : Kafka} {t : Trigger}
    (hread : kafka.annotations.contains t.annotation = true) (conv : Bool) (now : Int)
    (state : CaState) :
    (planCaRotation lib state (caInputs kafka t.ca conv now) = t.step ∨
      planCaRotation lib state (caInputs kafka t.ca conv now) = .refuse .byo) ↔
    ((t.ca.spec kafka).generateCertificateAuthority = true → state.phase = .idle ∧
      (t.step = .renewCertSameKey → (forced kafka t.ca).2 = false)) := by
  have hrenews : (caInputs kafka t.ca conv now).force.renewsCertificate = (forced kafka t.ca).1 :=
    renewsCertificate_ofFlags _ _
  have hreplaces : (caInputs kafka t.ca conv now).force.replacesKey = (forced kafka t.ca).2 :=
    replacesKey_ofFlags _ _
  have hrenew : (forced kafka t.ca).1 = true →
      ((planCaRotation lib state (caInputs kafka t.ca conv now) = .renewCertSameKey ∨
        planCaRotation lib state (caInputs kafka t.ca conv now) = .refuse .byo) ↔
      ((t.ca.spec kafka).generateCertificateAuthority = true → state.phase = .idle ∧
        (forced kafka t.ca).2 = false)) := by
    intro h
    rw [plan_of_renews (hrenews.trans h), hreplaces]
    rfl
  have hreplace : (forced kafka t.ca).2 = true →
      ((planCaRotation lib state (caInputs kafka t.ca conv now) = .startKeyReplace ∨
        planCaRotation lib state (caInputs kafka t.ca conv now) = .refuse .byo) ↔
      ((t.ca.spec kafka).generateCertificateAuthority = true → state.phase = .idle)) := by
    intro h
    rw [plan_of_replaces (hreplaces.trans h)]
    rfl
  cases t with
  | forceRenew =>
    simpa [Trigger.step] using hrenew (by
      show (kafka.annotations.contains annForceRenew || _) = true
      rw [Bool.or_eq_true]
      exact .inl hread)
  | renewAfter =>
    simpa [Trigger.step] using hrenew (by
      show (_ || kafka.annotations.contains annRenewAfter) = true
      rw [Bool.or_eq_true]
      exact .inr hread)
  | forceReplaceKey => simpa [Trigger.step] using hreplace hread
  | forceReplaceClientsKey => simpa [Trigger.step] using hreplace hread

theorem planned_iff {kafka : Kafka} {t : Trigger} {w : World}
    (hread : kafka.annotations.contains t.annotation = true) (conv : Bool) (now : Int) :
    (plannedIn lib kafka t.ca conv now w = some t.step ∨
      plannedIn lib kafka t.ca conv now w = some (.refuse .byo)) ↔ Consumable kafka w t := by
  unfold plannedIn Consumable
  cases keyPartIn w t.ca kafka.name with
  | none => simp
  | some K =>
    cases certPartIn w t.ca kafka.name with
    | none => simp
    | some C =>
      simp only [Option.bind_some, Option.map_some, Option.some_inj, Option.isSome_some, true_and]
      exact plan_of_trigger hread conv now (.ofParts K C)

/-- The call for one CA leaves the other. -/
theorem phaseCall_leaves {kafka : Kafka} {which which' : WhichCa} (hne : which ≠ which')
    {conv : Bool} {now : Int} {choices rest : List Choice} {w w₁ : World} {out : CaReconcileOutcome}
    (hcall : (phaseCall lib kafka which' conv now).runRest answer choices w = (.done out, w₁, rest)) :
    keyPartIn w₁ which kafka.name = keyPartIn w which kafka.name ∧
      certPartIn w₁ which kafka.name = certPartIn w which kafka.name := by
  have hsat := (@reconcileCa_frame lib kafka which' (forced kafka which').1
    (forced kafka which').2 conv now w).stage (S := fun _ _ _ => True)
    (I := fun v => SameCa which kafka.name w v)
    (fun a r b ha hab => by
      have hstep := SameCa.of_callFrame hab hne
      exact ⟨trivial, hstep.key.trans ha.key, hstep.cert.trans ha.cert, ha.draws.trans hstep.draws⟩)
    ⟨rfl, rfl, le_rfl⟩
  have hrun : (phaseCall lib kafka which' conv now).run answer choices w = (.done out, w₁) := by
    rw [Prog.runRest_run, hcall]
  have hsame : SameCa which kafka.name w w₁ := (hsat.run_done hrun).2
  exact ⟨by rw [keyPartIn, keyPartIn, hsame.key], hsame.certPartIn⟩

/-- A phase that has finished both calls acted on a trigger exactly if it was consumable. -/
theorem acted_iff {kafka : Kafka} {t : Trigger}
    (hread : kafka.annotations.contains t.annotation = true) {conv : Bool} {c : Choice}
    {cs rest₁ rest₂ : List Choice} {w w₁ w₂ : World} {out out' : CaReconcileOutcome}
    (hcluster : (phaseCall lib kafka .cluster conv c.clock).runRest answer cs w =
      (.done out, w₁, rest₁))
    (hclients : (phaseCall lib kafka .clients conv c.clock).runRest answer rest₁ w₁ =
      (.done out', w₂, rest₂)) :
    Acted lib kafka conv (c :: cs) w t ↔ Consumable kafka w t := by
  have hplanned : executed lib kafka conv (c :: cs) w t.ca =
      plannedIn lib kafka t.ca conv c.clock w := by
    cases hca : t.ca with
    | cluster => simp only [executed, executedBy, hcluster]
    | clients =>
      obtain ⟨hkey, hcert⟩ := phaseCall_leaves (show WhichCa.clients ≠ .cluster by simp) hcluster
      simp only [executed, executedBy, hcluster, hclients, plannedIn, hkey, hcert]
  rw [Acted, hplanned]
  exact planned_iff hread conv c.clock

/-! ## Runs -/

/-- What happens to the resource and the namespace around it. -/
inductive SiteEvent where
  /-- The CA phase of a pass, over pools that have converged or not. -/
  | phase (pass : KafkaPass) (conv : Bool) (choices : List Choice)
  /-- The visit of the renewal check. -/
  | check (kafka : Kafka) (choices : List Choice)
  /-- Someone sets the annotations of the resource. -/
  | edit (annotations : List String)
  /-- Anything else that happens in the namespace. -/
  | store (w : World)

namespace SiteEvent

variable (lib : CaLib)

/-- The phase reads the annotations that the resource has. -/
def exec : SiteEvent → Site → List Site
  | .phase pass conv choices, s => (casPhase lib pass conv s.2).after answerSite choices s
  | .check kafka choices, s => (renewOne lib (reading kafka s.2)).after answerSite choices s
  | .edit annotations, s => [(s.1, annotations)]
  | .store w, s => [(w, s.2)]

end SiteEvent

theorem finish_phase {pass : KafkaPass} {conv : Bool} {choices : List Choice} {s : Site} :
    History.finish (SiteEvent.exec lib) (.phase pass conv choices) s =
      ((casPhase lib pass conv s.2).run answerSite choices s).2 :=
  (Prog.run_eq_getLastD _ _ _).symm

@[simp] theorem contains_reading {kafka : Kafka} {annotations : List String} {key : String} :
    (reading kafka annotations).annotations.contains key = true ↔ key ∈ annotations := by
  rw [reading, Std.ExtTreeMap.contains_eq_isSome_getElem?, BTreeMap.getElem?_ofList]
  rw [List.lookup_isSome_iff]
  simp

/-- A rotation of a CA that the operator generates is under way. -/
def UnderWay (kafka : Kafka) (w : World) (which : WhichCa) : Prop :=
  (which.spec kafka).generateCertificateAuthority = true ∧
    (phase? w which kafka.name = some .keyReplaceTrust ∨
      phase? w which kafka.name = some .keyReplacePromote)

instance (kafka : Kafka) (w : World) (which : WhichCa) : Decidable (UnderWay kafka w which) :=
  inferInstanceAs (Decidable (_ ∧ _))

/-- A phase removes a trigger only if it acts on it; so a trigger stays while a rotation of
    its CA is under way. -/
def Handled (lib : CaLib) (e : SiteEvent) (s : Site) : Prop :=
  match e with
  | .phase pass conv choices => ∀ t ∈ Trigger.all, t.annotation ∈ s.2 →
      (t.annotation ∈ (History.finish (SiteEvent.exec lib) e s).2 ∨
        Acted lib (reading pass.kafka s.2) conv choices s.1 t) ∧
      (UnderWay pass.kafka s.1 t.ca → t.annotation ∈ (History.finish (SiteEvent.exec lib) e s).2)
  | _ => True

/-- A phase that removes triggers finds all triggers consumable. -/
def Settled (lib : CaLib) (e : SiteEvent) (s : Site) : Prop :=
  match e with
  | .phase pass _ _ =>
      (∃ t ∈ Trigger.all, t.annotation ∈ s.2 ∧
        t.annotation ∉ (History.finish (SiteEvent.exec lib) e s).2) →
      ∀ t ∈ Trigger.all, t.annotation ∈ s.2 → Consumable (reading pass.kafka s.2) s.1 t
  | _ => True

/-- A consumable trigger is not one for a CA whose rotation is under way. -/
theorem Consumable.not_underWay {kafka : Kafka} {w : World} {t : Trigger}
    (h : Consumable kafka w t) : ¬ UnderWay kafka w t.ca := by
  obtain ⟨-, hcert⟩ := h
  rintro ⟨hgenerate, hphase⟩
  unfold phase? at hphase
  cases hC : certPartIn w t.ca kafka.name with
  | none => simp [hC] at hcert
  | some C =>
    simp only [hC] at hcert
    simp [hC, (hcert hgenerate).1] at hphase

section Phase

variable {pass : KafkaPass} {conv : Bool} {choices : List Choice} {s : Site}

/-- A phase that removes a trigger removes all triggers, and has acted on those that were
    consumable. -/
theorem removes_all (hlib : lib.Lawful) {t : Trigger} (ht : t.annotation ∈ s.2)
    (hremoved : t.annotation ∉ (History.finish (SiteEvent.exec lib) (.phase pass conv choices) s).2) :
    ∀ t' : Trigger, t'.annotation ∈ s.2 →
      t'.annotation ∉ (History.finish (SiteEvent.exec lib) (.phase pass conv choices) s).2 ∧
      (Acted lib (reading pass.kafka s.2) conv choices s.1 t' ↔
        Consumable (reading pass.kafka s.2) s.1 t') := by
  rw [finish_phase] at hremoved ⊢
  have hne : ((casPhase lib pass conv s.2).run answerSite choices s).2.2 ≠ s.2 := by
    intro heq
    exact hremoved (by rwa [heq])
  obtain ⟨hafter, c, cs, out, w₁, rest₁, out', w₂, rest₂, rfl, hcluster, hclients⟩ :=
    phase_changed hlib hne
  intro t' ht'
  have hread : (reading pass.kafka s.2).annotations.contains t'.annotation = true :=
    contains_reading.mpr ht'
  have hstrip : t'.annotation ∈ stripKeys (reading pass.kafka s.2) := by
    refine List.mem_filter.mpr ⟨?_, hread⟩
    rw [caAnnotations_eq]
    exact List.mem_map_of_mem (Trigger.mem_all t')
  refine ⟨?_, acted_iff hread hcluster hclients⟩
  rw [casPhase, hafter]
  intro hmem
  have hnot := (List.mem_filter.mp hmem).2
  simp only [decide_eq_true_eq] at hnot
  exact hnot hstrip

end Phase

theorem handled_iff_settled (hlib : lib.Lawful) (e : SiteEvent) (s : Site) :
    Handled lib e s ↔ Settled lib e s := by
  cases e with
  | phase pass conv choices =>
    constructor
    · rintro hhandled ⟨t, -, ht, hremoved⟩ t' hmem ht'
      obtain ⟨hgone, hacted⟩ := removes_all hlib ht hremoved t' ht'
      rcases (hhandled t' hmem ht').1 with hstays | hdone
      · exact absurd hstays hgone
      · exact hacted.mp hdone
    · intro hsettled t hmem ht
      by_cases hstays : t.annotation ∈
          (History.finish (SiteEvent.exec lib) (.phase pass conv choices) s).2
      · exact ⟨.inl hstays, fun _ => hstays⟩
      · have hconsumable := hsettled ⟨t, hmem, ht, hstays⟩ t hmem ht
        have hacted := (removes_all hlib ht hstays t ht).2.mpr hconsumable
        exact ⟨.inr hacted, fun hway => absurd hway hconsumable.not_underWay⟩
  | check kafka choices => exact Iff.rfl
  | edit annotations => exact Iff.rfl
  | store w => exact Iff.rfl

/-- In every run, the phases handle the triggers exactly if each phase that removes triggers
    finds all of them consumable. -/
theorem triggers_handled_iff (hlib : lib.Lawful) (es : List SiteEvent) (s : Site) :
    History.Along (SiteEvent.exec lib) (Handled lib) es s ↔
      History.Along (SiteEvent.exec lib) (Settled lib) es s :=
  ⟨fun h => h.mono fun e s => (handled_iff_settled hlib e s).mp,
    fun h => h.mono fun e s => (handled_iff_settled hlib e s).mpr⟩

/-! ## A rotation and a renewal -/

namespace Sample

/-- A phase without faults over the cluster `demo`. -/
def phase (conv : Bool) : SiteEvent := .phase (pass []) conv (List.replicate 40 {})

/-- The CAs are created, and an administrator asks for a new key of the cluster CA. -/
def rotating : List SiteEvent := [phase true, .edit [annForceReplaceKey], phase true]

/-- While the new CA is distributed, an administrator also asks for a renewal. -/
def forcing : List SiteEvent := rotating ++ [.edit [annForceRenew]]

end Sample

instance (lib : CaLib) (e : SiteEvent) (s : Site) : Decidable (Handled lib e s) := by
  unfold Handled
  split <;> infer_instance

instance (lib : CaLib) (e : SiteEvent) (s : Site) : Decidable (Settled lib e s) := by
  unfold Settled
  split <;> infer_instance

theorem rotating_handled :
    History.Along (SiteEvent.exec SampleLib.lib) (Handled SampleLib.lib) Sample.rotating
      (Sample.start, []) :=
  (triggers_handled_iff SampleLib.lib_lawful Sample.rotating (Sample.start, [])).mpr
    (by decide +kernel)

/-- The renewal is asked for while the trust phase waits for the roll. The next phase does
    nothing to the CA and removes the trigger. -/
theorem forced_renewal_lost :
    SampleLib.lib.Lawful ∧
      let s := History.final (SiteEvent.exec SampleLib.lib) Sample.forcing (Sample.start, [])
      phase? s.1 .cluster "demo" = some .keyReplaceTrust ∧ annForceRenew ∈ s.2 ∧
        annForceRenew ∉ (History.finish (SiteEvent.exec SampleLib.lib) (Sample.phase false) s).2 ∧
        ¬ Handled SampleLib.lib (Sample.phase false) s := by
  refine ⟨SampleLib.lib_lawful, ?_⟩
  decide +kernel

end Cluster
