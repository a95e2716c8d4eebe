-- SUMMARY: Which CA a renewal is for: the renewal check asks through an annotation that names no CA, and the reconciler takes it for the cluster CA.
import KrabkaOperator.Cluster.Triggers

/-!
# Attribution of renewals

The renewal check stamps one annotation for either CA. The planner renews a CA whose
signing certificate is in the renewal window of that CA, and the cluster CA also when
the annotation is there.
-/

namespace Cluster

open Kube Crd Operator ClusterCa

variable {lib : CaLib}

/-- The signing certificate of a stored CA expires within the renewal window of that CA. -/
def InWindow (lib : CaLib) (kafka : Kafka) (which : WhichCa) (w : World) (now : Int) : Prop :=
  match certPartIn w which kafka.name with
  | none => False
  | some C =>
    renewIfExpiring lib (C.bundle.head?.getD []) (which.spec kafka).renewalDays now = .ok true

instance (kafka : Kafka) (which : WhichCa) (w : World) (now : Int) :
    Decidable (InWindow lib kafka which w now) := by
  unfold InWindow
  split <;> infer_instance

/-- A phase renews a CA only for its own expiry, or because an administrator asks for it. -/
def Attributed (lib : CaLib) (e : SiteEvent) (s : Site) : Prop :=
  match e with
  | .phase pass conv (c :: cs) => ∀ which ∈ [WhichCa.cluster, WhichCa.clients],
      executed lib (reading pass.kafka s.2) conv (c :: cs) s.1 which = some .renewCertSameKey →
      InWindow lib pass.kafka which s.1 c.clock ∨ (which = .cluster ∧ annForceRenew ∈ s.2)
  | _ => True

/-- A phase that finds the annotation of the renewal check, no annotation of an administrator
    and an idle cluster CA of the operator finds that CA in its renewal window. -/
def Attributable (lib : CaLib) (e : SiteEvent) (s : Site) : Prop :=
  match e with
  | .phase pass _ (c :: _) => annRenewAfter ∈ s.2 → annForceRenew ∉ s.2 → annForceReplaceKey ∉ s.2 →
      (WhichCa.cluster.spec pass.kafka).generateCertificateAuthority = true →
      phase? s.1 .cluster pass.kafka.name = some .idle →
      InWindow lib pass.kafka .cluster s.1 c.clock
  | _ => True

instance (e : SiteEvent) (s : Site) : Decidable (Attributed lib e s) := by
  unfold Attributed
  split <;> infer_instance

instance (e : SiteEvent) (s : Site) : Decidable (Attributable lib e s) := by
  unfold Attributable
  split <;> infer_instance

/-- What makes the planner renew a CA. -/
theorem plan_renews_iff {state : CaState} {inp : RotationInputs} :
    planCaRotation lib state inp = .renewCertSameKey ↔
      inp.generate = true ∧ state.phase = .idle ∧ inp.force.replacesKey = false ∧
        (inp.force.renewsCertificate = true ∨
          renewIfExpiring lib (state.bundle.head?.getD []) inp.renewal inp.now = .ok true) := by
  unfold planCaRotation
  cases hg : inp.generate with
  | false =>
    simp only [Bool.not_false, if_true, Bool.false_eq_true, false_and, iff_false]
    split <;> simp
  | true =>
    cases hp : state.phase with
    | keyReplaceTrust => cases inp.rolloutConverged <;> simp
    | keyReplacePromote =>
      simp only [Bool.not_true, Bool.false_eq_true, if_false]
      split <;> simp
    | idle =>
      cases hr : inp.force.replacesKey with
      | true => simp
      | false =>
        cases hf : inp.force.renewsCertificate with
        | true => simp
        | false =>
          rcases hx : renewIfExpiring lib (state.bundle.head?.getD []) inp.renewal inp.now with
            e | due
          · simp only [Bool.not_true, Bool.false_eq_true, if_false, Bool.or_false, hx]
            split <;> simp
          · cases due with
            | true => simp [hx]
            | false =>
              simp only [Bool.not_true, Bool.false_eq_true, if_false, Bool.or_false, hx]
              split <;> simp

/-- A plan is made for a stored CA. -/
theorem exists_of_plannedIn {kafka : Kafka} {which : WhichCa} {conv : Bool} {now : Int} {w : World}
    {plan : CaRotationPlan} (h : plannedIn lib kafka which conv now w = some plan) :
    ∃ K C, Stored which kafka.name w K C ∧
      planCaRotation lib (.ofParts K C) (caInputs kafka which conv now) = plan := by
  obtain ⟨K, hK, h⟩ := Option.bind_eq_some_iff.mp h
  obtain ⟨C, hC, hplan⟩ := Option.map_eq_some_iff.mp h
  exact ⟨K, C, ⟨hK, hC⟩, hplan⟩

/-- The plan that a phase executes is the one for the CA as the phase has found it. -/
theorem planned_of_executed {kafka : Kafka} {which : WhichCa} {conv : Bool} {c : Choice}
    {cs : List Choice} {w : World} {plan : CaRotationPlan}
    (h : executed lib kafka conv (c :: cs) w which = some plan) :
    plannedIn lib kafka which conv c.clock w = some plan := by
  have hcall : ∀ {which : WhichCa} {choices : List Choice} {v : World},
      executedBy lib kafka which conv c.clock choices v = some plan →
        plannedIn lib kafka which conv c.clock v = some plan := by
    intro which choices v hv
    unfold executedBy at hv
    split at hv
    · exact hv
    · cases hv
  cases which with
  | cluster => exact hcall h
  | clients =>
    rw [executed] at h
    split at h
    · rename_i out w₁ rest hcluster
      have hplan := hcall h
      obtain ⟨hkey, hcert⟩ := phaseCall_leaves (show WhichCa.clients ≠ .cluster by simp) hcluster
      rwa [plannedIn, hkey, hcert] at hplan
    · cases h

theorem attributed_of_attributable {e : SiteEvent} {s : Site} (h : Attributable lib e s) :
    Attributed lib e s := by
  cases e with
  | phase pass conv choices =>
    cases choices with
    | nil => trivial
    | cons c cs =>
      intro which _ hexec
      obtain ⟨K, C, hst, hplan⟩ := exists_of_plannedIn (planned_of_executed hexec)
      obtain ⟨hgenerate, hidle, hreplace, hcause⟩ := plan_renews_iff.mp hplan
      have hwindow : renewIfExpiring lib ((CaState.ofParts K C).bundle.head?.getD [])
          (which.spec pass.kafka).renewalDays c.clock = .ok true →
          InWindow lib pass.kafka which s.1 c.clock := by
        intro hdue
        have hcert : certPartIn s.1 which pass.kafka.name = some C := hst.cert
        simp only [InWindow, hcert]
        exact hdue
      rcases hcause with hforce | hdue
      · cases which with
        | clients =>
          exfalso
          revert hforce
          rw [caInputs, rotationInputs, renewsCertificate_ofFlags]
          simp [forced]
        | cluster =>
          by_cases hadmin : annForceRenew ∈ s.2
          · exact .inr ⟨rfl, hadmin⟩
          · left
            rw [caInputs, rotationInputs] at hforce hreplace
            dsimp only at hforce hreplace
            rw [renewsCertificate_ofFlags] at hforce
            rw [replacesKey_ofFlags] at hreplace
            have hstamp : annRenewAfter ∈ s.2 := by
              simp only [forced, Bool.or_eq_true, contains_reading] at hforce
              exact hforce.resolve_left hadmin
            have hnoReplace : annForceReplaceKey ∉ s.2 := by
              intro hmem
              rw [← @contains_reading pass.kafka] at hmem
              simp only [forced] at hreplace
              rw [hmem] at hreplace
              cases hreplace
            refine h hstamp hadmin hnoReplace hgenerate ?_
            have hcert : certPartIn s.1 .cluster pass.kafka.name = some C := hst.cert
            rw [phase?, hcert]
            exact congrArg some hidle
      · exact .inl (hwindow hdue)
  | check kafka choices => trivial
  | edit annotations => trivial
  | store w => trivial

/-- In every run of phases, renewal checks and other changes whose phases find the annotation
    of the check only with a cluster CA in its window, each renewal is for the right CA. -/
theorem renewals_attributed {es : List SiteEvent} {s : Site}
    (h : History.Along (SiteEvent.exec lib) (Attributable lib) es s) :
    History.Along (SiteEvent.exec lib) (Attributed lib) es s :=
  h.mono fun _ _ => attributed_of_attributable

/-! ## An expiring CA -/

namespace Sample

/-- The cluster `demo` with CAs that are valid for some days. -/
def datedKafka (cluster clients : Nat) : Kafka :=
  { Kafka.minimal "demo" with
    spec := {
      clusterCa := some { validityDays := cluster }
      clientsCa := some { validityDays := clients } } }

/-- A phase without faults on some day. -/
def phaseOn (kafka : Kafka) (day : Int) : SiteEvent :=
  .phase { kafka } true (List.replicate 40 { clock := day * 86400 })

/-- The CAs are created, and the renewal check visits the cluster after 20 days. -/
def visited (kafka : Kafka) : List SiteEvent :=
  [phaseOn kafka 0, .check kafka (List.replicate 40 { clock := 20 * 86400 })]

end Sample

/-- The cluster CA expires: the check asks for its renewal, and the phase renews it. -/
theorem expiring_cluster_attributed :
    History.Along (SiteEvent.exec SampleLib.lib) (Attributed SampleLib.lib)
      (Sample.visited (Sample.datedKafka 40 365) ++ [Sample.phaseOn (Sample.datedKafka 40 365) 20])
      (Sample.start, []) :=
  renewals_attributed (by decide)

/-- The clients CA expires: the check asks for a renewal, and the phase renews the cluster CA,
    whose certificate is good for almost a year and for which nobody asked. -/
theorem expiring_clients_renews_cluster :
    SampleLib.lib.Lawful ∧
    let kafka := Sample.datedKafka 365 40
    let s := History.final (SiteEvent.exec SampleLib.lib) (Sample.visited kafka) (Sample.start, [])
    annForceRenew ∉ s.2 ∧ InWindow SampleLib.lib kafka .clients s.1 (20 * 86400) ∧
      ¬ InWindow SampleLib.lib kafka .cluster s.1 (20 * 86400) ∧
      executed SampleLib.lib (reading kafka s.2) true (List.replicate 40 { clock := 20 * 86400 })
        s.1 .cluster = some .renewCertSameKey ∧
      ¬ Attributed SampleLib.lib (Sample.phaseOn kafka 20) s := by
  refine ⟨SampleLib.lib_lawful, ?_⟩
  decide

end Cluster
