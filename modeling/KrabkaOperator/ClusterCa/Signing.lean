-- SUMMARY: Sequences of reconcile calls on the CAs of a cluster, and when the signing material that a call returns is a matching pair.
import KrabkaOperator.Base.History
import KrabkaOperator.ClusterCa.Refinement

/-!
# Signing material

A history of calls starts before the CAs of the cluster are created. Every call
may have any inputs and may stop at any request. The signing material that a call
returns is a matching pair, unless an earlier call has promoted the key Secret
only and this call does not replay the promotion.
-/

namespace ClusterCa

open Kube Crd Operator

/-- One call of `reconcileCa`, with what the environment does to it. -/
structure CaCall where
  kafka : Kafka
  which : WhichCa
  forceRenew : Bool := false
  forceReplaceKey : Bool := false
  rolloutConverged : Bool := false
  now : Int := 0
  choices : List Choice

namespace CaCall

variable (lib : CaLib)

def prog (call : CaCall) : Op CaReconcileOutcome :=
  reconcileCa lib call.kafka call.which call.forceRenew call.forceReplaceKey call.rolloutConverged
    call.now

/-- The inputs that the planner sees. -/
def inputs (call : CaCall) : RotationInputs :=
  rotationInputs call.kafka call.which call.forceRenew call.forceReplaceKey call.rolloutConverged
    call.now

/-- The states that a call passes. -/
def exec (call : CaCall) (w : World) : List World := (call.prog lib).after answer call.choices w

/-- The call may promote a staged key. -/
def mayPromote (call : CaCall) : Bool :=
  (call.which.spec call.kafka).generateCertificateAuthority && call.rolloutConverged

end CaCall

/-- No CA of the cluster has been created yet. -/
def Uncreated (cluster : String) (w : World) : Prop :=
  ∀ which : WhichCa, w.secret? (which.certName cluster) = none

/-- Both CAs of the cluster are ones that the operator made. -/
def BothOk (lib : CaLib) (cluster : String) (w : World) : Prop :=
  ∀ which, CaOk lib which cluster w

variable {lib : CaLib} {cluster : String} {a b w : World} {which which' : WhichCa} {conv : Bool}

theorem Uncreated.bothOk (h : Uncreated cluster w) : BothOk lib cluster w := fun which => .inl (h which)

theorem uncreated_empty (cluster : String) : Uncreated cluster World.empty := by
  intro which
  simp [World.secret?, World.empty]

/-- A step on one CA does not change the other one. -/
theorem CaStep.other (h : CaStep lib which conv cluster a b) (hne : which ≠ which')
    (hok : CaOk lib which' cluster a) : CaTrans lib which' conv cluster a b := by
  have hkey : b.secret? (which'.keyName cluster) = a.secret? (which'.keyName cluster) :=
    h.frame.secret _ (keyName_ne_of_ne hne.symm) keyName_ne_certName
  have hcert : b.secret? (which'.certName cluster) = a.secret? (which'.certName cluster) :=
    h.frame.secret _ keyName_ne_certName.symm (certName_ne_of_ne hne.symm)
  exact .unchanged hok hkey hcert

/-- Every step of a call is a step on both CAs. -/
structure CallStep (lib : CaLib) (conv : Bool) (cluster : String) (a b : World) : Prop where
  draws : a.draws ≤ b.draws
  trans : ∀ which, CaTrans lib which conv cluster a b

theorem CallStep.ok (h : CallStep lib conv cluster a b) (hok : BothOk lib cluster a) :
    BothOk lib cluster b := fun which => (h.trans which).ok h.draws (hok which)

theorem CaStep.callStep (h : CaStep lib which conv cluster a b) (hok : BothOk lib cluster a) :
    CallStep lib conv cluster a b where
  draws := h.draws
  trans which' := by
    by_cases hne : which = which'
    · exact hne ▸ h.trans
    · exact h.other hne (hok which')

theorem CaCall.sat (hlib : lib.Lawful) (call : CaCall) (hok : BothOk lib call.kafka.name w) :
    Prog.Sat answer (fun a _ b => CallStep lib call.rolloutConverged call.kafka.name a b)
      (CaPost lib call.kafka call.which call.inputs w)
      (call.prog lib) w := by
  have hsat := reconcileCa_sat hlib (hok call.which) call.forceRenew call.forceReplaceKey
    call.rolloutConverged call.now
  have hkeep : ∀ a (_ : Req) b, CaStep lib call.which call.rolloutConverged call.kafka.name a b →
      BothOk lib call.kafka.name a → BothOk lib call.kafka.name b :=
    fun a _ b h ha => (h.callStep ha).ok ha
  refine (hsat.invariant hkeep hok).mono ?_ fun x v hx => hx.1
  exact fun a r b h => h.1.callStep h.2.1

theorem CaCall.bothOk_exec (hlib : lib.Lawful) (call : CaCall) (hname : call.kafka.name = cluster)
    (hw : BothOk lib cluster w) : ∀ v ∈ call.exec lib w, BothOk lib cluster v := by
  subst hname
  refine Prog.Sat.forall_after (Q := fun _ _ => True) ?_ hw call.choices
  exact (call.sat hlib hw).mono (fun a r b h => h.ok) fun _ _ _ => trivial

/-- The CAs are the operator's own in every state of a history of calls. -/
theorem bothOk_of_history (hlib : lib.Lawful) (hw : BothOk lib cluster w) {calls : List CaCall}
    (hcalls : ∀ call ∈ calls, call.kafka.name = cluster) :
    ∀ v ∈ History.states (CaCall.exec lib) calls w, BothOk lib cluster v := by
  exact History.invariant hw hcalls fun call v hname hv => call.bothOk_exec hlib hname hv

/-- Along a history of calls every state follows from the one before by a step. -/
theorem isChain_of_history (hlib : lib.Lawful) (hw : BothOk lib cluster w) {calls : List CaCall}
    (hcalls : ∀ call ∈ calls, call.kafka.name = cluster) :
    (History.states (CaCall.exec lib) calls w).IsChain
      fun a b => ∃ conv, CallStep lib conv cluster a b := by
  refine History.isChain hw hcalls (fun call v hname hv => ?_) fun call v hname hv => ?_
  · exact call.bothOk_exec hlib hname hv
  · subst hname
    refine Prog.Sat.isChain_after (Q := fun _ _ => True) ?_ call.choices
    exact (call.sat hlib hv).mono (fun a r b h => ⟨_, h⟩) fun _ _ _ => trivial

theorem CaCall.rests_of_trust (call : CaCall) {K : KeyPart} {C : CertPart}
    (hphase : C.phase = .keyReplaceTrust) :
    (planCaRotation lib (.ofParts K C) call.inputs).rests = !call.mayPromote :=
  planCaRotation_trust hphase

/-- A call promoted the key Secret only. -/
def HalfPromotedIn (which : WhichCa) (cluster : String) (w : World) : Prop :=
  ∃ K C, Stored which cluster w K C ∧ HalfPromoted K C

/-- In every history of calls, with any inputs and any faults, the signing material of
    a call that returns is a matching pair exactly when the call does not find a
    half-promoted CA or is one that replays the promotion. -/
theorem signingMaterial_pairs_iff (hlib : lib.Lawful) {w₀ w' : World} (hw₀ : Uncreated cluster w₀)
    (calls : List CaCall) (hcalls : ∀ call ∈ calls, call.kafka.name = cluster)
    (call : CaCall) (hname : call.kafka.name = cluster) {out : CaReconcileOutcome}
    (hrun : (call.prog lib).run answer call.choices (History.final (CaCall.exec lib) calls w₀) =
      (.done out, w')) :
    lib.Pairs out.signingMaterial ↔
      ¬ (HalfPromotedIn call.which cluster (History.final (CaCall.exec lib) calls w₀) ∧
        call.mayPromote = false) := by
  subst hname
  set w := History.final (CaCall.exec lib) calls w₀ with hw
  have hok : BothOk lib call.kafka.name w :=
    bothOk_of_history hlib hw₀.bothOk hcalls w History.final_mem_states
  obtain ⟨K, C, hout, hinv, hcase⟩ := (call.sat hlib hok).run_done hrun out rfl
  obtain ⟨b, hb, hkey⟩ := hout.certKey
  -- The returned pair matches exactly when the stored CA is not half-promoted.
  have hpairs : lib.Pairs out.signingMaterial ↔ ¬ HalfPromoted K C := by
    rw [CaLib.Pairs, hkey, hout.keyPem]
    exact hinv.pairs_iff hb
  rw [hpairs]
  rcases hcase with ⟨habsent, hphase⟩ | ⟨K₀, C₀, hst, hrot⟩
  · constructor
    · rintro - ⟨⟨K₀, C₀, hst, -⟩, -⟩
      exact absurd habsent hst.secret?
    · rintro - ⟨htrust, -⟩
      rw [hphase] at htrust
      cases htrust
  · rw [not_iff_not]
    constructor
    · intro hhalf
      have hrests : (planCaRotation lib (.ofParts K₀ C₀) call.inputs).rests = true := by
        by_contra hne
        exact hrot.moved (Bool.eq_false_iff.mpr hne) hhalf
      obtain ⟨rfl, rfl⟩ := hrot.rests hrests
      refine ⟨⟨K, C, hst, hhalf⟩, ?_⟩
      rw [call.rests_of_trust hhalf.1] at hrests
      simpa using hrests
    · rintro ⟨⟨K₁, C₁, hst₁, hhalf⟩, hmay⟩
      obtain ⟨rfl, rfl⟩ := hst₁.unique hst
      have hrests : (planCaRotation lib (.ofParts K₁ C₁) call.inputs).rests = true := by
        rw [call.rests_of_trust hhalf.1, hmay]
        rfl
      obtain ⟨rfl, rfl⟩ := hrot.rests hrests
      exact hhalf

/-! ## A promotion that stops half-way -/

/-- A call on the cluster CA of a `Kafka` with a default spec. -/
def sampleCall (choices : List Choice) (forceReplaceKey rolloutConverged : Bool) : CaCall where
  kafka := .minimal "demo"
  which := .cluster
  forceReplaceKey
  rolloutConverged
  choices

/-- Enough answers without a fault for one call. -/
def allAnswered : List Choice := List.replicate 8 {}

/-- The CA is created, a key replacement is started, and its promotion stops after the
    patch of the key Secret. -/
def promotionCut : List CaCall := [sampleCall allAnswered false false,
  sampleCall allAnswered true false, sampleCall (List.replicate 3 {}) false true]

/-- A call that replays the promotion. -/
theorem signingMaterial_pairs_replayed : ∃ out w',
    ((sampleCall allAnswered false true).prog SampleLib.lib).run answer allAnswered
        (History.final (CaCall.exec SampleLib.lib) promotionCut World.empty) = (.done out, w') ∧
      (SampleLib.lib.Pairs out.signingMaterial ↔ ¬ (HalfPromotedIn .cluster "demo"
        (History.final (CaCall.exec SampleLib.lib) promotionCut World.empty) ∧
        (sampleCall allAnswered false true).mayPromote = false)) := by
  obtain ⟨out, hout, -⟩ := Prog.Outcome.exists_of_isDone (fun _ => true)
    (x := (((sampleCall allAnswered false true).prog SampleLib.lib).run answer allAnswered
      (History.final (CaCall.exec SampleLib.lib) promotionCut World.empty)).1) (by decide +kernel)
  have hrun := Prod.ext (y := (Prog.Outcome.done out, _)) hout rfl
  exact ⟨out, _, hrun, signingMaterial_pairs_iff SampleLib.lib_lawful (uncreated_empty "demo")
    promotionCut (by decide) (sampleCall allAnswered false true) rfl hrun⟩

/-- The next call with a roll that has not converged returns the promoted key with the
    old certificate. -/
theorem signingMaterial_mismatch : SampleLib.lib.Lawful ∧ Uncreated "demo" World.empty ∧
    (∀ call ∈ promotionCut, call.kafka.name = "demo" ∧
      (call.which.spec call.kafka).generateCertificateAuthority = true) ∧
    ∃ out, (((sampleCall allAnswered false false).prog SampleLib.lib).run answer allAnswered
        (History.final (CaCall.exec SampleLib.lib) promotionCut World.empty)).1 = .done out ∧
      ¬ SampleLib.lib.Pairs out.signingMaterial := by
  refine ⟨SampleLib.lib_lawful, uncreated_empty "demo", by decide, ?_⟩
  obtain ⟨out, hout, hpairs⟩ := Prog.Outcome.exists_of_isDone
    (fun out : CaReconcileOutcome => !decide (SampleLib.lib.Pairs out.signingMaterial))
    (x := (((sampleCall allAnswered false false).prog SampleLib.lib).run answer allAnswered
      (History.final (CaCall.exec SampleLib.lib) promotionCut World.empty)).1)
    (by decide +kernel)
  exact ⟨out, hout, by simpa using hpairs⟩

end ClusterCa
