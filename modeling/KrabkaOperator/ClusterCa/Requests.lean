-- SUMMARY: The requests of a reconcile call on one CA: it reads, draws, and patches CA entries of the two Secrets.
import KrabkaOperator.ClusterCa.Frame

/-!
# Requests of a CA call

Whatever is stored and whatever the requests are answered, a call sends nothing but
the requests in `CallReq`.
-/

namespace ClusterCa

open Kube Crd Operator

inductive CallReq (which : WhichCa) (cluster : String) : Req → Prop
  | getSecret {name : String} : CallReq which cluster (.getSecret name)
  | draw : CallReq which cluster .draw
  | patchKey {data : List (String × Pem)} {annotations : List (String × String)}
      (hdata : ∀ e ∈ data, e.1 ∈ caKeys) :
      CallReq which cluster
        (.applySecret (which.keyName cluster) (renderCaSecret data annotations))
  | patchCert {data : List (String × Pem)} {annotations : List (String × String)}
      (hdata : ∀ e ∈ data, e.1 ∈ caKeys) :
      CallReq which cluster
        (.applySecret (which.certName cluster) (renderCaSecret data annotations))

variable {lib : CaLib} {kafka : Kafka} {which : WhichCa} {data : List (String × Pem)}
  {annotations : List (String × String)}

theorem patchKey_makes (hdata : ∀ e ∈ data, e.1 ∈ caKeys) :
    (patchSecret kafka (which.keyName kafka.name) data annotations).Makes
      (CallReq which kafka.name) := by
  unfold patchSecret
  cases kafka.uid with
  | none => trivial
  | some uid => exact makes_applySecret (.patchKey hdata)

theorem patchCert_makes (hdata : ∀ e ∈ data, e.1 ∈ caKeys) :
    (patchSecret kafka (which.certName kafka.name) data annotations).Makes
      (CallReq which kafka.name) := by
  unfold patchSecret
  cases kafka.uid with
  | none => trivial
  | some uid => exact makes_applySecret (.patchCert hdata)

theorem patchCertBundle_makes {bundle : List Pem} {certGen : Nat} {phase : CaPhase} :
    (patchCertBundle kafka (which.certName kafka.name) bundle certGen phase).Makes
      (CallReq which kafka.name) :=
  patchCert_makes (by simp [caKeys])

theorem readNotAfter_makes {R : Req → Prop} {pem : Pem} {β : Type} {k : String → Op β}
    (hk : ∀ text, (k text).Makes R) : (readNotAfter lib pem >>= k).Makes R := by
  unfold readNotAfter
  rw [Prog.bind_assoc]
  exact makes_orFail fun _ _ => makes_orFail fun text _ => hk text

theorem executePlan_makes (state : CaState) (plan : CaRotationPlan) (inp : RotationInputs)
    (raw : Pem) :
    (executePlan lib kafka which state plan inp raw).Makes (CallReq which kafka.name) := by
  cases plan with
  | noOp => trivial
  | refuse reason => trivial
  | renewCertSameKey =>
    apply (makes_draw .draw).bind
    intro d
    apply makes_orFail
    intro newCert _
    exact patchCertBundle_makes.bind fun _ => trivial
  | startKeyReplace =>
    apply (makes_draw .draw).bind
    intro d
    apply makes_orFail
    intro new _
    apply (patchKey_makes (by simp [caKeys])).bind
    intro _
    exact patchCertBundle_makes.bind fun _ => trivial
  | promoteNewKey =>
    unfold executePlan promoteNewKey
    dsimp only
    cases state.pendingKeyPem with
    | none => trivial
    | some newKey =>
      cases state.pendingCertPem with
      | none => trivial
      | some pendingCert =>
        apply (patchKey_makes (by simp [caKeys])).bind
        intro _
        exact patchCertBundle_makes.bind fun _ => trivial
  | pruneOldTrust =>
    unfold executePlan pruneOldTrust
    dsimp only
    split
    · apply (patchKey_makes (by simp [caKeys])).bind
      intro _
      exact patchCertBundle_makes.bind fun _ => trivial
    · exact patchCertBundle_makes.bind fun _ => trivial

theorem createCa_makes : (createCa lib kafka which).Makes (CallReq which kafka.name) := by
  apply (makes_draw .draw).bind
  intro d
  apply makes_orFail
  intro material _
  apply (patchKey_makes (by simp [caKeys])).bind
  intro _
  apply (patchCert_makes (by simp [caKeys])).bind
  intro _
  exact readNotAfter_makes fun _ => trivial

theorem reconcileCa_makes (forceRenew forceReplaceKey converged : Bool) (now : Int) :
    (reconcileCa lib kafka which forceRenew forceReplaceKey converged now).Makes
      (CallReq which kafka.name) := by
  apply (makes_getOpt .getSecret).bind
  intro existingKey
  apply (makes_getOpt .getSecret).bind
  intro existingCert
  dsimp only
  unfold reconcileCaFrom
  dsimp only
  split
  · apply (executePlan_makes _ _ _ _).bind
    intro r
    exact readNotAfter_makes fun _ => trivial
  · apply Prog.makes_ite
    · trivial
    · exact createCa_makes

end ClusterCa
