-- SUMMARY: The pure rotation state machine of a CA: its phases, its stored state, its inputs and the planner.
import KrabkaOperator.Crd.Kafka
import KrabkaOperator.Operator.World

/-!
# CA rotation: the planner

A staged key replacement goes through three phases, which the operator stores in
an annotation of the cert Secret. The planner decides from the stored state and
the inputs of one reconcile pass what to do to a CA; it makes no request.

Times are in seconds, extents of time in whole days.
-/

namespace ClusterCa

open Kube Crd Operator

/-! ## Names -/

def annCertGeneration : String := "krabka.io/ca-cert-generation"
def annKeyGeneration : String := "krabka.io/ca-key-generation"
def annLeafsKeyGeneration : String := "krabka.io/ca-leafs-key-generation"
def annRotationPhase : String := "krabka.io/ca-rotation-phase"
def nextKey : String := "ca.key.next"
def nextCert : String := "ca.crt.next"

def annForceRenew : String := "krabka.io/force-renew-ca"
def annForceReplaceKey : String := "krabka.io/force-replace-ca-key"
def annForceReplaceClientsKey : String := "krabka.io/force-replace-clients-ca-key"
def annRenewAfter : String := "krabka.io/ca-renew-after"

namespace WhichCa

def cnSuffix : WhichCa → String
  | .cluster => "-cluster-ca"
  | .clients => "-clients-ca"

def conditionName : WhichCa → String
  | .cluster => "ClusterCaReady"
  | .clients => "ClientsCaReady"

/-- `cluster_ca_key_name` and `clients_ca_key_name`. -/
def keyName (which : WhichCa) (cluster : String) : String :=
  match which with
  | .cluster => cluster ++ "-cluster-ca"
  | .clients => cluster ++ "-clients-ca"

/-- `cluster_ca_cert_name` and `clients_ca_cert_name`. -/
def certName (which : WhichCa) (cluster : String) : String :=
  match which with
  | .cluster => cluster ++ "-cluster-ca-cert"
  | .clients => cluster ++ "-clients-ca-cert"

/-- The part of the spec that configures the CA. -/
def spec (which : WhichCa) (kafka : Kafka) : CertificateAuthority :=
  match which with
  | .cluster => kafka.spec.clusterCa.getD {}
  | .clients => kafka.spec.clientsCa.getD {}

end WhichCa

/-! ## State and inputs -/

/-- Staged key-replacement phase. -/
inductive CaPhase where
  | idle
  /-- The new certificate is in the bundle for trust only; the old key signs. -/
  | keyReplaceTrust
  /-- The new key signs; the old certificate is still trusted. -/
  | keyReplacePromote
  deriving DecidableEq, Repr

namespace CaPhase

def asStr : CaPhase → String
  | .idle => "idle"
  | .keyReplaceTrust => "key-replace-trust"
  | .keyReplacePromote => "key-replace-promote"

/-- Unknown texts read as `idle`. -/
def parse (s : String) : CaPhase :=
  if s = "key-replace-trust" then .keyReplaceTrust
  else if s = "key-replace-promote" then .keyReplacePromote
  else .idle

@[simp] theorem parse_asStr (p : CaPhase) : parse p.asStr = p := by
  cases p <;> decide

end CaPhase

/-- CA material and rotation bookkeeping, rebuilt from the Secret pair. -/
structure CaState where
  /-- Trust bundle, signing certificate first. -/
  bundle : List Pem
  /-- Active signing key. -/
  keyPem : Pem
  pendingKeyPem : Option Pem
  pendingCertPem : Option Pem
  certGeneration : Nat
  keyGeneration : Nat
  leafsKeyGeneration : Option Nat
  phase : CaPhase
  deriving DecidableEq, Repr

inductive ForceRotation where
  | none
  | renewCertificate
  | replaceKey
  | renewAndReplaceKey
  deriving DecidableEq, Repr

namespace ForceRotation

def renewsCertificate : ForceRotation → Bool
  | .renewCertificate | .renewAndReplaceKey => true
  | _ => false

def replacesKey : ForceRotation → Bool
  | .replaceKey | .renewAndReplaceKey => true
  | _ => false

def ofFlags : Bool → Bool → ForceRotation
  | false, false => .none
  | true, false => .renewCertificate
  | false, true => .replaceKey
  | true, true => .renewAndReplaceKey

end ForceRotation

/-- Inputs of one reconcile pass to `planCaRotation`. -/
structure RotationInputs where
  generate : Bool
  validity : Nat
  renewal : Nat
  force : ForceRotation
  rolloutConverged : Bool
  now : Int
  which : WhichCa
  deriving DecidableEq, Repr

inductive RefuseReason where
  | byo
  deriving DecidableEq, Repr

inductive CaRotationPlan where
  | noOp
  | renewCertSameKey
  | startKeyReplace
  | promoteNewKey
  | pruneOldTrust
  | refuse (reason : RefuseReason)
  deriving DecidableEq, Repr

/-- The plans that change nothing. -/
def CaRotationPlan.rests : CaRotationPlan → Bool
  | .noOp | .refuse _ => true
  | _ => false

/-! ## The planner -/

variable (lib : CaLib)

/-- Whether a certificate expires within `renewal` days of `now`. -/
def renewIfExpiring (certPem : Pem) (renewal : Nat) (now : Int) : Except String Bool :=
  (lib.certNotAfter certPem).map fun notAfter => notAfter - now ≤ renewal * 86400

/-- Makes the pure rotation decision. -/
def planCaRotation (state : CaState) (inp : RotationInputs) : CaRotationPlan :=
  if !inp.generate then
    if inp.force.renewsCertificate || inp.force.replacesKey then .refuse .byo else .noOp
  else
    match state.phase with
    | .keyReplaceTrust => if inp.rolloutConverged then .promoteNewKey else .noOp
    | .keyReplacePromote =>
      let leafsConverged := inp.which = .cluster ||
        state.leafsKeyGeneration = some state.keyGeneration
      if inp.rolloutConverged && leafsConverged then .pruneOldTrust else .noOp
    | .idle =>
      if inp.force.replacesKey then .startKeyReplace
      else
        let signing := state.bundle.head?.getD []
        let renewDue := inp.force.renewsCertificate ||
          match renewIfExpiring lib signing inp.renewal inp.now with
          | .ok due => due
          | .error _ => false
        if renewDue then .renewCertSameKey
        else
          let hasExpired := (state.bundle.drop 1).any fun b =>
            match lib.certNotAfter b with
            | .ok notAfter => notAfter ≤ inp.now
            | .error _ => false
          if hasExpired then .pruneOldTrust else .noOp

/-! ## What a plan says about the state -/

variable {lib} {state : CaState} {inp : RotationInputs}

/-- A CA that the operator does not generate is never changed. -/
theorem planCaRotation_byo (h : inp.generate = false) :
    (planCaRotation lib state inp).rests = true := by
  simp only [planCaRotation, h, Bool.not_false, if_true]
  split <;> rfl

/-- The phase that a step starts from. -/
theorem planCaRotation_phase (lib : CaLib) (state : CaState) (inp : RotationInputs) :
    match planCaRotation lib state inp with
    | .noOp | .refuse _ => True
    | .renewCertSameKey | .startKeyReplace => state.phase = .idle
    | .promoteNewKey => state.phase = .keyReplaceTrust ∧ inp.rolloutConverged = true
    | .pruneOldTrust => state.phase = .idle ∨
        (state.phase = .keyReplacePromote ∧ inp.rolloutConverged = true ∧
          (inp.which = .cluster ∨ state.leafsKeyGeneration = some state.keyGeneration)) := by
  unfold planCaRotation
  cases hg : inp.generate with
  | false =>
    simp only [Bool.not_false, if_true]
    split <;> rename_i heq <;> split at heq <;> simp_all
  | true =>
    cases hp : state.phase with
    | keyReplaceTrust =>
      cases hr : inp.rolloutConverged <;> simp
    | keyReplacePromote =>
      simp only [Bool.not_true, Bool.false_eq_true, if_false]
      split <;> rename_i heq <;> split at heq <;> simp_all
    | idle =>
      simp only [Bool.not_true, Bool.false_eq_true, if_false]
      split <;> rename_i heq <;> (repeat' split at heq) <;> simp_all

/-- A staged CA rests until the operator may promote it. -/
theorem planCaRotation_trust (hp : state.phase = .keyReplaceTrust) :
    (planCaRotation lib state inp).rests = !(inp.generate && inp.rolloutConverged) := by
  cases hg : inp.generate with
  | false => simp [planCaRotation_byo hg]
  | true =>
    cases hr : inp.rolloutConverged <;> simp [planCaRotation, hg, hp, hr, CaRotationPlan.rests]

end ClusterCa
