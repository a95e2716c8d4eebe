-- SUMMARY: The CA controller as a program over API requests: reading a CA, creating it, and executing a rotation plan.
import KrabkaOperator.ClusterCa.Rotation

/-!
# CA reconciliation

`reconcileCa` reads the Secret pair of one CA. When both Secrets hold readable
material it plans and executes a rotation step, otherwise it creates the CA. A
step that changes the key patches the key Secret first and the cert Secret
second; nothing ties the two patches together.
-/

namespace ClusterCa

open Kube Crd Operator

inductive CaLeafTransition where
  | none
  | reissue
  | oldTrustPruned
  deriving DecidableEq, Repr

namespace CaLeafTransition

def requiresReissue (t : CaLeafTransition) : Bool := t = .reissue

def prunedOldTrust (t : CaLeafTransition) : Bool := t = .oldTrustPruned

end CaLeafTransition

structure CaReconcileOutcome where
  /-- Active signing certificate and active key, for leaf issuance. -/
  signingMaterial : CaMaterial
  /-- Full trust bundle, for the truststores and the config hash. -/
  trustBundlePem : Pem
  notAfter : String
  generated : Bool
  certGeneration : Nat
  keyGeneration : Nat
  phase : CaPhase
  trustAnchors : Nat
  leafTransition : CaLeafTransition
  rotationInProgress : Bool
  rotationReason : String
  rotationMessage : String
  refused : Option RefuseReason
  deriving DecidableEq, Repr

/-! ## Reading the Secret pair -/

def readOptionalGeneration (secret : Secret) (ann : String) : Option Nat :=
  secret.annotation? ann >>= Decimal.parseU64

/-- An absent or unreadable generation is `0`. -/
def readGeneration (secret : Secret) (ann : String) : Nat :=
  (readOptionalGeneration secret ann).getD 0

def readPhase (certSecret : Secret) : CaPhase :=
  match certSecret.annotation? annRotationPhase with
  | none => .idle
  | some v => CaPhase.parse v

/-- The state that `reconcileCa` builds from readable material, with the raw bundle. -/
def readCaState (k c : Secret) : Option (CaState × Pem) :=
  match k.readPemKey "ca.key", c.readPemKey "ca.crt" with
  | some keyPem, some bundlePem => some ({
      bundle := splitPemCerts bundlePem
      keyPem
      pendingKeyPem := k.readPemKey nextKey
      pendingCertPem := k.readPemKey nextCert
      certGeneration := readGeneration c annCertGeneration
      keyGeneration := readGeneration k annKeyGeneration
      leafsKeyGeneration := readOptionalGeneration c annLeafsKeyGeneration
      phase := readPhase c }, bundlePem)
  | _, _ => none

/-! ## Patching the Secret pair -/

def renderCaSecret (data : List (String × Pem)) (annotations : List (String × String)) :
    SecretConfig where
  annotations := BTreeMap.ofList (("krabka.io/strictly-operator-managed", "true") :: annotations)
  data := BTreeMap.ofList (data.map fun (k, v) => (k, ByteString.text v))

/-- Apply a CA Secret. Its owner reference needs the uid of the `Kafka`. -/
def patchSecret (kafka : Kafka) (name : String) (data : List (String × Pem))
    (annotations : List (String × String)) : Op Unit :=
  match kafka.uid with
  | none => .fail .missingUid
  | some _ => applySecret name (renderCaSecret data annotations)

def patchCertBundle (kafka : Kafka) (certName : String) (bundle : List Pem) (certGen : Nat)
    (phase : CaPhase) : Op Unit :=
  patchSecret kafka certName [("ca.crt", joinBundle bundle)]
    [(annCertGeneration, toString certGen), (annRotationPhase, phase.asStr)]

/-! ## Executing a plan -/

/-- Generations are `u64` counters. -/
def nextGeneration (g : Nat) : Nat := (g + 1) % 2 ^ 64

/-- The variables that the arms of a plan assign. -/
structure Rotated where
  bundle : List Pem
  keyPem : Pem
  certGen : Nat
  keyGen : Nat
  phase : CaPhase
  forceReissue : Bool
  rawOverride : Option Pem
  refused : Option RefuseReason
  deriving DecidableEq, Repr

/-- Defaults carried over from the current state. -/
def Rotated.ofState (state : CaState) (rawBundlePem : Pem) : Rotated where
  bundle := state.bundle
  keyPem := state.keyPem
  certGen := state.certGeneration
  keyGen := state.keyGeneration
  phase := state.phase
  forceReissue := false
  rawOverride := some rawBundlePem
  refused := none

variable (lib : CaLib)

/-- Sign the certificate again with the existing key. -/
def renewCertSameKey (kafka : Kafka) (which : WhichCa) (state : CaState) (inp : RotationInputs)
    (cur : Rotated) : Op Rotated := do
  let d ← draw
  let newCert ← orFail .ca
    (lib.renewCa which state.keyPem (kafka.name ++ which.cnSuffix) inp.validity d)
  let blocks := normalizeBlock newCert :: pruneExpired lib.certNotAfter state.bundle inp.now
  let bundle := dedupBlocks blocks
  let certGen := nextGeneration state.certGeneration
  patchCertBundle kafka (which.certName kafka.name) bundle certGen .idle
  pure { cur with bundle, certGen, phase := .idle, rawOverride := none }

/-- Stage a new key pair. The old certificate stays first, the new one is trust-only. -/
def startKeyReplace (kafka : Kafka) (which : WhichCa) (state : CaState) (inp : RotationInputs)
    (cur : Rotated) : Op Rotated := do
  let d ← draw
  let new ← orFail .ca (lib.generateCa which (kafka.name ++ which.cnSuffix) inp.validity d)
  let blocks := pruneExpired lib.certNotAfter state.bundle inp.now ++ [normalizeBlock new.certPem]
  let bundle := dedupBlocks blocks
  patchSecret kafka (which.keyName kafka.name)
    [("ca.key", state.keyPem), (nextKey, new.keyPem), (nextCert, new.certPem)]
    [(annKeyGeneration, toString state.keyGeneration)]
  patchCertBundle kafka (which.certName kafka.name) bundle state.certGeneration .keyReplaceTrust
  pure { cur with bundle, phase := .keyReplaceTrust, rawOverride := none }

/-- Make the staged key the signer. The staged copy stays until the prune, so that
    a failed patch of the cert Secret can be replayed. -/
def promoteNewKey (kafka : Kafka) (which : WhichCa) (state : CaState) (inp : RotationInputs)
    (cur : Rotated) : Op Rotated := do
  match state.pendingKeyPem with
  | none => .fail (.certParse "promote without staged key")
  | some newKey =>
    match state.pendingCertPem with
    | none => .fail (.certParse "promote without staged cert")
    | some pendingCert =>
      let newCert := normalizeBlock pendingCert
      let remaining := state.bundle.filter (· ≠ newCert)
      let bundle := pruneExpired lib.certNotAfter (dedupBlocks (newCert :: remaining)) inp.now
      let keyWasAlreadyPromoted := state.keyPem = newKey
      let certGen := nextGeneration state.certGeneration
      let keyGen :=
        if keyWasAlreadyPromoted then state.keyGeneration else nextGeneration state.keyGeneration
      patchSecret kafka (which.keyName kafka.name)
        [("ca.key", newKey), (nextKey, newKey), (nextCert, newCert)]
        [(annKeyGeneration, toString keyGen)]
      patchCertBundle kafka (which.certName kafka.name) bundle certGen .keyReplacePromote
      pure { cur with
        bundle, certGen, keyGen
        keyPem := newKey
        phase := .keyReplacePromote
        forceReissue := true
        rawOverride := none }

/-- Remove the superseded and the expired trust anchors. -/
def pruneOldTrust (kafka : Kafka) (which : WhichCa) (state : CaState) (inp : RotationInputs)
    (cur : Rotated) : Op Rotated := do
  let bundle ←
    if state.phase = .keyReplacePromote then do
      patchSecret kafka (which.keyName kafka.name) [("ca.key", state.keyPem)]
        [(annKeyGeneration, toString state.keyGeneration)]
      pure state.bundle.head?.toList
    else
      pure (pruneExpired lib.certNotAfter state.bundle inp.now)
  patchCertBundle kafka (which.certName kafka.name) bundle state.certGeneration .idle
  pure { cur with bundle, phase := .idle, rawOverride := none }

/-- The plan arms. -/
def executePlan (kafka : Kafka) (which : WhichCa) (state : CaState) (plan : CaRotationPlan)
    (inp : RotationInputs) (rawBundlePem : Pem) : Op Rotated :=
  let cur := Rotated.ofState state rawBundlePem
  match plan with
  | .noOp => pure cur
  | .refuse reason => pure { cur with refused := some reason }
  | .renewCertSameKey => renewCertSameKey lib kafka which state inp cur
  | .startKeyReplace => startKeyReplace lib kafka which state inp cur
  | .promoteNewKey => promoteNewKey lib kafka which state inp cur
  | .pruneOldTrust => pruneOldTrust lib kafka which state inp cur

/-- The `CaRotation` condition of an executed plan and the phase that follows it. -/
def rotationCondition (plan : CaRotationPlan) (phase : CaPhase) (refused : Option RefuseReason) :
    Bool × String × String :=
  match refused with
  | some .byo => (false, "ByoCaImmutable",
      "forced rotation ignored: BYO CA (generateCertificateAuthority=false)")
  | none =>
    match plan with
    | .renewCertSameKey => (true, "RenewingCert", "re-signing the CA cert (same key)")
    | .startKeyReplace => (true, "DistributingTrust",
        "new CA generated; rolling to distribute the trust bundle")
    | .promoteNewKey => (true, "PromotingKey",
        "promoting the new CA key and reissuing leaf certificates")
    | .noOp =>
      match phase with
      | .keyReplaceTrust => (true, "DistributingTrust",
          "waiting for the trust-bundle roll to converge")
      | .keyReplacePromote => (true, "PromotingKey",
          "waiting for the new-key roll and leaf reissue to converge")
      | .idle => (false, "Idle", "no rotation in progress")
    | .pruneOldTrust => (false, "Idle", "rotation complete; pruned old trust anchors")
    -- A refused plan always carries its reason.
    | .refuse _ => (false, "ByoCaImmutable", "")

/-- The `notAfter` of a certificate as text. -/
def readNotAfter (certPem : Pem) : Op String := do
  let notAfter ← orFail .certParse (lib.certNotAfter certPem)
  orFail .certParse (lib.formatRfc3339 notAfter)

/-- Execute a plan and build the outcome. Without a rotation the trust bundle is
    the raw stored text, so that the config hash stays the same. -/
def applyCaRotation (kafka : Kafka) (which : WhichCa) (state : CaState) (plan : CaRotationPlan)
    (inp : RotationInputs) (rawBundlePem : Pem) : Op CaReconcileOutcome := do
  let r ← executePlan lib kafka which state plan inp rawBundlePem
  let signingCertPem := r.bundle.head?.getD []
  let notAfter ← readNotAfter lib signingCertPem
  let (inProgress, reason, message) := rotationCondition plan r.phase r.refused
  let forceReissue := r.forceReissue ||
    (which = .clients && r.phase = .keyReplacePromote &&
      state.leafsKeyGeneration ≠ some r.keyGen)
  pure {
    signingMaterial := ⟨signingCertPem, r.keyPem⟩
    trustBundlePem := r.rawOverride.getD (joinBundle r.bundle)
    notAfter
    generated := inp.generate
    certGeneration := r.certGen
    keyGeneration := r.keyGen
    phase := r.phase
    trustAnchors := r.bundle.length
    leafTransition :=
      if forceReissue then .reissue
      else if plan = .pruneOldTrust then .oldTrustPruned
      else .none
    rotationInProgress := inProgress
    rotationReason := reason
    rotationMessage := message
    refused := r.refused }

/-! ## Entry point -/

/-- Create a fresh single-certificate CA. -/
def createCa (kafka : Kafka) (which : WhichCa) : Op CaReconcileOutcome := do
  let d ← draw
  let material ← orFail .ca
    (lib.generateCa which (kafka.name ++ which.cnSuffix) (which.spec kafka).validityDays d)
  patchSecret kafka (which.keyName kafka.name) [("ca.key", material.keyPem)]
    [(annKeyGeneration, "0")]
  patchSecret kafka (which.certName kafka.name) [("ca.crt", material.certPem)]
    [(annCertGeneration, "0")]
  let notAfter ← readNotAfter lib material.certPem
  pure {
    signingMaterial := material
    trustBundlePem := material.certPem
    notAfter
    generated := true
    certGeneration := 0
    keyGeneration := 0
    phase := .idle
    trustAnchors := 1
    leafTransition := .none
    rotationInProgress := false
    rotationReason := "Idle"
    rotationMessage := "no rotation in progress"
    refused := none }

/-- Inputs of the planner for one pass over one CA. -/
def rotationInputs (kafka : Kafka) (which : WhichCa)
    (forceRenew forceReplaceKey rolloutConverged : Bool) (now : Int) : RotationInputs where
  generate := (which.spec kafka).generateCertificateAuthority
  validity := (which.spec kafka).validityDays
  renewal := (which.spec kafka).renewalDays
  force := .ofFlags forceRenew forceReplaceKey
  rolloutConverged
  now
  which

/-- What `reconcileCa` does with the Secrets it has read. -/
def reconcileCaFrom (kafka : Kafka) (which : WhichCa) (inp : RotationInputs)
    (existingKey existingCert : Option Secret) : Op CaReconcileOutcome :=
  let existing : Option (CaState × Pem) :=
    match existingKey, existingCert with
    | some k, some c => readCaState k c
    | _, _ => none
  match existing with
  | some (state, bundlePem) =>
    applyCaRotation lib kafka which state (planCaRotation lib state inp) inp bundlePem
  | none =>
    if !inp.generate then .fail (.byoCaMissing which.conditionName) else createCa lib kafka which

/-- Reconcile one CA: create it, or reuse and rotate it. -/
def reconcileCa (kafka : Kafka) (which : WhichCa)
    (forceRenew forceReplaceKey rolloutConverged : Bool) (now : Int) : Op CaReconcileOutcome := do
  let existingKey ← getOpt (which.keyName kafka.name)
  let existingCert ← getOpt (which.certName kafka.name)
  let inp := rotationInputs kafka which forceRenew forceReplaceKey rolloutConverged now
  reconcileCaFrom lib kafka which inp existingKey existingCert

/-- Record that every operator-managed client certificate uses `generation`. -/
def markLeafsReissued (cluster : String) (generation : Nat) : Op Unit :=
  mergeSecret (WhichCa.clients.certName cluster)
    ⟨BTreeMap.ofList [(annLeafsKeyGeneration, toString generation)], ∅⟩

end ClusterCa
