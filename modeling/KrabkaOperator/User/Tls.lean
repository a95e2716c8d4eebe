-- SUMMARY: TLS identities: the Secret of the operator's own certificate, the Secret of each TLS user, and the batch over all users of a cluster.
import KrabkaOperator.ClusterCa.Reconcile

/-!
# TLS users

A TLS user has a Secret under its own name, with its certificate, its key and the
trust bundle of the clients CA. The Secret is kept while its certificate verifies
against the signing certificate and is not about to expire.
-/

namespace User

open Kube Crd Operator ClusterCa

def defaultValidityDays : Nat := 365
def defaultRenewalDays : Nat := 30

/-- `@` is forbidden in object names, so no `KafkaUser` has this certificate subject. -/
def operatorIdentity : String := "krabka-operator@internal"

def operatorIdentityAnnotation : String := "krabka.io/internal-operator-identity"

def operatorSecretName (cluster : String) : String := cluster ++ "-operator-identity"

def isOperatorIdentitySecret (secret : Secret) : Bool :=
  secret.annotation? operatorIdentityAnnotation = some "true"

/-- Whether `notAfter` is within `renewalDays` of `now`. -/
def isCertExpiringSoon (notAfter : Int) (renewalDays : Nat) (now : Int) : Bool :=
  notAfter ≤ now + renewalDays * 86400

structure UserCertStatus where
  notAfter : String
  issuedNew : Bool
  deriving DecidableEq, Repr

variable (lib : CaLib)

def readUserCertNotAfter (secret : Secret) : Option Int :=
  secret.readPemKey "user.crt" >>= fun pem => (lib.certNotAfter pem).toOption

/-- Both certificates parse, and the key of the CA verifies the signature. -/
def certIsSignedBy (certPem caCertPem : Pem) : Bool :=
  match lib.certSigner certPem, lib.certKey caCertPem with
  | some signer, some key => signer = key
  | _, _ => false

def certMatchesPrivateKey (certPem keyPem : Pem) : Bool :=
  lib.certKey certPem = some (lib.publicKeyOf keyPem)

/-- The data of an identity Secret. -/
def identityData (cert : UserCert) (trustBundlePem : Pem) : BTreeMap ByteString :=
  BTreeMap.ofList [("user.crt", .text cert.certPem), ("user.key", .text cert.keyPem),
    ("ca.crt", .text trustBundlePem)]

/-- A kept Secret follows the trust bundle. -/
def refreshTrust (name : String) (existing : Secret) (notAfter : Int) (trustBundlePem : Pem) :
    Op UserCertStatus := do
  if existing.readPemKey "ca.crt" ≠ some trustBundlePem then
    mergeSecret name ⟨∅, BTreeMap.ofList [("ca.crt", .text trustBundlePem)]⟩
  let text ← orFail .certParse (lib.formatRfc3339 notAfter)
  pure ⟨text, false⟩

/-! ## The identity of the operator -/

/-- Whether the certificate of the operator stays: it verifies, has the subject of the
    operator and fits its key. -/
def operatorCertUsable (existing : Secret) (signing : CaMaterial) : Bool :=
  match existing.readPemKey "user.crt" with
  | none => false
  | some cert =>
    certIsSignedBy lib cert signing.certPem && lib.certCommonName cert = some operatorIdentity &&
      match existing.readPemKey "user.key" with
      | none => false
      | some key => certMatchesPrivateKey lib cert key

def issueOperatorCert (kafka : Kafka) (signing : CaMaterial) (trustBundlePem : Pem) :
    Op UserCertStatus := do
  let d ← draw
  let cert ← orFail .ca
    (lib.issueUserCert signing.certPem signing.keyPem operatorIdentity defaultValidityDays d)
  match kafka.uid with
  | none => .fail .missingUid
  | some _ =>
    applySecret (operatorSecretName kafka.name)
      ⟨BTreeMap.ofList [( operatorIdentityAnnotation, "true")], identityData cert trustBundlePem⟩
    pure ⟨cert.notAfter, true⟩

/-- Reconciles the mTLS identity of the operator against the cluster CA. -/
def ensureOperatorCertSecret (kafka : Kafka) (signing : CaMaterial) (trustBundlePem : Pem) :
    Op UserCertStatus := do
  let name := operatorSecretName kafka.name
  match ← getOpt name with
  | none => issueOperatorCert lib kafka signing trustBundlePem
  | some existing =>
    if !isOperatorIdentitySecret existing then
      .fail (.malformed ("Secret \"" ++ name ++ "\" already exists and is not an operator identity"))
    else
      match readUserCertNotAfter lib existing with
      | none => issueOperatorCert lib kafka signing trustBundlePem
      | some notAfter =>
        let now ← now
        if !isCertExpiringSoon notAfter defaultRenewalDays now &&
            operatorCertUsable lib existing signing then
          refreshTrust lib name existing notAfter trustBundlePem
        else
          issueOperatorCert lib kafka signing trustBundlePem

/-! ## Users -/

def issueUser (obj : KafkaUser) (ca : CaMaterial) (trustBundlePem : Pem) (auth : TlsAuth) :
    Op UserCertStatus := do
  let d ← draw
  let cert ← orFail .ca (lib.issueUserCert ca.certPem ca.keyPem obj.name
    (auth.validityDays.getD defaultValidityDays) d)
  match obj.uid with
  | none => .fail .missingUid
  | some _ =>
    applySecret obj.name ⟨∅, identityData cert trustBundlePem⟩
    pure ⟨cert.notAfter, true⟩

/-- Gets the cert Secret of one user, or creates it. -/
def ensureUserCertSecret (obj : KafkaUser) (ca : CaMaterial) (trustBundlePem : Pem)
    (auth : TlsAuth) : Op UserCertStatus := do
  match ← getOpt obj.name with
  | none => issueUser lib obj ca trustBundlePem auth
  | some existing =>
    match readUserCertNotAfter lib existing with
    | none => issueUser lib obj ca trustBundlePem auth
    | some notAfter =>
      let now ← now
      let signed := match existing.readPemKey "user.crt" with
        | none => false
        | some cert => certIsSignedBy lib cert ca.certPem
      if !isCertExpiringSoon notAfter (auth.renewalDays.getD defaultRenewalDays) now && signed then
        refreshTrust lib obj.name existing notAfter trustBundlePem
      else
        issueUser lib obj ca trustBundlePem auth

/-- The settings of a user that gets its certificate from the batch. -/
def liveTlsAuth? (user : KafkaUser) : Option TlsAuth :=
  if user.deleting then none
  else
    match user.authentication with
    | .tls auth => some auth
    | _ => none

/-- Reissues the certificate of each live TLS user against the active clients CA, and
    counts the new ones. -/
def reissueTlsUserCertSecrets (ca : CaMaterial) (trustBundlePem : Pem) :
    List KafkaUser → Op Nat
  | [] => pure 0
  | user :: users => do
    match liveTlsAuth? user with
    | none => reissueTlsUserCertSecrets ca trustBundlePem users
    | some auth =>
      let status ← ensureUserCertSecret lib user ca trustBundlePem auth
      let issued ← reissueTlsUserCertSecrets ca trustBundlePem users
      pure ((if status.issuedNew then 1 else 0) + issued)

/-- Loads the active clients CA without advancing its rotation, and reconciles the
    Secret of one user. -/
def reconcileUserCertSecret (obj : KafkaUser) (kafka : Kafka) (auth : TlsAuth) :
    Op UserCertStatus := do
  let now ← now
  let ca ← reconcileCa lib kafka .clients false false false now
  ensureUserCertSecret lib obj ca.signingMaterial ca.trustBundlePem auth

end User
