-- SUMMARY: The Secrets of a gateway and the step of its pass that keeps or issues the serving certificate.
import KrabkaOperator.ClusterCa.Reconcile

/-!
# The serving certificate of a gateway

A gateway serves TLS with a certificate that the cluster CA signs. Its Secret is kept
until the certificate is near its expiry.
-/

namespace Gateway

open Kube Crd Operator ClusterCa

def servingSecretName (gwName : String) : String := gwName ++ "-serving"

def configSecretName (gwName : String) : String := gwName ++ "-config"

def defaultValidityDays : Nat := 365

/-- A `KafkaGrpcGateway`, as far as its certificate goes. -/
structure KafkaGrpcGateway where
  name : String
  uid : Option String
  /-- `spec.tls.validityDays`. -/
  validityDays : Option Nat := none
  deriving DecidableEq, Repr

variable (lib : CaLib)

/-- Whether the stored certificate stays. One that does not parse is issued again. -/
def servingCertCurrent (existing : Option Secret) (now : Int) : Bool :=
  match existing >>= (·.readPemKey "tls.crt") with
  | none => false
  | some certPem =>
    match renewIfExpiring lib certPem 30 now with
    | .ok due => !due
    | .error _ => false

/-- A Secret of the CA, which has to be there. -/
def existingCaSecret (name : String) : Op Secret := do
  match ← getOpt name with
  | none => .fail (.caSecretMissing name)
  | some secret => pure secret

def readableKey (name key : String) (secret : Secret) : Op Pem :=
  match secret.readPemKey key with
  | none => .fail (.certParse (name ++ " " ++ key ++ " unreadable"))
  | some pem => pure pem

def servingSans (gw : KafkaGrpcGateway) (ns : String) : List SubjectAltName :=
  [.dns (gw.name ++ "." ++ ns ++ ".svc"), .dns (gw.name ++ "." ++ ns ++ ".svc.cluster.local"),
    .dns gw.name]

def servingData (leaf : CaMaterial) : BTreeMap ByteString :=
  BTreeMap.ofList [("tls.crt", .text leaf.certPem), ("tls.key", .text leaf.keyPem)]

/-- Issues the certificate with the stored cluster CA. -/
def issueServingCert (gw : KafkaGrpcGateway) (ns parentName : String) : Op Unit := do
  let keyName := WhichCa.cluster.keyName parentName
  let certName := WhichCa.cluster.certName parentName
  let keySecret ← existingCaSecret keyName
  let certSecret ← existingCaSecret certName
  let caKeyPem ← readableKey keyName "ca.key" keySecret
  let caCertPem ← readableKey certName "ca.crt" certSecret
  let d ← draw
  let leaf ← orFail .ca (lib.issueBrokerCert caCertPem caKeyPem gw.name (servingSans gw ns) []
    (gw.validityDays.getD defaultValidityDays) d)
  match gw.uid with
  | none => .fail .missingUid
  | some _ => applySecret (servingSecretName gw.name) ⟨∅, servingData leaf⟩

/-- Makes sure that the Secret holds a current certificate. -/
def ensureServingCert (gw : KafkaGrpcGateway) (ns parentName : String) : Op Unit := do
  let now ← now
  let existing ← getOpt (servingSecretName gw.name)
  if servingCertCurrent lib existing now then
    pure ()
  else
    issueServingCert lib gw ns parentName

end Gateway
