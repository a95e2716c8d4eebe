-- SUMMARY: The broker keystore: the SAN digest, when a stored leaf is reused, and the program that issues and prunes leafs.
import KrabkaOperator.ClusterCa.Reconcile
import Mathlib.Data.List.Destutter
import Mathlib.Data.List.Sort

/-!
# Broker keystore

One Secret holds the leaf certificate, its key and a digest of its names for each
node. `ensureBrokerKeystore` keeps a stored leaf that is not about to expire and
has the requested names, issues the others, and drops the entries of nodes that
are gone. It does not look at the issuer of a leaf that it keeps.
-/

namespace ClusterCa

open Kube Crd Operator

def brokerKeystoreName (cluster : String) : String := cluster ++ "-kafka-brokers"

/-- The keys under which the keystore holds the leaf of one node. -/
def crtKey (id : Int) : String := toString id ++ ".crt"
def keyKey (id : Int) : String := toString id ++ ".key"
def digestKey (id : Int) : String := toString id ++ ".sans-digest"

structure BrokerCertRequest where
  brokerId : Int
  cn : String
  sans : List SubjectAltName
  extraSans : List SubjectAltName
  deriving DecidableEq, Repr

structure BrokerKeystoreStatus where
  issued : List Int
  reused : List Int
  pruned : List Int
  /-- The served leaf certificates in the order of their keys. -/
  leafMaterial : List Char
  deriving DecidableEq, Repr

def sanLine : SubjectAltName → List Char
  | .dns name => "DNS:".toList ++ name.toList ++ ['\n']
  | .ip addr => "IP:".toList ++ addr.text ++ ['\n']

variable (lib : CaLib)

/-- Digest of the names in canonical form, sorted and without duplicates. -/
def computeSanDigest (baseSans extras : List SubjectAltName) : String :=
  let all := (baseSans ++ extras).insertionSort fun a b => lib.sanLe a b
  lib.sha256 ((all.destutter (· ≠ ·)).flatMap sanLine)

/-- Whether the stored entry of a node needs no new leaf at time `now`. The `notAfter`
    of a readable certificate must parse. -/
def leafReusable (renewal : Nat) (data : BTreeMap ByteString) (req : BrokerCertRequest) (now : Int) :
    Except String Bool := do
  let hasCert := data.contains (crtKey req.brokerId) && data.contains (keyKey req.brokerId)
  let storedDigest := data[digestKey req.brokerId]? >>= ByteString.utf8?
  let expiring ← match data[crtKey req.brokerId]? >>= ByteString.utf8? with
    | some pem => renewIfExpiring lib pem renewal now
    | none => pure true
  pure (hasCert && !expiring &&
    storedDigest = some (computeSanDigest lib req.sans req.extraSans).toList)

/-- The variables of the loop over the requests. -/
structure KeystoreDraft where
  data : BTreeMap ByteString
  issued : List Int
  reused : List Int

/-- Store a new leaf. -/
def KeystoreDraft.issue (draft : KeystoreDraft) (req : BrokerCertRequest) (leaf : CaMaterial) :
    KeystoreDraft where
  data := ((draft.data.insert (crtKey req.brokerId) (.text leaf.certPem)).insert
    (keyKey req.brokerId) (.text leaf.keyPem)).insert (digestKey req.brokerId)
      (.text (computeSanDigest lib req.sans req.extraSans).toList)
  issued := draft.issued ++ [req.brokerId]
  reused := draft.reused

/-- One turn of the loop. The clock is read for a readable certificate only. -/
def ensureLeaf (kafka : Kafka) (clusterCa : CaMaterial) (forceReissue : Bool)
    (draft : KeystoreDraft) (req : BrokerCertRequest) : Op KeystoreDraft := do
  let spec := WhichCa.spec .cluster kafka
  let now ←
    match draft.data[crtKey req.brokerId]? >>= ByteString.utf8? with
    | some _ => now
    | none => pure 0
  let reusable ← orFail .certParse (leafReusable lib spec.renewalDays draft.data req now)
  if reusable && !forceReissue then
    pure { draft with reused := draft.reused ++ [req.brokerId] }
  else
    let d ← draw
    let leaf ← orFail .ca (lib.issueBrokerCert clusterCa.certPem clusterCa.keyPem req.cn req.sans
      req.extraSans spec.validityDays d)
    pure (draft.issue lib req leaf)

def ensureLeafs (kafka : Kafka) (clusterCa : CaMaterial) (forceReissue : Bool) :
    KeystoreDraft → List BrokerCertRequest → Op KeystoreDraft
  | draft, [] => pure draft
  | draft, req :: reqs => do
    let draft ← ensureLeaf lib kafka clusterCa forceReissue draft req
    ensureLeafs kafka clusterCa forceReissue draft reqs

/-- The node id that a key of the keystore starts with. -/
def keyNodeId? (key : String) : Option Int :=
  if '.' ∈ key.toList then
    Decimal.parseI32 (String.ofList (key.toList.takeWhile (· ≠ '.')))
  else
    none

/-- The keys of the requested nodes. -/
def wantKeys (requests : List BrokerCertRequest) : List String :=
  requests.flatMap fun req => [crtKey req.brokerId, keyKey req.brokerId, digestKey req.brokerId]

/-- Whether an entry stays: it is wanted, or it does not belong to a node. -/
def retained (requests : List BrokerCertRequest) (key : String) : Bool :=
  (wantKeys requests).contains key || (keyNodeId? key).isNone

def leafMaterial (data : BTreeMap ByteString) : List Char :=
  (data.toList.filter fun (key, _) => ".crt".toList.isSuffixOf key.toList).flatMap
    fun (_, value) => '\x1E' :: value.lossy

def ensureBrokerKeystore (kafka : Kafka) (requests : List BrokerCertRequest)
    (clusterCa : CaMaterial) (forceReissue : Bool) : Op BrokerKeystoreStatus := do
  let name := brokerKeystoreName kafka.name
  let existing ← getOpt name
  let draft ← ensureLeafs lib kafka clusterCa forceReissue
    ⟨(existing.map fun s => s.data.values).getD ∅, [], []⟩ requests
  let pruned := (draft.data.keys.filter fun key => !retained requests key).filterMap keyNodeId?
  let data := draft.data.filter fun key _ => retained requests key
  match kafka.uid with
  | none => .fail .missingUid
  | some _ =>
    applySecret name ⟨∅, data⟩
    pure {
      issued := draft.issued
      reused := draft.reused
      pruned := (pruned.insertionSort (· ≤ ·)).destutter (· ≠ ·)
      leafMaterial := leafMaterial data }

end ClusterCa
