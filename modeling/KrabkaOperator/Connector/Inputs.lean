-- SUMMARY: The inputs that a connector worker is rendered from, the hash over its credentials, and when two sets of credentials have one hash.
import KrabkaOperator.Admin.Client
import KrabkaOperator.Base.Checks
import KrabkaOperator.Base.Digest
import KrabkaOperator.NodePool.World
import KrabkaOperator.Operator.World

/-!
# The inputs of a connector

A pass reads the database Secret, the parent `Kafka`, the client Secret and the CA Secret.
The worker gets new credentials when it rolls, so the hash over the credentials is an
annotation of its pods.
-/

namespace Connector

open Crd NodePool Operator

/-- A Secret, by its data. -/
structure Secret where
  data : Option (Kube.BTreeMap (List UInt8))

/-- A `KafkaConnector`, as far as its inputs go. -/
structure KafkaConnector where
  name : String
  labels : Option (Kube.BTreeMap String)
  /-- `spec.databaseUrl`. -/
  databaseUrl : SecretKeyRef

structure KafkaStatus extends Admin.KafkaStatus where
  replicas : Option Int

/-- A `Kafka` with the status that a connector reads. -/
structure Parent where
  kafka : Kafka
  status : Option KafkaStatus

/-- The status of a connector that has to wait. -/
structure Unready where
  reason : String
  message : String
  failed : Bool
  deriving DecidableEq, Repr

structure Inputs where
  clusterName : String
  bootstrap : String
  brokerServerName : String
  replicationFactor : Int
  configHash : String
  deriving DecidableEq, Repr

inductive ResolvedInputs where
  | ready (inputs : Inputs)
  /-- With the status that was written. -/
  | requeue (unready : Unready)
  deriving DecidableEq, Repr

/-- What the calls of one pass return. -/
structure Answers where
  databaseSecret : Except KubeError (Option Secret)
  parent : Except KubeError (Option Parent)
  /-- The apply of the child `KafkaUser`. -/
  user : Except ReconcileError Unit
  clientSecret : Except KubeError (Option Secret)
  caSecret : Except KubeError (Option Secret)
  /-- The patch of the status. -/
  status : Except KubeError Unit

def brokerUserName (connectorName : String) : String := connectorName ++ "-broker"

def connectorReplicationFactor (brokerReplicas : Option Int) : Int :=
  max 1 (min (brokerReplicas.getD 1) 3)

/-- The bootstrap address and the server name of an internal mTLS listener. -/
def resolveBrokerEndpoint (parent : Parent) (ns : String) : Option (String × String) := do
  let status ← parent.status
  if status.conditions.any fun c => c.type = "Ready" ∧ c.status = "True" then
    let listener ← parent.kafka.spec.listeners.find? fun l =>
      l.type = .internal ∧ l.tls = true ∧ l.authentication = some .tls
    let candidate ← status.listeners.find? (·.name = listener.name)
    if candidate.bootstrapServers = "" then
      none
    else
      some (candidate.bootstrapServers,
        parent.kafka.name ++ "-broker-headless." ++ ns ++ ".svc.cluster.local")
  else
    none

def secretHasKeys (secret : Secret) (keys : List String) : Bool :=
  secret.data.any fun data => keys.all fun key => data[key]?.any (· ≠ [])

def secretValue (secret : Secret) (key : String) : List UInt8 :=
  (secret.data.bind (·[key]?)).getD []

/-- The value under a key, when it is not empty. -/
def nonEmptyValue (secret : Secret) (key : String) : Option (List UInt8) :=
  (secret.data.bind (·[key]?)).filter (· ≠ [])

/-- The digest over the parts, one behind the other. -/
def secretHash (digest : List UInt8 → String) (parts : List (List UInt8)) : String :=
  digest parts.flatten

def kube {α : Type} (answer : Except KubeError α) : Except ReconcileError α :=
  answer.mapError .kube

def patchUnready (a : Answers) (reason message : String) (failed : Bool) :
    Except ReconcileError ResolvedInputs :=
  (kube a.status).map fun _ => .requeue ⟨reason, message, failed⟩

def resolveInputs (digest : List UInt8 → String) (obj : KafkaConnector) (ns : String)
    (a : Answers) : Except ReconcileError ResolvedInputs :=
  match obj.labels.bind (·["krabka.io/cluster"]?) with
  | none =>
    patchUnready a "MissingClusterLabel" "metadata.labels[\"krabka.io/cluster\"] is required" true
  | some clusterName =>
    kube a.databaseSecret >>= fun
    | none =>
      patchUnready a "DatabaseSecretNotFound"
        ("Secret '" ++ obj.databaseUrl.name ++ "' not found") true
    | some databaseSecret =>
      match nonEmptyValue databaseSecret obj.databaseUrl.key with
      | none =>
        patchUnready a "DatabaseSecretInvalid"
          ("Secret '" ++ obj.databaseUrl.name ++ "' has no non-empty '" ++ obj.databaseUrl.key ++
            "' key") true
      | some databaseUrl =>
        kube a.parent >>= fun
        | none =>
          patchUnready a "ParentNotFound" ("Kafka '" ++ clusterName ++ "' not found") true
        | some parent =>
          match resolveBrokerEndpoint parent ns with
          | none =>
            patchUnready a "KafkaNotReady" ("referenced Kafka is not Ready or has no internal " ++
              "TLS listener with TLS authentication") false
          | some (bootstrap, brokerServerName) =>
            a.user >>= fun _ => kube a.clientSecret >>= fun
            | none =>
              patchUnready a "WaitingForBrokerCredentials"
                ("waiting for KafkaUser '" ++ brokerUserName obj.name ++ "' credentials") false
            | some clientSecret =>
              kube a.caSecret >>= fun
              | none =>
                patchUnready a "WaitingForBrokerCredentials"
                  "broker client or CA credentials are not ready" false
              | some caSecret =>
                if secretHasKeys clientSecret ["user.crt", "user.key"] &&
                    secretHasKeys caSecret ["ca.crt"] then
                  .ok (.ready {
                    clusterName, bootstrap, brokerServerName
                    replicationFactor := connectorReplicationFactor (parent.status.bind (·.replicas))
                    configHash := secretHash digest [databaseUrl, secretValue clientSecret "user.crt",
                      secretValue clientSecret "user.key", secretValue caSecret "ca.crt"] })
                else
                  patchUnready a "WaitingForBrokerCredentials"
                    "broker client or CA credentials are not ready" false

/-! ## Credentials -/

structure Credentials where
  databaseUrl : List UInt8
  userCert : List UInt8
  userKey : List UInt8
  caCert : List UInt8
  deriving DecidableEq, Repr

namespace Credentials

/-- One behind the other. -/
def bytes (c : Credentials) : List UInt8 := [c.databaseUrl, c.userCert, c.userKey, c.caCert].flatten

/-- Credentials cut out of one byte string, by the lengths of the first three. -/
def cut (bytes : List UInt8) (i j k : Nat) : Credentials where
  databaseUrl := bytes.take i
  userCert := (bytes.drop i).take j
  userKey := ((bytes.drop i).drop j).take k
  caCert := ((bytes.drop i).drop j).drop k

/-- Two different ways to cut one byte string: bytes move between neighbours. -/
def Recut (c c' : Credentials) : Prop :=
  c ≠ c' ∧ ∃ bytes i j k i' j' k', c = cut bytes i j k ∧ c' = cut bytes i' j' k'

theorem bytes_cut (bytes : List UInt8) (i j k : Nat) : (cut bytes i j k).bytes = bytes := by
  simp only [Credentials.bytes, cut, List.flatten_cons, List.flatten_nil, List.append_nil,
    List.take_append_drop]

theorem cut_bytes (c : Credentials) :
    cut c.bytes c.databaseUrl.length c.userCert.length c.userKey.length = c := by
  simp only [Credentials.bytes, cut, List.flatten_cons, List.flatten_nil, List.append_nil,
    List.take_left, List.drop_left]

variable {c c' : Credentials}

theorem recut_iff : c.Recut c' ↔ c ≠ c' ∧ c.bytes = c'.bytes := by
  constructor
  · rintro ⟨hne, bytes, i, j, k, i', j', k', rfl, rfl⟩
    exact ⟨hne, by rw [bytes_cut, bytes_cut]⟩
  · intro ⟨hne, hbytes⟩
    exact ⟨hne, c.bytes, _, _, _, _, _, _, (cut_bytes c).symm, hbytes ▸ (cut_bytes c').symm⟩

/-- Credentials that keep their lengths are no new cut. -/
theorem not_recut_of_lengths (hurl : c.databaseUrl.length = c'.databaseUrl.length)
    (hcert : c.userCert.length = c'.userCert.length)
    (hkey : c.userKey.length = c'.userKey.length) : ¬ c.Recut c' := by
  intro h
  obtain ⟨hne, hbytes⟩ := recut_iff.mp h
  apply hne
  rw [← cut_bytes c, ← cut_bytes c', hbytes, hurl, hcert, hkey]

/-- The change of one credential alone is no new cut. -/
theorem not_recut_of_one (c : Credentials) (part : List UInt8) :
    ¬ c.Recut { c with databaseUrl := part } ∧ ¬ c.Recut { c with userCert := part } ∧
      ¬ c.Recut { c with userKey := part } ∧ ¬ c.Recut { c with caCert := part } := by
  obtain ⟨url, cert, key, ca⟩ := c
  simp only [recut_iff, Credentials.bytes, List.flatten_cons, List.flatten_nil, List.append_nil,
    List.append_cancel_left_eq, List.append_cancel_right_eq]
  refine ⟨?_, ?_, ?_, ?_⟩ <;>
    · intro ⟨hne, hpart⟩
      exact hne (by rw [hpart])

end Credentials

/-- The credentials that a pass reads. -/
def Answers.credentials (a : Answers) (obj : KafkaConnector) : Credentials :=
  let value (answer : Except KubeError (Option Secret)) (key : String) : List UInt8 :=
    match answer with
    | .ok (some secret) => secretValue secret key
    | _ => []
  { databaseUrl := value a.databaseSecret obj.databaseUrl.key
    userCert := value a.clientSecret "user.crt"
    userKey := value a.clientSecret "user.key"
    caCert := value a.caSecret "ca.crt" }

theorem kube_eq_ok {α : Type} {answer : Except KubeError α} {x : α} (h : kube answer = .ok x) :
    answer = .ok x := by
  cases answer with
  | error e => cases h
  | ok y => exact congrArg Except.ok (Except.ok.inj h)

theorem patchUnready_ne_ready {a : Answers} {reason message : String} {failed : Bool}
    {inputs : Inputs} : patchUnready a reason message failed ≠ .ok (.ready inputs) := by
  unfold patchUnready
  cases kube a.status with
  | error e => exact fun h => nomatch h
  | ok _ => exact fun h => nomatch h

theorem nonEmptyValue_eq_some {secret : Secret} {key : String} {value : List UInt8}
    (h : nonEmptyValue secret key = some value) : secretValue secret key = value := by
  obtain ⟨hvalue, -⟩ := Option.filter_eq_some_iff.mp h
  rw [secretValue, hvalue, Option.getD_some]

/-- A pass that has its inputs hashes the credentials that it read. -/
theorem configHash_of_ready {digest : List UInt8 → String} {obj : KafkaConnector} {ns : String}
    {a : Answers} {inputs : Inputs} (h : resolveInputs digest obj ns a = .ok (.ready inputs)) :
    inputs.configHash = digest (a.credentials obj).bytes := by
  unfold resolveInputs at h
  split at h
  · exact absurd h patchUnready_ne_ready
  obtain ⟨databaseSecret?, hdatabase, h⟩ := Checks.bind_eq_ok.mp h
  split at h
  · exact absurd h patchUnready_ne_ready
  split at h
  · exact absurd h patchUnready_ne_ready
  next hurl =>
  obtain ⟨parent?, -, h⟩ := Checks.bind_eq_ok.mp h
  split at h
  · exact absurd h patchUnready_ne_ready
  split at h
  · exact absurd h patchUnready_ne_ready
  obtain ⟨-, -, h⟩ := Checks.bind_eq_ok.mp h
  obtain ⟨clientSecret?, hclient, h⟩ := Checks.bind_eq_ok.mp h
  split at h
  · exact absurd h patchUnready_ne_ready
  obtain ⟨caSecret?, hca, h⟩ := Checks.bind_eq_ok.mp h
  split at h
  · exact absurd h patchUnready_ne_ready
  split at h
  · cases h
    simp only [secretHash, Answers.credentials, Credentials.bytes, kube_eq_ok hdatabase,
      kube_eq_ok hclient, kube_eq_ok hca, nonEmptyValue_eq_some hurl]
  · exact absurd h patchUnready_ne_ready

/-! ## Rolls -/

/-- The hashes of two passes tell their credentials apart, unless the credentials are two
    different cuts of one byte string. -/
theorem configHash_tells_apart (digest : List UInt8 → String)
    (hdigest : Function.Injective digest) (obj obj' : KafkaConnector) (ns ns' : String)
    (a a' : Answers) (inputs inputs' : Inputs)
    (h : resolveInputs digest obj ns a = .ok (.ready inputs))
    (h' : resolveInputs digest obj' ns' a' = .ok (.ready inputs')) :
    ((a.credentials obj ≠ a'.credentials obj' → inputs.configHash ≠ inputs'.configHash) ∧
      (a.credentials obj = a'.credentials obj' → inputs.configHash = inputs'.configHash)) ↔
    ¬ (a.credentials obj).Recut (a'.credentials obj') := by
  rw [configHash_of_ready h, configHash_of_ready h', Credentials.recut_iff]
  constructor
  · intro ⟨hchanged, _⟩ ⟨hne, hbytes⟩
    exact hchanged hne (congrArg digest hbytes)
  · intro hcut
    exact ⟨fun hne heq => hcut ⟨hne, hdigest heq⟩, fun heq => by rw [heq]⟩

/-! ## Two rotations -/

namespace Sample

def ascii (s : String) : List UInt8 := s.toList.map (·.toNat.toUInt8)

def connector : KafkaConnector where
  name := "orders"
  labels := some (.ofList [("krabka.io/cluster", "c")])
  databaseUrl := ⟨"database", "url"⟩

/-- A ready `Kafka` with one internal mTLS listener. -/
def parent : Parent where
  kafka :=
    { Kafka.minimal "c" with
      spec := { listeners := [
        { name := "tls", port := 9094, type := .internal, tls := true
          authentication := some .tls }] } }
  status := some
    { conditions := [⟨"Ready", "True", "Ready", ""⟩]
      listeners := [⟨"tls", "c-kafka-bootstrap:9094"⟩]
      replicas := some 3 }

def secretOf (entries : List (String × String)) : Except KubeError (Option Secret) :=
  .ok (some ⟨some (.ofList (entries.map fun (key, value) => (key, ascii value)))⟩)

/-- The answers of a pass that finds these credentials. -/
def found (url cert key : String) : Answers where
  databaseSecret := secretOf [("url", url)]
  parent := .ok (some parent)
  user := .ok ()
  clientSecret := secretOf [("user.crt", cert), ("user.key", key)]
  caSecret := secretOf [("ca.crt", "CA")]
  status := .ok ()

def byteChar (b : UInt8) : Char := Char.ofNat b.toNat

/-- SHA-256 in hex for the two byte strings below. -/
def digest : List UInt8 → String :=
  Digest.known (List.map byteChar) (ascii "postgres://db\nCERTKEYCA") (ascii "postgres://db\nCERTKEXCA")
    "d9d399e6c38d90e3890cd86e36dc55b2eb84ca4084e59af139d3b6026d1dfd30"
    "24c4e523f13b2f66f21cc01e58b2c7b6a1739ae81ba535b0df151a054d22750c"

theorem byteChar_injective : Function.Injective byteChar := by
  have hcode : ∀ b : UInt8, (byteChar b).toNat = b.toNat := by
    intro b
    have hlt : b.toNat < 256 := b.toNat_lt
    have hvalid : b.toNat.isValidChar := .inl (by omega)
    rw [byteChar, Char.ofNat, dif_pos hvalid]
    rfl
  intro b b' h
  have htoNat := congrArg Char.toNat h
  rw [hcode, hcode] at htoNat
  exact UInt8.toNat_inj.mp htoNat

theorem digest_injective : Function.Injective digest :=
  Digest.known_injective byteChar_injective.list_map (by decide) (by decide) (by decide)

/-- The inputs that are rendered with a hash. -/
def inputs (configHash : String) : Inputs where
  clusterName := "c"
  bootstrap := "c-kafka-bootstrap:9094"
  brokerServerName := "c-broker-headless.ns.svc.cluster.local"
  replicationFactor := 3
  configHash

end Sample

section Rotations

open Sample

/-- A new client key rolls the connector. -/
theorem configHash_tells_apart_key :
    ((found "postgres://db" "\nCERT" "KEY").credentials connector ≠
        (found "postgres://db" "\nCERT" "KEX").credentials connector →
      (inputs "d9d399e6c38d90e3890cd86e36dc55b2eb84ca4084e59af139d3b6026d1dfd30").configHash ≠ (inputs "24c4e523f13b2f66f21cc01e58b2c7b6a1739ae81ba535b0df151a054d22750c").configHash) ∧
    ((found "postgres://db" "\nCERT" "KEY").credentials connector =
        (found "postgres://db" "\nCERT" "KEX").credentials connector →
      (inputs "d9d399e6c38d90e3890cd86e36dc55b2eb84ca4084e59af139d3b6026d1dfd30").configHash = (inputs "24c4e523f13b2f66f21cc01e58b2c7b6a1739ae81ba535b0df151a054d22750c").configHash) :=
  (configHash_tells_apart digest digest_injective connector connector "ns" "ns" _ _ _ _
    (by decide) (by decide)).mpr (Credentials.not_recut_of_lengths rfl rfl rfl)

/-- A line break moves from the client certificate to the database URL. -/
theorem configHash_tells_apart_fails :
    resolveInputs digest connector "ns" (found "postgres://db" "\nCERT" "KEY") =
      .ok (.ready (inputs "d9d399e6c38d90e3890cd86e36dc55b2eb84ca4084e59af139d3b6026d1dfd30")) ∧
    resolveInputs digest connector "ns" (found "postgres://db\n" "CERT" "KEY") =
      .ok (.ready (inputs "d9d399e6c38d90e3890cd86e36dc55b2eb84ca4084e59af139d3b6026d1dfd30")) ∧
    (found "postgres://db" "\nCERT" "KEY").credentials connector ≠
      (found "postgres://db\n" "CERT" "KEY").credentials connector := by
  refine ⟨by decide, by decide, by decide⟩

end Rotations

end Connector
