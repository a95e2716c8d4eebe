-- SUMMARY: One reconcile pass over a KafkaUser: reserved names, readiness of the cluster, and the credential Secret of each authentication type.
import KrabkaOperator.User.Tls

/-!
# KafkaUser passes

A pass provisions the credential Secret of a user under the name of the user. Its
dealings with the brokers (finalizers, SCRAM records, tokens, ACLs and quotas)
touch no stored object of this development; they may fail like any other call.
-/

namespace User

open Kube Crd Operator ClusterCa

/-- The names that no user may have. -/
def validateReservedIdentity (name cluster : String) : Except String Unit :=
  if name = "krabka-operator" ∨ name = operatorIdentity ∨ name = cluster ++ "-operator-admin" ∨
      name = operatorSecretName cluster ∨ "-operator-identity".toList.isSuffixOf name.toList then
    .error ("KafkaUser name \"" ++ name ++ "\" is reserved for the operator")
  else
    .ok ()

/-- A delegation token as the broker hands it out. -/
structure DelegationToken where
  tokenId : List Char
  hmac : ByteString
  hmacBase64 : List Char
  deriving DecidableEq, Repr

/-- What a pass over a user gets from outside of the store. -/
structure UserPass where
  user : KafkaUser
  /-- The `Kafka` of the user, when it exists. -/
  kafka : Option Kafka
  /-- Whether the spec of the user is valid. -/
  specValid : Bool := true
  /-- Whether the cluster has an address for the operator. -/
  bootstrapReady : Bool := true
  /-- Whether the user already has its finalizer. -/
  hasFinalizer : Bool := true
  /-- The token that the broker issues or renews in this pass. -/
  token : Option DelegationToken := none

variable (lib : CaLib)

def readPassword (secret : Secret) : Option (List Char) := secret.readPemKey "password"

def jaasText (name : String) (password : List Char) : List Char :=
  "org.apache.kafka.common.security.scram.ScramLoginModule required username=\"".toList ++
    name.toList ++ "\" password=\"".toList ++ password ++ "\";".toList

/-- Gets the password Secret, or creates it. -/
def ensurePasswordSecret (obj : KafkaUser) (lenBytes : Nat) : Op (List Char) := do
  let existing ← getOpt obj.name
  match existing >>= readPassword with
  | some password => pure password
  | none =>
    let d ← draw
    let password := lib.randomPassword lenBytes d
    match obj.uid with
    | none => .fail .missingUid
    | some _ =>
      applySecret obj.name ⟨∅, BTreeMap.ofList [("password", .text password),
        ("sasl.jaas.config", .text (jaasText obj.name password))]⟩
      pure password

def tokenData (token : DelegationToken) : BTreeMap ByteString :=
  BTreeMap.ofList [("token-id", .text token.tokenId), ("hmac", token.hmac),
    ("password", .text token.hmacBase64),
    ("sasl.jaas.config", .text
      ("org.apache.kafka.common.security.scram.ScramLoginModule required username=\"".toList ++
        token.tokenId ++ "\" password=\"".toList ++ token.hmacBase64 ++
        "\" tokenauth=\"true\";".toList))]

/-- Writes the Secret of the token that the broker hands out. -/
def ensureTokenSecret (obj : KafkaUser) (token : Option DelegationToken) : Op Unit := do
  effect .brokerAdmin
  match token with
  | none => pure ()
  | some token =>
    match obj.uid with
    | none => .fail .missingUid
    | some _ => applySecret obj.name ⟨∅, tokenData token⟩

/-- Provision the credentials. `false` ends the pass: an error in an arm is logged and
    the pass is requeued. -/
def provision (pass : UserPass) (kafka : Kafka) : Op Bool := do
  let obj := pass.user
  match obj.authentication with
  | .scramSha512 auth | .scramSha256 auth =>
    match ← (ensurePasswordSecret lib obj (auth.passwordLength.getD 32)).attempt with
    | .error _ => pure false
    | .ok _ =>
      match ← (effect .brokerAdmin).attempt with
      | .error _ => pure false
      | .ok _ => pure true
  | .tls auth =>
    match ← (reconcileUserCertSecret lib obj kafka auth).attempt with
    | .error _ => pure false
    | .ok _ => pure true
  | .tlsExternal => pure true
  | .delegationToken _ => do
    ensureTokenSecret obj pass.token
    pure true

/-- One pass over a `KafkaUser`. -/
def reconcileInner (pass : UserPass) : Op Unit := do
  match pass.user.cluster? with
  | none => effect .patchUserStatus
  | some cluster =>
    match if pass.user.deleting then .ok () else validateReservedIdentity pass.user.name cluster with
    | .error _ => effect .patchUserStatus
    | .ok _ =>
      if !pass.specValid then
        effect .patchUserStatus
      else
        match pass.kafka with
        | none => effect .patchUserStatus
        | some kafka =>
          if !pass.bootstrapReady then
            effect .patchUserStatus
          -- A deleted user is cleaned up, and a new one gets its finalizer first.
          else if pass.user.deleting || !pass.hasFinalizer then
            effect .userLifecycle
          else do
            let ready ← provision lib pass kafka
            if ready then effect .brokerAdmin else pure ()

end User
