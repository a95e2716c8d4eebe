-- SUMMARY: The KafkaUser as its controller sees it, the patches of its status, and the requests of a pass to the API server and to the brokers.
import KrabkaOperator.Access.Spec
import KrabkaOperator.Operator.World

/-!
# Requests of a user pass

A pass reads the parent, patches the status, writes the Secret of the user through the
store, and calls the brokers. A patch of the status is a merge patch: it sets the fields
that it carries.
-/

namespace Access

open Kube Crd Operator Admin ClusterCa

def finalizer : String := "krabka.io/user-finalizer"

/-! ## The resource -/

structure KafkaUserStatus where
  conditions : List Condition := []
  observedGeneration : Option Int := none
  username : Option String := none
  secret : Option String := none
  scramSha512 : Bool := false
  scramSha256 : Bool := false
  quotasInSync : Bool := false
  tls : Bool := false
  external : Bool := false
  tlsCertNotAfter : Option String := none
  tlsPrincipal : Option String := none
  delegationTokenId : Option String := none
  delegationTokenExpiryTimestampMs : Option Int := none
  delegationTokenMaxTimestampMs : Option Int := none
  deriving DecidableEq, Repr

structure KafkaUser extends Crd.KafkaUser where
  generation : Option Int := none
  finalizers : List String := []
  authorization : Option Authorization := none
  quotas : Option KafkaUserQuotas := none
  status : Option KafkaUserStatus := none

def KafkaUser.hasFinalizer (obj : KafkaUser) : Bool := obj.finalizers.contains finalizer

/-- The provisioned credentials that a status patch reports. -/
structure CredentialStatus where
  scramSha512 : Bool := false
  scramSha256 : Bool := false
  tls : Bool := false
  external : Bool := false
  deriving DecidableEq, Repr

inductive StatusPatch where
  /-- The patch of `patch_status`. -/
  | full (conditions : List Condition) (observedGeneration : Option Int) (username : String)
      (secret : Option String) (credentials : CredentialStatus) (tlsCertNotAfter : Option String)
      (tlsPrincipal : Option String) (quotasInSync : Bool)
  /-- The patch of `patch_access_status`. -/
  | access (conditions : List Condition) (observedGeneration : Option Int) (quotasInSync : Bool)
  | identity (username tokenId : String) (expiryTimestampMs maxTimestampMs : Int)
      (conditions : Option (List Condition))
  | failure (conditions : List Condition)
  deriving DecidableEq, Repr

/-- The merge patch of a status, which may not be there yet. -/
def StatusPatch.apply (patch : StatusPatch) (status : Option KafkaUserStatus) : KafkaUserStatus :=
  let s := status.getD {}
  match patch with
  | .full conditions observedGeneration username secret credentials tlsCertNotAfter tlsPrincipal
      quotasInSync =>
    { s with
      conditions, observedGeneration, secret, tlsCertNotAfter, tlsPrincipal, quotasInSync
      username := some username
      scramSha512 := credentials.scramSha512
      scramSha256 := credentials.scramSha256
      tls := credentials.tls
      external := credentials.external }
  | .access conditions observedGeneration quotasInSync =>
    { s with conditions, observedGeneration, quotasInSync }
  | .identity username tokenId expiryTimestampMs maxTimestampMs conditions =>
    { s with
      conditions := conditions.getD s.conditions
      username := some username
      secret := some username
      delegationTokenId := some tokenId
      delegationTokenExpiryTimestampMs := some expiryTimestampMs
      delegationTokenMaxTimestampMs := some maxTimestampMs }
  | .failure conditions => { s with conditions }

/-! ## Calls of the brokers -/

structure KafkaPrincipal where
  principalType : String
  name : String
  deriving DecidableEq, Repr

/-- A delegation token as the brokers hand it out. -/
structure DelegationToken where
  tokenId : String
  owner : KafkaPrincipal
  hmac : ByteString
  expiryTimestampMs : Int
  maxTimestampMs : Int
  renewers : List KafkaPrincipal
  deriving DecidableEq, Repr

structure ScramUpsertion where
  username : String
  password : List Char
  iterations : Int
  deriving DecidableEq, Repr

inductive AdminReq where
  | connect (bootstrap : String)
  /-- `alter_user_scram_credentials_sha512` and `_sha256`. -/
  | alterScram (sha512 : Bool) (upsertions : List ScramUpsertion) (deletions : List String)
  | describeAcls (filter : AclEntryFilter)
  | createAcls (entries : List AclEntry)
  | deleteAcls (filters : List AclEntryFilter)
  | describeUserQuotas (username : String)
  | alterUserQuotas (username : String) (ops : List QuotaOp)
  | createDelegationToken (owner : KafkaPrincipal) (renewers : List KafkaPrincipal)
      (maxLifetime : Option Time)
  | renewDelegationToken (hmac : ByteString)
  | expireDelegationToken (hmac : ByteString)
  | describeDelegationToken (owner : KafkaPrincipal)

/-- A call on several items answers with one error, or none, for each. -/
@[reducible] def AdminResp : AdminReq → Type
  | .connect _ => Except AdminError Unit
  | .alterScram _ _ _ => Except AdminError (List (Option KafkaError))
  | .describeAcls _ => Except AdminError (List AclEntry)
  | .createAcls _ => Except AdminError (List (Option KafkaError))
  | .deleteAcls _ => Except AdminError (List (Option KafkaError))
  | .describeUserQuotas _ => Except AdminError QuotaMap
  | .alterUserQuotas _ _ => Except AdminError (Option KafkaError)
  | .createDelegationToken _ _ _ => Except AdminError DelegationToken
  | .renewDelegationToken _ => Except AdminError Int
  | .expireDelegationToken _ => Except AdminError Unit
  | .describeDelegationToken _ => Except AdminError (List DelegationToken)

inductive Req where
  | getKafka (name : String)
  | patchStatus (patch : StatusPatch)
  | setFinalizers (finalizers : List String)
  | store (r : Operator.Req)
  | admin (r : AdminReq)
  /-- The current time in milliseconds. -/
  | now

@[reducible] def Resp : Req → Type
  | .getKafka _ => Except KubeError (Option Parent)
  | .patchStatus _ => Except KubeError Unit
  | .setFinalizers _ => Except KubeError Unit
  | .store r => Operator.Resp r
  | .admin r => AdminResp r
  | .now => Int

abbrev Op (α : Type) := Prog Req Resp ReconcileError α

def kube {α : Type} : Except KubeError α → Op α
  | .ok x => pure x
  | .error e => .fail (.kube e)

def getKafka (name : String) : Op (Option Parent) := Prog.request (.getKafka name) >>= kube

def sendPatch (patch : StatusPatch) : Op Unit := Prog.request (.patchStatus patch) >>= kube

def setFinalizers (finalizers : List String) : Op Unit :=
  Prog.request (.setFinalizers finalizers) >>= kube

def admin (r : AdminReq) : Op (AdminResp r) := Prog.request ( Req.admin r)

def nowMs : Op Int := Prog.request Req.now

/-- A program over the store as a stage of a pass. -/
def onStore {α : Type} (p : Operator.Op α) : Op α := p.refined fun r => Prog.request ( Req.store r)

/-- What the controller uses from other packages. -/
structure Lib where
  ca : CaLib
  /-- An extent of time for a reader. -/
  human : Time → String
  /-- The standard base64 text of bytes. -/
  base64 : ByteString → List Char
  parsePrincipal : String → Except String KafkaPrincipal
  printPrincipal : KafkaPrincipal → String
  diffUserQuotas : (current desired : QuotaMap) → List QuotaOp
  defaultScramIterations : Int
  /-- An error for a reader. -/
  errorText : ReconcileError → String

/-! ## A small instance -/

namespace Sample

def base64Alphabet : List Char :=
  "ABCDEFGHIJKLMNOPQRSTUVWXYZabcdefghijklmnopqrstuvwxyz0123456789+/".toList

def base64Char (n : Nat) : Char := base64Alphabet.getD (n % 64) 'A'

/-- Three bytes are four characters; a shorter end is padded. -/
def base64 : List UInt8 → List Char
  | [] => []
  | [a] =>
    let n := a.toNat * 65536
    [base64Char (n / 262144), base64Char (n / 4096), '=', '=']
  | [a, b] =>
    let n := a.toNat * 65536 + b.toNat * 256
    [base64Char (n / 262144), base64Char (n / 4096), base64Char (n / 64), '=']
  | a :: b :: c :: rest =>
    let n := a.toNat * 65536 + b.toNat * 256 + c.toNat
    base64Char (n / 262144) :: base64Char (n / 4096) :: base64Char (n / 64) :: base64Char n ::
      base64 rest

def bytes : ByteString → List UInt8
  | .text s => s.map fun c => c.toNat.toUInt8
  | .binary bs => bs

/-- `Type:name`. -/
def parsePrincipal (s : String) : Except String KafkaPrincipal :=
  match s.toList.span (· ≠ ':') with
  | (type, _ :: name) => .ok ⟨String.ofList type, String.ofList name⟩
  | (_, []) => .error ("invalid principal: " ++ s)

def printPrincipal (p : KafkaPrincipal) : String := p.principalType ++ ":" ++ p.name

/-- Sets what differs, and removes what is not desired. -/
def diffUserQuotas (current desired : QuotaMap) : List QuotaOp :=
  (desired.toList.filter fun e => current[e.1]? ≠ some e.2).map (fun e => .set e.1 e.2) ++
    (current.keys.filter fun k => !desired.contains k).map .remove

def lib : Lib where
  ca := SampleLib.lib
  human := fun t => toString t ++ "ns"
  base64 := fun b => base64 (bytes b)
  parsePrincipal
  printPrincipal
  diffUserQuotas
  defaultScramIterations := 4096
  errorText := fun _ => "error"

example : base64 [77, 97] = "TWE=".toList := by decide

end Sample

end Access
