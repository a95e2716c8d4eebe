-- SUMMARY: What a KafkaUser asks of the brokers: its authorization and quotas, their validation, its principal, and the diff of its ACLs.
import KrabkaOperator.Admin.Client
import KrabkaOperator.Crd.User
import Mathlib.Data.Rat.Defs

/-!
# The access of a user

The spec of a `KafkaUser` has a way to authenticate, rules of authorization and quotas.
The brokers keep rules and quotas under a principal that depends on the authentication.
-/

namespace Access

open Kube Crd Admin

/-! ## Authorization -/

inductive AclResourceKind where
  | topic
  | group
  | cluster
  | transactionalId
  deriving DecidableEq, Repr

inductive AclPatternType where
  | literal
  | prefixed
  deriving DecidableEq, Repr

inductive AclOp where
  | all
  | read
  | write
  | create
  | delete
  | alter
  | describe
  | clusterAction
  | describeConfigs
  | alterConfigs
  | idempotentWrite
  deriving DecidableEq, Repr

inductive AclPermission where
  | allow
  | deny
  deriving DecidableEq, Repr

structure AclResource where
  kind : AclResourceKind
  name : String
  patternType : AclPatternType := .literal
  deriving DecidableEq, Repr

structure AclRule where
  resource : AclResource
  operations : List AclOp
  host : String := "*"
  permission : AclPermission := .allow
  deriving DecidableEq, Repr

/-- `simple` authorization, the only kind. -/
structure Authorization where
  acls : List AclRule
  deriving DecidableEq, Repr

/-- A member of an enumeration of the brokers: one that a spec can name, or another one. -/
inductive BrokerEnum (α : Type) where
  | named (a : α)
  | other (code : Int)
  deriving DecidableEq, Repr

abbrev ResourceType := BrokerEnum AclResourceKind
abbrev PatternType := BrokerEnum AclPatternType
abbrev AclOperation := BrokerEnum AclOp
abbrev PermissionType := BrokerEnum AclPermission

def resourceKindToAdmin : AclResourceKind → ResourceType := .named
def patternToAdmin : AclPatternType → PatternType := .named
def opToAdmin : AclOp → AclOperation := .named
def permissionToAdmin : AclPermission → PermissionType := .named

/-- One entry as the brokers store it. -/
@[ext] structure AclEntry where
  resourceType : ResourceType
  resourceName : String
  patternType : PatternType
  principal : String
  host : String
  operation : AclOperation
  permissionType : PermissionType
  deriving DecidableEq, Repr

/-- A field that is absent matches everything. -/
structure AclEntryFilter where
  resourceType : Option ResourceType := none
  resourceName : Option String := none
  patternType : Option PatternType := none
  principal : Option String := none
  host : Option String := none
  operation : Option AclOperation := none
  permissionType : Option PermissionType := none
  deriving DecidableEq, Repr

/-- A filter that matches exactly one entry. -/
def entryToExactFilter (e : AclEntry) : AclEntryFilter where
  resourceType := some e.resourceType
  resourceName := some e.resourceName
  patternType := some e.patternType
  principal := some e.principal
  host := some e.host
  operation := some e.operation
  permissionType := some e.permissionType

/-- The rules of the spec, one entry for each operation of a rule. -/
def expandSpecAcls (auth : Option Authorization) (principal : String) : List AclEntry :=
  match auth with
  | none => []
  | some simple => simple.acls.flatMap fun rule => rule.operations.map fun op => {
      resourceType := resourceKindToAdmin rule.resource.kind
      resourceName := rule.resource.name
      patternType := patternToAdmin rule.resource.patternType
      principal
      host := rule.host
      operation := opToAdmin op
      permissionType := permissionToAdmin rule.permission }

/-- Additions and deletions that lead from `current` to `desired`, as sets. -/
def diffAcls (current desired : List AclEntry) : List AclEntry × List AclEntry :=
  (desired.dedup.filter (· ∉ current), current.dedup.filter (· ∉ desired))

/-! ## Quotas -/

abbrev QuotaMap := BTreeMap Rat

structure KafkaUserQuotas where
  producerByteRate : Option Int := none
  consumerByteRate : Option Int := none
  requestPercentage : Option Int := none
  controllerMutationRate : Option Rat := none
  deriving DecidableEq, Repr

/-- The quotas under the names of the brokers. -/
def KafkaUserQuotas.toQuotaMap (q : KafkaUserQuotas) : QuotaMap :=
  BTreeMap.ofList <|
    (q.producerByteRate.map fun v => ("producer_byte_rate", (v : Rat))).toList ++
    (q.consumerByteRate.map fun v => ("consumer_byte_rate", (v : Rat))).toList ++
    (q.requestPercentage.map fun v => ("request_percentage", (v : Rat))).toList ++
    (q.controllerMutationRate.map fun v => ("controller_mutation_rate", v)).toList

inductive QuotaOp where
  | set (key : String) (value : Rat)
  | remove (key : String)
  deriving DecidableEq, Repr

/-! ## Validation -/

def millis (n : Int) : Time := n * 1000000

def minutes (n : Int) : Time := secs (60 * n)

def hours (n : Int) : Time := minutes (60 * n)

/-- `human` prints an extent of time. -/
def validateDelegationTokenTime (human : Time → String) (path : String) (value minimum : Time) :
    Except String Unit :=
  if value ≥ minimum ∧ millis (value / 1000000) = value then
    .ok ()
  else
    .error (path ++ " must be finite, at least " ++ human minimum ++
      ", and a whole number of milliseconds")

def validateOptionalTime (human : Time → String) (path : String) (minimum : Time) :
    Option Time → Except String Unit
  | none => .ok ()
  | some value => validateDelegationTokenTime human path value minimum

/-- The rules from index `i` on. -/
def validateAcls (i : Nat) : List AclRule → Except String Unit
  | [] => .ok ()
  | rule :: rules =>
    if rule.operations = [] then
      .error ("acls[" ++ toString i ++ "].operations is empty")
    else if rule.resource.name = "" then
      .error ("acls[" ++ toString i ++ "].resource.name is empty")
    else
      validateAcls (i + 1) rules

def validateTokenTimes (human : Time → String) : Authentication → Except String Unit
  | .delegationToken auth => do
    validateOptionalTime human "spec.authentication.maxLifetime" (millis 1) auth.maxLifetime
    validateOptionalTime human "spec.authentication.renewBeforeExpiry" (minutes 1)
      auth.renewBeforeExpiry
  | _ => .ok ()

def validateSpec (human : Time → String) (authentication : Authentication)
    (authorization : Option Authorization) : Except String Unit := do
  validateTokenTimes human authentication
  match authorization with
  | none => .ok ()
  | some simple => validateAcls 0 simple.acls

/-! ## Principals -/

/-- The principal of the brokers for a user: the subject of its certificate, or its name. -/
def principalFor (name : String) : Authentication → String
  | .tls _ => "User:CN=" ++ name
  | _ => "User:" ++ name

/-- The name under which the brokers keep quotas: the principal without its `User:`. -/
def quotaUsername (principal : String) : String :=
  (principal.toList.dropPrefix? "User:".toList).elim principal String.ofList

@[simp] theorem quotaUsername_append (name : String) : quotaUsername ("User:" ++ name) = name := by
  simp [quotaUsername, List.dropPrefix?]

end Access
