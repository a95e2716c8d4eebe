-- SUMMARY: The KafkaUser resource: its authentication types and the metadata its controller reads.
import KrabkaOperator.Kube.Fields

/-!
# KafkaUser
-/

namespace Crd

structure ScramAuth where
  passwordLength : Option Nat
  iterations : Option Int
  deriving DecidableEq, Repr

structure TlsAuth where
  validityDays : Option Nat
  renewalDays : Option Nat
  deriving DecidableEq, Repr

/-- The two extents of time are in nanoseconds. -/
structure DelegationTokenAuth where
  renewers : List String
  maxLifetime : Option Int := none
  renewBeforeExpiry : Option Int := none
  deriving DecidableEq, Repr

inductive Authentication where
  | scramSha512 (auth : ScramAuth)
  | scramSha256 (auth : ScramAuth)
  | tls (auth : TlsAuth)
  | tlsExternal
  | delegationToken (auth : DelegationTokenAuth)
  deriving DecidableEq, Repr

structure KafkaUser where
  name : String
  uid : Option String
  labels : Kube.BTreeMap String
  /-- Whether a deletion timestamp is set. -/
  deleting : Bool
  authentication : Authentication

/-- The cluster that a user belongs to. -/
def KafkaUser.cluster? (u : KafkaUser) : Option String := u.labels["krabka.io/cluster"]?

end Crd
