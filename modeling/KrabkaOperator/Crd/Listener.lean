-- SUMMARY: The listeners of a Kafka: their type, their authentication and the overrides for each broker.
import KrabkaOperator.Kube.Network

/-!
# Listeners

A time or a size of the schema is kept as the text that the operator renders for
it.
-/

namespace Crd

inductive ListenerType where
  | internal
  | nodeport
  | loadbalancer
  | ingress
  | route
  deriving DecidableEq, Repr

structure BootstrapConfig where
  nodePort : Option Int := none
  loadBalancerIp : Option String := none
  host : Option String := none
  labels : Kube.BTreeMap String := ∅
  annotations : Kube.BTreeMap String := ∅
  deriving DecidableEq

structure BrokerOverride where
  broker : Int
  advertisedHost : Option String := none
  advertisedPort : Option Int := none
  nodePort : Option Int := none
  loadBalancerIp : Option String := none
  host : Option String := none
  deriving DecidableEq, Repr

structure ListenerConfiguration where
  bootstrap : Option BootstrapConfig := none
  brokers : List BrokerOverride := []
  deriving DecidableEq

/-- A key of a Secret that the user names. -/
structure SecretRef where
  secretName : String
  key : String
  deriving DecidableEq, Repr

structure ListenerAuthenticationOAuth where
  validIssuerUri : String
  jwksEndpointUri : Option String := none
  validAudience : Option String := none
  userNameClaim : Option String := none
  customClaimCheck : Option String := none
  jwksRefreshSeconds : Option Nat := none
  maxClockSkewSeconds : Option Nat := none
  enableOauthBearer : Bool := true
  tlsTrustedCertificates : List SecretRef := []
  accessTokenIsJwt : Bool := true
  introspectionEndpointUri : Option String := none
  userInfoEndpointUri : Option String := none
  clientId : Option String := none
  clientSecret : Option SecretRef := none
  introspectionHttpTimeoutSeconds : Option Nat := none
  maxSecondsWithoutReauthentication : Option Nat := none
  validTokenType : Option String := none
  fallbackUserNameClaim : Option String := none
  fallbackUserNamePrefix : Option String := none
  groupsClaim : Option String := none
  groupsClaimDelimiter : Option String := none
  jwksMinRefreshPauseSeconds : Option Nat := none
  jwksExpirySeconds : Option Nat := none
  jwksIgnoreKeyUse : Option Bool := none
  deriving DecidableEq, Repr

structure ListenerAuthenticationGssapi where
  keytabSecretRef : SecretRef
  serviceName : Option String := none
  principalToLocalRules : List String := []
  realm : Option String := none
  kdc : Option String := none
  maxTimeSkew : Option String := none
  deriving DecidableEq, Repr

inductive ListenerAuthentication where
  | tls
  | scramSha512
  | scramSha256
  | oauth (cfg : ListenerAuthenticationOAuth)
  | gssapi (cfg : ListenerAuthenticationGssapi)
  deriving DecidableEq, Repr

/-- The part of a Kubernetes peer that a listener may name. -/
structure NetworkPolicyPeer where
  podSelector : Option Kube.LabelSelector := none
  namespaceSelector : Option Kube.LabelSelector := none
  deriving DecidableEq

structure Listener where
  name : String
  port : Int
  type : ListenerType
  tls : Bool := false
  authentication : Option ListenerAuthentication := none
  configuration : Option ListenerConfiguration := none
  /-- Who may connect while a network policy is in place: anyone, when unset. -/
  networkPolicyPeers : Option (List NetworkPolicyPeer) := none
  deriving DecidableEq

end Crd
