-- SUMMARY: Validation of the listeners of a Kafka: every check in order, with the text of its error, and the effective listeners.
import KrabkaOperator.Base.Text
import KrabkaOperator.Crd.Kafka

/-!
# Listener validation

Validation stops at the first error. The parser of GSSAPI name rules is outside
of the operator and a parameter here.
-/

namespace Listeners

open Crd

inductive ValidationError where
  | duplicateListenerName (name : String)
  | duplicateListenerPort (port : Int)
  | listenerMtlsRequiresTransportTls (listener : String)
  | listenerOauthRequiresTransportTls (listener : String)
  | listenerOauthAccessTokenIsJwtInvalid (message : String)
  | listenerOauthValidTokenTypeRejectedInIntrospectionMode (message : String)
  | listenerOauthJwksFieldsRejectedInIntrospectionMode (message : String)
  | listenerOauthIssuerUriEmpty (listener : String)
  | listenerOauthJwksUriBadScheme (listener : String)
  | listenerOauthJwksRefreshTooSmall (listener : String) (got : Nat)
  | listenerGssapiKeytabSecretMissing (listener : String)
  | listenerGssapiInvalidRule (message : String)
  | listenerIngressRequiresTls (listener : String)
  | listenerIngressBootstrapHostMissing (listener : String)
  | duplicateBrokerOverride (listener : String) (broker : Int)
  | conflictingOAuthListenerConfig
  | conflictingGssapiListenerConfig
  | noInternalListener
  | interBrokerListenerMissing (name : String)
  | interBrokerListenerNotInternal (name : String)
  | interBrokerGssapiRequiresKerberosConfig (name : String)
  | operatorPrincipalMayBeForged (listener : String)
  deriving DecidableEq, Repr

/-! ## Checks of one listener -/

/-- Each listener against the ones before it. -/
def validateUniqueListeners : List Listener → List Listener → Except ValidationError Unit
  | _, [] => .ok ()
  | priors, l :: ls => do
    priors.forM fun prior => do
      if prior.name = l.name then throw (.duplicateListenerName l.name)
      if prior.port = l.port then throw (.duplicateListenerPort l.port)
    validateUniqueListeners (priors ++ [l]) ls

def jwtInvalid (name message : String) : ValidationError :=
  .listenerOauthAccessTokenIsJwtInvalid ("listener '" ++ name ++ "': " ++ message)

/-- The fields that belong to the mode of the access token. -/
def validateOauthMode (name : String) (cfg : ListenerAuthenticationOAuth) :
    Except ValidationError Unit := do
  if cfg.accessTokenIsJwt then
    if cfg.jwksEndpointUri.isNone then
      throw (jwtInvalid name "accessTokenIsJwt=true requires jwksEndpointUri")
    if cfg.introspectionEndpointUri.isSome ∨ cfg.userInfoEndpointUri.isSome ∨ cfg.clientId.isSome ∨
        cfg.clientSecret.isSome ∨ cfg.introspectionHttpTimeoutSeconds.isSome then
      throw (jwtInvalid name ("accessTokenIsJwt=true forbids introspection-mode fields " ++
        "(introspectionEndpointUri/userInfoEndpointUri/clientId/clientSecret/introspectionHttpTimeoutSeconds)"))
  else
    if cfg.jwksEndpointUri.isSome then
      throw (jwtInvalid name "accessTokenIsJwt=false forbids jwksEndpointUri")
    if cfg.introspectionEndpointUri.isNone then
      throw (jwtInvalid name "accessTokenIsJwt=false requires introspectionEndpointUri")
    if cfg.clientId.isNone then
      throw (jwtInvalid name "accessTokenIsJwt=false requires clientId")
    if cfg.clientSecret.isNone then
      throw (jwtInvalid name "accessTokenIsJwt=false requires clientSecret")
    if cfg.validTokenType.isSome then
      throw (.listenerOauthValidTokenTypeRejectedInIntrospectionMode ("listener '" ++ name ++
        "': accessTokenIsJwt=false forbids validTokenType (no JWT header in introspection responses)"))
    let jwksFieldsSet :=
      (if cfg.jwksMinRefreshPauseSeconds.isSome then ["jwksMinRefreshPauseSeconds"] else []) ++
      (if cfg.jwksExpirySeconds.isSome then ["jwksExpirySeconds"] else []) ++
      (if cfg.jwksIgnoreKeyUse.isSome then ["jwksIgnoreKeyUse"] else [])
    if jwksFieldsSet ≠ [] then
      throw (.listenerOauthJwksFieldsRejectedInIntrospectionMode ("listener '" ++ name ++
        "': accessTokenIsJwt=false forbids JWKS-only fields (" ++
        ", ".intercalate jwksFieldsSet ++ ")"))

def hasHttpScheme (uri : String) : Bool :=
  "http://".toList.isPrefixOf uri.toList || "https://".toList.isPrefixOf uri.toList

def validateOauthListener (l : Listener) (cfg : ListenerAuthenticationOAuth) :
    Except ValidationError Unit := do
  if !l.tls then throw (.listenerOauthRequiresTransportTls l.name)
  validateOauthMode l.name cfg
  if cfg.validIssuerUri = "" then throw (.listenerOauthIssuerUriEmpty l.name)
  match cfg.jwksEndpointUri with
  | some uri => if !hasHttpScheme uri then throw (.listenerOauthJwksUriBadScheme l.name)
  | none => pure ()
  match cfg.jwksRefreshSeconds with
  | some s => if s < 30 then throw (.listenerOauthJwksRefreshTooSmall l.name s)
  | none => pure ()

variable (ruleParses : String → Bool)

def validateGssapiListener (l : Listener) (cfg : ListenerAuthenticationGssapi) :
    Except ValidationError Unit := do
  if cfg.keytabSecretRef.secretName = "" ∨ cfg.keytabSecretRef.key = "" then
    throw (.listenerGssapiKeytabSecretMissing l.name)
  match cfg.principalToLocalRules.find? fun rule => !ruleParses rule with
  | some rule => throw (.listenerGssapiInvalidRule ("listener '" ++ l.name ++
      "': invalid principalToLocalRules entry " ++ rule.quote))
  | none => pure ()

/-- The first broker that two overrides name. -/
def duplicateOverride? : List Int → List BrokerOverride → Option Int
  | _, [] => none
  | seen, o :: os => if o.broker ∈ seen then some o.broker else duplicateOverride? (o.broker :: seen) os

def validateListener (l : Listener) : Except ValidationError Unit := do
  if l.authentication = some .tls ∧ !l.tls then throw (.listenerMtlsRequiresTransportTls l.name)
  match l.authentication with
  | some (.oauth cfg) => validateOauthListener l cfg
  | some (.gssapi cfg) => validateGssapiListener ruleParses l cfg
  | _ => pure ()
  if l.type = .ingress ∨ l.type = .route then
    if !l.tls then throw (.listenerIngressRequiresTls l.name)
    if (l.configuration >>= (·.bootstrap) >>= (·.host)).isNone then
      throw (.listenerIngressBootstrapHostMissing l.name)
  match l.configuration >>= fun cfg => duplicateOverride? [] cfg.brokers with
  | some broker => throw (.duplicateBrokerOverride l.name broker)
  | none => pure ()

/-! ## Checks across listeners -/

/-- The OAuth configurations of the listeners. -/
def oauthConfigs (listeners : List Listener) : List ListenerAuthenticationOAuth :=
  listeners.filterMap fun l =>
    match l.authentication with
    | some (.oauth cfg) => some cfg
    | _ => none

def gssapiConfigs (listeners : List Listener) : List ListenerAuthenticationGssapi :=
  listeners.filterMap fun l =>
    match l.authentication with
    | some (.gssapi cfg) => some cfg
    | _ => none

/-- Two listeners may differ in this field only. -/
def oauthCanonical (cfg : ListenerAuthenticationOAuth) : ListenerAuthenticationOAuth :=
  { cfg with enableOauthBearer := true }

/-- All entries are equal to the first one. -/
def allSame {α : Type} [DecidableEq α] : List α → Bool
  | [] => true
  | a :: as => as.all (· = a)

def validateInterBroker (listeners : List Listener) (interBrokerListenerName : Option String) :
    Except ValidationError Unit := do
  if listeners ≠ [] then
    if !listeners.any (·.type = .internal) then throw .noInternalListener
    match interBrokerListenerName with
    | none => pure ()
    | some name =>
      match listeners.find? (·.name = name) with
      | none => throw (.interBrokerListenerMissing name)
      | some l => if l.type ≠ .internal then throw (.interBrokerListenerNotInternal name)

/-- Validates `spec.listeners` and `spec.interBrokerListenerName`. -/
def validateListeners (listeners : List Listener) (interBrokerListenerName : Option String) :
    Except ValidationError Unit := do
  validateUniqueListeners [] listeners
  listeners.forM (validateListener ruleParses)
  if !allSame ((oauthConfigs listeners).map oauthCanonical) then
    throw .conflictingOAuthListenerConfig
  if !allSame (gssapiConfigs listeners) then throw .conflictingGssapiListenerConfig
  validateInterBroker listeners interBrokerListenerName

/-- An inter-broker listener with GSSAPI needs `spec.interBrokerKerberos`. -/
def validateInterBrokerGssapi (listeners : List Listener) (interBrokerListenerName : String)
    (ibKerberosPresent : Bool) : Except ValidationError Unit :=
  let ibIsGssapi := listeners.any fun l => l.name = interBrokerListenerName &&
    match l.authentication with
    | some (.gssapi _) => true
    | _ => false
  if ibIsGssapi && !ibKerberosPresent then
    .error (.interBrokerGssapiRequiresKerberosConfig interBrokerListenerName)
  else
    .ok ()

/-- No outside authenticator may assert the name of the operator. -/
def validateOperatorPrincipalIsolation (listeners : List Listener) (authorizationEnabled : Bool) :
    Except ValidationError Unit :=
  if !authorizationEnabled then .ok ()
  else
    match listeners.find? fun l =>
      match l.authentication with
      | some (.oauth _) | some (.gssapi _) => true
      | _ => false with
    | some l => .error (.operatorPrincipalMayBeForged l.name)
    | none => .ok ()

/-! ## Effective listeners -/

def synthesizedDefaultListener : Listener where
  name := "PLAIN"
  port := 9092
  type := .internal

/-- The listeners of the spec, or the default one. -/
def userListeners (spec : KafkaSpec) : List Listener :=
  if spec.listeners = [] then [synthesizedDefaultListener] else spec.listeners

def effectiveInterBrokerListenerName (listeners : List Listener) (explicit : Option String) :
    String :=
  match explicit with
  | some name => name
  | none =>
    match listeners.find? (·.type = .internal) with
    | some l => l.name
    | none => "PLAIN"

def operatorListenerName : String := "OPERATOR"
def operatorListenerPort : Int := 9091
def controllerPort : Int := 9093
def brokerPort : Int := 9092

/-- Append `_` until the name is free. -/
def freeName (taken : List String) : Nat → String → String
  | 0, name => name
  | fuel + 1, name => if name ∈ taken then freeName taken fuel (name ++ "_") else name

/-- Count up until the port is free. -/
def freePort (taken : List Int) : Nat → Int → Int
  | 0, port => port
  | fuel + 1, port => if port ∈ taken then freePort taken fuel (port + 1) else port

/-- The reserved listener of the operator. Each turn of a search passes one taken name or
    port, so there are no more turns than these. -/
def operatorListener (existing : List Listener) : Listener where
  name := freeName (existing.map (·.name)) existing.length operatorListenerName
  port := freePort (controllerPort :: brokerPort :: existing.map (·.port)) (existing.length + 2)
    operatorListenerPort
  type := .internal
  tls := true
  authentication := some .tls

/-- The listeners that a broker serves. -/
def effectiveListeners (spec : KafkaSpec) : List Listener :=
  userListeners spec ++ [operatorListener (userListeners spec)]

/-- The checks that a pass makes on the listeners of a spec. -/
def validateSpecListeners (spec : KafkaSpec) : Except ValidationError Unit := do
  validateListeners ruleParses (userListeners spec) spec.interBrokerListenerName
  validateOperatorPrincipalIsolation (userListeners spec)
    (spec.authorization.isSome || spec.delegationToken.isSome)

/-- One warning for each listener that exposes secrets on the network. -/
def weakAuthWarnings (listeners : List Listener) : List String :=
  (listeners.filter fun l => !l.tls &&
    (l.authentication = some .scramSha512 || l.authentication = some .scramSha256)).map (fun l =>
      "listener '" ++ l.name ++ "' has SCRAM auth without transport TLS; credentials traverse " ++
      "the network in cleartext during the SCRAM exchange. Consider tls: true.") ++
  listeners.filterMap fun l =>
    match l.authentication with
    | some (.oauth cfg) =>
      if cfg.jwksEndpointUri.any fun uri => "http://".toList.isPrefixOf uri.toList then
        some ("listener '" ++ l.name ++ "' has http:// JWKS endpoint; key material traverses " ++
          "the network in cleartext. Consider https.")
      else
        none
    | _ => none

end Listeners
