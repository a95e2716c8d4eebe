-- SUMMARY: The TOML text of one broker: header, listeners, server properties, storage tiers, authorization and the security blocks.
import KrabkaOperator.Base.Checks
import KrabkaOperator.Config.Hash
import KrabkaOperator.Crd.TieredStorage
import KrabkaOperator.Listeners.Advertised
import KrabkaOperator.User.Tls

/-!
# The config file of a broker

The text is put together from blocks in a fixed order. A `RenderError` is an error of
the caller or a panic: two of the blocks are written for validated specs only.
-/

namespace Listeners

open Crd Kube Operator Config

inductive RenderError where
  | panicked (message : String)
  | reconcile (e : ReconcileError)
  deriving DecidableEq, Repr

/-! ## Lines -/

/-- A key with a bare value. -/
def bareLine (key : String) (value : List Char) : List Char :=
  line (key.toList ++ " = ".toList ++ value)

/-- A key with a value between quotes. -/
def quotedLine (key : String) (value : List Char) : List Char :=
  bareLine key ('"' :: value ++ ['"'])

def textLine (key value : String) : List Char := quotedLine key value.toList

/-- `toml_escape`: a backslash before each backslash and each quote. -/
def tomlEscape (s : String) : List Char :=
  s.toList.flatMap fun c => if c = '\\' ∨ c = '"' then ['\\', c] else [c]

/-- `toml_string_array`: nothing is escaped. -/
def tomlStringArray (items : List String) : List Char :=
  '[' :: (", ".toList.intercalate (items.map fun s => '"' :: s.toList ++ ['"'])) ++ [']']

/-! ## Header -/

/-- The TLS settings of one broker. -/
structure BrokerTlsRender where
  controllerListenerProtocol : String
  certPath : String
  keyPath : String
  clientCaPath : String
  clientAuth : String
  trustRootsPath : String
  deriving DecidableEq, Repr

def renderBrokerHeader (id : Int) (interBrokerListenerName : String) (tls : Option BrokerTlsRender)
    (controllerQuorumVoters : List String) (controllerServerName : String) : List Char :=
  bareLine "broker_id" (intText id) ++
  textLine "log_dir" "/var/lib/krabka/data" ++
  textLine "heartbeat_interval" "500ms" ++
  textLine "heartbeat_timeout" "3s" ++
  textLine "replica_lag_time_max" "2s" ++
  textLine "controller_election_timeout" "500ms" ++
  textLine "controller_heartbeat_interval" "100ms" ++
  textLine "inter_broker_listener_name" interBrokerListenerName ++
  optText tls (fun tls => textLine "controller_listener_protocol" tls.controllerListenerProtocol) ++
  (if controllerQuorumVoters = [] then []
    else bareLine "controller_quorum_voters" (tomlStringArray controllerQuorumVoters)) ++
  (if controllerServerName = "" then []
    else textLine "controller_server_name" controllerServerName) ++
  ['\n']

/-! ## Listeners -/

inductive ListenerProtocol where
  | plaintext
  | ssl
  | saslPlaintext
  | saslSsl
  deriving DecidableEq, Repr

def ListenerProtocol.name : ListenerProtocol → String
  | .plaintext => "Plaintext"
  | .ssl => "Ssl"
  | .saslPlaintext => "SaslPlaintext"
  | .saslSsl => "SaslSsl"

def listenerProtocol (l : Listener) : Except RenderError ListenerProtocol :=
  match l.tls, l.authentication with
  | false, none => .ok .plaintext
  | true, none => .ok .ssl
  | true, some .tls => .ok .ssl
  | false, some .tls => .error (.panicked ("internal error: entered unreachable code: " ++
      "validation rejects mTLS without transport TLS; saw listener '" ++ l.name ++ "'"))
  | false, some _ => .ok .saslPlaintext
  | true, some _ => .ok .saslSsl

/-- The wire name of the SASL mechanism of an authentication. -/
def saslMechanism : ListenerAuthentication → Option String
  | .scramSha512 => some "SCRAM-SHA-512"
  | .scramSha256 => some "SCRAM-SHA-256"
  | .oauth cfg => if cfg.enableOauthBearer then some "OAUTHBEARER" else none
  | .gssapi _ => some "GSSAPI"
  | .tls => none

/-- Name, port and advertised address of a listener, empty without an address. -/
def listenerHead (l : Listener) (advertised : Option AdvertisedAddress) : List Char :=
  line "[[listeners]]".toList ++
  textLine "name" l.name ++
  quotedLine "bind_addr" ("0.0.0.0:".toList ++ intText l.port) ++
  quotedLine "advertised" (optText advertised fun a => a.host.toList ++ ':' :: intText a.port)

def listenerTls (id : Int) (l : Listener) (clientsCaPath operatorListenerName : Option String) :
    List Char :=
  let certPath := "/etc/krabka/broker-tls/".toList ++ intText id ++ ".crt".toList
  let keyPath := "/etc/krabka/broker-tls/".toList ++ intText id ++ ".key".toList
  let pair := "\x7b cert_path = \"".toList ++ certPath ++ "\", key_path = \"".toList ++ keyPath ++
    "\", ".toList
  if !l.tls then []
  else if l.authentication = some .tls then
    let clientCa :=
      if operatorListenerName = some l.name then "/etc/krabka/cluster-ca/ca.crt"
      else clientsCaPath.getD "/etc/krabka/clients-ca/ca.crt"
    bareLine "tls_config" (pair ++ "client_ca_path = \"".toList ++ clientCa.toList ++
      "\", client_auth = \"Required\" \x7d".toList)
  else
    bareLine "tls_config" (pair ++ "client_auth = \"Disabled\" \x7d".toList)

def listenerSasl (l : Listener) : List Char :=
  optText (l.authentication >>= saslMechanism) fun mechanism =>
    bareLine "sasl_config" ("\x7b enabled_mechanisms = [\"".toList ++ mechanism.toList ++
      "\"] \x7d".toList)

def renderListenerSection (id : Int) (addresses : BTreeMap AdvertisedAddress)
    (clientsCaPath operatorListenerName : Option String) (l : Listener) :
    Except RenderError (List Char) := do
  let protocol ← listenerProtocol l
  pure (listenerHead l addresses[l.name]? ++ textLine "protocol" protocol.name ++
    listenerTls id l clientsCaPath operatorListenerName ++ listenerSasl l ++ ['\n'])

def renderListenerSections (id : Int) (listeners : List Listener)
    (addresses : BTreeMap AdvertisedAddress) (clientsCaPath operatorListenerName : Option String) :
    Except RenderError (List Char) := do
  let sections ← listeners.mapM
    (renderListenerSection id addresses clientsCaPath operatorListenerName)
  pure sections.flatten

/-! ## Server properties and storage tiers -/

def renderServerProperties (properties : BTreeMap String) : List Char :=
  if properties.toList = [] then []
  else
    line "[server_properties]".toList ++
    (properties.toList.flatMap fun (k, v) =>
      line ('"' :: k.toList ++ "\" = \"".toList ++ v.toList ++ ['"'])) ++
    ['\n']

/-- `TIER_STORAGE_PATH`. -/
def tierStoragePath : String := "/var/lib/krabka/remote"

def renderS3 (s3 : S3StorageSpec) : List Char :=
  line "[remote_storage]".toList ++ line [] ++ line "[remote_storage.s3]".toList ++
  quotedLine "bucket" (tomlEscape s3.bucket) ++
  quotedLine "region" (tomlEscape s3.region) ++
  optText s3.keyPrefix (fun p => quotedLine "prefix" (tomlEscape p)) ++
  optText s3.endpoint (fun e => quotedLine "endpoint" (tomlEscape e)) ++
  (if s3.allowHttp then bareLine "allow_http" "true".toList else []) ++
  optText s3.multipartThreshold (fun n => bareLine "multipart_threshold" (intText n)) ++
  optText s3.multipartChunkSize (fun n => bareLine "multipart_chunk_size" (intText n)) ++
  ['\n']

def renderGcs (gcs : GcsStorageSpec) : List Char :=
  line "[remote_storage]".toList ++ line [] ++ line "[remote_storage.gcs]".toList ++
  quotedLine "bucket" (tomlEscape gcs.bucket) ++
  optText gcs.keyPrefix (fun p => quotedLine "prefix" (tomlEscape p)) ++
  optText gcs.endpoint (fun e => quotedLine "endpoint" (tomlEscape e)) ++
  (if gcs.allowHttp then bareLine "allow_http" "true".toList else []) ++
  (if gcs.credentials.isSome then
    textLine "service_account_path" "/etc/krabka/gcs-credentials/key.json" else []) ++
  optText gcs.multipartThreshold (fun n => bareLine "multipart_threshold" (intText n)) ++
  optText gcs.multipartChunkSize (fun n => bareLine "multipart_chunk_size" (intText n)) ++
  ['\n']

def renderTopicMetadata (t : TopicMetadataManagerSpec) : List Char :=
  quotedLine "bootstrap" (tomlEscape t.bootstrap) ++
  optText t.numPartitions (fun n => bareLine "num_partitions" (intText n)) ++
  optText t.replication (fun n => bareLine "replication" (intText n)) ++
  optText t.topicCreateTimeout (textLine "topic_create_timeout") ++
  optText t.fetchMaxWait (textLine "fetch_max_wait") ++
  optText t.fetchMaxBytes (textLine "fetch_max_bytes") ++
  optText t.fetchRetryBackoff (textLine "fetch_retry_backoff") ++
  optText t.eventQueueCapacity (fun n => bareLine "event_queue_capacity" (intText n)) ++
  optText t.snapshotInterval (textLine "snapshot_interval")

def renderBackend (tier : TieredStorage) : Except RenderError (List Char) :=
  match tier.kind with
  | .local => .ok (line "[remote_storage]".toList ++ textLine "storage_dir" tierStoragePath ++ ['\n'])
  | .s3 =>
    match tier.s3 with
    | some s3 => .ok (renderS3 s3)
    | none => .error (.panicked "TieredStorageType::S3 requires spec.tieredStorage.s3")
  | .gcs =>
    match tier.gcs with
    | some gcs => .ok (renderGcs gcs)
    | none => .error (.panicked "TieredStorageType::Gcs requires spec.tieredStorage.gcs")

def renderMetadataManager (manager : Option MetadataManagerSpec) : List Char :=
  line "[remote_storage.kafka_metadata]".toList ++
  (if manager.any (·.kind = .inMemory) then bareLine "in_memory" "true".toList
    else optText (manager >>= (·.topic)) renderTopicMetadata) ++
  ['\n']

def renderRemoteStorage (tieredStorage : Option TieredStorage) : Except RenderError (List Char) :=
  match tieredStorage with
  | none => .ok []
  | some tier => do
    let backend ← renderBackend tier
    pure (backend ++ renderMetadataManager tier.metadataManager)

/-! ## Authorization -/

structure AuthorizationOpaRender where
  url : String
  allowOnError : Option Bool
  maximumCacheSize : Option Nat
  expireAfterMs : Option Int
  deriving DecidableEq, Repr

structure AuthorizationRender where
  kind : String
  superUsers : List String
  opa : Option AuthorizationOpaRender
  deriving DecidableEq, Repr

/-- The principal of the operator. -/
def operatorPrincipal : String := "User:CN=" ++ User.operatorIdentity

def mergeOperatorPrincipals (base : List String) (includeAnonymous : Bool) : List String :=
  let users := if includeAnonymous ∧ "ANONYMOUS" ∉ base then base ++ ["ANONYMOUS"] else base
  if operatorPrincipal ∈ users then users else users ++ [operatorPrincipal]

def AuthorizationRender.fromSpec (a : Authorization) (includeAnonymous : Bool) :
    AuthorizationRender :=
  match a with
  | .simple superUsers => ⟨"simple", mergeOperatorPrincipals superUsers includeAnonymous, none⟩
  | .opa cfg => ⟨"opa", mergeOperatorPrincipals cfg.superUsers includeAnonymous,
      some ⟨cfg.url, cfg.allowOnError, cfg.maximumCacheSize, cfg.expireAfterMs⟩⟩

def AuthorizationRender.operatorSimple : AuthorizationRender :=
  ⟨"simple", ["ANONYMOUS", operatorPrincipal], none⟩

def renderOpa (opa : AuthorizationOpaRender) : List Char :=
  line "[authorization.opa]".toList ++
  textLine "url" opa.url ++
  optText opa.allowOnError (fun b => bareLine "allow_on_error" (boolText b)) ++
  optText opa.maximumCacheSize (fun n => bareLine "maximum_cache_size" (intText n)) ++
  optText opa.expireAfterMs (fun n => bareLine "expire_after_ms" (intText n)) ++
  ['\n']

def AuthorizationRender.text (r : AuthorizationRender) : List Char :=
  line "[authorization]".toList ++
  textLine "type" r.kind ++
  bareLine "super_users" (tomlStringArray r.superUsers) ++
  ['\n'] ++
  optText r.opa renderOpa

/-- The listener between brokers has no authentication while delegation tokens are on. -/
def anonymousInterBroker (delegationTokenEnabled : Bool) (listeners : List Listener)
    (interBrokerListenerName : String) : Bool :=
  delegationTokenEnabled &&
    (listeners.find? (·.name = interBrokerListenerName)).any (·.authentication.isNone)

def authorizationRender (authorization : Option Authorization) (delegationTokenEnabled : Bool)
    (anonymous : Bool) : Option AuthorizationRender :=
  match authorization, delegationTokenEnabled with
  | some a, _ => some (.fromSpec a anonymous)
  | none, true => some .operatorSimple
  | none, false => none

/-! ## OAuth and GSSAPI -/

/-- A literal text of several lines. -/
def literalLine (key value : String) : List Char :=
  bareLine key ("'''".toList ++ value.toList ++ "'''".toList)

def renderOauthMode (cfg : ListenerAuthenticationOAuth) : List Char :=
  if cfg.accessTokenIsJwt then optText cfg.jwksEndpointUri (textLine "jwks_endpoint_uri")
  else
    optText cfg.introspectionEndpointUri (textLine "introspection_endpoint_uri") ++
    optText cfg.userInfoEndpointUri (textLine "userinfo_endpoint_uri") ++
    optText cfg.clientId (textLine "introspection_client_id") ++
    textLine "introspection_client_secret_path" "/etc/krabka/oauth-introspection/client-secret" ++
    optText cfg.introspectionHttpTimeoutSeconds fun s =>
      bareLine "introspection_http_timeout_ms" (intText (s * 1000))

def renderOauth (cfg : ListenerAuthenticationOAuth) : List Char :=
  line "[oauthbearer]".toList ++
  renderOauthMode cfg ++
  textLine "valid_issuer_uri" cfg.validIssuerUri ++
  optText cfg.validAudience (textLine "expected_audience") ++
  optText cfg.userNameClaim (textLine "principal_claim_name") ++
  optText cfg.jwksRefreshSeconds (fun s =>
    bareLine "jwks_refresh_interval_ms" (intText (s * 1000))) ++
  optText cfg.maxClockSkewSeconds (fun s =>
    bareLine "allowable_clock_skew_ms" (intText (s * 1000))) ++
  (if cfg.tlsTrustedCertificates = [] then []
    else textLine "idp_tls_trust" "/etc/krabka/oauth-jwks-trust/ca.crt") ++
  optText cfg.maxSecondsWithoutReauthentication (fun s =>
    bareLine "max_session_lifetime_seconds" (intText s)) ++
  optText cfg.customClaimCheck (literalLine "custom_claim_check") ++
  optText cfg.validTokenType (textLine "valid_token_type") ++
  optText cfg.fallbackUserNameClaim (textLine "fallback_user_name_claim") ++
  optText cfg.fallbackUserNamePrefix (textLine "fallback_user_name_prefix") ++
  optText cfg.groupsClaim (literalLine "groups_claim") ++
  optText cfg.groupsClaimDelimiter (textLine "groups_claim_delimiter") ++
  optText cfg.jwksMinRefreshPauseSeconds (fun s =>
    bareLine "jwks_min_refresh_pause_seconds" (intText s)) ++
  optText cfg.jwksExpirySeconds (fun s => bareLine "jwks_expiry_seconds" (intText s)) ++
  optText cfg.jwksIgnoreKeyUse (fun b => bareLine "jwks_ignore_key_use" (boolText b)) ++
  ['\n']

/-- `GSSAPI_KEYTAB_PATH`. -/
def gssapiKeytabPath : String := "/etc/krabka/gssapi-keytab/keytab"

def renderGssapi (cfg : ListenerAuthenticationGssapi) : List Char :=
  line "[gssapi]".toList ++
  textLine "keytab_path" gssapiKeytabPath ++
  quotedLine "service_name" (tomlEscape (cfg.serviceName.getD "kafka")) ++
  bareLine "principal_to_local_rules" (tomlStringArray cfg.principalToLocalRules) ++
  optText cfg.realm (fun realm => quotedLine "realm" (tomlEscape realm)) ++
  optText cfg.kdc (fun kdc => quotedLine "kdc" (tomlEscape kdc)) ++
  optText cfg.maxTimeSkew (textLine "max_time_skew") ++
  ['\n']

def renderInterBrokerCredentials (kerberos : InterBrokerKerberos) : List Char :=
  line "[inter_broker_credentials]".toList ++
  textLine "type" "gssapi" ++
  textLine "keytab_path" gssapiKeytabPath ++
  quotedLine "client_principal" (tomlEscape kerberos.clientPrincipal) ++
  quotedLine "service_name" (tomlEscape (kerberos.serviceName.getD "kafka")) ++
  quotedLine "kdc_url" (tomlEscape kerberos.kdcUrl) ++
  ['\n']

def isGssapi (l : Listener) : Bool :=
  match l.authentication with
  | some (.gssapi _) => true
  | _ => false

def renderTlsConfig (tls : BrokerTlsRender) : List Char :=
  line "[tls_config]".toList ++
  textLine "cert_path" tls.certPath ++
  textLine "key_path" tls.keyPath ++
  textLine "trust_roots_path" tls.trustRootsPath ++
  textLine "client_ca_path" tls.clientCaPath ++
  textLine "client_auth" tls.clientAuth

/-! ## The file -/

/-- What the file of one broker is rendered from. -/
structure BrokerRender where
  brokerId : Int
  listeners : List Listener
  addresses : BTreeMap AdvertisedAddress
  interBrokerListenerName : String
  serverProperties : BTreeMap String
  tls : Option BrokerTlsRender
  clientsCaPath : Option String
  delegationTokenEnabled : Bool
  authorization : Option Authorization
  interBrokerKerberos : Option InterBrokerKerberos
  tieredStorage : Option TieredStorage
  controllerQuorumVoters : List String
  controllerServerName : String
  operatorListenerName : Option String

/-- The blocks after the storage tiers. -/
def renderSecurity (r : BrokerRender) : List Char :=
  optText (authorizationRender r.authorization r.delegationTokenEnabled
    (anonymousInterBroker r.delegationTokenEnabled r.listeners r.interBrokerListenerName))
    AuthorizationRender.text ++
  optText (oauthConfigs r.listeners).head? renderOauth ++
  optText (gssapiConfigs r.listeners).head? renderGssapi ++
  (if r.listeners.any fun l => l.name = r.interBrokerListenerName && isGssapi l then
    optText r.interBrokerKerberos renderInterBrokerCredentials else []) ++
  optText r.tls renderTlsConfig

def renderBrokerTomlWithOperator (r : BrokerRender) : Except RenderError (List Char) := do
  let sections ← renderListenerSections r.brokerId r.listeners r.addresses r.clientsCaPath
    r.operatorListenerName
  let storage ← renderRemoteStorage r.tieredStorage
  pure (renderBrokerHeader r.brokerId r.interBrokerListenerName r.tls r.controllerQuorumVoters
      r.controllerServerName ++
    sections ++ renderServerProperties r.serverProperties ++ storage ++ renderSecurity r)

/-! ## What a file contains -/

section Contains

open Checks

variable {l : Listener} {ls : List Listener} {id : Int} {addresses : BTreeMap AdvertisedAddress}
  {clientsCaPath operatorListenerName : Option String} {text : List Char}

/-- An accepted listener has a protocol. -/
theorem exists_listenerProtocol (h : ¬(l.authentication = some .tls ∧ (!l.tls) = true)) :
    ∃ protocol, listenerProtocol l = .ok protocol := by
  unfold listenerProtocol
  split
  · exact ⟨_, rfl⟩
  · exact ⟨_, rfl⟩
  · exact ⟨_, rfl⟩
  · next htls hauth => exact absurd ⟨hauth, by simp [htls]⟩ h
  · exact ⟨_, rfl⟩
  · exact ⟨_, rfl⟩

theorem listenerHead_begins
    (h : renderListenerSection id addresses clientsCaPath operatorListenerName l = .ok text) :
    listenerHead l addresses[l.name]? <+: text := by
  obtain ⟨protocol, -, h⟩ := bind_eq_ok.mp h
  cases h
  simp only [List.append_assoc]
  exact List.prefix_append _ _

/-- The sections of a list hold the one of each listener. -/
theorem listenerHead_infix_sections
    (h : renderListenerSections id ls addresses clientsCaPath operatorListenerName = .ok text)
    (hl : l ∈ ls) : listenerHead l addresses[l.name]? <:+: text := by
  obtain ⟨sections, hsections, h⟩ := bind_eq_ok.mp h
  cases h
  obtain ⟨part, hpart, hrender⟩ := exists_of_mapM_eq_ok hsections hl
  exact (listenerHead_begins hrender).isInfix.trans (List.infix_of_mem_flatten hpart)

theorem exists_renderListenerSections
    (h : ∀ l ∈ ls, ¬(l.authentication = some .tls ∧ (!l.tls) = true)) :
    ∃ text, renderListenerSections id ls addresses clientsCaPath operatorListenerName =
      .ok text := by
  have heach : ∀ l ∈ ls, ∃ text,
      renderListenerSection id addresses clientsCaPath operatorListenerName l = .ok text := by
    intro l hl
    obtain ⟨protocol, hprotocol⟩ := exists_listenerProtocol (h l hl)
    exact ⟨_, bind_eq_ok.mpr ⟨protocol, hprotocol, rfl⟩⟩
  obtain ⟨sections, hsections⟩ := exists_mapM_eq_ok heach
  exact ⟨_, bind_eq_ok.mpr ⟨sections, hsections, rfl⟩⟩

/-- A valid storage tier has the block of its backend. -/
theorem exists_renderRemoteStorage {tier? : Option TieredStorage}
    (h : ∀ tier, tier? = some tier → tier.validateBackend = .ok ()) :
    ∃ text, renderRemoteStorage tier? = .ok text := by
  cases tier? with
  | none => exact ⟨[], rfl⟩
  | some tier =>
    have hvalid := h tier rfl
    have hbackend : ∃ text, renderBackend tier = .ok text := by
      unfold TieredStorage.validateBackend at hvalid
      unfold renderBackend
      cases hkind : tier.kind with
      | «local» => exact ⟨_, rfl⟩
      | s3 =>
        cases hs3 : tier.s3 with
        | none => simp [hkind, hs3, guard_eq_ok] at hvalid
        | some s3 => exact ⟨_, rfl⟩
      | gcs =>
        cases hgcs : tier.gcs with
        | none => simp [hkind, hgcs, guard_eq_ok] at hvalid
        | some gcs => exact ⟨_, rfl⟩
    obtain ⟨backend, hbackend⟩ := hbackend
    exact ⟨_, bind_eq_ok.mpr ⟨backend, hbackend, rfl⟩⟩

variable {r : BrokerRender}

/-- A file begins with its header and holds the section of each listener. -/
theorem renderBrokerTomlWithOperator_eq_ok (h : renderBrokerTomlWithOperator r = .ok text) :
    renderBrokerHeader r.brokerId r.interBrokerListenerName r.tls r.controllerQuorumVoters
        r.controllerServerName <+: text ∧
      ∀ l ∈ r.listeners, listenerHead l r.addresses[l.name]? <:+: text := by
  obtain ⟨sections, hsections, h⟩ := bind_eq_ok.mp h
  obtain ⟨storage, -, h⟩ := bind_eq_ok.mp h
  obtain rfl := Except.ok.inj h
  simp only [List.append_assoc]
  refine ⟨List.prefix_append _ _, fun l hl => ?_⟩
  have hsection := listenerHead_infix_sections hsections hl
  exact (hsection.trans (List.prefix_append _ _).isInfix).trans (List.suffix_append _ _).isInfix

theorem exists_renderBrokerTomlWithOperator
    (hlisteners : ∀ l ∈ r.listeners, ¬(l.authentication = some .tls ∧ (!l.tls) = true))
    (htier : ∀ tier, r.tieredStorage = some tier → tier.validateBackend = .ok ()) :
    ∃ text, renderBrokerTomlWithOperator r = .ok text := by
  obtain ⟨sections, hsections⟩ := @exists_renderListenerSections _ r.brokerId r.addresses
    r.clientsCaPath r.operatorListenerName hlisteners
  obtain ⟨storage, hstorage⟩ := exists_renderRemoteStorage htier
  exact ⟨_, bind_eq_ok.mpr ⟨sections, hsections, bind_eq_ok.mpr ⟨storage, hstorage, rfl⟩⟩⟩

end Contains

end Listeners
