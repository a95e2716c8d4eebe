-- SUMMARY: The webhooks and the outbound subscriptions of a gateway, the Secrets they refer to, and the files in which each one finds its secret.
import KrabkaOperator.Admin.Client
import KrabkaOperator.Base.Checks
import KrabkaOperator.Base.Text
import KrabkaOperator.NodePool.World

/-!
# The webhooks of a gateway

The Secrets of the webhooks and of the subscriptions are read into two maps by name. The
files take them from there by name again.
-/

namespace Gateway

open Admin NodePool Operator

/-! ## The spec -/

structure InboundWebhookSpec where
  name : String
  targetTopic : String
  principal : Option String := none
  signatureMode : Option String := none
  forwardHeaders : Option (List String) := none
  signatureHeader : Option String := none
  signatureEncoding : Option String := none
  signaturePrefix : Option String := none
  timestampHeader : Option String := none
  timestampTolerance : Option Time := none
  idempotencySource : Option String := none
  keySource : Option String := none
  /-- In bytes. -/
  maxBody : Option Nat := none
  schemaSubject : Option String := none
  schemaFormat : Option String := none
  secretRef : Option SecretKeyRef := none
  deriving DecidableEq, Repr

structure OutboundSubscriptionSpec where
  name : String
  sourceTopics : List String := []
  targetUrl : String
  deadLetterTopic : Option String := none
  maxAttempts : Option Nat := none
  baseBackoff : Option Time := none
  maxBackoff : Option Time := none
  requestTimeout : Option Time := none
  groupId : Option String := none
  decodeToJson : Option Bool := none
  filter : Option String := none
  headers : Kube.BTreeMap String := ∅
  signingSecretRef : Option SecretKeyRef := none

structure AllowedTarget where
  scheme : String
  host : String
  deriving DecidableEq, Repr

/-- The spec of a gateway, as far as its two files go. -/
structure KafkaGrpcGatewaySpec where
  webhooks : List InboundWebhookSpec := []
  outboundSubscriptions : List OutboundSubscriptionSpec := []
  allowedTargets : List AllowedTarget := []

structure ParsedUrl where
  scheme : String
  host : Option String
  deriving DecidableEq, Repr

/-- What the controller uses from other packages. -/
structure Lib where
  /-- An extent of time and a size for a reader. -/
  human : Time → String
  humanBytes : Nat → String
  millisU64 : Time → Nat
  secsI64 : Time → Int
  printable : Char → Bool
  parseJsonPath : String → Except String Unit
  /-- A header name, in lower case. -/
  headerName : String → Except String String
  parseUrl : String → Except String ParsedUrl
  /-- The error of a rule for a value. -/
  ruleError : (rule : String) → (value : String) → String

/-! ## Validation -/

section Validation

variable (lib : Lib)

def nonEmpty (path value : String) : Except String Unit :=
  if value = "" then .error (path ++ ": " ++ lib.ruleError "NonEmptyString" value) else .ok ()

/-- A number that is `least` or more, when there is one. -/
def atLeast (rule : String) (least : Int) (path : String) (value : Option Int) :
    Except String Unit :=
  match value with
  | none => .ok ()
  | some n =>
    if n < least then .error (path ++ ": " ++ lib.ruleError rule (toString n)) else .ok ()

/-- A text from the list, when there is one. -/
def oneOf (allowed : List String) (message : String) (value : Option String) :
    Except String Unit :=
  if value.all (· ∈ allowed) then .ok () else .error message

def dropPrefix (front : String) (value : String) : Option String :=
  if front.toList.isPrefixOf value.toList then
    some (String.ofList (value.toList.drop front.toList.length))
  else
    none

def validateWebhookSource (path value : String) : Except String Unit :=
  if (dropPrefix "header:" value).isSome then .ok ()
  else
    match dropPrefix "json:" value with
    | none => .error (path ++ ": must start with 'header:' or 'json:'")
    | some jsonPath =>
      (lib.parseJsonPath jsonPath).mapError fun error =>
        path ++ ": invalid JSONPath " ++ Text.debug lib.printable jsonPath.toList ++ ": " ++ error

/-- The fields that Standard Webhooks sets itself. -/
def standardFields (w : InboundWebhookSpec) : List (String × Bool) :=
  [("signatureHeader", w.signatureHeader.isSome), ("signatureEncoding", w.signatureEncoding.isSome),
    ("signaturePrefix", w.signaturePrefix.isSome), ("timestampHeader", w.timestampHeader.isSome)]

def validateForwardHeader (w : InboundWebhookSpec) (name : String) : Except String Unit :=
  match lib.headerName name with
  | .error error => .error ("spec.webhooks.forwardHeaders: " ++ error)
  | .ok header =>
    if header ∈ ["authorization", "cookie", "x-gitlab-token", "webhook-signature"] ∨
        w.signatureHeader.any (fun signature =>
          signature.map Char.toLower = header.map Char.toLower) then
      .error ("spec.webhooks.forwardHeaders must not contain " ++ name)
    else .ok ()

def validateWebhookAuth (w : InboundWebhookSpec) : Except String Unit := do
  match w.signatureMode with
  | some mode =>
    if mode ≠ "standard_webhooks" then
      throw "spec.webhooks.signatureMode must be standard_webhooks"
    if w.secretRef.isNone then
      throw "spec.webhooks.secretRef is required for Standard Webhooks"
    (standardFields w).forM fun (field, isPresent) =>
      if isPresent then
        throw ("spec.webhooks." ++ field ++ " must be absent for Standard Webhooks")
      else pure ()
    if w.idempotencySource.any (· ≠ "header:webhook-id") then
      throw
        "spec.webhooks.idempotencySource must be header:webhook-id for Standard Webhooks"
  | none =>
    if w.secretRef.isSome ≠ w.signatureHeader.isSome then
      throw "spec.webhooks.secretRef and signatureHeader must be set together"
  (w.forwardHeaders.getD []).forM (validateForwardHeader lib w)

def validateWebhook (w : InboundWebhookSpec) : Except String Unit := do
  nonEmpty lib "spec.webhooks.name" w.name
  nonEmpty lib "spec.webhooks.targetTopic" w.targetTopic
  oneOf ["hex", "base64"] "spec.webhooks.signatureEncoding must be hex or base64"
    w.signatureEncoding
  validateWebhookAuth lib w
  w.idempotencySource.toList.forM (validateWebhookSource lib "spec.webhooks.idempotencySource")
  w.keySource.toList.forM (validateWebhookSource lib "spec.webhooks.keySource")
  atLeast lib "GreaterEqualI64<0>" 0 "spec.webhooks.timestampTolerance"
    (w.timestampTolerance.map lib.secsI64)
  atLeast lib "GreaterU64<0>" 1 "spec.webhooks.maxBody" (w.maxBody.map Int.ofNat)
  w.schemaSubject.toList.forM (nonEmpty lib "spec.webhooks.schemaSubject")
  oneOf ["avro", "json", "protobuf"] "spec.webhooks.schemaFormat must be avro, json, or protobuf"
    w.schemaFormat

def defaultBaseBackoff : Time := 500000000

def defaultMaxBackoff : Time := secs 30

def validateTargetUrl (targetUrl : String) : Except String Unit :=
  match lib.parseUrl targetUrl with
  | .error error => .error ("spec.outboundSubscriptions.targetUrl: invalid URL: " ++ error)
  | .ok url =>
    if url.host.isNone then .error "spec.outboundSubscriptions.targetUrl: URL has no host"
    else .ok ()

def validateFilter (filter : String) : Except String Unit :=
  match dropPrefix "json:" filter with
  | none => .error "spec.outboundSubscriptions.filter must start with 'json:'"
  | some jsonPath =>
    (lib.parseJsonPath jsonPath).mapError fun error =>
      "spec.outboundSubscriptions.filter: invalid JSONPath: " ++ error

def validateSubscription (s : OutboundSubscriptionSpec) : Except String Unit := do
  nonEmpty lib "spec.outboundSubscriptions.name" s.name
  nonEmpty lib "spec.outboundSubscriptions.targetUrl" s.targetUrl
  validateTargetUrl lib s.targetUrl
  s.sourceTopics.forM (nonEmpty lib "spec.outboundSubscriptions.sourceTopics")
  atLeast lib "GreaterU32<0>" 1 "spec.outboundSubscriptions.maxAttempts"
    (s.maxAttempts.map Int.ofNat)
  let millis (t : Option Time) : Option Int := t.map fun t => Int.ofNat (lib.millisU64 t)
  atLeast lib "GreaterU64<0>" 1 "spec.outboundSubscriptions.baseBackoff" (millis s.baseBackoff)
  atLeast lib "GreaterU64<0>" 1 "spec.outboundSubscriptions.maxBackoff" (millis s.maxBackoff)
  atLeast lib "GreaterU64<0>" 1 "spec.outboundSubscriptions.requestTimeout"
    (millis s.requestTimeout)
  s.groupId.toList.forM (nonEmpty lib "spec.outboundSubscriptions.groupId")
  if s.maxBackoff.getD defaultMaxBackoff < s.baseBackoff.getD defaultBaseBackoff then
    throw "spec.outboundSubscriptions.maxBackoff must be at least baseBackoff"
  s.filter.toList.forM (validateFilter lib)

def validateAllowedTarget (t : AllowedTarget) : Except String Unit := do
  oneOf ["http", "https"] "spec.allowedTargets.scheme must be http or https" (some t.scheme)
  nonEmpty lib "spec.allowedTargets.host" t.host

def validateOutboundConfig (spec : KafkaGrpcGatewaySpec) : Except String Unit := do
  spec.outboundSubscriptions.forM (validateSubscription lib)
  spec.allowedTargets.forM (validateAllowedTarget lib)

/-- What `validate_config` checks of the two lists. -/
def validateConfig (spec : KafkaGrpcGatewaySpec) : Except String Unit := do
  spec.webhooks.forM (validateWebhook lib)
  validateOutboundConfig lib spec

end Validation

/-! ## The Secrets -/

/-- The data of a Secret. -/
abbrev SecretData := Kube.BTreeMap Kube.ByteString

/-- What a read of a Secret returns, by its name. -/
abbrev Secrets := String → Except KubeError (Option SecretData)

section Resolve

-- `utf8Error` is the error of bytes that are no text.
variable (utf8Error : Kube.ByteString → String) (secrets : Secrets)

def resolveSecretRef (r : SecretKeyRef) : Except ReconcileError String :=
  match secrets r.name with
  | .error e => .error (.kube e)
  | .ok none => .error (.malformed ("secretRef Secret '" ++ r.name ++ "' not found"))
  | .ok (some data) =>
    match data[r.key]? with
    | none =>
      .error (.malformed ("secretRef Secret '" ++ r.name ++ "' has no key '" ++ r.key ++ "'"))
    | some bytes =>
      match bytes.utf8? with
      | none => .error (.malformed ("secretRef Secret '" ++ r.name ++ "' key '" ++ r.key ++ "': " ++
          utf8Error bytes))
      | some text => .ok (String.ofList text)

/-- One of the loops of `resolve_all_secret_refs`, over names with their references. -/
def resolveRefs : List (String × Option SecretKeyRef) → Kube.BTreeMap String →
    Except ReconcileError (Kube.BTreeMap String)
  | [], resolved => .ok resolved
  | (_, none) :: rest, resolved => resolveRefs rest resolved
  | (name, some r) :: rest, resolved =>
    match resolveSecretRef utf8Error secrets r with
    | .error e => .error e
    | .ok value => resolveRefs rest (resolved.insert name value)

def resolveAllSecretRefs (spec : KafkaGrpcGatewaySpec) :
    Except ReconcileError (Kube.BTreeMap String × Kube.BTreeMap String) := do
  let webhooks ← resolveRefs utf8Error secrets (spec.webhooks.map fun w => (w.name, w.secretRef)) ∅
  let outbound ← resolveRefs utf8Error secrets
    (spec.outboundSubscriptions.map fun s => (s.name, s.signingSecretRef)) ∅
  pure (webhooks, outbound)

end Resolve

/-! ## The files -/

/-- A value in a file. -/
inductive Value where
  | text (s : String)
  | texts (ss : List String)
  | number (n : Nat)
  | flag (b : Bool)
  | table (entries : Kube.BTreeMap String)

abbrev Entries := List (String × Value)

/-- An entry for a value that may be missing. -/
def entry {α : Type} (key : String) (value : Option α) (f : α → Value) : Entries :=
  match value with
  | none => []
  | some a => [(key, f a)]

structure OutboundDocument where
  subscriptions : List Entries
  allowedTargets : List AllowedTarget

section Render

variable (lib : Lib)

def webhookEntries (resolved : Kube.BTreeMap String) (w : InboundWebhookSpec) : Entries :=
  [("name", .text w.name), ("target_topic", .text w.targetTopic)] ++
  entry "principal" w.principal .text ++
  entry "secret" resolved[w.name]? .text ++
  entry "signature_mode" w.signatureMode .text ++
  entry "forward_headers" w.forwardHeaders .texts ++
  entry "signature_header" w.signatureHeader .text ++
  entry "signature_encoding" w.signatureEncoding .text ++
  entry "signature_prefix" w.signaturePrefix .text ++
  entry "timestamp_header" w.timestampHeader .text ++
  entry "timestamp_tolerance" w.timestampTolerance (fun t => .text (lib.human t)) ++
  entry "idempotency_source" w.idempotencySource .text ++
  entry "key_source" w.keySource .text ++
  entry "max_body" w.maxBody (fun n => .text (lib.humanBytes n)) ++
  entry "schema_subject" w.schemaSubject .text ++
  entry "schema_format" w.schemaFormat .text

/-- The endpoints of `webhooks.toml`. -/
def webhookEndpoints (spec : KafkaGrpcGatewaySpec) (resolved : Kube.BTreeMap String) :
    List Entries :=
  spec.webhooks.map (webhookEntries lib resolved)

def subscriptionEntries (resolved : Kube.BTreeMap String) (s : OutboundSubscriptionSpec) :
    Entries :=
  [("name", .text s.name), ("source_topics", .texts s.sourceTopics),
    ("target_url", .text s.targetUrl)] ++
  entry "signing_secret" resolved[s.name]? .text ++
  entry "dead_letter_topic" s.deadLetterTopic .text ++
  entry "max_attempts" s.maxAttempts .number ++
  entry "base_backoff" s.baseBackoff (fun t => .text (lib.human t)) ++
  entry "max_backoff" s.maxBackoff (fun t => .text (lib.human t)) ++
  entry "request_timeout" s.requestTimeout (fun t => .text (lib.human t)) ++
  entry "group_id" s.groupId .text ++
  entry "decode_to_json" s.decodeToJson .flag ++
  entry "filter" s.filter .text ++
  (if s.headers.isEmpty then [] else [("headers", .table s.headers)])

/-- The target of a subscription. A URL that does not parse has none. -/
def targetOf (s : OutboundSubscriptionSpec) : Option AllowedTarget :=
  match lib.parseUrl s.targetUrl with
  | .error _ => none
  | .ok url => url.host.map fun host => ⟨url.scheme.map Char.toLower, host⟩

/-- The first occurrence of each target, in order. -/
def derivedTargets (targets : List AllowedTarget) : List AllowedTarget :=
  targets.foldl (fun out t => if t ∈ out then out else out ++ [t]) []

def deriveAllowedTargets (spec : KafkaGrpcGatewaySpec) : List AllowedTarget :=
  derivedTargets (spec.outboundSubscriptions.filterMap (targetOf lib) ++ spec.allowedTargets)

/-- The content of `outbound.toml`. -/
def outboundDocument (spec : KafkaGrpcGatewaySpec) (resolved : Kube.BTreeMap String) :
    OutboundDocument where
  subscriptions := spec.outboundSubscriptions.map (subscriptionEntries lib resolved)
  allowedTargets := deriveAllowedTargets lib spec

/-- The contents of the two files, before they are written as TOML. -/
def renderDocuments (utf8Error : Kube.ByteString → String) (secrets : Secrets)
    (spec : KafkaGrpcGatewaySpec) : Except ReconcileError (List Entries × OutboundDocument) :=
  (resolveAllSecretRefs utf8Error secrets spec).map fun (webhooks, outbound) =>
    (webhookEndpoints lib spec webhooks, outboundDocument lib spec outbound)

end Render

/-! ## The secret of an entry -/

section Secrets

variable {lib : Lib} {utf8Error : Kube.ByteString → String} {secrets : Secrets}
  {spec : KafkaGrpcGatewaySpec} {refs : List (String × Option SecretKeyRef)}
  {resolved resolved' : Kube.BTreeMap String}

/-- The value that a reference names. -/
def ownSecret (utf8Error : Kube.ByteString → String) (secrets : Secrets)
    (ref : Option SecretKeyRef) : Option String :=
  ref.bind fun r => (resolveSecretRef utf8Error secrets r).toOption

/-- Where all references of a name have one value, the map has it under the name. -/
theorem getElem?_resolveRefs (h : resolveRefs utf8Error secrets refs resolved = .ok resolved')
    {name : String} {value : Option String}
    (hname : ∀ ref, (name, ref) ∈ refs → ownSecret utf8Error secrets ref = value) :
    resolved'[name]? = (if name ∈ refs.map Prod.fst then value else none).or resolved[name]? := by
  induction refs generalizing resolved with
  | nil =>
    cases h
    rfl
  | cons head refs ih =>
    obtain ⟨name', ref⟩ := head
    have hrest : ∀ ref, (name, ref) ∈ refs → ownSecret utf8Error secrets ref = value :=
      fun ref hmem => hname ref (List.mem_cons_of_mem _ hmem)
    have hhead : name' = name → ownSecret utf8Error secrets ref = value := by
      rintro rfl
      exact hname ref List.mem_cons_self
    have hmem : name ∈ ((name', ref) :: refs).map Prod.fst ↔
        name = name' ∨ name ∈ refs.map Prod.fst := by
      rw [List.map_cons, List.mem_cons]
    simp only [hmem]
    cases ref with
    | none =>
      rw [ih h hrest]
      by_cases heq : name' = name
      · obtain rfl : value = none := (hhead heq).symm
        simp only [ite_self]
      · simp only [Ne.symm heq, false_or]
    | some r =>
      simp only [resolveRefs] at h
      cases hr : resolveSecretRef utf8Error secrets r with
      | error e => simp [hr] at h
      | ok text =>
        simp only [hr] at h
        rw [ih h hrest, Std.ExtTreeMap.getElem?_insert]
        by_cases heq : name' = name
        · obtain rfl : value = some text := by
            simpa [ownSecret, hr, Except.toOption] using (hhead heq).symm
          simp only [heq, true_or, if_true, Std.ReflCmp.compare_self]
          split <;> rfl
        · have hne : ¬ Kube.compareBytes name' name = .eq := fun hcmp =>
            heq (Std.LawfulEqCmp.compare_eq_iff_eq.mp hcmp)
          simp only [Ne.symm heq, false_or, if_neg hne]

/-- Entries of one name have one secret, or none of them has one. -/
def NamesAgree (utf8Error : Kube.ByteString → String) (secrets : Secrets)
    (refs : List (String × Option SecretKeyRef)) : Prop :=
  ∀ e ∈ refs, ∀ e' ∈ refs, e.1 = e'.1 →
    ownSecret utf8Error secrets e.2 = ownSecret utf8Error secrets e'.2

instance : Decidable (NamesAgree utf8Error secrets refs) :=
  inferInstanceAs (Decidable (∀ e ∈ refs, _))

/-- Every entry finds its own secret under its name just when the names agree. -/
theorem getElem?_resolveRefs_iff (h : resolveRefs utf8Error secrets refs ∅ = .ok resolved) :
    (∀ e ∈ refs, resolved[e.1]? = ownSecret utf8Error secrets e.2) ↔
      NamesAgree utf8Error secrets refs := by
  constructor
  · intro hown e he e' he' hname
    rw [← hown e he, ← hown e' he', hname]
  · intro hagree e he
    have hname := @getElem?_resolveRefs _ _ _ _ _ h e.1 (ownSecret utf8Error secrets e.2)
      fun ref hmem => hagree (e.1, ref) hmem e he rfl
    rw [hname, if_pos (List.mem_map_of_mem he)]
    simp

theorem lookup_entry_of_ne {α : Type} {key key' : String} (h : key' ≠ key) (value : Option α)
    (f : α → Value) : (entry key' value f).lookup key = none := by
  cases value with
  | none => rfl
  | some a =>
    have hkey : (key == key') = false := beq_false_of_ne h.symm
    simp only [entry, List.lookup_cons, hkey, List.lookup_nil]

theorem lookup_entry_self {α : Type} (key : String) (value : Option α) (f : α → Value) :
    (entry key value f).lookup key = value.map f := by
  cases value with
  | none => rfl
  | some a => simp [entry]

theorem lookup_webhookEntries (w : InboundWebhookSpec) :
    (webhookEntries lib resolved w).lookup "secret" = resolved[w.name]?.map .text := by
  simp (disch := decide) only [webhookEntries, List.lookup_append, lookup_entry_self,
    lookup_entry_of_ne, Option.or_none]
  rfl

theorem lookup_subscriptionEntries (s : OutboundSubscriptionSpec) :
    (subscriptionEntries lib resolved s).lookup "signing_secret" = resolved[s.name]?.map .text := by
  have hheaders : (if s.headers.isEmpty then ([] : Entries) else
      [("headers", .table s.headers)]).lookup "signing_secret" = none := by
    split <;> rfl
  simp (disch := decide) only [subscriptionEntries, List.lookup_append, lookup_entry_self,
    lookup_entry_of_ne, hheaders, Option.or_none]
  rfl

theorem map_text_injective {a b : Option String} (h : a.map Value.text = b.map Value.text) :
    a = b :=
  Option.map_injective (fun _ _ heq => Value.text.inj heq) h

/-- The entry at each place of a rendered list has its own secret under `key`. -/
def EachOwn {α : Type} (utf8Error : Kube.ByteString → String) (secrets : Secrets) (key : String)
    (ref : α → Option SecretKeyRef) (specs : List α) (rendered : List Entries) : Prop :=
  ∀ (i : Nat) (spec : α), specs[i]? = some spec → ∃ entries : Entries,
    rendered[i]? = some entries ∧ entries.lookup key = (ownSecret utf8Error secrets (ref spec)).map .text

/-- Entries that take their secret from the map by name have their own one just when the names
    agree. -/
theorem eachOwn_iff {α : Type} {key : String} {name : α → String} {ref : α → Option SecretKeyRef}
    {render : α → Entries} {specs : List α}
    (h : resolveRefs utf8Error secrets (specs.map fun a => (name a, ref a)) ∅ = .ok resolved)
    (hrender : ∀ a, (render a).lookup key = resolved[name a]?.map .text) :
    EachOwn utf8Error secrets key ref specs (specs.map render) ↔
      NamesAgree utf8Error secrets (specs.map fun a => (name a, ref a)) := by
  rw [← getElem?_resolveRefs_iff h, List.forall_mem_map]
  constructor
  · intro hown a ha
    obtain ⟨i, hi⟩ := List.mem_iff_getElem?.mp ha
    obtain ⟨entries, hentries, hlookup⟩ := hown i a hi
    rw [List.getElem?_map, hi, Option.map_some] at hentries
    cases hentries
    exact map_text_injective ((hrender a).symm.trans hlookup)
  · intro hown i a hi
    refine ⟨render a, by rw [List.getElem?_map, hi, Option.map_some], ?_⟩
    rw [hrender, hown a (List.mem_of_getElem? hi)]

/-- In the two files every webhook and every subscription has the secret that its own reference
    names just when those of one name agree on it. -/
theorem ownSecrets_iff (lib : Lib) (utf8Error : Kube.ByteString → String) (secrets : Secrets)
    (spec : KafkaGrpcGatewaySpec) (endpoints : List Entries) (outbound : OutboundDocument)
    (h : renderDocuments lib utf8Error secrets spec = .ok (endpoints, outbound)) :
    (EachOwn utf8Error secrets "secret" InboundWebhookSpec.secretRef spec.webhooks endpoints ∧
      EachOwn utf8Error secrets "signing_secret" OutboundSubscriptionSpec.signingSecretRef
        spec.outboundSubscriptions outbound.subscriptions) ↔
    NamesAgree utf8Error secrets (spec.webhooks.map fun w => (w.name, w.secretRef)) ∧
      NamesAgree utf8Error secrets
        (spec.outboundSubscriptions.map fun s => (s.name, s.signingSecretRef)) := by
  unfold renderDocuments at h
  cases hresolve : resolveAllSecretRefs utf8Error secrets spec with
  | error e =>
    rw [hresolve] at h
    cases h
  | ok maps =>
  rw [hresolve] at h
  cases h
  obtain ⟨webhooks, hwebhooks, hresolve⟩ := Checks.bind_eq_ok.mp hresolve
  obtain ⟨signing, hsigning, hmaps⟩ := Checks.bind_eq_ok.mp hresolve
  cases hmaps
  rw [webhookEndpoints, outboundDocument, eachOwn_iff hwebhooks lookup_webhookEntries,
    eachOwn_iff hsigning lookup_subscriptionEntries]

end Secrets

/-! ## Two webhooks -/

namespace Sample

/-- A library for specs without durations, paths, header names and URLs. -/
def lib : Lib where
  human := fun _ => ""
  humanBytes := fun _ => ""
  millisU64 := fun t => t.toNat / 1000000
  secsI64 := fun t => t / 1000000000
  printable := fun _ => true
  parseJsonPath := fun _ => .error "not a path"
  headerName := fun _ => .error "not a header name"
  parseUrl := fun _ => .error "not a URL"
  ruleError := fun rule value => rule ++ " does not hold of " ++ value

def utf8Error : Kube.ByteString → String := fun _ => "not UTF-8"

def text? : Value → Option String
  | .text value => some value
  | _ => none

def secrets : Secrets := fun name =>
  .ok (if name = "keys" then
    some (.ofList [("a", .text "A".toList), ("b", .text "B".toList)])
  else none)

def signed (name key : String) : InboundWebhookSpec where
  name
  targetTopic := "events"
  signatureHeader := some "X-Signature"
  secretRef := some ⟨"keys", key⟩

def unsigned (name : String) : InboundWebhookSpec where
  name
  targetTopic := "events"

/-- Two webhooks that are signed with two keys. -/
def separate : KafkaGrpcGatewaySpec where
  webhooks := [signed "orders" "a", signed "events" "b", unsigned "open"]

/-- Three webhooks of one name. -/
def shared : KafkaGrpcGatewaySpec where
  webhooks := [signed "orders" "a", signed "orders" "b", unsigned "orders"]

end Sample

theorem ownSecrets_iff_separate :
    ∃ endpoints outbound, renderDocuments Sample.lib Sample.utf8Error Sample.secrets
      Sample.separate = .ok (endpoints, outbound) ∧
    EachOwn Sample.utf8Error Sample.secrets "secret" InboundWebhookSpec.secretRef
        Sample.separate.webhooks endpoints ∧
      EachOwn Sample.utf8Error Sample.secrets "signing_secret"
        OutboundSubscriptionSpec.signingSecretRef Sample.separate.outboundSubscriptions
        outbound.subscriptions :=
  ⟨_, _, rfl, (ownSecrets_iff _ _ _ _ _ _ rfl).mpr ⟨by decide, by decide⟩⟩

/-- Of webhooks of one name, a signed one gets the key of a later one, and one without a reference
    gets that key too. -/
theorem ownSecrets_fails :
    validateConfig Sample.lib Sample.shared = .ok () ∧
    ∃ endpoints outbound, renderDocuments Sample.lib Sample.utf8Error Sample.secrets
        Sample.shared = .ok (endpoints, outbound) ∧
      ¬ EachOwn Sample.utf8Error Sample.secrets "secret" InboundWebhookSpec.secretRef
        Sample.shared.webhooks endpoints ∧
      endpoints.map (fun entries => entries.lookup "secret" >>= Sample.text?) =
        [some "B", some "B", some "B"] := by
  refine ⟨rfl, _, _, rfl, fun h => ?_, rfl⟩
  obtain ⟨entries, hentries, hlookup⟩ := h 2 (Sample.unsigned "orders") rfl
  cases hentries
  exact absurd (congrArg Option.isSome hlookup) (by decide)

end Gateway
