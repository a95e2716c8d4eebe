-- SUMMARY: The registry process of a pod gets the settings of its spec, each once, exactly when no value is a reference to a variable.
import KrabkaOperator.Registry.Render
import Mathlib.Data.List.TakeWhile
import Mathlib.Data.List.Nodup

/-!
# The settings that a registry gets

The kubelet expands references to variables in the arguments of a container. The operator
writes the values of the spec into the arguments as they are, so a value with a `$$`, or with
a reference to a defined variable, reaches the process as another one.
-/

namespace Registry

open Kube Crd Expansion

/-! ## Reading arguments -/

/-- How the process reads an argument. -/
def Setting.ofText (arg : String) : Option Setting :=
  match arg.toList with
  | '-' :: '-' :: rest =>
    let name := String.ofList (rest.takeWhile (· != '='))
    match rest.dropWhile (· != '=') with
    | [] => some ⟨name, none⟩
    | _ :: value => some ⟨name, some (String.ofList value)⟩
  | _ => none

section Setting

variable {s : Setting}

/-- What comes after the name. -/
def Setting.tail (s : Setting) : List Char := s.value.elim [] fun value => '=' :: value.toList

theorem Setting.toList_text (s : Setting) :
    s.text.toList = '-' :: '-' :: (s.name.toList ++ s.tail) := by
  obtain ⟨name, value⟩ := s
  cases value <;> simp [Setting.text, Setting.tail]

theorem Setting.ofText_text (h : '=' ∉ s.name.toList) : ofText s.text = some s := by
  obtain ⟨name, value⟩ := s
  have hname : ∀ c ∈ name.toList, (c != '=') = true := fun c hc =>
    bne_iff_ne.mpr fun heq => h (heq ▸ hc)
  cases value with
  | none => simp [ofText, toList_text, tail, List.takeWhile_eq_self_iff.mpr hname,
      List.dropWhile_eq_nil_iff.mpr hname]
  | some value => simp [ofText, toList_text, tail, List.takeWhile_append_of_pos hname,
      List.dropWhile_append_of_pos hname]

/-- An argument is read as the one setting that it is the text of. -/
theorem Setting.text_of_ofText {arg : String} (h : ofText arg = some s) : s.text = arg := by
  rw [← String.toList_inj, toList_text]
  unfold ofText at h
  split at h
  · rename_i rest harg
    rw [harg]
    congr 2
    have hsplit := List.takeWhile_append_dropWhile (p := (· != '=')) (l := rest)
    cases hdrop : rest.dropWhile (· != '=') with
    | nil =>
      simp only [hdrop] at h hsplit
      cases h
      simpa [tail] using hsplit
    | cons c value =>
      have hc : c = '=' := by
        have hhead := List.head_dropWhile_not (· != '=') (l := rest) (by rw [hdrop]; exact nofun)
        simpa [hdrop] using hhead
      simp only [hdrop] at h hsplit
      cases h
      rw [hc] at hsplit
      simpa [tail] using hsplit
  · cases h

theorem Setting.ofText_eq_some_iff {arg : String} (h : '=' ∉ s.name.toList) :
    ofText arg = some s ↔ arg = s.text :=
  ⟨fun harg => (text_of_ofText harg).symm, fun harg => harg ▸ ofText_text h⟩

end Setting

/-! ## Pods -/

/-- A pod of a registry, as the kubelet starts its container. -/
structure Pod where
  name : String
  /-- The keys of the Secrets. -/
  secretKey : String → String → String
  /-- The variables of the Services of the namespace. -/
  services : String → Option String

def Pod.lookup (pod : Pod) : ValueSource → String
  | .value text => text
  | .field path => if path = "metadata.name" then pod.name else ""
  | .secretKey name key => pod.secretKey name key

/-- The environment of the container. -/
def PodTemplate.environment (template : PodTemplate) (pod : Pod) : String → Option String :=
  Expansion.environment pod.lookup pod.services template.env

/-- The arguments that the process gets. -/
def PodTemplate.argv (template : PodTemplate) (pod : Pod) : List String :=
  template.args.map (expand (template.environment pod))

/-! ## Names of settings -/

def runtimeFlags : List String :=
  ["election-session-timeout", "election-rebalance-timeout", "election-heartbeat-interval",
    "election-reconnect-backoff", "store-reader-retry-backoff", "store-reader-fetch-max-wait",
    "store-reader-fetch-max", "schemas-topic-create-timeout", "forward-max-body",
    "default-compatibility-level", "default-mode", "client-dispatch-queue-capacity",
    "client-frame-max"]

def tlsFlags : List String := ["tls-cert", "tls-key", "tls-client-auth", "tls-client-ca"]

def bearerFlags : List String :=
  ["bearer", "bearer-principal-claim", "bearer-jwks-endpoint-uri", "bearer-jwks-valid-issuer",
    "bearer-jwks-expected-audience", "bearer-jwks-principal-claim", "bearer-jwks-refresh",
    "bearer-jwks-ca"]

def kafkaClientFlags : List String :=
  ["kafka-security-protocol", "kafka-sasl-mechanism", "kafka-tls-ca", "kafka-tls-server-name"]

/-- The settings that are given once at most, with those of the server certificate. -/
def flagsWith (tls : List String) : List String :=
  ["bootstrap-servers", "listen-addr", "schemas-topic", "schemas-topic-rf", "group-id"] ++
    (runtimeFlags ++ (["client-id"] ++ (tls ++
      (["require-auth", "realm", "basic-auth-file"] ++ bearerFlags ++
        (["authz", "acl-refresh"] ++ kafkaClientFlags)))))

def flagNames : List String := flagsWith tlsFlags

/-- The names of the settings, without the one that may be given more often. -/
def onceNames (l : List Setting) : List String :=
  (l.map (·.name)).filter (· != "super-user")

theorem onceNames_append (l l' : List Setting) :
    onceNames (l ++ l') = onceNames l ++ onceNames l' := by
  simp [onceNames]

/-- Some settings with a name of the list each, those that are given once in its order. -/
structure Within (l : List Setting) (names : List String) : Prop where
  once : (onceNames l).Sublist names
  mem : ∀ s ∈ l, s.name ∈ "super-user" :: names

theorem Within.append {l l' : List Setting} {names names' : List String} (h : Within l names)
    (h' : Within l' names') : Within (l ++ l') (names ++ names') where
  once := onceNames_append l l' ▸ h.once.append h'.once
  mem s hs := by
    rcases List.mem_append.mp hs with hs | hs
    · exact List.cons_subset_cons _ (List.subset_append_left ..) (h.mem s hs)
    · exact List.cons_subset_cons _ (List.subset_append_right ..) (h'.mem s hs)

theorem Within.mono {l : List Setting} {names names' : List String} (h : Within l names)
    (hnames : names.Sublist names') : Within l names' where
  once := h.once.trans hnames
  mem s hs := List.cons_subset_cons _ hnames.subset (h.mem s hs)

theorem Within.nil (names : List String) : Within [] names where
  once := List.nil_sublist _
  mem _ hs := absurd hs List.not_mem_nil

theorem Within.one {l : List Setting} (name : String) (hlen : l.length ≤ 1)
    (h : ∀ s ∈ l, s.name = name) : Within l [name] where
  once := by
    refine List.Sublist.trans List.filter_sublist ?_
    cases l with
    | nil => exact List.nil_sublist _
    | cons s l =>
      obtain rfl := List.length_eq_zero_iff.mp (Nat.le_zero.mp (Nat.le_of_succ_le_succ hlen))
      rw [List.map_cons, h s List.mem_cons_self]
      exact List.Sublist.refl _
  mem s hs := List.mem_cons_of_mem _ (List.mem_singleton.mpr (h s hs))

theorem Within.cons {l l' : List Setting} {name : String} {names : List String}
    (h : Within l [name]) (h' : Within l' names) : Within (l ++ l') (name :: names) :=
  h.append h'

theorem Within.single {l : List Setting} {names : List String} (name : String)
    (value : Option String) (h : Within l names) : Within (⟨name, value⟩ :: l) (name :: names) :=
  (Within.one (l := [⟨name, value⟩]) name (Nat.le_refl 1) fun s hs => by
    rw [List.mem_singleton.mp hs]).append h

theorem within_given (name : String) (value : Option String) : Within (given name value) [name] :=
  .one name (by cases value <;> simp [given]) fun s hs => by
    obtain ⟨v, -, rfl⟩ := List.mem_map.mp hs
    rfl

theorem within_switch (name : String) (on : Bool) : Within (switch name on) [name] :=
  .one name (by cases on <;> simp [switch]) fun s hs => by
    unfold switch at hs
    split at hs
    · rw [List.mem_singleton.mp hs]
    · cases hs

theorem within_superUsers (users : List String) :
    Within (users.map fun user => ⟨"super-user", some user⟩) [] where
  once := by
    rw [onceNames, List.map_map, List.filter_eq_nil_iff.mpr]
    intro name hname
    obtain ⟨user, -, rfl⟩ := List.mem_map.mp hname
    exact Bool.false_ne_true
  mem s hs := by
    obtain ⟨user, -, rfl⟩ := List.mem_map.mp hs
    exact List.mem_cons_self

theorem Within.elim {l : α → List Setting} {names : List String} (o : Option α)
    (h : ∀ a, Within (l a) names) : Within (o.elim [] l) names := by
  cases o with
  | none => exact .nil names
  | some a => exact h a

section Settings

variable (lib : Lib)

theorem within_runtimeSettings (runtime : SchemaRegistryRuntime) :
    Within (runtimeSettings lib runtime) runtimeFlags := by
  simp only [runtimeSettings, List.append_assoc]
  iterate 12 refine .cons (within_given _ _) ?_
  exact within_given _ _

theorem within_tlsSettings (tlsSecret : Option String) (tls : SchemaRegistryTls) :
    Within (tlsSettings tlsSecret tls) tlsFlags := by
  simp only [tlsSettings, List.append_assoc, List.cons_append, List.nil_append]
  exact .cons (within_given _ _) (.cons (within_given _ _) (.single _ _ (within_given _ _)))

theorem within_bearerSettings (bearer : BearerAuthn) :
    Within (bearerSettings lib bearer) bearerFlags := by
  unfold bearerSettings
  cases bearer.mode with
  | unsecured =>
    have h : Within _ ["bearer", "bearer-principal-claim"] :=
      .single _ (some "unsecured") (within_given _ bearer.principalClaim)
    exact h.mono (by decide)
  | jwks =>
    have h : Within (bearerSettings lib { bearer with mode := .jwks })
        ("bearer" :: bearerFlags.drop 2) := by
      simp only [bearerSettings, List.append_assoc, List.cons_append, List.nil_append]
      refine .single _ _ ?_
      iterate 5 refine .cons (within_given _ _) ?_
      exact within_given _ _
    exact h.mono (by decide)

theorem within_authnSettings (authn : SchemaRegistryAuthn) : Within (authnSettings lib authn)
    (["require-auth", "realm", "basic-auth-file"] ++ bearerFlags) := by
  simp only [authnSettings, List.append_assoc]
  exact .cons (within_switch _ _) (.cons (within_given _ _) (.cons (within_given _ _)
    (.elim _ (within_bearerSettings lib))))

theorem within_authzSettings (authz : SchemaRegistryAuthz) :
    Within (authzSettings lib authz) ["authz", "acl-refresh"] := by
  simp only [authzSettings, List.append_assoc]
  exact .cons (within_switch _ _) ((within_superUsers _).append (within_given _ _))

theorem within_kafkaClientSettings (client : SchemaRegistryKafkaClient) :
    Within (kafkaClientSettings client) kafkaClientFlags := by
  simp only [kafkaClientSettings, List.append_assoc, List.cons_append, List.nil_append]
  exact .single _ _ (.cons (within_given _ _) (.cons (within_given _ _) (within_given _ _)))

theorem within_settings_of {tlsSecret : Option String} {names : List String}
    (h : ∀ tls, Within (tlsSettings tlsSecret tls) names) (spec : SchemaRegistrySpec)
    (bootstrap : String) : Within (settings lib spec bootstrap tlsSecret) (flagsWith names) := by
  simp only [settings, List.append_assoc, List.cons_append, List.nil_append]
  refine .single _ _ (.single _ _ ?_)
  refine .cons (within_given _ _) (.cons (within_given _ _) (.cons (within_given _ _) ?_))
  refine (Within.elim _ (within_runtimeSettings lib)).append (.cons (within_given _ _) ?_)
  refine (Within.elim _ h).append ?_
  refine (Within.elim _ (within_authnSettings lib)).append ?_
  exact (Within.elim _ (within_authzSettings lib)).append (.elim _ within_kafkaClientSettings)

theorem within_settings (spec : SchemaRegistrySpec) (bootstrap : String)
    (tlsSecret : Option String) : Within (settings lib spec bootstrap tlsSecret) flagNames :=
  within_settings_of lib (within_tlsSettings tlsSecret) spec bootstrap

/-- Without a Secret, there is no certificate of the server. -/
theorem name_ne_tlsCert {spec : SchemaRegistrySpec} {bootstrap : String} {s : Setting}
    (hs : s ∈ settings lib spec bootstrap none) : s.name ≠ "tls-cert" := by
  have hwithin (tls : SchemaRegistryTls) : Within (tlsSettings none tls) (tlsFlags.drop 2) :=
    .single _ _ (within_given _ _)
  intro hname
  have hmem := (within_settings_of lib hwithin spec bootstrap).mem s hs
  rw [hname] at hmem
  exact absurd hmem (by decide)

end Settings

theorem flagName_chars : ("super-user" :: flagNames).all
    (fun name => name.toList.all fun c => c != '=' && c != '$') = true := by
  simp [flagNames, flagsWith, runtimeFlags, tlsFlags, bearerFlags, kafkaClientFlags]

theorem not_mem_flagName {name : String} (h : name ∈ "super-user" :: flagNames) :
    '=' ∉ name.toList ∧ '$' ∉ name.toList := by
  have hall := List.all_eq_true.mp (List.all_eq_true.mp flagName_chars name h)
  constructor
  · exact fun hc => absurd (hall _ hc) Bool.false_ne_true
  · exact fun hc => absurd (hall _ hc) Bool.false_ne_true

theorem flagNames_nodup : flagNames.Nodup := by decide

/-! ## The environment -/

section Environment

variable {obj : SchemaRegistry} {tlsSecret : Option String} {pod : Pod}

/-- What comes after the name of the pod in the URL that it advertises. -/
def advertisedSuffix (obj : SchemaRegistry) : String :=
  "." ++ headlessName obj.name ++ "." ++ obj.namespace? ++ ".svc.cluster.local:" ++
    toString srPort

/-- The names of an object and of its namespace, which the API server accepts only without
    a `$`. -/
def NoReference (obj : SchemaRegistry) : Prop :=
  '$' ∉ obj.name.toList ∧ '$' ∉ obj.namespace?.toList

theorem not_mem_advertisedSuffix (h : NoReference obj) : '$' ∉ (advertisedSuffix obj).toList := by
  have hport : '$' ∉ (toString srPort).toList := by decide
  have hheadless : '$' ∉ (headlessName obj.name).toList := by
    simpa [headlessName] using h.1
  simp only [advertisedSuffix, String.toList_append, List.mem_append, not_or]
  exact ⟨⟨⟨⟨⟨by decide, hheadless⟩, by decide⟩, h.2⟩, by decide⟩, hport⟩

theorem advertisedUrl_eq (obj : SchemaRegistry) (tlsSecret : Option String) :
    advertisedUrl obj tlsSecret =
      scheme tlsSecret ++ "://" ++ ("$(" ++ "POD_NAME" ++ ")" ++ advertisedSuffix obj) := by
  rw [← String.toList_inj]
  simp [advertisedUrl, advertisedSuffix]

/-- The URL of a pod names the pod. -/
theorem expand_advertisedUrl (h : NoReference obj) {lookup : String → Option String}
    {podName : String} (hpod : lookup "POD_NAME" = some podName) :
    expand lookup (advertisedUrl obj tlsSecret) =
      scheme tlsSecret ++ "://" ++ (podName ++ advertisedSuffix obj) := by
  have hscheme : '$' ∉ (scheme tlsSecret ++ "://").toList := by
    unfold scheme
    split <;> decide
  rw [advertisedUrl_eq, expand_append hscheme, expand_reference (by decide) hpod,
    expand_of_not_mem (not_mem_advertisedSuffix h)]

theorem name_of_mem_kafkaClientEnv {v : Variable}
    (h : v ∈ obj.spec.kafkaClient.elim [] kafkaClientEnv) :
    v.name ≠ "POD_NAME" ∧ v.name ≠ "SCHEMA_REGISTRY_ADVERTISED_URL" ∧
      ∃ name key, v.source = .secretKey name key := by
  cases hclient : obj.spec.kafkaClient with
  | none => simp [hclient] at h
  | some client =>
    cases hsasl : client.sasl with
    | none => simp [hclient, kafkaClientEnv, hsasl] at h
    | some sasl =>
      simp only [hclient, Option.elim_some, kafkaClientEnv, hsasl, List.mem_cons,
        List.not_mem_nil, or_false] at h
      rcases h with rfl | rfl
      · exact ⟨by simp, by simp, _, _, rfl⟩
      · exact ⟨by simp, by simp, _, _, rfl⟩

end Environment

/-! ## What the process gets -/

/-- The variables of Services that a pod sees. -/
def Pod.SeesServices (pod : Pod) (names : List String) : Prop :=
  ∀ name, (pod.services name).isSome = true ↔ name ∈ names

/-- The variables that are defined in the container. -/
def definedIn (obj : SchemaRegistry) (tlsSecret : Option String) (services : List String) :
    List String :=
  (env obj tlsSecret).map (·.name) ++ services

/-- A pod with short values. -/
def Pod.blank (services : List String) : Pod where
  name := "pod"
  secretKey _ _ := ""
  services name := if name ∈ services then some "" else none

section Received

variable {lib : Lib} {obj : SchemaRegistry} {bootstrap image : String} {tlsSecret : Option String}
  {services : List String} {pod : Pod}

theorem Pod.blank_seesServices (services : List String) :
    (blank services).SeesServices services := by
  intro name
  simp only [blank]
  split <;> simp [*]

theorem isSome_environment_iff (h : pod.SeesServices services) (name : String) :
    ((renderTemplate lib obj bootstrap image tlsSecret).environment pod name).isSome = true ↔
      name ∈ definedIn obj tlsSecret services := by
  rw [PodTemplate.environment, isSome_environment, definedIn, List.mem_append, h name]
  rfl

/-- No value has a `$`, and the name of the pod, which the URL refers to, is known. -/
structure Quiet (e : String → Option String) : Prop where
  pod : e "POD_NAME" = some "pod"
  values : ∀ name v, e name = some v → '$' ∉ v.toList

theorem quiet_blank (services : List String) :
    Quiet (Function.update (Pod.blank services).services "POD_NAME" (some "pod")) where
  pod := Function.update_self ..
  values := by
    refine forall_update (fun name v hv => ?_) (by decide)
    simp only [Pod.blank] at hv
    split at hv
    · obtain rfl := Option.some.inj hv
      decide
    · cases hv

theorem Quiet.update {e : String → Option String} (he : Quiet e) (h : NoReference obj)
    {v : Variable} (hv : v ∈ (env obj tlsSecret).tail) :
    Quiet (Function.update e v.name (some (v.source.resolve (Pod.blank services).lookup e))) := by
  rcases List.mem_cons.mp hv with rfl | hv
  · refine ⟨(Function.update_of_ne (by simp) ..).trans he.pod, forall_update he.values ?_⟩
    rw [ValueSource.resolve, expand_advertisedUrl h he.pod]
    simp only [String.toList_append, List.mem_append, not_or]
    have hscheme : '$' ∉ (scheme tlsSecret).toList := by
      unfold scheme
      split <;> decide
    exact ⟨⟨hscheme, by decide⟩, by decide, not_mem_advertisedSuffix h⟩
  · obtain ⟨hname, -, secret, key, hsource⟩ := name_of_mem_kafkaClientEnv hv
    refine ⟨(Function.update_of_ne hname.symm ..).trans he.pod, forall_update he.values ?_⟩
    rw [hsource]
    exact List.not_mem_nil

theorem quiet_environment (h : NoReference obj) :
    Quiet ((renderTemplate lib obj bootstrap image tlsSecret).environment (.blank services)) := by
  have hrest : Quiet (Expansion.environment (Pod.blank services).lookup
      (Function.update (Pod.blank services).services "POD_NAME" (some "pod"))
      (env obj tlsSecret).tail) :=
    environment_invariant (quiet_blank services) fun v hv e he => he.update h hv
  exact hrest

/-- An argument is read as the setting that it was rendered from just when it stays as it is. -/
theorem ofText_expand_iff {s : Setting} (hs : s ∈ settings lib obj.spec bootstrap tlsSecret)
    (e : String → Option String) :
    Setting.ofText (expand e s.text) = some s ↔ expand e s.text = s.text :=
  Setting.ofText_eq_some_iff
    (not_mem_flagName ((within_settings lib obj.spec bootstrap tlsSecret).mem s hs)).1

theorem argv_read (pod : Pod) :
    ((renderTemplate lib obj bootstrap image tlsSecret).argv pod).map Setting.ofText =
      (settings lib obj.spec bootstrap tlsSecret).map fun s => Setting.ofText
        (expand ((renderTemplate lib obj bootstrap image tlsSecret).environment pod) s.text) := by
  have hargs : (renderTemplate lib obj bootstrap image tlsSecret).args =
      (settings lib obj.spec bootstrap tlsSecret).map Setting.text := rfl
  simp only [PodTemplate.argv, hargs, List.map_map, Function.comp_def]

theorem argv_read_iff (pod : Pod) :
    ((renderTemplate lib obj bootstrap image tlsSecret).argv pod).map Setting.ofText =
        (settings lib obj.spec bootstrap tlsSecret).map some ↔
      ∀ s ∈ settings lib obj.spec bootstrap tlsSecret,
        expand ((renderTemplate lib obj bootstrap image tlsSecret).environment pod) s.text =
          s.text := by
  rw [argv_read, List.map_inj_left]
  exact forall₂_congr fun s hs => ofText_expand_iff hs _

theorem plain_text_iff {s : Setting} (hs : s ∈ settings lib obj.spec bootstrap tlsSecret)
    (names : List String) : Plain names s.text ↔ ∀ v, s.value = some v → Plain names v := by
  obtain ⟨-, hname⟩ :=
    not_mem_flagName ((within_settings lib obj.spec bootstrap tlsSecret).mem s hs)
  obtain ⟨name, value⟩ := s
  cases value with
  | none =>
    have htext : '$' ∉ (Setting.text ⟨name, none⟩).toList := by
      simpa [Setting.text] using hname
    have hplain : Plain names (Setting.text ⟨name, none⟩ ++ "") :=
      (plain_append_iff htext).mpr fun p hp => absurd hp List.not_mem_nil
    rw [String.append_empty] at hplain
    exact iff_of_true hplain fun v hv => absurd hv nofun
  | some value =>
    have hstart : '$' ∉ ("--" ++ name ++ "=").toList := by simpa using hname
    have htext : Setting.text ⟨name, some value⟩ = "--" ++ name ++ "=" ++ value := by
      rw [← String.toList_inj]
      simp [Setting.text]
    rw [htext, plain_append_iff hstart]
    simp

/-- Whatever the credentials and the Services are, the process gets the settings of the spec,
    exactly when no value has an escape or a reference to a defined variable; and no setting
    but a super user is given twice. -/
theorem settings_received_iff (lib : Lib) (h : NoReference obj) (bootstrap image : String)
    (tlsSecret : Option String) (services : List String) :
    ((∀ pod : Pod, pod.SeesServices services →
      ((renderTemplate lib obj bootstrap image tlsSecret).argv pod).map Setting.ofText =
        (settings lib obj.spec bootstrap tlsSecret).map some) ↔
      ∀ s ∈ settings lib obj.spec bootstrap tlsSecret, ∀ v, s.value = some v →
        Plain (definedIn obj tlsSecret services) v) ∧
    (onceNames (settings lib obj.spec bootstrap tlsSecret)).Nodup := by
  refine ⟨⟨fun hall s hs => ?_, fun hplain pod hpod => ?_⟩,
    (within_settings lib obj.spec bootstrap tlsSecret).once.nodup flagNames_nodup⟩
  · have hself := (argv_read_iff _).mp (hall _ (Pod.blank_seesServices services)) s hs
    exact (plain_text_iff hs _).mp ((expand_eq_self_iff (quiet_environment h).values
      (isSome_environment_iff (Pod.blank_seesServices services))).mp hself)
  · refine (argv_read_iff pod).mpr fun s hs => ?_
    exact expand_of_plain (fun name => (isSome_environment_iff hpod name).mp)
      ((plain_text_iff hs _).mpr (hplain s hs))

end Received

namespace Sample

def lib : Lib where
  millisI64
    | .finite value => (value * 1000).floor
    | .nonFinite => 0
  bytesU64
    | .finite value => value.floor.toNat
    | .nonFinite => 0
  humanTime
    | .finite value => toString value.num ++ "s"
    | .nonFinite => "inf"
  humanSize
    | .finite value => toString value.num ++ "B"
    | .nonFinite => "inf"
  greaterError least value := "must be at least " ++ toString least ++ ", got " ++ toString value
  emptyStringError := "must not be empty"
  dispatchQueueCapacity _ := .ok ()
  clientFrameMax _ := .ok ()

def registrySpec : SchemaRegistrySpec :=
  { replicas := 2, bootstrapServers := some "kafka:9092", schemasTopic := some "_schemas"
    tls := some { secretName := some "sr-cert" }
    authentication := some { requireAuth := true, realm := some "schemas $ (dev)" }
    authorization := some { enabled := true, superUsers := ["User:ann", "User:bob"] }
    kafkaClient := some { sasl := some ⟨"PLAIN", "sr-login"⟩ } }

def registry : SchemaRegistry :=
  { name := "demo", ns := some "default", uid := some "u-1", generation := some 3
    spec := registrySpec }

/-- A registry with a realm that refers to a variable of its container. -/
def referring : SchemaRegistry :=
  { registry with spec := { registrySpec with
      authentication := some { realm := some "$(SCHEMA_REGISTRY_KAFKA_SASL_PASSWORD)" } } }

end Sample

open Sample in
theorem settings_received_iff_plain :
    (∀ pod : Pod, pod.SeesServices ["KAFKA_SERVICE_HOST"] →
      ((renderTemplate lib registry "kafka:9092" "sr:1" (some "sr-cert")).argv pod).map
          Setting.ofText =
        (settings lib registry.spec "kafka:9092" (some "sr-cert")).map some) ∧
    ¬ ∀ pod : Pod, pod.SeesServices [] →
      ((renderTemplate lib referring "kafka:9092" "sr:1" (some "sr-cert")).argv pod).map
          Setting.ofText =
        (settings lib referring.spec "kafka:9092" (some "sr-cert")).map some := by
  refine ⟨(settings_received_iff lib ⟨by decide, by decide⟩ ..).1.mpr ?_, fun hall => ?_⟩
  · decide
  · have hplain := (settings_received_iff lib ⟨by decide, by decide⟩ ..).1.mp hall
    exact absurd (hplain ⟨"realm", some "$(SCHEMA_REGISTRY_KAFKA_SASL_PASSWORD)"⟩ (by decide) _ rfl)
      (by decide)

end Registry
