-- SUMMARY: The Secrets that the controllers of clusters and gateways manage, and which names of users the credential of a user overwrites them under.
import KrabkaOperator.Cluster.Reconcile
import KrabkaOperator.ClusterCa.Requests
import KrabkaOperator.Gateway.Serving
import KrabkaOperator.User.Pass

/-!
# Managed Secrets

The credential of a user is applied by force to the Secret that has the name of the
user. The check of reserved names knows one of the names that other controllers use.
-/

namespace User

open Kube Crd Operator ClusterCa

/-! ## The names -/

/-- The Secrets of a cluster. -/
def clusterSecrets (cluster : String) : List String :=
  [WhichCa.cluster.keyName cluster, WhichCa.cluster.certName cluster,
    WhichCa.clients.keyName cluster, WhichCa.clients.certName cluster,
    brokerKeystoreName cluster, Cluster.clusterIdSecretName cluster]

def gatewaySecrets (gateway : String) : List String :=
  [Gateway.servingSecretName gateway, Gateway.configSecretName gateway]

/-- The Secrets that another controller of the operator manages in a namespace. -/
def managedSecrets (clusters gateways : List String) : List String :=
  clusters.flatMap (fun c => operatorSecretName c :: clusterSecrets c) ++
    gateways.flatMap gatewaySecrets

/-- The managed names that the check of reserved names lets pass. -/
def UnguardedName (clusters gateways : List String) (name : String) : Prop :=
  (∃ c ∈ clusters, name ∈ clusterSecrets c) ∨ ∃ g ∈ gateways, name ∈ gatewaySecrets g

instance (clusters gateways : List String) (name : String) :
    Decidable (UnguardedName clusters gateways name) :=
  inferInstanceAs (Decidable (_ ∨ _))

variable {clusters gateways : List String} {name cluster : String}

/-- The check covers the identity of the operator, for every cluster. -/
theorem ne_operatorSecretName (h : validateReservedIdentity name cluster = .ok ()) (c : String) :
    name ≠ operatorSecretName c := by
  rintro rfl
  have hsuffix : "-operator-identity".toList.isSuffixOf (operatorSecretName c).toList = true := by
    rw [operatorSecretName, String.toList_append, List.isSuffixOf_iff_suffix]
    exact List.suffix_append _ _
  unfold validateReservedIdentity at h
  rw [if_pos (.inr (.inr (.inr (.inr hsuffix))))] at h
  cases h

/-- Of the managed names the check leaves these. -/
theorem mem_managedSecrets_iff (h : validateReservedIdentity name cluster = .ok ()) :
    name ∈ managedSecrets clusters gateways ↔ UnguardedName clusters gateways name := by
  simp only [managedSecrets, UnguardedName, List.mem_append, List.mem_flatMap, List.mem_cons,
    ne_operatorSecretName h, false_or]

/-! ## Credentials -/

/-- The data of a password, a token or a certificate of a user. -/
def IsCredential (cfg : SecretConfig) : Prop :=
  cfg.data["password"]?.isSome ∨ cfg.data["user.crt"]?.isSome

/-- A forced apply of a credential is for the Secret of the user. -/
def CredentialOf (user : KafkaUser) (r : Req) : Prop :=
  ∀ n cfg, r = .applySecret n cfg → IsCredential cfg →
    n = user.name ∧ user.authentication ≠ .tlsExternal

/-- The requests of a call on a CA write no credential. -/
def NoCredential (r : Req) : Prop := ∀ n cfg, r = .applySecret n cfg → ¬ IsCredential cfg

section Calls

variable {which : WhichCa}

theorem not_isCredential_renderCaSecret {data : List (String × Pem)}
    (annotations : List (String × String))
    (h : ∀ p ∈ data, p.1 ≠ "password" ∧ p.1 ≠ "user.crt") :
    ¬ IsCredential (renderCaSecret data annotations) := by
  have hnone : ∀ key, (∀ p ∈ data, p.1 ≠ key) →
      (renderCaSecret data annotations).data[key]? = none := by
    intro key hkey
    rw [renderCaSecret, BTreeMap.getElem?_ofList, List.lookup_eq_none_iff]
    intro p hp
    obtain ⟨q, hq, rfl⟩ := List.mem_map.mp (List.mem_reverse.mp hp)
    simpa using (hkey q hq).symm
  rintro (hpassword | hcrt)
  · simp [hnone "password" fun p hp => (h p hp).1] at hpassword
  · simp [hnone "user.crt" fun p hp => (h p hp).2] at hcrt

theorem noCredential_of_callReq {cluster : String} {r : Req} (h : CallReq which cluster r) :
    NoCredential r := by
  have hkeys : ∀ {data : List (String × Pem)}, (∀ e ∈ data, e.1 ∈ caKeys) →
      ∀ e ∈ data, e.1 ≠ "password" ∧ e.1 ≠ "user.crt" := by
    intro data hdata e he
    have hnot : "password" ∉ caKeys ∧ "user.crt" ∉ caKeys := by decide
    exact ⟨fun heq => hnot.1 (heq ▸ hdata e he), fun heq => hnot.2 (heq ▸ hdata e he)⟩
  intro n cfg hr
  cases h with
  | getSecret => cases hr
  | draw => cases hr
  | patchKey hdata =>
    cases hr
    exact not_isCredential_renderCaSecret _ (hkeys hdata)
  | patchCert hdata =>
    cases hr
    exact not_isCredential_renderCaSecret _ (hkeys hdata)

end Calls

/-! ## Passes -/

section Pass

variable {lib : CaLib} {pass : UserPass}

theorem OwnReq.credentialOf {user : KafkaUser} {r : Req} (h : OwnReq user r) :
    CredentialOf user r := by
  intro n cfg hr _
  subst hr
  exact h.writes rfl

theorem UserReq.credentialOf {user : KafkaUser} {key : Pem} {r : Req} {auth : TlsAuth}
    (hauth : user.authentication = .tls auth) (h : UserReq lib user.name key r) :
    CredentialOf user r := by
  intro n cfg hr _
  subst hr
  exact ⟨h.secretName? rfl, by simp [hauth]⟩

/-- In every run of a pass, the credentials go to the Secret of the user. -/
theorem reconcileInner_credentialOf (hlib : lib.Lawful) (w : World) :
    Prog.Sat answer (fun _ r _ => CredentialOf pass.user r) (fun _ _ => True)
      (reconcileInner lib pass) w := by
  refine reconcileInner_sat (I := fun _ => True) (J := fun _ _ => True)
    (fun a r b hr _ _ => ⟨hr.credentialOf, trivial⟩) (fun kafka now w _ _ => ?_)
    (fun out auth hauth w _ => ?_) trivial
  · refine ((reconcileCa_makes false false false now).sat w).mono (fun a r b hr n cfg h hcfg => ?_)
      fun x v _ => ?_
    · exact absurd hcfg (noCredential_of_callReq hr.1 n cfg h)
    · cases x with
      | ok out => trivial
      | error e => trivial
  · refine ((ensureUserCertSecret_makes hlib _ _ _ _).sat w).mono
      (fun a r b hr => hr.1.credentialOf hauth) fun _ _ _ => trivial

end Pass

/-! ## A pass that writes -/

/-- A request that is carried out, with its answer. -/
def good (r : Req) (w : World) : Resp r × World := answer r {} w

def emptyWorld : World := ⟨∅, [], [], [], 0⟩

def plainUser (name cluster : String) (auth : Authentication) : KafkaUser where
  name
  uid := some "uid"
  labels := BTreeMap.ofList [("krabka.io/cluster", cluster)]
  deleting := false
  authentication := auth

def plainPass (name cluster : String) (auth : Authentication) : UserPass where
  user := plainUser name cluster auth
  kafka := some (.minimal cluster)
  token := some ⟨"id".toList, .text "hmac".toList, "aG1hYw==".toList⟩

section Writes

variable {obj : KafkaUser}

theorem complete_getOpt (n : String) (w : World) :
    (getOpt n).complete good w = (.ok (w.secret? n), w) := rfl

theorem secret?_emptyWorld (n : String) : emptyWorld.secret? n = none := by
  simp [emptyWorld, World.secret?]

/-- The last step of the programs that write a credential. -/
theorem mem_asks_applySecret {α : Type} (n : String) (cfg : SecretConfig) (f : Unit → Op α)
    (w : World) : Req.applySecret n cfg ∈ (applySecret n cfg >>= f).asks good w :=
  Prog.asks_subset_bind _ _ _ List.mem_cons_self

theorem asks_ensurePasswordSecret (lib : CaLib) {uid : String} (huid : obj.uid = some uid)
    (lenBytes : Nat) : ∃ cfg, IsCredential cfg ∧
      .applySecret obj.name cfg ∈ (ensurePasswordSecret lib obj lenBytes).asks good emptyWorld := by
  have hget : (getOpt obj.name).complete good emptyWorld = (.ok none, emptyWorld) := by
    rw [complete_getOpt, secret?_emptyWorld]
  have hdraw : draw.complete good emptyWorld = (.ok ⟨0, 0⟩, { emptyWorld with draws := 1 }) := rfl
  refine ⟨⟨∅, BTreeMap.ofList [("password", .text (lib.randomPassword lenBytes ⟨0, 0⟩)),
    ("sasl.jaas.config", .text (jaasText obj.name (lib.randomPassword lenBytes ⟨0, 0⟩)))]⟩,
    .inl ?_, ?_⟩
  · rw [BTreeMap.getElem?_ofList]
    rfl
  · unfold ensurePasswordSecret
    rw [Prog.asks_bind_of_ok hget]
    apply List.mem_append_right
    dsimp only [Option.bind_eq_bind, Option.bind_none]
    rw [Prog.asks_bind_of_ok hdraw, huid]
    apply List.mem_append_right
    exact mem_asks_applySecret _ _ _ _

theorem asks_ensureTokenSecret {uid : String} (huid : obj.uid = some uid) (token : DelegationToken) :
    ∃ cfg, IsCredential cfg ∧
      .applySecret obj.name cfg ∈ (ensureTokenSecret obj (some token)).asks good emptyWorld := by
  have heffect : (effect .brokerAdmin).complete good emptyWorld = (.ok (), emptyWorld) := rfl
  refine ⟨⟨∅, tokenData token⟩, .inl ?_, ?_⟩
  · rw [tokenData, BTreeMap.getElem?_ofList]
    rfl
  · unfold ensureTokenSecret
    rw [Prog.asks_bind_of_ok heffect, huid]
    apply List.mem_append_right
    exact List.mem_cons_self

/-- The certificate of a new CA, in the sample library. -/
def newCert : Pem := SampleLib.cert 1 1 0 (SampleLib.expiry 365 ⟨0, 0⟩)

theorem complete_readNotAfter (w : World) :
    (readNotAfter SampleLib.lib newCert).complete good w = (.ok (toString (31536000 : Int)), w) := by
  have hcert : SampleLib.lib.certNotAfter newCert = .ok 31536000 :=
    SampleLib.certNotAfter_cert 1 1 0 31536000
  unfold readNotAfter
  rw [hcert]
  rfl

/-- The first call on the clients CA of a cluster creates it. -/
theorem complete_reconcileCa (cluster : String) : ∃ out w,
    (reconcileCa SampleLib.lib (.minimal cluster) .clients false false false 0).complete good
      emptyWorld = (.ok out, w) ∧ ∀ n, w.readPem n "user.crt" = none := by
  have hget : ∀ n, (getOpt n).complete good emptyWorld = (.ok none, emptyWorld) := by
    intro n
    rw [complete_getOpt, secret?_emptyWorld]
  have hdraw : draw.complete good emptyWorld = (.ok ⟨0, 0⟩, { emptyWorld with draws := 1 }) := rfl
  have hmaterial : ∀ w, (orFail .ca (SampleLib.lib.generateCa .clients
      ((Kafka.minimal cluster).name ++ WhichCa.clients.cnSuffix)
      (WhichCa.clients.spec (.minimal cluster)).validityDays ⟨0, 0⟩)).complete good w =
        (.ok ⟨newCert, SampleLib.keyPem 1⟩, w) := fun w => rfl
  have hpatch : ∀ n data annotations w,
      (patchSecret (.minimal cluster) n data annotations).complete good w =
        (.ok (), w.applySecret n (renderCaSecret data annotations)) := fun n data annotations w => rfl
  have hcreate : ∃ out, (createCa SampleLib.lib (.minimal cluster) .clients).complete good emptyWorld =
      (.ok out, (({ emptyWorld with draws := 1 } : World).applySecret
        (WhichCa.clients.keyName cluster)
        (renderCaSecret [("ca.key", SampleLib.keyPem 1)] [(annKeyGeneration, "0")])).applySecret
          (WhichCa.clients.certName cluster)
          (renderCaSecret [("ca.crt", newCert)] [(annCertGeneration, "0")])) := by
    unfold createCa
    rw [Prog.complete_bind_of_ok hdraw, Prog.complete_bind_of_ok (hmaterial _),
      Prog.complete_bind_of_ok (hpatch _ _ _ _), Prog.complete_bind_of_ok (hpatch _ _ _ _),
      Prog.complete_bind_of_ok (complete_readNotAfter _)]
    exact ⟨_, rfl⟩
  obtain ⟨out, hout⟩ := hcreate
  unfold reconcileCa
  rw [Prog.complete_bind_of_ok (hget _), Prog.complete_bind_of_ok (hget _)]
  refine ⟨out, _, hout, fun n => ?_⟩
  have hrender : ∀ data annotations, (∀ p ∈ data, p.1 ≠ "password" ∧ p.1 ≠ "user.crt") →
      (renderCaSecret data annotations).data["user.crt"]? = none := by
    intro data annotations h
    by_contra hsome
    exact not_isCredential_renderCaSecret annotations h (.inr (Option.isSome_iff_ne_none.mpr hsome))
  by_contra hsome
  obtain ⟨pem, hpem⟩ := Option.ne_none_iff_exists'.mp hsome
  have hfirst := World.readPem_applySecret_of_none (hrender _ _ (by simp)) hpem
  have hempty := World.readPem_applySecret_of_none (hrender _ _ (by simp)) hfirst
  rw [World.readPem, World.secret?_draws, secret?_emptyWorld] at hempty
  cases hempty

theorem asks_issueUser {uid : String} (huid : obj.uid = some uid) (ca : CaMaterial)
    (trustBundlePem : Pem) (auth : TlsAuth) (w : World) : ∃ cfg, IsCredential cfg ∧
      .applySecret obj.name cfg ∈ (issueUser SampleLib.lib obj ca trustBundlePem auth).asks good w := by
  obtain ⟨cert, hcert⟩ : ∃ cert, SampleLib.lib.issueUserCert ca.certPem ca.keyPem obj.name
      (auth.validityDays.getD defaultValidityDays) ⟨w.draws, 0⟩ = .ok cert := ⟨_, rfl⟩
  have hdraw : draw.complete good w = (.ok ⟨w.draws, 0⟩, { w with draws := w.draws + 1 }) := rfl
  have hissue : ∀ v, (orFail .ca (.ok cert) : Op UserCert).complete good v = (.ok cert, v) :=
    fun v => rfl
  refine ⟨⟨∅, identityData cert trustBundlePem⟩, .inr ?_, ?_⟩
  · rw [identityData, BTreeMap.getElem?_ofList]
    rfl
  · unfold issueUser
    rw [Prog.asks_bind_of_ok hdraw, hcert, Prog.asks_bind_of_ok (hissue _), huid]
    apply List.mem_append_right
    apply List.mem_append_right
    exact mem_asks_applySecret _ _ _ _

/-- A stored Secret without a certificate of a user is replaced, whatever else it holds. -/
theorem asks_ensureUserCertSecret {uid : String} (huid : obj.uid = some uid) (ca : CaMaterial)
    (trustBundlePem : Pem) (auth : TlsAuth) {w : World} (hnone : ∀ n, w.readPem n "user.crt" = none) :
    ∃ cfg, IsCredential cfg ∧ .applySecret obj.name cfg ∈
      (ensureUserCertSecret SampleLib.lib obj ca trustBundlePem auth).asks good w := by
  obtain ⟨cfg, hcfg, hasked⟩ := asks_issueUser huid ca trustBundlePem auth w
  refine ⟨cfg, hcfg, ?_⟩
  unfold ensureUserCertSecret
  rw [Prog.asks_bind_of_ok (complete_getOpt obj.name w)]
  apply List.mem_append_right
  have hread := hnone obj.name
  rw [World.readPem] at hread
  cases hsecret : w.secret? obj.name with
  | none => exact hasked
  | some existing =>
    rw [hsecret] at hread
    have hnotAfter : readUserCertNotAfter SampleLib.lib existing = none := by
      rw [readUserCertNotAfter, show existing.readPemKey "user.crt" = none from hread]
      rfl
    dsimp only
    rw [hnotAfter]
    exact hasked

theorem asks_reconcileUserCertSecret {uid : String} (huid : obj.uid = some uid) (cluster : String)
    (auth : TlsAuth) : ∃ cfg, IsCredential cfg ∧ .applySecret obj.name cfg ∈
      (reconcileUserCertSecret SampleLib.lib obj (.minimal cluster) auth).asks good emptyWorld := by
  obtain ⟨out, w, hca, hnone⟩ := complete_reconcileCa cluster
  obtain ⟨cfg, hcfg, hasked⟩ :=
    asks_ensureUserCertSecret huid out.signingMaterial out.trustBundlePem auth hnone
  have hnow : now.complete good emptyWorld = (.ok 0, emptyWorld) := rfl
  refine ⟨cfg, hcfg, ?_⟩
  unfold reconcileUserCertSecret
  rw [Prog.asks_bind_of_ok hnow, Prog.asks_bind_of_ok hca]
  exact List.mem_append_right _ (List.mem_append_right _ hasked)

end Writes

/-- Every authentication with a Secret has a pass that writes it. -/
theorem asks_reconcileInner {auth : Authentication} (hauth : auth ≠ .tlsExternal)
    (h : validateReservedIdentity name cluster = .ok ()) : ∃ cfg, IsCredential cfg ∧
      .applySecret name cfg ∈
        (reconcileInner SampleLib.lib (plainPass name cluster auth)).asks good emptyWorld := by
  have hprovision : ∃ cfg, IsCredential cfg ∧ .applySecret name cfg ∈
      (provision SampleLib.lib (plainPass name cluster auth) (.minimal cluster)).asks good emptyWorld := by
    have hattempt : ∀ {α : Type} {p : Op α} {f : Except ReconcileError α → Op Bool} {cfg},
        Req.applySecret name cfg ∈ p.asks good emptyWorld →
          Req.applySecret name cfg ∈ (p.attempt >>= f).asks good emptyWorld := by
      intro α p f cfg hasked
      apply Prog.asks_subset_bind
      rwa [Prog.asks_attempt]
    have huid : ∀ auth, (plainUser name cluster auth).uid = some "uid" := fun auth => rfl
    cases auth with
    | tlsExternal => exact absurd rfl hauth
    | scramSha512 auth =>
      obtain ⟨cfg, hcfg, hasked⟩ := asks_ensurePasswordSecret SampleLib.lib
        (huid (.scramSha512 auth)) (auth.passwordLength.getD 32)
      exact ⟨cfg, hcfg, hattempt hasked⟩
    | scramSha256 auth =>
      obtain ⟨cfg, hcfg, hasked⟩ := asks_ensurePasswordSecret SampleLib.lib
        (huid (.scramSha256 auth)) (auth.passwordLength.getD 32)
      exact ⟨cfg, hcfg, hattempt hasked⟩
    | tls auth =>
      obtain ⟨cfg, hcfg, hasked⟩ := asks_reconcileUserCertSecret (huid (.tls auth)) cluster
        auth
      exact ⟨cfg, hcfg, hattempt hasked⟩
    | delegationToken auth =>
      obtain ⟨cfg, hcfg, hasked⟩ := asks_ensureTokenSecret (huid (.delegationToken auth))
        ⟨"id".toList, .text "hmac".toList, "aG1hYw==".toList⟩
      exact ⟨cfg, hcfg, Prog.asks_subset_bind _ _ _ hasked⟩
  obtain ⟨cfg, hcfg, hasked⟩ := hprovision
  refine ⟨cfg, hcfg, ?_⟩
  have hcluster : (plainPass name cluster auth).user.cluster? = some cluster := by
    simp [plainPass, plainUser, KafkaUser.cluster?, BTreeMap.getElem?_ofList]
  unfold reconcileInner
  rw [hcluster]
  dsimp only [plainPass, plainUser] at hasked ⊢
  simp only [Bool.false_eq_true, ↓reduceIte, h, Bool.not_true, Bool.or_false]
  exact Prog.asks_subset_bind _ _ _ hasked

/-! ## The result -/

/-- No pass over a valid user of this name and authentication applies a credential to a
    managed Secret, whatever the stores hold and the calls answer. -/
def SparesManaged (clusters gateways : List String) (name : String) (auth : Authentication) : Prop :=
  ∀ lib : CaLib, lib.Lawful → ∀ pass : UserPass, pass.user.name = name →
    pass.user.authentication = auth →
    (∀ cluster, pass.user.cluster? = some cluster → validateReservedIdentity name cluster = .ok ()) →
    ∀ w cs, ∀ st ∈ (reconcileInner lib pass).trace answer cs w,
      ∀ n cfg, st.req = .applySecret n cfg → IsCredential cfg → n ∉ managedSecrets clusters gateways

section Result

variable {auth : Authentication}

theorem sparesManaged_of (hor : auth = .tlsExternal ∨ name ∉ managedSecrets clusters gateways) :
    SparesManaged clusters gateways name auth := by
  intro lib hlib pass hname hauth _ w cs st hst n cfg hreq hcfg hmanaged
  obtain ⟨rfl, hsecret⟩ := (reconcileInner_credentialOf hlib w).trace cs st hst n cfg hreq hcfg
  rcases hor with hexternal | hfree
  · exact hsecret (hauth.trans hexternal)
  · exact hfree (hname ▸ hmanaged)

theorem not_sparesManaged (h : validateReservedIdentity name cluster = .ok ())
    (hauth : auth ≠ .tlsExternal) (hname : name ∈ managedSecrets clusters gateways) :
    ¬ SparesManaged clusters gateways name auth := by
  intro hspares
  obtain ⟨cfg, hcfg, hasked⟩ := asks_reconcileInner hauth h
  have hgood : ∀ r (c : Choice) w, c = {} → answer r c w = good r w := fun r c w hc => hc ▸ rfl
  obtain ⟨n, htrace⟩ := Prog.exists_trace_eq_asks hgood
    (reconcileInner SampleLib.lib (plainPass name cluster auth)) emptyWorld
  rw [← htrace (List.replicate n {}) (fun c hc => List.eq_of_mem_replicate hc) (by simp)] at hasked
  obtain ⟨st, hst, hreq⟩ := List.mem_map.mp hasked
  have hcluster : ∀ c, (plainPass name cluster auth).user.cluster? = some c →
      validateReservedIdentity name c = .ok () := by
    intro c hc
    simp only [plainPass, plainUser, KafkaUser.cluster?, BTreeMap.getElem?_ofList] at hc
    cases hc
    exact h
  exact hspares SampleLib.lib SampleLib.lib_lawful _ rfl rfl hcluster emptyWorld _ st hst name cfg
    hreq hcfg hname

/-- The managed Secrets are safe from a user exactly when it has no Secret, or its name is
    none of those that the check of reserved names forgets. -/
theorem sparesManaged_iff (h : validateReservedIdentity name cluster = .ok ()) :
    SparesManaged clusters gateways name auth ↔
      (auth = .tlsExternal ∨ ¬ UnguardedName clusters gateways name) := by
  rw [← mem_managedSecrets_iff h]
  constructor
  · intro hspares
    by_contra hcontra
    obtain ⟨hauth, hmanaged⟩ := not_or.mp hcontra
    exact not_sparesManaged h hauth (not_not.mp hmanaged) hspares
  · exact sparesManaged_of

end Result

theorem alice_sparesManaged :
    SparesManaged ["demo"] ["gw"] "alice" (.scramSha512 ⟨none, none⟩) :=
  (sparesManaged_iff (show validateReservedIdentity "alice" "demo" = .ok () by decide)).mpr
    (.inr (by decide))

/-- A namespace with the key of the cluster CA. -/
def keyWorld : World :=
  emptyWorld.applySecret "demo-cluster-ca"
    (renderCaSecret [("ca.key", SampleLib.keyPem 1)] [(annKeyGeneration, "0")])

/-- A user with the name of the CA Secret: its password replaces the key of the CA. -/
theorem user_overwrites_ca_key :
    let auth : Authentication := .scramSha512 ⟨none, none⟩
    let last := ((reconcileInner SampleLib.lib (plainPass "demo-cluster-ca" "demo" auth)).run answer
      (List.replicate 5 {}) keyWorld).2
    ¬ SparesManaged ["demo"] [] "demo-cluster-ca" auth ∧
      keyWorld.readPem "demo-cluster-ca" "ca.key" = some (SampleLib.keyPem 1) ∧
      last.readPem "demo-cluster-ca" "ca.key" = none ∧
      (last.readPem "demo-cluster-ca" "password").isSome :=
  ⟨not_sparesManaged
      (show validateReservedIdentity "demo-cluster-ca" "demo" = .ok () by decide)
      (by decide) (by decide),
    by decide +kernel⟩

end User
