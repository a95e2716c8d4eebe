-- SUMMARY: The Secret of a user through changes of its authentication: which login it bears, and when a pass leaves the login of the type that the user has.
import KrabkaOperator.Access.Continuity
import KrabkaOperator.Access.Faults
import KrabkaOperator.ClusterCa.Requests
import KrabkaOperator.User.Requests

/-!
# Logins of a user

The passwords and the tokens of a user go to one Secret. A pass with a password keeps the entry
that it finds there, a pass with a token replaces all entries of the login, and an apply without
them removes them.
-/

namespace Access

open Kube Crd Operator Admin ClusterCa

/-! ## The login in a Secret -/

/-- What the Secret of a user bears. -/
inductive Login where
  | vacant
  | password (text : List Char)
  | token (t : DelegationToken)

def loginKeys : List String := ["token-id", "hmac", "password", "sasl.jaas.config"]

def passwordData (name : String) (password : List Char) : BTreeMap ByteString :=
  BTreeMap.ofList [("password", .text password),
    ("sasl.jaas.config", .text (User.jaasText name password))]

/-- The data of the stored Secret of a name. -/
def secretFields (w : Operator.World) (name : String) : Fields ByteString :=
  ((w.secret? name).getD Secret.empty).data

section Bears

variable (lib : Lib) (name : String)

def Login.data : Login → BTreeMap ByteString
  | .vacant => ∅
  | .password text => passwordData name text
  | .token t => User.tokenData (secretToken lib t)

/-- The operator alone has set the entries of this login, and there are no others. -/
def Bears (login : Login) (w : Operator.World) : Prop :=
  ∀ key ∈ loginKeys,
    (secretFields w name)[key]? = ((login.data lib name)[key]?).map fun v => ⟨v, [fieldManager]⟩

end Bears

variable {lib : Lib} {name : String} {login login' : Login} {s : Operator.World}

theorem Bears.congr {s' : Operator.World} (h : Bears lib name login s)
    (hsame : s'.secret? name = s.secret? name) : Bears lib name login s' := by
  intro key hkey
  rw [secretFields, hsame]
  exact h key hkey

theorem bears_vacant (h : s.secret? name = none) : Bears lib name .vacant s := by
  intro key _
  rw [secretFields, h]
  simp [Secret.empty, Login.data]

theorem Bears.value? (h : Bears lib name login s) {key : String} (hkey : key ∈ loginKeys) :
    (secretFields s name).value? key = (login.data lib name)[key]? := by
  rw [Fields.value?, h key hkey, Option.map_map]
  exact Option.map_id_fun' ▸ rfl

/-- A readable entry of the Secret. -/
theorem readPem_eq (s : Operator.World) (name key : String) :
    s.readPem name key = (secretFields s name).value? key >>= ByteString.utf8? := by
  unfold World.readPem secretFields
  cases s.secret? name with
  | none => simp [Secret.empty]
  | some secret => rfl

theorem Bears.readPem (h : Bears lib name login s) {key : String} (hkey : key ∈ loginKeys) :
    s.readPem name key = (login.data lib name)[key]? >>= ByteString.utf8? := by
  rw [readPem_eq, h.value? hkey]

/-! ## Writes -/

/-- An apply leaves the login that it lists. -/
theorem Bears.apply {cfg : SecretConfig} (h : Bears lib name login s)
    (hcfg : ∀ key ∈ loginKeys, cfg.data[key]? = (login'.data lib name)[key]?) :
    Bears lib name login' (s.applySecret name cfg) := by
  intro key hkey
  have howned : Fields.OwnedBy fieldManager key (secretFields s name) := by
    intro o ho
    rw [h key hkey, Option.map_eq_some_iff] at ho
    obtain ⟨v, -, rfl⟩ := ho
    rfl
  have hfields : secretFields (s.applySecret name cfg) name =
      Fields.apply fieldManager cfg.data (secretFields s name) := by
    rw [secretFields, World.secret?_applySecret_self]
    rfl
  rw [hfields, Fields.getElem?_apply_of_ownedBy howned, hcfg key hkey]

/-- The requests that write no entry of a login. -/
def Plain : Operator.Req → Prop
  | .applySecret _ cfg => ∀ key ∈ loginKeys, cfg.data[key]? = none
  | .mergeSecret _ cfg => ∀ key ∈ loginKeys, cfg.data[key]? = none
  | .createSecret _ cfg => ∀ key ∈ loginKeys, cfg.data[key]? = none
  | _ => True

/-- A Secret of this login, or of none any more. -/
def Clings (lib : Lib) (name : String) (login : Login) (s : Operator.World) : Prop :=
  Bears lib name login s ∨ Bears lib name .vacant s

theorem Clings.congr {s' : Operator.World} (h : Clings lib name login s)
    (hsame : s'.secret? name = s.secret? name) : Clings lib name login s' :=
  h.imp (fun h => h.congr hsame) fun h => h.congr hsame

theorem Clings.apply {n : String} {cfg : SecretConfig} (h : Clings lib name login s)
    (hcfg : ∀ key ∈ loginKeys, cfg.data[key]? = none) :
    Clings lib name login (s.applySecret n cfg) := by
  by_cases hn : n = name
  · subst hn
    have hvacant : ∀ key ∈ loginKeys, cfg.data[key]? = (Login.vacant.data lib n)[key]? :=
      fun key hkey => (hcfg key hkey).trans (by simp [Login.data])
    exact .inr (h.elim (fun h => h.apply hvacant) fun h => h.apply hvacant)
  · exact h.congr (World.secret?_applySecret_of_ne hn)

theorem Bears.merge {secret : Secret} {cfg : SecretConfig} {manager : String}
    (h : Bears lib name login s) (hsecret : (s.secret? name).getD Secret.empty = secret)
    (hcfg : ∀ key ∈ loginKeys, cfg.data[key]? = none) :
    Bears lib name login (s.setSecret name (secret.merge manager cfg)) := by
  intro key hkey
  rw [secretFields, World.secret?_setSecret_self, Option.getD_some, Secret.merge,
    Fields.getElem?_merge_of_none (hcfg key hkey), ← hsecret]
  exact h key hkey

theorem Clings.merge {n : String} {secret : Secret} {cfg : SecretConfig} {manager : String}
    (h : Clings lib name login s) (hsecret : (s.secret? n).getD Secret.empty = secret)
    (hcfg : ∀ key ∈ loginKeys, cfg.data[key]? = none) :
    Clings lib name login (s.setSecret n (secret.merge manager cfg)) := by
  by_cases hn : n = name
  · subst hn
    exact h.imp (fun h => h.merge hsecret hcfg) fun h => h.merge hsecret hcfg
  · exact h.congr (World.secret?_setSecret_of_ne hn)

theorem Clings.answered {r : Operator.Req} {v : Operator.World} (hr : Plain r) (hv : Answered s r v)
    (h : Clings lib name login s) : Clings lib name login v := by
  cases hv with
  | same hr => exact h
  | applied => exact h.apply hr
  | merged hsecret => exact h.merge (by rw [hsecret]; rfl) hr
  | created hsecret => exact h.merge (by rw [hsecret]; rfl) hr
  | labelled => exact h.congr rfl
  | drawn => exact h.congr rfl

/-! ## Certificates -/

theorem identityData_loginKeys {cert : UserCert} {trustBundlePem : Pem} {key : String}
    (hkey : key ∈ loginKeys) : (User.identityData cert trustBundlePem)[key]? = none := by
  apply User.identityData_of_notMem
  revert key
  decide

theorem trustData_loginKeys {trustBundlePem : Pem} {key : String} (hkey : key ∈ loginKeys) :
    (BTreeMap.ofList [("ca.crt", ByteString.text trustBundlePem)])[key]? = none := by
  apply User.trustData_of_ne
  revert key
  decide

theorem issueUser_plain (ca : CaLib) (obj : Crd.KafkaUser) (material : CaMaterial)
    (trustBundlePem : Pem) (auth : TlsAuth) :
    (User.issueUser ca obj material trustBundlePem auth).Makes Plain := by
  apply (makes_draw trivial).bind
  intro d
  apply makes_orFail
  intro cert _
  cases obj.uid with
  | none => trivial
  | some uid => exact (makes_applySecret fun _ => identityData_loginKeys).bind fun _ => trivial

theorem ensureUserCertSecret_plain (ca : CaLib) (obj : Crd.KafkaUser) (material : CaMaterial)
    (trustBundlePem : Pem) (auth : TlsAuth) :
    (User.ensureUserCertSecret ca obj material trustBundlePem auth).Makes Plain := by
  have hissue := issueUser_plain ca obj material trustBundlePem auth
  apply (makes_getOpt trivial).bind
  intro existing
  cases existing with
  | none => exact hissue
  | some existing =>
    dsimp only
    split
    · exact hissue
    · apply (makes_now trivial).bind
      intro now
      apply Prog.makes_ite
      · exact User.refreshTrust_makes fun _ => trustData_loginKeys
      · exact hissue

/-- The patches of a CA write no login. -/
theorem plain_of_callReq {which : WhichCa} {cluster : String} {r : Operator.Req}
    (h : CallReq which cluster r) : Plain r := by
  have hpatch {data : List (String × Pem)} {annotations : List (String × String)}
      (hdata : ∀ e ∈ data, e.1 ∈ caKeys) :
      ∀ key ∈ loginKeys, (renderCaSecret data annotations).data[key]? = none := by
    intro key hkey
    apply renderCaSecret_data_of_notMem hdata
    revert key
    decide
  cases h with
  | getSecret => trivial
  | draw => trivial
  | patchKey hdata => exact hpatch hdata
  | patchCert hdata => exact hpatch hdata

theorem reconcileUserCertSecret_plain (ca : CaLib) (obj : Crd.KafkaUser) (kafka : Kafka)
    (auth : TlsAuth) : (User.reconcileUserCertSecret ca obj kafka auth).Makes Plain := by
  apply (makes_now trivial).bind
  intro now
  apply ((reconcileCa_makes false false false now).mono fun _ => plain_of_callReq).bind
  intro material
  exact ensureUserCertSecret_plain ca obj _ _ _

/-! ## Passwords -/

/-- The entry `password` of a Secret with this login. -/
def Login.text? (lib : Lib) : Login → Option (List Char)
  | .vacant => none
  | .password text => some text
  | .token t => some (lib.base64 t.hmac)

theorem Bears.password (h : Bears lib name login s) : s.readPem name "password" = login.text? lib := by
  rw [h.readPem (by decide)]
  cases login with
  | vacant => simp [Login.data, Login.text?]
  | password text =>
    rw [Login.data, passwordData, BTreeMap.getElem?_ofList]
    rfl
  | token t =>
    rw [Login.data, User.tokenData, BTreeMap.getElem?_ofList]
    rfl

/-- The login of a pass with a password: the text that is there, or else a new one. -/
inductive Taken (lib : Lib) (login : Login) : Login → Prop
  | kept (h : login ≠ .vacant) : Taken lib login login
  | drawn (h : login = .vacant) (len : Nat) (d : Draw) :
    Taken lib login (.password (lib.ca.randomPassword len d))

section Store

variable {α : Type} (brokers : Brokers BrokerState)

/-- The API server carries out a request to the store. -/
def answerStore (clock : Int) (r : Operator.Req) (s : Operator.World) :
    Operator.Resp r × Operator.World :=
  Operator.answer r { clock := clock } s

theorem complete_onStore (p : Operator.Op α) (w : World BrokerState) :
    (onStore p).complete (answer brokers) w =
      ((p.complete (answerStore (w.clock / 1000)) w.store).1,
        { w with store := (p.complete (answerStore (w.clock / 1000)) w.store).2 }) := by
  induction p generalizing w with
  | ret a => rfl
  | fail e => rfl
  | call r k ih => exact ih _ _

end Store

theorem complete_ensurePasswordSecret {obj : Crd.KafkaUser} {len : Nat} {clock : Int}
    {password : List Char} {s' : Operator.World} (h : Bears lib obj.name login s)
    (hend : (User.ensurePasswordSecret lib.ca obj len).complete (answerStore clock) s =
      (.ok password, s')) :
    ∃ login', Taken lib login login' ∧ login'.text? lib = some password ∧
      Bears lib obj.name login' s' := by
  have hget : (getOpt obj.name).complete (answerStore clock) s = (.ok (s.secret? obj.name), s) := rfl
  have hread : (s.secret? obj.name >>= User.readPassword) = login.text? lib := h.password
  unfold User.ensurePasswordSecret at hend
  rw [Prog.complete_bind_of_ok hget, hread] at hend
  cases htext : login.text? lib with
  | some text =>
    rw [htext] at hend
    cases hend
    refine ⟨login, .kept ?_, htext, h⟩
    rintro rfl
    cases htext
  | none =>
    have hvacant : login = .vacant := by
      cases login with
      | vacant => rfl
      | password text => cases htext
      | token t => cases htext
    have hdraw : draw.complete (answerStore clock) s =
        (.ok ⟨s.draws, clock⟩, { s with draws := s.draws + 1 }) := rfl
    rw [htext] at hend
    dsimp only at hend
    rw [Prog.complete_bind_of_ok hdraw] at hend
    cases huid : obj.uid with
    | none =>
      rw [huid] at hend
      cases hend
    | some uid =>
      rw [huid] at hend
      cases hend
      refine ⟨_, .drawn hvacant len ⟨s.draws, clock⟩, rfl, ?_⟩
      exact Bears.apply (h.congr rfl) fun _ _ => rfl

/-! ## Credentials -/

variable {cfg : Config} {bc : BrokerConfig} {w v : World BrokerState} {obj : KafkaUser}
  {bootstrap : String} {tlsNotAfter : Option String} {token : Option TokenAccessState}

/-- The password of the Secret is the password on the brokers. -/
theorem complete_provisionScram_login {sha512 : Bool} {auth : ScramAuth}
    (h : Bears lib obj.name login w.store)
    (hend : (provisionScram lib cfg obj bootstrap sha512 auth).complete (answer (healthy bc)) w =
      (.ok (.ready tlsNotAfter token), v)) :
    ∃ login' password iterations, Taken lib login login' ∧ login'.text? lib = some password ∧
      Bears lib obj.name login' v.store ∧
      v.brokers = w.brokers.alterScram sha512 [⟨obj.name, password, iterations⟩] [] := by
  unfold provisionScram at hend
  rw [Prog.complete_bind_of_ok (Prog.complete_attempt _ w), complete_onStore] at hend
  cases hsecret : (User.ensurePasswordSecret lib.ca obj.toKafkaUser
      (auth.passwordLength.getD 32)).complete (answerStore (w.clock / 1000)) w.store with
  | mk result s' =>
    rw [hsecret] at hend
    cases result with
    | error e => cases hend
    | ok password =>
      obtain ⟨login', htaken, htext, hbears⟩ := complete_ensurePasswordSecret h hsecret
      cases hend
      exact ⟨login', password, _, htaken, htext, hbears, rfl⟩

/-- A pass with certificates keeps the login, or removes it. -/
theorem complete_provisionTls_login {parent : Parent} {auth : TlsAuth}
    (h : Bears lib obj.name login w.store)
    (hend : (provisionTls lib cfg obj parent auth).complete (answer (healthy bc)) w =
      (.ok (.ready tlsNotAfter token), v)) :
    Clings lib obj.name login v.store ∧ v.brokers = w.brokers := by
  unfold provisionTls at hend
  rw [Prog.complete_bind_of_ok (Prog.complete_attempt _ w), complete_onStore] at hend
  have hstore : Clings lib obj.name login ((User.reconcileUserCertSecret lib.ca obj.toKafkaUser
      parent.kafka auth).complete (answerStore (w.clock / 1000)) w.store).2 :=
    (reconcileUserCertSecret_plain lib.ca obj.toKafkaUser parent.kafka auth).complete_invariant
      (fun a r hr ha => ha.answered hr (answered r _ a)) (.inl h)
  cases hsecret : (User.reconcileUserCertSecret lib.ca obj.toKafkaUser parent.kafka auth).complete
      (answerStore (w.clock / 1000)) w.store with
  | mk result s' =>
    rw [hsecret] at hend hstore
    cases result with
    | error e => cases hend
    | ok status =>
      cases hend
      exact ⟨hstore, rfl⟩

/-! ## Tokens -/

section Tokens

variable {auth : DelegationTokenAuth}

/-- A step that hands on a live token of the owner, or stops the pass. -/
def Driven (name : String) (w v : World BrokerState) : TokenStep → Prop
  | .live t _ => t ∈ v.brokers.tokens ∧ t.Live name w.clock ∧ v.store = w.store
  | .done out => out.conditions = none

theorem driven_stop {step : TokenStep} {u : World BrokerState} {e : AdminError} {op : String}
    {prior : Option (List Condition)} {tokenLive : Bool}
    (hend : (onAdminError cfg e op prior tokenLive >>= fun out => pure (TokenStep.done out)).complete
      (answer (healthy bc)) u = (.ok step, v)) : Driven name w v step := by
  cases hend
  rfl

theorem driven_issueStep (hlifetime : 0 ≤ newLifetime bc auth) {pending : List Condition}
    {step : TokenStep}
    (hend : (issueStep lib cfg name auth pending).complete (answer (healthy bc)) w = (.ok step, v)) :
    Driven name w v step := by
  unfold issueStep issueNewToken at hend
  cases hrenewers : auth.renewers.mapM lib.parsePrincipal with
  | error message =>
    rw [hrenewers] at hend
    cases hend
    rfl
  | ok renewers =>
    rw [hrenewers] at hend
    cases hend
    refine ⟨List.mem_append_right _ (List.mem_singleton.mpr rfl), ⟨rfl, ?_⟩, rfl⟩
    rw [expiry_newToken]
    omega

/-- What the pass relies on: the spec is valid, and the settings of the brokers are. -/
structure Lasts (bc : BrokerConfig) (auth : DelegationTokenAuth) : Prop where
  before : 0 ≤ renewBefore auth
  lifetime : 0 ≤ newLifetime bc auth
  period : 0 ≤ bc.renewPeriodMs

/-- A token that is left alone is not due yet. -/
theorem renewBefore_lt_of_noOp {print : KafkaPrincipal → String} {t : DelegationToken} {nowMs : Int}
    (h : decide print auth (some t) nowMs = .noOp) :
    renewBefore auth < millis (t.expiryTimestampMs - nowMs) := by
  unfold decide at h
  dsimp only at h
  split at h
  · cases h
  · split at h
    · cases h
    · next hlate => exact not_le.mp hlate

theorem driven_driveExisting (hlasts : Lasts bc auth) (hdistinct : w.brokers.Distinct)
    {t : DelegationToken} (hmem : t ∈ w.brokers.tokens) (howner : t.owner = ⟨"User", obj.name⟩)
    (hbound : t.expiryTimestampMs ≤ t.maxTimestampMs) {step : TokenStep}
    (hend : (driveExisting lib cfg obj auth w.clock t
      (decide lib.printPrincipal auth (some t) w.clock)).complete (answer (healthy bc)) w =
        (.ok step, v)) : Driven obj.name w v step := by
  cases hdecision : decide lib.printPrincipal auth (some t) w.clock with
  | create =>
    rcases decide_some lib.printPrincipal auth t w.clock with ⟨h, _⟩ | ⟨h | h, _⟩
    · cases hdecision.symm.trans h
    · cases hdecision.symm.trans h
    · cases hdecision.symm.trans h
  | noOp =>
    rw [hdecision] at hend
    cases hend
    refine ⟨hmem, ⟨howner, ?_⟩, rfl⟩
    have hlate : 0 < (t.expiryTimestampMs - w.clock) * 1000000 :=
      hlasts.before.trans_lt (renewBefore_lt_of_noOp hdecision)
    omega
  | renew =>
    rw [hdecision] at hend
    unfold driveExisting at hend
    dsimp only at hend
    by_cases hlive : t.expiryTimestampMs < w.clock
    · obtain ⟨e, hrenew⟩ := complete_renew_expired bc hdistinct hmem hlive
      rw [Prog.complete_bind_of_ok hrenew] at hend
      exact driven_stop hend
    · obtain ⟨b, hrenew, hrenewed⟩ := complete_renew bc hdistinct hmem hlive
      rw [Prog.complete_bind_of_ok hrenew] at hend
      cases hend
      refine ⟨hrenewed, ⟨howner, ?_⟩, rfl⟩
      have hperiod := hlasts.period
      dsimp only [BrokerState.renewedExpiry]
      omega
  | cycle =>
    rw [hdecision] at hend
    obtain ⟨pending, status, hpending⟩ := complete_publishTokenPending bc
      (conditionsWithHistory obj t auth w.clock) true w
    have hexpire : (admin (.expireDelegationToken t.hmac)).complete (answer (healthy bc))
        (w.with status w.brokers) = (.ok (.ok ()), w.with status { w.brokers with
          tokens := w.brokers.tokens.filter (·.hmac ≠ t.hmac) }) := rfl
    unfold driveExisting at hend
    dsimp only at hend
    rw [Prog.complete_bind_of_ok hpending, Prog.complete_bind_of_ok hexpire] at hend
    have hissued := driven_issueStep hlasts.lifetime hend
    cases step with
    | live token pending => exact hissued
    | done out => exact hissued

theorem driven_drive (hlasts : Lasts bc auth) (hdistinct : w.brokers.Distinct)
    (hbound : ∀ t ∈ w.brokers.tokens, t.expiryTimestampMs ≤ t.maxTimestampMs) {step : TokenStep}
    (hend : (drive lib cfg obj auth w.clock (matchingToken obj (w.brokers.owned obj.name))).complete
      (answer (healthy bc)) w = (.ok step, v)) : Driven obj.name w v step := by
  cases hmatch : matchingToken obj (w.brokers.owned obj.name) with
  | none =>
    obtain ⟨pending, status, hpending⟩ := complete_publishTokenPending bc
      ((obj.status.map (·.conditions)).getD []) false w
    rw [hmatch] at hend
    unfold drive at hend
    dsimp only at hend
    rw [Prog.complete_bind_of_ok hpending] at hend
    have hissued := driven_issueStep hlasts.lifetime hend
    cases step with
    | live token pending => exact hissued
    | done out => exact hissued
  | some t =>
    obtain ⟨hmem, howner⟩ := List.mem_filter.mp (mem_of_matchingToken hmatch)
    rw [hmatch] at hend
    exact driven_driveExisting hlasts hdistinct hmem (of_decide_eq_true howner) (hbound t hmem) hend

/-- The last write of a pass with a token is its Secret. -/
theorem complete_persistToken_store {nowMs : Int} {t : DelegationToken}
    {published : Option (List Condition)} {out : ReconcileOutcome}
    (hend : (persistToken lib cfg obj auth nowMs t published).complete (answer (healthy bc)) w =
      (.ok out, v)) :
    v.brokers = w.brokers ∧
      v.store = w.store.applySecret obj.name ⟨∅, User.tokenData (secretToken lib t)⟩ := by
  obtain ⟨pending, status, hannounce⟩ := complete_announceToken bc obj t
    (conditionsWithHistory obj t auth nowMs) published w
  unfold persistToken buildSecret at hend
  dsimp only at hend
  rw [Prog.complete_bind_of_ok hannounce] at hend
  cases huid : obj.uid with
  | none =>
    rw [huid] at hend
    cases hend
  | some uid =>
    rw [huid] at hend
    cases hend
    exact ⟨rfl, rfl⟩

/-- A pass with a token leaves a live token in the Secret. -/
theorem complete_provisionToken_login
    (hparse : lib.parsePrincipal ("User:" ++ obj.name) = .ok ⟨"User", obj.name⟩)
    (hlasts : Lasts bc auth) (hdistinct : w.brokers.Distinct)
    (hbound : ∀ t ∈ w.brokers.tokens, t.expiryTimestampMs ≤ t.maxTimestampMs)
    (h : Bears lib obj.name login w.store)
    (hend : (provisionToken lib cfg obj bootstrap auth).complete (answer (healthy bc)) w =
      (.ok (.ready tlsNotAfter token), v)) :
    ∃ t ∈ v.brokers.tokens, t.Live obj.name w.clock ∧ Bears lib obj.name (.token t) v.store := by
  have hconnect : (admin (.connect bootstrap)).complete (answer (healthy bc)) w = (.ok (.ok ()), w) := rfl
  have hnow : nowMs.complete (answer (healthy bc)) w = (.ok w.clock, w) := rfl
  unfold provisionToken at hend
  rw [Prog.complete_bind_of_ok hconnect] at hend
  dsimp only at hend
  rw [Prog.complete_bind_of_ok hnow] at hend
  unfold reconcileToken at hend
  rw [Prog.bind_assoc, Prog.complete_bind_of_ok (complete_describeTokens lib bc hparse w)] at hend
  dsimp only at hend
  rw [Prog.bind_assoc, Prog.complete_bind_eq_ok] at hend
  obtain ⟨step, u, hdrive, hend⟩ := hend
  have hdriven := driven_drive hlasts hdistinct hbound hdrive
  cases step with
  | done out =>
    have hnone : out.conditions = none := hdriven
    dsimp only [Prog.pure_eq, Prog.ret_bind] at hend
    rw [hnone] at hend
    cases hend
  | live t pending =>
    obtain ⟨hmem, hlive, hstore⟩ := hdriven
    rw [Prog.complete_bind_eq_ok] at hend
    obtain ⟨out, u', hpersist, hend⟩ := hend
    obtain ⟨hbrokers, hsecret⟩ := complete_persistToken_store hpersist
    have hsame : v = u' := by
      split at hend
      · exact (Prod.ext_iff.mp hend).2.symm
      · cases hend
    refine ⟨t, ?_, hlive, ?_⟩
    · rw [hsame, hbrokers]
      exact hmem
    · rw [hsame, hsecret, hstore]
      exact h.apply fun _ _ => rfl

end Tokens

end Access
