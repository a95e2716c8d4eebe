-- SUMMARY: Runs of edits and passes: the invariant over the login in the Secret of a user, and when a pass leaves the login that its authentication asks for.
import KrabkaOperator.Access.Logins

/-!
# Logins over runs

A pass with a password takes whatever the entry `password` of the Secret holds. So a login that a
token has left stays, and its text becomes the password on the brokers.
-/

namespace Access

open Kube Crd Operator Admin ClusterCa

variable {lib : Lib} {cfg : Config} {bc : BrokerConfig} {name : String} {login : Login}
  {w v : World BrokerState} {es : List Event}

/-! ## Entries -/

/-- The line of a login with a token. -/
def tokenJaas (lib : Lib) (t : DelegationToken) : List Char :=
  "org.apache.kafka.common.security.scram.ScramLoginModule required username=\"".toList ++
    t.tokenId.toList ++ "\" password=\"".toList ++ lib.base64 t.hmac ++
    "\" tokenauth=\"true\";".toList

theorem Bears.passwordLine {text : List Char} {s : Operator.World}
    (h : Bears lib name (.password text) s) :
    s.readPem name "sasl.jaas.config" = some (User.jaasText name text) := by
  rw [h.readPem (by decide), Login.data, passwordData, BTreeMap.getElem?_ofList]
  rfl

theorem Bears.tokenLine {t : DelegationToken} {s : Operator.World} (h : Bears lib name (.token t) s) :
    s.readPem name "sasl.jaas.config" = some (tokenJaas lib t) := by
  rw [h.readPem (by decide), Login.data, User.tokenData, BTreeMap.getElem?_ofList]
  rfl

/-- Only the login of a token has an id. -/
theorem Bears.tokenId {s : Operator.World} (h : Bears lib name login s) :
    s.readPem name "token-id" = none ↔ ∀ t, login ≠ .token t := by
  rw [h.readPem (by decide)]
  cases login with
  | vacant => simp [Login.data]
  | password text => simp [Login.data, passwordData, BTreeMap.getElem?_ofList, List.lookup_cons]
  | token t => simp [Login.data, User.tokenData, secretToken, BTreeMap.getElem?_ofList, List.lookup_cons]

/-! ## What the user is promised -/

/-- The brokers have a credential with this password. -/
def BrokerState.HasPassword (b : BrokerState) (name : String) (sha512 : Bool) (password : List Char) :
    Prop :=
  ∃ c ∈ b.scram, c.sha512 = sha512 ∧ c.username = name ∧ c.password = password

instance {b : BrokerState} {sha512 : Bool} {password : List Char} :
    Decidable (b.HasPassword name sha512 password) :=
  inferInstanceAs (Decidable (∃ c ∈ b.scram, _))

theorem hasPassword_upsert {b : BrokerState} {sha512 : Bool} {password p : List Char}
    {iterations : Int} :
    (b.alterScram sha512 [⟨name, password, iterations⟩] []).HasPassword name sha512 p ↔
      p = password := by
  constructor
  · rintro ⟨c, hc, hmech, hname, hp⟩
    rcases List.mem_append.mp hc with hold | hnew
    · have hother := (List.mem_filter.mp hold).2
      simp [hmech, hname] at hother
    · rw [List.map_singleton, List.mem_singleton] at hnew
      exact hp.symm.trans (hnew ▸ rfl)
  · rintro rfl
    exact ⟨⟨sha512, name, p, iterations⟩, by simp [BrokerState.alterScram], rfl, rfl, rfl⟩

section Fits

variable (lib bc)

/-- The Secret and the brokers have one password, in the line of a password, and it is the secret
    of no token. -/
def ScramFits (sha512 : Bool) (w : World BrokerState) : Prop :=
  ∃ password, w.store.readPem w.user.name "password" = some password ∧
    w.store.readPem w.user.name "sasl.jaas.config" = some (User.jaasText w.user.name password) ∧
    (∀ p, w.brokers.HasPassword w.user.name sha512 p ↔ p = password) ∧
    ∀ n, password ≠ lib.base64 (bc.mint n).2

/-- The line of the Secret is the line of a live token. -/
def TokenFits (w : World BrokerState) : Prop :=
  ∃ t ∈ w.brokers.tokens, t.Live w.user.name w.clock ∧
    w.store.readPem w.user.name "sasl.jaas.config" = some (tokenJaas lib t)

/-- The Secret of the user fits its authentication. -/
structure SecretFits (w : World BrokerState) : Prop where
  scram : ∀ sha512, scramMechanism? w.user.authentication = some sha512 → ScramFits lib bc sha512 w
  token : byToken w.user.authentication = true → TokenFits lib w

end Fits

/-- With a password, the Secret has not the id of a token. -/
def SparesToken (w : World BrokerState) : Prop :=
  (scramMechanism? w.user.authentication).isSome = true →
    w.store.readPem w.user.name "token-id" = none

instance : Decidable (SparesToken w) := inferInstanceAs (Decidable (_ → _))

/-! ## The invariant -/

/-- What the user relies on: tokens with secrets of their own, which no random password repeats, and
    brokers that let tokens live. -/
structure Sound (lib : Lib) (bc : BrokerConfig) (name : String) : Prop where
  fresh : MintsFresh bc
  apart : ∀ len d n, lib.ca.randomPassword len d ≠ lib.base64 (bc.mint n).2
  period : 0 ≤ bc.renewPeriodMs
  lifetime : 0 ≤ bc.maxLifetimeMs
  parse : lib.parsePrincipal ("User:" ++ name) = .ok ⟨"User", name⟩

/-- No token expires after its maximum. -/
def BrokerState.Bounded (b : BrokerState) : Prop :=
  ∀ t ∈ b.tokens, t.expiryTimestampMs ≤ t.maxTimestampMs

instance {b : BrokerState} : Decidable b.Bounded := inferInstanceAs (Decidable (∀ t ∈ b.tokens, _))

/-- Where the secret of a login comes from. -/
def Login.Known (lib : Lib) (bc : BrokerConfig) : Login → Prop
  | .vacant => True
  | .password text => ∃ len d, text = lib.ca.randomPassword len d
  | .token t => ∃ n, t.hmac = (bc.mint n).2

structure Consistent (lib : Lib) (bc : BrokerConfig) (n : String) (w : World BrokerState) : Prop
    extends Live n w where
  minted : w.brokers.Minted bc
  bounded : w.brokers.Bounded
  login : ∃ login, Bears lib n login w.store ∧ login.Known lib bc

theorem Taken.known {login' : Login} (h : Taken lib login login') (hknown : login.Known lib bc) :
    login'.Known lib bc := by
  cases h with
  | kept h => exact hknown
  | drawn h len d => exact ⟨len, d, rfl⟩

theorem bounded_answer {b : BrokerState} (h : b.Bounded) (r : AdminReq) (nowMs : Int) :
    ((healthy bc).answer r nowMs b).2.Bounded := by
  cases r with
  | connect bootstrap => exact h
  | alterScram sha512 upsertions deletions => exact h
  | describeAcls filter => exact h
  | createAcls entries => exact h
  | deleteAcls filters => exact h
  | describeUserQuotas username => exact h
  | alterUserQuotas username ops => exact h
  | describeDelegationToken owner => exact h
  | createDelegationToken owner renewers maxLifetime =>
    intro t ht
    rcases List.mem_append.mp ht with hold | hnew
    · exact h t hold
    · rw [List.mem_singleton.mp hnew]
      exact min_le_right _ _
  | renewDelegationToken hmac =>
    have hrenewed : (b.renew bc hmac nowMs).Bounded := by
      intro t ht
      obtain ⟨u, hu, rfl⟩ := List.mem_map.mp ht
      split
      · exact min_le_right _ _
      · exact h u hu
    simp only [healthy]
    split
    · exact h
    · split
      · exact h
      · exact hrenewed
  | expireDelegationToken hmac => exact fun t ht => h t (List.mem_filter.mp ht).1

theorem bounded_pass (h : w.brokers.Bounded) : (pass lib cfg (healthy bc) w).2.brokers.Bounded := by
  have hanswer : ∀ (v : World BrokerState) (r : Req), True → v.brokers.Bounded →
      (answer (healthy bc) r v).2.brokers.Bounded := by
    intro v r _ hv
    cases r with
    | getKafka name => exact hv
    | patchStatus patch => exact hv
    | setFinalizers finalizers => exact hv
    | store r => exact hv
    | now => exact hv
    | admin r => exact bounded_answer hv r v.clock
  exact (Prog.makes_any (reconcileInner lib cfg w.user)).complete_invariant
    (I := fun v : World BrokerState => v.brokers.Bounded) hanswer h

/-! ## Passes -/

/-- What a pass leaves of the provisioning of its credentials. -/
structure Keeps (v u : World BrokerState) : Prop where
  user : u.user.name = v.user.name ∧ u.user.authentication = v.user.authentication
  clock : u.clock = v.clock
  store : u.store = v.store
  scram : u.brokers.scram = v.brokers.scram
  tokens : u.brokers.tokens = v.brokers.tokens

/-- A pass provisions the credentials of the user. -/
theorem pass_of_provision (happlies : Applies lib w) (hfree : ErrorFree lib cfg bc w) :
    ∃ bootstrap parent tlsNotAfter token v,
      (provision lib cfg w.user bootstrap parent).complete (answer (healthy bc)) w =
        (.ok (.ready tlsNotAfter token), v) ∧ SameUser w v ∧
      Keeps v (pass lib cfg (healthy bc) w).2 := by
  obtain ⟨bootstrap, parent, hparent, hpass⟩ := pass_of_ready cfg bc happlies
  have hready := hfree happlies _ hparent
  cases hprovision : (provision lib cfg w.user bootstrap parent).complete (answer (healthy bc)) w with
  | mk result v =>
    rw [hprovision] at hready
    cases result with
    | error e => cases hready
    | ok provisioned =>
      cases provisioned with
      | done action => cases hready
      | ready tlsNotAfter token =>
        have hgranted := granted_provision hprovision
        obtain ⟨_, huser⟩ := hgranted.user
        obtain ⟨action, status, haccess, _⟩ := complete_reconcileAccess lib cfg bc w.user bootstrap
          (principalFor w.user.name w.user.authentication) tlsNotAfter token v
        refine ⟨bootstrap, parent, tlsNotAfter, token, v, hprovision, hgranted.toSameUser, ?_⟩
        rw [hpass _ _ _ hprovision, haccess]
        exact ⟨⟨rfl, rfl⟩, rfl, rfl, rfl, rfl⟩

/-- The times of a token are valid in a pass that gets to it. -/
theorem lasts_of_applies {auth : DelegationTokenAuth} (hsound : Sound lib bc name)
    (happlies : Applies lib w) (hauth : w.user.authentication = .delegationToken auth) :
    Lasts bc auth := by
  have hspec := happlies.prologue.spec
  rw [hauth] at hspec
  obtain ⟨_, htimes, _⟩ := Checks.bind_eq_ok.mp hspec
  refine ⟨renewBefore_nonneg htimes, ?_, hsound.period⟩
  unfold validateTokenTimes at htimes
  dsimp only at htimes
  obtain ⟨_, hmax, _⟩ := Checks.bind_eq_ok.mp htimes
  unfold newLifetime
  refine le_min hsound.period ?_
  cases hlifetime : auth.maxLifetime with
  | none => exact hsound.lifetime
  | some t =>
    rw [hlifetime] at hmax
    have hminimum : (1000000 : Int) ≤ t := minimum_le hmax
    have hbound := hsound.lifetime
    dsimp only
    omega

section Provision

variable {bootstrap : String} {parent : Parent} {tlsNotAfter : Option String}
  {token : Option TokenAccessState} {u : World BrokerState}

theorem login_of_provision (hsound : Sound lib bc name) (h : Consistent lib bc name w)
    (happlies : Applies lib w)
    (hend : (provision lib cfg w.user bootstrap parent).complete (answer (healthy bc)) w =
      (.ok (.ready tlsNotAfter token), v))
    (hdrawn : ∀ t ∈ v.brokers.tokens, ∃ n, t.hmac = (bc.mint n).2) :
    ∃ login, Bears lib name login v.store ∧ login.Known lib bc := by
  obtain ⟨hlive, hname⟩ := h.toLive
  subst hname
  obtain ⟨login, hbears, hknown⟩ := h.login
  have hscram {sha512 : Bool} {auth : ScramAuth}
      (hend : (provisionScram lib cfg w.user bootstrap sha512 auth).complete (answer (healthy bc)) w =
        (.ok (.ready tlsNotAfter token), v)) :
      ∃ login, Bears lib w.user.name login v.store ∧ login.Known lib bc := by
    obtain ⟨login', _, _, htaken, _, hbears', _⟩ := complete_provisionScram_login hbears hend
    exact ⟨login', hbears', htaken.known hknown⟩
  unfold provision at hend
  cases hauth : w.user.authentication with
  | scramSha512 auth =>
    rw [hauth] at hend
    exact hscram hend
  | scramSha256 auth =>
    rw [hauth] at hend
    exact hscram hend
  | tls auth =>
    rw [hauth] at hend
    obtain ⟨hkept | hnone, _⟩ := complete_provisionTls_login hbears hend
    · exact ⟨login, hkept, hknown⟩
    · exact ⟨.vacant, hnone, trivial⟩
  | tlsExternal =>
    rw [hauth] at hend
    cases hend
    exact ⟨login, hbears, hknown⟩
  | delegationToken auth =>
    rw [hauth] at hend
    obtain ⟨t, hmem, _, hbears'⟩ := complete_provisionToken_login hsound.parse
      (lasts_of_applies hsound happlies hauth) h.minted.distinct h.bounded hbears hend
    exact ⟨.token t, hbears', hdrawn t hmem⟩

/-- The password on the brokers is good exactly when the login was not the login of a token. -/
theorem scramFits_of_taken {sha512 : Bool} {iterations : Int} {password : List Char} {login' : Login}
    (hsound : Sound lib bc name) (hbears : Bears lib u.user.name login w.store)
    (hknown : login.Known lib bc) (htaken : Taken lib login login')
    (htext : login'.text? lib = some password) (hbears' : Bears lib u.user.name login' u.store)
    (hscram : u.brokers.scram =
      (w.brokers.alterScram sha512 [⟨u.user.name, password, iterations⟩] []).scram) :
    ScramFits lib bc sha512 u ↔ w.store.readPem u.user.name "token-id" = none := by
  have hread : u.store.readPem u.user.name "password" = some password :=
    hbears'.password.trans htext
  rw [hbears.tokenId]
  constructor
  · rintro ⟨p, hp, _, _, hother⟩ t rfl
    obtain ⟨n, hn⟩ := hknown
    cases htaken with
    | kept h =>
      -- the text of the token has become the password
      have hsame : lib.base64 t.hmac = password := Option.some.inj htext
      have hp' : password = p := Option.some.inj (hread.symm.trans hp)
      rw [hn] at hsame
      exact hother n (hp'.symm.trans hsame.symm)
    | drawn h len d => cases h
  · intro hno
    obtain ⟨text, hlogin⟩ : ∃ text, login' = .password text := by
      cases htaken with
      | drawn h len d => exact ⟨_, rfl⟩
      | kept h =>
        cases login with
        | vacant => exact absurd rfl h
        | password text => exact ⟨text, rfl⟩
        | token t => exact absurd rfl (hno t)
    have hknown' := htaken.known hknown
    subst hlogin
    obtain rfl : text = password := Option.some.inj htext
    obtain ⟨len, d, hdrawn⟩ := hknown'
    refine ⟨text, hread, hbears'.passwordLine, fun p => ?_, fun n => ?_⟩
    · rw [BrokerState.HasPassword, hscram]
      exact hasPassword_upsert
    · rw [hdrawn]
      exact hsound.apart len d n

theorem scramFits_of_provision {sha512 : Bool} (hsound : Sound lib bc name)
    (h : Consistent lib bc name w) (hmech : scramMechanism? w.user.authentication = some sha512)
    (hend : (provision lib cfg w.user bootstrap parent).complete (answer (healthy bc)) w =
      (.ok (.ready tlsNotAfter token), v)) (hsame : SameUser w v) (hkeeps : Keeps v u) :
    ScramFits lib bc sha512 u ↔ w.store.readPem w.user.name "token-id" = none := by
  obtain ⟨hlive, hname⟩ := h.toLive
  subst hname
  obtain ⟨login, hbears, hknown⟩ := h.login
  obtain ⟨status, huser⟩ := hsame.user
  have hname : u.user.name = w.user.name := hkeeps.user.1.trans (by rw [huser])
  have hscram {auth : ScramAuth}
      (hend : (provisionScram lib cfg w.user bootstrap sha512 auth).complete (answer (healthy bc)) w =
        (.ok (.ready tlsNotAfter token), v)) :
      ScramFits lib bc sha512 u ↔ w.store.readPem w.user.name "token-id" = none := by
    obtain ⟨login', password, iterations, htaken, htext, hbears', hbrokers⟩ :=
      complete_provisionScram_login hbears hend
    rw [← hkeeps.store] at hbears'
    have hupsert := hkeeps.scram.trans (congrArg BrokerState.scram hbrokers)
    rw [← hname] at hbears hbears' hupsert ⊢
    exact scramFits_of_taken hsound hbears hknown htaken htext hbears' hupsert
  unfold provision at hend
  cases hauth : w.user.authentication with
  | scramSha512 auth =>
    rw [hauth] at hend hmech
    obtain rfl : true = sha512 := Option.some.inj hmech
    exact hscram hend
  | scramSha256 auth =>
    rw [hauth] at hend hmech
    obtain rfl : false = sha512 := Option.some.inj hmech
    exact hscram hend
  | tls auth => simp [hauth, scramMechanism?] at hmech
  | tlsExternal => simp [hauth, scramMechanism?] at hmech
  | delegationToken auth => simp [hauth, scramMechanism?] at hmech

theorem tokenFits_of_provision (hsound : Sound lib bc name) (h : Consistent lib bc name w)
    (happlies : Applies lib w) (htoken : byToken w.user.authentication = true)
    (hend : (provision lib cfg w.user bootstrap parent).complete (answer (healthy bc)) w =
      (.ok (.ready tlsNotAfter token), v)) (hsame : SameUser w v) (hkeeps : Keeps v u) :
    TokenFits lib u := by
  obtain ⟨hlive, hname⟩ := h.toLive
  subst hname
  obtain ⟨login, hbears, _⟩ := h.login
  obtain ⟨status, huser⟩ := hsame.user
  have hname : u.user.name = w.user.name := hkeeps.user.1.trans (by rw [huser])
  cases hauth : w.user.authentication with
  | delegationToken auth =>
    unfold provision at hend
    rw [hauth] at hend
    obtain ⟨t, hmem, htlive, hbears'⟩ := complete_provisionToken_login hsound.parse
      (lasts_of_applies hsound happlies hauth) h.minted.distinct h.bounded hbears hend
    refine ⟨t, hkeeps.tokens ▸ hmem, ?_, ?_⟩
    · rw [hname, hkeeps.clock, hsame.clock]
      exact htlive
    · rw [hname, hkeeps.store]
      exact hbears'.tokenLine
  | scramSha512 auth => simp [hauth, byToken] at htoken
  | scramSha256 auth => simp [hauth, byToken] at htoken
  | tls auth => simp [hauth, byToken] at htoken
  | tlsExternal => simp [hauth, byToken] at htoken

end Provision

theorem consistent_pass (hsound : Sound lib bc name) (h : Consistent lib bc name w)
    (hfree : ErrorFree lib cfg bc w) : Consistent lib bc name (pass lib cfg (healthy bc) w).2 := by
  have hlive : Live name (pass lib cfg (healthy bc) w).2 :=
    live_step (e := .pass) h.toLive hfree
  have hsteady : Steady bc name (pass lib cfg (healthy bc) w).2 :=
    steady_pass hsound.fresh ⟨h.toLive.name, h.minted⟩
  refine ⟨hlive, hsteady.minted, bounded_pass h.bounded, ?_⟩
  by_cases happlies : Applies lib w
  · obtain ⟨bootstrap, parent, tlsNotAfter, token, v, hend, hsame, hkeeps⟩ :=
      pass_of_provision happlies hfree
    have hdrawn : ∀ t ∈ v.brokers.tokens, ∃ n, t.hmac = (bc.mint n).2 := by
      intro t ht
      obtain ⟨i, _, hi⟩ := hsteady.minted.drawn t (hkeeps.tokens ▸ ht)
      exact ⟨i, hi⟩
    rw [hkeeps.store]
    exact login_of_provision hsound h happlies hend hdrawn
  · obtain ⟨action, status, finalizers, hpass⟩ := pass_of_not_applies cfg bc h.toLive.live happlies
    rw [hpass]
    exact h.login

/-! ## Runs -/

/-- Other writers leave the Secret of the user alone. -/
def SecretStays (e : Event) (w : World BrokerState) : Prop :=
  match e with
  | .elapse _ store _ => store.secret? w.user.name = w.store.secret? w.user.name
  | _ => True

/-- Passes complete, and only they write the Secret. -/
def Alone (lib : Lib) (cfg : Config) (bc : BrokerConfig) (e : Event) (w : World BrokerState) : Prop :=
  Completes lib cfg bc e w ∧ SecretStays e w

theorem consistent_step (hsound : Sound lib bc name) {e : Event} (h : Consistent lib bc name w)
    (he : Alone lib cfg bc e w) : Consistent lib bc name (step lib cfg bc e w) := by
  cases e with
  | edit authentication authorization quotas =>
    exact ⟨⟨h.live, h.toLive.name⟩, h.minted, h.bounded, h.login⟩
  | elapse kafkas store ms =>
    obtain ⟨login, hbears, hknown⟩ := h.login
    have hstays : store.secret? w.user.name = w.store.secret? w.user.name := he.2
    rw [h.toLive.name] at hstays
    exact ⟨⟨h.live, h.toLive.name⟩, h.minted, h.bounded, login, hbears.congr hstays, hknown⟩
  | pass => exact consistent_pass hsound h he.1

theorem consistent_final (hsound : Sound lib bc name) (h : Consistent lib bc name w)
    (hes : History.Along (exec lib cfg bc) (Alone lib cfg bc) es w) :
    Consistent lib bc name (History.final (exec lib cfg bc) es w) := by
  induction es generalizing w with
  | nil => exact h
  | cons e es ih => exact ih (consistent_step hsound h hes.1) hes.2

/-- A user without a Secret, and brokers with tokens of their own. -/
structure Begins (bc : BrokerConfig) (w : World BrokerState) : Prop where
  live : w.user.deleting = false
  secret : w.store.secret? w.user.name = none
  minted : w.brokers.Minted bc
  bounded : w.brokers.Bounded

theorem Begins.consistent (h : Begins bc w) : Consistent lib bc w.user.name w :=
  ⟨⟨h.live, rfl⟩, h.minted, h.bounded, .vacant, bears_vacant h.secret, trivial⟩

/-- A pass that gets to the credentials leaves a Secret that fits exactly when it spares the login
    of a token. -/
theorem secretFits_pass_iff (hsound : Sound lib bc name) (h : Consistent lib bc name w)
    (happlies : Applies lib w) (hfree : ErrorFree lib cfg bc w) :
    SecretFits lib bc (pass lib cfg (healthy bc) w).2 ↔ SparesToken w := by
  obtain ⟨bootstrap, parent, tlsNotAfter, token, v, hend, hsame, hkeeps⟩ :=
    pass_of_provision happlies hfree
  obtain ⟨status, huser⟩ := hsame.user
  have hauth : (pass lib cfg (healthy bc) w).2.user.authentication = w.user.authentication :=
    hkeeps.user.2.trans (by rw [huser])
  constructor
  · rintro ⟨hscram, _⟩ hsome
    obtain ⟨sha512, hmech⟩ := Option.isSome_iff_exists.mp hsome
    exact (scramFits_of_provision hsound h hmech hend hsame hkeeps).mp (hscram sha512 (hauth ▸ hmech))
  · intro hspares
    constructor
    · intro sha512 hmech
      rw [hauth] at hmech
      exact (scramFits_of_provision hsound h hmech hend hsame hkeeps).mpr
        (hspares (by rw [hmech]; rfl))
    · intro htoken
      rw [hauth] at htoken
      exact tokenFits_of_provision hsound h happlies htoken hend hsame hkeeps

/-- After any edits and passes, the Secret fits the authentication of the last pass exactly when
    that pass does not take the login of a token for a password. -/
theorem secret_fits_iff (hsound : Sound lib bc w.user.name) (hbegins : Begins bc w)
    (hes : History.Along (exec lib cfg bc) (Alone lib cfg bc) (es ++ [.pass]) w)
    (happlies : Applies lib (History.final (exec lib cfg bc) es w)) :
    SecretFits lib bc (History.final (exec lib cfg bc) (es ++ [.pass]) w) ↔
      SparesToken (History.final (exec lib cfg bc) es w) := by
  obtain ⟨hpre, hlast, _⟩ := hes.append
  rw [History.final_append]
  exact secretFits_pass_iff hsound (consistent_final hsound hbegins.consistent hpre) happlies hlast.1

/-! ## A password after a password, and a password after a token -/

namespace Sample

theorem head?_base64 (a : UInt8) (rest : List UInt8) :
    (base64 (a :: rest)).head? = some (base64Char (a.toNat / 4)) := by
  have ha := a.toNat_lt
  cases rest with
  | nil =>
    have hfirst : a.toNat * 65536 / 262144 = a.toNat / 4 := by omega
    simp only [base64, List.head?_cons, hfirst]
  | cons b rest =>
    have hb := b.toNat_lt
    cases rest with
    | nil =>
      have hfirst : (a.toNat * 65536 + b.toNat * 256) / 262144 = a.toNat / 4 := by omega
      simp only [base64, List.head?_cons, hfirst]
    | cons c rest =>
      have hc := c.toNat_lt
      have hfirst : (a.toNat * 65536 + b.toNat * 256 + c.toNat) / 262144 = a.toNat / 4 := by omega
      simp only [base64, List.head?_cons, hfirst]

/-- The text of a digit begins with a capital letter. -/
theorem base64Char_digit {c : Char} (hc : c.isDigit = true) :
    (base64Char (c.toNat.toUInt8.toNat / 4)).isDigit = false ∧
      base64Char (c.toNat.toUInt8.toNat / 4) ≠ 'p' := by
  have hrange : 48 ≤ c.toNat ∧ c.toNat ≤ 57 := by
    simpa [Char.isDigit, UInt32.le_iff_toNat_le] using hc
  have hbyte : c.toNat.toUInt8.toNat = c.toNat := Nat.mod_eq_of_lt (by omega)
  rw [hbyte]
  obtain h | h | h : c.toNat / 4 = 12 ∨ c.toNat / 4 = 13 ∨ c.toNat / 4 = 14 := by omega
  · rw [h]
    decide
  · rw [h]
    decide
  · rw [h]
    decide

theorem randomPassword_apart (len : Nat) (d : Draw) (n : Nat) :
    Sample.lib.ca.randomPassword len d ≠ Sample.lib.base64 (brokerConfig.mint n).2 := by
  intro heq
  have hdigits : bytes (brokerConfig.mint n).2 =
      (Nat.toDigits 10 n).map fun c => c.toNat.toUInt8 := by
    simp [bytes, brokerConfig]
  cases hn : Nat.toDigits 10 n with
  | nil => exact absurd hn Nat.toDigits_ne_nil
  | cons c cs =>
    have hc : c.isDigit = true :=
      Nat.isDigit_of_mem_toDigits (by decide) (by decide) (hn ▸ List.mem_cons_self)
    obtain ⟨hupper, hp⟩ := base64Char_digit hc
    have hhead : (Sample.lib.base64 (brokerConfig.mint n).2).head? =
        some (base64Char (c.toNat.toUInt8.toNat / 4)) := by
      have hbase : Sample.lib.base64 (brokerConfig.mint n).2 = base64 (bytes (brokerConfig.mint n).2) := rfl
      rw [hbase, hdigits, hn, List.map_cons, head?_base64]
    rw [← heq] at hhead
    cases len with
    | succ len => exact hp (Option.some.inj hhead).symm
    | zero =>
      have hmem : base64Char (c.toNat.toUInt8.toNat / 4) ∈ Nat.toDigits 10 d.serial :=
        List.mem_of_head? hhead
      rw [Nat.isDigit_of_mem_toDigits (by decide) (by decide) hmem] at hupper
      cases hupper

theorem sound : Sound Sample.lib brokerConfig "alice" :=
  ⟨mintsFresh, randomPassword_apart, by decide, by decide, by decide⟩

end Sample

/-- The other mechanism takes over the password. -/
def passwordEvents : List Event := [.pass, .pass, .edit (.scramSha256 ⟨none, none⟩) none none]

/-- A token is in the Secret when the user asks for a password. -/
def tokenEvents : List Event :=
  [.edit (.delegationToken { renewers := [] }) none none, .pass, .pass,
    .edit (.scramSha512 ⟨none, none⟩) none none]

theorem begins_freshUser : Begins Sample.brokerConfig freshUser :=
  ⟨rfl, by decide, minted_none, by decide⟩

theorem alone_passwordEvents : History.Along (exec Sample.lib {} Sample.brokerConfig)
    (Alone Sample.lib {} Sample.brokerConfig) (passwordEvents ++ [.pass]) freshUser :=
  History.Along.and (by decide) ⟨trivial, trivial, trivial, trivial, trivial⟩

theorem passwords_fit : SecretFits Sample.lib Sample.brokerConfig
    (History.final (exec Sample.lib {} Sample.brokerConfig) (passwordEvents ++ [.pass]) freshUser) :=
  (secret_fits_iff Sample.sound begins_freshUser alone_passwordEvents (by decide)).mpr (by decide)

/-- The secret of the token becomes the password of the user. -/
theorem token_becomes_password :
    let last := History.final (exec Sample.lib {} Sample.brokerConfig) (tokenEvents ++ [.pass]) freshUser
    History.Along (exec Sample.lib {} Sample.brokerConfig) (Alone Sample.lib {} Sample.brokerConfig)
        (tokenEvents ++ [.pass]) freshUser ∧
      scramMechanism? last.user.authentication = some true ∧
      last.brokers.HasPassword "alice" true (Sample.lib.base64 (Sample.brokerConfig.mint 0).2) ∧
      ¬ SecretFits Sample.lib Sample.brokerConfig last := by
  intro last
  have hpassword : last.brokers.HasPassword "alice" true
      (Sample.lib.base64 (Sample.brokerConfig.mint 0).2) := by decide
  refine ⟨History.Along.and (by decide) ⟨trivial, trivial, trivial, trivial, trivial, trivial⟩,
    by decide, hpassword, ?_⟩
  rintro ⟨hscram, _⟩
  obtain ⟨password, _, _, hbrokers, hother⟩ := hscram true (by decide)
  exact hother 0 ((hbrokers _).mp hpassword).symm

end Access
