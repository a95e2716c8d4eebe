-- SUMMARY: Token passes at the times that they ask for: how long the brokers let a token live, and when the token in the Secret of the user never expires between two passes.
import KrabkaOperator.Access.Leftover
import KrabkaOperator.Base.Checks
import KrabkaOperator.Base.Decimal

/-!
# Continuity of delegation tokens

A pass renews the token in time, but it replaces one only when the renewers change or the
brokers no longer have it. A renewal never reaches beyond the maximum of the token, so what
a pass can get shrinks at the end of its life, and the next pass may come too late.
-/

namespace Access

open Kube Crd Operator Admin

variable {lib : Lib} {cfg : Config} {bc : BrokerConfig} {obj : KafkaUser} {auth : DelegationTokenAuth}
  {w : World BrokerState} {token : DelegationToken}

/-! ## What the brokers grant -/

/-- The secrets of the tokens differ. -/
def BrokerState.Distinct (b : BrokerState) : Prop := (b.tokens.map (·.hmac)).Nodup

/-- How long a new token lives. -/
def newLifetime (bc : BrokerConfig) (auth : DelegationTokenAuth) : Int :=
  min bc.renewPeriodMs <|
    match auth.maxLifetime with
    | none => bc.maxLifetimeMs
    | some t => min (t / 1000000) bc.maxLifetimeMs

/-- How long the token of a pass lives from then on. A token that has expired cannot be renewed. -/
def granted (lib : Lib) (bc : BrokerConfig) (obj : KafkaUser) (auth : DelegationTokenAuth)
    (b : BrokerState) (nowMs : Int) : Option Int :=
  match matchingToken obj (b.owned obj.name) with
  | none => some (newLifetime bc auth)
  | some t =>
    match decide lib.printPrincipal auth (some t) nowMs with
    | .create | .cycle => some (newLifetime bc auth)
    | .renew =>
      if t.expiryTimestampMs < nowMs then none
      else some (min bc.renewPeriodMs (t.maxTimestampMs - nowMs))
    | .noOp => some (t.expiryTimestampMs - nowMs)

theorem expiry_newToken (bc : BrokerConfig) (b : BrokerState) (owner : KafkaPrincipal)
    (renewers : List KafkaPrincipal) (auth : DelegationTokenAuth) (nowMs : Int) :
    (b.newToken bc owner renewers auth.maxLifetime nowMs).expiryTimestampMs =
      nowMs + newLifetime bc auth := by
  unfold BrokerState.newToken newLifetime
  dsimp only
  cases auth.maxLifetime with
  | none =>
    dsimp only
    omega
  | some t =>
    dsimp only
    omega

/-! ## The stages of a pass -/

section Stages

variable (lib cfg bc)

theorem complete_publishTokenPending (prior : List Condition) (tokenLive : Bool)
    (w : World BrokerState) :
    ∃ pending status, (publishTokenPending prior tokenLive).complete (answer (healthy bc)) w =
      (.ok pending, w.with status w.brokers) := ⟨_, _, rfl⟩

theorem complete_issueStep {renewers : List KafkaPrincipal}
    (hrenewers : auth.renewers.mapM lib.parsePrincipal = .ok renewers) (name : String)
    (pending : List Condition) (w : World BrokerState) :
    ∃ token b, (issueStep lib cfg name auth pending).complete (answer (healthy bc)) w =
        (.ok (.live token (some pending)), w.with w.user.status b) ∧
      token ∈ b.tokens ∧ token.expiryTimestampMs = w.clock + newLifetime bc auth := by
  refine ⟨w.brokers.newToken bc ⟨"User", name⟩ renewers auth.maxLifetime w.clock, { w.brokers with
      tokens := w.brokers.tokens ++
        [w.brokers.newToken bc ⟨"User", name⟩ renewers auth.maxLifetime w.clock]
      issued := w.brokers.issued + 1 }, ?_, ?_, ?_⟩
  · unfold issueStep issueNewToken
    rw [hrenewers]
    rfl
  · exact List.mem_append_right _ (List.mem_singleton.mpr rfl)
  · exact expiry_newToken bc _ _ _ _ _

/-- The brokers find a token by its secret. -/
theorem find?_hmac {b : BrokerState} (hdistinct : b.Distinct) (hmem : token ∈ b.tokens) :
    b.tokens.find? (·.hmac = token.hmac) = some token := by
  cases hfound : b.tokens.find? (·.hmac = token.hmac) with
  | none =>
    have hnone := List.find?_eq_none.mp hfound token hmem
    simp at hnone
  | some t =>
    have hsecret : t.hmac = token.hmac := by simpa using List.find?_some hfound
    rw [List.inj_on_of_nodup_map hdistinct (List.mem_of_find?_eq_some hfound) hmem hsecret]

/-- A renewal of a token that has not expired. -/
theorem complete_renew (hdistinct : w.brokers.Distinct) (hmem : token ∈ w.brokers.tokens)
    (hlive : ¬ token.expiryTimestampMs < w.clock) :
    ∃ b, (admin (.renewDelegationToken token.hmac)).complete (answer (healthy bc)) w =
        (.ok (.ok (BrokerState.renewedExpiry bc token w.clock)), w.with w.user.status b) ∧
      { token with expiryTimestampMs := BrokerState.renewedExpiry bc token w.clock } ∈ b.tokens := by
  refine ⟨w.brokers.renew bc token.hmac w.clock, ?_, List.mem_map.mpr ⟨token, hmem, if_pos rfl⟩⟩
  have hanswer : (healthy bc).answer (.renewDelegationToken token.hmac) w.clock w.brokers =
      (.ok (BrokerState.renewedExpiry bc token w.clock), w.brokers.renew bc token.hmac w.clock) := by
    simp only [healthy]
    rw [find?_hmac hdistinct hmem]
    dsimp only
    rw [if_neg hlive]
  simp only [admin, Prog.request, Prog.complete, answer, hanswer]
  rfl

/-- The renewal of a token that has expired fails. -/
theorem complete_renew_expired (hdistinct : w.brokers.Distinct) (hmem : token ∈ w.brokers.tokens)
    (hexpired : token.expiryTimestampMs < w.clock) :
    ∃ e, (admin (.renewDelegationToken token.hmac)).complete (answer (healthy bc)) w =
      (.ok (.error e), w) := by
  refine ⟨tokenError 66 "DELEGATION_TOKEN_EXPIRED", ?_⟩
  have hanswer : (healthy bc).answer (.renewDelegationToken token.hmac) w.clock w.brokers =
      (.error (tokenError 66 "DELEGATION_TOKEN_EXPIRED"), w.brokers) := by
    simp only [healthy]
    rw [find?_hmac hdistinct hmem]
    dsimp only
    rw [if_pos hexpired]
  simp only [admin, Prog.request, Prog.complete, answer, hanswer]

theorem complete_driveExisting {renewers : List KafkaPrincipal}
    (hrenewers : auth.renewers.mapM lib.parsePrincipal = .ok renewers)
    (hdistinct : w.brokers.Distinct) (hmem : token ∈ w.brokers.tokens) {lifetime : Int}
    (hmatch : matchingToken obj (w.brokers.owned obj.name) = some token)
    (hgranted : granted lib bc obj auth w.brokers w.clock = some lifetime) :
    ∃ t pending status b, (driveExisting lib cfg obj auth w.clock token
        (decide lib.printPrincipal auth (some token) w.clock)).complete (answer (healthy bc)) w =
          (.ok (.live t pending), w.with status b) ∧
      t ∈ b.tokens ∧ t.expiryTimestampMs = w.clock + lifetime := by
  unfold granted at hgranted
  rw [hmatch] at hgranted
  dsimp only at hgranted
  cases hdecision : decide lib.printPrincipal auth (some token) w.clock with
  | create =>
    rcases decide_some lib.printPrincipal auth token w.clock with ⟨h, _⟩ | ⟨h | h, _⟩
    · cases hdecision.symm.trans h
    · cases hdecision.symm.trans h
    · cases hdecision.symm.trans h
  | cycle =>
    rw [hdecision] at hgranted
    obtain ⟨pending, status, hpending⟩ := complete_publishTokenPending bc
      (conditionsWithHistory obj token auth w.clock) true w
    have hexpire : (admin (.expireDelegationToken token.hmac)).complete (answer (healthy bc))
        (w.with status w.brokers) = (.ok (.ok ()), w.with status { w.brokers with
          tokens := w.brokers.tokens.filter (·.hmac ≠ token.hmac) }) := rfl
    obtain ⟨t, b, hissue, ht, hexpiry⟩ := complete_issueStep lib cfg bc hrenewers obj.name pending
      (w.with status { w.brokers with tokens := w.brokers.tokens.filter (·.hmac ≠ token.hmac) })
    refine ⟨t, some pending, status, b, ?_, ht, ?_⟩
    · unfold driveExisting
      dsimp only
      rw [Prog.complete_bind_of_ok hpending, Prog.complete_bind_of_ok hexpire]
      exact hissue
    · rw [hexpiry, Option.some.inj hgranted]
      rfl
  | renew =>
    rw [hdecision] at hgranted
    dsimp only at hgranted
    split at hgranted
    · cases hgranted
    · next hlive =>
      obtain ⟨b, hrenew, ht⟩ := complete_renew bc hdistinct hmem hlive
      refine ⟨_, none, w.user.status, b, ?_, ht, ?_⟩
      · unfold driveExisting
        dsimp only
        rw [Prog.complete_bind_of_ok hrenew]
        rfl
      · rw [← Option.some.inj hgranted]
        dsimp only [BrokerState.renewedExpiry]
        omega
  | noOp =>
    rw [hdecision] at hgranted
    refine ⟨token, none, w.user.status, w.brokers, rfl, hmem, ?_⟩
    rw [← Option.some.inj hgranted]
    omega

theorem complete_drive {renewers : List KafkaPrincipal}
    (hrenewers : auth.renewers.mapM lib.parsePrincipal = .ok renewers)
    (hdistinct : w.brokers.Distinct) {lifetime : Int}
    (hgranted : granted lib bc obj auth w.brokers w.clock = some lifetime) :
    ∃ t pending status b, (drive lib cfg obj auth w.clock
        (matchingToken obj (w.brokers.owned obj.name))).complete (answer (healthy bc)) w =
          (.ok (.live t pending), w.with status b) ∧
      t ∈ b.tokens ∧ t.expiryTimestampMs = w.clock + lifetime := by
  cases hmatch : matchingToken obj (w.brokers.owned obj.name) with
  | none =>
    unfold granted at hgranted
    rw [hmatch] at hgranted
    obtain ⟨pending, status, hpending⟩ := complete_publishTokenPending bc
      ((obj.status.map (·.conditions)).getD []) false w
    obtain ⟨t, b, hissue, ht, hexpiry⟩ := complete_issueStep lib cfg bc hrenewers obj.name pending
      (w.with status w.brokers)
    refine ⟨t, some pending, status, b, ?_, ht, ?_⟩
    · unfold drive
      dsimp only
      rw [Prog.complete_bind_of_ok hpending]
      exact hissue
    · rw [hexpiry, Option.some.inj hgranted]
      rfl
  | some token =>
    have hmem : token ∈ w.brokers.tokens := (List.mem_filter.mp (mem_of_matchingToken hmatch)).1
    exact complete_driveExisting lib cfg bc hrenewers hdistinct hmem hmatch hgranted

theorem complete_announceToken (obj : KafkaUser) (token : DelegationToken) (fresh : List Condition)
    (published : Option (List Condition)) (w : World BrokerState) :
    ∃ pending status, (announceToken obj token fresh published).complete (answer (healthy bc)) w =
      (.ok pending, w.with status w.brokers) := by
  unfold announceToken
  split
  · exact ⟨_, _, rfl⟩
  · exact ⟨_, w.user.status, rfl⟩

/-- The Secret holds this token. -/
def Holds (store : Operator.World) (name : String) (token : DelegationToken) : Prop :=
  ∃ secret, store.secret? name = some secret ∧
    secret.data.value? "token-id" = some (.text token.tokenId.toList) ∧
    secret.data.value? "hmac" = some token.hmac

theorem complete_persistToken (huid : obj.uid.isSome) (auth : DelegationTokenAuth) (nowMs : Int)
    (token : DelegationToken) (published : Option (List Condition)) (w : World BrokerState) :
    ∃ conditions pending status store,
      (persistToken lib cfg obj auth nowMs token published).complete (answer (healthy bc)) w =
        (.ok ⟨.requeue (computeRequeue token auth nowMs cfg.delegationTokenMinRequeue
            cfg.delegationTokenMaxRequeue), some conditions,
          some (computeRequeue token auth nowMs cfg.delegationTokenMinRequeue
            cfg.delegationTokenMaxRequeue), pending⟩,
          { w.with status w.brokers with store := store }) ∧
      Holds store obj.name token := by
  obtain ⟨pending, status, hannounce⟩ := complete_announceToken bc obj token
    (conditionsWithHistory obj token auth nowMs) published w
  obtain ⟨uid, huid⟩ := Option.isSome_iff_exists.mp huid
  refine ⟨(pending.map (inheritPublishedReady (conditionsWithHistory obj token auth nowMs))).getD
      (conditionsWithHistory obj token auth nowMs), pending.isSome,
    some ((StatusPatch.identity token.owner.name token.tokenId token.expiryTimestampMs
      token.maxTimestampMs pending).apply status),
    w.store.applySecret obj.name ⟨∅, User.tokenData (secretToken lib token)⟩, ?_, ?_⟩
  · unfold persistToken buildSecret
    dsimp only
    rw [Prog.complete_bind_of_ok hannounce, huid]
    rfl
  · refine ⟨_, World.secret?_applySecret_self, Fields.value?_apply_of_some ?_,
      Fields.value?_apply_of_some ?_⟩
    · simp [User.tokenData, secretToken, BTreeMap.getElem?_ofList, List.lookup_cons]
    · simp [User.tokenData, secretToken, BTreeMap.getElem?_ofList, List.lookup_cons]

/-- A pass to which the brokers grant a lifetime ends with a token in the Secret. -/
theorem complete_provisionToken {renewers : List KafkaPrincipal}
    (hparse : lib.parsePrincipal ("User:" ++ obj.name) = .ok ⟨"User", obj.name⟩)
    (hrenewers : auth.renewers.mapM lib.parsePrincipal = .ok renewers) (huid : obj.uid.isSome)
    (hdistinct : w.brokers.Distinct) {lifetime : Int}
    (hgranted : granted lib bc obj auth w.brokers w.clock = some lifetime) (bootstrap : String) :
    ∃ t access status b store,
      (provisionToken lib cfg obj bootstrap auth).complete (answer (healthy bc)) w =
        (.ok (.ready none (some access)), { w.with status b with store := store }) ∧
      t ∈ b.tokens ∧ t.expiryTimestampMs = w.clock + lifetime ∧ Holds store obj.name t ∧
      access.tokenRequeue = computeRequeue t auth w.clock cfg.delegationTokenMinRequeue
        cfg.delegationTokenMaxRequeue := by
  have hconnect : (admin (.connect bootstrap)).complete (answer (healthy bc)) w = (.ok (.ok ()), w) := rfl
  have hnow : nowMs.complete (answer (healthy bc)) w = (.ok w.clock, w) := rfl
  obtain ⟨t, pending, status, b, hdrive, ht, hexpiry⟩ :=
    complete_drive lib cfg bc hrenewers hdistinct hgranted
  obtain ⟨conditions, published, status', store, hpersist, hholds⟩ :=
    complete_persistToken lib cfg bc huid auth w.clock t pending (w.with status b)
  refine ⟨t, ⟨_, conditions, published⟩, status', b, store, ?_, ht, hexpiry, hholds, rfl⟩
  unfold provisionToken
  rw [Prog.complete_bind_of_ok hconnect]
  dsimp only
  rw [Prog.complete_bind_of_ok hnow]
  unfold reconcileToken
  rw [Prog.bind_assoc, Prog.complete_bind_of_ok (complete_describeTokens lib bc hparse w)]
  dsimp only
  rw [Prog.bind_assoc, Prog.complete_bind_of_ok hdrive]
  dsimp only
  rw [Prog.complete_bind_of_ok hpersist]
  rfl

end Stages

/-! ## A pass -/

/-- The spec of the token. -/
def KafkaUser.tokenAuth? (obj : KafkaUser) : Option DelegationTokenAuth :=
  match obj.authentication with
  | .delegationToken auth => some auth
  | _ => none

theorem authentication_of_tokenAuth? (h : auth ∈ obj.tokenAuth?) :
    obj.authentication = .delegationToken auth := by
  unfold KafkaUser.tokenAuth? at h
  split at h
  · next hauth => rw [hauth, Option.some.inj h]
  · cases h

/-- A pass over a token that only the brokers can stop. -/
structure Serves (lib : Lib) (w : World BrokerState) : Prop where
  applies : Applies lib w
  uid : w.user.uid.isSome = true
  renewers : ∃ auth ∈ w.user.tokenAuth?, (auth.renewers.mapM lib.parsePrincipal).isOk = true

instance : Decidable (Serves lib w) :=
  decidable_of_iff (Applies lib w ∧ w.user.uid.isSome = true ∧
      ∃ auth ∈ w.user.tokenAuth?, (auth.renewers.mapM lib.parsePrincipal).isOk = true)
    ⟨fun h => ⟨h.1, h.2.1, h.2.2⟩, fun h => ⟨h.applies, h.uid, h.renewers⟩⟩

/-- How long the token lives after a pass in this world. -/
def World.granted (lib : Lib) (bc : BrokerConfig) (w : World BrokerState) : Option Int :=
  w.user.tokenAuth? >>= fun auth => Access.granted lib bc w.user auth w.brokers w.clock

/-- The token in the Secret has not expired on the brokers. -/
def SecretLive (w : World BrokerState) : Prop :=
  ∃ t ∈ w.brokers.tokens, Holds w.store w.user.name t ∧ w.clock ≤ t.expiryTimestampMs

/-- The shortest time after which a pass may be due again. -/
def leastRequeue (cfg : Config) : Time :=
  min (min cfg.delegationTokenMinRequeue cfg.delegationTokenMaxRequeue) cfg.controllerDriftRequeue

theorem minimum_le {human : Time → String} {path : String} {minimum t : Time}
    (h : validateOptionalTime human path minimum (some t) = .ok ()) : minimum ≤ t := by
  simp only [validateOptionalTime, validateDelegationTokenTime] at h
  split at h
  · next hvalid => exact hvalid.1
  · cases h

theorem renewBefore_nonneg (h : validateTokenTimes lib.human (.delegationToken auth) = .ok ()) :
    0 ≤ renewBefore auth := by
  unfold validateTokenTimes at h
  dsimp only at h
  rw [Checks.bind_eq_ok] at h
  obtain ⟨_, _, h⟩ := h
  unfold renewBefore
  cases hbefore : auth.renewBeforeExpiry with
  | none => decide
  | some t =>
    rw [hbefore] at h
    have hminimum : (0 : Int) ≤ minutes 1 := by decide
    exact hminimum.trans (minimum_le h)

theorem clamp_lt_iff {x before low high drift : Int} (hbefore : 0 ≤ before) :
    min (min (max (x * 1000000 - before) low) high) drift < (x + 1) * 1000000 ↔
      min (min low high) drift < (x + 1) * 1000000 := by
  omega

/-- The token is due before it can expire exactly when it outlives the shortest requeue. -/
theorem requeue_lt_iff (hbefore : 0 ≤ renewBefore auth) (nowMs : Int) :
    min (computeRequeue token auth nowMs cfg.delegationTokenMinRequeue cfg.delegationTokenMaxRequeue)
        cfg.controllerDriftRequeue < millis (token.expiryTimestampMs - nowMs + 1) ↔
      leastRequeue cfg < millis (token.expiryTimestampMs - nowMs + 1) := by
  exact clamp_lt_iff hbefore

theorem pass_of_granted (cfg : Config)
    (hparse : lib.parsePrincipal ("User:" ++ w.user.name) = .ok ⟨"User", w.user.name⟩)
    (hserves : Serves lib w) (hdistinct : w.brokers.Distinct) {lifetime : Int}
    (hgranted : w.granted lib bc = some lifetime) :
    ∃ (requeue : Int) (t : DelegationToken) (v : World BrokerState),
      pass lib cfg (healthy bc) w = (.ok (.requeue requeue), v) ∧
      v.user.name = w.user.name ∧ v.clock = w.clock ∧
      t ∈ v.brokers.tokens ∧ Holds v.store w.user.name t ∧
      t.expiryTimestampMs = w.clock + lifetime ∧
      (requeue < millis (lifetime + 1) ↔ leastRequeue cfg < millis (lifetime + 1)) := by
  obtain ⟨auth, hauth, hrenewers⟩ := hserves.renewers
  have hauthentication := authentication_of_tokenAuth? hauth
  obtain ⟨renewers, hrenewers⟩ : ∃ renewers, auth.renewers.mapM lib.parsePrincipal = .ok renewers := by
    cases hmap : auth.renewers.mapM lib.parsePrincipal with
    | ok renewers => exact ⟨renewers, rfl⟩
    | error message => simp [hmap, Except.isOk, Except.toBool] at hrenewers
  have hbefore : 0 ≤ renewBefore auth := by
    have hspec := hserves.applies.prologue.spec
    rw [hauthentication] at hspec
    obtain ⟨_, htimes, _⟩ := Checks.bind_eq_ok.mp hspec
    exact renewBefore_nonneg htimes
  rw [World.granted, Option.mem_def.mp hauth] at hgranted
  obtain ⟨bootstrap, parent, _, hpass⟩ := pass_of_ready cfg bc hserves.applies
  obtain ⟨t, access, status, b, store, hprovision, ht, hexpiry, hholds, hrequeue⟩ :=
    complete_provisionToken lib cfg bc hparse hrenewers hserves.uid hdistinct hgranted bootstrap
  obtain ⟨action, status', haccess, haction⟩ := complete_reconcileAccess lib cfg bc w.user bootstrap
    (principalFor w.user.name w.user.authentication) none (some access)
    { w.with status b with store := store }
  rw [haction access rfl] at haccess
  have hprovision' : (provision lib cfg w.user bootstrap parent).complete (answer (healthy bc)) w =
      (.ok (.ready none (some access)), { w.with status b with store := store }) := by
    unfold provision
    rw [hauthentication]
    exact hprovision
  refine ⟨_, t, _, (hpass _ _ _ hprovision').trans haccess, rfl, rfl, ht, hholds, hexpiry, ?_⟩
  have hlifetime : t.expiryTimestampMs - w.clock = lifetime := by omega
  rw [hrequeue, ← hlifetime]
  exact requeue_lt_iff hbefore w.clock

/-! ## What every pass keeps -/

/-- Every token has a secret that the brokers drew, and no two have the same. -/
structure BrokerState.Minted (bc : BrokerConfig) (b : BrokerState) : Prop where
  distinct : b.Distinct
  drawn : ∀ t ∈ b.tokens, ∃ i < b.issued, t.hmac = (bc.mint i).2

/-- No two draws give the same secret. -/
def MintsFresh (bc : BrokerConfig) : Prop := Function.Injective fun i => (bc.mint i).2

theorem minted_answer (hfresh : MintsFresh bc) {b : BrokerState} (h : b.Minted bc) (r : AdminReq)
    (nowMs : Int) : ((healthy bc).answer r nowMs b).2.Minted bc := by
  cases r with
  | connect bootstrap => exact ⟨h.distinct, h.drawn⟩
  | alterScram sha512 upsertions deletions => exact ⟨h.distinct, h.drawn⟩
  | describeAcls filter => exact ⟨h.distinct, h.drawn⟩
  | createAcls entries => exact ⟨h.distinct, h.drawn⟩
  | deleteAcls filters => exact ⟨h.distinct, h.drawn⟩
  | describeUserQuotas username => exact ⟨h.distinct, h.drawn⟩
  | alterUserQuotas username ops => exact ⟨h.distinct, h.drawn⟩
  | describeDelegationToken owner => exact ⟨h.distinct, h.drawn⟩
  | createDelegationToken owner renewers maxLifetime =>
    constructor
    · refine (List.map_append ▸ List.nodup_append.mpr ⟨h.distinct, by simp, ?_⟩ :
        ((b.tokens ++ [b.newToken bc owner renewers maxLifetime nowMs]).map (·.hmac)).Nodup)
      intro x hx y hy hxy
      obtain ⟨t, ht, rfl⟩ := List.mem_map.mp hx
      obtain ⟨i, hi, hdrawn⟩ := h.drawn t ht
      rw [List.map_singleton, List.mem_singleton] at hy
      have heq : i = b.issued := hfresh (hdrawn.symm.trans (hxy.trans hy))
      omega
    · intro t ht
      rcases List.mem_append.mp ht with hold | hnew
      · obtain ⟨i, hi, hdrawn⟩ := h.drawn t hold
        exact ⟨i, Nat.lt_succ_of_lt hi, hdrawn⟩
      · exact ⟨b.issued, Nat.lt_succ_self _, by rw [List.mem_singleton.mp hnew]; rfl⟩
  | renewDelegationToken hmac =>
    have hsecrets : (b.renew bc hmac nowMs).tokens.map (·.hmac) = b.tokens.map (·.hmac) := by
      simp only [BrokerState.renew, List.map_map]
      apply List.map_congr_left
      intro t _
      simp only [Function.comp_apply]
      split <;> rfl
    have hrenewed : (b.renew bc hmac nowMs).Minted bc := by
      refine ⟨?_, fun t ht => ?_⟩
      · rw [BrokerState.Distinct, hsecrets]
        exact h.distinct
      have hmem : t.hmac ∈ b.tokens.map (·.hmac) := hsecrets ▸ List.mem_map_of_mem ht
      obtain ⟨u, hu, hsame⟩ := List.mem_map.mp hmem
      rw [← hsame]
      exact h.drawn u hu
    simp only [healthy]
    split
    · exact h
    · split
      · exact h
      · exact hrenewed
  | expireDelegationToken hmac =>
    exact ⟨h.distinct.sublist (List.filter_sublist.map _),
      fun t ht => h.drawn t (List.mem_filter.mp ht).1⟩

/-- The name of the user stays, and so does what holds of the secrets. -/
structure Steady (bc : BrokerConfig) (name : String) (w : World BrokerState) : Prop where
  sameName : w.user.name = name
  minted : w.brokers.Minted bc

theorem steady_answer (hfresh : MintsFresh bc) {name : String} {v : World BrokerState} (r : Req)
    (h : Steady bc name v) : Steady bc name (answer (healthy bc) r v).2 := by
  cases r with
  | getKafka name => exact ⟨h.sameName, h.minted⟩
  | patchStatus patch => exact ⟨h.sameName, h.minted⟩
  | setFinalizers finalizers => exact ⟨h.sameName, h.minted⟩
  | store r => exact ⟨h.sameName, h.minted⟩
  | now => exact ⟨h.sameName, h.minted⟩
  | admin r => exact ⟨h.sameName, minted_answer hfresh h.minted r v.clock⟩

theorem steady_pass (hfresh : MintsFresh bc) {name : String} (h : Steady bc name w) :
    Steady bc name (pass lib cfg (healthy bc) w).2 :=
  (Prog.makes_any (reconcileInner lib cfg w.user)).complete_invariant
    (fun _ r _ hv => steady_answer hfresh r hv) h

/-! ## Passes in time -/

/-- A world, and the latest start of the next pass in nanoseconds, once there was a pass. -/
structure Timeline where
  world : World BrokerState
  due : Option Int := none

inductive Moment where
  | wait (ms : Nat)
  | edit (auth : DelegationTokenAuth)
  | pass

def dueAfter (nowMs : Int) : Except ReconcileError Action → Option Int
  | .ok (.requeue requeue) => some (millis nowMs + requeue)
  | _ => none

section Run

variable (lib cfg bc)

def advance : Moment → Timeline → Timeline
  | .wait ms, s => { s with world := { s.world with clock := s.world.clock + ms } }
  | .edit auth, s =>
    { s with world := { s.world with user := { s.world.user with
        authentication := .delegationToken auth } } }
  | .pass, s => ⟨(pass lib cfg (healthy bc) s.world).2,
      dueAfter s.world.clock (pass lib cfg (healthy bc) s.world).1⟩

/-- A pass takes no time. -/
def timeExec (e : Moment) (s : Timeline) : List Timeline := [advance lib cfg bc e s]

/-- Passes start when they are due at the latest, and only the brokers stop them. -/
def Punctual (lib : Lib) : Moment → Timeline → Prop
  | .wait ms, s => ∀ due, s.due = some due → millis (s.world.clock + ms) ≤ due
  | .edit _, _ => True
  | .pass, s => Serves lib s.world

instance : (e : Moment) → (s : Timeline) → Decidable (Punctual lib e s)
  | .wait ms, s =>
    match h : s.due with
    | none => isTrue fun due hdue => by rw [h] at hdue; cases hdue
    | some due => decidable_of_iff (millis (s.world.clock + ms) ≤ due)
        ⟨fun hle due' hdue => by rw [h] at hdue; exact Option.some.inj hdue ▸ hle, fun hall => hall due h⟩
  | .edit _, _ => isTrue trivial
  | .pass, s => inferInstanceAs (Decidable (Serves lib s.world))

/-- The token outlives the shortest requeue. -/
def Suffices (lifetime : Int) : Prop := 0 ≤ lifetime ∧ leastRequeue cfg < millis (lifetime + 1)

instance (lifetime : Int) : Decidable (Suffices cfg lifetime) := inferInstanceAs (Decidable (_ ∧ _))

/-- The brokers grant each pass a lifetime that suffices. -/
def Lasting : Moment → Timeline → Prop
  | .pass, s => ∃ lifetime ∈ s.world.granted lib bc, Suffices cfg lifetime
  | _, _ => True

instance : (e : Moment) → (s : Timeline) → Decidable (Lasting lib cfg bc e s)
  | .pass, s => inferInstanceAs (Decidable (∃ lifetime ∈ s.world.granted lib bc, _))
  | .wait _, _ => isTrue trivial
  | .edit _, _ => isTrue trivial

end Run

/-- Once there was a pass, the token in the Secret is live. -/
def Timeline.Continuous (s : Timeline) : Prop := s.due.isSome = true → SecretLive s.world

/-- The invariant: the token in the Secret expires after the next pass is due. -/
structure Timely (bc : BrokerConfig) (name : String) (s : Timeline) : Prop extends
    Steady bc name s.world where
  outlives : ∀ due, s.due = some due → ∃ t ∈ s.world.brokers.tokens, Holds s.world.store name t ∧
    s.world.clock ≤ t.expiryTimestampMs ∧ due < millis (t.expiryTimestampMs + 1)

theorem Timely.continuous {name : String} {s : Timeline} (h : Timely bc name s) : s.Continuous := by
  intro hdue
  obtain ⟨due, hdue⟩ := Option.isSome_iff_exists.mp hdue
  obtain ⟨t, ht, hholds, hlive, _⟩ := h.outlives due hdue
  exact ⟨t, ht, h.sameName ▸ hholds, hlive⟩

theorem steady_advance (hfresh : MintsFresh bc) {name : String} (e : Moment) {s : Timeline}
    (h : Steady bc name s.world) : Steady bc name (advance lib cfg bc e s).world := by
  cases e with
  | wait ms => exact ⟨h.sameName, h.minted⟩
  | edit auth => exact ⟨h.sameName, h.minted⟩
  | pass => exact steady_pass hfresh h

theorem timely_advance (hfresh : MintsFresh bc) {name : String}
    (hparse : lib.parsePrincipal ("User:" ++ name) = .ok ⟨"User", name⟩) {e : Moment} {s : Timeline}
    (h : Timely bc name s) (hpunctual : Punctual lib e s) (hlasting : Lasting lib cfg bc e s) :
    Timely bc name (advance lib cfg bc e s) := by
  refine ⟨steady_advance hfresh e h.toSteady, ?_⟩
  cases e with
  | wait ms =>
    intro due hdue
    obtain ⟨t, ht, hholds, hlive, hlate⟩ := h.outlives due hdue
    have hstart : (s.world.clock + ms) * 1000000 ≤ due := hpunctual due hdue
    have hbound : due < (t.expiryTimestampMs + 1) * 1000000 := hlate
    refine ⟨t, ht, hholds, ?_, hlate⟩
    dsimp only [advance]
    omega
  | edit auth => exact h.outlives
  | pass =>
    obtain ⟨lifetime, hgranted, hlifetime, hsuffices⟩ := hlasting
    have hparse' : lib.parsePrincipal ("User:" ++ s.world.user.name) =
        .ok ⟨"User", s.world.user.name⟩ := by rw [h.sameName, hparse]
    obtain ⟨requeue, t, v, hpass, _, hclock, ht, hholds, hexpiry, hrequeue⟩ :=
      pass_of_granted cfg hparse' hpunctual h.minted.distinct hgranted
    intro due hdue
    simp only [advance, hpass, dueAfter, Option.some.injEq] at hdue ⊢
    rw [h.sameName] at hholds
    refine ⟨t, ht, hholds, ?_, ?_⟩
    · rw [hclock, hexpiry]
      omega
    · have hbefore : (requeue : Int) < (lifetime + 1) * 1000000 := hrequeue.mpr hsuffices
      have hstart : s.world.clock * 1000000 + requeue = due := hdue
      rw [hexpiry]
      show due < (s.world.clock + lifetime + 1) * 1000000
      omega

theorem timely_final (hfresh : MintsFresh bc) {name : String}
    (hparse : lib.parsePrincipal ("User:" ++ name) = .ok ⟨"User", name⟩) {es : List Moment}
    {s : Timeline} (h : Timely bc name s)
    (hpunctual : History.Along (timeExec lib cfg bc) (Punctual lib) es s)
    (hlasting : History.Along (timeExec lib cfg bc) (Lasting lib cfg bc) es s) :
    ∀ t ∈ History.states (timeExec lib cfg bc) es s, Timely bc name t := by
  refine History.invariant_states h (hpunctual.and hlasting) fun e s he hs t ht => ?_
  rw [timeExec, List.mem_singleton] at ht
  rw [ht]
  exact timely_advance hfresh hparse hs he.1 he.2

theorem steady_final (hfresh : MintsFresh bc) {name : String} (es : List Moment) {s : Timeline}
    (h : Steady bc name s.world) :
    Steady bc name (History.final (timeExec lib cfg bc) es s).world := by
  induction es generalizing s with
  | nil => exact h
  | cons e es ih => exact ih (steady_advance hfresh e h)

/-- A pass that is granted too little leads to a time at which the token has expired. -/
theorem expires_after (hfresh : MintsFresh bc) {name : String}
    (hparse : lib.parsePrincipal ("User:" ++ name) = .ok ⟨"User", name⟩) {s : Timeline}
    (h : Steady bc name s.world) (hserves : Serves lib s.world) {lifetime : Int}
    (hgranted : s.world.granted lib bc = some lifetime) (hshort : ¬ Suffices cfg lifetime) :
    ∃ rest, History.Along (timeExec lib cfg bc) (Punctual lib) (.pass :: rest) s ∧
      ¬ (History.final (timeExec lib cfg bc) (.pass :: rest) s).Continuous := by
  have hparse' : lib.parsePrincipal ("User:" ++ s.world.user.name) =
      .ok ⟨"User", s.world.user.name⟩ := by rw [h.sameName, hparse]
  obtain ⟨requeue, t, v, hpass, hname, hclock, ht, hholds, hexpiry, hrequeue⟩ :=
    pass_of_granted cfg hparse' hserves h.minted.distinct hgranted
  have hminted : v.brokers.Minted bc := by
    have hsteady : Steady bc name (pass lib cfg (healthy bc) s.world).2 := steady_pass hfresh h
    rw [hpass] at hsteady
    exact hsteady.minted
  -- the token in the Secret is this one, so nothing else can be live
  have hdead : ∀ ms : Nat, lifetime < ms → ¬ SecretLive { v with clock := v.clock + ms } := by
    rintro ms hms ⟨t', ht', ⟨secret', hsecret', _, hhmac'⟩, hlive'⟩
    obtain ⟨secret, hsecret, _, hhmac⟩ := hholds
    rw [← hname] at hsecret
    have hsame : secret' = secret := Option.some.inj (hsecret'.symm.trans hsecret)
    rw [hsame, hhmac] at hhmac'
    have heq : t = t' := List.inj_on_of_nodup_map hminted.distinct ht ht' (Option.some.inj hhmac')
    subst heq
    dsimp only at hlive'
    omega
  have hnext : advance lib cfg bc .pass s = ⟨v, some (millis s.world.clock + requeue)⟩ := by
    simp only [advance, hpass, dueAfter]
  by_cases hpositive : 0 ≤ lifetime
  · have hlate : ¬ requeue < millis (lifetime + 1) :=
      fun hearly => hshort ⟨hpositive, hrequeue.mp hearly⟩
    have hrequeue' : (lifetime + 1) * 1000000 ≤ (requeue : Int) := not_lt.mp hlate
    refine ⟨[.wait (lifetime + 1).toNat], ⟨hserves, ?_, trivial⟩, fun hcontinuous => ?_⟩
    · show Punctual lib (.wait (lifetime + 1).toNat) (advance lib cfg bc .pass s)
      rw [hnext]
      intro due hdue
      have hstart : s.world.clock * 1000000 + requeue = due := Option.some.inj hdue
      show (v.clock + (lifetime + 1).toNat) * 1000000 ≤ due
      omega
    · change (advance lib cfg bc (.wait (lifetime + 1).toNat)
        (advance lib cfg bc .pass s)).Continuous at hcontinuous
      rw [hnext] at hcontinuous
      exact hdead (lifetime + 1).toNat (by omega) (hcontinuous rfl)
  · refine ⟨[], ⟨hserves, trivial⟩, fun hcontinuous => ?_⟩
    change (advance lib cfg bc .pass s).Continuous at hcontinuous
    rw [hnext] at hcontinuous
    refine hdead 0 (by omega) ?_
    have hlive := hcontinuous rfl
    rwa [show { v with clock := v.clock + ((0 : Nat) : Int) } = v by simp]

/-- In a run whose passes are all granted a lifetime that suffices, the token in the Secret is
    live at every time after the first pass. A pass that is granted less can be followed, with
    the next pass still in time, by a time at which it has expired. -/
theorem token_continuity (hfresh : MintsFresh bc) {s : Timeline}
    (hparse : lib.parsePrincipal ("User:" ++ s.world.user.name) = .ok ⟨"User", s.world.user.name⟩)
    (hminted : s.world.brokers.Minted bc) (hstart : s.due = none) :
    (∀ es, History.Along (timeExec lib cfg bc) (Punctual lib) es s →
      History.Along (timeExec lib cfg bc) (Lasting lib cfg bc) es s →
      ∀ t ∈ History.states (timeExec lib cfg bc) es s, t.Continuous) ∧
    ∀ es, History.Along (timeExec lib cfg bc) (Punctual lib) es s →
      Serves lib (History.final (timeExec lib cfg bc) es s).world →
      ∀ lifetime, (History.final (timeExec lib cfg bc) es s).world.granted lib bc = some lifetime →
        ¬ Suffices cfg lifetime →
        ∃ rest, History.Along (timeExec lib cfg bc) (Punctual lib) (es ++ .pass :: rest) s ∧
          ¬ (History.final (timeExec lib cfg bc) (es ++ .pass :: rest) s).Continuous := by
  have hsteady : Steady bc s.world.user.name s.world := ⟨rfl, hminted⟩
  constructor
  · intro es hpunctual hlasting t ht
    have htimely : Timely bc s.world.user.name s := by
      refine ⟨hsteady, fun due hdue => ?_⟩
      rw [hstart] at hdue
      cases hdue
    exact (timely_final hfresh hparse htimely hpunctual hlasting t ht).continuous
  · intro es hpunctual hserves lifetime hgranted hshort
    obtain ⟨rest, hrest, hexpired⟩ :=
      expires_after hfresh hparse (steady_final hfresh es hsteady) hserves hgranted hshort
    refine ⟨rest, hpunctual.join hrest, ?_⟩
    rwa [History.final_append]

/-! ## A token that lasts, and the end of one -/

/-- A user with a token of this spec, in a cluster that is ready. -/
def tokenUserWith (auth : DelegationTokenAuth) : Timeline where
  world := {
    user := {
      name := "alice", uid := some "uid"
      labels := BTreeMap.ofList [("krabka.io/cluster", "demo")]
      deleting := false, authentication := .delegationToken auth, finalizers := [finalizer] }
    kafkas := [.ready "demo"]
    store := .empty
    brokers := {}
    clock := 0 }

/-- Passes every minute. -/
def minutePasses : List Moment := [.pass, .wait 60000, .pass, .wait 60000, .pass, .wait 60000, .pass]

theorem Sample.mintsFresh : MintsFresh Sample.brokerConfig := by
  intro i j h
  have htext : (toString i).toList = (toString j).toList := ByteString.text.inj h
  have hint : toString (i : Int) = toString (j : Int) := String.toList_injective htext
  exact Int.ofNat.inj (Decimal.toString_injective hint)

theorem minted_none : ({} : BrokerState).Minted bc := by
  refine ⟨List.nodup_nil, fun t ht => ?_⟩
  cases ht

/-- The token of a day lasts. -/
theorem day_token_lasts : SecretLive (History.final (timeExec Sample.lib {} Sample.brokerConfig)
    minutePasses (tokenUserWith { renewers := [] })).world :=
  (token_continuity Sample.mintsFresh (by decide) minted_none rfl).1 minutePasses (by decide)
    (by decide) _ History.final_mem_states (by decide)

/-- A token that may live for 150 seconds is never replaced. The passes at 60 and 120 seconds
    leave it to its end, and the one at 180 seconds finds it expired. -/
theorem short_token_expires :
    let auth : DelegationTokenAuth := { renewers := [], maxLifetime := some (secs 150) }
    let last := History.final (timeExec Sample.lib {} Sample.brokerConfig) minutePasses
      (tokenUserWith auth)
    History.Along (timeExec Sample.lib {} Sample.brokerConfig) (Punctual Sample.lib) minutePasses
        (tokenUserWith auth) ∧
      last.due.isSome = true ∧ last.world.brokers.tokens.length = 1 ∧ ¬ SecretLive last.world := by
  intro auth last
  have hexpired : ∀ t ∈ last.world.brokers.tokens, t.expiryTimestampMs < last.world.clock := by
    decide
  refine ⟨by decide, by decide, by decide, ?_⟩
  rintro ⟨t, ht, _, hlive⟩
  exact absurd hlive (not_le.mpr (hexpired t ht))

end Access
