-- SUMMARY: What a pass over a user changes on brokers that carry out every call: the credentials of its type, and the ACLs and quotas under its principal.
import KrabkaOperator.Access.Broker
import KrabkaOperator.Access.TokenRequests
import KrabkaOperator.Base.MapDiff
import Mathlib.Data.List.Dedup

/-!
# Effects of a user pass

A pass writes a SCRAM credential of one mechanism, and ACLs and quotas under one principal.
What the brokers hold under the other mechanism or the other principal stays as it is.
-/

namespace Access

open Kube Crd Operator Admin

/-! ## ACLs -/

@[simp] theorem matches_entryToExactFilter {d e : AclEntry} :
    (entryToExactFilter d).Matches e ↔ e = d := by
  obtain ⟨type, name, pattern, principal, host, operation, permission⟩ := e
  simp [AclEntryFilter.Matches, entryToExactFilter, AclEntry.ext_iff]

@[simp] theorem matches_principal {p : String} {e : AclEntry} :
    ({ principal := some p } : AclEntryFilter).Matches e ↔ e.principal = p := by
  simp [AclEntryFilter.Matches]

theorem principal_of_mem_expandSpecAcls {auth : Option Authorization} {p : String} {e : AclEntry}
    (h : e ∈ expandSpecAcls auth p) : e.principal = p := by
  cases auth with
  | none => cases h
  | some simple =>
    obtain ⟨rule, _, he⟩ := List.mem_flatMap.mp h
    obtain ⟨op, _, rfl⟩ := List.mem_map.mp he
    rfl

/-- The entries after the changes of a diff, additions first. -/
def changedAcls (acls : List AclEntry) (changes : List AclEntry × List AclEntry) : List AclEntry :=
  (acls ++ changes.1).filter (· ∉ changes.2)

/-- The entries after the stage of the ACLs. -/
def syncedAcls (authorization : Option Authorization) (principal : String) (acls : List AclEntry) :
    List AclEntry :=
  match authorization with
  | none => acls
  | some _ => changedAcls acls (diffAcls (acls.filter (·.principal = principal))
      (expandSpecAcls authorization principal))

/-- The stage sets the entries of the principal to those of the spec. -/
theorem mem_syncedAcls {authorization : Option Authorization} {principal : String}
    {acls : List AclEntry} {e : AclEntry} :
    e ∈ syncedAcls authorization principal acls ↔
      if authorization.isSome ∧ e.principal = principal then e ∈ expandSpecAcls authorization principal
      else e ∈ acls := by
  cases authorization with
  | none => simp [syncedAcls]
  | some simple =>
    simp only [syncedAcls, changedAcls, diffAcls, List.mem_filter, List.mem_append, List.mem_dedup,
      decide_eq_true_eq]
    by_cases hp : e.principal = principal
    · simp only [hp, Option.isSome_some, and_self, ↓reduceIte, and_true]
      tauto
    · have hdesired : e ∉ expandSpecAcls (some simple) principal :=
        mt principal_of_mem_expandSpecAcls hp
      simp [hp, hdesired]

/-! ## Quotas -/

/-- The operations lead from the first quotas to the second. -/
def DiffApplies (diff : (current desired : QuotaMap) → List QuotaOp) : Prop :=
  ∀ current desired, (diff current desired).foldl QuotaOp.apply current = desired

def QuotaOp.key : QuotaOp → String
  | .set key _ => key
  | .remove key => key

def QuotaOp.value? : QuotaOp → Option Rat
  | .set _ value => some value
  | .remove _ => none

def QuotaOp.toChange (op : QuotaOp) : MapDiff.Change String Rat := (op.key, op.value?)

theorem foldl_apply (ops : List QuotaOp) (m : QuotaMap) :
    ops.foldl QuotaOp.apply m = (ops.map QuotaOp.toChange).foldl MapDiff.change m := by
  have happly : QuotaOp.apply = fun m op => MapDiff.change m op.toChange := by
    funext m op
    cases op with
    | set key value => rfl
    | remove key => rfl
  rw [List.foldl_map, happly]

/-- Operations that agree about a key. -/
theorem getElem?_foldl_apply {ops : List QuotaOp} {m : QuotaMap} {k : String} {r : Option Rat}
    (hagree : ∀ op ∈ ops, op.key = k → op.value? = r) :
    (ops.foldl QuotaOp.apply m)[k]? = if ∃ op ∈ ops, op.key = k then r else m[k]? := by
  rw [foldl_apply, MapDiff.getElem?_foldl_change (r := r)]
  · simp only [List.mem_map, exists_exists_and_eq_and, QuotaOp.toChange]
  · intro c hc
    obtain ⟨op, hop, rfl⟩ := List.mem_map.mp hc
    exact hagree op hop

/-- The diff of the small instance does. -/
theorem Sample.diffUserQuotas_applies : DiffApplies Sample.diffUserQuotas := by
  intro current desired
  have hdiff : (Sample.diffUserQuotas current desired).map QuotaOp.toChange =
      MapDiff.diff current desired := by
    simp only [Sample.diffUserQuotas, MapDiff.diff, List.map_append, List.map_map]
    rfl
  rw [foldl_apply, hdiff, MapDiff.foldl_diff]

/-- The quotas after their stage. -/
def syncedQuotas (lib : Lib) (quotas : Option KafkaUserQuotas) (username : String)
    (b : BrokerState) : BTreeMap QuotaMap :=
  match quotas with
  | none => b.quotas
  | some q =>
    let ops := lib.diffUserQuotas (b.quota username) q.toQuotaMap
    if ops = [] then b.quotas else (b.alterQuotas username ops).quotas

@[simp] theorem quota_alterQuotas {b : BrokerState} {username name : String} {ops : List QuotaOp} :
    (b.alterQuotas username ops).quota name =
      if username = name then ops.foldl QuotaOp.apply (b.quota username) else b.quota name := by
  unfold BrokerState.quota BrokerState.alterQuotas
  rw [Std.ExtTreeMap.getElem?_insert]
  by_cases h : username = name
  · subst h
    simp [BrokerState.quota]
  · simp [h, Std.LawfulEqCmp.compare_eq_iff_eq]

/-- The stage sets the quotas under the name to those of the spec. -/
theorem quota_synced {lib : Lib} (hdiff : DiffApplies lib.diffUserQuotas)
    {quotas : Option KafkaUserQuotas} {username name : String} {b : BrokerState} :
    ({ b with quotas := syncedQuotas lib quotas username b } : BrokerState).quota name =
      if username = name then (quotas.map (·.toQuotaMap)).getD (b.quota name) else b.quota name := by
  cases quotas with
  | none => simp [syncedQuotas, BrokerState.quota]
  | some q =>
    have happly := hdiff (b.quota username) q.toQuotaMap
    unfold syncedQuotas
    dsimp only
    split
    · next hnone =>
      rw [hnone, List.foldl_nil] at happly
      split
      · next heq =>
        subst heq
        exact happly
      · rfl
    · refine (show _ = (b.alterQuotas username _).quota name from rfl).trans ?_
      rw [quota_alterQuotas, happly]
      rfl

/-! ## What a pass keeps -/

variable {lib : Lib} {cfg : Config} {bc : BrokerConfig} {w v : World BrokerState} {obj : KafkaUser}

/-- The same user, apart from its status, among the same parents and at the same time. -/
structure SameUser (w v : World BrokerState) : Prop where
  user : ∃ status, v.user = { w.user with status := status }
  kafkas : v.kafkas = w.kafkas
  clock : v.clock = w.clock

/-- Only tokens and Secrets may change. -/
structure Kept (w v : World BrokerState) : Prop extends SameUser w v where
  scram : v.brokers.scram = w.brokers.scram
  acls : v.brokers.acls = w.brokers.acls
  quotas : v.brokers.quotas = w.brokers.quotas

theorem SameUser.refl (w : World BrokerState) : SameUser w w := ⟨⟨_, rfl⟩, rfl, rfl⟩

theorem Kept.refl (w : World BrokerState) : Kept w w := ⟨.refl w, rfl, rfl, rfl⟩

/-- The requests that work on a token, on Secrets or on the status. -/
def KeepsAccess : Req → Prop
  | .patchStatus _ => True
  | .store _ => True
  | .now => True
  | .admin (.connect _) => True
  | .admin (.createDelegationToken _ _ _) => True
  | .admin (.renewDelegationToken _) => True
  | .admin (.expireDelegationToken _) => True
  | .admin (.describeDelegationToken _) => True
  | _ => False

theorem kept_answer {r : Req} (hr : KeepsAccess r) (h : Kept w v) :
    Kept w (answer (healthy bc) r v).2 := by
  obtain ⟨⟨⟨status, huser⟩, hkafkas, hclock⟩, hscram, hacls, hquotas⟩ := h
  cases r with
  | getKafka name => exact hr.elim
  | setFinalizers finalizers => exact hr.elim
  | patchStatus new =>
    refine ⟨⟨⟨some (new.apply status), ?_⟩, hkafkas, hclock⟩, hscram, hacls, hquotas⟩
    simp only [answer, huser]
  | store r => exact ⟨⟨⟨status, huser⟩, hkafkas, hclock⟩, hscram, hacls, hquotas⟩
  | now => exact ⟨⟨⟨status, huser⟩, hkafkas, hclock⟩, hscram, hacls, hquotas⟩
  | admin r =>
    have hbrokers : (((healthy bc).answer r v.clock v.brokers).2.scram = v.brokers.scram) ∧
        ((healthy bc).answer r v.clock v.brokers).2.acls = v.brokers.acls ∧
        ((healthy bc).answer r v.clock v.brokers).2.quotas = v.brokers.quotas := by
      cases r with
      | connect bootstrap => exact ⟨rfl, rfl, rfl⟩
      | createDelegationToken owner renewers maxLifetime => exact ⟨rfl, rfl, rfl⟩
      | expireDelegationToken hmac => exact ⟨rfl, rfl, rfl⟩
      | describeDelegationToken owner => exact ⟨rfl, rfl, rfl⟩
      | renewDelegationToken hmac =>
        simp only [healthy]
        split
        · exact ⟨rfl, rfl, rfl⟩
        · split
          · exact ⟨rfl, rfl, rfl⟩
          · exact ⟨rfl, rfl, rfl⟩
      | alterScram sha512 upsertions deletions => exact hr.elim
      | describeAcls filter => exact hr.elim
      | createAcls entries => exact hr.elim
      | deleteAcls filters => exact hr.elim
      | describeUserQuotas username => exact hr.elim
      | alterUserQuotas username ops => exact hr.elim
    exact ⟨⟨⟨status, huser⟩, hkafkas, hclock⟩, hbrokers.1.trans hscram, hbrokers.2.1.trans hacls,
      hbrokers.2.2.trans hquotas⟩

/-- A program of such requests keeps the access. -/
theorem kept_complete (bc : BrokerConfig) {α : Type} {p : Op α} (h : p.Makes KeepsAccess)
    (w : World BrokerState) :
    Kept w (p.complete (answer (healthy bc)) w).2 :=
  h.complete_invariant (fun _ _ hr hv => kept_answer hr hv) (.refl w)

section Makes

theorem Quiet.keepsAccess {r : Req} (h : Quiet r) : KeepsAccess r := by
  cases r with
  | patchStatus patch => trivial
  | store r => trivial
  | getKafka name => exact h.elim
  | setFinalizers finalizers => exact h.elim
  | admin r => exact h.elim
  | now => exact h.elim

theorem TokenRequest.keepsAccess {name : String} {auth : DelegationTokenAuth} {r : Req}
    (h : TokenRequest lib name auth r) : KeepsAccess r := by
  cases h with
  | quiet h => exact h.keepsAccess
  | describe owner => trivial
  | create h => trivial
  | renew hmac => trivial
  | expire hmac => trivial

theorem provisionToken_makes (bootstrap : String) (auth : DelegationTokenAuth) :
    (provisionToken lib cfg obj bootstrap auth).Makes KeepsAccess := by
  apply Prog.makes_request
  · trivial
  · intro connected
    cases connected with
    | error e =>
      apply ((onAdminError_makes _ _ _ _).mono fun _ => Quiet.keepsAccess).bind
      exact fun _ => trivial
    | ok u =>
      refine ⟨trivial, fun now => ?_⟩
      apply ((reconcileToken_makes now).mono fun _ => TokenRequest.keepsAccess).bind
      intro out
      split
      · trivial
      · trivial

theorem provisionTls_makes (parent : Parent) (auth : TlsAuth) :
    (provisionTls lib cfg obj parent auth).Makes KeepsAccess :=
  ((onStore_makes _).mono fun _ => Quiet.keepsAccess).attempt_bind (fun _ => trivial) fun _ => trivial

end Makes

/-! ## Credentials -/

/-- The brokers have a SCRAM credential of the mechanism for the name. -/
def BrokerState.HasScram (b : BrokerState) (name : String) (sha512 : Bool) : Prop :=
  ∃ c ∈ b.scram, c.sha512 = sha512 ∧ c.username = name

theorem hasScram_upsert {b : BrokerState} {name : String} {m sha512 : Bool} {password : List Char}
    {iterations : Int} :
    (b.alterScram m [⟨name, password, iterations⟩] []).HasScram name sha512 ↔
      m = sha512 ∨ b.HasScram name sha512 := by
  constructor
  · rintro ⟨c, hc, hmech, hname⟩
    rcases List.mem_append.mp hc with hold | hnew
    · exact .inr ⟨c, (List.mem_filter.mp hold).1, hmech, hname⟩
    · rw [List.map_singleton, List.mem_singleton] at hnew
      exact .inl (hmech ▸ hnew ▸ rfl)
  · intro h
    by_cases hm : m = sha512
    · exact ⟨⟨m, name, password, iterations⟩, by simp [BrokerState.alterScram], hm, rfl⟩
    · obtain ⟨c, hc, hmech, hname⟩ := h.resolve_left hm
      refine ⟨c, List.mem_append_left _ (List.mem_filter.mpr ⟨hc, ?_⟩), hmech, hname⟩
      simp [hmech, Ne.symm hm]

theorem hasScram_delete {b : BrokerState} {name : String} {m sha512 : Bool} :
    (b.alterScram m [] [name]).HasScram name sha512 ↔ m ≠ sha512 ∧ b.HasScram name sha512 := by
  simp only [BrokerState.HasScram, BrokerState.alterScram, List.map_nil, List.append_nil,
    List.mem_filter, List.mem_singleton, List.not_mem_nil, or_false, not_and, decide_eq_true_eq]
  constructor
  · rintro ⟨c, ⟨hc, hkept⟩, hmech, hname⟩
    exact ⟨fun hm => hkept (hmech.trans hm.symm) hname, c, hc, hmech, hname⟩
  · rintro ⟨hm, c, hc, hmech, hname⟩
    exact ⟨c, ⟨hc, fun h => absurd (h.symm.trans hmech) hm⟩, hmech, hname⟩

/-- A successful provisioning of SCRAM upserts one credential. -/
theorem complete_provisionScram {bootstrap : String} {sha512 : Bool} {auth : ScramAuth}
    {tlsNotAfter : Option String} {token : Option TokenAccessState}
    (h : (provisionScram lib cfg obj bootstrap sha512 auth).complete (answer (healthy bc)) w =
      (.ok (.ready tlsNotAfter token), v)) :
    ∃ u password iterations, Kept w u ∧ v = { u with
      brokers := u.brokers.alterScram sha512 [⟨obj.name, password, iterations⟩] [] } := by
  have hstore := kept_complete bc ((onStore_makes (User.ensurePasswordSecret lib.ca obj.toKafkaUser
    (auth.passwordLength.getD 32))).mono fun _ => Quiet.keepsAccess) w
  unfold provisionScram at h
  rw [Prog.complete_bind_of_ok (Prog.complete_attempt _ w)] at h
  revert h
  cases hpassword : ((onStore (User.ensurePasswordSecret lib.ca obj.toKafkaUser
      (auth.passwordLength.getD 32))).complete (answer (healthy bc)) w).1 with
  | error e =>
    intro h
    simp [Prog.complete] at h
  | ok password =>
    intro h
    exact ⟨_, password, _, hstore, (Prod.ext_iff.mp h).2.symm⟩

/-- What a successful provisioning leaves: a credential of the mechanism of the type, beside
    those that were there. -/
structure Granted (w v : World BrokerState) : Prop extends SameUser w v where
  scram : ∀ sha512, v.brokers.HasScram w.user.name sha512 ↔
    scramMechanism? w.user.authentication = some sha512 ∨ w.brokers.HasScram w.user.name sha512
  acls : v.brokers.acls = w.brokers.acls
  quotas : v.brokers.quotas = w.brokers.quotas

theorem Kept.granted (h : Kept w v) (hnone : scramMechanism? w.user.authentication = none) :
    Granted w v := by
  refine ⟨h.toSameUser, fun sha512 => ?_, h.acls, h.quotas⟩
  unfold BrokerState.HasScram
  rw [hnone, h.scram]
  simp

theorem granted_scram {bootstrap : String} {sha512 : Bool} {auth : ScramAuth}
    {tlsNotAfter : Option String} {token : Option TokenAccessState}
    (hmech : scramMechanism? w.user.authentication = some sha512)
    (h : (provisionScram lib cfg w.user bootstrap sha512 auth).complete (answer (healthy bc)) w =
      (.ok (.ready tlsNotAfter token), v)) : Granted w v := by
  obtain ⟨u, password, iterations, hkept, rfl⟩ := complete_provisionScram h
  refine ⟨⟨hkept.user, hkept.kafkas, hkept.clock⟩, fun m => ?_, hkept.acls, hkept.quotas⟩
  rw [hasScram_upsert, hmech, Option.some.injEq, BrokerState.HasScram, hkept.scram]
  rfl

theorem granted_provision {bootstrap : String} {parent : Parent} {tlsNotAfter : Option String}
    {token : Option TokenAccessState}
    (h : (provision lib cfg w.user bootstrap parent).complete (answer (healthy bc)) w =
      (.ok (.ready tlsNotAfter token), v)) : Granted w v := by
  unfold provision at h
  cases hauth : w.user.authentication with
  | scramSha512 auth =>
    rw [hauth] at h
    exact granted_scram (by rw [hauth]; rfl) h
  | scramSha256 auth =>
    rw [hauth] at h
    exact granted_scram (by rw [hauth]; rfl) h
  | tls auth =>
    rw [hauth] at h
    have hkept := kept_complete bc (show (provisionTls lib cfg w.user parent auth).Makes KeepsAccess
      from provisionTls_makes parent auth) w
    rw [h] at hkept
    exact hkept.granted (by rw [hauth]; rfl)
  | tlsExternal =>
    rw [hauth] at h
    cases h
    exact (Kept.refl w).granted (by rw [hauth]; rfl)
  | delegationToken auth =>
    rw [hauth] at h
    have hkept := kept_complete bc (show (provisionToken lib cfg w.user bootstrap auth).Makes
      KeepsAccess from provisionToken_makes bootstrap auth) w
    rw [h] at hkept
    exact hkept.granted (by rw [hauth]; rfl)

/-! ## The stages of ACLs and quotas -/

/-- The world with other brokers, and another status of the user. -/
def World.with (w : World BrokerState) (status : Option KafkaUserStatus) (b : BrokerState) :
    World BrokerState :=
  { w with user := { w.user with status := status }, brokers := b }

/-- The stages of ACLs and quotas do not change when the token is due. -/
def SameRequeue (token token' : Option TokenAccessState) : Prop :=
  token'.map (·.tokenRequeue) = token.map (·.tokenRequeue)

theorem SameRequeue.trans {t t' t'' : Option TokenAccessState} (h : SameRequeue t t')
    (h' : SameRequeue t' t'') : SameRequeue t t'' := Eq.trans h' h

theorem SameRequeue.of_some {token token' : Option TokenAccessState} {t : TokenAccessState}
    (h : SameRequeue token token') (ht : token = some t) :
    ∃ t', token' = some t' ∧ t'.tokenRequeue = t.tokenRequeue := by
  rw [SameRequeue, ht, Option.map_some, Option.map_eq_some_iff] at h
  exact h

/-- The tokens of an owner, also those that have expired. -/
def BrokerState.owned (b : BrokerState) (name : String) : List DelegationToken :=
  b.tokens.filter (·.owner = ⟨"User", name⟩)

section Stages

variable (lib cfg bc)

theorem complete_describeTokens {name : String}
    (hparse : lib.parsePrincipal ("User:" ++ name) = .ok ⟨"User", name⟩) (w : World BrokerState) :
    (describeDelegationTokensOwnedBy lib ("User:" ++ name)).complete (answer (healthy bc)) w =
      (.ok (.ok (w.brokers.owned name)), w) := by
  unfold describeDelegationTokensOwnedBy
  rw [hparse]
  rfl

theorem complete_ensureTokenAccessPending (token : Option TokenAccessState) (w : World BrokerState) :
    ∃ token' status, (ensureTokenAccessPending token).complete (answer (healthy bc)) w =
      (.ok token', w.with status w.brokers) ∧ SameRequeue token token' := by
  cases token with
  | none => exact ⟨_, w.user.status, rfl, rfl⟩
  | some token =>
    unfold ensureTokenAccessPending
    dsimp only
    split
    · exact ⟨_, w.user.status, rfl, rfl⟩
    · exact ⟨_, _, rfl, rfl⟩

theorem complete_announceChange (changed : Bool) (token : Option TokenAccessState)
    (w : World BrokerState) :
    ∃ token' status, (announceChange changed token).complete (answer (healthy bc)) w =
      (.ok token', w.with status w.brokers) ∧ SameRequeue token token' := by
  unfold announceChange
  split
  · exact complete_ensureTokenAccessPending bc token w
  · exact ⟨_, w.user.status, rfl, rfl⟩

theorem complete_applyCreateAcls (additions : List AclEntry) (w : World BrokerState) :
    (applyCreateAcls additions).complete (answer (healthy bc)) w =
      (.ok none, { w with brokers := { w.brokers with acls := w.brokers.acls ++ additions } }) := by
  unfold applyCreateAcls
  split
  · next h =>
    rw [h, List.append_nil]
    rfl
  · rfl

theorem complete_applyDeleteAcls (deletions : List AclEntry) (w : World BrokerState) :
    (applyDeleteAcls deletions).complete (answer (healthy bc)) w =
      (.ok none, { w with brokers := { w.brokers with
        acls := w.brokers.acls.filter (· ∉ deletions) } }) := by
  unfold applyDeleteAcls
  split
  · next h =>
    have hall : w.brokers.acls.filter (· ∉ deletions) = w.brokers.acls := by simp [h]
    rw [hall]
    rfl
  · have hsame : w.brokers.acls.filter
        (fun e => ¬ ∃ f ∈ deletions.map entryToExactFilter, f.Matches e) =
          w.brokers.acls.filter (· ∉ deletions) := by
      apply List.filter_congr
      intro e _
      simp
    rw [← hsame]
    rfl

theorem complete_applyAcls (obj : KafkaUser) (changes : List AclEntry × List AclEntry)
    (token : Option TokenAccessState) (w : World BrokerState) :
    ∃ token' status, (applyAcls cfg obj changes.1 changes.2 token).complete (answer (healthy bc)) w =
      (.ok (.ok token'), w.with status { w.brokers with
        acls := changedAcls w.brokers.acls changes }) ∧ SameRequeue token token' := by
  obtain ⟨token', status, hannounce, hsame⟩ := complete_announceChange bc
    (changes.1 ≠ [] || changes.2 ≠ []) token w
  refine ⟨token', status, ?_, hsame⟩
  unfold applyAcls
  rw [Prog.complete_bind_of_ok hannounce, Prog.complete_bind_of_ok (complete_applyCreateAcls bc _ _)]
  dsimp only
  rw [Prog.complete_bind_of_ok (complete_applyDeleteAcls bc _ _)]
  rfl

theorem complete_reconcileAcls (obj : KafkaUser) (principal : String)
    (token : Option TokenAccessState) (w : World BrokerState) :
    ∃ token' status, (reconcileAcls cfg obj principal token).complete (answer (healthy bc)) w =
      (.ok (.ok token'), w.with status { w.brokers with
        acls := syncedAcls obj.authorization principal w.brokers.acls }) ∧ SameRequeue token token' := by
  unfold reconcileAcls syncedAcls
  cases obj.authorization with
  | none => exact ⟨token, w.user.status, rfl, rfl⟩
  | some simple =>
    have hdescribe : (admin (.describeAcls { principal := some principal })).complete
        (answer (healthy bc)) w =
          (.ok (.ok (w.brokers.acls.filter (·.principal = principal))), w) := by
      have hsame : w.brokers.acls.filter
          (fun e => ({ principal := some principal } : AclEntryFilter).Matches e) =
            w.brokers.acls.filter (·.principal = principal) := by
        apply List.filter_congr
        intro e _
        simp
      rw [← hsame]
      rfl
    dsimp only
    rw [Prog.complete_bind_of_ok hdescribe]
    exact complete_applyAcls cfg bc obj _ token w

theorem complete_reconcileQuotas (obj : KafkaUser) (username : String)
    (token : Option TokenAccessState) (w : World BrokerState) :
    ∃ inSync token' status,
      (reconcileQuotas lib cfg obj username token).complete (answer (healthy bc)) w =
        (.ok (.ok (inSync, token')), w.with status { w.brokers with
          quotas := syncedQuotas lib obj.quotas username w.brokers }) ∧ SameRequeue token token' := by
  unfold reconcileQuotas syncedQuotas
  cases obj.quotas with
  | none => exact ⟨false, token, w.user.status, rfl, rfl⟩
  | some quotas =>
    have hdescribe : (admin (.describeUserQuotas username)).complete (answer (healthy bc)) w =
        (.ok (.ok (w.brokers.quota username)), w) := rfl
    dsimp only
    rw [Prog.complete_bind_of_ok hdescribe]
    dsimp only
    split
    · exact ⟨true, token, w.user.status, rfl, rfl⟩
    · obtain ⟨token', status, hpending, hsame⟩ := complete_ensureTokenAccessPending bc token w
      refine ⟨true, token', status, ?_, hsame⟩
      rw [Prog.complete_bind_of_ok hpending]
      rfl

/-- A pass over a token is due again when the token is, or at the usual time. -/
theorem complete_publishReady (obj : KafkaUser) (principal : String) (tlsNotAfter : Option String)
    (quotasInSync : Bool) (token : Option TokenAccessState) (w : World BrokerState) :
    ∃ action status,
      (publishReady cfg obj principal tlsNotAfter quotasInSync token).complete (answer (healthy bc)) w =
        (.ok action, w.with status w.brokers) ∧
      ∀ t, token = some t → action = .requeue (min t.tokenRequeue cfg.controllerDriftRequeue) := by
  cases token with
  | none =>
    refine ⟨_, _, rfl, fun t h => ?_⟩
    cases h
  | some token =>
    refine ⟨_, _, rfl, fun t h => ?_⟩
    cases h
    rfl

/-- The ACLs and quotas after a pass that got its credentials. -/
theorem complete_reconcileAccess (obj : KafkaUser) (bootstrap principal : String)
    (tlsNotAfter : Option String) (token : Option TokenAccessState) (w : World BrokerState) :
    ∃ action status,
      (reconcileAccess lib cfg obj bootstrap principal tlsNotAfter token).complete
        (answer (healthy bc)) w = (.ok action, w.with status { w.brokers with
          acls := syncedAcls obj.authorization principal w.brokers.acls
          quotas := syncedQuotas lib obj.quotas (quotaUsername principal) w.brokers }) ∧
      ∀ t, token = some t → action = .requeue (min t.tokenRequeue cfg.controllerDriftRequeue) := by
  have hconnect : (admin (.connect bootstrap)).complete (answer (healthy bc)) w = (.ok (.ok ()), w) := rfl
  obtain ⟨token₁, status₁, hacls, hsame₁⟩ := complete_reconcileAcls cfg bc obj principal token w
  obtain ⟨inSync, token₂, status₂, hquotas, hsame₂⟩ := complete_reconcileQuotas lib cfg
    bc obj (quotaUsername principal) token₁ (w.with status₁ { w.brokers with
      acls := syncedAcls obj.authorization principal w.brokers.acls })
  obtain ⟨action, status, hready, haction⟩ := complete_publishReady cfg bc obj principal
    tlsNotAfter inSync token₂ (w.with status₂ { w.brokers with
      acls := syncedAcls obj.authorization principal w.brokers.acls
      quotas := syncedQuotas lib obj.quotas (quotaUsername principal) w.brokers })
  refine ⟨action, status, ?_, fun t h => ?_⟩
  · unfold reconcileAccess
    rw [Prog.complete_bind_of_ok hconnect]
    dsimp only
    rw [Prog.complete_bind_of_ok hacls]
    dsimp only
    rw [Prog.complete_bind_of_ok hquotas]
    exact hready
  · obtain ⟨t', ht', hrequeue⟩ := (hsame₁.trans hsame₂).of_some h
    rw [haction t' ht', hrequeue]

end Stages

end Access
