-- SUMMARY: Runs of edits and passes over one user: what its passes leave on the brokers, and when its deletion leaves none of it.
import KrabkaOperator.Access.Effects
import KrabkaOperator.Base.History

/-!
# Leftover access

Credentials, ACLs and quotas are written under the authentication that the user has then,
and the deletion removes what belongs to the authentication that it has at the end.
-/

namespace Access

open Kube Crd Operator Admin

/-! ## Grants -/

/-- The principal carries the subject of a certificate. -/
def bySubject : Authentication → Bool
  | .tls _ => true
  | _ => false

/-- The two forms of the principals of a user. -/
def principalForm (name : String) (subject : Bool) : String :=
  if subject then "User:CN=" ++ name else "User:" ++ name

theorem principalFor_eq (name : String) (auth : Authentication) :
    principalFor name auth = principalForm name (bySubject auth) := by
  cases auth with
  | scramSha512 auth => rfl
  | scramSha256 auth => rfl
  | tls auth => rfl
  | tlsExternal => rfl
  | delegationToken auth => rfl

theorem principalForm_eq (name : String) (subject : Bool) :
    principalForm name subject = "User:" ++ (if subject then "CN=" ++ name else name) := by
  cases subject with
  | true => exact @String.append_assoc "User:" "CN=" name
  | false => rfl

theorem quotaUsername_principalForm_inj {name : String} {s t : Bool} :
    quotaUsername (principalForm name s) = quotaUsername (principalForm name t) ↔ s = t := by
  refine ⟨fun h => ?_, fun h => by rw [h]⟩
  simp only [principalForm_eq, quotaUsername_append] at h
  have hlength := congrArg String.length h
  cases s with
  | true =>
    cases t with
    | true => rfl
    | false => simp at hlength
  | false =>
    cases t with
    | true => simp at hlength
    | false => rfl

theorem principalForm_inj {name : String} {s t : Bool} :
    principalForm name s = principalForm name t ↔ s = t :=
  ⟨fun h => quotaUsername_principalForm_inj.mp (congrArg _ h), fun h => congrArg _ h⟩

/-- The kinds of access that outlive a pass: a SCRAM credential of a mechanism, and ACLs and
    quotas under a form of the principal. -/
inductive Grant where
  | scram (sha512 : Bool)
  | acls (subject : Bool)
  | quotas (subject : Bool)
  deriving DecidableEq, Repr

namespace Grant

/-- The brokers have access of this kind for the name. -/
def On (name : String) (b : BrokerState) : Grant → Prop
  | .scram sha512 => b.HasScram name sha512
  | .acls subject => ∃ e ∈ b.acls, e.principal = principalForm name subject
  | .quotas subject => (b.quota (quotaUsername (principalForm name subject))).isEmpty = false

/-- What a pass that completes decides about the kind: that it is there, that it is not, or
    nothing. -/
def effect (obj : KafkaUser) : Grant → Option Bool
  | .scram sha512 => if scramMechanism? obj.authentication = some sha512 then some true else none
  | .acls subject =>
    if bySubject obj.authentication = subject then
      obj.authorization.map fun _ => !(expandSpecAcls obj.authorization
        (principalForm obj.name subject)).isEmpty
    else none
  | .quotas subject =>
    if bySubject obj.authentication = subject then
      obj.quotas.map fun q => !q.toQuotaMap.isEmpty
    else none

/-- The kinds that the deletion of a user with this authentication removes. -/
def CoveredBy (auth : Authentication) : Grant → Prop
  | .scram sha512 => scramMechanism? auth = some sha512
  | .acls subject => bySubject auth = subject
  | .quotas subject => bySubject auth = subject

section Decide

instance {name : String} {b : BrokerState} : (g : Grant) → Decidable (g.On name b)
  | .scram _ => inferInstanceAs (Decidable (∃ c ∈ b.scram, _))
  | .acls _ => inferInstanceAs (Decidable (∃ e ∈ b.acls, _))
  | .quotas _ => inferInstanceAs (Decidable (_ = false))

instance {auth : Authentication} : (g : Grant) → Decidable (g.CoveredBy auth)
  | .scram _ => inferInstanceAs (Decidable (_ = _))
  | .acls _ => inferInstanceAs (Decidable (_ = _))
  | .quotas _ => inferInstanceAs (Decidable (_ = _))

instance decidableForall {P : Grant → Prop} [DecidablePred P] : Decidable (∀ g, P g) :=
  decidable_of_iff (∀ b, P (.scram b) ∧ P (.acls b) ∧ P (.quotas b))
    ⟨fun h g => by
      cases g with
      | scram b => exact (h b).1
      | acls b => exact (h b).2.1
      | quotas b => exact (h b).2.2,
    fun h b => ⟨h _, h _, h _⟩⟩

end Decide

end Grant

/-! ## Passes -/

variable {lib : Lib} {cfg : Config} {bc : BrokerConfig} {w v : World BrokerState} {g : Grant}

/-- A pass that gets to the credentials. -/
structure Applies (lib : Lib) (w : World BrokerState) : Prop where
  prologue : PassesPrologue lib w
  live : w.user.deleting = false
  finalizer : w.user.hasFinalizer = true

def isReady : Except ReconcileError Provisioned → Bool
  | .ok (.ready _ _) => true
  | _ => false

/-- A pass that gets to the credentials obtains them. -/
def ErrorFree (lib : Lib) (cfg : Config) (bc : BrokerConfig) (w : World BrokerState) : Prop :=
  Applies lib w → ∀ x, w.parent? = some x →
    isReady ((provision lib cfg w.user x.2 x.1).complete (answer (healthy bc)) w).1 = true

/-- A pass that obtains its credentials goes on to the ACLs and quotas. -/
theorem pass_of_ready (cfg : Config) (bc : BrokerConfig) (h : Applies lib w) :
    ∃ bootstrap parent, w.parent? = some (parent, bootstrap) ∧ ∀ tlsNotAfter token v,
      (provision lib cfg w.user bootstrap parent).complete (answer (healthy bc)) w =
        (.ok (.ready tlsNotAfter token), v) →
      pass lib cfg (healthy bc) w = (reconcileAccess lib cfg w.user bootstrap
        (principalFor w.user.name w.user.authentication) tlsNotAfter token).complete
          (answer (healthy bc)) v := by
  obtain ⟨cluster, bootstrap, parent, hparent, hprepare⟩ :=
    complete_prepareUser lib cfg (healthy bc) h.prologue
  refine ⟨bootstrap, parent, hparent, fun tlsNotAfter token v hprovision => ?_⟩
  unfold pass reconcileInner
  rw [Prog.complete_bind_of_ok hprepare]
  dsimp only
  unfold handleUserLifecycle
  rw [if_neg (by simp [h.live]), if_neg (by simp [h.finalizer])]
  exact Prog.complete_bind_of_ok hprovision

/-- The brokers after a pass that obtains its credentials. -/
theorem pass_of_applies (h : Applies lib w) (hfree : ErrorFree lib cfg bc w) :
    ∃ action status v, Granted w v ∧ pass lib cfg (healthy bc) w =
      (.ok action, v.with status { v.brokers with
        acls := syncedAcls w.user.authorization (principalFor w.user.name w.user.authentication)
          w.brokers.acls
        quotas := syncedQuotas lib w.user.quotas
          (quotaUsername (principalFor w.user.name w.user.authentication)) w.brokers }) := by
  obtain ⟨bootstrap, parent, hparent, hpass⟩ := pass_of_ready cfg bc h
  have hready := hfree h _ hparent
  cases hprovision : (provision lib cfg w.user bootstrap parent).complete (answer (healthy bc)) w with
  | mk result v =>
    rw [hprovision] at hready
    cases result with
    | error e => cases hready
    | ok provisioned =>
      cases provisioned with
      | done action => cases hready
      | ready tlsNotAfter token =>
        have hgranted := granted_provision hprovision
        obtain ⟨action, status, haccess, _⟩ := complete_reconcileAccess lib cfg bc w.user bootstrap
          (principalFor w.user.name w.user.authentication) tlsNotAfter token v
        have hsynced : syncedQuotas lib w.user.quotas
            (quotaUsername (principalFor w.user.name w.user.authentication)) v.brokers =
              syncedQuotas lib w.user.quotas
                (quotaUsername (principalFor w.user.name w.user.authentication)) w.brokers := by
          unfold syncedQuotas BrokerState.alterQuotas BrokerState.quota
          rw [hgranted.quotas]
        refine ⟨action, status, v, hgranted, ?_⟩
        rw [hgranted.acls, hsynced] at haccess
        exact (hpass _ _ _ hprovision).trans haccess

/-- A pass that does not get to the credentials leaves the brokers alone. -/
theorem pass_of_not_applies (cfg : Config) (bc : BrokerConfig) (hlive : w.user.deleting = false)
    (h : ¬ Applies lib w) :
    ∃ action status finalizers, pass lib cfg (healthy bc) w =
      (.ok action, { w with user := { w.user with status := status, finalizers := finalizers } }) := by
  by_cases hprologue : PassesPrologue lib w
  · by_cases hfin : w.user.hasFinalizer = true
    · exact absurd ⟨hprologue, hlive, hfin⟩ h
    · obtain ⟨cluster, bootstrap, parent, _, hprepare⟩ :=
        complete_prepareUser lib cfg (healthy bc) hprologue
      refine ⟨.requeue 0, w.user.status, [finalizer], ?_⟩
      unfold pass reconcileInner
      rw [Prog.complete_bind_of_ok hprepare]
      dsimp only
      unfold handleUserLifecycle
      rw [if_neg (by simp [hlive]), if_pos (by simpa using hfin)]
      rfl
  · obtain ⟨action, status, hpass⟩ := pass_of_not_prologue lib cfg (healthy bc) hprologue
    exact ⟨action, some status, w.user.finalizers, hpass⟩

/-- A kind of access is decided by the effect of the pass on it. -/
theorem on_of_effect (hdiff : DiffApplies lib.diffUserQuotas) (hgranted : Granted w v) :
    g.On w.user.name { v.brokers with
        acls := syncedAcls w.user.authorization (principalFor w.user.name w.user.authentication)
          w.brokers.acls
        quotas := syncedQuotas lib w.user.quotas
          (quotaUsername (principalFor w.user.name w.user.authentication)) w.brokers } ↔
      (g.effect w.user).elim (g.On w.user.name w.brokers) (· = true) := by
  rw [principalFor_eq]
  cases g with
  | scram sha512 =>
    refine (hgranted.scram sha512).trans ?_
    rw [Grant.effect]
    by_cases hmech : scramMechanism? w.user.authentication = some sha512
    · simp [hmech]
    · simp [hmech, Grant.On]
  | acls subject =>
    simp only [Grant.On, mem_syncedAcls, Grant.effect]
    by_cases hform : bySubject w.user.authentication = subject
    · subst hform
      cases hauth : w.user.authorization with
      | none => simp
      | some simple =>
        simp only [Option.isSome_some, true_and, ↓reduceIte, Option.map_some, Option.elim_some,
          Bool.not_eq_true', List.isEmpty_eq_false_iff_exists_mem]
        constructor
        · rintro ⟨e, he, hp⟩
          rw [if_pos hp] at he
          exact ⟨e, he⟩
        · rintro ⟨e, he⟩
          have hp := principal_of_mem_expandSpecAcls he
          exact ⟨e, by rwa [if_pos hp], hp⟩
    · rw [if_neg hform, Option.elim_none]
      apply exists_congr
      intro e
      apply and_congr_left
      intro hp
      rw [if_neg (by rintro ⟨_, h⟩; exact hform (principalForm_inj.mp (h.symm.trans hp)))]
  | quotas subject =>
    have hquota : ({ v.brokers with
        acls := syncedAcls w.user.authorization
          (principalForm w.user.name (bySubject w.user.authentication)) w.brokers.acls
        quotas := syncedQuotas lib w.user.quotas (quotaUsername (principalForm w.user.name
          (bySubject w.user.authentication))) w.brokers } : BrokerState).quota
            (quotaUsername (principalForm w.user.name subject)) =
        if bySubject w.user.authentication = subject then
          (w.user.quotas.map (·.toQuotaMap)).getD
            (w.brokers.quota (quotaUsername (principalForm w.user.name subject)))
        else w.brokers.quota (quotaUsername (principalForm w.user.name subject)) := by
      refine (quota_synced hdiff).trans ?_
      simp only [quotaUsername_principalForm_inj]
    rw [Grant.On, hquota, Grant.effect]
    by_cases hform : bySubject w.user.authentication = subject
    · rw [if_pos hform, if_pos hform]
      cases w.user.quotas with
      | none => rfl
      | some q => simp
    · rw [if_neg hform, if_neg hform]
      rfl

instance : Decidable (PassesPrologue lib w) :=
  decidable_of_iff (w.parent?.isSome = true ∧ (w.user.deleting = true ∨
      (w.user.cluster?.map (User.validateReservedIdentity w.user.name)).getD (.ok ()) = .ok ()) ∧
      validateSpec lib.human w.user.authentication w.user.authorization = .ok ())
    ⟨fun h => ⟨h.1, h.2.1.imp_right fun hname cluster hcluster => by simpa [hcluster] using hname,
        h.2.2⟩,
      fun h => ⟨h.parent, h.identity.imp_right fun hname => by
        cases hcluster : w.user.cluster? with
        | none => rfl
        | some cluster => exact hname cluster hcluster, h.spec⟩⟩

instance : Decidable (Applies lib w) :=
  decidable_of_iff (PassesPrologue lib w ∧ w.user.deleting = false ∧ w.user.hasFinalizer = true)
    ⟨fun h => ⟨h.1, h.2.1, h.2.2⟩, fun h => ⟨h.prologue, h.live, h.finalizer⟩⟩

instance : Decidable (ErrorFree lib cfg bc w) :=
  inferInstanceAs (Decidable (_ → ∀ x, w.parent? = some x → _))

/-- What a pass decides about a kind of access. -/
def decided (lib : Lib) (g : Grant) (w : World BrokerState) : Option Bool :=
  if Applies lib w then g.effect w.user else none

theorem on_pass (hdiff : DiffApplies lib.diffUserQuotas) (hlive : w.user.deleting = false)
    (hfree : ErrorFree lib cfg bc w) :
    g.On w.user.name (pass lib cfg (healthy bc) w).2.brokers ↔
      (decided lib g w).elim (g.On w.user.name w.brokers) (· = true) := by
  by_cases happlies : Applies lib w
  · obtain ⟨action, status, v, hgranted, hpass⟩ := pass_of_applies happlies hfree
    rw [hpass, decided, if_pos happlies]
    exact on_of_effect hdiff hgranted
  · obtain ⟨action, status, finalizers, hpass⟩ := pass_of_not_applies cfg bc hlive happlies
    rw [hpass, decided, if_neg happlies]
    rfl

/-- The resource, apart from its status and its finalizers. -/
def SameSpec (w v : World BrokerState) : Prop :=
  ∃ status finalizers, v.user = { w.user with status := status, finalizers := finalizers }

theorem sameSpec_pass (hlive : w.user.deleting = false) (hfree : ErrorFree lib cfg bc w) :
    SameSpec w (pass lib cfg (healthy bc) w).2 := by
  by_cases happlies : Applies lib w
  · obtain ⟨action, status, v, hgranted, hpass⟩ := pass_of_applies happlies hfree
    obtain ⟨_, huser⟩ := hgranted.user
    rw [hpass]
    refine ⟨status, w.user.finalizers, ?_⟩
    simp only [World.with, huser]
  · obtain ⟨action, status, finalizers, hpass⟩ := pass_of_not_applies cfg bc hlive happlies
    rw [hpass]
    exact ⟨status, finalizers, rfl⟩

/-! ## Runs -/

inductive Event where
  | edit (authentication : Authentication) (authorization : Option Authorization)
      (quotas : Option KafkaUserQuotas)
  /-- Other writers change the parents and the stored objects, and time goes on. -/
  | elapse (kafkas : List Parent) (store : Operator.World) (ms : Nat)
  | pass

section Run

variable (lib cfg bc)

def step : Event → World BrokerState → World BrokerState
  | .edit authentication authorization quotas, w =>
    { w with user := { w.user with authentication, authorization, quotas } }
  | .elapse kafkas store ms, w => { w with kafkas, store, clock := w.clock + ms }
  | .pass, w => (pass lib cfg (healthy bc) w).2

/-- A pass runs to its end before the next event. -/
def exec (e : Event) (w : World BrokerState) : List (World BrokerState) := [step lib cfg bc e w]

/-- Every pass completes. -/
def Completes (e : Event) (w : World BrokerState) : Prop :=
  match e with
  | .pass => ErrorFree lib cfg bc w
  | _ => True

instance (e : Event) (w : World BrokerState) : Decidable (Completes lib cfg bc e w) :=
  match e with
  | .pass => inferInstanceAs (Decidable (ErrorFree lib cfg bc w))
  | .edit _ _ _ => isTrue trivial
  | .elapse _ _ _ => isTrue trivial

/-- Whether the run leaves a kind of access: the last pass that decides about it counts. -/
def standing (g : Grant) : List Event → World BrokerState → Bool → Bool
  | [], _, before => before
  | .pass :: es, w, before =>
    standing g es (step lib cfg bc .pass w) ((decided lib g w).getD before)
  | e :: es, w, before => standing g es (step lib cfg bc e w) before

end Run

variable {es : List Event}

/-- What stays of the user in a run. -/
structure Live (name : String) (w : World BrokerState) : Prop where
  live : w.user.deleting = false
  name : w.user.name = name

theorem live_step {name : String} {e : Event} (h : Live name w) (he : Completes lib cfg bc e w) :
    Live name (step lib cfg bc e w) := by
  cases e with
  | edit authentication authorization quotas => exact ⟨h.live, h.name⟩
  | elapse kafkas store ms => exact ⟨h.live, h.name⟩
  | pass =>
    obtain ⟨status, finalizers, huser⟩ := sameSpec_pass h.live he
    exact ⟨by rw [step, huser]; exact h.live, by rw [step, huser]; exact h.name⟩

theorem live_final {name : String} (h : Live name w)
    (hes : History.Along (exec lib cfg bc) (Completes lib cfg bc) es w) :
    Live name (History.final (exec lib cfg bc) es w) := by
  induction es generalizing w with
  | nil => exact h
  | cons e es ih => exact ih (live_step h hes.1) hes.2

/-- At the end of a run the brokers have exactly the kinds of access that are standing. -/
theorem on_final_iff (hdiff : DiffApplies lib.diffUserQuotas) {name : String} (h : Live name w)
    (hes : History.Along (exec lib cfg bc) (Completes lib cfg bc) es w) {before : Bool}
    (hbefore : g.On name w.brokers ↔ before = true) :
    g.On name (History.final (exec lib cfg bc) es w).brokers ↔
      standing lib cfg bc g es w before = true := by
  induction es generalizing w before with
  | nil => exact hbefore
  | cons e es ih =>
    have hnext := live_step h hes.1
    cases e with
    | edit authentication authorization quotas => exact ih hnext hes.2 hbefore
    | elapse kafkas store ms => exact ih hnext hes.2 hbefore
    | pass =>
      apply ih hnext hes.2
      have hpass := on_pass (g := g) hdiff h.live hes.1
      rw [h.name] at hpass
      refine hpass.trans ?_
      cases decided lib g w with
      | none => exact hbefore
      | some b => exact Iff.rfl

/-! ## The deletion -/

/-- A deleted user. -/
def World.marked (w : World BrokerState) : World BrokerState :=
  { w with user := { w.user with deleting := true } }

/-- The end of the pass over the deleted user. -/
def removed (lib : Lib) (cfg : Config) (bc : BrokerConfig) (w : World BrokerState) :
    World BrokerState :=
  (pass lib cfg (healthy bc) w.marked).2

namespace BrokerState

def withoutScram (obj : KafkaUser) (b : BrokerState) : BrokerState :=
  match scramMechanism? obj.authentication with
  | none => b
  | some sha512 => b.alterScram sha512 [] [obj.name]

/-- The tokens that share a secret with a token of the owner are gone. -/
def withoutTokens (obj : KafkaUser) (b : BrokerState) : BrokerState :=
  match obj.authentication with
  | .delegationToken _ =>
    { b with tokens := b.tokens.filter fun t =>
        t.hmac ∉ (b.owned obj.name).map (·.hmac) }
  | _ => b

def withoutAcls (principal : String) (b : BrokerState) : BrokerState :=
  { b with acls := b.acls.filter (·.principal ≠ principal) }

def withoutQuotas (username : String) (b : BrokerState) : BrokerState :=
  if (b.quota username).isEmpty then b
  else b.alterQuotas username ((b.quota username).keys.map .remove)

end BrokerState

theorem complete_deleteScram (obj : KafkaUser) (w : World BrokerState) :
    (deleteScram obj).complete (answer (healthy bc)) w =
      (.ok (), { w with brokers := w.brokers.withoutScram obj }) := by
  unfold deleteScram BrokerState.withoutScram
  cases scramMechanism? obj.authentication with
  | none => rfl
  | some sha512 => rfl

theorem complete_expireTokens (tokens : List DelegationToken) (w : World BrokerState) :
    (expireTokens tokens).complete (answer (healthy bc)) w =
      (.ok (.ok ()), { w with brokers := { w.brokers with
        tokens := w.brokers.tokens.filter (·.hmac ∉ tokens.map (·.hmac)) } }) := by
  induction tokens generalizing w with
  | nil =>
    have hall : w.brokers.tokens.filter (·.hmac ∉ ([] : List DelegationToken).map (·.hmac)) =
        w.brokers.tokens := by simp
    rw [hall]
    rfl
  | cons token tokens ih =>
    have hexpire : (admin (.expireDelegationToken token.hmac)).complete (answer (healthy bc)) w =
        (.ok (.ok ()), { w with brokers := { w.brokers with
          tokens := w.brokers.tokens.filter (·.hmac ≠ token.hmac) } }) := rfl
    rw [expireTokens, Prog.complete_bind_of_ok hexpire]
    refine (ih _).trans ?_
    dsimp only
    rw [List.filter_filter]
    congr 5
    funext t
    rw [Bool.eq_iff_iff]
    simp only [decide_eq_true_eq, Bool.and_eq_true, List.map_cons, List.mem_cons, not_or, ne_eq]
    exact and_comm

theorem complete_deleteTokens (obj : KafkaUser)
    (hparse : lib.parsePrincipal ("User:" ++ obj.name) = .ok ⟨"User", obj.name⟩)
    (w : World BrokerState) :
    (deleteTokens lib obj).complete (answer (healthy bc)) w =
      (.ok (), { w with brokers := w.brokers.withoutTokens obj }) := by
  unfold deleteTokens BrokerState.withoutTokens
  cases obj.authentication with
  | scramSha512 auth => rfl
  | scramSha256 auth => rfl
  | tls auth => rfl
  | tlsExternal => rfl
  | delegationToken auth =>
    dsimp only
    unfold expireOwnedTokens
    rw [Prog.bind_assoc, Prog.complete_bind_of_ok (complete_describeTokens lib bc hparse w)]
    dsimp only
    rw [Prog.complete_bind_of_ok (complete_expireTokens _ w)]
    rfl

theorem complete_deleteQuotas (username : String) (w : World BrokerState) :
    (deleteQuotas username).complete (answer (healthy bc)) w =
      (.ok (), { w with brokers := w.brokers.withoutQuotas username }) := by
  have hdescribe : (admin (.describeUserQuotas username)).complete (answer (healthy bc)) w =
      (.ok (.ok (w.brokers.quota username)), w) := rfl
  unfold deleteQuotas BrokerState.withoutQuotas
  rw [Prog.complete_bind_of_ok hdescribe]
  dsimp only
  split
  · rfl
  · rfl

/-- The brokers after the clean-up of a user. -/
def BrokerState.cleaned (obj : KafkaUser) (principal : String) (b : BrokerState) : BrokerState :=
  (((b.withoutScram obj).withoutTokens obj).withoutAcls principal).withoutQuotas
    (quotaUsername principal)

theorem complete_cleanUp (obj : KafkaUser) (principal bootstrap : String)
    (hparse : lib.parsePrincipal ("User:" ++ obj.name) = .ok ⟨"User", obj.name⟩)
    (w : World BrokerState) :
    (cleanUp lib obj principal bootstrap).complete (answer (healthy bc)) w =
      (.ok (), { w with brokers := w.brokers.cleaned obj principal }) := by
  have hconnect : (admin (.connect bootstrap)).complete (answer (healthy bc)) w =
      (.ok (.ok ()), w) := rfl
  have hacls : ∀ w : World BrokerState,
      (admin (.deleteAcls [{ principal := some principal }])).complete (answer (healthy bc)) w =
        (.ok (.ok []), { w with brokers := w.brokers.withoutAcls principal }) := by
    intro w
    have hsame : w.brokers.acls.filter (fun e => ¬ ∃ f ∈ [({ principal := some principal } :
        AclEntryFilter)], f.Matches e) = w.brokers.acls.filter (·.principal ≠ principal) := by
      apply List.filter_congr
      intro e _
      simp
    rw [BrokerState.withoutAcls, ← hsame]
    rfl
  unfold cleanUp
  rw [Prog.complete_bind_of_ok hconnect]
  dsimp only
  rw [Prog.complete_bind_of_ok (complete_deleteScram obj w),
    Prog.complete_bind_of_ok (complete_deleteTokens obj hparse _),
    Prog.complete_bind_of_ok (hacls _)]
  exact complete_deleteQuotas _ _

/-- Removing every quota leaves none. -/
theorem foldl_remove_keys (m : QuotaMap) : (m.keys.map .remove).foldl QuotaOp.apply m = ∅ := by
  apply Std.ExtTreeMap.ext_getElem?
  intro k
  have hagree : ∀ op ∈ m.keys.map QuotaOp.remove, op.key = k → op.value? = none := by
    intro op hop _
    obtain ⟨key, _, rfl⟩ := List.mem_map.mp hop
    rfl
  rw [getElem?_foldl_apply hagree, Std.ExtTreeMap.getElem?_empty]
  split
  · rfl
  · next hnone =>
    apply Std.ExtTreeMap.getElem?_eq_none
    intro hk
    exact hnone ⟨.remove k, List.mem_map.mpr ⟨k, Std.ExtTreeMap.mem_keys.mpr hk, rfl⟩, rfl⟩

theorem quota_withoutQuotas {b : BrokerState} {username name : String} :
    (b.withoutQuotas username).quota name = if username = name then ∅ else b.quota name := by
  unfold BrokerState.withoutQuotas
  split
  · next hempty =>
    split
    · next heq =>
      subst heq
      exact Std.ExtTreeMap.isEmpty_iff.mp hempty
    · rfl
  · rw [quota_alterQuotas, foldl_remove_keys]

theorem scram_cleaned {obj : KafkaUser} {principal : String} {b : BrokerState} :
    (b.cleaned obj principal).scram = (b.withoutScram obj).scram := by
  unfold BrokerState.cleaned BrokerState.withoutQuotas BrokerState.withoutTokens
  split
  · split <;> rfl
  · split <;> rfl

theorem acls_cleaned {obj : KafkaUser} {principal : String} {b : BrokerState} :
    (b.cleaned obj principal).acls = b.acls.filter (·.principal ≠ principal) := by
  unfold BrokerState.cleaned BrokerState.withoutQuotas BrokerState.withoutTokens
    BrokerState.withoutScram
  split
  · split <;> split <;> rfl
  · split <;> split <;> rfl

theorem tokens_cleaned {obj : KafkaUser} {principal : String} {b : BrokerState} :
    (b.cleaned obj principal).tokens = (b.withoutTokens obj).tokens := by
  unfold BrokerState.cleaned BrokerState.withoutQuotas BrokerState.withoutTokens
    BrokerState.withoutScram
  split
  · split <;> split <;> rfl
  · split <;> split <;> rfl

/-- The clean-up removes what the authentication covers, and nothing else. -/
theorem on_cleaned {obj : KafkaUser} {b : BrokerState} :
    g.On obj.name (b.cleaned obj (principalForm obj.name (bySubject obj.authentication))) ↔
      ¬ g.CoveredBy obj.authentication ∧ g.On obj.name b := by
  cases g with
  | scram sha512 =>
    simp only [Grant.On, Grant.CoveredBy, BrokerState.HasScram, scram_cleaned]
    unfold BrokerState.withoutScram
    cases scramMechanism? obj.authentication with
    | none => simp
    | some m =>
      rw [Option.some.injEq]
      exact hasScram_delete
  | acls subject =>
    simp only [Grant.On, Grant.CoveredBy, acls_cleaned, List.mem_filter, decide_eq_true_eq]
    constructor
    · rintro ⟨e, ⟨he, hother⟩, hp⟩
      exact ⟨fun h => hother (hp.trans (h ▸ rfl)), e, he, hp⟩
    · rintro ⟨hother, e, he, hp⟩
      exact ⟨e, ⟨he, fun h => hother (principalForm_inj.mp (h.symm.trans hp))⟩, hp⟩
  | quotas subject =>
    have hquota : (b.cleaned obj (principalForm obj.name (bySubject obj.authentication))).quota
        (quotaUsername (principalForm obj.name subject)) =
          if bySubject obj.authentication = subject then ∅
          else b.quota (quotaUsername (principalForm obj.name subject)) := by
      refine quota_withoutQuotas.trans ?_
      simp only [quotaUsername_principalForm_inj]
      unfold BrokerState.withoutTokens BrokerState.withoutScram
      split
      · rfl
      · split <;> split <;> rfl
    rw [Grant.On, hquota, Grant.CoveredBy]
    by_cases hform : bySubject obj.authentication = subject
    · simp [hform]
    · simp [hform, Grant.On]

/-- The type whose deletion expires the tokens. -/
def byToken : Authentication → Bool
  | .delegationToken _ => true
  | _ => false

/-- The owner has a token that has not expired. -/
def BrokerState.HasLiveToken (b : BrokerState) (name : String) (nowMs : Int) : Prop :=
  ∃ t ∈ b.tokens, t.owner = ⟨"User", name⟩ ∧ nowMs ≤ t.expiryTimestampMs

instance {b : BrokerState} {name : String} {nowMs : Int} : Decidable (b.HasLiveToken name nowMs) :=
  inferInstanceAs (Decidable (∃ t ∈ b.tokens, _))

theorem hasLiveToken_cleaned {obj : KafkaUser} {principal : String} {b : BrokerState} {nowMs : Int} :
    (b.cleaned obj principal).HasLiveToken obj.name nowMs ↔
      byToken obj.authentication ≠ true ∧ b.HasLiveToken obj.name nowMs := by
  unfold BrokerState.HasLiveToken
  rw [tokens_cleaned]
  unfold BrokerState.withoutTokens
  cases obj.authentication with
  | scramSha512 auth => simp [byToken]
  | scramSha256 auth => simp [byToken]
  | tls auth => simp [byToken]
  | tlsExternal => simp [byToken]
  | delegationToken auth =>
    simp only [byToken, ne_eq, not_true_eq_false, false_and, iff_false,
      List.mem_filter, decide_eq_true_eq]
    rintro ⟨t, ⟨ht, hnone⟩, howner, _⟩
    exact hnone (List.mem_map.mpr ⟨t, List.mem_filter.mpr ⟨ht, by simpa using howner⟩, rfl⟩)

/-- The brokers have access of some kind for the user. -/
def World.HasAccess (w : World BrokerState) : Prop :=
  (∃ g : Grant, g.On w.user.name w.brokers) ∨ w.brokers.HasLiveToken w.user.name w.clock

theorem removed_of_prologue
    (hparse : lib.parsePrincipal ("User:" ++ w.user.name) = .ok ⟨"User", w.user.name⟩)
    (h : PassesPrologue lib w.marked) :
    removed lib cfg bc w = { w.marked with
      user := { w.marked.user with finalizers := [] }
      brokers := w.brokers.cleaned w.user
        (principalForm w.user.name (bySubject w.user.authentication)) } := by
  obtain ⟨bootstrap, hpass⟩ := pass_of_cleanup lib cfg (healthy bc) h rfl
  unfold removed
  rw [hpass _ (complete_cleanUp _ _ _ hparse _), principalFor_eq]
  rfl

/-- The deletion pass leaves the access that the last authentication does not cover. -/
theorem hasAccess_removed_iff
    (hparse : lib.parsePrincipal ("User:" ++ w.user.name) = .ok ⟨"User", w.user.name⟩) :
    (removed lib cfg bc w).HasAccess ↔
      (∃ g : Grant, g.On w.user.name w.brokers ∧
        ¬ (PassesPrologue lib w.marked ∧ g.CoveredBy w.user.authentication)) ∨
      w.brokers.HasLiveToken w.user.name w.clock ∧
        ¬ (PassesPrologue lib w.marked ∧ byToken w.user.authentication = true) := by
  by_cases hprologue : PassesPrologue lib w.marked
  · rw [removed_of_prologue hparse hprologue]
    simp only [hprologue, true_and]
    refine or_congr (exists_congr fun g => ?_) ?_
    · exact on_cleaned.trans and_comm
    · exact hasLiveToken_cleaned.trans and_comm
  · obtain ⟨action, status, hpass⟩ := pass_of_not_prologue lib cfg (healthy bc) hprologue
    unfold removed
    rw [hpass]
    simp only [hprologue, false_and, not_false_eq_true, and_true]
    rfl

/-- A user that lives, and for which the brokers have nothing. -/
structure Fresh (w : World BrokerState) : Prop where
  live : w.user.deleting = false
  access : ∀ g : Grant, ¬ g.On w.user.name w.brokers
  tokens : ∀ t ∈ w.brokers.tokens, t.owner ≠ ⟨"User", w.user.name⟩

/-- After any edits and passes, the deletion leaves no access exactly when the last
    authentication covers everything that the passes left standing. -/
theorem removed_leaves_no_access_iff (hdiff : DiffApplies lib.diffUserQuotas)
    (hparse : lib.parsePrincipal ("User:" ++ w.user.name) = .ok ⟨"User", w.user.name⟩)
    (hfresh : Fresh w) (hes : History.Along (exec lib cfg bc) (Completes lib cfg bc) es w) :
    (¬ (removed lib cfg bc (History.final (exec lib cfg bc) es w)).HasAccess) ↔
      (∀ g : Grant, standing lib cfg bc g es w false = true →
        PassesPrologue lib (History.final (exec lib cfg bc) es w).marked ∧
          g.CoveredBy (History.final (exec lib cfg bc) es w).user.authentication) ∧
      ((History.final (exec lib cfg bc) es w).brokers.HasLiveToken w.user.name
          (History.final (exec lib cfg bc) es w).clock →
        PassesPrologue lib (History.final (exec lib cfg bc) es w).marked ∧
          byToken (History.final (exec lib cfg bc) es w).user.authentication = true) := by
  have hlive : Live w.user.name w := ⟨hfresh.live, rfl⟩
  have hname := (live_final hlive hes).name
  have hon : ∀ g : Grant, g.On w.user.name (History.final (exec lib cfg bc) es w).brokers ↔
      standing lib cfg bc g es w false = true :=
    fun g => on_final_iff hdiff hlive hes (by simp [hfresh.access g])
  rw [hasAccess_removed_iff (by rw [hname]; exact hparse), hname]
  rw [not_or, not_exists]
  refine and_congr (forall_congr' fun g => ?_) ?_
  · rw [hon, not_and, not_not]
  · rw [not_and, not_not]

/-! ## A deletion that leaves nothing, and one that leaves a password -/

/-- Brokers with tokens that last a week and are renewed for a day. -/
def Sample.brokerConfig : BrokerConfig where
  renewPeriodMs := 86400000
  maxLifetimeMs := 604800000
  mint := fun n => (toString n, .text (toString n).toList)

/-- A user with a password, an ACL and a quota, in a cluster that is ready. -/
def freshUser : World BrokerState where
  user := {
    name := "alice", uid := some "uid", labels := BTreeMap.ofList [("krabka.io/cluster", "demo")]
    deleting := false
    authentication := .scramSha512 ⟨none, none⟩
    authorization := some ⟨[{ resource := { kind := .topic, name := "t" }, operations := [.read] }]⟩
    quotas := some { producerByteRate := some 1024 } }
  kafkas := [.ready "demo"]
  store := .empty
  brokers := {}
  clock := 0

/-- Everything is switched to another type with its own mechanism and principal. -/
def switchEvents : List Event :=
  [.pass, .pass, .edit .tlsExternal (some ⟨[]⟩) (some {}), .pass]

theorem unswitched_leaves_no_access :
    let last := History.final (exec Sample.lib {} Sample.brokerConfig) [.pass, .pass] freshUser
    last.brokers.scram.length = 1 ∧ last.brokers.acls.length = 1 ∧
      ¬ (removed Sample.lib {} Sample.brokerConfig last).HasAccess := by
  refine ⟨by decide, by decide, ?_⟩
  have hfresh : Fresh freshUser := ⟨rfl, by decide, by decide⟩
  exact (removed_leaves_no_access_iff Sample.diffUserQuotas_applies (by decide) hfresh
    (by decide)).mpr (by decide)

/-- The password of the first type outlives the user, whose finalizer is gone. -/
theorem switch_leaves_password :
    let last := removed Sample.lib {} Sample.brokerConfig
      (History.final (exec Sample.lib {} Sample.brokerConfig) switchEvents freshUser)
    History.Along (exec Sample.lib {} Sample.brokerConfig)
        (Completes Sample.lib {} Sample.brokerConfig) switchEvents freshUser ∧
      last.user.finalizers = [] ∧ (Grant.scram true).On "alice" last.brokers ∧ last.HasAccess := by
  have hleft : (Grant.scram true).On "alice" (removed Sample.lib {} Sample.brokerConfig
      (History.final (exec Sample.lib {} Sample.brokerConfig) switchEvents freshUser)).brokers := by
    decide
  exact ⟨by decide, by decide, hleft, .inl ⟨_, hleft⟩⟩

end Access
