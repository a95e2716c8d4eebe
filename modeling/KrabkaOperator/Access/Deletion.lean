-- SUMMARY: The pass over a deleted user, beside the one over a deleted topic: each takes the finalizer off exactly when its checks let it through.
import KrabkaOperator.Access.Reconcile
import KrabkaOperator.Topic.Deletion

/-!
# Deletion of a user

The label, the spec and the parent are checked before the deletion is looked at. A user
that fails there gets a condition and keeps its finalizer. The clean-up on the brokers
does not keep it.
-/

namespace Access

open Kube Crd Operator Admin

variable {β : Type} {lib : Lib} {w : World β} {cluster bootstrap : String} {parent : Parent}

/-! ## The checks -/

/-- The parent of a user, when it is ready, with the address of the brokers. -/
def World.parent? (w : World β) : Option (Parent × String) :=
  match w.user.cluster? >>= w.kafka? with
  | none => none
  | some parent => (operatorListenerBootstrap parent).map fun bootstrap => (parent, bootstrap)

theorem World.parent?_eq_some : w.parent? = some (parent, bootstrap) ↔
    ∃ cluster, w.user.cluster? = some cluster ∧ w.kafka? cluster = some parent ∧
      operatorListenerBootstrap parent = some bootstrap := by
  unfold World.parent?
  cases w.user.cluster? with
  | none => simp
  | some c =>
    rw [Option.bind_eq_bind, Option.bind_some]
    cases hkafka : w.kafka? c with
    | none => simp [hkafka]
    | some p =>
      simp only [Option.map_eq_some_iff, Prod.mk.injEq, Option.some.injEq]
      constructor
      · rintro ⟨_, hready, rfl, rfl⟩
        exact ⟨c, rfl, hkafka, hready⟩
      · rintro ⟨_, rfl, hfound, hready⟩
        rw [hkafka, Option.some.injEq] at hfound
        subst hfound
        exact ⟨bootstrap, hready, rfl, rfl⟩

/-- The checks of a pass: a label and a parent that is ready, a name that is free for a user
    that lives, and a valid spec. -/
structure PassesPrologue (lib : Lib) (w : World β) : Prop where
  parent : w.parent?.isSome
  identity : w.user.deleting = true ∨
    ∀ cluster, w.user.cluster? = some cluster →
      User.validateReservedIdentity w.user.name cluster = .ok ()
  spec : validateSpec lib.human w.user.authentication w.user.authorization = .ok ()

variable (lib) (cfg : Config) (brokers : Brokers β)

theorem complete_getKafka (cluster : String) (w : World β) :
    (getKafka cluster).complete (answer brokers) w = (.ok (w.kafka? cluster), w) := rfl

/-- A report of a pass that stops. -/
theorem complete_reportFailure (reason message : String) (action : Action) (w : World β) :
    ∃ status, (reportFailure w.user reason message >>= fun _ =>
        pure (UserPreparation.done action)).complete (answer brokers) w =
      (.ok (.done action), { w with user := { w.user with status := some status } }) := ⟨_, rfl⟩

/-- A pass that the prologue stops reports a condition and nothing else. -/
theorem complete_prepareUser_of_not (h : ¬ PassesPrologue lib w) :
    ∃ action status, (prepareUser lib cfg w.user).complete (answer brokers) w =
      (.ok (.done action), { w with user := { w.user with status := some status } }) := by
  unfold prepareUser
  cases hcluster : w.user.cluster? with
  | none => exact ⟨_, complete_reportFailure brokers _ _ _ w⟩
  | some cluster =>
    dsimp only
    cases hidentity : (if w.user.deleting then Except.ok ()
        else User.validateReservedIdentity w.user.name cluster) with
    | error message => exact ⟨_, complete_reportFailure brokers _ _ _ w⟩
    | ok u =>
      dsimp only
      cases hspec : validateSpec lib.human w.user.authentication w.user.authorization with
      | error message => exact ⟨_, complete_reportFailure brokers _ _ _ w⟩
      | ok u =>
        dsimp only
        rw [Prog.complete_bind_of_ok (complete_getKafka brokers cluster w)]
        cases hkafka : w.kafka? cluster with
        | none => exact ⟨_, complete_reportFailure brokers _ _ _ w⟩
        | some parent =>
          cases hready : operatorListenerBootstrap parent with
          | none =>
            rw [Option.bind_eq_bind, Option.bind_some, hready]
            exact ⟨_, complete_reportFailure brokers _ _ _ w⟩
          | some bootstrap =>
            refine absurd ⟨?_, ?_, hspec⟩ h
            · rw [World.parent?_eq_some.mpr ⟨cluster, hcluster, hkafka, hready⟩]
              rfl
            · cases hdel : w.user.deleting with
              | true => exact .inl rfl
              | false =>
                rw [hdel, if_neg Bool.false_ne_true] at hidentity
                refine .inr fun c hc => ?_
                rw [hcluster, Option.some.injEq] at hc
                exact hc ▸ hidentity

/-- The prologue lets the pass through. -/
theorem complete_prepareUser (h : PassesPrologue lib w) : ∃ cluster bootstrap parent,
    w.parent? = some (parent, bootstrap) ∧
      (prepareUser lib cfg w.user).complete (answer brokers) w =
        (.ok (.ready cluster bootstrap parent), w) := by
  obtain ⟨⟨parent, bootstrap⟩, hparent⟩ := Option.isSome_iff_exists.mp h.parent
  obtain ⟨cluster, hcluster, hkafka, hready⟩ := World.parent?_eq_some.mp hparent
  have hidentity : (if w.user.deleting then Except.ok ()
      else User.validateReservedIdentity w.user.name cluster) = .ok () := by
    split
    · rfl
    · next hlive => exact (h.identity.resolve_left hlive) cluster hcluster
  refine ⟨cluster, bootstrap, parent, hparent, ?_⟩
  unfold prepareUser
  rw [hcluster]
  dsimp only
  rw [hidentity, h.spec]
  dsimp only
  rw [Prog.complete_bind_of_ok (complete_getKafka brokers cluster w), hkafka, Option.bind_eq_bind,
    Option.bind_some, hready]
  rfl

/-! ## The clean-up -/

/-- A program that ends, and changes the brokers only. -/
def OnlyBrokers {α : Type} (brokers : Brokers β) (p : Op α) : Prop :=
  ∀ w, ∃ a b, p.complete (answer brokers) w = (.ok a, { w with brokers := b })

section Clean

variable {brokers} {α γ : Type}

theorem onlyBrokers_pure (a : α) : OnlyBrokers brokers (pure a) := fun w => ⟨a, w.brokers, rfl⟩

theorem onlyBrokers_admin (r : AdminReq) : OnlyBrokers brokers (admin r) := fun _ => ⟨_, _, rfl⟩

theorem OnlyBrokers.bind {p : Op α} {f : α → Op γ} (h : OnlyBrokers brokers p)
    (hf : ∀ a, OnlyBrokers brokers (f a)) : OnlyBrokers brokers (p >>= f) := by
  intro w
  obtain ⟨a, b, hp⟩ := h w
  obtain ⟨c, b', hfa⟩ := hf a { w with brokers := b }
  exact ⟨c, b', by rw [Prog.complete_bind_of_ok hp, hfa]⟩

theorem deleteScram_onlyBrokers (obj : KafkaUser) : OnlyBrokers brokers (deleteScram obj) := by
  unfold deleteScram
  cases scramMechanism? obj.authentication with
  | none => exact onlyBrokers_pure ()
  | some sha512 => exact (onlyBrokers_admin _).bind fun _ => onlyBrokers_pure ()

theorem expireTokens_onlyBrokers (tokens : List DelegationToken) :
    OnlyBrokers brokers (expireTokens tokens) := by
  induction tokens with
  | nil => exact onlyBrokers_pure _
  | cons token tokens ih =>
    apply (onlyBrokers_admin _).bind
    intro answered
    cases answered with
    | error e => exact onlyBrokers_pure _
    | ok u => exact ih

theorem deleteTokens_onlyBrokers (obj : KafkaUser) : OnlyBrokers brokers (deleteTokens lib obj) := by
  unfold deleteTokens
  cases obj.authentication with
  | delegationToken auth =>
    apply OnlyBrokers.bind
    · unfold expireOwnedTokens describeDelegationTokensOwnedBy
      cases lib.parsePrincipal ("User:" ++ obj.name) with
      | error message => exact onlyBrokers_pure _
      | ok principal =>
        apply (onlyBrokers_admin _).bind
        intro described
        cases described with
        | error e => exact onlyBrokers_pure _
        | ok tokens => exact expireTokens_onlyBrokers tokens
    · exact fun _ => onlyBrokers_pure ()
  | scramSha512 auth => exact onlyBrokers_pure ()
  | scramSha256 auth => exact onlyBrokers_pure ()
  | tls auth => exact onlyBrokers_pure ()
  | tlsExternal => exact onlyBrokers_pure ()

theorem deleteQuotas_onlyBrokers (username : String) :
    OnlyBrokers brokers (deleteQuotas username) := by
  apply (onlyBrokers_admin _).bind
  intro described
  cases described with
  | error e => exact onlyBrokers_pure ()
  | ok current =>
    dsimp only
    split
    · exact onlyBrokers_pure ()
    · exact (onlyBrokers_admin _).bind fun _ => onlyBrokers_pure ()

theorem cleanUp_onlyBrokers (obj : KafkaUser) (principal bootstrap : String) :
    OnlyBrokers brokers (cleanUp lib obj principal bootstrap) := by
  apply (onlyBrokers_admin _).bind
  intro connected
  cases connected with
  | error e => exact onlyBrokers_pure ()
  | ok u =>
    apply (deleteScram_onlyBrokers obj).bind
    intro _
    apply (deleteTokens_onlyBrokers lib obj).bind
    intro _
    apply (onlyBrokers_admin _).bind
    intro _
    exact deleteQuotas_onlyBrokers _

end Clean

/-! ## The finalizer -/

/-- A deleted user that the prologue lets through: the clean-up, then the finalizers. -/
theorem pass_of_cleanup (h : PassesPrologue lib w) (hdel : w.user.deleting = true) :
    ∃ bootstrap, ∀ w', (cleanUp lib w.user (principalFor w.user.name w.user.authentication)
        bootstrap).complete (answer brokers) w = (.ok (), w') →
      pass lib cfg brokers w =
        (.ok .awaitChange, { w' with user := { w'.user with finalizers := [] } }) := by
  obtain ⟨cluster, bootstrap, parent, _, hprepare⟩ := complete_prepareUser lib cfg brokers h
  refine ⟨bootstrap, fun w' hclean => ?_⟩
  unfold pass reconcileInner
  rw [Prog.complete_bind_of_ok hprepare]
  dsimp only
  unfold handleUserLifecycle
  rw [if_pos hdel, Prog.bind_assoc, Prog.complete_bind_of_ok hclean]
  rfl

theorem pass_of_deleting (h : PassesPrologue lib w) (hdel : w.user.deleting = true) :
    ∃ b, pass lib cfg brokers w = (.ok .awaitChange,
      { w with user := { w.user with finalizers := [] }, brokers := b }) := by
  obtain ⟨bootstrap, hpass⟩ := pass_of_cleanup lib cfg brokers h hdel
  obtain ⟨_, b, hclean⟩ := cleanUp_onlyBrokers lib w.user
    (principalFor w.user.name w.user.authentication) bootstrap w
  exact ⟨b, hpass _ hclean⟩

/-- A pass over a user that the prologue stops only reports. -/
theorem pass_of_not_prologue (h : ¬ PassesPrologue lib w) :
    ∃ action status, pass lib cfg brokers w =
      (.ok action, { w with user := { w.user with status := some status } }) := by
  obtain ⟨action, status, hprepare⟩ := complete_prepareUser_of_not lib cfg brokers h
  refine ⟨action, status, ?_⟩
  unfold pass reconcileInner
  rw [Prog.complete_bind_of_ok hprepare]
  rfl

/-- The pass over a deleted user takes the finalizer off exactly when the prologue lets it
    through. -/
theorem pass_releases_iff (hdel : w.user.deleting = true) (hfin : w.user.hasFinalizer = true) :
    ((∃ action, (pass lib cfg brokers w).1 = .ok action) ∧
      (pass lib cfg brokers w).2.user.hasFinalizer = false) ↔ PassesPrologue lib w := by
  constructor
  · rintro ⟨_, hreleased⟩
    by_contra h
    obtain ⟨action, status, hpass⟩ := pass_of_not_prologue lib cfg brokers h
    rw [hpass] at hreleased
    exact absurd (hfin.symm.trans hreleased) (by simp)
  · intro h
    obtain ⟨b, hpass⟩ := pass_of_deleting lib cfg brokers h hdel
    rw [hpass]
    exact ⟨⟨_, rfl⟩, rfl⟩

/-- A deleted user and a deleted topic lose the finalizer in the next pass exactly when they
    pass the checks of a live one, apart from the reserved names. -/
theorem deletion_completes_iff {γ : Type} (printable : Char → Bool) (topics : Topic.Brokers γ)
    (t : Topic.World γ) (hdel : w.user.deleting = true) (hfin : w.user.hasFinalizer = true)
    (htdel : t.topic.deleting = true) (htfin : t.topic.hasFinalizer = true) :
    (((∃ action, (pass lib cfg brokers w).1 = .ok action) ∧
        (pass lib cfg brokers w).2.user.hasFinalizer = false) ↔
      w.parent?.isSome ∧
        validateSpec lib.human w.user.authentication w.user.authorization = .ok ()) ∧
    (((∃ action, (Topic.pass cfg printable topics t).1 = .ok action) ∧
        (Topic.pass cfg printable topics t).2.topic.hasFinalizer = false) ↔
      t.bootstrap?.isSome ∧ Topic.validateKafkaTopicName printable t.topic.topicName = .ok ()) := by
  rw [pass_releases_iff lib cfg brokers hdel hfin, Topic.pass_releases_iff cfg topics htdel htfin]
  exact ⟨⟨fun h => ⟨h.parent, h.spec⟩, fun h => ⟨h.1, .inl hdel, h.2⟩⟩,
    ⟨fun h => ⟨h.parent, h.name⟩, fun h => ⟨h.1, h.2⟩⟩⟩

/-! ## Deletions that complete, and deletions that do not -/

/-- A call that does not reach the brokers. -/
def refuse : (r : AdminReq) → AdminResp r
  | .connect _ => .error (.other true "refused")
  | .alterScram _ _ _ => .error (.other true "refused")
  | .describeAcls _ => .error (.other true "refused")
  | .createAcls _ => .error (.other true "refused")
  | .deleteAcls _ => .error (.other true "refused")
  | .describeUserQuotas _ => .error (.other true "refused")
  | .alterUserQuotas _ _ => .error (.other true "refused")
  | .createDelegationToken _ _ _ => .error (.other true "refused")
  | .renewDelegationToken _ => .error (.other true "refused")
  | .expireDelegationToken _ => .error (.other true "refused")
  | .describeDelegationToken _ => .error (.other true "refused")

def refusing : Brokers Unit := ⟨fun r _ b => (refuse r, b)⟩

/-- A deleted user with these labels, in a cluster that is ready. -/
def deletedIn (labels : List (String × String)) : World Unit where
  user := {
    name := "alice", uid := some "uid", labels := BTreeMap.ofList labels, deleting := true,
    authentication := .tlsExternal, finalizers := [finalizer] }
  kafkas := [.ready "demo"]
  store := .empty
  brokers := ()
  clock := 0

/-- With a label both go, although the brokers refuse every call. -/
theorem deletion_completes_labelled :
    let labels := [("krabka.io/cluster", "demo")]
    (pass Sample.lib {} refusing (deletedIn labels)).2.user.hasFinalizer = false ∧
      (Topic.pass {} (fun _ => true) Topic.refusing (Topic.deletedIn labels)).2.topic.hasFinalizer =
        false := by
  have h := deletion_completes_iff Sample.lib {} refusing (fun _ => true) Topic.refusing
    (Topic.deletedIn [("krabka.io/cluster", "demo")])
    (show (deletedIn [("krabka.io/cluster", "demo")]).user.deleting = true from rfl) (by decide)
    rfl (by decide)
  exact ⟨(h.1.mpr (by decide)).2, (h.2.mpr (by decide)).2⟩

/-- Without a label both keep the finalizer, although the passes end without an error. -/
theorem deletion_stuck_unlabelled :
    (∃ action, (pass Sample.lib {} refusing (deletedIn [])).1 = .ok action) ∧
      (pass Sample.lib {} refusing (deletedIn [])).2.user.hasFinalizer = true ∧
    (∃ action, (Topic.pass {} (fun _ => true) Topic.refusing (Topic.deletedIn [])).1 = .ok action) ∧
      (Topic.pass {} (fun _ => true) Topic.refusing (Topic.deletedIn [])).2.topic.hasFinalizer = true :=
  ⟨⟨_, rfl⟩, by decide, ⟨_, rfl⟩, by decide⟩

end Access
