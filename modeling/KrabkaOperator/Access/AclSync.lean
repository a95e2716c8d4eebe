-- SUMMARY: The ACLs of a principal: a pass sets them to those of the spec, a second pass changes none, and a pass that is cut short takes no right away that the spec grants.
import KrabkaOperator.Access.Effects
import KrabkaOperator.Access.Faults

/-!
# ACLs of a principal

The additions of a diff come before its deletions. The brokers may carry out some of the items of a
call only, and a pass may end at any call.
-/

namespace Access

open Kube Crd Operator Admin

/-! ## Brokers that carry out some of the items -/

/-- What the environment chooses at one call about ACLs. -/
structure AclCall extends Call where
  /-- The entries that the brokers add or remove. -/
  applied : AclEntry → Bool := fun _ => true
  /-- The error of an item that is not carried out. -/
  itemError : KafkaError := ⟨-1, "UNKNOWN_SERVER_ERROR", none⟩

/-- The answer to a call on several items. -/
def itemAnswer (c : AclCall) (entries : List AclEntry) : Except AdminError (List (Option KafkaError)) :=
  match c.fault with
  | .none => .ok (if entries.all c.applied then [] else [some c.itemError])
  | .refused | .lost => .error c.error

def aclAnswer (c : AclCall) : (r : AdminReq) → BrokerState → AdminResp r × BrokerState
  | .connect _, b => attempted c.toCall () b b
  | .describeAcls f, b => attempted c.toCall (b.acls.filter f.Matches) b b
  | .createAcls entries, b =>
    (itemAnswer c entries, if c.fault = .refused then b
      else { b with acls := b.acls ++ entries.filter c.applied })
  | .deleteAcls filters, b =>
    (itemAnswer c (b.acls.filter fun e => ∃ f ∈ filters, f.Matches e),
      if c.fault = .refused then b
      else { b with acls := b.acls.filter fun e => ¬ (c.applied e ∧ ∃ f ∈ filters, f.Matches e) })
  | .describeUserQuotas username, b => attempted c.toCall (b.quota username) b b
  | .alterUserQuotas username ops, b => attempted c.toCall none b (b.alterQuotas username ops)
  -- the stage of the ACLs makes no other calls
  | .alterScram _ _ _, b => (.error c.error, b)
  | .createDelegationToken _ _ _, b => (.error c.error, b)
  | .renewDelegationToken _, b => (.error c.error, b)
  | .expireDelegationToken _, b => (.error c.error, b)
  | .describeDelegationToken _, b => (.error c.error, b)

def partly : (r : Req) → AclCall → World BrokerState → Resp r × World BrokerState
  | .admin r, c, w => ((aclAnswer c r w.brokers).1,
      { w.later c.elapsed with brokers := (aclAnswer c r w.brokers).2 })
  | .getKafka name, c, w => troubled (.getKafka name) c.toCall w
  | .patchStatus patch, c, w => troubled (.patchStatus patch) c.toCall w
  | .setFinalizers finalizers, c, w => troubled (.setFinalizers finalizers) c.toCall w
  | .store r, c, w => troubled (.store r) c.toCall w
  | .now, c, w => troubled .now c.toCall w

variable {lib : Lib} {cfg : Config} {bc : BrokerConfig} {obj : KafkaUser} {principal : String}
  {desired : List AclEntry} {u v w : World BrokerState}

/-! ## What every step keeps -/

/-- The entries that the spec asks for stay, and so do those of other principals. -/
structure Spares (desired : List AclEntry) (principal : String) (w v : World BrokerState) : Prop where
  kept : ∀ e ∈ desired, e ∈ w.brokers.acls → e ∈ v.brokers.acls
  others : ∀ e, e.principal ≠ principal → (e ∈ v.brokers.acls ↔ e ∈ w.brokers.acls)

theorem Spares.of_eq (h : v.brokers.acls = w.brokers.acls) : Spares desired principal w v :=
  ⟨fun _ _ he => h ▸ he, fun _ _ => by rw [h]⟩

theorem Spares.trans (h : Spares desired principal u w) (h' : Spares desired principal w v) :
    Spares desired principal u v :=
  ⟨fun e he hmem => h'.kept e he (h.kept e he hmem),
    fun e he => (h'.others e he).trans (h.others e he)⟩

/-- Requests that add entries of the principal only, and remove entries of it that the spec does not
ask for. -/
def SparesRequest (desired : List AclEntry) (principal : String) : Req → Prop
  | .admin (.createAcls entries) => ∀ e ∈ entries, e.principal = principal
  | .admin (.deleteAcls filters) =>
    ∀ f ∈ filters, ∃ d, f = entryToExactFilter d ∧ d.principal = principal ∧ d ∉ desired
  | .getKafka _ => False
  | .setFinalizers _ => False
  | _ => True

theorem acls_attempted {α : Type} {c : Call} {x : α} {b b' : BrokerState} (h : b'.acls = b.acls) :
    (attempted c x b b').2.acls = b.acls := by
  rcases attempted_brokers c x b b' with heq | heq
  · rw [heq]
  · rw [heq, h]

theorem spares_create {entries : List AclEntry} (h : ∀ e ∈ entries, e.principal = principal)
    (c : AclCall) (w : World BrokerState) :
    Spares desired principal w (partly (.admin (.createAcls entries)) c w).2 := by
  unfold partly aclAnswer
  dsimp only
  split
  · exact .of_eq rfl
  · refine ⟨fun e _ hmem => List.mem_append_left _ hmem, fun e he => ?_⟩
    rw [List.mem_append]
    refine ⟨fun hmem => hmem.resolve_right fun hnew => ?_, .inl⟩
    exact he (h e (List.mem_filter.mp hnew).1)

theorem spares_delete {filters : List AclEntryFilter}
    (h : ∀ f ∈ filters, ∃ d, f = entryToExactFilter d ∧ d.principal = principal ∧ d ∉ desired)
    (c : AclCall) (w : World BrokerState) :
    Spares desired principal w (partly (.admin (.deleteAcls filters)) c w).2 := by
  -- an entry that a filter matches is a deletion
  have hmatch : ∀ e, (∃ f ∈ filters, f.Matches e) → e.principal = principal ∧ e ∉ desired := by
    rintro e ⟨f, hf, hmatches⟩
    obtain ⟨d, rfl, hprincipal, hdesired⟩ := h f hf
    rw [matches_entryToExactFilter.mp hmatches]
    exact ⟨hprincipal, hdesired⟩
  unfold partly aclAnswer
  dsimp only
  split
  · exact .of_eq rfl
  · refine ⟨fun e he hmem => ?_, fun e he => ?_⟩
    · simp only [List.mem_filter, decide_eq_true_eq]
      exact ⟨hmem, fun hgone => (hmatch e hgone.2).2 he⟩
    · simp only [List.mem_filter, decide_eq_true_eq, and_iff_left_iff_imp]
      exact fun _ hgone => he (hmatch e hgone.2).1

/-- One call of such a request, whichever of its items are carried out. -/
theorem spares_partly {r : Req} (hr : SparesRequest desired principal r) (c : AclCall)
    (w : World BrokerState) : Spares desired principal w (partly r c w).2 := by
  cases r with
  | getKafka name => exact hr.elim
  | setFinalizers finalizers => exact hr.elim
  | patchStatus patch =>
    have hlater : Later w (partly (.patchStatus patch) c w).2 := later_troubled trivial
    exact .of_eq (congrArg BrokerState.acls hlater.brokers)
  | store r =>
    have hlater : Later w (partly (.store r) c w).2 := later_troubled trivial
    exact .of_eq (congrArg BrokerState.acls hlater.brokers)
  | now => exact .of_eq rfl
  | admin r =>
    cases r with
    | createAcls entries => exact spares_create hr c w
    | deleteAcls filters => exact spares_delete hr c w
    | connect bootstrap => exact .of_eq (acls_attempted rfl)
    | describeAcls filter => exact .of_eq (acls_attempted rfl)
    | describeUserQuotas username => exact .of_eq (acls_attempted rfl)
    | alterUserQuotas username ops => exact .of_eq (acls_attempted rfl)
    | alterScram sha512 upsertions deletions => exact .of_eq rfl
    | createDelegationToken owner renewers maxLifetime => exact .of_eq rfl
    | renewDelegationToken hmac => exact .of_eq rfl
    | expireDelegationToken hmac => exact .of_eq rfl
    | describeDelegationToken owner => exact .of_eq rfl

/-! ## Requests of the stages -/

theorem quiet_spares {r : Req} (h : Quiet r) : SparesRequest desired principal r := by
  cases r with
  | patchStatus patch => trivial
  | store r => trivial
  | getKafka name => exact h.elim
  | setFinalizers finalizers => exact h.elim
  | admin r => exact h.elim
  | now => exact h.elim

theorem reportFailure_makes (reason message : String) :
    (reportFailure obj reason message).Makes Quiet := sendPatch_makes _

theorem userAccessBrokerError_makes (e : AdminError) (op : String)
    (token : Option TokenAccessState) : (userAccessBrokerError cfg obj e op token).Makes Quiet := by
  cases token with
  | none => exact (reportFailure_makes _ _).bind fun _ => trivial
  | some token => exact (sendPatch_makes _).bind fun _ => trivial

theorem readError_makes (e : AdminError) (op : String) (token : Option TokenAccessState) :
    (readError cfg obj e op token).Makes Quiet := by
  apply Prog.makes_ite
  · exact userAccessBrokerError_makes _ _ _
  · trivial

theorem ensureTokenAccessPending_makes (token : Option TokenAccessState) :
    (ensureTokenAccessPending token).Makes Quiet := by
  cases token with
  | none => trivial
  | some token =>
    apply Prog.makes_ite
    · trivial
    · exact (sendPatch_makes _).bind fun _ => trivial

theorem announceChange_makes (changed : Bool) (token : Option TokenAccessState) :
    (announceChange changed token).Makes Quiet := by
  apply Prog.makes_ite
  · exact ensureTokenAccessPending_makes token
  · trivial

theorem publishReady_makes (tlsNotAfter : Option String) (quotasInSync : Bool)
    (token : Option TokenAccessState) :
    (publishReady cfg obj principal tlsNotAfter quotasInSync token).Makes Quiet := by
  cases token with
  | none => exact (sendPatch_makes _).bind fun _ => trivial
  | some token => exact (sendPatch_makes _).bind fun _ => trivial

/-- A report of a pass, and what it hands on. -/
theorem report_spares {α β : Type} {p : Op α} (f : α → β) (h : p.Makes Quiet) :
    (f <$> p).Makes (SparesRequest desired principal) :=
  (h.mono fun _ => quiet_spares).bind fun _ => trivial

/-- The requests of the stage of the quotas. -/
inductive QuotaRequest : Req → Prop
  | quiet {r : Req} (h : Quiet r) : QuotaRequest r
  | describe (username : String) : QuotaRequest (.admin (.describeUserQuotas username))
  | alter (username : String) (ops : List QuotaOp) :
    QuotaRequest (.admin (.alterUserQuotas username ops))

theorem QuotaRequest.spares {r : Req} (h : QuotaRequest r) : SparesRequest desired principal r := by
  cases h with
  | quiet h => exact quiet_spares h
  | describe username => trivial
  | alter username ops => trivial

theorem reconcileQuotas_makes (username : String) (token : Option TokenAccessState) :
    (reconcileQuotas lib cfg obj username token).Makes QuotaRequest := by
  have hreport {p : Op Action} (h : p.Makes Quiet) :
      (@Synced.done (Bool × Option TokenAccessState) <$> p).Makes QuotaRequest :=
    (h.mono fun _ => .quiet).bind fun _ => trivial
  unfold reconcileQuotas
  cases obj.quotas with
  | none => trivial
  | some quotas =>
    refine ⟨.describe username, fun described => ?_⟩
    cases described with
    | error e => exact hreport (readError_makes e _ token)
    | ok current =>
      apply Prog.makes_ite
      · trivial
      · apply ((ensureTokenAccessPending_makes token).mono fun _ => .quiet).bind
        refine fun token => ⟨.alter _ _, fun altered => ?_⟩
        rcases altered with e | (_ | e)
        · exact hreport (userAccessBrokerError_makes _ _ token)
        · trivial
        · exact hreport (userAccessBrokerError_makes _ _ token)

/-- The changes of a diff, additions first. -/
theorem applyAcls_makes {additions deletions : List AclEntry}
    (hadditions : ∀ e ∈ additions, e.principal = principal)
    (hdeletions : ∀ e ∈ deletions, e.principal = principal ∧ e ∉ desired)
    (token : Option TokenAccessState) :
    (applyAcls cfg obj additions deletions token).Makes (SparesRequest desired principal) := by
  have hcreate : (applyCreateAcls additions).Makes (SparesRequest desired principal) := by
    apply Prog.makes_ite
    · trivial
    · exact ⟨hadditions, fun _ => trivial⟩
  have hdelete : (applyDeleteAcls deletions).Makes (SparesRequest desired principal) := by
    apply Prog.makes_ite
    · trivial
    · refine ⟨fun f hf => ?_, fun _ => trivial⟩
      obtain ⟨d, hd, rfl⟩ := List.mem_map.mp hf
      exact ⟨d, rfl, hdeletions d hd⟩
  unfold applyAcls
  apply ((announceChange_makes _ token).mono fun _ => quiet_spares).bind
  intro token
  apply hcreate.bind
  intro created
  cases created with
  | some e => exact report_spares _ (userAccessBrokerError_makes e _ token)
  | none =>
    apply hdelete.bind
    intro deleted
    cases deleted with
    | some e => exact report_spares _ (userAccessBrokerError_makes e _ token)
    | none => trivial

/-! ## Runs that are cut short -/

/-- A step of a pass. -/
def SparesStep (desired : List AclEntry) (principal : String) (w : World BrokerState) (_ : Req)
    (v : World BrokerState) : Prop := Spares desired principal w v

theorem sat_of_makes {α : Type} {p : Op α} (h : p.Makes (SparesRequest desired principal))
    (w : World BrokerState) :
    p.Sat partly (SparesStep desired principal) (fun _ _ => True) w := by
  refine (@Prog.Makes.sat _ _ _ _ _ _ partly _ _ h w).mono (fun a r b hstep => ?_) fun _ _ _ => trivial
  obtain ⟨hr, c, rfl⟩ := hstep
  exact spares_partly hr c a

theorem sat_bind {α β : Type} {p : Op α} {f : α → Op β}
    (h : p.Sat partly (SparesStep desired principal) (fun _ _ => True) w)
    (hf : ∀ a, (f a).Makes (SparesRequest desired principal)) :
    (p >>= f).Sat partly (SparesStep desired principal) (fun _ _ => True) w := by
  apply Prog.Sat.bind
  refine h.mono (fun _ _ _ hstep => hstep) fun x v _ => ?_
  cases x with
  | error e => trivial
  | ok a => exact sat_of_makes (hf a) v

/-- The deletions are read from the entries of the principal. -/
theorem sat_reconcileAcls (token : Option TokenAccessState) (w : World BrokerState) :
    (reconcileAcls cfg obj principal token).Sat partly
      (SparesStep (expandSpecAcls obj.authorization principal) principal) (fun _ _ => True) w := by
  unfold reconcileAcls
  cases hauth : obj.authorization with
  | none => trivial
  | some simple =>
    intro c
    refine ⟨.of_eq (acls_attempted rfl), ?_⟩
    generalize hanswer : (partly (.admin (.describeAcls { principal := some principal })) c w).1 =
      described
    cases described with
    | error e => exact sat_of_makes (report_spares _ (readError_makes e _ token)) _
    | ok current =>
      have hcurrent : current = w.brokers.acls.filter
          (fun e => ({ principal := some principal } : AclEntryFilter).Matches e) :=
        (attempted_of_ok hanswer).1
      apply sat_of_makes
      refine applyAcls_makes (fun e he => ?_) (fun e he => ?_) token
      · rw [List.mem_filter, List.mem_dedup] at he
        exact principal_of_mem_expandSpecAcls he.1
      · rw [List.mem_filter, List.mem_dedup, hcurrent, List.mem_filter] at he
        simp only [matches_principal, decide_eq_true_eq] at he
        exact ⟨he.1.2, he.2⟩

theorem sat_reconcileAccess (bootstrap : String) (tlsNotAfter : Option String)
    (token : Option TokenAccessState) (w : World BrokerState) :
    (reconcileAccess lib cfg obj bootstrap principal tlsNotAfter token).Sat partly
      (SparesStep (expandSpecAcls obj.authorization principal) principal) (fun _ _ => True) w := by
  unfold reconcileAccess
  intro c
  refine ⟨.of_eq (acls_attempted rfl), ?_⟩
  cases (partly (.admin (.connect bootstrap)) c w).1 with
  | error e => exact sat_of_makes ((readError_makes e _ token).mono fun _ => quiet_spares) _
  | ok u =>
    change Prog.Sat partly _ _ (reconcileAcls cfg obj principal token >>= _) _
    refine sat_bind (sat_reconcileAcls token _) fun synced => ?_
    cases synced with
    | done action => trivial
    | ok token =>
      apply ((reconcileQuotas_makes _ token).mono fun _ => QuotaRequest.spares).bind
      intro synced
      cases synced with
      | done action => trivial
      | ok value => exact (publishReady_makes _ _ _).mono fun _ => quiet_spares

/-- Wherever a pass ends, and whichever items of its calls are carried out. -/
theorem spares_after (bootstrap : String) (tlsNotAfter : Option String)
    (token : Option TokenAccessState) (w : World BrokerState) (calls : List AclCall) :
    ∀ v ∈ (reconcileAccess lib cfg obj bootstrap principal tlsNotAfter token).after partly calls w,
      Spares (expandSpecAcls obj.authorization principal) principal w v := by
  have hsat : (reconcileAccess lib cfg obj bootstrap principal tlsNotAfter token).Sat partly
      (fun a _ b => Spares (expandSpecAcls obj.authorization principal) principal w a →
        Spares (expandSpecAcls obj.authorization principal) principal w b) (fun _ _ => True) w :=
    (sat_reconcileAccess bootstrap tlsNotAfter token w).mono
      (fun _ _ _ hstep hbefore => hbefore.trans hstep) fun _ _ h => h
  exact hsat.forall_after (.of_eq rfl) calls

/-! ## A second pass -/

def ChangesAcls : Req → Prop
  | .admin (.createAcls _) => True
  | .admin (.deleteAcls _) => True
  | _ => False

/-- The brokers have the entries of the spec for the principal, and no others. -/
def AclsSynced (obj : KafkaUser) (principal : String) (acls : List AclEntry) : Prop :=
  ∀ e, e.principal = principal → (e ∈ acls ↔ e ∈ expandSpecAcls obj.authorization principal)

theorem quiet_changes_none {r : Req} (h : Quiet r) : ¬ ChangesAcls r := by
  cases r with
  | patchStatus patch => exact id
  | store r => exact id
  | getKafka name => exact h.elim
  | setFinalizers finalizers => exact h.elim
  | admin r => exact h.elim
  | now => exact h.elim

theorem diffAcls_synced {acls : List AclEntry} (h : AclsSynced obj principal acls) :
    diffAcls (acls.filter fun e => ({ principal := some principal } : AclEntryFilter).Matches e)
      (expandSpecAcls obj.authorization principal) = ([], []) := by
  unfold diffAcls
  simp only [Prod.mk.injEq, List.filter_eq_nil_iff, List.mem_dedup, decide_eq_true_eq, not_not,
    List.mem_filter, matches_principal]
  constructor
  · intro e he
    have hprincipal := principal_of_mem_expandSpecAcls he
    exact ⟨(h e hprincipal).mpr he, hprincipal⟩
  · intro e he
    exact (h e he.2).mp he.1

theorem applyAcls_nil (token : Option TokenAccessState) :
    applyAcls cfg obj [] [] token = pure (.ok token) := rfl

/-- The stages that do not change ACLs in a pass over synced ones. -/
theorem sat_changes_none {α : Type} {p : Op α} (h : p.Makes fun r => ¬ ChangesAcls r)
    (w : World BrokerState) : p.Sat partly (fun _ r _ => ¬ ChangesAcls r) (fun _ _ => True) w :=
  (@Prog.Makes.sat _ _ _ _ _ _ partly _ _ h w).mono (fun _ _ _ hstep => hstep.1) fun _ _ _ => trivial

theorem report_changes_none {α β : Type} {p : Op α} (f : α → β) (h : p.Makes Quiet) :
    (f <$> p).Makes fun r => ¬ ChangesAcls r :=
  (h.mono fun _ => quiet_changes_none).bind fun _ => trivial

theorem sat_reconcileAcls_synced (token : Option TokenAccessState)
    (h : AclsSynced obj principal w.brokers.acls) :
    (reconcileAcls cfg obj principal token).Sat partly (fun _ r _ => ¬ ChangesAcls r)
      (fun _ _ => True) w := by
  unfold reconcileAcls
  cases hauth : obj.authorization with
  | none => trivial
  | some simple =>
    refine fun c => ⟨id, ?_⟩
    generalize hanswer : (partly (.admin (.describeAcls { principal := some principal })) c w).1 =
      described
    cases described with
    | error e => exact sat_changes_none (report_changes_none _ (readError_makes e _ token)) _
    | ok current =>
      have hcurrent := (attempted_of_ok hanswer).1
      have hdiff := diffAcls_synced h
      rw [hauth, ← hcurrent] at hdiff
      change Prog.Sat partly _ _ (applyAcls cfg obj
        (diffAcls current (expandSpecAcls (some simple) principal)).1
        (diffAcls current (expandSpecAcls (some simple) principal)).2 token) _
      rw [hdiff, applyAcls_nil]
      trivial

theorem QuotaRequest.changes_none {r : Req} (h : QuotaRequest r) : ¬ ChangesAcls r := by
  cases h with
  | quiet h => exact quiet_changes_none h
  | describe username => exact id
  | alter username ops => exact id

/-- A pass over synced entries asks for no change, whatever fails. -/
theorem sat_reconcileAccess_synced (bootstrap : String) (tlsNotAfter : Option String)
    (token : Option TokenAccessState) (h : AclsSynced obj principal w.brokers.acls) :
    (reconcileAccess lib cfg obj bootstrap principal tlsNotAfter token).Sat partly
      (fun _ r _ => ¬ ChangesAcls r) (fun _ _ => True) w := by
  unfold reconcileAccess
  refine fun c => ⟨id, ?_⟩
  have hsame : (partly (.admin (.connect bootstrap)) c w).2.brokers.acls = w.brokers.acls :=
    acls_attempted rfl
  cases (partly (.admin (.connect bootstrap)) c w).1 with
  | error e => exact sat_changes_none ((readError_makes e _ token).mono fun _ => quiet_changes_none) _
  | ok u =>
    change Prog.Sat partly _ _ (reconcileAcls cfg obj principal token >>= _) _
    apply Prog.Sat.bind
    refine (sat_reconcileAcls_synced token (hsame ▸ h)).mono (fun _ _ _ hstep => hstep)
      fun synced v _ => ?_
    cases synced with
    | error e => trivial
    | ok synced =>
      cases synced with
      | done action => trivial
      | ok token =>
        apply sat_changes_none
        apply ((reconcileQuotas_makes _ token).mono fun _ => QuotaRequest.changes_none).bind
        intro synced
        cases synced with
        | done action => trivial
        | ok value => exact (publishReady_makes _ _ _).mono fun _ => quiet_changes_none

/-- The user with these rules. -/
def KafkaUser.authorized (obj : KafkaUser) (simple : Authorization) : KafkaUser :=
  { obj with authorization := some simple }

/-- A pass whose calls succeed gives the principal the entries of the rules and leaves the others, and
a second pass changes none. A pass that is cut short takes away no entry that the rules ask for. -/
theorem acls_converge (lib : Lib) (cfg : Config) (bc : BrokerConfig) (obj : KafkaUser)
    (simple : Authorization) (bootstrap principal : String) (tlsNotAfter : Option String)
    (token : Option TokenAccessState) (w : World BrokerState) :
    (∃ action v, (reconcileAccess lib cfg (obj.authorized simple) bootstrap principal tlsNotAfter
        token).complete (answer (healthy bc)) w = (.ok action, v) ∧
      (∀ e, e ∈ v.brokers.acls ↔
        if e.principal = principal then e ∈ expandSpecAcls (some simple) principal
        else e ∈ w.brokers.acls) ∧
      ∀ (next : KafkaUser) (bootstrap : String) (tlsNotAfter : Option String)
        (token : Option TokenAccessState) (calls : List AclCall),
        ∀ st ∈ (reconcileAccess lib cfg (next.authorized simple) bootstrap principal tlsNotAfter
          token).trace partly calls v, ¬ ChangesAcls st.req) ∧
    ∀ calls, ∀ v ∈ (reconcileAccess lib cfg (obj.authorized simple) bootstrap principal tlsNotAfter
        token).after partly calls w,
      (∀ e ∈ expandSpecAcls (some simple) principal, e ∈ w.brokers.acls → e ∈ v.brokers.acls) ∧
      ∀ e, e.principal ≠ principal → (e ∈ v.brokers.acls ↔ e ∈ w.brokers.acls) := by
  obtain ⟨action, status, hpass, -⟩ := complete_reconcileAccess lib cfg bc (obj.authorized simple)
    bootstrap principal tlsNotAfter token w
  have hmem (e : AclEntry) : e ∈ syncedAcls (some simple) principal w.brokers.acls ↔
      if e.principal = principal then e ∈ expandSpecAcls (some simple) principal
      else e ∈ w.brokers.acls := by
    rw [mem_syncedAcls]
    simp only [Option.isSome_some, true_and]
  constructor
  · refine ⟨action, _, hpass, hmem, fun next bootstrap tlsNotAfter token calls => ?_⟩
    apply Prog.Sat.trace (sat_reconcileAccess_synced bootstrap tlsNotAfter token _)
    intro e he
    exact (hmem e).trans (by rw [if_pos he]; rfl)
  · intro calls v hv
    have hspares := spares_after bootstrap tlsNotAfter token w calls v hv
    exact ⟨hspares.kept, hspares.others⟩

end Access
