-- SUMMARY: Runs of token passes with faults and crashes: the user never has two live tokens, and a pass that succeeds leaves broker, status and Secret in agreement.
import KrabkaOperator.Access.Faults
import KrabkaOperator.Base.Checks
import KrabkaOperator.Base.History

/-!
# One token for each user

A pass describes the tokens before it creates one, and creates one only where none is live.
This holds however many calls fail and wherever the operator stops.
-/

namespace Access

open Kube Crd Operator Admin

variable {lib : Lib} {cfg : Config} {obj : KafkaUser} {auth : DelegationTokenAuth} {name : String}
  {w v : World BrokerState} {token : DelegationToken}

/-- After each call at most one token of the owner is live. -/
def KeepsOne (name : String) (_ : World BrokerState) (_ : Req) (v : World BrokerState) : Prop :=
  OneToken name v

/-! ## Stages -/

/-- A stage that does not call the brokers. -/
theorem sat_quiet {α : Type} {p : Op α} (h : p.Makes Quiet) (hone : OneToken name w) :
    p.Sat troubled (KeepsOne name) (fun _ v => OneToken name v ∧ Later w v) w := by
  refine h.stage (fun a r c hr ⟨ha, hlater⟩ => ?_) ⟨hone, .refl w⟩
  have hnext := later_troubled (w := a) (c := c) hr
  exact ⟨ha.later hnext, ha.later hnext, hlater.trans hnext⟩

/-- The brokers have this token, no other is live, and its renewers are those of the spec. -/
structure Held (lib : Lib) (name : String) (auth : DelegationTokenAuth) (token : DelegationToken)
    (w : World BrokerState) : Prop where
  mem : token ∈ w.brokers.tokens
  only : OnlyLive name token w
  renewers : sameSet auth.renewers (token.renewers.map lib.printPrincipal) = true

theorem Held.later (h : Held lib name auth token w) (hv : Later w v) : Held lib name auth token v :=
  ⟨hv.brokers ▸ h.mem, h.only.later hv, h.renewers⟩

/-- Printing a principal undoes parsing it. -/
def PrintsBack (lib : Lib) : Prop :=
  ∀ s principal, lib.parsePrincipal s = .ok principal → lib.printPrincipal principal = s

theorem print_of_mapM (hprint : PrintsBack lib) {texts : List String} {renewers : List KafkaPrincipal}
    (h : texts.mapM lib.parsePrincipal = .ok renewers) :
    renewers.map lib.printPrincipal = texts := by
  induction texts generalizing renewers with
  | nil =>
    cases h
    rfl
  | cons s texts ih =>
    rw [List.mapM_cons, Checks.bind_eq_ok] at h
    obtain ⟨principal, hs, h⟩ := h
    rw [Checks.bind_eq_ok] at h
    obtain ⟨rest, hrest, h⟩ := h
    cases h
    rw [List.map_cons, hprint s principal hs, ih hrest]

theorem sameSet_refl (xs : List String) : sameSet xs xs = true := by simp [sameSet]

/-- A describe lists the live tokens. -/
theorem sat_describeTokens (hparse : lib.parsePrincipal ("User:" ++ name) = .ok ⟨"User", name⟩)
    (hone : OneToken name w) :
    (describeDelegationTokensOwnedBy lib ("User:" ++ name)).Sat troubled (KeepsOne name)
      (fun x v => OneToken name v ∧ ∀ tokens, x = .ok (.ok tokens) →
        tokens = v.brokers.liveTokens name v.clock) w := by
  unfold describeDelegationTokensOwnedBy
  rw [hparse]
  intro c
  obtain ⟨hlater, hlist⟩ := troubled_describe name c w
  refine ⟨hone.later hlater, hone.later hlater, fun tokens h => ?_⟩
  exact hlist tokens (Except.ok.inj h)

/-- What the stages that drive the decision hand on: a token that is held, or a failure. -/
structure Drives (lib : Lib) (name : String) (auth : DelegationTokenAuth)
    (x : Except ReconcileError TokenStep) (v : World BrokerState) : Prop where
  one : OneToken name v
  held : ∀ token pending, x = .ok (.live token pending) → Held lib name auth token v
  failed : ∀ out, x = .ok (.done out) → out.conditions = none

theorem drives_error {e : ReconcileError} (hone : OneToken name v) :
    Drives lib name auth (.error e) v := by
  refine ⟨hone, fun token pending h => ?_, fun out h => ?_⟩
  · cases h
  · cases h

theorem drives_live {pending : Option (List Condition)} (hone : OneToken name v)
    (hheld : Held lib name auth token v) : Drives lib name auth (.ok (.live token pending)) v := by
  refine ⟨hone, fun token' pending' h => ?_, fun out h => ?_⟩
  · cases h
    exact hheld
  · cases h

/-- An error of the brokers hands on no conditions. -/
theorem onAdminError_returns (cfg : Config) (e : AdminError) (op : String)
    (prior : Option (List Condition)) (tokenLive : Bool) :
    (onAdminError cfg e op prior tokenLive).Returns (fun out => out.conditions = none) :=
  Prog.Returns.bind fun _ => rfl

theorem sat_stop (e : AdminError) (op : String) (prior : Option (List Condition))
    (tokenLive : Bool) (hone : OneToken name w) :
    (onAdminError cfg e op prior tokenLive >>= fun out => pure (TokenStep.done out)).Sat troubled
      (KeepsOne name) (Drives lib name auth) w := by
  have hdone : (onAdminError cfg e op prior tokenLive >>= fun out =>
      pure (TokenStep.done out)).Returns (fun step => ∃ out, step = .done out ∧ out.conditions = none) :=
    Prog.Returns.bind_of (onAdminError_returns cfg e op prior tokenLive)
      fun out hout => ⟨out, rfl, hout⟩
  refine ((sat_quiet (stop_makes e op prior tokenLive) hone).and (hdone.sat w)).mono
    (fun _ _ _ h => h.1) fun x v h => ⟨h.1.1, fun token pending hx => ?_, fun out hx => ?_⟩
  · obtain ⟨out, hout, _⟩ := h.2 _ hx
    cases hout
  · obtain ⟨out', hout, hnone⟩ := h.2 _ hx
    cases hout
    exact hnone

/-- A token is issued where none is live. -/
theorem sat_issueStep (hprint : PrintsBack lib) (pending : List Condition) (hone : OneToken name w)
    (hnone : NoneLive name w) :
    (issueStep lib cfg name auth pending).Sat troubled (KeepsOne name) (Drives lib name auth) w := by
  unfold issueStep issueNewToken
  cases hrenewers : auth.renewers.mapM lib.parsePrincipal with
  | error message =>
    exact sat_stop (.other false message) "CreateDelegationToken" (some pending) false hone
  | ok renewers =>
    intro c
    obtain ⟨hnext, hissued⟩ := troubled_create hone hnone renewers auth.maxLifetime c
    refine ⟨hnext, ?_⟩
    revert hissued hnext
    generalize troubled (.admin (.createDelegationToken ⟨"User", name⟩ renewers auth.maxLifetime))
      c w = result
    obtain ⟨issued, v⟩ := result
    intro hnext hissued
    cases issued with
    | error e => exact sat_stop _ _ _ _ hnext
    | ok token =>
      obtain ⟨hsame, hmem, honly⟩ := hissued token rfl
      refine drives_live hnext ⟨hmem, honly, ?_⟩
      rw [hsame, print_of_mapM hprint hrenewers]
      exact sameSet_refl _

theorem sat_driveExisting (hprint : PrintsBack lib) (hobj : obj.name = name) (nowMs : Int)
    (hone : OneToken name w) (hmem : token ∈ w.brokers.tokens) (honly : OnlyLive name token w) :
    (driveExisting lib cfg obj auth nowMs token
        (decide lib.printPrincipal auth (some token) nowMs)).Sat troubled (KeepsOne name)
      (Drives lib name auth) w := by
  rcases decide_some lib.printPrincipal auth token nowMs with ⟨h, _⟩ | ⟨h | h, hsame⟩
  · rw [h]
    apply Prog.Sat.bind
    refine (sat_quiet (publishTokenPending_makes _ true) hone).mono (fun _ _ _ h => h) ?_
    rintro x v ⟨hone, hlater⟩
    cases x with
    | error e => exact drives_error hone
    | ok pending =>
      intro c
      obtain ⟨hnext, hexpired⟩ := troubled_expire hone (honly.later hlater) c
      refine ⟨hnext, ?_⟩
      revert hexpired hnext
      generalize troubled (.admin (.expireDelegationToken token.hmac)) c v = result
      obtain ⟨expired, v⟩ := result
      intro hnext hexpired
      cases expired with
      | error e => exact sat_stop _ _ _ _ hnext
      | ok u =>
        rw [← hobj] at hnext hexpired ⊢
        exact sat_issueStep hprint pending hnext (hexpired rfl)
  · rw [h]
    intro c
    obtain ⟨hnext, hrenewed⟩ := troubled_renew hone hmem honly c
    refine ⟨hnext, ?_⟩
    revert hrenewed hnext
    generalize troubled (.admin (.renewDelegationToken token.hmac)) c w = result
    obtain ⟨renewed, v⟩ := result
    intro hnext hrenewed
    cases renewed with
    | error e => exact sat_stop _ _ _ _ hnext
    | ok expiry =>
      obtain ⟨hmem', honly'⟩ := hrenewed expiry rfl
      exact drives_live hnext ⟨hmem', honly', hsame⟩
  · rw [h]
    exact drives_live hone ⟨hmem, honly, hsame⟩

theorem sat_drive (hprint : PrintsBack lib) (hobj : obj.name = name) (nowMs : Int)
    (hone : OneToken name w) {existing : List DelegationToken}
    (hexisting : existing = w.brokers.liveTokens name w.clock) :
    (drive lib cfg obj auth nowMs (matchingToken obj existing)).Sat troubled (KeepsOne name)
      (Drives lib name auth) w := by
  cases hmatch : matchingToken obj existing with
  | none =>
    have hnone : NoneLive name w := by
      intro t ht hlive
      have hempty : existing = [] := by
        rw [matchingToken, Option.or_eq_none_iff, List.head?_eq_none_iff] at hmatch
        exact hmatch.2
      have hin := mem_liveTokens.mpr ⟨ht, hlive⟩
      rw [← hexisting, hempty] at hin
      cases hin
    apply Prog.Sat.bind
    refine (sat_quiet (publishTokenPending_makes _ false) hone).mono (fun _ _ _ h => h) ?_
    rintro x v ⟨hone, hlater⟩
    cases x with
    | error e => exact drives_error hone
    | ok pending =>
      rw [← hobj] at hone hnone ⊢
      exact sat_issueStep hprint pending hone (hnone.later hlater)
  | some token =>
    have hin : token ∈ w.brokers.liveTokens name w.clock := by
      rw [← hexisting]
      exact mem_of_matchingToken hmatch
    exact sat_driveExisting hprint hobj nowMs hone (mem_liveTokens.mp hin).1 (hone.onlyLive hin)

/-! ## Status and Secret -/

/-- Broker, status and Secret name the same token. -/
structure Agrees (lib : Lib) (name : String) (token : DelegationToken) (v : World BrokerState) :
    Prop where
  broker : token ∈ v.brokers.tokens
  status : ∃ status, v.user.status = some status ∧
    status.delegationTokenId = some token.tokenId ∧
    status.delegationTokenExpiryTimestampMs = some token.expiryTimestampMs
  secret : ∃ secret, v.store.secret? name = some secret ∧
    secret.data.value? "token-id" = some (.text token.tokenId.toList) ∧
    secret.data.value? "hmac" = some token.hmac ∧
    secret.data.value? "password" = some (.text (lib.base64 token.hmac))

theorem sat_sendPatch (patch : StatusPatch) (hone : OneToken name w) :
    (sendPatch patch).Sat troubled (KeepsOne name) (fun x v => OneToken name v ∧ Later w v ∧
      (x = .ok () → ∃ status, v.user.status = some (patch.apply status))) w := by
  intro c
  have hlater := later_troubled (w := w) (c := c) (show Quiet (.patchStatus patch) from trivial)
  refine ⟨hone.later hlater, ?_⟩
  cases hfault : c.fault with
  | none =>
    have hok : troubled (.patchStatus patch) c w = (.ok (), { w.later c.elapsed with
        user := { w.user with status := some (patch.apply w.user.status) } }) := by
      simp only [troubled, troubledNow, answerWrite, hfault]
      rfl
    rw [hok] at hlater ⊢
    exact ⟨hone.later hlater, hlater, fun _ => ⟨_, rfl⟩⟩
  | refused =>
    have herr : (troubled (.patchStatus patch) c w).1 = .error .refused := by
      simp only [troubled, troubledNow, answerWrite, hfault]
    rw [herr]
    exact ⟨hone.later hlater, hlater, by simp⟩
  | lost =>
    have herr : (troubled (.patchStatus patch) c w).1 = .error .lost := by
      simp only [troubled, troubledNow, answerWrite, hfault]
    rw [herr]
    exact ⟨hone.later hlater, hlater, by simp⟩

/-- An apply that succeeds sets the data that it lists. -/
theorem sat_applySecret (name' : String) (secretCfg : SecretConfig) (hone : OneToken name w) :
    (onStore (applySecret name' secretCfg)).Sat troubled (KeepsOne name)
      (fun x v => OneToken name v ∧ Later w v ∧ v.user = w.user ∧
        (x = .ok () → ∃ secret, v.store.secret? name' = some secret ∧
          ∀ key value, secretCfg.data[key]? = some value → secret.data.value? key = some value)) w := by
  intro c
  have hlater := later_troubled (w := w) (c := c)
    (show Quiet (.store (.applySecret name' secretCfg)) from trivial)
  refine ⟨hone.later hlater, ?_⟩
  cases hfault : c.fault with
  | none =>
    have hok : troubled (.store (.applySecret name' secretCfg)) c w = (.ok (), { w.later c.elapsed with
        store := w.store.applySecret name' secretCfg }) := by
      simp only [troubled, troubledNow, Operator.answer, answerWrite, hfault]
      rfl
    rw [hok] at hlater ⊢
    refine ⟨hone.later hlater, hlater, rfl, fun _ => ⟨_, World.secret?_applySecret_self, ?_⟩⟩
    exact fun key value h => Fields.value?_apply_of_some h
  | refused =>
    have herr : (troubled (.store (.applySecret name' secretCfg)) c w).1 = .error .refused := by
      simp only [troubled, troubledNow, Operator.answer, answerWrite, hfault]
    rw [herr]
    exact ⟨hone.later hlater, hlater, rfl, by simp⟩
  | lost =>
    have herr : (troubled (.store (.applySecret name' secretCfg)) c w).1 = .error .lost := by
      simp only [troubled, troubledNow, Operator.answer, answerWrite, hfault]
    rw [herr]
    exact ⟨hone.later hlater, hlater, rfl, by simp⟩

/-- What a pass leaves: if it hands on conditions, broker, status and Secret agree. -/
def Saves (lib : Lib) (name : String) (auth : DelegationTokenAuth)
    (x : Except ReconcileError ReconcileOutcome) (v : World BrokerState) : Prop :=
  OneToken name v ∧ ∀ out, x = .ok out → out.conditions.isSome = true →
    ∃ token, Held lib name auth token v ∧ Agrees lib name token v

theorem saves_error {e : ReconcileError} (hone : OneToken name v) :
    Saves lib name auth (.error e) v := by
  refine ⟨hone, fun out h => ?_⟩
  cases h

/-- A stage that reports an error of the brokers hands on no conditions. -/
theorem sat_onAdminError (e : AdminError) (op : String) (prior : Option (List Condition))
    (tokenLive : Bool) (hone : OneToken name w) :
    (onAdminError cfg e op prior tokenLive).Sat troubled (KeepsOne name) (Saves lib name auth) w := by
  have hnone := onAdminError_returns cfg e op prior tokenLive
  refine ((sat_quiet (onAdminError_makes e op prior tokenLive) hone).and (hnone.sat w)).mono
    (fun _ _ _ h => h.1) fun x v h => ⟨h.1.1, fun out hx hsome => ?_⟩
  rw [h.2 out hx] at hsome
  cases hsome

/-- A stage that reports an error and fails. -/
theorem sat_patchAndFail (patch : StatusPatch) (e : ReconcileError) (hone : OneToken name w) :
    (sendPatch patch >>= fun _ => Prog.fail e).Sat troubled (KeepsOne name) (Saves lib name auth) w := by
  have hnever : (sendPatch patch >>= fun _ => (Prog.fail e : Op ReconcileOutcome)).Returns
      (fun _ => False) := Prog.Returns.bind fun _ => trivial
  have hquiet : (sendPatch patch >>= fun _ => (Prog.fail e : Op ReconcileOutcome)).Makes Quiet :=
    (sendPatch_makes patch).bind fun _ => trivial
  refine ((sat_quiet hquiet hone).and (hnever.sat w)).mono (fun _ _ _ h => h.1)
    fun x v h => ⟨h.1.1, fun out hx _ => ?_⟩
  exact (h.2 out hx).elim

theorem sat_persistToken (hobj : obj.name = name) (nowMs : Int) (published : Option (List Condition))
    (hone : OneToken name w) (hheld : Held lib name auth token w) :
    (persistToken lib cfg obj auth nowMs token published).Sat troubled (KeepsOne name)
      (Saves lib name auth) w := by
  unfold persistToken
  apply Prog.Sat.bind
  refine (sat_quiet (announceToken_makes _ _ _) hone).mono (fun _ _ _ h => h) ?_
  rintro x v ⟨hone, hlater⟩
  cases x with
  | error e => exact saves_error hone
  | ok pending =>
    replace hheld := hheld.later hlater
    apply Prog.Sat.bind
    refine (sat_sendPatch _ hone).mono (fun _ _ _ h => h) ?_
    rintro x v ⟨hone, hlater, hpatched⟩
    cases x with
    | error e => exact saves_error hone
    | ok u =>
      replace hheld := hheld.later hlater
      obtain ⟨status, hstatus⟩ := hpatched rfl
      unfold buildSecret
      cases obj.uid with
      | none => exact saves_error hone
      | some uid =>
        dsimp only [Prog.ofExcept_ok, Prog.ret_bind]
        apply Prog.Sat.bind
        apply Prog.Sat.attempt
        refine (sat_applySecret _ _ hone).mono (fun _ _ _ h => h) ?_
        rintro x v ⟨hone, hlater, huser, happlied⟩
        cases x with
        | error e =>
          exact sat_patchAndFail _ e hone
        | ok u =>
          refine ⟨hone, fun out h hsome => ⟨token, hheld.later hlater, (hheld.later hlater).mem, ?_, ?_⟩⟩
          · exact ⟨_, huser ▸ hstatus, rfl, rfl⟩
          · obtain ⟨secret, hsecret, hdata⟩ := happlied rfl
            rw [hobj] at hsecret
            refine ⟨secret, hsecret, hdata _ _ ?_, hdata _ _ ?_, hdata _ _ ?_⟩
            · simp [User.tokenData, secretToken, BTreeMap.getElem?_ofList, List.lookup_cons]
            · simp [User.tokenData, secretToken, BTreeMap.getElem?_ofList, List.lookup_cons]
            · simp [User.tokenData, secretToken, BTreeMap.getElem?_ofList, List.lookup_cons]

/-- One pass over the token, with any faults. -/
theorem sat_reconcileToken (hprint : PrintsBack lib)
    (hparse : lib.parsePrincipal ("User:" ++ name) = .ok ⟨"User", name⟩) (hobj : obj.name = name)
    (nowMs : Int) (hone : OneToken name w) :
    (reconcileToken lib cfg obj auth nowMs).Sat troubled (KeepsOne name) (Saves lib name auth) w := by
  unfold reconcileToken
  rw [hobj]
  apply Prog.Sat.bind
  refine (sat_describeTokens hparse hone).mono (fun _ _ _ h => h) ?_
  rintro x v ⟨hone, hlist⟩
  cases x with
  | error e => exact saves_error hone
  | ok described =>
    cases described with
    | error e => exact sat_onAdminError _ _ _ _ hone
    | ok existing =>
      apply Prog.Sat.bind
      refine (sat_drive hprint hobj nowMs hone (hlist existing rfl)).mono (fun _ _ _ h => h) ?_
      rintro x v ⟨hone, hheld, hfailed⟩
      cases x with
      | error e => exact saves_error hone
      | ok driven =>
        cases driven with
        | done out =>
          refine ⟨hone, fun out' h hsome => ?_⟩
          cases h
          rw [hfailed out rfl] at hsome
          cases hsome
        | live token pending => exact sat_persistToken hobj nowMs pending hone (hheld token pending rfl)

/-! ## Runs -/

/-- One pass over a version of the resource, with what happens at each of its calls. A pass
    without enough calls is one in which the operator stops. -/
structure TokenPass where
  obj : KafkaUser
  auth : DelegationTokenAuth
  nowMs : Int
  calls : List Call

/-- A pass, or a change by somebody else of the resource, the stored objects or the time. -/
inductive TokenEvent where
  | pass (p : TokenPass)
  | other (user : KafkaUser) (store : Operator.World) (elapsed : Nat)

section Run

variable (lib cfg)

def TokenPass.prog (p : TokenPass) : Op ReconcileOutcome := reconcileToken lib cfg p.obj p.auth p.nowMs

def tokenExec : TokenEvent → World BrokerState → List (World BrokerState)
  | .pass p, w => (p.prog lib cfg).after troubled p.calls w
  | .other user store elapsed, w => [{ w.later elapsed with user, store }]

/-- The passes are over the user. -/
def IsOver (name : String) : TokenEvent → Prop
  | .pass p => p.obj.name = name
  | .other _ _ _ => True

/-- The spec of the token does not change. -/
def Unedited (auth : DelegationTokenAuth) : TokenEvent → Prop
  | .pass p => p.auth = auth
  | .other _ _ _ => True

end Run

/-- The live tokens have the renewers of the spec. -/
def Settled (lib : Lib) (name : String) (auth : DelegationTokenAuth) (w : World BrokerState) : Prop :=
  ∀ t ∈ w.brokers.tokens, t.Live name w.clock →
    sameSet auth.renewers (t.renewers.map lib.printPrincipal) = true

theorem Held.settled (h : Held lib name auth token w) : Settled lib name auth w := by
  intro t ht hlive
  rw [h.only t ht hlive]
  exact h.renewers

theorem Settled.later (h : Settled lib name auth w) (hv : Later w v) : Settled lib name auth v := by
  intro t ht hlive
  rw [hv.brokers] at ht
  exact h t ht (hlive.earlier hv.clock)

/-- A pass for the same spec keeps the tokens settled, whatever fails. -/
theorem settled_troubled {r : Req} {c : Call} (hprint : PrintsBack lib)
    (hr : TokenRequest lib name auth r) (h : Settled lib name auth w) :
    Settled lib name auth (troubled r c w).2 := by
  have hlater := h.later (later_later w c.elapsed)
  cases hr with
  | quiet hr => exact h.later (later_troubled hr)
  | describe owner =>
    rw [troubled_admin, tokenAnswer, (attempted_brokers _ _ _ _).elim id id]
    exact hlater
  | @create renewers hrenewers =>
    rw [troubled_admin]
    unfold tokenAnswer
    dsimp only
    split
    · exact hlater
    · rcases attempted_brokers c (BrokerState.minted c ⟨"User", name⟩ renewers) w.brokers
        { w.brokers with
          tokens := w.brokers.tokens ++ [BrokerState.minted c ⟨"User", name⟩ renewers] } with h | h
      · rw [h]
        exact hlater
      · rw [h]
        intro t ht hlive
        rcases List.mem_append.mp ht with hold | hnew
        · exact hlater t hold hlive
        · rw [List.mem_singleton.mp hnew]
          refine (congrArg _ (print_of_mapM hprint hrenewers)).trans (sameSet_refl _)
  | renew hmac =>
    rw [troubled_admin]
    unfold tokenAnswer
    dsimp only
    split
    · rcases attempted_brokers c c.expiryTimestampMs w.brokers
        (w.brokers.renewedTo hmac (w.later c.elapsed).clock c.expiryTimestampMs) with h | h
      · rw [h]
        exact hlater
      · rw [h]
        intro t ht hlive
        obtain ⟨u, hu, rfl, hulive⟩ := live_of_renewedTo name ht
        have hsame := hlater u hu (hulive hlive)
        split
        · exact hsame
        · exact hsame
    · exact hlater
  | expire hmac =>
    rw [troubled_admin, tokenAnswer]
    rcases attempted_brokers c () w.brokers (w.brokers.expired hmac) with h | h
    · rw [h]
      exact hlater
    · rw [h]
      exact fun t ht => hlater t (List.mem_filter.mp ht).1

theorem finish_pass (p : TokenPass) (w : World BrokerState) :
    History.finish (tokenExec lib cfg) (.pass p) w = ((p.prog lib cfg).run troubled p.calls w).2 :=
  (Prog.run_eq_getLastD _ _ _).symm

theorem later_other (user : KafkaUser) (store : Operator.World) (elapsed : Nat)
    (w : World BrokerState) : Later w { w.later elapsed with user, store } :=
  ⟨rfl, (later_later w elapsed).clock⟩

theorem settled_final (hprint : PrintsBack lib) {es : List TokenEvent}
    (hover : ∀ e ∈ es, IsOver name e) (hes : ∀ e ∈ es, Unedited auth e)
    (h : Settled lib name auth w) :
    Settled lib name auth (History.final (tokenExec lib cfg) es w) := by
  induction es generalizing w with
  | nil => exact h
  | cons e es ih =>
    apply ih (fun e' he' => hover e' (List.mem_cons_of_mem _ he'))
      fun e' he' => hes e' (List.mem_cons_of_mem _ he')
    cases e with
    | other user store elapsed => exact h.later (later_other user store elapsed w)
    | pass p =>
      have hname : p.obj.name = name := hover _ List.mem_cons_self
      have hauth : p.auth = auth := hes _ List.mem_cons_self
      rw [finish_pass]
      have hmakes : (p.prog lib cfg).Makes (TokenRequest lib p.obj.name p.auth) :=
        reconcileToken_makes p.nowMs
      rw [hname, hauth] at hmakes
      exact hmakes.run_invariant (fun _ _ _ hr ha => settled_troubled hprint hr ha) h p.calls

/-- The described tokens of a settled owner are neither missing nor to be replaced. -/
theorem Settled.decide (h : Settled lib name auth w) (obj : KafkaUser) (elapsed : Nat) (nowMs : Int)
    (hlisted : w.brokers.liveTokens name (w.clock + elapsed) ≠ []) :
    Access.decide lib.printPrincipal auth
        (matchingToken obj (w.brokers.liveTokens name (w.clock + elapsed))) nowMs ≠ .create ∧
      Access.decide lib.printPrincipal auth
        (matchingToken obj (w.brokers.liveTokens name (w.clock + elapsed))) nowMs ≠ .cycle := by
  cases hmatch : matchingToken obj (w.brokers.liveTokens name (w.clock + elapsed)) with
  | none =>
    rw [matchingToken, Option.or_eq_none_iff, List.head?_eq_none_iff] at hmatch
    exact absurd hmatch.2 hlisted
  | some token =>
    obtain ⟨hmem, hlive⟩ := mem_liveTokens.mp (mem_of_matchingToken hmatch)
    have hsame := (h.later (later_later w elapsed)) token hmem hlive
    rcases decide_some lib.printPrincipal auth token nowMs with ⟨_, hother⟩ | ⟨hdecision | hdecision, _⟩
    · exact absurd (hother.symm.trans hsame) Bool.false_ne_true
    · rw [hdecision]
      exact ⟨by simp, by simp⟩
    · rw [hdecision]
      exact ⟨by simp, by simp⟩

theorem oneToken_exec (cfg : Config) (hprint : PrintsBack lib)
    (hparse : lib.parsePrincipal ("User:" ++ name) = .ok ⟨"User", name⟩) (e : TokenEvent)
    (w : World BrokerState) (he : IsOver name e) (hone : OneToken name w) :
    ∀ v ∈ tokenExec lib cfg e w, OneToken name v := by
  cases e with
  | other user store elapsed =>
    intro v hv
    rw [tokenExec, List.mem_singleton] at hv
    rw [hv]
    exact hone.later (later_other user store elapsed w)
  | pass p =>
    have hsat : (p.prog lib cfg).Sat troubled (fun u _ v => OneToken name u → OneToken name v)
        (Saves lib name p.auth) w :=
      (sat_reconcileToken hprint hparse he p.nowMs hone).mono (fun _ _ _ h _ => h) fun _ _ h => h
    exact hsat.forall_after hone p.calls

/-- However calls fail and wherever the operator stops, the user never has two live tokens. A
    pass that hands on conditions leaves broker, status and Secret in agreement, and as long as
    the spec stays and a token is described, the next decision keeps it. -/
theorem one_token (hprint : PrintsBack lib)
    (hparse : lib.parsePrincipal ("User:" ++ name) = .ok ⟨"User", name⟩) {es : List TokenEvent}
    (hes : ∀ e ∈ es, IsOver name e) (hsecrets : (w.brokers.tokens.map (·.hmac)).Nodup)
    (hstart : (w.brokers.liveTokens name w.clock).length ≤ 1) :
    (∀ v ∈ History.states (tokenExec lib cfg) es w,
      (v.brokers.liveTokens name v.clock).length ≤ 1) ∧
    ∀ pre p mid post out v, es = pre ++ .pass p :: (mid ++ post) →
      (p.prog lib cfg).run troubled p.calls (History.final (tokenExec lib cfg) pre w) =
        (.done out, v) →
      out.conditions.isSome = true →
      (∃ token, Agrees lib name token v) ∧
      ((∀ e ∈ mid, Unedited p.auth e) → ∀ (obj : KafkaUser) (elapsed : Nat) (nowMs : Int),
        let u := History.final (tokenExec lib cfg) mid v
        let described := u.brokers.liveTokens name (u.clock + elapsed)
        described ≠ [] →
          decide lib.printPrincipal p.auth (matchingToken obj described) nowMs ≠ .create ∧
          decide lib.printPrincipal p.auth (matchingToken obj described) nowMs ≠ .cycle) := by
  have hone : OneToken name w := (oneToken_iff hsecrets).mpr hstart
  have hexec := oneToken_exec cfg hprint hparse
  constructor
  · intro v hv
    have hv' : OneToken name v := History.invariant hone hes hexec v hv
    exact (oneToken_iff hv'.secrets).mp hv'
  · intro pre p mid post out v heq hrun hsome
    subst heq
    have hpre : OneToken name (History.final (tokenExec lib cfg) pre w) :=
      History.invariant hone (fun e he => hes e (List.mem_append_left _ he)) hexec _
        History.final_mem_states
    have hname : p.obj.name = name :=
      hes (.pass p) (List.mem_append_right _ List.mem_cons_self)
    have hsat : (p.prog lib cfg).Sat troubled (KeepsOne name) (Saves lib name p.auth) _ :=
      sat_reconcileToken hprint hparse hname p.nowMs hpre
    obtain ⟨_, hsaves⟩ := hsat.run_done hrun
    obtain ⟨token, hheld, hagrees⟩ := hsaves out rfl hsome
    refine ⟨⟨token, hagrees⟩, fun hmid obj elapsed nowMs => ?_⟩
    have hover : ∀ e ∈ mid, IsOver name e := fun e he =>
      hes e (List.mem_append_right _ (List.mem_cons_of_mem _ (List.mem_append_left _ he)))
    exact (settled_final hprint hover hmid hheld.settled).decide obj elapsed nowMs

/-! ## A lost reply -/

theorem Sample.printsBack : PrintsBack Sample.lib := by
  intro s principal h
  have hparts : s.toList.takeWhile (· ≠ ':') ++ s.toList.dropWhile (· ≠ ':') = s.toList :=
    List.takeWhile_append_dropWhile
  simp only [Sample.lib, Sample.parsePrincipal, List.span_eq_takeWhile_dropWhile] at h
  cases hrest : s.toList.dropWhile (· ≠ ':') with
  | nil =>
    rw [hrest] at h
    cases h
  | cons c rest =>
    have hcolon : c = ':' := by
      have hhead := List.head?_dropWhile_not (fun x : Char => Decidable.decide (x ≠ ':')) s.toList
      rw [hrest] at hhead
      simpa using hhead
    rw [hrest] at h hparts
    cases h
    apply String.toList_injective
    refine Eq.trans ?_ hparts
    simp [Sample.printPrincipal, Sample.lib, hcolon]

/-- A user without a token. -/
def tokenUser : KafkaUser where
  name := "alice"
  uid := some "uid"
  labels := BTreeMap.ofList [("krabka.io/cluster", "demo")]
  deleting := false
  authentication := .delegationToken { renewers := ["User:bob"] }

def tokenWorld : World BrokerState where
  user := tokenUser
  kafkas := [.ready "demo"]
  store := .empty
  brokers := {}
  clock := 0

/-- The reply to the creation is lost, and the next pass finds the token. -/
def lostCreate : TokenPass where
  obj := tokenUser
  auth := { renewers := ["User:bob"] }
  nowMs := 0
  calls := [{}, {}, {
    fault := .lost, tokenId := "1", hmac := .text ['h']
    expiryTimestampMs := 604800000, maxTimestampMs := 604800000 }, {}]

def nextPass : TokenPass := { lostCreate with calls := [{ elapsed := 60000 }, {}, {}, {}] }

theorem lost_create_recovers :
    let last := History.final (tokenExec Sample.lib {}) [.pass lostCreate, .pass nextPass] tokenWorld
    (last.brokers.liveTokens "alice" last.clock).length ≤ 1 ∧
      ∃ token, Agrees Sample.lib "alice" token last := by
  intro last
  obtain ⟨out, hout, hsome⟩ := Prog.Outcome.exists_of_isDone
    (fun out : ReconcileOutcome => out.conditions.isSome)
    (show ((nextPass.prog Sample.lib {}).run troubled nextPass.calls (History.final
      (tokenExec Sample.lib {}) [.pass lostCreate] tokenWorld)).1.isDone
        (fun out => out.conditions.isSome) = true by decide)
  obtain ⟨hstates, hpasses⟩ := @one_token Sample.lib {} "alice" tokenWorld Sample.printsBack
    (by decide) [.pass lostCreate, .pass nextPass] (by simp [IsOver, lostCreate, nextPass, tokenUser])
    (by decide) (by decide)
  refine ⟨hstates last History.final_mem_states, ?_⟩
  exact (hpasses [.pass lostCreate] nextPass [] [] out last rfl
    (Prod.ext hout (finish_pass nextPass _).symm) hsome).1

end Access
