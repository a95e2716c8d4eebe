-- SUMMARY: A pass that replaces a token: the old token is expired first, and survives only when its expiry is not carried out.
import KrabkaOperator.Access.OneToken

/-!
# Replacing a token

The renewers of a token cannot be changed, so a pass for other renewers expires the token and then
creates a new one. The renewers are parsed only when the new token is requested.
-/

namespace Access

open Kube Crd Operator Admin

variable {lib : Lib} {cfg : Config} {obj : KafkaUser} {auth : DelegationTokenAuth} {name : String}
  {w v : World BrokerState} {token : DelegationToken}

/-- The pass reads the tokens of the owner and decides to replace this one. -/
structure Cycles (lib : Lib) (p : TokenPass) (w : World BrokerState) (token : DelegationToken) :
    Prop where
  described : ∃ owner c rest, lib.parsePrincipal ("User:" ++ p.obj.name) = .ok owner ∧
    p.calls = c :: rest ∧ c.fault = .none ∧
    matchingToken p.obj (w.brokers.described owner (w.clock + c.elapsed)) = some token
  decision : decide lib.printPrincipal p.auth (some token) p.nowMs = .cycle

def IsCreate (r : Req) : Prop :=
  ∃ owner renewers maxLifetime, r = .admin (.createDelegationToken owner renewers maxLifetime)

/-- No request for a new token is carried out. -/
def CreatesNone (lib : Lib) (cfg : Config) (p : TokenPass) (w : World BrokerState) : Prop :=
  ∀ st ∈ (p.prog lib cfg).trace troubled p.calls w, IsCreate st.req →
    st.after.brokers = st.before.brokers

/-- Of the calls after the read: the pending status is accepted, and then the brokers carry out the
expiry. -/
def expires : List Call → Bool
  | pending :: expire :: _ => pending.fault = .none && expire.fault ≠ .refused
  | _ => false

/-- The brokers still have the old token after the pass. -/
def KeepsOld (lib : Lib) (cfg : Config) (p : TokenPass) (w : World BrokerState)
    (token : DelegationToken) : Prop :=
  token ∈ ((p.prog lib cfg).run troubled p.calls w).2.brokers.tokens

/-! ## Requests after the expiry -/

/-- The requests of the end of a pass. -/
def EndRequest (r : Req) : Prop := Quiet r ∨ IsCreate r

theorem issueStep_end (pending : List Condition) :
    (issueStep lib cfg name auth pending).Makes EndRequest := by
  have hissue : (issueNewToken lib name auth).Makes EndRequest := by
    unfold issueNewToken
    cases auth.renewers.mapM lib.parsePrincipal with
    | error message => trivial
    | ok renewers => exact ⟨.inr ⟨_, _, _, rfl⟩, fun _ => trivial⟩
  apply hissue.bind
  intro issued
  cases issued with
  | ok token => trivial
  | error e => exact (stop_makes _ _ _ _).mono fun _ => .inl

/-- What a pass does with the token that it has driven. -/
def finishToken (lib : Lib) (cfg : Config) (obj : KafkaUser) (auth : DelegationTokenAuth)
    (nowMs : Int) : TokenStep → Op ReconcileOutcome
  | .done out => pure out
  | .live token pending => persistToken lib cfg obj auth nowMs token pending

theorem finishToken_makes (nowMs : Int) (step : TokenStep) :
    (finishToken lib cfg obj auth nowMs step).Makes EndRequest := by
  cases step with
  | done out => trivial
  | live token pending => exact (persistToken_makes _ _ _).mono fun _ => .inl

/-- The brokers stay as they are while no request for a new token is carried out. -/
theorem brokers_of_end {α : Type} {p : Op α} (hp : p.Makes EndRequest) {cs : List Call}
    (hnone : ∀ st ∈ p.trace troubled cs w, IsCreate st.req → st.after.brokers = st.before.brokers) :
    (p.run troubled cs w).2.brokers = w.brokers := by
  have hsteps := Prog.Sat.trace (@Prog.Makes.sat _ _ _ _ _ _ troubled _ p hp w) cs
  refine @Prog.run_invariant_of_trace _ _ _ _ _ _ troubled (fun v => v.brokers = w.brokers) p cs w
    (fun st hst hbefore => ?_) rfl
  obtain ⟨hreq, c, hafter⟩ := hsteps st hst
  rcases hreq with hquiet | hcreate
  · rw [hafter, (later_troubled hquiet).brokers, hbefore]
  · rw [hnone st hst hcreate, hbefore]

/-! ## The pass -/

/-- After the read, the decision is driven and its token is finished. -/
theorem reconcileToken_reads {owner : KafkaPrincipal} (nowMs : Int)
    (hparse : lib.parsePrincipal ("User:" ++ obj.name) = .ok owner) :
    ∃ k, reconcileToken lib cfg obj auth nowMs = .call (.admin (.describeDelegationToken owner)) k ∧
      ∀ existing, k (.ok existing) = drive lib cfg obj auth nowMs (matchingToken obj existing) >>=
        finishToken lib cfg obj auth nowMs := by
  unfold reconcileToken describeDelegationTokensOwnedBy
  rw [hparse]
  refine ⟨_, rfl, fun existing => ?_⟩
  dsimp only [Prog.bind]
  apply Prog.bind_congr
  intro step
  cases step with
  | live token pending => rfl
  | done out => rfl

/-- The pending status is published, then the token is expired, and the rest expires nothing. -/
theorem driveExisting_cycle (nowMs : Int) (token : DelegationToken) :
    ∃ patch k, driveExisting lib cfg obj auth nowMs token .cycle >>=
        finishToken lib cfg obj auth nowMs =
      (sendPatch patch >>= fun _ => .call (.admin (.expireDelegationToken token.hmac)) k) ∧
      ∀ x, (k x).Makes EndRequest := by
  unfold driveExisting publishTokenPending
  simp only [Prog.bind_assoc]
  refine ⟨_, _, rfl, fun x => ?_⟩
  cases x with
  | ok u => exact (issueStep_end _).bind (finishToken_makes nowMs)
  | error e =>
    have hreport : (onAdminError cfg e "ExpireDelegationToken"
        (some (conditionsWithHistory obj token auth nowMs)) true >>= fun out =>
          pure (TokenStep.done out)).Makes EndRequest :=
      (stop_makes _ _ _ _).mono fun _ => Or.inl
    exact hreport.bind (finishToken_makes nowMs)

section Calls

variable {hmac : ByteString} {k : Resp (.admin (.expireDelegationToken hmac)) → Op ReconcileOutcome}

theorem brokers_expire (hk : ∀ x, (k x).Makes EndRequest) {cs : List Call}
    (hnone : ∀ st ∈ (Prog.call (.admin (.expireDelegationToken hmac)) k).trace troubled cs w,
      IsCreate st.req → st.after.brokers = st.before.brokers) :
    ((Prog.call (.admin (.expireDelegationToken hmac)) k).run troubled cs w).2.brokers =
      if cs.head?.any (·.fault ≠ .refused) then w.brokers.expired hmac else w.brokers := by
  cases cs with
  | nil => rfl
  | cons expire cs =>
    refine (brokers_of_end (hk _) fun st hst => hnone st (List.mem_cons_of_mem _ hst)).trans ?_
    rw [troubled_admin, tokenAnswer, attempted]
    cases hfault : expire.fault with
    | none => simp [hfault]
    | refused => simp [hfault]
    | lost => simp [hfault]

theorem troubled_patch (patch : StatusPatch) (c : Call) (w : World BrokerState) :
    (troubled (.patchStatus patch) c w).1 = .ok () ∧ c.fault = .none ∨
      (∃ e, (troubled (.patchStatus patch) c w).1 = .error e) ∧ c.fault ≠ .none := by
  unfold troubled troubledNow answerWrite
  cases c.fault with
  | none => exact .inl ⟨rfl, rfl⟩
  | refused => exact .inr ⟨⟨_, rfl⟩, nofun⟩
  | lost => exact .inr ⟨⟨_, rfl⟩, nofun⟩

/-- The brokers after the calls that follow the read. -/
theorem brokers_cycle (patch : StatusPatch) (hk : ∀ x, (k x).Makes EndRequest) {cs : List Call}
    (hnone : ∀ st ∈ (sendPatch patch >>= fun _ =>
        Prog.call (.admin (.expireDelegationToken hmac)) k).trace troubled cs w,
      IsCreate st.req → st.after.brokers = st.before.brokers) :
    ((sendPatch patch >>= fun _ => Prog.call (.admin (.expireDelegationToken hmac)) k).run troubled cs
      w).2.brokers = if expires cs then w.brokers.expired hmac else w.brokers := by
  cases cs with
  | nil => rfl
  | cons pending cs =>
    have hsame := (later_troubled (w := w) (c := pending) (r := .patchStatus patch) trivial).brokers
    have hrest := fun st hst => hnone st (List.mem_cons_of_mem _ hst)
    rw [← hsame]
    change ((kube (troubled (.patchStatus patch) pending w).1 >>= fun _ => _).run troubled cs
      (troubled (.patchStatus patch) pending w).2).2.brokers = _
    rcases troubled_patch patch pending w with ⟨hok, hfault⟩ | ⟨⟨e, herror⟩, hfault⟩
    · rw [hok] at hrest ⊢
      refine (brokers_expire hk hrest).trans ?_
      cases cs with
      | nil => rfl
      | cons expire cs => simp [expires, hfault]
    · rw [herror]
      cases cs with
      | nil => rfl
      | cons expire cs => simp [expires, hfault, kube, Prog.run]

end Calls

theorem described_of_matching {owner : KafkaPrincipal} {nowMs : Int}
    (h : matchingToken obj (w.brokers.described owner nowMs) = some token) :
    token ∈ w.brokers.tokens :=
  (List.mem_filter.mp (mem_of_matchingToken h)).1

/-- The brokers after a pass that replaces a token and creates none. -/
theorem brokers_of_cycles {p : TokenPass} (hcycles : Cycles lib p w token)
    (hnone : CreatesNone lib cfg p w) :
    ((p.prog lib cfg).run troubled p.calls w).2.brokers =
      if expires p.calls.tail then w.brokers.expired token.hmac else w.brokers := by
  obtain ⟨⟨owner, c, rest, hparse, hcalls, hfault, hmatch⟩, hdecision⟩ := hcycles
  obtain ⟨k, hpass, hread⟩ := @reconcileToken_reads lib cfg p.obj p.auth owner p.nowMs hparse
  obtain ⟨patch, k', hcycle, hk⟩ := @driveExisting_cycle lib cfg p.obj p.auth p.nowMs token
  have hanswer : troubled (.admin (.describeDelegationToken owner)) c w =
      (.ok (w.brokers.described owner (w.clock + c.elapsed)), w.later c.elapsed) := by
    rw [troubled_admin, tokenAnswer, attempted, hfault]
    rfl
  have hdrive : k (.ok (w.brokers.described owner (w.clock + c.elapsed))) = (sendPatch patch >>=
      fun _ => .call (.admin (.expireDelegationToken token.hmac)) k') := by
    rw [hread, hmatch, ← hcycle, ← hdecision]
    rfl
  have htrace : ∀ st ∈ (sendPatch patch >>= fun _ => Prog.call
      (.admin (.expireDelegationToken token.hmac)) k').trace troubled rest (w.later c.elapsed),
      IsCreate st.req → st.after.brokers = st.before.brokers := by
    intro st hst
    refine hnone st ?_
    rw [TokenPass.prog, hpass, hcalls, Prog.trace, hanswer, hdrive]
    exact List.mem_cons_of_mem _ hst
  rw [TokenPass.prog, hpass, hcalls, Prog.run, hanswer, hdrive]
  exact brokers_cycle patch hk htrace

/-- In a pass that replaces a token and creates none, the old token survives exactly when its
expiry is not carried out. -/
theorem cycle_keeps_old_iff {p : TokenPass} (hcycles : Cycles lib p w token)
    (hnone : CreatesNone lib cfg p w) :
    KeepsOld lib cfg p w token ↔ expires p.calls.tail = false := by
  obtain ⟨owner, c, rest, -, -, -, hmatch⟩ := hcycles.described
  have hmem := described_of_matching hmatch
  unfold KeepsOld
  rw [brokers_of_cycles hcycles hnone]
  cases expires p.calls.tail with
  | false => simp [hmem]
  | true => simp [BrokerState.expired]

/-! ## Renewers that are no principals -/

/-- Nothing is requested for renewers that do not parse. -/
theorem createsNone_of_error {p : TokenPass} {message : String}
    (h : p.auth.renewers.mapM lib.parsePrincipal = .error message) : CreatesNone lib cfg p w := by
  intro st hst hcreate
  have hmakes : (p.prog lib cfg).Makes (TokenRequest lib p.obj.name p.auth) :=
    reconcileToken_makes p.nowMs
  obtain ⟨hreq, -⟩ := Prog.Sat.trace (@Prog.Makes.sat _ _ _ _ _ _ troubled _ _ hmakes w) p.calls st hst
  obtain ⟨owner, renewers, maxLifetime, hcreate⟩ := hcreate
  rw [hcreate] at hreq
  cases hreq with
  | quiet hquiet => exact hquiet.elim
  | create hparsed => cases h.symm.trans hparsed

/-- A live token with one renewer. -/
def cycledToken : DelegationToken where
  tokenId := "1"
  owner := ⟨"User", "alice"⟩
  hmac := .text ['h']
  expiryTimestampMs := 604800000
  maxTimestampMs := 604800000
  renewers := [⟨"User", "bob"⟩]

def cycledWorld : World BrokerState := { tokenWorld with brokers := { tokens := [cycledToken] } }

/-- A pass for a renewer that is not the text of a principal. -/
def unparsed : TokenPass where
  obj := tokenUser
  auth := { renewers := ["bob"] }
  nowMs := 0
  calls := [{}, {}, {}, {}]

theorem cycles_unparsed : Cycles Sample.lib unparsed cycledWorld cycledToken :=
  ⟨⟨⟨"User", "alice"⟩, {}, [{}, {}, {}], by decide, rfl, rfl, by decide⟩, by decide⟩

theorem createsNone_unparsed : CreatesNone Sample.lib {} unparsed cycledWorld :=
  @createsNone_of_error _ _ _ _ "invalid principal: bob" rfl

theorem cycle_keeps_old_unparsed : KeepsOld Sample.lib {} unparsed cycledWorld cycledToken ↔
    expires unparsed.calls.tail = false :=
  cycle_keeps_old_iff cycles_unparsed createsNone_unparsed

/-- The spec is accepted, no token is created, and the live token is gone after the pass. -/
theorem cycle_loses_old :
    validateSpec Sample.lib.human (.delegationToken unparsed.auth) none = .ok () ∧
      cycledToken.Live "alice" cycledWorld.clock ∧
      Cycles Sample.lib unparsed cycledWorld cycledToken ∧
      CreatesNone Sample.lib {} unparsed cycledWorld ∧
      ¬ KeepsOld Sample.lib {} unparsed cycledWorld cycledToken := by
  refine ⟨by decide, by decide, cycles_unparsed, createsNone_unparsed, fun hkeeps => ?_⟩
  rw [KeepsOld, brokers_of_cycles cycles_unparsed createsNone_unparsed] at hkeeps
  exact absurd hkeeps (by decide)

end Access
