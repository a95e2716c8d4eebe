-- SUMMARY: Brokers and an API server that may refuse any call of a token pass or lose its answer, with what each call does to the live tokens of an owner.
import KrabkaOperator.Access.TokenRequests
import KrabkaOperator.Access.Broker
import Mathlib.Data.List.Nodup

/-!
# Token calls that fail

Before each call time passes. The call is carried out or not, and its answer arrives or not.
The brokers describe the tokens of an owner that have not expired, and they choose the
secret and the expiry of a token freely.
-/

namespace Access

open Kube Crd Operator Admin

/-! ## The environment -/

/-- What the environment chooses at one call. -/
structure Call extends Operator.Choice where
  /-- The time that passes before the call. -/
  elapsed : Nat := 0
  /-- The error of a call that fails. -/
  error : AdminError := .other true "unreachable"
  tokenId : String := ""
  hmac : ByteString := .text []
  expiryTimestampMs : Int := 0
  maxTimestampMs : Int := 0

/-- The owner has this token, and it has not expired. -/
def DelegationToken.Live (name : String) (nowMs : Int) (t : DelegationToken) : Prop :=
  t.owner = ⟨"User", name⟩ ∧ nowMs ≤ t.expiryTimestampMs

instance {name : String} {nowMs : Int} {t : DelegationToken} : Decidable (t.Live name nowMs) :=
  inferInstanceAs (Decidable (_ ∧ _))

namespace BrokerState

variable (b : BrokerState)

/-- The tokens that the brokers describe for an owner. -/
def described (owner : KafkaPrincipal) (nowMs : Int) : List DelegationToken :=
  b.tokens.filter fun t => t.owner = owner ∧ nowMs ≤ t.expiryTimestampMs

def liveTokens (name : String) (nowMs : Int) : List DelegationToken := b.described ⟨"User", name⟩ nowMs

/-- A new token. -/
def minted (c : Call) (owner : KafkaPrincipal) (renewers : List KafkaPrincipal) : DelegationToken where
  tokenId := c.tokenId
  owner
  hmac := c.hmac
  expiryTimestampMs := c.expiryTimestampMs
  maxTimestampMs := c.maxTimestampMs
  renewers

/-- The live token of the secret gets the expiry that the brokers choose. -/
def renewedTo (hmac : ByteString) (nowMs expiryTimestampMs : Int) : BrokerState :=
  { b with tokens := b.tokens.map fun t =>
      if t.hmac = hmac ∧ nowMs ≤ t.expiryTimestampMs then { t with expiryTimestampMs } else t }

def expired (hmac : ByteString) : BrokerState :=
  { b with tokens := b.tokens.filter (·.hmac ≠ hmac) }

end BrokerState

/-- A call that is carried out, refused, or carried out without an answer. -/
def attempted {α : Type} (c : Call) (x : α) (b b' : BrokerState) : Except AdminError α × BrokerState :=
  match c.fault with
  | .none => (.ok x, b')
  | .refused => (.error c.error, b)
  | .lost => (.error c.error, b')

/-- The calls about tokens. A new token has a secret of its own, and a token that has expired
    cannot be renewed. Other calls are not made. -/
def tokenAnswer (c : Call) (nowMs : Int) : (r : AdminReq) → BrokerState → AdminResp r × BrokerState
  | .describeDelegationToken owner, b => attempted c (b.described owner nowMs) b b
  | .createDelegationToken owner renewers _, b =>
    if c.hmac ∈ b.tokens.map (·.hmac) then (.error c.error, b)
    else attempted c (BrokerState.minted c owner renewers) b
      { b with tokens := b.tokens ++ [BrokerState.minted c owner renewers] }
  | .renewDelegationToken hmac, b =>
    if ∃ t ∈ b.tokens, t.hmac = hmac ∧ nowMs ≤ t.expiryTimestampMs then
      attempted c c.expiryTimestampMs b (b.renewedTo hmac nowMs c.expiryTimestampMs)
    else (.error c.error, b)
  | .expireDelegationToken hmac, b => attempted c () b (b.expired hmac)
  | .connect _, b => (.error c.error, b)
  | .alterScram _ _ _, b => (.error c.error, b)
  | .describeAcls _, b => (.error c.error, b)
  | .createAcls _, b => (.error c.error, b)
  | .deleteAcls _, b => (.error c.error, b)
  | .describeUserQuotas _, b => (.error c.error, b)
  | .alterUserQuotas _ _, b => (.error c.error, b)

/-- The world after some time. -/
def World.later (w : World BrokerState) (ms : Nat) : World BrokerState :=
  { w with clock := w.clock + ms }

/-- One call in a world at the time of the call. -/
def troubledNow (c : Call) : (r : Req) → World BrokerState → Resp r × World BrokerState
  | .getKafka name, w => answerRead c.toChoice w (w.kafka? name)
  | .patchStatus patch, w => answerWrite c.toChoice w
      { w with user := { w.user with status := some (patch.apply w.user.status) } }
  | .setFinalizers finalizers, w => answerWrite c.toChoice w
      { w with user := { w.user with finalizers := finalizers } }
  | .store r, w => ((Operator.answer r c.toChoice w.store).1,
      { w with store := (Operator.answer r c.toChoice w.store).2 })
  | .admin r, w => ((tokenAnswer c w.clock r w.brokers).1,
      { w with brokers := (tokenAnswer c w.clock r w.brokers).2 })
  | .now, w => (w.clock, w)

def troubled (r : Req) (c : Call) (w : World BrokerState) : Resp r × World BrokerState :=
  troubledNow c r (w.later c.elapsed)

/-! ## Tokens of one owner -/

variable {name : String} {w v : World BrokerState} {token : DelegationToken}

/-- Every token has a secret of its own, and at most one token of the owner is live. -/
structure OneToken (name : String) (w : World BrokerState) : Prop where
  secrets : (w.brokers.tokens.map (·.hmac)).Nodup
  unique : ∀ t ∈ w.brokers.tokens, ∀ u ∈ w.brokers.tokens,
    t.Live name w.clock → u.Live name w.clock → t = u

/-- No token but this one is live. -/
def OnlyLive (name : String) (token : DelegationToken) (w : World BrokerState) : Prop :=
  ∀ t ∈ w.brokers.tokens, t.Live name w.clock → t = token

def NoneLive (name : String) (w : World BrokerState) : Prop :=
  ∀ t ∈ w.brokers.tokens, ¬ t.Live name w.clock

/-- Time has passed, and only the status and the stored objects have changed. -/
structure Later (w v : World BrokerState) : Prop where
  brokers : v.brokers = w.brokers
  clock : w.clock ≤ v.clock

theorem Later.refl (w : World BrokerState) : Later w w := ⟨rfl, le_rfl⟩

theorem later_later (w : World BrokerState) (ms : Nat) : Later w (w.later ms) :=
  ⟨rfl, Int.le_add_of_nonneg_right (Int.natCast_nonneg ms)⟩

theorem Later.trans {u : World BrokerState} (h : Later w v) (h' : Later v u) : Later w u :=
  ⟨h'.brokers.trans h.brokers, h.clock.trans h'.clock⟩

theorem DelegationToken.Live.earlier {t : DelegationToken} {now now' : Int} (h : t.Live name now')
    (hnow : now ≤ now') : t.Live name now := ⟨h.1, hnow.trans h.2⟩

theorem OneToken.later (h : OneToken name w) (hv : Later w v) : OneToken name v := by
  refine ⟨hv.brokers ▸ h.secrets, fun t ht u hu hlive hlive' => ?_⟩
  rw [hv.brokers] at ht hu
  exact h.unique t ht u hu (hlive.earlier hv.clock) (hlive'.earlier hv.clock)

theorem NoneLive.later (h : NoneLive name w) (hv : Later w v) : NoneLive name v := by
  intro t ht hlive
  rw [hv.brokers] at ht
  exact h t ht (hlive.earlier hv.clock)

theorem OnlyLive.later (h : OnlyLive name token w) (hv : Later w v) : OnlyLive name token v := by
  intro t ht hlive
  rw [hv.brokers] at ht
  exact h t ht (hlive.earlier hv.clock)

theorem mem_liveTokens {b : BrokerState} {nowMs : Int} {t : DelegationToken} :
    t ∈ b.liveTokens name nowMs ↔ t ∈ b.tokens ∧ t.Live name nowMs := by
  simp [BrokerState.liveTokens, BrokerState.described, DelegationToken.Live]

theorem OneToken.onlyLive (h : OneToken name w) (htoken : token ∈ w.brokers.liveTokens name w.clock) :
    OnlyLive name token w := by
  obtain ⟨hmem, hlive⟩ := mem_liveTokens.mp htoken
  exact fun t ht hlive' => h.unique t ht token hmem hlive' hlive

/-- A token is known by its secret. -/
theorem OneToken.eq_of_hmac (h : OneToken name w) {t u : DelegationToken} (ht : t ∈ w.brokers.tokens)
    (hu : u ∈ w.brokers.tokens) (heq : t.hmac = u.hmac) : t = u :=
  List.inj_on_of_nodup_map h.secrets ht hu heq

/-- In numbers: the owner has at most one live token. -/
theorem oneToken_iff (hsecrets : (w.brokers.tokens.map (·.hmac)).Nodup) :
    OneToken name w ↔ (w.brokers.liveTokens name w.clock).length ≤ 1 := by
  have hnodup : (w.brokers.liveTokens name w.clock).Nodup :=
    (List.Nodup.of_map _ hsecrets).filter _
  constructor
  · intro h
    cases hlist : w.brokers.liveTokens name w.clock with
    | nil => simp
    | cons t rest =>
      cases rest with
      | nil => simp
      | cons u rest =>
        obtain ⟨ht, htlive⟩ := mem_liveTokens.mp (hlist ▸ List.mem_cons_self)
        obtain ⟨hu, hulive⟩ := mem_liveTokens.mp (hlist ▸ List.mem_cons_of_mem _ List.mem_cons_self)
        rw [hlist, h.unique t ht u hu htlive hulive] at hnodup
        simp at hnodup
  · intro hlength
    refine ⟨hsecrets, fun t ht u hu htlive hulive => ?_⟩
    have ht' := mem_liveTokens.mpr ⟨ht, htlive⟩
    have hu' := mem_liveTokens.mpr ⟨hu, hulive⟩
    obtain ⟨x, hx⟩ := List.length_eq_one_iff.mp (le_antisymm hlength (List.length_pos_of_mem ht'))
    rw [hx, List.mem_singleton] at ht' hu'
    exact ht'.trans hu'.symm

/-! ## What the calls keep -/

variable {r : Req} {c : Call}

theorem later_troubled (hr : Quiet r) : Later w (troubled r c w).2 := by
  refine (later_later w c.elapsed).trans ?_
  cases r with
  | patchStatus patch =>
    rcases answerWrite_world c.toChoice (w.later c.elapsed) { w.later c.elapsed with
        user := { (w.later c.elapsed).user with
          status := some (patch.apply (w.later c.elapsed).user.status) } } with h | h
    · rw [troubled, troubledNow, h]
      exact .refl _
    · rw [troubled, troubledNow, h]
      exact ⟨rfl, le_rfl⟩
  | store r => exact ⟨rfl, le_rfl⟩
  | getKafka name => exact hr.elim
  | setFinalizers finalizers => exact hr.elim
  | admin r => exact hr.elim
  | now => exact hr.elim

theorem attempted_brokers {α : Type} (c : Call) (x : α) (b b' : BrokerState) :
    (attempted c x b b').2 = b ∨ (attempted c x b b').2 = b' := by
  unfold attempted
  split
  · exact .inr rfl
  · exact .inl rfl
  · exact .inr rfl

theorem attempted_of_ok {α : Type} {c : Call} {x y : α} {b b' : BrokerState}
    (h : (attempted c x b b').1 = .ok y) : y = x ∧ (attempted c x b b').2 = b' := by
  unfold attempted at h ⊢
  split at h
  · exact ⟨(Except.ok.inj h).symm, rfl⟩
  · cases h
  · cases h

/-- A renewal keeps the owner and the secret of every token, and revives none. -/
theorem live_of_renewedTo (name : String) {b : BrokerState} {hmac : ByteString} {nowMs expiry : Int}
    {t : DelegationToken} (ht : t ∈ (b.renewedTo hmac nowMs expiry).tokens) :
    ∃ u ∈ b.tokens, t = (if u.hmac = hmac ∧ nowMs ≤ u.expiryTimestampMs then
        { u with expiryTimestampMs := expiry } else u) ∧
      (t.Live name nowMs → u.Live name nowMs) := by
  obtain ⟨u, hu, rfl⟩ := List.mem_map.mp ht
  refine ⟨u, hu, rfl, ?_⟩
  split
  · next h => exact fun hlive => ⟨hlive.1, h.2⟩
  · exact id

theorem OneToken.renewedTo (h : OneToken name w) (hmac : ByteString) (expiry : Int) :
    OneToken name { w with brokers := w.brokers.renewedTo hmac w.clock expiry } := by
  constructor
  · have hsame : (w.brokers.renewedTo hmac w.clock expiry).tokens.map (·.hmac) =
        w.brokers.tokens.map (·.hmac) := by
      simp only [BrokerState.renewedTo, List.map_map]
      apply List.map_congr_left
      intro t _
      simp only [Function.comp_apply]
      split <;> rfl
    rw [hsame]
    exact h.secrets
  · intro t ht u hu htlive hulive
    obtain ⟨t', ht', rfl, htlive'⟩ := live_of_renewedTo name ht
    obtain ⟨u', hu', rfl, hulive'⟩ := live_of_renewedTo name hu
    rw [h.unique t' ht' u' hu' (htlive' htlive) (hulive' hulive)]

theorem OneToken.expired (h : OneToken name w) (hmac : ByteString) :
    OneToken name { w with brokers := w.brokers.expired hmac } :=
  ⟨h.secrets.sublist (List.filter_sublist.map _), fun t ht u hu =>
    h.unique t (List.mem_filter.mp ht).1 u (List.mem_filter.mp hu).1⟩

/-- No token is left live once the secret of the only live one has been expired. -/
theorem OnlyLive.expired (h : OnlyLive name token w) :
    NoneLive name { w with brokers := w.brokers.expired token.hmac } := by
  intro t ht hlive
  obtain ⟨hmem, hother⟩ := List.mem_filter.mp ht
  have heq := h t hmem hlive
  simp [heq] at hother

/-- A token that is created where none is live is the only one. -/
theorem NoneLive.created (h : NoneLive name w) (hone : OneToken name w) {t : DelegationToken}
    (hfresh : t.hmac ∉ w.brokers.tokens.map (·.hmac)) :
    OneToken name { w with brokers := { w.brokers with tokens := w.brokers.tokens ++ [t] } } ∧
      OnlyLive name t { w with brokers := { w.brokers with tokens := w.brokers.tokens ++ [t] } } := by
  have honly : OnlyLive name t
      { w with brokers := { w.brokers with tokens := w.brokers.tokens ++ [t] } } := by
    intro u hu hlive
    rcases List.mem_append.mp hu with hold | hnew
    · exact absurd hlive (h u hold)
    · exact List.mem_singleton.mp hnew
  refine ⟨⟨?_, fun u hu v hv hulive hvlive => (honly u hu hulive).trans (honly v hv hvlive).symm⟩,
    honly⟩
  rw [List.map_append, List.nodup_append]
  refine ⟨hone.secrets, by simp, ?_⟩
  intro a ha b hb hab
  rw [List.map_singleton, List.mem_singleton] at hb
  exact hfresh (hb ▸ hab ▸ ha)

/-! ## The calls about tokens -/

theorem troubled_admin (r : AdminReq) (c : Call) (w : World BrokerState) :
    troubled (.admin r) c w =
      ((tokenAnswer c (w.later c.elapsed).clock r w.brokers).1, { w.later c.elapsed with
        brokers := (tokenAnswer c (w.later c.elapsed).clock r w.brokers).2 }) := rfl

/-- A describe changes nothing and lists the live tokens. -/
theorem troubled_describe (name : String) (c : Call) (w : World BrokerState) :
    Later w (troubled (.admin (.describeDelegationToken ⟨"User", name⟩)) c w).2 ∧
      ∀ tokens, (troubled (.admin (.describeDelegationToken ⟨"User", name⟩)) c w).1 = .ok tokens →
        tokens = (troubled (.admin (.describeDelegationToken ⟨"User", name⟩)) c w).2.brokers.liveTokens
          name (troubled (.admin (.describeDelegationToken ⟨"User", name⟩)) c w).2.clock := by
  have hsame : (tokenAnswer c (w.later c.elapsed).clock (.describeDelegationToken ⟨"User", name⟩)
      w.brokers).2 = w.brokers := (attempted_brokers _ _ _ _).elim id id
  rw [troubled_admin, hsame]
  exact ⟨later_later w c.elapsed, fun tokens h => (attempted_of_ok h).1⟩

theorem troubled_create (hone : OneToken name w) (hnone : NoneLive name w)
    (renewers : List KafkaPrincipal) (maxLifetime : Option Time) (c : Call) :
    OneToken name
        (troubled (.admin (.createDelegationToken ⟨"User", name⟩ renewers maxLifetime)) c w).2 ∧
      ∀ token, (troubled (.admin (.createDelegationToken ⟨"User", name⟩ renewers maxLifetime)) c w).1 =
          .ok token →
        token.renewers = renewers ∧
        token ∈ (troubled (.admin (.createDelegationToken ⟨"User", name⟩ renewers maxLifetime)) c
          w).2.brokers.tokens ∧
        OnlyLive name token
          (troubled (.admin (.createDelegationToken ⟨"User", name⟩ renewers maxLifetime)) c w).2 := by
  have hlater := later_later w c.elapsed
  rw [troubled_admin]
  unfold tokenAnswer
  dsimp only
  split
  · refine ⟨hone.later hlater, fun token h => ?_⟩
    cases h
  · next hfresh =>
    obtain ⟨hnext, honly⟩ := (hnone.later hlater).created (hone.later hlater)
      (show (BrokerState.minted c ⟨"User", name⟩ renewers).hmac ∉ _ from hfresh)
    constructor
    · rcases attempted_brokers c (BrokerState.minted c ⟨"User", name⟩ renewers) w.brokers
        { w.brokers with
          tokens := w.brokers.tokens ++ [BrokerState.minted c ⟨"User", name⟩ renewers] } with h | h
      · rw [h]
        exact hone.later hlater
      · rw [h]
        exact hnext
    · intro token h
      obtain ⟨rfl, hbrokers⟩ := attempted_of_ok h
      rw [hbrokers]
      exact ⟨rfl, List.mem_append_right _ (List.mem_singleton.mpr rfl), honly⟩

theorem troubled_expire (hone : OneToken name w) (honly : OnlyLive name token w) (c : Call) :
    OneToken name (troubled (.admin (.expireDelegationToken token.hmac)) c w).2 ∧
      ((troubled (.admin (.expireDelegationToken token.hmac)) c w).1 = .ok () →
        NoneLive name (troubled (.admin (.expireDelegationToken token.hmac)) c w).2) := by
  have hlater := later_later w c.elapsed
  rw [troubled_admin]
  constructor
  · rcases attempted_brokers c () w.brokers (w.brokers.expired token.hmac) with h | h
    · rw [tokenAnswer, h]
      exact hone.later hlater
    · rw [tokenAnswer, h]
      exact (hone.later hlater).expired token.hmac
  · intro h
    rw [tokenAnswer, (attempted_of_ok h).2]
    exact (honly.later hlater).expired

theorem troubled_renew (hone : OneToken name w) (hmem : token ∈ w.brokers.tokens)
    (honly : OnlyLive name token w) (c : Call) :
    OneToken name (troubled (.admin (.renewDelegationToken token.hmac)) c w).2 ∧
      ∀ expiryTimestampMs,
        (troubled (.admin (.renewDelegationToken token.hmac)) c w).1 = .ok expiryTimestampMs →
        { token with expiryTimestampMs } ∈
          (troubled (.admin (.renewDelegationToken token.hmac)) c w).2.brokers.tokens ∧
        OnlyLive name { token with expiryTimestampMs }
          (troubled (.admin (.renewDelegationToken token.hmac)) c w).2 := by
  have hlater := later_later w c.elapsed
  have hone' := hone.later hlater
  rw [troubled_admin]
  unfold tokenAnswer
  dsimp only
  split
  · next hlive =>
    constructor
    · rcases attempted_brokers c c.expiryTimestampMs w.brokers
        (w.brokers.renewedTo token.hmac (w.later c.elapsed).clock c.expiryTimestampMs) with h | h
      · rw [h]
        exact hone'
      · rw [h]
        exact hone'.renewedTo token.hmac c.expiryTimestampMs
    · intro expiry h
      obtain ⟨rfl, hbrokers⟩ := attempted_of_ok h
      rw [hbrokers]
      -- the live token of the secret is this one
      obtain ⟨t, ht, hsecret, hexpiry⟩ := hlive
      have heq := hone.eq_of_hmac ht hmem hsecret
      subst heq
      constructor
      · exact List.mem_map.mpr ⟨t, hmem, if_pos ⟨rfl, hexpiry⟩⟩
      · intro u hu hulive
        obtain ⟨u', hu', rfl, hulive'⟩ := live_of_renewedTo name hu
        rw [(honly.later hlater) u' hu' (hulive' hulive), if_pos ⟨rfl, hexpiry⟩]
  · refine ⟨hone', fun expiry h => ?_⟩
    cases h

end Access
