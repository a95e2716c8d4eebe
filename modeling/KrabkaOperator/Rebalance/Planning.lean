-- SUMMARY: A rebalance is planned as soon as the rebalancer can: it stays new over all failures that pass, and the first other response decides.
import KrabkaOperator.Rebalance.Wire

/-!
# Planning through failures

The rebalancer refuses to plan while a partition lacks replicas, and a proxy answers for it
while it restarts. A rebalance that waits for its plan keeps asking, so that a drain made by
the operator ends in a plan when the failures end.
-/

namespace Rebalance

open Operator (KubeError)
open ProtoJson (Value)

/-! ## Failures that pass -/

/-- The code in the body of an error. -/
def codeOf? (parse : String → Except String Value) (text : String) : Option String :=
  (parse text).toOption >>= Value.get? "code" >>= Value.asStr?

/-- The rebalancer is not there, cannot plan now, or a proxy answers for it. -/
def Reply.Passes (parse : String → Except String Value) : Reply → Prop
  | .failed _ => True
  | .response status text =>
    isSuccess status = false ∧
      ((∃ code ∈ retryableRpcCodes, codeOf? parse text = some code) ∨
        codeOf? parse text = none ∧ status ∈ [502, 503, 504])

section Passes

variable {parse : String → Except String Value}

theorem httpCode_injective {m n : Nat} (h : "http_" ++ toString m = "http_" ++ toString n) :
    m = n := by
  have htext : toString m = toString n := by
    apply String.ext
    have := congrArg String.toList h
    rwa [String.toList_append, String.toList_append, List.append_right_inj] at this
  exact Int.ofNat.inj (Decimal.toString_injective (i := m) (j := n) htext)

theorem retryableRpcCodes_eq : retryableRpcCodes =
    ["failed_precondition", "unavailable", "aborted", "resource_exhausted", "deadline_exceeded"] ++
      [502, 503, 504].map fun status : Nat => "http_" ++ toString status := rfl

/-- The codes for a body without one are those of a proxy. -/
theorem httpCode_mem {status : Nat} :
    "http_" ++ toString status ∈ retryableRpcCodes ↔ status ∈ [502, 503, 504] := by
  rw [retryableRpcCodes_eq, List.mem_append, List.mem_map]
  constructor
  · rintro (h | ⟨n, hn, hcode⟩)
    · have hnamed : ∀ code ∈ ["failed_precondition", "unavailable", "aborted",
          "resource_exhausted", "deadline_exceeded"], code.toList.take 5 ≠ "http_".toList := by
        decide
      refine absurd ?_ (hnamed _ h)
      rw [String.toList_append]
      exact List.take_left' rfl
    · rwa [← httpCode_injective hcode]
  · exact fun h => .inr ⟨status, h, rfl⟩

theorem isRetryable_connectError {status : Nat} {text : String} :
    isRetryable (connectError parse text status) = true ↔
      (∃ code ∈ retryableRpcCodes, codeOf? parse text = some code) ∨
        codeOf? parse text = none ∧ status ∈ [502, 503, 504] := by
  change retryableRpcCodes.contains ((codeOf? parse text).getD _) = true ↔ _
  rw [List.contains_iff_mem]
  cases codeOf? parse text with
  | none => simpa using httpCode_mem
  | some code => simp

/-- The outcome of the response to `CreateProposal`. -/
def Reply.outcome? (parse : String → Except String Value) (reply : Reply) : Option Outcome :=
  Outcome.ofAnswer .createProposal (reply.answer parse)

/-- A failure that passes leaves the rebalance new, and nothing on file changes. -/
theorem outcome_of_passes {reply : Reply} (h : reply.Passes parse) :
    reply.outcome? parse = none ∨
      ∃ message, reply.outcome? parse = some (.transient .new "RetryingProposal" message) := by
  cases reply with
  | failed message => exact .inl rfl
  | response status text =>
    obtain ⟨hstatus, hcode⟩ := h
    refine .inr ⟨"CreateProposal will retry: " ++ (connectError parse text status).text, ?_⟩
    rw [Reply.outcome?, answer_of_error parse hstatus]
    exact congrArg some (if_pos ⟨rfl, isRetryable_connectError.mpr hcode⟩)

theorem fromCreate_state (p : RebalancerProposal) : (Outcome.fromCreate p).state ≠ .new := by
  unfold Outcome.fromCreate
  split
  · nofun
  · nofun
  · nofun

/-- Any other response decides. -/
theorem outcome_of_not_passes {reply : Reply} (h : ¬reply.Passes parse) :
    ∃ outcome, reply.outcome? parse = some outcome ∧ outcome.state ≠ .new := by
  cases reply with
  | failed message => exact absurd trivial h
  | response status text =>
    cases hstatus : isSuccess status with
    | true =>
      rw [Reply.outcome?, answer_of_success parse hstatus]
      cases parse text with
      | error message => exact ⟨_, rfl, nofun⟩
      | ok body => exact ⟨_, rfl, fromCreate_state _⟩
    | false =>
      rw [Reply.outcome?, answer_of_error parse hstatus]
      have hcode : isRetryable (connectError parse text status) ≠ true :=
        fun hretry => h ⟨hstatus, isRetryable_connectError.mp hretry⟩
      refine ⟨Outcome.fromRpcError _ _, rfl, ?_⟩
      rw [Outcome.fromRpcError, if_neg fun h => hcode h.2]
      nofun

end Passes

/-! ## Passes -/

/-- What one pass meets: the Secret it reads, the response, and the time. -/
structure Round where
  secret : Except KubeError (Option (Kube.BTreeMap Kube.ByteString))
  reply : Reply
  now : String

/-- A pass on the object as it is stored, none of whose calls of Kubernetes fails. -/
def Round.pass (parse : String → Except String Value) (round : Round) : List Event :=
  [.start 0, .secret round.secret, .rpc true (round.reply.answer parse), .removed .none,
    .written .none round.now]

/-- The token of a call, or why there is none. -/
def Round.Authorized (cfg : Config) (round : Round) (obj : KafkaRebalance)
    (token : Option String) : Prop :=
  if needsCredential obj .createProposal then
    ∃ ref data t, credentialReference obj = some ref ∧ round.secret = .ok data ∧
      evacuationCredential cfg.fmt ref data = .ok t ∧ token = some t
  else token = none

/-- The rebalance waits for its plan. -/
structure Awaits (cfg : Config) (s : State) : Prop where
  task : s.task = .idle
  state : currentState s.obj = .new
  command : readCommand s.obj = none
  resolves : Resolves cfg.fmt cfg.ns s.obj

/-- The call for a plan of a spec. -/
def planRpc (obj : KafkaRebalance) (token : Option String) : Rpc :=
  .createProposal obj.spec.mode obj.spec.brokers (obj.spec.goals.getD []) token

section Passes

variable {cfg : Config} {parse : String → Except String Value} {s : State} {round : Round}

theorem Awaits.action (h : Awaits cfg s) : s.obj.action = .createProposal := by
  rw [KafkaRebalance.action, h.state, h.command]
  rfl

theorem Awaits.begin (h : Awaits cfg s) :
    (needsCredential s.obj .createProposal = false →
      cfg.begin s.obj = .calling s.obj .createProposal none) ∧
    ∀ ref, needsCredential s.obj .createProposal = true → credentialReference s.obj = some ref →
      cfg.begin s.obj = .credential s.obj .createProposal ref := by
  obtain ⟨endpoint, hendpoint⟩ := h.resolves
  unfold Config.begin
  simp only [hendpoint, h.action, reduceCtorEq, if_false]
  constructor
  · intro hneeds
    rw [hneeds]
    rfl
  · intro ref hneeds href
    rw [hneeds, href]
    rfl

/-- Up to the call. -/
theorem Awaits.calls (h : Awaits cfg s) {token : Option String}
    (hauth : round.Authorized cfg s.obj token) :
    History.final (exec cfg) [.start 0, .secret round.secret] s =
      { s with task := .calling s.obj .createProposal token } := by
  have hstart : step cfg (.start 0) s = { s with task := cfg.begin s.obj } := by
    simp only [step, h.task, State.versions, List.getElem?_cons_zero]
  change step cfg (.secret round.secret) (step cfg (.start 0) s) = _
  unfold Round.Authorized at hauth
  rw [hstart]
  cases hneeds : needsCredential s.obj .createProposal with
  | false =>
    rw [hneeds, if_neg Bool.false_ne_true] at hauth
    rw [h.begin.1 hneeds, hauth]
    rfl
  | true =>
    rw [hneeds, if_pos rfl] at hauth
    obtain ⟨ref, data, t, href, hsecret, hcredential, rfl⟩ := hauth
    rw [h.begin.2 ref hneeds href, hsecret]
    simp only [step, Config.authorized, hcredential]

/-- The state after the call. -/
def Round.called (parse : String → Except String Value) (round : Round) (token : Option String)
    (s : State) : State :=
  { s with
    calls := ⟨planRpc s.obj token, s.obj, round.reply.answer parse⟩ :: s.calls
    task := .idle }

/-- The state after the pass: one call, and the status of its outcome. -/
def Round.after (parse : String → Except String Value) (round : Round) (token : Option String)
    (s : State) : State :=
  match round.reply.outcome? parse with
  | none => round.called parse token s
  | some outcome =>
    (round.called parse token s).store (s.obj.setStatus (writeStatus s.obj outcome round.now))

theorem Awaits.pass (h : Awaits cfg s) {token : Option String}
    (hauth : round.Authorized cfg s.obj token) :
    History.final (exec cfg) (round.pass parse) s = round.after parse token s := by
  have hsplit : History.final (exec cfg) (round.pass parse) s =
      step cfg (.written .none round.now) (step cfg (.removed .none)
        { round.called parse token s with
          task := answered s.obj .createProposal (round.reply.answer parse) }) := by
    change History.final (exec cfg) ([.start 0, .secret round.secret] ++
      [.rpc true (round.reply.answer parse), .removed .none, .written .none round.now]) s = _
    rw [History.final_append, h.calls hauth]
    rfl
  rw [hsplit]
  unfold Round.after answered
  cases houtcome : round.reply.outcome? parse with
  | none =>
    rw [Reply.outcome?] at houtcome
    rw [houtcome]
    rfl
  | some outcome =>
    rw [Reply.outcome?] at houtcome
    rw [houtcome]
    simp only [h.command, Option.isSome_none, Bool.false_eq_true, if_false]
    rfl

/-- The condition of an outcome, with the time at which its state was reached. -/
def Outcome.conditionAt (outcome : Outcome) (time : String) : KafkaCondition where
  type := conditionType outcome.state
  status := "True"
  reason := outcome.reason
  message := outcome.message
  lastTransitionTime := time

theorem activeCondition_eq (existing : Option KafkaRebalanceStatus) (outcome : Outcome)
    (now : String) : ∃ time, activeCondition existing outcome now = outcome.conditionAt time := by
  unfold activeCondition
  dsimp only
  split
  · exact ⟨_, rfl⟩
  · exact ⟨_, rfl⟩

/-- The state has been reached before, and keeps its time. -/
theorem activeCondition_again {status : KafkaRebalanceStatus} {outcome : Outcome} {time : String}
    (h : status.conditions = [outcome.conditionAt time]) (now : String) :
    activeCondition (some status) outcome now = outcome.conditionAt time := by
  have hactive : status.activeCondition? = some (outcome.conditionAt time) := by
    rw [KafkaRebalanceStatus.activeCondition?, h]
    rfl
  simp only [activeCondition, Option.bind_eq_bind, Option.bind_some, hactive]
  rw [Option.filter_some_pos (by simp [Outcome.conditionAt])]
  rfl

/-- An outcome that changes nothing on file writes the same status again. -/
theorem writeStatus_again {obj : KafkaRebalance} {state : NodePool.RebalanceState}
    {reason message now now' : String} :
    writeStatus (obj.setStatus (writeStatus obj (.transient state reason message) now))
      (.transient state reason message) now' =
    writeStatus obj (.transient state reason message) now := by
  obtain ⟨time, htime⟩ := activeCondition_eq obj.status (.transient state reason message) now
  have hconditions : (writeStatus obj (.transient state reason message) now).conditions =
      [(Outcome.transient state reason message).conditionAt time] := congrArg ([·]) htime
  have hagain := activeCondition_again hconditions now'
  rw [← htime] at hagain
  conv_lhs => rw [writeStatus]
  conv_rhs => rw [writeStatus]
  rw [show (obj.setStatus (writeStatus obj (.transient state reason message) now)).status =
    some (writeStatus obj (.transient state reason message) now) from rfl, hagain]
  rfl

/-- Nothing but the status has changed, and nothing is executed. -/
structure Kept (s t : State) : Prop where
  obj : t.obj = { s.obj with status := t.obj.status }
  executing : t.executing = s.executing

theorem Kept.authorized {t : State} (h : Kept s t) {token : Option String} :
    round.Authorized cfg t.obj token ↔ round.Authorized cfg s.obj token := by
  rw [h.obj]
  exact Iff.rfl

theorem Kept.planRpc_eq {t : State} (h : Kept s t) (token : Option String) :
    planRpc t.obj token = planRpc s.obj token := by
  rw [h.obj]
  rfl

theorem Kept.refl (s : State) : Kept s s := ⟨rfl, rfl⟩

theorem Kept.trans {t u : State} (h : Kept s t) (h' : Kept t u) : Kept s u where
  obj := by
    rw [h'.obj, h.obj]
  executing := h'.executing.trans h.executing

theorem Round.after_kept (token : Option String) : Kept s (round.after parse token s) := by
  unfold Round.after
  cases round.reply.outcome? parse with
  | none => exact ⟨rfl, rfl⟩
  | some outcome => exact ⟨rfl, rfl⟩

theorem Round.after_calls (token : Option String) : (round.after parse token s).calls =
    ⟨planRpc s.obj token, s.obj, round.reply.answer parse⟩ :: s.calls := by
  unfold Round.after
  cases round.reply.outcome? parse with
  | none => rfl
  | some outcome => rfl

/-- The rebalance stays new exactly when the failure passes. -/
theorem Awaits.after_new (h : Awaits cfg s) (token : Option String) :
    currentState (round.after parse token s).obj = .new ↔ round.reply.Passes parse := by
  unfold Round.after
  constructor
  · intro hnew
    by_contra hpasses
    obtain ⟨outcome, houtcome, hstate⟩ := outcome_of_not_passes hpasses
    rw [houtcome] at hnew
    exact hstate (currentState_writeStatus.symm.trans hnew)
  · intro hpasses
    rcases outcome_of_passes hpasses with houtcome | ⟨message, houtcome⟩
    · rw [houtcome]
      exact h.state
    · rw [houtcome]
      exact currentState_writeStatus

theorem Awaits.after (h : Awaits cfg s) (token : Option String)
    (hpasses : round.reply.Passes parse) : Awaits cfg (round.after parse token s) where
  task := by
    unfold Round.after
    cases round.reply.outcome? parse with
    | none => rfl
    | some outcome => rfl
  state := (h.after_new token).mpr hpasses
  command := by
    rw [(Round.after_kept token).obj]
    exact h.command
  resolves := by
    rw [(Round.after_kept token).obj]
    exact h.resolves

/-- A failure that repeats writes the status that is there already. -/
theorem Round.after_again {again : Round} (token token' : Option String)
    (hpasses : round.reply.Passes parse) (hreply : again.reply = round.reply) :
    (again.after parse token' (round.after parse token s)).obj =
      (round.after parse token s).obj := by
  unfold Round.after
  rw [hreply]
  rcases outcome_of_passes hpasses with houtcome | ⟨message, houtcome⟩
  · simp only [houtcome]
    rfl
  · simp only [houtcome]
    exact congrArg (KafkaRebalance.setStatus s.obj) writeStatus_again

/-- A run over failures that pass. -/
theorem Awaits.run (h : Awaits cfg s) {rounds : List Round}
    (hrounds : ∀ round ∈ rounds, (∃ token, round.Authorized cfg s.obj token) ∧
      round.reply.Passes parse) :
    let t := History.final (exec cfg) (rounds.flatMap (Round.pass parse)) s
    Awaits cfg t ∧ Kept s t ∧ ∃ new, t.calls = new ++ s.calls ∧ new.length = rounds.length ∧
      ∀ c ∈ new, ∃ token, c.rpc = planRpc s.obj token := by
  induction rounds generalizing s with
  | nil => exact ⟨h, Kept.refl s, [], rfl, rfl, fun _ hc => absurd hc List.not_mem_nil⟩
  | cons round rounds ih =>
    obtain ⟨⟨token, hauth⟩, hpasses⟩ := hrounds round List.mem_cons_self
    have hkept : Kept s (round.after parse token s) := Round.after_kept token
    have hrest : ∀ round' ∈ rounds,
        (∃ token', round'.Authorized cfg (round.after parse token s).obj token') ∧
          round'.reply.Passes parse := by
      intro round' hround'
      simp only [hkept.authorized]
      exact hrounds round' (List.mem_cons_of_mem _ hround')
    obtain ⟨hawaits, hkept', new, hnew, hlength, hcalls⟩ := ih (h.after token hpasses) hrest
    dsimp only
    rw [List.flatMap_cons, History.final_append, h.pass hauth]
    refine ⟨hawaits, hkept.trans hkept',
      new ++ [⟨planRpc s.obj token, s.obj, round.reply.answer parse⟩], ?_, ?_, ?_⟩
    · rw [hnew, Round.after_calls, List.append_assoc, List.singleton_append]
    · rw [List.length_append, hlength]
      rfl
    · intro c hc
      rcases List.mem_append.mp hc with hc | hc
      · obtain ⟨token', htoken'⟩ := hcalls c hc
        exact ⟨token', htoken'.trans (hkept.planRpc_eq token')⟩
      · rw [List.mem_singleton.mp hc]
        exact ⟨token, rfl⟩

/-- A rebalance that waits for its plan, over any number of failures that pass: it stays new
    exactly as long as they last, and a computed proposal in any form makes its plan ready; each
    pass makes one call, for a plan of its spec; a failure that repeats writes the same status;
    nothing else of the object changes, and nothing is executed. -/
theorem plans_through_failures (h : Awaits cfg s) {rounds : List Round}
    (hrounds : ∀ round ∈ rounds, (∃ token, round.Authorized cfg s.obj token) ∧
      round.reply.Passes parse)
    {last : Round} (hlast : ∃ token, last.Authorized cfg s.obj token) :
    let t := History.final (exec cfg) ((rounds ++ [last]).flatMap (Round.pass parse)) s
    (currentState t.obj = .new ↔ last.reply.Passes parse) ∧
    (∀ status text body p, last.reply = .response status text → isSuccess status = true →
      parse text = .ok body → IsBody p body → p.status = .computed →
      currentState t.obj = .proposalReady ∧ t.obj.session = some p.id ∧
        t.obj.status >>= (·.optimizationResult) = some (optimizationResultFrom p) ∧
        t.obj.observedGeneration = t.obj.generation) ∧
    (∀ again : Round, (∃ token, again.Authorized cfg s.obj token) → again.reply = last.reply →
      last.reply.Passes parse → (History.final (exec cfg) (again.pass parse) t).obj = t.obj) ∧
    Kept s t ∧ ∃ new, t.calls = new ++ s.calls ∧ new.length = rounds.length + 1 ∧
      ∀ c ∈ new, ∃ token, c.rpc = planRpc s.obj token := by
  obtain ⟨hawaits, hkept, new, hnew, hlength, hcalls⟩ := h.run hrounds
  obtain ⟨token, hauth⟩ := hlast
  rw [← hkept.authorized] at hauth
  dsimp only
  rw [List.flatMap_append, History.final_append, List.flatMap_singleton, hawaits.pass hauth]
  generalize History.final (exec cfg) (rounds.flatMap (Round.pass parse)) s = u at *
  have hlastKept : Kept u (last.after parse token u) := Round.after_kept token
  refine ⟨hawaits.after_new token, ?_, ?_, hkept.trans hlastKept,
    ⟨planRpc u.obj token, u.obj, last.reply.answer parse⟩ :: new, ?_, ?_, ?_⟩
  · intro status text body p hreply hstatus hparse hbody hcomputed
    have houtcome : last.reply.outcome? parse = some (.fromCreate p) := by
      rw [hreply, Reply.outcome?, (answer_of_isBody hstatus hparse hbody).1]
      rfl
    unfold Round.after
    simp only [houtcome, Outcome.fromCreate, hcomputed]
    exact ⟨currentState_writeStatus, rfl, rfl, rfl⟩
  · rintro again ⟨token', hauth'⟩ hreply hpasses
    rw [← (hkept.trans hlastKept).authorized] at hauth'
    rw [(hawaits.after token hpasses).pass hauth']
    exact Round.after_again token token' hpasses hreply
  · rw [Round.after_calls, hnew, List.cons_append]
  · rw [List.length_cons, hlength]
  · intro c hc
    rcases List.mem_cons.mp hc with rfl | hc
    · exact ⟨token, hkept.planRpc_eq token⟩
    · exact hcalls c hc

end Passes

/-! ## A drain while a partition lacks replicas -/

namespace Sample

def planConfig : Config := ⟨⟨fun _ => true, fun _ => ""⟩, "kafka"⟩

/-- A drain with its credential by the name that is documented for it. -/
def draining : State := .created (some "demo") none { mode := .removeBrokers, brokers := [3] }

def unreplicatedText : String := "\x7b\"code\":\"failed_precondition\"\x7d"

/-- A parser that reads the responses of the run as JSON has them. -/
def readsReplies (text : String) : Except String Value :=
  if text = unreplicatedText then .ok (.object [("code", .string "failed_precondition")])
  else readsComputed text

def round (reply : Reply) (now : String) : Round where
  secret := .ok (some (.ofList [("token", .text ['s'])]))
  reply := reply
  now := now

/-- The rebalancer restarts behind a proxy, and then finds a partition that lacks replicas. -/
def failures : List Round :=
  [round (.failed "connection refused") "t1", round (.response 503 "Bad Gateway") "t2",
    round (.response 400 unreplicatedText) "t3"]

theorem draining_awaits : Awaits planConfig draining where
  task := rfl
  state := rfl
  command := rfl
  resolves := ⟨_, rfl⟩

theorem authorized_round (reply : Reply) (now : String) :
    (round reply now).Authorized planConfig draining.obj (some "s") :=
  ⟨⟨"demo-rebalancer-auth", "token"⟩, _, "s", rfl, rfl, by decide, rfl⟩

theorem failures_pass : ∀ round ∈ failures,
    (∃ token, round.Authorized planConfig draining.obj token) ∧
      round.reply.Passes readsReplies := by
  have hhtml : codeOf? readsReplies "Bad Gateway" = none := by decide
  have hcode : codeOf? readsReplies unreplicatedText = some "failed_precondition" := by decide
  intro r hr
  simp only [failures, List.mem_cons, List.not_mem_nil, or_false] at hr
  rcases hr with rfl | rfl | rfl
  · exact ⟨⟨_, authorized_round _ _⟩, trivial⟩
  · exact ⟨⟨_, authorized_round _ _⟩, rfl, .inr ⟨hhtml, by decide⟩⟩
  · exact ⟨⟨_, authorized_round _ _⟩, rfl, .inl ⟨_, by decide, hcode⟩⟩

end Sample

theorem plans_through_failures_drain :
    (History.final (exec Sample.planConfig)
      ((Sample.failures ++ [Sample.round (.response 200 Sample.computedText) "t4"]).flatMap
        (Round.pass Sample.readsReplies)) Sample.draining).obj.session = some "p1" :=
  ((plans_through_failures Sample.draining_awaits Sample.failures_pass
    ⟨_, Sample.authorized_round _ _⟩).2.1 200 _ _ Sample.computed rfl rfl rfl
      (.inr ⟨Sample.computedProposal, rfl, Sample.computedProposal_isProposal⟩) rfl).2.1

end Rebalance
