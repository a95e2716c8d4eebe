-- SUMMARY: The calls of the rebalancer as HTTP: the JSON of requests and responses, the errors of the protocol, and that every JSON form of a proposal is read as that proposal.
import KrabkaOperator.Base.ProtoJson
import KrabkaOperator.Rebalance.Machine

/-!
# The rebalancer on the wire

A call is a POST with a JSON body. A response with a status of 2xx has a proposal, alone or
under `proposal`; any other one has an error with a code and a message, or whatever a proxy
has written.
-/

namespace Rebalance

open NodePool (KafkaRebalanceMode)
open ProtoJson (Value Form Writes IsString IsStrings IsInt32 IsEnum readI32)

/-! ## Requests -/

/-- A request of the Connect protocol. -/
structure Request where
  method : String
  body : Value
  token : Option String := none

def modeName : KafkaRebalanceMode → String
  | .full => "PROPOSAL_MODE_FULL"
  | .removeBrokers => "PROPOSAL_MODE_REMOVE_BROKERS"
  | .addBrokers => "PROPOSAL_MODE_ADD_BROKERS"

def createProposalBody (mode : KafkaRebalanceMode) (brokers : List Int) (goals : List String) :
    Value :=
  .object
    [("mode", .string (modeName mode)), ("brokers", .array (brokers.map fun b => .number (.int b))),
      ("goals", .array (goals.map .string))]

def idBody (id : String) : Value := .object [("id", .string id)]

/-- The throttle is an `int64`, which is a text in JSON. -/
def executeBody (id : String) : Option Int → Value
  | none => idBody id
  | some throttle =>
    .object [("id", .string id), ("throttleBytesPerSec", .string (toString throttle))]

def Rpc.request : Rpc → Request
  | .createProposal mode brokers goals token =>
    { method := "CreateProposal", body := createProposalBody mode brokers goals, token }
  | .executeProposal id throttle token =>
    { method := "ExecuteProposal", body := executeBody id throttle, token }
  | .getProposal id => { method := "GetProposal", body := idBody id }
  | .cancelExecution id => { method := "CancelExecution", body := idBody id }

theorem modeName_injective : Function.Injective modeName := by
  intro a b h
  cases a <;> cases b <;> first | rfl | exact absurd h (by decide)

theorem executeBody_injective {id id' : String} {throttle throttle' : Option Int}
    (h : executeBody id throttle = executeBody id' throttle') :
    id = id' ∧ throttle = throttle' := by
  cases throttle with
  | none =>
    cases throttle' with
    | none => simpa [executeBody, idBody] using h
    | some throttle' => simp [executeBody, idBody] at h
  | some throttle =>
    cases throttle' with
    | none => simp [executeBody, idBody] at h
    | some throttle' =>
      simp only [executeBody, Value.object.injEq, List.cons.injEq, Prod.mk.injEq,
        Value.string.injEq, true_and, and_true] at h
      exact ⟨h.1, congrArg some (Decimal.toString_injective h.2)⟩

theorem map_injective {α : Type} {f : α → Value} (hf : Function.Injective f) :
    Function.Injective fun xs : List α => Value.array (xs.map f) :=
  fun _ _ h => List.map_injective_iff.mpr hf (Value.array.inj h)

/-- No two calls are the same request. -/
theorem request_injective : Function.Injective Rpc.request := by
  intro r r' h
  have hmethod := congrArg Request.method h
  have hbody := congrArg Request.body h
  have htoken := congrArg Request.token h
  cases r with
  | createProposal mode brokers goals token =>
    cases r' with
    | createProposal mode' brokers' goals' token' =>
      simp only [Rpc.request, createProposalBody, Value.object.injEq, List.cons.injEq,
        Prod.mk.injEq, Value.string.injEq, true_and, and_true] at hbody htoken
      obtain ⟨hmode, hbrokers, hgoals⟩ := hbody
      rw [modeName_injective hmode, htoken,
        map_injective (fun _ _ h => by simpa using h) hbrokers,
        map_injective (fun _ _ h => by simpa using h) hgoals]
    | executeProposal id throttle token => simp [Rpc.request] at hmethod
    | getProposal id => simp [Rpc.request] at hmethod
    | cancelExecution id => simp [Rpc.request] at hmethod
  | executeProposal id throttle token =>
    cases r' with
    | createProposal mode' brokers' goals' token' => simp [Rpc.request] at hmethod
    | executeProposal id' throttle' token' =>
      obtain ⟨hid, hthrottle⟩ := executeBody_injective hbody
      have htoken : token = token' := htoken
      rw [hid, hthrottle, htoken]
    | getProposal id' => simp [Rpc.request] at hmethod
    | cancelExecution id' => simp [Rpc.request] at hmethod
  | getProposal id =>
    cases r' with
    | createProposal mode' brokers' goals' token' => simp [Rpc.request] at hmethod
    | executeProposal id' throttle' token' => simp [Rpc.request] at hmethod
    | getProposal id' => simpa [Rpc.request, idBody] using hbody
    | cancelExecution id' => simp [Rpc.request] at hmethod
  | cancelExecution id =>
    cases r' with
    | createProposal mode' brokers' goals' token' => simp [Rpc.request] at hmethod
    | executeProposal id' throttle' token' => simp [Rpc.request] at hmethod
    | getProposal id' => simp [Rpc.request] at hmethod
    | cancelExecution id' => simpa [Rpc.request, idBody] using hbody

/-! ## Responses -/

/-- The enum name, or the ordinal. -/
def ProposalStatus.fromJson : Value → ProposalStatus
  | .string "PROPOSAL_STATUS_COMPUTED" => .computed
  | .string "PROPOSAL_STATUS_EXECUTING" => .executing
  | .string "PROPOSAL_STATUS_COMPLETED" => .completed
  | .string "PROPOSAL_STATUS_FAILED" => .failed
  | .string "PROPOSAL_STATUS_CANCELLED" => .cancelled
  | .number n =>
    match n.asI64? with
    | some 1 => .computed
    | some 2 => .executing
    | some 3 => .completed
    | some 4 => .failed
    | some 5 => .cancelled
    | _ => .unspecified
  | _ => .unspecified

def jsonI32 (obj : Value) (camel snake : String) : Int :=
  readI32 ((obj.get? camel).or (obj.get? snake))

def summaryFromJson (summary : Value) : ProposalSummary where
  replicaMovements := jsonI32 summary "replicaMovements" "replica_movements"
  leaderMovements := jsonI32 summary "leaderMovements" "leader_movements"
  maxReplicasBefore := jsonI32 summary "maxReplicasBefore" "max_replicas_before"
  maxReplicasAfter := jsonI32 summary "maxReplicasAfter" "max_replicas_after"
  maxLeadersBefore := jsonI32 summary "maxLeadersBefore" "max_leaders_before"
  maxLeadersAfter := jsonI32 summary "maxLeadersAfter" "max_leaders_after"

/-- A proposal, which may be under `proposal`. -/
def proposalFromJson (body : Value) : RebalancerProposal :=
  let p := (body.get? "proposal").getD body
  { id := (p.get? "id" >>= Value.asStr?).getD ""
    status := .fromJson ((p.get? "status").getD .null)
    summary := summaryFromJson ((p.get? "summary").getD .null)
    goalsApplied :=
      (((p.get? "goalsApplied").or (p.get? "goals_applied") >>= Value.asArray?).map
        (·.filterMap Value.asStr?)).getD []
    failureReason := (p.get? "failureReason").or (p.get? "failure_reason") >>= Value.asStr? }

/-- What the HTTP client returns. -/
inductive Reply where
  | failed (message : String)
  | response (status : Nat) (text : String)
  deriving DecidableEq, Repr

section Reply

variable (parse : String → Except String Value)

/-- The error of a response that is none of 2xx. Without a code, the status is the code. -/
def connectError (text : String) (status : Nat) : RebalancerError :=
  let parsed := (parse text).toOption
  .rpc ((parsed >>= Value.get? "code" >>= Value.asStr?).getD ("http_" ++ toString status))
    ((parsed >>= Value.get? "message" >>= Value.asStr?).getD
      (String.ofList (Text.trim text.toList)))

def isSuccess (status : Nat) : Bool := 200 ≤ status && status < 300

def Reply.call : Reply → Except RebalancerError Value
  | .failed message => .error (.transport message)
  | .response status text =>
    if isSuccess status then (parse text).mapError .decode
    else .error (connectError parse text status)

def Reply.answer (reply : Reply) : Except RebalancerError RebalancerProposal :=
  (reply.call parse).map proposalFromJson

theorem answer_of_success {status : Nat} {text : String} (h : isSuccess status = true) :
    (Reply.response status text).answer parse =
      ((parse text).mapError .decode).map proposalFromJson := by
  rw [Reply.answer, Reply.call, if_pos h]

theorem answer_of_error {status : Nat} {text : String} (h : isSuccess status = false) :
    (Reply.response status text).answer parse = .error (connectError parse text status) := by
  rw [Reply.answer, Reply.call, h]
  rfl

end Reply

/-! ## The forms of a proposal -/

def ProposalStatus.name : ProposalStatus → String
  | .unspecified => "PROPOSAL_STATUS_UNSPECIFIED"
  | .computed => "PROPOSAL_STATUS_COMPUTED"
  | .executing => "PROPOSAL_STATUS_EXECUTING"
  | .completed => "PROPOSAL_STATUS_COMPLETED"
  | .failed => "PROPOSAL_STATUS_FAILED"
  | .cancelled => "PROPOSAL_STATUS_CANCELLED"

def ProposalStatus.ordinal : ProposalStatus → Int
  | .unspecified => 0
  | .computed => 1
  | .executing => 2
  | .completed => 3
  | .failed => 4
  | .cancelled => 5

/-- A count is written under either name. -/
def IsCount (i : Int) (v : Value) (camel snake : String) : Prop :=
  ∃ x, Writes v camel snake x ∧ Form IsInt32 0 i x

structure IsSummary (s : ProposalSummary) (v : Value) : Prop where
  replicaMovements : IsCount s.replicaMovements v "replicaMovements" "replica_movements"
  leaderMovements : IsCount s.leaderMovements v "leaderMovements" "leader_movements"
  maxReplicasBefore : IsCount s.maxReplicasBefore v "maxReplicasBefore" "max_replicas_before"
  maxReplicasAfter : IsCount s.maxReplicasAfter v "maxReplicasAfter" "max_replicas_after"
  maxLeadersBefore : IsCount s.maxLeadersBefore v "maxLeadersBefore" "max_leaders_before"
  maxLeadersAfter : IsCount s.maxLeadersAfter v "maxLeadersAfter" "max_leaders_after"

/-- JSON that stands for a proposal. -/
structure IsProposal (p : RebalancerProposal) (v : Value) : Prop where
  id : Form IsString "" p.id (v.get? "id")
  status : Form (IsEnum ProposalStatus.name ProposalStatus.ordinal) .unspecified p.status
    (v.get? "status")
  summary : Form IsSummary {} p.summary (v.get? "summary")
  goalsApplied : ∃ x, Writes v "goalsApplied" "goals_applied" x ∧ Form IsStrings [] p.goalsApplied x
  failureReason : ∃ x, Writes v "failureReason" "failure_reason" x ∧
    Form (fun r v => ∃ s, r = some s ∧ IsString s v) none p.failureReason x

/-- A body is a proposal, or has one. -/
def IsBody (p : RebalancerProposal) (body : Value) : Prop :=
  body.get? "proposal" = none ∧ IsProposal p body ∨
    ∃ v, body.get? "proposal" = some v ∧ IsProposal p v

section Read

variable {p : RebalancerProposal} {v body : Value}

theorem jsonI32_of_isCount {i : Int} {camel snake : String} (h : IsCount i v camel snake) :
    jsonI32 v camel snake = i := by
  obtain ⟨x, hwrites, hform⟩ := h
  rw [jsonI32, hwrites.find]
  exact hform.read_int32

theorem summaryFromJson_of_isSummary {s : ProposalSummary} (h : IsSummary s v) :
    summaryFromJson v = s := by
  rw [summaryFromJson, jsonI32_of_isCount h.replicaMovements, jsonI32_of_isCount h.leaderMovements,
    jsonI32_of_isCount h.maxReplicasBefore, jsonI32_of_isCount h.maxReplicasAfter,
    jsonI32_of_isCount h.maxLeadersBefore, jsonI32_of_isCount h.maxLeadersAfter]

theorem fromJson_of_isEnum {status : ProposalStatus}
    (h : IsEnum ProposalStatus.name ProposalStatus.ordinal status v) :
    ProposalStatus.fromJson v = status := by
  cases h with
  | name => cases status <;> rfl
  | ordinal => cases status <;> rfl

theorem proposalFromJson_of_isProposal (h : IsProposal p v)
    (hbody : (body.get? "proposal").getD body = v) : proposalFromJson body = p := by
  obtain ⟨goals, hgoals, hgoalsForm⟩ := h.goalsApplied
  obtain ⟨reason, hreason, hreasonForm⟩ := h.failureReason
  have hstatus : ProposalStatus.fromJson ((v.get? "status").getD .null) = p.status :=
    h.status.read (f := fun x => .fromJson (x.getD .null)) rfl rfl fun _ _ => fromJson_of_isEnum
  have hsummary : summaryFromJson ((v.get? "summary").getD .null) = p.summary :=
    h.summary.read (f := fun x => summaryFromJson (x.getD .null)) rfl rfl
      fun _ _ => summaryFromJson_of_isSummary
  simp only [proposalFromJson, hbody, hgoals.find, hreason.find, h.id.read_string, hstatus,
    hsummary, hgoalsForm.read_strings, hreasonForm.read_optional]

theorem proposalFromJson_of_isBody (h : IsBody p body) : proposalFromJson body = p := by
  rcases h with ⟨hnone, h⟩ | ⟨v, hsome, h⟩
  · exact proposalFromJson_of_isProposal h (by rw [hnone, Option.getD_none])
  · exact proposalFromJson_of_isProposal h (by rw [hsome, Option.getD_some])

/-- Whatever form the rebalancer writes a proposal in, the operator reads that proposal, and no
    JSON stands for two of them. -/
theorem answer_of_isBody {parse : String → Except String Value} {status : Nat} {text : String}
    (hstatus : isSuccess status = true) (hparse : parse text = .ok body) (h : IsBody p body) :
    (Reply.response status text).answer parse = .ok p ∧ ∀ q, IsBody q body → q = p := by
  constructor
  · rw [answer_of_success parse hstatus, hparse]
    exact congrArg Except.ok (proposalFromJson_of_isBody h)
  · intro q hq
    rw [← proposalFromJson_of_isBody hq, proposalFromJson_of_isBody h]

end Read

/-! ## A response in mixed forms -/

namespace Sample

def computed : RebalancerProposal where
  id := "p1"
  status := .computed
  summary := { replicaMovements := 12, maxReplicasBefore := -3 }
  goalsApplied := ["RackAware"]

def computedText : String :=
  "\x7b\"proposal\":\x7b\"id\":\"p1\",\"status\":1,\"goals_applied\":[\"RackAware\"]," ++
    "\"summary\":\x7b\"replicaMovements\":\"12\",\"max_replicas_before\":-3," ++
    "\"leaderMovements\":null\x7d\x7d\x7d"

def computedSummary : Value :=
  .object
    [("replicaMovements", .string "12"), ("max_replicas_before", .number (.int (-3))),
      ("leaderMovements", .null)]

def computedProposal : Value :=
  .object
    [("id", .string "p1"), ("status", .number (.int 1)),
      ("goals_applied", .array [.string "RackAware"]), ("summary", computedSummary)]

def computedBody : Value := .object [("proposal", computedProposal)]

/-- A parser that reads the response as JSON has it. -/
def readsComputed (text : String) : Except String Value :=
  if text = computedText then .ok computedBody else .error "expected value at line 1 column 1"

theorem computedSummary_isSummary : IsSummary computed.summary computedSummary where
  replicaMovements := ⟨_, .inl ⟨rfl, rfl⟩, .written (.text (i := 12) (by decide))⟩
  leaderMovements := ⟨_, .inl ⟨rfl, rfl⟩, .null⟩
  maxReplicasBefore := ⟨_, .inr ⟨rfl, rfl⟩, .written (.number (by decide))⟩
  maxReplicasAfter := ⟨_, .inl ⟨rfl, rfl⟩, .absent⟩
  maxLeadersBefore := ⟨_, .inl ⟨rfl, rfl⟩, .absent⟩
  maxLeadersAfter := ⟨_, .inl ⟨rfl, rfl⟩, .absent⟩

theorem computedProposal_isProposal : IsProposal computed computedProposal where
  id := .written rfl
  status := .written (.ordinal (a := ProposalStatus.computed))
  summary := .written computedSummary_isSummary
  goalsApplied := ⟨_, .inr ⟨rfl, rfl⟩, .written rfl⟩
  failureReason := ⟨_, .inl ⟨rfl, rfl⟩, .absent⟩

end Sample

theorem answer_of_isBody_mixed :
    (Reply.response 200 Sample.computedText).answer Sample.readsComputed = .ok Sample.computed :=
  (answer_of_isBody rfl (if_pos rfl)
    (.inr ⟨Sample.computedProposal, rfl, Sample.computedProposal_isProposal⟩)).1

end Rebalance
