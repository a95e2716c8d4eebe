-- SUMMARY: The delegation token of a user: the decision over the token that the brokers describe, its conditions, and the program that keeps token, status and Secret together.
import KrabkaOperator.Access.Requests
import KrabkaOperator.User.Reconcile

/-!
# Delegation tokens

A pass describes the tokens that the user owns, and creates, renews or replaces one, or
leaves it. It records the identity of the token in the status before it writes the Secret.
-/

namespace Access

open Kube Crd Operator Admin

def defaultRenewBeforeExpiry : Time := hours 24

def renewBefore (auth : DelegationTokenAuth) : Time :=
  auth.renewBeforeExpiry.getD defaultRenewBeforeExpiry

inductive ReconcileDecision where
  | create
  | noOp
  | renew
  | cycle
  deriving DecidableEq, Repr

/-- The two lists hold the same elements. -/
def sameSet (xs ys : List String) : Bool := xs.all (ys.contains ·) && ys.all (xs.contains ·)

/-- The pure decision over the spec, the token that was found, and the time. -/
def decide (print : KafkaPrincipal → String) (auth : DelegationTokenAuth)
    (existing : Option DelegationToken) (nowMs : Int) : ReconcileDecision :=
  match existing with
  | none => .create
  | some token =>
    if !sameSet auth.renewers (token.renewers.map print) then
      .cycle
    else if millis (token.expiryTimestampMs - nowMs) ≤ renewBefore auth then
      .renew
    else
      .noOp

/-- Until about the renewal horizon, within the two bounds. -/
def computeRequeue (token : DelegationToken) (auth : DelegationTokenAuth) (nowMs : Int)
    (minRequeue maxRequeue : Time) : Time :=
  min (max (millis (token.expiryTimestampMs - nowMs) - renewBefore auth) minRequeue) maxRequeue

/-! ## Conditions -/

def computeConditions (token : DelegationToken) (auth : DelegationTokenAuth) (nowMs : Int)
    (issuedOk : Bool) (issuedReason : Option (String × String)) : List Condition :=
  let (reason, message) := issuedReason.getD ("IssueFailed", "issue failed")
  let issued : List Condition :=
    if issuedOk then
      [⟨"Ready", "True", "TokenReady", "delegation token, Secret, ACLs, and quotas in sync"⟩,
        ⟨"TokenIssued", "True", "Issued", "delegation token in sync"⟩]
    else
      [⟨"Ready", "False", reason, message⟩, ⟨"TokenIssued", "False", reason, message⟩]
  let expiring : Condition :=
    if millis (token.expiryTimestampMs - nowMs) < renewBefore auth + renewBefore auth then
      ⟨"TokenExpiring", "True", "WithinRenewalHorizon", "expiry < 2× renewBeforeExpiry from now"⟩
    else
      ⟨"TokenExpiring", "False", "Healthy", "expiry comfortably outside renewal horizon"⟩
  issued ++ [expiring]

/-- The first condition of the type of `c` becomes `c`. -/
def replaceFirst (c : Condition) : List Condition → List Condition
  | [] => []
  | d :: ds => if d.type = c.type then c :: ds else d :: replaceFirst c ds

/-- A missing `Ready` goes to the front, another missing condition to the end. -/
def replaceCondition (conditions : List Condition) (c : Condition) : List Condition :=
  if conditions.any (·.type = c.type) then
    replaceFirst c conditions
  else if c.type = "Ready" then
    c :: conditions
  else
    conditions ++ [c]

def replaceReadyCondition (conditions : List Condition) (status reason message : String) :
    List Condition :=
  replaceCondition conditions ⟨"Ready", status, reason, message⟩

/-- The conditions of a live token, with the `Ready` that the status has. -/
def conditionsWithHistory (obj : KafkaUser) (token : DelegationToken) (auth : DelegationTokenAuth)
    (nowMs : Int) : List Condition :=
  let conditions := computeConditions token auth nowMs true none
  match obj.status with
  | none => conditions
  | some status => conditions.map fun current =>
      if current.type = "Ready" then
        (status.conditions.find? (·.type = "Ready")).getD current
      else
        current

def inheritPublishedReady (conditions published : List Condition) : List Condition :=
  match published.find? (·.type = "Ready") with
  | none => conditions
  | some ready => replaceCondition conditions ready

/-- The status names this token, at this generation, as ready. -/
def statusHasCurrentReadyToken (obj : KafkaUser) (token : DelegationToken) : Bool :=
  match obj.status with
  | none => false
  | some status =>
    status.delegationTokenId = some token.tokenId &&
      status.delegationTokenExpiryTimestampMs = some token.expiryTimestampMs &&
      status.delegationTokenMaxTimestampMs = some token.maxTimestampMs &&
      status.observedGeneration = obj.generation &&
      status.conditions.any (fun c => c.type = "Ready" && c.status = "True" && c.reason = "TokenReady") &&
      status.conditions.any (fun c => c.type = "TokenIssued" && c.status = "True")

/-- The conditions of the status, only when it proves that a token was issued. -/
def existingTokenConditions (obj : KafkaUser) : Option (List Condition) :=
  match obj.status with
  | none => none
  | some status =>
    if status.delegationTokenId.isSome &&
        status.conditions.any (fun c => c.type = "TokenIssued" && c.status = "True") then
      some status.conditions
    else
      none

/-! ## Calls -/

/-- What a pass over the token hands on. Without conditions it has failed, and the caller
    returns the action. -/
structure ReconcileOutcome where
  action : Action
  conditions : Option (List Condition)
  tokenRequeue : Option Time
  pendingPublished : Bool
  deriving DecidableEq, Repr

def publishTokenPending (priorConditions : List Condition) (tokenLive : Bool) :
    Op (List Condition) := do
  let pending := replaceReadyCondition priorConditions "False" "TokenPending"
    "delegation-token credential and access reconciliation pending"
  let conditions :=
    if tokenLive then pending
    else (replaceCondition pending
      ⟨"TokenIssued", "False", "TokenPending", "delegation token not yet issued"⟩).filter
        (·.type ≠ "TokenExpiring")
  sendPatch (.failure conditions)
  pure conditions

/-- Reason, message and requeue of an error. -/
def classifyAdminError (cfg : Config) (op : String) : AdminError → String × String × Time
  | .broker _ e =>
    if e.code = 42 then
      ("InvalidSpec", op ++ ": INVALID_REQUEST (42)", cfg.delegationTokenInvalidRequeue)
    else if e.code = 61 then
      ("BrokerAuthDisabled", op ++ ": DELEGATION_TOKEN_AUTH_DISABLED (61)",
        cfg.delegationTokenTransientBackoff)
    else if e.code = 64 then
      ("OperatorTokenAuthed", op ++ ": DELEGATION_TOKEN_REQUEST_NOT_ALLOWED (64)",
        cfg.delegationTokenTransientBackoff)
    else if e.code = 65 then
      ("OperatorNotSuperUser", op ++ ": DELEGATION_TOKEN_AUTHORIZATION_FAILED (65)",
        cfg.delegationTokenTransientBackoff)
    else
      ("BrokerError", (AdminError.broker "" e).detail op, cfg.delegationTokenTransientBackoff)
  | .other transport text =>
    ("Transport", (AdminError.other transport text).detail op, cfg.delegationTokenTransientBackoff)

def onAdminError (cfg : Config) (e : AdminError) (op : String)
    (priorConditions : Option (List Condition)) (tokenLive : Bool) : Op ReconcileOutcome := do
  let (reason, message, requeue) := classifyAdminError cfg op e
  let failed := replaceReadyCondition (priorConditions.getD []) "False" reason message
  let conditions :=
    if tokenLive then failed
    else (replaceCondition failed ⟨"TokenIssued", "False", reason, message⟩).filter
      (·.type ≠ "TokenExpiring")
  sendPatch (.failure conditions)
  pure ⟨.requeue requeue, none, none, false⟩

variable (lib : Lib) (cfg : Config)

/-- The owner is the text of a principal, which the client parses. -/
def describeDelegationTokensOwnedBy (owner : String) :
    Op (Except AdminError (List DelegationToken)) :=
  match lib.parsePrincipal owner with
  | .error message => pure (.error (.other false message))
  | .ok principal => admin (.describeDelegationToken principal)

/-- `create_delegation_token_as_owner`, for the renewers and the lifetime of the spec. -/
def issueNewToken (name : String) (auth : DelegationTokenAuth) :
    Op (Except AdminError DelegationToken) :=
  match auth.renewers.mapM lib.parsePrincipal with
  | .error message => pure (.error (.other false message))
  | .ok renewers => admin (.createDelegationToken ⟨"User", name⟩ renewers auth.maxLifetime)

/-- A live token and the pending conditions that were published, or an early end. -/
inductive TokenStep where
  | live (token : DelegationToken) (pending : Option (List Condition))
  | done (out : ReconcileOutcome)
  deriving DecidableEq, Repr

/-- The end of the arms that issue a token. -/
def issueStep (name : String) (auth : DelegationTokenAuth) (pending : List Condition) :
    Op TokenStep := do
  match ← issueNewToken lib name auth with
  | .ok token => pure (.live token (some pending))
  | .error e => do
    let out ← onAdminError cfg e "CreateDelegationToken" (some pending) false
    pure (.done out)

/-- The arms of the decision that work on a token. -/
def driveExisting (obj : KafkaUser) (auth : DelegationTokenAuth) (nowMs : Int)
    (token : DelegationToken) : ReconcileDecision → Op TokenStep
  | .create | .noOp => pure (.live token none)
  | .renew => do
    match ← admin (.renewDelegationToken token.hmac) with
    | .ok expiryTimestampMs => pure (.live { token with expiryTimestampMs } none)
    | .error e => do
      let out ← onAdminError cfg e "RenewDelegationToken"
        (some (conditionsWithHistory obj token auth nowMs)) true
      pure (.done out)
  | .cycle => do
    let liveConditions := conditionsWithHistory obj token auth nowMs
    let pending ← publishTokenPending liveConditions true
    match ← admin (.expireDelegationToken token.hmac) with
    | .ok _ => issueStep lib cfg obj.name auth pending
    | .error e => do
      let out ← onAdminError cfg e "ExpireDelegationToken" (some liveConditions) true
      pure (.done out)

/-- Drive the decision. There is no token exactly when the decision is to create one. -/
def drive (obj : KafkaUser) (auth : DelegationTokenAuth) (nowMs : Int)
    (existing : Option DelegationToken) : Op TokenStep := do
  match existing with
  | none => do
    let pending ← publishTokenPending ((obj.status.map (·.conditions)).getD []) false
    issueStep lib cfg obj.name auth pending
  | some token =>
    driveExisting lib cfg obj auth nowMs token (decide lib.printPrincipal auth (some token) nowMs)

/-- The token of the status, or else the first one. -/
def matchingToken (obj : KafkaUser) (existing : List DelegationToken) : Option DelegationToken :=
  ((obj.status >>= (·.delegationTokenId)) >>= fun id => existing.find? (·.tokenId = id)).or
    existing.head?

/-- The Secret of a token. -/
def secretToken (token : DelegationToken) : User.DelegationToken :=
  ⟨token.tokenId.toList, token.hmac, lib.base64 token.hmac⟩

/-- `build_secret`: the owner reference needs the uid of the user. -/
def buildSecret (obj : KafkaUser) (token : DelegationToken) : Except ReconcileError SecretConfig :=
  match obj.uid with
  | none => .error .missingUid
  | some _ => .ok ⟨∅, User.tokenData (secretToken lib token)⟩

/-- A token that is new to the status is announced, unless that has been done. -/
def announceToken (obj : KafkaUser) (token : DelegationToken) (fresh : List Condition)
    (published : Option (List Condition)) : Op (Option (List Condition)) :=
  if published.isNone && !statusHasCurrentReadyToken obj token then
    some <$> publishTokenPending fresh true
  else
    pure published

/-- Record the token, and write its Secret. -/
def persistToken (obj : KafkaUser) (auth : DelegationTokenAuth) (nowMs : Int)
    (token : DelegationToken) (published : Option (List Condition)) : Op ReconcileOutcome := do
  let fresh := conditionsWithHistory obj token auth nowMs
  let pending ← announceToken obj token fresh published
  let conditions := (pending.map (inheritPublishedReady fresh)).getD fresh
  sendPatch (.identity token.owner.name token.tokenId token.expiryTimestampMs token.maxTimestampMs
    pending)
  let secret ← Prog.ofExcept (buildSecret lib obj token)
  match ← (onStore (applySecret obj.name secret)).attempt with
  | .error e => do
    sendPatch (.failure (replaceReadyCondition (pending.getD conditions) "False" "SecretWriteFailed"
      (lib.errorText e)))
    .fail e
  | .ok _ =>
    let requeue := computeRequeue token auth nowMs cfg.delegationTokenMinRequeue
      cfg.delegationTokenMaxRequeue
    pure ⟨.requeue requeue, some conditions, some requeue, pending.isSome⟩

/-- One pass over the token of a user. -/
def reconcileToken (obj : KafkaUser) (auth : DelegationTokenAuth) (nowMs : Int) :
    Op ReconcileOutcome := do
  match ← describeDelegationTokensOwnedBy lib ("User:" ++ obj.name) with
  | .error e =>
    let prior := existingTokenConditions obj
    onAdminError cfg e "DescribeDelegationToken" prior prior.isSome
  | .ok existing =>
    match ← drive lib cfg obj auth nowMs (matchingToken obj existing) with
    | .done out => pure out
    | .live token pending => persistToken lib cfg obj auth nowMs token pending

/-- Expires the tokens in order, up to the first error. -/
def expireTokens : List DelegationToken → Op (Except AdminError Unit)
  | [] => pure (.ok ())
  | token :: tokens => do
    match ← admin (.expireDelegationToken token.hmac) with
    | .error e => pure (.error e)
    | .ok _ => expireTokens tokens

/-- Expires the tokens that the user owns. -/
def expireOwnedTokens (name : String) : Op (Except AdminError Unit) := do
  match ← describeDelegationTokensOwnedBy lib ("User:" ++ name) with
  | .error e => pure (.error e)
  | .ok tokens => expireTokens tokens

end Access
