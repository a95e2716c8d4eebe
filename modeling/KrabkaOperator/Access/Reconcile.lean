-- SUMMARY: One pass over a KafkaUser: its checks, its deletion, its credentials, and its ACLs and quotas on the brokers.
import KrabkaOperator.Access.Token

/-!
# One pass over a user

The checks come first, then the deletion, then the credentials of the authentication, and
last the ACLs and quotas under the principal that this authentication has.
-/

namespace Access

open Kube Crd Operator Admin

variable (lib : Lib) (cfg : Config)

/-! ## Status -/

/-- What `patch_status` needs besides the resource. -/
structure StatusArgs where
  status : String
  reason : String
  message : String
  credentials : CredentialStatus := {}
  tlsCertNotAfter : Option String
  tlsPrincipal : Option String
  advanceGeneration : Bool := false
  quotasInSync : Bool

/-- Flags that are set stay set. -/
def CredentialStatus.keep (c : CredentialStatus) (prior : Option KafkaUserStatus) :
    CredentialStatus where
  scramSha512 := c.scramSha512 || (prior.map (·.scramSha512)).getD false
  scramSha256 := c.scramSha256 || (prior.map (·.scramSha256)).getD false
  tls := c.tls || (prior.map (·.tls)).getD false
  external := c.external || (prior.map (·.external)).getD false

def patchStatus (obj : KafkaUser) (p : StatusArgs) : Op Unit :=
  sendPatch (.full [⟨"Ready", p.status, p.reason, p.message⟩]
    (if p.advanceGeneration then obj.generation else obj.status >>= (·.observedGeneration))
    obj.name
    (if p.credentials.scramSha512 || p.credentials.scramSha256 || p.credentials.tls then some obj.name
      else obj.status >>= (·.secret))
    (p.credentials.keep obj.status) p.tlsCertNotAfter p.tlsPrincipal p.quotasInSync)

/-- A report of a pass that stops: what the status had before stays. -/
def reportFailure (obj : KafkaUser) (reason message : String) : Op Unit :=
  patchStatus obj {
    status := "False", reason, message
    credentials := {
      tls := (obj.status.map (·.tls)).getD false
      external := (obj.status.map (·.external)).getD false }
    tlsCertNotAfter := obj.status >>= (·.tlsCertNotAfter)
    tlsPrincipal := obj.status >>= (·.tlsPrincipal)
    quotasInSync := (obj.status.map (·.quotasInSync)).getD false }

/-! ## Checks -/

inductive UserPreparation where
  | ready (cluster bootstrap : String) (parent : Parent)
  | done (action : Action)

/-- The checks of a pass: the label, the name of a user that lives, the spec, the parent. -/
def prepareUser (obj : KafkaUser) : Op UserPreparation := do
  match obj.cluster? with
  | none => do
    reportFailure obj "MissingClusterLabel" "metadata.labels[\"krabka.io/cluster\"] is required"
    pure (.done (.requeue cfg.controllerDriftRequeue))
  | some cluster =>
    match if obj.deleting then .ok () else User.validateReservedIdentity obj.name cluster with
    | .error message => do
      reportFailure obj "InvalidSpec" message
      pure (.done (.requeue cfg.controllerInvalidRequeue))
    | .ok _ =>
      match validateSpec lib.human obj.authentication obj.authorization with
      | .error message => do
        reportFailure obj "InvalidSpec" message
        pure (.done (.requeue cfg.controllerInvalidRequeue))
      | .ok _ => do
        let kafka ← getKafka cluster
        match kafka, kafka >>= operatorListenerBootstrap with
        | some parent, some bootstrap => pure (.ready cluster bootstrap parent)
        | _, _ => do
          reportFailure obj "ClusterNotReady"
            ("Kafka/" ++ cluster ++ " not Ready or no internal listener")
          pure (.done (.requeue cfg.controllerDependencyRequeue))

/-! ## Deletion -/

/-- The mechanism of the SCRAM types: whether it is SHA-512. -/
def scramMechanism? : Authentication → Option Bool
  | .scramSha512 _ => some true
  | .scramSha256 _ => some false
  | _ => none

/-- Deletes the SCRAM credential of the mechanism that the user has now. -/
def deleteScram (obj : KafkaUser) : Op Unit :=
  match scramMechanism? obj.authentication with
  | none => pure ()
  | some sha512 => admin (.alterScram sha512 [] [obj.name]) >>= fun _ => pure ()

def deleteTokens (obj : KafkaUser) : Op Unit :=
  match obj.authentication with
  | .delegationToken _ => expireOwnedTokens lib obj.name >>= fun _ => pure ()
  | _ => pure ()

/-- Removes every quota that the brokers have. -/
def deleteQuotas (username : String) : Op Unit := do
  match ← admin (.describeUserQuotas username) with
  | .error _ => pure ()
  | .ok current =>
    if current.isEmpty then
      pure ()
    else do
      let _ ← admin (.alterUserQuotas username (current.keys.map .remove))
      pure ()

/-- Best effort: an error does not keep the finalizer. -/
def cleanUp (obj : KafkaUser) (principal bootstrap : String) : Op Unit := do
  match ← admin (.connect bootstrap) with
  | .error _ => pure ()
  | .ok _ => do
    deleteScram obj
    deleteTokens lib obj
    let _ ← admin (.deleteAcls [{ principal := some principal }])
    deleteQuotas (quotaUsername principal)

/-- The end of a pass over a deleted user, or over one without the finalizer. -/
def handleUserLifecycle (obj : KafkaUser) (principal bootstrap : String) : Op (Option Action) :=
  if obj.deleting then do
    cleanUp lib obj principal bootstrap
    setFinalizers []
    pure (some .awaitChange)
  else if !obj.hasFinalizer then do
    setFinalizers [finalizer]
    pure (some (.requeue 0))
  else
    pure none

/-! ## Credentials -/

/-- The state of the token that goes on to the ACLs and quotas. -/
structure TokenAccessState where
  tokenRequeue : Time
  conditions : List Condition
  pendingPublished : Bool
  deriving DecidableEq, Repr

/-- What the credentials hand on, or the end of the pass. -/
inductive Provisioned where
  | ready (tlsNotAfter : Option String) (token : Option TokenAccessState)
  | done (action : Action)
  deriving DecidableEq, Repr

def provisionScram (obj : KafkaUser) (bootstrap : String) (sha512 : Bool) (auth : ScramAuth) :
    Op Provisioned := do
  match ← (onStore (User.ensurePasswordSecret lib.ca obj.toKafkaUser
      (auth.passwordLength.getD 32))).attempt with
  | .error _ => pure (.done (.requeue cfg.controllerErrorRequeue))
  | .ok password =>
    match ← admin (.connect bootstrap) with
    | .error _ => pure (.done (.requeue cfg.controllerErrorRequeue))
    | .ok _ =>
      match ← admin (.alterScram sha512
          [⟨obj.name, password, auth.iterations.getD lib.defaultScramIterations⟩] []) with
      | .error _ => pure (.done (.requeue cfg.controllerErrorRequeue))
      | .ok outcomes =>
        match outcomes.findSome? id with
        | some e => do
          reportFailure obj "BrokerError"
            ((AdminError.broker "" e).detail "AlterUserScramCredentials")
          pure (.done (.requeue cfg.controllerErrorRequeue))
        | none => pure (.ready none none)

def provisionTls (obj : KafkaUser) (parent : Parent) (auth : TlsAuth) : Op Provisioned := do
  match ← (onStore (User.reconcileUserCertSecret lib.ca obj.toKafkaUser parent.kafka auth)).attempt with
  | .error _ => pure (.done (.requeue cfg.controllerErrorRequeue))
  | .ok status => pure (.ready (some status.notAfter) none)

def provisionToken (obj : KafkaUser) (bootstrap : String) (auth : DelegationTokenAuth) :
    Op Provisioned := do
  match ← admin (.connect bootstrap) with
  | .error e => do
    let prior := existingTokenConditions obj
    let out ← onAdminError cfg e "Connect" prior prior.isSome
    pure (.done out.action)
  | .ok _ => do
    let now ← nowMs
    let out ← reconcileToken lib cfg obj auth now
    match out.conditions, out.tokenRequeue with
    | some conditions, some tokenRequeue =>
      pure (.ready none (some ⟨tokenRequeue, conditions, out.pendingPublished⟩))
    | _, _ => pure (.done out.action)

def provision (obj : KafkaUser) (bootstrap : String) (parent : Parent) : Op Provisioned :=
  match obj.authentication with
  | .scramSha512 auth => provisionScram lib cfg obj bootstrap true auth
  | .scramSha256 auth => provisionScram lib cfg obj bootstrap false auth
  | .tls auth => provisionTls lib cfg obj parent auth
  | .tlsExternal => pure (.ready none none)
  | .delegationToken auth => provisionToken lib cfg obj bootstrap auth

/-! ## ACLs and quotas -/

def userAccessBrokerError (obj : KafkaUser) (e : AdminError) (op : String)
    (token : Option TokenAccessState) : Op Action :=
  match token with
  | none => do
    reportFailure obj "BrokerError" (e.detail op)
    pure (.requeue cfg.controllerErrorRequeue)
  | some token => do
    let reason := match e with
      | .broker _ _ => "BrokerError"
      | .other _ _ => "Transport"
    sendPatch (.failure (replaceReadyCondition token.conditions "False" reason (e.detail op)))
    pure (.requeue (min cfg.controllerErrorRequeue token.tokenRequeue))

/-- An error of a read: only a pass over a token reports it. -/
def readError (obj : KafkaUser) (e : AdminError) (op : String) (token : Option TokenAccessState) :
    Op Action :=
  if token.isSome then userAccessBrokerError cfg obj e op token
  else pure (.requeue cfg.controllerErrorRequeue)

/-- Publishes that ACLs or quotas are about to change, once for a pass. -/
def ensureTokenAccessPending : Option TokenAccessState → Op (Option TokenAccessState)
  | none => pure none
  | some token =>
    if token.pendingPublished then
      pure (some token)
    else do
      let conditions := replaceReadyCondition token.conditions "False" "AccessPending"
        "delegation token issued; ACL and quota reconciliation pending"
      sendPatch (.failure conditions)
      pure (some { token with conditions, pendingPublished := true })

/-- The first error of a call on several items. -/
def outcomesError (api : String) : Except AdminError (List (Option KafkaError)) → Option AdminError
  | .error e => some e
  | .ok outcomes => (outcomes.findSome? id).map (.broker api)

/-- The state after a stage, or the end of the pass. -/
inductive Synced (α : Type) where
  | ok (value : α)
  | done (action : Action)

def announceChange (changed : Bool) (token : Option TokenAccessState) :
    Op (Option TokenAccessState) :=
  if changed then ensureTokenAccessPending token else pure token

def applyCreateAcls (additions : List AclEntry) : Op (Option AdminError) :=
  if additions = [] then pure none
  else outcomesError "CreateAcls" <$> admin (.createAcls additions)

def applyDeleteAcls (deletions : List AclEntry) : Op (Option AdminError) :=
  if deletions = [] then pure none
  else outcomesError "DeleteAcls" <$> admin (.deleteAcls (deletions.map entryToExactFilter))

/-- Applies the additions and then the deletions of a diff. -/
def applyAcls (obj : KafkaUser) (additions deletions : List AclEntry)
    (token : Option TokenAccessState) : Op (Synced (Option TokenAccessState)) := do
  let token ← announceChange (additions ≠ [] || deletions ≠ []) token
  match ← applyCreateAcls additions with
  | some e => .done <$> userAccessBrokerError cfg obj e "CreateAcls" token
  | none =>
    match ← applyDeleteAcls deletions with
    | some e => .done <$> userAccessBrokerError cfg obj e "DeleteAcls" token
    | none => pure (.ok token)

/-- Without authorization in the spec the ACLs of the brokers stay as they are. -/
def reconcileAcls (obj : KafkaUser) (principal : String) (token : Option TokenAccessState) :
    Op (Synced (Option TokenAccessState)) := do
  match obj.authorization with
  | none => pure (.ok token)
  | some _ =>
    match ← admin (.describeAcls { principal := some principal }) with
    | .error e => .done <$> readError cfg obj e "DescribeAcls" token
    | .ok current =>
      let (additions, deletions) := diffAcls current (expandSpecAcls obj.authorization principal)
      applyAcls cfg obj additions deletions token

/-- Without quotas in the spec the quotas of the brokers stay as they are. -/
def reconcileQuotas (obj : KafkaUser) (username : String) (token : Option TokenAccessState) :
    Op (Synced (Bool × Option TokenAccessState)) := do
  match obj.quotas with
  | none => pure (.ok (false, token))
  | some quotas =>
    match ← admin (.describeUserQuotas username) with
    | .error e => .done <$> readError cfg obj e "DescribeClientQuotas" token
    | .ok current =>
      let ops := lib.diffUserQuotas current quotas.toQuotaMap
      if ops = [] then
        pure (.ok (true, token))
      else do
        let token ← ensureTokenAccessPending token
        match ← admin (.alterUserQuotas username ops) with
        | .error e => .done <$> userAccessBrokerError cfg obj e "AlterClientQuotas" token
        | .ok (some e) =>
          .done <$> userAccessBrokerError cfg obj (.broker "AlterClientQuotas" e) "AlterClientQuotas"
            token
        | .ok none => pure (.ok (true, token))

/-- The requeue of the types without a token. -/
def driftRequeue : Authentication → Time
  | .tls _ => cfg.userTlsDriftRequeue
  | _ => cfg.controllerDriftRequeue

/-- The final status of a pass. -/
def publishReady (obj : KafkaUser) (principal : String) (tlsNotAfter : Option String)
    (quotasInSync : Bool) (token : Option TokenAccessState) : Op Action :=
  match token with
  | some token => do
    sendPatch (.access (replaceReadyCondition token.conditions "True" "TokenReady"
      "delegation token, Secret, ACLs, and quotas in sync") obj.generation quotasInSync)
    pure (.requeue (min token.tokenRequeue cfg.controllerDriftRequeue))
  | none => do
    let isTls := match obj.authentication with
      | .tls _ => true
      | _ => false
    let isExternal : Bool := obj.authentication = .tlsExternal
    patchStatus obj {
      status := "True", reason := "Ready", message := "user in sync"
      credentials := {
        scramSha512 := scramMechanism? obj.authentication = some true
        scramSha256 := scramMechanism? obj.authentication = some false
        tls := isTls && tlsNotAfter.isSome
        external := isExternal }
      tlsCertNotAfter := tlsNotAfter
      tlsPrincipal := if isTls || isExternal then some principal else obj.status >>= (·.tlsPrincipal)
      advanceGeneration := true
      quotasInSync }
    pure (.requeue (driftRequeue cfg obj.authentication))

def reconcileAccess (obj : KafkaUser) (bootstrap principal : String) (tlsNotAfter : Option String)
    (token : Option TokenAccessState) : Op Action := do
  match ← admin (.connect bootstrap) with
  | .error e => readError cfg obj e "Connect" token
  | .ok _ =>
    match ← reconcileAcls cfg obj principal token with
    | .done action => pure action
    | .ok token =>
      match ← reconcileQuotas lib cfg obj (quotaUsername principal) token with
      | .done action => pure action
      | .ok (quotasInSync, token) => publishReady cfg obj principal tlsNotAfter quotasInSync token

/-! ## The pass -/

def reconcileInner (obj : KafkaUser) : Op Action := do
  match ← prepareUser lib cfg obj with
  | .done action => pure action
  | .ready _ bootstrap parent =>
    let principal := principalFor obj.name obj.authentication
    match ← handleUserLifecycle lib obj principal bootstrap with
    | some action => pure action
    | none =>
      match ← provision lib cfg obj bootstrap parent with
      | .done action => pure action
      | .ready tlsNotAfter token =>
        reconcileAccess lib cfg obj bootstrap principal tlsNotAfter token

/-! ## The world -/

/-- The brokers as the admin client sees them: any state, and any way to answer. -/
structure Brokers (β : Type) where
  answer : (r : AdminReq) → (nowMs : Int) → β → AdminResp r × β

structure World (β : Type) where
  user : KafkaUser
  kafkas : List Parent
  store : Operator.World
  brokers : β
  /-- The time in milliseconds. -/
  clock : Int

def World.kafka? {β : Type} (w : World β) (name : String) : Option Parent :=
  w.kafkas.find? (·.kafka.name = name)

/-- The API server carries out every request. -/
def answer {β : Type} (brokers : Brokers β) : (r : Req) → World β → Resp r × World β
  | .getKafka name, w => (.ok (w.kafka? name), w)
  | .patchStatus patch, w =>
    (.ok (), { w with user := { w.user with status := some (patch.apply w.user.status) } })
  | .setFinalizers finalizers, w =>
    (.ok (), { w with user := { w.user with finalizers := finalizers } })
  | .store r, w =>
    ((Operator.answer r { clock := w.clock / 1000 } w.store).1,
      { w with store := (Operator.answer r { clock := w.clock / 1000 } w.store).2 })
  | .admin r, w => ((brokers.answer r w.clock w.brokers).1,
      { w with brokers := (brokers.answer r w.clock w.brokers).2 })
  | .now, w => (w.clock, w)

/-- One pass over the stored resource. -/
def pass {β : Type} (brokers : Brokers β) (w : World β) : Except ReconcileError Action × World β :=
  (reconcileInner lib cfg w.user).complete (answer brokers) w

end Access
