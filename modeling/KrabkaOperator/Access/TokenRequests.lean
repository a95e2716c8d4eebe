-- SUMMARY: The requests that a pass over a delegation token makes, stage by stage: which are quiet, and which renewers it creates a token with.
import KrabkaOperator.Access.Token

/-!
# Requests of a token pass

Most stages of a pass over a token only patch the status and write the Secret. The others
describe, create, renew or expire tokens, and create one only with the renewers of the spec.
-/

namespace Access

open Kube Crd Operator Admin

/-- The requests that do not call the brokers. -/
def Quiet : Req → Prop
  | .patchStatus _ => True
  | .store _ => True
  | _ => False

/-- The requests of a pass over the token of a user. -/
inductive TokenRequest (lib : Lib) (name : String) (auth : DelegationTokenAuth) : Req → Prop
  | quiet {r : Req} (h : Quiet r) : TokenRequest lib name auth r
  | describe (owner : KafkaPrincipal) :
    TokenRequest lib name auth (.admin (.describeDelegationToken owner))
  | create {renewers : List KafkaPrincipal} (h : auth.renewers.mapM lib.parsePrincipal = .ok renewers) :
    TokenRequest lib name auth
      (.admin (.createDelegationToken ⟨"User", name⟩ renewers auth.maxLifetime))
  | renew (hmac : ByteString) : TokenRequest lib name auth (.admin (.renewDelegationToken hmac))
  | expire (hmac : ByteString) : TokenRequest lib name auth (.admin (.expireDelegationToken hmac))

variable {lib : Lib} {cfg : Config} {obj : KafkaUser} {name : String} {auth : DelegationTokenAuth}

/-! ## The decision -/

/-- The decisions over a token that is there. -/
theorem decide_some (print : KafkaPrincipal → String) (auth : DelegationTokenAuth)
    (token : DelegationToken) (nowMs : Int) :
    (decide print auth (some token) nowMs = .cycle ∧
        sameSet auth.renewers (token.renewers.map print) = false) ∨
      ((decide print auth (some token) nowMs = .renew ∨ decide print auth (some token) nowMs = .noOp) ∧
        sameSet auth.renewers (token.renewers.map print) = true) := by
  unfold decide
  dsimp only
  cases hsame : sameSet auth.renewers (token.renewers.map print) with
  | false => exact .inl ⟨rfl, rfl⟩
  | true =>
    simp only [Bool.not_true, Bool.false_eq_true, ↓reduceIte]
    split
    · exact .inr ⟨.inl rfl, trivial⟩
    · exact .inr ⟨.inr rfl, trivial⟩

theorem mem_of_matchingToken {token : DelegationToken} {existing : List DelegationToken}
    (h : matchingToken obj existing = some token) : token ∈ existing := by
  unfold matchingToken at h
  rcases Option.or_eq_some_iff.mp h with hid | ⟨_, hhead⟩
  · obtain ⟨id, _, hfind⟩ := Option.bind_eq_some_iff.mp hid
    exact List.mem_of_find?_eq_some hfind
  · exact List.mem_of_head? hhead

/-! ## Quiet stages -/

theorem kube_makes {R : Req → Prop} {α : Type} (x : Except KubeError α) : (kube x).Makes R := by
  cases x with
  | ok a => trivial
  | error e => trivial

theorem sendPatch_makes (patch : StatusPatch) : (sendPatch patch).Makes Quiet :=
  Prog.makes_request trivial kube_makes

theorem onStore_makes {α : Type} (p : Operator.Op α) : (onStore p).Makes Quiet :=
  (Prog.makes_any p).refined fun _ _ => ⟨trivial, fun _ => trivial⟩

theorem onAdminError_makes (e : AdminError) (op : String) (prior : Option (List Condition))
    (tokenLive : Bool) : (onAdminError cfg e op prior tokenLive).Makes Quiet :=
  (sendPatch_makes _).bind fun _ => trivial

theorem publishTokenPending_makes (prior : List Condition) (tokenLive : Bool) :
    (publishTokenPending prior tokenLive).Makes Quiet :=
  (sendPatch_makes _).bind fun _ => trivial

theorem announceToken_makes (token : DelegationToken) (fresh : List Condition)
    (published : Option (List Condition)) : (announceToken obj token fresh published).Makes Quiet := by
  apply Prog.makes_ite
  · exact (publishTokenPending_makes _ _).bind fun _ => trivial
  · trivial

theorem persistToken_makes (nowMs : Int) (token : DelegationToken)
    (published : Option (List Condition)) :
    (persistToken lib cfg obj auth nowMs token published).Makes Quiet := by
  apply (announceToken_makes _ _ _).bind
  intro pending
  apply (sendPatch_makes _).bind
  intro _
  apply Prog.Makes.bind
  · cases buildSecret lib obj token with
    | ok secret => trivial
    | error e => trivial
  · intro secret
    apply (onStore_makes _).attempt_bind
    · exact fun e => (sendPatch_makes _).bind fun _ => trivial
    · exact fun _ => trivial

/-! ## Stages that call the brokers -/

theorem describeTokens_makes (owner : String) :
    (describeDelegationTokensOwnedBy lib owner).Makes (TokenRequest lib name auth) := by
  unfold describeDelegationTokensOwnedBy
  cases lib.parsePrincipal owner with
  | error message => trivial
  | ok principal => exact ⟨.describe principal, fun _ => trivial⟩

theorem issueNewToken_makes : (issueNewToken lib name auth).Makes (TokenRequest lib name auth) := by
  unfold issueNewToken
  cases hrenewers : auth.renewers.mapM lib.parsePrincipal with
  | error message => trivial
  | ok renewers => exact ⟨.create hrenewers, fun _ => trivial⟩

/-- The report of an error of the brokers, and the end of the pass. -/
theorem stop_makes (e : AdminError) (op : String) (prior : Option (List Condition))
    (tokenLive : Bool) : (onAdminError cfg e op prior tokenLive >>= fun out =>
      pure (TokenStep.done out)).Makes Quiet :=
  (onAdminError_makes _ _ _ _).bind fun _ => trivial

theorem issueStep_makes (pending : List Condition) :
    (issueStep lib cfg name auth pending).Makes (TokenRequest lib name auth) := by
  apply issueNewToken_makes.bind
  intro issued
  cases issued with
  | ok token => trivial
  | error e => exact (stop_makes _ _ _ _).mono fun _ => .quiet

theorem driveExisting_makes (nowMs : Int) (token : DelegationToken) (decision : ReconcileDecision) :
    (driveExisting lib cfg obj auth nowMs token decision).Makes (TokenRequest lib obj.name auth) := by
  cases decision with
  | create => trivial
  | noOp => trivial
  | renew =>
    apply Prog.makes_request
    · exact .renew token.hmac
    · intro renewed
      cases renewed with
      | ok expiry => trivial
      | error e => exact (stop_makes _ _ _ _).mono fun _ => .quiet
  | cycle =>
    apply ((publishTokenPending_makes _ _).mono fun _ => .quiet).bind
    intro pending
    apply Prog.makes_request
    · exact .expire token.hmac
    · intro expired
      cases expired with
      | ok u => exact issueStep_makes _
      | error e => exact (stop_makes _ _ _ _).mono fun _ => .quiet

theorem drive_makes (nowMs : Int) (existing : Option DelegationToken) :
    (drive lib cfg obj auth nowMs existing).Makes (TokenRequest lib obj.name auth) := by
  cases existing with
  | none =>
    apply ((publishTokenPending_makes _ _).mono fun _ => .quiet).bind
    exact fun _ => issueStep_makes _
  | some token => exact driveExisting_makes _ _ _

theorem reconcileToken_makes (nowMs : Int) :
    (reconcileToken lib cfg obj auth nowMs).Makes (TokenRequest lib obj.name auth) := by
  apply (describeTokens_makes _).bind
  intro described
  cases described with
  | error e => exact (onAdminError_makes _ _ _ _).mono fun _ => .quiet
  | ok existing =>
    apply (drive_makes _ _).bind
    intro driven
    cases driven with
    | done out => trivial
    | live token pending => exact (persistToken_makes _ _ _).mono fun _ => .quiet

end Access
