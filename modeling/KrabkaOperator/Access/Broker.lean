-- SUMMARY: Brokers that carry out every call of a user pass: SCRAM credentials, ACLs, quotas and delegation tokens, with what each call changes.
import KrabkaOperator.Access.Deletion

/-!
# The brokers of a user

The state of the brokers as far as users go. Every call succeeds, except that a token that
has expired cannot be renewed. A renewed expiry never goes beyond the maximum of the token.
-/

namespace Access

open Kube Crd Operator Admin

/-! ## State -/

structure ScramCredential where
  sha512 : Bool
  username : String
  password : List Char
  iterations : Int
  deriving DecidableEq, Repr

structure BrokerState where
  scram : List ScramCredential := []
  acls : List AclEntry := []
  quotas : BTreeMap QuotaMap := ∅
  tokens : List DelegationToken := []
  /-- The number of tokens so far. -/
  issued : Nat := 0

/-- The settings of the brokers for tokens. -/
structure BrokerConfig where
  renewPeriodMs : Int
  maxLifetimeMs : Int
  /-- The id and the secret of each new token. -/
  mint : Nat → String × ByteString

def AclEntryFilter.Matches (f : AclEntryFilter) (e : AclEntry) : Prop :=
  (∀ x, f.resourceType = some x → e.resourceType = x) ∧
  (∀ x, f.resourceName = some x → e.resourceName = x) ∧
  (∀ x, f.patternType = some x → e.patternType = x) ∧
  (∀ x, f.principal = some x → e.principal = x) ∧
  (∀ x, f.host = some x → e.host = x) ∧
  (∀ x, f.operation = some x → e.operation = x) ∧
  (∀ x, f.permissionType = some x → e.permissionType = x)

instance instDecidableFieldMatches {α : Type} [DecidableEq α] (o : Option α) (y : α) :
    Decidable (∀ x, o = some x → y = x) :=
  match o with
  | none => isTrue fun _ h => by cases h
  | some z => decidable_of_iff (y = z) ⟨fun h _ hx => h.trans (Option.some_inj.mp hx), fun h => h z rfl⟩

instance (f : AclEntryFilter) (e : AclEntry) : Decidable (f.Matches e) :=
  inferInstanceAs (Decidable (_ ∧ _ ∧ _ ∧ _ ∧ _ ∧ _ ∧ _))

def QuotaOp.apply (m : QuotaMap) : QuotaOp → QuotaMap
  | .set key value => m.insert key value
  | .remove key => m.erase key

namespace BrokerState

/-- The quotas under a name. -/
def quota (b : BrokerState) (username : String) : QuotaMap := b.quotas[username]?.getD ∅

def alterScram (b : BrokerState) (sha512 : Bool) (upsertions : List ScramUpsertion)
    (deletions : List String) : BrokerState :=
  { b with scram :=
      b.scram.filter (fun c =>
        ¬ (c.sha512 = sha512 ∧ (c.username ∈ deletions ∨ c.username ∈ upsertions.map (·.username)))) ++
      upsertions.map fun u => ⟨sha512, u.username, u.password, u.iterations⟩ }

def alterQuotas (b : BrokerState) (username : String) (ops : List QuotaOp) : BrokerState :=
  { b with quotas := b.quotas.insert username (ops.foldl QuotaOp.apply (b.quota username)) }

variable (bc : BrokerConfig)

/-- A token that is made now. -/
def newToken (b : BrokerState) (owner : KafkaPrincipal) (renewers : List KafkaPrincipal)
    (maxLifetime : Option Time) (nowMs : Int) : DelegationToken :=
  let maxTimestampMs := nowMs + match maxLifetime with
    | none => bc.maxLifetimeMs
    | some t => min (t / 1000000) bc.maxLifetimeMs
  { tokenId := (bc.mint b.issued).1
    owner
    hmac := (bc.mint b.issued).2
    expiryTimestampMs := min (nowMs + bc.renewPeriodMs) maxTimestampMs
    maxTimestampMs
    renewers }

/-- The expiry after a renewal. -/
def renewedExpiry (t : DelegationToken) (nowMs : Int) : Int :=
  min (nowMs + bc.renewPeriodMs) t.maxTimestampMs

def renew (b : BrokerState) (hmac : ByteString) (nowMs : Int) : BrokerState :=
  { b with tokens := b.tokens.map fun t =>
      if t.hmac = hmac then { t with expiryTimestampMs := renewedExpiry bc t nowMs } else t }

end BrokerState

def tokenError (code : Int) (name : String) : AdminError := .broker "RenewDelegationToken" ⟨code, name, none⟩

/-- Every call that can succeed succeeds. -/
def healthy (bc : BrokerConfig) : Brokers BrokerState where
  answer
    | .connect _, _, b => (.ok (), b)
    | .alterScram sha512 upsertions deletions, _, b =>
      (.ok [], b.alterScram sha512 upsertions deletions)
    | .describeAcls f, _, b => (.ok (b.acls.filter f.Matches), b)
    | .createAcls entries, _, b => (.ok [], { b with acls := b.acls ++ entries })
    | .deleteAcls filters, _, b =>
      (.ok [], { b with acls := b.acls.filter fun e => ¬ ∃ f ∈ filters, f.Matches e })
    | .describeUserQuotas username, _, b => (.ok (b.quota username), b)
    | .alterUserQuotas username ops, _, b => (.ok none, b.alterQuotas username ops)
    | .createDelegationToken owner renewers maxLifetime, now, b =>
      (.ok (b.newToken bc owner renewers maxLifetime now), { b with
        tokens := b.tokens ++ [b.newToken bc owner renewers maxLifetime now]
        issued := b.issued + 1 })
    | .renewDelegationToken hmac, now, b =>
      match b.tokens.find? (·.hmac = hmac) with
      | none => (.error (tokenError 62 "DELEGATION_TOKEN_NOT_FOUND"), b)
      | some t =>
        if t.expiryTimestampMs < now then
          (.error (tokenError 66 "DELEGATION_TOKEN_EXPIRED"), b)
        else
          (.ok (BrokerState.renewedExpiry bc t now), b.renew bc hmac now)
    | .expireDelegationToken hmac, _, b =>
      (.ok (), { b with tokens := b.tokens.filter (·.hmac ≠ hmac) })
    | .describeDelegationToken owner, _, b => (.ok (b.tokens.filter (·.owner = owner)), b)

end Access
