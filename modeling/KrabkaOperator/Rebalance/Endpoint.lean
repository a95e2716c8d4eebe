-- SUMMARY: Where a pass calls the rebalancer, and with which credential.
import KrabkaOperator.Kube.Objects
import KrabkaOperator.Rebalance.Lifecycle

/-!
# Endpoint and credential

The base URL is `spec.endpoint` when its host is a cluster-internal name, or is
derived from the label of the cluster. The token for the evacuation of brokers is
read from a Secret.
-/

namespace Rebalance

open NodePool (SecretKeyRef)

/-! ## Texts in messages -/

/-- The tables of Unicode and the error texts that messages depend on. -/
structure Formats where
  /-- Whether a character beyond ASCII is shown as it is. -/
  printable : Char → Bool
  /-- The text of the error for bytes that are not UTF-8. -/
  utf8Error : List UInt8 → String

/-- A text in quotes. -/
def Formats.debug (fmt : Formats) (s : List Char) : String := Text.debug fmt.printable s

/-! ## The endpoint -/

/-- Both sides of the first occurrence of a pattern. -/
def splitOnce (pat s : List Char) : Option (List Char × List Char) :=
  (Text.find pat s).map fun i => (s.take i, s.drop (i + pat.length))

/-- Both sides of the last occurrence of a character. -/
def rsplitOnce (c : Char) (s : List Char) : Option (List Char × List Char) :=
  let tail := s.reverse.takeWhile (· ≠ c)
  if tail.length = s.length then none
  else some (s.take (s.length - tail.length - 1), tail.reverse)

def isAsciiDigit (c : Char) : Bool := '0' ≤ c && c ≤ '9'

def toAsciiLowercase (s : List Char) : List Char := s.map Char.toLower

def clusterInternalSuffixes : List String := [".svc", ".svc.cluster.local", ".cluster.local"]

/-- The host of an authority, without a port. -/
def hostOf (hostPort : List Char) : List Char :=
  match rsplitOnce ':' hostPort with
  | some (h, port) => if port ≠ [] ∧ port.all isAsciiDigit then h else hostPort
  | none => hostPort

/-- The message of the refusal of an endpoint, if it is refused. -/
def validateEndpoint (fmt : Formats) (endpoint : List Char) : Except String Unit :=
  match splitOnce "://".toList endpoint with
  | none => .error ("spec.endpoint " ++ fmt.debug endpoint ++ " is not an absolute http(s) URL")
  | some (scheme, rest) =>
    if toAsciiLowercase scheme ≠ "http".toList ∧ toAsciiLowercase scheme ≠ "https".toList then
      .error ("spec.endpoint scheme " ++ fmt.debug scheme ++
        " is not allowed; only http/https are permitted")
    else
      let authority := rest.takeWhile (· ∉ ['/', '?', '#'])
      let hostPort := ((rsplitOnce '@' authority).map (·.2)).getD authority
      let literal (host : List Char) : String := "spec.endpoint host " ++ fmt.debug host ++
        " is an IP literal; only cluster-internal DNS names are allowed"
      match hostPort with
      | '[' :: stripped => .error (literal (stripped.takeWhile (· ≠ ']')))
      | _ =>
        let host := hostOf hostPort
        if host = [] then .error ("spec.endpoint " ++ fmt.debug endpoint ++ " has no host")
        else if (host.splitOn '.').all fun seg => seg ≠ [] && seg.all isAsciiDigit then
          .error (literal host)
        else if clusterInternalSuffixes.any fun suffix =>
            suffix.toList.isSuffixOf (toAsciiLowercase host) then .ok ()
        else
          .error ("spec.endpoint host " ++ fmt.debug host ++
            " is not cluster-internal; it must end in one of [" ++
            ", ".intercalate (clusterInternalSuffixes.map fun s => fmt.debug s.toList) ++ "]")

def rebalancerPort : Nat := 9300

def resolveEndpoint (fmt : Formats) (obj : KafkaRebalance) (ns : String) :
    Except String (Option String) :=
  match obj.spec.endpoint.filter (· ≠ "") with
  | some endpoint => do
    validateEndpoint fmt endpoint.toList
    pure (some endpoint)
  | none =>
    match obj.cluster.filter (· ≠ "") with
    | none => .ok none
    | some cluster =>
      .ok (some ("http://" ++ cluster ++ "-rebalancer." ++ ns ++ ".svc.cluster.local:" ++
        toString rebalancerPort))

example : validateEndpoint ⟨fun _ => true, fun _ => ""⟩ "HTTP://u@demo.kafka.SVC:9300/x".toList =
    .ok () := by decide

/-- A pass has an address to call. -/
def Resolves (fmt : Formats) (ns : String) (obj : KafkaRebalance) : Prop :=
  ∃ endpoint, resolveEndpoint fmt obj ns = .ok (some endpoint)

/-! ## The credential -/

structure CredentialFailure where
  reason : String
  message : String
  deriving DecidableEq, Repr

/-- The Secret and the key with the token. An explicit reference wins. -/
def credentialReference (obj : KafkaRebalance) : Option SecretKeyRef :=
  obj.spec.authorizationSecretRef.or (obj.cluster.map fun cluster =>
    ⟨cluster ++ "-rebalancer-auth", "token"⟩)

def missingReference : CredentialFailure where
  reason := "MissingAuthorizationSecretRef"
  message := "removeBrokers requires spec.authorizationSecretRef or a krabka.io/cluster label"

/-- The token in the Secret that was read. -/
def evacuationCredential (fmt : Formats) (ref : SecretKeyRef)
    (secret : Option (Kube.BTreeMap Kube.ByteString)) : Except CredentialFailure String :=
  let name := fmt.debug ref.name.toList
  let key := fmt.debug ref.key.toList
  match secret with
  | none => .error ⟨"MissingAuthorizationSecret",
      "removeBrokers authorization Secret " ++ name ++ " was not found"⟩
  | some data =>
    match data[ref.key]? with
    | none => .error ⟨"InvalidAuthorizationSecret",
        "removeBrokers authorization Secret " ++ name ++ " has no key " ++ key⟩
    | some (.text token) =>
      if token = [] then
        .error ⟨"InvalidAuthorizationSecret",
          "removeBrokers authorization Secret " ++ name ++ " key " ++ key ++ " is empty"⟩
      else .ok (String.ofList token)
    | some (.binary bytes) => .error ⟨"InvalidAuthorizationSecret",
        "removeBrokers authorization Secret " ++ name ++ " key " ++ key ++ " is not UTF-8: " ++
          fmt.utf8Error bytes⟩

/-- Only the evacuation of brokers needs a token, for a new plan and for its execution. -/
def needsCredential (obj : KafkaRebalance) (action : RebalanceAction) : Bool :=
  obj.spec.mode = .removeBrokers && (action = .createProposal || action = .execute)

end Rebalance
