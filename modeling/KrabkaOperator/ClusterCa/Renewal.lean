-- SUMMARY: The renewal check that a CronJob runs over all clusters: it flags CAs that are about to expire and renews broker leafs in place.
import KrabkaOperator.ClusterCa.Keystore

/-!
# Renewal check

The check never writes a CA. It asks the reconciler for a renewal through an
annotation of the `Kafka`, reports a CA of the user by an event, and issues the
leafs that are about to expire again, with the names that they have.
-/

namespace ClusterCa

open Kube Crd Operator

/-- The CA material that is stored, which must exist. -/
def readExistingCa (cluster : String) (which : WhichCa) : Op CaMaterial := do
  match ← getOpt (which.keyName cluster) with
  | none => .fail (.caSecretMissing (which.keyName cluster))
  | some keySecret =>
    match ← getOpt (which.certName cluster) with
    | none => .fail (.caSecretMissing (which.certName cluster))
    | some certSecret =>
      match keySecret.readPemKey "ca.key" with
      | none => .fail (.certParse (which.keyName cluster ++ " ca.key unreadable"))
      | some keyPem =>
        match certSecret.readPemKey "ca.crt" with
        | none => .fail (.certParse (which.certName cluster ++ " ca.crt unreadable"))
        | some certPem => pure ⟨certPem, keyPem⟩

variable (lib : CaLib)

/-- Reports a CA that is about to expire. -/
def flagCaIfExpiring (kafka : Kafka) (caCertPem : Pem) (which : WhichCa) (now : Int) : Op Unit := do
  let spec := which.spec kafka
  let expiring ← orFail .certParse (renewIfExpiring lib caCertPem spec.renewalDays now)
  if !expiring then
    pure ()
  else if spec.generateCertificateAuthority then
    -- The annotation is stamped once.
    if kafka.annotations.contains annRenewAfter then
      pure ()
    else
      let _ ← orFail .certParse (lib.formatRfc3339 now)
      effect ( Effect.patchKafkaAnnotation annRenewAfter)
      effect (.emitEvent "CaRenewalScheduled")
  else
    effect (.emitEvent "ByoCaExpiringSoon")

/-! ## Leafs -/

def segment (hi lo : UInt8) : UInt16 := hi.toUInt16 * 256 + lo.toUInt16

def ofGeneralName : GeneralName → Option SubjectAltName
  | .dns name => some (.dns name)
  | .ipBytes [a, b, c, d] => some (.ip (.v4 a b c d))
  | .ipBytes [a, b, c, d, e, f, g, h, i, j, k, l, m, n, o, p] =>
    some (.ip (.v6 [segment a b, segment c d, segment e f, segment g h, segment i j, segment k l,
      segment m n, segment o p]))
  | _ => none

/-- The common name and the alternative names of a leaf. -/
def readExistingCnAndSans (certPem : Pem) : Except String (String × List SubjectAltName) :=
  match lib.certCommonName certPem with
  | none => .error "broker cert has no CN in subject"
  | some cn => do
    let names ← lib.certGeneralNames certPem
    pure (cn, names.filterMap ofGeneralName)

/-- Whether the extension of a key, as a file name, is `crt` in any case. -/
def hasCrtExtension (key : String) : Bool :=
  match key.toList.reverse.span (· ≠ '.') with
  | (ext, '.' :: stem) => stem ≠ [] && ext.reverse.map Char.toLower = "crt".toList
  | _ => false

/-- The variables of the loop over the leafs. -/
structure RenewalDraft where
  data : BTreeMap ByteString
  renewed : List Int

def RenewalDraft.renew (draft : RenewalDraft) (key : String) (id : Int)
    (sans : List SubjectAltName) (leaf : CaMaterial) : RenewalDraft where
  data := ((draft.data.insert key (.text leaf.certPem)).insert (keyKey id)
    (.text leaf.keyPem)).insert (digestKey id) (.text (computeSanDigest lib sans []).toList)
  renewed := draft.renewed ++ [id]

/-- One turn of the loop. A leaf that cannot be read is skipped. -/
def renewLeaf (kafka : Kafka) (clusterCa : CaMaterial) (now : Int) (draft : RenewalDraft)
    (key : String) : Op RenewalDraft := do
  let spec := WhichCa.spec .cluster kafka
  match keyNodeId? key, draft.data[key]? >>= ByteString.utf8? with
  | some id, some certPem =>
    let expiring ← orFail .certParse (renewIfExpiring lib certPem spec.renewalDays now)
    if !expiring then
      pure draft
    else
      match readExistingCnAndSans lib certPem with
      | .error _ => pure draft
      | .ok (cn, sans) =>
        let d ← draw
        let leaf ← orFail .ca (lib.issueBrokerCert clusterCa.certPem clusterCa.keyPem cn sans []
          spec.validityDays d)
        pure (draft.renew lib key id sans leaf)
  | _, _ => pure draft

def renewLeafs (kafka : Kafka) (clusterCa : CaMaterial) (now : Int) :
    RenewalDraft → List String → Op RenewalDraft
  | draft, [] => pure draft
  | draft, key :: keys => do
    let draft ← renewLeaf lib kafka clusterCa now draft key
    renewLeafs kafka clusterCa now draft keys

def renewalEvents : List Int → Op Unit
  | [] => pure ()
  | _ :: ids => do
    effect (.emitEvent "BrokerCertRenewed")
    renewalEvents ids

/-- Issues the leafs that are about to expire again. The patch sends the Secret as it was
    read, its annotations included. -/
def renewBrokerLeafs (kafka : Kafka) (clusterCa : CaMaterial) (now : Int) : Op Unit := do
  let name := brokerKeystoreName kafka.name
  match ← getOpt name with
  | none => pure ()
  | some secret =>
    let data := secret.data.values
    let draft ← renewLeafs lib kafka clusterCa now ⟨data, []⟩ (data.keys.filter hasCrtExtension)
    if draft.renewed.isEmpty then
      pure ()
    else
      applySecret name ⟨secret.annotations.values, draft.data⟩
      renewalEvents draft.renewed

/-- The check of one cluster. -/
def renewOne (kafka : Kafka) : Op Unit := do
  let now ← now
  let clusterCa ← readExistingCa kafka.name .cluster
  let clientsCa ← readExistingCa kafka.name .clients
  flagCaIfExpiring lib kafka clusterCa.certPem .cluster now
  flagCaIfExpiring lib kafka clientsCa.certPem .clients now
  renewBrokerLeafs lib kafka clusterCa now

def renewAll : List Kafka → Op Unit
  | [] => pure ()
  | kafka :: kafkas => do
    -- A cluster that fails is logged, and the check goes on.
    let _ ← (renewOne lib kafka).attempt
    renewAll kafkas

/-- The whole check. `kafkas` is the answer of the list call. -/
def runRenewalCheck (kafkas : List Kafka) : Op Unit := do
  effect .listKafkas
  renewAll lib kafkas

/-! ## Its requests -/

/-- The requests of the check of one cluster. -/
inductive RenewalReq (cluster : String) : Req → Prop
  | now : RenewalReq cluster .now
  | draw : RenewalReq cluster .draw
  | getSecret {name : String} : RenewalReq cluster (.getSecret name)
  | effect {e : Effect} (h : e ≠ .finalizeKafka) : RenewalReq cluster (.effect e)
  | keystore {cfg : SecretConfig} :
      RenewalReq cluster (.applySecret (brokerKeystoreName cluster) cfg)

section Makes

variable {lib : CaLib} {kafka : Kafka} {cluster : String}

theorem readExistingCa_makes (which : WhichCa) :
    Prog.Makes (RenewalReq cluster) (readExistingCa cluster which) := by
  refine (makes_getOpt .getSecret).bind fun keySecret => ?_
  cases keySecret with
  | none => trivial
  | some keySecret =>
    refine (makes_getOpt .getSecret).bind fun certSecret => ?_
    cases certSecret with
    | none => trivial
    | some certSecret =>
      simp only
      split
      · trivial
      · split
        · trivial
        · trivial

theorem flagCaIfExpiring_makes (caCertPem : Pem) (which : WhichCa) (now : Int) :
    Prog.Makes (RenewalReq cluster) (flagCaIfExpiring lib kafka caCertPem which now) := by
  refine makes_orFail fun expiring _ => Prog.makes_ite trivial (Prog.makes_ite ?_ ?_)
  · refine Prog.makes_ite trivial (makes_orFail fun _ _ => ?_)
    refine (makes_effect (.effect ?_)).bind fun _ => makes_effect (.effect ?_)
    · simp
    · simp
  · exact makes_effect (.effect (by simp))

theorem renewLeafs_makes (clusterCa : CaMaterial) (now : Int) (draft : RenewalDraft)
    (keys : List String) :
    Prog.Makes (RenewalReq cluster) (renewLeafs lib kafka clusterCa now draft keys) := by
  induction keys generalizing draft with
  | nil => trivial
  | cons key keys ih =>
    refine Prog.Makes.bind ?_ fun draft => ih draft
    unfold renewLeaf
    split
    · refine makes_orFail fun expiring _ => Prog.makes_ite trivial ?_
      split
      · trivial
      · exact (makes_draw .draw).bind fun d => makes_orFail fun leaf _ => trivial
    · trivial

theorem renewOne_makes (kafka : Kafka) :
    Prog.Makes (RenewalReq kafka.name) (renewOne lib kafka) := by
  have hevents : ∀ ids, Prog.Makes (RenewalReq kafka.name) (renewalEvents ids) := by
    intro ids
    induction ids with
    | nil => trivial
    | cons id ids ih => exact (makes_effect (.effect (by simp))).bind fun _ => ih
  refine (makes_now .now).bind fun now => ?_
  refine (readExistingCa_makes .cluster).bind fun clusterCa => ?_
  refine (readExistingCa_makes .clients).bind fun clientsCa => ?_
  refine (flagCaIfExpiring_makes _ _ _).bind fun _ => ?_
  refine (flagCaIfExpiring_makes _ _ _).bind fun _ => ?_
  refine (makes_getOpt .getSecret).bind fun secret => ?_
  cases secret with
  | none => trivial
  | some secret =>
    refine (renewLeafs_makes _ _ _ _).bind fun draft => Prog.makes_ite trivial ?_
    exact (makes_applySecret .keystore).bind fun _ => hevents _

/-- The check writes the keystores of the clusters only. -/
theorem runRenewalCheck_makes (kafkas : List Kafka) :
    Prog.Makes (fun r => r = .effect .listKafkas ∨ ∃ kafka ∈ kafkas, RenewalReq kafka.name r)
      (runRenewalCheck lib kafkas) := by
  have hall : ∀ ks : List Kafka, (∀ k ∈ ks, k ∈ kafkas) →
      Prog.Makes (fun r => r = .effect .listKafkas ∨ ∃ kafka ∈ kafkas, RenewalReq kafka.name r)
        (renewAll lib ks) := by
    intro ks hks
    induction ks with
    | nil => trivial
    | cons k ks ih =>
      refine Prog.Makes.bind (Prog.Makes.attempt ((renewOne_makes k).mono fun r hr => ?_))
        fun _ => ih fun k' hk' => hks k' (List.mem_cons_of_mem _ hk')
      exact .inr ⟨k, hks k List.mem_cons_self, hr⟩
  exact (makes_effect (.inl rfl)).bind fun _ => hall kafkas fun _ h => h

end Makes

end ClusterCa
