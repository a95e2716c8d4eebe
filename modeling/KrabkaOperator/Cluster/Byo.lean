-- SUMMARY: A CA that the user brings: no controller changes the data of its Secrets, unless the credentials of a user have the name of one of them.
import KrabkaOperator.Cluster.Activity
import KrabkaOperator.Cluster.Frames

/-!
# CAs of the user

With `generateCertificateAuthority: false` the two Secrets of a CA belong to the
user. The reconciler plans no rotation for such a CA, the renewal check reports
it by an event only, and the marker of the batch touches the annotations. What is
left are the Secrets of the users: their names come from the `KafkaUser`s, and no
controller keeps them apart from the names of the CA Secrets.
-/

namespace Cluster

open Kube Crd Operator ClusterCa

def secretData? (w : World) (name : String) : Option (Fields ByteString) :=
  (w.secret? name).map (·.data)

/-- The data of the two Secrets of a CA is the same. -/
structure SameData (which : WhichCa) (cluster : String) (a b : World) : Prop where
  key : secretData? b (which.keyName cluster) = secretData? a (which.keyName cluster)
  cert : secretData? b (which.certName cluster) = secretData? a (which.certName cluster)

/-- The name is not one of the two Secrets of a CA. -/
def Apart (which : WhichCa) (cluster name : String) : Prop :=
  name ≠ which.keyName cluster ∧ name ≠ which.certName cluster

instance (which : WhichCa) (cluster name : String) : Decidable (Apart which cluster name) :=
  inferInstanceAs (Decidable (_ ∧ _))

/-- The users whose credentials an activity writes: the TLS users of the cluster for a
    Kafka pass, and the user itself for a user pass, unless it has no Secret. -/
def Activity.credentialNames : Activity → World → List String
  | .kafka (.pass p _), w => (managedUsers p.kafka.name w.users).map (·.name)
  | .user p _, _ => if p.user.authentication = .tlsExternal then [] else [p.user.name]
  | _, _ => []

/-- The CA is one of the user in every `Kafka` of the cluster. -/
def Activity.IsByo (which : WhichCa) (cluster : String) (act : Activity) : Prop :=
  ∀ kafka ∈ act.kafkas, kafka.name = cluster →
    (which.spec kafka).generateCertificateAuthority = false

instance (which : WhichCa) (cluster : String) (act : Activity) :
    Decidable (act.IsByo which cluster) := inferInstanceAs (Decidable (∀ kafka ∈ _, _))

/-- The condition on a run: no credentials have the name of a Secret of the CA. -/
def ByoApart (which : WhichCa) (cluster : String) (act : Activity) (w : World) : Prop :=
  act.IsByo which cluster ∧ ∀ name ∈ act.credentialNames w, Apart which cluster name

section Data

variable {lib : CaLib} {which which' : WhichCa} {cluster : String} {a b c w w₀ : World} {r : Req}

theorem SameData.refl (w : World) : SameData which cluster w w := ⟨rfl, rfl⟩

theorem SameData.trans (h : SameData which cluster a b) (h' : SameData which cluster b c) :
    SameData which cluster a c := ⟨h'.key.trans h.key, h'.cert.trans h.cert⟩

theorem SameData.of_secret?
    (hkey : b.secret? (which.keyName cluster) = a.secret? (which.keyName cluster))
    (hcert : b.secret? (which.certName cluster) = a.secret? (which.certName cluster)) :
    SameData which cluster a b :=
  ⟨by rw [secretData?, secretData?, hkey], by rw [secretData?, secretData?, hcert]⟩

/-- A request that writes no Secret of the CA. -/
theorem SameData.of_answered (hans : Answered a r b)
    (hname : ∀ name, r.secretName? = some name → Apart which cluster name) :
    SameData which cluster a b :=
  .of_secret? (hans.frame.secret _ fun heq => (hname _ heq).1 rfl)
    (hans.frame.secret _ fun heq => (hname _ heq).2 rfl)

/-- The marker of the batch is an annotation. -/
theorem SameData.of_mark {cluster' : String} {generation : Nat}
    (hans : Answered a (markReq cluster' generation) b) : SameData which cluster a b := by
  cases hans with
  | same hr => exact .refl a
  | @merged _ _ s hs =>
    have hdata : ∀ name, secretData? (a.setSecret (WhichCa.clients.certName cluster')
        (s.merge defaultManager ⟨BTreeMap.ofList [(annLeafsKeyGeneration, toString generation)], ∅⟩))
        name = secretData? a name := by
      intro name
      by_cases hn : WhichCa.clients.certName cluster' = name
      · subst hn
        simp [secretData?, World.secret?_setSecret_self, hs, Secret.merge, Fields.merge_empty]
      · rw [secretData?, World.secret?_setSecret_of_ne hn, secretData?]
    exact ⟨hdata _, hdata _⟩

/-! ## The CA calls -/

/-- A call leaves the data of a CA of the user. -/
theorem reconcileCa_sameData {kafka : Kafka} (forceRenew forceReplaceKey conv : Bool) (now : Int)
    (hbyo : kafka.name = cluster → (which.spec kafka).generateCertificateAuthority = false) :
    Prog.Sat answer (fun a _ b => SameData which cluster a b ∧ b.users = a.users) (fun _ _ => True)
      (reconcileCa lib kafka which' forceRenew forceReplaceKey conv now) w := by
  by_cases hsame : which' = which ∧ kafka.name = cluster
  · obtain ⟨rfl, rfl⟩ := hsame
    refine (reconcileCa_byo (hbyo rfl) forceRenew forceReplaceKey conv now w).mono ?_
      fun _ _ h => h
    rintro a r b ⟨rfl, -⟩
    exact ⟨.refl b, rfl⟩
  · refine (reconcileCa_frame kafka which' forceRenew forceReplaceKey conv now w).mono ?_
      fun _ _ h => h
    intro a r b h
    refine ⟨.of_secret? (h.frame.secret _ (fun heq => ?_) keyName_ne_certName)
      (h.frame.secret _ (Ne.symm keyName_ne_certName) fun heq => ?_), h.frame.users⟩
    · obtain ⟨rfl, rfl⟩ := keyName_inj.mp heq
      exact hsame ⟨rfl, rfl⟩
    · obtain ⟨rfl, rfl⟩ := certName_inj.mp heq
      exact hsame ⟨rfl, rfl⟩

/-! ## Kafka passes -/

/-- Every stage of a pass knows the users that it started with. -/
def byoStages (w₀ : World) : Stages where
  start w := w.users = w₀.users
  cluster _ w := w.users = w₀.users
  clients _ _ w := w.users = w₀.users
  users _ _ w := w.users = w₀.users
  keystore _ _ _ w := w.users = w₀.users
  failed w := w.users = w₀.users
  finished _ := True

theorem apart_of_neutral {cluster' name : String} (h : name ∈ neutralNames cluster') :
    Apart which cluster name :=
  ⟨fun heq => keyName_notMem (heq ▸ h), fun heq => certName_notMem (heq ▸ h)⟩

theorem byoStages_sound (hlib : lib.Lawful) {pass : KafkaPass}
    (hbyo : pass.kafka.name = cluster →
      (which.spec pass.kafka).generateCertificateAuthority = false)
    (hnames : ∀ u ∈ managedUsers pass.kafka.name w₀.users, Apart which cluster u.name) :
    (byoStages w₀).Sound lib pass id (fun a _ b => SameData which cluster a b) w₀ := by
  have hneutral : Kept pass.kafka.name (fun a _ b => SameData which cluster a b)
      (fun w => w.users = w₀.users) := by
    intro a r b hr hans ha
    exact ⟨.of_answered hans fun name hn => apart_of_neutral (hr.writes hn),
      hans.frame.users.trans ha⟩
  have hcall : ∀ {which' : WhichCa} {fr frk conv : Bool} {now : Int} {w : World},
      w.users = w₀.users → Prog.Sat answer (fun a _ b => SameData which cluster a b)
        (fun _ v => v.users = w₀.users)
        (reconcileCa lib pass.kafka which' fr frk conv now) w := by
    intro which' fr frk conv now w hw
    exact ((reconcileCa_sameData fr frk conv now hbyo).stage (I := fun w : World => w.users = w₀.users)
      (fun a r b ha hab => ⟨hab.1, hab.2.trans ha⟩) hw).mono (fun _ _ _ h => h) fun x v hx => hx.2
  have hadopt : ∀ w hash, Prog.Sat answer (fun a _ b => SameData which cluster a b)
      (fun x _ => x = .ok () → True) (adoptPools pass.kafka (w₀.poolsOf pass.kafka.name) hash) w := by
    intro w hash
    refine ((adoptPools_makes _ _ _).sat w).mono ?_ fun _ _ _ _ => trivial
    rintro a _ b ⟨⟨name, hash, rfl⟩, c, rfl⟩
    exact .of_answered (answered _ c a) fun name hn => nomatch hn
  constructor
  case keptStart => exact hneutral
  case keptCluster => exact fun _ => hneutral
  case keptClients => exact fun _ _ => hneutral
  case keptUsers => exact fun _ _ => hneutral
  case keptKeystore => exact fun _ _ _ => hneutral
  case keptFailed => exact hneutral
  case clusterCall =>
    refine fun w now hw => (hcall hw).mono (fun _ _ _ h => h) fun x v hv => ?_
    cases x with
    | error e => exact hv
    | ok out => exact hv
  case clientsCall =>
    refine fun w now o hw => (hcall hw).mono (fun _ _ _ h => h) fun x v hv => ?_
    cases x with
    | error e => exact hv
    | ok out => exact hv
  case syncUsers =>
    intro w o o' hw
    refine ((syncUsers_sat hlib pass.kafka.name o' w).stage (I := fun w : World => w.users = w₀.users)
      ?_ hw).mono (fun _ _ _ h => h) fun x v hx _ => hx.2
    rintro a r b ha ⟨hreq, hans⟩
    rw [hw] at hreq
    refine ⟨?_, hans.frame.users.trans ha⟩
    cases hreq with
    | list => exact .of_answered hans fun name hn => nomatch hn
    | user hu hr =>
      refine .of_answered hans fun name hn => ?_
      rw [hr.secretName? hn]
      exact hnames _ hu
    | mark h => exact .of_mark hans
  case ensureKeystore =>
    intro w o o' hw
    refine ((ensureBrokerKeystore_sat hlib (P := fun _ => True) (fun _ => trivial)
      ⟨0, trivial⟩ w).stage (I := fun w : World => w.users = w₀.users) ?_ hw).mono
      (fun _ _ _ h => h) fun x v hx ks _ => hx.2
    intro a r b ha hab
    refine ⟨?_, (KeystoreStep.rest hab).1.trans ha⟩
    rcases KeystoreStep.answered hab with ⟨-, hdraws⟩ | ⟨hr, hans⟩
    · exact .of_secret? (hdraws.secret? _) (hdraws.secret? _)
    · refine .of_answered hans fun name hn => ?_
      obtain rfl := Option.some_inj.mp (hr.symm.trans hn)
      exact ⟨brokerKeystoreName_ne_keyName, brokerKeystoreName_ne_certName⟩
  case adoptInvalid => exact fun w o o' _ _ => hadopt w _
  case adopt => exact fun w o o' ks _ => hadopt w _
  case finalize => exact fun w _ => .refl w

/-! ## User passes and renewal checks -/

theorem userPass_sameData (hlib : lib.Lawful) {pass : User.UserPass}
    (hbyo : ∀ kafka, pass.kafka = some kafka → kafka.name = cluster →
      (which.spec kafka).generateCertificateAuthority = false)
    (hname : pass.user.authentication ≠ .tlsExternal → Apart which cluster pass.user.name) :
    Prog.Sat answer (fun a _ b => SameData which cluster a b) (fun _ _ => True)
      (User.reconcileInner lib pass) w := by
  refine User.reconcileInner_sat (I := fun _ => True) (J := fun _ _ => True) ?_ ?_ ?_ trivial
  · intro a r b hr hans _
    refine ⟨.of_answered hans fun name hn => ?_, trivial⟩
    obtain ⟨rfl, hauth⟩ := hr.writes hn
    exact hname hauth
  · intro kafka now w hkafka _
    refine (reconcileCa_sameData false false false now (hbyo kafka hkafka)).mono
      (fun _ _ _ h => h.1) fun x _ _ => ?_
    cases x with
    | error e => trivial
    | ok out => trivial
  · intro out auth hauth w _
    refine ((User.ensureUserCertSecret_makes hlib pass.user _ _ auth).sat w).mono ?_
      fun _ _ _ => trivial
    rintro a r b ⟨hr, c, rfl⟩
    refine .of_answered (answered r c a) fun name hn => ?_
    rw [hr.secretName? hn]
    exact hname (by simp [hauth])

theorem renewalCheck_sameData (kafkas : List Kafka) :
    Prog.Sat answer (fun a _ b => SameData which cluster a b) (fun _ _ => True)
      (runRenewalCheck lib kafkas) w := by
  refine ((runRenewalCheck_makes kafkas).sat w).mono ?_ fun _ _ h => h
  rintro a r b ⟨hr, c, rfl⟩
  refine .of_answered (answered r c a) fun name hn => ?_
  rcases hr with rfl | ⟨kafka, -, hr⟩
  · cases hn
  · cases hr with
    | keystore =>
      obtain rfl := Option.some_inj.mp hn
      exact ⟨brokerKeystoreName_ne_keyName, brokerKeystoreName_ne_certName⟩
    | _ => cases hn

/-! ## Runs -/

/-- Every state that an activity passes has the data of the state before it. -/
theorem Activity.sameData (hlib : lib.Lawful) {act : Activity} (h : ByoApart which cluster act w) :
    ∀ v ∈ act.exec lib w, SameData which cluster w v := by
  have hforall : ∀ {α : Type} {p : Op α} {choices : List Choice},
      Prog.Sat answer (fun a _ b => SameData which cluster a b) (fun _ _ => True) p w →
      ∀ v ∈ p.after answer choices w, SameData which cluster w v := by
    intro α p choices hp
    exact Prog.Sat.forall_after (hp.mono (fun a _ b hab ha => ha.trans hab) fun _ _ h => h)
      (.refl w) choices
  cases act with
  | kafka e =>
    cases e with
    | pass p choices =>
      have hnames : ∀ u ∈ managedUsers p.kafka.name w.users, Apart which cluster u.name :=
        fun u hu => h.2 _ (List.mem_map_of_mem hu)
      exact hforall ((byoStages_sound hlib (h.1 p.kafka (by simp [Activity.kafkas])) hnames).sat rfl)
    | setUsers users => simpa [Activity.exec, Event.exec] using ⟨rfl, rfl⟩
    | setPools pools => simpa [Activity.exec, Event.exec] using ⟨rfl, rfl⟩
    | setStatefulSets statefulSets => simpa [Activity.exec, Event.exec] using ⟨rfl, rfl⟩
  | user p choices =>
    refine hforall (userPass_sameData hlib (fun kafka hkafka => ?_) fun hauth => ?_)
    · exact h.1 kafka (by simp [Activity.kafkas, hkafka])
    · exact h.2 _ (by simp [Activity.credentialNames, hauth])
  | renewal kafkas choices => exact hforall (renewalCheck_sameData kafkas)

/-- From any stored state, in every run in which no credentials of a user have the name of a
    Secret of a CA that the user brings, the data of its two Secrets stays. -/
theorem byo_data_unchanged (hlib : lib.Lawful) (acts : List Activity)
    (hrun : History.Along (Activity.exec lib) (ByoApart which cluster) acts w₀) :
    ∀ w ∈ History.states (Activity.exec lib) acts w₀, SameData which cluster w₀ w := by
  refine History.invariant_states (I := SameData which cluster w₀) (.refl w₀) hrun ?_
  intro act w hact hw v hv
  exact hw.trans (act.sameData hlib hact v hv)

end Data

/-! ## A cluster CA of the user -/

namespace Sample

/-- A Secret that the user has applied. -/
def userSecret (key : String) (pem : Pem) : Secret :=
  Secret.empty.apply "kubectl" ⟨∅, BTreeMap.ofList [(key, .text pem)]⟩

/-- The pool exists, and the user has brought a cluster CA that expires soon. -/
def byoStart : World :=
  (start.setSecret "demo-cluster-ca" (userSecret "ca.key" (SampleLib.keyPem 7))).setSecret
    "demo-cluster-ca-cert" (userSecret "ca.crt" (SampleLib.cert 7 7 7 1))

def byoKafka : Kafka :=
  { Kafka.minimal "demo" with
    annotations := BTreeMap.ofList [(annForceRenew, "true"), (annForceReplaceKey, "true")]
    spec := { clusterCa := some { generateCertificateAuthority := false } } }

/-- A TLS user of the cluster `demo`. -/
def tlsUser (name : String) : KafkaUser where
  name
  uid := some "uid"
  labels := BTreeMap.ofList [("krabka.io/cluster", "demo")]
  deleting := false
  authentication := .tls ⟨none, none⟩

/-- A Kafka pass, a pass over a TLS user and a renewal check, all without faults. -/
def byoRun (name : String) : List Activity := [
  .kafka (.pass { kafka := byoKafka } (List.replicate 60 {})),
  .user { user := tlsUser name, kafka := some byoKafka } (List.replicate 60 {}),
  .renewal [byoKafka] (List.replicate 60 {})]

end Sample

theorem secretData?_eq_of_readPem_ne {a b : World} {name key : String}
    (h : b.readPem name key ≠ a.readPem name key) : secretData? b name ≠ secretData? a name := by
  intro heq
  refine h ?_
  have hread : ∀ w : World, w.readPem name key = secretData? w name >>= fun data =>
      data.value? key >>= ByteString.utf8? := by
    intro w
    rw [World.readPem, secretData?]
    cases w.secret? name <;> rfl
  rw [hread, hread, heq]

instance (which : WhichCa) (cluster : String) (act : Activity) (w : World) :
    Decidable (ByoApart which cluster act w) := inferInstanceAs (Decidable (_ ∧ _))

theorem byo_data_unchanged_alice :
    SameData .cluster "demo" Sample.byoStart
      (History.final (Activity.exec SampleLib.lib) (Sample.byoRun "alice") Sample.byoStart) :=
  byo_data_unchanged SampleLib.lib_lawful (Sample.byoRun "alice") (by decide) _
    History.final_mem_states

/-- A TLS user with the name of the cert Secret: its credentials replace the bundle of the
    CA that the user has brought. -/
theorem byo_bundle_replaced :
    SampleLib.lib.Lawful ∧
      (∀ act ∈ Sample.byoRun "demo-cluster-ca-cert", act.IsByo .cluster "demo") ∧
      ∃ w ∈ History.states (Activity.exec SampleLib.lib) (Sample.byoRun "demo-cluster-ca-cert")
        Sample.byoStart, ¬ SameData .cluster "demo" Sample.byoStart w := by
  refine ⟨SampleLib.lib_lawful, ?_, _, History.final_mem_states, fun h => ?_⟩
  · decide
  · have hne : (History.final (Activity.exec SampleLib.lib) (Sample.byoRun "demo-cluster-ca-cert")
        Sample.byoStart).readPem "demo-cluster-ca-cert" "ca.crt" ≠
        Sample.byoStart.readPem "demo-cluster-ca-cert" "ca.crt" := by decide +kernel
    exact secretData?_eq_of_readPem_ne hne h.cert

end Cluster
