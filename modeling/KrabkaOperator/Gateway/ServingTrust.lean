-- SUMMARY: The serving certificate of a gateway while the cluster CA rotates or is created again: when the bundle of the CA has the key that signed it.
import KrabkaOperator.ClusterCa.Signing
import KrabkaOperator.Gateway.Serving

/-!
# Serving certificates and the cluster CA

A gateway pass looks at the expiry of the stored certificate only. A certificate that the pass
issues is signed by the key of the CA, but one that it keeps may have been signed by a key that
the CA no longer has.
-/

namespace Gateway

open Kube Crd Operator ClusterCa

variable {lib : CaLib} {w w' : World} {parent gwName : String}

theorem servingSecretName_ne_keyName {which : WhichCa} :
    servingSecretName gwName ≠ which.keyName parent := by
  cases which with
  | cluster => exact Text.append_ne_append (by decide) (by decide)
  | clients => exact Text.append_ne_append (by decide) (by decide)

theorem servingSecretName_ne_certName {which : WhichCa} :
    servingSecretName gwName ≠ which.certName parent := by
  cases which with
  | cluster => exact Text.append_ne_append (by decide) (by decide)
  | clients => exact Text.append_ne_append (by decide) (by decide)

/-! ## Trust -/

/-- The stored certificate of the gateway. -/
def servingCert (gwName : String) (w : World) : Option Pem :=
  w.readPem (servingSecretName gwName) "tls.crt"

/-- The bundle of the cluster CA has a certificate with this key. -/
def BundleHas (lib : CaLib) (parent : String) (w : World) (key : Nat) : Prop :=
  ∃ bundle, w.readPem (WhichCa.cluster.certName parent) "ca.crt" = some bundle ∧
    ∃ b ∈ splitPemCerts bundle, lib.certKey b = some key

/-- A certificate of the bundle has signed this one. -/
def SignedByBundle (lib : CaLib) (parent : String) (w : World) (certPem : Pem) : Prop :=
  ∃ key, lib.certSigner certPem = some key ∧ BundleHas lib parent w key

/-- The stored key of the CA belongs to a certificate of the bundle. -/
def KeyInBundle (lib : CaLib) (parent : String) (w : World) : Prop :=
  ∃ keyPem, w.readPem (WhichCa.cluster.keyName parent) "ca.key" = some keyPem ∧
    BundleHas lib parent w (lib.publicKeyOf keyPem)

instance {key : Nat} : Decidable (BundleHas lib parent w key) :=
  decidable_of_iff ((w.readPem (WhichCa.cluster.certName parent) "ca.crt").any fun bundle =>
      (splitPemCerts bundle).any fun b => lib.certKey b = some key) (by
    simp [BundleHas, Option.any_eq_true])

instance {certPem : Pem} : Decidable (SignedByBundle lib parent w certPem) :=
  decidable_of_iff ((lib.certSigner certPem).any fun key => BundleHas lib parent w key) (by
    simp [SignedByBundle, Option.any_eq_true])

theorem BundleHas.congr {key : Nat} (h : w'.secret? (WhichCa.cluster.certName parent) =
    w.secret? (WhichCa.cluster.certName parent)) :
    BundleHas lib parent w' key ↔ BundleHas lib parent w key := by
  simp only [BundleHas, World.readPem, h]

theorem readPem_of_stored {K : KeyPart} {C : CertPart} (h : Stored .cluster parent w K C) :
    w.readPem (WhichCa.cluster.keyName parent) "ca.key" = some K.keyPem ∧
      w.readPem (WhichCa.cluster.certName parent) "ca.crt" = some C.bundlePem := by
  obtain ⟨k, hk, hkey⟩ := Option.bind_eq_some_iff.mp h.key
  obtain ⟨c, hc, hcert⟩ := Option.bind_eq_some_iff.mp h.cert
  obtain ⟨keyPem, hkeyPem, rfl⟩ := Option.map_eq_some_iff.mp hkey
  obtain ⟨bundlePem, hbundlePem, rfl⟩ := Option.map_eq_some_iff.mp hcert
  exact ⟨Option.bind_eq_some_iff.mpr ⟨k, hk, hkeyPem⟩,
    Option.bind_eq_some_iff.mpr ⟨c, hc, hbundlePem⟩⟩

/-- The key of a CA that the operator made belongs to the first certificate, or to a staged one. -/
theorem exists_bundle_key {n : Nat} {K : KeyPart} {C : CertPart} (h : CaInv lib n K C) :
    ∃ b ∈ C.bundle, lib.certKey b = some (lib.publicKeyOf K.keyPem) := by
  by_cases hphase : C.phase = .keyReplaceTrust
  · obtain ⟨b, nk, pc, nb, hb, hstaged⟩ := h.staged hphase
    rcases hstaged.active with hpromoted | hsigns
    · exact ⟨nb, hstaged.trusted, hpromoted ▸ hstaged.pair⟩
    · exact ⟨b, List.mem_of_mem_head? hb, hsigns⟩
  · obtain ⟨b, hb, hkey⟩ := h.pairs hphase
    exact ⟨b, List.mem_of_mem_head? hb, hkey⟩

theorem keyInBundle_of_caOk (hok : CaOk lib .cluster parent w)
    (hthere : w.secret? (WhichCa.cluster.certName parent) ≠ none) : KeyInBundle lib parent w := by
  obtain ⟨K, C, hst, hinv⟩ := hok.resolve_left hthere
  obtain ⟨hkey, hcert⟩ := readPem_of_stored hst
  exact ⟨K.keyPem, hkey, C.bundlePem, hcert, exists_bundle_key hinv⟩

/-! ## Passes -/

/-- A pass over a gateway, with what the environment does to it. -/
structure GatewayPass where
  gw : KafkaGrpcGateway
  ns : String
  parentName : String
  choices : List Choice

namespace GatewayPass

variable (lib)

def prog (pass : GatewayPass) : Op Unit :=
  ensureServingCert lib pass.gw pass.ns pass.parentName

/-- The time that the pass reads first. -/
def now (pass : GatewayPass) : Int := (pass.choices.head?.map (·.clock)).getD 0

/-- The pass finds a certificate that is not about to expire. -/
def keeps (pass : GatewayPass) (w : World) : Bool :=
  servingCertCurrent lib (w.secret? (servingSecretName pass.gw.name)) pass.now

end GatewayPass

variable {pass : GatewayPass}

/-- What a pass needs for a certificate that the bundle has signed: the one that it keeps is, or
    the key that issues a new one belongs to the bundle. -/
def Follows (lib : CaLib) (pass : GatewayPass) (w : World) : Prop :=
  if pass.keeps lib w then
    ∀ certPem, servingCert pass.gw.name w = some certPem → SignedByBundle lib pass.parentName w certPem
  else
    KeyInBundle lib pass.parentName w

/-- The gateway serves a certificate that the bundle has signed. -/
def Serves (lib : CaLib) (pass : GatewayPass) (w : World) : Prop :=
  ∃ certPem, servingCert pass.gw.name w = some certPem ∧ SignedByBundle lib pass.parentName w certPem

instance : Decidable (Serves lib pass w) :=
  decidable_of_iff ((servingCert pass.gw.name w).any fun certPem =>
      SignedByBundle lib pass.parentName w certPem) (by
    simp [Serves, Option.any_eq_true])

/-- What the issue of a certificate leads to. -/
def IssuePost (lib : CaLib) (gw : KafkaGrpcGateway) (parent : String) (w : World)
    (x : Except ReconcileError Unit) (w' : World) : Prop :=
  x = .ok () → ∃ keyPem certPem,
    w.readPem (WhichCa.cluster.keyName parent) "ca.key" = some keyPem ∧
    servingCert gw.name w' = some certPem ∧
    lib.certSigner certPem = some (lib.publicKeyOf keyPem) ∧
    w.secret? (WhichCa.cluster.certName parent) ≠ none ∧
    w'.secret? (WhichCa.cluster.certName parent) = w.secret? (WhichCa.cluster.certName parent)

theorem sat_existingCaSecret {α : Type} {Q : Except ReconcileError α → World → Prop} {name : String}
    {k : Secret → Op α} (herr : ∀ e v, Q (.error e) v)
    (hk : ∀ secret, w.secret? name = some secret →
      Prog.Sat answer (fun _ _ _ => True) Q (k secret) w) :
    Prog.Sat answer (fun _ _ _ => True) Q (existingCaSecret name >>= k) w := by
  unfold existingCaSecret
  rw [Prog.bind_assoc]
  refine sat_getOpt trivial (fun e => herr _ _) ?_
  cases hsecret : w.secret? name with
  | none => exact herr _ _
  | some secret => exact hk secret hsecret

theorem sat_readableKey {α : Type} {Q : Except ReconcileError α → World → Prop} {name key : String}
    {secret : Secret} {k : Pem → Op α} (herr : ∀ e v, Q (.error e) v)
    (hk : ∀ pem, secret.readPemKey key = some pem →
      Prog.Sat answer (fun _ _ _ => True) Q (k pem) w) :
    Prog.Sat answer (fun _ _ _ => True) Q (readableKey name key secret >>= k) w := by
  unfold readableKey
  cases hpem : secret.readPemKey key with
  | none => exact herr _ _
  | some pem => exact hk pem hpem

theorem issueServingCert_sat (hlib : lib.Lawful) (gw : KafkaGrpcGateway) (ns parent : String)
    (w : World) :
    Prog.Sat answer (fun _ _ _ => True) (IssuePost lib gw parent w)
      (issueServingCert lib gw ns parent) w := by
  have herr : ∀ (e : ReconcileError) (v : World), IssuePost lib gw parent w (.error e) v :=
    fun e v h => by cases h
  refine sat_existingCaSecret herr fun keySecret hkeySecret => ?_
  refine sat_existingCaSecret herr fun certSecret hcertSecret => ?_
  refine sat_readableKey herr fun keyPem hkeyPem => ?_
  refine sat_readableKey herr fun certPem hcertPem => ?_
  refine sat_draw trivial fun clock => ?_
  refine sat_orFail (fun e _ => herr _ _) fun leaf hleaf => ?_
  cases gw.uid with
  | none => exact herr _ _
  | some uid =>
    rw [← Prog.bind_pure (applySecret _ _)]
    refine sat_applySecret trivial trivial (fun e => herr _ _) (fun e => herr _ _) fun _ => ?_
    refine ⟨keyPem, leaf.certPem, ?_, ?_, hlib.issueBrokerCert_signer hleaf, ?_, ?_⟩
    · rw [World.readPem, hkeySecret]
      exact hkeyPem
    · rw [servingCert, World.applySecret, World.readPem_setSecret_self]
      refine Secret.readPemKey_apply_of_some "tls.crt" (.text leaf.certPem) ?_
      rw [servingData, BTreeMap.getElem?_ofList]
      rfl
    · rw [hcertSecret]
      exact Option.some_ne_none _
    · exact World.secret?_applySecret_of_ne servingSecretName_ne_certName

/-- A pass that completes keeps the certificate, or issues one. -/
def PassPost (lib : CaLib) (pass : GatewayPass) (w : World) (x : Except ReconcileError Unit)
    (w' : World) : Prop :=
  x = .ok () → if pass.keeps lib w then w' = w else IssuePost lib pass.gw pass.parentName w x w'

theorem run_passPost (hlib : lib.Lawful)
    (hrun : (pass.prog lib).run answer pass.choices w = (.done (), w')) :
    PassPost lib pass w (.ok ()) w' := by
  obtain ⟨gw, ns, parentName, choices⟩ := pass
  cases choices with
  | nil => cases hrun
  | cons c cs =>
    have hsat : Prog.Sat answer (fun _ _ _ => True)
        (PassPost lib ⟨gw, ns, parentName, c :: cs⟩ w)
        (getOpt (servingSecretName gw.name) >>= fun existing =>
          if servingCertCurrent lib existing c.clock then pure ()
          else issueServingCert lib gw ns parentName) w := by
      refine sat_getOpt trivial (fun e h => by cases h) ?_
      by_cases hkeeps : servingCertCurrent lib (w.secret? (servingSecretName gw.name)) c.clock = true
      · rw [if_pos hkeeps]
        intro _
        rw [if_pos (show GatewayPass.keeps lib ⟨gw, ns, parentName, c :: cs⟩ w = true from hkeeps)]
      · rw [if_neg hkeeps]
        refine (issueServingCert_sat hlib gw ns parentName w).mono (fun _ _ _ h => h) ?_
        intro x v hissue _
        rw [if_neg (show ¬ GatewayPass.keeps lib ⟨gw, ns, parentName, c :: cs⟩ w = true from hkeeps)]
        exact hissue
    exact hsat.run_done hrun

theorem servingCert_of_keeps (h : pass.keeps lib w = true) :
    ∃ certPem, servingCert pass.gw.name w = some certPem := by
  have hcurrent : servingCertCurrent lib (w.secret? (servingSecretName pass.gw.name)) pass.now = true := h
  unfold servingCertCurrent at hcurrent
  split at hcurrent
  · cases hcurrent
  · next certPem hcert => exact ⟨certPem, hcert⟩

/-- A pass that completes serves a certificate of the bundle exactly when it follows the CA. -/
theorem serves_iff_follows (hlib : lib.Lawful)
    (hrun : (pass.prog lib).run answer pass.choices w = (.done (), w')) :
    Serves lib pass w' ↔ Follows lib pass w := by
  have hpost := run_passPost hlib hrun rfl
  unfold Follows
  by_cases hkeeps : pass.keeps lib w = true
  · rw [if_pos hkeeps] at hpost ⊢
    obtain ⟨certPem, hcert⟩ := servingCert_of_keeps hkeeps
    rw [hpost]
    constructor
    · rintro ⟨pem, hpem, hsigned⟩ pem' hpem'
      obtain rfl : pem = pem' := Option.some.inj (hpem.symm.trans hpem')
      exact hsigned
    · exact fun h => ⟨certPem, hcert, h certPem hcert⟩
  · rw [if_neg hkeeps] at hpost ⊢
    obtain ⟨keyPem, certPem, hkey, hcert, hsigner, _, hsame⟩ := hpost rfl
    constructor
    · rintro ⟨pem, hpem, key, hpemSigner, hbundle⟩
      obtain rfl : certPem = pem := Option.some.inj (hcert.symm.trans hpem)
      obtain rfl : lib.publicKeyOf keyPem = key := Option.some.inj (hsigner.symm.trans hpemSigner)
      exact ⟨keyPem, hkey, (BundleHas.congr hsame).mp hbundle⟩
    · rintro ⟨keyPem', hkey', hbundle⟩
      obtain rfl : keyPem = keyPem' := Option.some.inj (hkey.symm.trans hkey')
      exact ⟨certPem, hcert, _, hsigner, (BundleHas.congr hsame).mpr hbundle⟩

/-! ## Runs -/

/-- What happens to the cluster CA and to its gateways. -/
inductive ServingEvent where
  /-- A Kafka pass on one of its CAs, with any inputs and any faults. -/
  | kafka (call : CaCall)
  /-- Secrets of the cluster CA are lost. -/
  | lose (key cert : Bool)
  | gateway (pass : GatewayPass)

/-- The world without a Secret. -/
def dropSecret (lost : Bool) (name : String) (w : World) : World :=
  if lost then { w with secrets := w.secrets.erase name } else w

section Run

variable (lib parent)

def exec : ServingEvent → World → List World
  | .kafka call, w => call.exec lib w
  | .lose key cert, w => [dropSecret key (WhichCa.cluster.keyName parent)
      (dropSecret cert (WhichCa.cluster.certName parent) w)]
  | .gateway pass, w => (pass.prog lib).after answer pass.choices w

end Run

/-- The passes are about this cluster. -/
def ServingEvent.About (parent : String) : ServingEvent → Prop
  | .kafka call => call.kafka.name = parent
  | .lose _ _ => True
  | .gateway pass => pass.parentName = parent

/-- The key Secret is not lost alone. -/
def ServingEvent.Whole : ServingEvent → Prop
  | .lose key cert => key = true → cert = true
  | _ => True

instance : (e : ServingEvent) → Decidable (e.About parent)
  | .kafka call => inferInstanceAs (Decidable (call.kafka.name = parent))
  | .lose _ _ => isTrue trivial
  | .gateway pass => inferInstanceAs (Decidable (pass.parentName = parent))

instance : (e : ServingEvent) → Decidable e.Whole
  | .kafka _ => isTrue trivial
  | .lose key cert => inferInstanceAs (Decidable (key = true → cert = true))
  | .gateway _ => isTrue trivial

theorem secret?_dropSecret {lost : Bool} {name n : String} :
    (dropSecret lost name w).secret? n = if lost = true ∧ name = n then none else w.secret? n := by
  unfold dropSecret
  cases lost with
  | false => simp
  | true =>
    simp only [World.secret?, ↓reduceIte, true_and, Std.ExtTreeMap.getElem?_erase,
      Std.LawfulEqCmp.compare_eq_iff_eq]

@[simp] theorem draws_dropSecret {lost : Bool} {name : String} :
    (dropSecret lost name w).draws = w.draws := by
  unfold dropSecret
  split
  · rfl
  · rfl

/-! ## What a run keeps -/

/-- The writes of a gateway pass are to the Secret of the gateway. -/
def OwnWrites (gwName : String) (r : Req) : Prop :=
  ∀ name, r.secretName? = some name → name = servingSecretName gwName

theorem ownWrites_of_none {r : Req} (h : r.secretName? = none) : OwnWrites gwName r := by
  intro name hname
  rw [h] at hname
  cases hname

theorem existingCaSecret_makes (name : String) : (existingCaSecret name).Makes (OwnWrites gwName) := by
  apply (makes_getOpt (ownWrites_of_none rfl)).bind
  intro existing
  cases existing with
  | none => trivial
  | some secret => trivial

theorem readableKey_makes {R : Req → Prop} (name key : String) (secret : Secret) :
    (readableKey name key secret).Makes R := by
  unfold readableKey
  cases secret.readPemKey key with
  | none => trivial
  | some pem => trivial

theorem ensureServingCert_makes (gw : KafkaGrpcGateway) (ns parent : String) :
    (ensureServingCert lib gw ns parent).Makes (OwnWrites gw.name) := by
  apply (makes_now (ownWrites_of_none rfl)).bind
  intro now
  apply (makes_getOpt (ownWrites_of_none rfl)).bind
  intro existing
  apply Prog.makes_ite
  · trivial
  · apply (existingCaSecret_makes _).bind
    intro keySecret
    apply (existingCaSecret_makes _).bind
    intro certSecret
    apply (readableKey_makes _ _ _).bind
    intro keyPem
    apply (readableKey_makes _ _ _).bind
    intro certPem
    apply (makes_draw (ownWrites_of_none rfl)).bind
    intro d
    apply makes_orFail
    intro leaf _
    cases gw.uid with
    | none => trivial
    | some uid => exact makes_applySecret fun name h => (Option.some.inj h).symm

theorem caOk_of_frame {which : WhichCa} {a b : World} (h : CaOk lib which parent a)
    (hkey : b.secret? (which.keyName parent) = a.secret? (which.keyName parent))
    (hcert : b.secret? (which.certName parent) = a.secret? (which.certName parent))
    (hdraws : a.draws ≤ b.draws) : CaOk lib which parent b := by
  have htrans : CaTrans lib which true parent a b := .unchanged h hkey hcert
  exact htrans.ok hdraws h

theorem bothOk_gateway {a b : World} {r : Req} (hr : OwnWrites gwName r) (hab : Answered a r b)
    (h : BothOk lib parent a) : BothOk lib parent b := by
  intro which
  have hframe := hab.frame
  refine caOk_of_frame (h which) (hframe.secret _ fun hname => ?_) (hframe.secret _ fun hname => ?_)
    hframe.draws
  · exact servingSecretName_ne_keyName (hr _ hname).symm
  · exact servingSecretName_ne_certName (hr _ hname).symm

theorem bothOk_lose {key cert : Bool} (hwhole : key = true → cert = true) (h : BothOk lib parent w) :
    BothOk lib parent (dropSecret key (WhichCa.cluster.keyName parent)
      (dropSecret cert (WhichCa.cluster.certName parent) w)) := by
  intro which
  cases which with
  | cluster =>
    cases cert with
    | true =>
      refine .inl ?_
      rw [secret?_dropSecret, if_neg fun hname => keyName_ne_certName hname.2, secret?_dropSecret,
        if_pos ⟨rfl, rfl⟩]
    | false =>
      obtain rfl : key = false := by simpa using hwhole
      exact h .cluster
  | clients =>
    have hother : ∀ name, name ≠ WhichCa.cluster.keyName parent →
        name ≠ WhichCa.cluster.certName parent →
        (dropSecret key (WhichCa.cluster.keyName parent)
          (dropSecret cert (WhichCa.cluster.certName parent) w)).secret? name = w.secret? name := by
      intro name hkey hcert
      rw [secret?_dropSecret, if_neg fun hname => hkey hname.2.symm, secret?_dropSecret,
        if_neg fun hname => hcert hname.2.symm]
    refine caOk_of_frame (h .clients) (hother _ (keyName_ne_of_ne (by decide)) keyName_ne_certName)
      (hother _ keyName_ne_certName.symm (certName_ne_of_ne (by decide))) ?_
    simp

theorem bothOk_exec (hlib : lib.Lawful) {e : ServingEvent} (habout : e.About parent)
    (hwhole : e.Whole) (h : BothOk lib parent w) : ∀ v ∈ exec lib parent e w, BothOk lib parent v := by
  cases e with
  | kafka call => exact call.bothOk_exec hlib habout h
  | lose key cert =>
    intro v hv
    rw [List.mem_singleton.mp hv]
    exact bothOk_lose hwhole h
  | gateway pass =>
    have hmakes : (pass.prog lib).Makes (OwnWrites pass.gw.name) := ensureServingCert_makes _ _ _
    have hsat := @Prog.Makes.sat _ _ _ _ _ _ answer _ _ hmakes w
    refine Prog.Sat.forall_after (Q := fun _ _ => True) ?_ h pass.choices
    refine hsat.mono (fun a r b hstep hok => ?_) fun _ _ _ => trivial
    obtain ⟨hr, c, rfl⟩ := hstep
    exact bothOk_gateway hr (answered r c a) hok

/-- A pass over the gateway `edge` of the cluster `demo`. -/
def samplePass : GatewayPass where
  gw := { name := "edge", uid := some "uid" }
  ns := "kafka"
  parentName := "demo"
  choices := allAnswered

/-- The key of the cluster CA is replaced after the gateway got its certificate. -/
def replacedEvents : List ServingEvent :=
  [.kafka (sampleCall allAnswered false false), .gateway samplePass,
    .kafka (sampleCall allAnswered true false), .kafka (sampleCall allAnswered false true),
    .kafka (sampleCall allAnswered false true)]

end Gateway
