-- SUMMARY: Which requests of a pass leave a CA, and which leave the keystore.
import KrabkaOperator.ClusterCa.Leafs
import KrabkaOperator.Cluster.Pass

/-!
# Frames of a pass

The Secrets of the CAs, the keystore, the identity of the operator and the other
Secrets of a cluster have different names. A request that writes none of the two
Secrets of a CA leaves that CA.
-/

namespace Cluster

open Kube Crd Operator ClusterCa

variable {lib : CaLib} {cluster cluster' : String} {a b w w₀ : World} {r : Req}

/-! ## Names -/

theorem brokerKeystoreName_ne_keyName {which : WhichCa} :
    brokerKeystoreName cluster ≠ which.keyName cluster' := by
  cases which <;> exact Text.append_ne_append (by decide) (by decide)

theorem brokerKeystoreName_ne_certName {which : WhichCa} :
    brokerKeystoreName cluster ≠ which.certName cluster' := by
  cases which <;> exact Text.append_ne_append (by decide) (by decide)

theorem brokerKeystoreName_notMem : brokerKeystoreName cluster ∉ neutralNames cluster' := by
  simp only [neutralNames, List.mem_cons, List.not_mem_nil, or_false, not_or]
  refine ⟨?_, ?_, ?_⟩ <;> exact Text.append_ne_append (by decide) (by decide)

theorem keyName_notMem {which : WhichCa} : which.keyName cluster ∉ neutralNames cluster' := by
  simp only [neutralNames, List.mem_cons, List.not_mem_nil, or_false, not_or]
  cases which <;> refine ⟨?_, ?_, ?_⟩ <;> exact Text.append_ne_append (by decide) (by decide)

theorem certName_notMem {which : WhichCa} : which.certName cluster ∉ neutralNames cluster' := by
  simp only [neutralNames, List.mem_cons, List.not_mem_nil, or_false, not_or]
  cases which <;> refine ⟨?_, ?_, ?_⟩ <;> exact Text.append_ne_append (by decide) (by decide)

/-- No TLS user of the cluster has the name of a Secret of the CA. -/
def NoUserNamedLike (which : WhichCa) (cluster : String) (w : World) : Prop :=
  ∀ u ∈ managedUsers cluster w.users, u.name ≠ which.keyName cluster ∧
    u.name ≠ which.certName cluster

instance (which : WhichCa) (cluster : String) (w : World) :
    Decidable (NoUserNamedLike which cluster w) := inferInstanceAs (Decidable (∀ u ∈ _, _))

/-! ## Steps that leave a CA -/

/-- The Secrets of a CA are the same, and the draws have not gone down. -/
structure SameCa (which : WhichCa) (cluster : String) (a b : World) : Prop where
  key : b.secret? (which.keyName cluster) = a.secret? (which.keyName cluster)
  cert : b.secret? (which.certName cluster) = a.secret? (which.certName cluster)
  draws : a.draws ≤ b.draws

namespace SameCa

variable {which : WhichCa} {K : KeyPart} {C : CertPart}

theorem certPartIn (h : SameCa which cluster a b) :
    ClusterCa.certPartIn b which cluster = ClusterCa.certPartIn a which cluster := by
  rw [ClusterCa.certPartIn, ClusterCa.certPartIn, h.cert]

theorem stored (h : SameCa which cluster a b) :
    Stored which cluster b K C ↔ Stored which cluster a K C := by
  constructor
  · rintro ⟨hk, hc⟩
    exact ⟨by rwa [keyPartIn, ← h.key], by rwa [ClusterCa.certPartIn, ← h.cert]⟩
  · rintro ⟨hk, hc⟩
    exact ⟨by rwa [keyPartIn, h.key], by rwa [ClusterCa.certPartIn, h.cert]⟩

theorem ok (h : SameCa which cluster a b) (hok : CaOk lib which cluster a) :
    CaOk lib which cluster b :=
  (CaTrans.unchanged hok h.key h.cert : CaTrans lib which true cluster a b).ok h.draws hok

end SameCa

theorem SameCa.of_answered {which : WhichCa} (hans : Answered a r b)
    (hkey : r.secretName? ≠ some (which.keyName cluster))
    (hcert : r.secretName? ≠ some (which.certName cluster)) : SameCa which cluster a b :=
  ⟨hans.frame.secret _ hkey, hans.frame.secret _ hcert, hans.frame.draws⟩

/-- A call on one CA leaves the other one. -/
theorem SameCa.of_callFrame {which which' : WhichCa} (h : CallFrame which' cluster w a r b)
    (hne : which ≠ which') : SameCa which cluster a b where
  key := h.frame.secret _ (keyName_ne_of_ne hne) keyName_ne_certName
  cert := h.frame.secret _ (Ne.symm keyName_ne_certName) (certName_ne_of_ne hne)
  draws := h.draws

theorem SameCa.of_neutral {which : WhichCa} (h : Neutral cluster a r b) :
    SameCa which cluster a b :=
  ⟨h.secret keyName_notMem, h.secret certName_notMem, h.draws⟩

theorem SameCa.of_onlyDraws {which : WhichCa} (h : OnlyDraws a b) : SameCa which cluster a b := by
  obtain ⟨n, hn, rfl⟩ := h
  exact ⟨rfl, rfl, hn⟩

/-! ## The keystore program -/

section Keystore

variable {kafka : Kafka} {ca : CaMaterial} {force : Bool} {P : Int → Prop}
  {requests : List BrokerCertRequest}

theorem KeystoreStep.answered (h : KeystoreStep lib kafka ca force P requests w a r b) :
    (r.secretName? = none ∧ OnlyDraws a b) ∨
      (r.secretName? = some (brokerKeystoreName kafka.name) ∧ Answered a r b) := by
  rcases h.after with ⟨hr, hab⟩ | ⟨data, -, rfl, hb⟩
  · refine .inl ⟨?_, hab⟩
    rcases hr with rfl | rfl | rfl <;> rfl
  · refine .inr ⟨rfl, ?_⟩
    rcases hb with rfl | rfl
    · exact .same (by simp)
    · exact .applied

theorem KeystoreStep.sameCa {which : WhichCa}
    (h : KeystoreStep lib kafka ca force P requests w a r b) : SameCa which kafka.name a b := by
  rcases KeystoreStep.answered h with ⟨-, hab⟩ | ⟨hr, hans⟩
  · exact .of_onlyDraws hab
  · refine .of_answered hans ?_ ?_
    · rw [hr]
      exact fun heq => brokerKeystoreName_ne_keyName (Option.some_inj.mp heq)
    · rw [hr]
      exact fun heq => brokerKeystoreName_ne_certName (Option.some_inj.mp heq)

theorem KeystoreStep.quiet (h : KeystoreStep lib kafka ca force P requests w a r b) :
    r.quiet = true := by
  rcases h.after with ⟨hr, -⟩ | ⟨data, -, rfl, -⟩
  · rcases hr with rfl | rfl | rfl <;> rfl
  · rfl

/-- The program changes no other object than the keystore. -/
theorem KeystoreStep.rest (h : KeystoreStep lib kafka ca force P requests w a r b) :
    b.users = a.users ∧ b.pools = a.pools ∧ b.statefulSets = a.statefulSets := by
  rcases KeystoreStep.answered h with ⟨-, n, -, rfl⟩ | ⟨hr, hans⟩
  · exact ⟨rfl, rfl, rfl⟩
  · exact ⟨hans.frame.users, hans.pools (KeystoreStep.quiet h), hans.frame.statefulSets⟩

end Keystore

/-- The phase of a stored CA. -/
def phase? (w : World) (which : WhichCa) (cluster : String) : Option CaPhase :=
  (certPartIn w which cluster).map (·.phase)

theorem phase?_eq_of_stored {which : WhichCa} {K : KeyPart} {C : CertPart}
    (h : Stored which cluster w K C) : phase? w which cluster = some C.phase := by
  rw [phase?, h.cert]
  rfl

theorem SameCa.phase? {which : WhichCa} (h : SameCa which cluster a b) :
    Cluster.phase? b which cluster = Cluster.phase? a which cluster := by
  rw [Cluster.phase?, Cluster.phase?, h.certPartIn]

end Cluster
