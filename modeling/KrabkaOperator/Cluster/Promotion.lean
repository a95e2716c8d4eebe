-- SUMMARY: The broker leafs along the replacement of the cluster CA key: they are signed by the current key when the old trust is pruned, unless a promoting pass stops before its keystore write.
import KrabkaOperator.ClusterCa.Leafs
import KrabkaOperator.Cluster.Frames
import KrabkaOperator.Cluster.Run

/-!
# Leafs and the promotion of the cluster CA

Only the pass that promotes the new key asks for a reissue of the leafs, and it
writes the keystore long after it has stored the promotion. A run in which each
promotion is followed by the keystore write of its pass keeps the leafs signed by
the current key. A pass that stops in between loses the reissue.
-/

namespace Cluster

open Kube Crd Operator ClusterCa

/-! ## The leafs of a cluster -/

/-- The stored leaf of a broker. -/
def leaf? (w : World) (cluster : String) (id : Int) : Option ByteString :=
  (storedEntries w (brokerKeystoreName cluster))[crtKey id]?

/-- Every stored leaf is signed by `key`. -/
def LeafsSigned (lib : CaLib) (cluster : String) (w : World) (key : Pem) : Prop :=
  ∀ id, IsNodeId id → ∀ v, leaf? w cluster id = some v → SignedBy lib key v

/-- The leafs follow the active key, unless it is promoted half-way. -/
structure LeafOk (lib : CaLib) (cluster : String) (w : World) : Prop where
  absent : w.secret? (WhichCa.cluster.certName cluster) = none →
    ∀ id, IsNodeId id → leaf? w cluster id = none
  signed : ∀ {K C}, Stored .cluster cluster w K C → ¬ HalfPromoted K C →
    LeafsSigned lib cluster w K.keyPem

/-- The operator alone has set the stored leafs. -/
def LeafsOwned (cluster : String) (w : World) : Prop :=
  ∀ id, IsNodeId id → ∀ s, w.secret? (brokerKeystoreName cluster) = some s →
    Fields.OwnedBy fieldManager (crtKey id) s.data

/-- The step promotes the cluster CA: its cert Secret leaves the trust phase. -/
def Promotes (cluster : String) (st : Prog.Step Req World) : Prop :=
  phase? st.before .cluster cluster = some .keyReplaceTrust ∧
    phase? st.after .cluster cluster = some .keyReplacePromote

/-- The step has applied the keystore. -/
def KeystoreWritten (cluster : String) (st : Prog.Step Req World) : Prop :=
  ∃ cfg, st.req = .applySecret (brokerKeystoreName cluster) cfg ∧
    st.after = st.before.applySecret (brokerKeystoreName cluster) cfg

section Leafs

variable {lib : CaLib} {cluster : String} {a b w w₀ : World} {r : Req}

theorem leaf?_eq_of_secret?
    (h : b.secret? (brokerKeystoreName cluster) = a.secret? (brokerKeystoreName cluster))
    (id : Int) : leaf? b cluster id = leaf? a cluster id := by
  rw [leaf?, leaf?, storedEntries, storedEntries, h]

/-- Steps that leave the cluster CA and create no leaf keep the leafs in order. -/
theorem LeafOk.of_sameCa (h : LeafOk lib cluster a) (hca : SameCa .cluster cluster a b)
    (hleaf : ∀ id, IsNodeId id → ∀ v, leaf? b cluster id = some v → leaf? a cluster id = some v) :
    LeafOk lib cluster b where
  absent hnone id hid := by
    have ha := h.absent (hca.cert.symm.trans hnone) id hid
    cases hb : leaf? b cluster id with
    | none => rfl
    | some v => exact absurd (hleaf id hid v hb) (by simp [ha])
  signed hst hhalf id hid v hv := h.signed (hca.stored.mp hst) hhalf id hid v (hleaf id hid v hv)

theorem LeafOk.of_no_leaf (h : ∀ id, IsNodeId id → leaf? b cluster id = none) :
    LeafOk lib cluster b where
  absent _ := h
  signed _ _ id hid v hv := absurd hv (by simp [h id hid])

/-- A write of the machine keeps the leafs in order, unless it is the promotion. -/
theorem LeafOk.write {conv : Bool} (h : LeafOk lib cluster a)
    (hkeystore : b.secret? (brokerKeystoreName cluster) = a.secret? (brokerKeystoreName cluster))
    (htrans : CaTrans lib .cluster conv cluster a b) :
    LeafOk lib cluster b ∨ Promotes cluster ⟨a, r, b⟩ := by
  have hleaf := leaf?_eq_of_secret? hkeystore
  -- Where the key stays, so do the signatures.
  have hnot : ∀ {K C}, C.phase ≠ .keyReplaceTrust → ¬ HalfPromoted K C :=
    fun hphase hhalf => hphase hhalf.1
  have hkey : ∀ {K K' C C'}, Stored .cluster cluster a K C → Stored .cluster cluster b K' C' →
      K'.keyPem = K.keyPem → (¬ HalfPromoted K' C' → ¬ HalfPromoted K C) →
      LeafOk lib cluster b := by
    intro K K' C C' hst hst' hpem hhalf
    refine ⟨fun hnone => absurd hnone hst'.secret?, fun {K₁ C₁} hst₁ hhalf₁ id hid v hv => ?_⟩
    obtain ⟨rfl, rfl⟩ := hst'.unique hst₁
    rw [hleaf] at hv
    rw [hpem]
    exact h.signed hst (hhalf hhalf₁) id hid v hv
  cases htrans with
  | absent before after =>
    left
    refine .of_no_leaf fun id hid => ?_
    rw [hleaf]
    exact h.absent before id hid
  | created before after =>
    left
    refine .of_no_leaf fun id hid => ?_
    rw [hleaf]
    exact h.absent before id hid
  | same before after => exact .inl (hkey before after rfl id)
  | @write K K' C C' before after write =>
    cases write with
    | renew phase => exact .inl (hkey before after rfl fun _ => hnot (by simp [phase]))
    | stage phase => exact .inl (hkey before after rfl fun _ => hnot (by simp [phase]))
    | trust phase => exact .inl (hkey before after rfl fun _ => hnot (by simp [phase]))
    | promoteKey converged phase =>
      -- The promoted key is also the staged one: the state is half-promoted.
      left
      refine ⟨fun hnone => absurd hnone after.secret?, fun {K₁ C₁} hst₁ hhalf₁ => ?_⟩
      obtain ⟨rfl, rfl⟩ := after.unique hst₁
      exact absurd ⟨phase, rfl⟩ hhalf₁
    | promoteCert converged phase =>
      right
      refine ⟨?_, phase?_eq_of_stored after⟩
      rw [phase?_eq_of_stored before, phase]
    | pruneKey converged phase =>
      exact .inl (hkey before after rfl fun _ => hnot (by simp [phase]))
    | pruneCert converged phase =>
      exact .inl (hkey before after rfl fun _ => hnot (by simp [phase]))
    | expire phase => exact .inl (hkey before after rfl fun _ => hnot (by simp [phase]))

end Leafs

/-! ## One pass -/

/-- The invariant inside of a pass that started in `w₀`: the leafs are in order, or the
    pass has promoted the CA and has not written the keystore yet. -/
structure Guarded (lib : CaLib) (cluster : String) (w₀ w : World) : Prop where
  ok : CaOk lib .cluster cluster w
  owned : LeafsOwned cluster w
  users : w.users = w₀.users
  leafs : LeafOk lib cluster w ∨ Promotes cluster ⟨w₀, .now, w⟩

/-- What each request of a pass does. -/
structure PromotionStep (lib : CaLib) (cluster : String) (w₀ a : World) (r : Req) (b : World) :
    Prop where
  guarded : Guarded lib cluster w₀ b
  keeps : LeafOk lib cluster a → LeafOk lib cluster b ∨ Promotes cluster ⟨a, r, b⟩
  repairs : KeystoreWritten cluster ⟨a, r, b⟩ → LeafOk lib cluster b

section Pass

variable {lib : CaLib} {cluster : String} {a b w w₀ : World} {r : Req}

theorem LeafsOwned.of_secret? (h : LeafsOwned cluster a)
    (hkeystore : b.secret? (brokerKeystoreName cluster) = a.secret? (brokerKeystoreName cluster)) :
    LeafsOwned cluster b := by
  intro id hid s hs
  exact h id hid s (hkeystore.symm.trans hs)

theorem Promotes.of_sameCa {r' : Req} (h : Promotes cluster ⟨w₀, r, a⟩)
    (hca : SameCa .cluster cluster a b) : Promotes cluster ⟨w₀, r', b⟩ :=
  ⟨h.1, hca.phase?.trans h.2⟩

/-- A request that leaves the cluster CA and the keystore. -/
theorem Guarded.step (h : Guarded lib cluster w₀ a) (hca : SameCa .cluster cluster a b)
    (hkeystore : b.secret? (brokerKeystoreName cluster) = a.secret? (brokerKeystoreName cluster))
    (husers : b.users = a.users) (hname : r.secretName? ≠ some (brokerKeystoreName cluster)) :
    PromotionStep lib cluster w₀ a r b := by
  have hleaf : ∀ id, IsNodeId id → ∀ v, leaf? b cluster id = some v → leaf? a cluster id = some v :=
    fun id _ v hv => (leaf?_eq_of_secret? hkeystore id).symm.trans hv
  refine ⟨⟨hca.ok h.ok, h.owned.of_secret? hkeystore, husers.trans h.users, ?_⟩,
    fun ha => .inl (ha.of_sameCa hca hleaf), ?_⟩
  · rcases h.leafs with hok | hpending
    · exact .inl (hok.of_sameCa hca hleaf)
    · exact .inr (hpending.of_sameCa hca)
  · rintro ⟨cfg, rfl, -⟩
    exact absurd rfl hname

theorem guarded_of_neutral (h : Guarded lib cluster w₀ a) (hn : Neutral cluster a r b) :
    PromotionStep lib cluster w₀ a r b :=
  h.step (.of_neutral hn) (hn.secret brokerKeystoreName_notMem) hn.users
    fun heq => brokerKeystoreName_notMem (hn.writes heq)

/-! ### The users -/

/-- An identity has no entries of the keystore. -/
theorem crtKey_notMem_identityKeys {id : Int} (hid : IsNodeId id) :
    crtKey id ∉ User.identityKeys := by
  intro hmem
  have hnone : ∀ key ∈ User.identityKeys, keyNodeId? key = none := by decide
  have hnode := keyNodeId?_crtKey hid
  rw [hnone _ hmem] at hnode
  cases hnode

/-- Where the operator alone has set the leafs, an apply leaves those that it lists. -/
theorem leaf?_applySecret (h : LeafsOwned cluster a) {id : Int} (hid : IsNodeId id)
    (cfg : SecretConfig) : leaf? (a.applySecret (brokerKeystoreName cluster) cfg) cluster id =
      cfg.data[crtKey id]? := by
  have howned : Fields.OwnedBy fieldManager (crtKey id)
      ((a.secret? (brokerKeystoreName cluster)).getD Secret.empty).data := by
    cases hs : a.secret? (brokerKeystoreName cluster) with
    | none => exact fun o ho => by simp [Secret.empty] at ho
    | some s => exact h id hid s hs
  simp only [leaf?, storedEntries, World.secret?_applySecret_self, Option.map_some,
    Option.getD_some, Fields.getElem?_values, Fields.value?, Secret.apply,
    Fields.getElem?_apply_of_ownedBy howned, Option.map_map]
  cases cfg.data[crtKey id]? <;> rfl

theorem LeafsOwned.applySecret (h : LeafsOwned cluster a) (cfg : SecretConfig) :
    LeafsOwned cluster (a.applySecret (brokerKeystoreName cluster) cfg) := by
  intro id hid s hs
  rw [World.secret?_applySecret_self, Option.some_inj] at hs
  subst hs
  refine Fields.OwnedBy.apply ?_
  cases ha : a.secret? (brokerKeystoreName cluster) with
  | none => exact fun o ho => by simp [Secret.empty] at ho
  | some s => exact h id hid s ha

/-- An apply of the keystore after which the leafs are in order. -/
theorem Guarded.applied (h : Guarded lib cluster w₀ a) {cfg : SecretConfig}
    (hans : Answered a (.applySecret (brokerKeystoreName cluster) cfg) b)
    (hleafs : LeafOk lib cluster (a.applySecret (brokerKeystoreName cluster) cfg)) :
    PromotionStep lib cluster w₀ a (.applySecret (brokerKeystoreName cluster) cfg) b := by
  have hca : SameCa .cluster cluster a b := .of_answered hans
    (fun heq => brokerKeystoreName_ne_keyName (Option.some_inj.mp heq))
    (fun heq => brokerKeystoreName_ne_certName (Option.some_inj.mp heq))
  have hrepairs : KeystoreWritten cluster ⟨a, .applySecret (brokerKeystoreName cluster) cfg, b⟩ →
      LeafOk lib cluster b := by
    rintro ⟨cfg', hreq, (hb : b = _)⟩
    cases hreq
    rw [hb]
    exact hleafs
  cases hans with
  | same hr => exact ⟨h, fun ha => .inl ha, hrepairs⟩
  | applied =>
    exact ⟨⟨hca.ok h.ok, h.owned.applySecret cfg, h.users, .inl hleafs⟩, fun _ => .inl hleafs,
      hrepairs⟩

/-- A request for the Secret of a user that is not named like the CA. -/
theorem guarded_of_user {name : String} {key : Pem} (h : Guarded lib cluster w₀ a)
    (hr : User.UserReq lib name key r) (hans : Answered a r b)
    (hkey : name ≠ WhichCa.cluster.keyName cluster)
    (hcert : name ≠ WhichCa.cluster.certName cluster) : PromotionStep lib cluster w₀ a r b := by
  have hca : SameCa .cluster cluster a b := .of_answered hans
    (fun heq => hkey (hr.secretName? heq).symm) (fun heq => hcert (hr.secretName? heq).symm)
  by_cases hname : r.secretName? = some (brokerKeystoreName cluster)
  swap
  · exact h.step hca (hans.frame.secret _ hname) hans.frame.users hname
  -- The user is named like the keystore: an identity replaces the leafs.
  cases hr with
  | get => cases hname
  | now => cases hname
  | draw => cases hname
  | issue signed =>
    obtain rfl : name = brokerKeystoreName cluster := Option.some_inj.mp hname
    refine h.applied hans (.of_no_leaf fun id hid => ?_)
    rw [leaf?_applySecret h.owned hid]
    exact User.identityData_of_notMem (crtKey_notMem_identityKeys hid)
  | @refresh trustBundlePem =>
    obtain rfl : name = brokerKeystoreName cluster := Option.some_inj.mp hname
    have hrepairs : ∀ {cfg}, KeystoreWritten cluster
        ⟨a, .mergeSecret (brokerKeystoreName cluster) cfg, b⟩ → LeafOk lib cluster b := by
      rintro cfg ⟨_, hreq, -⟩
      cases hreq
    cases hans with
    | same hr => exact ⟨h, fun ha => .inl ha, hrepairs⟩
    | @merged _ _ s hs =>
      have hentry : ∀ id, IsNodeId id → (s.merge defaultManager
          ⟨∅, BTreeMap.ofList [("ca.crt", .text trustBundlePem)]⟩).data[crtKey id]? =
            s.data[crtKey id]? := by
        intro id hid
        refine Fields.getElem?_merge_of_none (User.trustData_of_ne fun heq => ?_)
        exact crtKey_notMem_identityKeys hid (heq ▸ by decide)
      have hleaf : ∀ id, IsNodeId id → leaf? (a.setSecret (brokerKeystoreName cluster)
          (s.merge defaultManager ⟨∅, BTreeMap.ofList [("ca.crt", .text trustBundlePem)]⟩)) cluster
          id = leaf? a cluster id := by
        intro id hid
        simp only [leaf?, storedEntries, World.secret?_setSecret_self, hs, Option.map_some,
          Option.getD_some, Fields.getElem?_values, Fields.value?, hentry id hid]
      refine ⟨⟨hca.ok h.ok, ?_, h.users, ?_⟩, ?_, hrepairs⟩
      · intro id hid s' hs' o ho
        rw [World.secret?_setSecret_self, Option.some_inj] at hs'
        subst hs'
        exact h.owned id hid s hs o ((hentry id hid).symm.trans ho)
      · rcases h.leafs with hok | hpending
        · exact .inl (hok.of_sameCa hca fun id hid v hv => (hleaf id hid).symm.trans hv)
        · exact .inr (hpending.of_sameCa hca)
      · exact fun ha => .inl (ha.of_sameCa hca fun id hid v hv => (hleaf id hid).symm.trans hv)

/-! ### The CA calls -/

/-- What the call on the cluster CA reports: the stored CA, and a reissue where the leafs
    may not be in order. -/
structure Reported (lib : CaLib) (cluster : String) (o : CaReconcileOutcome) (w : World) : Prop where
  outcome : ∃ K C, OutcomeOk lib .cluster cluster w o K C
  leafs : LeafOk lib cluster w ∨ o.leafTransition.requiresReissue = true

theorem PromotionStep.reported {o : CaReconcileOutcome} (h : PromotionStep lib cluster w₀ a r b)
    (hca : SameCa .cluster cluster a b) (hrep : Reported lib cluster o a) :
    Reported lib cluster o b where
  outcome := by
    obtain ⟨K, C, hout⟩ := hrep.outcome
    exact ⟨K, C, { hout with stored := hca.stored.mpr hout.stored }⟩
  leafs := by
    rcases hrep.leafs with hok | hreissue
    · rcases h.keeps hok with hok' | ⟨htrust, hpromote⟩
      · exact .inl hok'
      · rw [hca.phase?, htrust] at hpromote
        cases hpromote
    · exact .inr hreissue

/-- A request of the call that has found the cert Secret of `w₀`. -/
theorem Guarded.call {conv : Bool} (h : Guarded lib cluster w₀ a)
    (hw : w.secret? (WhichCa.cluster.certName cluster) =
      w₀.secret? (WhichCa.cluster.certName cluster))
    (hstep : CaStep lib .cluster conv cluster a b) (hframe : CallFrame .cluster cluster w a r b) :
    PromotionStep lib cluster w₀ a r b := by
  have hkeystore : b.secret? (brokerKeystoreName cluster) = a.secret? (brokerKeystoreName cluster) :=
    hstep.frame.secret _ brokerKeystoreName_ne_keyName brokerKeystoreName_ne_certName
  have hwritten : ¬ KeystoreWritten cluster ⟨a, r, b⟩ := by
    rintro ⟨cfg, rfl, -⟩
    rcases hframe.writes _ rfl with heq | heq
    · exact brokerKeystoreName_ne_keyName heq
    · exact brokerKeystoreName_ne_certName heq
  refine ⟨⟨hstep.ok h.ok, h.owned.of_secret? hkeystore, hstep.frame.users.trans h.users, ?_⟩,
    fun ha => ha.write hkeystore hstep.trans, fun hwr => absurd hwr hwritten⟩
  -- The cert Secret is written once, so the promotion starts from `w₀` and is the last write.
  have honce : phase? b .cluster cluster = phase? a .cluster cluster ∨
      phase? a .cluster cluster = phase? w₀ .cluster cluster := by
    rcases hframe.once with ⟨-, heq⟩ | heq
    · exact .inl (by rw [phase?, phase?, certPartIn, certPartIn, heq])
    · exact .inr (by rw [phase?, phase?, certPartIn, certPartIn, heq, hw])
  rcases h.leafs with hok | hpending
  · rcases hok.write (r := r) hkeystore hstep.trans with hok' | ⟨htrust, hpromote⟩
    · exact .inl hok'
    · rcases honce with heq | heq
      · rw [heq, htrust] at hpromote
        cases hpromote
      · exact .inr ⟨heq.symm.trans htrust, hpromote⟩
  · rcases honce with heq | heq
    · exact .inr ⟨hpending.1, heq.trans hpending.2⟩
    · have := hpending.1.symm.trans (heq.symm.trans hpending.2)
      cases this

theorem clusterCall_reported {pass : KafkaPass} (hlib : lib.Lawful) {conv : Bool} {now : Int}
    (h : Guarded lib pass.kafka.name w₀ w)
    (hw : w.secret? (WhichCa.cluster.certName pass.kafka.name) =
      w₀.secret? (WhichCa.cluster.certName pass.kafka.name)) :
    Prog.Sat answer (PromotionStep lib pass.kafka.name w₀)
      (fun x v => Guarded lib pass.kafka.name w₀ v ∧
        ∀ out, x = .ok out → Reported lib pass.kafka.name out v)
      (clusterCall lib pass conv now) w := by
  have hsat := (reconcileCa_sat hlib h.ok (pass.kafka.annotations.contains annForceRenew ||
    pass.kafka.annotations.contains annRenewAfter)
    (pass.kafka.annotations.contains annForceReplaceKey) conv now).and
      (@reconcileCa_frame lib pass.kafka .cluster _ _ conv now w)
  refine (hsat.stage (I := Guarded lib pass.kafka.name w₀) ?_ h).mono (fun _ _ _ h => h) ?_
  · intro a r b ha hab
    have hstep := ha.call hw hab.1 hab.2
    exact ⟨hstep, hstep.guarded⟩
  · rintro x v ⟨⟨hpost, -⟩, hv⟩
    refine ⟨hv, fun out hout => ?_⟩
    obtain ⟨K, C, hok, -, hcase⟩ := hpost out hout
    refine ⟨⟨K, C, hok⟩, ?_⟩
    rcases hv.leafs with hleafs | hpending
    · exact .inl hleafs
    · -- The pass has promoted the CA, so the call asks for a reissue.
      have hphase : C.phase = .keyReplacePromote := by
        have := hpending.2
        rw [phase?_eq_of_stored hok.stored, Option.some_inj] at this
        exact this
      rcases hcase with ⟨-, hidle⟩ | ⟨K₀, C₀, hst₀, hrot⟩
      · rw [hphase] at hidle
        cases hidle
      · rcases hrot.reissue hphase with hreissue | ⟨rfl, -⟩
        · exact .inr (by simp [CaLeafTransition.requiresReissue, hreissue])
        · have htrust := hpending.1
          rw [phase?, certPartIn, ← hw, ← certPartIn, hst₀.cert, Option.map_some, hphase] at htrust
          cases htrust

/-! ### The keystore -/

/-- The keystore write of a pass puts the leafs in order. -/
theorem Guarded.keystore {pass : KafkaPass} {o : CaReconcileOutcome} {force : Bool}
    {P : Int → Prop} {requests : List BrokerCertRequest} (h : Guarded lib pass.kafka.name w₀ a)
    (hrep : Reported lib pass.kafka.name o w)
    (hforce : o.leafTransition.requiresReissue = true → force = true)
    (hstep : KeystoreStep lib pass.kafka o.signingMaterial force P requests w a r b) :
    PromotionStep lib pass.kafka.name w₀ a r b := by
  obtain ⟨hdraws, ⟨hr, hab⟩ | ⟨data, hdata, rfl, hb⟩⟩ := hstep
  · refine h.step (.of_onlyDraws hab) (hab.secret? _) ?_ ?_
    · obtain ⟨n, -, rfl⟩ := hab
      rfl
    · rcases hr with rfl | rfl | rfl <;> simp [Req.secretName?]
  · have hans : Answered a (.applySecret (brokerKeystoreName pass.kafka.name) ⟨∅, data⟩) b := by
      rcases hb with rfl | rfl
      · exact .same (by simp)
      · exact .applied
    have hkeep : SameCa .cluster pass.kafka.name w
        (a.applySecret (brokerKeystoreName pass.kafka.name) ⟨∅, data⟩) := by
      obtain ⟨n, hn, rfl⟩ := hdraws
      exact ⟨World.secret?_applySecret_of_ne brokerKeystoreName_ne_keyName,
        World.secret?_applySecret_of_ne brokerKeystoreName_ne_certName, hn⟩
    obtain ⟨K, C, hout⟩ := hrep.outcome
    refine h.applied hans ⟨fun hnone => ?_, fun {K₁ C₁} hst hhalf id hid v hv => ?_⟩
    · exact absurd (hkeep.cert.symm.trans hnone) hout.stored.secret?
    · obtain ⟨rfl, rfl⟩ := hout.stored.unique (hkeep.stored.mp hst)
      rw [leaf?_applySecret h.owned hid] at hv
      rcases hdata.leaf hid hv with hsigned | ⟨hnoforce, hold⟩
      · rwa [hout.keyPem] at hsigned
      · rcases hrep.leafs with hok | hreissue
        · exact hok.signed hout.stored hhalf id hid v hold
        · rw [hforce hreissue] at hnoforce
          cases hnoforce

/-! ### The stages -/

/-- The invariants of the stages of a pass that starts in `w₀`. -/
def promotionStages (lib : CaLib) (cluster : String) (w₀ : World) : Stages where
  start w := Guarded lib cluster w₀ w ∧
    w.secret? (WhichCa.cluster.certName cluster) = w₀.secret? (WhichCa.cluster.certName cluster)
  cluster o w := Guarded lib cluster w₀ w ∧ Reported lib cluster o w
  clients o _ w := Guarded lib cluster w₀ w ∧ Reported lib cluster o w
  users o _ w := Guarded lib cluster w₀ w ∧ Reported lib cluster o w
  keystore _ _ _ w := Guarded lib cluster w₀ w
  failed w := Guarded lib cluster w₀ w
  finished w := Guarded lib cluster w₀ w

theorem promotionStages_sound (hlib : lib.Lawful) {pass : KafkaPass}
    (hnames : NoUserNamedLike .cluster pass.kafka.name w₀) :
    (promotionStages lib pass.kafka.name w₀).Sound lib pass id
      (PromotionStep lib pass.kafka.name w₀) w₀ := by
  have hneutral : Kept pass.kafka.name (PromotionStep lib pass.kafka.name w₀)
      (Guarded lib pass.kafka.name w₀) := by
    intro a r b hr hans ha
    have hstep := guarded_of_neutral ha (hr.neutral hans)
    exact ⟨hstep, hstep.guarded⟩
  have hreported : ∀ o, Kept pass.kafka.name (PromotionStep lib pass.kafka.name w₀)
      (fun w => Guarded lib pass.kafka.name w₀ w ∧ Reported lib pass.kafka.name o w) := by
    intro o a r b hr hans ha
    have hstep := guarded_of_neutral ha.1 (hr.neutral hans)
    exact ⟨hstep, hstep.guarded, hstep.reported (.of_neutral (hr.neutral hans)) ha.2⟩
  have hadopt : ∀ w hash, Guarded lib pass.kafka.name w₀ w →
      Prog.Sat answer (PromotionStep lib pass.kafka.name w₀)
        (fun x v => x = .ok () → Guarded lib pass.kafka.name w₀ v)
        (adoptPools pass.kafka (w₀.poolsOf pass.kafka.name) hash) w := by
    intro w hash hw
    refine ((adoptPools_makes _ _ _).stage ?_ hw).mono (fun _ _ _ h => h) fun _ _ h _ => h
    rintro a _ c ⟨name, hash, rfl⟩ ha
    have hans := answered (.labelPool name hash) c a
    have hstep : PromotionStep lib pass.kafka.name w₀ a (.labelPool name hash) _ :=
      ha.step (.of_answered hans (by simp [Req.secretName?]) (by simp [Req.secretName?]))
        (hans.frame.secret _ (by simp [Req.secretName?])) hans.frame.users
        (by simp [Req.secretName?])
    exact ⟨hstep, hstep.guarded⟩
  constructor
  case keptStart =>
    intro a r b hr hans ha
    have hn := hr.neutral hans
    have hstep := guarded_of_neutral ha.1 hn
    exact ⟨hstep, hstep.guarded, (hn.secret certName_notMem).trans ha.2⟩
  case keptCluster => exact hreported
  case keptClients => exact fun o _ => hreported o
  case keptUsers => exact fun o _ => hreported o
  case keptKeystore => exact fun _ _ _ => hneutral
  case keptFailed => exact hneutral
  case clusterCall =>
    intro w now hw
    refine (clusterCall_reported hlib hw.1 hw.2).mono (fun _ _ _ h => h) fun x v hx => ?_
    cases x with
    | error e => exact hx.1
    | ok out => exact ⟨hx.1, hx.2 out rfl⟩
  case clientsCall =>
    intro w now o hw
    refine ((reconcileCa_frame pass.kafka .clients _ _ _ now w).stage (I := fun w =>
      Guarded lib pass.kafka.name w₀ w ∧ Reported lib pass.kafka.name o w) ?_ hw).mono
      (fun _ _ _ h => h) fun x v hx => ?_
    · intro a r b ha hab
      have hca : SameCa .cluster pass.kafka.name a b := .of_callFrame hab (by decide)
      have hstep := ha.1.step hca (hab.frame.secret _ brokerKeystoreName_ne_keyName
        brokerKeystoreName_ne_certName) hab.frame.users fun heq => by
          rcases hab.writes _ heq with h | h
          · exact brokerKeystoreName_ne_keyName h
          · exact brokerKeystoreName_ne_certName h
      exact ⟨hstep, hstep.guarded, hstep.reported hca ha.2⟩
    · cases x with
      | error e => exact hx.2.1
      | ok out => exact hx.2
  case syncUsers =>
    intro w o o' hw
    refine ((syncUsers_sat hlib pass.kafka.name o' w).stage (I := fun w =>
      Guarded lib pass.kafka.name w₀ w ∧ Reported lib pass.kafka.name o w) ?_ hw).mono
      (fun _ _ _ h => h) fun x v hx _ => hx.2
    rintro a r b ha ⟨hreq, hans⟩
    rw [hw.1.users] at hreq
    have hca : SameCa .cluster pass.kafka.name a b := by
      refine .of_answered hans (fun heq => ?_) fun heq => ?_
      · rcases hreq.writes heq with ⟨u, hu, hname⟩ | hname
        · exact (hnames u hu).1 hname
        · exact keyName_ne_certName hname
      · rcases hreq.writes heq with ⟨u, hu, hname⟩ | hname
        · exact (hnames u hu).2 hname
        · exact certName_ne_of_ne (by decide) hname
    have hstep : PromotionStep lib pass.kafka.name w₀ a r b := by
      cases hreq with
      | list =>
        exact ha.1.step hca (hans.frame.secret _ (by simp [Req.secretName?])) hans.frame.users
          (by simp [Req.secretName?])
      | user hu hr => exact guarded_of_user ha.1 hr hans (hnames _ hu).1 (hnames _ hu).2
      | mark h =>
        have hne : (markReq pass.kafka.name o'.keyGeneration).secretName? ≠
            some (brokerKeystoreName pass.kafka.name) :=
          fun heq => brokerKeystoreName_ne_certName (Option.some_inj.mp heq).symm
        exact ha.1.step hca (hans.frame.secret _ hne) hans.frame.users hne
    exact ⟨hstep, hstep.guarded, hstep.reported hca ha.2⟩
  case ensureKeystore =>
    intro w o o' hw
    refine ((ensureBrokerKeystore_sat hlib (P := fun _ => True) (fun _ => trivial)
      ⟨0, trivial⟩ w).stage (I := Guarded lib pass.kafka.name w₀) ?_ hw.1).mono
      (fun _ _ _ h => h) fun x v hx ks _ => hx.2
    intro a r b ha hab
    have hstep := ha.keystore hw.2 id hab
    exact ⟨hstep, hstep.guarded⟩
  case adoptInvalid => exact fun w o o' _ hw => hadopt w _ hw.1
  case adopt => exact fun w o o' ks hw => hadopt w _ hw
  case finalize =>
    intro w hw
    exact hw.step ⟨rfl, rfl, le_rfl⟩ rfl rfl (by simp [Req.secretName?])

/-- What a pass that carries its promotion out leaves behind. -/
theorem leafOk_of_covered (hlib : lib.Lawful) {pass : KafkaPass} {choices : List Choice}
    (hnames : NoUserNamedLike .cluster pass.kafka.name w)
    (hw : Guarded lib pass.kafka.name w w) (hleafs : LeafOk lib pass.kafka.name w)
    (hcov : Prog.Covered (Promotes pass.kafka.name) (KeystoreWritten pass.kafka.name)
      ((reconcileInner lib pass).trace answer choices w)) :
    LeafOk lib pass.kafka.name ((reconcileInner lib pass).run answer choices w).2 := by
  have hsat := (promotionStages_sound hlib hnames).sat ⟨hw, rfl⟩
  exact Prog.Sat.recovers hsat (fun st _ h => h.keeps) (fun st _ h => h.repairs) hcov (.inl hleafs)

end Pass

/-! ## Runs -/

/-- The condition on a pass: it writes the keystore after it has promoted the cluster CA,
    and no TLS user is named like a Secret of that CA. -/
def PromotionCarriedOut (lib : CaLib) (cluster : String) : Event → World → Prop
  | .pass p choices, w => p.kafka.name = cluster ∧ NoUserNamedLike .cluster cluster w ∧
      Prog.Covered (Promotes cluster) (KeystoreWritten cluster)
        ((reconcileInner lib p).trace answer choices w)
  | _, _ => True

/-- Neither the cluster CA nor the keystore has been created yet. -/
def NothingIssued (cluster : String) (w : World) : Prop :=
  w.secret? (WhichCa.cluster.certName cluster) = none ∧
    w.secret? (brokerKeystoreName cluster) = none

section Runs

variable {lib : CaLib} {cluster : String} {w₀ : World}

/-- The invariant of the states between the events of a run. -/
structure PromotionInv (lib : CaLib) (cluster : String) (w : World) : Prop where
  ok : CaOk lib .cluster cluster w
  owned : LeafsOwned cluster w
  leafs : LeafOk lib cluster w

theorem PromotionInv.guarded {w : World} (h : PromotionInv lib cluster w) :
    Guarded lib cluster w w := ⟨h.ok, h.owned, rfl, .inl h.leafs⟩

theorem NothingIssued.inv (h : NothingIssued cluster w₀) : PromotionInv lib cluster w₀ where
  ok := .inl h.1
  owned id _ s hs := absurd (h.2.symm.trans hs) (by simp)
  leafs := .of_no_leaf fun id _ => by simp [leaf?, storedEntries, h.2]

/-- The property of every state: where the CA is neither promoted nor half-promoted, the
    active key has signed the leafs. -/
def SignedByCurrentKey (lib : CaLib) (cluster : String) (w : World) : Prop :=
  ∀ K C, Stored .cluster cluster w K C → C.phase ≠ .keyReplacePromote → ¬ HalfPromoted K C →
    LeafsSigned lib cluster w K.keyPem

theorem Guarded.signedByCurrentKey {w : World} (h : Guarded lib cluster w₀ w) :
    SignedByCurrentKey lib cluster w := by
  intro K C hst hphase hhalf
  rcases h.leafs with hok | hpending
  · exact hok.signed hst hhalf
  · have := hpending.2
    rw [phase?_eq_of_stored hst, Option.some_inj] at this
    exact absurd this hphase

/-- A change outside of the Secrets. -/
theorem PromotionInv.outside {v w : World} (h : PromotionInv lib cluster w)
    (hsecrets : v.secrets = w.secrets) (hdraws : v.draws = w.draws) :
    PromotionInv lib cluster v ∧ ∀ v' ∈ [v], SignedByCurrentKey lib cluster v' := by
  have hsecret : ∀ name, v.secret? name = w.secret? name := fun name => by
    rw [World.secret?, hsecrets, World.secret?]
  have hca : SameCa .cluster cluster w v := ⟨hsecret _, hsecret _, hdraws.ge⟩
  have hinv : PromotionInv lib cluster v := ⟨hca.ok h.ok, h.owned.of_secret? (hsecret _),
    h.leafs.of_sameCa hca fun id _ x hx => (leaf?_eq_of_secret? (hsecret _) id).symm.trans hx⟩
  exact ⟨hinv, by simpa using hinv.guarded.signedByCurrentKey⟩

theorem PromotionInv.exec (hlib : lib.Lawful) {e : Event} {w : World}
    (h : PromotionInv lib cluster w) (he : PromotionCarriedOut lib cluster e w) :
    PromotionInv lib cluster (History.finish (Event.exec lib) e w) ∧
      ∀ v ∈ e.exec lib w, SignedByCurrentKey lib cluster v := by
  cases e with
  | pass p choices =>
    obtain ⟨rfl, hnames, hcov⟩ := he
    have hsat := (promotionStages_sound hlib hnames).sat ⟨h.guarded, rfl⟩
    have hlast := leafOk_of_covered hlib hnames h.guarded h.leafs hcov
    have hend : Guarded lib p.kafka.name w (History.finish (Event.exec lib) (.pass p choices) w) :=
      finish_exec_pass h.guarded hsat fun _ _ _ hstep => hstep.guarded
    rw [finish_pass] at hend ⊢
    refine ⟨⟨hend.ok, hend.owned, hlast⟩, ?_⟩
    exact forall_exec_pass hsat fun _ _ _ hstep => hstep.guarded.signedByCurrentKey
  | setUsers users => exact h.outside rfl rfl
  | setPools pools => exact h.outside rfl rfl
  | setStatefulSets statefulSets => exact h.outside rfl rfl

/-- In every run in which each promotion of the cluster CA is followed by the keystore write
    of its pass, and in every state of it, the stored leafs are signed by the active key
    whenever the CA is idle or in its trust phase, in particular once the old trust is
    pruned. -/
theorem leafs_signed_of_promotion_carried_out (hlib : lib.Lawful) (hw₀ : NothingIssued cluster w₀)
    (events : List Event)
    (hrun : History.Along (Event.exec lib) (PromotionCarriedOut lib cluster) events w₀) :
    ∀ w ∈ History.states (Event.exec lib) events w₀, SignedByCurrentKey lib cluster w := by
  refine History.invariant_along (I := PromotionInv lib cluster) hw₀.inv hrun ?_ ?_ ?_
  · exact fun w h => h.guarded.signedByCurrentKey
  · exact fun e w he h => (h.exec hlib he).1
  · exact fun e w he h => (h.exec hlib he).2

end Runs

/-! ## A complete rotation, and one that is cut -/

/-- A condition for passes without faults that can be evaluated. -/
def PromotionChecked (lib : CaLib) (cluster : String) : Event → World → Prop
  | .pass p choices, w => p.kafka.name = cluster ∧ NoUserNamedLike .cluster cluster w ∧
      (∀ c ∈ choices, c.fault = .none) ∧
      Prog.Covered (Promotes cluster) (fun st => st.req.appliesTo (brokerKeystoreName cluster))
        ((reconcileInner lib p).trace answer choices w)
  | _, _ => True

instance (cluster : String) : DecidablePred (Promotes cluster) :=
  fun _ => inferInstanceAs (Decidable (_ ∧ _))

instance (lib : CaLib) (cluster : String) (e : Event) (w : World) :
    Decidable (PromotionChecked lib cluster e w) :=
  match e with
  | .pass _ _ => inferInstanceAs (Decidable (_ ∧ _))
  | .setUsers _ => isTrue trivial
  | .setPools _ => isTrue trivial
  | .setStatefulSets _ => isTrue trivial

theorem PromotionChecked.carriedOut {lib : CaLib} {cluster : String} (e : Event) (w : World)
    (h : PromotionChecked lib cluster e w) : PromotionCarriedOut lib cluster e w := by
  cases e with
  | pass p choices =>
    obtain ⟨hname, hnames, hfaults, hcov⟩ := h
    exact ⟨hname, hnames, hcov.mono fun st hst hreq => applied_of_faultless hfaults st hst hreq⟩
  | setUsers users => trivial
  | setPools pools => trivial
  | setStatefulSets statefulSets => trivial

/-- The CA is created, its key is replaced and promoted, and the old trust is pruned. -/
def rotation : List Event := Sample.rolling [Sample.passFor [] 60,
  Sample.passFor [annForceReplaceKey] 60, Sample.passFor [] 60, Sample.passFor [] 60] Sample.start

/-- The same, but the promoting pass stops after its patch of the cert Secret. -/
def rotationCut : List Event := Sample.rolling [Sample.passFor [] 60,
  Sample.passFor [annForceReplaceKey] 60, Sample.passFor [] 12, Sample.passFor [] 60] Sample.start

/-- The old trust is pruned, the leaf of broker 0 is one, and the active key has not signed it. -/
def staleLeaf (w : World) : Bool :=
  match keyPartIn w .cluster "demo", certPartIn w .cluster "demo", leaf? w "demo" 0 with
  | some K, some C, some (.text pem) =>
    C.phase = .idle && K.generation = 1 && C.bundle.length = 1 &&
      SampleLib.lib.certSigner pem ≠ some (SampleLib.lib.publicKeyOf K.keyPem)
  | _, _, _ => false

theorem not_signed_of_staleLeaf {w : World} (h : staleLeaf w = true) :
    ∃ K C, Stored .cluster "demo" w K C ∧ C.phase = .idle ∧ K.generation = 1 ∧
      C.bundle.length = 1 ∧ ¬ LeafsSigned SampleLib.lib "demo" w K.keyPem := by
  unfold staleLeaf at h
  split at h
  · rename_i K C pem hK hC hleaf
    simp only [Bool.and_eq_true, decide_eq_true_eq] at h
    refine ⟨K, C, ⟨hK, hC⟩, h.1.1.1, h.1.1.2, h.1.2, fun hsigned => ?_⟩
    obtain ⟨pem', hpem, hsigner⟩ := hsigned 0 (by decide) _ hleaf
    cases hpem
    exact h.2 hsigner
  · cases h

theorem leafs_signed_of_rotation :
    SignedByCurrentKey SampleLib.lib "demo"
      (History.final (Event.exec SampleLib.lib) rotation Sample.start) := by
  have hchecked : History.Along (Event.exec SampleLib.lib) (PromotionChecked SampleLib.lib "demo")
      rotation Sample.start := by decide +kernel
  exact leafs_signed_of_promotion_carried_out SampleLib.lib_lawful
    ⟨by simp [World.secret?, Sample.start, World.empty],
      by simp [World.secret?, Sample.start, World.empty]⟩ rotation
    (hchecked.mono PromotionChecked.carriedOut) _ History.final_mem_states

/-- After a promoting pass that stops before the keystore, the next pass prunes the old
    trust while the keystore still holds the old leaf. -/
theorem leafs_stale_of_rotation_cut :
    SampleLib.lib.Lawful ∧ NothingIssued "demo" Sample.start ∧
      (∀ e ∈ rotationCut, e.IsOn "demo") ∧
      ∃ w ∈ History.states (Event.exec SampleLib.lib) rotationCut Sample.start,
        ∃ K C, Stored .cluster "demo" w K C ∧ C.phase = .idle ∧ K.generation = 1 ∧
          C.bundle.length = 1 ∧ ¬ LeafsSigned SampleLib.lib "demo" w K.keyPem := by
  refine ⟨SampleLib.lib_lawful, ⟨by simp [World.secret?, Sample.start, World.empty],
    by simp [World.secret?, Sample.start, World.empty]⟩, ?_, _, History.final_mem_states,
    not_signed_of_staleLeaf ?_⟩
  · simp [rotationCut, Sample.rolling, Sample.passFor, Sample.roll, Event.IsOn, Sample.pass,
      Kafka.minimal]
  · decide +kernel

end Cluster
