-- SUMMARY: The renewal check keeps the names of a broker leaf: it stores the digest that the reconciler asks for, so the next pass keeps the renewed leaf.
import KrabkaOperator.ClusterCa.SanDigest
import KrabkaOperator.ClusterCa.Served
import Mathlib.Logic.Relation

/-!
# The names of a renewed leaf

The reconciler compares the digest in the keystore with the names of its request.
The renewal check replaces the digest by one that it computes from the certificate.
`HoldsLeaf` is the invariant of both: the entries of a broker hold a leaf with the
names of its request, and their digest.
-/

namespace ClusterCa

open Kube Crd Operator

section Invariant

/-- The entries of a broker hold a leaf with the common name and the names of its request. -/
abbrev HoldsLeaf (lib : CaLib) (req : BrokerCertRequest) (data : BTreeMap ByteString) : Prop :=
  LeafWith lib (fun leaf => Identifies lib leaf.certPem req.cn (req.sans ++ req.extraSans)) data req

/-- No other certificate of the Secret is read as one of the broker. -/
def NoAlias (id : Int) (data : BTreeMap ByteString) : Prop :=
  ∀ key ∈ data.keys, hasCrtExtension key = true → keyNodeId? key = some id → key = crtKey id

instance (id : Int) (data : BTreeMap ByteString) : Decidable (NoAlias id data) :=
  inferInstanceAs (Decidable (∀ key ∈ data.keys, _ → _ → _))

theorem hasCrtExtension_keyKey (id : Int) : hasCrtExtension (keyKey id) = false := by
  simp [hasCrtExtension, keyKey, String.toList_append, List.span_eq_takeWhile_dropWhile]

theorem hasCrtExtension_digestKey (id : Int) : hasCrtExtension (digestKey id) = false := by
  simp [hasCrtExtension, digestKey, String.toList_append, List.span_eq_takeWhile_dropWhile]

/-- The certificates among the keys decide. -/
theorem NoAlias.mono {id : Int} {data data' : BTreeMap ByteString} (h : NoAlias id data)
    (hkeys : ∀ key ∈ data'.keys, hasCrtExtension key = true → keyNodeId? key = some id →
      key ∈ data.keys ∨ key = crtKey id) : NoAlias id data' := by
  intro key hkey hcrt hid
  rcases hkeys key hkey hcrt hid with hold | hown
  · exact h key hold hcrt hid
  · exact hown

/-- The entries of a Secret after an apply: those that it lists, and old ones. -/
theorem mem_keys_storedEntries {w : World} {name key : String} {annotations : BTreeMap String}
    {data : BTreeMap ByteString}
    (h : key ∈ (storedEntries (w.applySecret name ⟨annotations, data⟩) name).keys) :
    key ∈ data.keys ∨ key ∈ (storedEntries w name).keys := by
  obtain ⟨v, hv⟩ := mem_keys_iff.mp h
  cases hdata : data[key]? with
  | some v' => exact .inl (mem_keys_iff.mpr ⟨v', hdata⟩)
  | none => exact .inr (mem_keys_iff.mpr ⟨v, ((getElem?_stored_of_none hdata).mp hv).2⟩)

end Invariant

/-! ## The renewal check -/

section Renewal

/-- One turn of the check over a key. -/
inductive RenewalTurn (lib : CaLib) (kafka : Kafka) (ca : CaMaterial) (now : Int)
    (draft : RenewalDraft) (key : String) : RenewalDraft → Prop
  | skipped : RenewalTurn lib kafka ca now draft key draft
  | renewed {id : Int} {pem : Pem} {cn : String} {sans : List SubjectAltName} {leaf : CaMaterial}
      (hid : keyNodeId? key = some id) (hpem : draft.data[key]? >>= ByteString.utf8? = some pem)
      (hread : readExistingCnAndSans lib pem = .ok (cn, sans))
      (made : ∃ d, lib.issueBrokerCert ca.certPem ca.keyPem cn sans []
        (WhichCa.spec .cluster kafka).validityDays d = .ok leaf) :
      RenewalTurn lib kafka ca now draft key (draft.renew lib key id sans leaf)

/-- The turns for all keys, in order. -/
inductive RenewalTurns (lib : CaLib) (kafka : Kafka) (ca : CaMaterial) (now : Int) :
    RenewalDraft → List String → RenewalDraft → Prop
  | nil {draft : RenewalDraft} : RenewalTurns lib kafka ca now draft [] draft
  | cons {draft draft' draft'' : RenewalDraft} {key : String} {keys : List String}
      (head : RenewalTurn lib kafka ca now draft key draft')
      (tail : RenewalTurns lib kafka ca now draft' keys draft'') :
      RenewalTurns lib kafka ca now draft (key :: keys) draft''

variable {lib : CaLib} {kafka : Kafka} {ca : CaMaterial} {now : Int} {draft draft' : RenewalDraft}
  {req : BrokerCertRequest} {w : World}

theorem renewLeaf_sat (key : String) :
    Prog.Sat answer (fun a _ b => OnlyDraws a b)
      (fun x w' => ∀ draft', x = .ok draft' →
        RenewalTurn lib kafka ca now draft key draft' ∧ OnlyDraws w w')
      (renewLeaf lib kafka ca now draft key) w := by
  unfold renewLeaf
  dsimp only
  split
  · next id pem hid hpem =>
    refine sat_orFail (fun _ _ _ h => nomatch h) fun expiring hexpiring => ?_
    split
    · rintro draft' ⟨⟩
      exact ⟨.skipped, .refl w⟩
    · split
      · rintro draft' ⟨⟩
        exact ⟨.skipped, .refl w⟩
      · next cn sans hread =>
        refine sat_draw (.draw w) fun clock => ?_
        refine sat_orFail (fun _ _ _ h => nomatch h) fun leaf hleaf => ?_
        rintro draft' ⟨⟩
        exact ⟨.renewed hid hpem hread ⟨_, hleaf⟩, .draw w⟩
  · rintro draft' ⟨⟩
    exact ⟨.skipped, .refl w⟩

theorem renewLeafs_sat (keys : List String) :
    Prog.Sat answer (fun a _ b => OnlyDraws a b)
      (fun x w' => ∀ draft', x = .ok draft' →
        RenewalTurns lib kafka ca now draft keys draft' ∧ OnlyDraws w w')
      (renewLeafs lib kafka ca now draft keys) w := by
  induction keys generalizing draft w with
  | nil =>
    rintro draft' ⟨⟩
    exact ⟨.nil, .refl w⟩
  | cons key keys ih =>
    refine Prog.Sat.bind ((renewLeaf_sat key).mono (fun _ _ _ h => h) ?_)
    intro x a hx
    cases x with
    | error e => exact fun draft' h => nomatch h
    | ok draft₁ =>
      obtain ⟨hturn, hdraws⟩ := hx draft₁ rfl
      refine ih.mono (fun _ _ _ h => h) fun x b hx draft' hdraft' => ?_
      obtain ⟨hturns, hdraws'⟩ := hx draft' hdraft'
      exact ⟨.cons hturn hturns, hdraws.trans hdraws'⟩

theorem getElem?_renew {key k : String} {id : Int} {sans : List SubjectAltName} {leaf : CaMaterial} :
    (draft.renew lib key id sans leaf).data[k]? =
      if k = digestKey id then some (.text (computeSanDigest lib sans []).toList)
      else if k = keyKey id then some (.text leaf.keyPem)
      else if k = key then some (.text leaf.certPem)
      else draft.data[k]? := by
  simp only [RenewalDraft.renew, Std.ExtTreeMap.getElem?_insert, Std.LawfulEqCmp.compare_eq_iff_eq,
    @eq_comm _ k]

/-- A turn keeps the names of the leaf of a broker, also if it renews the leaf. -/
theorem RenewalTurn.holds (hsan : lib.SanOrdered) (hembeds : lib.Embeds) {key : String}
    (h : RenewalTurn lib kafka ca now draft key draft') (hholds : HoldsLeaf lib req draft.data)
    (halias : keyNodeId? key = some req.brokerId → key = crtKey req.brokerId) :
    HoldsLeaf lib req draft'.data := by
  cases h with
  | skipped => exact hholds
  | @renewed id pem cn sans leaf hid hpem hread made =>
    by_cases hown : id = req.brokerId
    · -- The check reads the common name and the names back.
      subst hown
      obtain rfl : key = crtKey req.brokerId := halias hid
      obtain ⟨old, hcrt, -, names, hnames, hmem⟩ := hholds.pair
      rw [hcrt] at hpem
      obtain rfl : old.certPem = pem := Option.some_inj.mp hpem
      obtain ⟨rfl, rfl⟩ : req.cn = cn ∧ names = sans := by
        have hpair := Except.ok.inj (hnames.symm.trans hread)
        exact ⟨congrArg Prod.fst hpair, congrArg Prod.snd hpair⟩
      obtain ⟨d, hleaf⟩ := made
      obtain ⟨names', hnames', hmem'⟩ := hembeds.identifies hleaf
      have hset : ∀ s, s ∈ names ++ [] ↔ s ∈ req.sans ++ req.extraSans := by
        intro s
        rw [List.append_nil]
        exact hmem s
      refine ⟨⟨leaf, ?_, ?_, names', hnames', fun s => (hmem' s).trans (hset s)⟩, ?_⟩
      · rw [getElem?_renew, if_neg crtKey_ne_digestKey, if_neg crtKey_ne_keyKey, if_pos rfl]
      · rw [getElem?_renew, if_neg keyKey_ne_digestKey, if_pos rfl]
      · rw [getElem?_renew, if_pos rfl, computeSanDigest_congr hsan hset]
    · refine hholds.congr fun k hk => ?_
      have hother : ∀ {k'}, k' ∈ wantKeys [⟨id, cn, sans, []⟩] → k ≠ k' := by
        rintro k' hk' rfl
        exact wantKeys_disjoint (show req.brokerId ≠ id from Ne.symm hown) hk hk'
      have hkey : k ≠ key := by
        rintro rfl
        exact hown (eq_of_keyNodeId? hk hid)
      rw [getElem?_renew, if_neg (hother (by simp [wantKeys])), if_neg (hother (by simp [wantKeys])),
        if_neg hkey]

/-- A turn adds no certificate. -/
theorem RenewalTurn.keys {key k : String} (h : RenewalTurn lib kafka ca now draft key draft')
    (hcrt : hasCrtExtension k = true) (hk : k ∈ draft'.data.keys) : k ∈ draft.data.keys := by
  cases h with
  | skipped => exact hk
  | @renewed id pem cn sans leaf hid hpem hread made =>
    obtain ⟨v, hv⟩ := mem_keys_iff.mp hk
    have hkey : k ≠ keyKey id := by
      rintro rfl
      rw [hasCrtExtension_keyKey] at hcrt
      cases hcrt
    have hdigest : k ≠ digestKey id := by
      rintro rfl
      rw [hasCrtExtension_digestKey] at hcrt
      cases hcrt
    rw [getElem?_renew, if_neg hdigest, if_neg hkey] at hv
    split at hv
    · next heq =>
      -- The key of the turn was read from the Secret.
      subst heq
      obtain ⟨b, hb, -⟩ := Option.bind_eq_some_iff.mp hpem
      exact mem_keys_iff.mpr ⟨b, hb⟩
    · exact mem_keys_iff.mpr ⟨v, hv⟩

theorem RenewalTurns.keys {keys : List String} {k : String}
    (h : RenewalTurns lib kafka ca now draft keys draft') (hcrt : hasCrtExtension k = true)
    (hk : k ∈ draft'.data.keys) : k ∈ draft.data.keys := by
  induction h with
  | nil => exact hk
  | cons head tail ih => exact head.keys hcrt (ih hk)

theorem RenewalTurns.holds (hsan : lib.SanOrdered) (hembeds : lib.Embeds) {keys : List String}
    (h : RenewalTurns lib kafka ca now draft keys draft') (hholds : HoldsLeaf lib req draft.data)
    (halias : ∀ key ∈ keys, keyNodeId? key = some req.brokerId → key = crtKey req.brokerId) :
    HoldsLeaf lib req draft'.data := by
  induction h with
  | nil => exact hholds
  | cons head tail ih =>
    obtain ⟨hfirst, hrest⟩ := List.forall_mem_cons.mp halias
    exact ih (head.holds hsan hembeds hholds hfirst) hrest

end Renewal

/-! ## Everything that touches the keystore -/

section Events

variable {lib : CaLib} {kafka : Kafka} {req : BrokerCertRequest} {w w' : World}

/-- The stored leaf of a broker has the names of its request, and no other certificate is taken for
    it. -/
structure Named (lib : CaLib) (kafka : Kafka) (req : BrokerCertRequest) (w : World) : Prop where
  holds : HoldsLeaf lib req (storedEntries w (brokerKeystoreName kafka.name))
  alone : NoAlias req.brokerId (storedEntries w (brokerKeystoreName kafka.name))

theorem Named.of_secret (h : Named lib kafka req w)
    (hsecret : w'.secret? (brokerKeystoreName kafka.name) = w.secret? (brokerKeystoreName kafka.name)) :
    Named lib kafka req w' := by
  have hentries : storedEntries w' (brokerKeystoreName kafka.name) =
      storedEntries w (brokerKeystoreName kafka.name) := by rw [storedEntries, hsecret, storedEntries]
  exact ⟨hentries ▸ h.holds, hentries ▸ h.alone⟩

theorem Named.draws (h : Named lib kafka req w) (hdraws : OnlyDraws w w') :
    Named lib kafka req w' :=
  h.of_secret (hdraws.secret? _)

/-- A write that lists such a leaf stores it. -/
theorem Named.apply {annotations : BTreeMap String} {data : BTreeMap ByteString}
    (h : Named lib kafka req w) (hholds : HoldsLeaf lib req data) (halone : NoAlias req.brokerId data) :
    Named lib kafka req (w.applySecret (brokerKeystoreName kafka.name) ⟨annotations, data⟩) := by
  constructor
  · refine hholds.congr fun k hk => ?_
    obtain ⟨v, hv⟩ := hholds.complete.exists_entry k hk
    rw [hv]
    exact getElem?_stored_of_some hv
  · intro key hkey hcrt hid
    rcases mem_keys_storedEntries hkey with hnew | hold
    · exact halone key hnew hcrt hid
    · exact h.alone key hold hcrt hid

/-- The renewal check keeps the names at each of its requests. -/
theorem renewBrokerLeafs_named (hsan : lib.SanOrdered) (hembeds : lib.Embeds) (ca : CaMaterial)
    (now : Int) (h : Named lib kafka req w) :
    Prog.Sat answer (fun a _ b => Named lib kafka req a → Named lib kafka req b)
      (fun _ _ => True) (renewBrokerLeafs lib kafka ca now) w := by
  refine sat_getOpt id (fun _ => trivial) ?_
  cases hs : w.secret? (brokerKeystoreName kafka.name) with
  | none => trivial
  | some s =>
    have hentries : storedEntries w (brokerKeystoreName kafka.name) = s.data.values := by
      rw [storedEntries, hs, Option.map_some, Option.getD_some]
    refine Prog.Sat.bind ((renewLeafs_sat _).mono
      (fun _ _ _ hdraws hnamed => Named.draws hnamed hdraws) ?_)
    intro x a hx
    cases x with
    | error e => trivial
    | ok draft =>
      obtain ⟨hturns, hdraws⟩ := hx draft rfl
      have hholds : HoldsLeaf lib req draft.data := by
        refine hturns.holds hsan hembeds (hentries ▸ h.holds) fun key hkey hid => ?_
        obtain ⟨hmem, hcrt⟩ := List.mem_filter.mp hkey
        exact h.alone key (hentries ▸ hmem) hcrt hid
      have halone : NoAlias req.brokerId draft.data :=
        (hentries ▸ h.alone).mono fun key hkey hcrt _ => .inl (hturns.keys hcrt hkey)
      dsimp only
      split
      · trivial
      · refine sat_applySecret id (fun hnamed => hnamed.apply hholds halone) (fun _ => trivial)
          (fun _ => trivial) ?_
        induction draft.renewed with
        | nil => trivial
        | cons renewedId ids ih => exact sat_effect id (fun _ => trivial) ih

/-- A pass that asks for the broker keeps the names at each of its requests. -/
theorem ensureBrokerKeystore_named (hlib : lib.Lawful) (hembeds : lib.Embeds)
    {reqs : List BrokerCertRequest} (hone : OneEach reqs) (hreq : req ∈ reqs) (ca : CaMaterial)
    (force : Bool) (h : Named lib kafka req w) :
    Prog.Sat answer (fun a _ b => Named lib kafka req a → Named lib kafka req b)
      (fun _ _ => True) (ensureBrokerKeystore lib kafka reqs ca force) w := by
  have hsat := @ensureBrokerKeystore_sat lib kafka ca force (fun _ => True) reqs Choice (fun c => c)
    hlib (fun _ => trivial) ⟨0, trivial⟩ w
  refine hsat.mono (fun a r b hstep hnamed => ?_) fun _ _ _ => trivial
  rcases hstep.after with ⟨-, hdraws⟩ | ⟨data, ⟨draft, hturns, rfl⟩, -, rfl | rfl⟩
  · exact hnamed.draws hdraws
  · exact hnamed
  · have hholds : HoldsLeaf lib req draft.data := by
      rcases hturns.served hone hreq with ⟨hkept, -⟩ | ⟨hissued, -⟩
      · exact h.holds.congr hkept.same
      · refine hissued.stored.mono fun leaf hmade => ?_
        obtain ⟨d, -, hleaf⟩ := hmade
        exact hembeds.identifies hleaf
    refine hnamed.apply (hholds.congr fun k hk => ?_) (h.alone.mono fun key hkey hcrt hid => ?_)
    · rw [Std.ExtTreeMap.getElem?_filter']
      obtain ⟨v, hv⟩ := hholds.complete.exists_entry k hk
      simp [hv, retained_of_mem hreq hk]
    · obtain ⟨v, hv⟩ := mem_keys_iff.mp hkey
      rw [Std.ExtTreeMap.getElem?_filter', Option.filter_eq_some_iff] at hv
      by_cases hwant : key ∈ wantKeys reqs
      · right
        obtain ⟨req', hreq', hk'⟩ := List.mem_flatMap.mp hwant
        have hk' : key ∈ wantKeys [req'] := by simpa [wantKeys] using hk'
        obtain rfl : req = req' := hone.eq hreq hreq' (eq_of_keyNodeId? hk' hid)
        rcases mem_wantKeys_single.mp hk' with rfl | rfl | rfl
        · rfl
        · rw [hasCrtExtension_keyKey] at hcrt
          cases hcrt
        · rw [hasCrtExtension_digestKey] at hcrt
          cases hcrt
      · exact .inl (mem_keys_iff.mpr ⟨v, (hturns.getElem?_of_notMem hwant).symm.trans hv.1⟩)

/-- What may happen to the keystore while the request of a broker stays the same: a renewal check or
    a pass, each with any end, and anything that leaves the keystore alone. -/
inductive KeystoreEvent (lib : CaLib) (kafka : Kafka) (req : BrokerCertRequest) (w : World) :
    World → Prop
  | renewal {ca : CaMaterial} {now : Int} {cs : List Choice} :
      KeystoreEvent lib kafka req w ((renewBrokerLeafs lib kafka ca now).run answer cs w).2
  | pass {reqs : List BrokerCertRequest} {ca : CaMaterial} {force : Bool} {cs : List Choice}
      (hone : OneEach reqs) (hreq : req ∈ reqs) :
      KeystoreEvent lib kafka req w ((ensureBrokerKeystore lib kafka reqs ca force).run answer cs w).2
  | other {w' : World} (h : w'.secret? (brokerKeystoreName kafka.name) =
      w.secret? (brokerKeystoreName kafka.name)) : KeystoreEvent lib kafka req w w'

theorem run_keeps {α : Type} {I : World → Prop} {p : Op α}
    (h : Prog.Sat answer (fun a _ b => I a → I b) (fun _ _ => True) p w) (hw : I w)
    (cs : List Choice) : I (p.run answer cs w).2 := by
  rw [Prog.run_eq_getLastD]
  cases hlast : p.after answer cs w with
  | nil => exact hw
  | cons b bs =>
    rw [List.getLastD_cons]
    have hall := h.forall_after hw cs
    rw [hlast] at hall
    exact hall _ List.getLastD_mem_cons

/-- Every event keeps the names of the leaf. -/
theorem KeystoreEvent.named (hlib : lib.Lawful) (hsan : lib.SanOrdered) (hembeds : lib.Embeds)
    (h : KeystoreEvent lib kafka req w w') (hnamed : Named lib kafka req w) :
    Named lib kafka req w' := by
  cases h with
  | renewal => exact run_keeps (renewBrokerLeafs_named hsan hembeds _ _ hnamed) hnamed _
  | pass hone hreq =>
    exact run_keeps (ensureBrokerKeystore_named hlib hembeds hone hreq _ _ hnamed) hnamed _
  | other hsecret => exact hnamed.of_secret hsecret

theorem events_named (hlib : lib.Lawful) (hsan : lib.SanOrdered) (hembeds : lib.Embeds)
    (h : Relation.ReflTransGen (KeystoreEvent lib kafka req) w w') (hnamed : Named lib kafka req w) :
    Named lib kafka req w' := by
  induction h with
  | refl => exact hnamed
  | tail _ hevent ih => exact hevent.named hlib hsan hembeds ih

end Events

/-! ## Renewal and reconciliation agree -/

section Main

variable {lib : CaLib} {kafka : Kafka}

/-- A pass that has issued a leaf leaves it with the names of the request. -/
theorem named_of_issued (hlib : lib.Lawful) (hembeds : lib.Embeds) {reqs : List BrokerCertRequest}
    {req : BrokerCertRequest} (hone : OneEach reqs) (hreq : req ∈ reqs) {ca : CaMaterial}
    {force : Bool} {cs : List Choice} {w w' : World} {status : BrokerKeystoreStatus}
    (hrun : (ensureBrokerKeystore lib kafka reqs ca force).run answer cs w = (.done status, w'))
    (hissued : req.brokerId ∈ status.issued) :
    HoldsLeaf lib req (storedEntries w' (brokerKeystoreName kafka.name)) := by
  obtain ⟨a, draft, -, hturns, rfl, rfl⟩ := served_of_run hlib hrun
  rcases hturns.served hone hreq with ⟨-, hreused⟩ | ⟨hnew, -⟩
  · exact absurd hreused (hturns.notMem_reused hone hissued)
  · have hmade : HoldsLeaf lib req draft.data := by
      refine hnew.stored.mono fun leaf hmade => ?_
      obtain ⟨d, -, hleaf⟩ := hmade
      exact hembeds.identifies hleaf
    exact hmade.congr (sameEntries_stored hreq hmade.complete.exists_entry)

/-- The leaf that a pass has issued keeps the names and the digest of its request through any number
    of renewals and passes. A pass without force keeps the leaf that it finds then, if that is
    outside of its renewal window. -/
theorem renewal_agrees (hlib : lib.Lawful) (hsan : lib.SanOrdered) (hembeds : lib.Embeds)
    {reqs : List BrokerCertRequest} {req : BrokerCertRequest} (hone : OneEach reqs)
    (hreq : req ∈ reqs) {ca : CaMaterial} {force : Bool} {cs : List Choice} {w₀ w₁ w₂ : World}
    {status : BrokerKeystoreStatus}
    (hrun : (ensureBrokerKeystore lib kafka reqs ca force).run answer cs w₀ = (.done status, w₁))
    (hissued : req.brokerId ∈ status.issued)
    (halone : NoAlias req.brokerId (storedEntries w₁ (brokerKeystoreName kafka.name)))
    (hevents : Relation.ReflTransGen (KeystoreEvent lib kafka req) w₁ w₂) :
    ∃ leaf : CaMaterial, let stored := storedEntries w₂ (brokerKeystoreName kafka.name)
      stored[crtKey req.brokerId]? = some (.text leaf.certPem) ∧
      stored[keyKey req.brokerId]? = some (.text leaf.keyPem) ∧
      stored[digestKey req.brokerId]? =
        some (.text (computeSanDigest lib req.sans req.extraSans).toList) ∧
      Identifies lib leaf.certPem req.cn (req.sans ++ req.extraSans) ∧
      ∀ (reqs' : List BrokerCertRequest) (ca' : CaMaterial) (cs' : List Choice) (w₃ : World)
        (status' : BrokerKeystoreStatus), OneEach reqs' → req ∈ reqs' →
        (ensureBrokerKeystore lib kafka reqs' ca' false).run answer cs' w₂ = (.done status', w₃) →
        (∀ c ∈ cs', renewIfExpiring lib leaf.certPem (WhichCa.spec .cluster kafka).renewalDays
          c.clock = .ok false) →
        req.brokerId ∈ status'.reused ∧ req.brokerId ∉ status'.issued ∧
          SameEntries stored (storedEntries w₃ (brokerKeystoreName kafka.name)) req := by
  have hstart : Named lib kafka req w₁ :=
    ⟨named_of_issued hlib hembeds hone hreq hrun hissued, halone⟩
  have hholds := (events_named hlib hsan hembeds hevents hstart).holds
  obtain ⟨leaf, hcrt, hkey, hnames⟩ := hholds.pair
  refine ⟨leaf, hcrt, hkey, hholds.digest, hnames, ?_⟩
  intro reqs' ca' cs' w₃ status' hone' hreq' hrun' hwindow
  exact reused_of_complete hlib hone' hreq' hrun' hholds.complete hcrt hwindow

end Main

/-! ## A renewal in between -/

namespace Sample

/-- One broker with two names, one of them an address. -/
def twoNames : BrokerCertRequest := ⟨0, "b", [.dns "a", .dns "a"], [.ip (.v4 1 0 0 2)]⟩

def caOne : CaMaterial := ⟨[], SampleLib.keyPem 1⟩

/-- The end of a pass for the broker. -/
def afterPass (kafka : Kafka) (w : World) : Prog.Outcome ReconcileError BrokerKeystoreStatus × World :=
  (ensureBrokerKeystore SampleLib.named kafka [twoNames] caOne false).run answer
    (List.replicate 8 {}) w

/-- The namespace after a renewal check on day `day`. -/
def afterRenewal (kafka : Kafka) (day : Int) (w : World) : World :=
  ((renewBrokerLeafs SampleLib.named kafka caOne (day * 86400)).run answer
    (List.replicate 8 ⟨.none, day * 86400⟩) w).2

/-- A namespace in which someone else has put a certificate with another name under `0.x.crt`. -/
def withAlias : World :=
  World.empty.setSecret (brokerKeystoreName "demo")
    ⟨∅, BTreeMap.ofList [("0.x.crt", ⟨.text (SampleLib.cert 1 1 0 0 ++
      SampleLib.namesText "b" [.dns "z"]), ["kubectl"]⟩)]⟩

/-- Whether the digest of the broker is the one of its request. -/
def digestAgrees (w : World) : Bool :=
  (storedEntries w (brokerKeystoreName "demo"))[digestKey 0]? =
    some (.text (computeSanDigest SampleLib.named twoNames.sans twoNames.extraSans).toList)

/-- A leaf that is due at once, after its renewal. -/
def renewedAtOnce : World := afterRenewal everDue 0 (afterPass everDue World.empty).2

def renewedAlias : World :=
  afterRenewal (Kafka.minimal "demo") 340 (afterPass (Kafka.minimal "demo") withAlias).2

def crtOf (w : World) : Option ByteString :=
  (storedEntries w (brokerKeystoreName "demo"))[crtKey 0]?

end Sample

open Sample in
/-- The leaf of day 0 is renewed on day 340, and the pass after that keeps the new leaf. -/
theorem renewal_agrees_twoNames : ∃ (leaf : CaMaterial) (status₀ : BrokerKeystoreStatus),
    (afterPass (Kafka.minimal "demo") World.empty).1 = .done status₀ ∧
    crtOf (afterRenewal (Kafka.minimal "demo") 340 (afterPass (Kafka.minimal "demo") World.empty).2) =
      some (.text leaf.certPem) ∧
    crtOf (afterPass (Kafka.minimal "demo") World.empty).2 ≠ some (.text leaf.certPem) ∧
    Identifies SampleLib.named leaf.certPem "b" (twoNames.sans ++ twoNames.extraSans) := by
  obtain ⟨status₀, hdone, hissued⟩ := Prog.Outcome.exists_of_isDone (fun s => s.issued.contains 0)
    (x := (afterPass (Kafka.minimal "demo") World.empty).1) (by decide)
  have hrun : afterPass (Kafka.minimal "demo") World.empty =
      (.done status₀, (afterPass (Kafka.minimal "demo") World.empty).2) := Prod.ext hdone rfl
  obtain ⟨leaf, hcrt, -, -, hnames, -⟩ := renewal_agrees SampleLib.named_lawful
    SampleLib.named_sanOrdered SampleLib.named_embeds (show OneEach [twoNames] by decide)
    List.mem_cons_self hrun (List.contains_iff_mem.mp hissued) (by decide +kernel)
    (Relation.ReflTransGen.single (@KeystoreEvent.renewal _ _ _ _ caOne (340 * 86400)
      (List.replicate 8 ⟨.none, 340 * 86400⟩)))
  refine ⟨leaf, status₀, hdone, hcrt, ?_, hnames⟩
  have hchanged : crtOf (afterPass (Kafka.minimal "demo") World.empty).2 ≠
      crtOf (afterRenewal (Kafka.minimal "demo") 340
        (afterPass (Kafka.minimal "demo") World.empty).2) := by decide +kernel
  exact fun heq => hchanged (heq.trans hcrt.symm)

open Sample in
/-- A renewed leaf is issued again when the window is as long as the validity. Where another
    certificate is read as one of the broker, its names replace the digest. -/
theorem renewed_leaf_not_kept :
    crtOf renewedAtOnce ≠ crtOf (afterPass everDue World.empty).2 ∧
      digestAgrees renewedAtOnce = true ∧
      ((afterPass everDue renewedAtOnce).1.isDone fun status =>
        status.issued = [0] && status.reused = []) = true ∧
    digestAgrees (afterPass (Kafka.minimal "demo") withAlias).2 = true ∧
      digestAgrees renewedAlias = false := by
  decide +kernel

end ClusterCa
