-- SUMMARY: The CA controller refines the rotation machine: every request of a reconcile call is a step of the machine, and its outcome agrees with the store.
import KrabkaOperator.ClusterCa.Machine

/-!
# The controller refines the machine

`CaStep` relates the worlds before and after one request: a CA without a cert
Secret stays so or is created, and a readable CA stays as it is or makes one
write of the machine. `reconcileCa_sat` proves that every request of a call is
such a step, whatever the environment does, and that a call which returns
describes the CA that is stored then.
-/

namespace ClusterCa

open Kube Crd Operator

/-! ## Worlds -/

/-- Only the two Secrets of the CA and the draws may differ. -/
structure CaFrame (which : WhichCa) (cluster : String) (a b : World) : Prop where
  secret : ∀ name, name ≠ which.keyName cluster → name ≠ which.certName cluster →
    b.secret? name = a.secret? name
  users : b.users = a.users
  pools : b.pools = a.pools
  statefulSets : b.statefulSets = a.statefulSets

/-- Both halves of a CA as they are stored. -/
structure Stored (which : WhichCa) (cluster : String) (w : World) (K : KeyPart) (C : CertPart) :
    Prop where
  key : keyPartIn w which cluster = some K
  cert : certPartIn w which cluster = some C

variable (lib : CaLib) (which : WhichCa) (conv : Bool) (cluster : String)

inductive CaTrans (a b : World) : Prop
  | absent (before : a.secret? (which.certName cluster) = none)
      (after : b.secret? (which.certName cluster) = none)
  | created {K : KeyPart} {C : CertPart} (before : a.secret? (which.certName cluster) = none)
      (after : Stored which cluster b K C) (inv : CaInv lib b.draws K C) (phase : C.phase = .idle)
      (keyGeneration : K.generation = 0) (certGeneration : C.generation = 0)
      (leafs : C.leafs = none)
  | same {K : KeyPart} {C : CertPart} (before : Stored which cluster a K C)
      (after : Stored which cluster b K C)
  | write {K K' : KeyPart} {C C' : CertPart} (before : Stored which cluster a K C)
      (after : Stored which cluster b K' C') (write : CaWrite lib which conv a.draws K C K' C')

/-- One request of the controller. -/
structure CaStep (a b : World) : Prop where
  frame : CaFrame which cluster a b
  draws : a.draws ≤ b.draws
  trans : CaTrans lib which conv cluster a b

/-- A CA that the operator made: it has no cert Secret yet, or it is readable and
    satisfies the invariant of the machine. -/
def CaOk (w : World) : Prop :=
  w.secret? (which.certName cluster) = none ∨
    ∃ K C, Stored which cluster w K C ∧ CaInv lib w.draws K C

variable {lib which conv cluster} {a b c w : World} {K K' : KeyPart} {C C' : CertPart}

theorem CaFrame.refl (w : World) : CaFrame which cluster w w := ⟨fun _ _ _ => rfl, rfl, rfl, rfl⟩

theorem CaFrame.trans (h : CaFrame which cluster a b) (h' : CaFrame which cluster b c) :
    CaFrame which cluster a c where
  secret name hk hc := (h'.secret name hk hc).trans (h.secret name hk hc)
  users := h'.users.trans h.users
  pools := h'.pools.trans h.pools
  statefulSets := h'.statefulSets.trans h.statefulSets

theorem Stored.unique (h : Stored which cluster w K C) (h' : Stored which cluster w K' C') :
    K = K' ∧ C = C' :=
  ⟨Option.some_inj.mp (h.key ▸ h'.key), Option.some_inj.mp (h.cert ▸ h'.cert)⟩

theorem Stored.secret? (h : Stored which cluster w K C) :
    w.secret? (which.certName cluster) ≠ none := by
  intro hnone
  have := h.cert
  simp [certPartIn, hnone] at this

theorem CaTrans.ok (ht : CaTrans lib which conv cluster a b) (hd : a.draws ≤ b.draws)
    (h : CaOk lib which cluster a) : CaOk lib which cluster b := by
  cases ht with
  | absent _ after => exact .inl after
  | created _ after inv => exact .inr ⟨_, _, after, inv⟩
  | same before after =>
    rcases h with h | ⟨K, C, hst, hinv⟩
    · exact absurd h before.secret?
    · obtain ⟨rfl, rfl⟩ := before.unique hst
      exact .inr ⟨_, _, after, hinv.mono hd⟩
  | write before after write =>
    rcases h with h | ⟨K, C, hst, hinv⟩
    · exact absurd h before.secret?
    · obtain ⟨rfl, rfl⟩ := before.unique hst
      exact .inr ⟨_, _, after, (hinv.write write).mono hd⟩

theorem CaStep.ok (hs : CaStep lib which conv cluster a b) (h : CaOk lib which cluster a) :
    CaOk lib which cluster b := hs.trans.ok hs.draws h

/-- A step that leaves both Secrets. -/
theorem CaTrans.unchanged (h : CaOk lib which cluster a)
    (hkey : b.secret? (which.keyName cluster) = a.secret? (which.keyName cluster))
    (hcert : b.secret? (which.certName cluster) = a.secret? (which.certName cluster)) :
    CaTrans lib which conv cluster a b := by
  rcases h with h | ⟨K, C, hst, -⟩
  · exact .absent h (hcert.trans h)
  · refine .same hst ⟨?_, ?_⟩
    · rw [← hst.key, keyPartIn, keyPartIn, hkey]
    · rw [← hst.cert, certPartIn, certPartIn, hcert]

theorem CaStep.refl (h : CaOk lib which cluster w) : CaStep lib which conv cluster w w :=
  ⟨.refl w, le_rfl, .unchanged h rfl rfl⟩

theorem CaStep.draw (h : CaOk lib which cluster w) :
    CaStep lib which conv cluster w { w with draws := w.draws + 1 } :=
  ⟨⟨fun _ _ _ => rfl, rfl, rfl, rfl⟩, Nat.le_succ _, .unchanged h rfl rfl⟩

theorem CaOk.draw (h : CaOk lib which cluster w) :
    CaOk lib which cluster { w with draws := w.draws + 1 } :=
  CaStep.ok (.draw h : CaStep lib which true cluster w _) h

theorem CaFrame.applyKey {cfg : SecretConfig} :
    CaFrame which cluster w (w.applySecret (which.keyName cluster) cfg) :=
  ⟨fun _ hk _ => World.secret?_applySecret_of_ne (Ne.symm hk), rfl, rfl, rfl⟩

theorem CaFrame.applyCert {cfg : SecretConfig} :
    CaFrame which cluster w (w.applySecret (which.certName cluster) cfg) :=
  ⟨fun _ _ hc => World.secret?_applySecret_of_ne (Ne.symm hc), rfl, rfl, rfl⟩

theorem CaStep.applyKey {cfg : SecretConfig} (before : Stored which cluster w K C)
    (after : Stored which cluster (w.applySecret (which.keyName cluster) cfg) K' C')
    (write : CaWrite lib which conv w.draws K C K' C') :
    CaStep lib which conv cluster w (w.applySecret (which.keyName cluster) cfg) :=
  ⟨.applyKey, le_rfl, .write before after write⟩

theorem CaStep.applyCert {cfg : SecretConfig} (before : Stored which cluster w K C)
    (after : Stored which cluster (w.applySecret (which.certName cluster) cfg) K' C')
    (write : CaWrite lib which conv w.draws K C K' C') :
    CaStep lib which conv cluster w (w.applySecret (which.certName cluster) cfg) :=
  ⟨.applyCert, le_rfl, .write before after write⟩

/-! ## Patches -/

/-- A patch of the key Secret leaves the cert half. -/
theorem Stored.applyKey {cfg : SecretConfig} (h : certPartIn w which cluster = some C)
    (hk : keyPart? (((w.secret? (which.keyName cluster)).getD Secret.empty).apply fieldManager cfg)
      = some K') :
    Stored which cluster (w.applySecret (which.keyName cluster) cfg) K' C where
  key := by simpa [keyPartIn] using hk
  cert := by
    rw [certPartIn, World.secret?_applySecret_of_ne keyName_ne_certName]
    exact h

/-- A patch of the cert Secret leaves the key half. -/
theorem Stored.applyCert {cfg : SecretConfig} (h : keyPartIn w which cluster = some K)
    (hc : certPart? (((w.secret? (which.certName cluster)).getD Secret.empty).apply fieldManager cfg)
      = some C') :
    Stored which cluster (w.applySecret (which.certName cluster) cfg) K C' where
  key := by
    rw [keyPartIn, World.secret?_applySecret_of_ne (Ne.symm keyName_ne_certName)]
    exact h
  cert := by simpa [certPartIn] using hc

theorem Stored.generation_lt (h : Stored which cluster w K C) :
    K.generation < 2 ^ 64 ∧ C.generation < 2 ^ 64 := by
  obtain ⟨k, -, hk⟩ := Option.bind_eq_some_iff.mp h.key
  obtain ⟨c, -, hc⟩ := Option.bind_eq_some_iff.mp h.cert
  obtain ⟨-, -, rfl⟩ := Option.map_eq_some_iff.mp hk
  obtain ⟨-, -, rfl⟩ := Option.map_eq_some_iff.mp hc
  exact ⟨readGeneration_lt _ _, readGeneration_lt _ _⟩

theorem Stored.draw (h : Stored which cluster w K C) :
    Stored which cluster { w with draws := w.draws + 1 } K C := ⟨h.key, h.cert⟩

theorem Stored.leafs (h : Stored which cluster w K C) :
    readOptionalGeneration ((w.secret? (which.certName cluster)).getD Secret.empty)
      annLeafsKeyGeneration = C.leafs := by
  obtain ⟨c, hs, hc⟩ := Option.bind_eq_some_iff.mp h.cert
  obtain ⟨-, -, rfl⟩ := Option.map_eq_some_iff.mp hc
  rw [hs]
  rfl

/-- The patch of the bundle, as a machine sees it. -/
theorem Stored.patchBundle (h : Stored which cluster w K C) (bundle : List Pem) (phase : CaPhase)
    {g : Nat} (hg : g < 2 ^ 64) :
    ∃ leafs, (leafs = C.leafs ∨ leafs = none) ∧
      Stored which cluster (w.applySecret (which.certName cluster)
        (renderCaSecret [("ca.crt", joinBundle bundle)]
          [(annCertGeneration, toString g), (annRotationPhase, phase.asStr)]))
        K ⟨joinBundle bundle, g, leafs, phase⟩ := by
  obtain ⟨leafs, hpart, hleafs⟩ := certPart?_apply (c := (w.secret? (which.certName cluster)).getD
    Secret.empty) (g := g) hg
  rw [h.leafs] at hleafs
  exact ⟨leafs, hleafs, .applyCert h.key hpart⟩

/-- The patch that removes the staged pair. -/
theorem Stored.patchKey (h : Stored which cluster w K C) :
    ∃ pk pc, Stored which cluster (w.applySecret (which.keyName cluster)
      (renderCaSecret [("ca.key", K.keyPem)] [(annKeyGeneration, toString K.generation)]))
      { K with pendingKey := pk, pendingCert := pc } C := by
  obtain ⟨pk, pc, hkey⟩ := keyPart?_apply (k := (w.secret? (which.keyName cluster)).getD
    Secret.empty) fieldManager K.keyPem h.generation_lt.1
  exact ⟨pk, pc, .applyKey h.cert hkey⟩

theorem sat_patchSecret {α : Type} {S : World → Req → World → Prop}
    {Q : Except ReconcileError α → World → Prop} {kafka : Kafka} {name : String}
    {data : List (String × Pem)} {annotations : List (String × String)} {k : Unit → Op α}
    (hrefuse : S w (.applySecret name (renderCaSecret data annotations)) w)
    (herr : ∀ e v, Q (.error e) v)
    (hS : S w (.applySecret name (renderCaSecret data annotations))
      (w.applySecret name (renderCaSecret data annotations)))
    (hk : Prog.Sat answer S Q (k ()) (w.applySecret name (renderCaSecret data annotations))) :
    Prog.Sat answer S Q (patchSecret kafka name data annotations >>= k) w := by
  unfold patchSecret
  cases kafka.uid with
  | none => exact herr _ _
  | some uid => exact sat_applySecret hrefuse hS (fun _ => herr _ _) (fun _ => herr _ _) hk

/-! ## The plan arms -/

/-- The variables of the controller agree with the CA that is stored in `w`. `C₀` is
    the cert half that the plan started from. -/
structure RotatedOk (which : WhichCa) (cluster : String) (C₀ : CertPart) (w : World) (r : Rotated)
    (K : KeyPart) (C : CertPart) : Prop where
  stored : Stored which cluster w K C
  keyPem : r.keyPem = K.keyPem
  bundle : r.bundle = C.bundle
  keyGen : r.keyGen = K.generation
  certGen : r.certGen = C.generation
  phase : r.phase = C.phase
  raw : r.rawOverride.getD (joinBundle r.bundle) = C.bundlePem
  reissue : r.phase = .keyReplacePromote → r.forceReissue = true ∨ C = C₀
  forced : r.forceReissue = true → r.phase = .keyReplacePromote

/-- The result of a plan arm that changes the CA. -/
def RotatedPost (which : WhichCa) (cluster : String) (C₀ : CertPart)
    (x : Except ReconcileError Rotated) (w : World) : Prop :=
  ∀ r, x = .ok r → ∃ K C, RotatedOk which cluster C₀ w r K C ∧ ¬ HalfPromoted K C

section Arms

variable {kafka : Kafka} {inp : RotationInputs}

theorem renewCertSameKey_sat (hlib : lib.Lawful) (hst : Stored which kafka.name w K C)
    (hinv : CaInv lib w.draws K C) (hphase : C.phase = .idle) :
    Prog.Sat answer (fun a _ b => CaStep lib which conv kafka.name a b)
      (RotatedPost which kafka.name C)
      (renewCertSameKey lib kafka which (.ofParts K C) inp (.ofState (.ofParts K C) C.bundlePem))
      w := by
  have hok : CaOk lib which kafka.name w := .inr ⟨K, C, hst, hinv⟩
  refine sat_draw (.draw hok) fun clock => ?_
  refine sat_orFail (fun e _ r h => nomatch h) fun newCert hnew => ?_
  have hmints : lib.Mints ⟨w.draws, clock⟩ newCert := .inr ⟨_, _, _, _, hnew⟩
  obtain ⟨b, hb⟩ := hlib.mints_block hmints
  have hblock : IsBlock b := isBlock_of_mem_splitPemCerts (hb ▸ List.mem_cons_self)
  have hminted : Minted lib (w.draws + 1) b := ⟨_, _, hmints, hb, Nat.lt_succ_self _⟩
  have hfresh : b ∉ C.bundle := fun hmem =>
    not_minted_of_mints hlib hmints hb le_rfl (hinv.minted b hmem)
  have hkey : lib.certKey b = some (lib.publicKeyOf K.keyPem) :=
    (hlib.certKey_first hb).trans (hlib.renew_pairs hnew)
  obtain ⟨leafs, hleafs, hafter⟩ := hst.draw.patchBundle
    (dedupBlocks (b :: pruneExpired lib.certNotAfter C.bundle inp.now)) .idle
    (nextGeneration_lt C.generation)
  rw [normalizeBlock_of_split hb]
  refine sat_patchSecret (.refl hok.draw) (fun e v r h => nomatch h) ?_ ?_
  · exact .applyCert hst.draw hafter (.renew hphase hkey hblock hfresh hminted hleafs)
  · rintro r ⟨⟩
    have hbundle := bundle_joinBundle (storable_renewed inp.now
      (hinv.mono (Nat.le_succ _)).storable ⟨hblock, hminted⟩) (nextGeneration C.generation) leafs
      .idle
    exact ⟨K, _, ⟨hafter, rfl, hbundle.symm, rfl, rfl, rfl, rfl, (fun h => nomatch h),
      fun h => nomatch h⟩, fun h => nomatch h.1⟩

theorem startKeyReplace_sat (hlib : lib.Lawful) (hst : Stored which kafka.name w K C)
    (hinv : CaInv lib w.draws K C) (hphase : C.phase = .idle) :
    Prog.Sat answer (fun a _ b => CaStep lib which conv kafka.name a b)
      (RotatedPost which kafka.name C)
      (startKeyReplace lib kafka which (.ofParts K C) inp (.ofState (.ofParts K C) C.bundlePem))
      w := by
  have hok : CaOk lib which kafka.name w := .inr ⟨K, C, hst, hinv⟩
  refine sat_draw (.draw hok) fun clock => ?_
  refine sat_orFail (fun e _ r h => nomatch h) fun new hnew => ?_
  have hmints : lib.Mints ⟨w.draws, clock⟩ new.certPem := .inl ⟨_, _, _, _, hnew, rfl⟩
  obtain ⟨nb, hb⟩ := hlib.mints_block hmints
  have hblock : IsBlock nb := isBlock_of_mem_splitPemCerts (hb ▸ List.mem_cons_self)
  have hminted : Minted lib (w.draws + 1) nb := ⟨_, _, hmints, hb, Nat.lt_succ_self _⟩
  have hmintedKey : MintedKey lib (w.draws + 1) new.keyPem :=
    ⟨_, _, _, _, _, hnew, rfl, Nat.lt_succ_self _⟩
  have hkey : lib.certKey nb = some (lib.publicKeyOf new.keyPem) :=
    (hlib.certKey_first hb).trans (hlib.generate_pairs hnew)
  have hfresh : lib.publicKeyOf new.keyPem ≠ lib.publicKeyOf K.keyPem :=
    ne_of_mintedKey hlib hnew le_rfl hinv.mintedKey
  rw [normalizeBlock_of_split hb]
  -- First write: the key Secret gets the staged pair.
  have hstaged : Stored which kafka.name _ { K with
      pendingKey := some new.keyPem, pendingCert := some new.certPem } C :=
    .applyKey hst.draw.cert (keyPart?_apply_staged hst.generation_lt.1)
  have hstage : CaStep lib which conv kafka.name _ _ :=
    .applyKey hst.draw hstaged (.stage hphase)
  refine sat_patchSecret (.refl hok.draw) (fun e v r h => nomatch h) hstage ?_
  -- Second write: the cert Secret gets the new trust anchor.
  obtain ⟨leafs, hleafs, hafter⟩ := hstaged.patchBundle
    (dedupBlocks (pruneExpired lib.certNotAfter C.bundle inp.now ++ [nb])) .keyReplaceTrust
    hst.generation_lt.2
  refine sat_patchSecret (.refl (hstage.ok hok.draw)) (fun e v r h => nomatch h) ?_ ?_
  · exact .applyCert hstaged hafter
      (.trust hphase rfl rfl hb hkey hminted hmintedKey hfresh hleafs)
  · rintro r ⟨⟩
    have hbundle := bundle_joinBundle (storable_trusted inp.now
      (hinv.mono (Nat.le_succ _)).storable ⟨hblock, hminted⟩) C.generation leafs .keyReplaceTrust
    refine ⟨_, _, ⟨hafter, rfl, hbundle.symm, rfl, rfl, rfl, rfl, (fun h => nomatch h),
      fun h => nomatch h⟩, ?_⟩
    exact fun h => hfresh (congrArg lib.publicKeyOf (Option.some_inj.mp h.2))

theorem promoteNewKey_sat (hst : Stored which kafka.name w K C)
    (hinv : CaInv lib w.draws K C) (hphase : C.phase = .keyReplaceTrust) (hconv : conv = true) :
    Prog.Sat answer (fun a _ b => CaStep lib which conv kafka.name a b)
      (RotatedPost which kafka.name C)
      (promoteNewKey lib kafka which (.ofParts K C) inp (.ofState (.ofParts K C) C.bundlePem))
      w := by
  have hok : CaOk lib which kafka.name w := .inr ⟨K, C, hst, hinv⟩
  obtain ⟨b, nk, pc, nb, hb, hpair⟩ := hinv.staged hphase
  have hblock : IsBlock nb := isBlock_of_mem_splitPemCerts (hpair.split ▸ List.mem_cons_self)
  have hg : (if K.keyPem = nk then K.generation else nextGeneration K.generation) < 2 ^ 64 := by
    split
    · exact hst.generation_lt.1
    · exact nextGeneration_lt _
  simp only [promoteNewKey, CaState.ofParts, hpair.pendingKey, hpair.pendingCert,
    normalizeBlock_of_split hpair.split]
  -- First write: the staged key becomes the active one.
  have hpromoted : Stored which kafka.name _
      ⟨nk, some nk, some nb, if K.keyPem = nk then K.generation else nextGeneration K.generation⟩
      C :=
    .applyKey hst.cert (keyPart?_apply_staged hg)
  have hwrite := normalizeBlock_of_split hpair.split ▸
    (.promoteKey hconv hphase hpair.pendingKey hpair.pendingCert :
      CaWrite lib which conv w.draws K C _ _)
  have hstep : CaStep lib which conv kafka.name _ _ :=
    .applyKey hst hpromoted hwrite
  refine sat_patchSecret (.refl hok) (fun e v r h => nomatch h) hstep ?_
  -- Second write: its certificate becomes the first one of the bundle.
  obtain ⟨leafs, hleafs, hafter⟩ := hpromoted.patchBundle
    (pruneExpired lib.certNotAfter (dedupBlocks (nb :: C.bundle.filter (· ≠ nb))) inp.now)
    .keyReplacePromote (nextGeneration_lt C.generation)
  refine sat_patchSecret (.refl (hstep.ok hok)) (fun e v r h => nomatch h) ?_ ?_
  · exact .applyCert hpromoted hafter (.promoteCert hconv hphase rfl rfl hblock hleafs)
  · rintro r ⟨⟩
    have hbundle := bundle_joinBundle (storable_promoted inp.now hinv.storable hpair.trusted)
      (nextGeneration C.generation) leafs .keyReplacePromote
    exact ⟨_, _, ⟨hafter, rfl, hbundle.symm, rfl, rfl, rfl, rfl, fun _ => .inl rfl,
      fun _ => rfl⟩, fun h => nomatch h.1⟩

theorem pruneOldTrust_sat (hst : Stored which kafka.name w K C) (hinv : CaInv lib w.draws K C)
    (hphase : C.phase = .idle ∨ (C.phase = .keyReplacePromote ∧ conv = true ∧
      (which = .cluster ∨ C.leafs = some K.generation))) :
    Prog.Sat answer (fun a _ b => CaStep lib which conv kafka.name a b)
      (RotatedPost which kafka.name C)
      (pruneOldTrust lib kafka which (.ofParts K C) inp (.ofState (.ofParts K C) C.bundlePem))
      w := by
  have hok : CaOk lib which kafka.name w := .inr ⟨K, C, hst, hinv⟩
  rcases hphase with hphase | ⟨hphase, hconv, hmarked⟩
  · -- Routine prune of expired anchors: one write.
    have hne : ¬ C.phase = .keyReplacePromote := by simp [hphase]
    simp only [pruneOldTrust, CaState.ofParts, hne, if_false, Prog.pure_eq, Prog.ret_bind]
    obtain ⟨leafs, hleafs, hafter⟩ := hst.patchBundle
      (pruneExpired lib.certNotAfter C.bundle inp.now) .idle hst.generation_lt.2
    refine sat_patchSecret (.refl hok) (fun e v r h => nomatch h) ?_ ?_
    · exact .applyCert hst hafter (.expire hphase hleafs)
    · rintro r ⟨⟩
      have hbundle := bundle_joinBundle (storable_pruned inp.now hinv.storable) C.generation leafs
        .idle
      exact ⟨K, _, ⟨hafter, rfl, hbundle.symm, rfl, rfl, rfl, rfl, (fun h => nomatch h),
      fun h => nomatch h⟩,
        fun h => nomatch h.1⟩
  · -- End of a key replacement: the staged copy goes first, then the old anchor.
    simp only [pruneOldTrust, CaState.ofParts, hphase, if_true]
    obtain ⟨pk, pc, hpruned⟩ := hst.patchKey
    have hstep : CaStep lib which conv kafka.name _ _ :=
      .applyKey hst hpruned (.pruneKey hconv hphase hmarked)
    refine sat_patchSecret (.refl hok) (fun e v r h => nomatch h) hstep ?_
    simp only [Prog.pure_eq, Prog.ret_bind]
    obtain ⟨leafs, hleafs, hafter⟩ := hpruned.patchBundle C.bundle.head?.toList .idle
      hst.generation_lt.2
    refine sat_patchSecret (.refl (hstep.ok hok)) (fun e v r h => nomatch h) ?_ ?_
    · exact .applyCert hpruned hafter (.pruneCert hconv hphase hmarked hleafs)
    · rintro r ⟨⟩
      have hbundle := bundle_joinBundle (storable_head hinv.storable) C.generation leafs .idle
      exact ⟨_, _, ⟨hafter, rfl, hbundle.symm, rfl, rfl, rfl, rfl, (fun h => nomatch h),
      fun h => nomatch h⟩,
        fun h => nomatch h.1⟩

/-- What a call that returns tells about the CA that is stored then. -/
structure OutcomeOk (lib : CaLib) (which : WhichCa) (cluster : String) (w : World)
    (out : CaReconcileOutcome) (K : KeyPart) (C : CertPart) : Prop where
  stored : Stored which cluster w K C
  keyPem : out.signingMaterial.keyPem = K.keyPem
  certKey : ∃ b, C.bundle.head? = some b ∧ lib.certKey out.signingMaterial.certPem = lib.certKey b
  trustBundle : out.trustBundlePem = C.bundlePem
  keyGeneration : out.keyGeneration = K.generation
  certGeneration : out.certGeneration = C.generation
  phase : out.phase = C.phase
  /-- Leafs are reissued for a promoted key only. -/
  reissue : out.leafTransition = .reissue → C.phase = .keyReplacePromote

/-- How that CA comes from the one the call has found. -/
structure RotationOk (which : WhichCa) (plan : CaRotationPlan) (out : CaReconcileOutcome)
    (K₀ K : KeyPart) (C₀ C : CertPart) : Prop where
  rests : plan.rests = true → K = K₀ ∧ C = C₀
  moved : plan.rests = false → ¬ HalfPromoted K C
  /-- Without a request to reissue the leafs, a promoted CA was promoted before, and
      the leafs marker of a clients CA is up to date. -/
  reissue : C.phase = .keyReplacePromote → out.leafTransition = .reissue ∨
    (C = C₀ ∧ (which = .clients → C.leafs = some K.generation))

theorem executePlan_sat (hlib : lib.Lawful) (hst : Stored which kafka.name w K C)
    (hinv : CaInv lib w.draws K C) (hwhich : inp.which = which)
    (hconv : inp.rolloutConverged = conv) :
    let plan := planCaRotation lib (.ofParts K C) inp
    Prog.Sat answer (fun a _ b => CaStep lib which conv kafka.name a b)
      (fun x w' => ∀ r, x = .ok r → ∃ K' C', RotatedOk which kafka.name C w' r K' C' ∧
        (plan.rests = true → K' = K ∧ C' = C) ∧ (plan.rests = false → ¬ HalfPromoted K' C'))
      (executePlan lib kafka which (.ofParts K C) plan inp C.bundlePem) w := by
  intro plan
  have hphase := planCaRotation_phase lib (.ofParts K C) inp
  have hmoves : ∀ {p : Op Rotated}, plan.rests = false →
      Prog.Sat answer (fun a _ b => CaStep lib which conv kafka.name a b)
        (RotatedPost which kafka.name C) p w →
      Prog.Sat answer (fun a _ b => CaStep lib which conv kafka.name a b)
        (fun x w' => ∀ r, x = .ok r → ∃ K' C', RotatedOk which kafka.name C w' r K' C' ∧
          (plan.rests = true → K' = K ∧ C' = C) ∧ (plan.rests = false → ¬ HalfPromoted K' C'))
        p w := by
    intro p hrests hp
    refine hp.mono (fun _ _ _ h => h) fun x w' hx r hr => ?_
    obtain ⟨K', C', hok, hhalf⟩ := hx r hr
    exact ⟨K', C', hok, fun h => absurd (hrests.symm.trans h) (by decide), fun _ => hhalf⟩
  have hsame : ∀ refused, RotatedOk which kafka.name C w
      { Rotated.ofState (.ofParts K C) C.bundlePem with refused } K C := fun refused =>
    ⟨hst, rfl, rfl, rfl, rfl, rfl, rfl, fun _ => .inr rfl, fun h => nomatch h⟩
  unfold plan at hmoves ⊢
  cases hplan : planCaRotation lib (.ofParts K C) inp with
  | noOp =>
    rintro r ⟨⟩
    exact ⟨K, C, hsame none, fun _ => ⟨rfl, rfl⟩, fun h => nomatch h⟩
  | refuse reason =>
    rintro r ⟨⟩
    exact ⟨K, C, hsame (some reason), fun _ => ⟨rfl, rfl⟩, fun h => nomatch h⟩
  | renewCertSameKey =>
    rw [hplan] at hphase hmoves
    exact hmoves rfl (renewCertSameKey_sat hlib hst hinv hphase)
  | startKeyReplace =>
    rw [hplan] at hphase hmoves
    exact hmoves rfl (startKeyReplace_sat hlib hst hinv hphase)
  | promoteNewKey =>
    rw [hplan] at hphase hmoves
    exact hmoves rfl (promoteNewKey_sat hst hinv hphase.1 (hconv.symm.trans hphase.2))
  | pruneOldTrust =>
    rw [hplan, hconv, hwhich] at hphase
    rw [hplan] at hmoves
    exact hmoves rfl (pruneOldTrust_sat hst hinv hphase)

theorem sat_readNotAfter {α : Type} {S : World → Req → World → Prop}
    {Q : Except ReconcileError α → World → Prop} {certPem : Pem} {k : String → Op α}
    (herr : ∀ e, Q (.error e) w) (hk : ∀ t, Prog.Sat answer S Q (k t) w) :
    Prog.Sat answer S Q (readNotAfter lib certPem >>= k) w := by
  rw [readNotAfter, Prog.bind_assoc]
  exact sat_orFail (fun _ _ => herr _) fun _ _ => sat_orFail (fun _ _ => herr _) fun t _ => hk t

/-- The result of a call on a readable CA. -/
def RotationPost (lib : CaLib) (which : WhichCa) (cluster : String) (plan : CaRotationPlan)
    (K₀ : KeyPart) (C₀ : CertPart) (x : Except ReconcileError CaReconcileOutcome) (w : World) :
    Prop :=
  ∀ out, x = .ok out → ∃ K C, OutcomeOk lib which cluster w out K C ∧
    RotationOk which plan out K₀ K C₀ C

theorem applyCaRotation_sat (hlib : lib.Lawful) (hst : Stored which kafka.name w K C)
    (hinv : CaInv lib w.draws K C) (hwhich : inp.which = which)
    (hconv : inp.rolloutConverged = conv) :
    let plan := planCaRotation lib (.ofParts K C) inp
    Prog.Sat answer (fun a _ b => CaStep lib which conv kafka.name a b)
      (RotationPost lib which kafka.name plan K C)
      (applyCaRotation lib kafka which (.ofParts K C) plan inp C.bundlePem) w := by
  intro plan
  have hok : CaOk lib which kafka.name w := .inr ⟨K, C, hst, hinv⟩
  have hexec := (executePlan_sat hlib hst hinv hwhich hconv).invariant
    (fun _ _ _ h => h.ok) hok
  refine Prog.Sat.bind (hexec.mono (fun _ _ _ h => h.1) fun x w' hx => ?_)
  cases x with
  | error e => exact fun out h => nomatch h
  | ok r =>
    obtain ⟨K', C', hr, hrests, hmoved⟩ := hx.1 r rfl
    obtain ⟨b, hb⟩ : ∃ b, C'.bundle.head? = some b := by
      rcases hx.2 with habsent | ⟨K₁, C₁, hst₁, hinv₁⟩
      · exact absurd habsent hr.stored.secret?
      · obtain ⟨-, rfl⟩ := hst₁.unique hr.stored
        exact ⟨_, hinv₁.head?.choose_spec.1⟩
    refine sat_readNotAfter (fun e out h => nomatch h) fun notAfter => ?_
    rintro out ⟨⟩
    refine ⟨K', C', ⟨hr.stored, hr.keyPem, ⟨b, hb, ?_⟩, hr.raw, hr.keyGen, hr.certGen, hr.phase,
      fun hreissue => ?_⟩, ⟨hrests, hmoved, ?_⟩⟩
    · simp [hr.bundle, hb]
    · rw [← hr.phase]
      by_contra hne
      have hforce : r.forceReissue ≠ true := fun h => hne (hr.forced h)
      simp only [Bool.not_eq_true] at hforce
      simp [hforce, hne] at hreissue
      split at hreissue <;> cases hreissue
    · intro hphase
      rcases hr.reissue (hr.phase.trans hphase) with hforce | hC
      · simp [hforce]
      · by_cases hm : which = .clients ∧ C.leafs ≠ some r.keyGen
        · simp [hm.1, hr.phase, hphase, hm.2, CaState.ofParts]
        · refine .inr ⟨hC, fun hclients => ?_⟩
          by_contra hne
          exact hm ⟨hclients, by rwa [hr.keyGen, ← hC]⟩

end Arms

/-! ## Creation and entry point -/

/-- The patch that creates the cert Secret. -/
theorem certPartIn_create (habsent : w.secret? (which.certName cluster) = none) (certPem : Pem) :
    certPartIn (w.applySecret (which.certName cluster)
      (renderCaSecret [("ca.crt", certPem)] [(annCertGeneration, "0")])) which cluster =
      some ⟨certPem, 0, none, .idle⟩ := by
  obtain ⟨leafs, phase, hpart, hleafs, hphase⟩ :=
    certPart?_apply_created (c := Secret.empty) fieldManager certPem
  obtain rfl : leafs = none := by
    rcases hleafs with h | h
    · rw [h]
      simp [readOptionalGeneration, Secret.annotation?, Secret.empty]
    · exact h
  obtain rfl : phase = .idle := by
    rcases hphase with h | h
    · rw [h]
      simp [readPhase, Secret.annotation?, Secret.empty]
    · exact h
  simpa [certPartIn, habsent] using hpart

theorem CaInv.created (hlib : lib.Lawful) {cn : String} {days n : Nat} {d : Draw} {m : CaMaterial}
    {pk pc : Option Pem} (h : lib.generateCa which cn days d = .ok m) (hd : d.serial < n) :
    CaInv lib n ⟨m.keyPem, pk, pc, 0⟩ ⟨m.certPem, 0, none, .idle⟩ := by
  have hmints : lib.Mints d m.certPem := .inl ⟨_, _, _, _, h, rfl⟩
  obtain ⟨b, hb⟩ := hlib.mints_block hmints
  refine ⟨?_, ⟨_, _, _, _, _, h, rfl, hd⟩, b, [], hb, ?_⟩
  · intro b' hb'
    rw [CertPart.bundle, hb, List.mem_singleton] at hb'
    exact hb' ▸ ⟨_, _, hmints, hb, hd⟩
  · exact (hlib.certKey_first hb).trans (hlib.generate_pairs h)

theorem createCa_sat (hlib : lib.Lawful) {kafka : Kafka}
    (habsent : w.secret? (which.certName kafka.name) = none) :
    Prog.Sat answer (fun a _ b => CaStep lib which conv kafka.name a b)
      (fun x w' => ∀ out, x = .ok out → ∃ K C, OutcomeOk lib which kafka.name w' out K C ∧
        C.phase = .idle)
      (createCa lib kafka which) w := by
  refine sat_draw (.draw (.inl habsent)) fun clock => ?_
  refine sat_orFail (fun e _ out h => nomatch h) fun m hm => ?_
  -- First write: the key Secret. The CA has no cert Secret yet.
  have hkeep : ({ w with draws := w.draws + 1 }.applySecret (which.keyName kafka.name)
      (renderCaSecret [("ca.key", m.keyPem)] [(annKeyGeneration, "0")])).secret?
      (which.certName kafka.name) = none :=
    (World.secret?_applySecret_of_ne keyName_ne_certName).trans habsent
  refine sat_patchSecret (.refl (.inl habsent)) (fun e v out h => nomatch h)
    ⟨.applyKey, le_rfl, .absent habsent hkeep⟩ ?_
  obtain ⟨pk, pc, hkey⟩ := keyPart?_apply (k := (w.secret? (which.keyName kafka.name)).getD
    Secret.empty) fieldManager m.keyPem (show 0 < 2 ^ 64 by decide)
  -- Second write: the cert Secret, which completes the CA.
  have hafter : Stored which kafka.name _ ⟨m.keyPem, pk, pc, 0⟩ ⟨m.certPem, 0, none, .idle⟩ := {
    key := by
      rw [keyPartIn, World.secret?_applySecret_of_ne (Ne.symm keyName_ne_certName),
        World.secret?_applySecret_self]
      exact hkey
    cert := certPartIn_create hkeep m.certPem }
  have hinv : CaInv lib (w.draws + 1) ⟨m.keyPem, pk, pc, 0⟩ ⟨m.certPem, 0, none, .idle⟩ :=
    .created hlib hm (Nat.lt_succ_self w.draws)
  refine sat_patchSecret (.refl (.inl hkeep)) (fun e v out h => nomatch h)
    ⟨.applyCert, le_rfl, .created hkeep hafter hinv rfl rfl rfl rfl⟩ ?_
  refine sat_readNotAfter (fun e out h => nomatch h) fun notAfter => ?_
  rintro out ⟨⟩
  obtain ⟨b, hb⟩ := hlib.mints_block (.inl ⟨_, _, _, _, hm, rfl⟩)
  exact ⟨_, _, ⟨hafter, rfl, ⟨b, by simp [CertPart.bundle, hb], (hlib.certKey_first hb).symm⟩,
    rfl, rfl, rfl, rfl, fun h => nomatch h⟩, rfl⟩

theorem reconcileCaFrom_absent {kafka : Kafka} {inp : RotationInputs}
    {existingKey existingCert : Option Secret} (h : existingCert = none) :
    reconcileCaFrom lib kafka which inp existingKey existingCert =
      if inp.generate = true then createCa lib kafka which
      else .fail (.byoCaMissing which.conditionName) := by
  subst h
  cases hg : inp.generate <;> cases existingKey <;> simp [reconcileCaFrom, hg]

/-- The result of a call. -/
def CaPost (lib : CaLib) (kafka : Kafka) (which : WhichCa) (inp : RotationInputs) (w₀ : World)
    (x : Except ReconcileError CaReconcileOutcome) (w : World) : Prop :=
  ∀ out, x = .ok out → ∃ K C, OutcomeOk lib which kafka.name w out K C ∧
    CaInv lib w.draws K C ∧
    ((w₀.secret? (which.certName kafka.name) = none ∧ C.phase = .idle) ∨
      ∃ K₀ C₀, Stored which kafka.name w₀ K₀ C₀ ∧
        RotationOk which (planCaRotation lib (.ofParts K₀ C₀) inp) out K₀ K C₀ C)

/-- Every request of a call is a step of the machine, and the outcome of a call that
    returns agrees with the store. -/
theorem reconcileCa_sat (hlib : lib.Lawful) {kafka : Kafka} (hok : CaOk lib which kafka.name w)
    (forceRenew forceReplaceKey conv : Bool) (now : Int) :
    Prog.Sat answer (fun a _ b => CaStep lib which conv kafka.name a b)
      (CaPost lib kafka which (rotationInputs kafka which forceRenew forceReplaceKey conv now) w)
      (reconcileCa lib kafka which forceRenew forceReplaceKey conv now) w := by
  refine sat_getOpt (.refl hok) (fun e out h => nomatch h) ?_
  refine sat_getOpt (.refl hok) (fun e out h => nomatch h) ?_
  have hcall : Prog.Sat answer (fun a _ b => CaStep lib which conv kafka.name a b)
      (fun x w' => ∀ out, x = .ok out → ∃ K C, OutcomeOk lib which kafka.name w' out K C ∧
        ((w.secret? (which.certName kafka.name) = none ∧ C.phase = .idle) ∨
          ∃ K₀ C₀, Stored which kafka.name w K₀ C₀ ∧ RotationOk which
            (planCaRotation lib (.ofParts K₀ C₀)
              (rotationInputs kafka which forceRenew forceReplaceKey conv now)) out K₀ K C₀ C))
      (reconcileCaFrom lib kafka which
        (rotationInputs kafka which forceRenew forceReplaceKey conv now)
        (w.secret? (which.keyName kafka.name)) (w.secret? (which.certName kafka.name))) w := by
    rcases hok with habsent | ⟨K₀, C₀, hst, hinv⟩
    · rw [reconcileCaFrom_absent habsent]
      by_cases hg : (rotationInputs kafka which forceRenew forceReplaceKey conv now).generate = true
      · rw [if_pos hg]
        refine (createCa_sat hlib habsent).mono (fun _ _ _ h => h) fun x w' hx out hout => ?_
        obtain ⟨K, C, hokc, hphase⟩ := hx out hout
        exact ⟨K, C, hokc, .inl ⟨habsent, hphase⟩⟩
      · rw [if_neg hg]
        exact fun out h => nomatch h
    · obtain ⟨k, hk, hkp⟩ := Option.bind_eq_some_iff.mp hst.key
      obtain ⟨c, hc, hcp⟩ := Option.bind_eq_some_iff.mp hst.cert
      simp only [reconcileCaFrom, hk, hc, readCaState_eq, hkp, hcp, Option.bind_some,
        Option.map_some]
      refine (applyCaRotation_sat hlib hst hinv rfl rfl).mono (fun _ _ _ h => h)
        fun x w' hx out hout => ?_
      obtain ⟨K, C, hokc, hrot⟩ := hx out hout
      exact ⟨K, C, hokc, .inr ⟨K₀, C₀, hst, hrot⟩⟩
  refine (hcall.invariant (fun _ _ _ h => h.ok) hok).mono (fun _ _ _ h => h.1)
    fun x w' hx out hout => ?_
  obtain ⟨K, C, hokc, hcase⟩ := hx.1 out hout
  refine ⟨K, C, hokc, ?_, hcase⟩
  rcases hx.2 with habsent | ⟨K₁, C₁, hst₁, hinv₁⟩
  · exact absurd habsent hokc.stored.secret?
  · obtain ⟨rfl, rfl⟩ := hst₁.unique hokc.stored
    exact hinv₁

end ClusterCa
