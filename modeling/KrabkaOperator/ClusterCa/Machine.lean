-- SUMMARY: The rotation of a stored CA as an abstract machine over its two halves, with the invariant that every write keeps.
import KrabkaOperator.ClusterCa.Store

/-!
# The rotation machine

`CaWrite` lists every write that the controller makes to a CA whose two halves
are readable, with what the controller knows at that write. A rotation step that
writes both halves is two writes, so a state between them is a state of the
machine like any other. `CaInv` is the invariant of the machine.
-/

namespace ClusterCa

variable (lib : CaLib)

/-- `b` is the block of a CA certificate from one of the first `n` draws. -/
def Minted (n : Nat) (b : Pem) : Prop :=
  ∃ d c, lib.Mints d c ∧ splitPemCerts c = [b] ∧ d.serial < n

/-- `key` is a CA key from one of the first `n` draws. -/
def MintedKey (n : Nat) (key : Pem) : Prop :=
  ∃ which cn days d m, lib.generateCa which cn days d = .ok m ∧ m.keyPem = key ∧ d.serial < n

/-- A staged pair: its certificate is trusted but does not sign yet, and no
    certificate in front of it has its key. -/
structure Staged (n : Nat) (K : KeyPart) (signing : Pem) (bundle : List Pem)
    (nk pc nb : Pem) : Prop where
  pendingKey : K.pendingKey = some nk
  pendingCert : K.pendingCert = some pc
  split : splitPemCerts pc = [nb]
  pair : lib.certKey nb = some (lib.publicKeyOf nk)
  trusted : nb ∈ bundle
  mintedKey : MintedKey lib n nk
  signing_key : lib.certKey signing ≠ some (lib.publicKeyOf nk)
  /-- The key Secret has been promoted already, or the old key still signs. -/
  active : K.keyPem = nk ∨ lib.certKey signing = some (lib.publicKeyOf K.keyPem)

/-- The active key signs for the first certificate, except while a staged pair waits. -/
def SigningOk (n : Nat) (K : KeyPart) (C : CertPart) (signing : Pem) : Prop :=
  match C.phase with
  | .idle | .keyReplacePromote => lib.certKey signing = some (lib.publicKeyOf K.keyPem)
  | .keyReplaceTrust => ∃ nk pc nb, Staged lib n K signing C.bundle nk pc nb

/-- The key half has been promoted, the cert half not yet. -/
def HalfPromoted (K : KeyPart) (C : CertPart) : Prop :=
  C.phase = .keyReplaceTrust ∧ K.pendingKey = some K.keyPem

instance (K : KeyPart) (C : CertPart) : Decidable (HalfPromoted K C) :=
  inferInstanceAs (Decidable (_ ∧ _))

structure CaInv (n : Nat) (K : KeyPart) (C : CertPart) : Prop where
  minted : ∀ b ∈ C.bundle, Minted lib n b
  mintedKey : MintedKey lib n K.keyPem
  signing : ∃ b bs, C.bundle = b :: bs ∧ SigningOk lib n K C b

/-- The writes of a controller that generates the CA. `n` counts the draws, and
    `conv` says whether the roll has converged. -/
inductive CaWrite (which : WhichCa) (conv : Bool) (n : Nat) (K : KeyPart) (C : CertPart) :
    KeyPart → CertPart → Prop
  | renew {b : Pem} {now : Int} {leafs : Option Nat} (phase : C.phase = .idle)
      (key : lib.certKey b = some (lib.publicKeyOf K.keyPem)) (block : IsBlock b)
      (fresh : b ∉ C.bundle) (minted : Minted lib n b) (hleafs : leafs = C.leafs ∨ leafs = none) :
      CaWrite which conv n K C K
        ⟨joinBundle (dedupBlocks (b :: pruneExpired lib.certNotAfter C.bundle now)),
          nextGeneration C.generation, leafs, .idle⟩
  | stage {nk pc : Pem} (phase : C.phase = .idle) :
      CaWrite which conv n K C { K with pendingKey := some nk, pendingCert := some pc } C
  | trust {nk pc nb : Pem} {now : Int} {leafs : Option Nat} (phase : C.phase = .idle)
      (pendingKey : K.pendingKey = some nk) (pendingCert : K.pendingCert = some pc)
      (split : splitPemCerts pc = [nb]) (pair : lib.certKey nb = some (lib.publicKeyOf nk))
      (minted : Minted lib n nb) (mintedKey : MintedKey lib n nk)
      (fresh : lib.publicKeyOf nk ≠ lib.publicKeyOf K.keyPem)
      (hleafs : leafs = C.leafs ∨ leafs = none) :
      CaWrite which conv n K C K
        ⟨joinBundle (dedupBlocks (pruneExpired lib.certNotAfter C.bundle now ++ [nb])),
          C.generation, leafs, .keyReplaceTrust⟩
  | promoteKey {nk pc : Pem} (converged : conv = true) (phase : C.phase = .keyReplaceTrust)
      (pendingKey : K.pendingKey = some nk) (pendingCert : K.pendingCert = some pc) :
      CaWrite which conv n K C
        ⟨nk, some nk, some (normalizeBlock pc),
          if K.keyPem = nk then K.generation else nextGeneration K.generation⟩ C
  | promoteCert {nb : Pem} {now : Int} {leafs : Option Nat} (converged : conv = true)
      (phase : C.phase = .keyReplaceTrust)
      (pendingKey : K.pendingKey = some K.keyPem) (pendingCert : K.pendingCert = some nb)
      (block : IsBlock nb) (hleafs : leafs = C.leafs ∨ leafs = none) :
      CaWrite which conv n K C K
        ⟨joinBundle (pruneExpired lib.certNotAfter
            (dedupBlocks (nb :: C.bundle.filter (· ≠ nb))) now),
          nextGeneration C.generation, leafs, .keyReplacePromote⟩
  | pruneKey {pk pc : Option Pem} (converged : conv = true) (phase : C.phase = .keyReplacePromote)
      (marked : which = .cluster ∨ C.leafs = some K.generation) :
      CaWrite which conv n K C { K with pendingKey := pk, pendingCert := pc } C
  | pruneCert {leafs : Option Nat} (converged : conv = true) (phase : C.phase = .keyReplacePromote)
      (marked : which = .cluster ∨ C.leafs = some K.generation)
      (hleafs : leafs = C.leafs ∨ leafs = none) :
      CaWrite which conv n K C K ⟨joinBundle C.bundle.head?.toList, C.generation, leafs, .idle⟩
  | expire {now : Int} {leafs : Option Nat} (phase : C.phase = .idle)
      (hleafs : leafs = C.leafs ∨ leafs = none) :
      CaWrite which conv n K C K
        ⟨joinBundle (pruneExpired lib.certNotAfter C.bundle now), C.generation, leafs, .idle⟩

/-! ## Freshness -/

variable {lib} {n n' : Nat} {K K' : KeyPart} {C C' : CertPart} {which : WhichCa} {conv : Bool}

theorem Minted.mono {b : Pem} (h : Minted lib n b) (hn : n ≤ n') : Minted lib n' b := by
  obtain ⟨d, c, hm, hs, hd⟩ := h
  exact ⟨d, c, hm, hs, by omega⟩

theorem MintedKey.mono {key : Pem} (h : MintedKey lib n key) (hn : n ≤ n') :
    MintedKey lib n' key := by
  obtain ⟨which, cn, days, d, m, hm, hk, hd⟩ := h
  exact ⟨which, cn, days, d, m, hm, hk, by omega⟩

/-- A new certificate is none of the earlier ones. -/
theorem not_minted_of_mints (hlib : lib.Lawful) {d : Draw} {c b : Pem} (h : lib.Mints d c)
    (hs : splitPemCerts c = [b]) (hn : n ≤ d.serial) : ¬ Minted lib n b := by
  rintro ⟨d', c', h', hs', hd'⟩
  have := hlib.mints_fresh h h' hs hs'
  omega

/-- A new key is none of the earlier ones. -/
theorem ne_of_mintedKey (hlib : lib.Lawful) {cn : String} {days : Nat} {d : Draw} {m : CaMaterial}
    {key : Pem} (h : lib.generateCa which cn days d = .ok m) (hn : n ≤ d.serial)
    (hkey : MintedKey lib n key) : lib.publicKeyOf m.keyPem ≠ lib.publicKeyOf key := by
  obtain ⟨which', cn', days', d', m', h', rfl, hd'⟩ := hkey
  intro heq
  have := hlib.generate_fresh h h' heq
  omega

/-! ## The invariant -/

theorem Staged.mono {signing nk pc nb : Pem} {bundle : List Pem}
    (h : Staged lib n K signing bundle nk pc nb) (hn : n ≤ n') :
    Staged lib n' K signing bundle nk pc nb :=
  { h with mintedKey := h.mintedKey.mono hn }

theorem CaInv.mono (h : CaInv lib n K C) (hn : n ≤ n') : CaInv lib n' K C where
  minted b hb := (h.minted b hb).mono hn
  mintedKey := h.mintedKey.mono hn
  signing := by
    obtain ⟨b, bs, hb, hs⟩ := h.signing
    refine ⟨b, bs, hb, ?_⟩
    unfold SigningOk at hs ⊢
    cases hp : C.phase with
    | idle => simpa [hp] using hs
    | keyReplacePromote => simpa [hp] using hs
    | keyReplaceTrust =>
      simp only [hp] at hs ⊢
      obtain ⟨nk, pc, nb, hst⟩ := hs
      exact ⟨nk, pc, nb, hst.mono hn⟩

/-- The invariant does not look at the leafs marker. -/
theorem CaInv.setLeafs (h : CaInv lib n K C) (leafs : Option Nat) :
    CaInv lib n K { C with leafs } := ⟨h.minted, h.mintedKey, h.signing⟩

theorem CertPart.isBlock_of_mem {b : Pem} (h : b ∈ C.bundle) : IsBlock b :=
  isBlock_of_mem_splitPemCerts h

/-- The blocks of a bundle that a write may store. -/
def Storable (lib : CaLib) (n : Nat) (bs : List Pem) : Prop := ∀ b ∈ bs, IsBlock b ∧ Minted lib n b

theorem CaInv.storable (h : CaInv lib n K C) : Storable lib n C.bundle :=
  fun b hb => ⟨CertPart.isBlock_of_mem hb, h.minted b hb⟩

/-- The bundles that the controller stores: the old one, with expired blocks removed
    and at most one new block added, and with the signing block first. -/
theorem Storable.of_mem {bs bs' : List Pem} {b : Pem} (hbs : Storable lib n bs)
    (hb : IsBlock b ∧ Minted lib n b) (h : ∀ x ∈ bs', x = b ∨ x ∈ bs) : Storable lib n bs' := by
  intro x hx
  rcases h x hx with rfl | hx
  · exact hb
  · exact hbs x hx

theorem Storable.sublist {bs bs' : List Pem} (hbs : Storable lib n bs)
    (h : ∀ x ∈ bs', x ∈ bs) : Storable lib n bs' :=
  fun x hx => hbs x (h x hx)

theorem bundle_joinBundle {bs : List Pem} (h : Storable lib n bs) (g : Nat) (leafs : Option Nat)
    (phase : CaPhase) : (CertPart.mk (joinBundle bs) g leafs phase).bundle = bs :=
  splitPemCerts_joinBundle fun b hb => (h b hb).1

theorem CaInv.of_storable {bs : List Pem} {b : Pem} {g : Nat} {leafs : Option Nat}
    {phase : CaPhase} (hbs : Storable lib n bs) (hhead : bs.head? = some b)
    (hkey : MintedKey lib n K.keyPem)
    (hsign : SigningOk lib n K ⟨joinBundle bs, g, leafs, phase⟩ b) :
    CaInv lib n K ⟨joinBundle bs, g, leafs, phase⟩ := by
  obtain ⟨bs', hbs'⟩ := List.head?_eq_some_iff.mp hhead
  refine ⟨?_, hkey, b, bs', ?_, hsign⟩
  · rw [bundle_joinBundle hbs]
    exact fun b hb => (hbs b hb).2
  · rw [bundle_joinBundle hbs, hbs']

section Bundles

variable {bs : List Pem} {b nb : Pem}

theorem storable_renewed (now : Int) (hbs : Storable lib n bs) (hb : IsBlock b ∧ Minted lib n b) :
    Storable lib n (dedupBlocks (b :: pruneExpired lib.certNotAfter bs now)) := by
  refine hbs.of_mem hb fun x hx => ?_
  rcases List.mem_cons.mp (mem_dedupBlocks.mp hx) with rfl | hx
  · exact .inl rfl
  · exact .inr (mem_of_mem_pruneExpired hx)

theorem storable_trusted (now : Int) (hbs : Storable lib n bs) (hb : IsBlock nb ∧ Minted lib n nb) :
    Storable lib n (dedupBlocks (pruneExpired lib.certNotAfter bs now ++ [nb])) := by
  refine hbs.of_mem hb fun x hx => ?_
  rcases List.mem_append.mp (mem_dedupBlocks.mp hx) with hx | hx
  · exact .inr (mem_of_mem_pruneExpired hx)
  · exact .inl (List.mem_singleton.mp hx)

theorem head?_trusted {now : Int} (h : bs.head? = some b) :
    (dedupBlocks (pruneExpired lib.certNotAfter bs now ++ [nb])).head? = some b := by
  have hprune : (pruneExpired lib.certNotAfter bs now).head? = some b := by
    rw [head?_pruneExpired, h]
  rw [head?_dedupBlocks, List.head?_append, hprune, Option.some_or]

theorem storable_promoted (now : Int) (hbs : Storable lib n bs) (hb : nb ∈ bs) :
    Storable lib n
      (pruneExpired lib.certNotAfter (dedupBlocks (nb :: bs.filter (· ≠ nb))) now) := by
  refine hbs.sublist fun x hx => ?_
  rcases List.mem_cons.mp (mem_dedupBlocks.mp (mem_of_mem_pruneExpired hx)) with rfl | hx
  · exact hb
  · exact (List.mem_filter.mp hx).1

theorem head?_promoted {now : Int} :
    (pruneExpired lib.certNotAfter (dedupBlocks (nb :: bs.filter (· ≠ nb))) now).head? =
      some nb := by
  rw [head?_pruneExpired, head?_dedupBlocks, List.head?_cons]

theorem storable_head (hbs : Storable lib n bs) : Storable lib n bs.head?.toList := by
  refine hbs.sublist fun x hx => ?_
  cases bs with
  | nil => simp at hx
  | cons c cs =>
    rw [List.head?_cons, Option.mem_toList, Option.some_inj] at hx
    exact hx ▸ List.mem_cons_self

theorem storable_pruned (now : Int) (hbs : Storable lib n bs) :
    Storable lib n (pruneExpired lib.certNotAfter bs now) :=
  hbs.sublist fun _ hx => mem_of_mem_pruneExpired hx

end Bundles

theorem CaInv.head? (h : CaInv lib n K C) :
    ∃ b, C.bundle.head? = some b ∧ SigningOk lib n K C b := by
  obtain ⟨b, bs, hb, hs⟩ := h.signing
  exact ⟨b, by rw [hb, List.head?_cons], hs⟩

/-- The staged pair of a CA in the trust phase. -/
theorem CaInv.staged (h : CaInv lib n K C) (hp : C.phase = .keyReplaceTrust) :
    ∃ b nk pc nb, C.bundle.head? = some b ∧ Staged lib n K b C.bundle nk pc nb := by
  obtain ⟨b, hb, hs⟩ := h.head?
  simp only [SigningOk, hp] at hs
  obtain ⟨nk, pc, nb, hst⟩ := hs
  exact ⟨b, nk, pc, nb, hb, hst⟩

/-- Outside of the trust phase the active key signs. -/
theorem CaInv.pairs (h : CaInv lib n K C) (hp : C.phase ≠ .keyReplaceTrust) :
    ∃ b, C.bundle.head? = some b ∧ lib.certKey b = some (lib.publicKeyOf K.keyPem) := by
  obtain ⟨b, hb, hs⟩ := h.head?
  refine ⟨b, hb, ?_⟩
  cases hc : C.phase with
  | idle => simpa [SigningOk, hc] using hs
  | keyReplaceTrust => exact absurd hc hp
  | keyReplacePromote => simpa [SigningOk, hc] using hs

/-- The active key signs exactly when no promotion is half-way. -/
theorem CaInv.pairs_iff (h : CaInv lib n K C) {b : Pem} (hb : C.bundle.head? = some b) :
    lib.certKey b = some (lib.publicKeyOf K.keyPem) ↔ ¬ HalfPromoted K C := by
  by_cases hp : C.phase = .keyReplaceTrust
  · obtain ⟨b', nk, pc, nb, hb', hst⟩ := h.staged hp
    obtain rfl : b' = b := Option.some_inj.mp (hb' ▸ hb)
    constructor
    · rintro hkey ⟨-, hpending⟩
      obtain rfl : nk = K.keyPem := Option.some_inj.mp (hst.pendingKey ▸ hpending)
      exact hst.signing_key hkey
    · intro hnot
      rcases hst.active with rfl | hkey
      · exact absurd ⟨hp, hst.pendingKey⟩ hnot
      · exact hkey
  · obtain ⟨b', hb', hkey⟩ := h.pairs hp
    obtain rfl : b' = b := Option.some_inj.mp (hb' ▸ hb)
    exact ⟨fun _ hhalf => hp hhalf.1, fun _ => hkey⟩

/-- Every write keeps the invariant. -/
theorem CaInv.write (h : CaInv lib n K C) (hw : CaWrite lib which conv n K C K' C') :
    CaInv lib n K' C' := by
  cases hw with
  | renew phase key block fresh minted hleafs =>
    exact .of_storable (storable_renewed _ h.storable ⟨block, minted⟩)
      (by rw [head?_dedupBlocks, List.head?_cons]) h.mintedKey key
  | stage phase =>
    obtain ⟨b, bs, hb, hs⟩ := h.signing
    exact ⟨h.minted, h.mintedKey, b, bs, hb, by simpa [SigningOk, phase] using hs⟩
  | @trust nk pc nb now leafs phase pendingKey pendingCert split pair minted mintedKey fresh _ =>
    obtain ⟨b, hb, hkey⟩ := h.pairs (by simp [phase])
    have hblock : IsBlock nb := isBlock_of_mem_splitPemCerts (split ▸ List.mem_cons_self)
    have hstore := storable_trusted now h.storable ⟨hblock, minted⟩
    refine .of_storable hstore (head?_trusted hb) h.mintedKey ⟨nk, pc, nb, ?_⟩
    rw [bundle_joinBundle hstore]
    refine ⟨pendingKey, pendingCert, split, pair, ?_, mintedKey, ?_, .inr hkey⟩
    · exact mem_dedupBlocks.mpr (List.mem_append_right _ List.mem_cons_self)
    · rw [hkey]
      exact fun heq => fresh (Option.some_inj.mp heq).symm
  | @promoteKey nk pc converged phase pendingKey pendingCert =>
    obtain ⟨b, nk', pc', nb, hb, hst⟩ := h.staged phase
    obtain rfl : nk' = nk := Option.some_inj.mp (hst.pendingKey ▸ pendingKey)
    obtain rfl : pc' = pc := Option.some_inj.mp (hst.pendingCert ▸ pendingCert)
    obtain ⟨bs, hbs⟩ := List.head?_eq_some_iff.mp hb
    have hblock : IsBlock nb := isBlock_of_mem_splitPemCerts (hst.split ▸ List.mem_cons_self)
    refine ⟨h.minted, hst.mintedKey, b, bs, hbs, ?_⟩
    simp only [SigningOk, phase]
    exact ⟨nk', nb, nb, rfl, congrArg some (normalizeBlock_of_split hst.split), hblock, hst.pair,
      hst.trusted, hst.mintedKey, hst.signing_key, .inl rfl⟩
  | @promoteCert nb now leafs converged phase pendingKey pendingCert block _ =>
    obtain ⟨b, nk', pc', nb', hb, hst⟩ := h.staged phase
    obtain rfl : nk' = K.keyPem := Option.some_inj.mp (hst.pendingKey ▸ pendingKey)
    obtain rfl : pc' = nb := Option.some_inj.mp (hst.pendingCert ▸ pendingCert)
    obtain rfl : nb' = pc' := by
      have := hst.split
      rw [block] at this
      exact (List.singleton_inj.mp this).symm
    exact .of_storable (storable_promoted _ h.storable hst.trusted) head?_promoted h.mintedKey
      hst.pair
  | pruneKey converged phase marked =>
    obtain ⟨b, bs, hb, hs⟩ := h.signing
    exact ⟨h.minted, h.mintedKey, b, bs, hb, by simpa [SigningOk, phase] using hs⟩
  | pruneCert converged phase marked _ =>
    obtain ⟨b, hb, hkey⟩ := h.pairs (by simp [phase])
    exact .of_storable (storable_head h.storable) (by rw [hb]; rfl) h.mintedKey hkey
  | expire phase _ =>
    obtain ⟨b, hb, hkey⟩ := h.pairs (by simp [phase])
    exact .of_storable (storable_pruned _ h.storable) (by rw [head?_pruneExpired, hb]) h.mintedKey
      hkey

end ClusterCa
