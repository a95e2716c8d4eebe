-- SUMMARY: The generation counters of a CA count the changes of its key and of its signing certificate along every history of calls.
import KrabkaOperator.ClusterCa.Signing

/-!
# Generation counters

The key Secret counts the replacements of `ca.key`, the cert Secret the changes
of the first certificate of the bundle. A counter is a `u64`, so the results are
about histories with fewer requests than it can count.
-/

namespace ClusterCa

open Kube Crd Operator

variable {lib : CaLib} {cluster : String} {which : WhichCa} {conv : Bool} {n : Nat}
  {K K' K'' : KeyPart} {C C' C'' : CertPart} {a b w : World}

/-- One request: each counter moves exactly with what it counts, and then by one. -/
structure Counted (K : KeyPart) (C : CertPart) (K' : KeyPart) (C' : CertPart) : Prop where
  key_iff : K'.generation ≠ K.generation ↔ K'.keyPem ≠ K.keyPem
  key_succ : K'.keyPem ≠ K.keyPem → K'.generation = K.generation + 1
  cert_iff : C'.generation ≠ C.generation ↔ C'.bundle.head? ≠ C.bundle.head?
  cert_succ : C'.bundle.head? ≠ C.bundle.head? → C'.generation = C.generation + 1

/-- An earlier and a later state: no counter goes back, and equal counters mean the
    same key and the same signing certificate. -/
structure Versioned (K : KeyPart) (C : CertPart) (K' : KeyPart) (C' : CertPart) : Prop where
  key_le : K.generation ≤ K'.generation
  cert_le : C.generation ≤ C'.generation
  key_eq : K.generation = K'.generation → K.keyPem = K'.keyPem
  cert_eq : C.generation = C'.generation → C.bundle.head? = C'.bundle.head?

theorem Counted.versioned (h : Counted K C K' C') : Versioned K C K' C' where
  key_le := by
    by_cases hk : K'.keyPem = K.keyPem
    · have := mt h.key_iff.mp (not_not_intro hk)
      omega
    · have := h.key_succ hk
      omega
  cert_le := by
    by_cases hc : C'.bundle.head? = C.bundle.head?
    · have := mt h.cert_iff.mp (not_not_intro hc)
      omega
    · have := h.cert_succ hc
      omega
  key_eq heq := by
    by_contra hk
    exact h.key_iff.mpr (fun h => hk h.symm) heq.symm
  cert_eq heq := by
    by_contra hc
    exact h.cert_iff.mpr (fun h => hc h.symm) heq.symm

theorem Versioned.trans (h : Versioned K C K' C') (h' : Versioned K' C' K'' C'') :
    Versioned K C K'' C'' where
  key_le := h.key_le.trans h'.key_le
  cert_le := h.cert_le.trans h'.cert_le
  key_eq heq := by
    have hle := h.key_le
    have hle' := h'.key_le
    exact (h.key_eq (by omega)).trans (h'.key_eq (by omega))
  cert_eq heq := by
    have hle := h.cert_le
    have hle' := h'.cert_le
    exact (h.cert_eq (by omega)).trans (h'.cert_eq (by omega))

theorem Counted.same : Counted K C K C := by
  constructor <;> simp

theorem Counted.of_key_eq (hk : K'.keyPem = K.keyPem) (hg : K'.generation = K.generation) :
    Counted K C K' C := by
  constructor <;> simp [hk, hg]

theorem Counted.of_cert_eq (hb : C'.bundle.head? = C.bundle.head?)
    (hg : C'.generation = C.generation) : Counted K C K C' := by
  constructor <;> simp [hb, hg]

theorem Counted.of_cert_ne (hb : C'.bundle.head? ≠ C.bundle.head?)
    (hg : C'.generation = C.generation + 1) : Counted K C K C' := by
  constructor <;> simp [hb, hg]

/-- Every write of the machine is counted. -/
theorem CaWrite.counted (hw : CaWrite lib which conv n K C K' C') (h : CaInv lib n K C)
    (hkey : K.generation + 1 < 2 ^ 64) (hcert : C.generation + 1 < 2 ^ 64) :
    Counted K C K' C' := by
  obtain ⟨b, hb, -⟩ := h.head?
  cases hw with
  | @renew c now leafs phase key block fresh minted _ =>
    refine .of_cert_ne ?_ (nextGeneration_eq hcert)
    rw [bundle_joinBundle (storable_renewed now h.storable ⟨block, minted⟩), head?_dedupBlocks,
      List.head?_cons, hb]
    intro heq
    exact fresh (Option.some_inj.mp heq ▸ List.mem_of_mem_head? (by rw [hb]; rfl))
  | stage => exact .of_key_eq rfl rfl
  | @trust nk pc nb now leafs phase _ _ split pair minted _ _ _ =>
    have hblock : IsBlock nb := isBlock_of_mem_splitPemCerts (split ▸ List.mem_cons_self)
    refine .of_cert_eq ?_ rfl
    rw [bundle_joinBundle (storable_trusted now h.storable ⟨hblock, minted⟩), head?_trusted hb, hb]
  | @promoteKey nk pc _ phase pendingKey _ =>
    by_cases hk : nk = K.keyPem
    · exact .of_key_eq hk (if_pos hk.symm)
    · have hg : (if K.keyPem = nk then K.generation else nextGeneration K.generation) =
          K.generation + 1 := by
        rw [if_neg fun h => hk h.symm, nextGeneration_eq hkey]
      constructor <;> simp [hk, hg]
  | @promoteCert nb now leafs _ phase pendingKey pendingCert block _ =>
    obtain ⟨b', nk, pc, nb', hb', hst⟩ := h.staged phase
    obtain rfl : b' = b := Option.some_inj.mp (hb' ▸ hb)
    obtain rfl : nk = K.keyPem := Option.some_inj.mp (hst.pendingKey ▸ pendingKey)
    obtain rfl : pc = nb := Option.some_inj.mp (hst.pendingCert ▸ pendingCert)
    obtain rfl : nb' = pc := by
      have := hst.split
      rw [block] at this
      exact (List.singleton_inj.mp this).symm
    refine .of_cert_ne ?_ (nextGeneration_eq hcert)
    rw [bundle_joinBundle (storable_promoted now h.storable hst.trusted), head?_promoted, hb]
    intro heq
    exact hst.signing_key (Option.some_inj.mp heq ▸ hst.pair)
  | pruneKey => exact .of_key_eq rfl rfl
  | pruneCert =>
    refine .of_cert_eq ?_ rfl
    rw [bundle_joinBundle (storable_head h.storable), hb]
    rfl
  | @expire now =>
    refine .of_cert_eq ?_ rfl
    rw [bundle_joinBundle (storable_pruned now h.storable), head?_pruneExpired]

/-! ## Histories -/

def CountedIn (which : WhichCa) (cluster : String) (a b : World) : Prop :=
  ∃ K C K' C', Stored which cluster a K C ∧ Stored which cluster b K' C' ∧ Counted K C K' C'

def VersionedIn (which : WhichCa) (cluster : String) (a b : World) : Prop :=
  ∃ K C K' C', Stored which cluster a K C ∧ Stored which cluster b K' C' ∧ Versioned K C K' C'

instance : Trans (VersionedIn which cluster) (VersionedIn which cluster)
    (VersionedIn which cluster) where
  trans := by
    rintro a b c ⟨K, C, K', C', ha, hb, h⟩ ⟨K₁, C₁, K'', C'', hb₁, hc, h'⟩
    obtain ⟨rfl, rfl⟩ := hb.unique hb₁
    exact ⟨_, _, _, _, ha, hc, h.trans h'⟩

/-- Both counters are at most `i`. -/
def GenerationsLe (which : WhichCa) (cluster : String) (i : Nat) (w : World) : Prop :=
  ∀ K C, Stored which cluster w K C → K.generation ≤ i ∧ C.generation ≤ i

theorem nextGeneration_le (g : Nat) : nextGeneration g ≤ g + 1 := Nat.mod_le _ _

theorem CaWrite.generation_le (hw : CaWrite lib which conv n K C K' C') :
    K'.generation ≤ K.generation + 1 ∧ C'.generation ≤ C.generation + 1 := by
  have hk := nextGeneration_le K.generation
  have hc := nextGeneration_le C.generation
  cases hw with
  | promoteKey =>
    refine ⟨?_, Nat.le_succ _⟩
    show (if _ then _ else _) ≤ _
    split <;> omega
  | renew => exact ⟨Nat.le_succ _, hc⟩
  | promoteCert => exact ⟨Nat.le_succ _, hc⟩
  | stage => exact ⟨Nat.le_succ _, Nat.le_succ _⟩
  | trust => exact ⟨Nat.le_succ _, Nat.le_succ _⟩
  | pruneKey => exact ⟨Nat.le_succ _, Nat.le_succ _⟩
  | pruneCert => exact ⟨Nat.le_succ _, Nat.le_succ _⟩
  | expire => exact ⟨Nat.le_succ _, Nat.le_succ _⟩

/-- A counter grows by at most one with each request. -/
theorem CaTrans.generationsLe {i : Nat} (h : CaTrans lib which conv cluster a b)
    (ha : GenerationsLe which cluster i a) : GenerationsLe which cluster (i + 1) b := by
  intro K' C' hst
  cases h with
  | absent _ after => exact absurd after hst.secret?
  | created _ after _ _ keyGeneration certGeneration =>
    obtain ⟨rfl, rfl⟩ := after.unique hst
    omega
  | same before after =>
    obtain ⟨rfl, rfl⟩ := after.unique hst
    have := ha _ _ before
    omega
  | write before after write =>
    obtain ⟨rfl, rfl⟩ := after.unique hst
    have := ha _ _ before
    have := write.generation_le
    omega

theorem CallStep.countedIn (h : CallStep lib conv cluster a b) (hok : CaOk lib which cluster a)
    (hcert : a.secret? (which.certName cluster) ≠ none) {i : Nat}
    (hle : GenerationsLe which cluster i a) (hi : i + 1 < 2 ^ 64) :
    CountedIn which cluster a b := by
  cases h.trans which with
  | absent before => exact absurd before hcert
  | created before => exact absurd before hcert
  | same before after => exact ⟨_, _, _, _, before, after, .same⟩
  | write before after write =>
    rcases hok with habsent | ⟨K₁, C₁, hst, hinv⟩
    · exact absurd habsent hcert
    · obtain ⟨rfl, rfl⟩ := before.unique hst
      have := hle _ _ before
      exact ⟨_, _, _, _, before, after, write.counted hinv (by omega) (by omega)⟩

/-- A cert Secret that exists stays. -/
theorem CallStep.secret? (h : CallStep lib conv cluster a b)
    (hcert : a.secret? (which.certName cluster) ≠ none) :
    b.secret? (which.certName cluster) ≠ none := by
  cases h.trans which with
  | absent before => exact absurd before hcert
  | created before => exact absurd before hcert
  | same _ after => exact after.secret?
  | write _ after => exact after.secret?

end ClusterCa
