-- SUMMARY: The two halves of a stored CA, how they are read from the Secret pair, and what each patch of the CA controller does to them.
import KrabkaOperator.ClusterCa.Reconcile

/-!
# The stored CA

A CA is stored in two Secrets. `KeyPart` and `CertPart` are what the controller
reads from them; a half that is absent or unreadable reads as `none`. Each patch
of the controller sets the half it writes, whatever the Secret held before, up to
the entries that the patch does not list.
-/

namespace ClusterCa

open Kube Crd Operator

structure KeyPart where
  keyPem : Pem
  pendingKey : Option Pem
  pendingCert : Option Pem
  generation : Nat
  deriving DecidableEq, Repr

structure CertPart where
  bundlePem : Pem
  generation : Nat
  leafs : Option Nat
  phase : CaPhase
  deriving DecidableEq, Repr

namespace CertPart

/-- The trust bundle, signing certificate first. -/
def bundle (C : CertPart) : List Pem := splitPemCerts C.bundlePem

end CertPart

def keyPart? (k : Secret) : Option KeyPart :=
  (k.readPemKey "ca.key").map fun keyPem => {
    keyPem
    pendingKey := k.readPemKey nextKey
    pendingCert := k.readPemKey nextCert
    generation := readGeneration k annKeyGeneration }

def certPart? (c : Secret) : Option CertPart :=
  (c.readPemKey "ca.crt").map fun bundlePem => {
    bundlePem
    generation := readGeneration c annCertGeneration
    leafs := readOptionalGeneration c annLeafsKeyGeneration
    phase := readPhase c }

/-- The state that the controller plans with. -/
def CaState.ofParts (K : KeyPart) (C : CertPart) : CaState where
  bundle := C.bundle
  keyPem := K.keyPem
  pendingKeyPem := K.pendingKey
  pendingCertPem := K.pendingCert
  certGeneration := C.generation
  keyGeneration := K.generation
  leafsKeyGeneration := C.leafs
  phase := C.phase

theorem readCaState_eq (k c : Secret) :
    readCaState k c =
      (keyPart? k).bind fun K => (certPart? c).map fun C => (CaState.ofParts K C, C.bundlePem) := by
  simp only [readCaState, keyPart?, certPart?]
  cases k.readPemKey "ca.key" with
  | none => rfl
  | some keyPem =>
    cases c.readPemKey "ca.crt" with
    | none => rfl
    | some bundlePem => rfl

/-! ## Halves in a world -/

def keyPartIn (w : World) (which : WhichCa) (cluster : String) : Option KeyPart :=
  w.secret? (which.keyName cluster) >>= keyPart?

def certPartIn (w : World) (which : WhichCa) (cluster : String) : Option CertPart :=
  w.secret? (which.certName cluster) >>= certPart?

section Names

variable {which which' : WhichCa} {cluster cluster' : String}

theorem keyName_ne_certName : which.keyName cluster ≠ which'.certName cluster' := by
  cases which <;> cases which' <;> exact Text.append_ne_append (by decide) (by decide)

theorem keyName_ne_of_ne (h : which ≠ which') : which.keyName cluster ≠ which'.keyName cluster' := by
  cases which <;> cases which'
  · exact absurd rfl h
  · exact Text.append_ne_append (by decide) (by decide)
  · exact Text.append_ne_append (by decide) (by decide)
  · exact absurd rfl h

theorem certName_ne_of_ne (h : which ≠ which') :
    which.certName cluster ≠ which'.certName cluster' := by
  cases which <;> cases which'
  · exact absurd rfl h
  · exact Text.append_ne_append (by decide) (by decide)
  · exact Text.append_ne_append (by decide) (by decide)
  · exact absurd rfl h

/-- Each CA of each cluster has its own key Secret. -/
theorem keyName_inj : which.keyName cluster = which'.keyName cluster' ↔
    which = which' ∧ cluster = cluster' := by
  by_cases h : which = which'
  · subst h
    cases which <;> simp [WhichCa.keyName]
  · simp [h, keyName_ne_of_ne h]

theorem certName_inj : which.certName cluster = which'.certName cluster' ↔
    which = which' ∧ cluster = cluster' := by
  by_cases h : which = which'
  · subst h
    cases which <;> simp [WhichCa.certName]
  · simp [h, certName_ne_of_ne h]

end Names

/-! ## Reading back a patch -/

theorem readOptionalGeneration_lt {s : Secret} {ann : String} {g : Nat}
    (h : readOptionalGeneration s ann = some g) : g < 2 ^ 64 := by
  simp only [readOptionalGeneration, Option.bind_eq_bind, Option.bind_eq_some_iff] at h
  obtain ⟨v, -, hv⟩ := h
  have := (Option.filter_eq_some_iff.mp hv).2
  simpa using this

theorem readGeneration_lt (s : Secret) (ann : String) : readGeneration s ann < 2 ^ 64 := by
  unfold readGeneration
  cases h : readOptionalGeneration s ann with
  | none => decide
  | some g => exact readOptionalGeneration_lt h

theorem nextGeneration_lt (g : Nat) : nextGeneration g < 2 ^ 64 := Nat.mod_lt _ (by decide)

theorem nextGeneration_eq {g : Nat} (h : g + 1 < 2 ^ 64) : nextGeneration g = g + 1 :=
  Nat.mod_eq_of_lt h

theorem readOptionalGeneration_apply {s : Secret} {manager ann : String} {cfg : SecretConfig}
    {g : Nat} (h : cfg.annotations[ann]? = some (toString g)) (hg : g < 2 ^ 64) :
    readOptionalGeneration (s.apply manager cfg) ann = some g := by
  simp only [readOptionalGeneration, Secret.annotation?_apply_of_some h, Option.bind_eq_bind,
    Option.bind_some, Decimal.parseU64_toString hg]

theorem readGeneration_apply {s : Secret} {manager ann : String} {cfg : SecretConfig} {g : Nat}
    (h : cfg.annotations[ann]? = some (toString g)) (hg : g < 2 ^ 64) :
    readGeneration (s.apply manager cfg) ann = g := by
  simp only [readGeneration, readOptionalGeneration_apply h hg, Option.getD_some]

theorem readOptionalGeneration_apply_of_none {s : Secret} {manager ann : String}
    {cfg : SecretConfig} (h : cfg.annotations[ann]? = none) :
    readOptionalGeneration (s.apply manager cfg) ann = readOptionalGeneration s ann ∨
      readOptionalGeneration (s.apply manager cfg) ann = none := by
  rcases Secret.annotation?_apply_of_none manager s h with h | h
  · exact .inl (by simp [readOptionalGeneration, h])
  · exact .inr (by simp [readOptionalGeneration, h])

section Patches

variable {k c : Secret} {manager : String} {g : Nat}

/-- A patch that stages a pair sets all of the key half. -/
theorem keyPart?_apply_staged {keyPem pk pc : Pem} (hg : g < 2 ^ 64) :
    keyPart? (k.apply manager (renderCaSecret
      [("ca.key", keyPem), (nextKey, pk), (nextCert, pc)] [(annKeyGeneration, toString g)])) =
      some ⟨keyPem, some pk, some pc, g⟩ := by
  rw [keyPart?, Secret.readPemKey_apply_of_some "ca.key" (.text keyPem),
    Secret.readPemKey_apply_of_some nextKey (.text pk),
    Secret.readPemKey_apply_of_some nextCert (.text pc), readGeneration_apply _ hg]
  · rfl
  all_goals
    rw [renderCaSecret, BTreeMap.getElem?_ofList]
    rfl

/-- A patch without a staged pair may keep what was staged. -/
theorem keyPart?_apply (manager : String) (keyPem : Pem) (hg : g < 2 ^ 64) :
    ∃ pk pc, keyPart? (k.apply manager (renderCaSecret [("ca.key", keyPem)]
      [(annKeyGeneration, toString g)])) = some ⟨keyPem, pk, pc, g⟩ := by
  rw [keyPart?, Secret.readPemKey_apply_of_some "ca.key" (.text keyPem),
    readGeneration_apply _ hg]
  · exact ⟨_, _, rfl⟩
  all_goals
    rw [renderCaSecret, BTreeMap.getElem?_ofList]
    rfl

/-- A patch of the bundle sets all of the cert half but the leafs marker. -/
theorem certPart?_apply {bundlePem : Pem} {phase : CaPhase} (hg : g < 2 ^ 64) :
    ∃ leafs, certPart? (c.apply manager (renderCaSecret [("ca.crt", bundlePem)]
      [(annCertGeneration, toString g), (annRotationPhase, phase.asStr)])) =
        some ⟨bundlePem, g, leafs, phase⟩ ∧
      (leafs = readOptionalGeneration c annLeafsKeyGeneration ∨ leafs = none) := by
  have hphase : readPhase (c.apply manager (renderCaSecret [("ca.crt", bundlePem)]
      [(annCertGeneration, toString g), (annRotationPhase, phase.asStr)])) = phase := by
    rw [readPhase, Secret.annotation?_apply_of_some (v := phase.asStr)]
    · exact CaPhase.parse_asStr phase
    · rw [renderCaSecret, BTreeMap.getElem?_ofList]
      rfl
  rw [certPart?, Secret.readPemKey_apply_of_some "ca.crt" (.text bundlePem),
    readGeneration_apply (g := g) _ hg, hphase]
  · refine ⟨_, rfl, readOptionalGeneration_apply_of_none ?_⟩
    rw [renderCaSecret, BTreeMap.getElem?_ofList]
    rfl
  all_goals
    rw [renderCaSecret, BTreeMap.getElem?_ofList]
    rfl

/-- The patch that creates the cert Secret does not set a phase. -/
theorem certPart?_apply_created (manager : String) (certPem : Pem) :
    ∃ leafs phase, certPart? (c.apply manager (renderCaSecret [("ca.crt", certPem)]
      [(annCertGeneration, "0")])) = some ⟨certPem, 0, leafs, phase⟩ ∧
      (leafs = readOptionalGeneration c annLeafsKeyGeneration ∨ leafs = none) ∧
      (phase = readPhase c ∨ phase = .idle) := by
  have hphase : readPhase (c.apply manager (renderCaSecret [("ca.crt", certPem)]
      [(annCertGeneration, "0")])) = readPhase c ∨
      readPhase (c.apply manager (renderCaSecret [("ca.crt", certPem)]
      [(annCertGeneration, "0")])) = .idle := by
    have hnone : (renderCaSecret [("ca.crt", certPem)]
        [(annCertGeneration, "0")]).annotations[annRotationPhase]? = none := by
      rw [renderCaSecret, BTreeMap.getElem?_ofList]
      rfl
    rcases Secret.annotation?_apply_of_none manager c hnone with h | h
    · exact .inl (by rw [readPhase, h, readPhase])
    · exact .inr (by rw [readPhase, h])
  rw [certPart?, Secret.readPemKey_apply_of_some "ca.crt" (.text certPem),
    readGeneration_apply (g := 0) _ (by decide)]
  · refine ⟨_, _, rfl, readOptionalGeneration_apply_of_none ?_, hphase⟩
    rw [renderCaSecret, BTreeMap.getElem?_ofList]
    rfl
  all_goals
    rw [renderCaSecret, BTreeMap.getElem?_ofList]
    rfl

/-- The marker patch sets the leafs marker only. -/
theorem certPart?_mark (c : Secret) (manager : String) (hg : g < 2 ^ 64) :
    certPart? (c.merge manager ⟨BTreeMap.ofList [(annLeafsKeyGeneration, toString g)], ∅⟩) =
      (certPart? c).map fun C => { C with leafs := some g } := by
  have hann : ∀ {ann : String}, ann ≠ annLeafsKeyGeneration →
      (c.merge manager ⟨BTreeMap.ofList [(annLeafsKeyGeneration, toString g)], ∅⟩).annotation? ann =
        c.annotation? ann := by
    intro ann hne
    rw [Secret.annotation?_merge, BTreeMap.getElem?_ofList]
    simp [hne]
  have hmark : readOptionalGeneration (c.merge manager
      ⟨BTreeMap.ofList [(annLeafsKeyGeneration, toString g)], ∅⟩) annLeafsKeyGeneration = some g := by
    rw [readOptionalGeneration, Secret.annotation?_merge, BTreeMap.getElem?_ofList]
    simpa using Decimal.parseU64_toString hg
  have hcrt : (c.merge manager ⟨BTreeMap.ofList [(annLeafsKeyGeneration, toString g)], ∅⟩).readPemKey
      "ca.crt" = c.readPemKey "ca.crt" := by
    rw [Secret.readPemKey_merge]
    simp [Secret.readPemKey]
  have hgen : readGeneration (c.merge manager
      ⟨BTreeMap.ofList [(annLeafsKeyGeneration, toString g)], ∅⟩) annCertGeneration =
        readGeneration c annCertGeneration := by
    rw [readGeneration, readOptionalGeneration, hann (by decide), readGeneration,
      readOptionalGeneration]
  have hphase : readPhase (c.merge manager
      ⟨BTreeMap.ofList [(annLeafsKeyGeneration, toString g)], ∅⟩) = readPhase c := by
    rw [readPhase, hann (by decide), readPhase]
  rw [certPart?, hcrt, hmark, hgen, hphase, certPart?, Option.map_map]
  rfl

end Patches

end ClusterCa
