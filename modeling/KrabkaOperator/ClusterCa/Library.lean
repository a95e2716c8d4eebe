-- SUMMARY: The certificate library behind the CA controller as a parameter, the laws the controller relies on, and a small instance of it.
import KrabkaOperator.Base.Decimal
import KrabkaOperator.Base.IpAddr
import KrabkaOperator.ClusterCa.Bundle
import Mathlib.Data.String.Basic

/-!
# The certificate library

The controllers generate, renew, issue and read certificates through
`krabka_security::ca` and an X.509 parser. Both are outside of the operator, so
they are a parameter here: `CaLib` has one field for each function that the
controllers call. `CaLib.Lawful` states what the controllers rely on. A public
key is a number, its encoded bytes read as one.

A function that draws random bytes or reads a clock takes a `Draw`.
-/

namespace ClusterCa

inductive WhichCa where
  | cluster
  | clients
  deriving DecidableEq, Repr

/-- A certificate with its private key, as PEM texts. -/
structure CaMaterial where
  certPem : Pem
  keyPem : Pem
  deriving DecidableEq, Repr

inductive SubjectAltName where
  | dns (name : String)
  | ip (addr : IpAddr)
  deriving DecidableEq, Repr

/-- A name in a certificate as the X.509 parser reads it. -/
inductive GeneralName where
  | dns (name : String)
  | ipBytes (bytes : List UInt8)
  | other
  deriving DecidableEq, Repr

/-- An issued user certificate with the text of its `notAfter`. -/
structure UserCert where
  certPem : Pem
  keyPem : Pem
  notAfter : String
  deriving DecidableEq, Repr

/-- Fresh randomness, numbered by the order of the draws, and the time of the draw. -/
structure Draw where
  serial : Nat
  clock : Int
  deriving DecidableEq, Repr

/-- The library functions, and the keys that a key text or a certificate stands for. -/
structure CaLib where
  /-- `generate_cluster_ca` and `generate_clients_ca`. -/
  generateCa : WhichCa → (cn : String) → (days : Nat) → Draw → Except String CaMaterial
  /-- `renew_cluster_ca` and `renew_clients_ca`. -/
  renewCa : WhichCa → (keyPem : Pem) → (cn : String) → (days : Nat) → Draw → Except String Pem
  issueBrokerCert : (caCert caKey : Pem) → (cn : String) →
    (sans extraSans : List SubjectAltName) → (days : Nat) → Draw → Except String CaMaterial
  issueUserCert : (caCert caKey : Pem) → (cn : String) → (days : Nat) → Draw →
    Except String UserCert
  /-- The `notAfter` of the first certificate of a text, in seconds. -/
  certNotAfter : Pem → Except String Int
  certCommonName : Pem → Option String
  /-- The alternative names of the first certificate of a text. -/
  certGeneralNames : Pem → Except String (List GeneralName)
  /-- The subject key of the first certificate of a text. -/
  certKey : Pem → Option Nat
  /-- The key that verifies the signature of the first certificate of a text. -/
  certSigner : Pem → Option Nat
  /-- The public half of a private key. -/
  publicKeyOf : Pem → Nat
  formatRfc3339 : Int → Except String String
  /-- The lower-case hex SHA-256 digest of a text. -/
  sha256 : List Char → String
  /-- The order in which `SubjectAltName`s are sorted. -/
  sanLe : SubjectAltName → SubjectAltName → Bool
  /-- Whether a text is the text of a UUID. -/
  isUuid : List Char → Bool
  newUuid : Draw → List Char
  /-- The URL-safe base64 text of random bytes. -/
  randomPassword : (lenBytes : Nat) → Draw → List Char

namespace CaLib

variable (lib : CaLib)

/-- The certificate and the key of a material belong together. -/
def Pairs (m : CaMaterial) : Prop := lib.certKey m.certPem = some (lib.publicKeyOf m.keyPem)

instance (m : CaMaterial) : Decidable (lib.Pairs m) :=
  inferInstanceAs (Decidable (_ = _))

/-- `c` is the text of a CA certificate that the library makes from draw `d`. -/
def Mints (d : Draw) (c : Pem) : Prop :=
  (∃ which cn days m, lib.generateCa which cn days d = .ok m ∧ m.certPem = c) ∨
    ∃ which keyPem cn days, lib.renewCa which keyPem cn days d = .ok c

/-- What the controllers rely on. -/
structure Lawful : Prop where
  generate_pairs : ∀ {which cn days d m}, lib.generateCa which cn days d = .ok m → lib.Pairs m
  renew_pairs : ∀ {which keyPem cn days d c}, lib.renewCa which keyPem cn days d = .ok c →
    lib.Pairs ⟨c, keyPem⟩
  /-- A new CA certificate is the text of one PEM block. -/
  mints_block : ∀ {d c}, lib.Mints d c → ∃ b, splitPemCerts c = [b]
  /-- Two draws never give the same certificate. -/
  mints_fresh : ∀ {d d' : Draw} {c c' b : Pem}, lib.Mints d c → lib.Mints d' c' →
    splitPemCerts c = [b] → splitPemCerts c' = [b] → d.serial = d'.serial
  /-- Two draws never give the same key. -/
  generate_fresh : ∀ {which which' cn cn' days days' m m'} {d d' : Draw},
    lib.generateCa which cn days d = .ok m → lib.generateCa which' cn' days' d' = .ok m' →
    lib.publicKeyOf m.keyPem = lib.publicKeyOf m'.keyPem → d.serial = d'.serial
  /-- A certificate is read from the first PEM block of its text. -/
  certKey_first : ∀ {c b bs}, splitPemCerts c = b :: bs → lib.certKey b = lib.certKey c
  issueBrokerCert_signer : ∀ {caCert caKey cn sans extraSans days d leaf},
    lib.issueBrokerCert caCert caKey cn sans extraSans days d = .ok leaf →
    lib.certSigner leaf.certPem = some (lib.publicKeyOf caKey)
  issueUserCert_signer : ∀ {caCert caKey cn days d leaf},
    lib.issueUserCert caCert caKey cn days d = .ok leaf →
    lib.certSigner leaf.certPem = some (lib.publicKeyOf caKey)

end CaLib

/-! ## A small instance -/

namespace SampleLib

/-- A PEM block with a body. -/
def block (body : List Char) : List Char := beginCert ++ ('\n' :: body) ++ endCert ++ ['\n']

def secondsPerDay : Nat := 86400

/-- A certificate counts its subject key, its signer and its serial number in
    letters, and writes its `notAfter` in digits. -/
def cert (key signer serial : Nat) (notAfter : Int) : Pem :=
  block (List.replicate key 'k' ++ List.replicate signer 's' ++ List.replicate serial 'n' ++
    Nat.toDigits 10 notAfter.toNat ++ ['\n'])

def keyPem (key : Nat) : Pem := List.replicate key 'k'

def expiry (days : Nat) (d : Draw) : Int := d.clock + days * secondsPerDay

def count (c : Char) (pem : Pem) : Option Nat := (splitPemCerts pem).head?.map (List.count c)

/-- A short digest of a text. -/
def digest (s : List Char) : String :=
  toString (s.foldl (fun h c => (h * 31 + c.toNat) % 1000000007) 7)

def sanText : SubjectAltName → List Char
  | .dns name => 'd' :: name.toList
  | .ip addr => 'i' :: addr.text

/-- The key pairs and leaf keys of a draw are numbered by its serial. -/
def lib : CaLib where
  generateCa := fun _ _ days d =>
    .ok ⟨cert (d.serial + 1) (d.serial + 1) d.serial (expiry days d), keyPem (d.serial + 1)⟩
  renewCa := fun _ key _ days d =>
    let k := key.count 'k'
    .ok (cert k k d.serial (expiry days d))
  issueBrokerCert := fun _ caKey _ _ _ days d =>
    .ok ⟨cert (d.serial + 1) (caKey.count 'k') d.serial (expiry days d),
      keyPem (d.serial + 1)⟩
  issueUserCert := fun _ caKey _ days d =>
    .ok ⟨cert (d.serial + 1) (caKey.count 'k') d.serial (expiry days d),
      keyPem (d.serial + 1), toString (expiry days d).toNat⟩
  certNotAfter := fun pem =>
    match splitPemCerts pem with
    | [] => .error "no PEM block"
    | b :: _ =>
      match Decimal.parseDigits (b.filter Char.isDigit) with
      | some n => .ok n
      | none => .error "no notAfter"
  certCommonName := fun _ => some "krabka-operator@internal"
  certGeneralNames := fun _ => .ok []
  certKey := count 'k'
  certSigner := count 's'
  publicKeyOf := fun key => key.count 'k'
  formatRfc3339 := fun t => .ok (toString t)
  sha256 := digest
  sanLe := fun a b => sanText a ≤ sanText b
  isUuid := fun s => !s.isEmpty
  newUuid := fun d => Nat.toDigits 10 d.serial
  randomPassword := fun len d => List.replicate len 'p' ++ Nat.toDigits 10 d.serial

-- The letters of a certificate can be counted back: its digits and markers have none of them.

private theorem not_mem_digits {n : Nat} {c : Char} (hc : c.isDigit = false) :
    c ∉ Nat.toDigits 10 n := by
  intro h
  rw [Nat.isDigit_of_mem_toDigits (by decide) (by decide) h] at hc
  cases hc

theorem isBlock_cert (key signer serial : Nat) (notAfter : Int) :
    IsBlock (cert key signer serial notAfter) := by
  refine isBlock_frame ?_
  simp [not_mem_digits]

private theorem count_cert {key signer serial : Nat} {notAfter : Int} {c : Char}
    (hc : c.isDigit = false) (hm : c ∉ beginCert ++ endCert ++ ['\n']) :
    count c (cert key signer serial notAfter) = some
      ((List.replicate key 'k').count c + (List.replicate signer 's').count c +
        (List.replicate serial 'n').count c) := by
  have hdigits : (Nat.toDigits 10 notAfter.toNat).count c = 0 :=
    List.count_eq_zero.mpr (not_mem_digits hc)
  simp only [List.mem_append, not_or] at hm
  obtain ⟨⟨hbegin, hend⟩, hnl⟩ := hm
  have hne : '\n' ≠ c := fun h => hnl (by simp [← h])
  rw [count, isBlock_cert]
  simp [cert, block, List.count_cons_of_ne hne, List.count_eq_zero.mpr hbegin,
    List.count_eq_zero.mpr hend, hdigits]
  omega

theorem certKey_cert (key signer serial : Nat) (notAfter : Int) :
    lib.certKey (cert key signer serial notAfter) = some key := by
  simp [lib, count_cert (c := 'k') (by decide) (by decide), List.count_replicate]

theorem certSigner_cert (key signer serial : Nat) (notAfter : Int) :
    lib.certSigner (cert key signer serial notAfter) = some signer := by
  simp [lib, count_cert (c := 's') (by decide) (by decide), List.count_replicate]

theorem certNotAfter_cert (key signer serial notAfter : Nat) :
    lib.certNotAfter (cert key signer serial notAfter) = .ok (notAfter : Int) := by
  have hmarkers : beginCert.filter Char.isDigit = [] ∧ endCert.filter Char.isDigit = [] := by decide
  have hdigits : (Nat.toDigits 10 notAfter).filter Char.isDigit = Nat.toDigits 10 notAfter :=
    List.filter_eq_self.mpr fun c hc => Nat.isDigit_of_mem_toDigits (by decide) (by decide) hc
  have hfilter : (cert key signer serial notAfter).filter Char.isDigit =
      Nat.toDigits 10 notAfter := by
    simp [cert, block, List.filter_append, hmarkers, hdigits]
  have hsplit : splitPemCerts (cert key signer serial notAfter) =
      [cert key signer serial notAfter] := isBlock_cert key signer serial notAfter
  simp only [lib, hsplit, hfilter, Decimal.parseDigits_toDigits]

theorem publicKeyOf_keyPem (key : Nat) : lib.publicKeyOf (keyPem key) = key := by
  simp [lib, keyPem]

private theorem mints_cert {d : Draw} {c : Pem} (h : lib.Mints d c) :
    ∃ key notAfter, c = cert key key d.serial notAfter := by
  rcases h with ⟨_, _, _, m, h, rfl⟩ | ⟨_, _, _, _, h⟩
  · cases h
    exact ⟨_, _, rfl⟩
  · cases h
    exact ⟨_, _, rfl⟩

theorem lib_lawful : lib.Lawful where
  generate_pairs := by
    intro which cn days d m h
    cases h
    simp [CaLib.Pairs, certKey_cert, publicKeyOf_keyPem]
  renew_pairs := by
    intro which key cn days d c h
    cases h
    simp only [CaLib.Pairs, certKey_cert]
    rfl
  mints_block := by
    intro d c h
    obtain ⟨key, notAfter, rfl⟩ := mints_cert h
    exact ⟨_, isBlock_cert _ _ _ _⟩
  mints_fresh := by
    intro d d' c c' b h h' hb hb'
    obtain ⟨key, notAfter, rfl⟩ := mints_cert h
    obtain ⟨key', notAfter', rfl⟩ := mints_cert h'
    have heq : cert key key d.serial notAfter = cert key' key' d'.serial notAfter' := by
      rw [isBlock_cert, List.singleton_inj] at hb hb'
      rw [hb, hb']
    have hcount := congrArg (count 'n') heq
    simpa [count_cert (c := 'n') (by decide) (by decide), List.count_replicate] using hcount
  generate_fresh := by
    intro which which' cn cn' days days' m m' d d' h h' heq
    cases h
    cases h'
    simpa [publicKeyOf_keyPem] using heq
  certKey_first := by
    intro c b bs h
    have hb : splitPemCerts b = [b] := isBlock_of_mem_splitPemCerts (h ▸ List.mem_cons_self)
    simp only [lib, count, h, hb, List.head?_cons]
  issueBrokerCert_signer := by
    intro caCert caKey cn sans extraSans days d leaf h
    cases h
    exact certSigner_cert _ _ _ _
  issueUserCert_signer := by
    intro caCert caKey cn days d leaf h
    cases h
    exact certSigner_cert _ _ _ _

end SampleLib

end ClusterCa
