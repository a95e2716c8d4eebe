-- SUMMARY: The digest of the names of a leaf depends on the set of the names only, and the names can be read back from the certificate.
import KrabkaOperator.Base.Canonical
import KrabkaOperator.ClusterCa.FixedPoint
import KrabkaOperator.ClusterCa.Renewal
import Mathlib.Data.List.Dedup
import Mathlib.Data.List.Forall2

/-!
# The names of a leaf

The reconciler takes the names of a leaf from a request, the renewal check reads
them from the certificate. Both put them into a digest.
-/

namespace ClusterCa

open Kube Crd Operator

/-- The order of the names is linear. -/
structure CaLib.SanOrdered (lib : CaLib) : Prop where
  total : ∀ a b, lib.sanLe a b = true ∨ lib.sanLe b a = true
  trans : ∀ a b c, lib.sanLe a b = true → lib.sanLe b c = true → lib.sanLe a c = true
  antisymm : ∀ a b, lib.sanLe a b = true → lib.sanLe b a = true → a = b

section Digest

variable {lib : CaLib} {sans sans' extras extras' : List SubjectAltName}

/-- The order, the duplicates and the split of the names do not matter. -/
theorem computeSanDigest_congr (hsan : lib.SanOrdered)
    (h : ∀ s, s ∈ sans ++ extras ↔ s ∈ sans' ++ extras') :
    computeSanDigest lib sans extras = computeSanDigest lib sans' extras' := by
  have htotal : Std.Total fun a b => lib.sanLe a b = true := ⟨hsan.total⟩
  have htrans : IsTrans SubjectAltName fun a b => lib.sanLe a b = true := ⟨hsan.trans⟩
  have hantisymm : Std.Antisymm fun a b => lib.sanLe a b = true := ⟨hsan.antisymm⟩
  have hcanonical : Canonical.canonical (fun a b => lib.sanLe a b = true) (sans ++ extras) =
      Canonical.canonical (fun a b => lib.sanLe a b = true) (sans' ++ extras') :=
    Canonical.canonical_eq_iff.mpr h
  rw [computeSanDigest, computeSanDigest]
  exact congrArg (fun names => lib.sha256 (names.flatMap sanLine)) hcanonical

end Digest

/-! ## Names in a certificate -/

/-- The two bytes of a segment. -/
def segmentBytes (s : UInt16) : List UInt8 := [(s / 256).toUInt8, s.toUInt8]

/-- How a certificate holds a name. An IPv6 address has eight segments. -/
inductive Encodes : SubjectAltName → GeneralName → Prop
  | dns {name : String} : Encodes (.dns name) (.dns name)
  | v4 {a b c d : UInt8} : Encodes (.ip (.v4 a b c d)) (.ipBytes [a, b, c, d])
  | v6 {segments : List UInt16} (h : segments.length = 8) :
      Encodes (.ip (.v6 segments)) (.ipBytes (segments.flatMap segmentBytes))

/-- A leaf is issued with the common name and the names of its request, each name once, and the
    parser finds them in the certificate. -/
structure CaLib.Embeds (lib : CaLib) : Prop where
  commonName : ∀ {caCert caKey cn sans extraSans days d leaf},
    lib.issueBrokerCert caCert caKey cn sans extraSans days d = .ok leaf →
    lib.certCommonName leaf.certPem = some cn
  generalNames : ∀ {caCert caKey cn sans extraSans days d leaf},
    lib.issueBrokerCert caCert caKey cn sans extraSans days d = .ok leaf →
    ∃ union names, union.Nodup ∧ (∀ s, s ∈ union ↔ s ∈ sans ++ extraSans) ∧
      List.Forall₂ Encodes union names ∧ lib.certGeneralNames leaf.certPem = .ok names

theorem segment_segmentBytes (s : UInt16) : segment (s / 256).toUInt8 s.toUInt8 = s := by
  apply UInt16.toNat_inj.mp
  have hlt : s.toNat < 65536 := s.toNat_lt
  simp only [segment, UInt16.toNat_add, UInt16.toNat_mul, UInt8.toNat_toUInt16, UInt16.toNat_toUInt8,
    UInt16.toNat_div, UInt16.toNat_ofNat, Nat.reducePow, Nat.reduceMod]
  omega

theorem ofGeneralName_of_encodes {s : SubjectAltName} {g : GeneralName} (h : Encodes s g) :
    ofGeneralName g = some s := by
  cases h with
  | dns => rfl
  | v4 => rfl
  | @v6 segments hlength =>
    rcases segments with _ | ⟨a, _ | ⟨b, _ | ⟨c, _ | ⟨d, _ | ⟨e, _ | ⟨f, _ | ⟨g, _ | ⟨h, _ | ⟨i, rest⟩⟩⟩⟩⟩⟩⟩⟩⟩
      <;> simp at hlength
    simp [segmentBytes, ofGeneralName, segment_segmentBytes]

theorem filterMap_ofGeneralName {sans : List SubjectAltName} {names : List GeneralName}
    (h : List.Forall₂ Encodes sans names) : names.filterMap ofGeneralName = sans := by
  induction h with
  | nil => rfl
  | cons head _ ih => rw [List.filterMap_cons_some (ofGeneralName_of_encodes head), ih]

/-- The certificate is readable, with the common name `cn` and the names in `sans`. -/
def Identifies (lib : CaLib) (pem : Pem) (cn : String) (sans : List SubjectAltName) : Prop :=
  ∃ names, readExistingCnAndSans lib pem = .ok (cn, names) ∧ ∀ s, s ∈ names ↔ s ∈ sans

/-- What the renewal check reads from a leaf is what was asked for. -/
theorem CaLib.Embeds.identifies {lib : CaLib} (h : lib.Embeds) {caCert caKey : Pem} {cn : String}
    {sans extraSans : List SubjectAltName} {days : Nat} {d : Draw} {leaf : CaMaterial}
    (hleaf : lib.issueBrokerCert caCert caKey cn sans extraSans days d = .ok leaf) :
    Identifies lib leaf.certPem cn (sans ++ extraSans) := by
  obtain ⟨union, names, -, hmem, hencodes, hnames⟩ := h.generalNames hleaf
  refine ⟨union, ?_, hmem⟩
  rw [readExistingCnAndSans, h.commonName hleaf, hnames]
  exact congrArg (fun sans => Except.ok (cn, sans)) (filterMap_ofGeneralName hencodes)

/-! ## A small instance with names -/

namespace SampleLib

/-- A name as numbers. -/
def sanCode : SubjectAltName → List Nat
  | .dns name => 0 :: name.toList.map Char.toNat
  | .ip (.v4 a b c d) => [1, a.toNat, b.toNat, c.toNat, d.toNat]
  | .ip (.v6 segments) => 2 :: segments.map UInt16.toNat

def textOf (codes : List Nat) : String := String.ofList (codes.map Char.ofNat)

def generalName? : List Nat → Option GeneralName
  | 0 :: codes => some (.dns (textOf codes))
  | [1, a, b, c, d] => some (.ipBytes [a.toUInt8, b.toUInt8, c.toUInt8, d.toUInt8])
  | 2 :: segments => some (.ipBytes ((segments.map Nat.toUInt16).flatMap segmentBytes))
  | _ => none

/-- An IPv6 address has eight segments. -/
def wellFormed : SubjectAltName → Bool
  | .ip (.v6 segments) => segments.length = 8
  | _ => true

theorem textOf_toNat (s : String) : textOf (s.toList.map Char.toNat) = s := by
  have hid : Char.ofNat ∘ Char.toNat = id := funext Char.ofNat_toNat
  rw [textOf, List.map_map, hid, List.map_id, String.ofList_toList]

theorem toUInt16_toNat (segments : List UInt16) :
    (segments.map UInt16.toNat).map Nat.toUInt16 = segments := by
  have hid : Nat.toUInt16 ∘ UInt16.toNat = id := funext fun _ => UInt16.ofNat_toNat
  rw [List.map_map, hid, List.map_id]

theorem generalName?_sanCode {s : SubjectAltName} (h : wellFormed s = true) :
    ∃ g, generalName? (sanCode s) = some g ∧ Encodes s g := by
  cases s with
  | dns name =>
    refine ⟨_, rfl, ?_⟩
    rw [textOf_toNat]
    exact .dns
  | ip addr =>
    cases addr with
    | v4 a b c d => exact ⟨.ipBytes [a, b, c, d], by simp [generalName?, sanCode], .v4⟩
    | v6 segments =>
      refine ⟨_, rfl, ?_⟩
      rw [toUInt16_toNat]
      exact .v6 (by simpa [wellFormed] using h)

theorem sanCode_injective {s t : SubjectAltName} (h : sanCode s = sanCode t) : s = t := by
  have hnames : ∀ {a b : String}, a.toList.map Char.toNat = b.toList.map Char.toNat → a = b := by
    intro a b hab
    rw [← textOf_toNat a, hab, textOf_toNat]
  cases s with
  | dns a =>
    cases t with
    | dns b => rw [hnames (List.cons.inj h).2]
    | ip addr => cases addr <;> simp [sanCode] at h
  | ip addr =>
    cases t with
    | dns b => cases addr <;> simp [sanCode] at h
    | ip addr' =>
      cases addr with
      | v4 a b c d =>
        cases addr' with
        | v4 a' b' c' d' => simpa [sanCode, UInt8.toNat_inj] using h
        | v6 => simp [sanCode] at h
      | v6 segments =>
        cases addr' with
        | v4 => simp [sanCode] at h
        | v6 segments' =>
          rw [← toUInt16_toNat segments, (List.cons.inj h).2, toUInt16_toNat]

/-- A list of numbers in letters: as many `x` as the number says, and a `y`; a `z` ends the list. -/
def fieldText (codes : List Nat) : List Char :=
  codes.flatMap (fun n => List.replicate n 'x' ++ ['y']) ++ ['z']

/-- The lists in a text. Other letters are skipped. -/
def readFields : List Nat → Nat → List Char → List (List Nat)
  | _, _, [] => []
  | codes, n, c :: cs =>
    if c = 'x' then readFields codes (n + 1) cs
    else if c = 'y' then readFields (codes ++ [n]) 0 cs
    else if c = 'z' then codes :: readFields [] 0 cs
    else readFields codes n cs

theorem readFields_replicate (codes : List Nat) (n m : Nat) (cs : List Char) :
    readFields codes n (List.replicate m 'x' ++ cs) = readFields codes (n + m) cs := by
  induction m generalizing n with
  | zero => rfl
  | succ m ih =>
    rw [List.replicate_succ, List.cons_append, readFields, if_pos rfl, ih]
    congr 1
    omega

theorem readFields_fieldText (codes more : List Nat) (cs : List Char) :
    readFields codes 0 (fieldText more ++ cs) = (codes ++ more) :: readFields [] 0 cs := by
  induction more generalizing codes with
  | nil => simp [fieldText, readFields]
  | cons n more ih =>
    have htext : fieldText (n :: more) ++ cs =
        List.replicate n 'x' ++ ('y' :: (fieldText more ++ cs)) := by
      simp [fieldText]
    rw [htext, readFields_replicate, readFields, if_neg (by decide), if_pos rfl, ih]
    simp

theorem readFields_flatMap (fields : List (List Nat)) :
    readFields [] 0 (fields.flatMap fieldText) = fields := by
  induction fields with
  | nil => rfl
  | cons codes fields ih => rw [List.flatMap_cons, readFields_fieldText, ih, List.nil_append]

theorem readFields_skip {front : List Char} (h : ∀ c ∈ front, c ≠ 'x' ∧ c ≠ 'y' ∧ c ≠ 'z')
    (codes : List Nat) (n : Nat) (cs : List Char) :
    readFields codes n (front ++ cs) = readFields codes n cs := by
  induction front with
  | nil => rfl
  | cons c front ih =>
    obtain ⟨⟨hx, hy, hz⟩, hrest⟩ := List.forall_mem_cons.mp h
    rw [List.cons_append, readFields, if_neg hx, if_neg hy, if_neg hz, ih hrest]

/-- The text that follows the certificate of a leaf: its common name and its names. -/
def namesText (cn : String) (sans : List SubjectAltName) : List Char :=
  (cn.toList.map Char.toNat :: sans.map sanCode).flatMap fieldText

/-- The small instance with readable names. -/
def named : CaLib :=
  { dated with
    issueBrokerCert := fun caCert caKey cn sans extraSans days d =>
      if (sans ++ extraSans).all wellFormed then
        (dated.issueBrokerCert caCert caKey cn sans extraSans days d).map fun leaf =>
          { leaf with certPem := leaf.certPem ++ namesText cn (sans ++ extraSans).dedup }
      else
        .error "malformed address"
    certCommonName := fun pem => (readFields [] 0 pem).head?.map textOf
    certGeneralNames := fun pem => .ok ((readFields [] 0 pem).tail.filterMap generalName?)
    sanLe := fun a b => decide (sanCode a ≤ sanCode b) }

variable {caCert caKey : Pem} {cn : String} {sans extraSans : List SubjectAltName} {days : Nat}
  {d : Draw} {leaf : CaMaterial}

/-- A certificate has none of the letters that a name is written with. -/
theorem letters_cert {key signer serial : Nat} {notAfter : Int} {c : Char}
    (hc : c ∈ cert key signer serial notAfter) : c ≠ 'x' ∧ c ≠ 'y' ∧ c ≠ 'z' := by
  have hbegin : beginCert.filter (· ∈ ['x', 'y', 'z']) = [] := by decide
  have hend : endCert.filter (· ∈ ['x', 'y', 'z']) = [] := by decide
  have hletters : c ∉ ['x', 'y', 'z'] := by
    intro hletter
    simp only [cert, block, List.mem_append, List.mem_cons, List.mem_replicate,
      List.not_mem_nil, or_false] at hc
    rcases hc with (((hc | rfl | hc) | hc) | rfl)
    · exact List.filter_eq_nil_iff.mp hbegin c hc (decide_eq_true hletter)
    · exact absurd hletter (by decide)
    · rcases hc with (((⟨-, rfl⟩ | ⟨-, rfl⟩) | ⟨-, rfl⟩) | hc) | rfl
      · exact absurd hletter (by decide)
      · exact absurd hletter (by decide)
      · exact absurd hletter (by decide)
      · have hdigit : c.isDigit = true := Nat.isDigit_of_mem_toDigits (by decide) (by decide) hc
        simp only [List.mem_cons, List.not_mem_nil, or_false] at hletter
        rcases hletter with rfl | rfl | rfl <;> exact absurd hdigit (by decide)
      · exact absurd hletter (by decide)
    · exact List.filter_eq_nil_iff.mp hend c hc (decide_eq_true hletter)
    · exact absurd hletter (by decide)
  simpa only [List.mem_cons, List.not_mem_nil, or_false, not_or] using hletters

/-- A leaf is a certificate with a text behind it. -/
theorem named_issued (h : named.issueBrokerCert caCert caKey cn sans extraSans days d = .ok leaf) :
    (∀ s ∈ sans ++ extraSans, wellFormed s = true) ∧ ∃ base,
      dated.issueBrokerCert caCert caKey cn sans extraSans days d = .ok base ∧
      leaf.certPem = base.certPem ++ namesText cn (sans ++ extraSans).dedup ∧
      IsBlock base.certPem ∧ ∀ c ∈ base.certPem, c ≠ 'x' ∧ c ≠ 'y' ∧ c ≠ 'z' := by
  simp only [named] at h
  split at h
  · next hformed =>
    refine ⟨List.all_eq_true.mp hformed, _, rfl, ?_, isBlock_cert _ _ _ _, fun c => letters_cert⟩
    cases h
    rfl
  · cases h

theorem readFields_named
    (h : named.issueBrokerCert caCert caKey cn sans extraSans days d = .ok leaf) :
    readFields [] 0 leaf.certPem =
      cn.toList.map Char.toNat :: (sans ++ extraSans).dedup.map sanCode := by
  obtain ⟨-, base, -, hpem, -, hletters⟩ := named_issued h
  rw [hpem, readFields_skip hletters, namesText, readFields_flatMap]

theorem encodes_generalNames {names : List SubjectAltName} (h : ∀ s ∈ names, wellFormed s = true) :
    List.Forall₂ Encodes names ((names.map sanCode).filterMap generalName?) := by
  induction names with
  | nil => exact .nil
  | cons s names ih =>
    obtain ⟨hs, hrest⟩ := List.forall_mem_cons.mp h
    obtain ⟨g, hg, hencodes⟩ := generalName?_sanCode hs
    rw [List.map_cons, List.filterMap_cons_some hg]
    exact .cons hencodes (ih hrest)

theorem named_embeds : named.Embeds where
  commonName := by
    intro caCert caKey cn sans extraSans days d leaf h
    have hread : named.certCommonName leaf.certPem =
        (readFields [] 0 leaf.certPem).head?.map textOf := rfl
    rw [hread, readFields_named h, List.head?_cons, Option.map_some, textOf_toNat]
  generalNames := by
    intro caCert caKey cn sans extraSans days d leaf h
    have hread : named.certGeneralNames leaf.certPem =
        .ok ((readFields [] 0 leaf.certPem).tail.filterMap generalName?) := rfl
    obtain ⟨hformed, -⟩ := named_issued h
    refine ⟨_, _, List.nodup_dedup _, fun s => List.mem_dedup, ?_, hread⟩
    rw [readFields_named h, List.tail_cons]
    exact encodes_generalNames fun s hs => hformed s (List.mem_dedup.mp hs)

theorem named_sanOrdered : named.SanOrdered where
  total := fun a b => by
    rcases le_total (sanCode a) (sanCode b) with h | h
    · exact .inl (decide_eq_true h)
    · exact .inr (decide_eq_true h)
  trans := fun a b c hab hbc =>
    decide_eq_true ((of_decide_eq_true hab).trans (of_decide_eq_true hbc))
  antisymm := fun a b hab hba =>
    sanCode_injective (le_antisymm (of_decide_eq_true hab) (of_decide_eq_true hba))

theorem named_lawful : named.Lawful where
  generate_pairs := fun {which cn days d m} h =>
    @CaLib.Lawful.generate_pairs dated dated_lawful which cn days d m h
  renew_pairs := fun {which keyPem cn days d c} h =>
    @CaLib.Lawful.renew_pairs dated dated_lawful which keyPem cn days d c h
  mints_block := dated_lawful.mints_block
  mints_fresh := dated_lawful.mints_fresh
  generate_fresh := fun {which which' cn cn' days days' m m' d d'} h h' heq =>
    @CaLib.Lawful.generate_fresh dated dated_lawful which which' cn cn' days days' m m' d d' h h' heq
  certKey_first := dated_lawful.certKey_first
  issueUserCert_signer := fun {caCert caKey cn days d leaf} h =>
    @CaLib.Lawful.issueUserCert_signer dated dated_lawful caCert caKey cn days d leaf h
  issueBrokerCert_signer := by
    intro caCert caKey cn sans extraSans days d leaf h
    obtain ⟨-, base, hbase, hpem, hblock, -⟩ := named_issued h
    have hsigner := dated_lawful.issueBrokerCert_signer hbase
    have hfirst : named.certSigner leaf.certPem = dated.certSigner base.certPem := by
      simp only [named, dated, lib, count, hpem, hblock.splitPemCerts_append]
      rw [show splitPemCerts base.certPem = [base.certPem] from hblock]
      rfl
    exact hfirst.trans hsigner

theorem named_dated : named.Dated where
  renewCa_notAfter := fun {which keyPem cn days d c} h =>
    @CaLib.Dated.renewCa_notAfter dated dated_dated which keyPem cn days d c h
  certNotAfter_first := dated_dated.certNotAfter_first
  issueBrokerCert_notAfter := by
    intro caCert caKey cn sans extraSans days d leaf h
    obtain ⟨-, base, hbase, hpem, hblock, -⟩ := named_issued h
    have hfirst : named.certNotAfter base.certPem = named.certNotAfter leaf.certPem :=
      dated_dated.certNotAfter_first (hpem ▸ hblock.splitPemCerts_append _)
    rw [← hfirst]
    exact dated_dated.issueBrokerCert_notAfter hbase

end SampleLib

end ClusterCa
