-- SUMMARY: The requests for the identity Secrets: what the batch over the TLS users may write, and what such a write changes.
import KrabkaOperator.User.Tls

/-!
# Requests for identity Secrets

The programs for the Secrets of the TLS users and of the operator are described
by the requests that they make: reads, draws, and two kinds of writes. One issues
a certificate that the active key signs, the other follows the trust bundle.
-/

namespace User

open Kube Crd Operator ClusterCa

/-- The requests for the Secret of the user `name`, when `key` signs. -/
inductive UserReq (lib : CaLib) (name : String) (key : Pem) : Req → Prop
  | get : UserReq lib name key (.getSecret name)
  | now : UserReq lib name key .now
  | draw : UserReq lib name key .draw
  | issue {cert : UserCert} {trustBundlePem : Pem}
      (signed : lib.certSigner cert.certPem = some (lib.publicKeyOf key)) :
      UserReq lib name key (.applySecret name ⟨∅, identityData cert trustBundlePem⟩)
  | refresh {trustBundlePem : Pem} : UserReq lib name key
      (.mergeSecret name ⟨∅, BTreeMap.ofList [("ca.crt", .text trustBundlePem)]⟩)

variable {lib : CaLib}

theorem refreshTrust_makes {R : Req → Prop} {name : String} {existing : Secret} {notAfter : Int}
    {trustBundlePem : Pem}
    (h : R (.mergeSecret name ⟨∅, BTreeMap.ofList [("ca.crt", .text trustBundlePem)]⟩)) :
    Prog.Makes R (refreshTrust lib name existing notAfter trustBundlePem) := by
  unfold refreshTrust
  split
  · exact (makes_mergeSecret h).bind fun _ => makes_orFail fun _ _ => trivial
  · exact makes_orFail fun _ _ => trivial

theorem issueUser_makes (hlib : lib.Lawful) (obj : KafkaUser) (ca : CaMaterial)
    (trustBundlePem : Pem) (auth : TlsAuth) :
    Prog.Makes (UserReq lib obj.name ca.keyPem) (issueUser lib obj ca trustBundlePem auth) := by
  refine (makes_draw .draw).bind fun d => makes_orFail fun cert hcert => ?_
  cases obj.uid with
  | none => trivial
  | some uid =>
    exact (makes_applySecret (.issue (hlib.issueUserCert_signer hcert))).bind fun _ => trivial

theorem ensureUserCertSecret_makes (hlib : lib.Lawful) (obj : KafkaUser) (ca : CaMaterial)
    (trustBundlePem : Pem) (auth : TlsAuth) :
    Prog.Makes (UserReq lib obj.name ca.keyPem)
      (ensureUserCertSecret lib obj ca trustBundlePem auth) := by
  have hissue := issueUser_makes hlib obj ca trustBundlePem auth
  refine (makes_getOpt .get).bind fun existing => ?_
  cases existing with
  | none => exact hissue
  | some existing =>
    simp only
    split
    · exact hissue
    · refine (makes_now .now).bind fun t => Prog.makes_ite ?_ hissue
      exact refreshTrust_makes .refresh

/-- The batch makes requests for the live TLS users of its list only. -/
theorem reissueTlsUserCertSecrets_makes (hlib : lib.Lawful) (ca : CaMaterial)
    (trustBundlePem : Pem) (users : List KafkaUser) :
    Prog.Makes (fun r => ∃ u ∈ users, (liveTlsAuth? u).isSome ∧ UserReq lib u.name ca.keyPem r)
      (reissueTlsUserCertSecrets lib ca trustBundlePem users) := by
  induction users with
  | nil => trivial
  | cons user users ih =>
    have hrest : Prog.Makes
        (fun r => ∃ u ∈ user :: users, (liveTlsAuth? u).isSome ∧ UserReq lib u.name ca.keyPem r)
        (reissueTlsUserCertSecrets lib ca trustBundlePem users) := by
      refine ih.mono ?_
      rintro r ⟨u, hu, hreq⟩
      exact ⟨u, List.mem_cons_of_mem _ hu, hreq⟩
    rw [reissueTlsUserCertSecrets]
    cases hlive : liveTlsAuth? user with
    | none => exact hrest
    | some auth =>
      refine Prog.Makes.bind ?_ fun status => hrest.bind fun _ => trivial
      refine (ensureUserCertSecret_makes hlib user ca trustBundlePem auth).mono fun r hr => ?_
      exact ⟨user, List.mem_cons_self, by simp [hlive], hr⟩

/-! ## What a request changes -/

/-- The data keys of the identity Secrets. -/
def identityKeys : List String := ["user.crt", "user.key", "ca.crt"]

theorem identityData_of_notMem {cert : UserCert} {trustBundlePem : Pem} {key : String}
    (h : key ∉ identityKeys) : (identityData cert trustBundlePem)[key]? = none := by
  simp only [identityKeys, List.mem_cons, List.not_mem_nil, or_false, not_or] at h
  rw [identityData, BTreeMap.getElem?_ofList]
  simp [h.1, h.2.1, h.2.2]

theorem trustData_of_ne {trustBundlePem : Pem} {key : String} (h : key ≠ "ca.crt") :
    (BTreeMap.ofList [("ca.crt", ByteString.text trustBundlePem)])[key]? = none := by
  rw [BTreeMap.getElem?_ofList]
  simp [h]

namespace UserReq

variable {name : String} {key : Pem} {r : Req} {a b : World}

theorem quiet (h : UserReq lib name key r) : r.quiet = true := by
  cases h <;> rfl

theorem secretName? (h : UserReq lib name key r) {n : String} (hn : r.secretName? = some n) :
    n = name := by
  cases h with
  | get => cases hn
  | now => cases hn
  | draw => cases hn
  | issue signed => exact (Option.some_inj.mp hn).symm
  | refresh => exact (Option.some_inj.mp hn).symm

theorem secret?_of_ne (h : UserReq lib name key r) (hans : Answered a r b) {n : String}
    (hn : n ≠ name) : b.secret? n = a.secret? n :=
  hans.frame.secret n fun heq => hn (h.secretName? heq)

/-- A request leaves the entries that are not part of an identity, or removes them. -/
theorem readPem_of_notMem (h : UserReq lib name key r) (hans : Answered a r b) {n k : String}
    {pem : Pem} (hk : k ∉ identityKeys) (hpem : b.readPem n k = some pem) :
    a.readPem n k = some pem := by
  have hne : k ≠ "ca.crt" := fun heq => hk (by simp [heq, identityKeys])
  cases h with
  | get => cases hans; exact hpem
  | now => cases hans; exact hpem
  | draw =>
    cases hans with
    | same hr => exact absurd rfl hr
    | drawn => exact hpem
  | issue signed =>
    cases hans with
    | same hr => exact hpem
    | applied => exact World.readPem_applySecret_of_none (identityData_of_notMem hk) hpem
  | refresh =>
    cases hans with
    | same hr => exact hpem
    | merged hs => exact World.readPem_merge_of_none hs (trustData_of_ne hne) hpem

/-- A stored user certificate is an old one, or one that the active key has signed. -/
theorem userCrt (h : UserReq lib name key r) (hans : Answered a r b) {n : String} {pem : Pem}
    (hpem : b.readPem n "user.crt" = some pem) :
    a.readPem n "user.crt" = some pem ∨
      (n = name ∧ lib.certSigner pem = some (lib.publicKeyOf key)) := by
  cases h with
  | get => cases hans; exact .inl hpem
  | now => cases hans; exact .inl hpem
  | draw =>
    cases hans with
    | same hr => exact absurd rfl hr
    | drawn => exact .inl hpem
  | @issue cert trustBundlePem signed =>
    cases hans with
    | same hr => exact .inl hpem
    | applied =>
      by_cases hn : name = n
      · subst hn
        have hlist : (identityData cert trustBundlePem)["user.crt"]? = some (.text cert.certPem) := by
          rw [identityData, BTreeMap.getElem?_ofList]
          rfl
        rw [World.applySecret, World.readPem_setSecret_self,
          Secret.readPemKey_apply_of_some "user.crt" _ hlist, ByteString.utf8?_text,
          Option.some_inj] at hpem
        exact .inr ⟨rfl, hpem ▸ signed⟩
      · rw [World.applySecret, World.readPem_setSecret_of_ne hn] at hpem
        exact .inl hpem
  | refresh =>
    cases hans with
    | same hr => exact .inl hpem
    | merged hs => exact .inl (World.readPem_merge_of_none hs (trustData_of_ne (by decide)) hpem)

end UserReq

end User
