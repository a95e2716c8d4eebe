-- SUMMARY: The proof rule for a pass over a KafkaUser: its own requests, the call on the clients CA, and the requests for the user's certificate.
import KrabkaOperator.User.Reconcile
import KrabkaOperator.User.Requests

/-!
# The rule for a user pass

A pass over a user makes requests of three kinds: the call on the clients CA, the
requests for the certificate that this CA signs, and its own requests, which read,
talk to the brokers, or write the credentials of a user without a certificate.
-/

namespace User

open Kube Crd Operator ClusterCa

/-- The own requests of a pass over a user. -/
inductive OwnReq (user : KafkaUser) : Req → Prop
  | getSecret {name : String} : OwnReq user (.getSecret name)
  | now : OwnReq user .now
  | draw : OwnReq user .draw
  | effect {e : Effect} (h : e ≠ .finalizeKafka) : OwnReq user (.effect e)
  | credential {cfg : SecretConfig} (auth : user.authentication ≠ .tlsExternal)
      (userCrt : cfg.data["user.crt"]? = none) : OwnReq user (.applySecret user.name cfg)

namespace OwnReq

variable {user : KafkaUser} {r : Req} {a b : World}

theorem quiet (h : OwnReq user r) : r.quiet = true := by
  cases h with
  | effect he => simpa [Req.quiet] using he
  | _ => rfl

theorem writes (h : OwnReq user r) {name : String} (hn : r.secretName? = some name) :
    name = user.name ∧ user.authentication ≠ .tlsExternal := by
  cases h with
  | credential auth userCrt => exact ⟨(Option.some_inj.mp hn).symm, auth⟩
  | _ => cases hn

theorem userCrt (h : OwnReq user r) (hans : Answered a r b) {name : String} {pem : Pem}
    (hpem : b.readPem name "user.crt" = some pem) : a.readPem name "user.crt" = some pem := by
  have hother : r.secretName? = none → a.readPem name "user.crt" = some pem := by
    intro hnone
    rwa [World.readPem, hans.frame.secret name (by simp [hnone]), ← World.readPem] at hpem
  cases h with
  | credential auth userCrt =>
    cases hans with
    | same hr => exact hpem
    | applied => exact World.readPem_applySecret_of_none userCrt hpem
  | _ => exact hother rfl

end OwnReq

section Rule

variable {lib : CaLib} {pass : UserPass} {S : World → Req → World → Prop} {I : World → Prop}
  {w : World}

theorem ensurePasswordSecret_makes (obj : KafkaUser) (lenBytes : Nat)
    (hauth : obj.authentication ≠ .tlsExternal) :
    Prog.Makes (OwnReq obj) (ensurePasswordSecret lib obj lenBytes) := by
  refine (makes_getOpt .getSecret).bind fun existing => ?_
  split
  · trivial
  · refine (makes_draw .draw).bind fun d => ?_
    cases obj.uid with
    | none => trivial
    | some uid =>
      refine (makes_applySecret (.credential hauth ?_)).bind fun _ => trivial
      rw [BTreeMap.getElem?_ofList]
      rfl

theorem ensureTokenSecret_makes (obj : KafkaUser) (token : Option DelegationToken)
    (hauth : obj.authentication ≠ .tlsExternal) :
    Prog.Makes (OwnReq obj) (ensureTokenSecret obj token) := by
  refine (makes_effect (.effect (by decide))).bind fun _ => ?_
  cases token with
  | none => trivial
  | some token =>
    cases obj.uid with
    | none => trivial
    | some uid =>
      refine makes_applySecret (.credential hauth ?_)
      simp only [tokenData]
      rw [BTreeMap.getElem?_ofList]
      rfl

/-- The credentials of a user without a certificate from the clients CA. -/
theorem provision_makes {kafka : Kafka} (htls : ∀ auth, pass.user.authentication ≠ .tls auth) :
    Prog.Makes (OwnReq pass.user) (provision lib pass kafka) := by
  have hbroker : Prog.Makes (OwnReq pass.user) (effect .brokerAdmin) :=
    makes_effect (.effect (by decide))
  simp only [provision]
  split
  · rename_i auth hauth
    refine (ensurePasswordSecret_makes _ _ (by simp [hauth])).attempt_bind (fun _ => trivial)
      fun password => ?_
    exact hbroker.attempt_bind (fun _ => trivial) fun _ => trivial
  · rename_i auth hauth
    refine (ensurePasswordSecret_makes _ _ (by simp [hauth])).attempt_bind (fun _ => trivial)
      fun password => ?_
    exact hbroker.attempt_bind (fun _ => trivial) fun _ => trivial
  · rename_i auth hauth
    exact absurd hauth (htls auth)
  · trivial
  · rename_i auth hauth
    exact (ensureTokenSecret_makes _ _ (by simp [hauth])).bind fun _ => trivial

/-- What a whole pass preserves: `I` before the call on the CA, and `J out` after a call
    with the outcome `out`. -/
theorem reconcileInner_sat {J : CaReconcileOutcome → World → Prop}
    (hown : ∀ a r b, OwnReq pass.user r → Answered a r b → I a → S a r b ∧ I b)
    (hcall : ∀ kafka now w, pass.kafka = some kafka → I w →
      Prog.Sat answer S (fun x v => match x with
        | .ok out => J out v
        | .error _ => I v) (reconcileCa lib kafka .clients false false false now) w)
    (huser : ∀ out auth, pass.user.authentication = .tls auth → ∀ w, J out w →
      Prog.Sat answer S (fun _ v => I v)
        (ensureUserCertSecret lib pass.user out.signingMaterial out.trustBundlePem auth) w)
    (hw : I w) : Prog.Sat answer S (fun _ v => I v) (reconcileInner lib pass) w := by
  have hmakes : ∀ {α : Type} {p : Op α} {v : World}, Prog.Makes (OwnReq pass.user) p → I v →
      Prog.Sat answer S (fun _ v => I v) p v := by
    intro α p v hp hv
    exact hp.stage (fun a r c hr ha => hown a r _ hr (answered r c a) ha) hv
  have heffect : ∀ {e : Effect}, e ≠ .finalizeKafka →
      Prog.Sat answer S (fun _ v => I v) (effect e) w :=
    fun he => hmakes (makes_effect (.effect he)) hw
  have hprovision : ∀ kafka, pass.kafka = some kafka →
      Prog.Sat answer S (fun _ v => I v) (provision lib pass kafka) w := by
    intro kafka hkafka
    by_cases htls : ∃ auth, pass.user.authentication = .tls auth
    · obtain ⟨auth, hauth⟩ := htls
      simp only [provision, hauth]
      refine Prog.Sat.bind (Prog.Sat.attempt (Prog.Sat.mono (Q := fun _ v => I v) ?_
        (fun _ _ _ h => h) fun x v hv => ?_))
      · refine sat_now (hown w .now w .now (.same (by simp)) hw).1 fun now => ?_
        refine Prog.Sat.bind ((hcall kafka now w hkafka hw).mono (fun _ _ _ h => h) fun x v hx => ?_)
        cases x with
        | error e => exact hx
        | ok out => exact huser out auth hauth v hx
      · cases x with
        | error e => exact hv
        | ok status => exact hv
    · exact hmakes (provision_makes fun auth hauth => htls ⟨auth, hauth⟩) hw
  unfold reconcileInner
  split
  · exact heffect (by decide)
  · split
    · exact heffect (by decide)
    · split
      · exact heffect (by decide)
      · split
        · exact heffect (by decide)
        · rename_i kafka hkafka
          split
          · exact heffect (by decide)
          · split
            · exact heffect (by decide)
            · refine Prog.Sat.bind ((hprovision kafka hkafka).mono (fun _ _ _ h => h)
                fun x v hv => ?_)
              cases x with
              | error e => exact hv
              | ok ready =>
                cases ready with
                | true => exact hmakes (makes_effect (.effect (by decide))) hv
                | false => exact hv

end Rule

end User
