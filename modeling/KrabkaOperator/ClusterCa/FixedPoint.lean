-- SUMMARY: When renewal comes to rest: a renewed CA certificate and a new broker leaf stay exactly if the renewal window is shorter than the validity.
import KrabkaOperator.ClusterCa.Leafs
import KrabkaOperator.ClusterCa.Refinement

/-!
# The fixed point of a renewal

A certificate that is made now is due for renewal at once when the renewal window
is at least as long as the validity. Nothing compares the two fields of the spec.
-/

namespace ClusterCa

open Kube Crd Operator

/-- A new certificate is valid from its draw for the given number of days. -/
structure CaLib.Dated (lib : CaLib) : Prop where
  renewCa_notAfter : ∀ {which keyPem cn days d c}, lib.renewCa which keyPem cn days d = .ok c →
    lib.certNotAfter c = .ok (d.clock + days * 86400)
  issueBrokerCert_notAfter : ∀ {caCert caKey cn sans extraSans days d leaf},
    lib.issueBrokerCert caCert caKey cn sans extraSans days d = .ok leaf →
    lib.certNotAfter leaf.certPem = .ok (d.clock + days * 86400)
  /-- The date is read from the first PEM block of a text. -/
  certNotAfter_first : ∀ {c b bs}, splitPemCerts c = b :: bs →
    lib.certNotAfter b = lib.certNotAfter c

/-- A choice of the environment at time `t`. -/
abbrev At (t : Int) := { c : Choice // c.clock = t }

theorem run_at {α : Type} {t : Int} {cs : List Choice} (hcs : ∀ c ∈ cs, c.clock = t) (p : Op α)
    (w : World) : p.run (Prog.via answer fun c : At t => c.val) (cs.attachWith _ hcs) w =
      p.run answer cs w := by
  rw [Prog.run_via, List.attachWith_map_subtype_val]

/-- A program that has failed has not returned. -/
theorem of_error_eq_ok {ε α : Type} {e : ε} {a : α} {P : Prop}
    (h : (Except.error e : Except ε α) = .ok a) : P := by
  cases h

section Window

variable {lib : CaLib} {state : CaState} {inp : RotationInputs} {pem : Pem} {validity renewal : Nat}
  {now : Int}

theorem renewIfExpiring_dated (h : lib.certNotAfter pem = .ok (now + validity * 86400)) :
    renewIfExpiring lib pem renewal now = .ok (!decide (renewal < validity)) := by
  have hiff : now + (validity : Int) * 86400 - now ≤ (renewal : Int) * 86400 ↔
      ¬ renewal < validity := by omega
  simp only [renewIfExpiring, h, Except.map, hiff, decide_not]

/-- Without a forced request the planner renews a certificate that is new exactly if the
    window covers the validity. -/
theorem planCaRotation_renewed (hphase : state.phase = .idle) (hgen : inp.generate = true)
    (hforce : inp.force = .none)
    (hsigning : lib.certNotAfter (state.bundle.head?.getD []) =
      .ok (inp.now + inp.validity * 86400)) :
    planCaRotation lib state inp ≠ .renewCertSameKey ↔ inp.renewal < inp.validity := by
  unfold planCaRotation
  simp only [hgen, hphase, hforce, ForceRotation.replacesKey, ForceRotation.renewsCertificate,
    renewIfExpiring_dated hsigning, Bool.not_true, Bool.false_eq_true, if_false, Bool.false_or]
  by_cases h : inp.renewal < inp.validity
  · simp only [h, decide_true, Bool.not_true, Bool.false_eq_true, if_false, iff_true]
    split
    · simp
    · simp
  · simp [h]

/-- Without a forced request the planner has nothing to do for an idle CA whose certificates are
    all good. -/
theorem planCaRotation_noOp (hphase : state.phase = .idle) (hforce : inp.force = .none)
    (hsigning : lib.certNotAfter (state.bundle.head?.getD []) =
      .ok (inp.now + inp.validity * 86400)) (hwindow : inp.renewal < inp.validity)
    (htail : ∀ b ∈ state.bundle.drop 1, ∀ notAfter, lib.certNotAfter b = .ok notAfter →
      inp.now < notAfter) : planCaRotation lib state inp = .noOp := by
  cases hgen : inp.generate with
  | false => simp [planCaRotation, hgen, hforce, ForceRotation.renewsCertificate,
      ForceRotation.replacesKey]
  | true =>
    unfold planCaRotation
    simp only [hgen, hphase, hforce, ForceRotation.replacesKey, ForceRotation.renewsCertificate,
      renewIfExpiring_dated hsigning, hwindow, decide_true, Bool.not_true, Bool.false_eq_true,
      if_false, Bool.false_or]
    rw [if_neg]
    rw [Bool.not_eq_true, List.any_eq_false]
    intro b hb
    cases hnotAfter : lib.certNotAfter b with
    | error e => simp
    | ok notAfter => simpa using htail b hb notAfter hnotAfter

theorem generate_of_renew (h : planCaRotation lib state inp = .renewCertSameKey) :
    inp.generate = true := by
  by_contra hgen
  have hrests := @planCaRotation_byo lib state inp (Bool.eq_false_of_not_eq_true hgen)
  rw [h] at hrests
  cases hrests

/-- For an idle CA the planner does not look at the rollout. -/
theorem planCaRotation_conv (hphase : state.phase = .idle) (conv : Bool) :
    planCaRotation lib state { inp with rolloutConverged := conv } = planCaRotation lib state inp := by
  simp only [planCaRotation, hphase]

theorem planCaRotation_idle (hphase : state.phase = .idle) (hforce : inp.force = .none) :
    planCaRotation lib state inp = .renewCertSameKey ∨ planCaRotation lib state inp = .noOp ∨
      planCaRotation lib state inp = .pruneOldTrust := by
  unfold planCaRotation
  simp only [hphase, hforce, ForceRotation.replacesKey, ForceRotation.renewsCertificate,
    Bool.or_self, Bool.false_eq_true, if_false, Bool.false_or]
  (repeat' split) <;> simp

end Window

/-! ## The CA certificate -/

section Renewal

variable {lib : CaLib} {which : WhichCa} {kafka : Kafka} {inp : RotationInputs} {w : World}
  {K : KeyPart} {C : CertPart} {now : Int}

/-- The stored CA is idle, and its signing certificate is new at time `now`. -/
def RenewedAt (lib : CaLib) (which : WhichCa) (kafka : Kafka) (now : Int) (w : World) : Prop :=
  ∃ K C, Stored which kafka.name w K C ∧ C.phase = .idle ∧
    lib.certNotAfter (C.bundle.head?.getD []) = .ok (now + (which.spec kafka).validityDays * 86400)

theorem renewCertSameKey_at (hlib : lib.Lawful) (hdated : lib.Dated)
    (hst : Stored which kafka.name w K C) (hvalidity : inp.validity = (which.spec kafka).validityDays)
    (cur : Rotated) :
    Prog.Sat (Prog.via answer fun c : At now => c.val) (fun _ _ _ => True)
      (fun x w' => ∀ r, x = .ok r → RenewedAt lib which kafka now w')
      (renewCertSameKey lib kafka which (.ofParts K C) inp cur) w := by
  refine sat_draw_via trivial fun c => ?_
  refine sat_orFail_via (fun e _ r => of_error_eq_ok) fun newCert hnew => ?_
  obtain ⟨b, hb⟩ := hlib.mints_block (.inr ⟨_, _, _, _, hnew⟩)
  have hblock : IsBlock b := isBlock_of_mem_splitPemCerts (hb ▸ List.mem_cons_self)
  have hnotAfter : lib.certNotAfter b = .ok (now + (which.spec kafka).validityDays * 86400) := by
    rw [hdated.certNotAfter_first hb, hdated.renewCa_notAfter hnew, c.property, hvalidity]
  rw [normalizeBlock_of_split hb]
  have hblocks : ∀ x ∈ dedupBlocks (b :: pruneExpired lib.certNotAfter C.bundle inp.now),
      IsBlock x := by
    intro x hx
    rcases List.mem_cons.mp (mem_dedupBlocks.mp hx) with rfl | hx
    · exact hblock
    · exact CertPart.isBlock_of_mem (mem_of_mem_pruneExpired hx)
  obtain ⟨leafs, -, hafter⟩ := hst.draw.patchBundle
    (dedupBlocks (b :: pruneExpired lib.certNotAfter C.bundle inp.now)) .idle
    (nextGeneration_lt C.generation)
  unfold patchCertBundle patchSecret
  cases kafka.uid with
  | none => exact fun r => of_error_eq_ok
  | some uid =>
    refine sat_applySecret_via trivial trivial (fun e v r => of_error_eq_ok) ?_
    rintro r ⟨⟩
    refine ⟨K, _, hafter, rfl, ?_⟩
    rw [CertPart.bundle, splitPemCerts_joinBundle hblocks, head?_dedupBlocks]
    exact hnotAfter

/-- A pass that renews leaves a certificate that is new at its time. -/
theorem reconcileCa_at (hlib : lib.Lawful) (hdated : lib.Dated)
    (hst : Stored which kafka.name w K C) {forceRenew forceReplaceKey conv : Bool}
    (hplan : planCaRotation lib (.ofParts K C)
      (rotationInputs kafka which forceRenew forceReplaceKey conv now) = .renewCertSameKey) :
    Prog.Sat (Prog.via answer fun c : At now => c.val) (fun _ _ _ => True)
      (fun x w' => ∀ out, x = .ok out → RenewedAt lib which kafka now w')
      (reconcileCa lib kafka which forceRenew forceReplaceKey conv now) w := by
  refine sat_getOpt_via trivial (fun e out => of_error_eq_ok) ?_
  refine sat_getOpt_via trivial (fun e out => of_error_eq_ok) ?_
  obtain ⟨k, hk, hkp⟩ := Option.bind_eq_some_iff.mp hst.key
  obtain ⟨c, hc, hcp⟩ := Option.bind_eq_some_iff.mp hst.cert
  simp only [reconcileCaFrom, hk, hc, readCaState_eq, hkp, hcp, Option.bind_some, Option.map_some,
    hplan]
  refine Prog.Sat.bind ((renewCertSameKey_at hlib hdated hst rfl _).mono (fun _ _ _ h => h) ?_)
  intro x w' hx
  cases x with
  | error e => exact fun out => of_error_eq_ok
  | ok r =>
    have hrenewed := hx r rfl
    simp only [readNotAfter, Prog.bind_assoc]
    refine sat_orFail_via (fun _ _ out => of_error_eq_ok) fun notAfter _ => ?_
    refine sat_orFail_via (fun _ _ out => of_error_eq_ok) fun text _ => ?_
    exact fun out _ => hrenewed

/-- Nothing is left to do for the CA at time `now`. -/
def RestsAt (lib : CaLib) (which : WhichCa) (kafka : Kafka) (now : Int) (w : World) : Prop :=
  ∃ K C, Stored which kafka.name w K C ∧ ∀ conv,
    planCaRotation lib (.ofParts K C) (rotationInputs kafka which false false conv now) = .noOp

theorem pruneOldTrust_at (hst : Stored which kafka.name w K C) (hphase : C.phase = .idle)
    (hsigning : lib.certNotAfter (C.bundle.head?.getD []) =
      .ok (now + (which.spec kafka).validityDays * 86400))
    (hwindow : (which.spec kafka).renewalDays < (which.spec kafka).validityDays)
    (hnow : inp.now = now) (cur : Rotated) :
    Prog.Sat (Prog.via answer fun c : At now => c.val) (fun _ _ _ => True)
      (fun x w' => ∀ r, x = .ok r → RestsAt lib which kafka now w')
      (pruneOldTrust lib kafka which (.ofParts K C) inp cur) w := by
  have hidle : ¬ (CaState.ofParts K C).phase = .keyReplacePromote := by
    simp [CaState.ofParts, hphase]
  obtain ⟨leafs, -, hafter⟩ := hst.patchBundle
    (pruneExpired lib.certNotAfter C.bundle inp.now) .idle hst.generation_lt.2
  have hbundle : (CertPart.mk (joinBundle (pruneExpired lib.certNotAfter C.bundle inp.now))
      C.generation leafs .idle).bundle = pruneExpired lib.certNotAfter C.bundle inp.now :=
    splitPemCerts_joinBundle fun b hb => CertPart.isBlock_of_mem (mem_of_mem_pruneExpired hb)
  rw [pruneOldTrust, if_neg hidle]
  unfold patchCertBundle patchSecret
  cases kafka.uid with
  | none => exact fun r => of_error_eq_ok
  | some uid =>
    refine sat_applySecret_via trivial trivial (fun e v r => of_error_eq_ok) ?_
    rintro r ⟨⟩
    refine ⟨K, _, hafter, fun conv => planCaRotation_noOp rfl rfl ?_ hwindow ?_⟩
    · rw [CaState.ofParts, hbundle, head?_pruneExpired]
      exact hsigning
    · intro b hb notAfter hnotAfter
      rw [CaState.ofParts, hbundle] at hb
      rw [← hnow]
      exact unexpired_of_mem_pruneExpired hb hnotAfter

/-- The pass after a renewal leaves nothing to do if the window is short enough: it removes what
    has expired. -/
theorem reconcileCa_restsAt (hw : RenewedAt lib which kafka now w)
    (hwindow : (which.spec kafka).renewalDays < (which.spec kafka).validityDays) (conv : Bool) :
    Prog.Sat (Prog.via answer fun c : At now => c.val) (fun _ _ _ => True)
      (fun x w' => ∀ out, x = .ok out → RestsAt lib which kafka now w')
      (reconcileCa lib kafka which false false conv now) w := by
  obtain ⟨K, C, hst, hphase, hsigning⟩ := hw
  refine sat_getOpt_via trivial (fun e out => of_error_eq_ok) ?_
  refine sat_getOpt_via trivial (fun e out => of_error_eq_ok) ?_
  obtain ⟨k, hk, hkp⟩ := Option.bind_eq_some_iff.mp hst.key
  obtain ⟨c, hc, hcp⟩ := Option.bind_eq_some_iff.mp hst.cert
  simp only [reconcileCaFrom, hk, hc, readCaState_eq, hkp, hcp, Option.bind_some, Option.map_some]
  -- What the plan leaves, and then what the outcome is built from.
  have hplan : Prog.Sat (Prog.via answer fun c : At now => c.val) (fun _ _ _ => True)
      (fun x w' => ∀ r, x = .ok r → RestsAt lib which kafka now w')
      (executePlan lib kafka which (.ofParts K C) (planCaRotation lib (.ofParts K C)
        (rotationInputs kafka which false false conv now))
        (rotationInputs kafka which false false conv now) C.bundlePem) w := by
    have hrenew : planCaRotation lib (.ofParts K C)
        (rotationInputs kafka which false false conv now) ≠ .renewCertSameKey := by
      intro h
      exact (planCaRotation_renewed hphase (generate_of_renew h) rfl hsigning).mpr hwindow h
    rcases (planCaRotation_idle hphase rfl).resolve_left hrenew with hnoOp | hprune
    · rw [hnoOp]
      intro r _
      exact ⟨K, C, hst, fun conv' => (planCaRotation_conv hphase conv').trans hnoOp⟩
    · rw [hprune]
      exact pruneOldTrust_at hst hphase hsigning hwindow rfl _
  refine Prog.Sat.bind (hplan.mono (fun _ _ _ h => h) ?_)
  intro x w' hx
  cases x with
  | error e => exact fun out => of_error_eq_ok
  | ok r =>
    have hrests := hx r rfl
    simp only [readNotAfter, Prog.bind_assoc]
    refine sat_orFail_via (fun _ _ out => of_error_eq_ok) fun notAfter _ => ?_
    refine sat_orFail_via (fun _ _ out => of_error_eq_ok) fun text _ => ?_
    exact fun out _ => hrests

end Renewal

/-! ## The broker leafs -/

section Leafs

variable {lib : CaLib} {kafka : Kafka} {ca : CaMaterial} {force : Bool} {t : Int}
  {draft draft' : KeystoreDraft} {req req' : BrokerCertRequest} {reqs : List BrokerCertRequest}
  {data data' : BTreeMap ByteString}

/-- The requests for the broker of `req` ask for the names that `req` asks for. -/
def AskSame (lib : CaLib) (req : BrokerCertRequest) (reqs : List BrokerCertRequest) : Prop :=
  ∀ a ∈ reqs, a.brokerId = req.brokerId →
    computeSanDigest lib a.sans a.extraSans = computeSanDigest lib req.sans req.extraSans

theorem AskSame.head (h : AskSame lib req (req' :: reqs)) : AskSame lib req [req'] :=
  fun a ha => h a (List.mem_singleton.mp ha ▸ List.mem_cons_self)

theorem AskSame.tail (h : AskSame lib req (req' :: reqs)) : AskSame lib req reqs :=
  fun a ha => h a (List.mem_cons_of_mem _ ha)

/-- Requests for one broker ask for the same names. -/
def SameNames (lib : CaLib) (reqs : List BrokerCertRequest) : Prop :=
  ∀ req ∈ reqs, AskSame lib req reqs

/-- The entries of a request hold a leaf that is new at time `t`. -/
structure FreshLeaf (lib : CaLib) (kafka : Kafka) (t : Int) (data : BTreeMap ByteString)
    (req : BrokerCertRequest) : Prop where
  crt : ∃ pem, data[crtKey req.brokerId]? = some (.text pem) ∧
    lib.certNotAfter pem = .ok (t + (WhichCa.spec .cluster kafka).validityDays * 86400)
  key : ∃ pem, data[keyKey req.brokerId]? = some (.text pem)
  digest : data[digestKey req.brokerId]? =
    some (.text (computeSanDigest lib req.sans req.extraSans).toList)

/-- A fresh leaf is reused exactly if the window is shorter than the validity. -/
theorem FreshLeaf.reusable (h : FreshLeaf lib kafka t data req) :
    reusableAt lib kafka data req t = .ok (decide ((WhichCa.spec .cluster kafka).renewalDays <
      (WhichCa.spec .cluster kafka).validityDays)) := by
  obtain ⟨pem, hcrt, hnotAfter⟩ := h.crt
  obtain ⟨key, hkey⟩ := h.key
  have hcontains : data.contains (crtKey req.brokerId) = true ∧
      data.contains (keyKey req.brokerId) = true := by
    simp [Std.ExtTreeMap.contains_eq_isSome_getElem?, hcrt, hkey]
  simp only [reusableAt, leafReusable, hcrt, h.digest, hcontains.1, hcontains.2,
    Option.bind_eq_bind, Option.bind_some, ByteString.utf8?_text, renewIfExpiring_dated hnotAfter]
  simp [bind, Except.bind, pure, Except.pure]

/-- Only the entries of the request matter. -/
theorem FreshLeaf.congr (h : FreshLeaf lib kafka t data req)
    (hdata : ∀ k ∈ wantKeys [req], data'[k]? = data[k]?) : FreshLeaf lib kafka t data' req := by
  simp only [wantKeys, List.flatMap_cons, List.flatMap_nil, List.append_nil, List.mem_cons,
    List.not_mem_nil, or_false, forall_eq_or_imp, forall_eq] at hdata
  obtain ⟨hcrt, hkey, hdigest⟩ := hdata
  exact ⟨hcrt ▸ h.crt, hkey ▸ h.key, hdigest ▸ h.digest⟩

theorem FreshLeaf.of_same (h : FreshLeaf lib kafka t data req) (hid : req.brokerId = req'.brokerId)
    (hnames : computeSanDigest lib req.sans req.extraSans =
      computeSanDigest lib req'.sans req'.extraSans) : FreshLeaf lib kafka t data req' :=
  ⟨hid ▸ h.crt, hid ▸ h.key, hid ▸ hnames ▸ h.digest⟩

theorem freshLeaf_issue {leaf : CaMaterial}
    (h : lib.certNotAfter leaf.certPem =
      .ok (t + (WhichCa.spec .cluster kafka).validityDays * 86400)) :
    FreshLeaf lib kafka t (draft.issue lib req leaf).data req where
  crt := ⟨_, getElem?_issue_crtKey, h⟩
  key := by
    refine ⟨leaf.keyPem, ?_⟩
    simp only [KeystoreDraft.issue, Std.ExtTreeMap.getElem?_insert,
      Std.LawfulEqCmp.compare_eq_iff_eq, keyKey_ne_digestKey.symm, if_false, if_true]
  digest := by simp [KeystoreDraft.issue]

/-- A turn leaves a fresh leaf fresh. -/
theorem Turn.fresh (hdated : lib.Dated) (h : Turn lib kafka ca force (· = t) draft req draft')
    (hsame : AskSame lib req' [req]) (hfresh : FreshLeaf lib kafka t draft.data req') :
    FreshLeaf lib kafka t draft'.data req' := by
  cases h with
  | kept => exact hfresh
  | @issued leaf signed made =>
    obtain ⟨d, rfl, hleaf⟩ := made
    by_cases hid : req.brokerId = req'.brokerId
    · exact (freshLeaf_issue (hdated.issueBrokerCert_notAfter hleaf)).of_same hid
        (hsame req List.mem_cons_self hid)
    · exact hfresh.congr fun k hk => getElem?_issue_of_notMem (wantKeys_disjoint (Ne.symm hid) hk)

theorem Turns.fresh (hdated : lib.Dated) (h : Turns lib kafka ca force (· = t) draft reqs draft')
    (hsame : AskSame lib req' reqs)
    (hfresh : FreshLeaf lib kafka t draft.data req') : FreshLeaf lib kafka t draft'.data req' := by
  induction h with
  | nil => exact hfresh
  | cons head tail ih => exact ih hsame.tail (head.fresh hdated hsame.head hfresh)

theorem Turn.issued_mono (h : Turn lib kafka ca force (· = t) draft req draft') {id : Int}
    (hid : id ∈ draft.issued) : id ∈ draft'.issued := by
  cases h with
  | kept => exact hid
  | issued => exact List.mem_append_left _ hid

theorem Turns.issued_mono (h : Turns lib kafka ca force (· = t) draft reqs draft') {id : Int}
    (hid : id ∈ draft.issued) : id ∈ draft'.issued := by
  induction h with
  | nil => exact hid
  | cons head tail ih => exact ih (head.issued_mono hid)

/-- The leaf of a broker that the loop has issued is fresh. -/
theorem Turns.fresh_of_issued (hdated : lib.Dated)
    (h : Turns lib kafka ca force (· = t) draft reqs draft') (hsame : SameNames lib reqs) {id : Int}
    (hid : id ∈ draft'.issued) : id ∈ draft.issued ∨
      ∃ req ∈ reqs, req.brokerId = id ∧ FreshLeaf lib kafka t draft'.data req := by
  induction h with
  | nil => exact .inl hid
  | @cons draft draft₁ draft₂ req reqs head tail ih =>
    have hsame' : SameNames lib reqs := fun a ha => (hsame a (List.mem_cons_of_mem _ ha)).tail
    rcases ih hsame' hid with hold | ⟨req', hreq', hid', hfresh⟩
    · cases head with
      | kept => exact .inl hold
      | @issued leaf signed made =>
        obtain ⟨d, rfl, hleaf⟩ := made
        rcases List.mem_append.mp hold with hold | hnew
        · exact .inl hold
        · refine .inr ⟨req, List.mem_cons_self, (List.mem_singleton.mp hnew).symm, ?_⟩
          exact tail.fresh hdated (hsame req List.mem_cons_self).tail
            (freshLeaf_issue (hdated.issueBrokerCert_notAfter hleaf))
    · exact .inr ⟨req', List.mem_cons_of_mem _ hreq', hid', hfresh⟩

/-- A loop without force over a fresh leaf keeps it if the window is short enough. -/
theorem Turns.notMem_issued (hdated : lib.Dated)
    (hwindow : (WhichCa.spec .cluster kafka).renewalDays <
      (WhichCa.spec .cluster kafka).validityDays)
    (h : Turns lib kafka ca false (· = t) draft reqs draft')
    (hsame : AskSame lib req' reqs)
    (hfresh : FreshLeaf lib kafka t draft.data req') (hid : req'.brokerId ∉ draft.issued) :
    req'.brokerId ∉ draft'.issued := by
  induction h with
  | nil => exact hid
  | @cons draft draft₁ draft₂ req reqs head tail ih =>
    refine ih hsame.tail (head.fresh hdated hsame.head hfresh) ?_
    cases head with
    | kept => exact hid
    | issued signed made h =>
      simp only [KeystoreDraft.issue, List.mem_append, List.mem_singleton, not_or]
      refine ⟨hid, fun heq => ?_⟩
      obtain ⟨t', rfl, hreuse⟩ := h.resolve_left (by simp)
      have hown := (hfresh.of_same heq (hsame req List.mem_cons_self heq.symm).symm).reusable
      rw [hreuse, decide_eq_true hwindow] at hown
      cases hown

/-- A loop over a fresh leaf issues it again if the window covers the validity. -/
theorem Turns.mem_issued (hdated : lib.Dated)
    (hwindow : ¬ (WhichCa.spec .cluster kafka).renewalDays <
      (WhichCa.spec .cluster kafka).validityDays)
    (h : Turns lib kafka ca force (· = t) draft reqs draft')
    (hsame : AskSame lib req' reqs)
    (hfresh : FreshLeaf lib kafka t draft.data req') (hmem : req' ∈ reqs) :
    req'.brokerId ∈ draft'.issued := by
  induction h with
  | nil => cases hmem
  | @cons draft draft₁ draft₂ req reqs head tail ih =>
    rcases List.mem_cons.mp hmem with rfl | hmem
    · refine tail.issued_mono ?_
      cases head with
      | kept hforce ht hreuse =>
        obtain rfl := ht
        rw [hfresh.reusable, decide_eq_false hwindow] at hreuse
        cases hreuse
      | issued => exact List.mem_append_right _ (List.mem_singleton_self _)
    · exact ih hsame.tail (head.fresh hdated hsame.head hfresh) hmem

/-! ### Two calls -/

theorem getElem?_storedEntries_apply {w : World} {name k : String} {v : ByteString}
    (h : data[k]? = some v) : (storedEntries (w.applySecret name ⟨∅, data⟩) name)[k]? = some v := by
  rw [storedEntries, World.secret?_applySecret_self, Option.map_some, Option.getD_some,
    Fields.getElem?_values]
  exact Fields.value?_apply_of_some h

/-- The write of a call stores the entries of its requests. -/
theorem FreshLeaf.stored {w : World} {name : String} (h : FreshLeaf lib kafka t data req)
    (hreq : req ∈ reqs) : FreshLeaf lib kafka t
      (storedEntries (w.applySecret name ⟨∅, data.filter fun key _ => retained reqs key⟩) name)
      req := by
  have hwant : ∀ k ∈ wantKeys [req], retained reqs k = true := by
    intro k hk
    have hmem : k ∈ wantKeys reqs := by
      rw [wantKeys, List.mem_flatMap]
      exact ⟨req, hreq, by simpa [wantKeys] using hk⟩
    simp [retained, hmem]
  have hstored : ∀ k ∈ wantKeys [req], ∀ v, data[k]? = some v →
      (storedEntries (w.applySecret name ⟨∅, data.filter fun key _ => retained reqs key⟩) name)[k]? =
        some v := by
    intro k hk v hv
    refine getElem?_storedEntries_apply ?_
    rw [Std.ExtTreeMap.getElem?_filter', hv]
    simp [hwant k hk]
  obtain ⟨pem, hcrt, hnotAfter⟩ := h.crt
  obtain ⟨key, hkey⟩ := h.key
  exact ⟨⟨pem, hstored _ (by simp [wantKeys]) _ hcrt, hnotAfter⟩,
    ⟨key, hstored _ (by simp [wantKeys]) _ hkey⟩, hstored _ (by simp [wantKeys]) _ h.digest⟩

theorem turns_of_run (hlib : lib.Lawful) {cs : List Choice} (hcs : ∀ c ∈ cs, c.clock = t)
    {w w' : World} {status : BrokerKeystoreStatus}
    (hrun : (ensureBrokerKeystore lib kafka reqs ca force).run answer cs w = (.done status, w')) :
    ∃ (a : World) (draft : KeystoreDraft), Turns lib kafka ca force (· = t)
        ⟨storedEntries w (brokerKeystoreName kafka.name), [], []⟩ reqs draft ∧
      w' = a.applySecret (brokerKeystoreName kafka.name)
        ⟨∅, draft.data.filter fun key _ => retained reqs key⟩ ∧
      status.issued = draft.issued := by
  have hsat := @ensureBrokerKeystore_turns lib kafka ca force (· = t) reqs (At t)
    (fun c => c.val) hlib (fun c => c.property) ⟨t, rfl⟩ w
  obtain ⟨a, draft, -, hturns, hw', hissued, -⟩ :=
    hsat.run_done ((run_at hcs _ _).trans hrun) status rfl
  exact ⟨a, draft, hturns, hw', hissued⟩

/-- The leafs that a call has issued at time `t` are stored, and fresh. -/
theorem freshLeaf_of_issued (hlib : lib.Lawful) (hdated : lib.Dated) (hsame : SameNames lib reqs)
    {cs : List Choice} (hcs : ∀ c ∈ cs, c.clock = t) {w w' : World} {status : BrokerKeystoreStatus}
    (hrun : (ensureBrokerKeystore lib kafka reqs ca force).run answer cs w = (.done status, w'))
    {id : Int} (hid : id ∈ status.issued) : ∃ req ∈ reqs, req.brokerId = id ∧
      FreshLeaf lib kafka t (storedEntries w' (brokerKeystoreName kafka.name)) req := by
  obtain ⟨a, draft, hturns, rfl, hissued⟩ := turns_of_run hlib hcs hrun
  rw [hissued] at hid
  obtain ⟨req, hreq, hreqId, hfresh⟩ :=
    (hturns.fresh_of_issued hdated hsame hid).resolve_left List.not_mem_nil
  exact ⟨req, hreq, hreqId, hfresh.stored hreq⟩

/-- A call at time `t` reuses a fresh leaf exactly if the window is shorter than the validity. -/
theorem notMem_issued_iff (hlib : lib.Lawful) (hdated : lib.Dated) (hsame : SameNames lib reqs)
    {cs : List Choice} (hcs : ∀ c ∈ cs, c.clock = t) {w w' : World} {status : BrokerKeystoreStatus}
    (hrun : (ensureBrokerKeystore lib kafka reqs ca false).run answer cs w = (.done status, w'))
    (hreq : req ∈ reqs)
    (hfresh : FreshLeaf lib kafka t (storedEntries w (brokerKeystoreName kafka.name)) req) :
    req.brokerId ∉ status.issued ↔ (WhichCa.spec .cluster kafka).renewalDays <
      (WhichCa.spec .cluster kafka).validityDays := by
  obtain ⟨a, draft, hturns, rfl, hissued⟩ := turns_of_run hlib hcs hrun
  rw [hissued]
  constructor
  · intro hnot
    by_contra hwindow
    exact hnot (hturns.mem_issued hdated hwindow (hsame req hreq) hfresh hreq)
  · intro hwindow
    exact hturns.notMem_issued hdated hwindow (hsame req hreq) hfresh List.not_mem_nil

end Leafs

/-! ## The fixed point -/

section Main

variable {lib : CaLib}

/-- The renewal of a CA certificate is followed by another one, and a leaf that was just issued
    is issued again, unless the renewal window is shorter than the validity. With such a window one
    more pass leaves nothing to do. -/
theorem renewal_settles_iff (hlib : lib.Lawful) (hdated : lib.Dated) (kafka : Kafka) :
    (∀ (which : WhichCa) (now : Int) (replaceKey conv : Bool) (w w' : World) (K : KeyPart)
      (C : CertPart) (cs : List Choice) (out : CaReconcileOutcome), (∀ c ∈ cs, c.clock = now) →
      keyPartIn w which kafka.name = some K → certPartIn w which kafka.name = some C →
      planCaRotation lib (.ofParts K C) (rotationInputs kafka which false replaceKey conv now) =
        .renewCertSameKey →
      (reconcileCa lib kafka which false replaceKey conv now).run answer cs w = (.done out, w') →
      ∃ K' C', keyPartIn w' which kafka.name = some K' ∧ certPartIn w' which kafka.name = some C' ∧
        (∀ conv', planCaRotation lib (.ofParts K' C')
            (rotationInputs kafka which false false conv' now) ≠ .renewCertSameKey ↔
          (which.spec kafka).renewalDays < (which.spec kafka).validityDays) ∧
        ((which.spec kafka).renewalDays < (which.spec kafka).validityDays →
          ∀ (conv' : Bool) (w'' : World) (cs' : List Choice) (out' : CaReconcileOutcome),
            (∀ c ∈ cs', c.clock = now) →
            (reconcileCa lib kafka which false false conv' now).run answer cs' w' =
              (.done out', w'') → RestsAt lib which kafka now w'')) ∧
    ∀ (now : Int) (requests : List BrokerCertRequest) (ca ca' : CaMaterial) (force : Bool)
      (w w' w'' : World) (cs cs' : List Choice) (status status' : BrokerKeystoreStatus),
      SameNames lib requests → (∀ c ∈ cs, c.clock = now) → (∀ c ∈ cs', c.clock = now) →
      (ensureBrokerKeystore lib kafka requests ca force).run answer cs w = (.done status, w') →
      (ensureBrokerKeystore lib kafka requests ca' false).run answer cs' w' =
        (.done status', w'') →
      ∀ id ∈ status.issued, (id ∉ status'.issued ↔
        (WhichCa.spec .cluster kafka).renewalDays < (WhichCa.spec .cluster kafka).validityDays) := by
  constructor
  · intro which now replaceKey conv w w' K C cs out hcs hK hC hplan hrun
    have hst : Stored which kafka.name w K C := ⟨hK, hC⟩
    have hrenewed : RenewedAt lib which kafka now w' :=
      (reconcileCa_at hlib hdated hst hplan).run_done ((run_at hcs _ _).trans hrun) out rfl
    have hgen : (which.spec kafka).generateCertificateAuthority = true := generate_of_renew hplan
    obtain ⟨K', C', hst', hphase, hsigning⟩ := hrenewed
    refine ⟨K', C', hst'.key, hst'.cert,
      fun conv' => planCaRotation_renewed hphase hgen rfl hsigning, ?_⟩
    intro hwindow conv' w'' cs' out' hcs' hrun'
    exact (reconcileCa_restsAt ⟨K', C', hst', hphase, hsigning⟩ hwindow conv').run_done
      ((run_at hcs' _ _).trans hrun') out' rfl
  · intro now requests ca ca' force w w' w'' cs cs' status status' hsame hcs hcs' hrun hrun' id hid
    obtain ⟨req, hreq, rfl, hfresh⟩ := freshLeaf_of_issued hlib hdated hsame hcs hrun hid
    exact notMem_issued_iff hlib hdated hsame hcs' hrun' hreq hfresh

end Main

/-! ## A window as long as the validity -/

namespace SampleLib

/-- A time as a number without a sign. -/
def codeTime : Int → Nat
  | .ofNat n => 2 * n
  | .negSucc n => 2 * n + 1

def timeOf (n : Int) : Int := if n % 2 = 0 then n / 2 else -(n / 2) - 1

theorem timeOf_codeTime (t : Int) : timeOf (codeTime t) = t := by
  cases t with
  | ofNat n =>
    simp only [codeTime, timeOf, Int.ofNat_eq_natCast]
    omega
  | negSucc n =>
    simp only [codeTime, timeOf]
    omega

/-- A draw at which a certificate for no days expires when one for `days` days from `d` does. -/
def coded (days : Nat) (d : Draw) : Draw := { d with clock := codeTime (expiry days d) }

/-- The small instance with dates before 1970 as well. -/
def dated : CaLib :=
  { lib with
    generateCa := fun which cn days d => lib.generateCa which cn 0 (coded days d)
    renewCa := fun which key cn days d => lib.renewCa which key cn 0 (coded days d)
    issueBrokerCert := fun caCert caKey cn sans extraSans days d =>
      lib.issueBrokerCert caCert caKey cn sans extraSans 0 (coded days d)
    certNotAfter := fun pem => (lib.certNotAfter pem).map timeOf }

private theorem mints_dated {d : Draw} {c : Pem} (h : dated.Mints d c) :
    ∃ clock, lib.Mints ⟨d.serial, clock⟩ c := by
  rcases h with ⟨which, cn, days, m, h, hm⟩ | ⟨which, key, cn, days, h⟩
  · exact ⟨_, .inl ⟨which, cn, 0, m, h, hm⟩⟩
  · exact ⟨_, .inr ⟨which, key, cn, 0, h⟩⟩

private theorem pairs_dated {m : CaMaterial} : dated.Pairs m ↔ lib.Pairs m := by
  simp only [CaLib.Pairs, dated]

theorem dated_lawful : dated.Lawful where
  generate_pairs := fun {which cn days d m} h => pairs_dated.mpr <|
    @CaLib.Lawful.generate_pairs lib lib_lawful which cn 0 (coded days d) m h
  renew_pairs := fun {which keyPem cn days d c} h => pairs_dated.mpr <|
    @CaLib.Lawful.renew_pairs lib lib_lawful which keyPem cn 0 (coded days d) c h
  mints_block := by
    intro d c h
    obtain ⟨clock, h⟩ := mints_dated h
    exact lib_lawful.mints_block h
  mints_fresh := by
    intro d d' c c' b h h' hb hb'
    obtain ⟨clock, h⟩ := mints_dated h
    obtain ⟨clock', h'⟩ := mints_dated h'
    exact @CaLib.Lawful.mints_fresh lib lib_lawful ⟨d.serial, clock⟩ ⟨d'.serial, clock'⟩ c c' b h h'
      hb hb'
  generate_fresh := fun {which which' cn cn' days days' m m' d d'} h h' heq =>
    @CaLib.Lawful.generate_fresh lib lib_lawful which which' cn cn' 0 0 m m' (coded days d)
      (coded days' d') h h' heq
  certKey_first := fun {_ _ _} h => @CaLib.Lawful.certKey_first lib lib_lawful _ _ _ h
  issueBrokerCert_signer := fun {caCert caKey cn sans extraSans days d leaf} h =>
    @CaLib.Lawful.issueBrokerCert_signer lib lib_lawful caCert caKey cn sans extraSans 0
      (coded days d) leaf h
  issueUserCert_signer := fun {caCert caKey cn days d leaf} h =>
    @CaLib.Lawful.issueUserCert_signer lib lib_lawful caCert caKey cn days d leaf h

private theorem certNotAfter_dated (key signer serial days : Nat) (d : Draw) :
    dated.certNotAfter (cert key signer serial (expiry 0 (coded days d))) =
      .ok (d.clock + days * 86400) := by
  have hexpiry : expiry 0 (coded days d) = (codeTime (expiry days d) : Int) := by
    simp [expiry, coded]
  have hmap : ∀ pem, dated.certNotAfter pem = (lib.certNotAfter pem).map timeOf := fun _ => rfl
  have hdays : (secondsPerDay : Int) = 86400 := by simp [secondsPerDay]
  rw [hmap, hexpiry, certNotAfter_cert, Except.map, timeOf_codeTime, expiry, hdays]

theorem dated_dated : dated.Dated where
  renewCa_notAfter := by
    intro which key cn days d c h
    cases h
    exact certNotAfter_dated _ _ _ _ _
  issueBrokerCert_notAfter := by
    intro caCert caKey cn sans extraSans days d leaf h
    cases h
    exact certNotAfter_dated _ _ _ _ _
  certNotAfter_first := by
    intro c b bs h
    have hb : splitPemCerts b = [b] := isBlock_of_mem_splitPemCerts (h ▸ List.mem_cons_self)
    simp only [dated, lib, h, hb]

end SampleLib

/-- A `Kafka` whose renewal window is as long as the validity of its cluster CA. -/
def everDue : Kafka :=
  { Kafka.minimal "demo" with
    spec := { (Kafka.minimal "demo").spec with
      clusterCa := some { validityDays := 30, renewalDays := 30 } } }

/-- The namespace after some passes at time 0. -/
def passed : Nat → World
  | 0 => World.empty
  | n + 1 => ((reconcileCa SampleLib.dated everDue .cluster false false false 0).run answer
      (List.replicate 8 {}) (passed n)).2

/-- The first pass creates the CA, and each of the next two renews it. -/
private theorem everDue_runs : ∃ K C K' C' out,
    keyPartIn (passed 1) .cluster "demo" = some K ∧ certPartIn (passed 1) .cluster "demo" = some C ∧
    planCaRotation SampleLib.dated (.ofParts K C)
      (rotationInputs everDue .cluster false false false 0) = .renewCertSameKey ∧
    (reconcileCa SampleLib.dated everDue .cluster false false false 0).run answer
      (List.replicate 8 {}) (passed 1) = (.done out, passed 2) ∧
    keyPartIn (passed 2) .cluster "demo" = some K' ∧
    certPartIn (passed 2) .cluster "demo" = some C' ∧
    planCaRotation SampleLib.dated (.ofParts K' C')
      (rotationInputs everDue .cluster false false false 0) = .renewCertSameKey := by
  have hplan : ∀ n, n = 1 ∨ n = 2 → ((keyPartIn (passed n) .cluster "demo").bind fun K =>
      (certPartIn (passed n) .cluster "demo").map fun C =>
        planCaRotation SampleLib.dated (.ofParts K C)
          (rotationInputs everDue .cluster false false false 0)) = some .renewCertSameKey := by
    rintro n (rfl | rfl)
    · decide
    · decide +kernel
  obtain ⟨K, hK, hplan₁⟩ := Option.bind_eq_some_iff.mp (hplan 1 (.inl rfl))
  obtain ⟨C, hC, hplan₁⟩ := Option.map_eq_some_iff.mp hplan₁
  obtain ⟨K', hK', hplan₂⟩ := Option.bind_eq_some_iff.mp (hplan 2 (.inr rfl))
  obtain ⟨C', hC', hplan₂⟩ := Option.map_eq_some_iff.mp hplan₂
  obtain ⟨out, hout, -⟩ := Prog.Outcome.exists_of_isDone (fun _ => true)
    (x := ((reconcileCa SampleLib.dated everDue .cluster false false false 0).run answer
      (List.replicate 8 {}) (passed 1)).1) (by decide)
  exact ⟨K, C, K', C', out, hK, hC, hplan₁, Prod.ext hout rfl, hK', hC', hplan₂⟩

/-- The CA that was just renewed is renewed again, and so is a leaf that was just issued. -/
theorem renewal_repeats : SampleLib.dated.Lawful ∧ SampleLib.dated.Dated ∧
    (∃ K C K' C' out, keyPartIn (passed 1) .cluster "demo" = some K ∧
      certPartIn (passed 1) .cluster "demo" = some C ∧
      planCaRotation SampleLib.dated (.ofParts K C)
        (rotationInputs everDue .cluster false false false 0) = .renewCertSameKey ∧
      (reconcileCa SampleLib.dated everDue .cluster false false false 0).run answer
        (List.replicate 8 {}) (passed 1) = (.done out, passed 2) ∧
      keyPartIn (passed 2) .cluster "demo" = some K' ∧
      certPartIn (passed 2) .cluster "demo" = some C' ∧
      planCaRotation SampleLib.dated (.ofParts K' C')
        (rotationInputs everDue .cluster false false false 0) = .renewCertSameKey) ∧
    let call := ensureBrokerKeystore SampleLib.dated everDue [⟨0, "demo-broker-0", [], []⟩]
      ⟨[], SampleLib.keyPem 1⟩ false
    let first := call.run answer (List.replicate 8 {}) World.empty
    (first.1.isDone fun status => status.issued = [0]) ∧
      ((call.run answer (List.replicate 8 {}) first.2).1.isDone fun status =>
        status.issued = [0]) :=
  ⟨SampleLib.dated_lawful, SampleLib.dated_dated, everDue_runs, by decide,
    by decide +kernel⟩

/-- The renewal of the CA is not followed by another one exactly if its window is shorter. -/
theorem renewal_settles_everDue : ∃ K' C', keyPartIn (passed 2) .cluster "demo" = some K' ∧
    certPartIn (passed 2) .cluster "demo" = some C' ∧ (planCaRotation SampleLib.dated
      (.ofParts K' C') (rotationInputs everDue .cluster false false false 0) ≠ .renewCertSameKey ↔
        30 < 30) := by
  obtain ⟨K, C, -, -, out, hK, hC, hplan, hrun, -⟩ := everDue_runs
  obtain ⟨K', C', hK', hC', hiff, -⟩ := (renewal_settles_iff SampleLib.dated_lawful
    SampleLib.dated_dated everDue).1 .cluster 0 false false (passed 1) (passed 2) K C
      (List.replicate 8 {}) out (by decide) hK hC hplan hrun
  exact ⟨K', C', hK', hC', hiff false⟩

end ClusterCa
