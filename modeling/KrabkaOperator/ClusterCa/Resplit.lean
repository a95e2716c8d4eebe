-- SUMMARY: The scan of a trust bundle ends, and what the trust-bundle helpers leave of a bundle is read back as it is.
import KrabkaOperator.Base.Loop
import KrabkaOperator.ClusterCa.Bundle

/-!
# Trust bundles, read again

The stored bundle is split again in every pass. The scan ends for every text, and a list
that one of the helpers made out of its blocks comes back from the joined text.
-/

namespace ClusterCa

/-! ## The scan -/

/-- The scan after some turns: the blocks so far and the text behind them. -/
structure Scan where
  out : List Pem
  rest : Pem

/-- The next block and the text behind it. There is none without both markers. -/
def nextBlock (rest : Pem) : Option (Pem × Pem) :=
  match Text.find beginCert rest with
  | none => none
  | some b =>
    let after := rest.drop b
    match Text.find endCert after with
    | none => none
    | some e =>
      let stop := e + endCert.length
      some (Text.trim (after.take stop) ++ ['\n'], after.drop stop)

/-- The scan goes on. -/
def Scan.Busy (s : Scan) : Prop := (nextBlock s.rest).isSome

/-- A turn of the scan. -/
def Scan.turn (s : Scan) : Scan :=
  match nextBlock s.rest with
  | none => s
  | some (block, rest) => ⟨s.out ++ [block], rest⟩

theorem splitPemChars_of_none (fuel : Nat) {rest : Pem} (h : nextBlock rest = none) :
    splitPemChars fuel rest = [] := by
  cases fuel with
  | zero => rfl
  | succ fuel =>
    unfold nextBlock at h
    unfold splitPemChars
    cases hfind : Text.find beginCert rest with
    | none => rfl
    | some b =>
      rw [hfind] at h
      dsimp only at h ⊢
      cases hend : Text.find endCert (rest.drop b) with
      | none => rfl
      | some e =>
        rw [hend] at h
        cases h

theorem nextBlock_eq_some {rest rest' block : Pem} (h : nextBlock rest = some (block, rest')) :
    ∃ b e, Text.find beginCert rest = some b ∧ Text.find endCert (rest.drop b) = some e ∧
      block = Text.trim ((rest.drop b).take (e + endCert.length)) ++ ['\n'] ∧
      rest' = (rest.drop b).drop (e + endCert.length) := by
  unfold nextBlock at h
  cases hfind : Text.find beginCert rest with
  | none =>
    rw [hfind] at h
    cases h
  | some b =>
    rw [hfind] at h
    dsimp only at h
    cases hend : Text.find endCert (rest.drop b) with
    | none =>
      rw [hend] at h
      cases h
    | some e =>
      rw [hend] at h
      cases h
      exact ⟨b, e, rfl, hend, rfl, rfl⟩

theorem splitPemChars_of_some (fuel : Nat) {rest rest' block : Pem}
    (h : nextBlock rest = some (block, rest')) :
    splitPemChars (fuel + 1) rest = block :: splitPemChars fuel rest' := by
  obtain ⟨b, e, hfind, hend, rfl, rfl⟩ := nextBlock_eq_some h
  simp only [splitPemChars, hfind, hend]

/-- Every turn shortens the text by a marker at least. -/
theorem nextBlock_length {rest rest' block : Pem} (h : nextBlock rest = some (block, rest')) :
    rest'.length < rest.length := by
  obtain ⟨b, e, hfind, hend, rfl, rfl⟩ := nextBlock_eq_some h
  have hpos : 0 < endCert.length := by decide
  have hle := Text.find_add_length_le hend
  simp only [List.length_drop] at hle ⊢
  omega

theorem scan_ends {fuel : Nat} (out : List Pem) {rest : Pem} (h : rest.length < fuel) :
    ∃ k < fuel, ∃ left,
      Loop.Ends Scan.Busy Scan.turn ⟨out, rest⟩ k ⟨out ++ splitPemChars fuel rest, left⟩ := by
  induction fuel generalizing out rest with
  | zero => exact absurd h (Nat.not_lt_zero _)
  | succ fuel ih =>
    cases hnext : nextBlock rest with
    | none =>
      refine ⟨0, Nat.succ_pos _, rest, ?_⟩
      rw [splitPemChars_of_none _ hnext, List.append_nil]
      exact .here (by simp [Scan.Busy, hnext])
    | some found =>
      obtain ⟨block, rest'⟩ := found
      have hshort : rest'.length < fuel :=
        Nat.lt_of_lt_of_le (nextBlock_length hnext) (Nat.le_of_lt_succ h)
      obtain ⟨k, hk, left, hends⟩ := ih (out ++ [block]) hshort
      refine ⟨k + 1, Nat.succ_lt_succ hk, left, .turn (by simp [Scan.Busy, hnext]) ?_⟩
      rw [splitPemChars_of_some _ hnext]
      simpa [Scan.turn, hnext] using hends

/-! ## Sublists of blocks -/

theorem isBlock_of_sublist {bs ds : List Pem} (hsub : ds.Sublist bs) (h : ∀ b ∈ bs, IsBlock b) :
    ∀ b ∈ ds, IsBlock b :=
  fun b hb => h b (hsub.subset hb)

/-- A part of a block list: some of its blocks in their order, the first one among them. Its
    bundle is read back as the part. -/
structure PartOf (ds bs : List Pem) : Prop where
  sublist : ds.Sublist bs
  first : ds.head? = bs.head?
  resplit : splitPemCerts (joinBundle ds) = ds

theorem PartOf.of_sublist {ds : List Pem} {x : Pem} (hsub : ds.Sublist (splitPemCerts x))
    (hfirst : ds.head? = (splitPemCerts x).head?) : PartOf ds (splitPemCerts x) where
  sublist := hsub
  first := hfirst
  resplit := splitPemCerts_joinBundle
    (isBlock_of_sublist hsub fun _ hb => isBlock_of_mem_splitPemCerts hb)

theorem dedupFrom_sublist (seen bs : List Pem) : (dedupFrom seen bs).Sublist bs := by
  induction bs generalizing seen with
  | nil => exact .slnil
  | cons b bs ih =>
    simp only [dedupFrom]
    split
    · exact .cons _ (ih seen)
    · exact .cons_cons _ (ih (b :: seen))

theorem nodup_dedupFrom (seen bs : List Pem) : (dedupFrom seen bs).Nodup := by
  induction bs generalizing seen with
  | nil => exact .nil
  | cons b bs ih =>
    simp only [dedupFrom]
    split
    · exact ih seen
    · refine List.nodup_cons.mpr ⟨fun hmem => ?_, ih (b :: seen)⟩
      exact (mem_dedupFrom.mp hmem).2 List.mem_cons_self

section PruneExpired

variable {ε : Type} {certNotAfter : Pem → Except ε Int} {now : Int}

/-- A block parses as a certificate that is expired at `now`. -/
def ExpiredAt (certNotAfter : Pem → Except ε Int) (now : Int) (b : Pem) : Prop :=
  ∃ notAfter, certNotAfter b = .ok notAfter ∧ notAfter ≤ now

theorem pruneExpired_sublist (bs : List Pem) : (pruneExpired certNotAfter bs now).Sublist bs := by
  have hfst : bs.zipIdx.map Prod.fst = bs := List.zipIdx_map_fst 0 bs
  conv => rhs; rw [← hfst]
  exact List.filter_sublist.map _

/-- A filter by element and place that keeps `b` at every place keeps how often it occurs. -/
theorem count_filter_zipIdx {keep : Pem × Nat → Bool} {b : Pem} (h : ∀ i, keep (b, i) = true)
    (i : Nat) (bs : List Pem) :
    (((bs.zipIdx i).filter keep).map Prod.fst).count b = bs.count b := by
  induction bs generalizing i with
  | nil => rfl
  | cons c cs ih =>
    have hrest := ih (i + 1)
    rw [List.zipIdx_cons, List.filter_cons]
    by_cases hc : c = b
    · subst hc
      rw [if_pos (h i), List.map_cons, List.count_cons_self, List.count_cons_self, hrest]
    · rw [List.count_cons_of_ne hc]
      split
      · rw [List.map_cons, List.count_cons_of_ne hc, hrest]
      · exact hrest

/-- Pruning drops no occurrence of a block that is not expired. -/
theorem count_pruneExpired {b : Pem} (h : ¬ ExpiredAt certNotAfter now b) (bs : List Pem) :
    (pruneExpired certNotAfter bs now).count b = bs.count b := by
  refine count_filter_zipIdx (fun i => ?_) 0 bs
  rw [Bool.or_eq_true]
  right
  cases hb : certNotAfter b with
  | error e => rfl
  | ok notAfter =>
    have hafter : now < notAfter := Int.not_le.mp fun hle => h ⟨notAfter, hb, hle⟩
    exact decide_eq_true hafter

end PruneExpired

/-! ## The helpers -/

/-- For every text the scan ends, with the blocks. They come back from their bundle, and so does
    what is left of them without duplicates or without expired certificates: a part of the
    blocks with the signing block in front. -/
theorem trust_bundle_resplit {ε : Type} (certNotAfter : Pem → Except ε Int) (now : Int) (x : Pem) :
    (∃ k ≤ x.length, ∃ left,
      Loop.Ends Scan.Busy Scan.turn ⟨[], x⟩ k ⟨splitPemCerts x, left⟩) ∧
    splitPemCerts (joinBundle (splitPemCerts x)) = splitPemCerts x ∧
    PartOf (dedupBlocks (splitPemCerts x)) (splitPemCerts x) ∧
    (dedupBlocks (splitPemCerts x)).Nodup ∧
    (∀ b, b ∈ dedupBlocks (splitPemCerts x) ↔ b ∈ splitPemCerts x) ∧
    PartOf (pruneExpired certNotAfter (splitPemCerts x) now) (splitPemCerts x) ∧
    ∀ b, (pruneExpired certNotAfter (splitPemCerts x) now).count b < (splitPemCerts x).count b →
      ExpiredAt certNotAfter now b := by
  refine ⟨?_, splitPemCerts_joinBundle fun b hb => isBlock_of_mem_splitPemCerts hb,
    .of_sublist (dedupFrom_sublist [] _) (head?_dedupBlocks _), nodup_dedupFrom [] _,
    fun b => mem_dedupBlocks, .of_sublist (pruneExpired_sublist _) (head?_pruneExpired _),
    fun b hdropped => ?_⟩
  · obtain ⟨k, hk, left, hends⟩ := scan_ends [] (Nat.lt_succ_self x.length)
    exact ⟨k, Nat.le_of_lt_succ hk, left, hends⟩
  · by_contra hnot
    exact absurd (count_pruneExpired hnot _) (Nat.ne_of_lt hdropped)

end ClusterCa
