-- SUMMARY: The trust-bundle helpers of the CA controller: splitting, joining, deduplicating and pruning PEM certificate blocks.
import KrabkaOperator.Base.Text

/-!
# Trust bundles

A CA's `ca.crt` holds its trust bundle: the PEM blocks of all trusted CA
certificates, the signing certificate first. The helpers here split a bundle
into blocks and join it again, drop duplicates and drop expired blocks.
-/

namespace ClusterCa

/-- A PEM text, by its characters. -/
abbrev Pem := List Char

def beginCert : List Char := "-----BEGIN CERTIFICATE-----".toList
def endCert : List Char := "-----END CERTIFICATE-----".toList

/-- The scan of `splitPemCerts`. Every round consumes a block, so the length of
    the text bounds the number of rounds. -/
def splitPemChars : Nat → List Char → List (List Char)
  | 0, _ => []
  | fuel + 1, rest =>
    match Text.find beginCert rest with
    | none => []
    | some b =>
      let after := rest.drop b
      match Text.find endCert after with
      | none => []
      | some e =>
        let stop := e + endCert.length
        (Text.trim (after.take stop) ++ ['\n']) :: splitPemChars fuel (after.drop stop)

/-- Split a PEM bundle into single certificate blocks, each ending in one newline. -/
def splitPemCerts (bundle : Pem) : List Pem := splitPemChars (bundle.length + 1) bundle

/-- Concatenate the certificate blocks into one bundle. -/
def joinBundle (blocks : List Pem) : Pem := blocks.flatten

/-- The filter of `dedupBlocks` with the blocks it has `seen`. -/
def dedupFrom (seen : List Pem) : List Pem → List Pem
  | [] => []
  | b :: bs => if b ∈ seen then dedupFrom seen bs else b :: dedupFrom (b :: seen) bs

/-- Remove the duplicate blocks and keep the order of the first occurrences. -/
def dedupBlocks (blocks : List Pem) : List Pem := dedupFrom [] blocks

/-- Remove the expired blocks. The first block, which is the signing block, and
    the blocks that do not parse stay. -/
def pruneExpired {ε : Type} (certNotAfter : Pem → Except ε Int) (blocks : List Pem)
    (now : Int) : List Pem :=
  (blocks.zipIdx.filter fun (b, i) => i == 0 ||
    match certNotAfter b with
    | .ok notAfter => now < notAfter
    | .error _ => true).map Prod.fst

/-- Normalize one certificate to a block with one trailing newline. -/
def normalizeBlock (certPem : Pem) : Pem :=
  match splitPemCerts certPem with
  | block :: _ => block
  | [] => Text.trim certPem ++ ['\n']

/-! ## One block of a scan -/

/-- A text is a certificate block when it splits into itself. -/
def IsBlock (b : Pem) : Prop := splitPemCerts b = [b]

instance (b : Pem) : Decidable (IsBlock b) :=
  inferInstanceAs (Decidable (splitPemCerts b = [b]))

/-- The core of a block: it starts with the first marker, and its first
    occurrence of the second marker is its end. -/
private def IsCore (core : List Char) : Prop :=
  beginCert <+: core ∧ ∃ e, Text.find endCert core = some e ∧ core.length = e + endCert.length

private theorem isCore_trim {core : List Char} (h : IsCore core) : Text.trim core = core := by
  obtain ⟨⟨t, ht⟩, e, hfind, hlen⟩ := h
  obtain ⟨u, hu⟩ := Text.find_prefix hfind
  have hu_nil : u = [] := by
    have := congrArg List.length hu
    simp only [List.length_append, List.length_drop] at this
    exact List.eq_nil_of_length_eq_zero (by omega)
  have hstart : Text.trimStart core = core := by
    rw [← ht]
    exact Text.trimStart_cons (by decide)
  have hend : core = (core.take e ++ endCert.dropLast) ++ ['-'] := by
    have : endCert = endCert.dropLast ++ ['-'] := by decide
    rw [List.append_assoc, ← this, ← List.append_nil endCert, ← hu_nil, hu, List.take_append_drop]
  rw [Text.trim, hstart, hend]
  exact Text.trimEnd_concat (by decide)

/-- Scanning a core cuts it off and goes on behind it. -/
private theorem splitPemChars_core {core : List Char} (h : IsCore core) (fuel : Nat)
    (rest : List Char) :
    splitPemChars (fuel + 1) (core ++ rest) = (core ++ ['\n']) :: splitPemChars fuel rest := by
  obtain ⟨hbegin, e, hfind, hlen⟩ := h
  have hb : Text.find beginCert (core ++ rest) = some 0 :=
    Text.find_eq_zero_of_prefix (hbegin.trans (List.prefix_append _ _))
  have he : Text.find endCert (core ++ rest) = some e := Text.find_append rest hfind
  have hdrop : (core ++ rest).drop (e + endCert.length) = rest := by
    rw [← hlen, List.drop_left]
  have htake : (core ++ rest).take (e + endCert.length) = core := by
    rw [← hlen, List.take_left]
  simp only [splitPemChars, hb, List.drop_zero, he, hdrop, htake,
    isCore_trim ⟨hbegin, e, hfind, hlen⟩]

/-- The text that a round cuts out is a core. -/
private theorem isCore_take {rest : List Char} {b e : Nat}
    (hb : Text.find beginCert rest = some b) (he : Text.find endCert (rest.drop b) = some e) :
    IsCore ((rest.drop b).take (e + endCert.length)) := by
  have hbegin := Text.find_prefix hb
  have hlen := Text.find_add_length_le he
  have htake : ((rest.drop b).take (e + endCert.length)).length = e + endCert.length := by
    rw [List.length_take, Nat.min_eq_left hlen]
  obtain ⟨u, hu⟩ := Text.find_prefix he
  have hsplit : (rest.drop b).take (e + endCert.length) = (rest.drop b).take e ++ endCert := by
    rw [List.take_add, ← hu, List.take_left]
  refine ⟨?_, e, ?_, htake⟩
  · -- The first marker cannot start behind the place where the second one ends.
    refine List.prefix_of_prefix_length_le hbegin (List.take_prefix _ _) ?_
    rw [htake]
    by_contra hlt
    have hlt : e + endCert.length < beginCert.length := by omega
    have he2 : e < 3 := by
      have h1 : beginCert.length = 27 := by decide
      have h2 : endCert.length = 25 := by decide
      omega
    obtain ⟨v, hv⟩ := hbegin
    rw [← hv] at hu
    have hu' : endCert <+: (beginCert ++ v).drop e := ⟨u, hu⟩
    have hcontra : ∀ e < 3, ¬ endCert.take 22 <+: beginCert.drop e := by decide
    apply hcontra e he2
    have hle : (endCert.take 22).length ≤ (beginCert.drop e).length := by
      have h1 : beginCert.length = 27 := by decide
      have h2 : endCert.length = 25 := by decide
      simp only [List.length_take, List.length_drop]
      omega
    have hdrop : (beginCert ++ v).drop e = beginCert.drop e ++ v := by
      rw [List.drop_append_of_le_length]
      have h1 : beginCert.length = 27 := by decide
      omega
    rw [hdrop] at hu'
    exact List.prefix_of_prefix_length_le ((List.take_prefix _ _).trans hu')
      (List.prefix_append _ _) hle
  · -- No earlier occurrence: it would be one in the whole text too.
    cases hf : Text.find endCert ((rest.drop b).take (e + endCert.length)) with
    | some e' =>
      have := Text.find_append ((rest.drop b).drop (e + endCert.length)) hf
      rw [List.take_append_drop, he] at this
      exact this.symm
    | none =>
      exfalso
      have hsome : ∀ s : List Char, (Text.find endCert (s ++ endCert)).isSome := by
        intro s
        induction s with
        | nil => decide
        | cons c cs ih =>
          simp only [List.cons_append, Text.find]
          split
          · rfl
          · simpa using ih
      have := hsome ((rest.drop b).take e)
      rw [← hsplit, hf] at this
      cases this

private theorem splitPemChars_isCore {fuel : Nat} {rest : List Char} {block : List Char}
    (h : block ∈ splitPemChars fuel rest) : ∃ core, IsCore core ∧ block = core ++ ['\n'] := by
  induction fuel generalizing rest with
  | zero => simp [splitPemChars] at h
  | succ fuel ih =>
    simp only [splitPemChars] at h
    split at h
    · simp at h
    · rename_i b hb
      split at h
      · simp at h
      · rename_i e he
        have hcore := isCore_take hb he
        rcases List.mem_cons.mp h with rfl | h
        · exact ⟨_, hcore, by rw [isCore_trim hcore]⟩
        · exact ih h

/-- Fuel above the length of the text is never used up. -/
private theorem splitPemChars_fuel (fuel fuel' : Nat) {rest : List Char} (h : rest.length < fuel)
    (h' : rest.length < fuel') : splitPemChars fuel rest = splitPemChars fuel' rest := by
  induction fuel generalizing rest fuel' with
  | zero => omega
  | succ fuel ih =>
    cases fuel' with
    | zero => omega
    | succ fuel' =>
      simp only [splitPemChars]
      split
      · rfl
      · rename_i b hb
        split
        · rfl
        · rename_i e he
          have hpos : 0 < endCert.length := by decide
          have hle := Text.find_add_length_le hb
          have hle' := Text.find_add_length_le he
          rw [List.length_drop] at hle'
          rw [ih fuel']
          · simp only [List.length_drop]
            omega
          · simp only [List.length_drop]
            omega

private theorem splitPemChars_newline (fuel : Nat) (rest : List Char) :
    splitPemChars fuel ('\n' :: rest) = splitPemChars fuel rest := by
  cases fuel with
  | zero => rfl
  | succ fuel =>
    have hfind : Text.find beginCert ('\n' :: rest) = (Text.find beginCert rest).map (· + 1) :=
      Text.find_cons_of_ne (by decide)
    simp only [splitPemChars, hfind]
    cases Text.find beginCert rest with
    | none => rfl
    | some b => simp

/-! ## Splitting and joining -/

private theorem isBlock_of_isCore {core : List Char} (h : IsCore core) :
    IsBlock (core ++ ['\n']) := by
  have hnil : splitPemChars (core ++ ['\n']).length ['\n'] = [] := by
    rw [splitPemChars_newline]
    cases (core ++ ['\n']).length <;> rfl
  simp only [IsBlock, splitPemCerts, splitPemChars_core h, hnil]

private theorem find_endCert_body {body : List Char} (h : '-' ∉ body) :
    Text.find endCert (body ++ endCert) = some body.length := by
  induction body with
  | nil => exact Text.find_eq_zero_of_prefix (by simp)
  | cons c cs ih =>
    simp only [List.mem_cons, not_or] at h
    have hdash : endCert = '-' :: endCert.tail := by decide
    have hrest := ih h.2
    rw [hdash] at hrest ⊢
    rw [List.cons_append, Text.find_cons_of_ne h.1, hrest]
    rfl

private theorem find_endCert_beginCert (rest : List Char) :
    Text.find endCert (beginCert ++ '\n' :: rest) =
      (Text.find endCert ('\n' :: rest)).map (· + beginCert.length) := by
  have hb : beginCert = ['-', '-', '-', '-', '-', 'B', 'E', 'G', 'I', 'N', ' ', 'C', 'E', 'R',
      'T', 'I', 'F', 'I', 'C', 'A', 'T', 'E', '-', '-', '-', '-', '-'] := by decide
  have he : endCert = ['-', '-', '-', '-', '-', 'E', 'N', 'D', ' ', 'C', 'E', 'R',
      'T', 'I', 'F', 'I', 'C', 'A', 'T', 'E', '-', '-', '-', '-', '-'] := by decide
  rw [hb, he]
  simp [Text.find, List.isPrefixOf, Function.comp_def]

/-- A body without dashes between the two markers makes a block. -/
theorem isBlock_frame {body : List Char} (h : '-' ∉ body) :
    IsBlock (beginCert ++ ('\n' :: body) ++ endCert ++ ['\n']) := by
  have hbody : '-' ∉ '\n' :: body := by simpa using h
  refine isBlock_of_isCore ⟨⟨_, (List.append_assoc _ _ _).symm⟩,
    ('\n' :: body).length + beginCert.length, ?_, ?_⟩
  · rw [List.append_assoc, List.cons_append, find_endCert_beginCert, ← List.cons_append,
      find_endCert_body hbody, Option.map_some]
  · simp only [List.length_append, List.length_cons]
    omega

private theorem IsBlock.exists_core {b : Pem} (h : IsBlock b) :
    ∃ core, IsCore core ∧ b = core ++ ['\n'] := by
  have hmem : b ∈ splitPemCerts b := by
    rw [h]
    exact List.mem_cons_self
  exact splitPemChars_isCore hmem

/-- Every block of a split bundle is a block by itself. -/
theorem isBlock_of_mem_splitPemCerts {x b : Pem} (h : b ∈ splitPemCerts x) : IsBlock b := by
  obtain ⟨core, hcore, rfl⟩ := splitPemChars_isCore h
  exact isBlock_of_isCore hcore

/-- A block in front of a text is the first block of the whole. -/
theorem IsBlock.splitPemCerts_append {b : Pem} (h : IsBlock b) (r : Pem) :
    splitPemCerts (b ++ r) = b :: splitPemCerts r := by
  obtain ⟨core, hcore, rfl⟩ := h.exists_core
  rw [splitPemCerts, List.append_assoc, List.singleton_append, splitPemChars_core hcore,
    splitPemChars_newline, splitPemChars_fuel _ (r.length + 1), splitPemCerts]
  · simp only [List.length_append, List.length_cons]
    omega
  · omega

theorem joinBundle_cons (b : Pem) (bs : List Pem) :
    joinBundle (b :: bs) = b ++ joinBundle bs := by
  simp [joinBundle]

/-- Splitting takes a joined list of blocks apart again. -/
theorem splitPemCerts_joinBundle {bs : List Pem} (h : ∀ b ∈ bs, IsBlock b) :
    splitPemCerts (joinBundle bs) = bs := by
  induction bs with
  | nil => decide
  | cons b bs ih =>
    rw [joinBundle_cons, (h b List.mem_cons_self).splitPemCerts_append,
      ih fun b' hb' => h b' (List.mem_cons_of_mem _ hb')]

theorem normalizeBlock_of_split {c b : Pem} {bs : List Pem} (h : splitPemCerts c = b :: bs) :
    normalizeBlock c = b := by
  simp [normalizeBlock, h]

theorem IsBlock.normalizeBlock_eq {b : Pem} (h : IsBlock b) : normalizeBlock b = b :=
  normalizeBlock_of_split h

/-! ## Deduplication and pruning -/

theorem mem_dedupFrom {seen bs : List Pem} {b : Pem} :
    b ∈ dedupFrom seen bs ↔ b ∈ bs ∧ b ∉ seen := by
  induction bs generalizing seen with
  | nil => simp [dedupFrom]
  | cons c cs ih =>
    simp only [dedupFrom]
    by_cases hc : c ∈ seen
    · rw [if_pos hc, ih, List.mem_cons]
      constructor
      · rintro ⟨hb, hs⟩
        exact ⟨.inr hb, hs⟩
      · rintro ⟨rfl | hb, hs⟩
        · exact absurd hc hs
        · exact ⟨hb, hs⟩
    · rw [if_neg hc, List.mem_cons, ih, List.mem_cons, List.mem_cons]
      by_cases hbc : b = c
      · subst hbc
        simp [hc]
      · simp [hbc]

@[simp] theorem mem_dedupBlocks {bs : List Pem} {b : Pem} : b ∈ dedupBlocks bs ↔ b ∈ bs := by
  simp [dedupBlocks, mem_dedupFrom]

/-- The first block stays the first one. -/
theorem head?_dedupBlocks (bs : List Pem) : (dedupBlocks bs).head? = bs.head? := by
  cases bs with
  | nil => rfl
  | cons b bs => simp [dedupBlocks, dedupFrom]

section PruneExpired

variable {ε : Type} {certNotAfter : Pem → Except ε Int} {now : Int}

theorem mem_of_mem_pruneExpired {bs : List Pem} {b : Pem}
    (h : b ∈ pruneExpired certNotAfter bs now) : b ∈ bs := by
  obtain ⟨⟨c, i⟩, hc, rfl⟩ := List.mem_map.mp h
  have := (List.mem_filter.mp hc).1
  exact List.fst_mem_of_mem_zipIdx this

/-- The first block is never pruned. -/
theorem head?_pruneExpired (bs : List Pem) :
    (pruneExpired certNotAfter bs now).head? = bs.head? := by
  cases bs with
  | nil => rfl
  | cons b bs => simp [pruneExpired, List.zipIdx_cons]

/-- Behind the first block no expired one is left. -/
theorem unexpired_of_mem_pruneExpired {bs : List Pem} {b : Pem} {notAfter : Int}
    (h : b ∈ (pruneExpired certNotAfter bs now).drop 1) (hb : certNotAfter b = .ok notAfter) :
    now < notAfter := by
  cases bs with
  | nil => cases h
  | cons b₀ bs =>
    simp only [pruneExpired, List.zipIdx_cons, List.filter_cons, beq_self_eq_true, Bool.true_or,
      if_true, List.map_cons, List.drop_succ_cons, List.drop_zero] at h
    obtain ⟨⟨c, i⟩, hc, rfl⟩ := List.mem_map.mp h
    obtain ⟨hmem, hkeep⟩ := List.mem_filter.mp hc
    have hi : (i == 0) = false := by
      have := List.le_snd_of_mem_zipIdx hmem
      simpa using Nat.ne_of_gt this
    simp only [hi, hb, Bool.false_or, decide_eq_true_eq] at hkeep
    exact hkeep

end PruneExpired

end ClusterCa
