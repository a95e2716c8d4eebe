-- SUMMARY: The check that no roll is in flight, as the loop that the controller runs: what its result says, and that the order of its inputs does not matter.
import KrabkaOperator.Cluster.Run

/-!
# Convergence of the pools

`poolsConvergedLoop` follows the code: a map of the StatefulSets by name, then one turn
for each pool with early returns and a set of the hashes seen. `poolsConverged`, which
the passes use, says the same without the loop.
-/

namespace Cluster

open Kube Crd Operator

/-! ## The loop -/

/-- Index the StatefulSets by name. A name that comes twice ends the check. -/
def statefulSetsByName : BTreeMap StatefulSet → List StatefulSet → Option (BTreeMap StatefulSet)
  | byName, [] => some byName
  | byName, sts :: rest =>
    if byName.contains sts.name then none
    else statefulSetsByName (byName.insert sts.name sts) rest

/-- One turn for each pool. `hashes` is a set without duplicates. -/
def convergenceLoop (byName : BTreeMap StatefulSet) :
    List (Option String) → List KafkaNodePool → Option (List (Option String))
  | hashes, [] => some hashes
  | hashes, p :: ps =>
    let h := p.configHash?
    let hashes := hashes.insert h
    match h with
    | none => none
    | some hash =>
      if hash = "" then none
      else
        match p.cluster? with
        | none => none
        | some cluster =>
          match byName[cluster ++ "-" ++ p.name]? with
          | none => none
          | some sts =>
            if !belongsTo sts cluster p.name then none
            else if !rolledTo sts hash p.spec.replicas then none
            else convergenceLoop byName hashes ps

def poolsConvergedLoop (pools : List KafkaNodePool) (statefulSets : List StatefulSet) : Bool :=
  match statefulSetsByName ∅ statefulSets with
  | none => false
  | some byName =>
    match convergenceLoop byName [] pools with
    | none => false
    | some hashes => pools.isEmpty || hashes.length = 1

/-! ## What the checks of one pool say -/

/-- The StatefulSet has observed its spec and has rolled to `hash` completely. -/
def FullyRolled (sts : StatefulSet) (hash : String) (replicas : Int) : Prop :=
  ∃ spec status generation revision,
    sts.spec = some spec ∧ sts.status = some status ∧ sts.generation = some generation ∧
    spec.templateAnnotations["krabka.io/config-hash"]? = some hash ∧
    spec.replicas = some replicas ∧
    status.observedGeneration = some generation ∧
    status.currentRevision = some revision ∧ status.updateRevision = some revision ∧
    status.updatedReplicas.getD 0 = replicas ∧ status.readyReplicas.getD 0 = replicas

/-- The StatefulSet of a pool: its name, and the labels that tie it to the pool. -/
def IsSetOf (sts : StatefulSet) (cluster pool : String) : Prop :=
  sts.name = cluster ++ "-" ++ pool ∧
    sts.labels["app.kubernetes.io/instance"]? = some cluster ∧
    sts.labels["app.kubernetes.io/name"]? = some appLabel ∧
    sts.labels["krabka.io/pool"]? = some pool

/-- A pool that carries `hash` and whose StatefulSet has rolled to it. -/
def PoolRolled (statefulSets : List StatefulSet) (hash : String) (p : KafkaNodePool) : Prop :=
  p.configHash? = some hash ∧ ∃ cluster, p.cluster? = some cluster ∧
    ∃ sts ∈ statefulSets, IsSetOf sts cluster p.name ∧ FullyRolled sts hash p.spec.replicas

theorem rolledTo_iff {sts : StatefulSet} {hash : String} {replicas : Int} :
    rolledTo sts hash replicas = true ↔ FullyRolled sts hash replicas := by
  unfold rolledTo FullyRolled
  constructor
  · intro h
    split at h
    · rename_i spec status generation hspec hstatus hgeneration
      simp only [Bool.and_eq_true, decide_eq_true_eq] at h
      obtain ⟨⟨⟨⟨⟨⟨hhash, hreplicas⟩, hobserved⟩, hcurrent⟩, hupdate⟩, hupdated⟩, hready⟩ := h
      obtain ⟨revision, hrevision⟩ := Option.isSome_iff_exists.mp hcurrent
      exact ⟨spec, status, generation, revision, hspec, hstatus, hgeneration, hhash, hreplicas,
        hobserved, hrevision, hupdate ▸ hrevision, hupdated, hready⟩
    · cases h
  · rintro ⟨spec, status, generation, revision, hspec, hstatus, hgeneration, hhash, hreplicas,
      hobserved, hcurrent, hupdate, hupdated, hready⟩
    rw [hspec, hstatus, hgeneration]
    simp [hhash, hreplicas, hobserved, hcurrent, hupdate, hupdated, hready]

theorem belongsTo_iff {sts : StatefulSet} {cluster pool : String}
    (hname : sts.name = cluster ++ "-" ++ pool) :
    belongsTo sts cluster pool = true ↔ IsSetOf sts cluster pool := by
  simp only [belongsTo, IsSetOf, hname, Bool.and_eq_true, decide_eq_true_eq, true_and, and_assoc]

/-! ## The parts of the loop -/

variable {pools pools' : List KafkaNodePool} {statefulSets statefulSets' : List StatefulSet}

/-- The map is there exactly if no name comes twice. -/
theorem statefulSetsByName_isSome {byName : BTreeMap StatefulSet} :
    (statefulSetsByName byName statefulSets).isSome ↔
      (statefulSets.map (·.name)).Nodup ∧ ∀ sts ∈ statefulSets, byName[sts.name]? = none := by
  induction statefulSets generalizing byName with
  | nil => simp [statefulSetsByName]
  | cons sts rest ih =>
    rw [statefulSetsByName, Std.ExtTreeMap.contains_eq_isSome_getElem?]
    cases hfound : byName[sts.name]? with
    | some other =>
      refine ⟨fun h => absurd h (by simp), fun h => ?_⟩
      have hnone := h.2 sts List.mem_cons_self
      rw [hfound] at hnone
      cases hnone
    | none =>
      simp only [Option.isSome_none, Bool.false_eq_true, if_false, ih, List.map_cons,
        List.nodup_cons, List.forall_mem_cons, hfound, true_and]
      -- The rest avoids the name that has been inserted.
      have hinsert : (∀ s ∈ rest, (byName.insert sts.name sts)[s.name]? = none) ↔
          sts.name ∉ rest.map (·.name) ∧ ∀ s ∈ rest, byName[s.name]? = none := by
        simp only [Std.ExtTreeMap.getElem?_insert, Std.LawfulEqCmp.compare_eq_iff_eq]
        constructor
        · intro h
          constructor
          · intro hmem
            obtain ⟨s, hs, hname⟩ := List.mem_map.mp hmem
            simpa [hname] using h s hs
          · intro s hs
            have hnone := h s hs
            split at hnone
            · cases hnone
            · exact hnone
        · rintro ⟨hnot, hrest⟩ s hs
          rw [if_neg fun heq => hnot (List.mem_map.mpr ⟨s, hs, heq.symm⟩)]
          exact hrest s hs
      rw [hinsert]
      constructor
      · rintro ⟨hnodup, hnot, hrest⟩
        exact ⟨⟨hnot, hnodup⟩, hrest⟩
      · rintro ⟨⟨hnot, hnodup⟩, hrest⟩
        exact ⟨hnodup, hnot, hrest⟩

/-- A lookup in the map finds the StatefulSet of that name. -/
theorem getElem?_statefulSetsByName {byName byName' : BTreeMap StatefulSet}
    (h : statefulSetsByName byName statefulSets = some byName') {name : String}
    {sts : StatefulSet} :
    byName'[name]? = some sts ↔
      (sts ∈ statefulSets ∧ sts.name = name) ∨ byName[name]? = some sts := by
  induction statefulSets generalizing byName with
  | nil =>
    obtain rfl : byName = byName' := Option.some_inj.mp h
    simp
  | cons s rest ih =>
    rw [statefulSetsByName, Std.ExtTreeMap.contains_eq_isSome_getElem?] at h
    cases hfound : byName[s.name]? with
    | some other => simp [hfound] at h
    | none =>
      simp only [hfound, Option.isSome_none, Bool.false_eq_true, if_false] at h
      rw [ih h, Std.ExtTreeMap.getElem?_insert, List.mem_cons]
      simp only [Std.LawfulEqCmp.compare_eq_iff_eq]
      by_cases hname : s.name = name
      · subst hname
        rw [if_pos rfl, hfound]
        constructor
        · rintro (⟨hmem, heq⟩ | heq)
          · exact .inl ⟨.inr hmem, heq⟩
          · cases heq
            exact .inl ⟨.inl rfl, rfl⟩
        · rintro (⟨rfl | hmem, heq⟩ | heq)
          · exact .inr rfl
          · exact .inl ⟨hmem, heq⟩
          · cases heq
      · rw [if_neg hname]
        constructor
        · rintro (⟨hmem, heq⟩ | heq)
          · exact .inl ⟨.inr hmem, heq⟩
          · exact .inr heq
        · rintro (⟨rfl | hmem, heq⟩ | heq)
          · exact absurd heq hname
          · exact .inl ⟨hmem, heq⟩
          · exact .inr heq

/-- One turn goes on exactly with a pool that has rolled to a hash of its own. -/
theorem convergenceLoop_cons {byName : BTreeMap StatefulSet}
    (hbyName : statefulSetsByName ∅ statefulSets = some byName) {p : KafkaNodePool}
    {hashes hashes' : List (Option String)} :
    convergenceLoop byName hashes (p :: pools) = some hashes' ↔
      (∃ hash, hash ≠ "" ∧ PoolRolled statefulSets hash p) ∧
        convergenceLoop byName (hashes.insert p.configHash?) pools = some hashes' := by
  have hlookup : ∀ {name : String} {sts : StatefulSet}, byName[name]? = some sts ↔
      sts ∈ statefulSets ∧ sts.name = name := by
    intro name sts
    rw [getElem?_statefulSetsByName hbyName]
    simp
  rw [convergenceLoop]
  constructor
  · intro h
    cases hhash : p.configHash? with
    | none => simp [hhash] at h
    | some hash =>
      simp only [hhash] at h
      split at h
      · cases h
      · rename_i hne
        cases hcluster : p.cluster? with
        | none => simp [hcluster] at h
        | some cluster =>
          simp only [hcluster] at h
          cases hsts : byName[cluster ++ "-" ++ p.name]? with
          | none => simp [hsts] at h
          | some sts =>
            simp only [hsts] at h
            obtain ⟨hmem, hname⟩ := hlookup.mp hsts
            split at h
            · cases h
            · rename_i hbelongs
              split at h
              · cases h
              · rename_i hrolled
                simp only [Bool.not_eq_true', Bool.not_eq_false] at hbelongs hrolled
                exact ⟨⟨hash, hne, hhash, cluster, hcluster, sts, hmem,
                  (belongsTo_iff hname).mp hbelongs, rolledTo_iff.mp hrolled⟩, h⟩
  · rintro ⟨⟨hash, hne, hhash, cluster, hcluster, sts, hmem, hset, hrolled⟩, h⟩
    have hsts := hlookup.mpr ⟨hmem, hset.1⟩
    rw [hhash] at h
    simp only [hhash, hcluster, hsts, hne, if_false, (belongsTo_iff hset.1).mpr hset,
      rolledTo_iff.mpr hrolled, Bool.not_true, Bool.false_eq_true]
    exact h

/-- The hashes that the loop has seen, as a set. -/
def seenHashes (hashes : List (Option String)) (pools : List KafkaNodePool) :
    List (Option String) :=
  pools.foldl (fun seen p => seen.insert p.configHash?) hashes

theorem convergenceLoop_eq_some {byName : BTreeMap StatefulSet}
    (hbyName : statefulSetsByName ∅ statefulSets = some byName)
    {hashes hashes' : List (Option String)} :
    convergenceLoop byName hashes pools = some hashes' ↔
      (∀ p ∈ pools, ∃ hash, hash ≠ "" ∧ PoolRolled statefulSets hash p) ∧
        hashes' = seenHashes hashes pools := by
  induction pools generalizing hashes with
  | nil => simp [convergenceLoop, seenHashes, eq_comm]
  | cons p ps ih =>
    rw [convergenceLoop_cons hbyName, ih, List.forall_mem_cons, and_assoc]
    rfl

theorem mem_seenHashes {hashes : List (Option String)} {h : Option String} :
    h ∈ seenHashes hashes pools ↔ h ∈ hashes ∨ ∃ p ∈ pools, p.configHash? = h := by
  induction pools generalizing hashes with
  | nil => simp [seenHashes]
  | cons p ps ih =>
    show h ∈ seenHashes (hashes.insert p.configHash?) ps ↔ _
    rw [ih, List.mem_insert_iff]
    simp only [List.mem_cons, exists_eq_or_imp, eq_comm (a := h)]
    tauto

theorem nodup_seenHashes {hashes : List (Option String)} (h : hashes.Nodup) :
    (seenHashes hashes pools).Nodup := by
  induction pools generalizing hashes with
  | nil => exact h
  | cons p ps ih => exact ih h.insert

/-- One hash in the set: the pools have one hash. -/
theorem length_seenHashes {hash : String} {p : KafkaNodePool} (hp : p ∈ pools)
    (hhash : p.configHash? = some hash) :
    (seenHashes [] pools).length = 1 ↔ ∀ q ∈ pools, q.configHash? = some hash := by
  have hmem : ∀ h, h ∈ seenHashes [] pools ↔ ∃ q ∈ pools, q.configHash? = h := by
    intro h
    simp [mem_seenHashes]
  constructor
  · intro hlength q hq
    obtain ⟨a, ha⟩ := List.length_eq_one_iff.mp hlength
    have hp' := (hmem _).mpr ⟨p, hp, rfl⟩
    have hq' := (hmem _).mpr ⟨q, hq, rfl⟩
    rw [ha, List.mem_singleton] at hp' hq'
    rw [hq', ← hp', hhash]
  · intro hall
    have hperm : (seenHashes [] pools).Perm [some hash] := by
      refine (List.perm_ext_iff_of_nodup (nodup_seenHashes List.nodup_nil)
        (List.nodup_singleton _)).mpr fun h => ?_
      rw [hmem, List.mem_singleton]
      constructor
      · rintro ⟨q, hq, rfl⟩
        exact hall q hq
      · rintro rfl
        exact ⟨p, hp, hhash⟩
    exact hperm.length_eq

/-! ## The result -/

theorem poolsConvergedLoop_iff :
    poolsConvergedLoop pools statefulSets = true ↔
      (statefulSets.map (·.name)).Nodup ∧
        (pools = [] ∨ ∃ hash, hash ≠ "" ∧ ∀ p ∈ pools, PoolRolled statefulSets hash p) := by
  have hnames := @statefulSetsByName_isSome statefulSets ∅
  simp only [Std.ExtTreeMap.getElem?_empty, implies_true, and_true] at hnames
  unfold poolsConvergedLoop
  cases hbyName : statefulSetsByName ∅ statefulSets with
  | none =>
    rw [hbyName] at hnames
    have hnot : ¬ (statefulSets.map (·.name)).Nodup := fun h => absurd (hnames.mpr h) (by decide)
    simp [hnot]
  | some byName =>
    rw [hbyName] at hnames
    have hnodup : (statefulSets.map (·.name)).Nodup := hnames.mp rfl
    simp only [hnodup, true_and]
    cases pools with
    | nil => simp [convergenceLoop]
    | cons p ps =>
      constructor
      · intro h
        right
        split at h
        · cases h
        · rename_i hashes hloop
          obtain ⟨hall, rfl⟩ := (convergenceLoop_eq_some hbyName).mp hloop
          obtain ⟨hash, hne, hhash, -⟩ := hall p List.mem_cons_self
          have hone : (seenHashes [] (p :: ps)).length = 1 := by simpa using h
          have hsame := (length_seenHashes List.mem_cons_self hhash).mp hone
          refine ⟨hash, hne, fun q hq => ?_⟩
          obtain ⟨hash', -, hrolled⟩ := hall q hq
          obtain rfl : hash' = hash := Option.some_inj.mp (hrolled.1.symm.trans (hsame q hq))
          exact hrolled
      · rintro (hnil | ⟨hash, hne, hall⟩)
        · cases hnil
        · have hloop : convergenceLoop byName [] (p :: ps) = some (seenHashes [] (p :: ps)) :=
            (convergenceLoop_eq_some hbyName).mpr ⟨fun q hq => ⟨hash, hne, hall q hq⟩, rfl⟩
          have hone := (length_seenHashes List.mem_cons_self (hall p List.mem_cons_self).1).mpr
            fun q hq => (hall q hq).1
          simp [hloop, hone]

theorem find?_name_iff (hnodup : (statefulSets.map (·.name)).Nodup) {name : String}
    {sts : StatefulSet} :
    statefulSets.find? (·.name = name) = some sts ↔ sts ∈ statefulSets ∧ sts.name = name := by
  constructor
  · intro h
    exact ⟨List.mem_of_find?_eq_some h, by simpa using List.find?_some h⟩
  · rintro ⟨hmem, hname⟩
    cases hfind : statefulSets.find? (·.name = name) with
    | none => exact absurd hname (by simpa using List.find?_eq_none.mp hfind sts hmem)
    | some other =>
      have hother : other.name = name := by simpa using List.find?_some hfind
      exact congrArg some (List.inj_on_of_nodup_map hnodup (List.mem_of_find?_eq_some hfind) hmem
        (hother.trans hname.symm))

theorem poolConverged_iff (hnodup : (statefulSets.map (·.name)).Nodup) {p : KafkaNodePool} :
    poolConverged statefulSets p = true ↔ ∃ hash, hash ≠ "" ∧ PoolRolled statefulSets hash p := by
  unfold poolConverged PoolRolled
  constructor
  · intro h
    split at h
    · rename_i hash cluster hhash hcluster
      simp only [Bool.and_eq_true, decide_eq_true_eq] at h
      obtain ⟨hne, h⟩ := h
      split at h
      · rename_i sts hfind
        obtain ⟨hmem, hname⟩ := (find?_name_iff hnodup).mp hfind
        obtain ⟨hbelongs, hrolled⟩ := Bool.and_eq_true_iff.mp h
        exact ⟨hash, hne, hhash, cluster, hcluster, sts, hmem, (belongsTo_iff hname).mp hbelongs,
          rolledTo_iff.mp hrolled⟩
      · cases h
    · cases h
  · rintro ⟨hash, hne, hhash, cluster, hcluster, sts, hmem, hset, hrolled⟩
    have hfind := (find?_name_iff hnodup).mpr ⟨hmem, hset.1⟩
    simp only [hhash, hcluster, hfind, (belongsTo_iff hset.1).mpr hset, rolledTo_iff.mpr hrolled]
    simpa using hne

/-- The check that the passes use is the loop. -/
theorem poolsConverged_eq_loop (pools : List KafkaNodePool) (statefulSets : List StatefulSet) :
    poolsConverged pools statefulSets = poolsConvergedLoop pools statefulSets := by
  rw [Bool.eq_iff_iff, poolsConvergedLoop_iff]
  simp only [poolsConverged, Bool.and_eq_true, decide_eq_true_eq, List.all_eq_true, and_assoc]
  refine and_congr_right fun hnodup => ?_
  simp only [poolConverged_iff hnodup]
  constructor
  · rintro ⟨hall, hsame⟩
    cases pools with
    | nil => exact .inl rfl
    | cons p ps =>
      obtain ⟨hash, hne, hrolled⟩ := hall p List.mem_cons_self
      refine .inr ⟨hash, hne, fun q hq => ?_⟩
      obtain ⟨hash', -, hrolled'⟩ := hall q hq
      have heq := (hsame q hq p List.mem_cons_self).trans hrolled.1
      obtain rfl : hash' = hash := Option.some_inj.mp (hrolled'.1.symm.trans heq)
      exact hrolled'
  · rintro (rfl | ⟨hash, hne, hall⟩)
    · simp
    · exact ⟨fun p hp => ⟨hash, hne, hall p hp⟩,
        fun p hp q hq => (hall p hp).1.trans (hall q hq).1.symm⟩

/-- The check says that the names of the StatefulSets differ and that all pools carry one
    hash, to which their StatefulSets have rolled; the order of the objects does not matter. -/
theorem poolsConverged_characterised (pools : List KafkaNodePool)
    (statefulSets : List StatefulSet) :
    (poolsConvergedLoop pools statefulSets = true ↔
      (statefulSets.map (·.name)).Nodup ∧
        (pools = [] ∨ ∃ hash, hash ≠ "" ∧ ∀ p ∈ pools, PoolRolled statefulSets hash p)) ∧
    ∀ pools' statefulSets', pools.Perm pools' → statefulSets.Perm statefulSets' →
      poolsConvergedLoop pools' statefulSets' = poolsConvergedLoop pools statefulSets := by
  refine ⟨poolsConvergedLoop_iff, fun pools' statefulSets' hpools hsets => ?_⟩
  have hrolled : ∀ hash p, PoolRolled statefulSets' hash p ↔ PoolRolled statefulSets hash p := by
    intro hash p
    simp only [PoolRolled, hsets.mem_iff]
  have hempty : pools' = [] ↔ pools = [] := by
    constructor
    · rintro rfl
      exact hpools.eq_nil
    · rintro rfl
      exact hpools.symm.eq_nil
  rw [Bool.eq_iff_iff, poolsConvergedLoop_iff, poolsConvergedLoop_iff, hempty,
    (hsets.map (·.name)).nodup_iff]
  simp only [hrolled, hpools.mem_iff]

/-! ## A rolled pool -/

namespace Sample

/-- The pool of the cluster `demo` with a config hash. -/
def stampedPool : KafkaNodePool := pool.withConfigHash "h"

end Sample

theorem stamped_reversed :
    poolsConvergedLoop [Sample.stampedPool] [{ Sample.rolledSet Sample.pool with name := "other" },
        Sample.rolledSet Sample.stampedPool] =
      poolsConvergedLoop [Sample.stampedPool] [Sample.rolledSet Sample.stampedPool,
        { Sample.rolledSet Sample.pool with name := "other" }] :=
  (poolsConverged_characterised [Sample.stampedPool] [Sample.rolledSet Sample.stampedPool,
    { Sample.rolledSet Sample.pool with name := "other" }]).2 _ _ (.refl _) (.swap _ _ _)

example : poolsConvergedLoop [Sample.stampedPool] [Sample.rolledSet Sample.stampedPool] = true := by
  decide

end Cluster
