-- SUMMARY: Where the requests of the operator go: the host of an accepted endpoint, and the backslashes that change it.
import KrabkaOperator.Base.Url
import KrabkaOperator.Rebalance.Endpoint

/-!
# The guard of the endpoint

An endpoint is accepted for the host that a reader of its own finds in it. The HTTP client reads
the same text by the URL standard, where a backslash ends an authority. The two agree when no
backslash cuts the authority, or when what is before it is accepted too.
-/

namespace Rebalance

open Url (Host PortText PathText DotName afterLast)

/-! ## The request URL -/

def servicePath : List Char := "krabka.rebalancer.v1.Rebalancer".toList

/-- The URL of a call. Slashes at the end of the endpoint are dropped. -/
def requestUrl (endpoint method : List Char) : List Char :=
  endpoint.rdropWhile (· = '/') ++ '/' :: (servicePath ++ '/' :: method)

/-- A host is a name inside the cluster. -/
def Internal (host : Host) : Prop :=
  ∃ name, host = .domain name ∧ ∃ suffix ∈ clusterInternalSuffixes, suffix.toList <:+ name

/-! ## What is accepted -/

/-- The part of an endpoint between its scheme and its path. -/
def authorityOf (rest : List Char) : List Char := rest.takeWhile (· ∉ ['/', '?', '#'])

def isHttp (scheme : List Char) : Prop :=
  toAsciiLowercase scheme = "http".toList ∨ toAsciiLowercase scheme = "https".toList

/-- The checks of an authority. -/
def Accepted (authority : List Char) : Prop :=
  let host := hostOf (afterLast '@' authority)
  (afterLast '@' authority).head? ≠ some '[' ∧ host ≠ [] ∧
    ¬ ((host.splitOn '.').all fun seg => seg ≠ [] && seg.all isAsciiDigit) = true ∧
    ∃ suffix ∈ clusterInternalSuffixes, suffix.toList <:+ toAsciiLowercase host

theorem splitOnce_eq_some {pat s a b : List Char} (h : splitOnce pat s = some (a, b)) :
    s = a ++ pat ++ b := by
  obtain ⟨i, hi, heq⟩ := Option.map_eq_some_iff.mp h
  cases heq
  obtain ⟨t, ht⟩ := Text.find_prefix hi
  rw [← List.drop_drop, ← ht, List.drop_left, List.append_assoc, ht, List.take_append_drop]

/-- The part behind the user information. -/
theorem rsplitOnce_getD {c : Char} {s : List Char} :
    ((rsplitOnce c s).map (·.2)).getD s = afterLast c s := by
  unfold rsplitOnce
  dsimp only
  split
  · rename_i hlen
    have hall : s.reverse.takeWhile (· ≠ c) = s.reverse :=
      (List.takeWhile_prefix _).eq_of_length (by rw [hlen, List.length_reverse])
    rw [afterLast, hall, List.reverse_reverse]
    rfl
  · rfl

theorem validateEndpoint_eq_ok {fmt : Formats} {endpoint : List Char} :
    validateEndpoint fmt endpoint = .ok () ↔ ∃ scheme rest,
      splitOnce "://".toList endpoint = some (scheme, rest) ∧ isHttp scheme ∧
        Accepted (authorityOf rest) := by
  unfold validateEndpoint
  cases hsplit : splitOnce "://".toList endpoint with
  | none => simp
  | some parts =>
    obtain ⟨scheme, rest⟩ := parts
    have hcollapse : (∃ scheme' rest', some (scheme, rest) = some (scheme', rest') ∧
        isHttp scheme' ∧ Accepted (authorityOf rest')) ↔
          isHttp scheme ∧ Accepted (authorityOf rest) := by
      constructor
      · rintro ⟨_, _, heq, h⟩
        cases heq
        exact h
      · exact fun h => ⟨_, _, rfl, h⟩
    rw [hcollapse]
    dsimp only
    rw [rsplitOnce_getD]
    unfold Accepted
    rw [show rest.takeWhile (· ∉ ['/', '?', '#']) = authorityOf rest from rfl]
    generalize afterLast '@' (authorityOf rest) = hostPort
    split
    · rename_i hscheme
      refine iff_of_false nofun fun h => ?_
      rcases h.1 with h | h
      · exact hscheme.1 h
      · exact hscheme.2 h
    · rename_i hscheme
      have hhttp : isHttp scheme := by
        by_contra hnot
        exact hscheme ⟨fun h => hnot (Or.inl h), fun h => hnot (Or.inr h)⟩
      simp only [hhttp, true_and]
      split
      · exact iff_of_false nofun fun h => h.1 rfl
      · rename_i hbracket
        have hhead : hostPort.head? ≠ some '[' := by
          cases hostPort with
          | nil => exact nofun
          | cons c cs => exact fun h => hbracket cs (by rw [Option.some_inj.mp h])
        simp only [ne_eq, hhead, not_false_eq_true, true_and]
        split
        · rename_i hnil
          exact iff_of_false nofun fun h => h.1 hnil
        · rename_i hnil
          split
          · rename_i hnumeric
            exact iff_of_false nofun fun h => h.2.1 (by simpa using hnumeric)
          · rename_i hnumeric
            split
            · rename_i hsuffix
              simp only [List.any_eq_true, List.isSuffixOf_iff_suffix] at hsuffix
              exact iff_of_true rfl ⟨hnil, by simpa using hnumeric, hsuffix⟩
            · rename_i hsuffix
              simp only [List.any_eq_true, List.isSuffixOf_iff_suffix] at hsuffix
              exact iff_of_false nofun fun h => hsuffix h.2.2

/-! ## Host and port -/

theorem isAsciiDigit_eq : isAsciiDigit = Char.isDigit := rfl

theorem rsplitOnce_append {c : Char} {front back : List Char} (h : c ∉ back) :
    rsplitOnce c (front ++ c :: back) = some (front, back) := by
  have htail : (front ++ c :: back).reverse.takeWhile (· ≠ c) = back.reverse := by
    rw [List.reverse_append, List.reverse_cons, List.append_assoc, List.takeWhile_append_of_pos,
      List.singleton_append, List.takeWhile_cons_of_neg (by simp), List.append_nil]
    exact fun d hd => decide_eq_true fun heq => h (heq ▸ List.mem_reverse.mp hd)
  unfold rsplitOnce
  dsimp only
  rw [htail, if_neg (by simp; omega), List.reverse_reverse]
  congr 2
  rw [List.length_append, List.length_cons, List.length_reverse,
    show front.length + (back.length + 1) - back.length - 1 = front.length by omega,
    List.take_left]

theorem rsplitOnce_of_notMem {c : Char} {s : List Char} (h : c ∉ s) : rsplitOnce c s = none := by
  have hall : s.reverse.takeWhile (· ≠ c) = s.reverse := Url.takeWhile_eq_self fun d hd =>
    decide_eq_true fun heq => h (heq ▸ List.mem_reverse.mp hd)
  unfold rsplitOnce
  dsimp only
  rw [hall, if_pos List.length_reverse]

theorem rsplitOnce_eq_some {c : Char} {s a b : List Char} (h : rsplitOnce c s = some (a, b)) :
    s = a ++ c :: b := by
  by_cases hc : c ∈ s
  · obtain ⟨back, front, heq, hback⟩ := List.eq_append_cons_of_mem (List.mem_reverse.mpr hc)
    have hs : s = front.reverse ++ c :: back.reverse := by
      rw [← List.reverse_reverse s, heq, List.reverse_append, List.reverse_cons, List.append_assoc,
        List.singleton_append]
    rw [hs, rsplitOnce_append (by simpa using hback)] at h
    cases h
    exact hs
  · rw [rsplitOnce_of_notMem hc] at h
    cases h

theorem hostOf_append (hostPort : List Char) :
    ∃ port, hostPort = hostOf hostPort ++ port ∧ PortText port := by
  unfold hostOf
  split
  · rename_i h port hsplit
    split
    · rename_i hdigits
      refine ⟨':' :: port, rsplitOnce_eq_some hsplit, .some port ?_⟩
      exact List.all_eq_true.mp hdigits.2
    · exact ⟨[], (List.append_nil _).symm, .none⟩
  · exact ⟨[], (List.append_nil _).symm, .none⟩

theorem dotName_of_mem : ∀ suffix ∈ clusterInternalSuffixes, DotName suffix.toList := by
  simp only [clusterInternalSuffixes, List.forall_mem_cons]
  exact ⟨⟨by decide, Url.chars_of_all (by decide), by decide⟩,
    ⟨by decide, Url.chars_of_all (by decide), by decide⟩,
    ⟨by decide, Url.chars_of_all (by decide), by decide⟩, nofun⟩

/-! ## The host of the request -/

section Requests

variable {rules : Url.Rules}

/-- A text that the parser does not clean is what it was. -/
theorem stripped_labels {labels : List Char} (h : DotName (labels.map Char.toLower)) :
    Url.stripped labels = labels := by
  refine Url.stripped_eq_self fun c hc => ?_
  by_contra hblank
  have hlower := h.chars _ (List.mem_map_of_mem hc)
  simp only [Url.isTabOrNewline, Bool.not_eq_false, Bool.or_eq_true, decide_eq_true_eq] at hblank
  rcases hblank with (rfl | rfl) | rfl <;> exact absurd hlower (by decide)

theorem stripped_portText {port : List Char} (h : PortText port) : Url.stripped port = port := by
  refine Url.stripped_eq_self fun c hc => ?_
  by_contra hblank
  simp only [Url.isTabOrNewline, Bool.not_eq_false, Bool.or_eq_true, decide_eq_true_eq] at hblank
  cases h with
  | none => cases hc
  | some digits hd =>
    rcases List.mem_cons.mp hc with rfl | hc
    · exact absurd hblank (by decide)
    · rcases hblank with (rfl | rfl) | rfl <;> exact absurd (hd _ hc) (by decide)

/-- The parser finds a name inside the cluster in an accepted authority, if it finds a host. -/
theorem internal_of_accepted (hdoc : rules.Documented) {authority : List Char}
    (h : Accepted authority) {host : Host}
    (hhost : Url.parseAuthority rules (Url.stripped authority) = some host) : Internal host := by
  obtain ⟨-, -, -, suffix, hmem, hsuffix⟩ := h
  obtain ⟨port, hport, hportText⟩ := hostOf_append (afterLast '@' authority)
  obtain ⟨before, hbefore⟩ := hsuffix
  obtain ⟨text, labels, hlabels, -, hlower⟩ := List.map_eq_append_iff.mp hbefore.symm
  have hdot : DotName (labels.map Char.toLower) := hlower ▸ dotName_of_mem suffix hmem
  have hstripped : afterLast '@' (Url.stripped authority) =
      Url.stripped text ++ labels ++ port := by
    rw [Url.stripped, Url.afterLast_filter (by decide), hport, hlabels]
    change Url.stripped (text ++ labels ++ port) = _
    rw [Url.stripped_append, Url.stripped_append, stripped_labels hdot,
      stripped_portText hportText]
  obtain ⟨name, rfl, hname⟩ := Url.parseAuthority_labels hdoc hdot hportText hstripped hhost
  exact ⟨name, rfl, suffix, hmem, hlower ▸ hname⟩

theorem pathText_dropWhile (rest : List Char) :
    PathText (rest.dropWhile (· ∉ ['/', '?', '#'])) := by
  cases hpath : rest.dropWhile (· ∉ ['/', '?', '#']) with
  | nil => exact .none
  | cons c path =>
    have hnot := List.head?_dropWhile_not (· ∉ ['/', '?', '#']) rest
    rw [hpath] at hnot
    refine .some c path (by_contra fun hc => ?_)
    simp only [List.head?_cons, decide_eq_false_iff_not] at hnot
    exact hnot hc

/-- A request goes to the host of the part of the authority before a backslash. -/
theorem httpHost_requestUrl {endpoint scheme rest : List Char}
    (hsplit : splitOnce "://".toList endpoint = some (scheme, rest)) (hhttp : isHttp scheme)
    (hne : Url.unslashed (authorityOf rest) ≠ []) (method : List Char) :
    Url.httpHost rules (requestUrl endpoint method) =
      Url.parseAuthority rules (Url.stripped (Url.unslashed (authorityOf rest))) := by
  have hchars : ∀ c ∈ authorityOf rest, c ∉ ['/', '?', '#'] := fun c hc => by
    simpa using List.mem_takeWhile_imp hc
  obtain ⟨path, hpath, hurl⟩ : ∃ path, PathText path ∧ endpoint.rdropWhile (· = '/') =
      scheme ++ "://".toList ++ (authorityOf rest ++ path) := by
    obtain ⟨init, c, hlast⟩ : ∃ init c, authorityOf rest = init ++ [c] := by
      refine (List.eq_nil_or_concat' (authorityOf rest)).resolve_left fun hnil => hne ?_
      rw [hnil]
      rfl
    have hc : c ≠ '/' := fun heq =>
      hchars c (hlast ▸ List.mem_append_right _ List.mem_cons_self) (heq ▸ List.mem_cons_self)
    generalize hpath : rest.dropWhile (· ∉ ['/', '?', '#']) = path
    have hrest : rest = authorityOf rest ++ path := by
      rw [← hpath, authorityOf, List.takeWhile_append_dropWhile]
    refine ⟨path.rdropWhile (· = '/'), ?_, ?_⟩
    · exact (hpath ▸ pathText_dropWhile rest).shorten (List.rdropWhile_prefix _ _)
    · have hendpoint : endpoint = (scheme ++ "://".toList ++ init) ++ c :: path := by
        rw [splitOnce_eq_some hsplit, hrest, hlast]
        simp only [List.append_assoc, List.singleton_append]
      have hslash : (fun x : Char => Decidable.decide (x = '/')) c = false := decide_eq_false hc
      rw [hendpoint, @Url.rdropWhile_append_of_not Char (· = '/') c hslash, hlast]
      simp only [List.append_assoc, List.singleton_append]
  obtain ⟨path', hhost⟩ := @Url.httpHost_eq rules scheme (authorityOf rest ++ path)
    (servicePath ++ '/' :: method) hhttp
  rw [requestUrl, hurl, hhost, Url.authority_eq_unslashed hchars hpath hne]

end Requests

/-! ## Which endpoints are safe -/

/-- The endpoint with the part of its authority between its first backslashes and the next one,
and without its path. -/
def cutEndpoint (endpoint : List Char) : List Char :=
  match splitOnce "://".toList endpoint with
  | some (scheme, rest) => scheme ++ "://".toList ++ Url.unslashed (authorityOf rest)
  | none => endpoint

/-- No backslash cuts the authority, or the endpoint that it leaves is accepted too. -/
def Sheltered (fmt : Formats) (endpoint : List Char) : Prop :=
  (∀ scheme rest, splitOnce "://".toList endpoint = some (scheme, rest) →
    '\\' ∉ authorityOf rest) ∨
  validateEndpoint fmt (cutEndpoint endpoint) = .ok ()

/-- The requests of an accepted endpoint stay inside the cluster. -/
def GuardSound (rules : Url.Rules) (fmt : Formats) (endpoint : List Char) : Prop :=
  validateEndpoint fmt endpoint = .ok () → ∀ method host,
    Url.httpHost rules (requestUrl endpoint method) = some host → Internal host

/-- What a backslash leaves of the authority is a name of small letters. -/
def PlainCut (endpoint : List Char) : Prop :=
  ∃ scheme rest, splitOnce "://".toList endpoint = some (scheme, rest) ∧
    Url.unslashed (authorityOf rest) ≠ [] ∧
      ∀ c ∈ Url.unslashed (authorityOf rest), c = '.' ∨ c.isLower = true

section Safety

variable {rules : Url.Rules} {fmt : Formats} {endpoint : List Char}

theorem find_append_of_notMem {p : Char} {ps s : List Char} (h : p ∉ s) (t : List Char) :
    Text.find (p :: ps) (s ++ (p :: ps ++ t)) = some s.length := by
  induction s with
  | nil => exact Text.find_eq_zero_of_prefix (List.prefix_append _ _)
  | cons c s ih =>
    rw [List.mem_cons, not_or] at h
    rw [List.cons_append, Text.find_cons_of_ne h.1, ih h.2]
    rfl

theorem splitOnce_scheme {scheme : List Char} (h : isHttp scheme) (rest : List Char) :
    splitOnce "://".toList (scheme ++ "://".toList ++ rest) = some (scheme, rest) := by
  have hcolon : ':' ∉ scheme := fun hmem =>
    absurd (Url.scheme_chars h hmem) (by decide)
  have hfind : Text.find "://".toList (scheme ++ "://".toList ++ rest) = some scheme.length := by
    rw [List.append_assoc]
    exact find_append_of_notMem hcolon rest
  rw [splitOnce, hfind, Option.map_some, List.append_assoc, List.take_left, ← List.drop_drop,
    List.drop_left, List.drop_left]

theorem authorityOf_eq_self {s : List Char} (h : ∀ c ∈ s, c ∉ ['/', '?', '#']) :
    authorityOf s = s :=
  Url.takeWhile_eq_self fun c hc => decide_eq_true (h c hc)

theorem notMem_of_mem_unslashed {rest : List Char} :
    ∀ c ∈ Url.unslashed (authorityOf rest), c ∉ ['/', '?', '#'] := by
  intro c hc
  have hmem := List.dropWhile_subset _ (List.takeWhile_subset _ hc)
  simpa using List.mem_takeWhile_imp hmem

/-- The cut endpoint is accepted when its authority is. -/
theorem validateEndpoint_cutEndpoint {scheme rest : List Char}
    (hsplit : splitOnce "://".toList endpoint = some (scheme, rest)) (hhttp : isHttp scheme) :
    validateEndpoint fmt (cutEndpoint endpoint) = .ok () ↔
      Accepted (Url.unslashed (authorityOf rest)) := by
  have hcut : splitOnce "://".toList (cutEndpoint endpoint) =
      some (scheme, Url.unslashed (authorityOf rest)) := by
    rw [cutEndpoint, hsplit]
    exact splitOnce_scheme hhttp _
  rw [validateEndpoint_eq_ok, hcut]
  constructor
  · rintro ⟨_, _, heq, -, h⟩
    cases heq
    rwa [authorityOf_eq_self notMem_of_mem_unslashed] at h
  · intro h
    exact ⟨_, _, rfl, hhttp, (authorityOf_eq_self notMem_of_mem_unslashed).symm ▸ h⟩

theorem ne_nil_of_accepted {authority : List Char} (h : Accepted authority) :
    authority ≠ [] := by
  rintro rfl
  exact h.2.1 rfl

theorem unslashed_eq_dropWhile {authority : List Char} (h : '\\' ∉ authority) :
    Url.unslashed authority = authority.dropWhile Url.isBackslashOrBlank :=
  Url.takeWhile_eq_self fun _ hc =>
    decide_eq_true fun heq => h (heq ▸ List.dropWhile_subset _ hc)

/-- Without a backslash the parser reads the authority as it is. -/
theorem stripped_unslashed {authority : List Char} (h : '\\' ∉ authority) :
    Url.stripped (Url.unslashed authority) = Url.stripped authority := by
  have hblank : ∀ c ∈ authority.takeWhile Url.isBackslashOrBlank, Url.isTabOrNewline c = true := by
    intro c hc
    have hlead := List.mem_takeWhile_imp hc
    simp only [Url.isBackslashOrBlank, Bool.or_eq_true, decide_eq_true_eq] at hlead
    exact hlead.resolve_left fun heq => h (heq ▸ List.takeWhile_subset _ hc)
  have hnil : Url.stripped (authority.takeWhile Url.isBackslashOrBlank) = [] :=
    List.filter_eq_nil_iff.mpr fun _ hc => by simp [hblank _ hc]
  rw [unslashed_eq_dropWhile h, ← List.nil_append (Url.stripped (authority.dropWhile _)), ← hnil,
    ← Url.stripped_append, List.takeWhile_append_dropWhile]

theorem dot_mem_of_accepted {authority : List Char} (h : Accepted authority) :
    '.' ∈ authority := by
  obtain ⟨-, -, -, suffix, hmem, hsuffix⟩ := h
  have hdot := hsuffix.subset (List.mem_of_mem_head? (dotName_of_mem suffix hmem).dot)
  obtain ⟨c, hc, hlower⟩ := List.mem_map.mp hdot
  obtain ⟨port, hport, -⟩ := hostOf_append (afterLast '@' authority)
  have hhost : c ∈ afterLast '@' authority := hport ▸ List.mem_append_left _ hc
  exact Url.eq_dot_of_toLower hlower ▸ Url.afterLast_suffix.subset hhost

/-- Something is left of an accepted authority without a backslash. -/
theorem unslashed_ne_nil {authority : List Char} (h : Accepted authority)
    (hslash : '\\' ∉ authority) : Url.unslashed authority ≠ [] := by
  rw [unslashed_eq_dropWhile hslash]
  intro hnil
  exact absurd (List.dropWhile_eq_nil_iff.mp hnil '.' (dot_mem_of_accepted h)) (by decide)

/-- A sheltered endpoint is safe. -/
theorem guardSound_of_sheltered (hdoc : rules.Documented) (h : Sheltered fmt endpoint) :
    GuardSound rules fmt endpoint := by
  intro haccepted method host hhost
  obtain ⟨scheme, rest, hsplit, hhttp, hok⟩ := validateEndpoint_eq_ok.mp haccepted
  rcases h with hslash | hcut
  · have hslash := hslash scheme rest hsplit
    rw [httpHost_requestUrl hsplit hhttp (unslashed_ne_nil hok hslash),
      stripped_unslashed hslash] at hhost
    exact internal_of_accepted hdoc hok hhost
  · have hok' := (validateEndpoint_cutEndpoint hsplit hhttp).mp hcut
    rw [httpHost_requestUrl hsplit hhttp (ne_nil_of_accepted hok')] at hhost
    exact internal_of_accepted hdoc hok' hhost

/-- A name of small letters inside the cluster is accepted. -/
theorem accepted_of_plain {name : List Char} (hne : name ≠ [])
    (hplain : ∀ c ∈ name, c = '.' ∨ c.isLower = true)
    (hsuffix : ∃ suffix ∈ clusterInternalSuffixes, suffix.toList <:+ name) : Accepted name := by
  have hat : '@' ∉ name := fun hmem => absurd (hplain _ hmem) (by decide)
  have hcolon : ':' ∉ name := fun hmem => absurd (hplain _ hmem) (by decide)
  have hhost : hostOf name = name := by
    unfold hostOf
    rw [rsplitOnce_of_notMem hcolon]
  simp only [Accepted, Url.afterLast_of_notMem hat, hhost]
  refine ⟨fun hhead => absurd (hplain _ (List.mem_of_mem_head? hhead)) (by decide), hne, ?_, ?_⟩
  · intro hall
    obtain ⟨suffix, hmem, hsuffix⟩ := hsuffix
    have hdot := hsuffix.subset (List.mem_of_mem_head? (dotName_of_mem suffix hmem).dot)
    obtain ⟨front, back, heq, hfront⟩ := List.eq_append_cons_of_mem hdot
    rw [heq, List.splitOn_append_cons_self_of_not_mem hfront, List.all_cons] at hall
    simp only [ne_eq, Bool.and_eq_true, decide_eq_true_eq] at hall
    obtain ⟨c, hc⟩ := List.exists_mem_of_ne_nil front hall.1.1
    have hdigit : c.isDigit = true := List.all_eq_true.mp hall.1.2 c hc
    have hchar := hplain c (heq ▸ List.mem_append_left _ hc)
    have hlower : c.isLower = true := hchar.resolve_left fun hdot => hfront (hdot ▸ hc)
    rw [Url.isDigit_of_isLower hlower] at hdigit
    cases hdigit
  · obtain ⟨suffix, hmem, before, hbefore⟩ := hsuffix
    have hlower : ∀ suffix ∈ clusterInternalSuffixes,
        toAsciiLowercase suffix.toList = suffix.toList := by decide
    refine ⟨suffix, hmem, toAsciiLowercase before, ?_⟩
    have happend : toAsciiLowercase (before ++ suffix.toList) =
        toAsciiLowercase before ++ toAsciiLowercase suffix.toList := List.map_append
    rw [← hbefore, happend, hlower suffix hmem]

/-- A sheltered endpoint is safe. Where a backslash leaves a name of small letters, no other
endpoint is. -/
theorem guardSound_sheltered (hdoc : rules.Documented) :
    (Sheltered fmt endpoint → GuardSound rules fmt endpoint) ∧
    (validateEndpoint fmt endpoint = .ok () → PlainCut endpoint →
      (GuardSound rules fmt endpoint ↔ Sheltered fmt endpoint)) := by
  refine ⟨guardSound_of_sheltered hdoc, fun haccepted hplain =>
    ⟨fun hsound => ?_, guardSound_of_sheltered hdoc⟩⟩
  obtain ⟨scheme, rest, hsplit, hne, hchars⟩ := hplain
  obtain ⟨scheme', rest', hsplit', hhttp, -⟩ := validateEndpoint_eq_ok.mp haccepted
  cases hsplit.symm.trans hsplit'
  have hstripped : Url.stripped (Url.unslashed (authorityOf rest)) =
      Url.unslashed (authorityOf rest) := Url.stripped_eq_self fun c hc =>
    Url.isTabOrNewline_of_isLower (hchars c hc)
  have hhost := @httpHost_requestUrl rules _ _ _ hsplit hhttp hne []
  rw [hstripped, Url.parseAuthority_plain hdoc hne hchars] at hhost
  obtain ⟨name, heq, hsuffix⟩ := hsound haccepted [] _ hhost
  cases heq
  exact Or.inr ((validateEndpoint_cutEndpoint hsplit hhttp).mpr
    (accepted_of_plain hne hchars hsuffix))

end Safety

/-! ## A run of the parser -/

/-- Rules that know no letters beyond ASCII and no addresses. -/
def asciiRules : Url.Rules where
  decodeUtf8 bytes := bytes.map fun b =>
    if b.toNat < 0x80 then Char.ofNat b.toNat else Char.ofNat 0xFFFD
  domainToAscii text := if text.all (·.toNat < 0x80) then some (text.map Char.toLower) else none
  parseIpv4 _ := none
  parseIpv6 _ := none

theorem toLower_of_isLower {c : Char} (h : c = '.' ∨ c.isLower = true) : c.toLower = c := by
  rcases h with rfl | h
  · decide
  · have hrange := Url.isLower_iff_toNat.mp h
    refine Char.toNat_inj.mp ?_
    rw [Url.toNat_toLower, if_neg (by omega)]

theorem asciiRules_documented : asciiRules.Documented where
  decode_nil := rfl
  decode_ascii before after b h := by
    simp only [asciiRules, List.map_append, List.map_cons, if_pos h]
  keeps_colon text name h hcolon := by
    simp only [asciiRules, Option.ite_none_right_eq_some] at h
    cases h.2
    exact List.mem_map.mpr ⟨':', hcolon, by decide⟩
  keeps_labels text labels name h hlabels := by
    simp only [asciiRules, Option.ite_none_right_eq_some] at h
    cases h.2
    rw [List.map_append]
    exact List.suffix_append _ _
  keeps_plain name h := by
    have hascii : name.all (·.toNat < 0x80) = true :=
      List.all_eq_true.mpr fun c hc => decide_eq_true (Url.toNat_lt_of_isLower (h c hc))
    have hlower : name.map Char.toLower = name :=
      (List.map_congr_left fun c hc => toLower_of_isLower (h c hc)).trans (List.map_id _)
    simp only [asciiRules, hascii, if_true, hlower]

def asciiFormats : Formats := ⟨fun _ => true, fun _ => ""⟩

/-- An endpoint whose request leaves the cluster: a backslash ends the authority before the name
that was checked. -/
def foreignEndpoint : List Char := "http://evil.com\\demo.svc".toList

theorem splitOnce_foreignEndpoint : splitOnce "://".toList foreignEndpoint =
    some ("http".toList, "evil.com\\demo.svc".toList) := by decide

theorem foreignEndpoint_accepted : validateEndpoint asciiFormats foreignEndpoint = .ok () := by
  decide

theorem foreignEndpoint_host (method : List Char) :
    Url.httpHost asciiRules (requestUrl foreignEndpoint method) =
      some (.domain "evil.com".toList) :=
  httpHost_requestUrl splitOnce_foreignEndpoint (Or.inl (by decide)) (by decide) method

theorem foreignEndpoint_leaves : ¬ GuardSound asciiRules asciiFormats foreignEndpoint := by
  intro hsound
  obtain ⟨name, heq, suffix, hmem, hsuffix⟩ :=
    hsound foreignEndpoint_accepted [] _ (foreignEndpoint_host [])
  cases heq
  have hnone : ∀ suffix ∈ clusterInternalSuffixes, ¬ suffix.toList <:+ "evil.com".toList := by
    decide
  exact hnone suffix hmem hsuffix

/-- The foreign endpoint is accepted, and its requests go to another host. -/
theorem foreignEndpoint_not_sound :
    validateEndpoint asciiFormats foreignEndpoint = .ok () ∧
    (∀ method, Url.httpHost asciiRules (requestUrl foreignEndpoint method) =
      some (.domain "evil.com".toList)) ∧
    ¬ GuardSound asciiRules asciiFormats foreignEndpoint :=
  ⟨foreignEndpoint_accepted, foreignEndpoint_host, foreignEndpoint_leaves⟩

theorem guardSound_sheltered_demo :
    GuardSound asciiRules asciiFormats "http://u@demo.kafka.SVC:9300/".toList ∧
    ¬ Sheltered asciiFormats foreignEndpoint := by
  constructor
  · refine (guardSound_sheltered asciiRules_documented).1 (Or.inl fun scheme rest hsplit => ?_)
    have hparts : splitOnce "://".toList "http://u@demo.kafka.SVC:9300/".toList =
        some ("http".toList, "u@demo.kafka.SVC:9300/".toList) := by decide
    cases hparts.symm.trans hsplit
    decide
  · have hplain : PlainCut foreignEndpoint :=
      ⟨_, _, splitOnce_foreignEndpoint, by decide, Url.chars_of_all (by decide)⟩
    have hiff := (guardSound_sheltered asciiRules_documented).2 foreignEndpoint_accepted hplain
    exact fun hsheltered => foreignEndpoint_leaves (hiff.mpr hsheltered)

end Rebalance
