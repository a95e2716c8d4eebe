-- SUMMARY: When two sets of names have one digest: a DNS name with a line break can read as several names.
import KrabkaOperator.Base.Digest
import KrabkaOperator.Base.IpText
import KrabkaOperator.ClusterCa.SanDigest

/-!
# The text of the names of a leaf

Each name is a line of the text that is hashed. A DNS name with a line break is written on
several lines, and what is behind the break can be the line of another name.
-/

namespace ClusterCa

open Operator

/-! ## Lines -/

/-- A name without the end of its line. -/
def sanText : SubjectAltName → List Char
  | .dns name => "DNS:".toList ++ name.toList
  | .ip addr => "IP:".toList ++ addr.text

/-- An IPv6 address has eight segments. -/
def SubjectAltName.WellFormed : SubjectAltName → Prop
  | .dns _ => True
  | .ip addr => addr.WellFormed

def sanLines (names : List SubjectAltName) : List Char := names.flatMap sanLine

variable {s t : SubjectAltName} {a b names : List SubjectAltName}

theorem sanLine_eq (s : SubjectAltName) : sanLine s = sanText s ++ ['\n'] := by
  cases s with
  | dns name => rfl
  | ip addr => rfl

theorem sanLines_cons (s : SubjectAltName) (names : List SubjectAltName) :
    sanLines (s :: names) = sanText s ++ '\n' :: sanLines names := by
  rw [sanLines, List.flatMap_cons, sanLine_eq, List.append_assoc]
  rfl

theorem sanLines_append (a b : List SubjectAltName) :
    sanLines (a ++ b) = sanLines a ++ sanLines b := List.flatMap_append

/-- The line breaks in front of the names instead of behind them. -/
theorem breaks_append (names : List SubjectAltName) :
    (names.flatMap fun t => '\n' :: sanText t) ++ ['\n'] = '\n' :: sanLines names := by
  induction names with
  | nil => rfl
  | cons s names ih =>
    rw [List.flatMap_cons, List.append_assoc, ih, sanLines_cons, List.cons_append]

theorem sanText_dns_ne_ip {name : String} {addr : IpAddr} (x y : List Char) :
    sanText (.dns name) ++ x ≠ sanText (.ip addr) ++ y := by
  intro h
  have hhead := congrArg List.head? h
  exact absurd hhead (by simp [sanText])

theorem sanText_injective (hs : s.WellFormed) (ht : t.WellFormed) (h : sanText s = sanText t) :
    s = t := by
  cases s with
  | dns name =>
    cases t with
    | dns name' => rw [String.toList_inj.mp (List.append_cancel_left h)]
    | ip addr => exact absurd (congrArg (· ++ []) h) (sanText_dns_ne_ip [] [])
  | ip addr =>
    cases t with
    | dns name => exact absurd (congrArg (· ++ []) h.symm) (sanText_dns_ne_ip [] [])
    | ip addr' => rw [IpAddr.text_injective hs ht (List.append_cancel_left h)]

/-! ## Groups of names -/

/-- A group of names that is written like the name `s`: the name alone, or a DNS name that has
    the lines of the others behind a line break. -/
inductive Glued : List SubjectAltName → SubjectAltName → Prop
  | alone (s : SubjectAltName) : Glued [s] s
  | dns {first name : String} {rest : List SubjectAltName}
      (h : name.toList = first.toList ++ rest.flatMap fun t => '\n' :: sanText t) :
      Glued (.dns first :: rest) (.dns name)

/-- Two groupings of one list of names. -/
def Regrouped (a b : List SubjectAltName) : Prop :=
  ∃ gs gs', gs.flatten = gs'.flatten ∧ List.Forall₂ Glued gs a ∧ List.Forall₂ Glued gs' b

theorem Glued.sanLines {g : List SubjectAltName} (h : Glued g s) : sanLines g = sanLine s := by
  cases h with
  | alone s => exact List.append_nil _
  | @dns first name rest hname =>
    rw [sanLines_cons, ← breaks_append, sanLine_eq, sanText, sanText, hname]
    simp only [List.append_assoc]

theorem sanLines_flatten {gs : List (List SubjectAltName)} (h : List.Forall₂ Glued gs a) :
    sanLines gs.flatten = sanLines a := by
  induction h with
  | nil => rfl
  | cons hglued _ ih => rw [List.flatten_cons, sanLines_append, ih, hglued.sanLines]; rfl

theorem sanLines_of_regrouped (h : Regrouped a b) : sanLines a = sanLines b := by
  obtain ⟨gs, gs', hflatten, ha, hb⟩ := h
  rw [← sanLines_flatten ha, ← sanLines_flatten hb, hflatten]

/-! ## A common refinement -/

/-- A name, or the rest of a name behind a line break. -/
inductive Piece where
  | name (s : SubjectAltName)
  | rest (text : List Char)

def Piece.text : Piece → List Char
  | .name s => sanText s
  | .rest text => text

/-- A group of names with the lines of a piece. -/
def Piece.Covers (g : List SubjectAltName) : Piece → Prop
  | .name s => Glued g s
  | .rest text => sanLines g = text ++ ['\n']

def Piece.WellFormed : Piece → Prop
  | .name s => s.WellFormed
  | .rest _ => True

def Piece.IsName : Piece → Prop
  | .name _ => True
  | .rest _ => False

/-- Two lists that start with pieces are two groupings of one list of names. -/
def Aligned (x y : Piece) (a b : List SubjectAltName) : Prop :=
  ∃ g g' gs gs', g ++ gs.flatten = g' ++ gs'.flatten ∧ x.Covers g ∧ y.Covers g' ∧
    List.Forall₂ Glued gs a ∧ List.Forall₂ Glued gs' b

variable {x y : Piece}

theorem Aligned.symm (h : Aligned x y a b) : Aligned y x b a := by
  obtain ⟨g, g', gs, gs', hflatten, hx, hy, ha, hb⟩ := h
  exact ⟨g', g, gs', gs, hflatten.symm, hy, hx, hb, ha⟩

theorem Aligned.regrouped (h : Aligned (.name s) (.name t) a b) : Regrouped (s :: a) (t :: b) := by
  obtain ⟨g, g', gs, gs', hflatten, hx, hy, ha, hb⟩ := h
  exact ⟨g :: gs, g' :: gs', hflatten, .cons hx ha, .cons hy hb⟩

theorem Piece.covers_of_text (hs : s.WellFormed) (hx : x.WellFormed) (h : sanText s = x.text) :
    x.Covers [s] := by
  cases x with
  | name s' =>
    rw [sanText_injective hs hx h]
    exact .alone s'
  | rest text =>
    change sanLines [s] = text ++ ['\n']
    rw [sanLines_cons, h]
    rfl

/-- A name with a line break in its text is a DNS name. -/
theorem exists_dns_of_break {front back : List Char} (h : sanText s = front ++ '\n' :: back) :
    ∃ name first : String, s = .dns name ∧ front = sanText (.dns first) ∧
      name.toList = first.toList ++ '\n' :: back := by
  cases s with
  | ip addr =>
    have hmem : '\n' ∈ sanText (.ip addr) := by simp [h]
    rw [sanText, List.mem_append] at hmem
    rcases hmem with hmem | hmem
    · exact absurd hmem (by decide)
    · exact absurd hmem (IpAddr.newline_notMem_text addr)
  | dns name =>
    -- The line break is not in the four characters in front of the name.
    rcases List.append_eq_append_iff.mp h with ⟨first, hfront, hname⟩ | ⟨mid, hdns, hback⟩
    · refine ⟨name, String.ofList first, rfl, ?_, ?_⟩
      · exact hfront.trans (congrArg ("DNS:".toList ++ ·) String.toList_ofList.symm)
      · rw [String.toList_ofList, hname]
    · cases mid with
      | nil =>
        refine ⟨name, "", rfl, ?_, ?_⟩
        · rw [List.append_nil] at hdns
          rw [← hdns]
          rfl
        · exact hback.symm
      | cons c mid =>
        obtain ⟨rfl, -⟩ := List.cons.inj hback
        have hmem : '\n' ∈ "DNS:".toList := hdns ▸ by simp
        exact absurd hmem (by decide)

/-- The longer one of two pieces goes on with the rest of its text. -/
theorem aligned_of_longer {mid : List Char} (hstart : x.IsName ∨ y.IsName) (hy : y.WellFormed)
    (hlonger : x.text = y.text ++ '\n' :: mid)
    (hrest : Aligned (.rest mid) (.name t) a b) : Aligned x y a (t :: b) := by
  obtain ⟨g, g', gs, gs', hflatten, hcover, ht, ha, hb⟩ := hrest
  change sanLines g = mid ++ ['\n'] at hcover
  -- The text of the shorter piece is that of a name.
  have hfirst : ∃ s, sanText s = y.text ∧ y.Covers [s] ∧ x.Covers (s :: g) := by
    cases x with
    | name s =>
      obtain ⟨name, first, rfl, hfront, hname⟩ := exists_dns_of_break hlonger
      refine ⟨.dns first, hfront.symm, Piece.covers_of_text trivial hy hfront.symm, .dns ?_⟩
      have hbreaks := breaks_append g
      rw [hcover, ← List.cons_append] at hbreaks
      rw [hname, List.append_cancel_right hbreaks]
    | rest text =>
      cases y with
      | rest text' => exact absurd hstart (by simp [Piece.IsName])
      | name s =>
        refine ⟨s, rfl, .alone s, ?_⟩
        change sanLines (s :: g) = text ++ ['\n']
        rw [sanLines_cons, hcover, show text = sanText s ++ '\n' :: mid from hlonger]
        simp
  obtain ⟨s, -, hys, hxs⟩ := hfirst
  refine ⟨s :: g, [s], gs, g' :: gs', ?_, hxs, hys, ha, .cons ht hb⟩
  rw [List.cons_append, hflatten]
  rfl

/-- No lines are the lines of no names. -/
theorem sanLines_ne_nil (s : SubjectAltName) (names : List SubjectAltName) :
    sanLines (s :: names) ≠ [] := by
  rw [sanLines_cons]
  exact List.append_ne_nil_of_right_ne_nil _ (List.cons_ne_nil _ _)

theorem aligned_of_text (hstart : x.IsName ∨ y.IsName) (hx : x.WellFormed) (hy : y.WellFormed)
    (ha : ∀ s ∈ a, s.WellFormed) (hb : ∀ s ∈ b, s.WellFormed)
    (h : x.text ++ '\n' :: sanLines a = y.text ++ '\n' :: sanLines b) : Aligned x y a b := by
  induction hn : a.length + b.length using Nat.strongRecOn generalizing x y a b with
  | ind n ih =>
    subst hn
    rcases Separated.append_cons_eq_append_cons.mp h with
      ⟨htext, hlines⟩ | ⟨mid, hlonger, hlines⟩ | ⟨mid, hlonger, hlines⟩
    · -- The pieces end together, so both lists go on with a name or end.
      have hrest : Regrouped a b := by
        cases a with
        | nil =>
          cases b with
          | nil => exact ⟨[], [], rfl, .nil, .nil⟩
          | cons t b => exact absurd hlines.symm (sanLines_ne_nil t b)
        | cons s a =>
          cases b with
          | nil => exact absurd hlines (sanLines_ne_nil s a)
          | cons t b =>
            obtain ⟨hs, ha⟩ := List.forall_mem_cons.mp ha
            obtain ⟨ht, hb⟩ := List.forall_mem_cons.mp hb
            rw [sanLines_cons, sanLines_cons] at hlines
            refine Aligned.regrouped (ih _ ?_ (.inl trivial) hs ht ha hb hlines rfl)
            simp only [List.length_cons]
            omega
      have hname : ∃ s : SubjectAltName, s.WellFormed ∧ sanText s = x.text := by
        cases x with
        | name s => exact ⟨s, hx, rfl⟩
        | rest text =>
          cases y with
          | name s => exact ⟨s, hy, htext.symm⟩
          | rest text' => exact absurd hstart (by simp [Piece.IsName])
      obtain ⟨s, hs, hsx⟩ := hname
      obtain ⟨gs, gs', hflatten, hgs, hgs'⟩ := hrest
      exact ⟨[s], [s], gs, gs', by rw [hflatten], Piece.covers_of_text hs hx hsx,
        Piece.covers_of_text hs hy (hsx.trans htext), hgs, hgs'⟩
    · cases b with
      | nil => exact absurd hlines.symm (List.append_ne_nil_of_right_ne_nil _ (List.cons_ne_nil _ _))
      | cons t b =>
        obtain ⟨ht, hb⟩ := List.forall_mem_cons.mp hb
        rw [sanLines_cons] at hlines
        refine aligned_of_longer hstart hy hlonger
          (ih _ ?_ (.inr trivial) trivial ht ha hb hlines.symm rfl)
        simp only [List.length_cons]
        omega
    · cases a with
      | nil => exact absurd hlines.symm (List.append_ne_nil_of_right_ne_nil _ (List.cons_ne_nil _ _))
      | cons t a =>
        obtain ⟨ht, ha⟩ := List.forall_mem_cons.mp ha
        rw [sanLines_cons] at hlines
        refine (aligned_of_longer hstart.symm hx hlonger
          (ih _ ?_ (.inr trivial) trivial ht hb ha hlines.symm rfl)).symm
        simp only [List.length_cons]
        omega

/-- Lists of names have the same lines just when they are two groupings of one list. -/
theorem sanLines_eq_iff (ha : ∀ s ∈ a, s.WellFormed) (hb : ∀ s ∈ b, s.WellFormed) :
    sanLines a = sanLines b ↔ Regrouped a b := by
  refine ⟨fun h => ?_, sanLines_of_regrouped⟩
  cases a with
  | nil =>
    cases b with
    | nil => exact ⟨[], [], rfl, .nil, .nil⟩
    | cons t b => exact absurd h.symm (sanLines_ne_nil t b)
  | cons s a =>
    cases b with
    | nil => exact absurd h (sanLines_ne_nil s a)
    | cons t b =>
      obtain ⟨hs, ha⟩ := List.forall_mem_cons.mp ha
      obtain ⟨ht, hb⟩ := List.forall_mem_cons.mp hb
      rw [sanLines_cons, sanLines_cons] at h
      have haligned : Aligned (.name s) (.name t) a b :=
        aligned_of_text (.inl trivial) hs ht ha hb h
      exact haligned.regrouped

/-! ## Digests -/

section Digest

variable {lib : CaLib} {sans extras sans' extras' : List SubjectAltName}

/-- Two lists have the same names. -/
def SameMembers (a b : List SubjectAltName) : Prop := ∀ s, s ∈ a ↔ s ∈ b

/-- The names in the order in which they are hashed. -/
def CaLib.sorted (lib : CaLib) (names : List SubjectAltName) : List SubjectAltName :=
  Canonical.canonical (fun a b => lib.sanLe a b = true) names

/-- Two sets of names that are not the same, and are written in the same lines: a DNS name of one
    of them has line breaks with other names behind them. -/
def Confused (lib : CaLib) (a b : List SubjectAltName) : Prop :=
  ¬ SameMembers a b ∧ Regrouped (lib.sorted a) (lib.sorted b)

theorem computeSanDigest_eq (lib : CaLib) (sans extras : List SubjectAltName) :
    computeSanDigest lib sans extras = lib.sha256 (sanLines (lib.sorted (sans ++ extras))) := by
  simp only [computeSanDigest, CaLib.sorted, Canonical.canonical, sanLines]

theorem sanLines_sorted_eq_iff (ha : ∀ s ∈ a, s.WellFormed) (hb : ∀ s ∈ b, s.WellFormed) :
    sanLines (lib.sorted a) = sanLines (lib.sorted b) ↔ Regrouped (lib.sorted a) (lib.sorted b) :=
  sanLines_eq_iff (fun s hs => ha s (Canonical.mem_canonical.mp hs))
    (fun s hs => hb s (Canonical.mem_canonical.mp hs))

/-- A name without a line break is a group for itself. -/
theorem flatten_of_clean {gs : List (List SubjectAltName)} (h : List.Forall₂ Glued gs a)
    (hclean : ∀ name, .dns name ∈ a → '\n' ∉ name.toList) : gs.flatten = a := by
  induction h with
  | nil => rfl
  | @cons g s gs a hglued _ ih =>
    rw [List.flatten_cons, ih fun name hname => hclean name (List.mem_cons_of_mem _ hname)]
    cases hglued with
    | alone s => rfl
    | @dns first name rest hname =>
      have hbreak := hclean name List.mem_cons_self
      cases rest with
      | nil =>
        rw [List.flatMap_nil, List.append_nil] at hname
        rw [String.toList_inj.mp hname]
        rfl
      | cons t rest => exact absurd (by simp [hname]) hbreak

/-- Names without line breaks are not confused. -/
theorem not_confused_of_clean (ha : ∀ name, .dns name ∈ a → '\n' ∉ name.toList)
    (hb : ∀ name, .dns name ∈ b → '\n' ∉ name.toList) : ¬ Confused lib a b := by
  intro ⟨hne, gs, gs', hflatten, hgs, hgs'⟩
  rw [flatten_of_clean hgs fun name hname => ha name (Canonical.mem_canonical.mp hname),
    flatten_of_clean hgs' fun name hname => hb name (Canonical.mem_canonical.mp hname)] at hflatten
  refine hne fun s => ?_
  rw [← @Canonical.mem_canonical _ _ (fun a b => lib.sanLe a b = true) _ a, ← CaLib.sorted,
    hflatten, CaLib.sorted, Canonical.mem_canonical]

/-- The digests of two sets of names are the same just when the sets are, unless the sets are
    confused. -/
theorem sanDigest_tells_apart (lib : CaLib) (hsan : lib.SanOrdered)
    (hsha : Function.Injective lib.sha256) (sans extras sans' extras' : List SubjectAltName)
    (hnames : ∀ s ∈ sans ++ extras, s.WellFormed) (hnames' : ∀ s ∈ sans' ++ extras', s.WellFormed) :
    ((SameMembers (sans ++ extras) (sans' ++ extras') →
        computeSanDigest lib sans extras = computeSanDigest lib sans' extras') ∧
      (¬ SameMembers (sans ++ extras) (sans' ++ extras') →
        computeSanDigest lib sans extras ≠ computeSanDigest lib sans' extras')) ↔
    ¬ Confused lib (sans ++ extras) (sans' ++ extras') := by
  have hdigest : computeSanDigest lib sans extras = computeSanDigest lib sans' extras' ↔
      Regrouped (lib.sorted (sans ++ extras)) (lib.sorted (sans' ++ extras')) := by
    rw [computeSanDigest_eq, computeSanDigest_eq, hsha.eq_iff]
    exact sanLines_sorted_eq_iff hnames hnames'
  constructor
  · intro ⟨_, hdiffer⟩ ⟨hne, hregrouped⟩
    exact hdiffer hne (hdigest.mpr hregrouped)
  · intro hconfused
    exact ⟨computeSanDigest_congr hsan, fun hne heq => hconfused ⟨hne, hdigest.mp heq⟩⟩

end Digest

/-! ## Two names -/

namespace SampleLib

/-- The small instance, with SHA-256 for the lines of the two sets below. -/
def hashed : CaLib :=
  { named with
    sha256 := Digest.known id "DNS:a\nDNS:b\n".toList "DNS:a\nIP:10.0.0.9\n".toList
      "7a7f5f88752a5f8dbda19be4780c1485a3209c624e08c2bc898ffdddb089fac6"
      "e55ceecb7a2c62d7a023da501260f76846f3ab7ca53081219ff8dd3f05e5f670" }

theorem hashed_sanOrdered : hashed.SanOrdered where
  total := named_sanOrdered.total
  trans := named_sanOrdered.trans
  antisymm := named_sanOrdered.antisymm

theorem hashed_sha256_injective : Function.Injective hashed.sha256 :=
  Digest.known_injective Function.injective_id (by decide) (by decide) (by decide)

end SampleLib

section Names

open SampleLib (hashed hashed_sanOrdered hashed_sha256_injective)

/-- An address in the place of a name changes the digest. -/
theorem sanDigest_tells_apart_ip :
    (SameMembers [.dns "b", .dns "a"] [.dns "a", .ip (.v4 10 0 0 9)] →
        computeSanDigest hashed [.dns "b"] [.dns "a"] =
          computeSanDigest hashed [.dns "a", .ip (.v4 10 0 0 9)] []) ∧
      (¬ SameMembers [.dns "b", .dns "a"] [.dns "a", .ip (.v4 10 0 0 9)] →
        computeSanDigest hashed [.dns "b"] [.dns "a"] ≠
          computeSanDigest hashed [.dns "a", .ip (.v4 10 0 0 9)] []) := by
  refine (sanDigest_tells_apart hashed hashed_sanOrdered hashed_sha256_injective [.dns "b"]
    [.dns "a"] [.dns "a", .ip (.v4 10 0 0 9)] [] ?_ ?_).mpr (not_confused_of_clean ?_ ?_)
  · simp [SubjectAltName.WellFormed]
  · simp [SubjectAltName.WellFormed, IpAddr.WellFormed]
  · simp
  · simp

/-- Two names, and one name with a line break, have one digest. -/
theorem sanDigest_fails :
    computeSanDigest hashed [.dns "a", .dns "b"] [] = computeSanDigest hashed [.dns "a\nDNS:b"] [] ∧
      ¬ SameMembers [.dns "a", .dns "b"] [.dns "a\nDNS:b"] := by
  refine ⟨by decide, fun h => ?_⟩
  exact absurd ((h (.dns "b")).mp (by decide)) (by decide)

end Names

end ClusterCa
