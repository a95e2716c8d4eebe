-- SUMMARY: Which inputs of the config hash have the same text: the entries of the config, the hashed segments, and the data that hide a separator.
import KrabkaOperator.Base.Separated
import KrabkaOperator.Config.Hash
import KrabkaOperator.Kube.Fields

/-!
# Unambiguous hash inputs

The hashed text puts the entries of the config and the segments behind each other without
escaping their data. Two inputs are told apart when no datum has a separator at a place
where it is read as one. With such a datum there is another input with the same text.
-/

namespace Config

open Crd ClusterCa

/-! ## Entries of the config -/

abbrev Entry := String × String

/-- The text of the entries of a config. -/
def entriesText (entries : List Entry) : List Char :=
  entries.flatMap fun (k, v) => line (k.toList ++ ['='] ++ v.toList)

theorem configPart_some (m : Kube.BTreeMap String) : configPart (some m) = entriesText m.toList :=
  rfl

theorem configPart_eq (config : Option (Kube.BTreeMap String)) :
    configPart config = entriesText (config.getD ∅).toList := by
  cases config with
  | none => simp [configPart, optText, entriesText]
  | some m => rfl

/-- The key and the first line of the value fill one line of the text, and the value has no
    equals sign on a later line. -/
def Readable (e : Entry) : Prop :=
  '=' ∉ e.1.toList ∧ '\n' ∉ e.1.toList ∧ '=' ∉ e.2.toList.dropWhile (· ≠ '\n')

instance (e : Entry) : Decidable (Readable e) :=
  inferInstanceAs (Decidable (_ ∧ _ ∧ _))

theorem entriesText_cons (k v : String) (es : List Entry) :
    entriesText ((k, v) :: es) = k.toList ++ '=' :: (v.toList ++ '\n' :: entriesText es) := by
  simp [entriesText, line]

theorem entriesText_eq_nil {es : List Entry} : entriesText es = [] ↔ es = [] := by
  cases es with
  | nil => simp [entriesText]
  | cons e es =>
    obtain ⟨k, v⟩ := e
    simp [entriesText_cons]

theorem mem_dropWhile_of_mem_back {front back : List Char} (h : '=' ∈ back) :
    '=' ∈ (front ++ '\n' :: back).dropWhile (· ≠ '\n') := by
  induction front with
  | nil => simpa using h
  | cons c cs ih =>
    by_cases hc : c = '\n'
    · simp [hc, h]
    · simpa [hc] using ih

/-- A value that runs into the next entry has the equals sign of that entry. -/
theorem equals_mem_of_entriesText {es : List Entry} {mid rest : List Char}
    (hread : ∀ e ∈ es, Readable e) (h : entriesText es = mid ++ '\n' :: rest) : '=' ∈ mid := by
  cases es with
  | nil => simp [entriesText] at h
  | cons e es =>
    obtain ⟨k, v⟩ := e
    have hk : '\n' ∉ k.toList := (hread (k, v) List.mem_cons_self).2.1
    rw [entriesText_cons, List.append_eq_append_iff] at h
    rcases h with ⟨c, rfl, hback⟩ | ⟨c, hfront, hback⟩
    · rcases List.cons_eq_append_iff.mp hback with ⟨-, hcons⟩ | ⟨c', rfl, -⟩
      · simp at hcons
      · simp
    · rcases List.cons_eq_append_iff.mp hback with ⟨-, hcons⟩ | ⟨c', rfl, -⟩
      · simp at hcons
      · exact absurd (by simp [hfront]) hk

/-- Readable entries are known from their text. -/
theorem entriesText_injective {es es' : List Entry} (h : ∀ e ∈ es, Readable e)
    (h' : ∀ e ∈ es', Readable e) (heq : entriesText es = entriesText es') : es = es' := by
  induction es generalizing es' with
  | nil => exact (entriesText_eq_nil.mp (by rw [← heq]; rfl)).symm
  | cons e es ih =>
    obtain ⟨k, v⟩ := e
    cases es' with
    | nil => exact absurd (entriesText_eq_nil.mp heq) (List.cons_ne_nil _ _)
    | cons e' es' =>
      obtain ⟨k', v'⟩ := e'
      obtain ⟨he, hes⟩ := List.forall_mem_cons.mp h
      obtain ⟨he', hes'⟩ := List.forall_mem_cons.mp h'
      rw [entriesText_cons, entriesText_cons, Separated.append_cons_eq_append_cons] at heq
      rcases heq with ⟨hk, hv⟩ | ⟨mid, hk, -⟩ | ⟨mid, hk, -⟩
      · have hkey : k = k' := String.toList_inj.mp hk
        rcases Separated.append_cons_eq_append_cons.mp hv with
          ⟨hval, hrest⟩ | ⟨mid, hval, hrest⟩ | ⟨mid, hval, hrest⟩
        · rw [hkey, String.toList_inj.mp hval, ih hes hes' hrest]
        · have hmid : '=' ∈ mid := equals_mem_of_entriesText hes' hrest
          exact absurd (hval ▸ mem_dropWhile_of_mem_back hmid) he.2.2
        · have hmid : '=' ∈ mid := equals_mem_of_entriesText hes hrest
          exact absurd (hval ▸ mem_dropWhile_of_mem_back hmid) he'.2.2
      · exact absurd (by simp [hk]) he.1
      · exact absurd (by simp [hk]) he'.1

/-! ### One config alone

A text with two equals signs can be cut at each of them, and a text with one equals sign can
be cut in one way. -/

theorem entriesText_singleton (k v : String) :
    entriesText [(k, v)] = (k.toList ++ '=' :: v.toList) ++ ['\n'] := by
  simp [entriesText, line]

theorem count_entriesText_cons (k v : String) (es : List Entry) :
    (entriesText ((k, v) :: es)).count '=' =
      k.toList.count '=' + v.toList.count '=' + (entriesText es).count '=' + 1 := by
  simp only [entriesText_cons, List.count_append, List.count_cons_self]
  rw [List.count_cons_of_ne (by decide)]
  omega

theorem length_le_count_entriesText (es : List Entry) :
    es.length ≤ (entriesText es).count '=' := by
  induction es with
  | nil => simp
  | cons e es ih =>
    obtain ⟨k, v⟩ := e
    have hcount := count_entriesText_cons k v es
    simp only [List.length_cons]
    omega

theorem entriesText_ends {es : List Entry} (h : es ≠ []) :
    ∃ body, entriesText es = body ++ ['\n'] := by
  obtain ⟨front, ⟨k, v⟩, rfl⟩ := List.eq_nil_or_concat' es |>.resolve_left h
  refine ⟨entriesText front ++ (k.toList ++ '=' :: v.toList), ?_⟩
  rw [List.append_assoc, ← entriesText_singleton]
  simp [entriesText]

/-- A text with an equals sign and a newline at its end is the text of one entry. -/
theorem exists_entry_of_mem {body : List Char} (h : '=' ∈ body) :
    ∃ e, entriesText [e] = body ++ ['\n'] := by
  obtain ⟨k, v, rfl⟩ := List.append_of_mem h
  exact ⟨(String.ofList k, String.ofList v), by simp [entriesText_singleton]⟩

theorem exists_entries_of_count {body : List Char} (h : 2 ≤ body.count '=') :
    ∃ e e', e ≠ e' ∧ entriesText [e] = body ++ ['\n'] ∧ entriesText [e'] = body ++ ['\n'] := by
  have hmem : '=' ∈ body := List.count_pos_iff.mp (by omega)
  obtain ⟨k, rest, rfl, hk⟩ := List.eq_append_cons_of_mem hmem
  have hrest : '=' ∈ rest := by
    refine List.count_pos_iff.mp ?_
    simp only [List.count_append, List.count_cons_self, List.count_eq_zero.mpr hk] at h
    omega
  obtain ⟨mid, v, rfl⟩ := List.append_of_mem hrest
  refine ⟨(String.ofList k, String.ofList (mid ++ '=' :: v)),
    (String.ofList (k ++ '=' :: mid), String.ofList v), fun heq => ?_, ?_, ?_⟩
  · have hkey : k = k ++ '=' :: mid := by
      simpa using congrArg (fun e => e.1.toList) heq
    simp at hkey
  · simp [entriesText_singleton]
  · simp [entriesText_singleton]

/-- Entries with one equals sign at most are known from their text among all entries. -/
theorem entries_eq_of_count {es es' : List Entry} (hcount : (entriesText es).count '=' ≤ 1)
    (heq : entriesText es' = entriesText es) : es' = es := by
  have hlen := length_le_count_entriesText es
  have hlen' := length_le_count_entriesText es'
  cases es with
  | nil => exact entriesText_eq_nil.mp heq
  | cons e es =>
    obtain ⟨k, v⟩ := e
    cases es' with
    | nil => exact absurd (entriesText_eq_nil.mp heq.symm) (List.cons_ne_nil _ _)
    | cons e' es' =>
      obtain ⟨k', v'⟩ := e'
      simp only [List.length_cons] at hlen hlen'
      obtain rfl : es = [] := List.length_eq_zero_iff.mp (by omega)
      obtain rfl : es' = [] := List.length_eq_zero_iff.mp (by rw [heq] at hlen'; omega)
      have hk : '=' ∉ k.toList := by
        rw [← List.count_eq_zero]
        have := count_entriesText_cons k v []
        omega
      have hk' : '=' ∉ k'.toList := by
        rw [← List.count_eq_zero]
        have := count_entriesText_cons k' v' []
        rw [heq] at this
        omega
      rw [entriesText_singleton, entriesText_singleton, List.append_cancel_right_eq,
        Separated.append_cons_eq_append_cons] at heq
      rcases heq with ⟨hkey, hval⟩ | ⟨mid, hkey, -⟩ | ⟨mid, hkey, -⟩
      · rw [String.toList_inj.mp hkey, String.toList_inj.mp hval]
      · exact absurd (by simp [hkey]) hk'
      · exact absurd (by simp [hkey]) hk

theorem toList_ofList_singleton (e : Entry) : (Kube.BTreeMap.ofList [e]).toList = [e] := by
  obtain ⟨k, v⟩ := e
  have hlen : (Kube.BTreeMap.ofList [(k, v)]).toList.length = 1 := by
    simp [Kube.BTreeMap.ofList, Std.ExtTreeMap.size_insert]
  have hmem : (k, v) ∈ (Kube.BTreeMap.ofList [(k, v)]).toList := by
    rw [Std.ExtTreeMap.mem_toList_iff_getElem?_eq_some, Kube.BTreeMap.getElem?_ofList]
    simp
  obtain ⟨e, he⟩ := List.length_eq_one_iff.mp hlen
  rw [he, List.mem_singleton] at hmem
  rw [he, hmem]

theorem configPart_singleton (e : Entry) :
    configPart (some (Kube.BTreeMap.ofList [e])) = entriesText [e] := by
  rw [configPart_some, toList_ofList_singleton]

/-- A text with two equals signs or more is the text of two configs. -/
theorem exists_configs_of_count {config : Option (Kube.BTreeMap String)}
    (h : 2 ≤ (configPart config).count '=') :
    ∃ m m' : Kube.BTreeMap String, m ≠ m' ∧ configPart (some m) = configPart config ∧
      configPart (some m') = configPart config := by
  rw [configPart_eq] at h ⊢
  have hne : (config.getD ∅).toList ≠ [] := fun hnil => by simp [hnil, entriesText] at h
  obtain ⟨body, hbody⟩ := entriesText_ends hne
  rw [hbody] at h ⊢
  obtain ⟨e, e', hee, he, he'⟩ := @exists_entries_of_count body (by simpa using h)
  refine ⟨Kube.BTreeMap.ofList [e], Kube.BTreeMap.ofList [e'], fun hmap => hee ?_,
    by rw [configPart_singleton, he], by rw [configPart_singleton, he']⟩
  have := congrArg Std.ExtTreeMap.toList hmap
  simpa [toList_ofList_singleton] using this

/-- A config is known from its text among all configs just when the text has one equals sign
    at most: there is one entry at most, and it has no equals sign in it. -/
theorem config_known_iff (config : Option (Kube.BTreeMap String)) :
    (∀ config', configPart config' = configPart config → config'.getD ∅ = config.getD ∅) ↔
      (configPart config).count '=' ≤ 1 := by
  constructor
  · intro hknown
    by_contra hcount
    obtain ⟨m, m', hne, hm, hm'⟩ := @exists_configs_of_count config (by omega)
    exact hne ((hknown (some m) hm).trans (hknown (some m') hm').symm)
  · intro hcount config' heq
    rw [configPart_eq config, configPart_eq config'] at heq
    rw [configPart_eq] at hcount
    exact Std.ExtTreeMap.toList_inj.mp (entries_eq_of_count hcount heq)

/-! ## Segments of an input -/

/-- What the config hash is computed from. -/
structure Input where
  spec : KafkaSpec
  clusterCaCertPem : Option Pem := none
  metadataVersionPin : Option String := none
  loggingFilter : Option String := none

namespace Input

/-- The text that is hashed. -/
def text (t : Input) : List Char :=
  combinedConfigText t.spec t.clusterCaCertPem t.metadataVersionPin t.loggingFilter

/-- The config, where no config is an empty one. -/
def configMap (t : Input) : Kube.BTreeMap String := t.spec.config.getD ∅

def config (t : Input) : List Char := configPart t.spec.config

def intent (t : Input) : List Char :=
  canonicalListenerIntent t.spec.listeners t.spec.interBrokerListenerName

def metrics (t : Input) : List Char := metricsPart t.spec.metricsConfig

def ca (t : Input) : List Char := t.clusterCaCertPem.getD []

def metadata (t : Input) : List Char := optText t.metadataVersionPin String.toList

def logging (t : Input) : List Char := optText t.loggingFilter String.toList

def runtime (t : Input) : List Char := optText t.spec.brokerTuning renderRuntimeToml

/-- The segments behind the config. -/
def others (t : Input) : List (List Char) :=
  [t.intent, t.metrics, t.ca, t.metadata, t.logging, t.runtime]

def segments (t : Input) : List (List Char) := t.config :: t.others

/-- The text is the bare config. -/
def Collapsed (t : Input) : Prop := ∀ s ∈ t.others, s = []

/-- No segment has the unit separator in its data. -/
def Clean (t : Input) : Prop := ∀ s ∈ t.segments, '\x1F' ∉ s

instance (t : Input) : Decidable t.Collapsed := inferInstanceAs (Decidable (∀ s ∈ _, _))

instance (t : Input) : Decidable t.Clean := inferInstanceAs (Decidable (∀ s ∈ _, _))

/-- Two inputs have the same components, where an empty one and an absent one are the same. -/
structure SameAs (t t' : Input) : Prop where
  config : t.configMap = t'.configMap
  intent : t.intent = t'.intent
  metrics : t.spec.metricsConfig.isSome = t'.spec.metricsConfig.isSome
  ca : t.ca = t'.ca
  metadata : t.metadataVersionPin.getD "" = t'.metadataVersionPin.getD ""
  logging : t.loggingFilter.getD "" = t'.loggingFilter.getD ""
  runtime : t.runtime = t'.runtime

variable {t t' : Input}

theorem text_eq (t : Input) : t.text =
    if t.intent = [] ∧ t.metrics = [] ∧ t.ca = [] ∧ t.metadata = [] ∧ t.logging = [] ∧
      t.runtime = []
    then t.config
    else t.config ++ ['\x1F'] ++ t.intent ++ ['\x1F'] ++ t.metrics ++ ['\x1F'] ++ t.ca ++
      ['\x1F'] ++ t.metadata ++ ['\x1F'] ++ t.logging ++ ['\x1F'] ++ t.runtime :=
  rfl

theorem collapsed_iff : t.Collapsed ↔ t.intent = [] ∧ t.metrics = [] ∧ t.ca = [] ∧
    t.metadata = [] ∧ t.logging = [] ∧ t.runtime = [] := by
  simp [Collapsed, others]

theorem text_of_collapsed (h : t.Collapsed) : t.text = t.config := by
  rw [text_eq, if_pos (collapsed_iff.mp h)]

theorem text_of_not_collapsed (h : ¬ t.Collapsed) :
    t.text = ['\x1F'].intercalate t.segments := by
  rw [text_eq, if_neg fun hempty => h (collapsed_iff.mpr hempty)]
  simp [segments, others, List.intercalate_cons_cons]

theorem others_of_collapsed (h : t.Collapsed) : t.others = List.replicate 6 [] :=
  List.eq_replicate_iff.mpr ⟨rfl, h⟩

theorem text_congr (h : t.segments = t'.segments) : t.text = t'.text := by
  obtain ⟨hconfig, hothers⟩ := List.cons.inj h
  have hcollapsed : t.Collapsed ↔ t'.Collapsed := by simp only [Collapsed, hothers]
  by_cases ht : t.Collapsed
  · rw [text_of_collapsed ht, text_of_collapsed (hcollapsed.mp ht), hconfig]
  · rw [text_of_not_collapsed ht, text_of_not_collapsed fun ht' => ht (hcollapsed.mpr ht'), h]

theorem getD_eq_of_optText {o o' : Option String}
    (h : optText o String.toList = optText o' String.toList) : o.getD "" = o'.getD "" := by
  have htext (o : Option String) : optText o String.toList = (o.getD "").toList := by
    cases o <;> rfl
  rw [htext, htext] at h
  exact String.toList_inj.mp h

theorem metrics_eq_iff : t.metrics = t'.metrics ↔
    t.spec.metricsConfig.isSome = t'.spec.metricsConfig.isSome := by
  unfold metrics metricsPart
  cases t.spec.metricsConfig <;> cases t'.spec.metricsConfig <;> simp [optText]

/-- The segments behind the config say what the components are. -/
theorem sameAs_of_others (hconfig : t.configMap = t'.configMap) (h : t.others = t'.others) :
    SameAs t t' := by
  simp only [others, List.cons.injEq] at h
  obtain ⟨hintent, hmetrics, hca, hmetadata, hlogging, hruntime, -⟩ := h
  exact ⟨hconfig, hintent, metrics_eq_iff.mp hmetrics, hca, getD_eq_of_optText hmetadata,
    getD_eq_of_optText hlogging, hruntime⟩

/-- The runtime section is behind the last separator. -/
theorem text_eq_front (h : ¬ t.Collapsed) : ∃ front, t.text = front ++ '\x1F' :: t.runtime := by
  rw [text_of_not_collapsed h]
  refine ⟨t.config ++ ['\x1F'] ++ t.intent ++ ['\x1F'] ++ t.metrics ++ ['\x1F'] ++ t.ca ++
    ['\x1F'] ++ t.metadata ++ ['\x1F'] ++ t.logging, ?_⟩
  simp [segments, others, List.intercalate_cons_cons]

/-- A text that is put together from segments has a separator between each two of them. -/
theorem six_le_count (h : ¬ t.Collapsed) : 6 ≤ t.text.count '\x1F' := by
  have hcount := Separated.count_intercalate '\x1F' (List.cons_ne_nil t.config t.others)
  rw [text_of_not_collapsed h]
  simp only [segments, others, List.length_cons] at hcount ⊢
  omega

/-! ## Two inputs -/

/-- All entries of the config are readable. -/
def Legible (t : Input) : Prop := ∀ e ∈ t.configMap.toList, Readable e

instance (t : Input) : Decidable t.Legible := inferInstanceAs (Decidable (∀ e ∈ _, _))

/-- The segments differ in one place at most. -/
def OneApart (t t' : Input) : Prop :=
  ∃ front s s' back, t.segments = front ++ s :: back ∧ t'.segments = front ++ s' :: back

/-- No datum of the two inputs is read as a separator where the other one has a separator. -/
structure Separable (t t' : Input) : Prop where
  /-- A bare config is too short of unit separators to be read as segments. -/
  bare : t.Collapsed → ¬ t'.Collapsed → t.config.count '\x1F' < 6
  bare' : t'.Collapsed → ¬ t.Collapsed → t'.config.count '\x1F' < 6
  segments : ¬ t.Collapsed → ¬ t'.Collapsed → t.Clean ∨ t'.Clean ∨ OneApart t t'
  config : t.configMap = t'.configMap ∨ t.Legible ∧ t'.Legible

theorem segments_of_not_collapsed (ht : ¬ t.Collapsed) (ht' : ¬ t'.Collapsed)
    (h : t.Clean ∨ t'.Clean ∨ OneApart t t') (heq : t.text = t'.text) :
    t.segments = t'.segments := by
  rw [text_of_not_collapsed ht, text_of_not_collapsed ht'] at heq
  rcases h with h | h | ⟨front, s, s', back, hs, hs'⟩
  · have hlen : t.segments.length = t'.segments.length := rfl
    exact Separated.intercalate_inj_of_length hlen h heq
  · have hlen : t'.segments.length = t.segments.length := rfl
    exact (Separated.intercalate_inj_of_length hlen h heq.symm).symm
  · rw [hs, hs', Separated.intercalate_append_cons_inj] at heq
    rw [hs, hs', heq]

theorem segments_of_collapsed (ht : t.Collapsed) (ht' : t'.Collapsed) (heq : t.text = t'.text) :
    t.segments = t'.segments := by
  rw [text_of_collapsed ht, text_of_collapsed ht'] at heq
  rw [segments, segments, heq, others_of_collapsed ht, others_of_collapsed ht']

theorem text_ne_of_bare (ht : t.Collapsed) (ht' : ¬ t'.Collapsed)
    (h : t.config.count '\x1F' < 6) : t.text ≠ t'.text := by
  intro heq
  have hcount := six_le_count ht'
  rw [← heq, text_of_collapsed ht] at hcount
  omega

theorem configMap_of_legible (h : t.Legible) (h' : t'.Legible) (heq : t.config = t'.config) :
    t.configMap = t'.configMap := by
  rw [config, config, configPart_eq, configPart_eq] at heq
  exact Std.ExtTreeMap.toList_inj.mp (entriesText_injective h h' heq)

/-- Separable inputs with the same text have the same components. -/
theorem sameAs_of_text_eq (h : Separable t t') (heq : t.text = t'.text) : SameAs t t' := by
  have hsegments : t.segments = t'.segments := by
    by_cases ht : t.Collapsed
    · by_cases ht' : t'.Collapsed
      · exact segments_of_collapsed ht ht' heq
      · exact absurd heq (text_ne_of_bare ht ht' (h.bare ht ht'))
    · by_cases ht' : t'.Collapsed
      · exact absurd heq.symm (text_ne_of_bare ht' ht (h.bare' ht' ht))
      · exact segments_of_not_collapsed ht ht' (h.segments ht ht') heq
  obtain ⟨hconfig, hothers⟩ := List.cons.inj hsegments
  refine sameAs_of_others ?_ hothers
  rcases h.config with hmap | ⟨hread, hread'⟩
  · exact hmap
  · exact configMap_of_legible hread hread' hconfig

/-! ## One input among all -/

/-- No input with other components has the text of this one. -/
def Known (t : Input) : Prop := ∀ t' : Input, t'.text = t.text → SameAs t' t

/-- The config has one equals sign at most, there is no runtime section, and no unit separator
    is in the free texts. -/
structure Plain (t : Input) : Prop where
  config : t.config.count '=' ≤ 1
  runtime : t.runtime = []
  ca : '\x1F' ∉ t.ca
  metadata : '\x1F' ∉ t.metadata
  logging : '\x1F' ∉ t.logging

def withConfig (t : Input) (m : Kube.BTreeMap String) : Input :=
  { t with spec := { t.spec with config := some m } }

theorem text_withConfig {m : Kube.BTreeMap String} (h : configPart (some m) = t.config) :
    (t.withConfig m).text = t.text :=
  text_congr (congrArg (· :: t.others) h)

theorem Known.config (h : t.Known) : t.config.count '=' ≤ 1 := by
  by_contra hcount
  obtain ⟨m, m', hne, hm, hm'⟩ :=
    @exists_configs_of_count t.spec.config (Nat.lt_of_not_le hcount)
  have hmap : m = t.configMap := (h _ (text_withConfig hm)).config
  have hmap' : m' = t.configMap := (h _ (text_withConfig hm')).config
  exact hne (hmap.trans hmap'.symm)

theorem runtime_ends (h : t.runtime ≠ []) : ∃ body, '=' ∈ body ∧ t.runtime = body ++ ['\n'] := by
  unfold runtime at h ⊢
  cases htuning : t.spec.brokerTuning with
  | none => simp [htuning, optText] at h
  | some tuning =>
    simp only [htuning, optText, renderRuntimeToml] at h ⊢
    split at h
    · exact absurd rfl h
    · rename_i hvalues
      rw [if_neg hvalues]
      refine ⟨_, ?_, rfl⟩
      obtain ⟨f, fs, hfields⟩ := List.exists_cons_of_ne_nil
        (show tuning.fields ≠ [] from fun hnil => hvalues (by rw [hnil]; rfl))
      simp [hfields, line]

/-- The text of an input with a runtime section is also the text of a config alone. -/
theorem Known.runtime (h : t.Known) : t.runtime = [] := by
  by_contra hruntime
  obtain ⟨body, hmem, hbody⟩ := runtime_ends hruntime
  have hjoined : ¬ t.Collapsed := fun ht => hruntime (collapsed_iff.mp ht).2.2.2.2.2
  obtain ⟨front, hfront⟩ := text_eq_front hjoined
  obtain ⟨e, he⟩ := @exists_entry_of_mem (front ++ '\x1F' :: body) (by simp [hmem])
  let alone : Input := ⟨{ config := some (Kube.BTreeMap.ofList [e]) }, none, none, none⟩
  have hcollapsed : alone.Collapsed := collapsed_iff.mpr ⟨rfl, rfl, rfl, rfl, rfl, rfl⟩
  have htext : alone.text = t.text := by
    rw [text_of_collapsed hcollapsed, hfront, hbody, ← List.cons_append, ← List.append_assoc, ← he]
    exact configPart_singleton e
  exact hruntime (h alone htext).runtime.symm

def withTexts (t : Input) (ca metadata logging : List Char) : Input :=
  { t with
    clusterCaCertPem := some ca
    metadataVersionPin := some (String.ofList metadata)
    loggingFilter := some (String.ofList logging) }

/-- The three free texts can be cut at any separator between them. -/
theorem text_withTexts {ca metadata logging : List Char} (h : ¬ t.Collapsed)
    (heq : ca ++ '\x1F' :: (metadata ++ '\x1F' :: logging) =
      t.ca ++ '\x1F' :: (t.metadata ++ '\x1F' :: t.logging)) :
    (t.withTexts ca metadata logging).text = t.text := by
  have hsegments : (t.withTexts ca metadata logging).segments =
      [t.config, t.intent, t.metrics, ca, metadata, logging, t.runtime] := by
    simp [segments, others, withTexts, config, intent, metrics, Input.ca, Input.metadata,
      Input.logging, Input.runtime, optText]
  have hjoined : ¬ (t.withTexts ca metadata logging).Collapsed := by
    intro hcollapsed
    have hall : ∀ s ∈ (t.withTexts ca metadata logging).segments.tail, s = [] := hcollapsed
    simp only [hsegments, List.tail_cons, List.forall_mem_cons] at hall
    obtain ⟨hintent, hmetrics, hca, hmetadata, hlogging, hruntime, -⟩ := hall
    have hlen := congrArg List.length heq
    simp only [hca, hmetadata, hlogging, List.length_append, List.length_cons, List.length_nil]
      at hlen
    refine h (collapsed_iff.mpr ⟨hintent, hmetrics, ?_, ?_, ?_, hruntime⟩)
    · exact List.length_eq_zero_iff.mp (by omega)
    · exact List.length_eq_zero_iff.mp (by omega)
    · exact List.length_eq_zero_iff.mp (by omega)
  rw [text_of_not_collapsed hjoined, text_of_not_collapsed h, hsegments]
  simp only [segments, others, List.intercalate_cons_cons, List.intercalate_singleton]
  have := congrArg (· ++ '\x1F' :: t.runtime) heq
  simpa using this

theorem Known.not_mem_texts (h : t.Known) :
    '\x1F' ∉ t.ca ∧ '\x1F' ∉ t.metadata ∧ '\x1F' ∉ t.logging := by
  have hca (ca metadata logging : List Char) (hjoined : ¬ t.Collapsed)
      (heq : ca ++ '\x1F' :: (metadata ++ '\x1F' :: logging) =
        t.ca ++ '\x1F' :: (t.metadata ++ '\x1F' :: t.logging)) : ca = t.ca :=
    (h _ (text_withTexts hjoined heq)).ca
  have hjoined {s : List Char} (hs : s ∈ t.others) (hmem : '\x1F' ∈ s) : ¬ t.Collapsed :=
    fun ht => by simp [ht s hs] at hmem
  refine ⟨fun hmem => ?_, fun hmem => ?_, fun hmem => ?_⟩
  · obtain ⟨front, back, hsplit⟩ := List.append_of_mem hmem
    have := hca front back (t.metadata ++ '\x1F' :: t.logging)
      (hjoined (by simp [others]) hmem) (by simp [hsplit])
    simp [hsplit] at this
  · obtain ⟨front, back, hsplit⟩ := List.append_of_mem hmem
    have := hca (t.ca ++ '\x1F' :: front) back t.logging
      (hjoined (by simp [others]) hmem) (by simp [hsplit])
    simp at this
  · obtain ⟨front, back, hsplit⟩ := List.append_of_mem hmem
    have := hca (t.ca ++ '\x1F' :: t.metadata) front back
      (hjoined (by simp [others]) hmem) (by simp [hsplit])
    simp at this

theorem plain_of_known (h : t.Known) : t.Plain :=
  have ⟨hca, hmetadata, hlogging⟩ := h.not_mem_texts
  ⟨h.config, h.runtime, hca, hmetadata, hlogging⟩

theorem notMem_metrics (t : Input) : '\x1F' ∉ t.metrics := by
  unfold metrics metricsPart
  cases t.spec.metricsConfig with
  | none => exact List.not_mem_nil
  | some m => exact (by decide : '\x1F' ∉ "metrics=on".toList)

theorem clean_of_plain (h : t.Plain) (hconfig : '\x1F' ∉ t.config) (hintent : '\x1F' ∉ t.intent) :
    t.Clean := by
  simp only [Clean, segments, others, List.forall_mem_cons, h.runtime]
  exact ⟨hconfig, hintent, t.notMem_metrics, h.ca, h.metadata, h.logging, List.not_mem_nil,
    fun s hs => absurd hs List.not_mem_nil⟩

/-- A bare config does not end with a unit separator. -/
theorem joined_of_text_eq (ht : ¬ t.Collapsed) (hruntime : t.runtime = [])
    (heq : t'.text = t.text) : ¬ t'.Collapsed := by
  intro ht'
  obtain ⟨front, hfront⟩ := text_eq_front ht
  rw [hfront, hruntime, text_of_collapsed ht', config, configPart_eq] at heq
  have hne : (t'.spec.config.getD ∅).toList ≠ [] := by
    intro hnil
    rw [hnil] at heq
    exact List.append_ne_nil_of_right_ne_nil front (List.cons_ne_nil _ _) heq.symm
  obtain ⟨body, hbody⟩ := entriesText_ends hne
  rw [hbody] at heq
  exact absurd (List.append_inj_right' heq rfl) (by decide)

theorem known_of_plain (h : t.Plain) (hconfig : '\x1F' ∉ t.config)
    (hintent : '\x1F' ∉ t.intent) : t.Known := by
  intro t' heq
  have hclean := clean_of_plain h hconfig hintent
  have hsegments : t'.segments = t.segments := by
    by_cases ht : t.Collapsed
    · by_cases ht' : t'.Collapsed
      · exact segments_of_collapsed ht' ht heq
      · refine absurd heq.symm (text_ne_of_bare ht ht' ?_)
        rw [List.count_eq_zero.mpr hconfig]
        decide
    · exact segments_of_not_collapsed (joined_of_text_eq ht h.runtime heq) ht
        (.inr (.inl hclean)) heq
  obtain ⟨hparts, hothers⟩ := List.cons.inj hsegments
  exact sameAs_of_others ((config_known_iff t.spec.config).mpr h.config _ hparts) hothers

/-- Where no config and no listener has a unit separator, an input is known from its text just
    when it is plain. -/
theorem known_iff (hconfig : '\x1F' ∉ t.config) (hintent : '\x1F' ∉ t.intent) :
    t.Known ↔ t.Plain :=
  ⟨plain_of_known, fun h => known_of_plain h hconfig hintent⟩

/-! ## The hashed text

A change of the inputs changes the hashed text when no separator is in the way. One input
alone tells all others apart when it is plain, and that is all it takes where no config and
no listener has a unit separator. -/

theorem text_tells_apart (t t' : Input) :
    (Separable t t' → t.text = t'.text → SameAs t t') ∧
    ('\x1F' ∉ t.config → '\x1F' ∉ t.intent → (t.Known ↔ t.Plain)) :=
  ⟨sameAs_of_text_eq, known_iff⟩

/-- An input with a config alone. -/
def ofEntries (entries : List Entry) : Input where
  spec := { config := some (Kube.BTreeMap.ofList entries) }

/-- An input with a config and a tuning. -/
def tuned (entries : List Entry) (fields : List (String × String)) : Input where
  spec :=
    { config := some (Kube.BTreeMap.ofList entries)
      brokerTuning := some ⟨fields⟩ }

/-- A value of the config is changed together with the tuning, and a config with one entry is
    known from its text. -/
theorem text_tells_apart_changed :
    (tuned [("a", "1"), ("b", "x=y")] [("heartbeat_interval", "\"3s\"")]).text ≠
      (tuned [("a", "2"), ("b", "x=y")] [("heartbeat_interval", "\"4s\"")]).text ∧
    (ofEntries [("a", "1")]).Known := by
  refine ⟨fun heq => ?_, ?_⟩
  · have hseparable : Separable
        (tuned [("a", "1"), ("b", "x=y")] [("heartbeat_interval", "\"3s\"")])
        (tuned [("a", "2"), ("b", "x=y")] [("heartbeat_interval", "\"4s\"")]) :=
      { bare := fun h => absurd h (by decide)
        bare' := fun h => absurd h (by decide)
        segments := fun _ _ => .inl (by decide)
        config := .inr ⟨by decide, by decide⟩ }
    exact absurd ((text_tells_apart _ _).1 hseparable heq).runtime (by decide)
  · refine ((text_tells_apart _ (ofEntries [])).2 (by decide) (by decide)).mpr ?_
    exact ⟨by decide, by decide, by decide, by decide,
      by decide⟩

/-- A value that reads as the separators and a runtime section. -/
def tuningInValue : String :=
  "1\n\x1F\x1F\x1F\x1F\x1F\x1F[runtime]\nheartbeat_interval = \"3s\"\n"

/-- An equals sign moves between a key and its value, an entry moves into the value before it,
    and a tuning moves into a value. -/
theorem text_ambiguous :
    ((ofEntries [("k", "a=b")]).text = (ofEntries [("k=a", "b")]).text ∧
      ¬ SameAs (ofEntries [("k", "a=b")]) (ofEntries [("k=a", "b")])) ∧
    ((ofEntries [("a", "1"), ("b", "2")]).text = (ofEntries [("a", "1\nb=2")]).text ∧
      ¬ SameAs (ofEntries [("a", "1"), ("b", "2")]) (ofEntries [("a", "1\nb=2")])) ∧
    (tuned [("a", "1")] [("heartbeat_interval", "\"3s\"")]).text =
        (ofEntries [("a", tuningInValue)]).text ∧
      ¬ SameAs (tuned [("a", "1")] [("heartbeat_interval", "\"3s\"")])
        (ofEntries [("a", tuningInValue)]) := by
  refine ⟨⟨by decide, fun h => ?_⟩, ⟨by decide, fun h => ?_⟩, by decide,
    fun h => ?_⟩
  · exact absurd (congrArg (·["k"]?) h.config) (by decide)
  · exact absurd (congrArg (·["b"]?) h.config) (by decide)
  · exact absurd h.runtime (by decide)

end Input

end Config
