-- SUMMARY: The heartbeat intervals and timeouts of a rendered file, and when the checks of the tuning speak about them.
import KrabkaOperator.Base.Decimal
import KrabkaOperator.Crd.BrokerTuning
import KrabkaOperator.Listeners.BrokerToml

/-!
# Heartbeats and timeouts

A broker takes a time from the `[runtime]` section when it is there, and from the head of
the file otherwise. The checks of the tuning fill a missing field with a default of their
own, so they can accept a file whose interval is not below its timeout, and refuse one whose
interval is.
-/

namespace Tuning

open Listeners Config

/-! ## Times at the head of the file -/

/-- A text like `3s` or `500ms`, in milliseconds. -/
def readMillis (text : String) : Option Int :=
  match text.toList.reverse with
  | 's' :: 'm' :: digits => (Decimal.parseDigits digits.reverse).map fun n : Nat => n
  | 's' :: digits => (Decimal.parseDigits digits.reverse).map fun n : Nat => n * 1000
  | _ => none

/-- The times that every file has at its head. -/
def headerTimes : List (String × String) :=
  [(heartbeatInterval.name, "500ms"), (heartbeatTimeout.name, "3s"),
    ("replica_lag_time_max", "2s"), (controllerElectionTimeout.name, "500ms"),
    (controllerHeartbeatInterval.name, "100ms")]

theorem renderBrokerHeader_times {id : Int} {interBroker : String} {tls : Option BrokerTlsRender}
    {voters : List String} {server : String} :
    ∃ rest, renderBrokerHeader id interBroker tls voters server =
      bareLine "broker_id" (intText id) ++ textLine "log_dir" "/var/lib/krabka/data" ++
        headerTimes.flatMap (fun (name, text) => textLine name text) ++ rest := by
  refine ⟨textLine "inter_broker_listener_name" interBroker ++
    optText tls (fun tls => textLine "controller_listener_protocol" tls.controllerListenerProtocol) ++
    (if voters = [] then [] else bareLine "controller_quorum_voters" (tomlStringArray voters)) ++
    (if server = "" then [] else textLine "controller_server_name" server) ++ ['\n'], ?_⟩
  simp only [renderBrokerHeader, headerTimes, List.flatMap_cons, List.flatMap_nil,
    List.append_assoc, List.append_nil, heartbeatInterval, heartbeatTimeout,
    controllerElectionTimeout, controllerHeartbeatInterval]

def headerMillis (f : MeasureField) : Option Int := headerTimes.lookup f.name >>= readMillis

/-- The time in force: the one of the `[runtime]` section, or the one at the head. -/
def effective (t : TypedTuning) (f : MeasureField) : Option Measure :=
  t.measure f <|> (headerMillis f).map millis

/-! ## An interval and its timeout -/

/-- An interval, its timeout, and their values in milliseconds where they are not set: the ones
of the check, and the ones at the head of the file. -/
structure Beat where
  interval : MeasureField
  timeout : MeasureField
  checkedInterval : Int
  checkedTimeout : Int
  headInterval : Int
  headTimeout : Int

def brokerBeat : Beat := ⟨heartbeatInterval, heartbeatTimeout, 3000, 9000, 500, 3000⟩

def controllerBeat : Beat :=
  ⟨controllerHeartbeatInterval, controllerElectionTimeout, 500, 5000, 100, 500⟩

namespace Beat

def check (b : Beat) (t : TypedTuning) : Check :=
  orderedLt t b.interval (millis b.checkedInterval) b.timeout (millis b.checkedTimeout)

/-- The interval in force is below the timeout in force. -/
def Kept (b : Beat) (t : TypedTuning) : Prop :=
  ∃ interval ∈ effective t b.interval, ∃ timeout ∈ effective t b.timeout, interval < timeout

/-- Only the interval is set, from the timeout at the head up to below the one of the check. -/
def TooLong (b : Beat) (t : TypedTuning) : Prop :=
  t.measure b.timeout = none ∧ ∃ v ∈ t.measure b.interval,
    millis b.headTimeout ≤ v ∧ v < millis b.checkedTimeout

/-- Only the timeout is set, above the interval at the head and not above the one of the check. -/
def TooShort (b : Beat) (t : TypedTuning) : Prop :=
  t.measure b.interval = none ∧ ∃ v ∈ t.measure b.timeout,
    millis b.headInterval < v ∧ v ≤ millis b.checkedInterval

/-- The defaults of a beat agree with the file, and are in the order in which they occur. -/
structure Ordered (b : Beat) : Prop where
  interval : headerMillis b.interval = some b.headInterval
  timeout : headerMillis b.timeout = some b.headTimeout
  head : b.headInterval < b.headTimeout
  checked : b.checkedInterval < b.checkedTimeout
  between : b.headInterval < b.checkedInterval
  below : b.headTimeout < b.checkedTimeout

end Beat

theorem brokerBeat_ordered : brokerBeat.Ordered :=
  ⟨by decide, by decide, by decide, by decide, by decide, by decide⟩

theorem controllerBeat_ordered : controllerBeat.Ordered :=
  ⟨by decide, by decide, by decide, by decide, by decide, by decide⟩

section Effective

variable {t : TypedTuning} {f : MeasureField} {v : Measure} {n : Int}

theorem effective_of_set (hset : t.measure f = some v) : effective t f = some v := by
  rw [effective, hset]
  rfl

/-- A time that is set has its line in the `[runtime]` section. -/
theorem mem_runtimeFields {lib : Lib} (hf : f.field ∈ table) (hset : t.measure f = some v) :
    (f.name, lib.tomlString (lib.human f.kind v)) ∈ (runtimeFields lib t).fields := by
  refine List.mem_filterMap.mpr ⟨f.field, hf, ?_⟩
  rw [show t f.field = some v from hset]
  rfl

theorem effective_of_unset (hset : t.measure f = none) (hhead : headerMillis f = some n) :
    effective t f = some (millis n) := by
  rw [effective, hset, hhead]
  rfl

end Effective

namespace Beat

variable {b : Beat} {t : TypedTuning}

theorem check_eq_ok : b.check t = .ok () ↔
    ¬ (t.measure b.timeout).getD (millis b.checkedTimeout) ≤
      (t.measure b.interval).getD (millis b.checkedInterval) :=
  ensure_eq_ok

theorem kept_iff {interval timeout : Measure} (hi : effective t b.interval = some interval)
    (ht : effective t b.timeout = some timeout) : b.Kept t ↔ interval < timeout := by
  simp only [Kept, hi, ht, Option.mem_some_iff, exists_eq_left']

/-- The values of a beat that are set are finite. -/
def Finite (b : Beat) (t : TypedTuning) : Prop :=
  (∀ v ∈ t.measure b.interval, v ≠ .nonFinite) ∧ ∀ v ∈ t.measure b.timeout, v ≠ .nonFinite

/-- A beat that passes its check is kept, unless its interval is too long. -/
theorem kept_iff_of_check (h : b.Ordered) (hfin : b.Finite t) (hok : b.check t = .ok ()) :
    b.Kept t ↔ ¬ b.TooLong t := by
  rw [check_eq_ok] at hok
  cases hi : t.measure b.interval with
  | none =>
    have hlong : ¬ b.TooLong t := fun ⟨_, v, hv, _⟩ => by simp [hi] at hv
    have hei := effective_of_unset hi h.interval
    refine iff_of_true ?_ hlong
    cases ht : t.measure b.timeout with
    | none =>
      rw [kept_iff hei (effective_of_unset ht h.timeout), millis_lt_millis]
      exact h.head
    | some w =>
      simp only [hi, ht, Option.getD_some, Option.getD_none] at hok
      have hlt := (Measure.not_le (hfin.2 w ht) millis_ne_nonFinite).mp hok
      rw [kept_iff hei (effective_of_set ht)]
      exact Measure.lt_of_lt_of_le (millis_lt_millis.mpr h.between) (Measure.le_of_lt hlt)
  | some v =>
    have hei := effective_of_set hi
    cases ht : t.measure b.timeout with
    | none =>
      simp only [hi, ht, Option.getD_some, Option.getD_none] at hok
      have hlt := (Measure.not_le millis_ne_nonFinite (hfin.1 v hi)).mp hok
      rw [kept_iff hei (effective_of_unset ht h.timeout)]
      simp only [TooLong, ht, hi, Option.mem_some_iff, exists_eq_left', true_and, hlt, and_true]
      exact (Measure.not_le millis_ne_nonFinite (hfin.1 v hi)).symm
    | some w =>
      simp only [hi, ht, Option.getD_some] at hok
      have hlt := (Measure.not_le (hfin.2 w ht) (hfin.1 v hi)).mp hok
      rw [kept_iff hei (effective_of_set ht)]
      exact iff_of_true hlt fun ⟨hnone, _⟩ => by simp [ht] at hnone

/-- A beat that is kept fails its check only when its timeout is too short for the check. -/
theorem check_iff_of_kept (h : b.Ordered) (hkept : b.Kept t) :
    b.check t = .ok () ↔ ¬ b.TooShort t := by
  rw [check_eq_ok, not_iff_not]
  cases hi : t.measure b.interval with
  | none =>
    have hei := effective_of_unset hi h.interval
    cases ht : t.measure b.timeout with
    | none =>
      refine iff_of_false ?_ fun ⟨_, v, hv, _⟩ => by simp [ht] at hv
      exact (Measure.not_le millis_ne_nonFinite millis_ne_nonFinite).mpr
        (millis_lt_millis.mpr h.checked)
    | some w =>
      have hlt := (kept_iff hei (effective_of_set ht)).mp hkept
      simp only [TooShort, ht, hi, Option.mem_some_iff, exists_eq_left', true_and, hlt,
        Option.getD_some, Option.getD_none]
  | some v =>
    have hei := effective_of_set hi
    have hshort : ¬ b.TooShort t := fun ⟨hnone, _⟩ => by simp [hi] at hnone
    cases ht : t.measure b.timeout with
    | none =>
      have hlt := (kept_iff hei (effective_of_unset ht h.timeout)).mp hkept
      have hfin := Measure.ne_nonFinite_of_lt hlt
      refine iff_of_false ?_ hshort
      exact (Measure.not_le millis_ne_nonFinite hfin.1).mpr (Measure.lt_of_lt_of_le hlt
        (Measure.le_of_lt (millis_lt_millis.mpr h.below)))
    | some w =>
      have hlt := (kept_iff hei (effective_of_set ht)).mp hkept
      have hfin := Measure.ne_nonFinite_of_lt hlt
      exact iff_of_false ((Measure.not_le hfin.2 hfin.1).mpr hlt) hshort

theorem kept_of_tooShort (h : b.Ordered) (hshort : b.TooShort t) : b.Kept t := by
  obtain ⟨hi, w, ht, hlt, -⟩ := hshort
  exact (kept_iff (effective_of_unset hi h.interval) (effective_of_set ht)).mpr hlt

theorem check_of_tooLong (hlong : b.TooLong t) : b.check t = .ok () := by
  obtain ⟨ht, v, hi, -, hlt⟩ := hlong
  have hfin := Measure.ne_nonFinite_of_lt hlt
  rw [check_eq_ok, ht, Option.mem_def.mp hi]
  exact (Measure.not_le hfin.2 hfin.1).mpr hlt

end Beat

/-! ## The checks of a tuning -/

variable (lib : Lib)

/-- What is checked before the beats. -/
def earlierChecks (t : TypedTuning) : Check := do
  validateFields lib t
  validateStrings lib t
  earlierRelations t

/-- A tuning is refused for a beat. -/
def RefusedFor (t : TypedTuning) (b : Beat) : Prop :=
  ∃ message, validate lib t = .error (.relation b.interval.name b.timeout.name message)

/-- Both beats of an accepted tuning are kept, and a tuning that keeps both is not refused for
one of them. -/
def LivenessKept (t : TypedTuning) : Prop :=
  (validate lib t = .ok () → brokerBeat.Kept t ∧ controllerBeat.Kept t) ∧
  (brokerBeat.Kept t ∧ controllerBeat.Kept t →
    ¬ RefusedFor lib t brokerBeat ∧ ¬ RefusedFor lib t controllerBeat)

/-- In a tuning whose other checks do not already speak against it, a beat is not set by half
in a way that the two kinds of defaults tell apart. -/
def DefaultsFit (t : TypedTuning) (b other : Beat) : Prop :=
  earlierChecks lib t = .ok () →
    (laterRelations lib t = .ok () → other.check t = .ok () → ¬ b.TooLong t) ∧
    (other.Kept t → ¬ b.TooShort t)

section Checks

variable {lib : Lib} {t : TypedTuning} {b : Beat}

theorem validate_eq : validate lib t = (do
    earlierChecks lib t
    brokerBeat.check t
    controllerBeat.check t
    laterRelations lib t) := by
  simp only [validate, earlierChecks, validateRelations, bind_assoc]
  rfl

theorem validate_eq_ok : validate lib t = .ok () ↔ earlierChecks lib t = .ok () ∧
    brokerBeat.check t = .ok () ∧ controllerBeat.check t = .ok () ∧
      laterRelations lib t = .ok () := by
  simp only [validate_eq, Checks.then_eq_ok]

theorem finite_of_earlierChecks (hok : earlierChecks lib t = .ok ())
    (hi : b.interval.field ∈ table ∧ b.interval.kind = .time)
    (ht : b.timeout.field ∈ table ∧ b.timeout.kind = .time) : b.Finite t := by
  obtain ⟨hfields, -⟩ := Checks.then_eq_ok.mp hok
  exact ⟨fun v hv => finite_of_fields hfields hi.1 hi.2 hv,
    fun v hv => finite_of_fields hfields ht.1 ht.2 hv⟩

theorem brokerBeat_finite (hok : earlierChecks lib t = .ok ()) : brokerBeat.Finite t :=
  finite_of_earlierChecks hok ⟨by decide, rfl⟩ ⟨by decide, rfl⟩

theorem controllerBeat_finite (hok : earlierChecks lib t = .ok ()) : controllerBeat.Finite t :=
  finite_of_earlierChecks hok ⟨by decide, rfl⟩ ⟨by decide, rfl⟩

theorem check_eq_error {e : TuningError} : b.check t = .error e ↔ ¬ b.check t = .ok () ∧
    e = .relation b.interval.name b.timeout.name "left value must be below right value" := by
  simp only [Beat.check, orderedLt, ensure_eq_error, ensure_eq_ok]

theorem blamesOnly_earlierChecks : BlamesOnly (earlierChecks lib t) earlierPairs :=
  blamesOnly_fields.mono.bind (blamesOnly_strings.mono.bind blamesOnly_earlier)

/-- No other check speaks about the fields of a beat. -/
theorem beat_notMem_pairs : ∀ b ∈ [brokerBeat, controllerBeat],
    (b.interval.name, b.timeout.name) ∉ earlierPairs ∧
      (b.interval.name, b.timeout.name) ∉ laterPairs := by
  simp only [List.forall_mem_cons]
  exact ⟨by decide, by decide, fun _ hb => absurd hb List.not_mem_nil⟩

theorem brokerBeat_name_ne : brokerBeat.interval.name ≠ controllerBeat.interval.name := by
  decide

theorem refusedFor_brokerBeat : RefusedFor lib t brokerBeat ↔
    earlierChecks lib t = .ok () ∧ ¬ brokerBeat.check t = .ok () := by
  have hpairs := beat_notMem_pairs brokerBeat List.mem_cons_self
  simp only [RefusedFor, validate_eq, Checks.then_eq_error]
  constructor
  · rintro ⟨message, he | ⟨hok, he | ⟨-, he | ⟨-, he⟩⟩⟩⟩
    · exact absurd (blamesOnly_earlierChecks _ he) hpairs.1
    · exact ⟨hok, (check_eq_error.mp he).1⟩
    · exact absurd (TuningError.relation.inj (check_eq_error.mp he).2).1 brokerBeat_name_ne
    · exact absurd (blamesOnly_later _ he) hpairs.2
  · rintro ⟨hok, hcheck⟩
    exact ⟨_, Or.inr ⟨hok, Or.inl (check_eq_error.mpr ⟨hcheck, rfl⟩)⟩⟩

theorem refusedFor_controllerBeat : RefusedFor lib t controllerBeat ↔
    earlierChecks lib t = .ok () ∧ brokerBeat.check t = .ok () ∧
      ¬ controllerBeat.check t = .ok () := by
  have hpairs := beat_notMem_pairs controllerBeat (List.mem_cons_of_mem _ List.mem_cons_self)
  simp only [RefusedFor, validate_eq, Checks.then_eq_error]
  constructor
  · rintro ⟨message, he | ⟨hok, he | ⟨hbroker, he | ⟨-, he⟩⟩⟩⟩
    · exact absurd (blamesOnly_earlierChecks _ he) hpairs.1
    · exact absurd (TuningError.relation.inj (check_eq_error.mp he).2).1 brokerBeat_name_ne.symm
    · exact ⟨hok, hbroker, (check_eq_error.mp he).1⟩
    · exact absurd (blamesOnly_later _ he) hpairs.2
  · rintro ⟨hok, hbroker, hcheck⟩
    exact ⟨_, Or.inr ⟨hok, Or.inr ⟨hbroker, Or.inl (check_eq_error.mpr ⟨hcheck, rfl⟩)⟩⟩⟩

/-- The beats of the accepted tunings are kept, and no tuning is refused for a kept beat,
exactly when the two kinds of defaults fit. -/
theorem livenessKept_iff : LivenessKept lib t ↔
    DefaultsFit lib t brokerBeat controllerBeat ∧ DefaultsFit lib t controllerBeat brokerBeat := by
  have hbroker := brokerBeat_ordered
  have hcontroller := controllerBeat_ordered
  constructor
  · rintro ⟨haccepted, hrefused⟩
    refine ⟨fun hearlier => ⟨fun hlater hother hlong => ?_, fun hother hshort => ?_⟩,
      fun hearlier => ⟨fun hlater hother hlong => ?_, fun hother hshort => ?_⟩⟩
    · have hcheck := Beat.check_of_tooLong hlong
      have hkept := (haccepted (validate_eq_ok.mpr ⟨hearlier, hcheck, hother, hlater⟩)).1
      exact (Beat.kept_iff_of_check hbroker (brokerBeat_finite hearlier) hcheck).mp hkept hlong
    · have hkept := Beat.kept_of_tooShort hbroker hshort
      refine (hrefused ⟨hkept, hother⟩).1 (refusedFor_brokerBeat.mpr ⟨hearlier, fun hcheck => ?_⟩)
      exact (Beat.check_iff_of_kept hbroker hkept).mp hcheck hshort
    · have hcheck := Beat.check_of_tooLong hlong
      have hkept := (haccepted (validate_eq_ok.mpr ⟨hearlier, hother, hcheck, hlater⟩)).2
      exact (Beat.kept_iff_of_check hcontroller (controllerBeat_finite hearlier) hcheck).mp hkept
        hlong
    · have hkept := Beat.kept_of_tooShort hcontroller hshort
      have hnot := hrefused ⟨hother, hkept⟩
      by_cases hcheck : brokerBeat.check t = .ok ()
      · refine hnot.2 (refusedFor_controllerBeat.mpr ⟨hearlier, hcheck, fun hok => ?_⟩)
        exact (Beat.check_iff_of_kept hcontroller hkept).mp hok hshort
      · exact hnot.1 (refusedFor_brokerBeat.mpr ⟨hearlier, hcheck⟩)
  · rintro ⟨hfit, hfit'⟩
    constructor
    · intro hok
      obtain ⟨hearlier, hb, hc, hlater⟩ := validate_eq_ok.mp hok
      constructor
      · exact (Beat.kept_iff_of_check hbroker (brokerBeat_finite hearlier) hb).mpr
          ((hfit hearlier).1 hlater hc)
      · exact (Beat.kept_iff_of_check hcontroller (controllerBeat_finite hearlier) hc).mpr
          ((hfit' hearlier).1 hlater hb)
    · rintro ⟨hb, hc⟩
      constructor
      · intro hrefused
        obtain ⟨hearlier, hcheck⟩ := refusedFor_brokerBeat.mp hrefused
        exact hcheck ((Beat.check_iff_of_kept hbroker hb).mpr ((hfit hearlier).2 hc))
      · intro hrefused
        obtain ⟨hearlier, -, hcheck⟩ := refusedFor_controllerBeat.mp hrefused
        exact hcheck ((Beat.check_iff_of_kept hcontroller hc).mpr ((hfit' hearlier).2 hb))

end Checks

def sampleLib : Lib where
  millisI64
    | .finite q => (q * 1000).floor
    | .nonFinite => 0
  bytesU64
    | .finite q => q.floor.toNat
    | .nonFinite => 0
  human _ _ := ""
  tomlString s := "\"" ++ s ++ "\""
  refinedError least _ := "must not be below " ++ toString least
  emptyStringError := "must not be empty"
  snapshotFetchMax _ := .ok ()
  recordDecompression _ _ _ := .ok ()

def longInterval : TypedTuning := TypedTuning.unset.set heartbeatInterval.field (millis 5000)

def shortTimeout : TypedTuning := TypedTuning.unset.set heartbeatTimeout.field (millis 2000)

/-- An interval of 5 s beside a timeout of 3 s is accepted, and a timeout of 2 s beside an
interval of 500 ms is refused. -/
theorem liveness_not_kept :
    (validate sampleLib longInterval = .ok () ∧ ¬ brokerBeat.Kept longInterval) ∧
    (brokerBeat.Kept shortTimeout ∧ controllerBeat.Kept shortTimeout ∧
      RefusedFor sampleLib shortTimeout brokerBeat) ∧
    ¬ ∀ t, LivenessKept sampleLib t := by
  have hok : validate sampleLib longInterval = .ok () := by decide +kernel
  have hlong : brokerBeat.TooLong longInterval :=
    ⟨by decide +kernel, millis 5000, by decide +kernel, by decide +kernel, by decide +kernel⟩
  have hbroken := (Beat.kept_iff_of_check brokerBeat_ordered
    (brokerBeat_finite (validate_eq_ok.mp hok).1) (validate_eq_ok.mp hok).2.1).not_left.mpr hlong
  have hshort : brokerBeat.TooShort shortTimeout :=
    ⟨by decide +kernel, millis 2000, by decide +kernel, by decide +kernel, by decide +kernel⟩
  have hcontroller : controllerBeat.Kept shortTimeout :=
    ⟨millis 100, by decide +kernel, millis 500, by decide +kernel, by decide +kernel⟩
  exact ⟨⟨hok, hbroken⟩, ⟨Beat.kept_of_tooShort brokerBeat_ordered hshort, hcontroller,
    refusedFor_brokerBeat.mpr ⟨by decide +kernel, by decide +kernel⟩⟩,
    fun h => hbroken ((h longInterval).1 hok).1⟩

end Tuning
