import Mathlib.Data.List.Nodup
import Backpressure.Proofs.Settings.Acceptance
import Backpressure.Settings.Environment

/-!
# Settings from variables

The variables are read one after the other onto the default settings, but the order does not show
in the result: `Settings.laid` gives every field from its own variable, and `overlay_eq` says that
this is what comes about when every value is good.  The order matters only for which fault is
reported, and that is the first one.

So two sources that differ in one variable give settings that differ in the fields of that variable
only (`blank_laid_eq`).  Two variables move a second field upwards, and that is why they cannot
spoil settings that were valid without them (`exists_ofVariables_idleInterval`,
`exists_ofVariables_writeTimeout`).
-/

namespace Backpressure

namespace Variable

/-! ## One variable -/

/-- The number that a value stands for, if it is a numeral below the bound once it is trimmed. -/
def number (bound : Nat) (value : Option String) : Option Nat :=
  value.bind fun text => (Text.readNumeral bound (Text.trim text)).toOption

/-- Why a variable refuses a text.  One that holds a text refuses none. -/
def fault? (v : Variable) (text : String) : Option Text.NumeralFault :=
  match v.use with
  | .text _ => none
  | .number bound _ =>
    match Text.readNumeral bound (Text.trim text) with
    | .ok _ => none
    | .error fault => some fault

/-- The value of a variable is good: it is missing or the variable does not refuse it. -/
def Accepts (v : Variable) (value : Option String) : Prop := ∀ text ∈ value, v.fault? text = none

/-- The error that a value leads to. -/
def refusal (v : Variable) (value : Option String) : Option SettingsError :=
  value.bind fun text => (v.fault? text).map (.invalidValue v.key text)

/-- The settings after one variable, where a value that is refused changes nothing. -/
def lay (v : Variable) (value : Option String) (s : Settings) : Settings :=
  match v.use with
  | .text put => value.elim s (put s)
  | .number bound put => (number bound value).elim s (put s)

theorem apply_eq (v : Variable) (value : Option String) (s : Settings) :
    v.apply value s = match v.refusal value with
      | none => .ok (v.lay value s)
      | some e => .error e := by
  cases value with
  | none => cases h : v.use <;> simp only [apply, refusal, lay, number, h] <;> rfl
  | some text =>
      cases h : v.use with
      | text put => simp only [apply, refusal, fault?, lay, h]; rfl
      | number bound put =>
          simp only [apply, refusal, fault?, lay, number, h, Option.bind_some]
          cases Text.readNumeral bound (Text.trim text) <;> rfl

theorem refusal_eq_none {v : Variable} {value : Option String} :
    v.refusal value = none ↔ v.Accepts value := by
  cases value with
  | none => exact iff_of_true rfl fun text h => by cases h
  | some text =>
      simp only [refusal, Accepts, Option.bind_some, Option.map_eq_none_iff, Option.mem_some_iff,
        forall_eq']

theorem refusal_eq_some {v : Variable} {value : Option String} {e : SettingsError} :
    v.refusal value = some e ↔ ∃ text fault, value = some text ∧ v.fault? text = some fault ∧
      e = .invalidValue v.key text fault := by
  simp only [refusal, Option.bind_eq_some_iff, Option.map_eq_some_iff]
  constructor
  · rintro ⟨text, hvalue, fault, hfault, rfl⟩
    exact ⟨text, fault, hvalue, hfault, rfl⟩
  · rintro ⟨text, fault, hvalue, hfault, rfl⟩
    exact ⟨text, hvalue, fault, hfault, rfl⟩

/-! ## All variables -/

theorem mem_all (v : Variable) : v ∈ all := by cases v <;> decide

theorem nodup_keys : (all.map key).Nodup := by decide

theorem key_injective {v w : Variable} (h : v.key = w.key) : v = w :=
  List.inj_on_of_nodup_map nodup_keys (mem_all v) (mem_all w) h

/-- Variables in a row give the first error, or what each of them lays on. -/
theorem foldlM_apply (value : Variable → Option String) (vs : List Variable) (s : Settings) :
    vs.foldlM (fun s v => v.apply (value v) s) s =
      match vs.findSome? fun v => v.refusal (value v) with
      | none => .ok (vs.foldl (fun s v => v.lay (value v) s) s)
      | some e => .error e := by
  induction vs generalizing s with
  | nil => rfl
  | cons v vs ih =>
      rw [List.foldlM_cons, apply_eq, List.findSome?_cons]
      cases v.refusal (value v) with
      | none => exact ih _
      | some e => rfl

/-- Some variable is the first one with a faulty value, or all are good. -/
theorem findSome?_refusal {source : String → Option String} {e : SettingsError} :
    (all.findSome? fun v => v.refusal (source v.key)) = some e ↔
      ∃ before v after text fault, all = before ++ v :: after ∧
        (∀ w ∈ before, w.Accepts (source w.key)) ∧ source v.key = some text ∧
        v.fault? text = some fault ∧ e = .invalidValue v.key text fault := by
  simp only [List.findSome?_eq_some_iff, refusal_eq_none, refusal_eq_some]
  constructor
  · rintro ⟨before, v, after, hall, ⟨text, fault, hvalue, hfault, rfl⟩, hgood⟩
    exact ⟨before, v, after, text, fault, hall, hgood, hvalue, hfault, rfl⟩
  · rintro ⟨before, v, after, text, fault, hall, hgood, hvalue, hfault, rfl⟩
    exact ⟨before, v, after, hall, ⟨text, fault, hvalue, hfault, rfl⟩, hgood⟩

theorem findSome?_refusal_eq_none {source : String → Option String} :
    (all.findSome? fun v => v.refusal (source v.key)) = none ↔
      ∀ v : Variable, v.Accepts (source v.key) := by
  simp only [List.findSome?_eq_none_iff, refusal_eq_none]
  exact ⟨fun h v => h v (mem_all v), fun h v _ => h v⟩

/-- The settings without the fields that a variable owns. -/
def blank : Variable → Settings → Settings
  | .poolName, s => { s with pool.name := "" }
  | .workerLabel, s => { s with pool.workerLabel := "" }
  | .minWorkers, s => { s with pool.minWorkers := 0 }
  | .maxWorkers, s => { s with pool.maxWorkers := 0 }
  | .queueCapacity, s => { s with pool.queueCapacity := 0 }
  | .poolShutdownTimeout, s => { s with pool.shutdownTimeout := 0 }
  | .pollTimeout, s => { s with pool.poller.pollTimeout := 0 }
  | .idleInterval, s => { s with pool.poller.minIdle := 0, pool.poller.maxIdle := 0 }
  | .sinkName, s => { s with sink.name := "" }
  | .sinkCapacity, s => { s with sink.capacity := 0 }
  | .permitsPerSecond, s => { s with sink.permitsPerSecond := 0 }
  | .flushInterval, s => { s with sink.flushInterval := 0 }
  | .writeTimeout, s => { s with sink.writeTimeout := 0, sink.shutdownTimeout := 0 }
  | .telemetryPath, s => { s with telemetryPath := none }
  | .callsPerSecond, s => { s with rate.callsPerSecond := 0 }
  | .windowSeconds, s => { s with rate.windowSeconds := 0 }

/-- A source in which a variable is set. -/
def set (v : Variable) (text : String) (source : String → Option String) : String → Option String :=
  Function.update source v.key (some text)

theorem set_self {v : Variable} {text : String} {source : String → Option String} :
    v.set text source v.key = some text := Function.update_self _ _ _

theorem set_of_ne {v : Variable} {text : String} {source : String → Option String} {key : String}
    (h : key ≠ v.key) : v.set text source key = source key := Function.update_of_ne h _ _

end Variable

/-! ## The settings of a source -/

namespace Settings

open Variable (number)

section Word

variable (source : String → Option String) (v : Variable)

/-- The number below `2 ^ 64` that a source has for a variable. -/
def word : Option Nat := number (Nat.pow 2 64) (source v.key)

/-- The length of time that a source has for a variable. -/
def millis : Option Duration := (word source v).map Duration.ofMillis

end Word

/-- The default settings with each field from its own variable, where there is a good value. -/
def laid (poolName : String) (source : String → Option String) : Settings :=
  let s := standard poolName
  { pool :=
      { s.pool with
        name := (source Variable.poolName.key).getD poolName
        workerLabel := (source Variable.workerLabel.key).getD s.pool.workerLabel
        minWorkers := (word source .minWorkers).getD s.pool.minWorkers
        maxWorkers := (word source .maxWorkers).getD s.pool.maxWorkers
        queueCapacity := (word source .queueCapacity).getD s.pool.queueCapacity
        shutdownTimeout := (millis source .poolShutdownTimeout).getD s.pool.shutdownTimeout
        poller :=
          { s.pool.poller with
            pollTimeout := (millis source .pollTimeout).getD s.pool.poller.pollTimeout
            minIdle := (millis source .idleInterval).getD s.pool.poller.minIdle
            maxIdle := (millis source .idleInterval).elim s.pool.poller.maxIdle
              (max s.pool.poller.maxIdle) } }
    sink :=
      { s.sink with
        name := (source Variable.sinkName.key).getD s.sink.name
        capacity := (word source .sinkCapacity).getD s.sink.capacity
        permitsPerSecond :=
          (number (Nat.pow 2 32) (source Variable.permitsPerSecond.key)).getD s.sink.permitsPerSecond
        flushInterval := (millis source .flushInterval).getD s.sink.flushInterval
        writeTimeout := (millis source .writeTimeout).getD s.sink.writeTimeout
        shutdownTimeout := (millis source .writeTimeout).elim s.sink.shutdownTimeout
          (max s.sink.shutdownTimeout) }
    rate :=
      { callsPerSecond :=
          (number (Nat.pow 2 32) (source Variable.callsPerSecond.key)).getD s.rate.callsPerSecond
        windowSeconds := (word source .windowSeconds).getD s.rate.windowSeconds }
    telemetryPath := (source Variable.telemetryPath.key).filter fun path => !path.isEmpty }

variable {poolName : String} {source : String → Option String}

/-- A variable changes its own fields and leaves them if it has no good value. -/
theorem lay_eq (v : Variable) (s : Settings) : v.lay (source v.key) s = match v with
    | .poolName => { s with pool.name := (source Variable.poolName.key).getD s.pool.name }
    | .workerLabel =>
      { s with pool.workerLabel := (source Variable.workerLabel.key).getD s.pool.workerLabel }
    | .minWorkers => { s with pool.minWorkers := (word source .minWorkers).getD s.pool.minWorkers }
    | .maxWorkers => { s with pool.maxWorkers := (word source .maxWorkers).getD s.pool.maxWorkers }
    | .queueCapacity =>
      { s with pool.queueCapacity := (word source .queueCapacity).getD s.pool.queueCapacity }
    | .poolShutdownTimeout =>
      { s with
        pool.shutdownTimeout := (millis source .poolShutdownTimeout).getD s.pool.shutdownTimeout }
    | .pollTimeout =>
      { s with
        pool.poller.pollTimeout := (millis source .pollTimeout).getD s.pool.poller.pollTimeout }
    | .idleInterval =>
      { s with
        pool.poller.minIdle := (millis source .idleInterval).getD s.pool.poller.minIdle
        pool.poller.maxIdle :=
          (millis source .idleInterval).elim s.pool.poller.maxIdle (max s.pool.poller.maxIdle) }
    | .sinkName => { s with sink.name := (source Variable.sinkName.key).getD s.sink.name }
    | .sinkCapacity => { s with sink.capacity := (word source .sinkCapacity).getD s.sink.capacity }
    | .permitsPerSecond =>
      { s with
        sink.permitsPerSecond :=
          (number (Nat.pow 2 32) (source Variable.permitsPerSecond.key)).getD s.sink.permitsPerSecond }
    | .flushInterval =>
      { s with sink.flushInterval := (millis source .flushInterval).getD s.sink.flushInterval }
    | .writeTimeout =>
      { s with
        sink.writeTimeout := (millis source .writeTimeout).getD s.sink.writeTimeout
        sink.shutdownTimeout :=
          (millis source .writeTimeout).elim s.sink.shutdownTimeout (max s.sink.shutdownTimeout) }
    | .telemetryPath =>
      { s with
        telemetryPath := (source Variable.telemetryPath.key).elim s.telemetryPath fun path =>
          if path.isEmpty then none else some path }
    | .callsPerSecond =>
      { s with
        rate.callsPerSecond :=
          (number (Nat.pow 2 32) (source Variable.callsPerSecond.key)).getD s.rate.callsPerSecond }
    | .windowSeconds =>
      { s with rate.windowSeconds := (word source .windowSeconds).getD s.rate.windowSeconds } := by
  cases v <;>
    simp only [Variable.lay, Variable.use, Variable.Use.millis, millis, word] <;>
    first
    | (cases number _ _ <;> rfl)
    | (cases source _ <;> rfl)

/-- What the variables lay on one after the other is what each field has from its own variable. -/
theorem foldl_lay : Variable.all.foldl (fun s v => v.lay (source v.key) s) (standard poolName) =
    laid poolName source := by
  have hpath : (source Variable.telemetryPath.key).elim none (fun path =>
      if path.isEmpty then none else some path) =
      (source Variable.telemetryPath.key).filter fun path => !path.isEmpty := by
    cases source Variable.telemetryPath.key with
    | none => rfl
    | some path =>
      cases h : path.isEmpty <;> simp only [Option.elim_some, Option.filter_some, h] <;> rfl
  simp only [Variable.all, List.foldl_cons, List.foldl_nil, lay_eq, laid, ← hpath]
  rfl

theorem overlay_eq : overlay poolName source =
    match Variable.all.findSome? fun v => v.refusal (source v.key) with
    | none => .ok (laid poolName source)
    | some e => .error e := by
  rw [overlay, Variable.foldlM_apply fun v => source v.key, foldl_lay]

/-- The first section of some settings that is refused. -/
def FirstFault (s : Settings) : SectionFault → Prop
  | .pool fault => s.pool.check = .error fault
  | .sink fault => s.pool.check = .ok () ∧ s.sink.check = .error fault
  | .rate fault => s.pool.check = .ok () ∧ s.sink.check = .ok () ∧ s.rate.check = .error fault

theorem check_eq_error {s : Settings} {fault : SectionFault} :
    s.check = .error fault ↔ s.FirstFault fault := by
  have hcheck : s.check = match s.pool.check, s.sink.check, s.rate.check with
      | .error f, _, _ => .error (.pool f)
      | .ok _, .error f, _ => .error (.sink f)
      | .ok _, .ok _, .error f => .error (.rate f)
      | .ok _, .ok _, .ok _ => .ok () := by
    unfold check
    cases s.pool.check <;> cases s.sink.check <;> cases s.rate.check <;> rfl
  rw [hcheck]
  cases fault <;> unfold FirstFault <;>
    cases s.pool.check <;> cases s.sink.check <;> cases s.rate.check <;> simp

theorem ofVariables_eq : ofVariables poolName source =
    match Variable.all.findSome? fun v => v.refusal (source v.key) with
    | some e => .error e
    | none =>
      match (laid poolName source).check with
      | .ok _ => .ok (laid poolName source)
      | .error fault => .error (.invalid fault) := by
  rw [ofVariables, overlay_eq]
  cases Variable.all.findSome? fun v => v.refusal (source v.key) with
  | some e => rfl
  | none => cases h : (laid poolName source).check <;> simp only [Except.bind, bind, h] <;> rfl

/-- Settings come about exactly when every value is good and the outcome is accepted. -/
theorem ofVariables_eq_ok {c : Settings} : ofVariables poolName source = .ok c ↔
    (∀ v : Variable, v.Accepts (source v.key)) ∧ (laid poolName source).check = .ok () ∧
      c = laid poolName source := by
  rw [ofVariables_eq, ← Variable.findSome?_refusal_eq_none]
  cases Variable.all.findSome? fun v => v.refusal (source v.key) with
  | some e => simp
  | none => cases (laid poolName source).check <;> simp [eq_comm]

/-- The error is the one of the first variable with a faulty value, and if there is none, the one of
the first section that is refused. -/
theorem ofVariables_eq_error {e : SettingsError} : ofVariables poolName source = .error e ↔
    (∃ before v after text fault, Variable.all = before ++ v :: after ∧
      (∀ w ∈ before, w.Accepts (source w.key)) ∧ source v.key = some text ∧
      v.fault? text = some fault ∧ e = .invalidValue v.key text fault) ∨
    (∀ v : Variable, v.Accepts (source v.key)) ∧
      ∃ fault, (laid poolName source).FirstFault fault ∧ e = .invalid fault := by
  rw [← Variable.findSome?_refusal, ← Variable.findSome?_refusal_eq_none, ofVariables_eq]
  simp only [← check_eq_error]
  cases Variable.all.findSome? fun v => v.refusal (source v.key) with
  | some e => simp
  | none => cases (laid poolName source).check <;> simp [eq_comm]

/-! ## One variable set in another way -/

/-- Sources that differ in one variable give settings that differ in its fields only. -/
theorem blank_laid_eq {v : Variable} {source' : String → Option String}
    (h : ∀ key, key ≠ v.key → source key = source' key) :
    v.blank (laid poolName source) = v.blank (laid poolName source') := by
  have hkey (w : Variable) (hne : w ≠ v) : source w.key = source' w.key :=
    h w.key fun heq => hne (Variable.key_injective heq)
  cases v <;> simp (disch := decide) only [Variable.blank, laid, millis, word, hkey]

theorem word_eq_some {v : Variable} {text : String} {n : ℕ} (hvalue : source v.key = some text)
    (hn : Text.readNumeral (Nat.pow 2 64) (Text.trim text) = .ok n) : word source v = some n := by
  rw [word, number, hvalue, Option.bind_some, hn]
  rfl

/-- An idle interval lifts the longest one. -/
theorem laid_idleInterval (poolName : String) {text : String} {n : ℕ}
    (hvalue : source Variable.idleInterval.key = some text)
    (hn : Text.readNumeral (Nat.pow 2 64) (Text.trim text) = .ok n) :
    (laid poolName source).pool.poller.minIdle = Duration.ofMillis n ∧
      (laid poolName source).pool.poller.maxIdle =
        max (standard poolName).pool.poller.maxIdle (Duration.ofMillis n) := by
  have hmillis : millis source .idleInterval = some (Duration.ofMillis n) := by
    rw [millis, word_eq_some hvalue hn, Option.map_some]
  constructor
  · show (millis source .idleInterval).getD _ = _
    rw [hmillis, Option.getD_some]
  · show (millis source .idleInterval).elim _ _ = _
    rw [hmillis, Option.elim_some]

/-- A write timeout lifts the shutdown timeout. -/
theorem laid_writeTimeout (poolName : String) {text : String} {n : ℕ}
    (hvalue : source Variable.writeTimeout.key = some text)
    (hn : Text.readNumeral (Nat.pow 2 64) (Text.trim text) = .ok n) :
    (laid poolName source).sink.writeTimeout = Duration.ofMillis n ∧
      (laid poolName source).sink.shutdownTimeout =
        max (standard poolName).sink.shutdownTimeout (Duration.ofMillis n) := by
  have hmillis : millis source .writeTimeout = some (Duration.ofMillis n) := by
    rw [millis, word_eq_some hvalue hn, Option.map_some]
  constructor
  · show (millis source .writeTimeout).getD _ = _
    rw [hmillis, Option.getD_some]
  · show (millis source .writeTimeout).elim _ _ = _
    rw [hmillis, Option.elim_some]

/-- Valid settings stay valid when nothing but their idle range changes, to one in order. -/
theorem check_of_blank_idleInterval {s s' : Settings} (hok : s.check = .ok ())
    (hblank : Variable.idleInterval.blank s = Variable.idleInterval.blank s')
    (hrange : s'.pool.poller.minIdle ≤ s'.pool.poller.maxIdle) : s'.check = .ok () := by
  have hmin : s.pool.minWorkers = s'.pool.minWorkers := congrArg (·.pool.minWorkers) hblank
  have hmax : s.pool.maxWorkers = s'.pool.maxWorkers := congrArg (·.pool.maxWorkers) hblank
  have hcapacity : s.pool.queueCapacity = s'.pool.queueCapacity :=
    congrArg (·.pool.queueCapacity) hblank
  have hscaling : s.pool.scaling = s'.pool.scaling := congrArg (·.pool.scaling) hblank
  have hsink : s.sink = s'.sink := congrArg (·.sink) hblank
  have hrate : s.rate = s'.rate := congrArg (·.rate) hblank
  simp only [check_eq_ok, PoolSettings.check_eq_ok, PollerSettings.check_eq_ok,
    PoolSettings.isElastic, hmin, hmax, hcapacity, hscaling, hsink, hrate] at hok ⊢
  obtain ⟨⟨hworkers, horder, hroom, hfits, -, helastic⟩, hrest⟩ := hok
  exact ⟨⟨hworkers, horder, hroom, hfits, hrange, helastic⟩, hrest⟩

/-- Valid settings stay valid when nothing but the timeouts of the sink change, to ones in order. -/
theorem check_of_blank_writeTimeout {s s' : Settings} (hok : s.check = .ok ())
    (hblank : Variable.writeTimeout.blank s = Variable.writeTimeout.blank s')
    (hpos : s'.sink.writeTimeout ≠ 0) (hcover : s'.sink.writeTimeout ≤ s'.sink.shutdownTimeout) :
    s'.check = .ok () := by
  have hpool : s.pool = s'.pool := congrArg (·.pool) hblank
  have hcapacity : s.sink.capacity = s'.sink.capacity := congrArg (·.sink.capacity) hblank
  have hpermits : s.sink.permitsPerSecond = s'.sink.permitsPerSecond :=
    congrArg (·.sink.permitsPerSecond) hblank
  have hflush : s.sink.flushInterval = s'.sink.flushInterval :=
    congrArg (·.sink.flushInterval) hblank
  have hrate : s.rate = s'.rate := congrArg (·.rate) hblank
  simp only [check_eq_ok, SinkSettings.check_eq_ok, hpool, hcapacity, hpermits, hflush, hrate]
    at hok ⊢
  obtain ⟨hcrew, ⟨hroom, hfits, hlet, hoften, -, -⟩, hrest⟩ := hok
  exact ⟨hcrew, ⟨hroom, hfits, hlet, hoften, hpos, hcover⟩, hrest⟩

/-- Setting a variable to a good value keeps settings possible if the outcome is valid. -/
theorem exists_ofVariables_set {v : Variable} {text : String} {c : Settings}
    (h : ofVariables poolName source = .ok c) (htext : v.fault? text = none)
    (hcheck : v.blank c = v.blank (laid poolName (v.set text source)) →
      (laid poolName (v.set text source)).check = .ok ()) :
    ∃ c', ofVariables poolName (v.set text source) = .ok c' := by
  obtain ⟨hgood, hok, rfl⟩ := ofVariables_eq_ok.mp h
  have hother (key : String) (hne : key ≠ v.key) : source key = v.set text source key :=
    (Variable.set_of_ne hne).symm
  refine ⟨_, ofVariables_eq_ok.mpr ⟨fun w => ?_, hcheck (blank_laid_eq hother), rfl⟩⟩
  by_cases hw : w.key = v.key
  · obtain rfl := Variable.key_injective hw
    intro t ht
    rw [Variable.set_self, Option.mem_some_iff] at ht
    exact ht ▸ htext
  · exact hother w.key hw ▸ hgood w

theorem fault?_of_readNumeral {v : Variable} {put : Settings → ℕ → Settings}
    (huse : v.use = .number (Nat.pow 2 64) put) {text : String} {n : ℕ}
    (hn : Text.readNumeral (Nat.pow 2 64) (Text.trim text) = .ok n) : v.fault? text = none := by
  simp only [Variable.fault?, huse, hn]

/-- An idle interval spoils nothing. -/
theorem exists_ofVariables_idleInterval {text : String} {n : ℕ} {c : Settings}
    (h : ofVariables poolName source = .ok c)
    (hn : Text.readNumeral (Nat.pow 2 64) (Text.trim text) = .ok n) :
    ∃ c', ofVariables poolName (Variable.idleInterval.set text source) = .ok c' := by
  refine exists_ofVariables_set h (fault?_of_readNumeral rfl hn) fun hblank => ?_
  obtain ⟨hgood, hok, rfl⟩ := ofVariables_eq_ok.mp h
  refine check_of_blank_idleInterval hok hblank ?_
  obtain ⟨hmin, hmax⟩ := laid_idleInterval poolName
    (show Variable.idleInterval.set text source _ = some text from Variable.set_self) hn
  rw [hmin, hmax]
  exact Nat.le_max_right _ _

/-- A positive write timeout spoils nothing. -/
theorem exists_ofVariables_writeTimeout {text : String} {n : ℕ} {c : Settings}
    (h : ofVariables poolName source = .ok c)
    (hn : Text.readNumeral (Nat.pow 2 64) (Text.trim text) = .ok n) (hpos : 0 < n) :
    ∃ c', ofVariables poolName (Variable.writeTimeout.set text source) = .ok c' := by
  refine exists_ofVariables_set h (fault?_of_readNumeral rfl hn) fun hblank => ?_
  obtain ⟨hgood, hok, rfl⟩ := ofVariables_eq_ok.mp h
  obtain ⟨hwrite, hshutdown⟩ := laid_writeTimeout poolName
    (show Variable.writeTimeout.set text source _ = some text from Variable.set_self) hn
  refine check_of_blank_writeTimeout hok hblank ?_ ?_
  · rw [hwrite]
    exact Nat.ne_of_gt (Nat.mul_pos hpos (by decide))
  · rw [hwrite, hshutdown]
    exact Nat.le_max_right _ _

/-- Each variable has its own fields and touches no other.  Settings come about exactly when every
value is good and the settings that are laid together are accepted; otherwise the first faulty
value in the order of reading is reported, as it stands in the source, and without one the first
section that is refused.  Sources that differ in one variable give settings that differ in its
fields only.  The idle interval and the write timeout lift a second field above its default, and so
a good idle interval and a good positive write timeout never spoil settings. -/
theorem ofVariables_fieldwise (poolName : String) (source : String → Option String) :
    (∀ c, ofVariables poolName source = .ok c ↔
      (∀ v : Variable, v.Accepts (source v.key)) ∧ (laid poolName source).check = .ok () ∧
        c = laid poolName source) ∧
    (∀ e, ofVariables poolName source = .error e ↔
      (∃ before v after text fault, Variable.all = before ++ v :: after ∧
        (∀ w ∈ before, w.Accepts (source w.key)) ∧ source v.key = some text ∧
        v.fault? text = some fault ∧ e = .invalidValue v.key text fault) ∨
      (∀ v : Variable, v.Accepts (source v.key)) ∧
        ∃ fault, (laid poolName source).FirstFault fault ∧ e = .invalid fault) ∧
    ∀ c, ofVariables poolName source = .ok c →
      (∀ (v : Variable) source' c', (∀ key, key ≠ v.key → source key = source' key) →
        ofVariables poolName source' = .ok c' → v.blank c = v.blank c') ∧
      (∀ text n, Text.readNumeral (Nat.pow 2 64) (Text.trim text) = .ok n →
        (source Variable.idleInterval.key = some text →
          c.pool.poller.minIdle = Duration.ofMillis n ∧
          c.pool.poller.maxIdle =
            max (standard poolName).pool.poller.maxIdle (Duration.ofMillis n)) ∧
        (source Variable.writeTimeout.key = some text →
          c.sink.writeTimeout = Duration.ofMillis n ∧
          c.sink.shutdownTimeout =
            max (standard poolName).sink.shutdownTimeout (Duration.ofMillis n)) ∧
        (∃ c', ofVariables poolName (Variable.idleInterval.set text source) = .ok c') ∧
        (0 < n → ∃ c', ofVariables poolName (Variable.writeTimeout.set text source) = .ok c')) := by
  refine ⟨fun c => ofVariables_eq_ok, fun e => ofVariables_eq_error, fun c h => ⟨?_, ?_⟩⟩
  · intro v source' c' hdiffer h'
    obtain ⟨-, -, rfl⟩ := ofVariables_eq_ok.mp h
    obtain ⟨-, -, rfl⟩ := ofVariables_eq_ok.mp h'
    exact blank_laid_eq hdiffer
  · intro text n hn
    refine ⟨fun hvalue => ?_, fun hvalue => ?_, exists_ofVariables_idleInterval h hn,
      exists_ofVariables_writeTimeout h hn⟩
    · obtain ⟨-, -, rfl⟩ := ofVariables_eq_ok.mp h
      exact laid_idleInterval poolName hvalue hn
    · obtain ⟨-, -, rfl⟩ := ofVariables_eq_ok.mp h
      exact laid_writeTimeout poolName hvalue hn

/-- No variable is set. -/
def unset : String → Option String := fun _ => none

/-- The idle interval alone is set, above the longest default one. -/
def slow : String → Option String := Variable.idleInterval.set " 700 " unset

theorem ofVariables_fieldwise_slow : ∃ c c', ofVariables "pool" unset = .ok c ∧
    ofVariables "pool" slow = .ok c' ∧
    Variable.idleInterval.blank c = Variable.idleInterval.blank c' ∧
    c'.pool.poller.maxIdle = Duration.ofMillis 700 := by
  obtain ⟨hplain, -, -⟩ := ofVariables_fieldwise "pool" unset
  have h : ofVariables "pool" unset = .ok (laid "pool" unset) :=
    (hplain _).mpr ⟨fun v text htext => (nomatch htext), by decide +kernel, rfl⟩
  obtain ⟨-, -, hone⟩ := ofVariables_fieldwise "pool" unset
  obtain ⟨hblank, hlift⟩ := hone _ h
  have hseven : Text.readNumeral (Nat.pow 2 64) (Text.trim " 700 ") = .ok 700 := by decide +kernel
  obtain ⟨-, -, ⟨c', h'⟩, -⟩ := hlift " 700 " 700 hseven
  refine ⟨_, c', h, h', hblank _ slow c' (fun key hne => ?_) h', ?_⟩
  · exact (Variable.set_of_ne hne).symm
  · obtain ⟨-, -, hlast⟩ := ofVariables_fieldwise "pool" slow
    obtain ⟨-, hmax⟩ := ((hlast c' h').2 " 700 " 700 hseven).1 Variable.set_self
    exact hmax.trans (by decide)

end Settings

end Backpressure
