import Backpressure.Proofs.Json.Reals
import Backpressure.Proofs.Settings.Acceptance

/-!
# Settings are written and read back

Settings of any size and with finite reals are read back from the document that they are written
to (`Settings.read_render`).  What comes back differs in two ways: a length of time keeps its whole
milliseconds only (`Duration.reread`), and a real is what its shortest decimal is read as
(`Json.reread`).

So settings can be accepted before and refused after (`serialized`, `refused_hasty`).

*Very long times.*  A document has no milliseconds beyond a 64-bit word.  On the way out the
word wraps round without a word about it, though on the way in a number that does not fit is
refused.  That is a slip and no rounding: a time of `2 ^ 64` milliseconds or more comes back as
any shorter one (`serialized_mod`), which may be accepted (`accepted_lasting`).
-/

namespace Backpressure

/-! ## Lengths of time -/

namespace Duration

/-- A length of time as it comes back: its whole milliseconds as a 64-bit word. -/
def reread (d : Duration) : Duration := ofMillis (millisWord d)

variable {d d' : Duration}

theorem reread_of_lt (h : d.wholeMillis < 2 ^ 64) : d.reread = ofMillis d.wholeMillis := by
  rw [reread, millisWord]
  exact congrArg ofMillis (Nat.mod_eq_of_lt h)

/-- A length of time keeps its milliseconds just when they fit into 64 bits. -/
theorem reread_eq_iff : d.reread = ofMillis d.wholeMillis ↔ d.wholeMillis < 2 ^ 64 := by
  refine ⟨fun h => ?_, reread_of_lt⟩
  have hword : d.millisWord = d.wholeMillis := Nat.mul_right_cancel (by decide) h
  exact hword ▸ Nat.mod_lt _ (by decide)

theorem reread_ofMillis {n : Nat} (h : n < 2 ^ 64) : (ofMillis n).reread = ofMillis n := by
  have hwhole : (ofMillis n).wholeMillis = n := Nat.mul_div_cancel n (by decide)
  rw [reread_of_lt (hwhole.symm ▸ h), hwhole]

/-- What is shorter than a millisecond comes back as zero. -/
theorem reread_ne_zero (h : d.wholeMillis < 2 ^ 64) : d.reread ≠ 0 ↔ perMilli ≤ d := by
  rw [ne_eq, reread_of_lt h, ofMillis, wholeMillis, Nat.mul_eq_zero, or_iff_left (by decide),
    Nat.div_eq_zero_iff_lt (by decide), Nat.not_lt]

/-- Cutting off what is finer than a millisecond keeps the order of two times that fit. -/
theorem reread_le (h : d ≤ d') (hfits : d'.wholeMillis < 2 ^ 64) : d.reread ≤ d'.reread := by
  have hle : d.wholeMillis ≤ d'.wholeMillis := Nat.div_le_div_right h
  rw [reread_of_lt (Nat.lt_of_le_of_lt hle hfits), reread_of_lt hfits]
  exact Nat.mul_le_mul_right _ hle

end Duration

/-! ## Records -/

namespace Json

variable {σ τ : Type}

/-- Whatever record the text of `s` is read into, it becomes `s'`. -/
def Rereads (fields : List (Field σ)) (s s' : σ) : Prop :=
  ∃ moves, List.Forall₂ (fun f move => f.Moves s move) fields moves ∧
    ∀ start, moves.foldl (fun r move => move r) start = s'

/-- A record inside a record is read back as a whole. -/
theorem Rereads.moves {fields : List (Field τ)} {key : String} {get : σ → τ} {put : σ → τ → σ}
    {s : σ} {p : τ} (h : Rereads fields (get s) p) (hkeys : (fields.map (·.key)).Nodup) :
    (Field.record key fields get put).Moves s fun start => put start p := by
  obtain ⟨moves, hmoves, hresult⟩ := h
  intro start rest hr
  refine (Field.record_moves hkeys hmoves hr).trans ?_
  simp only [hresult]

/-- Whatever it starts from, reading a document gives the record that was written, with the losses
of its fields. -/
theorem Rereads.run {fields : List (Field σ)} {s s' : σ} (h : Rereads fields s s')
    (hkeys : (fields.map (·.key)).Nodup) (start : σ) :
    Reader.run (readRecord fields false start) (writeRecord fields s).render = .ok s' := by
  obtain ⟨moves, hmoves, hresult⟩ := h
  have hread := readRecord_writeRecord hkeys hmoves start []
  rw [List.append_nil, hresult] at hread
  exact Reader.run_eq (by rw [Value.render, String.toList_ofList, hread])

end Json

namespace PollerSettings

/-- Settings whose reals are finite. -/
structure Sized (s : PollerSettings) : Prop where
  backoff : s.backoff.isFinite = true
  jitter : s.jitter.isFinite = true

/-- The settings as they come back. -/
def reread (s : PollerSettings) : PollerSettings where
  pollTimeout := s.pollTimeout.reread
  minIdle := s.minIdle.reread
  maxIdle := s.maxIdle.reread
  backoff := Json.reread s.backoff
  jitter := Json.reread s.jitter

theorem sized_default : ({} : PollerSettings).Sized := ⟨by decide +kernel, by decide +kernel⟩

theorem rereads {s : PollerSettings} (hs : s.Sized) : Json.Rereads fields s s.reread :=
  ⟨_, .cons Json.Field.duration_moves <| .cons Json.Field.duration_moves <|
    .cons Json.Field.duration_moves <| .cons (Json.Field.real_moves hs.backoff) <|
    .cons (Json.Field.real_moves hs.jitter) .nil, fun _ => rfl⟩

end PollerSettings

namespace ScalingSettings

/-- Settings whose reals are finite, and whose step fits into 64 bits. -/
structure Sized (s : ScalingSettings) : Prop where
  highWatermark : s.highWatermark.isFinite = true
  lowWatermark : s.lowWatermark.isFinite = true
  step : s.step < 2 ^ 64

/-- The settings as they come back. -/
def reread (s : ScalingSettings) : ScalingSettings where
  evaluateInterval := s.evaluateInterval.reread
  highWatermark := Json.reread s.highWatermark
  lowWatermark := Json.reread s.lowWatermark
  growAfter := s.growAfter.reread
  shrinkAfter := s.shrinkAfter.reread
  step := s.step

theorem sized_default : ({} : ScalingSettings).Sized :=
  ⟨by decide +kernel, by decide +kernel, by decide⟩

theorem rereads {s : ScalingSettings} (hs : s.Sized) : Json.Rereads fields s s.reread :=
  ⟨_, .cons Json.Field.duration_moves <| .cons (Json.Field.real_moves hs.highWatermark) <|
    .cons (Json.Field.real_moves hs.lowWatermark) <| .cons Json.Field.duration_moves <|
    .cons Json.Field.duration_moves <|
    .cons (Json.Field.natural_moves hs.step (Nat.le_refl _)) .nil, fun _ => rfl⟩

end ScalingSettings

namespace PoolSettings

/-- Settings whose sizes fit into 64 bits, and whose reals are finite. -/
structure Sized (s : PoolSettings) : Prop where
  minWorkers : s.minWorkers < 2 ^ 64
  maxWorkers : s.maxWorkers < 2 ^ 64
  queueCapacity : s.queueCapacity < 2 ^ 64
  poller : s.poller.Sized
  scaling : s.scaling.Sized

/-- The settings as they come back. -/
def reread (s : PoolSettings) : PoolSettings :=
  { s with
    poller := s.poller.reread
    scaling := s.scaling.reread
    shutdownTimeout := s.shutdownTimeout.reread }

theorem sized_named (name : String) : (named name).Sized where
  minWorkers := show 1 < 2 ^ 64 by decide
  maxWorkers := show 4 < 2 ^ 64 by decide
  queueCapacity := show 1024 < 2 ^ 64 by decide
  poller := PollerSettings.sized_default
  scaling := ScalingSettings.sized_default

theorem rereads {s : PoolSettings} (hs : s.Sized) : Json.Rereads fields s s.reread :=
  ⟨_, .cons Json.Field.text_moves <| .cons Json.Field.text_moves <|
    .cons (Json.Field.natural_moves hs.minWorkers (Nat.le_refl _)) <|
    .cons (Json.Field.natural_moves hs.maxWorkers (Nat.le_refl _)) <|
    .cons (Json.Field.natural_moves hs.queueCapacity (Nat.le_refl _)) <|
    .cons ((PollerSettings.rereads hs.poller).moves (by decide)) <|
    .cons ((ScalingSettings.rereads hs.scaling).moves (by decide)) <|
    .cons Json.Field.duration_moves .nil, fun _ => rfl⟩

end PoolSettings

namespace SinkSettings

/-- Settings whose sizes fit into their words. -/
structure Sized (s : SinkSettings) : Prop where
  capacity : s.capacity < 2 ^ 64
  permitsPerSecond : s.permitsPerSecond < 2 ^ 32

/-- The settings as they come back. -/
def reread (s : SinkSettings) : SinkSettings :=
  { s with
    flushInterval := s.flushInterval.reread
    writeTimeout := s.writeTimeout.reread
    shutdownTimeout := s.shutdownTimeout.reread
    alertMinInterval := s.alertMinInterval.reread }

theorem sized_default : ({} : SinkSettings).Sized := ⟨by decide, by decide⟩

theorem rereads {s : SinkSettings} (hs : s.Sized) : Json.Rereads fields s s.reread :=
  ⟨_, .cons Json.Field.text_moves <|
    .cons (Json.Field.natural_moves hs.capacity (Nat.le_refl _)) <|
    .cons (Json.Field.natural_moves hs.permitsPerSecond (by decide)) <|
    .cons Json.Field.duration_moves <| .cons Json.Field.duration_moves <|
    .cons Json.Field.duration_moves <| .cons Json.Field.duration_moves .nil, fun _ => rfl⟩

end SinkSettings

namespace RateSettings

/-- Settings whose sizes fit into their words. -/
structure Sized (s : RateSettings) : Prop where
  callsPerSecond : s.callsPerSecond < 2 ^ 32
  windowSeconds : s.windowSeconds < 2 ^ 64

theorem sized_default : ({} : RateSettings).Sized := ⟨by decide, by decide⟩

theorem rereads {s : RateSettings} (hs : s.Sized) : Json.Rereads fields s s :=
  ⟨_, .cons (Json.Field.natural_moves hs.callsPerSecond (by decide)) <|
    .cons (Json.Field.natural_moves hs.windowSeconds (Nat.le_refl _)) .nil, fun _ => rfl⟩

end RateSettings

namespace Settings

/-- Settings whose sizes fit into their words, and whose reals are finite. -/
structure Sized (s : Settings) : Prop where
  pool : s.pool.Sized
  sink : s.sink.Sized
  rate : s.rate.Sized

/-- The settings as they come back. -/
def reread (s : Settings) : Settings :=
  { s with
    pool := s.pool.reread
    sink := s.sink.reread }

theorem sized_standard (poolName : String) : (standard poolName).Sized where
  pool := PoolSettings.sized_named poolName
  sink := SinkSettings.sized_default
  rate := RateSettings.sized_default

theorem rereads {s : Settings} (hs : s.Sized) : Json.Rereads fields s s.reread :=
  ⟨_, .cons ((PoolSettings.rereads hs.pool).moves (by decide)) <|
    .cons ((SinkSettings.rereads hs.sink).moves (by decide)) <|
    .cons ((RateSettings.rereads hs.rate).moves (by decide)) <|
    .cons Json.Field.optionalText_moves .nil, fun _ => rfl⟩

/-- Settings are read back from the document that they are written to. -/
theorem read_render {s : Settings} (hs : s.Sized) (poolName : String) :
    read poolName s.render = .ok s.reread :=
  (rereads hs).run (by decide) (standard poolName)

theorem ofText_render_eq_error {s : Settings} {fault : SectionFault} (hs : s.Sized)
    (h : s.reread.check = .error fault) (poolName : String) :
    ofText poolName s.render = .error (.invalid fault) := by
  rw [ofText, read_render hs]
  exact congrArg (fun r => (r.mapError SettingsError.invalid).bind fun _ => .ok s.reread) h

/-- A text is accepted if it can be read and what was read is valid. -/
theorem ofText_eq_ok {poolName text : String} {c : Settings} :
    ofText poolName text = .ok c ↔ read poolName text = .ok c ∧ c.check = .ok () :=
  checked_eq_ok

/-! ## What is accepted after it was read back -/

/-- All lengths of time. -/
def durations (s : Settings) : List Duration :=
  [s.pool.poller.pollTimeout, s.pool.poller.minIdle, s.pool.poller.maxIdle,
   s.pool.scaling.evaluateInterval, s.pool.scaling.growAfter, s.pool.scaling.shrinkAfter,
   s.pool.shutdownTimeout, s.sink.flushInterval, s.sink.writeTimeout, s.sink.shutdownTimeout,
   s.sink.alertMinInterval]

/-- Settings that stay valid when what is finer than a millisecond is cut off, and the reals are
those that their shortest decimals are read as. -/
structure Coarse (s : Settings) : Prop where
  flushInterval : Duration.perMilli ≤ s.sink.flushInterval
  writeTimeout : Duration.perMilli ≤ s.sink.writeTimeout
  evaluateInterval : s.pool.isElastic = true → Duration.perMilli ≤ s.pool.scaling.evaluateInterval
  watermarks : s.pool.isElastic = true →
    ¬Json.reread s.pool.scaling.lowWatermark ≥ Json.reread s.pool.scaling.highWatermark

theorem durations_reread (s : Settings) :
    s.reread.durations = s.durations.map Duration.reread := rfl

/-- Valid settings are valid after they were read back if and only if they are coarse. -/
theorem check_reread {s : Settings} (hok : s.check = .ok ())
    (hfits : ∀ d ∈ s.durations, d.wholeMillis < 2 ^ 64) : s.reread.check = .ok () ↔ s.Coarse := by
  have hidle : s.pool.poller.maxIdle.wholeMillis < 2 ^ 64 := hfits _ (by simp [durations])
  have hevaluate : s.pool.scaling.evaluateInterval.wholeMillis < 2 ^ 64 :=
    hfits _ (by simp [durations])
  have hflush : s.sink.flushInterval.wholeMillis < 2 ^ 64 := hfits _ (by simp [durations])
  have hwrite : s.sink.writeTimeout.wholeMillis < 2 ^ 64 := hfits _ (by simp [durations])
  have hshutdown : s.sink.shutdownTimeout.wholeMillis < 2 ^ 64 := hfits _ (by simp [durations])
  simp only [check_eq_ok, PoolSettings.check_eq_ok, SinkSettings.check_eq_ok,
    PollerSettings.check_eq_ok, ScalingSettings.check_eq_ok] at hok ⊢
  obtain ⟨⟨hmin, hmax, hcapacity, hroom, hrange, -⟩, ⟨hbuffer, hlarge, hpermits, -, -, hcover⟩,
    hrate⟩ := hok
  constructor
  · rintro ⟨⟨-, -, -, -, -, hscaling⟩, ⟨-, -, -, hflushes, hwrites, -⟩, -⟩
    exact
      { flushInterval := (Duration.reread_ne_zero hflush).mp hflushes
        writeTimeout := (Duration.reread_ne_zero hwrite).mp hwrites
        evaluateInterval := fun helastic =>
          (Duration.reread_ne_zero hevaluate).mp (hscaling helastic).2
        watermarks := fun helastic => (hscaling helastic).1 }
  · intro h
    have hscaling : s.reread.pool.isElastic = true →
        ¬s.reread.pool.scaling.lowWatermark ≥ s.reread.pool.scaling.highWatermark ∧
          s.reread.pool.scaling.evaluateInterval ≠ 0 := fun helastic =>
      ⟨h.watermarks helastic, (Duration.reread_ne_zero hevaluate).mpr (h.evaluateInterval helastic)⟩
    exact ⟨⟨hmin, hmax, hcapacity, hroom, Duration.reread_le hrange hidle, hscaling⟩,
      ⟨hbuffer, hlarge, hpermits, (Duration.reread_ne_zero hflush).mpr h.flushInterval,
        (Duration.reread_ne_zero hwrite).mpr h.writeTimeout, Duration.reread_le hcover hshutdown⟩,
      hrate⟩

/-- Valid settings are read back without a fault, and lengths of time that fit into 64 bits of
milliseconds lose only what is finer than a millisecond.  The result is accepted exactly when the
settings are coarse.  What becomes of longer times is said by `serialized_mod`. -/
theorem serialized {s : Settings} (hs : s.Sized) (hok : s.check = .ok ()) (poolName : String) :
    ∃ c, read poolName s.render = .ok c ∧
      List.Forall₂ (fun d d' => d.wholeMillis < 2 ^ 64 → d' = Duration.ofMillis d.wholeMillis)
        s.durations c.durations ∧
      ((∀ d ∈ s.durations, d.wholeMillis < 2 ^ 64) →
        (ofText poolName s.render = .ok c ↔ s.Coarse)) := by
  refine ⟨s.reread, read_render hs poolName, ?_, fun hfits => ?_⟩
  · rw [durations_reread, List.forall₂_map_right_iff]
    exact List.forall₂_same.mpr fun d _ h => Duration.reread_of_lt h
  · rw [ofText_eq_ok, check_reread hok hfits]
    exact and_iff_right (read_render hs poolName)

/-- Settings with a flush every one and a half milliseconds. -/
def frequent : Settings :=
  { standard "pool" with sink := SinkSettings.withFlushInterval {} 1500000 }

theorem coarse_frequent : frequent.Coarse where
  flushInterval := by decide
  writeTimeout := by decide
  evaluateInterval _ := by decide
  watermarks _ := by decide +kernel

/-- Half a millisecond of the flush interval is lost. -/
theorem serialized_frequent : frequent.check = .ok () ∧
    ∃ c, ofText "pool" frequent.render = .ok c ∧ c.sink.flushInterval = Duration.ofMillis 1 := by
  have hsized : frequent.Sized := { sized_standard "pool" with sink := ⟨by decide, by decide⟩ }
  have hok : frequent.check = .ok () := by decide +kernel
  have hfits : ∀ d ∈ frequent.durations, d.wholeMillis < 2 ^ 64 := by decide
  obtain ⟨c, -, hdurations, haccepted⟩ := serialized hsized hok "pool"
  refine ⟨hok, c, (haccepted hfits).mpr coarse_frequent, ?_⟩
  simp only [durations, List.forall₂_cons] at hdurations
  exact hdurations.2.2.2.2.2.2.2.1 (by decide)

/-- However long they are, lengths of time come back as what is left of their whole milliseconds
after division by `2 ^ 64`.  What is accepted is accepted for these. -/
theorem serialized_mod {s : Settings} (hs : s.Sized) (poolName : String) :
    ∃ c, read poolName s.render = .ok c ∧
      List.Forall₂ (fun d d' => d' = Duration.ofMillis (d.wholeMillis % 2 ^ 64))
        s.durations c.durations ∧
      (ofText poolName s.render = .ok c ↔ c.check = .ok ()) := by
  refine ⟨s.reread, read_render hs poolName, ?_, ?_⟩
  · rw [durations_reread, List.forall₂_map_right_iff]
    exact List.forall₂_same.mpr fun d _ => rfl
  · rw [ofText_eq_ok]
    exact and_iff_right (read_render hs poolName)

/-- Settings with a shutdown timeout of more than half a billion years. -/
def lasting : Settings :=
  { standard "pool" with
    pool := PoolSettings.withShutdownTimeout (.named "pool")
      (Duration.ofWholeSeconds 18446744073709553) }

/-- The timeout comes back as less than a second and a half, and is accepted. -/
theorem accepted_lasting : lasting.check = .ok () ∧
    ∃ c, ofText "pool" lasting.render = .ok c ∧ c.pool.shutdownTimeout = Duration.ofMillis 1384 := by
  have hsized : lasting.Sized :=
    { sized_standard "pool" with pool := { PoolSettings.sized_named "pool" with } }
  have hok : lasting.reread.check = .ok () := by decide +kernel
  refine ⟨by decide +kernel, lasting.reread, ofText_eq_ok.mpr ⟨read_render hsized "pool", hok⟩, ?_⟩
  decide

/-- Settings with a flush every half millisecond. -/
def hasty : Settings :=
  { standard "pool" with sink := SinkSettings.withFlushInterval {} 500000 }

/-- A flush interval that is valid only because of its half millisecond comes back as zero. -/
theorem refused_hasty : hasty.Sized ∧ hasty.check = .ok () ∧
    ofText "pool" hasty.render = .error (.invalid (.sink .noFlushInterval)) := by
  have hsized : hasty.Sized := { sized_standard "pool" with sink := ⟨by decide, by decide⟩ }
  exact ⟨hsized, by decide +kernel, ofText_render_eq_error hsized (by decide +kernel) "pool"⟩

end Settings

end Backpressure
