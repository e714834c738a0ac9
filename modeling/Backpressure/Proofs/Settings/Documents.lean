import Backpressure.Proofs.Json.Results
import Backpressure.Proofs.Settings.Reread

/-!
# Settings from documents

Whatever document settings are read from, their sizes fit into their words, their reals are finite
and their lengths of time are whole milliseconds (`Settings.whole_of_read`).  What a document does
not mention is a default, and the defaults are so too.

When such settings are written and read back, nothing but the reals can change
(`Settings.Whole.reread`).  A watermark that changes can meet the other one.
-/

namespace Backpressure

namespace Duration

/-- Whole milliseconds that fit into 64 bits. -/
def IsWhole (d : Duration) : Prop := ∃ n < 2 ^ 64, d = ofMillis n

theorem isWhole_ofMillis {n : Nat} (h : n < 2 ^ 64) : (ofMillis n).IsWhole := ⟨n, h, rfl⟩

theorem isWhole_ofWholeSeconds {n : Nat} (h : n * 1000 < 2 ^ 64) : (ofWholeSeconds n).IsWhole :=
  ⟨n * 1000, h, (Nat.mul_assoc n 1000 perMilli).symm⟩

/-- Whole milliseconds lose nothing. -/
theorem IsWhole.reread {d : Duration} (h : d.IsWhole) : d.reread = d := by
  obtain ⟨n, hn, rfl⟩ := h
  exact reread_ofMillis hn

end Duration

/-! ## Settings that are read -/

namespace PollerSettings

/-- Sized settings with whole lengths of time. -/
structure Whole (s : PollerSettings) : Prop extends Sized s where
  pollTimeout : s.pollTimeout.IsWhole
  minIdle : s.minIdle.IsWhole
  maxIdle : s.maxIdle.IsWhole

theorem whole_default : ({} : PollerSettings).Whole where
  toSized := sized_default
  pollTimeout := Duration.isWhole_ofMillis (by decide)
  minIdle := Duration.isWhole_ofMillis (by decide)
  maxIdle := Duration.isWhole_ofMillis (by decide)

theorem keeps_whole : ∀ f ∈ fields, f.Keeps Whole := by
  simp only [fields, List.forall_mem_cons]
  exact ⟨Json.Field.duration_keeps fun s n hn hs => { hs with pollTimeout := ⟨n, hn, rfl⟩ },
    Json.Field.duration_keeps fun s n hn hs => { hs with minIdle := ⟨n, hn, rfl⟩ },
    Json.Field.duration_keeps fun s n hn hs => { hs with maxIdle := ⟨n, hn, rfl⟩ },
    Json.Field.real_keeps fun s x hx hs => { hs with backoff := hx },
    Json.Field.real_keeps fun s x hx hs => { hs with jitter := hx }, List.forall_mem_nil _⟩

end PollerSettings

namespace ScalingSettings

/-- Sized settings with whole lengths of time. -/
structure Whole (s : ScalingSettings) : Prop extends Sized s where
  evaluateInterval : s.evaluateInterval.IsWhole
  growAfter : s.growAfter.IsWhole
  shrinkAfter : s.shrinkAfter.IsWhole

theorem whole_default : ({} : ScalingSettings).Whole where
  toSized := sized_default
  evaluateInterval := Duration.isWhole_ofMillis (by decide)
  growAfter := Duration.isWhole_ofWholeSeconds (by decide)
  shrinkAfter := Duration.isWhole_ofWholeSeconds (by decide)

theorem keeps_whole : ∀ f ∈ fields, f.Keeps Whole := by
  simp only [fields, List.forall_mem_cons]
  exact ⟨Json.Field.duration_keeps fun s n hn hs => { hs with evaluateInterval := ⟨n, hn, rfl⟩ },
    Json.Field.real_keeps fun s x hx hs => { hs with highWatermark := hx },
    Json.Field.real_keeps fun s x hx hs => { hs with lowWatermark := hx },
    Json.Field.duration_keeps fun s n hn hs => { hs with growAfter := ⟨n, hn, rfl⟩ },
    Json.Field.duration_keeps fun s n hn hs => { hs with shrinkAfter := ⟨n, hn, rfl⟩ },
    Json.Field.natural_keeps fun s n hn hs => { hs with step := hn }, List.forall_mem_nil _⟩

end ScalingSettings

namespace PoolSettings

/-- Sized settings with whole lengths of time. -/
structure Whole (s : PoolSettings) : Prop where
  minWorkers : s.minWorkers < 2 ^ 64
  maxWorkers : s.maxWorkers < 2 ^ 64
  queueCapacity : s.queueCapacity < 2 ^ 64
  poller : s.poller.Whole
  scaling : s.scaling.Whole
  shutdownTimeout : s.shutdownTimeout.IsWhole

/-- What was read from a document fits into its words. -/
theorem Whole.sized {s : PoolSettings} (hs : s.Whole) : s.Sized :=
  { hs with
    poller := hs.poller.toSized
    scaling := hs.scaling.toSized }

theorem whole_named (name : String) : (named name).Whole :=
  { sized_named name with
    poller := PollerSettings.whole_default
    scaling := ScalingSettings.whole_default
    shutdownTimeout := Duration.isWhole_ofWholeSeconds (by decide) }

theorem keeps_whole : ∀ f ∈ fields, f.Keeps Whole := by
  simp only [fields, List.forall_mem_cons]
  exact ⟨Json.Field.text_keeps fun s t hs => { hs with },
    Json.Field.text_keeps fun s t hs => { hs with },
    Json.Field.natural_keeps fun s n hn hs => { hs with minWorkers := hn },
    Json.Field.natural_keeps fun s n hn hs => { hs with maxWorkers := hn },
    Json.Field.natural_keeps fun s n hn hs => { hs with queueCapacity := hn },
    Json.Field.record_keeps PollerSettings.keeps_whole (fun _ hs => hs.poller)
      fun s p hp hs => { hs with poller := hp },
    Json.Field.record_keeps ScalingSettings.keeps_whole (fun _ hs => hs.scaling)
      fun s p hp hs => { hs with scaling := hp },
    Json.Field.duration_keeps fun s n hn hs => { hs with shutdownTimeout := ⟨n, hn, rfl⟩ },
    List.forall_mem_nil _⟩

end PoolSettings

namespace SinkSettings

/-- Sized settings with whole lengths of time. -/
structure Whole (s : SinkSettings) : Prop extends Sized s where
  flushInterval : s.flushInterval.IsWhole
  writeTimeout : s.writeTimeout.IsWhole
  shutdownTimeout : s.shutdownTimeout.IsWhole
  alertMinInterval : s.alertMinInterval.IsWhole

theorem whole_default : ({} : SinkSettings).Whole where
  toSized := sized_default
  flushInterval := Duration.isWhole_ofWholeSeconds (by decide)
  writeTimeout := Duration.isWhole_ofWholeSeconds (by decide)
  shutdownTimeout := Duration.isWhole_ofWholeSeconds (by decide)
  alertMinInterval := Duration.isWhole_ofWholeSeconds (by decide)

theorem keeps_whole : ∀ f ∈ fields, f.Keeps Whole := by
  simp only [fields, List.forall_mem_cons]
  exact ⟨Json.Field.text_keeps fun s t hs => { hs with },
    Json.Field.natural_keeps fun s n hn hs => { hs with capacity := hn },
    Json.Field.natural_keeps fun s n hn hs => { hs with permitsPerSecond := hn },
    Json.Field.duration_keeps fun s n hn hs => { hs with flushInterval := ⟨n, hn, rfl⟩ },
    Json.Field.duration_keeps fun s n hn hs => { hs with writeTimeout := ⟨n, hn, rfl⟩ },
    Json.Field.duration_keeps fun s n hn hs => { hs with shutdownTimeout := ⟨n, hn, rfl⟩ },
    Json.Field.duration_keeps fun s n hn hs => { hs with alertMinInterval := ⟨n, hn, rfl⟩ },
    List.forall_mem_nil _⟩

end SinkSettings

theorem RateSettings.keeps_sized : ∀ f ∈ fields, f.Keeps Sized := by
  simp only [fields, List.forall_mem_cons]
  exact ⟨Json.Field.natural_keeps fun s n hn hs => { hs with callsPerSecond := hn },
    Json.Field.natural_keeps fun s n hn hs => { hs with windowSeconds := hn },
    List.forall_mem_nil _⟩

namespace Settings

/-- Sized settings with whole lengths of time. -/
structure Whole (s : Settings) : Prop where
  pool : s.pool.Whole
  sink : s.sink.Whole
  rate : s.rate.Sized

/-- What was read from a document fits into its words. -/
theorem Whole.sized {s : Settings} (hs : s.Whole) : s.Sized :=
  { hs with
    pool := hs.pool.sized
    sink := hs.sink.toSized }

/-- The defaults are whole milliseconds. -/
theorem whole_standard (poolName : String) : (standard poolName).Whole where
  pool := PoolSettings.whole_named poolName
  sink := SinkSettings.whole_default
  rate := RateSettings.sized_default

theorem keeps_whole : ∀ f ∈ fields, f.Keeps Whole := by
  simp only [fields, List.forall_mem_cons]
  exact ⟨Json.Field.record_keeps PoolSettings.keeps_whole (fun _ hs => hs.pool)
      fun s p hp hs => { hs with pool := hp },
    Json.Field.record_keeps SinkSettings.keeps_whole (fun _ hs => hs.sink)
      fun s p hp hs => { hs with sink := hp },
    Json.Field.record_keeps RateSettings.keeps_sized (fun _ hs => hs.rate)
      fun s p hp hs => { hs with rate := hp },
    Json.Field.optionalText_keeps fun s t hs => { hs with }, List.forall_mem_nil _⟩

/-- Settings that were read have sizes that fit, finite reals and whole lengths of time. -/
theorem whole_of_read {poolName text : String} {c : Settings} (h : read poolName text = .ok c) :
    c.Whole :=
  (Json.gives_readRecord keeps_whole false (whole_standard poolName)).run h

/-! ## Settings that are written again -/

/-- All reals. -/
def reals (s : Settings) : List Float :=
  [s.pool.poller.backoff, s.pool.poller.jitter, s.pool.scaling.highWatermark,
   s.pool.scaling.lowWatermark]

/-- The same settings with other reals. -/
def mapReals (f : Float → Float) (s : Settings) : Settings :=
  { s with
    pool :=
      { s.pool with
        poller :=
          { s.pool.poller with
            backoff := f s.pool.poller.backoff
            jitter := f s.pool.poller.jitter }
        scaling :=
          { s.pool.scaling with
            highWatermark := f s.pool.scaling.highWatermark
            lowWatermark := f s.pool.scaling.lowWatermark } } }

variable {s c : Settings}

theorem mapReals_eq_self {f : Float → Float} (h : ∀ x ∈ s.reals, f x = x) : s.mapReals f = s := by
  simp only [reals, List.forall_mem_cons] at h
  obtain ⟨hbackoff, hjitter, hhigh, hlow, -⟩ := h
  simp only [mapReals, hbackoff, hjitter, hhigh, hlow]

/-- The reals of settings that fit are finite. -/
theorem Sized.isFinite (hs : s.Sized) : ∀ x ∈ s.reals, x.isFinite = true := by
  simp only [reals, List.forall_mem_cons]
  exact ⟨hs.pool.poller.backoff, hs.pool.poller.jitter, hs.pool.scaling.highWatermark,
    hs.pool.scaling.lowWatermark, List.forall_mem_nil _⟩

/-- Nothing but the reals comes back in another way. -/
theorem Whole.reread (hs : s.Whole) : s.reread = s.mapReals Json.reread := by
  have hpoller := hs.pool.poller
  have hscaling := hs.pool.scaling
  simp only [Settings.reread, PoolSettings.reread, PollerSettings.reread, ScalingSettings.reread,
    SinkSettings.reread, mapReals, hpoller.pollTimeout.reread, hpoller.minIdle.reread,
    hpoller.maxIdle.reread, hscaling.evaluateInterval.reread, hscaling.growAfter.reread,
    hscaling.shrinkAfter.reread, hs.pool.shutdownTimeout.reread, hs.sink.flushInterval.reread,
    hs.sink.writeTimeout.reread, hs.sink.shutdownTimeout.reread, hs.sink.alertMinInterval.reread]

/-- Valid settings are valid with other reals if and only if the watermarks are in order. -/
theorem check_mapReals {f : Float → Float} (hok : s.check = .ok ()) :
    (s.mapReals f).check = .ok () ↔
      (s.pool.isElastic = true →
        ¬f s.pool.scaling.lowWatermark ≥ f s.pool.scaling.highWatermark) := by
  simp only [check_eq_ok, PoolSettings.check_eq_ok, PollerSettings.check_eq_ok,
    ScalingSettings.check_eq_ok] at hok ⊢
  obtain ⟨⟨hmin, hmax, hcapacity, hroom, hrange, hscaling⟩, hsink, hrate⟩ := hok
  constructor
  · rintro ⟨⟨-, -, -, -, -, hall⟩, -, -⟩ helastic
    exact (hall helastic).1
  · intro hmarks
    exact ⟨⟨hmin, hmax, hcapacity, hroom, hrange, fun helastic =>
      ⟨hmarks helastic, (hscaling helastic).2⟩⟩, hsink, hrate⟩

/-- Settings from a document come back as they are if the shortest decimals of their reals are read
as these reals. -/
theorem ofText_render {poolName text : String} (h : ofText poolName text = .ok c)
    (hexact : ∀ x ∈ c.reals, Json.Reader.run Json.Reader.realNumber (Decimal.text x) = .ok x)
    (poolName' : String) : ofText poolName' c.render = .ok c := by
  obtain ⟨hread, hok⟩ := ofText_eq_ok.mp h
  have hwhole : c.Whole := whole_of_read hread
  have hsame : c.reread = c :=
    hwhole.reread.trans (mapReals_eq_self fun x hx => by rw [Json.reread, hexact x hx])
  have hagain := read_render hwhole.sized poolName'
  rw [hsame] at hagain
  exact ofText_eq_ok.mpr ⟨hagain, hok⟩

/-- Settings that a document gives are valid.  Written and read back they are the same, but for
each real there is the one that its shortest decimal is read as.  They are accepted again exactly
when the watermarks of an elastic pool are still in order. -/
theorem roundTrip {poolName text : String} (h : ofText poolName text = .ok c) (poolName' : String) :
    c.check = .ok () ∧
      (∀ x ∈ c.reals, Json.Reader.run Json.Reader.realNumber (Decimal.text x) =
        .ok (Json.reread x)) ∧
      read poolName' c.render = .ok (c.mapReals Json.reread) ∧
      (ofText poolName' c.render = .ok (c.mapReals Json.reread) ↔
        (c.pool.isElastic = true →
          ¬Json.reread c.pool.scaling.lowWatermark ≥ Json.reread c.pool.scaling.highWatermark)) := by
  obtain ⟨hread, hok⟩ := ofText_eq_ok.mp h
  have hwhole : c.Whole := whole_of_read hread
  have hagain : read poolName' c.render = .ok (c.mapReals Json.reread) :=
    hwhole.reread ▸ read_render hwhole.sized poolName'
  refine ⟨hok, fun x hx => Json.Reader.run_text (hwhole.sized.isFinite x hx), hagain, ?_⟩
  rw [ofText_eq_ok, ← check_mapReals hok]
  exact and_iff_right hagain

/-- A document with a section as an array and a key that is not known. -/
def mixed : String := "\x7b\"sink\":[\"hourly\",5000],\"owner\":null\x7d"

theorem roundTrip_mixed : ∃ c, ofText "pool" mixed = .ok c ∧ c.sink.capacity = 5000 ∧
    read "other" c.render = .ok (c.mapReals Json.reread) := by
  have haccepted : (match ofText "pool" mixed with
      | .ok c => c.sink.capacity == 5000
      | .error _ => false) = true := by decide +kernel
  cases h : ofText "pool" mixed with
  | error e => rw [h] at haccepted; cases haccepted
  | ok c =>
      rw [h] at haccepted
      exact ⟨c, rfl, beq_iff_eq.mp haccepted, (roundTrip h "other").2.2.1⟩

/-- A document with two watermarks that are next to each other. -/
def narrow : String :=
  "\x7b\"pool\":\x7b\"scaling\":\x7b\"high_watermark\":0.90142745761148344," ++
    "\"low_watermark\":0.9014274576114833921\x7d\x7d\x7d"

/-- The shortest decimals of two neighbours are read as one double. -/
theorem refused_narrow : ∃ c, ofText "pool" narrow = .ok c ∧
    ofText "pool" c.render = .error (.invalid (.pool (.scaling .watermarksReversed))) := by
  have hmet : (match read "pool" narrow with
      | .ok c => decide (c.check = .ok () ∧ (c.mapReals Json.reread).check =
          .error (.pool (.scaling .watermarksReversed)))
      | .error _ => false) = true := by decide +kernel
  cases h : read "pool" narrow with
  | error e => rw [h] at hmet; cases hmet
  | ok c =>
      rw [h] at hmet
      obtain ⟨hok, hrefused⟩ := of_decide_eq_true hmet
      have hwhole : c.Whole := whole_of_read h
      rw [← hwhole.reread] at hrefused
      exact ⟨c, ofText_eq_ok.mpr ⟨h, hok⟩, ofText_render_eq_error hwhole.sized hrefused "pool"⟩

end Settings

end Backpressure
