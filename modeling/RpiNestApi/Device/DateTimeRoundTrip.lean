import RpiNestApi.Dates.Parsing
import RpiNestApi.Device.DateTimeChanges

/-
Date and time, set and read back.

A date is set in microseconds, which are a double that may have to be rounded, and read in
milliseconds, of which the fraction is cut off.  Meanwhile the clock goes on.
-/

namespace RpiNestApi.DateTime

open Async Utf16

/-! ## The service -/

/-- `BigInt(new Date(date).getTime() * 1000)`. -/
def timestampInMicroSeconds (parseDate : Text → Option Time) (date : Text) : Option Int :=
  ((Time.getTime (parseDate date)).mul 1000).bigInt

/-- A system with the dates of JavaScript. -/
def Host.ofDates (timezones : List Text) (parseDate : Text → Option Time) : Host where
  timezones := timezones
  microseconds := timestampInMicroSeconds parseDate

structure DateTimeInfoDto where
  timeZone : Text
  isNtpEnabled : Bool
  date : Text
  ntpServer : Option Text

/-- The time of an invalid date cannot be printed. -/
def DateTimeService.getDateTime : Service DateTimeInfoDto := do
  let dateTimeInfo ← TimeDate1Service.getDateTimeInfo
  let ntpServer ← DateTimeService.getNtpAddressFromConfig
  match Time.ofMs dateTimeInfo.date with
  | none => throw (.error "Invalid time value")
  | some date =>
    return {
      timeZone := dateTimeInfo.timeZone
      isNtpEnabled := dateTimeInfo.isNtpEnabled
      date := text date.toISOString
      ntpServer }

/-! ## What a change and a read do -/

/-- The server of the configuration, where it can be read. -/
def configured (fails : Failures) (w : World) : Option Text :=
  match (settle { timezones := [], microseconds := fun _ => none } fails .readFile w).1 with
  | .ok ntpConfig => TIMESYNCD_CONFIG.GET_REGEXP ntpConfig
  | .error _ => none

/-- The clock was set once, and goes on from there. -/
structure WasSet (host : Host) (dateTime : DateTimeSettingsDto) (w w' : World) : Prop where
  clock : ∃ usecUtc, host.microseconds dateTime.date = some usecUtc ∧ 0 < usecUtc ∧
    ∃ elapsed, w.elapsed ≤ elapsed ∧ elapsed ≤ w'.elapsed ∧ w'.offset = usecUtc - elapsed
  timeZone : w'.timeZone = dateTime.timeZone
  wasDisabled : w.isNtpEnabled = false
  isNtpEnabled : w'.isNtpEnabled = false
  config : w'.config = w.config

/-- Nothing stands in the way of the change. -/
structure Settable (host : Host) (fails : Failures) (dateTime : DateTimeSettingsDto) (w : World) :
    Prop where
  works : ∀ q, fails q = none
  date : ∃ usecUtc, host.microseconds dateTime.date = some usecUtc ∧ 0 < usecUtc
  timeZone : dateTime.timeZone ∈ host.timezones
  isNtpEnabled : w.isNtpEnabled = false

/-- How a change ends. -/
structure DateTimeChanged (host : Host) (fails : Failures) (dateTime : DateTimeSettingsDto)
    (w : World) (r : Except Exception Unit) (w' : World) : Prop where
  wasSet : r = .ok () → WasSet host dateTime w w'
  succeeds : Settable host fails dateTime w → r = .ok ()
  elapsed : w.elapsed ≤ w'.elapsed

/-- The time that was read is shown. -/
structure Shows (fails : Failures) (w w' : World) (info : DateTimeInfoDto) : Prop where
  date : ∃ elapsed, w.elapsed ≤ elapsed ∧ elapsed ≤ w'.elapsed ∧
    ∃ time : Time, time.ms = (elapsed + w.offset).tdiv 1000 ∧ info.date = text time.toISOString
  timeZone : info.timeZone = w.timeZone
  isNtpEnabled : info.isNtpEnabled = w.isNtpEnabled
  ntpServer : info.ntpServer = configured fails w

/-- The times at which the clock may be read can all be printed. -/
def ClockInRange (w w' : World) : Prop :=
  ∀ elapsed : Nat, w.elapsed ≤ elapsed → elapsed ≤ w'.elapsed →
    |(elapsed + w.offset).tdiv 1000| ≤ 8640000000000000

/-- How a read ends. -/
structure DateTimeRead (fails : Failures) (w : World) (r : Except Exception DateTimeInfoDto)
    (w' : World) : Prop where
  shown : ∀ info, r = .ok info → Shows fails w w' info
  succeeds : (∀ q, fails q = none) → ClockInRange w w' → ∃ info, r = .ok info
  passes : TimePasses w w'

section Specs

variable {host : Host} {fails : Failures} {w w' : World}

theorem DateTimeChanged.of_fails {dateTime : DateTimeSettingsDto} {q : Await}
    {e e' : Exception} (hfails : fails q = some e) (h : w.elapsed ≤ w'.elapsed) :
    DateTimeChanged host fails dateTime w (.error e') w' where
  wasSet h := by cases h
  succeeds hable := by
    rw [hable.works q] at hfails
    cases hfails
  elapsed := h

theorem setDateTime_changed (host : Host) (fails : Failures) (dateTime : DateTimeSettingsDto)
    (w : World) : Ends host fails (DateTimeService.setDateTime host dateTime)
      (DateTimeChanged host fails dateTime w) w := by
  simp only [Ends, DateTimeService.setDateTime, TimeDate1Service.getDateTimeInfo,
    TimeDate1Service.setSystemDate, TimeDate1Service.setTimezone, Prog.bind_def, Prog.pure_def,
    Prog.ends_bind]
  refine ends_unlessFails (fun _ => rfl) (fun _ w₁ h₁ => ?_)
    fun e he w₁ h₁ => .of_fails he h₁.elapsed
  refine ends_unlessFails (fun _ => rfl) (fun _ w₂ h₂ => ?_)
    fun e he w₂ h₂ => .of_fails he (h₁.trans h₂).elapsed
  have h := h₁.trans h₂
  have hntp : w₂.isNtpEnabled = w.isNtpEnabled := by
    obtain ⟨d, rfl⟩ := h
    rfl
  refine Prog.ends_ite.mpr ⟨fun henabled => ?_, fun hdisabled => ?_⟩
  · refine ⟨fun h => (by cases h), fun hable => ?_, h.elapsed⟩
    rw [hntp, hable.isNtpEnabled] at henabled
    cases henabled
  have hdisabled : w.isNtpEnabled = false := by
    rw [← hntp]
    simpa using hdisabled
  simp only [Prog.ends_bind]
  refine ends_unlessFails (fun _ => rfl) (fun _ w₃ h₃ => ?_)
    fun e he w₃ h₃ => .of_fails he (h.trans h₃).elapsed
  cases htime : host.microseconds dateTime.date with
  | none =>
      refine ⟨fun h => (by cases h), fun hable => ?_, (h.trans h₃).elapsed⟩
      obtain ⟨_, husec, _⟩ := hable.date
      cases htime.symm.trans husec
  | some usecUtc =>
      refine ends_setTime (fun hpositive _ w₄ h₄ => ?_) fun e he w₄ h₄ => ?_
      case refine_2 =>
        refine ⟨fun h => (by cases h), fun hable => ?_, ((h.trans h₃).trans h₄).elapsed⟩
        obtain ⟨_, husec, hpositive⟩ := hable.date
        cases htime.symm.trans husec
        cases (hable.works _).symm.trans (he.resolve_left (not_not_intro hpositive))
      have h := (h.trans h₃).trans h₄
      -- From here on the clock is set.
      have hset : ∀ {w₅}, TimePasses { w₄ with offset := usecUtc - w₄.elapsed } w₅ →
          w.elapsed ≤ w₅.elapsed ∧
            WasSet host dateTime w { w₅ with timeZone := dateTime.timeZone } := by
        rintro _ ⟨d, rfl⟩
        obtain ⟨d', rfl⟩ := h
        exact ⟨(Nat.le_add_right ..).trans (Nat.le_add_right ..),
          ⟨usecUtc, htime, hpositive, _, Nat.le_add_right .., Nat.le_add_right .., rfl⟩, rfl,
          hdisabled, hdisabled, rfl⟩
      refine ends_unlessFails (fun _ => rfl) (fun _ w₅ h₅ => ?_)
        fun e he w₅ h₅ => .of_fails he (hset h₅).1
      refine ends_await.mpr fun w₆ h₆ => ?_
      obtain ⟨hle, hwas⟩ := hset (h₅.trans h₆)
      by_cases hzone : dateTime.timeZone ∈ host.timezones
      · rw [settle, if_pos hzone]
        exact ⟨fun _ => hwas, fun _ => rfl, hle⟩
      · rw [settle, if_neg hzone]
        exact ⟨fun h => (by cases h), fun hable => absurd hable.timeZone hzone, hle⟩

theorem configured_eq (hconfig : w'.config = w.config) :
    configured fails w' = configured fails w := by
  rw [configured, configured, settle, settle, hconfig]
  cases w.config with
  | none => rfl
  | some content => cases fails .readFile <;> rfl

theorem getNtpAddressFromConfig_configured :
    Ends host fails DateTimeService.getNtpAddressFromConfig
      (fun r w' => r = .ok (configured fails w) ∧ TimePasses w w') w := by
  simp only [Ends, DateTimeService.getNtpAddressFromConfig, Prog.bind_def, Prog.pure_def,
    Prog.tryCatch_def, Prog.ends_catchWith, Prog.ends_bind]
  refine ends_await.mpr fun w₀ hw₀ => ?_
  have hconfig : configured fails w₀ = configured fails w := by
    obtain ⟨d, rfl⟩ := hw₀
    exact configured_eq rfl
  rw [← hconfig, configured, settle, settle]
  cases w₀.config with
  | none => exact ⟨rfl, hw₀⟩
  | some content =>
      cases fails .readFile with
      | none => exact ⟨rfl, hw₀⟩
      | some e => exact ⟨rfl, hw₀⟩

theorem DateTimeRead.of_fails {q : Await} {e e' : Exception} (hfails : fails q = some e)
    (h : TimePasses w w') : DateTimeRead fails w (.error e') w' where
  shown _ h := by cases h
  succeeds hworks := by
    rw [hworks q] at hfails
    cases hfails
  passes := h

theorem getDateTime_read (host : Host) (fails : Failures) (w : World) :
    Ends host fails DateTimeService.getDateTime (DateTimeRead fails w) w := by
  simp only [Ends, DateTimeService.getDateTime, TimeDate1Service.getDateTimeInfo, Prog.bind_def,
    Prog.pure_def, Prog.ends_bind]
  refine ends_unlessFails (fun _ => rfl) (fun _ w₁ h₁ => ?_) fun e he w₁ h₁ => .of_fails he h₁
  refine ends_unlessFails (fun _ => rfl) (fun _ w₂ h₂ => ?_)
    fun e he w₂ h₂ => .of_fails he (h₁.trans h₂)
  obtain ⟨d, rfl⟩ := h₁.trans h₂
  refine getNtpAddressFromConfig_configured.mono fun r w₃ hr => ?_
  obtain ⟨rfl, d', rfl⟩ := hr
  have hpasses : TimePasses w { w with elapsed := w.elapsed + d + d' } :=
    ⟨d + d', by rw [Nat.add_assoc]⟩
  cases hdate : Time.ofMs ((World.clock { w with elapsed := w.elapsed + d }).tdiv 1000) with
  | none =>
      refine ⟨fun info h => (by cases h), fun _ hrange => ?_, hpasses⟩
      exact absurd (hrange _ (Nat.le_add_right ..) (Nat.le_add_right ..))
        (Time.ofMs_eq_none.mp hdate)
  | some time =>
      refine ⟨fun info h => ?_, fun _ _ => ⟨_, rfl⟩, hpasses⟩
      cases h
      exact { date := ⟨w.elapsed + d, Nat.le_add_right .., Nat.le_add_right .., time,
                Time.ofMs_eq_some.mp hdate, rfl⟩
              timeZone := rfl
              isNtpEnabled := rfl
              ntpServer := configured_eq rfl }

end Specs

/-! ## The round trips -/

/-- The device shows the time that was set and what has gone by since then, where the
microseconds of the time need not be rounded, and a time next to it otherwise. -/
structure SetTimeShown (parseDate : Text → Option Time) (fails : Failures)
    (dateTime : DateTimeSettingsDto) (time : Time) (w : World) (info : DateTimeInfoDto)
    (w' : World) : Prop where
  date : ∃ d : Nat, w.elapsed + d ≤ w'.elapsed ∧ ∃ time', parseDate info.date = some time' ∧
    |time'.ms - (time.ms + d / 1000)| ≤ 1 ∧
      (|time.ms * 1000| < 2 ^ 53 → time'.ms = time.ms + d / 1000)
  timeZone : info.timeZone = dateTime.timeZone
  isNtpEnabled : info.isNtpEnabled = false
  ntpServer : info.ntpServer = configured fails w

/-- The clock was put back by the time between its being read and its being set, and by
the fraction of a millisecond that is not shown. -/
structure ShownTimeSet (w w' : World) : Prop where
  clock : ∃ elapsed d : Nat, w.elapsed ≤ elapsed ∧ elapsed + d ≤ w'.elapsed ∧
    d - 512 ≤ w.offset - w'.offset ∧ w.offset - w'.offset ≤ d + 1511 ∧
      (0 ≤ elapsed + w.offset → elapsed + w.offset < 2 ^ 53 →
        d ≤ w.offset - w'.offset ∧ w.offset - w'.offset < d + 1000)
  timeZone : w'.timeZone = w.timeZone
  isNtpEnabled : w'.isNtpEnabled = w.isNtpEnabled
  config : w'.config = w.config

/-- Nothing is set but what is shown, and nothing is shown but what is set. -/
structure DateTimeRoundTrips (host : Host) (parseDate : Text → Option Time) : Prop where
  set_then_get : ∀ fails dateTime time w, parseDate dateTime.date = some time →
    Ends host fails
      (do DateTimeService.setDateTime host dateTime; DateTimeService.getDateTime)
      (fun r w' => (∀ info, r = .ok info → SetTimeShown parseDate fails dateTime time w info w') ∧
        (Settable host fails dateTime w →
          |time.ms| + ((w'.elapsed - w.elapsed) / 1000 + 1) ≤ 8640000000000000 →
            ∃ info, r = .ok info)) w
  get_then_set : ∀ fails w,
    Ends host fails
      (do
        let info ← DateTimeService.getDateTime
        DateTimeService.setDateTime host { timeZone := info.timeZone, date := info.date })
      (fun r w' => r = .ok () → ShownTimeSet w w') w

section RoundTrips

variable {parseDate : Text → Option Time} {fails : Failures}

/-- The microseconds of a date are near to a thousand for each of its milliseconds. -/
theorem timestamp_near {date : Text} {time : Time} (h : parseDate date = some time) :
    ∃ usecUtc, timestampInMicroSeconds parseDate date = some usecUtc ∧
      |usecUtc - time.ms * 1000| ≤ 512 ∧
        (|time.ms * 1000| < 2 ^ 53 → usecUtc = time.ms * 1000) := by
  have hrange := abs_le.mp time.inRange
  have hsmall : |time.ms * 1000| < 2 ^ 63 := abs_lt.mpr ⟨by omega, by omega⟩
  have hmul : (Time.getTime (some time)).mul 1000 = .ofRat ((time.ms * 1000 : ℤ) : ℚ) := by
    rw [Time.getTime, Number.mul]
    push_cast
    rfl
  rw [timestampInMicroSeconds, h, hmul]
  exact Number.exists_bigInt_ofRat hsmall

variable {timezones : List Text}

/-- The clock when it is read `d` microseconds after it was set. -/
theorem shown_of_set {ms usecUtc d : ℤ} (hnear : |usecUtc - ms * 1000| ≤ 512) :
    |(usecUtc + d) / 1000 - (ms + d / 1000)| ≤ 1 := by
  have hnear := abs_le.mp hnear
  rw [abs_le]
  omega

theorem setDateTime_getDateTime
    (hparse : ∀ time : Time, parseDate (text time.toISOString) = some time)
    {dateTime : DateTimeSettingsDto} {time : Time} (htime : parseDate dateTime.date = some time)
    (w : World) : Ends (.ofDates timezones parseDate) fails
      (do DateTimeService.setDateTime (.ofDates timezones parseDate) dateTime
          DateTimeService.getDateTime)
      (fun r w' => (∀ info, r = .ok info → SetTimeShown parseDate fails dateTime time w info w') ∧
        (Settable (.ofDates timezones parseDate) fails dateTime w →
          |time.ms| + ((w'.elapsed - w.elapsed) / 1000 + 1) ≤ 8640000000000000 →
            ∃ info, r = .ok info)) w := by
  refine Prog.ends_bind.mpr ((setDateTime_changed _ fails dateTime w).mono fun r w₁ hset => ?_)
  cases r with
  | error e => exact ⟨fun info h => (by cases h), fun hable => (by cases hset.succeeds hable)⟩
  | ok _ =>
      obtain ⟨usecUtc, husec, hpositive, e₁, hw, hw₁, hoffset⟩ := (hset.wasSet rfl).clock
      obtain ⟨usecUtc', husec', hnear, hexact⟩ := timestamp_near htime
      obtain rfl : usecUtc = usecUtc' := Option.some.inj (husec.symm.trans husec')
      have hwas := hset.wasSet rfl
      refine (getDateTime_read _ fails w₁).mono fun r w' hread => ⟨fun info hinfo => ?_, ?_⟩
      · have hshown := hread.shown info hinfo
        obtain ⟨e₂, hw₁', hw', time', hms, hdate⟩ := hshown.date
        have hclock : (e₂ + w₁.offset : ℤ) = usecUtc + ((e₂ - e₁ : ℕ) : ℤ) := by omega
        rw [hclock, Int.tdiv_eq_ediv_of_nonneg (by omega)] at hms
        refine { date := ⟨e₂ - e₁, by omega, time', ?_, ?_, fun hsmall => ?_⟩
                 timeZone := hshown.timeZone.trans hwas.timeZone
                 isNtpEnabled := hshown.isNtpEnabled.trans hwas.isNtpEnabled
                 ntpServer := hshown.ntpServer.trans (configured_eq hwas.config) }
        · rw [hdate, hparse]
        · rw [hms]
          exact shown_of_set hnear
        · have hsame := hexact hsmall
          omega
      · intro hable hrange
        refine hread.succeeds hable.works fun e₂ he₂ he₂' => ?_
        have hclock : (e₂ + w₁.offset : ℤ) = usecUtc + ((e₂ - e₁ : ℕ) : ℤ) := by omega
        have hclose := abs_le.mp (shown_of_set (d := ((e₂ - e₁ : ℕ) : ℤ)) hnear)
        have hms := abs_le.mp (le_refl |time.ms|)
        rw [hclock, Int.tdiv_eq_ediv_of_nonneg (by omega), abs_le]
        omega

/-- Where the time that is shown can be set, the clock does not stand before 1970. -/
theorem nonneg_of_set {clock usecUtc : ℤ} (hpositive : 0 < usecUtc)
    (hnear : |usecUtc - clock.tdiv 1000 * 1000| ≤ 512)
    (hexact : |clock.tdiv 1000 * 1000| < 2 ^ 53 → usecUtc = clock.tdiv 1000 * 1000) :
    0 ≤ clock := by
  by_contra hneg
  have hshown : clock.tdiv 1000 ≤ 0 := by
    rw [← neg_neg clock, Int.neg_tdiv, Int.tdiv_eq_ediv_of_nonneg (by omega)]
    omega
  have hnear := abs_le.mp hnear
  rcases Int.lt_or_eq_of_le hshown with hlt | heq
  · omega
  · rw [heq] at hexact
    have hzero := hexact (by norm_num)
    omega

theorem getDateTime_setDateTime
    (hparse : ∀ time : Time, parseDate (text time.toISOString) = some time) (w : World) :
    Ends (.ofDates timezones parseDate) fails
      (do
        let info ← DateTimeService.getDateTime
        DateTimeService.setDateTime (.ofDates timezones parseDate)
          { timeZone := info.timeZone, date := info.date })
      (fun r w' => r = .ok () → ShownTimeSet w w') w := by
  refine Prog.ends_bind.mpr ((getDateTime_read _ fails w).mono fun r w₁ hread => ?_)
  cases r with
  | error e => exact fun h => (by cases h)
  | ok info =>
      have hshown := hread.shown info rfl
      obtain ⟨e₁, hw, hw₁, time, hms, hdate⟩ := hshown.date
      have htime : parseDate info.date = some time := by rw [hdate, hparse]
      obtain ⟨passed, hpassed⟩ := hread.passes
      refine (setDateTime_changed _ fails _ w₁).mono fun r w' hset hr => ?_
      have hwas := hset.wasSet hr
      obtain ⟨usecUtc, husec, hpositive, e₂, hw₁', hw', hoffset⟩ := hwas.clock
      obtain ⟨usecUtc', husec', hnear, hexact⟩ := timestamp_near htime
      obtain rfl : usecUtc = usecUtc' := Option.some.inj (husec.symm.trans husec')
      rw [hms] at hnear hexact
      have hclock := nonneg_of_set hpositive hnear hexact
      rw [Int.tdiv_eq_ediv_of_nonneg hclock] at hnear hexact
      have hnear := abs_le.mp hnear
      refine { clock := ⟨e₁, e₂ - e₁, hw, by omega, by omega, by omega, fun hfrom hto => ?_⟩
               timeZone := hwas.timeZone.trans hshown.timeZone
               isNtpEnabled := ?_
               config := hwas.config.trans (by rw [hpassed]) }
      · have hsame := hexact (abs_lt.mpr ⟨by omega, by omega⟩)
        omega
      · rw [hwas.isNtpEnabled, ← hwas.wasDisabled, hpassed]

end RoundTrips

/-- Date and time are read as they were set, and set as they were read, but for what goes
by meanwhile and fractions of a millisecond. -/
theorem date_time_round_trip {parseDate : Text → Option Time}
    (hparse : ∀ time : Time, parseDate (text time.toISOString) = some time)
    (timezones : List Text) :
    DateTimeRoundTrips (.ofDates timezones parseDate) parseDate where
  set_then_get _ _ _ w htime := setDateTime_getDateTime hparse htime w
  get_then_set _ w := getDateTime_setDateTime hparse w

/-- The dates that `toISOString` prints, and no others. -/
def parseDate (date : Text) : Option Time := Time.parseISO (String.ofList (toChars date))

theorem date_time_round_trip_berlin :
    DateTimeRoundTrips (.ofDates [text "Europe/Berlin"] parseDate) parseDate := by
  refine date_time_round_trip (fun time => ?_) _
  rw [parseDate, text, toChars_ofChars, String.ofList_toList, Time.parseISO_toISOString]

end RpiNestApi.DateTime
