import RpiNestApi.Device.DateTime

/-
What a rejected change leaves behind.

Nothing takes a step back.  Where a step fails, those before it stay: the clock when
the time zone is refused, and the configuration file when timesyncd is not restarted
or the switch is not set.
-/

namespace RpiNestApi.DateTime

open Async Utf16

/-! ## As before -/

/-- Where the request is rejected, the clock and the time zone are as before. -/
def DateTimeAsBefore (w : World) (r : Except Exception Unit) (w' : World) : Prop :=
  ∀ e, r = .error e → w'.offset = w.offset ∧ w'.timeZone = w.timeZone

/-- Where the request is rejected, the configuration and the switch are as before. -/
def NtpAsBefore (w : World) (r : Except Exception Unit) (w' : World) : Prop :=
  ∀ e, r = .error e → w'.config = w.config ∧ w'.isNtpEnabled = w.isNtpEnabled

/-! ## What was done -/

/-- The clock was set to the requested date, and the step after that has failed with `e`. -/
structure SetThenFailed (host : Host) (fails : Failures) (dateTime : DateTimeSettingsDto)
    (w : World) (e : Exception) (w' : World) : Prop where
  set : ∃ usecUtc, host.microseconds dateTime.date = some usecUtc ∧
    fails (.setTime usecUtc) = none ∧
    ∃ elapsed, w.elapsed ≤ elapsed ∧ elapsed ≤ w'.elapsed ∧ w'.offset = usecUtc - elapsed
  failed : fails (.connect .setTimezone) = some e ∨
    fails (.connect .setTimezone) = none ∧ dateTime.timeZone ∉ host.timezones ∧
      e = .error "Invalid time zone"

/-- The file was written for the requested server, and of the steps after that the first to
fail has failed with `e`. -/
structure WrittenThenFailed (fails : Failures) (ntpSettings : NtpSettingsDto) (e : Exception)
    (w' : World) : Prop where
  written : ntpSettings.ntpServer.isTrue = true ∧ ∃ address,
    ntpSettings.ntpServer.text = .ok address ∧
    fails (.writeFile (TIMESYNCD_CONFIG.TEMPLATE address)) = none ∧
    w'.config = some (Utf8.encode (toChars (TIMESYNCD_CONFIG.TEMPLATE address)))
  failed : [.getManager, .restartUnit "systemd-timesyncd.service", .connect .enableNTP,
    .setNTP ntpSettings.isNtpEnabled].findSome? fails = some e

/-- Where the request is rejected, the time zone is as before, and so is the clock unless
it was set and the step after that has failed. -/
def DateTimeKept (host : Host) (fails : Failures) (dateTime : DateTimeSettingsDto) (w : World)
    (r : Except Exception Unit) (w' : World) : Prop :=
  ∀ e, r = .error e → w'.timeZone = w.timeZone ∧
    (w'.offset = w.offset ∨ SetThenFailed host fails dateTime w e w')

def NtpKept (fails : Failures) (ntpSettings : NtpSettingsDto) (w : World)
    (r : Except Exception Unit) (w' : World) : Prop :=
  ∀ e, r = .error e → w'.isNtpEnabled = w.isNtpEnabled ∧
    (w'.config = w.config ∨ WrittenThenFailed fails ntpSettings e w')

/-! ## Steps -/

section Steps

variable {host : Host} {fails : Failures} {w w' w'' : World}

theorem TimePasses.refl (w : World) : TimePasses w w := ⟨0, rfl⟩

theorem TimePasses.trans (h : TimePasses w w') (h' : TimePasses w' w'') : TimePasses w w'' := by
  obtain ⟨d, rfl⟩ := h
  obtain ⟨d', rfl⟩ := h'
  exact ⟨d + d', by simp [Nat.add_assoc]⟩

theorem TimePasses.elapsed (h : TimePasses w w') : w.elapsed ≤ w'.elapsed := by
  obtain ⟨d, rfl⟩ := h
  exact Nat.le_add_right ..

/-- A service runs alone. -/
abbrev Ends {α : Type} (host : Host) (fails : Failures) (p : Service α)
    (post : Except Exception α → World → Prop) (w : World) : Prop :=
  p.Ends (answer host fails) TimePasses (fun _ => True) post w

theorem ends_await {q : Await} {post : Except Exception q.Answer → World → Prop} :
    Ends host fails (await q) post w ↔ ∀ w₀, TimePasses w w₀ →
      post (settle host fails q w₀).1 (settle host fails q w₀).2 := by
  refine Prog.ends_call.trans (forall₂_congr fun w₀ _ => ?_)
  constructor
  · exact fun h => h.2 () _ trivial rfl
  · refine fun h => ⟨⟨w₀, (), _, .refl w₀, trivial, rfl⟩, ?_⟩
    rintro _ _ _ hr
    cases hr
    exact h

/-- A call that may fail. -/
theorem ends_unlessFails {q : Await} {post : Except Exception q.Answer → World → Prop}
    {failure : Option Exception} {a : World → q.Answer} {f : World → World}
    (hq : ∀ w, settle host fails q w = unlessFails failure (a w) w (f w))
    (hok : failure = none → ∀ w₀, TimePasses w w₀ → post (.ok (a w₀)) (f w₀))
    (herror : ∀ e, failure = some e → ∀ w₀, TimePasses w w₀ → post (.error e) w₀) :
    Ends host fails (await q) post w := by
  refine ends_await.mpr fun w₀ hw₀ => ?_
  rw [hq]
  cases failure with
  | none => exact hok rfl w₀ hw₀
  | some e => exact herror e rfl w₀ hw₀

/-- The clock is set, or the time is refused. -/
theorem ends_setTime {usecUtc : Int} {post : Except Exception Unit → World → Prop}
    (hok : 0 < usecUtc → fails (.setTime usecUtc) = none → ∀ w₀, TimePasses w w₀ →
      post (.ok ()) { w₀ with offset := usecUtc - w₀.elapsed })
    (herror : ∀ e, ¬ 0 < usecUtc ∨ fails (.setTime usecUtc) = some e → ∀ w₀, TimePasses w w₀ →
      post (.error e) w₀) :
    Ends host fails (await (.setTime usecUtc)) post w := by
  refine ends_await.mpr fun w₀ hw₀ => ?_
  rw [settle]
  split
  · rename_i hpositive
    cases hfails : fails (.setTime usecUtc) with
    | none => exact hok hpositive hfails w₀ hw₀
    | some e => exact herror e (.inr hfails) w₀ hw₀
  · rename_i hnot
    exact herror _ (.inl hnot) w₀ hw₀

end Steps

/-! ## Rejected changes -/

section Kept

variable {host : Host} {fails : Failures} {w w' : World}

theorem setDateTime_kept (host : Host) (fails : Failures) (dateTime : DateTimeSettingsDto)
    (w : World) :
    Ends host fails (DateTimeService.setDateTime host dateTime)
      (DateTimeKept host fails dateTime w) w := by
  have hsame : ∀ {r w'}, TimePasses w w' → DateTimeKept host fails dateTime w r w' := by
    rintro r _ ⟨d, rfl⟩ e _
    exact ⟨rfl, .inl rfl⟩
  simp only [Ends, DateTimeService.setDateTime, TimeDate1Service.getDateTimeInfo,
    TimeDate1Service.setSystemDate, TimeDate1Service.setTimezone, Prog.bind_def, Prog.pure_def,
    Prog.ends_bind]
  refine ends_unlessFails (fun _ => rfl) (fun _ w₁ h₁ => ?_) fun e _ w₁ h₁ => hsame h₁
  refine ends_unlessFails (fun _ => rfl) (fun _ w₂ h₂ => ?_) fun e _ w₂ h₂ => hsame (h₁.trans h₂)
  have h := h₁.trans h₂
  refine Prog.ends_ite.mpr ⟨fun _ => hsame h, fun _ => ?_⟩
  simp only [Prog.ends_bind]
  refine ends_unlessFails (fun _ => rfl) (fun _ w₃ h₃ => ?_) fun e _ w₃ h₃ => hsame (h.trans h₃)
  cases htime : host.microseconds dateTime.date with
  | none => exact hsame (h.trans h₃)
  | some usecUtc =>
      refine ends_setTime (fun _ hset w₄ h₄ => ?_) fun e _ w₄ h₄ => hsame ((h.trans h₃).trans h₄)
      have h := (h.trans h₃).trans h₄
      -- From here on the clock is set, and whatever fails leaves it so.
      have hclock : ∀ {e w'}, TimePasses { w₄ with offset := usecUtc - w₄.elapsed } w' →
          (fails (.connect .setTimezone) = some e ∨
            fails (.connect .setTimezone) = none ∧ dateTime.timeZone ∉ host.timezones ∧
              e = .error "Invalid time zone") →
          DateTimeKept host fails dateTime w (.error e) w' := by
        rintro e _ ⟨d, rfl⟩ hfailed _ he
        cases he
        obtain ⟨d', rfl⟩ := h
        exact ⟨rfl, .inr ⟨⟨usecUtc, htime, hset, _, Nat.le_add_right .., Nat.le_add_right .., rfl⟩,
          hfailed⟩⟩
      refine ends_unlessFails (fun _ => rfl) (fun hconnect w₅ h₅ => ?_)
        fun e hfails w₅ h₅ => hclock h₅ (.inl hfails)
      refine ends_await.mpr fun w₆ h₆ => ?_
      by_cases hzone : dateTime.timeZone ∈ host.timezones
      · rw [settle, if_pos hzone]
        intro e he
        cases he
      · rw [settle, if_neg hzone]
        exact hclock (h₅.trans h₆) (.inr ⟨hconnect, hzone, rfl⟩)

theorem setNtp_kept (fails : Failures) (ntpSettings : NtpSettingsDto) (w : World) :
    Ends host fails (DateTimeService.setNtp ntpSettings) (NtpKept fails ntpSettings w) w := by
  have hsame : ∀ {r w'}, TimePasses w w' → NtpKept fails ntpSettings w r w' := by
    rintro r _ ⟨d, rfl⟩ e _
    exact ⟨rfl, .inl rfl⟩
  have hok : ∀ {w'}, NtpKept fails ntpSettings w (.ok ()) w' := fun e he => by cases he
  rw [DateTimeService.setNtp]
  refine Prog.ends_ite.mpr ⟨fun htrue => ?_, fun _ => ?_⟩
  · simp only [DateTimeService.writeNtpAddressToConfig, Systemd1Service.restartUnit,
      TimeDate1Service.enableNTP, Prog.bind_def, Prog.ends_bind]
    cases htext : ntpSettings.ntpServer.text with
    | error e => exact hsame (.refl w)
    | ok address =>
        refine ends_unlessFails (fun _ => rfl) (fun hwrite w₁ h₁ => ?_) fun e _ w₁ h₁ => hsame h₁
        -- From here on the file is written.
        have hfile : ∀ {e w'},
            TimePasses { w₁ with
              config := some (Utf8.encode (toChars (TIMESYNCD_CONFIG.TEMPLATE address))) } w' →
            [.getManager, .restartUnit "systemd-timesyncd.service", .connect .enableNTP,
              .setNTP ntpSettings.isNtpEnabled].findSome? fails = some e →
            NtpKept fails ntpSettings w (.error e) w' := by
          rintro e _ ⟨d, rfl⟩ hfailed _ he
          cases he
          obtain ⟨d', rfl⟩ := h₁
          exact ⟨rfl, .inr ⟨⟨htrue, address, htext, hwrite, rfl⟩, hfailed⟩⟩
        refine ends_unlessFails (fun _ => rfl) (fun hmanager w₂ h₂ => ?_)
          fun e he w₂ h₂ => hfile h₂ (by simp [he])
        refine ends_unlessFails (fun _ => rfl) (fun hrestart w₃ h₃ => ?_)
          fun e he w₃ h₃ => hfile (h₂.trans h₃) (by simp [hmanager, he])
        have h := h₂.trans h₃
        refine ends_unlessFails (fun _ => rfl) (fun hconnect w₄ h₄ => ?_)
          fun e he w₄ h₄ => hfile (h.trans h₄) (by simp [hmanager, hrestart, he])
        exact ends_unlessFails (fun _ => rfl) (fun _ w₅ h₅ => hok)
          fun e he w₅ h₅ => hfile ((h.trans h₄).trans h₅)
            (by simp [hmanager, hrestart, hconnect, he])
  · simp only [TimeDate1Service.enableNTP, Prog.bind_def, Prog.ends_bind]
    refine ends_unlessFails (fun _ => rfl) (fun _ w₁ h₁ => ?_) fun e _ w₁ h₁ => hsame h₁
    exact ends_unlessFails (fun _ => rfl) (fun _ w₂ h₂ => hok)
      fun e _ w₂ h₂ => hsame (h₁.trans h₂)

end Kept

/-- A rejected change of date and time leaves the time zone as it was, and the clock unless it
was set and the step after that is the one that failed.  A rejected change of the NTP settings
leaves the switch as it was, and the file unless it was written and one of the steps after
that is the one that failed. -/
theorem rejected_changes (host : Host) (fails : Failures) (w : World) :
    (∀ dateTime, Ends host fails (DateTimeService.setDateTime host dateTime)
      (DateTimeKept host fails dateTime w) w) ∧
    ∀ ntpSettings, Ends host fails (DateTimeService.setNtp ntpSettings)
      (NtpKept fails ntpSettings w) w :=
  ⟨fun dateTime => setDateTime_kept host fails dateTime w,
    fun ntpSettings => setNtp_kept fails ntpSettings w⟩

/-! ## A time zone that is not listed, and a restart that fails -/

def newYear : Text := text "2024-01-01T00:00:00.000Z"

/-- A system on which one time zone is installed. -/
def berlinHost : Host where
  timezones := [text "Europe/Berlin"]
  microseconds date := if date = newYear then some 1704067200000000 else none

def berlinWorld : World where
  elapsed := 0
  offset := 0
  timeZone := text "Europe/Berlin"
  isNtpEnabled := false
  config := none

def unknownZone : DateTimeSettingsDto := { timeZone := text "Foo/Bar", date := newYear }

def customServer : NtpSettingsDto :=
  { ntpServer := .string (text "time.example.org"), isNtpEnabled := true }

/-- timesyncd cannot be restarted. -/
def noRestart : Failures
  | .restartUnit _ => some (.error "Unit systemd-timesyncd.service not found.")
  | _ => none

theorem changes_left :
    (unknownZone.accepts (· == newYear) = true ∧
      ¬ Ends berlinHost (fun _ => none) (DateTimeService.setDateTime berlinHost unknownZone)
        (DateTimeAsBefore berlinWorld) berlinWorld) ∧
    customServer.accepts = true ∧
      ¬ Ends berlinHost noRestart (DateTimeService.setNtp customServer)
        (NtpAsBefore berlinWorld) berlinWorld := by
  have hsettle : ∀ fails q w, ∃ c, True ∧
      answer berlinHost fails q c w = some (settle berlinHost fails q w) :=
    fun _ _ _ => ⟨(), trivial, rfl⟩
  refine ⟨⟨by decide, fun h => ?_⟩, by decide, fun h => ?_⟩
  · have hclock := (h.run TimePasses.refl (hsettle _) _ rfl).1
    exact absurd hclock (by decide)
  · have hfile := (h.run TimePasses.refl (hsettle _) _ rfl).1
    cases hfile

end RpiNestApi.DateTime
