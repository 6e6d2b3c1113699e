import RpiNestApi.Dates.Parsing
import RpiNestApi.ShellCommand.RpiConfig

/-
Logs since a time.

`JournalctlService` hands the time to `journalctl` as a date, which is that of the time in
UTC.  `journalctl` takes the date for a local one, so that the logs begin with the local
midnight of a UTC date.
-/

namespace RpiNestApi.ShellCommand

open Calendar

inductive SyslogFormat where
  | json
  | short
  deriving DecidableEq, Repr

def SyslogFormat.name : SyslogFormat → String
  | .json => "json"
  | .short => "short"

structure SyslogFilter where
  format : Option SyslogFormat
  since : Option String
  deriving DecidableEq, Repr

inductive JournalCtlArgument where
  | unit
  | output
  | since
  | kernel

def JournalCtlArgument.name : JournalCtlArgument → String
  | .unit => "--unit"
  | .output => "--output"
  | .since => "--since"
  | .kernel => "-k"

namespace JournalctlService

def journalCtlExecutable : String := "/usr/bin/journalctl"

variable (parseDate : String → Option Time)

/-- `new Date(since).toISOString().slice(0, 10)`. -/
def sinceDate (since : String) : Except Exception String :=
  match parseDate since with
  | some time => .ok (String.ofList (time.toISOString.toList.take 10))
  | none => .error (.error "Invalid time value")

def getArgs (unit : String) (filter : Option SyslogFilter) : Except Exception (List String) := do
  let logTargetArgs :=
    if unit = "kernel" then [JournalCtlArgument.kernel.name]
    else [JournalCtlArgument.unit.name, unit]
  let dateArgs ← match filter.bind (·.since) with
    | some since => do pure [JournalCtlArgument.since.name, ← sinceDate parseDate since]
    | none => pure []
  let format := ((filter.bind (·.format)).map (·.name)).getD "short"
  return [JournalCtlArgument.output.name, format] ++ logTargetArgs ++ dateArgs

/-- The process of `getKernelLogStream`. -/
def getKernelLogStream (filter : Option SyslogFilter) : Except Exception Spawn := do
  return { command := journalCtlExecutable, args := ← getArgs parseDate "kernel" filter,
           shell := false }

/-- The process of `getUnitLogStream`. -/
def getUnitLogStream (unit : String) (filter : Option SyslogFilter) : Except Exception Spawn :=
  if unit = "kernel" then getKernelLogStream parseDate filter
  else do
    return { command := journalCtlExecutable, args := ← getArgs parseDate unit filter,
             shell := false }

end JournalctlService

/-! ## journalctl -/

/-- The UTC offset of the device. -/
structure Offset where
  minutes : ℤ
  inRange : -720 ≤ minutes ∧ minutes ≤ 840

/-- The value of the option `--since`.  Of the options that are used only `-k` has no value. -/
def sinceArgument : List String → Option String
  | option :: value :: args =>
    if option = "--since" then some value
    else if option = "-k" then sinceArgument (value :: args)
    else sinceArgument args
  | _ => none

/-- The time from which on entries are returned: midnight of the date, where the device is. -/
def cutOff (offset : Offset) (args : List String) : Option ℤ :=
  match (sinceArgument args).bind fun date => Time.readDate date.toList with
  | some (date, []) => some (date.toDay * msPerDay - offset.minutes * msPerMinute)
  | _ => none

/-- The process is `journalctl`, and returns the entry of the time. -/
def Returns (offset : Offset) (p : Spawn) (entry : ℤ) : Prop :=
  p.command = "/usr/bin/journalctl" ∧ ∃ cut, cutOff offset p.args = some cut ∧ cut ≤ entry

/-! ## The date that is handed over -/

/-- The options before `--since` are skipped. -/
theorem sinceArgument_args (unit format date : String) :
    sinceArgument ([JournalCtlArgument.output.name, format] ++
      (if unit = "kernel" then [JournalCtlArgument.kernel.name]
        else [JournalCtlArgument.unit.name, unit]) ++
      [JournalCtlArgument.since.name, date]) = some date := by
  split
  · simp [sinceArgument, JournalCtlArgument.name]
  · simp [sinceArgument, JournalCtlArgument.name]

/-- The logs of the kernel are asked for in the same way. -/
theorem getUnitLogStream_eq (parseDate : String → Option Time) (unit : String)
    (filter : Option SyslogFilter) :
    JournalctlService.getUnitLogStream parseDate unit filter =
      (JournalctlService.getArgs parseDate unit filter).map fun args =>
        { command := "/usr/bin/journalctl", args, shell := false } := by
  by_cases hunit : unit = "kernel"
  · subst hunit
    rw [JournalctlService.getUnitLogStream, if_pos rfl, JournalctlService.getKernelLogStream]
    cases JournalctlService.getArgs parseDate "kernel" filter <;> rfl
  · rw [JournalctlService.getUnitLogStream, if_neg hunit]
    cases JournalctlService.getArgs parseDate unit filter <;> rfl

section Cut

variable {parseDate : String → Option Time} {since : String} {t : Time}

theorem getArgs_since (hsince : parseDate since = some t) (hyear : 0 ≤ t.year ∧ t.year ≤ 9999)
    (unit : String) (format : Option SyslogFormat) :
    JournalctlService.getArgs parseDate unit (some { format, since := some since }) =
      .ok ([JournalCtlArgument.output.name, (format.map (·.name)).getD "short"] ++
        (if unit = "kernel" then [JournalCtlArgument.kernel.name]
          else [JournalCtlArgument.unit.name, unit]) ++
        [JournalCtlArgument.since.name, String.ofList (Time.dateText (.ofDay t.day))]) := by
  have hdate : JournalctlService.sinceDate parseDate since =
      .ok (String.ofList (Time.dateText (.ofDay t.day))) := by
    rw [JournalctlService.sinceDate, hsince, ← Time.take_toISOString hyear]
  simp only [JournalctlService.getArgs, Option.bind_some, hdate]
  cases format <;> rfl

/-- The logs begin with the midnight of the UTC date. -/
theorem cutOff_getArgs (hsince : parseDate since = some t) (hyear : 0 ≤ t.year ∧ t.year ≤ 9999)
    (offset : Offset) (unit : String) (format : Option SyslogFormat) :
    ∃ args, JournalctlService.getArgs parseDate unit (some { format, since := some since }) =
        .ok args ∧
      cutOff offset args = some (t.day * msPerDay - offset.minutes * msPerMinute) := by
  refine ⟨_, getArgs_since hsince hyear unit format, ?_⟩
  have hread := Time.readDate_dateText (Date.isValid_ofDay t.day) t.abs_year_lt []
  rw [List.append_nil] at hread
  rw [cutOff, sinceArgument_args, Option.bind_some, String.toList_ofList, hread]
  dsimp only
  rw [Date.toDay_ofDay]

/-- Every entry from the time on is returned if and only if the day has been going on in UTC
for as long as the device's time is behind it. -/
theorem entries_returned (hsince : parseDate since = some t)
    (hyear : 0 ≤ t.year ∧ t.year ≤ 9999) (offset : Offset) (unit : String)
    (format : Option SyslogFormat) :
    (∃ p, JournalctlService.getUnitLogStream parseDate unit
        (some { format, since := some since }) = .ok p ∧
      ∀ entry, t.ms ≤ entry → Returns offset p entry) ↔
        -offset.minutes * msPerMinute ≤ t.inDay := by
  obtain ⟨args, hargs, hcut⟩ := cutOff_getArgs hsince hyear offset unit format
  rw [getUnitLogStream_eq, hargs]
  have hms := t.ms_eq
  constructor
  · rintro ⟨p, hp, hreturns⟩
    obtain ⟨_, cut, hcut', hle⟩ := hreturns t.ms (le_refl _)
    cases hp
    rw [hcut] at hcut'
    cases hcut'
    linarith
  · intro hle
    refine ⟨_, rfl, fun entry hentry => ⟨rfl, _, hcut, ?_⟩⟩
    linarith

end Cut

def january : Time where
  ms := 1672534923000
  inRange := by decide

/-- How dates are parsed, as far as it is needed here. -/
def parseJanuary (since : String) : Option Time :=
  if since = "2023-01-01T01:02:03.000Z" then some january else none

def januaryFilter : SyslogFilter where
  format := none
  since := some "2023-01-01T01:02:03.000Z"

def utc : Offset where
  minutes := 0
  inRange := by decide

/-- Five hours behind UTC. -/
def eastern : Offset where
  minutes := -300
  inRange := by decide

theorem entries_returned_ssh :
    ∃ p, JournalctlService.getUnitLogStream parseJanuary "ssh" (some januaryFilter) = .ok p ∧
      ∀ entry, january.ms ≤ entry → Returns utc p entry :=
  (entries_returned (if_pos rfl) (by decide) utc "ssh" none).mpr (by decide)

/-- The logs begin with the local midnight, five hours after the one in UTC. -/
theorem entry_cut_off :
    ¬ ∃ p, JournalctlService.getUnitLogStream parseJanuary "ssh" (some januaryFilter) = .ok p ∧
      ∀ entry, january.ms ≤ entry → Returns eastern p entry := by
  rintro ⟨p, hp, hreturns⟩
  have hsince : parseJanuary "2023-01-01T01:02:03.000Z" = some january := if_pos rfl
  obtain ⟨args, hargs, hcut⟩ := cutOff_getArgs hsince (by decide) eastern "ssh" none
  rw [getUnitLogStream_eq, januaryFilter, hargs] at hp
  cases hp
  obtain ⟨_, cut, hcut', hle⟩ := hreturns january.ms (le_refl _)
  rw [hcut] at hcut'
  cases hcut'
  exact absurd hle (by decide)

end RpiNestApi.ShellCommand
