import RpiNestApi.ShellCommand.Journalctl

/-
The logs that a client can read.

The name of the service and the filter come from the path and the query of the request.
The name chooses one of two files or the journal, and of the filter a format and a date
reach the command line of `journalctl`.
-/

namespace RpiNestApi.Syslog

open ShellCommand Calendar

/-! ## The service -/

/-- `isJournal` tells the two apart. -/
inductive LogOptions where
  | journal (unit : String)
  | file (path : String)
  deriving DecidableEq, Repr

def SYSLOG_SERVICE_WHITELIST : List String := ["noderedrpinodes-server", "kernel", "dpkg", "ssh"]

def SYSLOG_SERVICES : List (String × LogOptions) :=
  [("dpkg", .file "/var/log/dpkg.log"),
    ("noderedrpinodes-server", .file "/var/log/rpi-nest-server.log"),
    ("ssh", .journal "ssh"),
    ("kernel", .journal "kernel")]

/-- Only this service answers that something is not found. -/
inductive SyslogException where
  | notFound (message : String)
  | other (e : Exception)
  deriving DecidableEq, Repr

/-- What the response is read from: a file, or what a process prints. -/
inductive Source where
  | file (path : String)
  | process (p : Spawn)
  deriving DecidableEq, Repr

structure Config where
  isProduction : Bool
  /-- `process.cwd()`. -/
  cwd : String

/-- `join(process.cwd(), 'test/data', name)`. -/
def Config.mockLogPath (config : Config) (name : String) : String :=
  config.cwd ++ "/test/data/" ++ name

section Service

variable (config : Config) (parseDate : String → Option Time)

/-- The service on the device, and the mock everywhere else. -/
def getUnitLogStream (unit : String) (filter : Option SyslogFilter) :
    Except SyslogException Source :=
  if config.isProduction then
    match JournalctlService.getUnitLogStream parseDate unit filter with
    | .ok p => .ok (.process p)
    | .error e => .error (.other e)
  else if unit = "kernel" then .ok (.file (config.mockLogPath "kernel-mock-log.txt"))
  else .ok (.file (config.mockLogPath "service-mock-log.txt"))

namespace SyslogService

def streamFile (path : String) : Source :=
  if config.isProduction = false then .file (config.mockLogPath "service-mock-log.txt")
  else .file path

def getServiceLog (serviceName : String) (filter : Option SyslogFilter) :
    Except SyslogException Source :=
  match SYSLOG_SERVICES.lookup serviceName with
  | none => .error (.notFound "Invalid service name provided")
  | some (.file path) =>
    match filter.bind (·.format) with
    | some .json =>
      .error (.other (.badRequest "FileLogs are only available in default, unparsed text format"))
    | _ => .ok (streamFile config path)
  | some (.journal unit) => getUnitLogStream config parseDate unit filter

end SyslogService

end Service

/-! ## The request -/

/-- What the query has under a name: a text, or an array or an object of such. -/
inductive QueryValue where
  | string (s : String)
  | nested
  deriving DecidableEq, Repr

/-- A query by its own properties. -/
abbrev Query := List (String × QueryValue)

def SyslogFormat.ofName (name : String) : Option SyslogFormat :=
  if name = "json" then some .json else if name = "short" then some .short else none

namespace SyslogFilterDto

def format : Option QueryValue → Option (Option SyslogFormat)
  | none => some none
  | some (.string name) => (SyslogFormat.ofName name).map some
  | some .nested => none

def since (isISO8601 : String → Bool) : Option QueryValue → Option (Option String)
  | none => some none
  | some (.string since) => if isISO8601 since then some (some since) else none
  | some .nested => none

/-- The filter of a query, unless a decorator refuses it. -/
def ofQuery (isISO8601 : String → Bool) (query : Query) : Option SyslogFilter := do
  let format ← format (query.lookup "format")
  let since ← since isISO8601 (query.lookup "since")
  if query.all fun p => p.1 = "format" ∨ p.1 = "since" then return { format, since } else none

end SyslogFilterDto

/-- The pipe refuses the name or the query, or the service is asked. -/
def SyslogController.getSyslog (config : Config) (isISO8601 : String → Bool)
    (parseDate : String → Option Time) (name : String) (query : Query) :
    Option (Except SyslogException Source) :=
  if name ∈ SYSLOG_SERVICE_WHITELIST then
    (SyslogFilterDto.ofQuery isISO8601 query).map fun filter =>
      SyslogService.getServiceLog config parseDate name (some filter)
  else none

/-! ## What may be read -/

/-- Digits and the signs between and before them. -/
def isDateChar (c : Char) : Bool := c.isDigit || c = '-' || c = '+'

/-- The option with a date, or nothing. -/
inductive SinceArgs : List String → Prop
  | none : SinceArgs []
  | date {date : String} (hlength : date.toList.length = 10)
      (hchars : date.toList.all isDateChar = true) : SinceArgs ["--since", date]

/-- On the device, one of two files, or the journal of ssh or of the kernel, printed by
`journalctl` without a shell. -/
inductive Log : Source → Prop
  | file {path : String} (h : path = "/var/log/dpkg.log" ∨ path = "/var/log/rpi-nest-server.log") :
      Log (.file path)
  | journal {target sinceArgs : List String} (format : SyslogFormat)
      (htarget : target = ["--unit", "ssh"] ∨ target = ["-k"]) (hsince : SinceArgs sinceArgs) :
      Log (.process
        { command := "/usr/bin/journalctl"
          args := ["--output", format.name] ++ target ++ sinceArgs
          shell := false })

/-- Elsewhere, one of the two files of the repository. -/
inductive MockLog (config : Config) : Source → Prop
  | kernel : MockLog config (.file (config.mockLogPath "kernel-mock-log.txt"))
  | service : MockLog config (.file (config.mockLogPath "service-mock-log.txt"))

/-- Whoever asks for whatever, what is read is a log that is meant to be read.  A request
that the service refuses asks for a file as JSON or for a date that cannot be parsed, and
nothing is said not to be found. -/
structure SyslogAnswer (config : Config) (parseDate : String → Option Time) (query : Query)
    (answer : Option (Except SyslogException Source)) : Prop where
  log : config.isProduction = true → ∀ source, answer = some (.ok source) → Log source
  mock : config.isProduction = false → ∀ source, answer = some (.ok source) →
    MockLog config source
  refused : ∀ e, answer = some (.error e) →
    query.lookup "format" = some (.string "json") ∧ (∃ message, e = .other (.badRequest message)) ∨
    ∃ since, query.lookup "since" = some (.string since) ∧ parseDate since = none ∧
      e = .other (.error "Invalid time value")

/-! ## The date -/

theorem all_isDateChar_padded (width n : ℕ) : (padded width n).all isDateChar = true := by
  rw [List.all_eq_true]
  intro c hc
  have hwidth : 0 < width := by
    rw [← length_padded width n]
    exact List.length_pos_of_mem hc
  rw [isDateChar, (isNumeral_padded hwidth n).digits c hc]
  rfl

theorem all_isDateChar_dateText (d : Date) : (Time.dateText d).all isDateChar = true := by
  have hyear : (Time.yearText d.year).all isDateChar = true := by
    unfold Time.yearText
    split
    · exact all_isDateChar_padded ..
    · rw [List.all_cons, all_isDateChar_padded]
      split <;> rfl
  have hhyphen : isDateChar '-' = true := by decide
  simp only [Time.dateText, List.all_append, List.all_cons, hyear, hhyphen, all_isDateChar_padded,
    Bool.and_self]

theorem ten_le_length_dateText (d : Date) : 10 ≤ (Time.dateText d).length := by
  have hyear : 4 ≤ (Time.yearText d.year).length := by
    unfold Time.yearText
    split
    · rw [length_padded]
    · rw [List.length_cons, length_padded]
      decide
  simp only [Time.dateText, List.length_append, List.length_cons, length_padded]
  omega

/-- The first ten characters of a time are part of its date. -/
theorem take_toISOString_date (t : Time) :
    t.toISOString.toList.take 10 = (Time.dateText (.ofDay t.day)).take 10 := by
  rw [Time.toISOString, String.toList_ofList,
    List.take_append_of_le_length (ten_le_length_dateText _)]

theorem sinceArgs_date (t : Time) :
    SinceArgs ["--since", String.ofList (t.toISOString.toList.take 10)] := by
  refine .date ?_ ?_
  · rw [String.toList_ofList, take_toISOString_date, List.length_take]
    exact Nat.min_eq_left (ten_le_length_dateText _)
  · rw [String.toList_ofList, take_toISOString_date, List.all_eq_true]
    intro c hc
    exact List.all_eq_true.mp (all_isDateChar_dateText _) c (List.mem_of_mem_take hc)

/-! ## The answer -/

section Answer

variable {config : Config} {isISO8601 : String → Bool} {parseDate : String → Option Time}
variable {query : Query}

/-- The arguments of the journal for a filter whose date can be parsed. -/
theorem getArgs_cases (parseDate : String → Option Time) (unit : String) (filter : SyslogFilter) :
    (∃ sinceArgs, SinceArgs sinceArgs ∧
      JournalctlService.getArgs parseDate unit (some filter) =
        .ok (["--output", (filter.format.map (·.name)).getD "short"] ++
          (if unit = "kernel" then ["-k"] else ["--unit", unit]) ++ sinceArgs)) ∨
    ∃ since, filter.since = some since ∧ parseDate since = none ∧
      JournalctlService.getArgs parseDate unit (some filter) =
        .error (.error "Invalid time value") := by
  obtain ⟨format, since⟩ := filter
  cases since with
  | none => exact .inl ⟨[], .none, rfl⟩
  | some since =>
      cases hdate : parseDate since with
      | none =>
          refine .inr ⟨since, rfl, hdate, ?_⟩
          simp only [JournalctlService.getArgs, JournalctlService.sinceDate, Option.bind_some,
            hdate]
          rfl
      | some t =>
          refine .inl ⟨_, sinceArgs_date t, ?_⟩
          simp only [JournalctlService.getArgs, JournalctlService.sinceDate, Option.bind_some,
            hdate]
          rfl

theorem exists_name (format : Option SyslogFormat) :
    ∃ f : SyslogFormat, (format.map (·.name)).getD "short" = f.name := by
  cases format with
  | none => exact ⟨.short, rfl⟩
  | some f => exact ⟨f, rfl⟩

/-- A filter has the texts of the query. -/
structure OfQuery (query : Query) (filter : SyslogFilter) : Prop where
  json : filter.format = some .json → query.lookup "format" = some (.string "json")
  since : ∀ since, filter.since = some since → query.lookup "since" = some (.string since)

theorem lookup_of_format {value : Option QueryValue}
    (h : SyslogFilterDto.format value = some (some .json)) : value = some (.string "json") := by
  cases value with
  | none => cases h
  | some value =>
      cases value with
      | nested => cases h
      | string name =>
          obtain ⟨f, hf, hjson⟩ := Option.map_eq_some_iff.mp h
          cases hjson
          unfold SyslogFormat.ofName at hf
          split at hf
          · rename_i hname
            rw [hname]
          · split at hf <;> cases hf

theorem lookup_of_since {value : Option QueryValue} {since : String}
    (h : SyslogFilterDto.since isISO8601 value = some (some since)) :
    value = some (.string since) := by
  cases value with
  | none => cases h
  | some value =>
      cases value with
      | nested => cases h
      | string text =>
          rw [SyslogFilterDto.since] at h
          split at h
          · cases h
            rfl
          · cases h

theorem ofQuery_eq_some {filter : SyslogFilter}
    (h : SyslogFilterDto.ofQuery isISO8601 query = some filter) : OfQuery query filter := by
  simp only [SyslogFilterDto.ofQuery, Option.bind_eq_bind, Option.bind_eq_some_iff] at h
  obtain ⟨format, hformat, since, hsince, h⟩ := h
  split at h
  · cases h
    refine ⟨fun hjson => ?_, fun text htext => ?_⟩
    · exact lookup_of_format (hformat.trans (congrArg some hjson))
    · exact lookup_of_since (hsince.trans (congrArg some htext))
  · cases h

/-- The journal of ssh or of the kernel. -/
theorem log_of_process {unit : String} (hunit : unit = "ssh" ∨ unit = "kernel")
    {filter : SyslogFilter} {p : Spawn}
    (h : JournalctlService.getUnitLogStream parseDate unit (some filter) = .ok p) :
    Log (.process p) := by
  rw [getUnitLogStream_eq] at h
  rcases getArgs_cases parseDate unit filter with ⟨sinceArgs, hsince, hargs⟩ | ⟨_, _, _, hargs⟩
  · obtain ⟨f, hf⟩ := exists_name filter.format
    rw [hargs, hf] at h
    cases h
    refine .journal f ?_ hsince
    rcases hunit with rfl | rfl
    · exact .inl rfl
    · exact .inr rfl
  · rw [hargs] at h
    cases h

/-- The journal is not read only where the date cannot be parsed. -/
theorem error_of_process {unit : String} {filter : SyslogFilter} {e : Exception}
    (h : JournalctlService.getUnitLogStream parseDate unit (some filter) = .error e) :
    ∃ since, filter.since = some since ∧ parseDate since = none ∧
      e = .error "Invalid time value" := by
  rw [getUnitLogStream_eq] at h
  rcases getArgs_cases parseDate unit filter with ⟨_, _, hargs⟩ | ⟨since, hsince, hdate, hargs⟩
  · rw [hargs] at h
    cases h
  · rw [hargs] at h
    cases h
    exact ⟨since, hsince, hdate, rfl⟩

/-- A journal, on the device and elsewhere. -/
theorem answer_journal {unit : String} (hunit : unit = "ssh" ∨ unit = "kernel")
    {filter : SyslogFilter} (hfilter : OfQuery query filter) :
    SyslogAnswer config parseDate query
      (some (getUnitLogStream config parseDate unit (some filter))) := by
  unfold getUnitLogStream
  split
  · rename_i hproduction
    cases hprocess : JournalctlService.getUnitLogStream parseDate unit (some filter) with
    | ok p =>
        refine ⟨fun _ source h => ?_, fun hmock => ?_, fun e h => (by cases h)⟩
        · cases h
          exact log_of_process hunit hprocess
        · rw [hproduction] at hmock
          cases hmock
    | error e =>
        refine ⟨fun _ source h => (by cases h), fun _ source h => (by cases h), fun e' h => ?_⟩
        cases h
        obtain ⟨since, hsince, hdate, rfl⟩ := error_of_process hprocess
        exact .inr ⟨since, hfilter.since since hsince, hdate, rfl⟩
  · rename_i hmock
    split
    · refine ⟨fun h => absurd h hmock, fun _ source h => ?_, fun e h => (by cases h)⟩
      cases h
      exact .kernel
    · refine ⟨fun h => absurd h hmock, fun _ source h => ?_, fun e h => (by cases h)⟩
      cases h
      exact .service

/-- A file, which is not to be had as JSON. -/
theorem answer_file {path : String}
    (hpath : path = "/var/log/dpkg.log" ∨ path = "/var/log/rpi-nest-server.log")
    {filter : SyslogFilter} (hfilter : OfQuery query filter) :
    SyslogAnswer config parseDate query (some (match (some filter).bind (·.format) with
      | some .json => .error (.other (.badRequest
          "FileLogs are only available in default, unparsed text format"))
      | _ => .ok (SyslogService.streamFile config path))) := by
  split
  · rename_i hjson
    refine ⟨fun _ source h => (by cases h), fun _ source h => (by cases h), fun e h => ?_⟩
    cases h
    exact .inl ⟨hfilter.json hjson, _, rfl⟩
  · refine ⟨fun hproduction source h => ?_, fun hmock source h => ?_, fun e h => (by cases h)⟩
    · cases h
      rw [SyslogService.streamFile, hproduction, if_neg (by decide)]
      exact .file hpath
    · cases h
      rw [SyslogService.streamFile, if_pos hmock]
      exact .service

end Answer

/-- For every request, with any name and any query. -/
theorem syslog_contained (config : Config) (isISO8601 : String → Bool)
    (parseDate : String → Option Time) (name : String) (query : Query) :
    SyslogAnswer config parseDate query
      (SyslogController.getSyslog config isISO8601 parseDate name query) := by
  have hrefused : SyslogAnswer config parseDate query none :=
    ⟨fun _ source h => (by cases h), fun _ source h => (by cases h), fun e h => (by cases h)⟩
  unfold SyslogController.getSyslog
  split
  · rename_i hname
    cases hquery : SyslogFilterDto.ofQuery isISO8601 query with
    | none => exact hrefused
    | some filter =>
        have hfilter := ofQuery_eq_some hquery
        simp only [SYSLOG_SERVICE_WHITELIST, List.mem_cons, List.not_mem_nil, or_false] at hname
        rcases hname with rfl | rfl | rfl | rfl
        · exact answer_file (.inr rfl) hfilter
        · exact answer_journal (.inr rfl) hfilter
        · exact answer_file (.inl rfl) hfilter
        · exact answer_journal (.inl rfl) hfilter
  · exact hrefused

end RpiNestApi.Syslog
