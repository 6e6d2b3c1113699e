import RpiNestApi.Dates.Time
import RpiNestApi.ShellCommand.Df

/-
The status of the device.

Four commands are read as numbers: `uptime` as a date, `df` as integers and `vcgencmd` as
a decimal numeral.  A date that cannot be read is not noticed, and nor is a numeral that is
too large.
-/

namespace RpiNestApi.DeviceStatus

open Async ShellCommand

/-- What the services read besides the commands: the clock, how `new Date` reads a text, and
the name of the host. -/
structure Platform where
  now : Time
  parseDate : String → Option Time
  hostname : String

/-! ## Services -/

namespace RasPiSerialCommandService

def getSerial : ShellCommand.Service String := do
  let output ← ChildProcessService.spawnAuthorized
    "cat /sys/firmware/devicetree/base/serial-number" [] true
  return String.ofList (trim output.toList)

end RasPiSerialCommandService

namespace UpTimeCommandService

def uptimeExecutable : String := "/usr/bin/uptime"

/-- Nothing in the `try` block throws. -/
def getUpTime (platform : Platform) : ShellCommand.Service Number := do
  let output ← ChildProcessService.spawn uptimeExecutable ["-s"] false
  try
    let date := platform.parseDate output
    pure (((Number.finite platform.now.ms).sub (Time.getTime date)).div 1000)
  catch _ => throw (.error "uptime returned unparsable result")

end UpTimeCommandService

namespace VcGenCmdCommandService

def vcgencmdExecutable : String := "/usr/bin/vcgencmd"

/-- The first match of `\d+\.\d+`. -/
def resultRegex : List Char → Option (List Char)
  | [] => none
  | c :: cs =>
    let whole := (c :: cs).takeWhile Char.isDigit
    match (c :: cs).dropWhile Char.isDigit with
    | '.' :: rest =>
      let fraction := rest.takeWhile Char.isDigit
      if whole.isEmpty || fraction.isEmpty then resultRegex cs
      else some (whole ++ '.' :: fraction)
    | _ => resultRegex cs

def parseResult (input : String) : Except Exception Number :=
  let matchedString := (resultRegex input.toList).getD []
  let parsed := parseFloat (String.ofList matchedString)
  if parsed.isNaN then .error (.error "vcgencmd returned unparsable result") else .ok parsed

def getTemperature : ShellCommand.Service Number := do
  let result ← ChildProcessService.spawnAuthorized vcgencmdExecutable ["measure_temp"] true
  match parseResult result with
  | .ok temperature => return temperature
  | .error e => throw e

def getCoreVoltage : ShellCommand.Service Number := do
  let result ← ChildProcessService.spawnAuthorized vcgencmdExecutable ["measure_volts core"] true
  match parseResult result with
  | .ok voltage => return voltage
  | .error e => throw e

end VcGenCmdCommandService

structure DeviceStatusCpuDto where
  temperature : Number
  voltage : Number

structure DeviceStatusDto where
  serialNumber : String
  uptime : Number
  hostname : String
  cpu : DeviceStatusCpuDto
  fs : DiskSpaceInformation

/-- The promises all run to their ends, and the call is rejected if one of them is.  Of
several errors the first one in the list stands for the first one in time. -/
def getCurrentStatus (platform : Platform) (answer : Spawn → Except Exception String) :
    Except Exception DeviceStatusDto := do
  let serialNumber ← RasPiSerialCommandService.getSerial.eval answer
  let uptime ← (UpTimeCommandService.getUpTime platform).eval answer
  let hostname := platform.hostname
  let fs ← DfCommandService.getDiskSpaceInformation.eval answer
  let temperature ← VcGenCmdCommandService.getTemperature.eval answer
  let voltage ← VcGenCmdCommandService.getCoreVoltage.eval answer
  return { serialNumber, uptime, hostname, cpu := { temperature, voltage }, fs }

/-- All of the numbers are finite. -/
structure DeviceStatusDto.Finite (status : DeviceStatusDto) : Prop where
  uptime : status.uptime.isFinite = true
  used : status.fs.used.isFinite = true
  available : status.fs.available.isFinite = true
  temperature : status.cpu.temperature.isFinite = true
  voltage : status.cpu.voltage.isFinite = true

/-! ## The uptime -/

/-- The uptime is a number exactly where the text is a date. -/
theorem isFinite_uptime (now : Time) (date : Option Time) :
    (((Number.finite now.ms).sub (Time.getTime date)).div 1000).isFinite = true ↔
      date.isSome = true := by
  cases date with
  | none => exact iff_of_false Bool.false_ne_true Bool.false_ne_true
  | some time =>
      refine iff_of_true ?_ rfl
      rw [Time.getTime, Number.sub]
      have hdifference : |(now.ms : ℚ) - time.ms| < Number.limit := by
        refine Number.lt_limit (k := 54) (by decide) ?_
        have hnow : |(now.ms : ℚ)| ≤ 8640000000000000 := by exact_mod_cast now.inRange
        have htime : |(time.ms : ℚ)| ≤ 8640000000000000 := by exact_mod_cast time.inRange
        calc |(now.ms : ℚ) - time.ms| ≤ |(now.ms : ℚ)| + |(time.ms : ℚ)| := abs_sub _ _
          _ ≤ 2 ^ 54 := by
            norm_num
            linarith
      rw [Number.ofRat_of_lt hdifference, Number.div, Number.isFinite_ofRat]
      have hbound := Number.abs_lt_of_ofRat (Number.ofRat_of_lt hdifference)
      refine lt_of_le_of_lt ?_ (Number.half_lt_limit hbound)
      rw [abs_div]
      exact div_le_div_of_nonneg_left (abs_nonneg _) two_pos (by norm_num)

/-! ## The numbers of `vcgencmd` -/

namespace VcGenCmdCommandService

/-- What the expression matches is a decimal numeral. -/
theorem exists_decimal {text m : List Char} (h : resultRegex text = some m) :
    ∃ n : Decimal, m = n.text := by
  induction text with
  | nil => cases h
  | cons c cs ih =>
      rw [resultRegex] at h
      split at h
      · rename_i rest hrest
        dsimp only at h
        split at h
        · exact ih h
        · rename_i hne
          rw [Bool.or_eq_true, List.isEmpty_iff, List.isEmpty_iff, not_or] at hne
          exact ⟨{ whole := _, fraction := _,
                   isNumeral_whole := ⟨hne.1, fun _ hc => List.mem_takeWhile_imp hc⟩,
                   isNumeral_fraction := ⟨hne.2, fun _ hc => List.mem_takeWhile_imp hc⟩ },
            (Option.some.inj h).symm⟩
      · exact ih h

theorem parseResult_eq_ok {text : String} {x : Number} :
    parseResult text = .ok x ↔
      ∃ n : Decimal, resultRegex text.toList = some n.text ∧ x = .ofRat n.value := by
  rw [parseResult]
  cases hmatch : resultRegex text.toList with
  | none =>
      simp only [Option.getD_none]
      exact iff_of_false (by rintro ⟨⟩) (by simp)
  | some m =>
      obtain ⟨n, rfl⟩ := exists_decimal hmatch
      simp only [Option.getD_some, parseFloat_decimal, Number.isNaN_ofRat, Bool.false_eq_true,
        if_false, Except.ok.injEq, Option.some.injEq]
      constructor
      · rintro rfl
        exact ⟨n, rfl, rfl⟩
      · rintro ⟨n', hn', rfl⟩
        have hsame := parseFloat_decimal n
        rw [hn', parseFloat_decimal] at hsame
        exact hsame.symm

end VcGenCmdCommandService

/-! ## The status -/

def serialSpawn : Spawn where
  command := "/usr/bin/pkexec --disable-internal-agent " ++
    "cat /sys/firmware/devicetree/base/serial-number"
  args := []
  shell := true

def uptimeSpawn : Spawn where
  command := UpTimeCommandService.uptimeExecutable
  args := ["-s"]
  shell := false

/-- `vcgencmd` with this argument. -/
def vcgencmdSpawn (argument : String) : Spawn where
  command := "/usr/bin/pkexec --disable-internal-agent " ++
    VcGenCmdCommandService.vcgencmdExecutable
  args := [argument]
  shell := true

/-- The texts of the commands. -/
structure Outputs where
  serial : String
  uptime : String
  df : String
  temperature : String
  voltage : String

/-- All commands succeed with these texts. -/
structure Prints (answer : Spawn → Except Exception String) (o : Outputs) : Prop where
  serial : answer serialSpawn = .ok o.serial
  uptime : answer uptimeSpawn = .ok o.uptime
  df : answer dfSpawn = .ok o.df
  temperature : answer (vcgencmdSpawn "measure_temp") = .ok o.temperature
  voltage : answer (vcgencmdSpawn "measure_volts core") = .ok o.voltage

section Status

variable {platform : Platform} {answer : Spawn → Except Exception String}

theorem eval_call_bind_eq_ok {α : Type} {p : Spawn} {k : String → ShellCommand.Service α} {a : α} :
    ((Prog.call p : ShellCommand.Service String).bind k).eval answer = .ok a ↔
      ∃ text, answer p = .ok text ∧ (k text).eval answer = .ok a := by
  rw [Prog.eval_bind, Prog.eval_call]
  exact except_bind_eq_ok

theorem getSerial_eq_ok {serial : String} :
    RasPiSerialCommandService.getSerial.eval answer = .ok serial ↔
      ∃ text, answer serialSpawn = .ok text ∧ String.ofList (trim text.toList) = serial := by
  refine eval_call_bind_eq_ok.trans (exists_congr fun text => and_congr_right fun _ => ?_)
  exact ⟨fun h => Except.ok.inj h, fun h => congrArg Except.ok h⟩

theorem getUpTime_eq_ok {uptime : Number} :
    (UpTimeCommandService.getUpTime platform).eval answer = .ok uptime ↔
      ∃ text, answer uptimeSpawn = .ok text ∧
        ((Number.finite platform.now.ms).sub (Time.getTime (platform.parseDate text))).div 1000 =
          uptime := by
  refine eval_call_bind_eq_ok.trans (exists_congr fun text => and_congr_right fun _ => ?_)
  exact ⟨fun h => Except.ok.inj h, fun h => congrArg Except.ok h⟩

theorem eval_parseResult (text : String) {x : Number} :
    (match VcGenCmdCommandService.parseResult text with
      | .ok temperature => (return temperature : ShellCommand.Service Number)
      | .error e => throw e).eval answer = .ok x ↔
      ∃ n : Decimal, VcGenCmdCommandService.resultRegex text.toList = some n.text ∧
        x = .ofRat n.value := by
  rw [← VcGenCmdCommandService.parseResult_eq_ok]
  cases VcGenCmdCommandService.parseResult text with
  | error e => exact iff_of_false (by rintro ⟨⟩) (by rintro ⟨⟩)
  | ok y => exact Iff.rfl

theorem getTemperature_eq_ok {temperature : Number} :
    VcGenCmdCommandService.getTemperature.eval answer = .ok temperature ↔
      ∃ text, answer (vcgencmdSpawn "measure_temp") = .ok text ∧
        ∃ n : Decimal, VcGenCmdCommandService.resultRegex text.toList = some n.text ∧
          temperature = .ofRat n.value :=
  eval_call_bind_eq_ok.trans
    (exists_congr fun text => and_congr_right fun _ => eval_parseResult text)

theorem getCoreVoltage_eq_ok {voltage : Number} :
    VcGenCmdCommandService.getCoreVoltage.eval answer = .ok voltage ↔
      ∃ text, answer (vcgencmdSpawn "measure_volts core") = .ok text ∧
        ∃ n : Decimal, VcGenCmdCommandService.resultRegex text.toList = some n.text ∧
          voltage = .ofRat n.value :=
  eval_call_bind_eq_ok.trans
    (exists_congr fun text => and_congr_right fun _ => eval_parseResult text)

/-- The texts of the commands are read as the numbers of the status. -/
structure ReadAs (platform : Platform) (o : Outputs) (status : DeviceStatusDto) : Prop where
  uptime : ((Number.finite platform.now.ms).sub
    (Time.getTime (platform.parseDate o.uptime))).div 1000 = status.uptime
  fs : ∃ used avail rest, (secondLine o.df).splitOn ' ' = used :: avail :: rest ∧
    BeginsWithInteger used ∧ BeginsWithInteger avail ∧
      status.fs = { available := parseInt (String.ofList avail),
                    used := parseInt (String.ofList used) }
  temperature : ∃ n : Decimal,
    VcGenCmdCommandService.resultRegex o.temperature.toList = some n.text ∧
      status.cpu.temperature = .ofRat n.value
  voltage : ∃ n : Decimal,
    VcGenCmdCommandService.resultRegex o.voltage.toList = some n.text ∧
      status.cpu.voltage = .ofRat n.value

theorem reads_of_ok {status : DeviceStatusDto}
    (h : getCurrentStatus platform answer = .ok status) :
    ∃ o, Prints answer o ∧ ReadAs platform o status := by
  obtain ⟨serialNumber, hserial, h⟩ := except_bind_eq_ok.mp h
  obtain ⟨uptime, huptime, h⟩ := except_bind_eq_ok.mp h
  obtain ⟨fs, hfs, h⟩ := except_bind_eq_ok.mp h
  obtain ⟨temperature, htemperature, h⟩ := except_bind_eq_ok.mp h
  obtain ⟨voltage, hvoltage, h⟩ := except_bind_eq_ok.mp h
  cases h
  obtain ⟨serialText, hserialText, _⟩ := getSerial_eq_ok.mp hserial
  obtain ⟨uptimeText, huptimeText, huptime⟩ := getUpTime_eq_ok.mp huptime
  obtain ⟨temperatureText, htemperatureText, htemperature⟩ :=
    getTemperature_eq_ok.mp htemperature
  obtain ⟨voltageText, hvoltageText, hvoltage⟩ := getCoreVoltage_eq_ok.mp hvoltage
  obtain ⟨dfText, hdfText, _⟩ := eval_call_bind_eq_ok.mp hfs
  refine ⟨⟨serialText, uptimeText, dfText, temperatureText, voltageText⟩,
    ⟨hserialText, huptimeText, hdfText, htemperatureText, hvoltageText⟩, huptime, ?_,
    htemperature, hvoltage⟩
  exact (getDiskSpaceInformation_eq_ok hdfText).mp hfs

/-- Texts that are read make a status. -/
theorem exists_status {o : Outputs} (ho : Prints answer o)
    (hdf : BeginsWithIntegers (secondLine o.df))
    (htemperature : (VcGenCmdCommandService.resultRegex o.temperature.toList).isSome = true)
    (hvoltage : (VcGenCmdCommandService.resultRegex o.voltage.toList).isSome = true) :
    ∃ status, getCurrentStatus platform answer = .ok status ∧ ReadAs platform o status := by
  obtain ⟨used, avail, rest, hparts, hused, havail⟩ := hdf
  obtain ⟨m, hm⟩ := Option.isSome_iff_exists.mp htemperature
  obtain ⟨n, rfl⟩ := VcGenCmdCommandService.exists_decimal hm
  obtain ⟨m', hm'⟩ := Option.isSome_iff_exists.mp hvoltage
  obtain ⟨n', rfl⟩ := VcGenCmdCommandService.exists_decimal hm'
  let status : DeviceStatusDto :=
    { serialNumber := String.ofList (trim o.serial.toList)
      uptime := ((Number.finite platform.now.ms).sub
        (Time.getTime (platform.parseDate o.uptime))).div 1000
      hostname := platform.hostname
      cpu := { temperature := .ofRat n.value, voltage := .ofRat n'.value }
      fs := { available := parseInt (String.ofList avail),
              used := parseInt (String.ofList used) } }
  refine ⟨status, ?_, rfl, ⟨used, avail, rest, hparts, hused, havail, rfl⟩, ⟨n, hm, rfl⟩,
    ⟨n', hm', rfl⟩⟩
  have hserial : RasPiSerialCommandService.getSerial.eval answer = .ok status.serialNumber :=
    getSerial_eq_ok.mpr ⟨o.serial, ho.serial, rfl⟩
  have huptime : (UpTimeCommandService.getUpTime platform).eval answer = .ok status.uptime :=
    getUpTime_eq_ok.mpr ⟨o.uptime, ho.uptime, rfl⟩
  have hfs : DfCommandService.getDiskSpaceInformation.eval answer = .ok status.fs :=
    (getDiskSpaceInformation_eq_ok ho.df).mpr ⟨used, avail, rest, hparts, hused, havail, rfl⟩
  have htemperature : VcGenCmdCommandService.getTemperature.eval answer =
      .ok status.cpu.temperature :=
    getTemperature_eq_ok.mpr ⟨o.temperature, ho.temperature, n, hm, rfl⟩
  have hvoltage : VcGenCmdCommandService.getCoreVoltage.eval answer =
      .ok status.cpu.voltage :=
    getCoreVoltage_eq_ok.mpr ⟨o.voltage, ho.voltage, n', hm', rfl⟩
  rw [getCurrentStatus, hserial, huptime, hfs, htemperature, hvoltage]
  rfl

/-- The text of `uptime` is a date, and the numerals in those of `vcgencmd` are not too
large. -/
structure Measured (platform : Platform) (o : Outputs) : Prop where
  uptime : (platform.parseDate o.uptime).isSome = true
  temperature : ∀ n : Decimal,
    VcGenCmdCommandService.resultRegex o.temperature.toList = some n.text →
      n.value < Number.limit
  voltage : ∀ n : Decimal,
    VcGenCmdCommandService.resultRegex o.voltage.toList = some n.text → n.value < Number.limit

theorem isFinite_decimal (n : Decimal) :
    (Number.ofRat n.value).isFinite = true ↔ n.value < Number.limit := by
  rw [Number.isFinite_ofRat, abs_of_nonneg n.value_nonneg]

theorem isFinite_parseInt {part : List Char} (h : BeginsWithInteger part) :
    (parseInt (String.ofList part)).isFinite = true := by
  obtain ⟨n, hn, hlt⟩ := h
  rw [parseInt, String.toList_ofList, hn]
  exact (Number.isFinite_ofRat n).mpr hlt

theorem isFinite_match {text : List Char} {x : Number}
    (h : ∃ n : Decimal, VcGenCmdCommandService.resultRegex text = some n.text ∧
      x = .ofRat n.value) :
    x.isFinite = true ↔ ∀ n : Decimal,
      VcGenCmdCommandService.resultRegex text = some n.text → n.value < Number.limit := by
  obtain ⟨n, hn, rfl⟩ := h
  rw [isFinite_decimal]
  refine ⟨fun hlt n' hn' => ?_, fun hall => hall n hn⟩
  -- A text is one numeral only.
  have hsame := parseFloat_decimal n
  rw [← Option.some.inj (hn'.symm.trans hn), parseFloat_decimal] at hsame
  rwa [← isFinite_decimal, hsame, isFinite_decimal]

/-- A status is finite exactly if what is read for it is measured. -/
theorem ReadAs.finite_iff {o : Outputs} {status : DeviceStatusDto}
    (h : ReadAs platform o status) : status.Finite ↔ Measured platform o := by
  obtain ⟨used, avail, rest, _, hused, havail, hfs⟩ := h.fs
  constructor
  · intro hfinite
    have huptime := hfinite.uptime
    rw [← h.uptime, isFinite_uptime] at huptime
    exact ⟨huptime, (isFinite_match h.temperature).mp hfinite.temperature,
      (isFinite_match h.voltage).mp hfinite.voltage⟩
  · intro hmeasured
    refine ⟨?_, ?_, ?_, (isFinite_match h.temperature).mpr hmeasured.temperature,
      (isFinite_match h.voltage).mpr hmeasured.voltage⟩
    · rw [← h.uptime, isFinite_uptime]
      exact hmeasured.uptime
    · rw [hfs]
      exact isFinite_parseInt hused
    · rw [hfs]
      exact isFinite_parseInt havail

end Status

/-- Every status that is returned is finite if and only if, whenever the commands succeed, the
disk space is read and `vcgencmd` has numerals, the date is read too and the numerals are
not too large. -/
theorem status_finite (platform : Platform) (answer : Spawn → Except Exception String) :
    (∀ status, getCurrentStatus platform answer = .ok status → status.Finite) ↔
      ∀ o, Prints answer o → BeginsWithIntegers (secondLine o.df) →
        (VcGenCmdCommandService.resultRegex o.temperature.toList).isSome = true →
        (VcGenCmdCommandService.resultRegex o.voltage.toList).isSome = true →
          Measured platform o := by
  constructor
  · intro h o ho hdf htemperature hvoltage
    obtain ⟨status, hstatus, hread⟩ := exists_status ho hdf htemperature hvoltage
    exact hread.finite_iff.mp (h status hstatus)
  · intro h status hstatus
    obtain ⟨o, ho, hread⟩ := reads_of_ok hstatus
    obtain ⟨used, avail, rest, hparts, hused, havail, _⟩ := hread.fs
    obtain ⟨n, hn, _⟩ := hread.temperature
    obtain ⟨n', hn', _⟩ := hread.voltage
    refine hread.finite_iff.mpr (h o ho ⟨used, avail, rest, hparts, hused, havail⟩ ?_ ?_)
    · rw [hn]
      rfl
    · rw [hn']
      rfl

/-! ## A status that is not finite -/

/-- No text is read as a date, and the empty one never is. -/
def noDate : Platform where
  now := { ms := 1700000000000, inRange := by decide }
  parseDate _ := none
  hostname := "raspberrypi"

def outputs : Outputs where
  serial := "10000000abcdef01"
  uptime := ""
  df := "Used Avail\n1337 42\n"
  temperature := "temp=42.8'C\n"
  voltage := "volt=0.85V\n"

def printsOutputs (p : Spawn) : Except Exception String :=
  if p = serialSpawn then .ok outputs.serial
  else if p = uptimeSpawn then .ok outputs.uptime
  else if p = dfSpawn then .ok outputs.df
  else if p = vcgencmdSpawn "measure_temp" then .ok outputs.temperature
  else .ok outputs.voltage

theorem status_not_finite : ∃ status,
    getCurrentStatus noDate printsOutputs = .ok status ∧ status.uptime = .nan ∧
      ¬ status.Finite := by
  have hprints : Prints printsOutputs outputs := ⟨rfl, rfl, rfl, rfl, rfl⟩
  have hsmall : ∀ n : ℤ, |n| ≤ 2 ^ 11 → |(n : ℚ)| < Number.limit := by
    intro n hn
    exact Number.lt_limit (k := 11) (by decide) (by exact_mod_cast hn)
  have hdf : BeginsWithIntegers (secondLine outputs.df) :=
    ⟨"1337".toList, "42".toList, [], by decide, ⟨1337, by decide, hsmall 1337 (by decide)⟩, 42,
      by decide, hsmall 42 (by decide)⟩
  obtain ⟨status, hstatus, hread⟩ : ∃ status,
      getCurrentStatus noDate printsOutputs = .ok status ∧ ReadAs noDate outputs status :=
    exists_status hprints hdf (by decide) (by decide)
  have huptime : status.uptime = .nan := hread.uptime.symm
  refine ⟨status, hstatus, huptime, fun hfinite => ?_⟩
  have hnan := hfinite.uptime
  rw [huptime] at hnan
  cases hnan

end RpiNestApi.DeviceStatus
