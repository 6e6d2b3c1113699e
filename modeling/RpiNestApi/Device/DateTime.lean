import RpiNestApi.Async.Alone
import RpiNestApi.Unicode.Utf16
import RpiNestApi.Unicode.Utf8
import RpiNestApi.Values

/-
Date, time and NTP.

`DateTimeService` changes the clock, the time zone, the configuration of timesyncd
and the NTP switch with calls of D-Bus and by writing a file.  Each of these is a
step of its own.  Where a later one fails, the ones before it stay.
-/

namespace RpiNestApi.DateTime

open Async Utf16

/-- A string literal. -/
def text (s : String) : Text := ofChars s.toList

/-! ## The world -/

/-- The clock is `elapsed + offset`, in microseconds, where `elapsed` is the time since
the system was started.  `config` is the content of the configuration file of timesyncd. -/
structure World where
  elapsed : Nat
  offset : Int
  timeZone : Text
  isNtpEnabled : Bool
  config : Option (List UInt8)

def World.clock (w : World) : Int := w.elapsed + w.offset

/-- The clock goes on, and nobody else changes anything. -/
def TimePasses (w w' : World) : Prop := ∃ d : Nat, w' = { w with elapsed := w.elapsed + d }

/-- The methods of `TimeDate1Service`, each of which connects for itself. -/
inductive Method where
  | getDateTimeInfo
  | setSystemDate
  | setTimezone
  | enableNTP
  deriving DecidableEq, Repr

/-- The properties that are read of `GetAll`. -/
structure TimeDate1Properties where
  timezone : Text
  ntp : Bool
  timeUSec : Int

inductive Await where
  | connect (method : Method)
  | getProperties
  | setTime (usecUtc : Int)
  | setTimezone (timezone : Text)
  | setNTP (useNtp : Bool)
  | getManager
  | restartUnit (unitName : String)
  | writeFile (content : Text)
  | readFile

@[reducible] def Await.Answer : Await → Type
  | .getProperties => TimeDate1Properties
  | .readFile => Text
  | _ => Unit

abbrev Service (α : Type) := Prog World Await Await.Answer Exception α

def await (q : Await) : Service q.Answer := Prog.call q

/-- What the system knows: the time zones of `ListTimezones`, and the time of a date in
microseconds, `new Date(date).getTime() * 1000`, unless the date is invalid. -/
structure Host where
  timezones : List Text
  microseconds : Text → Option Int

/-- Which of the steps fail. -/
abbrev Failures := Await → Option Exception

/-- A call that fails has no effect. -/
def unlessFails {α : Type} (failure : Option Exception) (a : α) (w w' : World) :
    Except Exception α × World :=
  match failure with
  | some e => (.error e, w)
  | none => (.ok a, w')

/-- How a promise settles.  `SetTime` takes no time up to 1970.  `SetTimezone` fails for the
names that are not listed, and for no others. -/
def settle (host : Host) (fails : Failures) :
    (q : Await) → World → Except Exception q.Answer × World
  | .connect method, w => unlessFails (fails (.connect method)) () w w
  | .getProperties, w =>
    unlessFails (fails .getProperties)
      { timezone := w.timeZone, ntp := w.isNtpEnabled, timeUSec := w.clock } w w
  | .setTime usecUtc, w =>
    if 0 < usecUtc then
      unlessFails (fails (.setTime usecUtc)) () w { w with offset := usecUtc - w.elapsed }
    else (.error (.error "Invalid absolute time"), w)
  | .setTimezone timezone, w =>
    if timezone ∈ host.timezones then (.ok (), { w with timeZone := timezone })
    else (.error (.error "Invalid time zone"), w)
  | .setNTP useNtp, w => unlessFails (fails (.setNTP useNtp)) () w { w with isNtpEnabled := useNtp }
  | .getManager, w => unlessFails (fails .getManager) () w w
  | .restartUnit unitName, w => unlessFails (fails (.restartUnit unitName)) () w w
  | .writeFile content, w =>
    unlessFails (fails (.writeFile content)) () w
      { w with config := some (Utf8.encode (toChars content)) }
  | .readFile, w =>
    match w.config with
    | none => (.error (.error "ENOENT: no such file or directory"), w)
    | some content => unlessFails (fails .readFile) (ofChars (Utf8.decode content)) w w

def answer (host : Host) (fails : Failures) (q : Await) (_ : Unit) (w : World) :
    Option (Except Exception q.Answer × World) :=
  some (settle host fails q w)

/-! ## Services -/

structure DateTimeInfo where
  date : Int
  timeZone : Text
  isNtpEnabled : Bool

namespace TimeDate1Service

def getDateTimeInfo : Service DateTimeInfo := do
  await (.connect .getDateTimeInfo)
  let properties ← await .getProperties
  return {
    date := properties.timeUSec.tdiv 1000
    timeZone := properties.timezone
    isNtpEnabled := properties.ntp }

/-- The time of an invalid date is no number that `BigInt` takes. -/
def setSystemDate (time : Option Int) : Service Unit := do
  await (.connect .setSystemDate)
  match time with
  | none =>
    throw (.error "The number NaN cannot be converted to a BigInt because it is not an integer")
  | some timestampInMicroSecondsUTC => await (.setTime timestampInMicroSecondsUTC)

def setTimezone (timezone : Text) : Service Unit := do
  await (.connect .setTimezone)
  await (.setTimezone timezone)

def enableNTP (isNtpEnabled : Bool) : Service Unit := do
  await (.connect .enableNTP)
  await (.setNTP isNtpEnabled)

end TimeDate1Service

def Systemd1Service.restartUnit (unitName : String) : Service Unit := do
  await .getManager
  await (.restartUnit unitName)

structure DateTimeSettingsDto where
  timeZone : Text
  date : Text

/-- A string, or another value by what the service makes of it: whether it counts as
true, and its text in a template, which an object may refuse. -/
inductive Property where
  | string (s : Text)
  | other (isTrue : Bool) (text : Except Exception Text)

def Property.isTrue : Property → Bool
  | .string s => !s.isEmpty
  | .other isTrue _ => isTrue

def Property.text : Property → Except Exception Text
  | .string s => .ok s
  | .other _ text => text

structure NtpSettingsDto where
  ntpServer : Property
  isNtpEnabled : Bool

/-- The decorators.  The time zone may be any string, and `isISO8601` decides on dates. -/
def DateTimeSettingsDto.accepts (isISO8601 : Text → Bool) (dto : DateTimeSettingsDto) : Bool :=
  isISO8601 dto.date

/-- The server is looked at only where NTP is to be enabled. -/
def NtpSettingsDto.accepts (dto : NtpSettingsDto) : Bool :=
  match dto.ntpServer with
  | .string _ => true
  | .other _ _ => !dto.isNtpEnabled

def DEFAULT_TIME_SERVER_POOL : List String :=
  ["0.pool.ntp.org", "1.pool.ntp.org", "2.pool.ntp.org", "3.pool.ntp.org"]

namespace TIMESYNCD_CONFIG

/-- The template up to the address. -/
def head : Text :=
  text "\n# This file  is generated by rpi-nest-api. Do not modify manually!\n[Time]\nNTP="

def tail : Text :=
  text ("\nFallbackNTP=" ++ " ".intercalate DEFAULT_TIME_SERVER_POOL ++ "\n  ")

def TEMPLATE (ntpAddress : Text) : Text := head ++ ntpAddress ++ tail

def isLineTerminator (u : UInt16) : Bool := u ∈ [0x000a, 0x000d, 0x2028, 0x2029]

/-- The group of `/^NTP=(.*)$/m`: the rest of the first line that starts with `NTP=`. -/
def GET_REGEXP (ntpConfig : Text) : Option Text :=
  (ntpConfig.splitOnP isLineTerminator).findSome? fun line =>
    if (text "NTP=").isPrefixOf line then some (line.drop 4) else none

end TIMESYNCD_CONFIG

namespace DateTimeService

def setDateTime (host : Host) (dateTime : DateTimeSettingsDto) : Service Unit := do
  let currentSettings ← TimeDate1Service.getDateTimeInfo
  if currentSettings.isNtpEnabled then
    throw (.badRequest "Cannot set system time while NTP synchronization is enabled")
  else
    TimeDate1Service.setSystemDate (host.microseconds dateTime.date)
    TimeDate1Service.setTimezone dateTime.timeZone

def writeNtpAddressToConfig (timeServerAddress : Property) : Service Unit :=
  match timeServerAddress.text with
  | .error e => throw e
  | .ok address => await (.writeFile (TIMESYNCD_CONFIG.TEMPLATE address))

def setNtp (ntpSettings : NtpSettingsDto) : Service Unit := do
  if ntpSettings.ntpServer.isTrue then
    writeNtpAddressToConfig ntpSettings.ntpServer
    Systemd1Service.restartUnit "systemd-timesyncd.service"
    TimeDate1Service.enableNTP ntpSettings.isNtpEnabled
  else
    TimeDate1Service.enableNTP ntpSettings.isNtpEnabled

def getNtpAddressFromConfig : Service (Option Text) := do
  try
    let ntpConfig ← await .readFile
    return TIMESYNCD_CONFIG.GET_REGEXP ntpConfig
  catch _ =>
    return none

end DateTimeService

end RpiNestApi.DateTime
