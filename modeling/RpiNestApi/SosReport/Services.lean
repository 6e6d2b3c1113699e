import RpiNestApi.Async.Pool
import RpiNestApi.Systemd.Unit
import RpiNestApi.Values

/-
`SosReportService` and the system it runs in.

A unit of systemd writes the report into a directory.  A request starts the unit,
polls its state until it no longer runs, and leaves it to a pipeline to pack the
directory into the response and to delete it.  All requests use one directory.
-/

namespace RpiNestApi.SosReport

open Async

/-! ## The world -/

/-- Who asks for a run of the unit: a request, by its number, or somebody else. -/
abbrev Client := Option Nat

/-- `requests` is the number of requests made so far, `directory` says whether
there is a report directory, and `pipelines` are the requests whose pipeline has
been made and of which no event was handled yet. -/
structure World where
  requests : Nat
  unit : Systemd.Unit Client
  directory : Bool
  pipelines : List Nat

/-- What a request is at. -/
inductive Stage where
  | check
  | start
  | poll
  | pack
  | delete
  deriving DecidableEq, Repr

/-- The two properties that are read of `GetAll`. -/
structure UnitProperties where
  activeState : String
  subState : String
  deriving DecidableEq, Repr

/-- The promises the services await, named after the method that makes them.  The
calls to systemd that are made at more than one stage name the stage.  `unknown`
never settles. -/
inductive Await where
  | mkdir
  | getMethodInterface (stage : Stage)
  | loadUnit (stage : Stage)
  | getPropertiesInterface (stage : Stage)
  | getAll (stage : Stage)
  | startUnit (request : Nat)
  | timeout
  | pipeline
  | rm
  | unknown

@[reducible] def Await.Answer : Await → Type
  | .getAll _ => Option UnitProperties
  | _ => Unit

@[simp] def Await.stage : Await → Stage
  | .mkdir => .check
  | .getMethodInterface stage => stage
  | .loadUnit stage => stage
  | .getPropertiesInterface stage => stage
  | .getAll stage => stage
  | .startUnit _ => .start
  | .timeout => .poll
  | .pipeline => .pack
  | .rm => .delete
  | .unknown => .poll

abbrev Service (α : Type) := Prog World Await Await.Answer Exception α

def await (q : Await) : Service q.Answer := Prog.call q

/-! ## Services -/

/-- The methods are called with the name of the report's unit. -/
def SYSTEMD_SERVICE_NAME : String := "rpi-nest-api-sos-report.service"

namespace Systemd1Service

def getManager (stage : Stage) : Service Unit := await (.getMethodInterface stage)

def startUnit (request : Nat) : Service Unit := do
  getManager .start
  await (.startUnit request)

def loadUnit (stage : Stage) : Service Unit := do
  getManager stage
  await (.loadUnit stage)

def getUnitProperties (stage : Stage) : Service (Option UnitProperties) := do
  loadUnit stage
  await (.getPropertiesInterface stage)
  await (.getAll stage)

end Systemd1Service

/-- The test of `isReportServiceRunning`. -/
def UnitProperties.isRunning (props : UnitProperties) : Bool :=
  (props.activeState == "active" && props.subState == "running") ||
    props.activeState == "deactivating"

namespace SosReportService

def ensureUploadDirectoryExists : Service Unit := do
  try
    await .mkdir
  catch _ =>
    pure ()

def isReportServiceRunning (stage : Stage) : Service Bool := do
  let props ← Systemd1Service.getUnitProperties stage
  match props with
  | none => throw (.error ("Could not get " ++ SYSTEMD_SERVICE_NAME ++ " unit properties"))
  | some props => return props.isRunning

/-- The loop, for the given number of rounds.  After them the request is not
followed any further. -/
def waitForReportService : Nat → Service Unit
  | 0 => await .unknown
  | polls + 1 => do
    await .timeout
    let isSosReportRunning ← isReportServiceRunning .poll
    if isSosReportRunning then waitForReportService polls else return ()

/-- The pipeline is left behind, and the response is its stream. -/
def createReportStream (request polls : Nat) : Service Unit := do
  ensureUploadDirectoryExists
  let isSosReportRunning ← isReportServiceRunning .check
  if isSosReportRunning then
    throw (.conflict "Report service already running")
  else
    Systemd1Service.startUnit request
    waitForReportService polls
    Prog.modify fun w => { w with pipelines := w.pipelines ++ [request] }

def deleteReportDirectory : Service Unit := do
  try
    await .rm
  catch _ =>
    pure ()

/-- The promise of the pipeline with its `finally`.  Nobody awaits it. -/
def packReport : Service Unit := (await .pipeline).finallyDo deleteReportDirectory

end SosReportService

/-! ## The system -/

/-- `pipeline` is the event loop handling the first event of a pipeline.  The
number of polls is how long the request is followed. -/
inductive Call where
  | generateSosReport (request polls : Nat)
  | pipeline (request : Nat)

def Call.request : Call → Nat
  | .generateSosReport request _ => request
  | .pipeline request => request

/-- A promise settles, settles without a value, or is rejected. -/
inductive Choice where
  | resolve
  | undefined
  | reject (e : Exception)

/-- Somebody else starts the unit, a queued run begins, a run goes on or ends, or
it writes the report. -/
inductive Env where
  | start
  | begin (activeState : Systemd.ActiveState) (subState : String)
  | goOn (activeState : Systemd.ActiveState) (subState : String)
  | write

def body : Call → Service Unit
  | .generateSosReport request polls => SosReportService.createReportStream request polls
  | .pipeline _ => SosReportService.packReport

/-- Requests are numbered as they come in. -/
def accept : Call → World → Option World
  | .generateSosReport request _, w =>
    if request = w.requests then some { w with requests := w.requests + 1 } else none
  | .pipeline request, w =>
    if request ∈ w.pipelines then some { w with pipelines := w.pipelines.erase request }
    else none

def World.properties (w : World) : UnitProperties :=
  { activeState := w.unit.activeState.name, subState := w.unit.subState }

def answer : (q : Await) → Choice → World → Option (Except Exception q.Answer × World)
  | .unknown, _, _ => none
  | .timeout, .resolve, w => some (.ok (), w)
  | .timeout, _, _ => none
  | .getAll _, .resolve, w => some (.ok (some w.properties), w)
  | .getAll _, .undefined, w => some (.ok none, w)
  | .startUnit request, .resolve, w =>
    some (.ok (), { w with unit := w.unit.start (some request) })
  | .rm, .resolve, w => some (.ok (), { w with directory := false })
  | .mkdir, .resolve, w => some (.ok (), w)
  | .getMethodInterface _, .resolve, w => some (.ok (), w)
  | .loadUnit _, .resolve, w => some (.ok (), w)
  | .getPropertiesInterface _, .resolve, w => some (.ok (), w)
  | .pipeline, .resolve, w => some (.ok (), w)
  | _, .undefined, _ => none
  | _, .reject e, w => some (.error e, w)

def env : Env → World → Option World
  | .start, w => some { w with unit := w.unit.start none }
  | .begin activeState subState, w =>
    (w.unit.beginRun activeState subState).map fun unit => { w with unit }
  | .goOn activeState subState, w =>
    (w.unit.goOn activeState subState).map fun unit => { w with unit }
  | .write, w => if w.unit.activeState.runs then some { w with directory := true } else none

def system : System World Await Await.Answer Exception Unit Call Choice Env :=
  { body, accept, answer, env }

/-- No request was made yet. -/
def World.init (unit : Systemd.Unit Client) (directory : Bool) : World :=
  { requests := 0, unit, directory, pipelines := [] }

abbrev Service.State := Async.State World Await Await.Answer Exception Unit Call

abbrev Service.Config := Async.Config World Await Exception Unit Call

abbrev Service.Thread := Async.Thread Await Exception Unit Call

abbrev Service.Act := Async.Act Call Choice Env

end RpiNestApi.SosReport
