import RpiNestApi.Dbus.Polkit
import RpiNestApi.Device.Status
import RpiNestApi.ShellCommand.CommandLine
import RpiNestApi.ShellCommand.Configurations

/-
Which of the commands of `spawnAuthorized` polkit lets run.

`pkexec` looks for the program, asks polkit whether the user may run it and fails if
the answer is not yes.  The rules of the repository name two programs by their paths.
The services that read the serial number run a third one.
-/

namespace RpiNestApi.DeviceStatus.RasPiSerialCommandService

open ShellCommand

def getDefaultPassword : ShellCommand.Service String := do
  let output ← ChildProcessService.spawnAuthorized
    "cat /sys/firmware/devicetree/base/serial-number" [] true
  return String.ofList (trim output.toList)

end RpiNestApi.DeviceStatus.RasPiSerialCommandService

namespace RpiNestApi.ShellCommand

open Async Policy Polkit Shell

/-- Where the services run: the installed rules, what polkit answers if no rule does,
the user of the process, the search path, and the variables that `pkexec` passes to
the rules for a program and its arguments. -/
structure Machine where
  directory : List (File Query PolkitResult)
  implicit : Query → PolkitResult
  subject : Subject
  which : String → Option String
  which_name : ∀ {name path}, which name = some path → ∃ dir, path = dir ++ "/" ++ name
  lookup : String → List String → String → Option String
  lookup_program : ∀ path args, lookup path args "program" = some path

namespace Machine

/-- A program with a slash in front is a path. -/
def path (m : Machine) (program : String) : Option String :=
  if program.toList.head? = some '/' then some program else m.which program

def query (m : Machine) (path : String) (args : List String) : Query :=
  { action := { id := pkexecActionId, lookup := m.lookup path args }, subject := m.subject }

/-- polkit's answer for a program and its arguments is yes. -/
def authorized (m : Machine) (program : String) (args : List String) : Bool :=
  match m.path program with
  | none => false
  | some path =>
    (decision (load m.directory) (m.query path args)).getD (m.implicit (m.query path args)) == .yes

end Machine

/-- The words of a command that is run with `pkexec`. -/
def pkexecWords (program : String) (args : List String) : List String :=
  "/usr/bin/pkexec" :: "--disable-internal-agent" :: program :: args

/-- The process is a command that is run with `pkexec` and is authorized. -/
structure Machine.Runs (m : Machine) (p : Spawn) : Prop where
  shell : p.shell = true
  authorized : ∃ program args, Parses .posix p.line (pkexecWords program args) ∧
    m.authorized program args = true

/-- A command that is not authorized fails. -/
def Machine.Enforces (m : Machine) (answer : Spawn → Except Exception String) : Prop :=
  ∀ p program args, p.shell = true → Parses .posix p.line (pkexecWords program args) →
    m.authorized program args = false → ∃ e, answer p = .error e

/-- The services run as the service user, with the files of the repository, and
nobody else has rules for `pkexec` or lets programs run without one. -/
structure Machine.Deployed (m : Machine) : Prop where
  service : m.subject.IsService
  installed : ∀ file ∈ repositoryFiles, Installed m.directory file
  alone : ∀ file ∈ others m.directory, ∀ q : Query, q.action.id = pkexecActionId →
    decision file.rules q = none
  implicit : ∀ q : Query, q.action.id = pkexecActionId → m.implicit q ≠ .yes

/-! ## Command lines -/

/-- What `spawnAuthorized` spawns in a shell. -/
def authorizedSpawn (command : String) (args : List String) : Spawn where
  command := "/usr/bin/pkexec --disable-internal-agent " ++ command
  args := args
  shell := true

theorem pkexec_append (line : String) : "/usr/bin/pkexec --disable-internal-agent " ++ line =
    "/usr/bin/pkexec" ++ " " ++ ("--disable-internal-agent" ++ " " ++ line) := by
  have hwords : "/usr/bin/pkexec --disable-internal-agent " =
      "/usr/bin/pkexec" ++ (" " ++ ("--disable-internal-agent" ++ " ")) := by decide
  rw [hwords]
  simp only [String.append_assoc]

/-- Arguments that are joined already make the same line. -/
theorem authorizedSpawn_line {command program : String} {args words : List String}
    (h : " ".intercalate (command :: args) = " ".intercalate (program :: words)) :
    (authorizedSpawn command args).line = " ".intercalate (pkexecWords program words) :=
  calc (authorizedSpawn command args).line
      = "/usr/bin/pkexec --disable-internal-agent " ++ " ".intercalate (command :: args) :=
        String.intercalate_cons_append
    _ = "/usr/bin/pkexec --disable-internal-agent " ++ " ".intercalate (program :: words) := by
        rw [h]
    _ = " ".intercalate (pkexecWords program words) := by
        rw [pkexec_append, pkexecWords, String.intercalate_cons_cons,
          String.intercalate_cons_cons]

/-- The words that the services write into their commands. -/
def commandWords : List String :=
  fixedWords ++ ["availstat", "/usr/bin/vcgencmd", "measure_temp", "measure_volts", "core", "cat",
    "/sys/firmware/devicetree/base/serial-number"]

theorem literal_commandWords : ∀ word ∈ commandWords, Literal .posix word :=
  literal_of_all (by decide +kernel)

/-- Words that stand for themselves are the words of the line. -/
theorem parses_authorizedSpawn {command program : String} {args words : List String}
    (h : " ".intercalate (command :: args) = " ".intercalate (program :: words))
    (hliteral : ∀ word ∈ program :: words, Literal .posix word) :
    Parses .posix (authorizedSpawn command args).line (pkexecWords program words) := by
  rw [authorizedSpawn_line h, parses_intercalate (by simp [pkexecWords])]
  intro word hword
  simp only [pkexecWords, List.mem_cons] at hword
  rcases hword with rfl | rfl | hword
  · exact literal_commandWords _ (by decide)
  · exact literal_commandWords _ (by decide)
  · exact hliteral word (List.mem_cons.mpr hword)

theorem serialSpawn_parses : Parses .posix DeviceStatus.serialSpawn.line
    (pkexecWords "cat" ["/sys/firmware/devicetree/base/serial-number"]) :=
  parses_authorizedSpawn (by decide) fun word hword =>
    literal_commandWords word (by
      simp only [List.mem_cons, List.not_mem_nil, or_false] at hword
      rcases hword with rfl | rfl <;> decide)

theorem intercalate_availstat {ids : List String} (h : ids ≠ []) :
    " ".intercalate [rpiConfigExecutable, "availstat", " ".intercalate ids] =
      " ".intercalate (rpiConfigExecutable :: "availstat" :: ids) := by
  cases ids with
  | nil => exact absurd rfl h
  | cons id ids => simp only [String.intercalate_cons_cons, String.intercalate_singleton]

theorem calls_spawnAuthorized {α : Type} {command : String} {args : List String}
    {k : String → Service α} {answer : Spawn → Except Exception String}
    (hk : ∀ text, (k text).calls answer = []) :
    ((ChildProcessService.spawnAuthorized command args true).bind k).calls answer =
      [authorizedSpawn command args] := by
  have hcall : ChildProcessService.spawnAuthorized command args true =
      (Prog.call (authorizedSpawn command args) : Service String) := rfl
  rw [hcall, Prog.calls_bind, Prog.calls_call, Prog.eval_call]
  cases answer (authorizedSpawn command args) with
  | error e => exact List.append_nil _
  | ok text => exact congrArg ([authorizedSpawn command args] ++ ·) (hk text)

section Deployed

variable {m : Machine} (h : m.Deployed)
include h

theorem decision_others {part : List (File Query PolkitResult)}
    (hpart : ∀ file ∈ part, file ∈ m.directory) {q : Query} (hid : q.action.id = pkexecActionId) :
    decision (load (others part)) q = none := by
  rw [← decision_load_filter (p := fun _ => false) fun file hmem _ => ?_]
  · rw [List.filter_eq_nil_iff.mpr fun _ _ => Bool.false_ne_true]
    rfl
  · obtain ⟨hmem, hname⟩ := List.mem_filter.mp hmem
    exact h.alone file (List.mem_filter.mpr ⟨hpart file hmem, hname⟩) q hid

theorem decision_query (path : String) (args : List String) :
    decision (load m.directory) (m.query path args) =
      if path ∈ allowedPkexecPaths then some .yes else none := by
  have hid : (m.query path args).action.id = pkexecActionId := rfl
  split
  · rename_i hpath
    have hbefore : ∀ file ∈ before pkexecFile.name m.directory, file ∈ m.directory :=
      fun _ hmem => List.takeWhile_subset _ hmem
    rw [decision_pkexec h.installed ⟨h.service, hid, path, hpath, m.lookup_program path args⟩,
      decision_others h hbefore hid]
    rfl
  · rename_i hpath
    rw [decision_unaffected h.installed, decision_others h (fun _ hmem => hmem) hid]
    · rintro ⟨_, _, program, hprogram, hlookup⟩
      cases (m.lookup_program path args).symm.trans hlookup
      exact hpath hprogram
    · intro hactions
      have hlisted := hactions.id
      rw [hid] at hlisted
      exact absurd hlisted (by decide)

/-- The two programs of the rules are authorized, with any arguments, and no other
path is. -/
theorem authorized_iff {program : String} {args : List String} :
    m.authorized program args = true ↔ ∃ path ∈ allowedPkexecPaths, m.path program = some path := by
  rw [Machine.authorized]
  cases hpath : m.path program with
  | none => simp
  | some path =>
      simp only [decision_query h, Option.some.injEq, exists_eq_right']
      split
      · rename_i hallowed
        simp [hallowed]
      · rename_i hallowed
        have himplicit := h.implicit (m.query path args) rfl
        simp [hallowed, himplicit]

/-- A process of `raspi-config`. -/
theorem runs_rpiConfig {args words : List String}
    (hargs : " ".intercalate (rpiConfigExecutable :: args) =
      " ".intercalate (rpiConfigExecutable :: words))
    (hliteral : ∀ word ∈ words, Literal .posix word) :
    m.Runs (authorizedSpawn rpiConfigExecutable args) where
  shell := rfl
  authorized := by
    refine ⟨rpiConfigExecutable, words, parses_authorizedSpawn hargs ?_,
      (authorized_iff h).mpr ⟨rpiConfigExecutable, by decide, rfl⟩⟩
    rw [List.forall_mem_cons]
    exact ⟨literal_commandWords _ (by decide), hliteral⟩

theorem runs_vcgencmd {argument : String} {words : List String}
    (hargs : " ".intercalate ["/usr/bin/vcgencmd", argument] =
      " ".intercalate ("/usr/bin/vcgencmd" :: words))
    (hliteral : ∀ word ∈ words, word ∈ commandWords) :
    m.Runs (DeviceStatus.vcgencmdSpawn argument) where
  shell := rfl
  authorized := by
    refine ⟨"/usr/bin/vcgencmd", words, parses_authorizedSpawn hargs ?_,
      (authorized_iff h).mpr ⟨"/usr/bin/vcgencmd", by decide, rfl⟩⟩
    rw [List.forall_mem_cons]
    exact ⟨literal_commandWords _ (by decide),
      fun word hword => literal_commandWords word (hliteral word hword)⟩

/-- `cat` is none of the two programs, wherever it is found. -/
theorem authorized_cat (args : List String) : m.authorized "cat" args = false := by
  rw [← Bool.not_eq_true, authorized_iff h]
  rintro ⟨path, hallowed, hpath⟩
  obtain ⟨dir, rfl⟩ := m.which_name hpath
  have hlast : (dir ++ "/" ++ "cat").toList.getLast? = some 't' := by simp
  simp only [allowedPkexecPaths, List.mem_cons, List.not_mem_nil, or_false] at hallowed
  rcases hallowed with hallowed | hallowed
  · rw [hallowed] at hlast
    exact absurd hlast (by decide)
  · rw [hallowed] at hlast
    exact absurd hlast (by decide)

/-! ## The services -/

/-- The list is made with two commands, the second of which has the names that the first
one has listed. -/
theorem runs_supported {answer : Spawn → Except Exception String}
    (hanswer : ∀ text, answer (authorizedSpawn rpiConfigExecutable []) = .ok text →
      ∀ id ∈ RpiConfigCommandService.supportedFeatures text, Literal .posix id) :
    ∀ p ∈ DeviceConfigService.getAllSupportedConfigurations.calls answer, m.Runs p := by
  intro p hp
  rw [DeviceConfigService.getAllSupportedConfigurations, Prog.bind_def, Prog.mem_calls_bind] at hp
  rcases hp with hp | ⟨ids, hids, hp⟩
  · rw [RpiConfigCommandService.getSupportedConfigurations, Prog.bind_def,
      calls_spawnAuthorized fun _ => rfl, List.mem_singleton] at hp
    subst hp
    exact runs_rpiConfig h rfl (by simp)
  · obtain ⟨text, htext, hids⟩ := DeviceStatus.eval_call_bind_eq_ok.mp hids
    cases hids
    have hliteral := hanswer text htext
    rw [Prog.bind_def, Prog.mem_calls_bind] at hp
    rcases hp with hp | ⟨states, _, hp⟩
    · rw [RpiConfigCommandService.getConfigurationStates, Prog.bind_def] at hp
      by_cases hnone : RpiConfigCommandService.supportedFeatures text = []
      · rw [hnone] at hp
        cases hp
      · rw [executeCommand_bind_calls ?_ none ?_, List.mem_singleton] at hp
        · subst hp
          refine runs_rpiConfig h (intercalate_availstat hnone) ?_
          rw [List.forall_mem_cons]
          exact ⟨literal_commandWords _ (by decide), hliteral⟩
        · refine intercalate_ne_empty hnone fun id hid => ?_
          rintro rfl
          exact (hliteral "" hid).ne_nil rfl
        · intro result
          split <;> rfl
    · cases hp

theorem getSerial_refused {answer : Spawn → Except Exception String}
    (henforces : m.Enforces answer) :
    ∃ e, DeviceStatus.RasPiSerialCommandService.getSerial.eval answer = .error e := by
  obtain ⟨e, he⟩ := henforces _ _ _ rfl serialSpawn_parses (authorized_cat h _)
  cases hserial : DeviceStatus.RasPiSerialCommandService.getSerial.eval answer with
  | error e => exact ⟨e, rfl⟩
  | ok serial =>
      obtain ⟨text, htext, _⟩ := DeviceStatus.getSerial_eq_ok.mp hserial
      cases he.symm.trans htext

end Deployed

/-- What becomes of the processes that the services spawn with `pkexec`. -/
structure PrivilegedCommands (m : Machine) : Prop where
  supported : ∀ answer : Spawn → Except Exception String,
    (∀ text, answer (authorizedSpawn rpiConfigExecutable []) = .ok text →
      ∀ id ∈ RpiConfigCommandService.supportedFeatures text, Literal .posix id) →
    ∀ p ∈ DeviceConfigService.getAllSupportedConfigurations.calls answer, m.Runs p
  configuration : ∀ (r : ConfigRequest) (answer : Spawn → Except Exception String),
    r.id ≠ "" → (∀ s ∈ r.parameters, Literal .posix s) → ∀ p ∈ r.spawns answer, m.Runs p
  temperature : ∀ answer : Spawn → Except Exception String,
    ∀ p ∈ DeviceStatus.VcGenCmdCommandService.getTemperature.calls answer, m.Runs p
  coreVoltage : ∀ answer : Spawn → Except Exception String,
    ∀ p ∈ DeviceStatus.VcGenCmdCommandService.getCoreVoltage.calls answer, m.Runs p
  /-- There is no rule for the command that reads the serial number. -/
  serial : ∀ answer, m.Enforces answer →
    ∃ e, DeviceStatus.RasPiSerialCommandService.getSerial.eval answer = .error e
  defaultPassword : ∀ answer, m.Enforces answer →
    ∃ e, DeviceStatus.RasPiSerialCommandService.getDefaultPassword.eval answer = .error e
  status : ∀ platform answer, m.Enforces answer →
    ∃ e, DeviceStatus.getCurrentStatus platform answer = .error e

/-- Of the commands of the services the rules let those of two programs run, and there is
no way to read the serial number. -/
theorem privileged_commands {m : Machine} (h : m.Deployed) : PrivilegedCommands m where
  supported _ hanswer := runs_supported h hanswer
  configuration r answer hid hliteral := by
    intro p hp
    rw [r.spawns_eq hid, List.mem_singleton] at hp
    subst hp
    refine runs_rpiConfig h rfl ?_
    have hname : r.command.name ∈ commandWords := by
      cases r with
      | enable id value => exact (by decide : RpiConfigCommand.enable.name ∈ commandWords)
      | disable id => exact (by decide : RpiConfigCommand.disable.name ∈ commandWords)
      | status id => exact (by decide : RpiConfigCommand.status.name ∈ commandWords)
    rw [List.forall_mem_cons]
    exact ⟨literal_commandWords _ hname, hliteral⟩
  temperature answer := by
    intro p hp
    rw [DeviceStatus.VcGenCmdCommandService.getTemperature, Prog.bind_def,
      calls_spawnAuthorized fun text => ?_, List.mem_singleton] at hp
    · subst hp
      exact runs_vcgencmd h rfl (by decide)
    · split <;> rfl
  coreVoltage answer := by
    intro p hp
    rw [DeviceStatus.VcGenCmdCommandService.getCoreVoltage, Prog.bind_def,
      calls_spawnAuthorized fun text => ?_, List.mem_singleton] at hp
    · subst hp
      have hjoin : " ".intercalate ["/usr/bin/vcgencmd", "measure_volts core"] =
          " ".intercalate ["/usr/bin/vcgencmd", "measure_volts", "core"] := by decide
      exact runs_vcgencmd h hjoin (by decide)
    · split <;> rfl
  serial _ henforces := getSerial_refused h henforces
  defaultPassword _ henforces := getSerial_refused h henforces
  status platform answer henforces := by
    obtain ⟨e, he⟩ := getSerial_refused h henforces
    refine ⟨e, ?_⟩
    rw [DeviceStatus.getCurrentStatus, he]
    rfl

/-- Only the files of the repository, and programs of one directory. -/
def plainMachine : Machine where
  directory := repositoryFiles
  implicit _ := .authAdmin
  subject := { user := apiUnixUser, isInGroup := fun group => group == apiUnixGroup }
  which name := some ("/usr/bin" ++ "/" ++ name)
  which_name h := ⟨"/usr/bin", (Option.some.inj h).symm⟩
  lookup path args key :=
    if key = "program" then some path
    else if key = "command_line" then some (" ".intercalate (path :: args))
    else none
  lookup_program _ _ := rfl

theorem privileged_commands_plainMachine : PrivilegedCommands plainMachine :=
  privileged_commands
    { service := ⟨rfl, by decide⟩
      installed := by
        intro file hmem
        exact { present := ⟨file, hmem, rfl⟩
                same := by
                  simp only [repositoryFiles, List.mem_cons, List.not_mem_nil, or_false] at hmem
                  rcases hmem with rfl | rfl <;>
                    simp [plainMachine, repositoryFiles, pkexecFile, actionsFile] }
      alone := by
        intro file hmem
        have hnone : others plainMachine.directory = [] := by decide
        rw [hnone] at hmem
        cases hmem
      implicit := by
        rintro _ _ ⟨⟩ }

end RpiNestApi.ShellCommand
