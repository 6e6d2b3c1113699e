import RpiNestApi.Policy.Rules

/-
The polkit rules of the service user.

polkit asks the rules of all installed files, in the order of the files, whether a
subject may perform an action.  Two of the files are the repository's.  They answer
for the service user only, and only with yes.
-/

namespace RpiNestApi.Polkit

open Policy

/-- `NOT_HANDLED`, and no result at all, is `none`. -/
inductive PolkitResult where
  | no
  | yes
  | authSelf
  | authSelfKeep
  | authAdmin
  | authAdminKeep
  deriving DecidableEq, Repr

structure Action where
  id : String
  lookup : String → Option String

structure Subject where
  user : String
  isInGroup : String → Bool

structure Query where
  action : Action
  subject : Subject

def apiUnixUser : String := "api"

def apiUnixGroup : String := "rpi-nest"

/-- Both files define it. -/
def isApiServiceUser (subject : Subject) : Bool :=
  subject.user == apiUnixUser && subject.isInGroup apiUnixGroup

/-! ## 00-pkexec -/

def pkexecActionId : String := "org.freedesktop.policykit.exec"

def allowedPkexecPaths : List String := ["/usr/bin/raspi-config", "/usr/bin/vcgencmd"]

def isAllowedToExecuteProgram (action : Action) : Bool :=
  match action.lookup "program" with
  | none => false
  | some program => allowedPkexecPaths.contains program

def pkexecRule : Rule Query PolkitResult := fun q =>
  if q.action.id = pkexecActionId then
    if isApiServiceUser q.subject && isAllowedToExecuteProgram q.action then some .yes else none
  else none

def pkexecFile : File Query PolkitResult := { name := "00-pkexec", rules := [pkexecRule] }

/-! ## 10-rpi-nest-api -/

def allowedActionIds : List String :=
  ["org.freedesktop.login1.reboot",
    "org.freedesktop.login1.reboot-multiple-sessions",
    "org.freedesktop.systemd1.manage-units",
    "org.freedesktop.systemd1.manage-unit-files",
    "org.freedesktop.NetworkManager.checkpoint-rollback",
    "org.freedesktop.NetworkManager.enable-disable-network",
    "org.freedesktop.NetworkManager.network-control",
    "org.freedesktop.NetworkManager.reload",
    "org.freedesktop.NetworkManager.settings.modify.global-dns",
    "org.freedesktop.NetworkManager.settings.modify.hostname",
    "org.freedesktop.NetworkManager.settings.modify.own",
    "org.freedesktop.NetworkManager.settings.modify.system",
    "org.freedesktop.timedate1.set-ntp",
    "org.freedesktop.timedate1.set-time",
    "org.freedesktop.timedate1.set-timezone"]

def isAllowedAction (action : Action) : Bool := allowedActionIds.contains action.id

def actionsRule : Rule Query PolkitResult := fun q =>
  if isApiServiceUser q.subject && isAllowedAction q.action then some .yes else none

def actionsFile : File Query PolkitResult :=
  { name := "10-rpi-nest-api", rules := [actionsRule] }

/-! ## What the files grant -/

def Subject.IsService (subject : Subject) : Prop :=
  subject.user = apiUnixUser ∧ subject.isInGroup apiUnixGroup = true

/-- The service user runs one of the programs with `pkexec`. -/
structure RunsProgram (q : Query) : Prop where
  service : q.subject.IsService
  id : q.action.id = pkexecActionId
  program : ∃ program ∈ allowedPkexecPaths, q.action.lookup "program" = some program

/-- The service user performs one of the actions. -/
structure PerformsAction (q : Query) : Prop where
  service : q.subject.IsService
  id : q.action.id ∈ allowedActionIds

theorem isApiServiceUser_iff {subject : Subject} :
    isApiServiceUser subject = true ↔ subject.IsService := by
  simp [isApiServiceUser, Subject.IsService]

theorem isAllowedToExecuteProgram_iff {action : Action} :
    isAllowedToExecuteProgram action = true ↔
      ∃ program ∈ allowedPkexecPaths, action.lookup "program" = some program := by
  rw [isAllowedToExecuteProgram]
  cases action.lookup "program" with
  | none => simp
  | some program => simp

theorem pkexecFile_grants : pkexecFile.Grants .yes RunsProgram where
  granted q hq := by
    have hservice := isApiServiceUser_iff.mpr hq.service
    have hprogram := isAllowedToExecuteProgram_iff.mpr hq.program
    simp [decision, pkexecFile, pkexecRule, hq.id, hservice, hprogram]
  passed q hq := by
    simp only [decision, pkexecFile, List.findSome?_cons, List.findSome?_nil, pkexecRule]
    split
    · rename_i h
      exfalso
      split at h
      · rename_i hid
        split at h
        · rename_i hboth
          rw [Bool.and_eq_true, isApiServiceUser_iff, isAllowedToExecuteProgram_iff] at hboth
          exact hq ⟨hboth.1, hid, hboth.2⟩
        · cases h
      · cases h
    · rfl

theorem actionsFile_grants : actionsFile.Grants .yes PerformsAction where
  granted q hq := by
    have hservice := isApiServiceUser_iff.mpr hq.service
    have hid : isAllowedAction q.action = true := List.contains_iff_mem.mpr hq.id
    simp [decision, actionsFile, actionsRule, hservice, hid]
  passed q hq := by
    simp only [decision, actionsFile, List.findSome?_cons, List.findSome?_nil, actionsRule]
    split
    · rename_i h
      exfalso
      split at h
      · rename_i hboth
        rw [Bool.and_eq_true, isApiServiceUser_iff] at hboth
        exact hq ⟨hboth.1, List.contains_iff_mem.mp hboth.2⟩
      · cases h
    · rfl

/-- No query is for both files. -/
theorem RunsProgram.not_performsAction {q : Query} (h : RunsProgram q) : ¬ PerformsAction q := by
  intro h'
  have hid := h'.id
  rw [h.id] at hid
  exact absurd hid (by decide)

/-! ## Installations -/

/-- The files of the repository. -/
def repositoryFiles : List (File Query PolkitResult) := [pkexecFile, actionsFile]

/-- The files of others. -/
def others (directory : List (File Query PolkitResult)) : List (File Query PolkitResult) :=
  without repositoryFiles directory

/-- What the files of the repository change in a directory of rules. -/
structure RulesEffect (directory : List (File Query PolkitResult)) : Prop where
  /-- The service user may run the programs unless a file loaded before answers. -/
  pkexec : ∀ q, RunsProgram q → decision (load directory) q =
    some ((decision (load (others (before pkexecFile.name directory))) q).getD .yes)
  /-- The service user may perform the actions unless a file loaded before answers. -/
  actions : ∀ q, PerformsAction q → decision (load directory) q =
    some ((decision (load (others (before actionsFile.name directory))) q).getD .yes)
  /-- Everything else is decided as without the files. -/
  unaffected : ∀ q, ¬ RunsProgram q → ¬ PerformsAction q →
    decision (load directory) q = decision (load (others directory)) q

theorem ne_of_mem_before {name : String} {directory : List (File Query PolkitResult)}
    {file : File Query PolkitResult} (h : file ∈ before name directory) : file.name ≠ name := by
  simpa using List.mem_takeWhile_imp h

/-- A file that grants what the other one passes on. -/
theorem decision_of_granted {directory : List (File Query PolkitResult)}
    {file : File Query PolkitResult} {S : Query → Prop}
    (hinstalled : ∀ file ∈ repositoryFiles, Installed directory file)
    (hfile : file ∈ repositoryFiles) (hgrants : file.Grants .yes S) {q : Query} (hq : S q)
    (hpassed : ∀ file' ∈ repositoryFiles, file'.name ≠ file.name →
      decision file'.rules q = none) :
    decision (load directory) q =
      some ((decision (load (others (before file.name directory))) q).getD .yes) := by
  have hpart : ∀ file' ∈ before file.name directory, file' ∈ directory := fun file' hmem =>
    List.takeWhile_subset _ hmem
  rw [(hinstalled file hfile).decision_of_granted hgrants hq, others,
    decision_without hpart hinstalled fun file' hmem' hpresent => ?_]
  obtain ⟨file'', hmem'', hname⟩ := hpresent
  exact hpassed file' hmem' fun hsame => ne_of_mem_before hmem'' (hname.trans hsame)

theorem decision_pkexec {directory : List (File Query PolkitResult)}
    (h : ∀ file ∈ repositoryFiles, Installed directory file) {q : Query} (hq : RunsProgram q) :
    decision (load directory) q =
      some ((decision (load (others (before pkexecFile.name directory))) q).getD .yes) := by
  refine decision_of_granted h (by simp [repositoryFiles]) pkexecFile_grants hq ?_
  intro file hmem hname
  simp only [repositoryFiles, List.mem_cons, List.not_mem_nil, or_false] at hmem
  rcases hmem with rfl | rfl
  · exact absurd rfl hname
  · exact actionsFile_grants.passed q hq.not_performsAction

theorem decision_actions {directory : List (File Query PolkitResult)}
    (h : ∀ file ∈ repositoryFiles, Installed directory file) {q : Query}
    (hq : PerformsAction q) : decision (load directory) q =
      some ((decision (load (others (before actionsFile.name directory))) q).getD .yes) := by
  refine decision_of_granted h (by simp [repositoryFiles]) actionsFile_grants hq ?_
  intro file hmem hname
  simp only [repositoryFiles, List.mem_cons, List.not_mem_nil, or_false] at hmem
  rcases hmem with rfl | rfl
  · exact pkexecFile_grants.passed q fun hq' => hq'.not_performsAction hq
  · exact absurd rfl hname

theorem decision_unaffected {directory : List (File Query PolkitResult)}
    (h : ∀ file ∈ repositoryFiles, Installed directory file) {q : Query}
    (hpkexec : ¬ RunsProgram q) (hactions : ¬ PerformsAction q) :
    decision (load directory) q = decision (load (others directory)) q := by
  refine (decision_without (fun _ hmem => hmem) h fun file hmem _ => ?_).symm
  simp only [repositoryFiles, List.mem_cons, List.not_mem_nil, or_false] at hmem
  rcases hmem with rfl | rfl
  · exact pkexecFile_grants.passed q hpkexec
  · exact actionsFile_grants.passed q hactions

/-- Whatever other files are installed, and in whatever order they are loaded. -/
theorem rules_effect {directory : List (File Query PolkitResult)}
    (h : ∀ file ∈ repositoryFiles, Installed directory file) : RulesEffect directory where
  pkexec _ hq := decision_pkexec h hq
  actions _ hq := decision_actions h hq
  unaffected _ hpkexec hactions := decision_unaffected h hpkexec hactions

/-- A rule of the administrator that keeps the service from a reboot. -/
def noReboot : File Query PolkitResult :=
  { name := "05-no-reboot",
    rules := [fun q => if q.action.id = "org.freedesktop.login1.reboot" then some .no else none] }

theorem rules_effect_noReboot : RulesEffect [pkexecFile, noReboot, actionsFile] := by
  refine rules_effect fun file hmem => ?_
  simp only [repositoryFiles, List.mem_cons, List.not_mem_nil, or_false] at hmem
  rcases hmem with rfl | rfl
  · exact { present := ⟨pkexecFile, by simp, rfl⟩,
            same := by simp [pkexecFile, noReboot, actionsFile] }
  · exact { present := ⟨actionsFile, by simp, rfl⟩,
            same := by simp [pkexecFile, noReboot, actionsFile] }

end RpiNestApi.Polkit
