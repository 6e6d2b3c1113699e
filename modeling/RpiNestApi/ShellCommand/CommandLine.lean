import RpiNestApi.Shell.Words
import RpiNestApi.ShellCommand.RpiConfig

/-
The command lines of `raspi-config`.

The id and the value of a request are put into the command line as they are.  The
shell passes them on as one word each if and only if they are plain.
-/

namespace RpiNestApi.ShellCommand

open Async Shell

/-- A request whose parameters come from a client. -/
inductive ConfigRequest where
  | enable (id : String) (value : Option String)
  | disable (id : String)
  | status (id : String)

namespace ConfigRequest

def id : ConfigRequest → String
  | .enable id _ => id
  | .disable id => id
  | .status id => id

def value : ConfigRequest → Option String
  | .enable _ value => value
  | _ => none

def command : ConfigRequest → RpiConfigCommand
  | .enable _ _ => .enable
  | .disable _ => .disable
  | .status _ => .status

/-- The processes that the request spawns. -/
def spawns (answer : Spawn → Except Exception String) : ConfigRequest → List Spawn
  | .enable id value => (RpiConfigCommandService.enableConfiguration id value).calls answer
  | .disable id => (RpiConfigCommandService.disableConfiguration id).calls answer
  | .status id => (RpiConfigCommandService.getConfigurationStatus id).calls answer

/-- The id, and the value unless it is empty. -/
def parameters (r : ConfigRequest) : List String := r.id :: r.value.toList.filter (· != "")

/-- The words of the command that is meant. -/
def words (r : ConfigRequest) : List String :=
  ["/usr/bin/pkexec", "--disable-internal-agent", "/usr/bin/raspi-config", r.command.name] ++
    r.parameters

end ConfigRequest

/-- The words that are the same in every request. -/
def fixedWords : List String :=
  ["/usr/bin/pkexec", "--disable-internal-agent", "/usr/bin/raspi-config", "enable", "disable",
    "status"]

/-- The shell takes the word literally. -/
def Literal (d : Dialect) (word : String) : Prop := Plain d word.toList

/-- The line is one simple command with these words. -/
def Parses (d : Dialect) (line : String) (words : List String) : Prop :=
  Shell.words d line.toList = some (words.map String.toList)

theorem parses_intercalate {d : Dialect} {words : List String} (h : words ≠ []) :
    Parses d (" ".intercalate words) words ↔ ∀ word ∈ words, Literal d word := by
  have hne : words.map String.toList ≠ [] := by simpa using h
  have hspace : " ".toList = [' '] := rfl
  rw [Parses, String.toList_intercalate, hspace, words_intercalate hne]
  simp [Literal]

/-- The words of the fixed command are joined with spaces already. -/
theorem spawnAuthorized_line (args : List String) :
    ({ command := "/usr/bin/pkexec --disable-internal-agent " ++ rpiConfigExecutable, args,
       shell := true } : Spawn).line =
      " ".intercalate (["/usr/bin/pkexec", "--disable-internal-agent", rpiConfigExecutable] ++
        args) := by
  have hcommand : "/usr/bin/pkexec --disable-internal-agent /usr/bin/raspi-config" =
      "/usr/bin/pkexec" ++ " " ++ ("--disable-internal-agent" ++ " " ++ "/usr/bin/raspi-config") :=
    by decide
  cases args with
  | nil => simp [Spawn.line, String.intercalate_cons_cons, rpiConfigExecutable]
  | cons arg args =>
      simp only [Spawn.line, rpiConfigExecutable, List.cons_append, List.nil_append,
        String.intercalate_cons_cons]
      rw [show "/usr/bin/pkexec --disable-internal-agent " ++ "/usr/bin/raspi-config" = _ from
        hcommand]
      simp only [String.append_assoc]

theorem executeCommand_calls {command : RpiConfigCommand} {id : String} (hid : id ≠ "")
    (value : Option String) (answer : Spawn → Except Exception String) :
    (RpiConfigCommandService.executeCommand command id value).calls answer =
      [{ command := "/usr/bin/pkexec --disable-internal-agent " ++ rpiConfigExecutable,
         args := [command.name, id] ++ value.toList.filter (· != ""), shell := true }] := by
  simp only [RpiConfigCommandService.executeCommand, if_neg hid,
    ChildProcessService.spawnAuthorized, ChildProcessService.spawn, Prog.bind_def, Prog.pure_def,
    Prog.calls_bind, Prog.calls_call, Prog.eval_call]
  split
  · split <;> rfl
  · rfl

theorem executeCommand_bind_calls {α : Type} {command : RpiConfigCommand} {id : String}
    (hid : id ≠ "") (value : Option String) {k : String → Service α}
    {answer : Spawn → Except Exception String} (hk : ∀ result, (k result).calls answer = []) :
    ((RpiConfigCommandService.executeCommand command id value).bind k).calls answer =
      [{ command := "/usr/bin/pkexec --disable-internal-agent " ++ rpiConfigExecutable,
         args := [command.name, id] ++ value.toList.filter (· != ""), shell := true }] := by
  rw [Prog.calls_bind, executeCommand_calls hid]
  split
  · rw [hk, List.append_nil]
  · rfl

/-- A request with an id spawns one process. -/
theorem ConfigRequest.spawns_eq {r : ConfigRequest} (hid : r.id ≠ "")
    (answer : Spawn → Except Exception String) :
    r.spawns answer =
      [{ command := "/usr/bin/pkexec --disable-internal-agent " ++ rpiConfigExecutable,
         args := r.command.name :: r.parameters, shell := true }] := by
  cases r with
  | enable id value => exact executeCommand_bind_calls hid value fun _ => rfl
  | disable id => exact executeCommand_bind_calls hid none fun _ => rfl
  | status id =>
      refine executeCommand_bind_calls hid none fun result => ?_
      cases RpiConfigCommandService.readStatus result <;> rfl

theorem parses_line {d : Dialect} (r : ConfigRequest) {args : List String}
    (hargs : args = r.command.name :: r.parameters) :
    Parses d ({ command := "/usr/bin/pkexec --disable-internal-agent " ++ rpiConfigExecutable,
                args, shell := true } : Spawn).line r.words ↔ ∀ word ∈ r.words, Literal d word := by
  subst hargs
  rw [spawnAuthorized_line]
  exact parses_intercalate (by simp)

/-- The shell runs the command that is meant if and only if the id and the value
stand for themselves. -/
theorem no_injection {d : Dialect} (hd : ∀ word ∈ fixedWords, Literal d word) {r : ConfigRequest}
    (hid : r.id ≠ "") (answer : Spawn → Except Exception String) :
    ∃ p, r.spawns answer = [p] ∧ p.shell = true ∧
      (Parses d p.line r.words ↔ ∀ s ∈ r.parameters, Literal d s) := by
  refine ⟨_, r.spawns_eq hid answer, rfl, ?_⟩
  have hname : r.command.name ∈ fixedWords := by
    cases r <;> simp [ConfigRequest.command, RpiConfigCommand.name, fixedWords]
  rw [parses_line r rfl]
  constructor
  · intro h s hs
    exact h s (by simp [ConfigRequest.words, hs])
  · intro h word hword
    simp only [ConfigRequest.words, List.mem_append, List.mem_cons, List.not_mem_nil,
      or_false] at hword
    rcases hword with (rfl | rfl | rfl | rfl) | hword
    · exact hd _ (by decide)
    · exact hd _ (by decide)
    · exact hd _ (by decide)
    · exact hd _ hname
    · exact h word hword

/-- Words that are plain and begin with no character of a beginning are literal. -/
theorem literal_of_all {d : Dialect} {words : List String}
    (h : (words.all fun word => word.toList.all d.isPlain &&
      word.toList.head?.map d.leading == some false) = true) :
    ∀ word ∈ words, Literal d word := by
  intro word hword
  have hword' := List.all_eq_true.mp h word hword
  rw [Bool.and_eq_true, List.all_eq_true, beq_iff_eq] at hword'
  exact ⟨hword'.1, Option.map_eq_some_iff.mp hword'.2⟩

theorem literal_fixedWords : ∀ word ∈ fixedWords, Literal .posix word :=
  literal_of_all (by decide +kernel)

theorem no_injection_ssh : ∃ p,
    (ConfigRequest.enable "ssh" (some "1")).spawns (fun _ => .ok "") = [p] ∧ p.shell = true ∧
      (Parses .posix p.line (ConfigRequest.enable "ssh" (some "1")).words ↔
        ∀ s ∈ (ConfigRequest.enable "ssh" (some "1")).parameters, Literal .posix s) :=
  no_injection literal_fixedWords (by decide) fun _ => .ok ""

/-- An id can end the command and begin another. -/
theorem injection : ¬ ∀ (r : ConfigRequest) (answer : Spawn → Except Exception String),
    r.id ≠ "" → ∀ p ∈ r.spawns answer, Parses .posix p.line r.words := by
  intro h
  let r : ConfigRequest := .disable "ssh;reboot"
  have hid : r.id ≠ "" := by decide
  have hparses := h r (fun _ => .ok "") hid _ (by
    rw [r.spawns_eq hid]
    exact List.mem_singleton_self _)
  have hliteral := (parses_line r rfl).mp hparses "ssh;reboot" (by decide)
  have hsemicolon := hliteral.chars ';' (by decide)
  cases hsemicolon

end RpiNestApi.ShellCommand
