import RpiNestApi.Unicode.Utf8

/-
The child processes behind `ChildProcessService`.

Node reports what a child process does in events, and the handlers of `spawn` and
`spawnStreamable` settle a promise.  Of the calls of `resolve` and `reject` the first
one counts.
-/

namespace RpiNestApi.ChildProcess

open Utf8

/-- A chunk of an output is a `Buffer`.  The exit code is `null` where a signal has
ended the process. -/
inductive Event where
  | stdoutData (data : List UInt8)
  | stderrData (data : List UInt8)
  | readable
  | error (message : List Char)
  | close (exitCode : Option Int)

/-- What a promise is rejected with: a string, an `Error` that is made of a message,
or the one that Node has emitted. -/
inductive Reason where
  | text (text : List Char)
  | error (message : List Char)
  | emitted (message : List Char)
  deriving DecidableEq

/-- The calls of `resolve` and `reject`, in their order. -/
abbrev Calls (α : Type) := List (Except Reason α)

/-- What the promise settles with. -/
def Calls.promise {α : Type} (calls : Calls α) : Option (Except Reason α) := calls.head?

/-- The child process has no pipes for its outputs. -/
def noPipes : Reason := .error "Failed to get stdout/stderr of child process.".toList

/-! ## spawn -/

structure Spawn where
  stdout : List Char
  stderr : List Char
  calls : Calls (List Char)

namespace Spawn

def init : Spawn := { stdout := [], stderr := [], calls := [] }

/-- The handlers.  A chunk that is added to a string is decoded. -/
def handle (s : Spawn) : Event → Spawn
  | .stdoutData data => { s with stdout := s.stdout ++ decode data }
  | .stderrData data => { s with stderr := s.stderr ++ decode data }
  | .close exitCode =>
    if exitCode ≠ some 0 then { s with calls := s.calls ++ [.error (.text s.stderr)] }
    else { s with calls := s.calls ++ [.ok s.stdout] }
  | .error message => { s with calls := s.calls ++ [.error (.emitted message)] }
  | .readable => s

end Spawn

/-- `spawn`, with or without pipes to the child process. -/
def spawn (piped : Bool) (events : List Event) : Calls (List Char) :=
  if piped then (events.foldl Spawn.handle .init).calls else [.error noPipes]

/-! ## spawnStreamable -/

/-- `listens`: the handler of the first `readable` is still registered. -/
structure SpawnStreamable where
  stderr : List Char
  listens : Bool
  calls : Calls Unit

namespace SpawnStreamable

def init : SpawnStreamable := { stderr := [], listens := true, calls := [] }

/-- The promise is resolved with the stream of `stdout`. -/
def handle (s : SpawnStreamable) : Event → SpawnStreamable
  | .stdoutData _ => s
  | .stderrData data => { s with stderr := s.stderr ++ decode data }
  | .close exitCode =>
    if exitCode ≠ some 0 then { s with calls := s.calls ++ [.error (.error s.stderr)] } else s
  | .error message => { s with calls := s.calls ++ [.error (.emitted message)] }
  | .readable =>
    if s.listens then { s with listens := false, calls := s.calls ++ [.ok ()] } else s

end SpawnStreamable

def spawnStreamable (piped : Bool) (events : List Event) : Calls Unit :=
  if piped then (events.foldl SpawnStreamable.handle .init).calls else [.error noPipes]

/-! ## Outputs -/

/-- The chunks of `stdout`. -/
def stdoutChunks (events : List Event) : List (List UInt8) :=
  events.filterMap fun
    | .stdoutData data => some data
    | _ => none

def stderrChunks (events : List Event) : List (List UInt8) :=
  events.filterMap fun
    | .stderrData data => some data
    | _ => none

/-- The chunks of the output that is reported. -/
def reportedChunks (exitCode : Option Int) (events : List Event) : List (List UInt8) :=
  if exitCode = some 0 then stdoutChunks events else stderrChunks events

/-- What the process has written, whatever the chunks. -/
def wholeOutput (exitCode : Option Int) (events : List Event) : Except Reason (List Char) :=
  if exitCode = some 0 then .ok (decode (stdoutChunks events).flatten)
  else .error (.text (decode (stderrChunks events).flatten))

def Event.isData : Event → Bool
  | .stdoutData _ => true
  | .stderrData _ => true
  | _ => false

/-- The handlers of an output have decoded its chunks one by one. -/
theorem spawn_handle_data {events : List Event} (h : ∀ e ∈ events, e.isData = true) (s : Spawn) :
    events.foldl Spawn.handle s =
      { stdout := s.stdout ++ ((stdoutChunks events).map decode).flatten
        stderr := s.stderr ++ ((stderrChunks events).map decode).flatten
        calls := s.calls } := by
  induction events generalizing s with
  | nil => simp [stdoutChunks, stderrChunks]
  | cons e events ih =>
      rw [List.forall_mem_cons] at h
      rw [List.foldl_cons, ih h.2]
      cases e with
      | stdoutData data => simp [Spawn.handle, stdoutChunks, stderrChunks]
      | stderrData data => simp [Spawn.handle, stdoutChunks, stderrChunks]
      | _ => cases h.1

/-- A process that closes after its outputs settles the promise once. -/
theorem spawn_close {events : List Event} (h : ∀ e ∈ events, e.isData = true)
    (exitCode : Option Int) :
    spawn true (events ++ [.close exitCode]) =
      [if exitCode = some 0 then .ok ((stdoutChunks events).map decode).flatten
        else .error (.text ((stderrChunks events).map decode).flatten)] := by
  rw [spawn, if_pos rfl, List.foldl_append, spawn_handle_data h]
  by_cases hcode : exitCode = some 0
  · simp [Spawn.handle, Spawn.init, hcode]
  · simp [Spawn.handle, Spawn.init, hcode]

/-- The promise settles once, and with the whole of the reported output if and only if no
chunk of it ends inside a character that the next one goes on with. -/
theorem spawn_whole {events : List Event} (h : ∀ e ∈ events, e.isData = true)
    (exitCode : Option Int) :
    spawn true (events ++ [.close exitCode]) = [wholeOutput exitCode events] ↔
      CleanCuts (reportedChunks exitCode events) := by
  rw [spawn_close h, List.singleton_inj, wholeOutput, reportedChunks, ← decode_flatten_iff]
  by_cases hcode : exitCode = some 0
  · simp only [if_pos hcode, Except.ok.injEq]
    exact eq_comm
  · simp only [if_neg hcode, Except.error.injEq, Reason.text.injEq]
    exact eq_comm

/-- A character, and a line feed in a chunk of its own. -/
theorem spawn_whole_line :
    spawn true ([.stdoutData [0xc3, 0xa9], .stderrData [0x21], .stdoutData [0x0a]] ++
      [.close (some 0)]) =
      [wholeOutput (some 0)
        [.stdoutData [0xc3, 0xa9], .stderrData [0x21], .stdoutData [0x0a]]] :=
  (spawn_whole (by decide) (some 0)).mpr (decode_flatten_iff.mp (by decide))

/-- A character that is cut in two. -/
def cutCharacter : List Event := [.stdoutData [0xc3], .stdoutData [0xa9]]

theorem spawn_replaces : spawn true (cutCharacter ++ [.close (some 0)]) =
      [.ok [replacement, replacement]] ∧
    wholeOutput (some 0) cutCharacter = .ok ['é'] := by
  decide

/-! ## Failures of streamed commands -/

/-- The events of a child process up to its end.  It closes only after its outputs have
ended, and the end of `stdout` is readable. -/
structure Complete (events : List Event) : Prop where
  readable : ∀ before exitCode after, events = before ++ .close exitCode :: after →
    .readable ∈ before
  ends : (∃ exitCode, .close exitCode ∈ events) ∨ ∃ message, .error message ∈ events

/-- The process ends with an exit code that is not zero, and has written nothing to
`stdout`. -/
def FailsSilently (events : List Event) : Prop :=
  (∃ exitCode, exitCode ≠ 0 ∧ .close (some exitCode) ∈ events) ∧
    (stdoutChunks events).flatten = []

/-- The promise settles, and where the process fails silently it is rejected with the text
of `stderr`. -/
structure FailureReported (events : List Event) : Prop where
  settles : (spawnStreamable true events).promise.isSome = true
  rejected : FailsSilently events → (spawnStreamable true events).promise =
    some (.error (.error (decode (stderrChunks events).flatten)))

section

variable {events : List Event} {s : SpawnStreamable}

theorem handle_calls (s : SpawnStreamable) (e : Event) :
    ∃ calls, (s.handle e).calls = s.calls ++ calls := by
  cases e with
  | stdoutData data => exact ⟨[], (List.append_nil _).symm⟩
  | stderrData data => exact ⟨[], (List.append_nil _).symm⟩
  | error message => exact ⟨_, rfl⟩
  | readable =>
      cases h : s.listens with
      | true => exact ⟨[.ok ()], by simp [SpawnStreamable.handle, h]⟩
      | false => exact ⟨[], by simp [SpawnStreamable.handle, h]⟩
  | close exitCode =>
      by_cases h : exitCode = some 0
      · exact ⟨[], by simp [SpawnStreamable.handle, h]⟩
      · exact ⟨[.error (.error s.stderr)], by simp [SpawnStreamable.handle, h]⟩

/-- What has settled the promise is not changed by what follows. -/
theorem promise_of_settled {r : Except Reason Unit} (h : s.calls.promise = some r) :
    (events.foldl SpawnStreamable.handle s).calls.promise = some r := by
  induction events generalizing s with
  | nil => exact h
  | cons e events ih =>
      obtain ⟨calls, hcalls⟩ := handle_calls s e
      obtain ⟨rest, hrest⟩ : ∃ rest, s.calls = r :: rest := List.head?_eq_some_iff.mp h
      exact ih (by rw [hcalls, hrest]; rfl)

/-- The first `readable` or `error` settles the promise. -/
theorem promise_cases (h : ∀ before exitCode after,
      events = before ++ .close exitCode :: after → .readable ∈ before)
    (hlistens : s.listens = true) (hcalls : s.calls = []) :
    (events.foldl SpawnStreamable.handle s).calls.promise = some (.ok ()) ∨
      (∃ message, (events.foldl SpawnStreamable.handle s).calls.promise =
        some (.error (.emitted message))) ∨
      (∀ exitCode, .close exitCode ∉ events) ∧ ∀ message, .error message ∉ events := by
  induction events generalizing s with
  | nil => exact .inr (.inr ⟨fun _ h => (by cases h), fun _ h => (by cases h)⟩)
  | cons e events ih =>
      have htail : e ≠ .readable → ∀ before exitCode after,
          events = before ++ .close exitCode :: after → .readable ∈ before := by
        intro he before exitCode after hsplit
        have hmem := h (e :: before) exitCode after (by rw [hsplit, List.cons_append])
        exact (List.mem_cons.mp hmem).resolve_left he.symm
      cases e with
      | readable =>
          rw [List.foldl_cons]
          exact .inl (promise_of_settled
            (by simp [SpawnStreamable.handle, hlistens, hcalls, Calls.promise]))
      | error message =>
          rw [List.foldl_cons]
          exact .inr (.inl ⟨message, promise_of_settled
            (by simp [SpawnStreamable.handle, hcalls, Calls.promise])⟩)
      | close exitCode => cases h [] exitCode events rfl
      | stdoutData data =>
          refine (ih (htail (by simp)) (s := s) hlistens hcalls).imp id (Or.imp id ?_)
          simp
      | stderrData data =>
          refine (ih (htail (by simp)) (s := { s with stderr := s.stderr ++ decode data })
            hlistens hcalls).imp id (Or.imp id ?_)
          simp

end

/-- A promise that has not settled with the text of `stderr` reports no silent failure. -/
theorem failureReported_iff {events : List Event} {r : Except Reason Unit}
    (hpromise : (spawnStreamable true events).promise = some r)
    (hr : ∀ text, r ≠ .error (.error text)) :
    FailureReported events ↔ ¬ FailsSilently events := by
  constructor
  · intro hreported hsilent
    exact hr _ (Option.some.inj (hpromise.symm.trans (hreported.rejected hsilent)))
  · intro hnot
    exact ⟨by rw [hpromise]; rfl, fun hsilent => absurd hsilent hnot⟩

/-- A failure is reported unless the process fails silently. -/
theorem failure_reported {events : List Event} (h : Complete events) :
    FailureReported events ↔ ¬ FailsSilently events := by
  have hpromise : (spawnStreamable true events).promise =
      (events.foldl SpawnStreamable.handle .init).calls.promise := rfl
  rcases promise_cases h.readable (s := .init) rfl rfl with
    hok | ⟨message, hemitted⟩ | ⟨hclose, herror⟩
  · exact failureReported_iff (hpromise.trans hok) (by simp)
  · exact failureReported_iff (hpromise.trans hemitted) (by simp)
  · rcases h.ends with ⟨exitCode, hmem⟩ | ⟨message, hmem⟩
    · exact absurd hmem (hclose exitCode)
    · exact absurd hmem (herror message)

/-- Events that end when the process closes. -/
theorem complete_concat {events : List Event} (hreadable : .readable ∈ events)
    (hclose : ∀ exitCode, .close exitCode ∉ events) (exitCode : Option Int) :
    Complete (events ++ [.close exitCode]) where
  readable before exitCode' after hsplit := by
    rcases List.append_eq_append_iff.mp hsplit with ⟨rest, rfl, _⟩ | ⟨rest, rfl, hrest⟩
    · exact List.mem_append_left _ hreadable
    · cases rest with
      | nil => simpa using hreadable
      | cons e rest =>
          cases hrest
          exact absurd (by simp) (hclose exitCode')
  ends := .inl ⟨exitCode, by simp⟩

/-- A process that fails after it has written something. -/
theorem failure_reported_output : FailureReported
    ([.stdoutData [0x61], .readable, .readable] ++ [.close (some 1)]) :=
  (failure_reported (complete_concat (by simp) (by simp) _)).mpr fun h => by
    simpa [stdoutChunks] using h.2

/-- `journalctl` writes an error, and nothing to `stdout`. -/
def failingJournalctl : List Event :=
  [.stderrData (encode "Failed to add filter for units".toList), .readable] ++ [.close (some 1)]

theorem failure_lost : Complete failingJournalctl ∧ ¬ FailureReported failingJournalctl := by
  refine ⟨complete_concat (by simp) (by simp) _, fun h => ?_⟩
  have hrejected := h.rejected ⟨⟨1, by decide, by simp [failingJournalctl]⟩, rfl⟩
  cases hrejected

end RpiNestApi.ChildProcess
