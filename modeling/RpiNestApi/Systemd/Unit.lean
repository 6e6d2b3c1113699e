/-
A systemd unit, as a client of its D-Bus interface sees it.

`StartUnit` only queues a start job.  The run that the job asks for begins later,
and the unit passes through its running states, in order, until the run has
ended.  Jobs and runs are marked with the client that asked for them.
-/

namespace Systemd

inductive ActiveState where
  | inactive
  | failed
  | activating
  | active
  | deactivating
  deriving DecidableEq, Repr

namespace ActiveState

/-- The property `ActiveState`. -/
def name : ActiveState → String
  | .inactive => "inactive"
  | .failed => "failed"
  | .activating => "activating"
  | .active => "active"
  | .deactivating => "deactivating"

/-- A run is going on. -/
def runs : ActiveState → Bool
  | .inactive => false
  | .failed => false
  | _ => true

/-- The states a run may be in, or may end in, after this one. -/
def allows : ActiveState → ActiveState → Bool
  | .activating, _ => true
  | .active, s => s != .activating
  | .deactivating, s => s != .activating && s != .active
  | .inactive, _ => false
  | .failed, _ => false

theorem runs_of_allows {s s' : ActiveState} (h : s.allows s' = true) : s.runs = true := by
  cases s with
  | inactive => cases h
  | failed => cases h
  | _ => rfl

end ActiveState

/-- `job` is a queued start job and `startedBy` the client whose job began the
present run, or else the latest. -/
structure Unit (ρ : Type) where
  activeState : ActiveState
  subState : String
  job : Option ρ
  startedBy : Option ρ

namespace Unit

variable {ρ : Type}

/-- A run is queued or going on. -/
def busy (u : Unit ρ) : Bool := u.job.isSome || u.activeState.runs

/-- `StartUnit`.  A unit that is starting or started is left alone, and one that is
being stopped is started once it has stopped. -/
def start (u : Unit ρ) (client : ρ) : Unit ρ :=
  if u.job.isSome || u.activeState = .activating || u.activeState = .active then u
  else { u with job := some client }

/-- The queued run begins. -/
def beginRun (u : Unit ρ) (activeState : ActiveState) (subState : String) : Option (Unit ρ) :=
  if u.activeState.runs then none
  else if activeState.runs then
    u.job.map fun client => { activeState, subState, job := none, startedBy := some client }
  else none

/-- The run goes on, or ends. -/
def goOn (u : Unit ρ) (activeState : ActiveState) (subState : String) : Option (Unit ρ) :=
  if u.activeState.allows activeState then some { u with activeState, subState } else none

/-- A run that the client asked for is going on. -/
def RunsFor (u : Unit ρ) (client : ρ) : Prop :=
  u.activeState.runs = true ∧ u.startedBy = some client

/-- A run that the client asked for is queued or going on. -/
def BusyFor (u : Unit ρ) (client : ρ) : Prop := u.job = some client ∨ u.RunsFor client

variable {u u' : Unit ρ} {client client' : ρ}

theorem BusyFor.busy (h : u.BusyFor client) : u.busy = true := by
  rcases h with hjob | ⟨hruns, _⟩
  · simp [Unit.busy, hjob]
  · simp [Unit.busy, hruns]

theorem BusyFor.of_start (h : (u.start client).BusyFor client') :
    u.BusyFor client' ∨ client' = client := by
  rw [start] at h
  split at h
  · exact .inl h
  · rcases h with hjob | hruns
    · exact .inr (Option.some.inj hjob).symm
    · exact .inl (.inr hruns)

theorem BusyFor.of_beginRun {activeState : ActiveState} {subState : String}
    (hbegin : u.beginRun activeState subState = some u') (h : u'.BusyFor client) :
    u.BusyFor client := by
  rw [beginRun] at hbegin
  split at hbegin
  · cases hbegin
  · split at hbegin
    · obtain ⟨client', hjob, rfl⟩ := Option.map_eq_some_iff.mp hbegin
      rcases h with hnone | ⟨_, hstarted⟩
      · cases hnone
      · exact .inl (hjob.trans hstarted)
    · cases hbegin

theorem BusyFor.of_goOn {activeState : ActiveState} {subState : String}
    (hgoOn : u.goOn activeState subState = some u') (h : u'.BusyFor client) :
    u.BusyFor client := by
  rw [goOn] at hgoOn
  split at hgoOn
  · rename_i hallows
    cases hgoOn
    exact h.imp id fun hruns => ⟨ActiveState.runs_of_allows hallows, hruns.2⟩
  · cases hgoOn

end Unit

end Systemd
