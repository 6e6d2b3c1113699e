import RpiNestApi.Async.Simulation
import RpiNestApi.Device.Metadata

/-
The metadata of the device is a register.

An update reads the metadata and writes it back in a later step.  An instance of the DTO has
all three fields, so that nothing of what was read is left in them, and an update that runs
between the two steps is not lost halfway but is overwritten as a whole.
-/

namespace RpiNestApi.Device

open Async
open Settings (Obj)

/-! ## The services -/

def DeviceService.getMetaData : Settings.Service Obj := Settings.SettingsRepository.get "metadata"

inductive Request where
  | setMetaData (metaData : Obj)
  | getMetaData

/-- Only `getMetaData` has an answer. -/
def requests :
    System Settings.World Settings.Await Settings.Await.Answer Exception (Option Obj) Request Unit
      Empty where
  body
    | .setMetaData metaData => do
      DeviceService.setMetaData metaData
      return none
    | .getMetaData => do
      let metaData ← DeviceService.getMetaData
      return some metaData
  accept _ w := some w
  answer := Settings.answer
  env e _ := e.elim

/-- The pipe has accepted what is to be set. -/
def Accepted (length : String → Nat) (metaData : Obj) : Prop :=
  ∃ body, DeviceMetadataDto.accepts length body = true ∧ metaData = DeviceMetadataDto.ofBody body

/-- Requests come from the pipe. -/
def FromPipe (length : String → Nat)
    (_ : Config Settings.World Settings.Await Exception (Option Obj) Request)
    (a : Act Request Unit Empty) : Prop :=
  ∀ i metaData, a = .start i (.setMetaData metaData) → Accepted length metaData

variable {length : String → Nat}

/-! ## The register -/

/-- The values of the three fields. -/
abbrev Fields : Type := { name : String // IsField name } → Value

def fieldsOf (object : Obj) : Fields := fun name => Obj.get name object

namespace Register

/-- A register holds the fields, or nothing if it was never initialised. -/
abbrev Service (α : Type) := Prog (Option Fields) Unit (fun _ => Unit) Exception α

def notInitialized : Exception :=
  .error ("Settings \"" ++ "metadata" ++ "\" not initialized.")

/-- The register is written in one step, and not read for it. -/
def set (fields : Fields) : Service Unit := do
  match ← Prog.read with
  | none => throw notInitialized
  | some _ =>
    Prog.call ()
    Prog.modify fun _ => some fields
    Prog.call ()

def get : Service Fields := do
  match ← Prog.read with
  | none => throw notInitialized
  | some fields =>
    Prog.call ()
    return fields

def requests :
    System (Option Fields) Unit (fun _ => Unit) Exception (Option Fields) Request Unit Empty where
  body
    | .setMetaData metaData => do
      set (fieldsOf metaData)
      return none
    | .getMetaData => do
      let fields ← get
      return some fields
  accept _ w := some w
  answer _ _ w := some (.ok (), w)
  env e _ := e.elim

end Register

/-- A request and its answer, where it has one. -/
def seen {Q ε α C : Type} (t : Thread Q ε α C) : C × Option (Except ε α) :=
  match t.status with
  | .done r => (t.call, some r)
  | .waits _ => (t.call, none)

/-- What the settings had besides the fields is still there. -/
def SameRest (w : Settings.World) (object : Obj) : Prop :=
  ∃ object₀, w "metadata" = some object₀ ∧
    ∀ name, ¬ IsField name → Obj.get name object = Obj.get name object₀

/-- The store has what the register has, and the requests are answered alike. -/
structure IsRegister (w : Settings.World)
    (s : State Settings.World Settings.Await Settings.Await.Answer Exception (Option Obj) Request)
    (t : State (Option Fields) Unit (fun _ => Unit) Exception (Option Fields) Request) : Prop where
  stored : t.world = (s.world "metadata").map fieldsOf
  rest : ∀ object, s.world "metadata" = some object → SameRest w object
  others : ∀ key, key ≠ "metadata" → s.world key = w key
  answers : ∀ i, (t.config.threads i).map seen =
    (s.config.threads i).map fun thread =>
      ((seen thread).1, (seen thread).2.map (Except.map (Option.map fieldsOf)))

/-! ## The simulation -/

section Instance

variable {metaData object : Obj}

theorem isField_of_mem_new {name : String} (h : name ∈ DeviceMetadataDto.new) : IsField name := by
  simp only [DeviceMetadataDto.new, DeviceMetadataDto.fields, List.foldl_cons, List.foldl_nil,
    AList.mem_insert, AList.notMem_empty, or_false] at h
  rcases h with rfl | rfl | rfl <;> simp [IsField, DeviceMetadataDto.fields]

theorem Accepted.isField (h : Accepted length metaData) {name : String} (hname : name ∈ metaData) :
    IsField name := by
  obtain ⟨body, hbody, rfl⟩ := h
  rcases AList.mem_union.mp hname with hname | hname
  · rw [DeviceMetadataDto.accepts, Bool.and_eq_true] at hbody
    obtain ⟨e, he, rfl⟩ := List.mem_map.mp (AList.mem_keys.mpr hname)
    have hwhite := List.all_eq_true.mp hbody.1 _ (List.mem_map_of_mem he)
    exact List.contains_iff_mem.mp hwhite
  · exact isField_of_mem_new hname

theorem Accepted.mem (h : Accepted length metaData) {name : String} (hname : IsField name) :
    name ∈ metaData := by
  obtain ⟨body, _, rfl⟩ := h
  exact AList.mem_union.mpr (.inr (DeviceMetadataDto.mem_new hname))

/-- Nothing is left of the fields that were stored. -/
theorem Accepted.fieldsOf_spread (h : Accepted length metaData) (object : Obj) :
    fieldsOf (object.spread metaData) = fieldsOf metaData :=
  funext fun name => Obj.get_spread_of_mem (h.mem name.2) object

theorem Accepted.sameRest (h : Accepted length metaData) {w : Settings.World}
    (hobject : SameRest w object) : SameRest w (object.spread metaData) := by
  obtain ⟨object₀, hw, hsame⟩ := hobject
  refine ⟨object₀, hw, fun name hname => ?_⟩
  rw [Obj.get_spread_of_notMem fun hmem => hname (h.isField hmem)]
  exact hsame name hname

end Instance

section Simulation

/-- What is left of an update that has read the metadata. -/
def writing (object : Obj) :
    Prog Settings.World Settings.Await Settings.Await.Answer Exception (Option Obj) :=
  (Settings.SettingsRepository.put "metadata" object).bind fun _ => .ret none

def Register.writing (fields : Fields) : Register.Service (Option Fields) :=
  (Prog.modify fun _ => some fields).bind fun _ => (Prog.call ()).bind fun _ => .ret none

/-- Where a request stands, in the store and in the register. -/
inductive InStep (length : String → Nat) (w₀ : Settings.World) : Request →
    Suspended Settings.World Settings.Await Settings.Await.Answer Exception (Option Obj) →
    Suspended (Option Fields) Unit (fun _ => Unit) Exception (Option Fields) → Prop
  | done {c : Request} (r : Except Exception (Option Obj)) :
      InStep length w₀ c (.done r) (.done (r.map (Option.map fieldsOf)))
  | writes {metaData value : Obj} {q k k'} (hdata : Accepted length metaData)
      (hvalue : SameRest w₀ value) (hk : k (.ok ()) = writing (value.spread metaData))
      (hk' : k' (.ok ()) = Register.writing (fieldsOf metaData)) :
      InStep length w₀ (.setMetaData metaData) (.waits q k) (.waits () k')
  | answers {c : Request} {q k k'} (a : Option Obj) (hk : k (.ok ()) = .ret a)
      (hk' : k' (.ok ()) = .ret (a.map fieldsOf)) : InStep length w₀ c (.waits q k) (.waits () k')

/-- The register has the fields that are stored, and the rest is as it was. -/
structure Shown (w₀ w : Settings.World) (register : Option Fields) : Prop where
  stored : register = (w "metadata").map fieldsOf
  rest : ∀ object, w "metadata" = some object → SameRest w₀ object
  others : ∀ key, key ≠ "metadata" → w key = w₀ key

variable {w₀ w : Settings.World} {register : Option Fields}

theorem Shown.init (w : Settings.World) : Shown w w ((w "metadata").map fieldsOf) where
  stored := rfl
  rest object hobject := ⟨object, hobject, fun _ _ => rfl⟩
  others _ _ := rfl

theorem Shown.write (h : Shown w₀ w register) {object : Obj} (hrest : SameRest w₀ object) :
    Shown w₀ (Function.update w "metadata" (some object)) (some (fieldsOf object)) where
  stored := by rw [Function.update_self, Option.map_some]
  rest object' hobject := by
    rw [Function.update_self] at hobject
    rw [← Option.some.inj hobject]
    exact hrest
  others key hkey := (Function.update_of_ne hkey ..).trans (h.others key hkey)

section Get

variable {β : Type} {key : String}
variable {g : Obj → Prog Settings.World Settings.Await Settings.Await.Answer Exception β}

theorem advance_get_of_none (h : w key = none) :
    ((Settings.SettingsRepository.get key).bind g).advance w =
      (.done (.error (.error ("Settings \"" ++ key ++ "\" not initialized."))), w) := by
  simp only [Settings.SettingsRepository.get, Prog.read, Prog.bind_def, Prog.sync_bind,
    Prog.ret_bind, Prog.advance, id, h]
  rfl

theorem advance_get_of_some {value : Obj} (h : w key = some value) :
    ∃ k, ((Settings.SettingsRepository.get key).bind g).advance w = (.waits (.get value) k, w) ∧
      k (.ok ()) = g value := by
  simp only [Settings.SettingsRepository.get, Prog.read, Prog.bind_def, Prog.sync_bind,
    Prog.ret_bind, Prog.advance, id, h]
  exact ⟨_, rfl, rfl⟩

end Get

theorem body_setMetaData (metaData : Obj) : requests.body (.setMetaData metaData) =
    (Settings.SettingsRepository.get "metadata").bind fun value =>
      writing (value.spread metaData) :=
  Prog.bind_assoc ..

theorem body_getMetaData : requests.body .getMetaData =
    (Settings.SettingsRepository.get "metadata").bind fun value => .ret (some value) := rfl

/-- The first step of a request. -/
theorem start_inStep {c : Request}
    (hc : ∀ metaData, c = .setMetaData metaData → Accepted length metaData)
    (h : Shown w₀ w register) :
    Shown w₀ ((requests.body c).advance w).2 ((Register.requests.body c).advance register).2 ∧
      InStep length w₀ c ((requests.body c).advance w).1
        ((Register.requests.body c).advance register).1 := by
  have hstored := h.stored
  cases hw : w "metadata" with
  | none =>
      rw [hw] at hstored
      subst hstored
      cases c with
      | setMetaData metaData =>
          rw [body_setMetaData, advance_get_of_none hw]
          exact ⟨h, .done _⟩
      | getMetaData =>
          rw [body_getMetaData, advance_get_of_none hw]
          exact ⟨h, .done _⟩
  | some object =>
      rw [hw] at hstored
      subst hstored
      cases c with
      | setMetaData metaData =>
          obtain ⟨k, hrun, hk⟩ := advance_get_of_some hw
            (g := fun value => writing (value.spread metaData))
          rw [body_setMetaData, hrun]
          exact ⟨h, .writes (hc _ rfl) (h.rest object hw) hk rfl⟩
      | getMetaData =>
          obtain ⟨k, hrun, hk⟩ := advance_get_of_some hw
            (g := fun value => (.ret (some value) : Prog _ _ _ Exception (Option Obj)))
          rw [body_getMetaData, hrun]
          exact ⟨h, .answers (some object) hk rfl⟩

/-- Each later step. -/
theorem resume_inStep {c : Request} {q : Settings.Await} {k} {p}
    (h : InStep length w₀ c (.waits q k) p) (hw : Shown w₀ w register) :
    ∃ k', p = .waits () k' ∧
      Shown w₀ ((k (.ok ())).advance w).2 ((k' (.ok ())).advance register).2 ∧
        InStep length w₀ c ((k (.ok ())).advance w).1 ((k' (.ok ())).advance register).1 := by
  cases h with
  | @writes metaData value _ _ k' hdata hvalue hk hk' =>
      refine ⟨k', rfl, ?_⟩
      have hfields : some (fieldsOf metaData) = some (fieldsOf (value.spread metaData)) := by
        rw [hdata.fieldsOf_spread]
      rw [hk, hk']
      refine ⟨?_, .answers none rfl rfl⟩
      show Shown w₀ (Function.update w "metadata" (some (value.spread metaData)))
        (some (fieldsOf metaData))
      rw [hfields]
      exact hw.write (hdata.sameRest hvalue)
  | @answers _ _ _ k' a hk hk' =>
      refine ⟨k', rfl, ?_⟩
      rw [hk, hk']
      exact ⟨hw, .done (.ok a)⟩

theorem requests_simulate (length : String → Nat) (w₀ : Settings.World) :
    Simulates requests Register.requests
      (fun c => ∀ metaData, c = .setMetaData metaData → Accepted length metaData) (Shown w₀)
      (InStep length w₀) where
  start c w w₁ register hc hw hw₁ := by
    cases hw₁
    exact ⟨register, rfl, start_inStep hc hw⟩
  resume c q k p u w register r h hw hr := by
    cases hr
    obtain ⟨k', hp, hstep⟩ := resume_inStep h hw
    exact ⟨(), k', (.ok (), register), hp, rfl, hstep⟩
  env e := e.elim

/-- Related requests look alike. -/
theorem seen_of_related
    {s : State Settings.World Settings.Await Settings.Await.Answer Exception (Option Obj) Request}
    {t : State (Option Fields) Unit (fun _ => Unit) Exception (Option Fields) Request}
    (h : Related (Shown w₀) (InStep length w₀) s t) (i : Nat) :
    (t.config.threads i).map seen = (s.config.threads i).map fun thread =>
      ((seen thread).1, (seen thread).2.map (Except.map (Option.map fieldsOf))) := by
  have htask := h.tasks i
  simp only [State.config]
  generalize s.tasks i = o at htask
  generalize t.tasks i = o' at htask
  cases htask with
  | none => rfl
  | some hstep => cases hstep <;> rfl

end Simulation

/-- Whatever requests run, and in whatever order their steps come, they are answered as by a
register. -/
theorem metadata_register {w : Settings.World} {as : List (Act Request Unit Empty)} {s}
    (hrun : requests.Run (FromPipe length) (.init w) as s) :
    ∃ t, Register.requests.Run always (.init ((w "metadata").map fieldsOf)) as t ∧
      IsRegister w s t := by
  obtain ⟨t, ht, hrelated⟩ := (requests_simulate length w).run
    (fun _ i c ha metaData hc => ha i metaData (hc ▸ rfl)) hrun (.init (.init w))
  exact ⟨t, ht, {
    stored := hrelated.world.stored
    rest := hrelated.world.rest
    others := hrelated.world.others
    answers := seen_of_related hrelated }⟩

/-- Two updates and a read, each of which begins while another one is under way. -/
def overlapping : List (Act Request Unit Empty) :=
  [.start 0 (.setMetaData (DeviceMetadataDto.ofBody nameBody)),
    .start 1 (.setMetaData (DeviceMetadataDto.ofBody locationBody)), .resume 1 (),
    .start 2 .getMetaData, .resume 0 (), .resume 2 (), .resume 1 (), .resume 0 ()]

theorem overlapping_fromPipe {g} : ∀ a ∈ overlapping, FromPipe String.length g a := by
  intro a ha i metaData he
  subst he
  simp only [overlapping, List.mem_cons, Act.start.injEq, Request.setMetaData.injEq, reduceCtorEq,
    and_false, or_false, List.not_mem_nil] at ha
  rcases ha with ⟨_, rfl⟩ | ⟨_, rfl⟩
  · exact ⟨nameBody, accepts_nameBody, rfl⟩
  · exact ⟨locationBody, accepts_locationBody, rfl⟩

theorem metadata_register_overlapping : ∃ s t,
    requests.Run (FromPipe String.length) (.init fun _ => some ∅) overlapping s ∧
      Register.requests.Run always (.init (some (fieldsOf ∅))) overlapping t ∧
        IsRegister (fun _ => some ∅) s t := by
  have hrun : requests.Run (FromPipe String.length) (.init fun _ => some ∅) overlapping
      (requests.outcome (.init fun _ => some ∅) overlapping) :=
    System.run_outcome_of rfl fun n hn => overlapping_fromPipe _ (List.getElem_mem hn)
  obtain ⟨t, ht, hregister⟩ := metadata_register hrun
  exact ⟨_, t, hrun, ht, hregister⟩

end RpiNestApi.Device
