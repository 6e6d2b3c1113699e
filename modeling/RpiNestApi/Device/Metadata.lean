import RpiNestApi.Datastore.Settings
import RpiNestApi.Validation

/-
The metadata of the device.

A body may name any of the three fields.  The DTO it is turned into has all three
as properties of its own, so that the fields which a body does not name are
`undefined` there, and are written over what is stored.
-/

namespace RpiNestApi.Device

open Async ClassValidator
open Settings (Obj)

/-! ## The request -/

namespace DeviceMetadataDto

/-- The decorated fields with their greatest lengths. -/
def fields : List (String × Nat) := [("name", 253), ("description", 1000), ("location", 500)]

/-- The class fields, which are defined when an instance is made. -/
def new : Obj := fields.foldl (fun object field => object.insert field.1 .undefined) ∅

def accepts (length : String → Nat) (body : Obj) : Bool :=
  whitelisted (fields.map Prod.fst) (body.entries.map fun e => (e.1, e.2)) &&
    fields.all fun field =>
      isOptional (fun value => isString value && maxLength length field.2 value)
        (Obj.get field.1 body)

/-- The instance that the pipe makes of a body. -/
def ofBody (body : Obj) : Obj := new.spread body

end DeviceMetadataDto

namespace DeviceService

def setMetaData (metaData : Obj) : Settings.Service Unit :=
  Settings.SettingsRepository.update "metadata" metaData

end DeviceService

inductive Call where
  | setMetaData (metaData : Obj)

def DeviceController.setMetaData (length : String → Nat) (body : Obj) : Option Call :=
  if DeviceMetadataDto.accepts length body then
    some (.setMetaData (DeviceMetadataDto.ofBody body))
  else none

def system :
    System Settings.World Settings.Await Settings.Await.Answer Exception Unit Call Unit Empty where
  body
    | .setMetaData metaData => DeviceService.setMetaData metaData
  accept _ w := some w
  answer := Settings.answer
  env e _ := e.elim

/-! ## The fields after a sequence of bodies -/

def IsField (name : String) : Prop := name ∈ DeviceMetadataDto.fields.map Prod.fst

/-- The value that a field is to have: that of the last body which names it. -/
def lastNamed (name : String) (metadata : Obj) (bodies : List Obj) : Value :=
  bodies.foldl (fun value body =>
    if (Obj.get name body).isDefined then Obj.get name body else value) (Obj.get name metadata)

/-- The bodies are posted one after the other, and lead to this state. -/
def Posts (length : String → Nat) (w : Settings.World) (bodies : List Obj)
    (s : State Settings.World Settings.Await Settings.Await.Answer Exception Unit Call) : Prop :=
  ∃ log, system.Sequence (fun _ => True) w log s ∧
    bodies.map (DeviceController.setMetaData length) = log.map (some ∘ Prod.fst)

/-- After any number of the bodies each field has the value it is to have. -/
def UpdatesPartially (length : String → Nat) (w : Settings.World) (metadata : Obj)
    (bodies : List Obj) : Prop :=
  ∀ posted s, posted <+: bodies → Posts length w posted s →
    ∃ object, s.world "metadata" = some object ∧
      ∀ name, IsField name → Obj.get name object = lastNamed name metadata posted

/-- Each body names the fields that have a value by then. -/
def NamesAll (metadata : Obj) (bodies : List Obj) : Prop :=
  ∀ posted body, posted ++ [body] <+: bodies → ∀ name, IsField name →
    (Obj.get name body).isDefined = false →
      (Obj.get name metadata).isDefined = false ∧
        ∀ body' ∈ posted, (Obj.get name body').isDefined = false

/-! ## What is stored -/

theorem DeviceMetadataDto.mem_new {name : String} (h : IsField name) : name ∈ new := by
  simp only [IsField, fields, List.map_cons, List.map_nil, List.mem_cons, List.not_mem_nil,
    or_false] at h
  rcases h with rfl | rfl | rfl <;> decide

theorem DeviceMetadataDto.get_new {name : String} (h : IsField name) :
    Obj.get name new = .undefined := by
  simp only [IsField, fields, List.map_cons, List.map_nil, List.mem_cons, List.not_mem_nil,
    or_false] at h
  rcases h with rfl | rfl | rfl <;> rfl

/-- An instance has each field, with the value that the body gives it. -/
theorem DeviceMetadataDto.get_spread_ofBody {name : String} (h : IsField name)
    (object body : Obj) : Obj.get name (object.spread (ofBody body)) = Obj.get name body := by
  have hmem : name ∈ ofBody body := AList.mem_union.mpr (.inr (mem_new h))
  rw [Obj.get_spread_of_mem hmem, ofBody]
  by_cases hbody : name ∈ body
  · exact Obj.get_spread_of_mem hbody new
  · rw [Obj.get_spread_of_notMem hbody, get_new h, Obj.get, AList.lookup_eq_none.mpr hbody]
    rfl

/-- The metadata after the bodies. -/
def stored (metadata : Obj) (bodies : List Obj) : Obj :=
  bodies.foldl (fun object body => object.spread (DeviceMetadataDto.ofBody body)) metadata

theorem get_stored_concat {name : String} (h : IsField name) (metadata : Obj) (bodies : List Obj)
    (body : Obj) : Obj.get name (stored metadata (bodies ++ [body])) = Obj.get name body := by
  rw [stored, List.foldl_append]
  exact DeviceMetadataDto.get_spread_ofBody h _ body

/-- The metadata after the calls of a log. -/
def afterLog (metadata : Obj) (log : List (Call × Except Exception Unit)) : Obj :=
  log.foldl (fun object entry => match entry.1 with
    | .setMetaData data => object.spread data) metadata

theorem idle_eq {w w' : Settings.World} (h : system.Idle w w') : w' = w := by
  induction h with
  | refl => rfl
  | tail _ hstep _ => exact hstep.choose.elim

theorem call_ends {q : Settings.Await} {post : Except Exception Unit → Settings.World → Prop}
    {w : Settings.World} (h : post (.ok ()) w) :
    (Prog.call q : Settings.Service Unit).Ends system.answer system.Idle (fun _ => True) post
      w := by
  rw [Prog.ends_call]
  intro w₀ hidle
  obtain rfl := idle_eq hidle
  refine ⟨⟨w₀, (), _, .refl, trivial, rfl⟩, fun c r _ hr => ?_⟩
  cases hr
  exact h

/-- An update that runs alone merges its data into what is stored. -/
theorem setMetaData_ends {w : Settings.World} {object : Obj} (hw : w "metadata" = some object)
    {post : Except Exception Unit → Settings.World → Prop} {data : Obj}
    (h : post (.ok ()) (Function.update w "metadata" (some (object.spread data)))) :
    (DeviceService.setMetaData data).Ends system.answer system.Idle (fun _ => True) post w := by
  simp only [DeviceService.setMetaData, Settings.SettingsRepository.update,
    Settings.SettingsRepository.get, Settings.SettingsRepository.put, Prog.read, Prog.modify,
    Prog.bind_def, Prog.pure_def, Prog.sync_bind, Prog.ret_bind, Prog.ends_bind, Prog.ends_sync,
    id, hw]
  exact call_ends (call_ends h)

/-- The metadata is what the calls of the log have made of it. -/
def Holds (metadata : Obj) (log : List (Call × Except Exception Unit)) (w : Settings.World) :
    Prop :=
  w "metadata" = some (afterLog metadata log)

variable {length : String → Nat} {w : Settings.World} {metadata : Obj}

theorem Holds.idle (log : List (Call × Except Exception Unit)) (w w' : Settings.World)
    (hidle : system.Idle w w') (h : Holds metadata log w) : Holds metadata log w' := by
  rwa [idle_eq hidle]

theorem Holds.call (log : List (Call × Except Exception Unit)) (c : Call) (w : Settings.World)
    (h : Holds metadata log w) :
    (system.body c).Ends system.answer system.Idle (fun _ => True)
      (fun r => Holds metadata (log ++ [(c, r)])) w := by
  cases c with
  | setMetaData data =>
      have hlog : afterLog metadata (log ++ [(.setMetaData data, .ok ())]) =
          (afterLog metadata log).spread data := by
        rw [afterLog, List.foldl_append]
        rfl
      refine setMetaData_ends h ?_
      rw [Holds, Function.update_self, hlog]

/-- The calls of accepted bodies. -/
theorem map_setMetaData {bodies : List Obj}
    (h : ∀ body ∈ bodies, DeviceMetadataDto.accepts length body = true) :
    bodies.map (DeviceController.setMetaData length) =
      (bodies.map fun body => Call.setMetaData (DeviceMetadataDto.ofBody body)).map some := by
  rw [List.map_map]
  refine List.map_congr_left fun body hbody => ?_
  rw [DeviceController.setMetaData, if_pos (h body hbody)]
  rfl

theorem afterLog_eq {log : List (Call × Except Exception Unit)} {bodies : List Obj}
    (h : log.map Prod.fst = bodies.map fun body => .setMetaData (DeviceMetadataDto.ofBody body)) :
    afterLog metadata log = stored metadata bodies := by
  have hlog : afterLog metadata log = (log.map Prod.fst).foldl
      (fun object c => match c with | .setMetaData data => object.spread data) metadata := by
    rw [List.foldl_map]
    rfl
  rw [hlog, h, List.foldl_map]
  rfl

theorem Posts.stored (hw : w "metadata" = some metadata) {bodies : List Obj}
    (hbodies : ∀ body ∈ bodies, DeviceMetadataDto.accepts length body = true)
    {s : State Settings.World Settings.Await Settings.Await.Answer Exception Unit Call}
    (h : Posts length w bodies s) :
    s.world "metadata" = some (Device.stored metadata bodies) := by
  obtain ⟨log, hseq, hlog⟩ := h
  have hholds : Holds metadata log s.world := by
    refine (hseq.invariant (Holds metadata) hw Holds.idle fun log c w w' h hw => ?_).1
    cases hw
    exact h.call log c w
  rw [map_setMetaData hbodies, ← List.map_map] at hlog
  rw [Holds] at hholds
  rw [hholds, afterLog_eq (List.map_injective_iff.mpr (fun _ _ => Option.some.inj) hlog).symm]

/-- Accepted bodies can be posted. -/
theorem exists_posts (hw : w "metadata" = some metadata) {bodies : List Obj}
    (hbodies : ∀ body ∈ bodies, DeviceMetadataDto.accepts length body = true) :
    ∃ s, Posts length w bodies s := by
  obtain ⟨log, s, hseq, hlog⟩ : ∃ log s, system.Sequence (fun _ => True) w log s ∧
      log.map Prod.fst = bodies.map fun body => .setMetaData (DeviceMetadataDto.ofBody body) :=
    System.exists_sequence (Holds metadata) hw Holds.idle (fun _ _ => rfl) Holds.call _
  exact ⟨s, log, hseq, by rw [map_setMetaData hbodies, ← hlog, List.map_map]⟩

/-! ## Partial updates -/

theorem lastNamed_concat (name : String) (metadata : Obj) (bodies : List Obj) (body : Obj) :
    lastNamed name metadata (bodies ++ [body]) =
      if (Obj.get name body).isDefined then Obj.get name body
      else lastNamed name metadata bodies := by
  rw [lastNamed, List.foldl_append]
  rfl

theorem not_isDefined_iff {v : Value} : v.isDefined = false ↔ v = .undefined := by
  cases v <;> simp [Value.isDefined]

/-- A field is to have no value where none was stored and no body names it. -/
theorem lastNamed_eq_undefined_iff {name : String} {metadata : Obj} {bodies : List Obj} :
    lastNamed name metadata bodies = .undefined ↔
      (Obj.get name metadata).isDefined = false ∧
        ∀ body ∈ bodies, (Obj.get name body).isDefined = false := by
  induction bodies using List.reverseRecOn with
  | nil => simp [lastNamed, not_isDefined_iff]
  | append_singleton bodies body ih =>
      rw [lastNamed_concat]
      cases hbody : (Obj.get name body).isDefined with
      | true =>
          rw [if_pos rfl]
          constructor
          · intro h
            rw [h] at hbody
            cases hbody
          · rintro ⟨_, h⟩
            rw [h body (by simp)] at hbody
            cases hbody
      | false =>
          rw [if_neg (by simp), ih]
          simp [or_imp, forall_and, hbody]

/-- A field has the value it is to have after a body if the body names it, or if
it was to have none. -/
theorem get_stored_eq_iff {name : String} (h : IsField name) (bodies : List Obj) (body : Obj) :
    Obj.get name (stored metadata (bodies ++ [body])) =
        lastNamed name metadata (bodies ++ [body]) ↔
      ((Obj.get name body).isDefined = false → lastNamed name metadata bodies = .undefined) := by
  rw [get_stored_concat h, lastNamed_concat]
  cases hbody : (Obj.get name body).isDefined with
  | true => simp
  | false =>
      rw [not_isDefined_iff.mp hbody]
      simp [eq_comm]

/-- The fields have the values they are to have exactly where each body names all
that have a value by then. -/
theorem partial_metadata (hw : w "metadata" = some metadata) {bodies : List Obj}
    (hbodies : ∀ body ∈ bodies, DeviceMetadataDto.accepts length body = true) :
    UpdatesPartially length w metadata bodies ↔ NamesAll metadata bodies := by
  have haccepted : ∀ posted, posted <+: bodies →
      ∀ body ∈ posted, DeviceMetadataDto.accepts length body = true :=
    fun posted hposted body hbody => hbodies body (hposted.subset hbody)
  constructor
  · intro hpartial posted body hposted name hname hundefined
    obtain ⟨s, hs⟩ := exists_posts hw (haccepted _ hposted)
    obtain ⟨object, hobject, hfields⟩ := hpartial _ s hposted hs
    cases hobject.symm.trans (hs.stored hw (haccepted _ hposted))
    exact lastNamed_eq_undefined_iff.mp
      ((get_stored_eq_iff hname posted body).mp (hfields name hname) hundefined)
  · intro hnames posted s hposted hs
    refine ⟨_, hs.stored hw (haccepted _ hposted), fun name hname => ?_⟩
    cases hcases : posted using List.reverseRecOn with
    | nil => rfl
    | append_singleton posted body =>
        subst hcases
        exact (get_stored_eq_iff hname posted body).mpr fun hundefined =>
          lastNamed_eq_undefined_iff.mpr (hnames posted body hposted name hname hundefined)

/-- Bodies that name one field each, and one that names both. -/
def nameBody : Obj := AList.insert "name" (.string "rpi-nest") ∅

def locationBody : Obj := AList.insert "location" (.string "Aboard the Discovery One") ∅

def bothBody : Obj := AList.insert "name" (.string "rpi-nest-2") locationBody

theorem accepts_nameBody : DeviceMetadataDto.accepts String.length nameBody = true := by
  decide +kernel

theorem accepts_locationBody : DeviceMetadataDto.accepts String.length locationBody = true := by
  decide +kernel

theorem accepts_bothBody : DeviceMetadataDto.accepts String.length bothBody = true := by
  decide +kernel

/-- A name is stored, and is named by each body. -/
theorem namesAll_both : NamesAll nameBody [nameBody, bothBody] := by
  rintro (_ | ⟨body', _ | ⟨body'', posted⟩⟩) body hposted name hname hundefined
  · obtain ⟨_, hbodies⟩ := hposted
    cases hbodies
    exact ⟨hundefined, nofun⟩
  · obtain ⟨_, hbodies⟩ := hposted
    cases hbodies
    simp only [IsField, DeviceMetadataDto.fields, List.map_cons, List.map_nil, List.mem_cons,
      List.not_mem_nil, or_false] at hname
    rcases hname with rfl | rfl | rfl
    · cases hundefined
    · decide
    · cases hundefined
  · have hlength := hposted.length_le
    simp at hlength

theorem partial_metadata_both :
    NamesAll nameBody [nameBody, bothBody] ∧
      UpdatesPartially String.length (fun _ => some nameBody) nameBody [nameBody, bothBody] :=
  have haccepts : ∀ body ∈ [nameBody, bothBody],
      DeviceMetadataDto.accepts String.length body = true :=
    List.forall_mem_cons.mpr ⟨accepts_nameBody, List.forall_mem_singleton.mpr accepts_bothBody⟩
  ⟨namesAll_both, (partial_metadata rfl haccepts).mpr namesAll_both⟩

/-- The second body removes the name. -/
theorem name_removed : ¬ ∀ (w : Settings.World) (metadata : Obj) (bodies : List Obj),
    w "metadata" = some metadata →
    (∀ body ∈ bodies, DeviceMetadataDto.accepts String.length body = true) →
      UpdatesPartially String.length w metadata bodies := by
  intro h
  let w : Settings.World := fun _ => some ∅
  have hw : w "metadata" = some ∅ := rfl
  have haccepts : ∀ body ∈ [nameBody, locationBody],
      DeviceMetadataDto.accepts String.length body = true :=
    List.forall_mem_cons.mpr ⟨accepts_nameBody, List.forall_mem_singleton.mpr accepts_locationBody⟩
  obtain ⟨s, hs⟩ := exists_posts hw haccepts
  obtain ⟨object, hobject, hfields⟩ := h w ∅ _ hw haccepts _ s List.prefix_rfl hs
  cases hobject.symm.trans (hs.stored hw haccepts)
  have hname := hfields "name" (by simp [IsField, DeviceMetadataDto.fields])
  cases hname

end RpiNestApi.Device
