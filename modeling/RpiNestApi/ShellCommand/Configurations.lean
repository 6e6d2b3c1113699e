import RpiNestApi.ShellCommand.RpiConfig

/-
The list of supported configurations.

The features are read from the usage text, which may break the list into lines, and
their statuses from what `availstat` prints for them.  The first reader deletes
the line breaks and splits at spaces, and the two lists are paired by position.
-/

namespace RpiNestApi.ShellCommand

open Async

/-! ## The features of a usage text -/

def marker : List Char := "Supported features: ".toList

/-- What separates the names of the list. -/
def isSeparator (c : Char) : Bool := c == ' ' || c == '\n'

/-- The features that are listed. -/
def features (list : List Char) : List String := (fields isSeparator list).map String.ofList

/-- The names that are left when the line breaks are deleted. -/
def unbroken (list : List Char) : List (List Char) := fields (· == ' ') (list.filter (· != '\n'))

/-- Where a list is being read: between two names after a space, in a name, or
after a name and a line break. -/
inductive Phase where
  | apart
  | name
  | broken

/-- Some name follows another after line breaks, and no space. -/
def runsOn : Phase → List Char → Bool
  | _, [] => false
  | phase, c :: cs =>
    if c = ' ' then runsOn .apart cs
    else if c = '\n' then match phase with
      | .apart => runsOn .apart cs
      | _ => runsOn .broken cs
    else match phase with
      | .broken => true
      | _ => runsOn .name cs

/-- A part that has begun is the beginning of the first field. -/
theorem fieldsFrom_eq_cons {α : Type} {p : α → Bool} {acc : List α} (h : acc ≠ []) (xs : List α) :
    ∃ rest others, fieldsFrom p acc xs = (acc.reverse ++ rest) :: others := by
  rw [fieldsFrom]
  cases hparts : xs.splitOnP p with
  | nil => exact absurd hparts (List.splitOnP_ne_nil p xs)
  | cons part parts => exact ⟨part, parts.filter fun q => !q.isEmpty, by simp [h]⟩

/-- The line breaks may be deleted unless a name runs on. -/
theorem fieldsFrom_unbroken (cs : List Char) :
    (∀ acc, fieldsFrom isSeparator acc cs = fieldsFrom (· == ' ') acc (cs.filter (· != '\n')) ↔
      runsOn (if acc.isEmpty then .apart else .name) cs = false) ∧
    ∀ acc, acc ≠ [] →
      (acc.reverse :: fieldsFrom isSeparator [] cs =
          fieldsFrom (· == ' ') acc (cs.filter (· != '\n')) ↔ runsOn .broken cs = false) := by
  induction cs with
  | nil =>
      refine ⟨fun acc => ?_, fun acc hacc => ?_⟩
      · simp [fieldsFrom_nil, runsOn]
      · simp [fieldsFrom_nil, part, hacc, runsOn]
  | cons c cs ih =>
      obtain ⟨ihname, ihbroken⟩ := ih
      by_cases hspace : c = ' '
      · subst hspace
        have hfilter : (' ' :: cs).filter (· != '\n') = ' ' :: cs.filter (· != '\n') := rfl
        have hbase := ihname []
        refine ⟨fun acc => ?_, fun acc hacc => ?_⟩
        · rw [hfilter, fieldsFrom_cons_pos rfl, fieldsFrom_cons_pos rfl, List.append_cancel_left_eq,
            hbase]
          simp [runsOn]
        · rw [hfilter, fieldsFrom_cons_pos rfl, fieldsFrom_cons_pos rfl]
          simp only [part, List.isEmpty_iff, hacc, if_true, if_false, List.nil_append,
            List.singleton_append, List.cons.injEq, true_and, hbase]
          simp [runsOn]
      · by_cases hbreak : c = '\n'
        · subst hbreak
          have hfilter : ('\n' :: cs).filter (· != '\n') = cs.filter (· != '\n') := rfl
          refine ⟨fun acc => ?_, fun acc hacc => ?_⟩
          · rw [hfilter, fieldsFrom_cons_pos rfl]
            cases acc with
            | nil =>
                have hbase := ihname []
                simpa [part, runsOn] using hbase
            | cons x acc =>
                have hbroken := ihbroken (x :: acc) (by simp)
                simpa [part, runsOn] using hbroken
          · rw [hfilter, fieldsFrom_cons_pos rfl]
            have hbroken := ihbroken acc hacc
            simpa [part, runsOn] using hbroken
        · have hfilter : (c :: cs).filter (· != '\n') = c :: cs.filter (· != '\n') := by
            simp [hbreak]
          have hsep : isSeparator c = false := by simp [isSeparator, hspace, hbreak]
          refine ⟨fun acc => ?_, fun acc hacc => ?_⟩
          · rw [hfilter, fieldsFrom_cons_neg hsep, fieldsFrom_cons_neg (by simp [hspace])]
            have hname := ihname (c :: acc)
            cases acc <;> simpa [runsOn, hspace, hbreak] using hname
          · rw [hfilter, fieldsFrom_cons_neg hsep, fieldsFrom_cons_neg (by simp [hspace])]
            obtain ⟨rest, others, hfirst⟩ := fieldsFrom_eq_cons (p := fun x => x == ' ')
              (List.cons_ne_nil c acc) (cs.filter (· != '\n'))
            rw [hfirst]
            simp [runsOn, hspace, hbreak]

theorem fields_unbroken (list : List Char) :
    fields isSeparator list = unbroken list ↔ runsOn .apart list = false := by
  rw [unbroken, fields_eq, fields_eq]
  exact (fieldsFrom_unbroken list).1 []

theorem unbroken_eq_nil_iff {list : List Char} :
    unbroken list = [] ↔ ∀ c ∈ list, isSeparator c = true := by
  rw [unbroken, fields_eq_nil_iff]
  simp only [List.mem_filter, bne_iff_ne, ne_eq, beq_iff_eq, isSeparator, Bool.or_eq_true]
  exact forall_congr' fun c => by tauto

/-- The names that the service finds in the list.  It stops where the marker comes
again. -/
def names (list : List Char) : List (List Char) :=
  unbroken <| match cut marker list with
    | some r => r.1
    | none => list

theorem supportedFeatures_eq {usage : String} {before list : List Char}
    (h : cut marker usage.toList = some (before, list)) :
    RpiConfigCommandService.supportedFeatures usage = (names list).map String.ofList := by
  have hpart : secondPart marker usage.toList = some (match cut marker list with
      | some r => r.1
      | none => list) := by rw [secondPart, h]; rfl
  rw [RpiConfigCommandService.supportedFeatures,
    show "Supported features: ".toList = marker from rfl,
    hpart]
  rfl

theorem flatten_unbroken (list : List Char) :
    (unbroken list).flatten = list.filter fun c => !isSeparator c := by
  rw [unbroken, flatten_fields, List.filter_filter]
  refine List.filter_congr fun c _ => ?_
  rw [isSeparator, Bool.not_or]
  rfl

/-- All names are found just as they are listed if the marker does not come again
and no name runs on. -/
theorem names_eq_iff {list : List Char} :
    names list = fields isSeparator list ↔
      cut marker list = none ∧ runsOn .apart list = false := by
  cases hcut : cut marker list with
  | none =>
      rw [names, hcut]
      simp only [true_and]
      rw [eq_comm, fields_unbroken]
  | some r =>
      obtain ⟨before, after⟩ := r
      simp only [reduceCtorEq, false_and, iff_false]
      intro h
      have hflatten := congrArg (fun l => l.flatten.length) h
      have hmarker : (marker.filter fun c => !isSeparator c).length = 18 := by decide
      simp only [names, hcut, flatten_unbroken, flatten_fields] at hflatten
      rw [cut_eq_some hcut, List.filter_append, List.filter_append, List.length_append,
        List.length_append, hmarker] at hflatten
      omega

/-! ## The statuses that are printed -/

/-- The flags of a status: whether the feature is available and enabled. -/
def statusFlags (status : String) : Option (Bool × Bool) :=
  if status = "1" then some (true, true)
  else if status = "0" then some (true, false)
  else if status = "2" then some (false, false)
  else none

/-- The words of the text. -/
def statuses (text : String) : List String :=
  (fields isWhiteSpace text.toList).map String.ofList

/-- The parts of the text that the service takes for statuses. -/
def statusParts (text : String) : List String := split ' ' (String.ofList (trim text.toList))

/-- The state with these flags. -/
def RpiConfigurationState.ofFlags (flags : Bool × Bool) : RpiConfigurationState where
  isAvailable := flags.1
  isEnabled := flags.2
  value := none

/-- `parseStatus` reads the flags of a status. -/
theorem parseStatus_eq_ok {status : String} {state : RpiConfigurationState} :
    parseStatus status = .ok state ↔
      ∃ flags, statusFlags status = some flags ∧ state = .ofFlags flags := by
  unfold parseStatus statusFlags
  split
  · simp [RpiConfigurationState.ofFlags, eq_comm]
  · split
    · simp [RpiConfigurationState.ofFlags, eq_comm]
    · split
      · simp [RpiConfigurationState.ofFlags, eq_comm]
      · simp

theorem mapM_parseStatus {parts : List String} {states : List RpiConfigurationState} :
    parts.mapM parseStatus = .ok states ↔ ∃ flags : List (Bool × Bool),
      parts.map statusFlags = flags.map some ∧ states = flags.map .ofFlags := by
  induction parts generalizing states with
  | nil =>
      rw [List.mapM_nil]
      constructor
      · rintro ⟨⟩
        exact ⟨[], rfl, rfl⟩
      · rintro ⟨flags, hflags, rfl⟩
        rw [List.map_nil, eq_comm, List.map_eq_nil_iff] at hflags
        rw [hflags]
        rfl
  | cons status parts ih =>
      rw [List.mapM_cons]
      constructor
      · intro h
        obtain ⟨state, hstate, h⟩ := except_bind_eq_ok.mp h
        obtain ⟨rest, hrest, h⟩ := except_bind_eq_ok.mp h
        obtain ⟨flags, hflags, rfl⟩ := parseStatus_eq_ok.mp hstate
        obtain ⟨others, hothers, rfl⟩ := ih.mp hrest
        cases h
        exact ⟨flags :: others, by rw [List.map_cons, hflags, hothers, List.map_cons], rfl⟩
      · rintro ⟨flags, hflags, rfl⟩
        cases flags with
        | nil => cases hflags
        | cons first others =>
            simp only [List.map_cons, List.cons.injEq] at hflags
            have hfirst := parseStatus_eq_ok.mpr ⟨first, hflags.1, rfl⟩
            have hothers := ih.mpr ⟨others, hflags.2, rfl⟩
            exact except_bind_eq_ok.mpr ⟨_, hfirst, except_bind_eq_ok.mpr ⟨_, hothers, rfl⟩⟩

theorem status_cases {status : String} {flags : Bool × Bool}
    (h : statusFlags status = some flags) : status = "1" ∨ status = "0" ∨ status = "2" := by
  unfold statusFlags at h
  split at h
  · exact .inl ‹_›
  · split at h
    · exact .inr (.inl ‹_›)
    · split at h
      · exact .inr (.inr ‹_›)
      · cases h

/-- A status is not empty and has no white space. -/
theorem statusFlags_eq_some {status : String} {flags : Bool × Bool}
    (h : statusFlags status = some flags) :
    status.toList ≠ [] ∧ ∀ c ∈ status.toList, isWhiteSpace c = false := by
  have hall : status.toList ≠ [] ∧ (status.toList.all fun c => !isWhiteSpace c) = true := by
    rcases status_cases h with rfl | rfl | rfl <;> decide
  exact ⟨hall.1, fun c hc => by simpa using List.all_eq_true.mp hall.2 c hc⟩

/-- Parts that are statuses are the words of the text. -/
theorem statuses_eq {text : String} {flags : List (Bool × Bool)}
    (h : (statusParts text).map statusFlags = flags.map some) :
    statuses text = statusParts text := by
  have hparts : ∀ part ∈ (trim text.toList).splitOn ' ',
      part ≠ [] ∧ ∀ c ∈ part, isWhiteSpace c = false := by
    intro part hpart
    have hmem : String.ofList part ∈ statusParts text := by
      rw [statusParts, split, String.toList_ofList]
      exact List.mem_map_of_mem hpart
    obtain ⟨flag, _, hflag⟩ := List.mem_map.mp (h ▸ List.mem_map_of_mem hmem)
    have hstatus := statusFlags_eq_some hflag.symm
    rwa [String.toList_ofList] at hstatus
  have hsep : isWhiteSpace ' ' = true := rfl
  have hfields := fields_intercalate hsep hparts
  rw [List.intercalate_splitOn, fields_trim] at hfields
  rw [statuses, hfields, statusParts, split, String.toList_ofList]

/-! ## The configurations that are returned -/

/-- A feature with the flags of its status. -/
def configuration (feature : String) (flags : Bool × Bool) : DeviceConfigDto where
  id := feature
  isEnabled := some flags.2
  isAvailable := some flags.1
  value := none

/-- Each feature is returned with the flags of the status at its position, and
there are no other statuses. -/
def Complete (list : List Char) (text : String) (configs : List DeviceConfigDto) : Prop :=
  ∃ flags : List (Bool × Bool), (statuses text).map statusFlags = flags.map some ∧
    flags.length = (features list).length ∧
    configs = List.zipWith configuration (features list) flags

/-- An empty list has no configurations, and one that is not is returned completely
or not at all. -/
structure Faithful (list : List Char) (text : String)
    (r : Except Exception (List DeviceConfigDto)) : Prop where
  empty : features list = [] → r = .ok []
  complete : features list ≠ [] → ∀ configs, r = .ok configs → Complete list text configs

/-- What `raspi-config` prints: the usage without arguments, and the text for
`availstat`. -/
def prints (usage text : String) (p : Spawn) : Except Exception String :=
  .ok (if p.args.isEmpty then usage else text)

/-- The service rejects: there are no names to ask for, or the text is none of
statuses. -/
def Refused (list : List Char) (text : String) : Prop :=
  (∃ before after, cut marker list = some (before, after) ∧ ∀ c ∈ before, isSeparator c = true) ∨
    "Usage:".toList.isPrefixOf text.toList = true ∨
    ∃ status ∈ statusParts text, statusFlags status = none

theorem intercalate_ne_empty {words : List String} (hne : words ≠ [])
    (h : ∀ word ∈ words, word ≠ "") : " ".intercalate words ≠ "" := by
  cases words with
  | nil => exact absurd rfl hne
  | cons word words =>
      have hword := h word List.mem_cons_self
      cases words with
      | nil => rwa [String.intercalate_singleton]
      | cons word' words =>
          rw [String.intercalate_cons_cons]
          intro he
          exact hword (by simpa using congrArg String.toList he)

theorem names_ne_empty {list name : List Char} (h : name ∈ names list) :
    String.ofList name ≠ "" := by
  have hname := List.mem_filter.mp h
  intro he
  have hnil : name = [] := by simpa using congrArg String.toList he
  simp [hnil] at hname

theorem eval_getSupportedConfigurations {usage text : String} {before list : List Char}
    (h : cut marker usage.toList = some (before, list)) :
    RpiConfigCommandService.getSupportedConfigurations.eval (prints usage text) =
      .ok ((names list).map String.ofList) := by
  rw [← supportedFeatures_eq h]
  rfl

theorem eval_executeCommand {usage text id : String} {command : RpiConfigCommand} (hid : id ≠ "") :
    (RpiConfigCommandService.executeCommand command id none).eval (prints usage text) =
      if "Usage:".toList.isPrefixOf text.toList then
        .error (.badRequest "Invalid command! raspi-config returned usage help message")
      else .ok (String.ofList (trim text.toList)) := by
  rw [RpiConfigCommandService.executeCommand, if_neg hid, Prog.bind_def, Prog.eval_bind]
  have hspawn : (ChildProcessService.spawnAuthorized rpiConfigExecutable
      ([command.name, id] ++ Option.none.toList.filter (· != "")) true).eval (prints usage text) =
        .ok text := rfl
  rw [hspawn]
  simp only [Except.bind]
  split <;> rfl

theorem eval_getConfigurationStates (usage text : String) {ids : List String}
    (hids : ∀ id ∈ ids, id ≠ "") {states : List RpiConfigurationState} :
    (RpiConfigCommandService.getConfigurationStates ids).eval (prints usage text) = .ok states ↔
      ids ≠ [] ∧ "Usage:".toList.isPrefixOf text.toList = false ∧
        ∃ flags : List (Bool × Bool), (statusParts text).map statusFlags = flags.map some ∧
          states = flags.map .ofFlags := by
  rw [RpiConfigCommandService.getConfigurationStates, Prog.bind_def, Prog.eval_bind]
  by_cases hnil : ids = []
  · subst hnil
    simp only [ne_eq, not_true_eq_false, false_and, iff_false]
    rintro ⟨⟩
  · rw [eval_executeCommand (intercalate_ne_empty hnil hids)]
    cases husage : "Usage:".toList.isPrefixOf text.toList with
    | true =>
        simp only [Bool.true_eq_false, false_and, and_false, iff_false]
        rintro ⟨⟩
    | false =>
        simp only [Bool.false_eq_true, if_false, Except.bind, ne_eq, hnil, not_false_eq_true,
          true_and]
        rw [← mapM_parseStatus, ← statusParts]
        cases (statusParts text).mapM parseStatus with
        | error e => exact iff_of_false (by rintro ⟨⟩) (by rintro ⟨⟩)
        | ok states' => exact Iff.rfl

/-- What the service returns for what is printed. -/
theorem eval_getAllSupportedConfigurations {usage : String} (text : String)
    {before list : List Char}
    (h : cut marker usage.toList = some (before, list)) (configs : List DeviceConfigDto) :
    DeviceConfigService.getAllSupportedConfigurations.eval (prints usage text) = .ok configs ↔
      names list ≠ [] ∧ "Usage:".toList.isPrefixOf text.toList = false ∧
        ∃ flags : List (Bool × Bool), (statusParts text).map statusFlags = flags.map some ∧
          configs = ((names list).map String.ofList).mapIdx fun index id =>
            .ofState id ((flags[index]?).map .ofFlags) := by
  have hids : ∀ id ∈ (names list).map String.ofList, id ≠ "" := by
    intro id hid
    obtain ⟨name, hname, rfl⟩ := List.mem_map.mp hid
    exact names_ne_empty hname
  have hne : (names list).map String.ofList ≠ [] ↔ names list ≠ [] := by simp
  rw [DeviceConfigService.getAllSupportedConfigurations, Prog.bind_def, Prog.eval_bind,
    eval_getSupportedConfigurations h]
  constructor
  · intro hconfigs
    simp only [Except.bind, Prog.bind_def, Prog.eval_bind] at hconfigs
    obtain ⟨states, hstates, hconfigs⟩ := except_bind_eq_ok.mp hconfigs
    obtain ⟨hnil, husage, flags, hflags, rfl⟩ :=
      (eval_getConfigurationStates usage text hids).mp hstates
    cases hconfigs
    refine ⟨hne.mp hnil, husage, flags, hflags, ?_⟩
    simp only [List.getElem?_map]
  · rintro ⟨hnil, husage, flags, hflags, rfl⟩
    have hstates := (eval_getConfigurationStates usage text hids).mpr
      ⟨hne.mpr hnil, husage, flags, hflags, rfl⟩
    simp only [Except.bind, Prog.bind_def, Prog.eval_bind]
    rw [hstates]
    simp only [Prog.pure_def, Prog.eval_ret, List.getElem?_map]

/-- Without names there is nothing to ask for. -/
theorem names_eq_nil_iff {list : List Char} (hne : features list ≠ []) :
    names list = [] ↔
      ∃ before after, cut marker list = some (before, after) ∧
        ∀ c ∈ before, isSeparator c = true := by
  rw [names, unbroken_eq_nil_iff]
  cases hcut : cut marker list with
  | some r =>
      constructor
      · intro h
        exact ⟨r.1, r.2, rfl, h⟩
      · rintro ⟨before, after, he, h⟩
        cases he
        exact h
  | none =>
      simp only [reduceCtorEq, false_and, exists_false, iff_false]
      intro h
      exact hne (by rw [features, fields_eq_nil_iff.mpr h, List.map_nil])

theorem exists_flags {parts : List String} (h : ∀ status ∈ parts, statusFlags status ≠ none) :
    ∃ flags : List (Bool × Bool), parts.map statusFlags = flags.map some := by
  induction parts with
  | nil => exact ⟨[], rfl⟩
  | cons status parts ih =>
      obtain ⟨first, hfirst⟩ := Option.ne_none_iff_exists'.mp (h status List.mem_cons_self)
      obtain ⟨flags, hflags⟩ := ih fun status' hs => h status' (List.mem_cons_of_mem status hs)
      exact ⟨first :: flags, by rw [List.map_cons, hfirst, hflags, List.map_cons]⟩

theorem mapIdx_id (ids : List String) (flags : List (Bool × Bool)) :
    (ids.mapIdx fun index id => DeviceConfigDto.ofState id ((flags[index]?).map .ofFlags)).map
      DeviceConfigDto.id = ids := by
  refine List.ext_getElem (by simp) fun n h₁ h₂ => ?_
  simp [DeviceConfigDto.ofState]

theorem zipWith_id {ids : List String} {flags : List (Bool × Bool)}
    (h : flags.length = ids.length) :
    (List.zipWith configuration ids flags).map DeviceConfigDto.id = ids := by
  refine List.ext_getElem (by simp [h]) fun n h₁ h₂ => ?_
  simp [configuration]

/-- Pairing by position is pairing where there are as many of both. -/
theorem mapIdx_eq_zipWith {ids : List String} {flags : List (Bool × Bool)}
    (h : flags.length = ids.length) :
    (ids.mapIdx fun index id => DeviceConfigDto.ofState id ((flags[index]?).map .ofFlags)) =
      List.zipWith configuration ids flags := by
  refine List.ext_getElem (by simp [h]) fun n h₁ h₂ => ?_
  have hn : n < flags.length := by simpa [h] using h₁
  simp [DeviceConfigDto.ofState, configuration, RpiConfigurationState.ofFlags, hn]

theorem ofList_map_injective {xs ys : List (List Char)}
    (h : xs.map String.ofList = ys.map String.ofList) : xs = ys :=
  List.map_injective_iff.mpr (fun a b hab => by simpa using congrArg String.toList hab) h

/-- The list of configurations is faithful exactly where it is not empty and is
refused, or else is separated by spaces and answered with as many statuses. -/
theorem supported_configurations {usage text : String} {before list : List Char}
    (h : cut marker usage.toList = some (before, list)) :
    Faithful list text
        (DeviceConfigService.getAllSupportedConfigurations.eval (prints usage text)) ↔
      features list ≠ [] ∧ (Refused list text ∨
        (cut marker list = none ∧ runsOn .apart list = false) ∧
          (statuses text).length = (features list).length) := by
  have heval := eval_getAllSupportedConfigurations text h
  constructor
  · intro hfaithful
    have hne : features list ≠ [] := by
      intro hnil
      obtain ⟨hnames, _, flags, _, hempty⟩ := (heval []).mp (hfaithful.empty hnil)
      exact hnames (by simpa using (congrArg List.length hempty).symm)
    refine ⟨hne, or_iff_not_imp_left.mpr fun hrefused => ?_⟩
    simp only [Refused, not_or, ← names_eq_nil_iff hne, Bool.not_eq_true, not_exists,
      not_and] at hrefused
    obtain ⟨hnames, husage, hstatuses⟩ := hrefused
    obtain ⟨flags, hflags⟩ := exists_flags hstatuses
    obtain ⟨flags', hflags', hlength, hconfigs⟩ :=
      hfaithful.complete hne _ ((heval _).mpr ⟨hnames, husage, flags, hflags, rfl⟩)
    have hids := congrArg (List.map DeviceConfigDto.id) hconfigs
    rw [mapIdx_id, zipWith_id hlength] at hids
    refine ⟨names_eq_iff.mp (ofList_map_injective hids), ?_⟩
    rw [← hlength, ← List.length_map (f := statusFlags), hflags', List.length_map]
  · rintro ⟨hne, hcondition⟩
    refine ⟨fun hnil => absurd hnil hne, fun _ configs hconfigs => ?_⟩
    obtain ⟨hnames, husage, flags, hflags, rfl⟩ := (heval configs).mp hconfigs
    rcases hcondition with (hnone | husage' | ⟨status, hstatus, hflag⟩) | ⟨hlist, hlength⟩
    · exact absurd ((names_eq_nil_iff hne).mpr hnone) hnames
    · cases husage.symm.trans husage'
    · obtain ⟨flag, _, hsome⟩ := List.mem_map.mp (hflags ▸ List.mem_map_of_mem hstatus)
      cases hsome.trans hflag
    · have hids : (names list).map String.ofList = features list := by
        rw [names_eq_iff.mpr hlist, features]
      have hlength' : flags.length = (features list).length := by
        rw [← hlength, statuses_eq hflags, ← List.length_map (f := statusFlags), hflags,
          List.length_map]
      refine ⟨flags, by rw [statuses_eq hflags, hflags], hlength', ?_⟩
      rw [hids, mapIdx_eq_zipWith hlength']

theorem supported_configurations_ssh :
    Faithful "ssh vnc\n".toList "0 1\n"
      (DeviceConfigService.getAllSupportedConfigurations.eval
        (prints "Supported features: ssh vnc\n" "0 1\n")) :=
  (supported_configurations (show cut marker _ = some ([], "ssh vnc\n".toList) by
    decide +kernel)).mpr
    ⟨by decide +kernel, .inr ⟨⟨by decide +kernel, by decide +kernel⟩, by decide +kernel⟩⟩

/-- Two features on two lines are returned as one. -/
theorem unfaithful_lines : ¬ ∀ (usage text : String) (before list : List Char),
    cut marker usage.toList = some (before, list) →
      Faithful list text
        (DeviceConfigService.getAllSupportedConfigurations.eval (prints usage text)) := by
  intro h
  have hcut : cut marker "Supported features: ssh\nvnc".toList = some ([], "ssh\nvnc".toList) := by
    decide +kernel
  have hfaithful := h "Supported features: ssh\nvnc" "1" [] "ssh\nvnc".toList hcut
  have husage : "Usage:".toList.isPrefixOf "1".toList = false := by decide +kernel
  have hflags : (statusParts "1").map statusFlags = [(true, true)].map some := by decide +kernel
  have heval := (eval_getAllSupportedConfigurations _ hcut _).mpr
    ⟨by decide +kernel, husage, [(true, true)], hflags, rfl⟩
  obtain ⟨flags, hflags, hlength, _⟩ := hfaithful.complete (by decide +kernel) _ heval
  have hstatuses := congrArg List.length hflags
  rw [List.length_map, List.length_map, hlength] at hstatuses
  revert hstatuses
  decide +kernel

end RpiNestApi.ShellCommand
