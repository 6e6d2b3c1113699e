import RpiNestApi.ShellCommand.Configurations

/-
The status of one configuration.

`raspi-config` prints the value that is set, one space and the status.  The service
counts the parts between spaces: of two parts the second one is the status, otherwise the
first one is.
-/

namespace RpiNestApi.ShellCommand

open Async

/-- The status, after the value and a space if there is a value. -/
def printed (value status : String) : String :=
  if value = "" then status else value ++ " " ++ status

/-- The text is printed for the value and the status.  There may be white space around it,
and the value has none around it. -/
structure Reports (text value status : String) : Prop where
  trimmed : trim value.toList = value.toList
  around : ∃ before after, (∀ c ∈ before, isWhiteSpace c = true) ∧
    (∀ c ∈ after, isWhiteSpace c = true) ∧
      text.toList = before ++ (printed value status).toList ++ after

/-- The state with these flags and with the value unless it is empty. -/
def RpiConfigurationState.ofValue (value : String) (flags : Bool × Bool) :
    RpiConfigurationState :=
  { ofFlags flags with value := if value = "" then none else some value }

/-- What is returned is the status and the value that the text reports, and only the last
word of the text is ever taken for the status. -/
structure ReadsBack (text : String) (r : Except Exception RpiConfigurationState) : Prop where
  returns : ∀ value status flags, statusFlags status = some flags → Reports text value status →
    r = .ok (.ofValue value flags)
  rejects : (∀ status, (statuses text).getLast? = some status → statusFlags status = none) →
    ∃ e, r = .error e
  lastWord : ∀ state, r = .ok state → ∃ status flags, (statuses text).getLast? = some status ∧
    statusFlags status = some flags ∧ state.isAvailable = flags.1 ∧ state.isEnabled = flags.2

/-- The service takes the text for the usage. -/
def isUsage (text : String) : Bool := "Usage:".toList.isPrefixOf text.toList

/-- A value has no space and is not taken for the usage, and the first of more than two
parts is no status, unless it is that of the last word. -/
structure Readable (text : String) : Prop where
  value : ∀ value status flags, value ≠ "" → statusFlags status = some flags →
    Reports text value status → ' ' ∉ value.toList ∧ isUsage text = false
  first : isUsage text = false → 2 < (statusParts text).length →
    ∀ status flags, (statusParts text).head? = some status → statusFlags status = some flags →
      ∃ last, (statuses text).getLast? = some last ∧ statusFlags last = some flags

/-! ## Trimmed texts -/

theorem dropWhile_eq_self_iff {α : Type} {p : α → Bool} {xs : List α} :
    xs.dropWhile p = xs ↔ ∀ x, xs.head? = some x → p x = false := by
  cases xs with
  | nil => simp
  | cons x xs =>
      cases hx : p x with
      | true =>
          have hlength := (List.dropWhile_suffix p (l := xs)).length_le
          refine iff_of_false (fun h => ?_) (fun h => ?_)
          · rw [List.dropWhile_cons_of_pos hx] at h
            rw [h, List.length_cons] at hlength
            omega
          · rw [h x rfl] at hx
            cases hx
      | false => simp [hx]

theorem rdropWhile_eq_self_iff {α : Type} {p : α → Bool} {xs : List α} :
    xs.rdropWhile p = xs ↔ ∀ x, xs.getLast? = some x → p x = false := by
  rw [List.rdropWhile, List.reverse_eq_iff, dropWhile_eq_self_iff, List.head?_reverse]

/-- A trimmed text begins and ends with no white space. -/
theorem trim_eq_self_iff {text : List Char} : trim text = text ↔
    (∀ c, text.head? = some c → isWhiteSpace c = false) ∧
      ∀ c, text.getLast? = some c → isWhiteSpace c = false := by
  rw [← dropWhile_eq_self_iff, ← rdropWhile_eq_self_iff]
  constructor
  · intro h
    have hdrop : text.dropWhile isWhiteSpace = text := by
      refine (List.dropWhile_suffix _).eq_of_length_le ?_
      have hlength := (List.rdropWhile_prefix isWhiteSpace
        (text.dropWhile isWhiteSpace)).length_le
      rwa [← trim, h] at hlength
    rw [trim, hdrop] at h
    exact ⟨hdrop, h⟩
  · rintro ⟨hdrop, hrdrop⟩
    rw [trim, hdrop, hrdrop]

theorem trim_append {before after : List Char} (hbefore : ∀ c ∈ before, isWhiteSpace c = true)
    (hafter : ∀ c ∈ after, isWhiteSpace c = true) {text : List Char} (h : trim text = text) :
    trim (before ++ text ++ after) = text := by
  obtain ⟨hhead, hlast⟩ := trim_eq_self_iff.mp h
  have hreverse : ∀ c ∈ after.reverse, isWhiteSpace c = true := by simpa using hafter
  rw [trim, List.append_assoc, List.dropWhile_append_of_pos hbefore]
  cases text with
  | nil => rw [List.nil_append, List.dropWhile_eq_nil_iff.mpr hafter, List.rdropWhile_nil]
  | cons c cs =>
      rw [List.cons_append, List.dropWhile_cons_of_neg (by simp [hhead c rfl]), ← List.cons_append,
        List.rdropWhile, List.reverse_append, List.dropWhile_append_of_pos hreverse,
        ← List.rdropWhile, rdropWhile_eq_self_iff.mpr hlast]

/-- The text with its white space around. -/
theorem toList_printed {value status : String} (h : value ≠ "") :
    (printed value status).toList = value.toList ++ ' ' :: status.toList := by
  rw [printed, if_neg h]
  simp

theorem trim_status {status : String} {flags : Bool × Bool}
    (hstatus : statusFlags status = some flags) : trim status.toList = status.toList := by
  obtain ⟨_, hchars⟩ := statusFlags_eq_some hstatus
  exact trim_eq_self_iff.mpr ⟨fun c hc => hchars c (List.mem_of_head? hc),
    fun c hc => hchars c (List.mem_of_getLast? hc)⟩

theorem trim_printed {value status : String} {flags : Bool × Bool}
    (hstatus : statusFlags status = some flags) (hvalue : trim value.toList = value.toList) :
    trim (printed value status).toList = (printed value status).toList := by
  by_cases hempty : value = ""
  · rw [printed, if_pos hempty]
    exact trim_status hstatus
  · have hne : value.toList ≠ [] := by simpa using hempty
    obtain ⟨hhead, _⟩ := trim_eq_self_iff.mp hvalue
    obtain ⟨_, hlast⟩ := trim_eq_self_iff.mp (trim_status hstatus)
    rw [toList_printed hempty, trim_eq_self_iff]
    constructor
    · rw [List.head?_append_of_ne_nil _ hne]
      exact hhead
    · rw [List.getLast?_append_cons, List.getLast?_cons_of_ne_nil (statusFlags_eq_some hstatus).1]
      exact hlast

theorem Reports.trim_eq {text value status : String} {flags : Bool × Bool}
    (h : Reports text value status) (hstatus : statusFlags status = some flags) :
    trim text.toList = (printed value status).toList := by
  obtain ⟨before, after, hbefore, hafter, htext⟩ := h.around
  rw [htext, trim_append hbefore hafter (trim_printed hstatus h.trimmed)]

/-! ## The parts of a text -/

theorem status_no_space {status : String} {flags : Bool × Bool}
    (h : statusFlags status = some flags) : ' ' ∉ status.toList := by
  intro hspace
  have hspace' := (statusFlags_eq_some h).2 ' ' hspace
  cases hspace'

theorem statusParts_status {text status : String} {flags : Bool × Bool}
    (hstatus : statusFlags status = some flags) (h : trim text.toList = status.toList) :
    statusParts text = [status] := by
  rw [statusParts, split, String.toList_ofList, h,
    List.splitOn_eq_singleton (status_no_space hstatus), List.map_singleton, String.ofList_toList]

theorem statusParts_printed {text value status : String} {flags : Bool × Bool}
    (hstatus : statusFlags status = some flags) (hvalue : ' ' ∉ value.toList)
    (h : trim text.toList = value.toList ++ ' ' :: status.toList) :
    statusParts text = [value, status] := by
  rw [statusParts, split, String.toList_ofList, h, List.splitOn_append_cons_self,
    List.splitOn_eq_singleton hvalue, List.splitOn_eq_singleton (status_no_space hstatus)]
  simp

/-- The parts are what is between the spaces. -/
theorem intercalate_statusParts (text : String) :
    [' '].intercalate ((statusParts text).map String.toList) = trim text.toList := by
  have hparts : (statusParts text).map String.toList = (trim text.toList).splitOn ' ' := by
    rw [statusParts, split, String.toList_ofList, List.map_map]
    exact (List.map_congr_left fun part _ => String.toList_ofList).trans (List.map_id _)
  rw [hparts, List.intercalate_splitOn]

theorem no_space_of_mem_statusParts {text part : String} (h : part ∈ statusParts text) :
    ' ' ∉ part.toList := by
  obtain ⟨cs, hcs, rfl⟩ := List.mem_map.mp h
  rw [String.toList_ofList] at hcs ⊢
  exact not_mem_of_mem_splitOn hcs

/-- The last word of a text that ends with a space and a status. -/
theorem getLast?_statuses {text status : String} {flags : Bool × Bool} {before : List Char}
    (hstatus : statusFlags status = some flags)
    (h : trim text.toList = before ++ ' ' :: status.toList) :
    (statuses text).getLast? = some status := by
  obtain ⟨hne, hchars⟩ := statusFlags_eq_some hstatus
  have hspace : isWhiteSpace ' ' = true := rfl
  rw [statuses, ← fields_trim, h, fields_append_cons hspace, fields_singleton hne hchars,
    List.map_append, List.map_singleton, String.ofList_toList, List.getLast?_concat]

theorem statuses_status {text status : String} {flags : Bool × Bool}
    (hstatus : statusFlags status = some flags) (h : trim text.toList = status.toList) :
    statuses text = [status] := by
  obtain ⟨hne, hchars⟩ := statusFlags_eq_some hstatus
  rw [statuses, ← fields_trim, h, fields_singleton hne hchars, List.map_singleton,
    String.ofList_toList]

/-- What is taken for the usage is no status. -/
theorem isUsage_status {text status : String} {flags : Bool × Bool}
    (hstatus : statusFlags status = some flags) (h : trim text.toList = status.toList) :
    isUsage text = false := by
  rw [Bool.eq_false_iff]
  intro husage
  obtain ⟨rest, hrest⟩ := List.isPrefixOf_iff_prefix.mp husage
  have hwords : (text.toList.filter fun c => !isWhiteSpace c) =
      status.toList.filter fun c => !isWhiteSpace c := by
    rw [← flatten_fields, ← fields_trim, h, flatten_fields]
  have hmem : 'U' ∈ text.toList.filter fun c => !isWhiteSpace c := by
    rw [← hrest]
    exact List.mem_filter.mpr ⟨List.mem_append_left _ (by decide), rfl⟩
  rw [hwords] at hmem
  rcases status_cases hstatus with rfl | rfl | rfl <;> exact absurd hmem (by decide)

/-! ## The state that is returned -/

/-- The parts are read as the state. -/
inductive ReadAs (parts : List String) : RpiConfigurationState → Prop where
  | value {value status : String} {flags : Bool × Bool} : parts = [value, status] →
      statusFlags status = some flags →
      ReadAs parts { RpiConfigurationState.ofFlags flags with value := some value }
  | first {status : String} {flags : Bool × Bool} : parts.length ≠ 2 →
      parts.head? = some status → statusFlags status = some flags → ReadAs parts (.ofFlags flags)

theorem readStatus_eq_ok {text : String} {state : RpiConfigurationState} :
    RpiConfigCommandService.readStatus text = .ok state ↔ ReadAs (split ' ' text) state := by
  unfold RpiConfigCommandService.readStatus
  split
  · rename_i value status hparts
    rw [map_eq_ok, hparts]
    constructor
    · rintro ⟨_, hstate, rfl⟩
      obtain ⟨flags, hflags, rfl⟩ := parseStatus_eq_ok.mp hstate
      exact .value rfl hflags
    · rintro (⟨heq, hflags⟩ | ⟨hlength, _, _⟩)
      · cases heq
        exact ⟨_, parseStatus_eq_ok.mpr ⟨_, hflags, rfl⟩, rfl⟩
      · exact absurd rfl hlength
  · rename_i parts hparts
    rw [parseStatus_eq_ok]
    constructor
    · rintro ⟨flags, hflags, rfl⟩
      cases hhead : (split ' ' text).head? with
      | none =>
          rw [hhead] at hflags
          cases hflags
      | some status =>
          rw [hhead] at hflags
          refine .first (fun hlength => ?_) hhead hflags
          obtain ⟨value, last, hpair⟩ := List.length_eq_two.mp hlength
          exact hparts value last hpair
    · rintro (⟨heq, _⟩ | ⟨_, hhead, hflags⟩)
      · exact absurd heq (hparts _ _)
      · exact ⟨_, by rw [hhead]; exact hflags, rfl⟩

theorem getConfigurationStatus_eq_ok {usage text id : String} (hid : id ≠ "")
    {state : RpiConfigurationState} :
    (RpiConfigCommandService.getConfigurationStatus id).eval (prints usage text) = .ok state ↔
      isUsage text = false ∧ ReadAs (statusParts text) state := by
  rw [RpiConfigCommandService.getConfigurationStatus, Prog.bind_def, Prog.eval_bind,
    eval_executeCommand hid, ← isUsage, statusParts, ← readStatus_eq_ok]
  cases isUsage text with
  | true => exact iff_of_false (by rintro ⟨⟩) (by rintro ⟨⟨⟩, _⟩)
  | false =>
      simp only [Bool.false_eq_true, if_false, Except.bind, true_and]
      cases RpiConfigCommandService.readStatus (String.ofList (trim text.toList)) with
      | error e => exact iff_of_false (by rintro ⟨⟩) (by rintro ⟨⟩)
      | ok state' => exact Iff.rfl

section Result

variable {usage text id : String} (hid : id ≠ "")

include hid

/-- A value that is read back has no space. -/
theorem Readable.of_readsBack (h : ReadsBack text
    ((RpiConfigCommandService.getConfigurationStatus id).eval (prints usage text))) :
    Readable text where
  value := by
    intro value status flags hvalue hstatus hreports
    have hok := h.returns value status flags hstatus hreports
    obtain ⟨husage, hread⟩ := (getConfigurationStatus_eq_ok hid).mp hok
    have hsome : (RpiConfigurationState.ofValue value flags).value = some value := if_neg hvalue
    cases hread' : RpiConfigurationState.ofValue value flags with
    | mk isEnabled isAvailable value' =>
        rw [hread'] at hread hsome
        cases hread with
        | value hparts _ =>
            cases hsome
            exact ⟨no_space_of_mem_statusParts (by rw [hparts]; exact List.mem_cons_self), husage⟩
        | first => cases hsome
  first := by
    intro husage hlength status flags hhead hstatus
    have hread : ReadAs (statusParts text) (.ofFlags flags) :=
      .first (Nat.ne_of_gt hlength) hhead hstatus
    obtain ⟨last, flags', hlast, hflags', havailable, henabled⟩ :=
      h.lastWord _ ((getConfigurationStatus_eq_ok hid).mpr ⟨husage, hread⟩)
    have hsame : flags = flags' := Prod.ext havailable henabled
    exact ⟨last, hlast, hsame ▸ hflags'⟩

/-- A value without a space is read back. -/
theorem Readable.returns (h : Readable text) {value status : String} {flags : Bool × Bool}
    (hstatus : statusFlags status = some flags) (hreports : Reports text value status) :
    (RpiConfigCommandService.getConfigurationStatus id).eval (prints usage text) =
      .ok (.ofValue value flags) := by
  have htrim := hreports.trim_eq hstatus
  rw [getConfigurationStatus_eq_ok hid]
  by_cases hvalue : value = ""
  · rw [printed, if_pos hvalue] at htrim
    have hparts := statusParts_status hstatus htrim
    subst hvalue
    exact ⟨isUsage_status hstatus htrim, .first (by simp [hparts]) (by rw [hparts]; rfl) hstatus⟩
  · obtain ⟨hspace, husage⟩ := h.value value status flags hvalue hstatus hreports
    rw [toList_printed hvalue] at htrim
    rw [RpiConfigurationState.ofValue, if_neg hvalue]
    exact ⟨husage, .value (statusParts_printed hstatus hspace htrim) hstatus⟩

/-- The flags are those of the last word. -/
theorem Readable.lastWord (h : Readable text) {state : RpiConfigurationState}
    (hok : (RpiConfigCommandService.getConfigurationStatus id).eval (prints usage text) =
      .ok state) :
    ∃ status flags, (statuses text).getLast? = some status ∧ statusFlags status = some flags ∧
      state.isAvailable = flags.1 ∧ state.isEnabled = flags.2 := by
  obtain ⟨husage, hread⟩ := (getConfigurationStatus_eq_ok hid).mp hok
  have htext := intercalate_statusParts text
  cases hread with
  | @value value status flags hparts hstatus =>
      rw [hparts, List.map_cons, List.map_singleton, List.intercalate_cons_cons,
        List.intercalate_singleton, List.append_assoc, List.singleton_append] at htext
      exact ⟨status, flags, getLast?_statuses hstatus htext.symm, hstatus, rfl, rfl⟩
  | @first status flags hlength hhead hstatus =>
      rcases Nat.lt_or_gt_of_ne hlength with hlt | hgt
      · obtain ⟨rest, hparts⟩ := List.head?_eq_some_iff.mp hhead
        have hrest : rest = [] := by
          rw [hparts, List.length_cons] at hlt
          exact List.length_eq_zero_iff.mp (by omega)
        rw [hparts, hrest, List.map_singleton, List.intercalate_singleton] at htext
        have hwords := statuses_status hstatus htext.symm
        exact ⟨status, flags, by rw [hwords]; rfl, hstatus, rfl, rfl⟩
      · obtain ⟨last, hlast, hflags⟩ := h.first husage hgt status flags hhead hstatus
        exact ⟨last, flags, hlast, hflags, rfl, rfl⟩

/-- The text is read as it is meant if and only if a value in it has no space and does not
begin like the usage, and no word but the last one can be taken for the status. -/
theorem configuration_status : ReadsBack text
    ((RpiConfigCommandService.getConfigurationStatus id).eval (prints usage text)) ↔
      Readable text := by
  refine ⟨.of_readsBack hid, fun h => ?_⟩
  refine ⟨fun value status flags hstatus hreports => h.returns hid hstatus hreports, ?_,
    fun state hok => h.lastWord hid hok⟩
  intro hlast
  cases hr : (RpiConfigCommandService.getConfigurationStatus id).eval (prints usage text) with
  | error e => exact ⟨e, rfl⟩
  | ok state =>
      obtain ⟨status, flags, hstatus, hflags, _⟩ := h.lastWord hid hr
      rw [hlast status hstatus] at hflags
      cases hflags

end Result

/-- A value of one word can be read, whatever else the text might report. -/
theorem readable_someValue : Readable "someValue 2\n" where
  value := by
    intro value status flags hvalue hstatus hreports
    have htrim := hreports.trim_eq hstatus
    have htext : trim "someValue 2\n".toList = "someValue 2".toList := by decide
    rw [htext, toList_printed hvalue] at htrim
    have hspaces := congrArg (List.count ' ') htrim
    have hone : "someValue 2".toList.count ' ' = 1 := by decide
    rw [hone, List.count_append, List.count_cons_self] at hspaces
    exact ⟨List.count_eq_zero.mp (by omega), by decide⟩
  first := by
    intro _ hlength
    have hparts : (statusParts "someValue 2\n").length = 2 := by decide
    omega

theorem configuration_status_ssh : ReadsBack "someValue 2\n"
    ((RpiConfigCommandService.getConfigurationStatus "ssh").eval (prints "" "someValue 2\n")) :=
  (configuration_status (by decide)).mpr readable_someValue

theorem reports_space : Reports "1 a 0" "1 a" "0" where
  trimmed := by decide
  around := ⟨[], [], by simp, by simp, by decide⟩

/-- A word of a value is taken for the status, and so is one of a message. -/
theorem misread_status :
    ¬ ReadsBack "1 a 0"
      ((RpiConfigCommandService.getConfigurationStatus "ssh").eval (prints "" "1 a 0")) ∧
    ¬ ReadsBack "2 not found"
      ((RpiConfigCommandService.getConfigurationStatus "ssh").eval (prints "" "2 not found")) := by
  constructor
  · intro h
    have hread := Readable.of_readsBack (by decide) h
    exact (hread.value "1 a" "0" (true, false) (by decide) rfl reports_space).1 (by decide)
  · intro h
    have hread := Readable.of_readsBack (by decide) h
    obtain ⟨last, hlast, hflags⟩ :=
      hread.first (by decide) (by decide) "2" (false, false) (by decide) rfl
    have hfound : (statuses "2 not found").getLast? = some "found" := by decide
    rw [hfound] at hlast
    cases hlast
    cases hflags

end RpiNestApi.ShellCommand
