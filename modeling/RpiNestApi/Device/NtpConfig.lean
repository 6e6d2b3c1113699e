import Mathlib.Data.List.TakeWhile
import RpiNestApi.Device.DateTimeChanges

/-
The NTP server, written to the configuration file and read back.

The address is put into a template as it is, and a regular expression takes the rest
of the first line that starts with `NTP=`.  The file has the meaning that was asked
for if and only if the address is one line of text.
-/

namespace RpiNestApi.DateTime

open Async Utf16 TIMESYNCD_CONFIG

/-- The lines of a file. -/
def fileLines (content : List UInt8) : List Text :=
  (ofChars (Utf8.decode content)).splitOn 0x000a

/-- Spaces and tabs. -/
def isBlank (line : Text) : Bool := line.all fun u => u == 0x0020 || u == 0x0009

def comment : Text := text "# This file  is generated by rpi-nest-api. Do not modify manually!"

def fallback : Text := text ("FallbackNTP=" ++ " ".intercalate DEFAULT_TIME_SERVER_POOL)

/-- The comment, the header of the section, the one server and the fallback servers. -/
def configLines (address : Text) : List Text :=
  [comment, text "[Time]", text "NTP=" ++ address, fallback]

/-- The file consists of these lines and of blank ones, and the address is read back. -/
structure RoundTrip (host : Host) (address : Text) (w : World) : Prop where
  lines : ∃ content, w.config = some content ∧
    (fileLines content).filter (fun line => !isBlank line) = configLines address
  read : Ends host (fun _ => none) DateTimeService.getNtpAddressFromConfig
    (fun r _ => r = .ok (some address)) w

/-- One line of well-formed text. -/
structure IsLine (address : Text) : Prop where
  wellFormed : isWellFormed address = true
  line : ∀ u ∈ address, isLineTerminator u = false

/-! ## The template -/

section Template

variable {α : Type} {p : α → Bool} {address : Text}

theorem splitOnP_eq_takeWhile (xs : List α) :
    ∃ rest, xs.splitOnP p = xs.takeWhile (fun x => !p x) :: rest := by
  induction xs with
  | nil => exact ⟨[], rfl⟩
  | cons x xs ih =>
      obtain ⟨rest, hrest⟩ := ih
      rw [List.splitOnP_cons_eq_if_modifyHead]
      cases hx : p x with
      | true => exact ⟨_, by simp [hx]; rfl⟩
      | false => exact ⟨rest, by simp [hx, hrest]⟩

/-- A fixed text is tested unit by unit. -/
theorem forall_mem_of_all {q : UInt16 → Bool} {t : Text} (h : (t.all fun u => !q u) = true) :
    ∀ u ∈ t, q u = false := by
  intro u hu
  simpa using List.all_eq_true.mp h u hu

theorem head_eq :
    head = 0x000a :: (comment ++ 0x000a :: (text "[Time]" ++ 0x000a :: text "NTP=")) := by
  decide +kernel

theorem tail_eq : tail = 0x000a :: (fallback ++ 0x000a :: text "  ") := by
  decide +kernel

theorem TEMPLATE_eq (address : Text) :
    TEMPLATE address = 0x000a :: (comment ++ 0x000a :: (text "[Time]" ++ 0x000a ::
      (text "NTP=" ++ address ++ 0x000a :: (fallback ++ 0x000a :: text "  ")))) := by
  simp [TEMPLATE, head_eq, tail_eq]

theorem head_not_surrogate : ∀ u ∈ head, isSurrogate u = false :=
  forall_mem_of_all (by decide +kernel)

theorem tail_not_surrogate : ∀ u ∈ tail, isSurrogate u = false :=
  forall_mem_of_all (by decide +kernel)

/-- A half of a character is replaced in the address, and nowhere else. -/
theorem toWellFormed_TEMPLATE (address : Text) :
    toWellFormed (TEMPLATE address) = TEMPLATE (toWellFormed address) := by
  have htail : toWellFormed tail = tail := by
    have h := toWellFormed_append_of_forall tail_not_surrogate []
    rwa [List.append_nil, show toWellFormed [] = [] from rfl, List.append_nil] at h
  have hfirst : isSurrogate 0x000a = false := rfl
  rw [TEMPLATE, List.append_assoc, toWellFormed_append_of_forall head_not_surrogate, tail_eq,
    toWellFormed_append hfirst, ← toWellFormed_cons hfirst, ← tail_eq, htail, TEMPLATE,
    List.append_assoc]

/-- What is read of a file that was written. -/
theorem decode_TEMPLATE (address : Text) :
    ofChars (Utf8.decode (Utf8.encode (toChars (TEMPLATE address)))) =
      TEMPLATE (toWellFormed address) := by
  rw [Utf8.decode_encode]
  exact toWellFormed_TEMPLATE address

theorem comment_line : ∀ u ∈ comment, isLineTerminator u = false :=
  forall_mem_of_all (by decide +kernel)

theorem section_line : ∀ u ∈ text "[Time]", isLineTerminator u = false :=
  forall_mem_of_all (by decide +kernel)

theorem fallback_line : ∀ u ∈ fallback, isLineTerminator u = false :=
  forall_mem_of_all (by decide +kernel)

/-- Every split at the ends of lines finds the first lines of the file. -/
theorem splitOnP_TEMPLATE {q : UInt16 → Bool} (hfeed : q 0x000a = true)
    (hq : ∀ u, isLineTerminator u = false → q u = false) (address : Text) :
    (TEMPLATE address).splitOnP q = [] :: comment :: text "[Time]" ::
      (text "NTP=" ++ address ++ 0x000a :: (fallback ++ 0x000a :: text "  ")).splitOnP q := by
  rw [TEMPLATE_eq, List.splitOnP_cons_eq_if_modifyHead, if_pos hfeed,
    List.splitOnP_append_cons_of_forall_mem (fun u hu => hq u (comment_line u hu)) _ hfeed,
    List.splitOnP_append_cons_of_forall_mem (fun u hu => hq u (section_line u hu)) _ hfeed]

theorem takeWhile_append_cons {x : α} (hx : p x = false) (xs ys : List α) :
    (xs ++ x :: ys).takeWhile p = xs.takeWhile p := by
  induction xs with
  | nil => simp [hx]
  | cons a xs ih => cases ha : p a <;> simp [ha, ih]

theorem isPrefixOf_append (xs ys : Text) : xs.isPrefixOf (xs ++ ys) = true :=
  List.isPrefixOf_iff_prefix.mpr (List.prefix_append xs ys)

/-- The address is read up to its first line terminator. -/
theorem GET_REGEXP_TEMPLATE (address : Text) :
    GET_REGEXP (TEMPLATE address) = some (address.takeWhile fun u => !isLineTerminator u) := by
  obtain ⟨rest, hrest⟩ := splitOnP_eq_takeWhile (p := isLineTerminator)
    (text "NTP=" ++ address ++ 0x000a :: (fallback ++ 0x000a :: text "  "))
  have hntp : (text "NTP=" ++ address ++ 0x000a :: (fallback ++ 0x000a :: text "  ")).takeWhile
      (fun u => !isLineTerminator u) =
        text "NTP=" ++ address.takeWhile fun u => !isLineTerminator u := by
    rw [takeWhile_append_cons rfl, List.takeWhile_append_of_pos (List.all_eq_true.mp (by decide))]
  have hcomment : (text "NTP=").isPrefixOf comment = false := by decide +kernel
  have hsection : (text "NTP=").isPrefixOf (text "[Time]") = false := by decide
  have hempty : (text "NTP=").isPrefixOf [] = false := by decide
  rw [GET_REGEXP, splitOnP_TEMPLATE rfl fun _ h => h, hrest, hntp]
  simp only [List.findSome?_cons, hempty, hcomment, hsection, isPrefixOf_append, if_true,
    Bool.false_eq_true, if_false]
  rfl

/-- The lines of the file, where the address is one. -/
theorem splitOn_TEMPLATE (h : ∀ u ∈ address, isLineTerminator u = false) :
    ((TEMPLATE address).splitOn 0x000a).filter (fun line => !isBlank line) =
      configLines address := by
  have hfeed : ((0x000a : UInt16) == 0x000a) = true := rfl
  have hterminator : ∀ u, isLineTerminator u = false → (u == 0x000a) = false := by
    intro u hu
    refine beq_eq_false_iff_ne.mpr ?_
    rintro rfl
    cases hu
  have hntp : ∀ u ∈ text "NTP=" ++ address, (u == 0x000a) = false := by
    intro u hu
    rcases List.mem_append.mp hu with hu | hu
    · exact forall_mem_of_all (q := (· == 0x000a)) (t := text "NTP=") (by decide) u hu
    · exact hterminator u (h u hu)
  have hlast : (text "  ").splitOnP (· == 0x000a) = [text "  "] := by decide
  rw [List.splitOn_eq_splitOnP, splitOnP_TEMPLATE (q := (· == 0x000a)) hfeed hterminator,
    List.splitOnP_append_cons_of_forall_mem hntp _ hfeed,
    List.splitOnP_append_cons_of_forall_mem
      (fun u hu => hterminator u (fallback_line u hu)) _ hfeed, hlast]
  have hcomment : isBlank comment = false := by decide +kernel
  have hsection : isBlank (text "[Time]") = false := by decide
  have hserver : isBlank (text "NTP=" ++ address) = false := by
    rw [isBlank, List.all_append]
    rfl
  have hfallback : isBlank fallback = false := by decide +kernel
  have hspaces : isBlank (text "  ") = true := by decide
  have hempty : isBlank [] = true := rfl
  simp [hcomment, hsection, hserver, hfallback, hspaces, hempty, configLines]

end Template

/-! ## The round trip -/

section RoundTrip

variable {host : Host} {fails : Failures} {address : Text} {w w' : World}

/-- The configuration that was written for the address. -/
def Written (address : Text) (w : World) : Prop :=
  w.config = some (Utf8.encode (toChars (TEMPLATE address)))

theorem Written.later (h : Written address w) (htime : TimePasses w w') : Written address w' := by
  obtain ⟨d, rfl⟩ := htime
  exact h

theorem getNtpAddressFromConfig_ends {post : Except Exception (Option Text) → World → Prop}
    (h : Written address w) :
    Ends host (fun _ => none) DateTimeService.getNtpAddressFromConfig post w ↔
      ∀ w', TimePasses w w' → post (.ok (GET_REGEXP (TEMPLATE (toWellFormed address)))) w' := by
  simp only [Ends, DateTimeService.getNtpAddressFromConfig, Prog.bind_def, Prog.pure_def,
    Prog.tryCatch_def, Prog.ends_catchWith, Prog.ends_bind]
  refine ends_await.trans (forall₂_congr fun w₀ hw₀ => ?_)
  rw [settle, h.later hw₀]
  simp only [unlessFails, decode_TEMPLATE]
  exact Iff.rfl

/-- What is read back is the address if and only if it is one line. -/
theorem takeWhile_toWellFormed_iff :
    (toWellFormed address).takeWhile (fun u => !isLineTerminator u) = address ↔
      IsLine address := by
  constructor
  · intro h
    have hall : (toWellFormed address).takeWhile (fun u => !isLineTerminator u) =
        toWellFormed address := by
      refine (List.takeWhile_prefix _).eq_of_length ?_
      rw [h, length_toWellFormed]
    have hsame : toWellFormed address = address := hall.symm.trans h
    refine ⟨toWellFormed_eq_iff.mp hsame, fun u hu => ?_⟩
    rw [← h] at hu
    simpa using List.mem_takeWhile_imp hu
  · rintro ⟨hwell, hline⟩
    rw [toWellFormed_eq_iff.mpr hwell, List.takeWhile_eq_self_iff]
    exact fun u hu => by rw [hline u hu]; rfl

/-- The round trip of what was written. -/
theorem Written.roundTrip_iff (h : Written address w) :
    RoundTrip host address w ↔ IsLine address := by
  have hread : Ends host (fun _ => none) DateTimeService.getNtpAddressFromConfig
      (fun r _ => r = .ok (some address)) w ↔ IsLine address := by
    rw [getNtpAddressFromConfig_ends h, GET_REGEXP_TEMPLATE, ← takeWhile_toWellFormed_iff]
    refine ⟨fun hall => ?_, fun heq w' _ => by rw [heq]⟩
    exact Option.some.inj (Except.ok.inj (hall w (.refl w)))
  refine ⟨fun hround => hread.mp hround.read, fun hline => ⟨⟨_, h, ?_⟩, hread.mpr hline⟩⟩
  rw [fileLines, decode_TEMPLATE, toWellFormed_eq_iff.mpr hline.wellFormed]
  exact splitOn_TEMPLATE hline.line

theorem RoundTrip.isLine (hround : RoundTrip host address w) (h : Written address w) :
    IsLine address :=
  h.roundTrip_iff.mp hround

/-- Whatever succeeds of `setNtp`, the file is written. -/
theorem setNtp_written (hne : address ≠ []) (isNtpEnabled : Bool) :
    Ends host fails
      (DateTimeService.setNtp { ntpServer := .string address, isNtpEnabled })
      (fun r w' => r = .ok () → Written address w') w := by
  have herror : ∀ {e w'}, (.error e : Except Exception Unit) = .ok () → Written address w' :=
    fun he => (by cases he)
  have htrue : (Property.string address).isTrue = true := by simpa [Property.isTrue] using hne
  rw [DateTimeService.setNtp]
  refine Prog.ends_ite.mpr ⟨fun _ => ?_, fun hfalse => absurd htrue hfalse⟩
  simp only [DateTimeService.writeNtpAddressToConfig, Property.text, Systemd1Service.restartUnit,
    TimeDate1Service.enableNTP, Prog.bind_def, Prog.ends_bind]
  refine ends_unlessFails (fun _ => rfl) (fun _ w₁ h₁ => ?_) fun _ _ _ _ => herror
  have hwritten : Written address
      { w₁ with config := some (Utf8.encode (toChars (TEMPLATE address))) } := rfl
  refine ends_unlessFails (fun _ => rfl) (fun _ w₂ h₂ => ?_) fun _ _ _ _ => herror
  refine ends_unlessFails (fun _ => rfl) (fun _ w₃ h₃ => ?_) fun _ _ _ _ => herror
  refine ends_unlessFails (fun _ => rfl) (fun _ w₄ h₄ => ?_) fun _ _ _ _ => herror
  refine ends_unlessFails (fun _ => rfl) (fun _ w₅ h₅ => ?_) fun _ _ _ _ => herror
  have hlater : Written address w₅ := hwritten.later (((h₂.trans h₃).trans h₄).trans h₅)
  exact fun _ => hlater

end RoundTrip

/-- After `setNtp` the file has the meaning that was asked for, and the address is read
back, if and only if the address is one line of well-formed text. -/
theorem ntp_round_trip (host : Host) {address : Text} (hne : address ≠ []) (isNtpEnabled : Bool)
    (w : World) :
    (∀ fails, Ends host fails
        (DateTimeService.setNtp { ntpServer := .string address, isNtpEnabled })
        (fun r w' => r = .ok () → RoundTrip host address w') w) ↔
      IsLine address := by
  constructor
  · intro h
    have hrun := (h fun _ => none).run TimePasses.refl fun q w => ⟨(), trivial, rfl⟩
    obtain ⟨u, rest, rfl⟩ := List.exists_cons_of_ne_nil hne
    exact (hrun rfl).isLine rfl
  · intro hline fails
    exact (setNtp_written hne isNtpEnabled).mono fun r w' h hr => (h hr).roundTrip_iff.mpr hline

theorem serverLine : IsLine (text "time.example.org") :=
  ⟨by decide, forall_mem_of_all (by decide)⟩

theorem ntp_round_trip_server : text "time.example.org" ≠ [] ∧
    ∀ fails, Ends berlinHost fails (DateTimeService.setNtp customServer)
      (fun r w' => r = .ok () → RoundTrip berlinHost (text "time.example.org") w')
      berlinWorld :=
  ⟨by decide, (ntp_round_trip berlinHost (by decide) true berlinWorld).mpr serverLine⟩

/-- An address that goes on with another server in a second line. -/
def twoServers : Text := text "a\nNTP=b"

theorem ntp_server_added : ¬ ∀ fails, Ends berlinHost fails
    (DateTimeService.setNtp { ntpServer := .string twoServers, isNtpEnabled := true })
    (fun r w' => r = .ok () → RoundTrip berlinHost twoServers w') berlinWorld := by
  intro h
  have hrun := (h fun _ => none).run TimePasses.refl fun q w => ⟨(), trivial, rfl⟩
  exact absurd (((hrun rfl).isLine rfl).line 0x000a (by decide)) (by decide)

end RpiNestApi.DateTime
