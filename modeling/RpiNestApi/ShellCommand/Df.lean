import RpiNestApi.Numbers.Numerals
import RpiNestApi.ShellCommand.RpiConfig

/-
The disk space of the root filesystem.

`df` prints a header and a line with two numbers, each right-aligned in its column.  The
service splits the line at every space, so that only numbers with one space between them
and none before them are found, and reads what each of the first two parts begins with.
-/

namespace RpiNestApi.ShellCommand

open Async Rounding

structure DiskSpaceInformation where
  available : Number
  used : Number
  deriving DecidableEq

namespace DfCommandService

def dfExecutable : String := "/usr/bin/df"

def getDiskSpaceInformation : Service DiskSpaceInformation := do
  let result ← ChildProcessService.spawn dfExecutable ["/", "--output=used,avail"] false
  -- The first line has the header.
  let values := (split '\n' result)[1]?.getD ""
  match (split ' ' values).map parseInt with
  | used :: available :: _ =>
    if !available.isInteger || !used.isInteger then
      throw (.error "df returned unparsable result")
    else return { available, used }
  | _ => throw (.error "df returned unparsable result")

end DfCommandService

/-! ## Tables -/

/-- A table of `df`: the numbers stand in columns, with `padding` spaces before the first one
and `gap` more than one space between them. -/
structure DfTable where
  header : String
  padding : ℕ
  used : ℕ
  gap : ℕ
  avail : ℕ
  oneLine : '\n' ∉ header.toList

namespace DfTable

def row (t : DfTable) : List Char :=
  List.replicate t.padding ' ' ++ (t.used.repr.toList ++ (' ' :: List.replicate t.gap ' ' ++
    t.avail.repr.toList))

def text (t : DfTable) : String :=
  String.ofList (t.header.toList ++ '\n' :: (t.row ++ ['\n']))

end DfTable

def secondLine (text : String) : List Char := (text.toList.splitOn '\n')[1]?.getD []

/-- The line is two numerals, separated by spaces. -/
def TwoNumerals (line : List Char) : Prop :=
  ∃ a b, fields (· == ' ') line = [a, b] ∧ IsNumeral a ∧ IsNumeral b

/-- A table gives its numbers, and what is no line of two numbers is rejected. -/
structure ReadsTable (text : String) (r : Except Exception DiskSpaceInformation) : Prop where
  returns : ∀ t : DfTable, text = t.text →
    r = .ok { available := .finite t.avail, used := .finite t.used }
  rejects : ¬ TwoNumerals (secondLine text) → ∃ e, r = .error e

/-- The text begins, after white space, with an integer that is not too large. -/
def BeginsWithInteger (text : List Char) : Prop :=
  ∃ n : ℤ, integerPrefix text = some n ∧ |(n : ℚ)| < Number.limit

/-- The first two parts between single spaces begin with integers. -/
def BeginsWithIntegers (line : List Char) : Prop :=
  ∃ used avail rest, line.splitOn ' ' = used :: avail :: rest ∧ BeginsWithInteger used ∧
    BeginsWithInteger avail

/-- The numbers of a table are exact and stand at the beginning with one space between
them, and other lines do not begin like that. -/
structure ReadableTable (text : String) : Prop where
  table : ∀ t : DfTable, text = t.text → t.padding = 0 ∧ t.gap = 0 ∧
    binary64.Representable t.used ∧ binary64.Representable t.avail
  other : ¬ TwoNumerals (secondLine text) → ¬ BeginsWithIntegers (secondLine text)

/-! ## What is returned -/

theorem secondLine_eq (text : String) :
    (split '\n' text)[1]?.getD "" = String.ofList (secondLine text) := by
  rw [split, secondLine, List.getElem?_map]
  cases (text.toList.splitOn '\n')[1]? with
  | none => rfl
  | some line => rfl

theorem isInteger_part {part : List Char} :
    (parseInt (String.ofList part)).isInteger = true ↔ BeginsWithInteger part := by
  rw [isInteger_parseInt, String.toList_ofList, BeginsWithInteger]

/-- The process that the service spawns. -/
def dfSpawn : Spawn where
  command := DfCommandService.dfExecutable
  args := ["/", "--output=used,avail"]
  shell := false

theorem getDiskSpaceInformation_eq_ok {answer : Spawn → Except Exception String} {text : String}
    (h : answer dfSpawn = .ok text) {info : DiskSpaceInformation} :
    DfCommandService.getDiskSpaceInformation.eval answer = .ok info ↔
      ∃ used avail rest, (secondLine text).splitOn ' ' = used :: avail :: rest ∧
        BeginsWithInteger used ∧ BeginsWithInteger avail ∧
          info = { available := parseInt (String.ofList avail),
                   used := parseInt (String.ofList used) } := by
  have hspawn : (ChildProcessService.spawn DfCommandService.dfExecutable
      ["/", "--output=used,avail"] false).eval answer = .ok text :=
    (Prog.eval_call answer dfSpawn).trans h
  rw [DfCommandService.getDiskSpaceInformation, Prog.bind_def, Prog.eval_bind, hspawn]
  simp only [Except.bind, secondLine_eq]
  rw [split, String.toList_ofList]
  rcases (secondLine text).splitOn ' ' with _ | ⟨used, _ | ⟨avail, rest⟩⟩
  · exact iff_of_false (by rintro ⟨⟩) (by simp)
  · exact iff_of_false (by rintro ⟨⟩) (by simp)
  · simp only [List.map_cons, List.cons.injEq]
    split
    · rename_i hnot
      refine iff_of_false (by rintro ⟨⟩) ?_
      rintro ⟨_, _, _, ⟨rfl, rfl, rfl⟩, hused, havail, _⟩
      rw [← isInteger_part] at hused havail
      rw [hused, havail] at hnot
      cases hnot
    · rename_i hboth
      rw [Bool.not_eq_true, Bool.or_eq_false_iff, Bool.not_eq_false', Bool.not_eq_false',
        isInteger_part, isInteger_part] at hboth
      constructor
      · rintro ⟨⟩
        exact ⟨used, avail, rest, ⟨rfl, rfl, rfl⟩, hboth.2, hboth.1, rfl⟩
      · rintro ⟨_, _, _, ⟨rfl, rfl, rfl⟩, _, _, rfl⟩
        rfl

/-! ## The numbers of a table -/

theorem DfTable.secondLine_text (t : DfTable) : secondLine t.text = t.row := by
  have hrow : '\n' ∉ t.row := by
    have hused := (isNumeral_repr t.used).notMem (c := '\n') rfl
    have havail := (isNumeral_repr t.avail).notMem (c := '\n') rfl
    simp [DfTable.row, hused, havail, -Nat.toList_repr]
  rw [secondLine, DfTable.text, String.toList_ofList, List.splitOn_append_cons_self,
    List.splitOn_eq_singleton t.oneLine, List.splitOn_append_cons_self,
    List.splitOn_eq_singleton hrow]
  rfl

theorem space_not_mem_repr (n : ℕ) : ' ' ∉ n.repr.toList :=
  (isNumeral_repr n).notMem rfl

/-- The parts of a line that begins with a part and a space. -/
theorem splitOn_part {part : List Char} (h : ' ' ∉ part) (rest : List Char) :
    (part ++ ' ' :: rest).splitOn ' ' = part :: rest.splitOn ' ' := by
  rw [List.splitOn_append_cons_self, List.splitOn_eq_singleton h]
  rfl

theorem not_beginsWithInteger_nil : ¬ BeginsWithInteger [] := by
  rintro ⟨n, hn, _⟩
  cases hn

/-- Only a table without padding has a number in front of the first space. -/
theorem DfTable.padding_eq_zero {t : DfTable} (h : BeginsWithIntegers t.row) : t.padding = 0 := by
  obtain ⟨used, avail, rest, hparts, hused, _⟩ := h
  cases hpadding : t.padding with
  | zero => rfl
  | succ k =>
      have hrow := splitOn_part (List.not_mem_nil (a := ' '))
        (List.replicate k ' ' ++ (t.used.repr.toList ++ (' ' :: List.replicate t.gap ' ' ++
          t.avail.repr.toList)))
      rw [DfTable.row, hpadding, List.replicate_succ, List.cons_append] at hparts
      rw [List.nil_append, hparts] at hrow
      rw [(List.cons.inj hrow).1] at hused
      exact absurd hused not_beginsWithInteger_nil

theorem DfTable.gap_eq_zero {t : DfTable} (h : BeginsWithIntegers t.row)
    (hpadding : t.padding = 0) : t.gap = 0 := by
  obtain ⟨used, avail, rest, hparts, _, havail⟩ := h
  rw [DfTable.row, hpadding, List.replicate_zero, List.nil_append, List.cons_append,
    splitOn_part (space_not_mem_repr t.used)] at hparts
  cases hgap : t.gap with
  | zero => rfl
  | succ k =>
      have hrow := splitOn_part (List.not_mem_nil (a := ' '))
        (List.replicate k ' ' ++ t.avail.repr.toList)
      rw [List.nil_append] at hrow
      rw [hgap, List.replicate_succ, List.cons_append, hrow] at hparts
      simp only [List.cons.injEq] at hparts
      rw [← hparts.2.1] at havail
      exact absurd havail not_beginsWithInteger_nil

/-- A table without padding has the numbers as its parts. -/
theorem DfTable.splitOn_row {t : DfTable} (hpadding : t.padding = 0) (hgap : t.gap = 0) :
    t.row.splitOn ' ' = [t.used.repr.toList, t.avail.repr.toList] := by
  rw [DfTable.row, hpadding, hgap, List.replicate_zero, List.nil_append, List.cons_append,
    List.nil_append, splitOn_part (space_not_mem_repr t.used),
    List.splitOn_eq_singleton (space_not_mem_repr t.avail)]

theorem parseInt_repr (n : ℕ) : parseInt (String.ofList n.repr.toList) = .ofRat n := by
  rw [parseInt_numeral (isNumeral_repr n), natOf_repr]

theorem beginsWithInteger_repr {n : ℕ} (h : binary64.Representable n) :
    BeginsWithInteger n.repr.toList := by
  rw [← isInteger_part, parseInt_repr, Number.ofRat_eq_self.mpr h]
  rfl

/-! ## Reading tables -/

theorem ReadableTable.of_readsTable {text : String} (h : ReadsTable text
    (DfCommandService.getDiskSpaceInformation.eval fun _ => .ok text)) : ReadableTable text where
  table := by
    rintro t rfl
    have hok := h.returns t rfl
    obtain ⟨used, avail, rest, hparts, hused, havail, hinfo⟩ :=
      (getDiskSpaceInformation_eq_ok rfl).mp hok
    rw [t.secondLine_text] at hparts
    have hbegins : BeginsWithIntegers t.row := ⟨used, avail, rest, hparts, hused, havail⟩
    have hpadding := DfTable.padding_eq_zero hbegins
    have hgap := DfTable.gap_eq_zero hbegins hpadding
    rw [DfTable.splitOn_row hpadding hgap] at hparts
    cases hparts
    rw [parseInt_repr, parseInt_repr, DiskSpaceInformation.mk.injEq] at hinfo
    exact ⟨hpadding, hgap, Number.ofRat_eq_self.mp hinfo.2.symm,
      Number.ofRat_eq_self.mp hinfo.1.symm⟩
  other := by
    rintro hline ⟨used, avail, rest, hparts, hused, havail⟩
    obtain ⟨e, he⟩ := h.rejects hline
    have hinfo : DfCommandService.getDiskSpaceInformation.eval (fun _ => .ok text) = .ok _ :=
      (getDiskSpaceInformation_eq_ok rfl).mpr ⟨used, avail, rest, hparts, hused, havail, rfl⟩
    rw [he] at hinfo
    cases hinfo

/-- A table is read and any other line rejected if and only if the numbers of a table are
doubles, stand at the beginning and have one space between them, and no other line has
integers at the beginning of its first two parts. -/
theorem disk_space_information (text : String) : ReadsTable text
    (DfCommandService.getDiskSpaceInformation.eval fun _ => .ok text) ↔ ReadableTable text := by
  refine ⟨.of_readsTable, fun h => ⟨?_, ?_⟩⟩
  · rintro t rfl
    obtain ⟨hpadding, hgap, hused, havail⟩ := h.table t rfl
    rw [getDiskSpaceInformation_eq_ok rfl, t.secondLine_text]
    refine ⟨_, _, _, DfTable.splitOn_row hpadding hgap, beginsWithInteger_repr hused,
      beginsWithInteger_repr havail, ?_⟩
    rw [parseInt_repr, parseInt_repr, Number.ofRat_eq_self.mpr hused,
      Number.ofRat_eq_self.mpr havail]
  · intro hline
    cases hr : DfCommandService.getDiskSpaceInformation.eval fun _ => .ok text with
    | error e => exact ⟨e, rfl⟩
    | ok info =>
        obtain ⟨used, avail, rest, hparts, hused, havail, _⟩ :=
          (getDiskSpaceInformation_eq_ok rfl).mp hr
        exact absurd ⟨used, avail, rest, hparts, hused, havail⟩ (h.other hline)

/-- What `df` prints for two small numbers. -/
def paddedTable : DfTable where
  header := "    Used   Avail"
  padding := 4
  used := 1337
  gap := 5
  avail := 42
  oneLine := by decide

/-- A padded table is rejected, and a line with units is read. -/
theorem disk_space_misread :
    ¬ ReadsTable paddedTable.text
      (DfCommandService.getDiskSpaceInformation.eval fun _ => .ok paddedTable.text) ∧
    ¬ ReadsTable "Used Avail\n12G 34G"
      (DfCommandService.getDiskSpaceInformation.eval fun _ => .ok "Used Avail\n12G 34G") := by
  constructor
  · intro h
    have hpadding := ((ReadableTable.of_readsTable h).table paddedTable rfl).1
    cases hpadding
  · intro h
    have hline : secondLine "Used Avail\n12G 34G" = "12G 34G".toList := by decide
    refine (ReadableTable.of_readsTable h).other ?_ ?_
    · rw [hline]
      rintro ⟨a, b, hfields, ha, _⟩
      have hparts : fields (· == ' ') "12G 34G".toList = ["12G".toList, "34G".toList] := by decide
      rw [hparts] at hfields
      rw [← (List.cons.inj hfields).1] at ha
      exact absurd (ha.digits 'G' (by decide)) (by decide)
    · rw [hline]
      have hsmall : ∀ n : ℤ, |n| ≤ 2 ^ 6 → |(n : ℚ)| < Number.limit := by
        intro n hn
        exact Number.lt_limit (k := 6) (by decide) (by exact_mod_cast hn)
      exact ⟨"12G".toList, "34G".toList, [], by decide, ⟨12, by decide, hsmall 12 (by decide)⟩,
        34, by decide, hsmall 34 (by decide)⟩

end RpiNestApi.ShellCommand
