import RpiNestApi.Shell.Words
import RpiNestApi.ShellCommand.RpiConfig

/-
The list of installed packages.

`dpkg-query` prints the fields of each package joined by a separator, and ends each
package with a line break.  The service splits what is printed at the line breaks and
each line at the separators.
-/

namespace RpiNestApi.ShellCommand

open Async

inductive DpkgArgument where
  | format
  | show

def DpkgArgument.name : DpkgArgument → String
  | .format => "--showformat"
  | .show => "--show"

inductive DpkgFieldName where
  | package
  | version
  | architecture
  | section
  | summary
  | homepage
  deriving DecidableEq, Repr

def DpkgFieldName.name : DpkgFieldName → String
  | .package => "Package"
  | .version => "Version"
  | .architecture => "Architecture"
  | .section => "Section"
  | .summary => "binary:Summary"
  | .homepage => "Homepage"

def dpkgOutputFields : List DpkgFieldName :=
  [.package, .version, .architecture, .section, .summary, .homepage]

/-- A field is `undefined` where the line has no value for it. -/
abbrev PackageInfo := DpkgFieldName → Option String

namespace DpkgCommandService

def dpkgExecutable : String := "/usr/bin/dpkg-query"

def separator : Char := '|'

def buildShowFormatArgument : String :=
  let wrappedFields := dpkgOutputFields.map fun x => "$\x7b" ++ x.name ++ "\x7d"
  DpkgArgument.format.name ++ "='" ++ (String.singleton separator).intercalate wrappedFields ++
    "\\n'"

def parseDpkgOutputLine (line : String) : PackageInfo :=
  let values := split separator line
  dpkgOutputFields.zipIdx.foldl
    (fun result (fieldName, i) => Function.update result fieldName values[i]?) fun _ => none

def getInstalledPackages : Service (List PackageInfo) := do
  let showFormatArgument := buildShowFormatArgument
  -- The shell is `/bin/bash`.
  let output ← ChildProcessService.spawn dpkgExecutable
    [DpkgArgument.show.name, showFormatArgument] true
  let lines := split '\n' output
  return lines.map parseDpkgOutputLine

end DpkgCommandService

/-! ## The packages that are printed -/

/-- An installed package.  The fields have no line break. -/
structure Package where
  field : DpkgFieldName → String
  oneLine : ∀ name, '\n' ∉ (field name).toList

namespace Package

/-- The field of the name, which is empty where there is none. -/
def value (p : Package) (name : List Char) : List Char :=
  match dpkgOutputFields.find? fun x => x.name.toList == name with
  | some x => (p.field x).toList
  | none => []

def info (p : Package) : PackageInfo := fun name => some (p.field name)

end Package

/-- What `dpkg-query` prints for a format, in or outside of the name of a field.  Of the
escapes only the line break is there. -/
def showFormat (value : List Char → List Char) : Option (List Char) → List Char → List Char
  | _, [] => []
  | none, '$' :: '{' :: cs => showFormat value (some []) cs
  | none, '\\' :: 'n' :: cs => '\n' :: showFormat value none cs
  | none, c :: cs => c :: showFormat value none cs
  | some name, c :: cs =>
    if c = '}' then value name.reverse ++ showFormat value none cs
    else showFormat value (some (c :: name)) cs

/-- `dpkg-query`, where these packages are installed. -/
def dpkgQuery (packages : List Package) (p : Spawn) : Except Exception String :=
  let option := "--showformat=".toList
  match Shell.words .posix p.line.toList with
  | some [command, show', argument] =>
    if command = "/usr/bin/dpkg-query".toList ∧ show' = "--show".toList ∧
        option.isPrefixOf argument then
      .ok (String.ofList
        (packages.flatMap fun p => showFormat p.value none (argument.drop option.length)))
    else .error (.error "dpkg-query: error")
  | _ => .error (.error "dpkg-query: error")

/-- The name of a field, as it stands in the format. -/
def wrapped (name : List Char) : List Char := '$' :: '{' :: (name ++ ['}'])

theorem showFormat_name {value : List Char → List Char} {name : List Char} (h : '}' ∉ name)
    (acc cs : List Char) :
    showFormat value (some acc) (name ++ '}' :: cs) =
      value (acc.reverse ++ name) ++ showFormat value none cs := by
  induction name generalizing acc with
  | nil => simp [showFormat]
  | cons c name ih =>
      obtain ⟨hc, hname⟩ := List.ne_and_not_mem_of_not_mem_cons h
      rw [List.cons_append, showFormat, if_neg (Ne.symm hc), ih hname, List.reverse_cons,
        List.append_assoc, List.singleton_append]

theorem showFormat_wrapped {value : List Char → List Char} {name : List Char} (h : '}' ∉ name)
    (cs : List Char) :
    showFormat value none (wrapped name ++ cs) = value name ++ showFormat value none cs := by
  rw [wrapped, List.cons_append, List.cons_append, List.append_assoc, List.singleton_append,
    showFormat, showFormat_name h, List.reverse_nil, List.nil_append]

/-- The fields are printed in the order of the names. -/
theorem showFormat_intercalate {value : List Char → List Char} {names : List (List Char)}
    (h : ∀ name ∈ names, '}' ∉ name) (cs : List Char) :
    showFormat value none (['|'].intercalate (names.map wrapped) ++ cs) =
      ['|'].intercalate (names.map value) ++ showFormat value none cs := by
  induction names with
  | nil => rfl
  | cons name names ih =>
      have hname := h name List.mem_cons_self
      cases names with
      | nil =>
          rw [List.map_singleton, List.map_singleton, List.intercalate_singleton,
            List.intercalate_singleton, showFormat_wrapped hname]
      | cons name' names =>
          have hnames := ih fun q hq => h q (List.mem_cons_of_mem name hq)
          simp only [List.map_cons, List.intercalate_cons_cons, List.append_assoc] at hnames ⊢
          rw [showFormat_wrapped hname, List.singleton_append, List.singleton_append, showFormat,
            hnames]
          · simp
          · simp

/-- The line of a package. -/
def Package.line (p : Package) : List Char :=
  ['|'].intercalate (dpkgOutputFields.map fun x => (p.field x).toList)

/-- The format that the service asks for. -/
def format : List Char :=
  ['|'].intercalate (dpkgOutputFields.map fun x => wrapped x.name.toList) ++ "\\n".toList

theorem Package.value_name (p : Package) (x : DpkgFieldName) :
    p.value x.name.toList = (p.field x).toList := by
  cases x <;> rfl

theorem showFormat_format (p : Package) : showFormat p.value none format = p.line ++ ['\n'] := by
  have hnames : ∀ name ∈ dpkgOutputFields.map fun x => x.name.toList, '}' ∉ name := by
    intro name hname
    obtain ⟨x, _, rfl⟩ := List.mem_map.mp hname
    cases x <;> decide
  have hvalues : (dpkgOutputFields.map fun x => x.name.toList).map p.value =
      dpkgOutputFields.map fun x => (p.field x).toList := by
    rw [List.map_map]
    exact List.map_congr_left fun x _ => p.value_name x
  have hwrapped : (dpkgOutputFields.map fun x => wrapped x.name.toList) =
      (dpkgOutputFields.map fun x => x.name.toList).map wrapped := by rw [List.map_map]; rfl
  rw [format, hwrapped, showFormat_intercalate hnames, hvalues, Package.line]
  rfl

/-- The process that the service spawns. -/
def showSpawn : Spawn where
  command := DpkgCommandService.dpkgExecutable
  args := [DpkgArgument.show.name, DpkgCommandService.buildShowFormatArgument]
  shell := true

theorem dpkgQuery_showSpawn (packages : List Package) : dpkgQuery packages showSpawn =
    .ok (String.ofList ((packages.map Package.line).flatMap fun line => line ++ ['\n'])) := by
  have hwords : Shell.words .posix showSpawn.line.toList =
      some ["/usr/bin/dpkg-query".toList, "--show".toList, "--showformat=".toList ++ format] := by
    decide +kernel
  have hoption : "--showformat=".toList.isPrefixOf ("--showformat=".toList ++ format) = true :=
    List.isPrefixOf_iff_prefix.mpr (List.prefix_append _ _)
  rw [dpkgQuery, hwords]
  simp only [hoption, and_self, if_true, List.drop_left, showFormat_format, List.flatMap_map]

/-! ## The packages that are read -/

theorem parseDpkgOutputLine_apply (line : String) (x : DpkgFieldName) :
    DpkgCommandService.parseDpkgOutputLine line x =
      (split '|' line)[dpkgOutputFields.idxOf x]? := by
  cases x <;> rfl

/-- A line is read as the package if and only if no field has a separator. -/
theorem parseDpkgOutputLine_line (p : Package) :
    DpkgCommandService.parseDpkgOutputLine (String.ofList p.line) = p.info ↔
      ∀ x, '|' ∉ (p.field x).toList := by
  have hmem : ∀ x, x ∈ dpkgOutputFields := by
    intro x
    cases x <;> decide
  constructor
  · intro h x
    have hx := congrFun h x
    rw [parseDpkgOutputLine_apply, split, String.toList_ofList, Package.info] at hx
    obtain ⟨part, hpart, hfield⟩ := List.mem_map.mp (List.mem_of_getElem? hx)
    rw [← hfield, String.toList_ofList]
    exact not_mem_of_mem_splitOn hpart
  · intro h
    have hfields : ∀ part ∈ dpkgOutputFields.map fun x => (p.field x).toList, '|' ∉ part := by
      intro part hpart
      obtain ⟨x, _, rfl⟩ := List.mem_map.mp hpart
      exact h x
    have hline : split '|' (String.ofList p.line) = dpkgOutputFields.map p.field := by
      have hne : (dpkgOutputFields.map fun x => (p.field x).toList) ≠ [] := List.cons_ne_nil _ _
      rw [split, String.toList_ofList, Package.line, List.splitOn_intercalate _ hfields hne,
        List.map_map]
      exact List.map_congr_left fun x _ => String.ofList_toList
    funext x
    rw [parseDpkgOutputLine_apply, hline, List.getElem?_map,
      List.getElem?_idxOf (hmem x)]
    rfl

theorem Package.line_oneLine (p : Package) : '\n' ∉ p.line := by
  refine not_mem_intercalate (by decide) fun part hpart => ?_
  obtain ⟨x, _, rfl⟩ := List.mem_map.mp hpart
  exact p.oneLine x

/-- The lines are those of the packages, and an empty one. -/
theorem eval_getInstalledPackages (packages : List Package) :
    DpkgCommandService.getInstalledPackages.eval (dpkgQuery packages) =
      .ok (packages.map (fun p => DpkgCommandService.parseDpkgOutputLine (String.ofList p.line)) ++
        [DpkgCommandService.parseDpkgOutputLine ""]) := by
  have hlines : ∀ line ∈ packages.map Package.line, '\n' ∉ line := by
    intro line hline
    obtain ⟨p, _, rfl⟩ := List.mem_map.mp hline
    exact p.line_oneLine
  have hspawn : (ChildProcessService.spawn DpkgCommandService.dpkgExecutable
      [DpkgArgument.show.name, DpkgCommandService.buildShowFormatArgument] true).eval
        (dpkgQuery packages) = _ :=
    (Prog.eval_call _ showSpawn).trans (dpkgQuery_showSpawn packages)
  rw [DpkgCommandService.getInstalledPackages, Prog.bind_def, Prog.eval_bind, hspawn]
  simp only [Except.bind, Prog.pure_def, Prog.eval_ret, split, String.toList_ofList,
    splitOn_lines hlines, List.map_append, List.map_map, List.map_singleton, Function.comp_def]

/-- There is always one more entry than there are packages.  The other entries are right
if and only if no field has a separator. -/
theorem packages_misread (packages : List Package) : ∃ infos,
    DpkgCommandService.getInstalledPackages.eval (dpkgQuery packages) = .ok infos ∧
      infos ≠ packages.map Package.info ∧ infos.length = packages.length + 1 ∧
        ∀ (i : Nat) (p : Package), packages[i]? = some p →
          (infos[i]? = some p.info ↔ ∀ x, '|' ∉ (p.field x).toList) := by
  refine ⟨_, eval_getInstalledPackages packages, ?_, by simp, ?_⟩
  · intro h
    have hlength := congrArg List.length h
    simp at hlength
  · intro i p hp
    obtain ⟨hi, _⟩ := List.getElem?_eq_some_iff.mp hp
    rw [List.getElem?_append_left (by rwa [List.length_map]), List.getElem?_map, hp,
      ← parseDpkgOutputLine_line]
    simp

/-- A package whose summary has a separator. -/
def pipes : Package where
  field
    | .package => "pv"
    | .version => "1.6"
    | .architecture => "arm64"
    | .section => "utils"
    | .summary => "monitor for a | b"
    | .homepage => ""
  oneLine := by
    intro x
    cases x <;> decide

theorem packages_not_read :
    DpkgCommandService.getInstalledPackages.eval (dpkgQuery []) ≠ .ok [] ∧
      ∀ infos, DpkgCommandService.getInstalledPackages.eval (dpkgQuery [pipes]) = .ok infos →
        infos.length = 2 ∧ infos[0]? ≠ some pipes.info := by
  rw [eval_getInstalledPackages, eval_getInstalledPackages]
  refine ⟨by simp, ?_⟩
  rintro infos ⟨⟩
  refine ⟨rfl, fun h => ?_⟩
  have hread := (parseDpkgOutputLine_line pipes).mp (Option.some.inj h) .summary
  exact hread (by decide)

end RpiNestApi.ShellCommand
