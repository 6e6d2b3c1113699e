/-
Policies made of rules that answer a query or pass it on.

The rules are asked one after another until one of them answers.  They are kept in
named files, which are loaded one after another.  A file that grants a set of
queries answers these, and no others, with one result.
-/
import Mathlib.Data.List.TakeWhile

namespace Policy

/-- A rule passes a query on with `none`. -/
abbrev Rule (Q R : Type) := Q → Option R

structure File (Q R : Type) where
  name : String
  rules : List (Rule Q R)

variable {Q R : Type}

/-- The first answer. -/
def decision (rules : List (Rule Q R)) (q : Q) : Option R := rules.findSome? fun rule => rule q

/-- The rules in the order in which they are asked. -/
def load (directory : List (File Q R)) : List (Rule Q R) := directory.flatMap File.rules

/-- The files loaded before the file `name`. -/
def before (name : String) (directory : List (File Q R)) : List (File Q R) :=
  directory.takeWhile fun file => file.name != name

theorem decision_append (rules rules' : List (Rule Q R)) (q : Q) :
    decision (rules ++ rules') q = (decision rules q).or (decision rules' q) :=
  List.findSome?_append

theorem decision_load_cons (file : File Q R) (directory : List (File Q R)) (q : Q) :
    decision (load (file :: directory)) q =
      (decision file.rules q).or (decision (load directory) q) := by
  rw [load, List.flatMap_cons, decision_append, load]

/-- Files that pass a query on make no difference to it. -/
theorem decision_load_filter {p : File Q R → Bool} {directory : List (File Q R)} {q : Q}
    (h : ∀ file ∈ directory, p file = false → decision file.rules q = none) :
    decision (load (directory.filter p)) q = decision (load directory) q := by
  induction directory with
  | nil => rfl
  | cons file directory ih =>
      have hrest := ih fun file' hfile' => h file' (List.mem_cons_of_mem file hfile')
      rw [decision_load_cons]
      cases hp : p file with
      | true => rw [List.filter_cons_of_pos hp, decision_load_cons, hrest]
      | false =>
          rw [List.filter_cons_of_neg (by simp [hp]), hrest,
            h file List.mem_cons_self hp, Option.none_or]

/-- A query that the file `name` answers with `result` gets it, unless a file that
is loaded before answers. -/
theorem decision_load_of_file {name : String} {result : R} {directory : List (File Q R)} {q : Q}
    (hpresent : ∃ file ∈ directory, file.name = name)
    (h : ∀ file ∈ directory, file.name = name → decision file.rules q = some result) :
    decision (load directory) q =
      some ((decision (load (before name directory)) q).getD result) := by
  induction directory with
  | nil => exact absurd hpresent (by simp)
  | cons file directory ih =>
      rw [decision_load_cons, before, List.takeWhile_cons]
      by_cases hname : file.name = name
      · rw [if_neg (by simp [hname]), h file List.mem_cons_self hname]
        rfl
      · rw [if_pos (by simpa using hname), decision_load_cons]
        have hrest : ∃ file ∈ directory, file.name = name := by
          obtain ⟨file', hmem, hname'⟩ := hpresent
          rcases List.mem_cons.mp hmem with rfl | hmem
          · exact absurd hname' hname
          · exact ⟨file', hmem, hname'⟩
        rw [ih hrest fun file' hmem => h file' (List.mem_cons_of_mem file hmem), before]
        cases decision file.rules q <;> rfl

/-! ## Files that grant -/

/-- The file answers the queries in `S`, and no others, with `result`. -/
structure File.Grants (file : File Q R) (result : R) (S : Q → Prop) : Prop where
  granted : ∀ q, S q → decision file.rules q = some result
  passed : ∀ q, ¬ S q → decision file.rules q = none

/-- The file `name` of the directory is `file`. -/
structure Installed (directory : List (File Q R)) (file : File Q R) : Prop where
  present : ∃ file' ∈ directory, file'.name = file.name
  same : ∀ file' ∈ directory, file'.name = file.name → file' = file

theorem Installed.decision_of_granted {directory : List (File Q R)} {file : File Q R}
    {result : R} {S : Q → Prop} (h : Installed directory file) (hfile : file.Grants result S)
    {q : Q} (hq : S q) : decision (load directory) q =
      some ((decision (load (before file.name directory)) q).getD result) :=
  decision_load_of_file h.present fun file' hmem hname =>
    (h.same file' hmem hname).symm ▸ hfile.granted q hq

/-- The files that are not named like any of `files`. -/
def without (files directory : List (File Q R)) : List (File Q R) :=
  directory.filter fun file => !(files.map File.name).contains file.name

/-- A part of the directory decides alike without files that pass the query on. -/
theorem decision_without {directory part files : List (File Q R)}
    (hpart : ∀ file ∈ part, file ∈ directory) (h : ∀ file ∈ files, Installed directory file)
    {q : Q} (hq : ∀ file ∈ files, (∃ file' ∈ part, file'.name = file.name) →
      decision file.rules q = none) :
    decision (load (without files part)) q = decision (load part) q := by
  refine decision_load_filter fun file' hmem hnamed => ?_
  simp only [Bool.not_eq_false', List.contains_iff_mem, List.mem_map] at hnamed
  obtain ⟨file, hfile, hname⟩ := hnamed
  rw [(h file hfile).same file' (hpart file' hmem) hname.symm]
  exact hq file hfile ⟨file', hmem, hname.symm⟩

end Policy
