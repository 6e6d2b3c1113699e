/-
The words of a shell command.

A shell splits a line at unquoted blanks and removes the quotes.  What is special
outside of quotes, such as an operator or the start of an expansion, makes the
line something else than one simple command whose words are written out, and
`words` then has no result.  A line of words joined with single spaces has just
these words if and only if each of them is plain.

The lexer is a fold over the characters, and `State.Tight` is its invariant: unless
a character was dropped on the way, every word so far is plain.
-/
import Mathlib.Data.List.Basic
import Mathlib.Tactic.Linarith

namespace Shell

/-- What a shell takes as special outside of quotes, anywhere or at the beginning
of a word. -/
structure Dialect where
  special : Char → Bool
  leading : Char → Bool

/-- The operators, expansions and patterns, and what begins a comment or a home
directory. -/
def Dialect.posix : Dialect where
  special c := c ∈ [';', '&', '|', '$', '\x60', '(', ')', '<', '>', '\n', '*', '?', '[']
  leading c := c ∈ ['#', '~']

inductive Mode where
  | bare
  | escaped
  | single
  | double
  | doubleEscaped
  deriving DecidableEq, Repr

/-- The words that are complete, and the one that has begun. -/
structure State where
  mode : Mode
  done : List (List Char)
  word : Option (List Char)
  deriving DecidableEq, Repr

namespace State

def init : State := { mode := .bare, done := [], word := none }

def put (s : State) (c : Char) : State := { s with word := some (s.word.getD [] ++ [c]) }

def enter (s : State) (mode : Mode) : State := { s with mode }

/-- A quote begins a word, which may stay empty. -/
def quote (s : State) (mode : Mode) : State :=
  { s with mode, word := some (s.word.getD []) }

def blank (s : State) : State := { s with done := s.done ++ s.word.toList, word := none }

end State

def isBlank (c : Char) : Bool := c == ' ' || c == '\t'

/-- An escaped line break is removed. -/
def step (d : Dialect) (s : State) (c : Char) : Option State :=
  match s.mode with
  | .bare =>
    if isBlank c then some s.blank
    else if c = '\'' then some (s.quote .single)
    else if c = '"' then some (s.quote .double)
    else if c = '\\' then some (s.enter .escaped)
    else if d.special c || (s.word.isNone && d.leading c) then none
    else some (s.put c)
  | .escaped => if c = '\n' then some (s.enter .bare) else some ((s.put c).enter .bare)
  | .single => if c = '\'' then some (s.enter .bare) else some (s.put c)
  | .double =>
    if c = '"' then some (s.enter .bare)
    else if c = '\\' then some (s.enter .doubleEscaped)
    else if c = '$' || c = '\x60' then none
    else some (s.put c)
  | .doubleEscaped =>
    if c = '\n' then some (s.enter .double)
    else if c = '$' || c = '\x60' || c = '"' || c = '\\' then some ((s.put c).enter .double)
    else some (((s.put '\\').put c).enter .double)

/-- A line that ends in quotes or in a backslash is not complete. -/
def State.finish (s : State) : Option (List (List Char)) :=
  if s.mode = .bare then some (s.done ++ s.word.toList) else none

def words (d : Dialect) (line : List Char) : Option (List (List Char)) := do
  let s ← line.foldlM (step d) .init
  s.finish

/-! ## Plain words -/

/-- The character stands for itself. -/
def Dialect.isPlain (d : Dialect) (c : Char) : Bool :=
  !isBlank c && c != '\'' && c != '"' && c != '\\' && !d.special c

/-- The word stands for itself. -/
structure Plain (d : Dialect) (word : List Char) : Prop where
  chars : ∀ c ∈ word, d.isPlain c = true
  head : ∃ c, word.head? = some c ∧ d.leading c = false

theorem Plain.ne_nil {d : Dialect} {word : List Char} (h : Plain d word) : word ≠ [] := by
  rintro rfl
  obtain ⟨c, hc, _⟩ := h.head
  cases hc

variable {d : Dialect} {s s' : State} {c : Char}

theorem step_plain (hmode : s.mode = .bare) (hc : d.isPlain c = true)
    (hleading : s.word = none → d.leading c = false) : step d s c = some (s.put c) := by
  simp only [Dialect.isPlain, Bool.and_eq_true, Bool.not_eq_true', bne_iff_ne, ne_eq] at hc
  obtain ⟨⟨⟨⟨hblank, hsingle⟩, hdouble⟩, hescape⟩, hspecial⟩ := hc
  have hword : (s.word.isNone && d.leading c) = false := by
    cases hw : s.word with
    | none => simp [hleading hw]
    | some w => rfl
  simp [step, hmode, hblank, hsingle, hdouble, hescape, hspecial, hword]

theorem step_blank (hmode : s.mode = .bare) (hc : isBlank c = true) :
    step d s c = some s.blank := by
  simp [step, hmode, hc]

theorem foldlM_plain {cs w : List Char} (hmode : s.mode = .bare) (hword : s.word = some w)
    (hcs : ∀ c ∈ cs, d.isPlain c = true) :
    cs.foldlM (step d) s = some { s with word := some (w ++ cs) } := by
  induction cs generalizing s w with
  | nil => rw [List.append_nil, ← hword]; rfl
  | cons c cs ih =>
      have hc := hcs c List.mem_cons_self
      have hput : (s.put c).word = some (w ++ [c]) := by rw [State.put, hword]; rfl
      rw [List.foldlM_cons, step_plain hmode hc fun hnone => by rw [hnone] at hword; cases hword]
      rw [Option.bind_eq_bind, Option.bind_some, ih (by exact hmode) hput fun c' hc' =>
        hcs c' (List.mem_cons_of_mem c hc'), List.append_assoc, List.singleton_append]
      rfl

theorem foldlM_word {w : List Char} (hmode : s.mode = .bare) (hword : s.word = none)
    (hw : Plain d w) : w.foldlM (step d) s = some { s with word := some w } := by
  obtain ⟨c, hc, hleading⟩ := hw.head
  cases w with
  | nil => cases hc
  | cons c' cs =>
      obtain rfl := Option.some.inj hc
      have hput : (s.put c').word = some [c'] := by rw [State.put, hword]; rfl
      rw [List.foldlM_cons, step_plain hmode (hw.chars c' List.mem_cons_self) fun _ => hleading,
        Option.bind_eq_bind, Option.bind_some, foldlM_plain (by exact hmode) hput fun c hc =>
          hw.chars c (List.mem_cons_of_mem c' hc), List.singleton_append]
      rfl

/-- Plain words are read back. -/
theorem foldlM_intercalate {ws : List (List Char)} (hws : ∀ w ∈ ws, Plain d w)
    (hmode : s.mode = .bare) (hword : s.word = none) :
    (([' '].intercalate ws).foldlM (step d) s).bind State.finish = some (s.done ++ ws) := by
  induction ws generalizing s with
  | nil => simp [State.finish, hmode, hword]
  | cons w ws ih =>
      have hw := hws w List.mem_cons_self
      cases ws with
      | nil =>
          rw [List.intercalate_singleton, foldlM_word hmode hword hw]
          simp [State.finish, hmode]
      | cons w' ws =>
          rw [List.intercalate_cons_cons, List.append_assoc, List.foldlM_append,
            foldlM_word hmode hword hw, List.singleton_append]
          simp only [Option.bind_eq_bind, Option.bind_some, List.foldlM_cons]
          rw [step_blank (by exact hmode) rfl, Option.bind_some,
            ih (fun w'' hw'' => hws w'' (List.mem_cons_of_mem w hw'')) (by exact hmode) rfl]
          simp [State.blank]

/-! ## Other words -/

/-- The length of the words, each with a separator. -/
def weight (ws : List (List Char)) : Nat := (ws.map fun w => w.length + 1).sum

theorem weight_append (ws ws' : List (List Char)) :
    weight (ws ++ ws') = weight ws + weight ws' := by
  simp [weight]

theorem weight_intercalate {ws : List (List Char)} (h : ws ≠ []) :
    weight ws = ([' '].intercalate ws).length + 1 := by
  induction ws with
  | nil => exact absurd rfl h
  | cons w ws ih =>
      cases ws with
      | nil => simp [weight]
      | cons w' ws =>
          have ih := ih (by simp)
          rw [List.intercalate_cons_cons]
          simp only [weight, List.map_cons, List.sum_cons, List.length_append,
            List.length_singleton] at ih ⊢
          omega

def State.weight (s : State) : Nat := Shell.weight s.done + (s.word.getD []).length

@[simp] theorem State.weight_put (s : State) (c : Char) : (s.put c).weight = s.weight + 1 := by
  simp [weight, put, Nat.add_assoc]

@[simp] theorem State.weight_enter (s : State) (mode : Mode) : (s.enter mode).weight = s.weight :=
  rfl

@[simp] theorem State.weight_quote (s : State) (mode : Mode) :
    (s.quote mode).weight = s.weight := by
  simp [weight, quote]

theorem State.weight_blank_none (hword : s.word = none) : s.blank.weight = s.weight := by
  simp [weight, blank, hword]

theorem State.weight_blank_some {w : List Char} (hword : s.word = some w) :
    s.blank.weight = s.weight + 1 := by
  simp [weight, blank, hword, Shell.weight, Nat.add_assoc]

@[simp] theorem State.mode_put (s : State) (c : Char) : (s.put c).mode = s.mode := rfl

@[simp] theorem State.mode_enter (s : State) (mode : Mode) : (s.enter mode).mode = mode := rfl

/-- After `n` characters all words are plain, unless a character was dropped. -/
inductive State.Tight (d : Dialect) (s : State) (n : Nat) : Prop
  | dropped (hmode : s.mode ≠ .doubleEscaped) (h : s.weight < n)
  | doubleEscaped (hmode : s.mode = .doubleEscaped) (h : s.weight + 1 < n)
  | plain (hmode : s.mode = .bare) (h : s.weight = n) (hdone : ∀ w ∈ s.done, Plain d w)
      (hword : ∀ w, s.word = some w → Plain d w)

theorem plain_singleton (hc : d.isPlain c = true) (hleading : d.leading c = false) :
    Plain d [c] :=
  ⟨fun x hx => by rwa [List.mem_singleton.mp hx], c, rfl, hleading⟩

theorem Plain.concat {w : List Char} (hw : Plain d w) (hc : d.isPlain c = true) :
    Plain d (w ++ [c]) := by
  obtain ⟨c', hc', hhead⟩ := hw.head
  refine ⟨fun x hx => ?_, c', by simp [List.head?_append, hc'], hhead⟩
  rcases List.mem_append.mp hx with hx | hx
  · exact hw.chars x hx
  · rwa [List.mem_singleton.mp hx]

/-- What a character does outside of quotes. -/
inductive Bare (d : Dialect) (s : State) (c : Char) : State → Prop
  | blank : Bare d s c s.blank
  | quote (mode : Mode) (hmode : mode ≠ .doubleEscaped) : Bare d s c (s.quote mode)
  | escape : Bare d s c (s.enter .escaped)
  | put (hc : d.isPlain c = true) (hleading : s.word = none → d.leading c = false) :
      Bare d s c (s.put c)

theorem step_bare (hmode : s.mode = .bare) (h : step d s c = some s') : Bare d s c s' := by
  simp only [step, hmode] at h
  split at h
  · cases h
    exact .blank
  · rename_i hblank
    split at h
    · cases h
      exact .quote _ (by decide)
    · rename_i hsingle
      split at h
      · cases h
        exact .quote _ (by decide)
      · rename_i hdouble
        split at h
        · cases h
          exact .escape
        · rename_i hescape
          split at h
          · cases h
          · rename_i hspecial
            cases h
            simp only [Bool.or_eq_true, not_or, Bool.not_eq_true] at hspecial
            refine .put ?_ fun hnone => ?_
            · simp [Dialect.isPlain, hblank, hsingle, hdouble, hescape, hspecial.1]
            · simpa [hnone] using hspecial.2

/-- In quotes, or after a backslash, no more than the character is put. -/
theorem step_quoted (hmode : s.mode ≠ .bare) (hmode' : s.mode ≠ .doubleEscaped)
    (h : step d s c = some s') : s'.mode = .doubleEscaped ∧ s'.weight = s.weight ∨
      s'.mode ≠ .doubleEscaped ∧ s'.weight ≤ s.weight + 1 := by
  cases hs : s.mode with
  | bare => exact absurd hs hmode
  | doubleEscaped => exact absurd hs hmode'
  | escaped =>
      simp only [step, hs] at h
      split at h <;> cases h <;> simp
  | single =>
      simp only [step, hs] at h
      split at h <;> cases h <;> simp [hs]
  | double =>
      simp only [step, hs] at h
      split at h
      · cases h
        simp
      · split at h
        · cases h
          simp
        · split at h <;> cases h
          simp [hs]

theorem step_doubleEscaped (hmode : s.mode = .doubleEscaped) (h : step d s c = some s') :
    s'.mode = .double ∧ s'.weight ≤ s.weight + 2 := by
  simp only [step, hmode] at h
  split at h
  · cases h
    simp
  · split at h <;> cases h <;> simp

theorem State.Tight.of_bare {n : Nat} (hmode : s.mode = .bare) (h : s.Tight d n)
    (hbare : Bare d s c s') : s'.Tight d (n + 1) := by
  have hne : s.mode ≠ .doubleEscaped := by simp [hmode]
  cases h with
  | doubleEscaped hmode' _ => exact absurd hmode' hne
  | dropped _ hlt =>
      cases hbare with
      | blank =>
          refine .dropped hne ?_
          cases hword : s.word with
          | none =>
              rw [State.weight_blank_none hword]
              omega
          | some w =>
              rw [State.weight_blank_some hword]
              omega
      | quote mode hmode' => exact .dropped hmode' (by simp; omega)
      | escape => exact .dropped (by simp) (by simp; omega)
      | put => exact .dropped hne (by simp; omega)
  | plain _ heq hdone hplain =>
      cases hbare with
      | blank =>
          cases hword : s.word with
          | none =>
              refine .dropped hne ?_
              rw [State.weight_blank_none hword]
              omega
          | some w =>
              refine .plain hmode (by rw [State.weight_blank_some hword, heq]) ?_ (by simp [blank])
              simp only [blank, hword, Option.toList_some, List.mem_append, List.mem_singleton]
              rintro w' (hw' | rfl)
              · exact hdone w' hw'
              · exact hplain w' hword
      | quote mode hmode' => exact .dropped hmode' (by simp; omega)
      | escape => exact .dropped (by simp) (by simp; omega)
      | put hc hleading =>
          refine .plain hmode (by simp [heq]) hdone ?_
          rintro _ ⟨⟩
          cases hword : s.word with
          | none => exact plain_singleton hc (hleading hword)
          | some w => exact (hplain w hword).concat hc

theorem State.Tight.step {n : Nat} (h : s.Tight d n) (hstep : Shell.step d s c = some s') :
    s'.Tight d (n + 1) := by
  by_cases hbare : s.mode = .bare
  · exact h.of_bare hbare (step_bare hbare hstep)
  · cases h with
    | plain hmode => exact absurd hmode hbare
    | doubleEscaped hmode hlt =>
        obtain ⟨hmode', hweight⟩ := step_doubleEscaped hmode hstep
        exact .dropped (by simp [hmode']) (by omega)
    | dropped hmode hlt =>
        rcases step_quoted hbare hmode hstep with ⟨hmode', hweight⟩ | ⟨hmode', hweight⟩
        · exact .doubleEscaped hmode' (by omega)
        · exact .dropped hmode' (by omega)

theorem State.Tight.foldlM {cs : List Char} {n : Nat} (h : s.Tight d n)
    (hfold : cs.foldlM (Shell.step d) s = some s') : s'.Tight d (n + cs.length) := by
  induction cs generalizing s n with
  | nil =>
      cases hfold
      exact h
  | cons c cs ih =>
      rw [List.foldlM_cons] at hfold
      obtain ⟨s₁, hstep, hfold⟩ := Option.bind_eq_some_iff.mp hfold
      have htight := ih (h.step hstep) hfold
      rw [List.length_cons]
      rwa [Nat.add_right_comm, Nat.add_assoc] at htight

/-- Words that are as long as the line are plain. -/
theorem words_plain {line : List Char} {ws : List (List Char)} (h : words d line = some ws)
    (hweight : weight ws = line.length + 1) : ∀ w ∈ ws, Plain d w := by
  obtain ⟨s, hfold, hfinish⟩ := Option.bind_eq_some_iff.mp h
  have hinit : State.init.Tight d 0 := .plain rfl rfl (by simp [State.init]) (by simp [State.init])
  have htight := hinit.foldlM hfold
  rw [Nat.zero_add] at htight
  rw [State.finish] at hfinish
  split at hfinish
  · rename_i hmode
    cases hfinish
    have htotal : weight (s.done ++ s.word.toList) ≤ s.weight + 1 := by
      rw [weight_append, State.weight]
      cases s.word <;> simp [weight, Nat.add_assoc]
    cases htight with
    | dropped _ hlt => omega
    | doubleEscaped hmode' _ => cases hmode.symm.trans hmode'
    | plain _ _ hdone hword =>
        intro w hw
        rcases List.mem_append.mp hw with hw | hw
        · exact hdone w hw
        · exact hword w (Option.mem_toList.mp hw)
  · cases hfinish

/-- A line of words joined with spaces has these words if and only if each is
plain. -/
theorem words_intercalate {ws : List (List Char)} (h : ws ≠ []) :
    words d ([' '].intercalate ws) = some ws ↔ ∀ w ∈ ws, Plain d w := by
  constructor
  · intro hwords
    exact words_plain hwords (weight_intercalate h)
  · intro hplain
    exact foldlM_intercalate hplain rfl rfl

end Shell
