import RpiNestApi.Authentication.Dto

/-
What the services rely on outside the repository: `bcrypt`, the `JwtService` and
the device's default password.  `Platform.sample` meets all of it.
-/

namespace RpiNestApi

structure Bcrypt where
  hash : String → Nat → String
  compare : String → String → Bool
  /-- A hash is accepted for the password it was made from, under any salt, and
  for no other. -/
  compare_hash : ∀ p q salt, compare p (hash q salt) = true ↔ p = q

structure JwtService where
  sign : AccessTokenPayload → Nat → String
  /-- Lifetime of a token in seconds. -/
  expiresIn : Nat
  /-- A token carries its payload and the time it was issued at. -/
  sign_inj : ∀ {p q i j}, sign p i = sign q j → p = q ∧ i = j

structure Platform where
  bcrypt : Bcrypt
  jwtService : JwtService
  deviceDefaultPassword : String

namespace Platform

/-! ## A platform

Numbers are written in unary and closed by a semicolon, and a string or a list
is preceded by its length, so that a token can be read back from the left. -/

def saltChars (password : String) (salt : Nat) : List Char :=
  List.replicate salt '0' ++ '$' :: password.toList

theorem dropWhile_saltChars (password : String) (salt : Nat) :
    (saltChars password salt).dropWhile (· == '0') = '$' :: password.toList := by
  induction salt with
  | zero => rfl
  | succ salt ih =>
      simp only [saltChars, List.replicate_succ, List.cons_append, List.dropWhile_cons_of_pos,
        beq_self_eq_true]
      exact ih

def sampleBcrypt : Bcrypt where
  hash password salt := String.ofList (saltChars password salt)
  compare password h := h.toList.dropWhile (· == '0') == '$' :: password.toList
  compare_hash p q salt := by
    rw [String.toList_ofList, dropWhile_saltChars, beq_iff_eq, List.cons.injEq, String.toList_inj]
    exact ⟨fun h => h.2.symm, fun h => ⟨rfl, h.symm⟩⟩

def unary (n : Nat) : List Char := List.replicate n '1' ++ [';']

theorem unary_append_inj {m n : Nat} {xs ys : List Char} (h : unary m ++ xs = unary n ++ ys) :
    m = n ∧ xs = ys := by
  induction m generalizing n with
  | zero =>
      cases n with
      | zero => exact ⟨rfl, by simpa [unary] using h⟩
      | succ n => simp [unary, List.replicate_succ] at h
  | succ m ih =>
      cases n with
      | zero => simp [unary, List.replicate_succ] at h
      | succ n =>
          simp only [unary, List.replicate_succ, List.cons_append, List.cons.injEq, true_and] at h
          obtain ⟨rfl, hxs⟩ := ih h
          exact ⟨rfl, hxs⟩

def counted (xs : List Char) : List Char := unary xs.length ++ xs

theorem counted_append_inj {xs ys us vs : List Char} (h : counted xs ++ us = counted ys ++ vs) :
    xs = ys ∧ us = vs := by
  simp only [counted, List.append_assoc] at h
  obtain ⟨hlen, h⟩ := unary_append_inj h
  exact List.append_inj h hlen

def roleChar : AccessRole → Char
  | .admin => 'a'
  | .user => 'u'
  | .readOnly => 'r'

theorem roleChar_injective : Function.Injective roleChar := by
  intro a b h
  cases a <;> cases b <;> first | rfl | exact absurd h (by decide)

def rolesChars : Field (List AccessRole) → List Char
  | .undefined => ['u']
  | .null => ['n']
  | .value roles => 'v' :: roles.map roleChar

theorem rolesChars_injective : Function.Injective rolesChars := by
  intro a b h
  cases a <;> cases b <;> simp only [rolesChars, List.cons.injEq, reduceCtorEq] at h ⊢
  all_goals first
    | exact absurd h.1 (by decide)
    | exact congrArg _ (List.map_injective_iff.mpr roleChar_injective h.2)

def tokenChars (p : AccessTokenPayload) (iat : Nat) : List Char :=
  counted p.sub.toList ++ (counted (rolesChars p.roles) ++ (unary p.modified ++ unary iat))

def sampleJwtService : JwtService where
  sign p iat := String.ofList (tokenChars p iat)
  expiresIn := 86400
  sign_inj {p q i j} h := by
    have h := String.ofList_inj.mp h
    obtain ⟨hsub, h⟩ := counted_append_inj h
    obtain ⟨hroles, h⟩ := counted_append_inj h
    obtain ⟨hmodified, h⟩ := unary_append_inj h
    obtain ⟨hiat, _⟩ := @unary_append_inj i j [] [] (by simpa using h)
    refine ⟨?_, hiat⟩
    cases p
    cases q
    simp_all only [String.toList_inj, AccessTokenPayload.mk.injEq, true_and, and_true]
    exact rolesChars_injective hroles

def sample : Platform :=
  { bcrypt := sampleBcrypt, jwtService := sampleJwtService,
    deviceDefaultPassword := "test-default-password" }

end Platform

end RpiNestApi
