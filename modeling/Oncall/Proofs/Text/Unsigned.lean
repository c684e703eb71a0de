import Oncall.Text.Unsigned
import Mathlib.Data.List.Infix

/-! The grammar of unsigned numbers. A text spells a number if it is one or more decimal digits, with
any number of zeros in front, behind one plus sign at most. Reading it up to a limit accepts just the
texts that spell a number within the limit. It refuses a text as too large just where the digits it
begins with denote a number past the limit, whatever follows them. -/

namespace Oncall.Unsigned

/-- A text of ASCII digits. -/
def IsDigits (cs : List Char) : Prop := ∀ c ∈ cs, c.isDigit = true

/-- The number that digits denote, the last of them being the ones. -/
abbrev value (ds : List Char) : Nat := Nat.ofDigitChars 10 ds 0

/-- A text is these characters, behind one plus sign at most. -/
def Signed (cs ds : List Char) : Prop := cs = ds ∨ cs = '+' :: ds

/-- A text spells a number: one plus sign at most, and one or more digits. -/
def Spells (cs : List Char) (n : Nat) : Prop :=
  ∃ ds, Signed cs ds ∧ ds ≠ [] ∧ IsDigits ds ∧ value ds = n

/-- Read from the left, the digits of a text pass a limit before a character that is no digit. -/
def RunsOver (limit : Nat) (cs : List Char) : Prop :=
  ∃ ds rest, Signed cs (ds ++ rest) ∧ IsDigits ds ∧ limit < value ds

/-! ### Digits -/

@[simp] theorem isDigits_nil : IsDigits [] := by simp [IsDigits]

@[simp] theorem isDigits_cons (c : Char) (cs : List Char) :
    IsDigits (c :: cs) ↔ c.isDigit = true ∧ IsDigits cs := List.forall_mem_cons

theorem isDigit_iff (c : Char) : c.isDigit = true ↔ '0' ≤ c ∧ c ≤ '9' := by
  simp [Char.isDigit, Char.le_def]

theorem digit?_of_isDigit {c : Char} (h : c.isDigit = true) :
    digit? c = some (c.toNat - '0'.toNat) := if_pos ((isDigit_iff c).1 h)

theorem digit?_of_not_isDigit {c : Char} (h : c.isDigit ≠ true) : digit? c = none :=
  if_neg fun h' => h ((isDigit_iff c).2 h')

/-- More digits never denote less. -/
theorem le_ofDigitChars (cs : List Char) (n : Nat) : n ≤ Nat.ofDigitChars 10 cs n := by
  induction cs generalizing n with
  | nil => exact le_of_eq Nat.ofDigitChars_nil.symm
  | cons c cs ih =>
    rw [Nat.ofDigitChars_cons]
    exact le_trans (by omega) (ih _)

/-! ### Reading digits -/

section

variable {limit n : Nat}

/-- One step of reading digits. -/
theorem readDigits_digit {c : Char} (h : c.isDigit = true) (cs : List Char) :
    readDigits limit n (c :: cs) =
      if limit < 10 * n + (c.toNat - '0'.toNat) then .error .tooLarge
      else readDigits limit (10 * n + (c.toNat - '0'.toNat)) cs := by
  rw [readDigits, digit?_of_isDigit h, Nat.mul_comm n 10]

theorem readDigits_other {c : Char} (h : c.isDigit ≠ true) (cs : List Char) :
    readDigits limit n (c :: cs) = .error .invalidDigit := by
  rw [readDigits, digit?_of_not_isDigit h]

theorem readDigits_eq_ok_iff (hn : n ≤ limit) {cs : List Char} {m : Nat} :
    readDigits limit n cs = .ok m ↔
      IsDigits cs ∧ Nat.ofDigitChars 10 cs n = m ∧ m ≤ limit := by
  induction cs generalizing n with
  | nil =>
    simp only [readDigits, Except.ok.injEq, isDigits_nil, Nat.ofDigitChars_nil, true_and]
    exact ⟨fun h => ⟨h, h ▸ hn⟩, fun h => h.1⟩
  | cons c cs ih =>
    by_cases hc : c.isDigit = true
    · rw [readDigits_digit hc, Nat.ofDigitChars_cons, isDigits_cons]
      split
      next hlarge =>
        -- the value only grows, so it stays past the limit
        have hle := le_ofDigitChars cs (10 * n + (c.toNat - '0'.toNat))
        refine iff_of_false (fun h => by cases h) ?_
        rintro ⟨-, hm, hlimit⟩
        omega
      next hfits => rw [ih (Nat.not_lt.1 hfits), and_iff_right hc]
    · rw [readDigits_other hc, isDigits_cons]
      exact iff_of_false (fun h => by cases h) fun h => hc h.1.1

theorem readDigits_eq_tooLarge_iff (hn : n ≤ limit) {cs : List Char} :
    readDigits limit n cs = .error .tooLarge ↔
      ∃ ds rest, cs = ds ++ rest ∧ IsDigits ds ∧ limit < Nat.ofDigitChars 10 ds n := by
  induction cs generalizing n with
  | nil =>
    refine iff_of_false nofun ?_
    rintro ⟨ds, rest, h, -, hlarge⟩
    obtain ⟨rfl, rfl⟩ := List.append_eq_nil_iff.1 h.symm
    rw [Nat.ofDigitChars_nil] at hlarge
    omega
  | cons c cs ih =>
    have hcons : (∃ ds rest, c :: cs = ds ++ rest ∧ IsDigits ds ∧
        limit < Nat.ofDigitChars 10 ds n) ↔ c.isDigit = true ∧ ∃ ds rest, cs = ds ++ rest ∧
        IsDigits ds ∧ limit < Nat.ofDigitChars 10 ds (10 * n + (c.toNat - '0'.toNat)) := by
      constructor
      · rintro ⟨_ | ⟨d, ds⟩, rest, h, hds, hlarge⟩
        · rw [Nat.ofDigitChars_nil] at hlarge
          omega
        · obtain ⟨rfl, rfl⟩ := List.cons.inj h
          rw [isDigits_cons] at hds
          rw [Nat.ofDigitChars_cons] at hlarge
          exact ⟨hds.1, ds, rest, rfl, hds.2, hlarge⟩
      · rintro ⟨hc, ds, rest, rfl, hds, hlarge⟩
        exact ⟨c :: ds, rest, rfl, (isDigits_cons c ds).2 ⟨hc, hds⟩,
          by rwa [Nat.ofDigitChars_cons]⟩
    rw [hcons]
    by_cases hc : c.isDigit = true
    · rw [readDigits_digit hc, and_iff_right hc]
      split
      next hlarge => exact iff_of_true rfl ⟨[], cs, rfl, isDigits_nil, by rwa [Nat.ofDigitChars_nil]⟩
      next hfits => exact ih (Nat.not_lt.1 hfits)
    · rw [readDigits_other hc]
      exact iff_of_false nofun fun h => hc h.1

end

/-! ### Reading a number -/

variable {limit : Nat} {cs : List Char}

theorem signed_unsigned (cs : List Char) : Signed cs (unsigned cs) := by
  unfold unsigned
  split
  · exact .inr rfl
  · exact .inl rfl

/-- A sign is no digit, so what begins with a digit is behind the sign. -/
theorem Signed.eq_unsigned {d : Char} {ds : List Char} (h : Signed cs (d :: ds))
    (hd : d.isDigit = true) : unsigned cs = d :: ds := by
  rcases h with rfl | rfl
  · unfold unsigned
    split
    next h =>
      obtain ⟨rfl, -⟩ := List.cons.inj h
      exact absurd hd (by decide)
    next => rfl
  · rfl

theorem spells_iff {n : Nat} :
    Spells cs n ↔ unsigned cs ≠ [] ∧ IsDigits (unsigned cs) ∧ value (unsigned cs) = n := by
  constructor
  · rintro ⟨ds, hsigned, hne, hds, hn⟩
    cases ds with
    | nil => exact absurd rfl hne
    | cons d ds =>
      rw [hsigned.eq_unsigned ((isDigits_cons d ds).1 hds).1]
      exact ⟨hne, hds, hn⟩
  · rintro ⟨hne, hds, hn⟩
    exact ⟨_, signed_unsigned cs, hne, hds, hn⟩

theorem runsOver_iff : RunsOver limit cs ↔
    ∃ ds rest, unsigned cs = ds ++ rest ∧ IsDigits ds ∧ limit < value ds := by
  constructor
  · rintro ⟨ds, rest, hsigned, hds, hlarge⟩
    cases ds with
    | nil => exact absurd hlarge (by simp [value])
    | cons d ds =>
      exact ⟨d :: ds, rest, hsigned.eq_unsigned ((isDigits_cons d ds).1 hds).1, hds, hlarge⟩
  · rintro ⟨ds, rest, h, hds, hlarge⟩
    exact ⟨ds, rest, h ▸ signed_unsigned cs, hds, hlarge⟩

/-- A text is read as a number just where it spells one within the limit. -/
theorem parse_eq_ok_iff {n : Nat} : parse limit cs = .ok n ↔ Spells cs n ∧ n ≤ limit := by
  rw [spells_iff, parse]
  split
  next hnil => exact iff_of_false nofun fun h => h.1.1 hnil
  next hne =>
    rw [readDigits_eq_ok_iff (Nat.zero_le _), and_iff_right hne, and_assoc]

theorem parse_eq_tooLarge_iff : parse limit cs = .error .tooLarge ↔ RunsOver limit cs := by
  rw [runsOver_iff, parse]
  split
  next hnil =>
    refine iff_of_false nofun ?_
    rintro ⟨ds, rest, h, -, hlarge⟩
    rw [hnil] at h
    obtain ⟨rfl, -⟩ := List.append_eq_nil_iff.1 h.symm
    exact absurd hlarge (by simp [value])
  next => exact readDigits_eq_tooLarge_iff (Nat.zero_le _)

/-- Any other text is refused, as too large or for a character that is no digit, whichever comes
first. -/
theorem parse_eq_error_iff {reason : ParseError} :
    parse limit cs = .error reason ↔
      (¬ ∃ n ≤ limit, Spells cs n) ∧ (reason = .tooLarge ↔ RunsOver limit cs) := by
  have hok : (∃ n, parse limit cs = .ok n) ↔ ∃ n ≤ limit, Spells cs n := by
    simp only [parse_eq_ok_iff, and_comm]
  rw [← hok, ← parse_eq_tooLarge_iff]
  cases parse limit cs with
  | ok n => exact iff_of_false nofun fun h => h.1 ⟨n, rfl⟩
  | error e => cases e <;> cases reason <;> simp

end Oncall.Unsigned
