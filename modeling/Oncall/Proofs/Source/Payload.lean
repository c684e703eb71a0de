import Oncall.Proofs.Text.Unsigned
import Oncall.Source.Payload

/-! What a payload gives under a key. A required text is refused if the key is missing or its value is
empty. A required number is read just where the text spells one of 32 bits; any other text is
reported as it stands, together with what came first in it, a value past the limit or a character
that is no digit. -/

namespace Oncall.Payload

open Unsigned (IsDigits RunsOver Spells)

/-- The text that a value stands for. -/
def textOf (raw : Bytes) : String := String.ofList (Utf8.decodeLossy raw)

/-- The largest number of 32 bits. -/
abbrev wordLimit : Nat := 4294967295

theorem textOf_eq_empty_iff {raw : Bytes} : textOf raw = "" ↔ raw = [] := by
  rw [textOf, String.ofList_eq_empty_iff, Utf8.decodeLossy_eq_nil_iff]

variable {p : Payload} {key object : String} {raw : Bytes}

/-! ### Texts -/

theorem required_of_none (h : p.lookup key = none) :
    p.required key object = .error (.missingKey key object) := by
  rw [required, h]

theorem required_of_some (h : p.lookup key = some raw) :
    p.required key object =
      if raw = [] then .error (.emptyValue key object) else .ok (textOf raw) := by
  simp only [required, h, ← textOf.eq_def, String.isEmpty_iff, textOf_eq_empty_iff]

theorem required_eq_ok_iff {text : String} :
    p.required key object = .ok text ↔
      ∃ raw, p.lookup key = some raw ∧ raw ≠ [] ∧ textOf raw = text := by
  cases h : p.lookup key with
  | none => simp [required_of_none h]
  | some raw => by_cases hr : raw = [] <;> simp [required_of_some h, hr]

theorem required_eq_error_iff {e : ConfigError} :
    p.required key object = .error e ↔
      (p.lookup key = none ∧ e = .missingKey key object) ∨
      (p.lookup key = some [] ∧ e = .emptyValue key object) := by
  cases h : p.lookup key with
  | none => simp [required_of_none h, eq_comm]
  | some raw => by_cases hr : raw = [] <;> simp [required_of_some h, hr, eq_comm]

/-! ### Numbers -/

theorem requiredWord_of_error {e : ConfigError} (h : p.required key object = .error e) :
    p.requiredWord key object = .error e := by
  rw [requiredWord, h]
  rfl

theorem requiredWord_of_some (h : p.lookup key = some raw) (hne : raw ≠ []) :
    p.requiredWord key object =
      match Unsigned.parse wordLimit (Utf8.decodeLossy raw) with
      | .ok n => .ok (.ofNat n)
      | .error reason => .error (.invalidNumber key object (textOf raw) reason) := by
  have hvalue : p.required key object = .ok (textOf raw) := (required_of_some h).trans (if_neg hne)
  have htext : (textOf raw).toList = Utf8.decodeLossy raw := String.toList_ofList
  rw [← htext, requiredWord, hvalue]
  rfl

/-- No number is spelled by nothing. -/
theorem ne_nil_of_spells {n : Nat} (h : Spells (Utf8.decodeLossy raw) n) : raw ≠ [] := by
  rintro rfl
  exact (Unsigned.spells_iff.1 h).1 rfl

/-- A number is read just where its text spells it. -/
theorem requiredWord_eq_ok_iff {w : UInt32} :
    p.requiredWord key object = .ok w ↔
      ∃ raw, p.lookup key = some raw ∧ Spells (Utf8.decodeLossy raw) w.toNat := by
  cases h : p.lookup key with
  | none =>
    rw [requiredWord_of_error (required_of_none h)]
    exact iff_of_false nofun fun ⟨_, h, _⟩ => nomatch h
  | some raw =>
    simp only [Option.some.injEq, exists_eq_left']
    by_cases hne : raw = []
    · rw [requiredWord_of_error ((required_of_some h).trans (if_pos hne))]
      exact iff_of_false nofun fun hw => ne_nil_of_spells hw hne
    · rw [requiredWord_of_some h hne]
      have hlt : w.toNat ≤ wordLimit := Nat.le_of_lt_succ w.toNat_lt
      cases hr : Unsigned.parse wordLimit (Utf8.decodeLossy raw) with
      | error reason =>
        have hnone := (Unsigned.parse_eq_error_iff.1 hr).1
        exact iff_of_false nofun fun hw => hnone ⟨_, hlt, hw⟩
      | ok n =>
        have hn := Unsigned.parse_eq_ok_iff.1 hr
        simp only [Except.ok.injEq]
        constructor
        · rintro rfl
          rw [UInt32.toNat_ofNat', Nat.mod_eq_of_lt (Nat.lt_succ_of_le hn.2)]
          exact hn.1
        · intro hw
          -- a text spells one number only, the one that it is read as
          have heq := hr.symm.trans (Unsigned.parse_eq_ok_iff.2 ⟨hw, hlt⟩)
          rw [Except.ok.inj heq, UInt32.ofNat_toNat]

/-- What is no number is reported as such, after a key that is missing or empty. -/
theorem requiredWord_eq_error_iff {e : ConfigError} :
    p.requiredWord key object = .error e ↔
      p.required key object = .error e ∨
      ∃ raw reason, p.lookup key = some raw ∧ raw ≠ [] ∧
        (¬ ∃ n ≤ wordLimit, Spells (Utf8.decodeLossy raw) n) ∧
        (reason = .tooLarge ↔ RunsOver wordLimit (Utf8.decodeLossy raw)) ∧
        e = .invalidNumber key object (textOf raw) reason := by
  cases hr : p.required key object with
  | error e' =>
    rw [requiredWord_of_error hr, Except.error.injEq, Except.error.injEq]
    refine (or_iff_left ?_).symm
    rintro ⟨raw, reason, h, hne, -⟩
    cases hr.symm.trans ((required_of_some h).trans (if_neg hne))
  | ok text =>
    obtain ⟨raw, h, hne, -⟩ := required_eq_ok_iff.1 hr
    rw [requiredWord_of_some h hne, or_iff_right (by simp)]
    constructor
    · intro he
      cases hparse : Unsigned.parse wordLimit (Utf8.decodeLossy raw) with
      | ok n => rw [hparse] at he; cases he
      | error reason =>
        rw [hparse] at he
        obtain ⟨hnone, hreason⟩ := Unsigned.parse_eq_error_iff.1 hparse
        exact ⟨raw, reason, h, hne, hnone, hreason, (Except.error.inj he).symm⟩
    · rintro ⟨raw', reason, h', -, hnone, hreason, rfl⟩
      obtain rfl := Option.some.inj (h.symm.trans h')
      rw [Unsigned.parse_eq_error_iff.2 ⟨hnone, hreason⟩]

/-- A number is read from a value just where its text is one plus sign at most and decimal digits that
denote a number of 32 bits. Any other text that is not empty is reported with its key and object: as
too large if its digits, read from the left, pass the largest number before anything that is no digit,
and otherwise for a character that is none. -/
theorem requiredWord_by_grammar (object : String) (h : p.lookup key = some raw) :
    let text := Utf8.decodeLossy raw
    (∀ n : Nat, (∃ w : UInt32, p.requiredWord key object = .ok w ∧ w.toNat = n) ↔
      Spells text n ∧ n ≤ wordLimit) ∧
    (raw ≠ [] → (¬ ∃ n ≤ wordLimit, Spells text n) →
      ∃ reason, p.requiredWord key object =
          .error (.invalidNumber key object (String.ofList text) reason) ∧
        (reason = .tooLarge ↔ RunsOver wordLimit text) ∧
        (reason = .invalidDigit ↔ ¬ RunsOver wordLimit text)) := by
  intro text
  refine ⟨fun n => ?_, fun hne hnone => ?_⟩
  · simp only [requiredWord_eq_ok_iff, h, Option.some.injEq, exists_eq_left']
    constructor
    · rintro ⟨w, hw, rfl⟩
      exact ⟨hw, Nat.le_of_lt_succ w.toNat_lt⟩
    · rintro ⟨hn, hle⟩
      have hword : (UInt32.ofNat n).toNat = n := by
        rw [UInt32.toNat_ofNat', Nat.mod_eq_of_lt (Nat.lt_succ_of_le hle)]
      exact ⟨.ofNat n, by rwa [hword], hword⟩
  · cases hword : p.requiredWord key object with
    | ok w =>
      obtain ⟨raw', h', hw⟩ := requiredWord_eq_ok_iff.1 hword
      obtain rfl := Option.some.inj (h.symm.trans h')
      exact absurd ⟨_, Nat.le_of_lt_succ w.toNat_lt, hw⟩ hnone
    | error e =>
      rcases requiredWord_eq_error_iff.1 hword with he | ⟨raw', reason, h', -, -, hreason, rfl⟩
      · cases he.symm.trans ((required_of_some h).trans (if_neg hne))
      · obtain rfl := Option.some.inj (h.symm.trans h')
        refine ⟨reason, rfl, hreason, ?_⟩
        rw [← hreason]
        cases reason <;> simp

/-- Digits that pass the limit are too large even in front of a letter, and zeros are none too many. -/
theorem requiredWord_by_grammar_long :
    let p : Payload := [("A", Utf8.encode "4294967296x".toList), ("B", Utf8.encode "+007".toList)]
    p.lookup "A" = some (Utf8.encode "4294967296x".toList) ∧
    p.requiredWord "A" "n/s" = .error (.invalidNumber "A" "n/s" "4294967296x" .tooLarge) ∧
    p.lookup "B" = some (Utf8.encode "+007".toList) ∧
    ∃ w : UInt32, p.requiredWord "B" "n/s" = .ok w ∧ w.toNat = 7 := by
  intro p
  have hA : p.lookup "A" = some (Utf8.encode "4294967296x".toList) := by decide +kernel
  have hB : p.lookup "B" = some (Utf8.encode "+007".toList) := by decide +kernel
  have hdecode : ∀ s : String, Utf8.decodeLossy (Utf8.encode s.toList) = s.toList :=
    fun s => Utf8.decodeLossy_encode s.toList
  have hdigits : IsDigits "4294967296".toList := List.all_eq_true.1 (by decide +kernel)
  refine ⟨hA, ?_, hB, ?_⟩
  · obtain ⟨-, hrefused⟩ := requiredWord_by_grammar "n/s" hA
    simp only [hdecode] at hrefused
    have hnone : ¬ ∃ n ≤ wordLimit, Spells "4294967296x".toList n := by
      rintro ⟨n, -, hn⟩
      exact absurd ((Unsigned.spells_iff.1 hn).2.1 'x' (by decide +kernel)) (by decide)
    obtain ⟨reason, hword, hlarge, -⟩ := hrefused (by decide +kernel) hnone
    obtain rfl : reason = .tooLarge :=
      hlarge.2 ⟨"4294967296".toList, ['x'], .inl (by decide +kernel), hdigits, by decide +kernel⟩
    exact hword
  · refine ((requiredWord_by_grammar "n/s" hB).1 7).2 ⟨?_, by decide⟩
    rw [hdecode]
    exact ⟨"007".toList, .inr (by decide +kernel), by decide +kernel,
      List.all_eq_true.1 (by decide +kernel), by decide +kernel⟩

end Oncall.Payload
