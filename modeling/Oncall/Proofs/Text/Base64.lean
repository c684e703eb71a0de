import Oncall.Text.Base64

/-! Base64 is read back. Three bytes are four digits of six bits; one or two bytes at the end leave
bits over, which are zero, and padding signs in place of the digits that are not there. -/

namespace Oncall.Base64

/-- The digits mean what they stand for, and none of them is the padding sign. -/
theorem digit_spec {n : Nat} (h : n < 64) :
    value? (digit n) = some n ∧ digit n ≠ '=' := by
  have hall : ∀ n < 64, value? (digit n) = some n ∧ digit n ≠ '=' := by decide +kernel
  exact hall n h

/-- Four characters of which the last is no padding sign. -/
theorem decode?_four {a b c d : Char} (hd : d ≠ '=') (rest : List Char) :
    decode? (a :: b :: c :: d :: rest) = (do
      let x ← value? a
      let y ← value? b
      let z ← value? c
      let w ← value? d
      let bytes ← decode? rest
      some (.ofNat (x * 4 + y / 16) :: .ofNat (y % 16 * 16 + z / 4) ::
        .ofNat (z % 4 * 64 + w) :: bytes)) := by
  rw [decode?]
  · rintro - rfl
    exact absurd rfl hd
  · rintro rfl
    exact absurd rfl hd

theorem ofNat_eq {b : UInt8} {n : Nat} (h : n = b.toNat) : UInt8.ofNat n = b := by
  rw [h, UInt8.ofNat_toNat]

theorem decode?_encode (bs : Bytes) : decode? (encode bs) = some bs := by
  induction bs using encode.induct with
  | case1 => rfl
  | case2 a =>
    have ha := a.toNat_lt
    have hx := (digit_spec (n := a.toNat / 4) (by omega)).1
    have hy := (digit_spec (n := a.toNat % 4 * 16) (by omega)).1
    have h1 : UInt8.ofNat (a.toNat / 4 * 4 + a.toNat % 4 * 16 / 16) = a := ofNat_eq (by omega)
    have h2 : a.toNat % 4 * 16 % 16 = 0 := by omega
    simp only [encode, decode?, hx, hy, Option.bind_eq_bind, Option.bind_some, if_pos h2, h1]
  | case3 a b =>
    have ha := a.toNat_lt
    have hb := b.toNat_lt
    have hx := (digit_spec (n := a.toNat / 4) (by omega)).1
    have hy := (digit_spec (n := a.toNat % 4 * 16 + b.toNat / 16) (by omega)).1
    obtain ⟨hz, hpad⟩ := digit_spec (n := b.toNat % 16 * 4) (by omega)
    have h1 : UInt8.ofNat (a.toNat / 4 * 4 + (a.toNat % 4 * 16 + b.toNat / 16) / 16) = a :=
      ofNat_eq (by omega)
    have h2 : UInt8.ofNat ((a.toNat % 4 * 16 + b.toNat / 16) % 16 * 16 + b.toNat % 16 * 4 / 4) = b :=
      ofNat_eq (by omega)
    have h3 : b.toNat % 16 * 4 % 4 = 0 := by omega
    rw [encode, decode?]
    · simp only [hx, hy, hz, Option.bind_eq_bind, Option.bind_some, if_pos h3, h1, h2]
    · exact hpad
  | case4 a b c rest ih =>
    have ha := a.toNat_lt
    have hb := b.toNat_lt
    have hc := c.toNat_lt
    have hx := (digit_spec (n := a.toNat / 4) (by omega)).1
    have hy := (digit_spec (n := a.toNat % 4 * 16 + b.toNat / 16) (by omega)).1
    have hz := (digit_spec (n := b.toNat % 16 * 4 + c.toNat / 64) (by omega)).1
    obtain ⟨hw, hpad⟩ := digit_spec (n := c.toNat % 64) (by omega)
    have h1 : UInt8.ofNat (a.toNat / 4 * 4 + (a.toNat % 4 * 16 + b.toNat / 16) / 16) = a :=
      ofNat_eq (by omega)
    have h2 : UInt8.ofNat ((a.toNat % 4 * 16 + b.toNat / 16) % 16 * 16 +
        (b.toNat % 16 * 4 + c.toNat / 64) / 4) = b := ofNat_eq (by omega)
    have h3 : UInt8.ofNat ((b.toNat % 16 * 4 + c.toNat / 64) % 4 * 64 + c.toNat % 64) = c :=
      ofNat_eq (by omega)
    rw [encode, decode?_four hpad]
    simp only [hx, hy, hz, hw, ih, Option.bind_eq_bind, Option.bind_some, h1, h2, h3]

end Oncall.Base64
