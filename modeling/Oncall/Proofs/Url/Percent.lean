import Oncall.Url.Form
import Mathlib.Data.List.Infix

/-! Escapes read back. A percent sign before two hexadecimal digits stands for a byte, and every
other character for its own bytes. What was escaped is read back as the text it was, with one
exception: escaping leaves percent signs alone, so a text that holds an escape of its own is read as
fewer bytes than it has. -/

namespace Oncall.Url

open Utf8

/-- No percent sign stands before two hexadecimal digits. -/
def Unescaped (cs : List Char) : Prop :=
  ∀ a b, (hexDigit? a).isSome → (hexDigit? b).isSome → ¬ ['%', a, b] <:+: cs

theorem Unescaped.tail {c : Char} {cs : List Char} (h : Unescaped (c :: cs)) : Unescaped cs :=
  fun a b ha hb hin => h a b ha hb (hin.trans (List.suffix_cons c cs).isInfix)

section Decoding

variable {a b c : Char} {cs : List Char} {m n : Nat}

theorem percentDecode_cons (hc : c ≠ '%') (cs : List Char) :
    percentDecode (c :: cs) = encodeChar c ++ percentDecode cs :=
  percentDecode.eq_2 c cs fun _ _ _ h _ => hc h

theorem percentDecode_escape_cons (ha : hexDigit? a = some m) (hb : hexDigit? b = some n)
    (cs : List Char) :
    percentDecode ('%' :: a :: b :: cs) = .ofNat (m * 16 + n) :: percentDecode cs := by
  rw [percentDecode, ha, hb]

/-- A percent sign that no two digits follow stands for itself. -/
theorem percentDecode_lone
    (h : ∀ a b rest, cs = a :: b :: rest → (hexDigit? a).isSome → (hexDigit? b).isSome → False) :
    percentDecode ('%' :: cs) = 0x25 :: percentDecode cs := by
  match cs with
  | [] => rfl
  | [a] => rfl
  | a :: b :: rest =>
    rw [percentDecode]
    split
    next m n ha hb => exact (h a b rest rfl (by rw [ha]; rfl) (by rw [hb]; rfl)).elim
    next => rfl

/-- Every byte is spelled by its two digits. -/
theorem percentDecode_percentByte (b : UInt8) (cs : List Char) :
    percentDecode (percentByte b ++ cs) = b :: percentDecode cs := by
  have hdigit : ∀ n < 16, hexDigit? (Nat.digitChar n).toUpper = some n := by decide
  have hb : b.toNat < 256 := b.toNat_lt
  show percentDecode ('%' :: _ :: _ :: cs) = _
  rw [percentDecode_escape_cons (hdigit (b.toNat / 16) (by omega))
    (hdigit (b.toNat % 16) (by omega)), Nat.div_add_mod', UInt8.ofNat_toNat]

theorem percentDecode_percentChar (c : Char) (cs : List Char) :
    percentDecode (percentChar c ++ cs) = encodeChar c ++ percentDecode cs := by
  rw [percentChar]
  induction encodeChar c with
  | nil => rfl
  | cons b bs ih =>
    rw [List.flatMap_cons, List.append_assoc, percentDecode_percentByte, ih, List.cons_append]

end Decoding

/-! ### Characters of an escaped text -/

theorem mem_percentByte {b : UInt8} {x : Char} (h : x ∈ percentByte b) :
    x = '%' ∨ (hexDigit? x).isSome = true := by
  have hdigit : ∀ n < 16, (hexDigit? (Nat.digitChar n).toUpper).isSome = true := by decide
  have hb : b.toNat < 256 := b.toNat_lt
  simp only [percentByte, List.mem_cons, List.not_mem_nil, or_false] at h
  rcases h with rfl | rfl | rfl
  · exact .inl rfl
  · exact .inr (hdigit _ (by omega))
  · exact .inr (hdigit _ (by omega))

/-- Escaping adds percent signs and digits only, and leaves no character that is to be escaped. -/
theorem mem_escape {escapes : Char → Bool} {cs : List Char} {x : Char} (h : x ∈ escape escapes cs) :
    x = '%' ∨ (hexDigit? x).isSome = true ∨ x ∈ cs ∧ escapes x = false := by
  obtain ⟨c, hc, hx⟩ := List.mem_flatMap.1 h
  split at hx
  next =>
    obtain ⟨b, -, hb⟩ := List.mem_flatMap.1 hx
    exact (mem_percentByte hb).imp_right .inl
  next hkept =>
    obtain rfl := List.mem_singleton.1 hx
    exact .inr (.inr ⟨hc, Bool.eq_false_iff.2 hkept⟩)

/-- A separator is in an escaped text only if it was there before and is kept. -/
theorem not_mem_escape {escapes : Char → Bool} {cs : List Char} {x : Char}
    (hx : x ∉ cs ∨ escapes x = true) (hpercent : x ≠ '%') (hdigit : hexDigit? x = none) :
    x ∉ escape escapes cs := by
  intro h
  rcases mem_escape h with h | h | ⟨hmem, hkept⟩
  · exact hpercent h
  · rw [hdigit] at h
    cases h
  · rcases hx with hx | hx
    · exact hx hmem
    · rw [hx] at hkept
      cases hkept

/-! ### Escaped paths -/

theorem escape_cons (escapes : Char → Bool) (c : Char) (cs : List Char) :
    escape escapes (c :: cs) = (if escapes c then percentChar c else [c]) ++ escape escapes cs :=
  List.flatMap_cons

theorem escapesInPath_of_hexDigit {c : Char} (h : (hexDigit? c).isSome = true) :
    escapesInPath c = false := by
  have hall : ∀ n < 0x67, (hexDigit? (Char.ofNat n)).isSome = true →
      escapesInPath (Char.ofNat n) = false := by decide
  have hlt : c.toNat < 0x67 := by
    by_contra hge
    simp [hexDigit?, show ¬ c.toNat ≤ 0x39 by omega, show ¬ c.toNat ≤ 0x46 by omega,
      show ¬ c.toNat ≤ 0x66 by omega] at h
  have hc := hall c.toNat hlt
  rw [Char.ofNat_toNat] at hc
  exact hc h

theorem encodeChar_ne_nil (c : Char) : encodeChar c ≠ [] := by
  unfold encodeChar
  dsimp only
  split_ifs <;> exact List.cons_ne_nil _ _

/-- A digit at the start of an escaped path was there before. -/
theorem eq_cons_of_escape {cs rest : List Char} {a : Char} (ha : (hexDigit? a).isSome = true)
    (h : escape escapesInPath cs = a :: rest) :
    ∃ cs', cs = a :: cs' ∧ escape escapesInPath cs' = rest := by
  cases cs with
  | nil => cases h
  | cons c cs =>
    rw [escape_cons] at h
    by_cases hc : escapesInPath c = true
    · rw [if_pos hc, percentChar] at h
      cases he : encodeChar c with
      | nil => exact absurd he (encodeChar_ne_nil c)
      | cons b bs =>
        rw [he, List.flatMap_cons, percentByte] at h
        obtain rfl : '%' = a := (List.cons.inj h).1
        cases ha
    · rw [if_neg hc] at h
      obtain ⟨rfl, hrest⟩ := List.cons.inj h
      exact ⟨cs, rfl, hrest⟩

/-- The text starts with an escape. -/
def StartsEscape (cs : List Char) : Prop :=
  ∃ a b rest, cs = '%' :: a :: b :: rest ∧ (hexDigit? a).isSome = true ∧ (hexDigit? b).isSome = true

theorem Unescaped.cons {c : Char} {cs : List Char} (h : Unescaped cs)
    (hc : ¬ StartsEscape (c :: cs)) : Unescaped (c :: cs) := by
  intro a b ha hb hin
  rcases List.infix_cons_iff.1 hin with ⟨rest, hrest⟩ | hin
  · exact hc ⟨a, b, rest, hrest.symm, ha, hb⟩
  · exact h a b ha hb hin

/-- A character that starts no escape is read back, whatever follows it. -/
theorem percentDecode_escape_step {c : Char} {cs : List Char} (hc : ¬ StartsEscape (c :: cs)) :
    percentDecode (escape escapesInPath (c :: cs)) =
      encodeChar c ++ percentDecode (escape escapesInPath cs) := by
  rw [escape_cons]
  by_cases he : escapesInPath c = true
  · rw [if_pos he, percentDecode_percentChar]
  rw [if_neg he]
  by_cases hpercent : c = '%'
  · subst hpercent
    refine percentDecode_lone fun a b rest hrest ha hb => hc ?_
    obtain ⟨cs', rfl, htail⟩ := eq_cons_of_escape ha hrest
    obtain ⟨cs'', rfl, -⟩ := eq_cons_of_escape hb htail
    exact ⟨a, b, cs'', rfl, ha, hb⟩
  · exact percentDecode_cons hpercent _

/-- How an escaped path is read back: as the text it was, or as fewer bytes. -/
inductive ReadBack (cs : List Char) : Prop
  | whole (h : Unescaped cs) (heq : percentDecode (escape escapesInPath cs) = encode cs)
  | shorter (h : ¬ Unescaped cs)
      (hlt : (percentDecode (escape escapesInPath cs)).length < (encode cs).length)

theorem ReadBack.length_le {cs : List Char} (h : ReadBack cs) :
    (percentDecode (escape escapesInPath cs)).length ≤ (encode cs).length := by
  cases h with
  | whole h heq => rw [heq]
  | shorter h hlt => exact hlt.le

theorem ReadBack.cons {c : Char} {cs : List Char} (h : ReadBack cs)
    (hc : ¬ StartsEscape (c :: cs)) : ReadBack (c :: cs) := by
  have hstep := percentDecode_escape_step hc
  cases h with
  | whole h heq => exact .whole (h.cons hc) (by rw [hstep, heq, encode_cons])
  | shorter h hlt =>
    refine .shorter (fun hcons => h hcons.tail) ?_
    rw [hstep, encode_cons, List.length_append, List.length_append]
    exact Nat.add_lt_add_left hlt _

/-- An escaped path is read back if the text held no escape of its own, and is read as fewer bytes
if it did. -/
theorem readBack (cs : List Char) : ReadBack cs := by
  -- The escapes of the text, not of the escaped one: these are what reading back takes for bytes.
  induction cs using percentDecode.induct with
  | case1 a b cs m n hb ha ih =>
    have ha' : (hexDigit? a).isSome = true := by rw [ha]; rfl
    have hb' : (hexDigit? b).isSome = true := by rw [hb]; rfl
    have hkept : escape escapesInPath ('%' :: a :: b :: cs) =
        '%' :: a :: b :: escape escapesInPath cs := by
      simp [escape_cons, escapesInPath_of_hexDigit ha', escapesInPath_of_hexDigit hb',
        show escapesInPath '%' = false by decide]
    refine .shorter (fun h => h a b ha' hb' (List.prefix_append ['%', a, b] cs).isInfix) ?_
    have hpos := List.length_pos_iff.2 (encodeChar_ne_nil '%')
    have hpos' := List.length_pos_iff.2 (encodeChar_ne_nil a)
    have hle := ih.length_le
    rw [hkept, percentDecode_escape_cons ha hb]
    simp only [encode_cons, List.length_cons, List.length_append]
    omega
  | case2 a b cs hab ih =>
    refine ih.cons ?_
    rintro ⟨a', b', rest, heq, ha, hb⟩
    cases heq
    obtain ⟨m, hm⟩ := Option.isSome_iff_exists.1 ha
    obtain ⟨n, hn⟩ := Option.isSome_iff_exists.1 hb
    exact hab m n hm hn
  | case3 c cs hcs ih =>
    refine ih.cons ?_
    rintro ⟨a, b, rest, heq, -, -⟩
    obtain ⟨rfl, rfl⟩ := List.cons.inj heq
    exact hcs a b rest rfl rfl
  | case4 => exact .whole (fun a b _ _ h => by simpa using h.length_le) rfl

end Oncall.Url
