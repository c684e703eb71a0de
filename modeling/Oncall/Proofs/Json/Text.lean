import Oncall.Json.Value
import Mathlib.Data.List.TakeWhile
import Mathlib.Tactic.IntervalCases

/-! Literals as they are written. A character of a text is written as it stands, with a backslash
before a letter, or by its number; whichever it is, the lexer stays within the literal, and what is
read back is the character. A number without a sign is its decimal digits, which the lexer reads to
the end and whose value is the number. -/

namespace Oncall.Json

open Utf8

/-- The bytes between the quotes of a text. -/
def literal (s : String) : Bytes := encode (s.toList.flatMap escape)

/-- How a character is spelled. -/
inductive Spelling (c : Char) : Prop where
  | plain (h : escape c = [c]) (hne : c ≠ '"') (hne' : c ≠ '\\') (hle : 0x20 ≤ c.toNat)
  | short (letter : Char) (h : escape c = ['\\', letter]) (hu : UInt8.ofNat letter.toNat ≠ 0x75)
    (hletter : Lexer.isShortEscape (.ofNat letter.toNat) = true) (hlt : letter.toNat < 0x80)
    (hc : encodeChar c = [shortEscape (.ofNat letter.toNat)])
  | number (h : escape c =
      ['\\', 'u', '0', '0', Nat.digitChar (c.toNat / 16), Nat.digitChar (c.toNat % 16)])
    (hlt : c.toNat < 0x20)

theorem spelling (c : Char) : Spelling c := by
  have hc : ∀ n, c.toNat = n → c = Char.ofNat n := fun n h => by rw [← h, Char.ofNat_toNat]
  by_cases hq : c = '"'
  · subst hq
    exact .short '"' rfl (by decide) (by decide) (by decide) (by decide)
  by_cases hb : c = '\\'
  · subst hb
    exact .short '\\' rfl (by decide) (by decide) (by decide) (by decide)
  by_cases h8 : c.toNat = 0x08
  · rw [hc _ h8]
    exact .short 'b' rfl (by decide) (by decide) (by decide) (by decide)
  by_cases hC : c.toNat = 0x0C
  · rw [hc _ hC]
    exact .short 'f' rfl (by decide) (by decide) (by decide) (by decide)
  by_cases hn : c = '\n'
  · subst hn
    exact .short 'n' rfl (by decide) (by decide) (by decide) (by decide)
  by_cases hr : c = '\r'
  · subst hr
    exact .short 'r' rfl (by decide) (by decide) (by decide) (by decide)
  by_cases ht : c = '\t'
  · subst ht
    exact .short 't' rfl (by decide) (by decide) (by decide) (by decide)
  by_cases hlt : c.toNat < 0x20
  · exact .number (by simp [escape, hq, hb, h8, hC, hn, hr, ht, hlt]) hlt
  · exact .plain (by simp [escape, hq, hb, h8, hC, hn, hr, ht, hlt]) hq hb (by omega)

/-- A character below the first byte of two is its own byte. -/
theorem encodeChar_of_lt {c : Char} (h : c.toNat < 0x80) : encodeChar c = [.ofNat c.toNat] := by
  simp [encodeChar, h]

/-- A byte of a character is the character itself, or past all ASCII. -/
theorem toNat_of_mem_encodeChar {c : Char} {b : UInt8} (h : b ∈ encodeChar c) :
    b.toNat = c.toNat ∨ 0x80 ≤ b.toNat := by
  have hbound := toNat_lt c
  unfold encodeChar at h
  generalize c.toNat = n at h hbound
  simp only at h
  split at h
  · obtain rfl := List.mem_singleton.1 h
    exact .inl (toNat_ofNat (by omega))
  · right
    split at h
    · simp only [List.mem_cons, List.not_mem_nil, or_false] at h
      rcases h with rfl | rfl <;> rw [toNat_ofNat (by omega)] <;> omega
    · split at h
      · simp only [List.mem_cons, List.not_mem_nil, or_false] at h
        rcases h with rfl | rfl | rfl <;> rw [toNat_ofNat (by omega)] <;> omega
      · simp only [List.mem_cons, List.not_mem_nil, or_false] at h
        rcases h with rfl | rfl | rfl | rfl <;> rw [toNat_ofNat (by omega)] <;> omega

/-- No byte of a plain character means anything in a literal. -/
theorem ne_of_mem_encodeChar {c : Char} (hq : c ≠ '"') (hb : c ≠ '\\') (hle : 0x20 ≤ c.toNat)
    {b : UInt8} (h : b ∈ encodeChar c) : b ≠ 0x22 ∧ b ≠ 0x5C ∧ ¬ b < 0x20 := by
  have hq' : c.toNat ≠ 0x22 := fun e => hq (by rw [← Char.ofNat_toNat c, e])
  have hb' : c.toNat ≠ 0x5C := fun e => hb (by rw [← Char.ofNat_toNat c, e])
  have hn := toNat_of_mem_encodeChar h
  refine ⟨?_, ?_, ?_⟩
  · rintro rfl
    simp only [UInt8.reduceToNat] at hn
    omega
  · rintro rfl
    simp only [UInt8.reduceToNat] at hn
    omega
  · intro hlt
    have hlt' : b.toNat < 0x20 := UInt8.lt_iff_toNat_lt.1 hlt
    omega

/-! ### Reading back -/

theorem hexDigit_digitChar {n : Nat} (h : n < 16) :
    hexValue (.ofNat (Nat.digitChar n).toNat) = n ∧ (Nat.digitChar n).toNat < 0x80 ∧
      isHexDigit (.ofNat (Nat.digitChar n).toNat) = true := by
  have hall : ∀ n < 16, hexValue (.ofNat (Nat.digitChar n).toNat) = n ∧
      (Nat.digitChar n).toNat < 0x80 ∧ isHexDigit (.ofNat (Nat.digitChar n).toNat) = true := by
    decide
  exact hall n h

/-- The bytes of a character that is written by its number. -/
theorem encode_number {n : Nat} (h : n < 0x20) :
    encode ['\\', 'u', '0', '0', Nat.digitChar (n / 16), Nat.digitChar (n % 16)] =
      [0x5C, 0x75, 0x30, 0x30, .ofNat (Nat.digitChar (n / 16)).toNat,
        .ofNat (Nat.digitChar (n % 16)).toNat] := by
  have h1 := (hexDigit_digitChar (n := n / 16) (by omega)).2.1
  have h2 := (hexDigit_digitChar (n := n % 16) (by omega)).2.1
  simp only [encode_cons, encode_nil, encodeChar_of_lt h1, encodeChar_of_lt h2]
  rfl

theorem pieces_cons {b : UInt8} (hb : b ≠ 0x5C) (bs : Bytes) :
    pieces (b :: bs) = .byte b :: pieces bs := by
  rw [pieces.eq_def]
  split <;> simp_all

theorem pieces_short {b : UInt8} (hb : b ≠ 0x75) (bs : Bytes) :
    pieces (0x5C :: b :: bs) = .byte (shortEscape b) :: pieces bs := by
  rw [pieces]
  rintro - - - - - rfl
  exact absurd rfl hb

theorem joinPieces_unit {n : Nat} (h : n < 0xD800) (ps : List Piece) :
    joinPieces (.unit n :: ps) = (joinPieces ps).map (encodeChar (Char.ofNat n) ++ ·) := by
  have hhigh : isHighSurrogate n = false := by simp [isHighSurrogate]; omega
  have hlow : isLowSurrogate n = false := by simp [isLowSurrogate]; omega
  match ps with
  | [] => simp [joinPieces, hhigh, hlow]
  | .byte b :: ps => simp [joinPieces, hhigh, hlow]
  | .unit m :: ps => simp [joinPieces, hhigh, hlow]

/-- Bytes that are no backslash stand for themselves. -/
theorem joinPieces_plain {bs : Bytes} (h : ∀ b ∈ bs, b ≠ 0x5C) (rest : Bytes) :
    joinPieces (pieces (bs ++ rest)) = (joinPieces (pieces rest)).map (bs ++ ·) := by
  induction bs with
  | nil => simp
  | cons b bs ih =>
    rw [List.cons_append, pieces_cons (h b List.mem_cons_self), joinPieces,
      ih fun x hx => h x (List.mem_cons_of_mem b hx), Option.map_map]
    rfl

/-- A character that was written is read back, whatever follows it. -/
theorem joinPieces_escape (c : Char) (rest : Bytes) :
    joinPieces (pieces (encode (escape c) ++ rest)) =
      (joinPieces (pieces rest)).map (encodeChar c ++ ·) := by
  cases spelling c with
  | plain h hq hb hle =>
    rw [h, encode_cons, encode_nil, List.append_nil]
    exact joinPieces_plain (fun b hmem => (ne_of_mem_encodeChar hq hb hle hmem).2.1) rest
  | short letter h hu hletter hlt hc =>
    rw [h, encode_cons, encode_cons, encode_nil, encodeChar_of_lt hlt, hc,
      show encodeChar '\\' = [0x5C] by decide]
    exact congrArg joinPieces (pieces_short hu rest)
  | number h hlt =>
    have h1 := (hexDigit_digitChar (n := c.toNat / 16) (by omega)).1
    have h2 := (hexDigit_digitChar (n := c.toNat % 16) (by omega)).1
    rw [h, encode_number hlt]
    show joinPieces (pieces (0x5C :: 0x75 :: 0x30 :: 0x30 :: _ :: _ :: rest)) = _
    rw [pieces, h1, h2, joinPieces_unit (by simp [hexValue, isDigit]; omega)]
    rw [show hexValue 0x30 = 0 by decide,
      show 0 * 4096 + 0 * 256 + c.toNat / 16 * 16 + c.toNat % 16 = c.toNat by omega,
      Char.ofNat_toNat]

theorem text?_literal (s : String) : text? (literal s) = some s := by
  have hjoin : ∀ cs : List Char,
      joinPieces (pieces (encode (cs.flatMap escape))) = some (encode cs) := by
    intro cs
    induction cs with
    | nil => rfl
    | cons c cs ih => rw [List.flatMap_cons, encode_append, joinPieces_escape, ih]; rfl
  have hdecode : decode? (encode s.toList) = some s.toList := decode?_eq_some_iff.2 rfl
  simp [text?, literal, hjoin, hdecode]

/-! ### The lexer within a literal -/

theorem foldlM_text {bs : Bytes} (h : ∀ b ∈ bs, b ≠ 0x22 ∧ b ≠ 0x5C ∧ ¬ b < 0x20) (raw : Bytes)
    (ts : List Token) :
    bs.foldlM Lexer.step ⟨.text raw, ts⟩ = some ⟨.text (bs.reverse ++ raw), ts⟩ := by
  induction bs generalizing raw with
  | nil => rfl
  | cons b bs ih =>
    obtain ⟨h1, h2, h3⟩ := h b List.mem_cons_self
    have hstep : Lexer.step ⟨.text raw, ts⟩ b = some ⟨.text (b :: raw), ts⟩ := by
      simp [Lexer.step, h1, h2, h3]
    rw [List.foldlM_cons, hstep]
    simpa using ih (fun x hx => h x (List.mem_cons_of_mem b hx)) (b :: raw)

/-- A character that is written keeps the lexer within the literal. -/
theorem foldlM_escape (c : Char) (raw : Bytes) (ts : List Token) :
    (encode (escape c)).foldlM Lexer.step ⟨.text raw, ts⟩ =
      some ⟨.text ((encode (escape c)).reverse ++ raw), ts⟩ := by
  cases spelling c with
  | plain h hq hb hle =>
    rw [h, encode_cons, encode_nil, List.append_nil]
    exact foldlM_text (fun b hmem => ne_of_mem_encodeChar hq hb hle hmem) raw ts
  | short letter h hu hletter hlt hc =>
    rw [h, encode_cons, encode_cons, encode_nil, encodeChar_of_lt hlt,
      show encodeChar '\\' = [0x5C] by decide]
    simp [Lexer.step, hletter, hu]
  | number h hlt =>
    have h1 := (hexDigit_digitChar (n := c.toNat / 16) (by omega)).2.2
    have h2 := (hexDigit_digitChar (n := c.toNat % 16) (by omega)).2.2
    rw [h, encode_number hlt]
    simp [Lexer.step, h1, h2, show isHexDigit 0x30 = true by decide]

theorem foldlM_stringText (s : String) (ts : List Token) :
    (encode (stringText s)).foldlM Lexer.step ⟨.between, ts⟩ =
      some ⟨.between, .string (literal s) :: ts⟩ := by
  have hinner : ∀ (cs : List Char) (raw : Bytes),
      (encode (cs.flatMap escape)).foldlM Lexer.step ⟨.text raw, ts⟩ =
      some ⟨.text ((encode (cs.flatMap escape)).reverse ++ raw), ts⟩ := by
    intro cs
    induction cs with
    | nil => intro raw; rfl
    | cons c cs ih =>
      intro raw
      rw [List.flatMap_cons, encode_append, List.foldlM_append, foldlM_escape]
      simp [ih]
  have hquote : encode ['"'] = [0x22] := by decide
  rw [stringText, encode_append, encode_cons, hquote, show encodeChar '"' = [0x22] by decide]
  simp only [List.cons_append, List.nil_append, List.foldlM_cons, List.foldlM_append]
  rw [show Lexer.step ⟨.between, ts⟩ 0x22 = some ⟨.text [], ts⟩ from rfl, Option.bind_eq_bind,
    Option.bind_some, hinner]
  simp [Lexer.step, literal]

/-! ### Numbers -/

theorem encode_ascii {cs : List Char} (h : ∀ c ∈ cs, c.toNat < 0x80) :
    encode cs = cs.map fun c => .ofNat c.toNat := by
  induction cs with
  | nil => rfl
  | cons c cs ih =>
    rw [encode_cons, encodeChar_of_lt (h c List.mem_cons_self),
      ih fun x hx => h x (List.mem_cons_of_mem c hx)]
    rfl

theorem digit_bounds {n : Nat} {c : Char} (h : c ∈ Nat.toDigits 10 n) :
    0x30 ≤ c.toNat ∧ c.toNat ≤ 0x39 :=
  Char.isDigit_iff_toNat.mp (Nat.isDigit_of_mem_toDigits (by omega) (by omega) h)

theorem encode_toDigits (n : Nat) :
    encode (Nat.toDigits 10 n) = (Nat.toDigits 10 n).map fun c => .ofNat c.toNat :=
  encode_ascii fun c hc => by
    have := digit_bounds hc
    omega

theorem isDigit_ofNat {n : Nat} (h : 0x30 ≤ n ∧ n ≤ 0x39) :
    isDigit (.ofNat n) = true ∧ digitValue (.ofNat n) = n - 0x30 := by
  have hall : ∀ n ∈ List.range' 0x30 10,
      isDigit (.ofNat n) = true ∧ digitValue (.ofNat n) = n - 0x30 := by
    decide
  exact hall n (by simp only [List.mem_range'_1]; omega)

/-- The digits of a number, read as digits, are the number. -/
theorem spanDigits_toDigits (n : Nat) :
    (spanDigits (encode (Nat.toDigits 10 n))).2 = [] ∧
      natOfDigits (spanDigits (encode (Nat.toDigits 10 n))).1 = n := by
  have hall : ∀ b ∈ encode (Nat.toDigits 10 n), isDigit b = true := by
    intro b hb
    rw [encode_toDigits, List.mem_map] at hb
    obtain ⟨c, hc, rfl⟩ := hb
    exact (isDigit_ofNat (digit_bounds hc)).1
  constructor
  · exact List.dropWhile_eq_nil_iff.2 hall
  · have htake : (encode (Nat.toDigits 10 n)).takeWhile isDigit = encode (Nat.toDigits 10 n) :=
      List.takeWhile_eq_self_iff.2 hall
    have hvalues : ((Nat.toDigits 10 n).map fun c => digitValue (.ofNat c.toNat)) =
        (Nat.toDigits 10 n).map fun c => c.toNat - '0'.toNat :=
      List.map_congr_left fun c hc => (isDigit_ofNat (digit_bounds hc)).2
    rw [spanDigits, htake, encode_toDigits, List.map_map]
    show natOfDigits ((Nat.toDigits 10 n).map fun c => digitValue (.ofNat c.toNat)) = n
    rw [hvalues, natOfDigits, List.foldl_map]
    simpa [Nat.ofDigitChars, Nat.mul_comm] using Nat.ofDigitChars_ten_toDigits (n := n)

theorem number?_toDigits {n : Nat} (h : n ≤ maxWord) :
    number? (encode (Nat.toDigits 10 n)) = some (.integer n) := by
  obtain ⟨hrest, hvalue⟩ := spanDigits_toDigits n
  have hhead : (encode (Nat.toDigits 10 n)).head? ≠ some 0x2D := by
    intro hmem
    have hb := List.mem_of_head? hmem
    rw [encode_toDigits, List.mem_map] at hb
    obtain ⟨c, hc, he⟩ := hb
    have hbounds := digit_bounds hc
    have he' := congrArg UInt8.toNat he
    rw [toNat_ofNat (by omega)] at he'
    simp only [UInt8.reduceToNat] at he'
    omega
  have hnumeral : Numeral.ofLiteral (encode (Nat.toDigits 10 n)) =
      ⟨false, (spanDigits (encode (Nat.toDigits 10 n))).1, [], none⟩ := by
    simp [Numeral.ofLiteral, hhead, hrest]
  simp [number?, hnumeral, Numeral.number?, hvalue, h]

/-- A number that starts between tokens is being read when its last digit is. -/
theorem foldlM_toDigits (n : Nat) (ts : List Token) :
    (encode (Nat.toDigits 10 n)).foldlM Lexer.step ⟨.between, ts⟩ =
      some ⟨.number (if n = 0 then .zero else .whole) (encode (Nat.toDigits 10 n)).reverse, ts⟩ := by
  induction n using Nat.strong_induction_on with
  | _ n ih =>
    by_cases hn : n < 10
    · rw [Nat.toDigits_of_lt_base hn]
      interval_cases n <;> rfl
    · rw [Nat.toDigits_of_base_le (by omega) (by omega)]
      have hdigit : (n % 10).digitChar ∈ Nat.toDigits 10 (n % 10) := by
        rw [Nat.toDigits_of_lt_base (by omega)]
        exact List.mem_singleton_self _
      have hb := digit_bounds hdigit
      have hstep := (isDigit_ofNat hb).1
      rw [encode_append, List.foldlM_append, ih (n / 10) (by omega), if_neg (by omega),
        if_neg (by omega),
        encode_cons, encodeChar_of_lt (by omega)]
      simp [Lexer.step, NumberPart.next?, hstep]

end Oncall.Json
