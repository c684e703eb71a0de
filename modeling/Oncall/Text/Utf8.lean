/-!
UTF-8 over lists of bytes. `encode` writes, `decode?` reads back only what was written, and
`decodeLossy` reads anything: every longest piece of a character that is cut off becomes one
replacement character.
-/

namespace Oncall

abbrev Bytes := List UInt8

namespace Utf8

/-- What a lead byte promises: the range of the next byte, how many plain continuation bytes follow
it, and the bits read so far. -/
structure Partial where
  low : Nat
  high : Nat
  more : Nat
  bits : Nat

/-- A byte between characters is a whole character, the start of one, or out of place. -/
inductive Lead where
  | whole (c : Char)
  | opens (p : Partial)
  | stray

def lead (b : Nat) : Lead :=
  if b < 0x80 then .whole (Char.ofNat b)
  else if b < 0xC2 then .stray
  else if b < 0xE0 then .opens ⟨0x80, 0xBF, 0, b - 0xC0⟩
  else if b = 0xE0 then .opens ⟨0xA0, 0xBF, 1, 0⟩
  else if b = 0xED then .opens ⟨0x80, 0x9F, 1, 0xD⟩
  else if b < 0xF0 then .opens ⟨0x80, 0xBF, 1, b - 0xE0⟩
  else if b = 0xF0 then .opens ⟨0x90, 0xBF, 2, 0⟩
  else if b < 0xF4 then .opens ⟨0x80, 0xBF, 2, b - 0xF0⟩
  else if b = 0xF4 then .opens ⟨0x80, 0x8F, 2, 4⟩
  else .stray

/-- Stands for bytes that are no character. -/
def replacement : Char := Char.ofNat 0xFFFD

/-- One byte between characters: what it completes, and what it leaves open. -/
def start (b : Nat) : List Char × Option Partial :=
  match lead b with
  | .whole c => ([c], none)
  | .opens p => ([], some p)
  | .stray => ([replacement], none)

/-- One byte: a byte that does not continue an open character replaces it and starts afresh. -/
def step : Option Partial → Nat → List Char × Option Partial
  | none, b => start b
  | some p, b =>
    if p.low ≤ b ∧ b ≤ p.high then
      let bits := p.bits * 64 + (b - 0x80)
      match p.more with
      | 0 => ([Char.ofNat bits], none)
      | more + 1 => ([], some ⟨0x80, 0xBF, more, bits⟩)
    else (replacement :: (start b).1, (start b).2)

/-- Reads on from what is open. -/
def decodeFrom : Option Partial → Bytes → List Char
  | none, [] => []
  | some _, [] => [replacement]
  | s, b :: bs => (step s b.toNat).1 ++ decodeFrom (step s b.toNat).2 bs

def decodeLossy (bs : Bytes) : List Char := decodeFrom none bs

def encodeChar (c : Char) : Bytes :=
  let n := c.toNat
  if n < 0x80 then [.ofNat n]
  else if n < 0x800 then [.ofNat (0xC0 + n / 64), .ofNat (0x80 + n % 64)]
  else if n < 0x10000 then
    [.ofNat (0xE0 + n / 4096), .ofNat (0x80 + n / 64 % 64), .ofNat (0x80 + n % 64)]
  else
    [.ofNat (0xF0 + n / 262144), .ofNat (0x80 + n / 4096 % 64), .ofNat (0x80 + n / 64 % 64),
      .ofNat (0x80 + n % 64)]

def encode (cs : List Char) : Bytes := cs.flatMap encodeChar

/-- Reads exactly the texts that `encode` writes. -/
def decode? (bs : Bytes) : Option (List Char) :=
  if encode (decodeLossy bs) = bs then some (decodeLossy bs) else none

@[simp] theorem encode_nil : encode [] = [] := rfl

@[simp] theorem encode_cons (c : Char) (cs : List Char) :
    encode (c :: cs) = encodeChar c ++ encode cs :=
  List.flatMap_cons

@[simp] theorem encode_append (a b : List Char) : encode (a ++ b) = encode a ++ encode b :=
  List.flatMap_append

theorem toNat_lt (c : Char) : c.toNat < 0xD800 ∨ (0xDFFF < c.toNat ∧ c.toNat < 0x110000) := by
  have h := c.valid
  simpa [UInt32.isValidChar, Nat.isValidChar] using h

theorem toNat_ofNat {b : Nat} (h : b < 256) : (UInt8.ofNat b).toNat = b := by simp; omega

theorem decodeFrom_whole {b : Nat} (h : b < 0x80) (bs : Bytes) :
    decodeFrom none (.ofNat b :: bs) = Char.ofNat b :: decodeFrom none bs := by
  simp only [decodeFrom, toNat_ofNat (show b < 256 by omega), step, start, lead, if_pos h]
  rfl

theorem decodeFrom_opens {b : Nat} {p : Partial} (hb : b < 256) (h : lead b = .opens p)
    (bs : Bytes) :
    decodeFrom none (.ofNat b :: bs) = decodeFrom (some p) bs := by
  simp [decodeFrom, toNat_ofNat hb, step, start, h]

theorem decodeFrom_more {b : Nat} {p : Partial} {more : Nat} (hb : b < 256) (lo : p.low ≤ b)
    (hi : b ≤ p.high) (hm : p.more = more + 1) (bs : Bytes) :
    decodeFrom (some p) (.ofNat b :: bs)
      = decodeFrom (some ⟨0x80, 0xBF, more, p.bits * 64 + (b - 0x80)⟩) bs := by
  simp [decodeFrom, toNat_ofNat hb, step, lo, hi, hm]

theorem decodeFrom_last {b : Nat} {p : Partial} (hb : b < 256) (lo : p.low ≤ b) (hi : b ≤ p.high)
    (hm : p.more = 0) (bs : Bytes) :
    decodeFrom (some p) (.ofNat b :: bs)
      = Char.ofNat (p.bits * 64 + (b - 0x80)) :: decodeFrom none bs := by
  simp [decodeFrom, toNat_ofNat hb, step, lo, hi, hm]

/-- The lead byte of two bytes opens a range that holds the second. -/
theorem lead_two {n : Nat} (h1 : 0x80 ≤ n) (h2 : n < 0x800) :
    ∃ p, lead (0xC0 + n / 64) = .opens p ∧ p.low ≤ 0x80 + n % 64 ∧ 0x80 + n % 64 ≤ p.high ∧
      p.more = 0 ∧ p.bits = n / 64 := by
  unfold lead
  rw [if_neg (by omega), if_neg (by omega), if_pos (by omega)]
  exact ⟨_, rfl, by simp, by simp; omega, rfl, by simp⟩

/-- The lead byte of three bytes opens a range that holds the second. -/
theorem lead_three {n : Nat} (h1 : 0x800 ≤ n) (h2 : n < 0x10000) (hs : n < 0xD800 ∨ 0xDFFF < n) :
    ∃ p, lead (0xE0 + n / 4096) = .opens p ∧ p.low ≤ 0x80 + n / 64 % 64 ∧
      0x80 + n / 64 % 64 ≤ p.high ∧ p.more = 1 ∧ p.bits = n / 4096 := by
  unfold lead
  rw [if_neg (by omega), if_neg (by omega), if_neg (by omega)]
  split
  · exact ⟨_, rfl, by simp; omega, by simp; omega, rfl, by simp; omega⟩
  · split
    · exact ⟨_, rfl, by simp, by simp; omega, rfl, by simp; omega⟩
    · rw [if_pos (by omega)]
      exact ⟨_, rfl, by simp, by simp; omega, rfl, by simp⟩

/-- The lead byte of four bytes opens a range that holds the second. -/
theorem lead_four {n : Nat} (h1 : 0x10000 ≤ n) (h2 : n < 0x110000) :
    ∃ p, lead (0xF0 + n / 262144) = .opens p ∧ p.low ≤ 0x80 + n / 4096 % 64 ∧
      0x80 + n / 4096 % 64 ≤ p.high ∧ p.more = 2 ∧ p.bits = n / 262144 := by
  unfold lead
  rw [if_neg (by omega), if_neg (by omega), if_neg (by omega), if_neg (by omega), if_neg (by omega),
    if_neg (by omega)]
  split
  · exact ⟨_, rfl, by simp; omega, by simp; omega, rfl, by simp; omega⟩
  · split
    · exact ⟨_, rfl, by simp, by simp; omega, rfl, by simp⟩
    · rw [if_pos (by omega)]
      exact ⟨_, rfl, by simp, by simp; omega, rfl, by simp; omega⟩

/-- A character that was written is read back, whatever follows it. -/
theorem decodeFrom_encodeChar (c : Char) (bs : Bytes) :
    decodeFrom none (encodeChar c ++ bs) = c :: decodeFrom none bs := by
  have hc := toNat_lt c
  have hn : Char.ofNat c.toNat = c := Char.ofNat_toNat c
  unfold encodeChar
  generalize c.toNat = n at hc hn
  simp only
  split
  · rename_i h
    simp [decodeFrom_whole h, hn]
  · split
    · obtain ⟨p, hl, lo, hi, hm, hb⟩ := lead_two (n := n) (by omega) (by omega)
      simp only [List.cons_append, List.nil_append]
      rw [decodeFrom_opens (by omega) hl, decodeFrom_last (by omega) lo hi hm, hb,
        show n / 64 * 64 + (0x80 + n % 64 - 0x80) = n by omega, hn]
    · split
      · obtain ⟨p, hl, lo, hi, hm, hb⟩ := lead_three (n := n) (by omega) (by omega) (by omega)
        simp only [List.cons_append, List.nil_append]
        rw [decodeFrom_opens (by omega) hl, decodeFrom_more (by omega) lo hi hm,
          decodeFrom_last (by omega) (by simp) (by simp; omega) rfl, hb]
        rw [show (n / 4096 * 64 + (0x80 + n / 64 % 64 - 0x80)) * 64
          + (0x80 + n % 64 - 0x80) = n by omega, hn]
      · obtain ⟨p, hl, lo, hi, hm, hb⟩ := lead_four (n := n) (by omega) (by omega)
        simp only [List.cons_append, List.nil_append]
        rw [decodeFrom_opens (by omega) hl, decodeFrom_more (by omega) lo hi hm,
          decodeFrom_more (by omega) (by simp) (by simp; omega) rfl,
          decodeFrom_last (by omega) (by simp) (by simp; omega) rfl, hb]
        rw [show ((n / 262144 * 64 + (0x80 + n / 4096 % 64 - 0x80)) * 64
          + (0x80 + n / 64 % 64 - 0x80)) * 64 + (0x80 + n % 64 - 0x80) = n by omega, hn]

theorem decodeLossy_encode_append (cs : List Char) (bs : Bytes) :
    decodeLossy (encode cs ++ bs) = cs ++ decodeLossy bs := by
  induction cs with
  | nil => rfl
  | cons c cs ih => simpa [decodeLossy, List.append_assoc, decodeFrom_encodeChar] using ih

theorem decodeLossy_encode (cs : List Char) : decodeLossy (encode cs) = cs := by
  simpa [decodeLossy, decodeFrom] using decodeLossy_encode_append cs []

theorem decode?_eq_some_iff {bs : Bytes} {cs : List Char} :
    decode? bs = some cs ↔ bs = encode cs := by
  unfold decode?
  constructor
  · split
    · rintro ⟨⟩; symm; assumption
    · simp
  · rintro rfl; simp [decodeLossy_encode]

/-- What is open comes to something. -/
theorem decodeFrom_some_ne_nil (p : Partial) (bs : Bytes) : decodeFrom (some p) bs ≠ [] := by
  induction bs generalizing p with
  | nil => simp [decodeFrom]
  | cons b bs ih =>
    rw [decodeFrom, step]
    split
    · cases p.more with
      | zero => simp
      | succ more => exact ih _
    · simp

/-- Nothing but the empty text is read as the empty text. -/
theorem decodeLossy_eq_nil_iff {bs : Bytes} : decodeLossy bs = [] ↔ bs = [] := by
  refine ⟨fun h => ?_, fun h => h ▸ rfl⟩
  cases bs with
  | nil => rfl
  | cons b bs =>
    rw [decodeLossy, decodeFrom, step, start] at h
    cases hb : lead b.toNat with
    | whole c => simp [hb] at h
    | opens p => exact absurd (by simpa [hb] using h) (decodeFrom_some_ne_nil p bs)
    | stray => simp [hb] at h

theorem encode_injective {a b : List Char} (h : encode a = encode b) : a = b := by
  rw [← decodeLossy_encode a, h, decodeLossy_encode]

end Utf8

end Oncall
