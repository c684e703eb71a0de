import Oncall.Text.Utf8
import Mathlib.Data.List.Infix

/-! Where characters begin. Only some bytes can continue a character, and none of them can begin one.
So before any other byte, and at the end, whatever is open is given up, and what follows is read as if
nothing had been in front of it. A text begins with such a byte, hence it is read back from between any
bytes. -/

namespace Oncall.Utf8

/-! ### Written texts -/

/-- The bytes of a text. -/
def bytes (s : String) : Bytes := s.toByteArray.data.toList

/-- A character is written as strings store it. -/
theorem encodeChar_eq (c : Char) : encodeChar c = String.utf8EncodeChar c := by
  have hc := toNat_lt c
  have hval : c.val.toNat = c.toNat := rfl
  simp only [encodeChar, String.utf8EncodeChar, hval]
  generalize c.toNat = n at hc
  -- strings mask the upper bits of a lead byte, but none of them is set
  by_cases h1 : n < 0x80
  · rw [if_pos h1, if_pos (Nat.le_of_lt_succ h1)]
  by_cases h2 : n < 0x800
  · rw [if_neg h1, if_neg (show ¬ n ≤ 127 by omega), if_pos h2, if_pos (Nat.le_of_lt_succ h2),
      Nat.mod_eq_of_lt (show n / 64 < 32 by omega), Nat.add_comm 0xC0, Nat.add_comm 0x80]
  rw [if_neg h1, if_neg (show ¬ n ≤ 127 by omega), if_neg h2, if_neg (show ¬ n ≤ 2047 by omega)]
  by_cases h3 : n < 0x10000
  · rw [if_pos h3, if_pos (Nat.le_of_lt_succ h3), Nat.mod_eq_of_lt (show n / 4096 < 16 by omega),
      Nat.add_comm 0xE0, Nat.add_comm 0x80, Nat.add_comm 0x80]
  · rw [if_neg h3, if_neg (show ¬ n ≤ 65535 by omega),
      Nat.mod_eq_of_lt (show n / 262144 < 8 by omega), Nat.add_comm 0xF0, Nat.add_comm 0x80,
      Nat.add_comm 0x80, Nat.add_comm 0x80]

/-- Texts are written as strings are stored. -/
theorem encode_toList (s : String) : encode s.toList = bytes s := by
  rw [bytes, ← String.utf8Encode_toList, List.utf8Encode, List.data_toByteArray,
    List.toList_toArray, encode, funext encodeChar_eq]

theorem bytes_eq_nil_iff {s : String} : bytes s = [] ↔ s = "" := by
  rw [← encode_toList, ← String.toList_eq_nil_iff]
  exact ⟨fun h => encode_injective h, fun h => by rw [h]; rfl⟩

theorem decodeLossy_bytes (s : String) : decodeLossy (bytes s) = s.toList := by
  rw [← encode_toList, decodeLossy_encode]

/-! ### Continuation bytes -/

/-- A byte that may be the second or a later one of a character. -/
def Continues (b : UInt8) : Prop := 0x80 ≤ b.toNat ∧ b.toNat ≤ 0xBF

/-- At the front is no byte that continues a character. -/
def StartsAfresh (bs : Bytes) : Prop := ∀ b ∈ bs.head?, ¬ Continues b

/-- What is open, if anything is, goes on with continuation bytes only. -/
def Awaits (s : Option Partial) : Prop := ∀ p ∈ s, 0x80 ≤ p.low ∧ p.high ≤ 0xBF

theorem awaits_none : Awaits none := nofun

/-- A byte between characters opens nothing else. -/
theorem awaits_start (b : Nat) : Awaits (start b).2 := by
  intro p hp
  cases h : lead b with
  | whole c => simp [start, h] at hp
  | stray => simp [start, h] at hp
  | opens q =>
    obtain rfl : q = p := by simpa [start, h] using hp
    unfold lead at h
    split_ifs at h <;> cases h <;> simp

/-- Nothing else is open after any byte. -/
theorem awaits_step (s : Option Partial) (b : Nat) : Awaits (step s b).2 := by
  cases s with
  | none => exact awaits_start b
  | some p =>
    rw [step]
    split
    · cases p.more with
      | zero => exact awaits_none
      | succ more =>
        rintro q ⟨⟩
        exact ⟨le_refl _, le_refl _⟩
    · exact awaits_start b

/-! ### Reading across a boundary -/

variable {s : Option Partial} {a b : Bytes} {cs : List Char}

/-- A byte that continues nothing replaces what is open, and is read as if nothing were. -/
theorem step_some {p : Partial} {x : UInt8} (hp : Awaits (some p)) (hx : ¬ Continues x) :
    step (some p) x.toNat = (replacement :: (start x.toNat).1, (start x.toNat).2) := by
  obtain ⟨hlow, hhigh⟩ := hp p rfl
  have hout : ¬ (p.low ≤ x.toNat ∧ x.toNat ≤ p.high) := fun h =>
    hx ⟨hlow.trans h.1, h.2.trans hhigh⟩
  exact if_neg hout

/-- What is open is given up where something starts afresh. -/
theorem decodeFrom_of_startsAfresh (hs : Awaits s) (hb : StartsAfresh b) :
    decodeFrom s b = decodeFrom s [] ++ decodeFrom none b := by
  cases s with
  | none => rfl
  | some p =>
    cases b with
    | nil => rfl
    | cons x xs =>
      simp only [decodeFrom, step_some hs (hb x rfl)]
      rfl

/-- Bytes are read apart from those in front of them if they start afresh. -/
theorem decodeFrom_append (hs : Awaits s) (hb : StartsAfresh b) :
    decodeFrom s (a ++ b) = decodeFrom s a ++ decodeFrom none b := by
  induction a generalizing s with
  | nil => exact decodeFrom_of_startsAfresh hs hb
  | cons x xs ih =>
    rw [List.cons_append, decodeFrom, decodeFrom, ih (awaits_step s x.toNat), List.append_assoc]

theorem decodeLossy_append (hb : StartsAfresh b) :
    decodeLossy (a ++ b) = decodeLossy a ++ decodeLossy b := decodeFrom_append awaits_none hb

theorem startsAfresh_encodeChar (c : Char) (bs : Bytes) : StartsAfresh (encodeChar c ++ bs) := by
  have hc := toNat_lt c
  simp only [StartsAfresh, encodeChar, Continues]
  generalize c.toNat = n at hc
  split_ifs <;> simp <;> omega

/-- A text is read back from between any bytes. -/
theorem decodeLossy_around (h : cs ≠ []) (a b : Bytes) :
    decodeLossy (a ++ encode cs ++ b) = decodeLossy a ++ cs ++ decodeLossy b := by
  obtain ⟨c, cs, rfl⟩ := List.exists_cons_of_ne_nil h
  have hstart : StartsAfresh (encode (c :: cs) ++ b) := by
    rw [encode_cons, List.append_assoc]
    exact startsAfresh_encodeChar c _
  rw [List.append_assoc, decodeLossy_append hstart, decodeLossy_encode_append, List.append_assoc]

/-- A text is read back behind any bytes. -/
theorem decodeLossy_append_encode (a : Bytes) (cs : List Char) :
    decodeLossy (a ++ encode cs) = decodeLossy a ++ cs := by
  by_cases h : cs = []
  · rw [h, encode_nil, List.append_nil, List.append_nil]
  · simpa [decodeLossy, decodeFrom] using decodeLossy_around h a []

end Oncall.Utf8
