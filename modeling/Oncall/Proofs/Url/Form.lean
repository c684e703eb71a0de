import Oncall.Proofs.Text.Parts
import Oncall.Proofs.Url.Percent

/-! Pairs read back from a query. A query is cut at its ampersands and each part at its first equals
sign; in names and values a plus sign is a space, and percent signs stand before bytes. No text
written as a name or value holds an ampersand or an equals sign, so pairs are read as they were
written, whatever texts they are made of. A number is written as its digits. -/

namespace Oncall.Form

open Utf8 Url

/-! ### Reading -/

def spaceOfPlus (c : Char) : Char := if c = '+' then ' ' else c

/-- The text that a name or value stands for. -/
def decodeText (cs : List Char) : String :=
  String.ofList (decodeLossy (percentDecode (cs.map spaceOfPlus)))

/-- The pair in a part; one without an equals sign is a name with an empty value. -/
def decodePair (cs : List Char) : String × String :=
  (decodeText (Parts.cut (· = '=') cs).1, decodeText ((Parts.cut (· = '=') cs).2.drop 1))

/-- The pairs of a query; empty parts count for nothing. -/
def decode (cs : List Char) : List (String × String) :=
  ((Parts.split (· = '&') cs).filter fun part => !part.isEmpty).map decodePair

/-! ### Names and values -/

theorem forall_byte {P : UInt8 → Prop} (h : ∀ n < 256, P (.ofNat n)) (b : UInt8) : P b := by
  have hb := h b.toNat b.toNat_lt
  rwa [UInt8.ofNat_toNat] at hb

/-- Bytes that stand for themselves mean nothing else. -/
theorem of_isPlain : ∀ b : UInt8, isPlain b = true →
    Char.ofNat b.toNat ∉ ['%', '+', '&', '='] ∧ encodeChar (Char.ofNat b.toNat) = [b] :=
  forall_byte (by decide +kernel)

/-- How a byte is written. -/
inductive Written (b : UInt8) : Prop
  | plain (c : Char) (h : encodeByte b = [c]) (hc : c ∉ ['%', '+', '&', '='])
      (hbytes : encodeChar c = [b])
  | space (h : encodeByte b = ['+']) (hb : encodeChar ' ' = [b])
  | escaped (h : encodeByte b = percentByte b)

theorem written (b : UInt8) : Written b := by
  by_cases hplain : isPlain b = true
  · exact .plain _ (if_pos hplain) (of_isPlain b hplain).1 (of_isPlain b hplain).2
  · by_cases hspace : b = 0x20
    · subst hspace
      exact .space rfl (by decide)
    · exact .escaped (by rw [encodeByte, if_neg hplain, if_neg hspace])

theorem map_spaceOfPlus_percentByte (b : UInt8) :
    (percentByte b).map spaceOfPlus = percentByte b := by
  refine (List.map_congr_left fun x hx => ?_).trans (List.map_id _)
  rcases mem_percentByte hx with rfl | h
  · rfl
  · refine if_neg ?_
    rintro rfl
    cases h

theorem percentDecode_encodeByte (b : UInt8) (cs : List Char) :
    percentDecode ((encodeByte b ++ cs).map spaceOfPlus) =
      b :: percentDecode (cs.map spaceOfPlus) := by
  rw [List.map_append]
  cases written b with
  | plain c h hc hbytes =>
    have hpercent : c ≠ '%' := fun e => hc (by simp [e])
    have hplus : spaceOfPlus c = c := if_neg fun e => hc (by simp [e])
    rw [h, List.map_singleton, hplus, List.singleton_append, percentDecode_cons hpercent, hbytes,
      List.singleton_append]
  | space h hb =>
    rw [h, show ['+'].map spaceOfPlus = [' '] from rfl, List.singleton_append,
      percentDecode_cons (by decide), hb, List.singleton_append]
  | escaped h => rw [h, map_spaceOfPlus_percentByte, percentDecode_percentByte]

theorem decodeText_encodeText (s : String) : decodeText (encodeText s) = s := by
  have hbytes : ∀ bs : Bytes,
      percentDecode ((bs.flatMap encodeByte).map spaceOfPlus) = bs := by
    intro bs
    induction bs with
    | nil => rfl
    | cons b bs ih => rw [List.flatMap_cons, percentDecode_encodeByte, ih]
  rw [decodeText, encodeText, hbytes, decodeLossy_encode, String.ofList_toList]

/-- Neither an ampersand nor an equals sign is written for a byte. -/
theorem ne_separator {s : String} {x : Char} (h : x ∈ encodeText s) : x ≠ '&' ∧ x ≠ '=' := by
  obtain ⟨b, -, hb⟩ := List.mem_flatMap.1 h
  cases written b with
  | plain c h hc _ =>
    rw [h] at hb
    obtain rfl := List.mem_singleton.1 hb
    exact ⟨fun e => hc (by simp [e]), fun e => hc (by simp [e])⟩
  | space h _ =>
    rw [h] at hb
    obtain rfl := List.mem_singleton.1 hb
    decide
  | escaped h =>
    rw [h] at hb
    rcases mem_percentByte hb with rfl | hdigit
    · decide
    · constructor
      · rintro rfl
        cases hdigit
      · rintro rfl
        cases hdigit

/-! ### Pairs -/

theorem decodePair_encodePair (p : String × String) : decodePair (encodePair p) = p := by
  have hcut : Parts.cut (· = '=') (encodePair p) = (encodeText p.1, '=' :: encodeText p.2) :=
    Parts.cut_append (fun x hx => decide_eq_false (ne_separator hx).2) (by decide) _
  rw [decodePair, hcut, List.drop_one, List.tail_cons, decodeText_encodeText, decodeText_encodeText]

theorem split_encodePair (p : String × String) :
    Parts.split (· = '&') (encodePair p) = [encodePair p] := by
  refine Parts.split_of_forall fun x hx => decide_eq_false ?_
  rcases List.mem_append.1 hx with hx | hx
  · exact (ne_separator hx).1
  · rcases List.mem_cons.1 hx with rfl | hx
    · decide
    · exact (ne_separator hx).1

theorem isEmpty_encodePair (p : String × String) : (encodePair p).isEmpty = false := by
  rw [encodePair]
  cases encodeText p.1 <;> rfl

/-- The pairs of a query are read back, whatever texts they are made of. -/
theorem decode_encode (ps : List (String × String)) : decode (encode ps) = ps := by
  have hone : ∀ p, decode (encodePair p) = [p] := fun p => by
    simp [decode, split_encodePair, isEmpty_encodePair, decodePair_encodePair]
  induction ps with
  | nil => rfl
  | cons p ps ih =>
    cases ps with
    | nil => exact hone p
    | cons p' ps =>
      have hfirst := hone p
      unfold decode at hfirst ih ⊢
      rw [encode, Parts.split_append_cons (by decide), List.filter_append, List.map_append, hfirst,
        ih]
      · rfl
      · nofun

/-! ### Numbers -/

theorem encode_digit {c : Char} (h : c.isDigit) :
    (Utf8.encodeChar c).flatMap encodeByte = [c] := by
  have hall : ∀ n ∈ List.range' 48 10,
      (Utf8.encodeChar (Char.ofNat n)).flatMap encodeByte = [Char.ofNat n] := by decide
  have hc := Char.isDigit_iff_toNat.mp h
  have hn := hall c.toNat (by simp only [List.mem_range'_1]; exact ⟨hc.1, Nat.lt_succ_of_le hc.2⟩)
  rwa [Char.ofNat_toNat] at hn

/-- Digits stand for themselves. -/
theorem encodeText_toString (n : Nat) : encodeText (toString n) = Nat.toDigits 10 n := by
  have hall : ∀ cs : List Char, (∀ c ∈ cs, c.isDigit) →
      (Utf8.encode cs).flatMap encodeByte = cs := by
    intro cs
    induction cs with
    | nil => simp
    | cons c cs ih =>
      intro h
      rw [Utf8.encode_cons, List.flatMap_append, encode_digit (h c (by simp)),
        ih fun x hx => h x (by simp [hx]), List.singleton_append]
  rw [encodeText, Nat.toString_eq_repr, Nat.toList_repr]
  exact hall _ fun c hc => Nat.isDigit_of_mem_toDigits (by omega) (by omega) hc

end Oncall.Form

namespace Oncall

/-- The pairs stand at the end of the target. -/
theorem Url.target_addPairs (u : Url) (ps : List (String × String)) (h : ps ≠ []) :
    ∃ front, (u.addPairs ps).target.toList = front ++ Form.encode ps := by
  obtain ⟨secure, authority, login, path, query⟩ := u
  obtain ⟨x, xs, rfl⟩ := List.exists_cons_of_ne_nil h
  match query with
  | none => exact ⟨path ++ ['?'], by simp [addPairs, target]⟩
  | some [] => exact ⟨path ++ ['?'], by simp [addPairs, target]⟩
  | some (c :: cs) => exact ⟨path ++ '?' :: c :: cs ++ ['&'], by simp [addPairs, target]⟩

end Oncall
