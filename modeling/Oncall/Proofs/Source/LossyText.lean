import Oncall.Proofs.Source.Payload
import Oncall.Proofs.Text.Utf8

/-! What a value keeps when it is read as a text. Bytes that are no character are replaced, never
dropped, so a value is read as the empty text only if it is empty. A text stays as it is, alone or
next to any bytes, even to those of a character that is cut off. -/

namespace Oncall.Payload

/-! ### Texts of values -/

theorem textOf_bytes (s : String) : textOf (Utf8.bytes s) = s := by
  rw [textOf, Utf8.decodeLossy_bytes, String.ofList_toList]

theorem textOf_bytes_append (s : String) (raw : Bytes) :
    textOf (Utf8.bytes s ++ raw) = s ++ textOf raw := by
  rw [textOf, ← Utf8.encode_toList, Utf8.decodeLossy_encode_append, String.ofList_append,
    String.ofList_toList, textOf]

theorem textOf_append_bytes (raw : Bytes) (s : String) :
    textOf (raw ++ Utf8.bytes s) = textOf raw ++ s := by
  rw [textOf, ← Utf8.encode_toList, Utf8.decodeLossy_append_encode, String.ofList_append,
    String.ofList_toList, textOf]

/-! ### Lookups -/

variable {p : Payload} {key : String} {raw : Bytes}

/-- The default is for a value that is empty. -/
theorem optionalOr_of_some (object default : String) (h : p.lookup key = some raw) :
    p.optionalOr key object default = if raw = [] then default else textOf raw := by
  rw [optionalOr, required_of_some h]
  by_cases hraw : raw = []
  · rw [if_pos hraw, if_pos hraw]
  · rw [if_neg hraw, if_neg hraw]

/-- The text under a key; an empty value has the empty text. -/
def textUnder (p : Payload) (key object : String) : String := p.optionalOr key object ""

theorem textUnder_of_some (object : String) (h : p.lookup key = some raw) :
    p.textUnder key object = textOf raw := by
  rw [textUnder, optionalOr_of_some object "" h]
  split
  next hraw => exact (textOf_eq_empty_iff.2 hraw).symm
  next => rfl

/-- A required value is refused as empty just where it has no bytes, and any other is read as its text.
Bytes of a text are read as that text, and a text that is put in front of a value or behind it is read
as it stands, next to what the value alone is read as. -/
theorem required_keeps_text (object : String) (h : p.lookup key = some raw) :
    (p.required key object = .error (.emptyValue key object) ↔ raw = []) ∧
    (raw ≠ [] → p.required key object = .ok (p.textUnder key object)) ∧
    (∀ s, raw = Utf8.bytes s →
      p.textUnder key object = s ∧ (s ≠ "" → p.required key object = .ok s)) ∧
    ∀ (q : Payload) (s : String),
      (q.lookup key = some (Utf8.bytes s ++ raw) →
        q.textUnder key object = s ++ p.textUnder key object) ∧
      (q.lookup key = some (raw ++ Utf8.bytes s) →
        q.textUnder key object = p.textUnder key object ++ s) := by
  have htext : p.textUnder key object = textOf raw := textUnder_of_some object h
  have hrequired : raw ≠ [] → p.required key object = .ok (p.textUnder key object) := fun hraw => by
    rw [required_of_some h, if_neg hraw, htext]
  refine ⟨?_, hrequired, ?_, fun q s => ⟨fun hq => ?_, fun hq => ?_⟩⟩
  · rw [required_eq_error_iff, h]
    simp
  · rintro s rfl
    rw [textOf_bytes] at htext
    refine ⟨htext, fun hs => ?_⟩
    rw [hrequired (mt Utf8.bytes_eq_nil_iff.1 hs), htext]
  · rw [htext, ← textOf_bytes_append]
    exact textUnder_of_some object hq
  · rw [htext, ← textOf_append_bytes]
    exact textUnder_of_some object hq

/-- A text alone, and three of the four bytes of a character alone, behind a text and in front of one. -/
theorem required_keeps_text_cut_off :
    let raw : Bytes := [0xF0, 0x9F, 0x92]
    let whole : Payload := [("K", Utf8.bytes "é")]
    let cut : Payload := [("K", raw)]
    let behind : Payload := [("K", Utf8.bytes "é" ++ raw)]
    let before : Payload := [("K", raw ++ Utf8.bytes "é")]
    (whole.lookup "K" = some (Utf8.bytes "é") ∧ whole.required "K" "n/s" = .ok "é") ∧
    (cut.lookup "K" = some raw ∧ cut.required "K" "n/s" = .ok "\ufffd") ∧
    (behind.lookup "K" = some (Utf8.bytes "é" ++ raw) ∧ behind.textUnder "K" "n/s" = "é\ufffd") ∧
    before.lookup "K" = some (raw ++ Utf8.bytes "é") ∧ before.textUnder "K" "n/s" = "\ufffdé" := by
  intro raw whole cut behind before
  have hwhole : whole.lookup "K" = some (Utf8.bytes "é") := rfl
  have hcut : cut.lookup "K" = some raw := rfl
  obtain ⟨-, -, hvalid, -⟩ := required_keeps_text "n/s" hwhole
  obtain ⟨-, hrequired, -, hkept⟩ := required_keeps_text "n/s" hcut
  have htext : cut.textUnder "K" "n/s" = "\ufffd" := by decide +kernel
  rw [htext] at hrequired
  simp only [htext] at hkept
  exact ⟨⟨hwhole, (hvalid "é" rfl).2 (by decide)⟩, ⟨hcut, hrequired (by decide)⟩,
    ⟨rfl, (hkept behind "é").1 rfl⟩, rfl, (hkept before "é").2 rfl⟩

end Oncall.Payload
