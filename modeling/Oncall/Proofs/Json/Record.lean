import Oncall.Json.Record
import Oncall.Proofs.Json.Written
import Mathlib.Data.List.Nodup

/-! Records read from trees. What is read of a value must not depend on how the value is spelled, so
a reader is described by the value it reads and by what it makes of it, and each kind of field, one
that is required, one with a default and one that may be left out, by one lemma. -/

namespace Oncall.Json

variable {α β : Type}

/-- However a value is spelled, it is read as `a`. -/
def Reads (read? : Node → Option α) (v : Value) (a : α) : Prop :=
  ∀ n : Node, n.Spells v → read? n = some a

theorem reads_string (s : String) : Reads Node.string? (.string s) s := by
  rintro n (_ | _ | _ | h | _ | _)
  exact h

theorem reads_bool (b : Bool) : Reads Node.bool? (.bool b) b := by
  rintro n (_ | _)
  rfl

/-- A list is read item by item. -/
theorem reads_listOf {item? : Node → Option α} {write : β → Value} {f : β → α}
    (h : ∀ b, Reads item? (write b) (f b)) (bs : List β) :
    Reads (Node.listOf? item?) (.array (bs.map write)) (bs.map f) := by
  rintro n (_ | _ | _ | _ | hitems | _)
  rw [List.forall₂_map_right_iff] at hitems
  rw [Node.listOf?]
  induction hitems with
  | nil => rfl
  | @cons n b ns bs hn _ ih =>
    rw [List.mapM_cons, h b n hn, ih]
    rfl

/-- Spelled or absent, as the value is. -/
abbrev SpellsField : Option Node → Option Value → Prop := Option.Rel Node.Spells

/-- However a field is spelled, it is read as `a`. -/
def ReadsField (read : Option Node → Option α) (v : Option Value) (a : α) : Prop :=
  ∀ f, SpellsField f v → read f = some a

theorem named?_of_spells {ms : List (Bytes × Node)} {es : List (String × Value)}
    (h : List.Forall₂ (SpellsMember Node.Spells) ms es) :
    ∃ named, Node.named? ms = some named ∧
      List.Forall₂ (fun m e => m.1 = e.1 ∧ m.2.Spells e.2) named es := by
  induction h with
  | nil => exact ⟨[], rfl, .nil⟩
  | @cons m e ms es hm hms ih =>
    obtain ⟨named, hnamed, hrel⟩ := ih
    obtain ⟨hname, hv⟩ := hm
    rename_i key name n v
    refine ⟨(name, n) :: named, ?_, .cons ⟨rfl, hv⟩ hrel⟩
    rw [Node.named?, List.mapM_cons, ← Node.named?, hnamed]
    simp [hname]

theorem find?_of_spells {named : List (String × Node)} {es : List (String × Value)}
    (h : List.Forall₂ (fun m e => m.1 = e.1 ∧ m.2.Spells e.2) named es) (name : String) :
    SpellsField ((named.find? fun m => m.1 == name).map (·.2)) (es.lookup name) := by
  induction h with
  | nil => exact .none
  | @cons m e named es hm _ ih =>
    obtain ⟨key, v⟩ := e
    obtain ⟨rfl, hv⟩ := hm
    by_cases hk : m.1 = name
    · simpa [hk] using Option.Rel.some hv
    · simpa [hk, List.lookup_cons, beq_eq_false_iff_ne.2 (Ne.symm hk)] using ih

theorem keys_of_spells {named : List (String × Node)} {es : List (String × Value)}
    (h : List.Forall₂ (fun m e => m.1 = e.1 ∧ m.2.Spells e.2) named es) :
    named.map (·.1) = es.map (·.1) := by
  induction h with
  | nil => rfl
  | cons hm _ ih => rw [List.map_cons, List.map_cons, hm.1, ih]

/-- What is given for each declared field is what is written of it, wherever it stands. -/
theorem spells_of_fields? {n : Node} {es : List (String × Value)} (h : n.Spells (.object es))
    {names : List String} {fs : List (Option Node)} (hfs : n.fields? names = some fs) :
    List.Forall₂ (fun f name => SpellsField f (es.lookup name)) fs names := by
  cases h with
  | object h =>
    obtain ⟨named, hnamed, hrel⟩ := named?_of_spells h
    simp only [Node.fields?, hnamed, Option.bind_eq_bind, Option.bind_some] at hfs
    split at hfs
    · cases hfs
      exact List.forall₂_map_left_iff.2
        (List.forall₂_same.2 fun name _ => find?_of_spells hrel name)
    · cases hfs

/-- The declared fields of an object are given if none is repeated. -/
theorem fields?_of_spells {n : Node} {es : List (String × Value)} (h : n.Spells (.object es))
    (hnodup : (es.map (·.1)).Nodup) (names : List String) :
    ∃ fs, n.fields? names = some fs ∧
      List.Forall₂ (fun f name => SpellsField f (es.lookup name)) fs names := by
  suffices hfs : ∃ fs, n.fields? names = some fs by
    obtain ⟨fs, hfs⟩ := hfs
    exact ⟨fs, hfs, spells_of_fields? h hfs⟩
  cases h with
  | object h =>
    obtain ⟨named, hnamed, hrel⟩ := named?_of_spells h
    have honce : ∀ name, (named.map (·.1)).count name ≤ 1 := fun name => by
      rw [keys_of_spells hrel]
      exact List.nodup_iff_count_le_one.1 hnodup name
    exact ⟨_, by simp [Node.fields?, hnamed, honce]; rfl⟩

/-! ### Fields -/

variable {read? : Node → Option α} {v : Value} {a : α}

theorem Reads.required (h : Reads read? v a) : ReadsField (required read?) (some v) a := by
  rintro _ (hn | _)
  exact h _ hn

theorem Reads.orElse (d : α) (h : Reads read? v a) : ReadsField (orElse d read?) (some v) a := by
  rintro _ (hn | _)
  exact h _ hn

theorem readsField_default (d : α) (read? : Node → Option α) :
    ReadsField (orElse d read?) none d := by
  rintro _ (_ | _)
  rfl

theorem Reads.optional? (h : Reads read? v a) (hnull : v ≠ .null) :
    Reads (Node.optional? read?) v (some a) := by
  intro n hn
  have hread := h n hn
  cases hn with
  | null => exact absurd rfl hnull
  | _ => simp [Node.optional?, hread]

/-- An option that is left out if there is none. -/
theorem readsField_optional {write : α → Value} (h : ∀ a, Reads read? (write a) a)
    (hnull : ∀ a, write a ≠ .null) (o : Option α) :
    ReadsField (optional read?) (o.map write) o := by
  cases o with
  | none => exact readsField_default none _
  | some a => exact ((h a).optional? (hnull a)).orElse none

end Oncall.Json
