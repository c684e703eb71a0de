import Oncall.Proofs.Text.Parts
import Oncall.Text.Quoted
import Mathlib.Data.List.Forall2

/-! Quoted text is told apart. A character between quotes is written so that its end is known from what
is written, and none is written like the closing quote; so no text, whatever is in it, looks like
another one followed by something else. The same is true of a number in front of what ends a field.
Records of the same kind are therefore shown alike only if all that is shown of them is the same. -/

namespace Oncall

namespace Quoted

/-! ### Characters -/

theorem toDigits_eq_append {b : Nat} (hb : 1 < b) (n : Nat) :
    Nat.toDigits b n =
      (if n < b then [] else Nat.toDigits b (n / b)) ++ [Nat.digitChar (n % b)] := by
  rw [Nat.toDigits_eq_if hb]
  split
  next h => rw [Nat.mod_eq_of_lt h, List.nil_append]
  next => rfl

theorem digitChar_inj {m n : Nat} (hm : m < 16) (hn : n < 16)
    (h : Nat.digitChar m = Nat.digitChar n) : m = n := by
  have hall : ∀ m < 16, ∀ n < 16, Nat.digitChar m = Nat.digitChar n → m = n := by decide
  exact hall m hm n hn h

/-- Numbers with the same digits are the same. -/
theorem toDigits_inj {b : Nat} (hb : 1 < b) (hle : b ≤ 16) {m n : Nat}
    (h : Nat.toDigits b m = Nat.toDigits b n) : m = n := by
  induction m using Nat.strong_induction_on generalizing n with
  | _ m ih =>
    rw [toDigits_eq_append hb m, toDigits_eq_append hb n] at h
    obtain ⟨hinit, hlast⟩ := List.append_inj' h rfl
    have hmod : m % b = n % b := by
      have hm := Nat.mod_lt m (Nat.zero_lt_of_lt hb)
      have hn := Nat.mod_lt n (Nat.zero_lt_of_lt hb)
      exact digitChar_inj (by omega) (by omega) (List.cons.inj hlast).1
    have hdiv : m / b = n / b := by
      split at hinit
      next hm =>
        split at hinit
        next hn => rw [Nat.div_eq_of_lt hm, Nat.div_eq_of_lt hn]
        next => exact absurd hinit.symm Nat.toDigits_ne_nil
      next hm =>
        split at hinit
        next => exact absurd hinit Nat.toDigits_ne_nil
        next => exact ih _ (Nat.div_lt_self (by omega) hb) hinit
    rw [← Nat.div_add_mod m b, ← Nat.div_add_mod n b, hdiv, hmod]

/-- The character that a letter after a backslash stands for. -/
def named (letter : Char) : Char :=
  if letter = 't' then '\t' else if letter = 'r' then '\r' else if letter = 'n' then '\n'
  else if letter = '0' then Char.ofNat 0 else letter

/-- How a character is written: as it stands, with a backslash before a letter, or by its number. -/
inductive Spelling (c : Char) : Prop
  | plain (h : escape c = [c]) (hquote : c ≠ '"') (hslash : c ≠ '\\')
  | short (letter : Char) (h : escape c = ['\\', letter]) (hu : letter ≠ 'u')
    (hc : named letter = c)
  | number (h : escape c = '\\' :: 'u' :: '{' :: (Nat.toDigits 16 c.toNat ++ ['}']))

theorem spelling (c : Char) : Spelling c := by
  by_cases hquote : c = '"'
  · exact .short '"' (by simp [escape, hquote]) (by decide) (by rw [hquote]; decide)
  by_cases hslash : c = '\\'
  · exact .short '\\' (by simp [escape, hslash]) (by decide) (by rw [hslash]; decide)
  by_cases ht : c = '\t'
  · exact .short 't' (by simp [escape, ht]) (by decide) (by rw [ht]; decide)
  by_cases hr : c = '\r'
  · exact .short 'r' (by simp [escape, hr]) (by decide) (by rw [hr]; decide)
  by_cases hn : c = '\n'
  · exact .short 'n' (by simp [escape, hn]) (by decide) (by rw [hn]; decide)
  by_cases h0 : c.toNat = 0
  · refine .short '0' (by simp [escape, hquote, hslash, ht, hr, hn, h0]) (by decide) ?_
    rw [← Char.ofNat_toNat c, h0]
    decide
  by_cases hidden : isHidden c = true
  · exact .number (by simp [escape, hquote, hslash, ht, hr, hn, h0, hidden])
  · exact .plain (by simp [escape, hquote, hslash, ht, hr, hn, h0, hidden]) hquote hslash

theorem not_mem_toDigits (n : Nat) : '}' ∉ Nat.toDigits 16 n := by
  induction n using Nat.strong_induction_on with
  | _ n ih =>
    rw [toDigits_eq_append (by decide), List.mem_append, List.mem_singleton]
    rintro (h | h)
    · split at h
      next => exact List.not_mem_nil h
      next hn => exact ih _ (by omega) h
    · exact Nat.digitChar_ne '}' (by decide) h.symm

/-- Neither of two spellings is the beginning of the other. -/
theorem escape_append_inj {c d : Char} {x y : List Char} (h : escape c ++ x = escape d ++ y) :
    c = d ∧ x = y := by
  rcases spelling c with ⟨hc, -, hslash⟩ | ⟨letter, hc, hu, hnamed⟩ | hc <;>
  rcases spelling d with ⟨hd, -, hslash'⟩ | ⟨letter', hd, hu', hnamed'⟩ | hd <;>
  rw [hc, hd] at h <;> simp only [List.cons_append, List.nil_append, List.cons.injEq] at h
  · exact h
  · exact absurd h.1 hslash
  · exact absurd h.1 hslash
  · exact absurd h.1.symm hslash'
  · obtain ⟨-, rfl, hxy⟩ := h
    exact ⟨hnamed.symm.trans hnamed', hxy⟩
  · exact absurd h.2.1 hu
  · exact absurd h.1.symm hslash'
  · exact absurd h.2.1.symm hu'
  · -- the closing brace is where the digits end
    have hcut := congrArg (Parts.cut (· = '}')) h.2.2.2
    simp only [List.append_assoc, List.singleton_append, Parts.cut_of_first (not_mem_toDigits _),
      Prod.mk.injEq, List.cons.injEq, true_and] at hcut
    exact ⟨Char.toNat_inj.1 (toDigits_inj (by decide) (by decide) hcut.1), hcut.2⟩

theorem escape_append_ne (c : Char) (x y : List Char) : escape c ++ x ≠ '"' :: y := by
  intro h
  rcases spelling c with ⟨hc, hquote, -⟩ | ⟨letter, hc, -, -⟩ | hc <;> rw [hc] at h
  · exact hquote (List.cons.inj h).1
  · cases h
  · cases h

/-! ### Texts -/

/-- A text ends where its closing quote is. -/
theorem encode_append_inj {s t x y : List Char} (h : encode s ++ x = encode t ++ y) :
    s = t ∧ x = y := by
  have hrest : s.flatMap escape ++ '"' :: x = t.flatMap escape ++ '"' :: y := by
    simpa [encode] using h
  clear h
  induction s generalizing t with
  | nil =>
    cases t with
    | nil => exact ⟨rfl, (List.cons.inj hrest).2⟩
    | cons d t =>
      rw [List.flatMap_cons, List.append_assoc] at hrest
      exact absurd hrest.symm (escape_append_ne d _ _)
  | cons c s ih =>
    rw [List.flatMap_cons, List.append_assoc] at hrest
    cases t with
    | nil => exact absurd hrest (escape_append_ne c _ _)
    | cons d t =>
      rw [List.flatMap_cons, List.append_assoc] at hrest
      obtain ⟨rfl, htail⟩ := escape_append_inj hrest
      obtain ⟨rfl, hxy⟩ := ih htail
      exact ⟨rfl, hxy⟩

end Quoted

theorem quoted_injective : Function.Injective quoted := by
  intro s t h
  have hcodes : Quoted.encode s.toList ++ [] = Quoted.encode t.toList ++ [] :=
    congrArg (· ++ []) (String.ofList_injective h)
  exact String.toList_inj.1 (Quoted.encode_append_inj hcodes).1

/-! ### Records -/

/-- A field of a record as it is shown. -/
def fieldText (f : String × String) : List Char := f.1.toList ++ ':' :: ' ' :: f.2.toList

/-- What stands behind a field of a record: the other fields, and the end. -/
def behind : List (String × String) → List Char
  | [] => [' ', '}']
  | f :: rest => ',' :: ' ' :: (fieldText f ++ behind rest)

theorem toList_fields (fs : List (String × String)) (f : String × String) :
    (", ".intercalate ((f :: fs).map fun f => f.1 ++ ": " ++ f.2)).toList ++ behind [] =
      fieldText f ++ behind fs := by
  induction fs generalizing f with
  | nil =>
    rw [List.map_singleton, String.intercalate_singleton]
    simp [fieldText]
  | cons g fs ih =>
    have hg := ih g
    rw [List.map_cons] at hg
    rw [List.map_cons, List.map_cons, String.intercalate_cons_cons, String.toList_append,
      List.append_assoc, hg]
    simp [fieldText, behind]

theorem toList_shownRecord (name : String) (f : String × String) (rest : List (String × String)) :
    (shownRecord name (f :: rest)).toList =
      name.toList ++ ' ' :: '{' :: ' ' :: (fieldText f ++ behind rest) := by
  rw [shownRecord, String.toList_append, String.toList_append, String.toList_append,
    List.append_assoc _ _ (" \x7d").toList, ← toList_fields rest f, List.append_assoc]
  rfl

/-- Two texts in front of what may stand behind a field are the same if all of it is. -/
def ToldApart (v w : String) : Prop :=
  ∀ fs gs, v.toList ++ behind fs = w.toList ++ behind gs → v = w

theorem toldApart_quoted (s t : String) : ToldApart (quoted s) (quoted t) := by
  intro fs gs h
  have hcodes : Quoted.encode s.toList ++ behind fs = Quoted.encode t.toList ++ behind gs := by
    simpa only [quoted, String.toList_ofList] using h
  rw [quoted, quoted, (Quoted.encode_append_inj hcodes).1]

/-- What ends a field: the mark before the next one, or the end of the record. -/
theorem behind_eq_cons (fs : List (String × String)) :
    ∃ mark rest, behind fs = mark :: rest ∧ mark.isDigit = false := by
  cases fs with
  | nil => exact ⟨' ', ['}'], rfl, by decide⟩
  | cons f fs => exact ⟨',', ' ' :: (fieldText f ++ behind fs), rfl, by decide⟩

/-- A number ends where its digits do. -/
theorem toldApart_number (m n : Nat) : ToldApart (toString m) (toString n) := by
  have hcut : ∀ (k : Nat) fs, Parts.cut (!·.isDigit) ((toString k).toList ++ behind fs) =
      ((toString k).toList, behind fs) := by
    intro k fs
    obtain ⟨mark, rest, hbehind, hmark⟩ := behind_eq_cons fs
    have hdigits : ∀ c ∈ (toString k).toList, (!c.isDigit) = false := by
      intro c hc
      rw [Nat.toString_eq_ofList_toDigits, String.toList_ofList] at hc
      rw [Nat.isDigit_of_mem_toDigits (by decide) (by decide) hc]
      rfl
    rw [hbehind, Parts.cut_append hdigits (by rw [hmark]; rfl)]
  intro fs gs h
  have hsame := congrArg (Parts.cut (!·.isDigit)) h
  rw [hcut, hcut] at hsame
  exact String.toList_inj.1 (Prod.mk.inj hsame).1

variable {fs gs : List (String × String)} {f g : String × String}

/-- Fields of the same name whose texts are told apart. -/
def FieldsApart (f g : String × String) : Prop := f.1 = g.1 ∧ ToldApart f.2 g.2

theorem FieldsApart.eq (hfg : FieldsApart f g)
    (h : fieldText f ++ behind fs = fieldText g ++ behind gs) : f = g ∧ behind fs = behind gs := by
  obtain ⟨hname, hvalue⟩ := hfg
  have htexts : f.2.toList ++ behind fs = g.2.toList ++ behind gs := by
    simpa [fieldText, hname] using h
  have hsame := hvalue fs gs htexts
  rw [hsame] at htexts
  exact ⟨Prod.ext hname hsame, List.append_cancel_left htexts⟩

theorem behind_inj (hfgs : List.Forall₂ FieldsApart fs gs) (h : behind fs = behind gs) :
    fs = gs := by
  induction hfgs with
  | nil => rfl
  | cons hfg _ ih =>
    obtain ⟨rfl, hrest⟩ := hfg.eq (List.cons.inj (List.cons.inj h).2).2
    rw [ih hrest]

/-- Records of one kind are shown alike only if they have the same fields. -/
theorem shownRecord_inj {name : String} (hfgs : List.Forall₂ FieldsApart (f :: fs) (g :: gs))
    (h : shownRecord name (f :: fs) = shownRecord name (g :: gs)) : f :: fs = g :: gs := by
  have htexts := congrArg String.toList h
  rw [toList_shownRecord, toList_shownRecord, List.append_cancel_left_eq] at htexts
  obtain ⟨rfl, hrest⟩ :=
    (List.forall₂_cons.1 hfgs).1.eq (List.cons.inj (List.cons.inj (List.cons.inj htexts).2).2).2
  rw [behind_inj (List.forall₂_cons.1 hfgs).2 hrest]

end Oncall
