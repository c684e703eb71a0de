import Oncall.Dictionary
import Mathlib.Data.String.Basic
import Mathlib.Data.List.Sort

/-! Dictionaries in order. Every dictionary that is built by putting and erasing keys has its keys in
strictly ascending order. Such dictionaries are equal as soon as they agree on every key, and a key
counts once in their length. -/

namespace Oncall.Dictionary

variable {α β : Type}

/-- The keys in order. -/
def keys (d : Dictionary α) : List String := d.map Prod.fst

def Sorted (d : Dictionary α) : Prop := (keys d).Pairwise (· < ·)

theorem sorted_nil : Sorted ([] : Dictionary α) := List.Pairwise.nil

theorem Sorted.head_lt {k : String} {a : α} {rest : Dictionary α} (h : Sorted ((k, a) :: rest)) :
    ∀ other ∈ keys rest, k < other := fun _ ho => List.rel_of_pairwise_cons h ho

theorem Sorted.nodup {d : Dictionary α} (h : Sorted d) : (keys d).Nodup := h.imp ne_of_lt

theorem mem_keys_iff (d : Dictionary α) (key : String) :
    key ∈ keys d ↔ ∃ a, List.lookup key d = some a := by
  induction d with
  | nil => simp [keys]
  | cons e rest ih =>
    obtain ⟨k, b⟩ := e
    rw [keys, List.map_cons, List.mem_cons, ← keys, ih, lookup_cons]
    by_cases h : k = key
    · simp [h]
    · simp [h, Ne.symm h]

theorem mem_keys_put {d : Dictionary α} {key other : String} {a : α}
    (h : other ∈ keys (put d key a)) : other = key ∨ other ∈ keys d := by
  rw [mem_keys_iff, lookup_put] at h
  by_cases hk : key = other
  · exact Or.inl hk.symm
  · rw [if_neg hk, ← mem_keys_iff] at h
    exact Or.inr h

theorem Sorted.put {d : Dictionary α} (h : Sorted d) (key : String) (a : α) :
    Sorted (put d key a) := by
  induction d with
  | nil => simp [Dictionary.put, Sorted, keys]
  | cons e rest ih =>
    obtain ⟨k, b⟩ := e
    have hhead := h.head_lt
    have hrest : Sorted rest := h.of_cons
    unfold Dictionary.put
    split
    next hlt =>
      refine List.Pairwise.cons (fun other ho => ?_) h
      rcases List.mem_cons.1 ho with rfl | ho
      · exact hlt
      · exact hlt.trans (hhead other ho)
    next hge =>
      split
      next heq =>
        subst heq
        exact List.Pairwise.cons hhead hrest
      next hne =>
        have hgt : k < key := lt_of_le_of_ne (not_lt.1 hge) (Ne.symm hne)
        refine List.Pairwise.cons (fun other ho => ?_) (ih hrest)
        rcases mem_keys_put ho with rfl | ho
        · exact hgt
        · exact hhead other ho

theorem Sorted.erase {d : Dictionary α} (h : Sorted d) (key : String) : Sorted (erase d key) :=
  List.Pairwise.sublist (List.filter_sublist.map Prod.fst) h

theorem lookup_mapValues (f : α → β) (d : Dictionary α) (key : String) :
    List.lookup key (mapValues f d) = (List.lookup key d).map f := by
  induction d with
  | nil => rfl
  | cons e rest ih =>
    obtain ⟨k, a⟩ := e
    rw [mapValues, List.map_cons, ← mapValues, lookup_cons, lookup_cons, ih]
    split <;> rfl

theorem keys_mapValues (f : α → β) (d : Dictionary α) : keys (mapValues f d) = keys d := by
  simp [keys, mapValues, Function.comp_def]

theorem Sorted.mapValues {d : Dictionary α} (h : Sorted d) (f : α → β) :
    Sorted (mapValues f d) := by
  rwa [Sorted, keys_mapValues]

/-- A key below all others is looked up in vain. -/
private theorem lookup_eq_none {d : Dictionary α} {key : String} (h : ∀ k ∈ keys d, key < k) :
    List.lookup key d = none := by
  cases hl : List.lookup key d with
  | none => rfl
  | some a => exact absurd (h key ((mem_keys_iff d key).2 ⟨a, hl⟩)) (lt_irrefl key)

theorem Sorted.ext {d d' : Dictionary α} (h : Sorted d) (h' : Sorted d')
    (hl : ∀ key, List.lookup key d = List.lookup key d') : d = d' := by
  induction d generalizing d' with
  | nil =>
    cases d' with
    | nil => rfl
    | cons e rest =>
      have he := hl e.1
      rw [lookup_cons, if_pos rfl] at he
      cases he
  | cons e rest ih =>
    obtain ⟨k, a⟩ := e
    cases d' with
    | nil => simpa [lookup_cons] using hl k
    | cons e' rest' =>
      obtain ⟨k', a'⟩ := e'
      have hhead := h.head_lt
      have hhead' := h'.head_lt
      -- the first key of either is in the other, so neither is below the other
      have hk : k = k' := by
        rcases lt_trichotomy k k' with hlt | heq | hgt
        · have hnone : List.lookup k ((k', a') :: rest') = none := lookup_eq_none fun other ho => by
            rcases List.mem_cons.1 ho with rfl | ho
            · exact hlt
            · exact hlt.trans (hhead' other ho)
          rw [← hl k, lookup_cons, if_pos rfl] at hnone
          cases hnone
        · exact heq
        · have hnone : List.lookup k' ((k, a) :: rest) = none := lookup_eq_none fun other ho => by
            rcases List.mem_cons.1 ho with rfl | ho
            · exact hgt
            · exact hgt.trans (hhead other ho)
          rw [hl k', lookup_cons, if_pos rfl] at hnone
          cases hnone
      subst hk
      have ha : a = a' := by simpa [lookup_cons] using hl k
      subst ha
      congr 1
      refine ih h.of_cons h'.of_cons fun key => ?_
      by_cases hkey : k = key
      · subst hkey
        rw [lookup_eq_none hhead, lookup_eq_none hhead']
      · simpa [lookup_cons, hkey] using hl key

theorem Sorted.put_put {d : Dictionary α} (h : Sorted d) (key : String) (a b : α) :
    Dictionary.put (Dictionary.put d key a) key b = Dictionary.put d key b := by
  refine ((h.put key a).put key b).ext (h.put key b) fun other => ?_
  rw [lookup_put, lookup_put, lookup_put]
  split <;> rfl

/-- Leaving out the pairs of a key is seen at that key and nowhere else. -/
theorem lookup_filter_ne {κ : Type} [DecidableEq κ] [BEq κ] [LawfulBEq κ] (es : List (κ × α))
    (key other : κ) :
    List.lookup other (es.filter fun e => e.1 ≠ key) =
      if key = other then none else List.lookup other es := by
  induction es with
  | nil => simp
  | cons e rest ih =>
    obtain ⟨k, a⟩ := e
    by_cases hk : k = key
    · rw [List.filter_cons_of_neg (by simpa using hk), ih, hk]
      split
      next => rfl
      next ho => simp [List.lookup_cons, beq_eq_false_iff_ne.2 (Ne.symm ho)]
    · rw [List.filter_cons_of_pos (by simpa using hk), List.lookup_cons, ih, List.lookup_cons]
      by_cases ho : k = other
      · have hko : key ≠ other := fun e => hk (ho.trans e.symm)
        simp [ho, hko]
      · simp [beq_eq_false_iff_ne.2 (Ne.symm ho)]

theorem lookup_erase (d : Dictionary α) (key other : String) :
    List.lookup other (erase d key) = if key = other then none else List.lookup other d := by
  rw [← lookup_filter_ne d key other, Dictionary.erase]
  congr 2
  funext e
  exact Bool.eq_iff_iff.2 (by simp)

theorem Sorted.erase_put {d : Dictionary α} (h : Sorted d) (key : String) (a : α) :
    Dictionary.erase (Dictionary.put d key a) key = Dictionary.erase d key := by
  refine ((h.put key a).erase key).ext (h.erase key) fun other => ?_
  rw [lookup_erase, lookup_erase, lookup_put]
  split <;> rfl

theorem sorted_ofList (es : List (String × α)) : Sorted (ofList es) := by
  have hfold : ∀ d : Dictionary α, Sorted d → Sorted (es.foldl (fun d e => put d e.1 e.2) d) := by
    induction es with
    | nil => exact fun d h => h
    | cons e es ih => exact fun d h => ih _ (h.put e.1 e.2)
  exact hfold [] sorted_nil

theorem lookup_of_not_mem_keys {es : List (String × α)} {key : String} (h : key ∉ keys es) :
    List.lookup key es = none := by
  rw [mem_keys_iff] at h
  exact Option.eq_none_iff_forall_ne_some.2 fun a ha => h ⟨a, ha⟩

section Pairs

variable {κ : Type} [BEq κ] [LawfulBEq κ] {es fs : List (κ × α)}

/-- A pair is found by its key if no other pair has the key. -/
theorem lookup_eq_some_iff (h : (es.map Prod.fst).Nodup) {key : κ} {a : α} :
    List.lookup key es = some a ↔ (key, a) ∈ es := by
  induction es with
  | nil => simp
  | cons e es ih =>
    obtain ⟨k, b⟩ := e
    obtain ⟨hk, hes⟩ := List.nodup_cons.1 h
    rw [List.lookup_cons, List.mem_cons, Prod.mk.injEq]
    cases heq : key == k with
    | true =>
      obtain rfl := eq_of_beq heq
      have hmem : (key, a) ∉ es := fun hmem => hk (List.mem_map.2 ⟨(key, a), hmem, rfl⟩)
      simp [hmem, eq_comm]
    | false => simp [ih hes, ne_of_beq_false heq]

/-- Pairs without repeated keys are found in any order. -/
theorem lookup_perm (hp : es.Perm fs) (h : (es.map Prod.fst).Nodup) (key : κ) :
    List.lookup key es = List.lookup key fs := by
  have hfs : (fs.map Prod.fst).Nodup := (hp.map Prod.fst).nodup_iff.1 h
  refine Option.ext fun a => ?_
  rw [lookup_eq_some_iff h, lookup_eq_some_iff hfs, hp.mem_iff]

end Pairs

/-- Pairs without repeated keys are found in the dictionary made of them. -/
theorem lookup_ofList {es : List (String × α)} (h : (keys es).Nodup) (key : String) :
    List.lookup key (ofList es) = List.lookup key es := by
  have hfold : ∀ d : Dictionary α, List.lookup key (es.foldl (fun d e => put d e.1 e.2) d) =
      (List.lookup key es).or (List.lookup key d) := by
    induction es with
    | nil => exact fun d => rfl
    | cons e es ih =>
      intro d
      obtain ⟨k, a⟩ := e
      obtain ⟨hk, hes⟩ := List.nodup_cons.1 h
      rw [List.foldl_cons, ih hes, lookup_put, lookup_cons]
      split
      next heq => rw [lookup_of_not_mem_keys (heq ▸ hk), Option.none_or, Option.some_or]
      next => rfl
  rw [ofList, hfold, List.lookup_nil, Option.or_none]

/-- A dictionary is made of its pairs in any order. -/
theorem Sorted.ofList_perm {d : Dictionary α} (h : Sorted d) {es : List (String × α)}
    (hp : es.Perm d) : ofList es = d := by
  have hnodup : (keys es).Nodup := (hp.map Prod.fst).nodup_iff.2 h.nodup
  refine (sorted_ofList es).ext h fun key => ?_
  rw [lookup_ofList hnodup, lookup_perm hp hnodup]

end Oncall.Dictionary
