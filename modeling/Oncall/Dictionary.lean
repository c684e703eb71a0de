/-!
Dictionaries: lists of pairs sorted by key. Putting a key that is there replaces its value, so the
last of repeated keys counts, and equal dictionaries are equal lists.
-/

namespace Oncall

abbrev Dictionary (α : Type) := List (String × α)

namespace Dictionary

variable {α β : Type}

def put (d : Dictionary α) (key : String) (a : α) : Dictionary α :=
  match d with
  | [] => [(key, a)]
  | (k, b) :: rest =>
    if key < k then (key, a) :: (k, b) :: rest
    else if key = k then (key, a) :: rest
    else (k, b) :: put rest key a

def erase (d : Dictionary α) (key : String) : Dictionary α := d.filter fun e => e.1 != key

/-- Puts the pairs in order. -/
def ofList (es : List (String × α)) : Dictionary α := es.foldl (fun d e => put d e.1 e.2) []

def mapValues (f : α → β) (d : Dictionary α) : Dictionary β := d.map fun e => (e.1, f e.2)

theorem lookup_cons (k : String) (a : α) (d : Dictionary α) (key : String) :
    List.lookup key ((k, a) :: d) = if k = key then some a else List.lookup key d := by
  by_cases h : k = key
  · simp [h]
  · simp [h, List.lookup_cons, beq_eq_false_iff_ne.2 (Ne.symm h)]

/-- Putting a key is seen at that key and nowhere else. -/
theorem lookup_put (d : Dictionary α) (key : String) (a : α) (other : String) :
    List.lookup other (put d key a) = if key = other then some a else List.lookup other d := by
  induction d with
  | nil => simp [put, lookup_cons]
  | cons e rest ih =>
    obtain ⟨k, b⟩ := e
    unfold put
    split
    · rw [lookup_cons]
    · split
      · rename_i h
        subst h
        rw [lookup_cons, lookup_cons]
        split <;> rfl
      · rename_i h
        rw [lookup_cons, lookup_cons, ih]
        by_cases hk : k = other
        · subst hk; simp [h]
        · simp [hk]

end Dictionary

end Oncall
