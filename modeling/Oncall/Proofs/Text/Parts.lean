import Oncall.Text.Parts
import Mathlib.Data.List.Basic
import Mathlib.Data.List.DropRight
import Mathlib.Data.List.TakeWhile

/-! Cutting a text that is put together. Where a character of the class stands between two texts,
what is cut off in front and behind, and the parts, are those of the two texts in turn. -/

namespace Oncall.Parts

open scoped List

variable {p : Char → Bool} {c : Char} {cs : List Char}

/-! ### Cuts -/

theorem cut_of_forall (h : ∀ x ∈ cs, p x = false) : cut p cs = (cs, []) := by
  have hall : ∀ x ∈ cs, (!p x) = true := fun x hx => by rw [h x hx]; rfl
  rw [cut, List.takeWhile_eq_self_iff.2 hall, List.dropWhile_eq_nil_iff.2 hall]

/-- Text without the class goes in front of a cut. -/
theorem cut_append_left {front : List Char} (h : ∀ x ∈ front, p x = false) (cs : List Char) :
    cut p (front ++ cs) = (front ++ (cut p cs).1, (cut p cs).2) := by
  have hall : ∀ x ∈ front, (!p x) = true := fun x hx => by rw [h x hx]; rfl
  rw [cut, List.takeWhile_append_of_pos hall, List.dropWhile_append_of_pos hall]
  rfl

theorem cut_cons_of_pos (hc : p c = true) (cs : List Char) : cut p (c :: cs) = ([], c :: cs) := by
  rw [cut, List.takeWhile_cons_of_neg (by simp [hc]), List.dropWhile_cons_of_neg (by simp [hc])]

theorem cut_cons_of_neg (hc : p c = false) (cs : List Char) :
    cut p (c :: cs) = (c :: (cut p cs).1, (cut p cs).2) := by
  rw [← List.singleton_append, cut_append_left (by simpa using hc), List.singleton_append]

theorem cut_append {front : List Char} (hfront : ∀ x ∈ front, p x = false) (hc : p c = true)
    (rest : List Char) : cut p (front ++ c :: rest) = (front, c :: rest) := by
  rw [cut_append_left hfront, cut_cons_of_pos hc, List.append_nil]

theorem cut_of_not_mem {a : Char} (h : a ∉ cs) : cut (· = a) cs = (cs, []) :=
  cut_of_forall fun _ hx => decide_eq_false (ne_of_mem_of_not_mem hx h)

/-- A cut at the first place of a character. -/
theorem cut_of_first {a : Char} {front : List Char} (h : a ∉ front) (rest : List Char) :
    cut (· = a) (front ++ a :: rest) = (front, a :: rest) :=
  cut_append (fun _ hx => decide_eq_false (ne_of_mem_of_not_mem hx h)) (decide_eq_true rfl) rest

/-- What is cut off in front of a character of the class does not depend on what follows it. -/
theorem cut_append_cons (hc : p c = true) (front rest : List Char) :
    cut p (front ++ c :: rest) = ((cut p front).1, (cut p front).2 ++ c :: rest) := by
  induction front with
  | nil => exact cut_cons_of_pos hc rest
  | cons x front ih =>
    cases hx : p x with
    | true => rw [List.cons_append, cut_cons_of_pos hx, cut_cons_of_pos hx, List.cons_append]
    | false => rw [List.cons_append, cut_cons_of_neg hx, cut_cons_of_neg hx, ih]

theorem afterLast_append (hc : p c) (hcs : ∀ x ∈ cs, p x = false) (front : List Char) :
    afterLast p (front ++ c :: cs) = cs := by
  have hall : ∀ x ∈ cs.reverse, (!p x) = true := fun x hx => by
    simp [hcs x (List.mem_reverse.mp hx)]
  simp only [afterLast, List.reverse_append, List.reverse_cons, List.append_assoc,
    List.singleton_append]
  rw [List.takeWhile_append_of_pos hall, List.takeWhile_cons_of_neg (by simp [hc]), List.append_nil,
    List.reverse_reverse]

/-- Texts behind a last separator are the same if the whole texts are. -/
theorem eq_of_append_cons_eq {x : Char} {front front' cs ds : List Char} (hcs : x ∉ cs)
    (hds : x ∉ ds) (h : front ++ x :: cs = front' ++ x :: ds) : cs = ds := by
  have hlast : ∀ {front cs : List Char}, x ∉ cs → afterLast (· = x) (front ++ x :: cs) = cs :=
    fun h => afterLast_append (decide_eq_true rfl)
      (fun _ hy => decide_eq_false (ne_of_mem_of_not_mem hy h)) _
  rw [← hlast hcs, h, hlast hds]

/-! ### Parts -/

theorem split_append_cons (hc : p c = true) (a b : List Char) :
    split p (a ++ c :: b) = split p a ++ split p b := by
  induction a with
  | nil => simp [split, hc]
  | cons d a ih =>
    rw [List.cons_append, split, split]
    split
    · rw [ih, List.cons_append]
    · rw [ih]
      cases hs : split p a with
      | nil => exact absurd hs (split_ne_nil p a)
      | cons part parts => rfl

theorem split_of_forall (h : ∀ c ∈ cs, p c = false) : split p cs = [cs] := by
  induction cs with
  | nil => rfl
  | cons c cs ih =>
    rw [split, ih fun d hd => h d (List.mem_cons_of_mem _ hd)]
    simp [h c List.mem_cons_self]

theorem afterLast_eq (p : Char → Bool) (cs : List Char) :
    afterLast p cs = cs.rtakeWhile fun c => !p c := rfl

theorem of_mem_afterLast {x : Char} (h : x ∈ afterLast p cs) : p x = false := by
  simpa using List.mem_rtakeWhile_imp h

/-- The last part is the text after the last character of the class. -/
theorem getLast?_split (p : Char → Bool) (cs : List Char) :
    (split p cs).getLast? = some (afterLast p cs) := by
  have hlast : split p (afterLast p cs) = [afterLast p cs] :=
    split_of_forall fun x hx => of_mem_afterLast hx
  have hcs : (cs.reverse.dropWhile fun c => !p c).reverse ++ afterLast p cs = cs := by
    rw [afterLast, ← List.reverse_append, List.takeWhile_append_dropWhile, List.reverse_reverse]
  have hstop := List.head?_dropWhile_not (fun c => !p c) cs.reverse
  cases hd : cs.reverse.dropWhile fun c => !p c with
  | nil =>
    rw [hd, List.reverse_nil, List.nil_append] at hcs
    rw [← congrArg (split p) hcs, hlast, List.getLast?_singleton]
  | cons c rest =>
    have hc : p c = true := by simpa [hd] using hstop
    rw [hd, List.reverse_cons, List.append_assoc, List.singleton_append] at hcs
    rw [← congrArg (split p) hcs, split_append_cons hc, hlast, List.getLast?_concat]

/-! ### Ends -/

theorem trimStart_append_cons (hc : p c = false) (a b : List Char) :
    trimStart p (a ++ c :: b) = trimStart p a ++ c :: b := by
  rw [trimStart, List.dropWhile_append, List.dropWhile_cons_of_neg (by simp [hc]), trimStart]
  split
  next h => rw [List.isEmpty_iff.1 h, List.nil_append]
  next => rfl

theorem trimEnd_append_cons (hc : p c = false) (a b : List Char) :
    trimEnd p (a ++ c :: b) = a ++ c :: trimEnd p b := by
  have hreverse : (a ++ c :: b).reverse = b.reverse ++ c :: a.reverse := by simp
  rw [trimEnd, hreverse, ← trimStart, trimStart_append_cons hc, trimStart, trimEnd]
  simp

theorem trimEnd_eq (p : Char → Bool) (cs : List Char) : trimEnd p cs = cs.rdropWhile p := rfl

theorem trimEnd_sublist (p : Char → Bool) (cs : List Char) : trimEnd p cs <+ cs :=
  (List.rdropWhile_prefix p cs).sublist

theorem trim_eq_self (hhead : ∀ c ∈ cs.head?, p c = false)
    (hlast : ∀ c ∈ cs.getLast?, p c = false) : trim p cs = cs := by
  have hstart : ∀ cs : List Char, (∀ c ∈ cs.head?, p c = false) → cs.dropWhile p = cs := by
    intro cs h
    cases cs with
    | nil => rfl
    | cons c cs => exact List.dropWhile_cons_of_neg (by simp [h c rfl])
  rw [trim, trimStart, hstart cs hhead, trimEnd,
    hstart cs.reverse (by rwa [List.head?_reverse]), List.reverse_reverse]

end Oncall.Parts
