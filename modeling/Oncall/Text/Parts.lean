/-!
Cutting text at the characters of a class. A cut loses nothing, and splitting always gives at least
one part.
-/

namespace Oncall.Parts

variable (p : Char → Bool)

/-- The text before the first character of the class, and the text from there on. -/
def cut (cs : List Char) : List Char × List Char :=
  (cs.takeWhile fun c => !p c, cs.dropWhile fun c => !p c)

/-- The text after the last character of the class. -/
def afterLast (cs : List Char) : List Char := (cs.reverse.takeWhile fun c => !p c).reverse

/-- The text before the last character of the class; nothing if there is none. -/
def beforeLast (cs : List Char) : List Char :=
  ((cs.reverse.dropWhile fun c => !p c).drop 1).reverse

/-- The parts between the characters of the class. -/
def split : List Char → List (List Char)
  | [] => [[]]
  | c :: cs =>
    if p c then [] :: split cs
    else
      match split cs with
      | [] => [[c]]
      | part :: parts => (c :: part) :: parts

def trimStart (cs : List Char) : List Char := cs.dropWhile p

def trimEnd (cs : List Char) : List Char := (cs.reverse.dropWhile p).reverse

def trim (cs : List Char) : List Char := trimEnd p (trimStart p cs)

theorem split_ne_nil (cs : List Char) : split p cs ≠ [] := by
  cases cs with
  | nil => simp [split]
  | cons c cs => unfold split; repeat' split <;> simp

end Oncall.Parts
