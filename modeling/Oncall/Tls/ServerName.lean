import Oncall.Text.Parts

/-!
Names under which a server may present itself: host names and addresses. The labels of a host name
have letters, digits, underscores and inner hyphens, and the last one is not a number.
-/

namespace Oncall.ServerName

open Parts

def maxNameLength : Nat := 253

def maxLabelLength : Nat := 63

def isLabelChar (c : Char) : Bool := c.isAlphanum || c = '_' || c = '-'

def isLabel (label : List Char) : Bool :=
  !label.isEmpty && label.length ≤ maxLabelLength && label.all isLabelChar &&
    label.head? ≠ some '-' && label.getLast? ≠ some '-'

/-- The labels of a name; a point may stand after the last one. -/
def labels (cs : List Char) : List (List Char) :=
  let parts := split (· = '.') cs
  if 1 < parts.length && parts.getLast? = some [] then parts.dropLast else parts

def isHostName (cs : List Char) : Bool :=
  cs.length ≤ maxNameLength && (labels cs).all isLabel &&
    !(labels cs).getLast?.any (·.all Char.isDigit)

/-- A byte in decimal, without zeros in front. -/
def isByte (cs : List Char) : Bool :=
  !cs.isEmpty && cs.length ≤ 3 && cs.all Char.isDigit && (cs.length = 1 || cs.head? ≠ some '0') &&
    (cs.foldl (fun n c => n * 10 + (c.toNat - 48)) 0) < 256

def isAddress4 (cs : List Char) : Bool :=
  let parts := split (· = '.') cs
  parts.length = 4 && parts.all isByte

def isHexDigit (c : Char) : Bool :=
  c.isDigit || ('a' ≤ c && c ≤ 'f') || ('A' ≤ c && c ≤ 'F')

def isGroup (cs : List Char) : Bool := !cs.isEmpty && cs.length ≤ 4 && cs.all isHexDigit

/-- How many groups of sixteen bits a text has; an address of four bytes at its end counts for two.
-/
def groups? (mayEndInBytes : Bool) (cs : List Char) : Option Nat :=
  if cs.isEmpty then some 0
  else
    let parts := split (· = ':') cs
    if parts.all isGroup then some parts.length
    else if mayEndInBytes && parts.dropLast.all isGroup && parts.getLast?.any isAddress4 then
      some (parts.length + 1)
    else none

/-- What stands before and after the first two colons in a row. -/
def atDoubleColon? : List Char → Option (List Char × List Char)
  | ':' :: ':' :: rest => some ([], rest)
  | c :: rest => (atDoubleColon? rest).map fun p => (c :: p.1, p.2)
  | [] => none

/-- Eight groups; two colons in a row stand for at least one that is left out. -/
def isAddress6 (cs : List Char) : Bool :=
  match atDoubleColon? cs with
  | none => groups? true cs = some 8
  | some (first, last) =>
    match groups? false first, groups? true last with
    | some m, some n => m + n ≤ 7
    | _, _ => false

def isValid (name : String) : Bool :=
  let cs := name.toList
  isHostName cs || isAddress4 cs || isAddress6 cs

end Oncall.ServerName
