import Oncall.Proofs.Text.Parts
import Oncall.Proofs.Url.Percent

/-! Addresses that are put together. Whatever stands behind the slash at the end of an address has
no say in its scheme, authority and login: it is cut into segments that are resolved behind those of
the address, and into a query. A text without question mark has no query. -/

namespace Oncall.Url

open Parts

/-! ### Reading in two steps -/

/-- The segments as they stand in a path. -/
def rendered (segments : List (List Char)) : List Char :=
  segments.flatMap fun s => '/' :: escape escapesInPath s

/-- The query behind a path. -/
def queryOf (cs : List Char) : Option (List Char) :=
  match (cut (· = '?') cs).2 with
  | [] => none
  | _ :: q => some (escape escapesInQuery q)

/-- Where the authority ends. -/
def endsAuthority (c : Char) : Bool := isSlash c || c = '?'

/-- The address with a scheme, by what follows the scheme. -/
def ofRest (secure : Bool) (cs : List Char) : Option Url := do
  let cs := cut endsAuthority (cut (· = '#') cs).1
  let authority ← authority? secure cs.1
  some ⟨secure, authority, login? cs.1, pathOf (cut (· = '?') cs.2).1, queryOf cs.2⟩

theorem parse?_eq (text : String) :
    parse? text = (scheme? (clean text.toList)).bind fun s => ofRest s.1 s.2 := by
  unfold parse?
  cases scheme? (clean text.toList) <;> rfl

/-! ### Texts without a question mark -/

theorem mem_of_mem_clean {cs : List Char} {x : Char} (h : x ∈ clean cs) : x ∈ cs :=
  (List.dropWhile_sublist _).subset ((trimEnd_sublist _ _).subset (List.mem_filter.1 h).1)

theorem mem_of_scheme? {cs rest : List Char} {secure : Bool} (h : scheme? cs = some (secure, rest))
    {x : Char} (hx : x ∈ rest) : x ∈ cs := by
  have hcut : ∀ y ∈ (cut (· = ':') cs).2, y ∈ cs := fun y hy => (List.dropWhile_sublist _).subset hy
  unfold scheme? at h
  dsimp only at h
  split at h
  next rest' heq =>
    rw [heq] at hcut
    have hdrop : x ∈ rest'.dropWhile isSlash := by
      split_ifs at h <;> cases h <;> exact hx
    exact hcut x (List.mem_cons_of_mem _ ((List.dropWhile_sublist _).subset hdrop))
  next => cases h

/-- A path holds no question mark. -/
theorem question_not_mem_pathOf (cs : List Char) : '?' ∉ pathOf cs := by
  intro h
  obtain ⟨s, -, hs⟩ := List.mem_flatMap.1 h
  rcases List.mem_cons.1 hs with h | hs
  · cases h
  · exact not_mem_escape (.inr (by decide)) (by decide) (by decide) hs

theorem question_not_mem_path {text : String} {u : Url} (h : parse? text = some u) :
    '?' ∉ u.path := by
  rw [parse?_eq] at h
  obtain ⟨s, -, h⟩ := Option.bind_eq_some_iff.1 h
  obtain ⟨authority, -, h⟩ := Option.bind_eq_some_iff.1 h
  cases h
  exact question_not_mem_pathOf _

theorem queryOf_eq_none {cs : List Char} (h : '?' ∉ cs) : queryOf cs = none := by
  rw [queryOf, cut_of_not_mem h]

/-- A text without question mark has no query. -/
theorem query_eq_none {text : String} {u : Url} (h : parse? text = some u)
    (htext : '?' ∉ text.toList) : u.query = none := by
  rw [parse?_eq] at h
  obtain ⟨s, hs, h⟩ := Option.bind_eq_some_iff.1 h
  obtain ⟨authority, -, h⟩ := Option.bind_eq_some_iff.1 h
  cases h
  refine queryOf_eq_none fun hmem => htext (mem_of_mem_clean (mem_of_scheme? hs ?_))
  exact (List.takeWhile_prefix _).subset ((List.dropWhile_sublist _).subset hmem)

/-! ### Segments behind segments -/

/-- One more segment that is not the last. -/
def enter (done : List (List Char)) (s : List Char) : List (List Char) :=
  if isDoubleDot s then parent done else if isDot s then done else s :: done

/-- What a segment leaves at the end of a path. -/
def lastOf (s : List Char) : List Char := if isDoubleDot s || isDot s then [] else s

theorem resolveDots_cons {rest : List (List Char)} (hrest : rest ≠ []) (done : List (List Char))
    (s : List Char) : resolveDots done (s :: rest) = resolveDots (enter done s) rest := by
  rw [resolveDots.eq_3 done s rest hrest, enter]
  split_ifs <;> rfl

theorem resolveDots_append {ys : List (List Char)} (hys : ys ≠ []) (xs done : List (List Char)) :
    resolveDots done (xs ++ ys) = resolveDots (xs.foldl enter done) ys := by
  induction xs generalizing done with
  | nil => rfl
  | cons x xs ih =>
    rw [List.cons_append, resolveDots_cons (List.append_ne_nil_of_right_ne_nil xs hys), ih,
      List.foldl_cons]

/-- The last segment is resolved to the end of the path. -/
theorem exists_resolveDots_concat (done front : List (List Char)) (s : List Char) :
    ∃ path, resolveDots done (front ++ [s]) = path ++ [lastOf s] := by
  rw [resolveDots_append (List.cons_ne_nil s [])]
  generalize front.foldl enter done = done
  rw [resolveDots, lastOf]
  split_ifs with hdouble hdot <;> simp_all

theorem rendered_append (front back : List (List Char)) :
    rendered (front ++ back) = rendered front ++ rendered back :=
  List.flatMap_append

/-- A path that goes on behind a slash: what stands before it is resolved first. -/
theorem exists_pathOf_append {front : List Char} (hfront : ∀ c ∈ front.head?, isSlash c = true) :
    ∃ stack, ∀ cs, pathOf (front ++ '/' :: cs) =
      rendered (resolveDots stack (split isSlash cs)) := by
  cases front with
  | nil => exact ⟨[], fun cs => rfl⟩
  | cons c front =>
    refine ⟨(split isSlash front).foldl enter [], fun cs => ?_⟩
    rw [← resolveDots_append (split_ne_nil isSlash cs),
      ← split_append_cons (by decide : isSlash '/')]
    simp only [pathOf, List.cons_append, hfront c rfl, if_true]
    rfl

/-! ### Addresses behind an address -/

/-- What cleaning leaves of the text in front of a slash, and behind it. -/
def cleanFront (cs : List Char) : List Char :=
  (trimStart isBlankOrControl cs).filter fun c => !isLineBreakOrTab c

def cleanBack (cs : List Char) : List Char :=
  (trimEnd isBlankOrControl cs).filter fun c => !isLineBreakOrTab c

theorem clean_append_cons (front back : List Char) :
    clean (front ++ '/' :: back) = cleanFront front ++ '/' :: cleanBack back := by
  rw [clean, trim, trimStart_append_cons (by decide), trimEnd_append_cons (by decide),
    List.filter_append, List.filter_cons_of_pos (by decide)]
  rfl

theorem mem_of_mem_cleanFront {cs : List Char} {x : Char} (h : x ∈ cleanFront cs) : x ∈ cs :=
  (List.dropWhile_sublist _).subset (List.mem_filter.1 h).1

/-- The part of a text that makes up a path. -/
def pathText (cs : List Char) : List Char := (cut (· = '?') (cut (· = '#') cs).1).1

/-- The scheme of a name, and whether it is the secure one. -/
def schemeOf? (name : List Char) : Option Bool :=
  if lower name = "http".toList then some false
  else if lower name = "https".toList then some true
  else none

theorem scheme?_eq {name : List Char} (hname : ':' ∉ name) (rest : List Char) :
    scheme? (name ++ ':' :: rest) =
      (schemeOf? name).map fun secure => (secure, rest.dropWhile isSlash) := by
  rw [scheme?, cut_of_first hname, schemeOf?]
  dsimp only
  split_ifs <;> rfl

/-- What follows a scheme goes on behind a slash, unless that is a slash of the scheme. -/
theorem exists_scheme?_append {front rest : List Char} {secure : Bool}
    (h : scheme? (front ++ ['/']) = some (secure, rest)) (hrest : rest ≠ []) :
    ∃ front', front' ⊆ front ∧
      ∀ cs, scheme? (front ++ '/' :: cs) = some (secure, front' ++ '/' :: cs) := by
  by_cases hcolon : ':' ∈ front
  · obtain ⟨name, tail, rfl, hname⟩ := List.eq_append_cons_of_mem hcolon
    rw [List.append_assoc, List.cons_append, scheme?_eq hname] at h
    obtain ⟨_, hsecure, hpair⟩ := Option.map_eq_some_iff.1 h
    obtain ⟨rfl, rfl⟩ := Prod.mk.inj hpair
    have hnil : ¬ (tail.dropWhile isSlash).isEmpty = true := fun hnil =>
      hrest (by rw [List.dropWhile_append, if_pos hnil]; rfl)
    have hdrop : ∀ cs, (tail ++ '/' :: cs).dropWhile isSlash =
        tail.dropWhile isSlash ++ '/' :: cs := fun cs => by rw [List.dropWhile_append, if_neg hnil]
    refine ⟨tail.dropWhile isSlash, fun x hx => ?_, fun cs => ?_⟩
    · simp [(List.dropWhile_sublist _).subset hx]
    · rw [List.append_assoc, List.cons_append, scheme?_eq hname, hsecure, Option.map_some, hdrop]
  · have hmem : ':' ∉ front ++ ['/'] := by simp [hcolon]
    rw [scheme?, cut_of_not_mem hmem] at h
    cases h

/-- Without a question mark, an authority ends at a slash. -/
theorem isSlash_of_mem_head? {cs : List Char} (h : '?' ∉ cs) :
    ∀ c ∈ (cut endsAuthority cs).2.head?, isSlash c = true := by
  intro c hc
  have hmem : c ∈ cs := (List.dropWhile_sublist _).subset (List.mem_of_mem_head? hc)
  have hends : endsAuthority c = true := by
    have hstop := List.head?_dropWhile_not (fun c => !endsAuthority c) cs
    rw [cut, Option.mem_def] at hc
    simpa [hc] using hstop
  rcases Bool.or_eq_true_iff.1 hends with hslash | hmark
  · exact hslash
  · exact absurd (of_decide_eq_true hmark ▸ hmem) h

/-- The rest of an address behind its scheme, up to a slash and on. -/
theorem ofRest_append {front : List Char} (hquestion : '?' ∉ front) (hhash : '#' ∉ front)
    (secure : Bool) (cs : List Char) :
    ofRest secure (front ++ '/' :: cs) =
      (authority? secure (cut endsAuthority front).1).map fun authority =>
        ⟨secure, authority, login? (cut endsAuthority front).1,
          pathOf ((cut endsAuthority front).2 ++ '/' :: pathText cs),
          queryOf (cut (· = '#') cs).1⟩ := by
  have hcut : ∀ {a : Char} {front : List Char}, a ∉ front → a ≠ '/' → ∀ cs,
      cut (· = a) (front ++ '/' :: cs) = (front ++ '/' :: (cut (· = a) cs).1, (cut (· = a) cs).2) :=
    fun h hslash cs => by
      rw [cut_append_left fun _ hx => decide_eq_false (ne_of_mem_of_not_mem hx h),
        cut_cons_of_neg (decide_eq_false hslash.symm)]
  have hback : '?' ∉ (cut endsAuthority front).2 := fun h =>
    hquestion ((List.dropWhile_sublist _).subset h)
  rw [ofRest, hcut hhash (by decide), cut_append_cons (by decide), queryOf, hcut hback (by decide)]
  cases authority? secure (cut endsAuthority front).1 <;> rfl

/-- What stands behind an address and a slash is resolved behind the segments of that address, and
changes neither its scheme nor its authority and login. -/
theorem exists_parse?_append {base : String} (hquestion : '?' ∉ base.toList)
    (hhash : '#' ∉ base.toList) {b : Url} (h : parse? (base ++ "/") = some b) :
    ∃ stack, b.path = rendered stack.reverse ++ ['/'] ∧ ∀ rest : String,
      parse? (base ++ "/" ++ rest) = some ⟨b.secure, b.authority, b.login,
        rendered (resolveDots stack (split isSlash (pathText (cleanBack rest.toList)))),
        queryOf (cut (· = '#') (cleanBack rest.toList)).1⟩ := by
  have hclean : ∀ rest : String, clean (base ++ "/" ++ rest).toList =
      cleanFront base.toList ++ '/' :: cleanBack rest.toList := fun rest => by
    rw [← clean_append_cons]
    simp
  have hbase : clean (base ++ "/").toList = cleanFront base.toList ++ ['/'] := by
    rw [String.toList_append]
    exact clean_append_cons _ []
  rw [parse?_eq, hbase] at h
  obtain ⟨⟨secure, rest⟩, hscheme, hrest⟩ := Option.bind_eq_some_iff.1 h
  -- No authority is empty, so more than the slashes of the scheme stands before this one.
  have hne : rest ≠ [] := by
    rintro rfl
    cases hrest
  obtain ⟨front, hfront, hschemes⟩ := exists_scheme?_append hscheme hne
  obtain rfl : front ++ ['/'] = rest :=
    congrArg Prod.snd (Option.some.inj ((hschemes []).symm.trans hscheme))
  have hquestion' : '?' ∉ front := fun h => hquestion (mem_of_mem_cleanFront (hfront h))
  have hhash' : '#' ∉ front := fun h => hhash (mem_of_mem_cleanFront (hfront h))
  rw [ofRest_append hquestion' hhash'] at hrest
  obtain ⟨authority, hauthority, rfl⟩ := Option.map_eq_some_iff.1 hrest
  obtain ⟨stack, hpath⟩ := exists_pathOf_append (isSlash_of_mem_head? hquestion')
  refine ⟨stack, ?_, fun rest => ?_⟩
  · show pathOf _ = _
    have hempty : resolveDots stack (split isSlash (pathText [])) = ([] :: stack).reverse := rfl
    rw [hpath, hempty, List.reverse_cons, rendered_append]
    rfl
  · rw [parse?_eq, hclean, hschemes, Option.bind_some, ofRest_append hquestion' hhash', hauthority,
      Option.map_some, hpath]

end Oncall.Url
