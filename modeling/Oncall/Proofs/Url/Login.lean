import Oncall.Proofs.Url.Joined

/-! Who an address says that it comes from. The login of an address stands in front of its
authority, so what is added behind a slash has no say in it; only if the slash is one of the
scheme's, what follows is read as an authority, and then a plain word there has no login. -/

namespace Oncall.Url

open Parts

/-- The authority with its login, in what follows a scheme. -/
def server (cs : List Char) : List Char := (cut endsAuthority (cut (· = '#') cs).1).1

theorem mem_of_mem_server {cs : List Char} {x : Char} (h : x ∈ server cs) : x ∈ cs :=
  (List.takeWhile_sublist _).subset ((List.takeWhile_sublist _).subset h)

/-- What stands behind a slash has no say in what stands before it. -/
theorem server_append_cons (front cs : List Char) :
    server (front ++ '/' :: cs) = server (front ++ ['/']) := by
  have hslash : endsAuthority '/' = true := by decide
  have hhash : ∀ cs, cut (· = '#') ('/' :: cs) = ('/' :: (cut (· = '#') cs).1, (cut (· = '#') cs).2) :=
    cut_cons_of_neg (by decide)
  induction front with
  | nil => simp only [server, List.nil_append, hhash, cut_cons_of_pos hslash]
  | cons c front ih =>
    unfold server at ih ⊢
    rw [List.cons_append, List.cons_append]
    cases hc : decide (c = '#') with
    | true => simp only [cut_cons_of_pos (p := (· = '#')) hc]
    | false =>
      simp only [cut_cons_of_neg (p := (· = '#')) hc]
      cases hends : endsAuthority c with
      | true => rw [cut_cons_of_pos hends, cut_cons_of_pos hends]
      | false => rw [cut_cons_of_neg hends, cut_cons_of_neg hends, ih]

theorem login?_eq_none {cs : List Char} (h : '@' ∉ cs) : login? cs = none := by
  have hdrop : cs.reverse.dropWhile (fun c => !decide (c = '@')) = [] :=
    List.dropWhile_eq_nil_iff.2 fun x hx => by
      simpa using ne_of_mem_of_not_mem (List.mem_reverse.1 hx) h
  simp only [login?, beforeLast, hdrop]
  rfl

/-- Whether there is an address, and its login, is up to what stands in front. -/
theorem map_login_ofRest (secure : Bool) (cs : List Char) :
    (ofRest secure cs).map Url.login =
      (authority? secure (server cs)).map fun _ => login? (server cs) := by
  unfold ofRest server
  dsimp only
  cases authority? secure (cut endsAuthority (cut (· = '#') cs).1).1 <;> rfl

theorem login_ofRest {secure : Bool} {cs : List Char} {u : Url} (h : ofRest secure cs = some u) :
    u.login = login? (server cs) := by
  have hmap := map_login_ofRest secure cs
  rw [h, Option.map_some] at hmap
  obtain ⟨-, -, hlogin⟩ := Option.map_eq_some_iff.1 hmap.symm
  exact hlogin.symm

/-- A text without the sign `@` has no login. -/
theorem login_of_not_mem {text : String} {u : Url} (h : parse? text = some u)
    (htext : '@' ∉ text.toList) : u.login = none := by
  rw [parse?_eq] at h
  obtain ⟨s, hs, h⟩ := Option.bind_eq_some_iff.1 h
  rw [login_ofRest h]
  exact login?_eq_none fun hmem =>
    htext (mem_of_mem_clean (mem_of_scheme? hs (mem_of_mem_server hmem)))

/-- A character that is neither dropped nor ends anything where an authority is read. -/
def isInert (c : Char) : Bool :=
  !(isBlankOrControl c || isLineBreakOrTab c || isSlash c || c = '@')

/-- A path whose first segment is a plain word. -/
structure StartsWithWord (path word tail : List Char) : Prop where
  eq : path = '/' :: (word ++ tail)
  nonempty : word ≠ []
  inert : ∀ c ∈ word, isInert c = true
  ends : tail = [] ∨ ∃ rest, tail = '/' :: rest

/-- What follows a scheme goes on behind a slash, or that slash is one of the scheme's. -/
theorem scheme?_append_cons {front cs rest : List Char} {secure : Bool}
    (h : scheme? (front ++ '/' :: cs) = some (secure, rest)) :
    (∃ front', rest = front' ++ '/' :: cs ∧
      scheme? (front ++ ['/']) = some (secure, front' ++ ['/'])) ∨
    rest = cs.dropWhile isSlash ∧ scheme? (front ++ ['/']) = some (secure, []) := by
  by_cases hcolon : ':' ∈ front
  · obtain ⟨name, tail, rfl, hname⟩ := List.eq_append_cons_of_mem hcolon
    have hdrop : ∀ cs, (tail ++ '/' :: cs).dropWhile isSlash =
        if (tail.dropWhile isSlash).isEmpty then cs.dropWhile isSlash
        else tail.dropWhile isSlash ++ '/' :: cs := fun cs => by
      rw [List.dropWhile_append]
      rfl
    rw [List.append_assoc, List.cons_append, scheme?_eq hname, hdrop] at h
    rw [List.append_assoc, List.cons_append, scheme?_eq hname, hdrop]
    obtain ⟨_, hsecure, hpair⟩ := Option.map_eq_some_iff.1 h
    obtain ⟨rfl, rfl⟩ := Prod.mk.inj hpair
    rw [hsecure]
    cases hempty : (tail.dropWhile isSlash).isEmpty with
    | true => exact .inr ⟨rfl, rfl⟩
    | false => exact .inl ⟨_, rfl, rfl⟩
  · -- No scheme has a slash in its name.
    have hcut : cut (· = ':') (front ++ '/' :: cs) =
        (front ++ '/' :: (cut (· = ':') cs).1, (cut (· = ':') cs).2) := by
      rw [cut_append_left fun _ hx => decide_eq_false (ne_of_mem_of_not_mem hx hcolon),
        cut_cons_of_neg (by decide)]
    have hslash : '/' ∈ lower (front ++ '/' :: (cut (· = ':') cs).1) :=
      List.mem_map.2 ⟨'/', by simp, by decide⟩
    have hhttp : lower (front ++ '/' :: (cut (· = ':') cs).1) ≠ "http".toList := fun h =>
      absurd (h ▸ hslash) (by decide)
    have hhttps : lower (front ++ '/' :: (cut (· = ':') cs).1) ≠ "https".toList := fun h =>
      absurd (h ▸ hslash) (by decide)
    simp only [scheme?, hcut, if_neg hhttp, if_neg hhttps] at h
    split at h <;> cases h

/-- A word that is read as an authority has no login. -/
theorem StartsWithWord.at_not_mem {path word tail : List Char}
    (h : StartsWithWord path word tail) :
    '@' ∉ server ((cleanBack (word ++ tail)).dropWhile isSlash) := by
  have hat : '@' ∉ word := fun hmem => absurd (h.inert _ hmem) (by decide)
  obtain rfl | ⟨rest, rfl⟩ := h.ends
  · intro hmem
    have hback := (List.dropWhile_sublist _).subset (mem_of_mem_server hmem)
    rw [List.append_nil] at hback
    exact hat ((trimEnd_sublist _ _).subset (List.mem_filter.1 hback).1)
  · have hbreak : word.filter (fun c => !isLineBreakOrTab c) = word :=
      List.filter_eq_self.2 fun c hc => by
        have hinert := h.inert c hc
        simp only [isInert, Bool.not_eq_true', Bool.or_eq_false_iff] at hinert
        simp [hinert.1.1.2]
    have hback : cleanBack (word ++ '/' :: rest) = word ++ '/' :: cleanBack rest := by
      rw [cleanBack, trimEnd_append_cons (by decide), List.filter_append, hbreak,
        List.filter_cons_of_pos (by decide)]
      rfl
    have hstop : (word ++ '/' :: cleanBack rest).dropWhile isSlash =
        word ++ '/' :: cleanBack rest := by
      obtain ⟨c, word, rfl⟩ := List.exists_cons_of_ne_nil h.nonempty
      have hinert := h.inert c List.mem_cons_self
      simp only [isInert, Bool.not_eq_true', Bool.or_eq_false_iff] at hinert
      exact List.dropWhile_cons_of_neg (by simp [hinert.1.2])
    rw [hback, hstop, server_append_cons]
    intro hmem
    rcases List.mem_append.1 (mem_of_mem_server hmem) with hmem | hmem
    · exact hat hmem
    · exact absurd hmem (by decide)

/-- The login of an address does not depend on what is added to it, if that starts with a word. -/
theorem login_append {base path : String} {word tail : List Char}
    (hpath : StartsWithWord path.toList word tail) {u : Url} (h : parse? (base ++ path) = some u) :
    u.login = (parse? (base ++ "/")).bind Url.login := by
  have hclean : clean (base ++ path).toList =
      cleanFront base.toList ++ '/' :: cleanBack (word ++ tail) := by
    rw [String.toList_append, hpath.eq, clean_append_cons]
  have hbase : clean (base ++ "/").toList = cleanFront base.toList ++ ['/'] := by
    rw [String.toList_append]
    exact clean_append_cons _ []
  rw [parse?_eq, hclean] at h
  rw [parse?_eq, hbase]
  obtain ⟨⟨secure, rest⟩, hscheme, hrest⟩ := Option.bind_eq_some_iff.1 h
  rcases scheme?_append_cons hscheme with ⟨front, rfl, hfront⟩ | ⟨rfl, hnone⟩
  · have hsame : (ofRest secure (front ++ ['/'])).map Url.login = some u.login := by
      rw [map_login_ofRest, ← server_append_cons, ← map_login_ofRest, hrest, Option.map_some]
    obtain ⟨b, hb, hlogin⟩ := Option.map_eq_some_iff.1 hsame
    rw [hfront, Option.bind_some, hb, Option.bind_some, hlogin]
  · rw [hnone, login_ofRest hrest, login?_eq_none hpath.at_not_mem]
    rfl

end Oncall.Url
