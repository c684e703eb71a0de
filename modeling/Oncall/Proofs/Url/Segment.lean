import Oncall.Proofs.Url.Joined
import Mathlib.Data.List.Flatten

/-! A text as the last segment of an address. What of the text ends up there is part of the text and
of no more bytes when it is read back; so it is read back as the whole text only if the text means
nothing else in an address. -/

namespace Oncall.Url

open Parts Utf8
open scoped List

/-- A text that means nothing but itself in an address: it holds no separator and no escape, names
no other segment, and cleaning leaves it as it is. -/
structure IsPlain (cs : List Char) : Prop where
  separators : ∀ x ∈ cs, isSlash x = false ∧ x ≠ '?' ∧ x ≠ '#'
  lineBreaks : ∀ x ∈ cs, isLineBreakOrTab x = false
  ending : ∀ x ∈ cs.getLast?, isBlankOrControl x = false
  dots : isDot cs = false ∧ isDoubleDot cs = false
  unescaped : Unescaped cs

/-- The last segment of the path that a text behind a slash leads to. -/
def lastSegment (cs : List Char) : List Char := lastOf (afterLast isSlash (pathText (cleanBack cs)))

/-! ### Parts of the text -/

theorem cleanBack_sublist (cs : List Char) : cleanBack cs <+ cs :=
  List.filter_sublist.trans (trimEnd_sublist _ _)

theorem pathText_sublist (cs : List Char) : pathText cs <+ cs :=
  (List.takeWhile_sublist _).trans (List.takeWhile_sublist _)

theorem lastOf_sublist (cs : List Char) : lastOf cs <+ cs := by
  unfold lastOf
  split
  next => exact List.nil_sublist cs
  next => exact List.Sublist.refl cs

theorem afterLast_sublist (p : Char → Bool) (cs : List Char) : afterLast p cs <+ cs :=
  (List.rtakeWhile_suffix _ cs).sublist

/-- Cleaning leaves a text without line breaks that ends in no blank. -/
theorem cleanBack_eq_self_iff {cs : List Char} : cleanBack cs = cs ↔
    (∀ x ∈ cs, isLineBreakOrTab x = false) ∧ ∀ x ∈ cs.getLast?, isBlankOrControl x = false := by
  have hend : trimEnd isBlankOrControl cs = cs ↔ ∀ x ∈ cs.getLast?, isBlankOrControl x = false := by
    cases cs using List.reverseRecOn with
    | nil => simp [trimEnd]
    | append_singleton cs x => simp [trimEnd_eq, List.rdropWhile_eq_self_iff]
  rw [← hend]
  constructor
  · intro h
    have hself : cs <+ trimEnd isBlankOrControl cs := by
      nth_rewrite 1 [← h]
      exact List.filter_sublist
    refine ⟨fun x hx => ?_, (trimEnd_sublist _ _).antisymm hself⟩
    rw [← h] at hx
    simpa using (List.mem_filter.1 hx).2
  · rintro ⟨hbreaks, htrim⟩
    rw [cleanBack, htrim, List.filter_eq_self]
    exact fun x hx => by rw [hbreaks x hx]; rfl

/-- A text without question mark and hash is a path as it is. -/
theorem pathText_eq_self_iff {cs : List Char} : pathText cs = cs ↔ '?' ∉ cs ∧ '#' ∉ cs := by
  constructor
  · intro h
    have hmem : ∀ x ∈ cs, x ≠ '?' ∧ x ≠ '#' := fun x hx => by
      rw [← h] at hx
      have hhash := List.mem_takeWhile_imp ((List.takeWhile_prefix _).subset hx)
      exact ⟨by simpa using List.mem_takeWhile_imp hx, by simpa using hhash⟩
    exact ⟨fun h => (hmem _ h).1 rfl, fun h => (hmem _ h).2 rfl⟩
  · rintro ⟨hquestion, hhash⟩
    rw [pathText, cut_of_not_mem hhash, cut_of_not_mem hquestion]

theorem afterLast_eq_self_iff {p : Char → Bool} {cs : List Char} :
    afterLast p cs = cs ↔ ∀ x ∈ cs, p x = false := by
  simp [afterLast_eq, List.rtakeWhile_eq_self_iff]

theorem lastOf_eq_self_iff {cs : List Char} (hne : cs ≠ []) :
    lastOf cs = cs ↔ isDot cs = false ∧ isDoubleDot cs = false := by
  rw [lastOf, and_comm, ← Bool.or_eq_false_iff]
  split
  next h => exact iff_of_false (fun e => hne e.symm) (by simp [h])
  next h => exact iff_of_true rfl (Bool.eq_false_iff.2 h)

/-- What is left of a text at the end of a path. -/
theorem lastSegment_sublist (cs : List Char) : lastSegment cs <+ cs :=
  (lastOf_sublist _).trans <| (afterLast_sublist _ _).trans <|
    (pathText_sublist _).trans (cleanBack_sublist cs)

theorem slash_not_mem_lastSegment (cs : List Char) : '/' ∉ lastSegment cs := fun h => by
  have hslash : isSlash '/' = false := of_mem_afterLast ((lastOf_sublist _).subset h)
  cases hslash

/-- All of a text is left only if no step leaves out a part of it. -/
theorem lastSegment_eq_self_iff {cs : List Char} : lastSegment cs = cs ↔
    cleanBack cs = cs ∧ pathText cs = cs ∧ afterLast isSlash cs = cs ∧ lastOf cs = cs := by
  constructor
  · intro h
    have hself : cs <+ lastSegment cs := by rw [h]
    have hof := hself.trans (lastOf_sublist _)
    have hlast := hof.trans (afterLast_sublist _ _)
    have hclean := (cleanBack_sublist cs).antisymm (hlast.trans (pathText_sublist _))
    rw [hclean] at hlast hof
    have hpath := (pathText_sublist cs).antisymm hlast
    rw [hpath] at hof
    have hall := (afterLast_sublist isSlash cs).antisymm hof
    rw [lastSegment, hclean, hpath, hall] at h
    exact ⟨hclean, hpath, hall, h⟩
  · rintro ⟨hclean, hpath, hlast, hof⟩
    rw [lastSegment, hclean, hpath, hlast, hof]

/-! ### Reading back -/

theorem unescaped_iff {cs : List Char} :
    Unescaped cs ↔ percentDecode (escape escapesInPath cs) = encode cs := by
  cases readBack cs with
  | whole h heq => exact iff_of_true h heq
  | shorter h hlt => exact iff_of_false h fun heq => hlt.ne (congrArg List.length heq)

/-- A part of a text that has all its bytes is the text. -/
theorem eq_of_sublist_of_length_encode {cs ds : List Char} (h : cs <+ ds)
    (hlength : (encode ds).length ≤ (encode cs).length) : cs = ds :=
  encode_injective ((h.flatMap encodeChar).eq_of_length_le hlength)

/-- A plain text is one that is left whole and unescaped. -/
theorem isPlain_iff {cs : List Char} (hne : cs ≠ []) :
    IsPlain cs ↔ lastSegment cs = cs ∧ Unescaped cs := by
  rw [lastSegment_eq_self_iff, cleanBack_eq_self_iff, pathText_eq_self_iff, afterLast_eq_self_iff,
    lastOf_eq_self_iff hne]
  constructor
  · rintro ⟨hseparators, hbreaks, hending, hdots, hunescaped⟩
    have hquestion : '?' ∉ cs := fun h => (hseparators _ h).2.1 rfl
    have hhash : '#' ∉ cs := fun h => (hseparators _ h).2.2 rfl
    exact ⟨⟨⟨hbreaks, hending⟩, ⟨hquestion, hhash⟩, fun x hx => (hseparators x hx).1, hdots⟩,
      hunescaped⟩
  · rintro ⟨⟨⟨hbreaks, hending⟩, ⟨hquestion, hhash⟩, hslash, hdots⟩, hunescaped⟩
    exact ⟨fun x hx => ⟨hslash x hx, ne_of_mem_of_not_mem hx hquestion,
      ne_of_mem_of_not_mem hx hhash⟩, hbreaks, hending, hdots, hunescaped⟩

/-- Only a plain text is read back from the end of a path. -/
theorem percentDecode_lastSegment_iff {cs : List Char} (hne : cs ≠ []) :
    percentDecode (escape escapesInPath (lastSegment cs)) = encode cs ↔ IsPlain cs := by
  rw [isPlain_iff hne]
  constructor
  · intro h
    -- Reading back never gives more bytes than the segment has, so none of the text may be missing.
    have hle : (encode cs).length ≤ (encode (lastSegment cs)).length := by
      rw [← h]
      exact (readBack _).length_le
    have hall := eq_of_sublist_of_length_encode (lastSegment_sublist cs) hle
    rw [hall] at h
    exact ⟨hall, unescaped_iff.2 h⟩
  · rintro ⟨hall, h⟩
    rw [hall, unescaped_iff.1 h]

/-! ### Addresses -/

theorem toList_target_of_query_eq_none {u : Url} (h : u.query = none) :
    u.target.toList = u.path := by
  rw [target, h, String.toList_ofList, List.append_nil]

/-- A target without question mark has no query. -/
theorem query_eq_none_of_target {u : Url} (h : '?' ∉ u.target.toList) : u.query = none := by
  cases hq : u.query with
  | none => rfl
  | some q =>
    rw [target, hq, String.toList_ofList] at h
    exact absurd (List.mem_append_right _ List.mem_cons_self) h

section

variable {base : String} (hquestion : '?' ∉ base.toList) (hhash : '#' ∉ base.toList) {b u : Url}
  (hb : parse? (base ++ "/") = some b) {rest : String} (hu : parse? (base ++ "/" ++ rest) = some u)

include hquestion hhash hb hu

/-- The path ends in what is left of the text. -/
theorem exists_path_lastSegment :
    (∃ root, b.path = root ++ ['/']) ∧
      ∃ front, u.path = front ++ '/' :: escape escapesInPath (lastSegment rest.toList) := by
  obtain ⟨stack, hpath, hrests⟩ := exists_parse?_append hquestion hhash hb
  obtain ⟨parts, hparts⟩ :=
    List.getLast?_eq_some_iff.1 (getLast?_split isSlash (pathText (cleanBack rest.toList)))
  obtain ⟨path, hresolved⟩ := exists_resolveDots_concat stack parts
    (afterLast isSlash (pathText (cleanBack rest.toList)))
  obtain rfl := Option.some.inj ((hrests rest).symm.trans hu)
  refine ⟨⟨_, hpath⟩, rendered path, ?_⟩
  show rendered _ = _
  rw [hparts, hresolved, rendered_append, lastSegment]
  simp [rendered]

/-- A plain text is one more segment, and leads to no query. -/
theorem path_of_isPlain (hplain : IsPlain rest.toList) :
    u.path = b.path ++ escape escapesInPath rest.toList ∧ u.query = none := by
  obtain ⟨stack, hpath, hrests⟩ := exists_parse?_append hquestion hhash hb
  obtain ⟨hseparators, hbreaks, hending, hdots, -⟩ := hplain
  have hclean := cleanBack_eq_self_iff.2 ⟨hbreaks, hending⟩
  have hmark : '?' ∉ rest.toList := fun h => (hseparators _ h).2.1 rfl
  have hfragment : '#' ∉ rest.toList := fun h => (hseparators _ h).2.2 rfl
  have hsplit := split_of_forall fun x hx => (hseparators x hx).1
  obtain rfl := Option.some.inj ((hrests rest).symm.trans hu)
  constructor
  · show rendered _ = _
    rw [hclean, pathText_eq_self_iff.2 ⟨hmark, hfragment⟩, hsplit, hpath]
    simp [resolveDots, hdots, rendered]
  · show queryOf _ = none
    rw [hclean, cut_of_not_mem hfragment, queryOf_eq_none hmark]

/-- A text is one more segment that is read back as the text just if it is plain. -/
theorem exists_segment_iff (hne : rest.toList ≠ []) :
    (∃ segment, u.target.toList = b.path ++ segment ∧ '/' ∉ segment ∧ '?' ∉ segment ∧
      percentDecode segment = encode rest.toList) ↔ IsPlain rest.toList := by
  have hslashes : ∀ {cs : List Char}, '/' ∉ cs → '/' ∉ escape escapesInPath cs := fun h =>
    not_mem_escape (.inl h) (by decide) (by decide)
  constructor
  · rintro ⟨segment, htarget, hslash, hmark, hread⟩
    have hquery : u.query = none := query_eq_none_of_target <| by
      rw [htarget, List.mem_append, not_or]
      exact ⟨question_not_mem_path hb, hmark⟩
    obtain ⟨⟨root, hroot⟩, front, hfront⟩ := exists_path_lastSegment hquestion hhash hb hu
    rw [toList_target_of_query_eq_none hquery, hfront, hroot, ← List.append_cons] at htarget
    obtain rfl := eq_of_append_cons_eq (hslashes (slash_not_mem_lastSegment _)) hslash htarget
    exact (percentDecode_lastSegment_iff hne).1 hread
  · intro h
    obtain ⟨hpath, hquery⟩ := path_of_isPlain hquestion hhash hb hu h
    have hslash : '/' ∉ rest.toList := fun hmem => by cases (h.separators _ hmem).1
    exact ⟨_, by rw [toList_target_of_query_eq_none hquery, hpath], hslashes hslash,
      not_mem_escape (.inr (by decide)) (by decide) (by decide), unescaped_iff.1 h.unescaped⟩

end

end Oncall.Url
