import Oncall.Files
import Oncall.Proofs.Text.Parts

/-! Paths of files in a directory. A plain name is one path component: no slash is in it, and it is
neither empty nor a dot or two. The path of a plain name under a directory goes through the names of
the directory and ends at that name, however the path of the directory is written. -/

namespace Oncall

/-- A name that is one path component. -/
structure Plain (name : String) : Prop where
  no_slash : '/' ∉ name.toList
  ne_empty : name ≠ ""
  ne_dot : name ≠ "."
  ne_dots : name ≠ ".."

namespace FileSystem

theorem names_append (a b : List Char) :
    names (String.ofList (a ++ '/' :: b)) = names (String.ofList a) ++ names (String.ofList b) := by
  simp only [names, String.toList_ofList]
  rw [Parts.split_append_cons (by simp), List.map_append, List.filter_append]

@[simp] theorem names_empty : names "" = [] := rfl

theorem names_plain {name : String} (h : Plain name) : names name = [name] := by
  have hs : Parts.split (· = '/') name.toList = [name.toList] :=
    Parts.split_of_forall fun c hc => by
      simpa using fun e : c = '/' => h.no_slash (e ▸ hc)
  rw [names, hs]
  simp [h.ne_empty]

/-- How the path of a name under a directory is put together. -/
theorem joinPath_eq (dir name : String) :
    (dir = "" ∧ joinPath dir name = name) ∨
      ∃ init, names dir = names (String.ofList init) ∧
        (joinPath dir name).toList = init ++ '/' :: name.toList := by
  by_cases he : dir = ""
  · subst he
    exact .inl ⟨rfl, rfl⟩
  · have he' : dir.isEmpty = false := by simpa using he
    refine .inr ?_
    by_cases hs : dir.toList.getLast? = some '/'
    · obtain ⟨init, hi⟩ := List.getLast?_eq_some_iff.1 hs
      refine ⟨init, ?_, by simp [joinPath, he', hi]⟩
      rw [← String.ofList_toList (s := dir), hi, names_append]
      exact List.append_nil _
    · exact ⟨dir.toList, by rw [String.ofList_toList], by simp [joinPath, he', hs]⟩

theorem names_joinPath {name : String} (h : Plain name) (dir : String) :
    names (joinPath dir name) = names dir ++ [name] := by
  rcases joinPath_eq dir name with ⟨rfl, hj⟩ | ⟨init, hn, hj⟩
  · rw [hj, names_plain h, names_empty, List.nil_append]
  · rw [← String.ofList_toList (s := joinPath dir name), hj, names_append, String.ofList_toList,
      names_plain h, hn]

theorem getLast?_joinPath {name : String} (h : Plain name) (dir : String) :
    (joinPath dir name).toList.getLast? ≠ some '/' := by
  have hname : name.toList ≠ [] := by simpa using h.ne_empty
  have hlast : name.toList.getLast? ≠ some '/' := fun hl => h.no_slash (List.mem_of_getLast? hl)
  rcases joinPath_eq dir name with ⟨rfl, hj⟩ | ⟨init, -, hj⟩
  · rwa [hj]
  · rw [hj, List.append_cons, List.getLast?_append_of_ne_nil _ hname]
    exact hlast

theorem joinPath_injective (dir : String) : Function.Injective (joinPath dir) := by
  intro a b h
  unfold joinPath at h
  split at h
  · exact h
  · split at h <;> simpa using h

/-- A path that can be used in one file system leads to its name in every other, as long as its
directory is there. -/
theorem locate_joinPath {dir name : String} (h : Plain name) {fs₀ : FileSystem} {target : Target}
    (hl : fs₀.locate (joinPath dir name) = .ok target) (fs : FileSystem) :
    fs.locate (joinPath dir name) =
      (fs.enter [] (names dir)).map fun here => .entry (here ++ [name]) false := by
  have hdir : (names (joinPath dir name)).dropLast = names dir := by
    rw [names_joinPath h, List.dropLast_concat]
  have hlast : (names (joinPath dir name)).getLast? = some name := by
    rw [names_joinPath h, List.getLast?_concat]
  have hslash : decide ((joinPath dir name).toList.getLast? = some '/') = false :=
    decide_eq_false (getLast?_joinPath h dir)
  unfold locate at hl ⊢
  split at hl
  · cases hl
  split at hl
  · cases hl
  split at hl
  · cases hl
  next h1 h2 h3 =>
    rw [if_neg h1, if_neg h2, if_neg h3]
    rw [hlast] at hl ⊢
    split at hl
    next he => cases he
    next he => exact absurd (Option.some.inj he) h.ne_dot
    next he => exact absurd (Option.some.inj he) h.ne_dots
    next he =>
      cases he
      rw [hdir, hslash] at hl ⊢
      by_cases hlong : isTooLong name = true
      · simp only [hlong, if_true] at hl
        cases he₀ : fs₀.enter [] (names dir) <;> rw [he₀] at hl <;> cases hl
      · simp only [hlong]
        cases fs.enter [] (names dir) <;> rfl

end FileSystem

end Oncall
