import Oncall.Proofs.Files.Directory

/-! What is at the path of a file. A path leads to at most one entry, a file or a directory, and
reading, writing and removing are decided by it. What is done to the file of a plain name in a
directory leaves everything else in the directory as it was. -/

namespace Oncall.FileSystem

/-- What is at a path, if anything is. -/
def found? (fs : FileSystem) (path : String) : Option FileEntry :=
  (fs.find path).toOption.map Prod.snd

section Path

variable {fs fs' : FileSystem} {path : String}

theorem found?_eq_some_iff {e : FileEntry} :
    fs.found? path = some e ↔ ∃ target, fs.find path = .ok (target, e) := by
  rw [found?]
  cases fs.find path with
  | error e' => simp [Except.toOption]
  | ok found => simp [Except.toOption, Prod.ext_iff]

theorem changed_of_found {e : FileEntry} (h : fs.found? path = some e) :
    fs.changed path = .ok e.changed := by
  obtain ⟨target, hf⟩ := found?_eq_some_iff.1 h
  rw [changed, hf]
  rfl

theorem changed_of_none (h : fs.found? path = none) : ∃ e, fs.changed path = .error e := by
  rw [changed]
  cases hf : fs.find path with
  | error e => exact ⟨e, rfl⟩
  | ok found => cases h.symm.trans (found?_eq_some_iff.2 ⟨found.1, hf⟩)

theorem read_eq_ok_iff {content : Bytes} :
    fs.read path = .ok content ↔ ∃ t, fs.found? path = some (.file content t) := by
  simp only [found?_eq_some_iff, read]
  cases fs.find path with
  | error e => simp [bind, Except.bind]
  | ok found =>
    obtain ⟨target, held | t⟩ := found
    · simp [bind, Except.bind]
    · simp [bind, Except.bind]

/-- A text is read just where a file holds its bytes. -/
theorem readText_eq_ok_iff {text : String} :
    fs.readText path = .ok text ↔
      ∃ t, fs.found? path = some (.file (Utf8.encode text.toList) t) := by
  rw [← read_eq_ok_iff, readText]
  cases fs.read path with
  | error e => simp [bind, Except.bind]
  | ok content =>
    simp only [bind, Except.bind, Except.ok.injEq, ← Utf8.decode?_eq_some_iff]
    cases Utf8.decode? content with
    | none => simp
    | some cs => simp [← String.toList_inj]

theorem remove_of_file {content : Bytes} {t : Instant}
    (h : fs.found? path = some (.file content t)) : ∃ fs', fs.remove path = .ok fs' := by
  obtain ⟨target, hf⟩ := found?_eq_some_iff.1 h
  rw [remove, hf]
  exact ⟨_, rfl⟩

theorem file_of_remove (h : fs.remove path = .ok fs') :
    ∃ content t, fs.found? path = some (.file content t) := by
  rw [remove] at h
  cases hf : fs.find path with
  | error e => rw [hf] at h; cases h
  | ok found =>
    obtain ⟨target, content | _⟩ := found
    next t => exact ⟨content, t, found?_eq_some_iff.2 ⟨target, hf⟩⟩
    next => rw [hf] at h; cases h

end Path

/-! ### Files in a directory -/

/-- A directory in which at most what a name stands for has changed. -/
structure SameBut (dir name : String) (fs fs' : FileSystem) : Prop where
  directory : fs'.HasDirectory dir ↔ fs.HasDirectory dir
  within : ∀ other, name ≠ other → fs'.within dir other = fs.within dir other

section Directory

variable {fs fs' fs'' : FileSystem} {dir name : String}

theorem SameIn.sameBut (h : SameIn dir fs fs') (name : String) : SameBut dir name fs fs' :=
  ⟨h.directory, fun other _ => h.within other⟩

theorem SameBut.trans (h : SameBut dir name fs fs') (h' : SameBut dir name fs' fs'') :
    SameBut dir name fs fs'' :=
  ⟨h'.directory.trans h.directory, fun other hne => (h'.within other hne).trans (h.within other hne)⟩

theorem hasDirectory_of_within {e : FileEntry} (h : fs.within dir name = some e) :
    fs.HasDirectory dir := by
  cases he : fs.enter [] (names dir) with
  | ok here => exact ⟨here, he⟩
  | error e' => rw [FileSystem.within, he] at h; cases h

variable (hp : Plain name)

include hp

theorem found?_joinPath_eq_some_iff {e : FileEntry} :
    fs.found? (joinPath dir name) = some e ↔
      Leads (joinPath dir name) ∧ fs.within dir name = some e := by
  rw [found?_eq_some_iff]
  constructor
  · rintro ⟨target, hf⟩
    obtain ⟨hleads, -, hw⟩ := within_of_find hp hf
    exact ⟨hleads, hw⟩
  · rintro ⟨hleads, hw⟩
    obtain ⟨here, hf⟩ := find_of_within hleads hp (hasDirectory_of_within hw)
    rw [hw] at hf
    exact ⟨_, hf⟩

/-- Nothing else than the directory decides what is at the path of one of its names. -/
theorem SameIn.found? (h : SameIn dir fs fs') :
    fs'.found? (joinPath dir name) = fs.found? (joinPath dir name) := by
  ext e
  rw [found?_joinPath_eq_some_iff hp, found?_joinPath_eq_some_iff hp, h.within]

theorem SameBut.found? {other : String} (h : SameBut dir other fs fs') (hne : other ≠ name) :
    fs'.found? (joinPath dir name) = fs.found? (joinPath dir name) := by
  ext e
  rw [found?_joinPath_eq_some_iff hp, found?_joinPath_eq_some_iff hp, h.within name hne]

/-- A file that was written is at its path, and nothing else has changed. -/
theorem found?_of_write {content : Bytes} (h : fs.write (joinPath dir name) content = .ok fs') :
    fs'.found? (joinPath dir name) = some (.file content fs.clock) ∧ SameBut dir name fs fs' := by
  have hwrote := wrote_of_write hp h
  obtain ⟨here, he, -, -⟩ := set_of_write hp h
  refine ⟨(found?_joinPath_eq_some_iff hp).2 ⟨?_, ?_⟩, ?_, fun other hne => ?_⟩
  · exact leads_of_write h
  · rw [hwrote.within, if_pos rfl]
  · exact iff_of_true hwrote.directory ⟨here, he⟩
  · rw [hwrote.within, if_neg hne]

/-- A file that was removed is gone from its path, and nothing else has changed. -/
theorem found?_of_remove (h : fs.remove (joinPath dir name) = .ok fs') :
    fs'.found? (joinPath dir name) = none ∧ SameBut dir name fs fs' := by
  obtain ⟨here, he, hnot, rfl⟩ := delete_of_remove hp h
  -- the file was no directory, so the way to its directory is still open
  have he' := enter_delete (concat_ne_nil here name) hnot he
  have hwithin : ∀ other, (fs.delete (here ++ [name])).within dir other =
      if name = other then none else fs.within dir other := fun other => by
    rw [within_of_enter he', within_of_enter he, lookup?_delete _ (concat_ne_nil here name)]
    simp
  refine ⟨?_, iff_of_true ⟨here, he'⟩ ⟨here, he⟩, fun other hother => ?_⟩
  · refine Option.eq_none_iff_forall_ne_some.2 fun e he => ?_
    have hsome := ((found?_joinPath_eq_some_iff hp).1 he).2
    rw [hwithin, if_pos rfl] at hsome
    cases hsome
  · rw [hwithin, if_neg hother]

end Directory

end Oncall.FileSystem
