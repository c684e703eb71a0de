import Oncall.Proofs.Dictionary
import Oncall.Proofs.Files.Names

/-! A directory as a table of names. What is done to the file of a plain name in a directory depends
on what the directory holds under that name, and changes nothing else in it: the directory stays, and
so does all that it holds under other names. -/

namespace Oncall.FileSystem

/-! ### Entries -/

theorem concat_ne_nil (here : Location) (name : String) : here ++ [name] ≠ [] :=
  List.append_ne_nil_of_right_ne_nil _ (List.cons_ne_nil _ _)

theorem lookup?_of_ne_nil (fs : FileSystem) {l : Location} (hl : l ≠ []) :
    fs.lookup? l = fs.entries.lookup l := if_neg hl

theorem lookup?_set (fs : FileSystem) {l : Location} (hl : l ≠ []) (e : FileEntry) (m : Location) :
    (fs.set l e).lookup? m = if l = m then some e else fs.lookup? m := by
  by_cases hm : m = []
  · subst hm
    rw [if_neg hl]
    rfl
  · have hrest := Dictionary.lookup_filter_ne fs.entries l m
    rw [lookup?_of_ne_nil _ hm, lookup?_of_ne_nil _ hm, set, List.lookup_cons]
    by_cases hlm : l = m
    · simp [hlm]
    · rw [if_neg hlm] at hrest ⊢
      rw [beq_eq_false_iff_ne.2 (Ne.symm hlm)]
      exact hrest

theorem lookup?_delete (fs : FileSystem) {l : Location} (hl : l ≠ []) (m : Location) :
    (fs.delete l).lookup? m = if l = m then none else fs.lookup? m := by
  by_cases hm : m = []
  · subst hm
    rw [if_neg hl]
    rfl
  · rw [lookup?_of_ne_nil _ hm, lookup?_of_ne_nil _ hm, delete, Dictionary.lookup_filter_ne]

/-- Where all directories stay, every way stays open. -/
theorem enter_of_directories {fs fs' : FileSystem}
    (hd : ∀ l t, fs.lookup? l = some (.directory t) → fs'.lookup? l = some (.directory t))
    {here there : Location} {path : List String} (h : fs.enter here path = .ok there) :
    fs'.enter here path = .ok there := by
  fun_induction fs.enter here path with
  | case1 here => exact h
  | case2 here rest ih => exact ih h
  | case3 here rest ih => exact ih h
  | case4 here name rest hlong => cases h
  | case5 here name rest hlong hnone => cases h
  | case6 here name rest hlong => cases h
  | case7 here name rest hdot hdots hlong changed hdir ih =>
    rw [enter, if_neg hlong, hd _ _ hdir]
    · exact ih h
    · exact hdot
    · exact hdots

/-- A file that is set where no directory was bars no way. -/
theorem enter_set {fs : FileSystem} {l : Location} (hl : l ≠ [])
    (hd : ∀ t, fs.lookup? l ≠ some (.directory t)) (content : Bytes) (t : Instant)
    {here there : Location} {path : List String} (h : fs.enter here path = .ok there) :
    (fs.set l (.file content t)).enter here path = .ok there := by
  refine enter_of_directories (fun m t' hm => ?_) h
  -- what is entered is a directory, so it is not the location of the new file
  have hne : l ≠ m := fun e => hd t' (e ▸ hm)
  rw [lookup?_set _ hl, if_neg hne, hm]

/-- The removal of what is no directory bars no way. -/
theorem enter_delete {fs : FileSystem} {l : Location} (hl : l ≠ [])
    (hd : ∀ t, fs.lookup? l ≠ some (.directory t)) {here there : Location} {path : List String}
    (h : fs.enter here path = .ok there) : (fs.delete l).enter here path = .ok there := by
  refine enter_of_directories (fun m t hm => ?_) h
  have hne : l ≠ m := fun e => hd t (e ▸ hm)
  rw [lookup?_delete _ hl, if_neg hne, hm]

theorem enter_congr {fs fs' : FileSystem} (h : ∀ l, fs'.lookup? l = fs.lookup? l)
    (here : Location) (path : List String) : fs'.enter here path = fs.enter here path := by
  fun_induction fs.enter here path with
  | case1 here => rfl
  | case2 here rest ih => exact ih
  | case3 here rest ih => exact ih
  | case4 here name rest hdot hdots hlong => rw [enter, if_pos hlong] <;> assumption
  | case5 here name rest hdot hdots hlong hnone => rw [enter, if_neg hlong, h, hnone] <;> assumption
  | case6 here name rest hdot hdots hlong content changed hfile =>
    rw [enter, if_neg hlong, h, hfile] <;> assumption
  | case7 here name rest hdot hdots hlong changed hdir ih =>
    rw [enter, if_neg hlong, h, hdir] <;> assumption

/-! ### Operations on an entry -/

theorem ne_directory_of_file {e : Option FileEntry} {content : Bytes} {t : Instant}
    (h : e = some (.file content t)) (t' : Instant) : e ≠ some (.directory t') := by
  rw [h]
  exact nofun

theorem resolve_entry (fs : FileSystem) (l : Location) :
    fs.resolve (.entry l false) = (fs.lookup? l).elim (.error .notFound) .ok := by
  simp only [resolve]
  cases fs.lookup? l with
  | none => rfl
  | some e => cases e <;> rfl

section Located

variable {fs : FileSystem} {l : Location} {path : String}
  (h : fs.locate path = .ok (.entry l false))

include h

theorem find_of_locate :
    fs.find path = (fs.lookup? l).elim (.error .notFound) fun e => .ok (.entry l false, e) := by
  rw [find, h]
  show (do let e ← fs.resolve (.entry l false); .ok (_, e)) = _
  rw [resolve_entry]
  cases fs.lookup? l <;> rfl

theorem write_of_locate (content : Bytes) :
    fs.write path content = match fs.lookup? l with
      | some (.directory _) => .error .isADirectory
      | _ => .ok (fs.set l (.file content fs.clock)) := by
  rw [write, h]
  rfl

theorem remove_of_locate :
    fs.remove path = match fs.lookup? l with
      | some (.file _ _) => .ok (fs.delete l)
      | some (.directory _) => .error .isADirectory
      | none => .error .notFound := by
  rw [remove, find_of_locate h]
  cases fs.lookup? l with
  | none => rfl
  | some e => cases e <;> rfl

end Located

/-! ### Directories -/

/-- Whether the path of a directory leads to one. -/
def HasDirectory (fs : FileSystem) (dir : String) : Prop :=
  ∃ here, fs.enter [] (names dir) = .ok here

/-- What a directory holds under a name. -/
def within (fs : FileSystem) (dir name : String) : Option FileEntry :=
  match fs.enter [] (names dir) with
  | .ok here => fs.lookup? (here ++ [name])
  | .error _ => none

/-- A directory that is as it was. -/
structure SameIn (dir : String) (fs fs' : FileSystem) : Prop where
  directory : fs'.HasDirectory dir ↔ fs.HasDirectory dir
  within : ∀ name, fs'.within dir name = fs.within dir name

theorem SameIn.refl (dir : String) (fs : FileSystem) : SameIn dir fs fs := ⟨.rfl, fun _ => rfl⟩

theorem SameIn.trans {dir : String} {fs fs' fs'' : FileSystem} (h : SameIn dir fs fs')
    (h' : SameIn dir fs' fs'') : SameIn dir fs fs'' :=
  ⟨h'.directory.trans h.directory, fun name => (h'.within name).trans (h.within name)⟩

theorem SameIn.of_lookup (dir : String) {fs fs' : FileSystem}
    (h : ∀ l, fs'.lookup? l = fs.lookup? l) : SameIn dir fs fs' where
  directory := by simp only [HasDirectory, enter_congr h]
  within name := by simp only [FileSystem.within, enter_congr h, h]

theorem within_of_enter {fs : FileSystem} {dir : String} {here : Location}
    (h : fs.enter [] (names dir) = .ok here) (name : String) :
    fs.within dir name = fs.lookup? (here ++ [name]) := by
  rw [within, h]

/-- A path at which a file can be written. -/
def Writable (fs : FileSystem) (path : String) : Prop := ∃ fs', fs.write path [] = .ok fs'

theorem writable_iff {fs : FileSystem} {path : String} :
    fs.Writable path ↔ (fs.write path []).isOk = true := by
  rw [Writable]
  cases fs.write path [] with
  | ok fs' => exact iff_of_true ⟨fs', rfl⟩ rfl
  | error e =>
    refine iff_of_false ?_ Bool.false_ne_true
    rintro ⟨fs', h⟩
    cases h

instance (fs : FileSystem) (path : String) : Decidable (fs.Writable path) :=
  decidable_of_iff _ writable_iff.symm

/-- A path that leads to its last name wherever its directory is there. -/
def Leads (path : String) : Prop := ∃ fs target, FileSystem.locate fs path = .ok target

section Operations

variable {fs : FileSystem} {dir name : String}

theorem leads_of_write {path : String} {content : Bytes} {fs' : FileSystem}
    (h : fs.write path content = .ok fs') : Leads path := by
  cases hl : fs.locate path with
  | error e => rw [write, hl] at h; cases h
  | ok target => exact ⟨fs, target, hl⟩

theorem Writable.leads {path : String} (h : fs.Writable path) : Leads path :=
  leads_of_write h.choose_spec

theorem Leads.locate (h : Leads (joinPath dir name)) (hp : Plain name) {here : Location}
    (he : fs.enter [] (names dir) = .ok here) :
    fs.locate (joinPath dir name) = .ok (.entry (here ++ [name]) false) := by
  obtain ⟨fs₀, target, hl⟩ := h
  rw [locate_joinPath hp hl, he]
  rfl

section Place

variable {fs' : FileSystem} (hp : Plain name)

include hp

/-- A path that can be used leads to the entry of its name in the directory. -/
theorem place_of_locate {target : Target} (h : fs.locate (joinPath dir name) = .ok target) :
    ∃ here, fs.enter [] (names dir) = .ok here ∧ target = .entry (here ++ [name]) false := by
  have hmap := (locate_joinPath hp h fs).symm.trans h
  cases he : fs.enter [] (names dir) with
  | error e => rw [he] at hmap; cases hmap
  | ok here =>
    rw [he] at hmap
    exact ⟨here, rfl, (Except.ok.inj hmap).symm⟩

theorem set_of_write {content : Bytes} (h : fs.write (joinPath dir name) content = .ok fs') :
    ∃ here, fs.enter [] (names dir) = .ok here ∧
      (∀ t, fs.lookup? (here ++ [name]) ≠ some (.directory t)) ∧
        fs' = fs.set (here ++ [name]) (.file content fs.clock) := by
  cases hl : fs.locate (joinPath dir name) with
  | error e => rw [write, hl] at h; cases h
  | ok target =>
    obtain ⟨here, he, rfl⟩ := place_of_locate hp hl
    rw [write_of_locate hl] at h
    split at h
    next => cases h
    next hnot => exact ⟨here, he, hnot, (Except.ok.inj h).symm⟩

theorem delete_of_remove (h : fs.remove (joinPath dir name) = .ok fs') :
    ∃ here, fs.enter [] (names dir) = .ok here ∧
      (∀ t, fs.lookup? (here ++ [name]) ≠ some (.directory t)) ∧
        fs' = fs.delete (here ++ [name]) := by
  cases hl : fs.locate (joinPath dir name) with
  | error e => rw [remove, find, hl] at h; cases h
  | ok target =>
    obtain ⟨here, he, rfl⟩ := place_of_locate hp hl
    rw [remove_of_locate hl] at h
    split at h
    next hfile => exact ⟨here, he, ne_directory_of_file hfile, (Except.ok.inj h).symm⟩
    next => cases h
    next => cases h

end Place

theorem find_of_within (h : Leads (joinPath dir name)) (hp : Plain name) (hd : fs.HasDirectory dir) :
    ∃ here, fs.find (joinPath dir name) =
      (fs.within dir name).elim (.error .notFound) fun e => .ok (.entry (here ++ [name]) false, e) := by
  obtain ⟨here, he⟩ := hd
  exact ⟨here, by rw [find_of_locate (h.locate hp he), within_of_enter he]⟩

theorem changed_of_within (h : Leads (joinPath dir name)) (hp : Plain name)
    (hd : fs.HasDirectory dir) :
    fs.changed (joinPath dir name) =
      (fs.within dir name).elim (.error .notFound) fun e => .ok e.changed := by
  obtain ⟨here, hf⟩ := find_of_within h hp hd
  rw [changed, hf]
  cases fs.within dir name <;> rfl

/-- A text that was written is read back. -/
theorem readText_of_within (h : Leads (joinPath dir name)) (hp : Plain name)
    (hd : fs.HasDirectory dir) {text : String} {t : Instant}
    (hw : fs.within dir name = some (.file (Utf8.encode text.toList) t)) :
    fs.readText (joinPath dir name) = .ok text := by
  obtain ⟨here, hf⟩ := find_of_within h hp hd
  have hread : fs.read (joinPath dir name) = .ok (Utf8.encode text.toList) := by
    rw [read, hf, hw]
    rfl
  have hdecode : Utf8.decode? (Utf8.encode text.toList) = some text.toList :=
    Utf8.decode?_eq_some_iff.2 rfl
  rw [readText, hread]
  simp only [bind, Except.bind, hdecode, String.ofList_toList]

/-- What a directory holds after a file was written in it. -/
structure Wrote (dir name : String) (content : Bytes) (fs fs' : FileSystem) : Prop where
  directory : fs'.HasDirectory dir
  clock : fs'.clock = fs.clock
  within : ∀ other, fs'.within dir other =
    if name = other then some (.file content fs.clock) else fs.within dir other

/-- A write that succeeds changes one file. -/
theorem wrote_of_write (hp : Plain name) {content : Bytes} {fs' : FileSystem}
    (h : fs.write (joinPath dir name) content = .ok fs') : Wrote dir name content fs fs' := by
  obtain ⟨here, he, hnot, rfl⟩ := set_of_write hp h
  have he' := enter_set (concat_ne_nil here name) hnot content fs.clock he
  refine ⟨⟨here, he'⟩, rfl, fun other => ?_⟩
  rw [within_of_enter he', within_of_enter he, lookup?_set _ (concat_ne_nil here name)]
  simp

theorem write_of_within (h : Leads (joinPath dir name)) (hp : Plain name) (hd : fs.HasDirectory dir)
    (hw : ∀ t, fs.within dir name ≠ some (.directory t)) (content : Bytes) :
    ∃ fs', fs.write (joinPath dir name) content = .ok fs' ∧ Wrote dir name content fs fs' := by
  obtain ⟨here, he⟩ := hd
  simp only [within_of_enter he] at hw
  have hwrite : fs.write (joinPath dir name) content =
      .ok (fs.set (here ++ [name]) (.file content fs.clock)) := by
    rw [write_of_locate (h.locate hp he)]
    split
    next hdir => exact absurd hdir (hw _)
    next => rfl
  exact ⟨_, hwrite, wrote_of_write hp hwrite⟩

/-- What can be found under a plain name is in the directory. -/
theorem within_of_find (hp : Plain name) {target : Target} {e : FileEntry}
    (h : fs.find (joinPath dir name) = .ok (target, e)) :
    Leads (joinPath dir name) ∧ fs.HasDirectory dir ∧ fs.within dir name = some e := by
  cases hl : fs.locate (joinPath dir name) with
  | error e' => rw [find, hl] at h; cases h
  | ok target' =>
    have hleads : Leads (joinPath dir name) := ⟨fs, target', hl⟩
    obtain ⟨here, he, -⟩ := place_of_locate hp hl
    have hdir : fs.HasDirectory dir := ⟨here, he⟩
    obtain ⟨here, hfind⟩ := find_of_within hleads hp hdir
    rw [hfind] at h
    refine ⟨hleads, hdir, ?_⟩
    cases hw : fs.within dir name with
    | none => rw [hw] at h; cases h
    | some e' => rw [hw] at h; cases h; rfl

/-- A text that is read was written as it is. -/
theorem within_of_readText (hp : Plain name) {text : String}
    (h : fs.readText (joinPath dir name) = .ok text) :
    ∃ t, fs.within dir name = some (.file (Utf8.encode text.toList) t) := by
  cases hf : fs.find (joinPath dir name) with
  | error e => rw [readText, read, hf] at h; cases h
  | ok found =>
    obtain ⟨target, e⟩ := found
    obtain ⟨-, -, hw⟩ := within_of_find hp hf
    cases e with
    | directory t => rw [readText, read, hf] at h; cases h
    | file content t =>
      have hread : fs.read (joinPath dir name) = .ok content := by rw [read, hf]; rfl
      rw [readText, hread] at h
      cases hd : Utf8.decode? content with
      | none => simp [Bind.bind, Except.bind, hd] at h
      | some cs =>
        simp only [Bind.bind, Except.bind, hd, Except.ok.injEq] at h
        rw [← h, String.toList_ofList, ← Utf8.decode?_eq_some_iff.1 hd]
        exact ⟨t, hw⟩

/-- File systems of which one has nothing that the other has not. -/
theorem within_of_lookup {fs' : FileSystem}
    (h : ∀ l e, fs'.lookup? l = some e → fs.lookup? l = some e) {e : FileEntry}
    (hw : fs'.within dir name = some e) : fs.within dir name = some e := by
  cases he : fs'.enter [] (names dir) with
  | error e' => rw [within, he] at hw; cases hw
  | ok here =>
    rw [within_of_enter he] at hw
    rw [within_of_enter (enter_of_directories (fun l t => h l _) he)]
    exact h _ _ hw

/-- A removal leaves nothing that was not there. -/
theorem within_of_remove {path : String} {fs' : FileSystem} (h : fs.remove path = .ok fs')
    {e : FileEntry} (hw : fs'.within dir name = some e) : fs.within dir name = some e := by
  refine within_of_lookup (fun l e' he => ?_) hw
  cases hf : fs.find path with
  | error e'' => rw [remove, hf] at h; cases h
  | ok found =>
    obtain ⟨target, found⟩ := found
    rw [remove, hf] at h
    cases found with
    | directory t => cases h
    | file content t =>
      cases h
      by_cases hl : l = []
      · subst hl
        exact he
      · rw [lookup?_of_ne_nil _ hl, delete, Dictionary.lookup_filter_ne] at he
        rw [lookup?_of_ne_nil _ hl]
        split at he
        · cases he
        · exact he

theorem clock_of_write {path : String} {content : Bytes} {fs' : FileSystem}
    (h : fs.write path content = .ok fs') : fs'.clock = fs.clock := by
  unfold write at h
  cases hl : fs.locate path with
  | error e => rw [hl] at h; cases h
  | ok target =>
    rw [hl] at h
    simp only [Bind.bind, Except.bind] at h
    split at h
    · cases h
    · cases h
    · split at h
      · cases h
      · cases h; rfl

theorem clock_of_remove {path : String} {fs' : FileSystem} (h : fs.remove path = .ok fs') :
    fs'.clock = fs.clock := by
  unfold remove at h
  cases hf : fs.find path with
  | error e => rw [hf] at h; cases h
  | ok found =>
    obtain ⟨target, e⟩ := found
    rw [hf] at h
    cases e with
    | file => cases h; rfl
    | directory => cases h

end Operations

end Oncall.FileSystem
