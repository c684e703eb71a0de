import Oncall.Proofs.Files.Directory

/-! What the path of a plain name under a directory reaches. It leads to the entry of that name in the
directory and to nothing else: what is written or removed there leaves everything at other places as it
was, in the directory and outside it, and what comes of it is decided by the way to the directory and
by that entry. -/

namespace Oncall.FileSystem

variable {fs fs' fs'' : FileSystem} {dir name : String}

/-! ### One component below a directory -/

/-- A path that is the path of a directory with one component after it. -/
structure OneBelow (dir name path : String) : Prop where
  plain : Plain name
  /-- No slash at the front of the name makes the path absolute. -/
  joined : path = pathFrom dir name
  start : dir.toList <+: path.toList
  absolute : path.toList.head? = some '/' ↔ dir.toList.head? = some '/'
  names : names path = names dir ++ [name]

theorem prefix_joinPath (dir name : String) : dir.toList <+: (joinPath dir name).toList := by
  unfold joinPath
  split
  next he => simp [String.isEmpty_iff.1 he]
  next => split <;> simp

theorem oneBelow_joinPath (hp : Plain name) (dir : String) :
    OneBelow dir name (joinPath dir name) := by
  have hhead : name.toList.head? ≠ some '/' := fun h => hp.no_slash (List.mem_of_head? h)
  have hstart := prefix_joinPath dir name
  refine ⟨hp, by rw [pathFrom, if_neg hhead], hstart, ?_, names_joinPath hp dir⟩
  cases hdir : dir.toList with
  | nil =>
    obtain rfl : dir = "" := String.toList_eq_nil_iff.1 hdir
    exact iff_of_false hhead nofun
  | cons c cs =>
    obtain ⟨rest, hrest⟩ := hdir ▸ hstart
    rw [← hrest, List.cons_append, List.head?_cons, List.head?_cons]

/-! ### What changes -/

/-- Where these names of a directory are, if the directory is there. -/
def places (fs : FileSystem) (dir : String) (ns : List String) : List Location :=
  match fs.enter [] (names dir) with
  | .ok here => ns.map fun name => here ++ [name]
  | .error _ => []

theorem mem_places {here : Location} (he : fs.enter [] (names dir) = .ok here) {ns : List String}
    (hname : name ∈ ns) : here ++ [name] ∈ fs.places dir ns := by
  rw [places, he]
  exact List.mem_map_of_mem hname

/-- File systems that differ at most in what a directory holds under these names. -/
structure OnlyIn (dir : String) (ns : List String) (fs fs' : FileSystem) : Prop where
  way : fs'.enter [] (names dir) = fs.enter [] (names dir)
  elsewhere : ∀ l ∉ fs.places dir ns, fs'.lookup? l = fs.lookup? l

section OnlyIn

variable {ns : List String}

theorem OnlyIn.of_lookup (h : ∀ l, fs'.lookup? l = fs.lookup? l) : OnlyIn dir ns fs fs' :=
  ⟨enter_congr h _ _, fun l _ => h l⟩

theorem OnlyIn.trans (h : OnlyIn dir ns fs fs') (h' : OnlyIn dir ns fs' fs'') :
    OnlyIn dir ns fs fs'' := by
  refine ⟨h'.way.trans h.way, fun l hl => ?_⟩
  have hplaces : fs'.places dir ns = fs.places dir ns := by rw [places, places, h.way]
  exact (h'.elsewhere l (hplaces ▸ hl)).trans (h.elsewhere l hl)

variable (hp : Plain name) (hname : name ∈ ns)

include hp hname

theorem onlyIn_of_write {content : Bytes} (h : fs.write (joinPath dir name) content = .ok fs') :
    OnlyIn dir ns fs fs' := by
  obtain ⟨here, he, hnot, rfl⟩ := set_of_write hp h
  refine ⟨(enter_set (concat_ne_nil _ _) hnot _ _ he).trans he.symm, fun l hl => ?_⟩
  have hne : here ++ [name] ≠ l := ne_of_mem_of_not_mem (mem_places he hname) hl
  rw [lookup?_set _ (concat_ne_nil _ _), if_neg hne]

theorem onlyIn_of_remove (h : fs.remove (joinPath dir name) = .ok fs') : OnlyIn dir ns fs fs' := by
  obtain ⟨here, he, hnot, rfl⟩ := delete_of_remove hp h
  refine ⟨(enter_delete (concat_ne_nil _ _) hnot he).trans he.symm, fun l hl => ?_⟩
  have hne : here ++ [name] ≠ l := ne_of_mem_of_not_mem (mem_places he hname) hl
  rw [lookup?_delete _ (concat_ne_nil _ _), if_neg hne]

end OnlyIn

/-! ### What is read -/

/-- File systems in which the way to a directory is the same, what it holds under a name, and the
time. -/
structure AlikeAt (dir name : String) (fs fs' : FileSystem) : Prop where
  way : fs'.enter [] (names dir) = fs.enter [] (names dir)
  within : fs'.within dir name = fs.within dir name
  clock : fs'.clock = fs.clock

/-- Operations that failed alike, or that left alike what they did not fail on. -/
inductive AlikeAfter (dir name : String) :
    Except FileError FileSystem → Except FileError FileSystem → Prop
  | failed (e : FileError) : AlikeAfter dir name (.error e) (.error e)
  | done {fs fs' : FileSystem} (h : AlikeAt dir name fs fs') :
      AlikeAfter dir name (.ok fs) (.ok fs')

namespace AlikeAt

theorem of_place {here : Location} (he : fs.enter [] (names dir) = .ok here)
    (he' : fs'.enter [] (names dir) = .ok here)
    (hentry : fs'.lookup? (here ++ [name]) = fs.lookup? (here ++ [name]))
    (hclock : fs'.clock = fs.clock) : AlikeAt dir name fs fs' :=
  ⟨he'.trans he.symm, by rw [within_of_enter he, within_of_enter he', hentry], hclock⟩

variable (h : AlikeAt dir name fs fs')

include h

theorem lookup? {here : Location} (he : fs.enter [] (names dir) = .ok here) :
    fs'.lookup? (here ++ [name]) = fs.lookup? (here ++ [name]) := by
  rw [← within_of_enter he, ← within_of_enter (h.way.trans he), h.within]

variable (hp : Plain name)

include hp

theorem locate : fs'.locate (joinPath dir name) = fs.locate (joinPath dir name) := by
  -- the last name is no dot, so nothing is entered but what is on the way to the directory
  unfold FileSystem.locate
  rw [names_joinPath hp, List.getLast?_concat, List.dropLast_concat]
  split
  · rfl
  split
  · rfl
  split
  · rfl
  split
  next he => cases he
  next he => exact absurd (Option.some.inj he) hp.ne_dot
  next he => exact absurd (Option.some.inj he) hp.ne_dots
  next he => rw [h.way]

theorem find : fs'.find (joinPath dir name) = fs.find (joinPath dir name) := by
  cases hl : fs.locate (joinPath dir name) with
  | error e => rw [FileSystem.find, FileSystem.find, h.locate hp, hl]; rfl
  | ok target =>
    obtain ⟨here, he, rfl⟩ := place_of_locate hp hl
    rw [find_of_locate ((h.locate hp).trans hl), find_of_locate hl, h.lookup? he]

theorem changed : fs'.changed (joinPath dir name) = fs.changed (joinPath dir name) := by
  rw [FileSystem.changed, FileSystem.changed, h.find hp]

theorem readText : fs'.readText (joinPath dir name) = fs.readText (joinPath dir name) := by
  rw [FileSystem.readText, FileSystem.readText, FileSystem.read, FileSystem.read, h.find hp]

theorem write (content : Bytes) :
    AlikeAfter dir name (fs.write (joinPath dir name) content)
      (fs'.write (joinPath dir name) content) := by
  cases hl : fs.locate (joinPath dir name) with
  | error e =>
    rw [FileSystem.write, FileSystem.write, h.locate hp, hl]
    exact .failed e
  | ok target =>
    obtain ⟨here, he, rfl⟩ := place_of_locate hp hl
    rw [write_of_locate hl, write_of_locate ((h.locate hp).trans hl), h.lookup? he]
    split
    next => exact .failed _
    next hnot =>
      have hnot' := hnot
      rw [← h.lookup? he] at hnot'
      refine .done (of_place (enter_set (concat_ne_nil _ _) hnot _ _ he)
        (enter_set (concat_ne_nil _ _) hnot' _ _ (h.way.trans he)) ?_ h.clock)
      rw [lookup?_set _ (concat_ne_nil _ _), lookup?_set _ (concat_ne_nil _ _), if_pos rfl,
        if_pos rfl, h.clock]

theorem remove :
    AlikeAfter dir name (fs.remove (joinPath dir name)) (fs'.remove (joinPath dir name)) := by
  cases hl : fs.locate (joinPath dir name) with
  | error e =>
    rw [FileSystem.remove, FileSystem.remove, h.find hp, FileSystem.find, hl]
    exact .failed e
  | ok target =>
    obtain ⟨here, he, rfl⟩ := place_of_locate hp hl
    rw [remove_of_locate hl, remove_of_locate ((h.locate hp).trans hl), h.lookup? he]
    split
    next hfile =>
      have hfile' := (h.lookup? he).trans hfile
      refine .done (of_place (enter_delete (concat_ne_nil _ _) (ne_directory_of_file hfile) he)
        (enter_delete (concat_ne_nil _ _) (ne_directory_of_file hfile') (h.way.trans he)) ?_
        h.clock)
      rw [lookup?_delete _ (concat_ne_nil _ _), lookup?_delete _ (concat_ne_nil _ _), if_pos rfl,
        if_pos rfl]
    next => exact .failed _
    next => exact .failed _

end AlikeAt

end Oncall.FileSystem
