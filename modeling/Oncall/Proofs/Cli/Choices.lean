import Oncall.Cli.Invocation
import Oncall.Proofs.Text.Parts

/-! How the words of a choice are read. A flag and its value may stand in two words or in one, and a
flag with a letter may be written with it. On a level that knows the flag, each spelling adds the
same pair to what was found there, whatever stands before and after. -/

namespace Oncall

namespace Cli

/-- How a flag and its value are written: in two words, in one, or with the letter of the flag. -/
inductive Spelling where
  | apart
  | joined
  | letter (c : Char)
  deriving DecidableEq

/-- A flag with a value that is not empty, begins with no dash and, for the log format, names one. -/
structure Choice where
  flag : Flag
  value : String
  spelling : Spelling
  nonempty : value ≠ ""
  noDash : value.toList.head? ≠ some '-'
  isFormat : flag = .logFormat → value = "plain" ∨ value = "json"
  hasLetter : ∀ c, spelling = .letter c → flag.short? = some c

namespace Choice

def pair (c : Choice) : Flag × String := (c.flag, c.value)

def words (c : Choice) : List String :=
  match c.spelling with
  | .apart => ["--" ++ c.flag.long, c.value]
  | .joined => ["--" ++ c.flag.long ++ "=" ++ c.value]
  | .letter l => [String.ofList ['-', l], c.value]

theorem accepts (c : Choice) : c.flag.accepts c.value = true := by
  have hempty : c.value.isEmpty = false := by simpa using c.nonempty
  unfold Flag.accepts
  split
  · simp [hempty]
  · simp [hempty]
  next hflag =>
    rcases c.isFormat hflag with h | h
    · rw [h]
      rfl
    · rw [h]
      rfl
  · rfl

end Choice

namespace Level

/-- No command is named like a flag. -/
theorem child?_of_dash {w : String} (h : w.toList.head? = some '-') (l : Level) :
    l.child? w = none := by
  refine List.lookup_eq_none_iff.2 fun x hx => ?_
  have hall : ∀ l : Level, ∀ x ∈ l.children, x.1.toList.head? ≠ some '-' := by
    intro l
    cases l <;> decide
  rw [bne_iff_ne]
  rintro rfl
  exact hall l x hx h

theorem long?_of_mem {l : Level} {f : Flag} (h : f ∈ l.flags) : l.long? f.long = some f := by
  revert h
  cases l <;> cases f <;> decide

theorem short?_of_mem {l : Level} {f : Flag} {c : Char} (h : f ∈ l.flags)
    (hc : f.short? = some c) : l.short? c = some f := by
  cases f with
  | nspace =>
    cases hc
    revert h
    cases l <;> decide
  | _ => cases hc

end Level

namespace Word

theorem ofString_long (f : Flag) : ofString ("--" ++ f.long) = .long f.long none := by
  cases f <;> rfl

theorem ofString_joined (f : Flag) (value : String) :
    ofString ("--" ++ f.long ++ "=" ++ value) = .long f.long (some value) := by
  have hname : ∀ x ∈ f.long.toList, decide (x = '=') = false := by
    have hall : (f.long.toList.all fun x => !decide (x = '=')) = true := by cases f <;> rfl
    simpa using hall
  have hchars : ("--" ++ f.long ++ "=" ++ value).toList =
      '-' :: '-' :: (f.long.toList ++ '=' :: value.toList) := by
    simp only [String.toList_append, List.append_assoc]
    rfl
  have hsplit : splitValue (f.long.toList ++ '=' :: value.toList) = (f.long, some value) := by
    rw [splitValue, Parts.cut_append hname (by simp)]
    simp
  have hne : f.long.toList ++ '=' :: value.toList ≠ [] := by simp
  obtain ⟨c, cs, hcs⟩ := List.exists_cons_of_ne_nil hne
  rw [hcs] at hchars hsplit
  simp only [ofString, hchars, hsplit]

theorem ofString_letter {f : Flag} {c : Char} (h : f.short? = some c) :
    ofString (String.ofList ['-', c]) = .short [c] := by
  cases f with
  | nspace =>
    cases h
    rfl
  | _ => cases h

theorem ofString_plain {w : String} (h : w.toList.head? ≠ some '-') : ofString w = .plain := by
  unfold ofString
  split
  next hw => simp [hw] at h
  next hw => simp [hw] at h
  next hw => simp [hw] at h
  next => rfl

end Word

namespace Scope

/-- On a level, these are the flags with their values, the last of them being settled. -/
def Has (s : Scope) (l : Level) (given : List (Flag × String)) : Prop :=
  s.settle = .ok ⟨l, given, none⟩

variable {s : Scope} {l : Level} {given : List (Flag × String)}

theorem has_start (l : Level) : (start l).Has l [] := rfl

theorem Has.spec (h : s.Has l given) : s.level = l ∧ s.isWaiting = false := by
  obtain ⟨level, found, pending⟩ := s
  unfold Has settle at h
  split at h
  next hp =>
    cases h
    exact ⟨rfl, rfl⟩
  next => cases h
  next f value hp =>
    obtain rfl : pending = some (f, some value) := hp
    unfold take at h
    split at h
    · cases h
    · split at h
      · cases h
        exact ⟨rfl, rfl⟩
      · cases h

theorem take_ok {f : Flag} {value : String} (hnew : given.lookup f = none)
    (hvalue : f.accepts value = true) :
    take ⟨l, given, none⟩ f value = .ok ⟨l, given ++ [(f, value)], none⟩ := by
  simp [take, hnew, hvalue]

/-- A flag whose value is attached. -/
theorem Has.flag_attached (h : s.Has l given) {f : Flag} {value : String}
    (hnew : given.lookup f = none) (hvalue : f.accepts value = true) :
    s.flag f (some value) = .ok ⟨l, given ++ [(f, value)], none⟩ := by
  rw [flag, h]
  exact take_ok hnew hvalue

/-- A flag whose value is the next word. -/
theorem Has.flag_waiting (h : s.Has l given) (f : Flag) :
    s.flag f none = .ok ⟨l, given, some (f, none)⟩ := by
  rw [flag, h]
  rfl

theorem has_pending {f : Flag} {value : String} (hnew : given.lookup f = none)
    (hvalue : f.accepts value = true) :
    Has ⟨l, given, some (f, some value)⟩ l (given ++ [(f, value)]) :=
  take_ok hnew hvalue

theorem Has.long (h : s.Has l given) {f : Flag} (hf : f ∈ l.flags) (value : Option String) :
    s.long f.long value = s.flag f value := by
  rw [Scope.long, h.spec.1, Level.long?_of_mem hf]

theorem Has.short (h : s.Has l given) {f : Flag} (hf : f ∈ l.flags) {c : Char}
    (hc : f.short? = some c) : s.short [c] = s.flag f none := by
  rw [Scope.short, h.spec.1, Level.short?_of_mem hf hc]
  rfl

end Scope

namespace Reader

variable {r : Reader} {l : Level} {given : List (Flag × String)}

/-- A word that begins with a dash is no command. -/
theorem read_dashed (hr : r.scope.Has l given) (he : r.escaped = false) {w : String}
    (hw : w.toList.head? = some '-') (ws : List String) :
    r.read (w :: ws) = (r.word w).bind fun r => r.read ws := by
  have hhelp : w ≠ Level.helpName := by
    rintro rfl
    exact absurd hw (by decide)
  rw [read]
  simp [he, hr.spec.2, Level.child?_of_dash hw, hhelp]

/-- While a flag waits for its value, the next word without a dash is it. -/
theorem read_value {f : Flag} {w : String} (hw : w.toList.head? ≠ some '-') (outer : List Scope)
    (ws : List String) :
    read ⟨⟨l, given, some (f, none)⟩, outer, false⟩ (w :: ws) =
      read ⟨⟨l, given, some (f, some w)⟩, outer, false⟩ ws := by
  rw [read]
  simp only [Bool.false_eq_true, if_false, Scope.isWaiting, Option.any_some, Option.isNone_none,
    if_true, word, Word.ofString_plain hw]
  rfl

/-- The name of a command leads a level further in. -/
theorem read_child (hr : r.scope.Has l given) (he : r.escaped = false) {w : String} {child : Level}
    (hw : l.child? w = some child) (ws : List String) :
    r.read (w :: ws) = (r.enter child).read ws := by
  rw [read]
  simp [he, hr.spec.2, hr.spec.1, hw]

/-- However it is spelled, a choice adds its pair. -/
theorem read_choice (hr : r.scope.Has l given) (he : r.escaped = false) (c : Choice)
    (hf : c.flag ∈ l.flags) (hnew : given.lookup c.flag = none) (ws : List String) :
    ∃ s : Scope, s.Has l (given ++ [c.pair]) ∧
      r.read (c.words ++ ws) = read ⟨s, r.outer, false⟩ ws := by
  obtain ⟨scope, outer, escaped⟩ := r
  obtain rfl : escaped = false := he
  have hr : scope.Has l given := hr
  have hpending := Scope.has_pending (l := l) hnew c.accepts
  unfold Choice.words
  cases hs : c.spelling with
  | apart =>
    refine ⟨_, hpending, ?_⟩
    rw [List.cons_append, read_dashed hr rfl (by rw [String.toList_append]; rfl), word,
      Word.ofString_long]
    dsimp only
    rw [hr.long hf, hr.flag_waiting]
    exact read_value c.noDash outer ws
  | joined =>
    refine ⟨⟨l, given ++ [c.pair], none⟩, rfl, ?_⟩
    rw [List.cons_append, read_dashed hr rfl (by simp only [String.toList_append]; rfl), word,
      Word.ofString_joined]
    dsimp only
    rw [hr.long hf, hr.flag_attached hnew c.accepts]
    rfl
  | letter x =>
    have hx := c.hasLetter x hs
    refine ⟨_, hpending, ?_⟩
    rw [List.cons_append, read_dashed hr rfl (by rw [String.toList_ofList]; rfl), word,
      Word.ofString_letter hx]
    dsimp only
    rw [hr.short hf hx, hr.flag_waiting]
    exact read_value c.noDash outer ws

/-- Choices of different flags add their pairs in turn. -/
theorem read_choices (hr : r.scope.Has l given) (he : r.escaped = false) (cs : List Choice)
    (hf : ∀ c ∈ cs, c.flag ∈ l.flags) (hnodup : (cs.map Choice.flag).Nodup)
    (hnew : ∀ c ∈ cs, given.lookup c.flag = none) (ws : List String) :
    ∃ s : Scope, s.Has l (given ++ cs.map Choice.pair) ∧
      r.read (cs.flatMap Choice.words ++ ws) = read ⟨s, r.outer, false⟩ ws := by
  induction cs generalizing r given with
  | nil =>
    obtain ⟨scope, outer, escaped⟩ := r
    obtain rfl : escaped = false := he
    exact ⟨scope, by rwa [List.map_nil, List.append_nil], rfl⟩
  | cons c cs ih =>
    obtain ⟨hc, hcs⟩ := List.nodup_cons.1 hnodup
    obtain ⟨s, hs, hread⟩ := read_choice hr he c (hf c List.mem_cons_self)
      (hnew c List.mem_cons_self) (cs.flatMap Choice.words ++ ws)
    have hnew' : ∀ d ∈ cs, (given ++ [c.pair]).lookup d.flag = none := by
      intro d hd
      have hne : d.flag ≠ c.flag := fun h => hc (h ▸ List.mem_map_of_mem hd)
      rw [List.lookup_append, hnew d (List.mem_cons_of_mem c hd), Option.none_or, Choice.pair]
      simp [List.lookup_cons, beq_eq_false_iff_ne.2 hne]
    obtain ⟨s', hs', hread'⟩ := ih (r := ⟨s, r.outer, false⟩) hs rfl
      (fun d hd => hf d (List.mem_cons_of_mem c hd)) hcs hnew'
    refine ⟨s', ?_, ?_⟩
    · rwa [List.append_assoc] at hs'
    · rw [List.flatMap_cons, List.append_assoc, hread, hread']

end Reader

end Cli
end Oncall
