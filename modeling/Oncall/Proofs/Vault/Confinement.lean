import Oncall.Proofs.Files.Frame
import Oncall.Proofs.Vault.Deeds

/-! What a lookup can reach. Whatever is in a mount or a property, the file of an access is one name
below the directory of the cache, and a lookup asks for no other file. So it changes nothing but what
the directory holds under that name, alone or among others, and nothing else that is in files has a
part in what it returns. -/

namespace Oncall.Vault

open FileSystem (OneBelow OnlyIn AlikeAt AlikeAfter)

/-! ### Calls -/

/-- The path of the file that a call is about. -/
def CacheCall.path? : CacheCall → Option String
  | .changed path | .write path _ | .readText path | .remove path => some path
  | _ => none

/-- A call that is about no file but the one at this path. -/
def CacheCall.At (path : String) (call : CacheCall) : Prop := ∀ p ∈ call.path?, p = path

namespace Cache

variable {path : String}

theorem at_of_none {call : CacheCall} (h : call.path? = none) : call.At path := by
  rw [CacheCall.At, h]
  exact nofun

theorem at_of_some {call : CacheCall} (h : call.path? = some path) : call.At path := by
  rw [CacheCall.At, h]
  exact fun p hp => (Option.some.inj hp).symm

theorem warnAll_at (texts : List String) : (warnAll texts).Only (·.At path) := by
  induction texts with
  | nil => trivial
  | cons t ts ih => exact ⟨at_of_none rfl, fun _ => ih⟩

theorem ask_at (a : Access) : (ask a).Only (·.At path) := by
  refine ⟨at_of_none rfl, fun reply => ?_⟩
  cases reply with
  | error e => trivial
  | ok r => exact (warnAll_at _).bind fun _ => trivial

theorem save_at (text : String) : (save path text).Only (·.At path) := by
  refine ⟨at_of_some rfl, fun reply => ?_⟩
  cases reply with
  | error e => exact ⟨at_of_some rfl, fun _ => trivial⟩
  | ok u => trivial

theorem serve_at (a : Access) : (serve path a).Only (·.At path) := by
  refine ⟨at_of_some rfl, fun reply => ?_⟩
  cases reply with
  | error e => exact ⟨at_of_some rfl, fun _ => ask_at a⟩
  | ok text => trivial

theorem refresh_at (a : Access) : (refresh path a).Only (·.At path) := by
  refine (ask_at a).bind fun secret => ?_
  cases secret with
  | error e => trivial
  | ok text =>
    refine (save_at text).bind fun saved => ?_
    cases saved with
    | true => exact serve_at a
    | false => trivial

theorem isFresh_at (c : Cache) : (c.isFresh path).Only (·.At path) := by
  refine ⟨at_of_some rfl, fun reply => ?_⟩
  cases reply with
  | error e => trivial
  | ok changed => exact ⟨at_of_none rfl, fun _ => trivial⟩

/-- A lookup asks for no file but its own. -/
theorem get_at (c : Cache) (a : Access) : (c.get a).body.Only (·.At (c.path a)) := by
  refine (isFresh_at c).bind fun fresh => ?_
  cases fresh with
  | true => exact serve_at a
  | false => exact refresh_at a

end Cache

theorem backslash_not_mem_cacheName (a : Access) : '\\' ∉ (cacheName a).toList := by
  simp only [cacheName, String.toList_ofList, List.mem_map, not_exists, not_and]
  intro c _
  split
  · decide
  next h => exact fun e => h (.inr e)

/-! ### What changes -/

section Changes

variable {c : Cache} {a : Access} {ns : List String} {call : CacheCall}

theorem onlyIn_changeFiles {fs : FileSystem} {r : Except FileError FileSystem}
    (h : ∀ fs', r = .ok fs' → OnlyIn c.dir ns fs fs') :
    OnlyIn c.dir ns fs (changeFiles fs r).2 := by
  cases r with
  | ok fs' => exact h fs' rfl
  | error e => exact .of_lookup fun _ => rfl

/-- A call about the file of an access changes at most that file. -/
theorem CacheCall.onFiles_onlyIn (h : call.At (c.path a)) (hname : cacheName a ∈ ns)
    (fs : FileSystem) : OnlyIn c.dir ns fs (call.onFiles fs).2 := by
  cases call with
  | write path text =>
    obtain rfl : path = c.path a := h _ rfl
    exact onlyIn_changeFiles fun _ hw => FileSystem.onlyIn_of_write (cacheName_plain a) hname hw
  | remove path =>
    obtain rfl : path = c.path a := h _ rfl
    exact onlyIn_changeFiles fun _ hr => FileSystem.onlyIn_of_remove (cacheName_plain a) hname hr
  | _ => exact .of_lookup fun _ => rfl

/-- A world in which nothing but the calls of lookups changes what files hold. -/
def Follows {W : Type} (answer : (c : CacheCall) → W → c.Reply × W) (files : W → FileSystem) :
    Prop :=
  ∀ call w l, (files (answer call w).2).lookup? l = (call.onFiles (files w)).2.lookup? l

theorem CacheWorld.follows : Follows CacheWorld.answer CacheWorld.files := fun call w l => by
  rw [files_answer]

theorem CacheWorld.follows_inTime : Follows CacheWorld.answerInTime CacheWorld.files :=
  fun call w l => by
    show FileSystem.lookup? (w.answer call).2.files l = _
    rw [files_answer]

variable {W : Type} {answer : (c : CacheCall) → W → c.Reply × W} {files : W → FileSystem}

/-- A lookup changes no more than its own file, whatever others do meanwhile. -/
theorem get_safe (hfiles : Follows answer files) (hname : cacheName a ∈ ns) (fs : FileSystem)
    (others : W → W → Prop) (w : W) :
    (c.get a).body.Safe answer (fun w => OnlyIn c.dir ns fs (files w)) others (fun _ _ => True)
      (fun _ _ => True) w :=
  (c.get_at a).safe (fun call w hat hw => hw.trans
    ((call.onFiles_onlyIn hat hname (files w)).trans (.of_lookup (hfiles call w)))) w

theorem onlyIn_of_get (hfiles : Follows answer files) (c : Cache) (a : Access) (w : W) :
    OnlyIn c.dir [cacheName a] (files w) (files ((c.get a).body.run answer w).2) :=
  ((get_safe hfiles (List.mem_singleton_self _) (files w) (fun _ _ => False) w).run
    (.of_lookup fun _ => rfl)).1

/-- Lookups that run together change no more than their own files. -/
theorem onlyIn_of_pool (hfiles : Follows answer files) (c : Cache) (accesses : List Access)
    (delay : CacheCall → Nat) (as : List Action) (w : W) :
    OnlyIn c.dir (accesses.map cacheName) (files w)
      (files (Pool.run ⟨answer, delay⟩ as (Pool.start (accesses.map c.get) w)).shared.world) := by
  have hstart : (Pool.start (accesses.map c.get) w).Guarded ⟨answer, delay⟩
      (fun w' => OnlyIn c.dir (accesses.map cacheName) (files w) (files w')) (fun _ _ _ => True)
      (fun _ _ => True) := by
    -- the names of all lookups may change, so that no lookup breaks what is kept for the others
    refine Pool.guarded_start (.of_lookup fun _ => rfl) fun key seen body hjob w' _ => ?_
    obtain ⟨a, ha, hget⟩ := List.mem_map.1 hjob
    obtain rfl : (c.get a).body = body := congrArg Job.body hget
    exact get_safe hfiles (List.mem_map_of_mem ha) _ _ w'
  exact (hstart.run as).inv

end Changes

/-! ### What is read -/

/-- Worlds in which all is alike but what is in other places than the file of an access. -/
structure AlikeFor (c : Cache) (a : Access) (w w' : CacheWorld) : Prop where
  files : AlikeAt c.dir (cacheName a) w.files w'.files
  peer : w'.peer = w.peer
  warnings : w'.warnings = w.warnings

namespace AlikeFor

variable {c : Cache} {a : Access} {w w' : CacheWorld} {r r' : Except FileError FileSystem}

theorem changeFiles (h : AlikeFor c a w w') (hr : AlikeAfter c.dir (cacheName a) r r') :
    (w.changeFiles r).1 = (w'.changeFiles r').1 ∧
      AlikeFor c a (w.changeFiles r).2 (w'.changeFiles r').2 := by
  cases hr with
  | failed e => exact ⟨rfl, h⟩
  | done hfiles => exact ⟨rfl, hfiles, h.peer, h.warnings⟩

theorem answer (h : AlikeFor c a w w') {call : CacheCall} (hat : call.At (c.path a)) :
    (w.answer call).1 = (w'.answer call).1 ∧ AlikeFor c a (w.answer call).2 (w'.answer call).2 := by
  have hp := cacheName_plain a
  cases call with
  | now => exact ⟨h.files.clock.symm, h⟩
  | changed path =>
    obtain rfl : path = c.path a := hat _ rfl
    exact ⟨(h.files.changed hp).symm, h⟩
  | fetch url token path =>
    rw [CacheWorld.answer, CacheWorld.answer, h.peer]
    exact ⟨rfl, h.files, rfl, h.warnings⟩
  | warn text => exact ⟨rfl, h.files, h.peer, congrArg (· ++ [text]) h.warnings⟩
  | write path text =>
    obtain rfl : path = c.path a := hat _ rfl
    exact h.changeFiles (h.files.write hp _)
  | readText path =>
    obtain rfl : path = c.path a := hat _ rfl
    exact ⟨(h.files.readText hp).symm, h⟩
  | remove path =>
    obtain rfl : path = c.path a := hat _ rfl
    exact h.changeFiles (h.files.remove hp)

theorem get (h : AlikeFor c a w w') :
    ((c.get a).body.run CacheWorld.answer w).1 = ((c.get a).body.run CacheWorld.answer w').1 ∧
      AlikeFor c a ((c.get a).body.run CacheWorld.answer w).2
        ((c.get a).body.run CacheWorld.answer w').2 := by
  have hstep : ∀ call v v', call.At (c.path a) → AlikeFor c a v v' →
      (CacheWorld.answer call v).1 = (CacheWorld.answer call v').1 ∧
        AlikeFor c a (CacheWorld.answer call v).2 (CacheWorld.answer call v').2 :=
    fun _ _ _ hat hv => hv.answer hat
  exact (c.get_at a).run_related hstep h

end AlikeFor

/-- The file of an access is one name below the directory, and a lookup reaches no other: it asks for
no other file, its path leads to no other place, what is in other places stays as it was, with any
number of lookups at a time, and does not matter. -/
theorem Cache.confined (c : Cache) :
    (∀ a : Access,
      OneBelow c.dir (cacheName a) (c.path a) ∧ '\\' ∉ (cacheName a).toList ∧
      (c.get a).body.Only (·.At (c.path a)) ∧
      (∀ (fs : FileSystem) (target : Target), fs.locate (c.path a) = .ok target →
        ∃ here, fs.enter [] (FileSystem.names c.dir) = .ok here ∧
          target = .entry (here ++ [cacheName a]) false) ∧
      let run := (c.get a).body.run CacheWorld.answer
      (∀ w, OnlyIn c.dir [cacheName a] w.files (run w).2.files) ∧
      ∀ w w', AlikeFor c a w w' → (run w).1 = (run w').1 ∧ AlikeFor c a (run w).2 (run w').2) ∧
    ∀ (accesses : List Access) (delay : CacheCall → Nat) (as : List Action) (w : CacheWorld),
      OnlyIn c.dir (accesses.map cacheName) w.files
        (Pool.run ⟨CacheWorld.answerInTime, delay⟩ as
          (Pool.start (accesses.map c.get) w)).shared.world.files := by
  refine ⟨fun a => ⟨FileSystem.oneBelow_joinPath (cacheName_plain a) c.dir,
    backslash_not_mem_cacheName a, c.get_at a,
    fun fs target h => FileSystem.place_of_locate (cacheName_plain a) h,
    onlyIn_of_get CacheWorld.follows c a, fun w w' h => h.get⟩,
    onlyIn_of_pool CacheWorld.follows_inTime c⟩

/-- A directory for a cache, and a file beside it. -/
def besideCache (content : Bytes) : CacheWorld :=
  ⟨⟨[(["cache"], .directory .epoch), (["passwd"], .file content .epoch)], .epoch⟩,
    ⟨[.plain "v"], false, [], []⟩, []⟩

/-- Dots and separators in a mount and a property. -/
theorem Cache.confined_dotted :
    let c : Cache := ⟨"/cache", defaultMaxAge⟩
    let a : Access := ⟨"n", "s", "p", "..\\passwd", "u", "t", "/..", "k"⟩
    let run := (c.get a).body.run CacheWorld.answer
    let l := ["cache", "_..-.._passwd"]
    c.path a = "/cache/_..-.._passwd" ∧
      (besideCache []).files.locate (c.path a) = .ok (.entry l false) ∧
      (∃ here, (besideCache []).files.enter [] (FileSystem.names c.dir) = .ok here ∧
        Target.entry l false = .entry (here ++ [cacheName a]) false) ∧
      AlikeFor c a (besideCache []) (besideCache [1]) ∧
      (run (besideCache [])).1 = (run (besideCache [1])).1 := by
  intro c a run l
  obtain ⟨-, -, -, hplace, hrun⟩ := (Cache.confined c).1 a
  have hlocate : (besideCache []).files.locate (c.path a) = .ok (.entry l false) := by decide
  have henter : (besideCache []).files.enter [] (FileSystem.names c.dir) = .ok ["cache"] := by
    decide
  have henter' : (besideCache [1]).files.enter [] (FileSystem.names c.dir) = .ok ["cache"] := by
    decide
  have halike : AlikeFor c a (besideCache []) (besideCache [1]) :=
    ⟨.of_place henter henter' rfl rfl, rfl, rfl⟩
  exact ⟨by decide, hlocate, hplace _ _ hlocate, halike, (hrun.2 _ _ halike).1⟩

end Oncall.Vault
