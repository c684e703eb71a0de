import Oncall.Proofs.Files.Directory
import Oncall.Proofs.Pool.Notes
import Oncall.Vault.Concurrent

/-! The world of a cache. A world has a disk if it answers all that is asked of files as a file system
does, nobody but the lookups touches the directory, and the clock never goes back; what Vault replies,
and what time passes with a call, is up to the world. What lookups do is recorded: what they fetched
from Vault, and which files they stored or removed. Recording changes nothing else. -/

namespace Oncall

/-- Freshness is a comparison of ages, even where the instant that far back is out of range. -/
theorem Instant.isFresh_iff (now changed : Instant) (maxAge : Nat) :
    now.isFresh changed maxAge = true ↔ now.nanos - maxAge ≤ changed.nanos := by
  unfold isFresh before? ofNanos?
  by_cases hr : -(nanosLimit : Int) ≤ now.nanos - maxAge ∧ now.nanos - maxAge < nanosLimit
  · rw [dif_pos hr]
    exact decide_eq_true_iff
  · rw [dif_neg hr]
    have hlow := changed.low
    have hhigh := now.high
    exact iff_of_true rfl (by omega)

theorem Instant.le_after (t : Instant) (span : Nat) : t.nanos ≤ (t.after span).nanos := by
  unfold after ofNanos?
  split
  · show t.nanos ≤ t.nanos + span
    omega
  · exact le_refl _

namespace Vault

/-- Separators in a mount or a property never make it into the name of a file. -/
theorem cacheName_plain (a : Access) : Plain (cacheName a) := by
  have hdash : '-' ∈ (cacheName a).toList := by
    simp only [cacheName, String.toList_ofList, List.mem_map]
    exact ⟨'-', by simp, by decide⟩
  have hne : ∀ s : String, '-' ∉ s.toList → cacheName a ≠ s := fun s hs e => hs (e ▸ hdash)
  refine ⟨?_, hne "" (by decide), hne "." (by decide), hne ".." (by decide)⟩
  simp only [cacheName, String.toList_ofList, List.mem_map, not_exists, not_and]
  intro c _
  split
  · decide
  next h => exact fun e => h (.inl e)

/-- The result of an operation that changes files. -/
def changeFiles (fs : FileSystem) : Except FileError FileSystem →
    Option (Except FileError Unit) × FileSystem
  | .ok fs' => (some (.ok ()), fs')
  | .error e => (some (.error e), fs)

/-- What a call does to files, and its reply if files or the clock decide it. -/
def CacheCall.onFiles : (c : CacheCall) → FileSystem → Option c.Reply × FileSystem
  | .now, fs => (some fs.clock, fs)
  | .changed path, fs => (some (fs.changed path), fs)
  | .fetch _ _ _, fs => (none, fs)
  | .warn _, fs => (none, fs)
  | .write path text, fs => changeFiles fs (fs.write path (Utf8.encode text.toList))
  | .readText path, fs => (some (fs.readText path), fs)
  | .remove path, fs => changeFiles fs (fs.remove path)

variable {W : Type}

/-- A world with files; `dir` is a directory that only the calls of lookups touch. -/
structure Disk (answer : (c : CacheCall) → W → c.Reply × W) (files : W → FileSystem)
    (dir : String) : Prop where
  reply : ∀ c w r, (c.onFiles (files w)).1 = some r → (answer c w).1 = r
  same : ∀ c w, FileSystem.SameIn dir (c.onFiles (files w)).2 (files (answer c w).2)
  clock : ∀ c w, (files w).clock.nanos ≤ (files (answer c w).2).clock.nanos

/-- What a lookup did that is seen from outside. -/
inductive Deed where
  | fetched (url token path : String) (reply : Except ApiError SecretResponse)
  | stored (path text : String) (time : Instant)
  | removed (path : String)

/-- What was done with a call that got a reply at some time. -/
def Deed.of? : (c : CacheCall) → c.Reply → Instant → Option Deed
  | .fetch url token path, reply, _ => some (.fetched url token path reply)
  | .write path text, .ok (), t => some (.stored path text t)
  | .remove path, .ok (), _ => some (.removed path)
  | _, _, _ => none

/-- A world with a record of what was done in it. -/
abbrev Recorded (W : Type) := W × List Deed

/-- Answers a call and records what was done. -/
def recorded (answer : (c : CacheCall) → W → c.Reply × W) (files : W → FileSystem)
    (c : CacheCall) (s : Recorded W) : c.Reply × Recorded W :=
  ((answer c s.1).1, (answer c s.1).2,
    s.2 ++ (Deed.of? c (answer c s.1).1 (files s.1).clock).toList)

variable {answer : (c : CacheCall) → W → c.Reply × W} {files : W → FileSystem} {dir : String}

/-- Recording is not seen by a lookup, nor by its world. -/
theorem run_recorded {α : Type} (x : Lookup α) (s : Recorded W) :
    (x.run (recorded answer files) s).1 = (x.run answer s.1).1 ∧
      (x.run (recorded answer files) s).2.1 = (x.run answer s.1).2 := by
  induction x generalizing s with
  | done a => exact ⟨rfl, rfl⟩
  | call seen c next ih => exact ih _ (recorded answer files c s).2

/-! ### The world of lookups has a disk -/

theorem changeFiles_clock {fs : FileSystem} {r : Except FileError FileSystem}
    (h : ∀ fs', r = .ok fs' → fs'.clock = fs.clock) : (changeFiles fs r).2.clock = fs.clock := by
  cases r with
  | ok fs' => exact h fs' rfl
  | error e => rfl

theorem CacheCall.onFiles_clock (c : CacheCall) (fs : FileSystem) :
    (c.onFiles fs).2.clock = fs.clock := by
  cases c with
  | write path text => exact changeFiles_clock fun _ h => FileSystem.clock_of_write h
  | remove path => exact changeFiles_clock fun _ h => FileSystem.clock_of_remove h
  | _ => rfl

namespace CacheWorld

theorem changeFiles_spec (w : CacheWorld) (r : Except FileError FileSystem) :
    (w.changeFiles r).2.files = (Vault.changeFiles w.files r).2 ∧
      (Vault.changeFiles w.files r).1 = some (w.changeFiles r).1 := by
  cases r <;> exact ⟨rfl, rfl⟩

theorem files_answer (c : CacheCall) (w : CacheWorld) :
    (w.answer c).2.files = (c.onFiles w.files).2 := by
  cases c with
  | write path text => exact (w.changeFiles_spec _).1
  | remove path => exact (w.changeFiles_spec _).1
  | fetch url token path =>
    simp only [answer]
    generalize read url token path w.peer = reply
    rfl
  | _ => rfl

theorem reply_answer (c : CacheCall) (w : CacheWorld) {r : c.Reply}
    (h : (c.onFiles w.files).1 = some r) : (w.answer c).1 = r := by
  cases c with
  | write path text => exact Option.some.inj ((w.changeFiles_spec _).2.symm.trans h)
  | remove path => exact Option.some.inj ((w.changeFiles_spec _).2.symm.trans h)
  | fetch url token path => cases h
  | warn text => cases h
  | _ => exact Option.some.inj h

end CacheWorld

/-- The files of a world with a clock that moves on by a nanosecond with each call. -/
theorem CacheWorld.disk (dir : String) : Disk answerInTime CacheWorld.files dir where
  reply c w r h := reply_answer c w h
  same c w := by
    refine FileSystem.SameIn.of_lookup dir fun l => ?_
    show FileSystem.lookup? (w.answer c).2.files l = _
    rw [files_answer]
  clock c w := by
    have h : (w.answer c).2.files.clock = w.files.clock := by
      rw [files_answer, CacheCall.onFiles_clock]
    show w.files.clock.nanos ≤ ((w.answer c).2.files.clock.after 1).nanos
    rw [h]
    exact Instant.le_after _ 1

/-! ### Who did what -/

/-- Notes what a lookup did. -/
def noteDeed (files : W → FileSystem) : Noting CacheCall CacheCall.Reply W Deed :=
  fun c r w => (Deed.of? c r (files w).clock).toList

/-- Answers the calls of a lookup with this number and notes what it did. -/
abbrev noted (answer : (c : CacheCall) → W → c.Reply × W) (delay : CacheCall → Nat)
    (files : W → FileSystem) (i : Nat) : Oncall.Service CacheCall CacheCall.Reply (Noted W Deed) :=
  Service.noting ⟨answer, delay⟩ (noteDeed files) i

/-- The record of a lookup goes on from what was recorded before. -/
theorem run_recorded_append {α : Type} (x : Lookup α) (w : W) (ds : List Deed) :
    x.run (recorded answer files) (w, ds) = ((x.run (recorded answer files) (w, [])).1,
      (x.run (recorded answer files) (w, [])).2.1,
      ds ++ (x.run (recorded answer files) (w, [])).2.2) := by
  induction x generalizing w ds with
  | done a => exact congrArg (fun l => (a, w, l)) (List.append_nil ds).symm
  | call seen c next ih =>
    simp only [Workflow.run_call, recorded]
    rw [ih _ (answer c w).2 (ds ++ _), ih _ (answer c w).2 ([] ++ _), List.nil_append,
      List.append_assoc]

/-- What a lookup notes is what it would have recorded. -/
theorem run_noted (answer : (c : CacheCall) → W → c.Reply × W) (files : W → FileSystem)
    {α : Type} (delay : CacheCall → Nat) (i : Nat) (x : Lookup α) (w : W)
    (notes : List (Nat × Deed)) :
    x.run (noted answer delay files i).answer (w, notes) =
      ((x.run (recorded answer files) (w, [])).1, (x.run (recorded answer files) (w, [])).2.1,
        notes ++ (x.run (recorded answer files) (w, [])).2.2.map (i, ·)) := by
  induction x generalizing w notes with
  | done a => exact congrArg (fun l => (a, w, l)) (List.append_nil notes).symm
  | call seen c next ih =>
    simp only [Workflow.run_call]
    rw [run_recorded_append _ (recorded answer files c (w, [])).2.1,
      show (noted answer delay files i).answer c (w, notes) = ((answer c w).1, (answer c w).2,
        notes ++ (noteDeed files c (answer c w).1 w).map (i, ·)) from rfl, ih]
    simp [recorded, noteDeed]

end Vault

end Oncall
