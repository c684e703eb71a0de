import Oncall.Proofs.Files.Entry
import Oncall.Proofs.Vault.Deeds

/-! Disks on which a write may fail, and even break off. All else that is asked of files is answered
as a file system does, and nobody but the lookups touches the directory. -/

namespace Oncall.Vault

open FileSystem (SameIn SameBut)

/-- How a write may end: the file holds what was to be written, or the write fails, and then nothing
has changed or other bytes are in the file. -/
inductive WriteEnds (dir path : String) (content : Bytes) (fs fs' : FileSystem) :
    Except FileError Unit → Prop
  | written {after : FileSystem} (h : fs.write path content = .ok after) (hs : SameIn dir after fs') :
      WriteEnds dir path content fs fs' (.ok ())
  | refused {e : FileError} (hs : SameIn dir fs fs') :
      WriteEnds dir path content fs fs' (.error e)
  | brokenOff {e : FileError} {other : Bytes} {after : FileSystem}
      (h : fs.write path other = .ok after) (hs : SameIn dir after fs') :
      WriteEnds dir path content fs fs' (.error e)

def CacheCall.isWrite : CacheCall → Bool
  | .write _ _ => true
  | _ => false

/-- A world with files whose writes may fail and even break off; `dir` is a directory that only the
calls of lookups touch. -/
structure FaultyDisk {W : Type} (answer : (c : CacheCall) → W → c.Reply × W) (files : W → FileSystem)
    (dir : String) : Prop where
  reply : ∀ c w r, c.isWrite = false → (c.onFiles (files w)).1 = some r → (answer c w).1 = r
  same : ∀ c w, c.isWrite = false → SameIn dir (c.onFiles (files w)).2 (files (answer c w).2)
  write : ∀ path text w, WriteEnds dir path (Utf8.encode text.toList) (files w)
    (files (answer (.write path text) w).2) (answer (.write path text) w).1

variable {W : Type} {answer : (c : CacheCall) → W → c.Reply × W} {files : W → FileSystem}

/-- Where writes fail only if they have to, a disk is faulty at most. -/
theorem Disk.faulty {dir : String} (hd : Disk answer files dir) : FaultyDisk answer files dir where
  reply c w r _ := hd.reply c w r
  same c w _ := hd.same c w
  write path text w := by
    have hreply := hd.reply (.write path text) w
    have hsame := hd.same (.write path text) w
    simp only [CacheCall.onFiles] at hreply hsame
    cases h : (files w).write path (Utf8.encode text.toList) with
    | ok after =>
      rw [h] at hreply hsame
      rw [hreply (.ok ()) rfl]
      exact .written h hsame
    | error e =>
      rw [h] at hreply hsame
      rw [hreply (.error e) rfl]
      exact .refused hsame

/-- Answers calls on a disk that is full: a write empties its file and then fails. -/
def CacheWorld.answerFull : (c : CacheCall) → CacheWorld → c.Reply × CacheWorld
  | .write path _, w => (.error .invalidData, (w.answer (.write path "")).2)
  | c, w => w.answer c

theorem CacheWorld.answerFull_of_not_write {c : CacheCall} (hc : c.isWrite = false)
    (w : CacheWorld) : answerFull c w = w.answer c := by
  cases c with
  | write path text => cases hc
  | _ => rfl

theorem CacheWorld.fullDisk (dir : String) : FaultyDisk answerFull CacheWorld.files dir where
  reply c w r hc h := by
    rw [answerFull_of_not_write hc]
    exact reply_answer c w h
  same c w hc := by
    rw [answerFull_of_not_write hc, files_answer]
    exact .refl dir _
  write path text w := by
    show WriteEnds dir path _ w.files (w.answer (.write path "")).2.files (.error .invalidData)
    rw [files_answer, CacheCall.onFiles]
    cases h : w.files.write path (Utf8.encode "".toList) with
    | ok after => exact .brokenOff h (.refl dir after)
    | error e => exact .refused (.refl dir w.files)

theorem found?_path {c : Cache} {a : Access} {fs fs' : FileSystem} (h : SameIn c.dir fs fs') :
    fs'.found? (c.path a) = fs.found? (c.path a) := h.found? (cacheName_plain a)

/-- What stays at a path from which a file is removed. -/
def withoutFile : Option FileEntry → Option FileEntry
  | some (.file _ _) => none
  | e => e

theorem withoutFile_ne_file (e : Option FileEntry) (content : Bytes) (t : Instant) :
    withoutFile e ≠ some (.file content t) := by
  rcases e with _ | _ | _ <;> exact nofun

namespace FaultyDisk

variable {c : Cache} (hd : FaultyDisk answer files c.dir) (w : W)

include hd

theorem sameIn (call : CacheCall) (hw : call.isWrite = false)
    (hc : ∀ fs, (call.onFiles fs).2 = fs) :
    SameIn c.dir (files w) (files (answer call w).2) := by
  have hsame := hd.same call w hw
  rwa [hc] at hsame

/-- A removal takes a file away and nothing else. -/
theorem remove_spec (a : Access) :
    (files (answer (.remove (c.path a)) w).2).found? (c.path a) =
        withoutFile ((files w).found? (c.path a)) ∧
      SameBut c.dir (cacheName a) (files w) (files (answer (.remove (c.path a)) w).2) := by
  have hp := cacheName_plain a
  have hsame := hd.same (.remove (c.path a)) w rfl
  simp only [CacheCall.onFiles] at hsame
  cases h : (files w).remove (c.path a) with
  | ok after =>
    rw [h] at hsame
    obtain ⟨content, t, hfile⟩ := FileSystem.file_of_remove h
    obtain ⟨hgone, hbut⟩ := FileSystem.found?_of_remove hp h
    refine ⟨?_, hbut.trans (hsame.sameBut _)⟩
    rw [hfile]
    exact (hsame.found? hp).trans hgone
  | error e =>
    rw [h] at hsame
    refine ⟨(hsame.found? hp).trans ?_, hsame.sameBut _⟩
    change (files w).found? (c.path a) = withoutFile ((files w).found? (c.path a))
    cases hfound : (files w).found? (c.path a) with
    | none => rfl
    | some x =>
      cases x with
      | directory t => rfl
      | file content t =>
        obtain ⟨after, hok⟩ := FileSystem.remove_of_file hfound
        cases h.symm.trans hok

end FaultyDisk

end Oncall.Vault
