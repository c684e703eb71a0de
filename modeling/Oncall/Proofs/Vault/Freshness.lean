import Oncall.Proofs.Vault.Deeds

/-! The age of a file. An age is a difference of two instants: it is negative if the change is yet to
come, and may be longer than any instant is from the epoch. A file is fresh just where its age, as an
integer, is within the limit, also where the limit reaches back past all instants. -/

namespace Oncall

namespace Instant

variable {now changed t : Instant} {span maxAge : Nat}

/-- The instant a span before is missing only if it would come before all others. -/
theorem before?_eq_none_iff : t.before? span = none ↔ t.nanos - span < -(nanosLimit : Int) := by
  have hhigh := t.high
  unfold before? ofNanos?
  split
  next h => exact iff_of_false (Option.some_ne_none _) (by omega)
  next h => exact iff_of_true rfl (by omega)

theorem isFresh_iff_age :
    now.isFresh changed maxAge = true ↔ now.nanos - changed.nanos ≤ maxAge := by
  rw [isFresh_iff]
  omega

/-- A limit that reaches back past all instants is longer than any age. -/
theorem age_lt_of_before?_eq_none (h : now.before? maxAge = none) (changed : Instant) :
    now.nanos - changed.nanos < maxAge := by
  have hlow := changed.low
  have hnow := before?_eq_none_iff.1 h
  omega

end Instant

namespace Vault

variable {W : Type} {answer : (c : CacheCall) → W → c.Reply × W} {path : String} {w : W}
  {changed now : Instant}

/-- A file is there that changed at an instant, and its age is taken at another. -/
structure Dates (answer : (c : CacheCall) → W → c.Reply × W) (path : String) (w : W)
    (changed now : Instant) : Prop where
  changed : (answer (.changed path) w).1 = .ok changed
  now : (answer .now (answer (.changed path) w).2).1 = now

theorem CacheWorld.dates {w : CacheWorld} (h : w.files.changed path = .ok changed) :
    Dates CacheWorld.answer path w changed w.files.clock := ⟨h, rfl⟩

namespace Cache

/-- The file at a path is fresh. -/
def Fresh (c : Cache) (answer : (c : CacheCall) → W → c.Reply × W) (path : String) (w : W) : Prop :=
  ((c.isFresh path).run answer w).1 = true

variable {c d : Cache}

theorem fresh_iff_age (h : Dates answer path w changed now) :
    c.Fresh answer path w ↔ now.nanos - changed.nanos ≤ c.maxAge := by
  rw [Fresh, isFresh, Workflow.run_call, h.changed, ← Instant.isFresh_iff_age, ← h.now]
  rfl

/-- A fresh file is fresh at any earlier time and under any longer limit. -/
theorem Fresh.mono {w' : W} {earlier : Instant} (hf : c.Fresh answer path w)
    (h : Dates answer path w changed now) (h' : Dates answer path w' changed earlier)
    (hle : earlier.nanos ≤ now.nanos) (hmax : c.maxAge ≤ d.maxAge) : d.Fresh answer path w' := by
  have hage := (fresh_iff_age h).1 hf
  exact (fresh_iff_age h').2 (by omega)

/-- A file that is there is fresh just where its age is within the limit. It always is where the limit
reaches back past all instants, and a file that is fresh is so at any earlier time and under any longer
limit. -/
theorem fresh_by_age (c : Cache) (h : Dates answer path w changed now) :
    (c.Fresh answer path w ↔ now.nanos - changed.nanos ≤ c.maxAge) ∧
    (now.before? c.maxAge = none →
      c.Fresh answer path w ∧ now.nanos - changed.nanos ≤ c.maxAge) ∧
    ∀ (d : Cache) (w' : W) (earlier : Instant), Dates answer path w' changed earlier →
      earlier.nanos ≤ now.nanos → c.maxAge ≤ d.maxAge →
      c.Fresh answer path w → d.Fresh answer path w' := by
  refine ⟨fresh_iff_age h, fun hnone => ?_, fun d w' earlier h' hle hmax hf => hf.mono h h' hle hmax⟩
  have hage := (Instant.age_lt_of_before?_eq_none hnone changed).le
  exact ⟨(fresh_iff_age h).2 hage, hage⟩

end Cache

/-! ### The ends of time -/

/-- The longest span of 64-bit seconds and some nanoseconds. -/
def longestSpan : Nat := 2 * nanosLimit - 1

def firstInstant : Instant := ⟨-(nanosLimit : Int), le_refl _, by decide⟩

def lastInstant : Instant := ⟨nanosLimit - 1, by decide, by decide⟩

/-- No file is older than the longest span. -/
theorem fresh_longestSpan (dir : String) (h : Dates answer path w changed now) :
    (⟨dir, longestSpan⟩ : Cache).Fresh answer path w := by
  have hlow := changed.low
  have hhigh := now.high
  exact (Cache.fresh_iff_age h).2 (by simp only [longestSpan]; omega)

/-- A file that changed at one instant, seen at another. -/
def datedFile (changed clock : Instant) : CacheWorld :=
  ⟨⟨[(["f"], .file [] changed)], clock⟩, ⟨[.plain "v"], false, [], []⟩, []⟩

theorem dates_datedFile (changed clock : Instant) :
    Dates CacheWorld.answer "/f" (datedFile changed clock) changed clock := CacheWorld.dates rfl

/-- From the first instant to the last a file grows as old as the longest span, and no shorter limit
keeps it fresh. Earlier that limit reaches back past all instants. A file of the last instant, seen at
the first, is fresh under any limit. -/
theorem fresh_by_age_at_ends :
    let longest : Cache := ⟨"/", longestSpan⟩
    let shorter : Cache := ⟨"/", longestSpan - 1⟩
    let least : Cache := ⟨"/", 0⟩
    let oldest := datedFile firstInstant lastInstant
    let midway := datedFile firstInstant .epoch
    let future := datedFile lastInstant firstInstant
    (Dates CacheWorld.answer "/f" oldest firstInstant lastInstant ∧
      longest.Fresh CacheWorld.answer "/f" oldest ∧ ¬ shorter.Fresh CacheWorld.answer "/f" oldest) ∧
    (Dates CacheWorld.answer "/f" midway firstInstant .epoch ∧
      Instant.epoch.before? longest.maxAge = none ∧ longest.Fresh CacheWorld.answer "/f" midway) ∧
    Dates CacheWorld.answer "/f" future lastInstant firstInstant ∧
      least.Fresh CacheWorld.answer "/f" future ∧ longest.Fresh CacheWorld.answer "/f" future := by
  intro longest shorter least oldest midway future
  have holdest : Dates CacheWorld.answer "/f" oldest firstInstant lastInstant := dates_datedFile ..
  have hmidway : Dates CacheWorld.answer "/f" midway firstInstant .epoch := dates_datedFile ..
  have hfuture : Dates CacheWorld.answer "/f" future lastInstant firstInstant := dates_datedFile ..
  have hnone : Instant.epoch.before? longest.maxAge = none :=
    Instant.before?_eq_none_iff.2 (by decide)
  have hstale : ¬ shorter.Fresh CacheWorld.answer "/f" oldest :=
    (not_congr (Cache.fresh_by_age shorter holdest).1).2 (by decide)
  obtain ⟨hyoung, -, hmono⟩ := Cache.fresh_by_age least hfuture
  have hleast : least.Fresh CacheWorld.answer "/f" future := hyoung.2 (by decide)
  exact ⟨⟨holdest, (Cache.fresh_by_age longest holdest).1.2 (by decide), hstale⟩,
    ⟨hmidway, hnone, ((Cache.fresh_by_age longest hmidway).2.1 hnone).1⟩, hfuture, hleast,
    hmono longest future firstInstant hfuture (le_refl _) (Nat.zero_le _) hleast⟩

end Vault

end Oncall
