import Courier.Pressure.Session

/-!
# Windows of trouble

A monitor keeps one word for each kind of trouble. What it finds is told here by all that ever happened: whether the
latest overflow and the latest rate limit are long enough ago, and how many checks in a row found that they are not.
-/

namespace Courier

/-! ## What the words of a monitor say -/

namespace Timestamp

theorem millisSince_toNat (t u : Timestamp) : (t.millisSince u).toNat = t.millis.toNat - u.millis.toNat := by
  unfold millisSince
  by_cases h : t.millis < u.millis
  · rw [if_pos h]
    rw [UInt64.lt_iff_toNat_lt] at h
    simp only [UInt64.toNat_zero]
    omega
  · rw [if_neg h]
    rw [UInt64.lt_iff_toNat_lt] at h
    exact UInt64.toNat_sub_of_le _ _ (UInt64.le_iff_toNat_le.mpr (by omega))

end Timestamp

namespace PressureMonitor

theorem mark_toNat (t : Timestamp) : (mark t).toNat = min (t.millis.toNat + 1) (2 ^ 64 - 1) := by
  have hlt := t.millis.toNat_lt
  have hone : (Duration.ofMillis 1).millis = 1 := by decide
  unfold mark Timestamp.after
  simp only [hone, UInt64.lt_iff_toNat_lt, UInt64.toNat_add, UInt64.toNat_one]
  split
  · next h => rw [show (UInt64.ofNat (2 ^ 64 - 1)).toNat = 2 ^ 64 - 1 from rfl]; omega
  · next h => rw [UInt64.toNat_add, UInt64.toNat_one]; omega

theorem mark_ne_zero (t : Timestamp) : mark t ≠ 0 := by
  intro h
  have hm := mark_toNat t
  rw [h, UInt64.toNat_zero] at hm
  omega

/-- In a window of more than one millisecond, an instant and its mark are alike. -/
theorem isWithin_mark {window : Duration} {millis : Nat} (hw : window.nanos = millis * 10 ^ 6) (hm : 1 < millis)
    (t now : Timestamp) : isWithin (mark t) now window = true ↔ now.millis.toNat - t.millis.toNat < millis := by
  have hnow := now.millis.toNat_lt
  have hback : (mark t - 1).toNat = min t.millis.toNat (2 ^ 64 - 2) := by
    have ht := mark_toNat t
    rw [UInt64.toNat_sub_of_le _ _ (UInt64.le_iff_toNat_le.mpr (by rw [ht, UInt64.toNat_one]; omega)), ht]
    rw [UInt64.toNat_one]
    omega
  have hlt : now.since ⟨mark t - 1⟩ < window ↔ (now.millisSince ⟨mark t - 1⟩).toNat * 10 ^ 6 < millis * 10 ^ 6 := by
    rw [← hw]
    exact Iff.rfl
  unfold isWithin
  rw [Bool.and_eq_true, bne_iff_ne, decide_eq_true_eq, hlt, Timestamp.millisSince_toNat, hback]
  constructor
  · rintro ⟨-, h⟩
    omega
  · intro h
    exact ⟨mark_ne_zero t, by omega⟩

/-! A check changes nothing but the level, which goes up by one as long as it may, or down to zero. -/

variable (m : PressureMonitor) (now : Timestamp)

theorem check_overflow : (m.check now).overflow = m.overflow := by
  unfold check
  split
  · rfl
  · split <;> rfl

theorem check_rateLimit : (m.check now).rateLimit = m.rateLimit := by
  unfold check
  split
  · rfl
  · split <;> rfl

theorem check_level (hl : m.level.toNat ≤ 10) :
    (m.check now).level.toNat = if m.isHealthy now = true then 0 else min 10 (m.level.toNat + 1) := by
  have hmax : m.level < maxLevel ↔ m.level.toNat < 10 := UInt32.lt_iff_toNat_lt
  unfold check
  by_cases hh : m.isHealthy now = true
  · rw [if_pos hh, if_pos hh]
    rfl
  · rw [if_neg hh, if_neg hh]
    by_cases hlt : m.level.toNat < 10
    · rw [if_pos (hmax.mpr hlt)]
      simp only [UInt32.toNat_add, UInt32.toNat_one]
      omega
    · rw [if_neg fun h => hlt (hmax.mp h)]
      omega

theorem shift_level {level : UInt32} (hl : level.toNat ≤ 10) :
    ((1 : UInt64) <<< level.toUInt64).toNat = 2 ^ level.toNat := by
  have hpow : 2 ^ level.toNat ≤ 2 ^ 10 := Nat.pow_le_pow_right (by decide) hl
  rw [UInt64.toNat_shiftLeft, UInt32.toNat_toUInt64, Nat.mod_eq_of_lt (by omega : level.toNat < 64), UInt64.toNat_one,
    Nat.shiftLeft_eq, Nat.one_mul, Nat.mod_eq_of_lt (by omega)]

end PressureMonitor

/-! ## All that happened -/

inductive PressureAct
  | advance (millis : UInt64)
  | setClock (t : Timestamp)
  | rateLimit (t : Timestamp)
  | overflow
  | check

namespace PressureSession

def act (s : PressureSession) : PressureAct → PressureSession
  | .advance millis => s.advance millis
  | .setClock t => { s with clock := ⟨t⟩ }
  | .rateLimit t => s.noteRateLimit t
  | .overflow => s.noteOverflow
  | .check => s.check 1

def run (s : PressureSession) (acts : List PressureAct) : PressureSession := acts.foldl act s

end PressureSession

/-- All that happened, the latest first. -/
structure PressureLog where
  now : Timestamp
  overflows : List Timestamp := []
  rateLimits : List Timestamp := []
  /-- Whether there was trouble when a check was made. -/
  checks : List Bool := []

namespace PressureLog

/-- Whether the latest of these times is less than so long ago. A time that is still to come is not long ago. -/
def recent (times : List Timestamp) (millis : Nat) (now : Timestamp) : Bool :=
  times.head?.any fun t => now.millis.toNat - t.millis.toNat < millis

def troubled (h : PressureLog) : Bool := recent h.overflows 2000 h.now || recent h.rateLimits 10000 h.now

def note (h : PressureLog) : PressureAct → PressureLog
  | .advance millis => { h with now := ⟨h.now.millis + millis⟩ }
  | .setClock t => { h with now := t }
  | .rateLimit t => { h with rateLimits := t :: h.rateLimits }
  | .overflow => { h with overflows := h.now :: h.overflows }
  | .check => { h with checks := h.troubled :: h.checks }

def notes (h : PressureLog) (acts : List PressureAct) : PressureLog := acts.foldl note h

/-- The checks since the last one without trouble, or since the beginning. -/
def strikes (h : PressureLog) : Nat := (h.checks.takeWhile id).length

theorem strikes_check (h : PressureLog) :
    (h.note .check).strikes = if h.troubled = true then h.strikes + 1 else 0 := by
  unfold strikes note
  rw [List.takeWhile_cons]
  cases h.troubled with
  | true => rfl
  | false => rfl

theorem recent_iff {times : List Timestamp} {millis : Nat} {now : Timestamp} :
    recent times millis now = true ↔ ∃ t, times.head? = some t ∧ now.millis.toNat - t.millis.toNat < millis := by
  unfold recent
  rw [Option.any_eq_true]
  simp

end PressureLog

/-! ## A monitor and its log -/

/-- What a word of a monitor tells: that it never happened, or when it happened last. -/
inductive LastMark : List Timestamp → UInt64 → Prop
  | never : LastMark [] 0
  | last (t : Timestamp) (earlier : List Timestamp) : LastMark (t :: earlier) (PressureMonitor.mark t)

theorem LastMark.isWithin {times : List Timestamp} {cell : UInt64} (hc : LastMark times cell) {window : Duration}
    {millis : Nat} (hw : window.nanos = millis * 10 ^ 6) (hm : 1 < millis) (now : Timestamp) :
    PressureMonitor.isWithin cell now window = PressureLog.recent times millis now := by
  cases hc with
  | never => rfl
  | last t earlier =>
    rw [Bool.eq_iff_iff, PressureMonitor.isWithin_mark hw hm, PressureLog.recent_iff]
    simp

/-- A monitor is as this log says. -/
structure PressureSession.Follows (s : PressureSession) (h : PressureLog) : Prop where
  now : s.now = h.now
  overflow : LastMark h.overflows s.monitor.overflow
  rateLimit : LastMark h.rateLimits s.monitor.rateLimit
  level : s.monitor.level.toNat = min 10 h.strikes

namespace PressureSession

variable {s : PressureSession} {h : PressureLog}

theorem Follows.isHealthy (hs : s.Follows h) : s.monitor.isHealthy s.now = !h.troubled := by
  unfold PressureMonitor.isHealthy PressureLog.troubled
  rw [hs.overflow.isWithin (show PressureMonitor.overflowWindow.nanos = 2000 * 10 ^ 6 from rfl) (by decide),
    hs.rateLimit.isWithin (show PressureMonitor.rateLimitWindow.nanos = 10000 * 10 ^ 6 from rfl) (by decide), hs.now,
    Bool.not_or]

theorem Follows.check (hs : s.Follows h) : (s.act .check).Follows (h.note .check) := by
  have hcheck : (s.act .check).monitor = s.monitor.check s.now := rfl
  have hl := hs.level
  refine ⟨hs.now, ?_, ?_, ?_⟩
  · rw [hcheck, s.monitor.check_overflow]
    exact hs.overflow
  · rw [hcheck, s.monitor.check_rateLimit]
    exact hs.rateLimit
  · rw [hcheck, s.monitor.check_level s.now (by omega), hs.isHealthy, h.strikes_check]
    cases h.troubled with
    | false => rfl
    | true =>
      simp only [Bool.not_true, Bool.false_eq_true, if_false, if_true]
      omega

theorem Follows.act (hs : s.Follows h) (a : PressureAct) : (s.act a).Follows (h.note a) := by
  cases a with
  | advance millis =>
    refine ⟨?_, hs.overflow, hs.rateLimit, hs.level⟩
    change (⟨s.now.millis + millis⟩ : Timestamp) = ⟨h.now.millis + millis⟩
    rw [hs.now]
  | setClock t => exact ⟨rfl, hs.overflow, hs.rateLimit, hs.level⟩
  | rateLimit t => exact ⟨hs.now, hs.overflow, .last t _, hs.level⟩
  | overflow =>
    refine ⟨hs.now, ?_, hs.rateLimit, hs.level⟩
    change LastMark (h.now :: h.overflows) (PressureMonitor.mark s.now)
    rw [hs.now]
    exact .last h.now _
  | check => exact hs.check

theorem Follows.run (hs : s.Follows h) (acts : List PressureAct) : (s.run acts).Follows (h.notes acts) := by
  induction acts generalizing s h with
  | nil => exact hs
  | cons a acts ih => exact ih (hs.act a)

theorem follows_fresh (start : Timestamp) : ({ clock := ⟨start⟩ } : PressureSession).Follows { now := start } :=
  ⟨rfl, .never, .never, rfl⟩

/-- Whatever happens to a new monitor, and however its clock is moved: it is not healthy if and only if the latest
overflow is less than two seconds ago or the latest rate limit less than ten, where what is still to come counts as
now. Its level is how many checks there were since the last one that found it healthy, and ten at most, which a shift
of a word allows for. -/
theorem follows_windows {start : Timestamp} {acts : List PressureAct} {s : PressureSession} {h : PressureLog}
    (hs : ({ clock := ⟨start⟩ } : PressureSession).run acts = s)
    (hh : ({ now := start } : PressureLog).notes acts = h) :
    s.now = h.now ∧
    (s.monitor.isHealthy s.now = false ↔
      (∃ t, h.overflows.head? = some t ∧ s.now.millis.toNat - t.millis.toNat < 2000) ∨
        ∃ t, h.rateLimits.head? = some t ∧ s.now.millis.toNat - t.millis.toNat < 10000) ∧
    s.monitor.isHealthy s.now = !h.troubled ∧ s.monitor.level.toNat = min 10 h.strikes ∧
    s.monitor.level.toNat ≤ 10 ∧ ((1 : UInt64) <<< s.monitor.level.toUInt64).toNat = 2 ^ s.monitor.level.toNat := by
  have hf := (follows_fresh start).run acts
  rw [hs, hh] at hf
  have hlevel := hf.level
  have hten : s.monitor.level.toNat ≤ 10 := by omega
  refine ⟨hf.now, ?_, hf.isHealthy, hf.level, hten, PressureMonitor.shift_level hten⟩
  rw [hf.isHealthy, hf.now, ← PressureLog.recent_iff, ← PressureLog.recent_iff]
  unfold PressureLog.troubled
  rw [Bool.not_eq_false', Bool.or_eq_true]

/-- An overflow at the epoch, a rate limit at the end of time, and a clock that wraps, with checks all along. -/
def wildActs : List PressureAct :=
  [.overflow, .check, .advance 1999, .check, .advance 1, .check, .check, .setClock ⟨18446744073709551615⟩, .check,
    .rateLimit ⟨18446744073709551615⟩, .check, .check, .advance 10000, .check]

theorem follows_windows_wild :
    (({ clock := ⟨⟨0⟩⟩ } : PressureSession).run wildActs).now = ⟨9999⟩ ∧
    (({ clock := ⟨⟨0⟩⟩ } : PressureSession).run wildActs).monitor.isHealthy ⟨9999⟩ = false ∧
    (({ clock := ⟨⟨0⟩⟩ } : PressureSession).run wildActs).monitor.level.toNat = 3 ∧
    ((1 : UInt64) <<< (({ clock := ⟨⟨0⟩⟩ } : PressureSession).run wildActs).monitor.level.toUInt64).toNat = 8 := by
  have hs : ({ clock := ⟨⟨0⟩⟩ } : PressureSession).run wildActs = _ := rfl
  have hh : ({ now := ⟨0⟩ } : PressureLog).notes wildActs = _ := rfl
  obtain ⟨hnow, hhealthy, -, hlevel, -, hshift⟩ := follows_windows hs hh
  have hlog : (({ now := ⟨0⟩ } : PressureLog).notes wildActs).now = ⟨9999⟩ := by decide
  have hstrikes : (({ now := ⟨0⟩ } : PressureLog).notes wildActs).strikes = 3 := by decide
  rw [hlog] at hnow
  rw [hnow] at hhealthy
  rw [hstrikes] at hlevel
  rw [hlevel] at hshift
  refine ⟨hnow, hhealthy.mpr (.inr ⟨⟨18446744073709551615⟩, rfl, by decide⟩), hlevel, hshift⟩

end PressureSession

end Courier
