import AIWorld.Scheduler.AgentUpdateScheduler
import Mathlib.Data.Nat.ModEq

/-! The times of one agent. The next pass lies after the last one and not after the
periodic deadline; a pass charges the time since the last one and moves the periodic
deadline to the first time of its phase that is still to come. -/

namespace AIWorld.Scheduler

open Lib

/-- The first time after `nowMs` that is in phase with `phase`. -/
structure IsNextPeriod (phase intervalMs nowMs t : ℕ) : Prop where
  after : nowMs < t
  inPhase : t ≡ phase [MOD intervalMs]
  least : ∀ u, nowMs < u → u ≡ phase [MOD intervalMs] → t ≤ u

/-- The first time in phase is at most one interval away. -/
theorem isNextPeriod_of_le {phase intervalMs nowMs t : ℕ} (hafter : nowMs < t)
    (hphase : t ≡ phase [MOD intervalMs]) (hreach : t ≤ nowMs + intervalMs) :
    IsNextPeriod phase intervalMs nowMs t := by
  refine ⟨hafter, hphase, fun u hu hphase' => ?_⟩
  by_contra hlt
  have hmod : u ≡ t [MOD intervalMs] := hphase'.trans hphase.symm
  have hdvd := (Nat.modEq_iff_dvd' (Nat.le_of_not_le hlt)).mp hmod
  have := Nat.le_of_dvd (by omega) hdvd
  omega

/-- The delay to the next time in phase. -/
theorem modEq_next {phase intervalMs nowMs : ℕ} (hpos : 0 < intervalMs) (hle : phase ≤ nowMs) :
    nowMs + (intervalMs - (nowMs - phase) % intervalMs) ≡ phase [MOD intervalMs] := by
  have hdiv := Nat.mod_add_div (nowMs - phase) intervalMs
  have hlt := Nat.mod_lt (nowMs - phase) hpos
  have hsum : nowMs + (intervalMs - (nowMs - phase) % intervalMs) =
      phase + intervalMs * ((nowMs - phase) / intervalMs + 1) := by
    rw [mul_add, mul_one]
    omega
  rw [hsum]
  exact Nat.modEq_iff_dvd' (Nat.le_add_right _ _) |>.mpr ⟨_, by rw [Nat.add_sub_cancel_left]⟩ |>.symm

theorem toNat_addTime {nowMs delay : UInt64} (h : nowMs.toNat + delay.toNat < 2 ^ 64) :
    (addTime nowMs delay).toNat = nowMs.toNat + delay.toNat := by
  have hroom : delay ≤ 0xFFFFFFFFFFFFFFFF - nowMs := by
    rw [UInt64.le_iff_toNat_le, UInt64.toNat_sub_of_le _ _ (by
      rw [UInt64.le_iff_toNat_le]
      exact Nat.le_of_lt_succ nowMs.toNat_lt)]
    have hmax : (0xFFFFFFFFFFFFFFFF : UInt64).toNat = 2 ^ 64 - 1 := rfl
    omega
  rw [addTime, min_eq_left hroom, toNat_add_of_lt h]

namespace Slot

/-- What holds of the times of a registered agent at some time of the clock. -/
structure Good (nowMs : UInt64) (intervalMs : UInt32) (slot : Slot) : Prop where
  last_lt : slot.lastMs < slot.nextMs
  next_le : slot.nextMs ≤ slot.periodicNextMs
  last_le : slot.lastMs ≤ nowMs
  reach : slot.periodicNextMs.toNat ≤ nowMs.toNat + intervalMs.toNat
  early : slot.nextMs = slot.periodicNextMs ∨ slot.nextMs ≤ nowMs

variable {slot : Slot} {clock nowMs : UInt64} {intervalMs : UInt32}

theorem Good.later (h : slot.Good clock intervalMs) (hclock : clock ≤ nowMs) :
    slot.Good nowMs intervalMs where
  last_lt := h.last_lt
  next_le := h.next_le
  last_le := h.last_le.trans hclock
  reach := by
    have := UInt64.le_iff_toNat_le.mp hclock
    have := h.reach
    omega
  early := h.early.imp_right fun he => he.trans hclock

/-! ### Passes -/

/-- A pass that is due: what it is told, and the times it leaves. -/
structure Advanced (slot : Slot) (intervalMs : UInt32) (nowMs : UInt64) (elapsedMs : UInt32)
    (lateMs : UInt64) (next : Slot) : Prop where
  elapsed : elapsedMs.toNat = min (nowMs.toNat - slot.lastMs.toNat) (2 ^ 32 - 1)
  late : lateMs.toNat = nowMs.toNat - slot.nextMs.toNat
  last : next.lastMs = nowMs
  periodic : next.nextMs = next.periodicNextMs
  phase : IsNextPeriod slot.periodicNextMs.toNat intervalMs.toNat nowMs.toNat
    next.periodicNextMs.toNat
  good : next.Good nowMs intervalMs

theorem toNat_min_toUInt32 (a : UInt64) :
    (min a 0xFFFFFFFF).toUInt32.toNat = min a.toNat (2 ^ 32 - 1) := by
  rw [UInt64.toNat_toUInt32, UInt64.toNat_min]
  have hmax : (0xFFFFFFFF : UInt64).toNat = 2 ^ 32 - 1 := rfl
  rw [hmax, Nat.mod_eq_of_lt (by omega)]

/-- None of the subtractions of a due pass underflows. -/
theorem Good.advance (h : slot.Good clock intervalMs) (hclock : clock ≤ nowMs)
    (hdue : slot.nextMs ≤ nowMs) (hpos : 0 < intervalMs)
    (hbelow : nowMs.toNat + intervalMs.toNat < 2 ^ 64) :
    ∃ elapsedMs lateMs next, slot.advance intervalMs nowMs = some (elapsedMs, lateMs, next) ∧
      slot.Advanced intervalMs nowMs elapsedMs lateMs next := by
  have hlast : slot.lastMs ≤ nowMs := h.last_le.trans hclock
  have hposN : 0 < intervalMs.toNat := UInt32.lt_iff_toNat_lt.mp hpos
  have helapsed : (min (nowMs - slot.lastMs) 0xFFFFFFFF).toUInt32.toNat =
      min (nowMs.toNat - slot.lastMs.toNat) (2 ^ 32 - 1) := by
    rw [toNat_min_toUInt32, UInt64.toNat_sub_of_le _ _ hlast]
  have hlate : (nowMs - slot.nextMs).toNat = nowMs.toNat - slot.nextMs.toNat :=
    UInt64.toNat_sub_of_le _ _ hdue
  -- the next times are those of the next period in either branch
  have hnext (p : UInt64) (hp : IsNextPeriod slot.periodicNextMs.toNat intervalMs.toNat
      nowMs.toNat p.toNat) (hreach : p.toNat ≤ nowMs.toNat + intervalMs.toNat) :
      slot.Advanced intervalMs nowMs (min (nowMs - slot.lastMs) 0xFFFFFFFF).toUInt32
        (nowMs - slot.nextMs) ⟨nowMs, p, p⟩ :=
    ⟨helapsed, hlate, rfl, rfl, hp,
      ⟨UInt64.lt_iff_toNat_lt.mpr hp.after, le_rfl, le_rfl, hreach, .inl rfl⟩⟩
  unfold Slot.advance
  rw [checkedSub_of_le hlast, checkedSub_of_le hdue]
  by_cases hperiod : nowMs ≥ slot.periodicNextMs
  · have hsub := UInt64.toNat_sub_of_le _ _ hperiod
    have hmod : ((nowMs - slot.periodicNextMs) % intervalMs.toUInt64).toNat =
        (nowMs.toNat - slot.periodicNextMs.toNat) % intervalMs.toNat := by
      rw [UInt64.toNat_mod, UInt32.toNat_toUInt64, hsub]
    have hlt := Nat.mod_lt (nowMs.toNat - slot.periodicNextMs.toNat) hposN
    have hrest : (nowMs - slot.periodicNextMs) % intervalMs.toUInt64 ≤ intervalMs.toUInt64 := by
      rw [UInt64.le_iff_toNat_le, hmod, UInt32.toNat_toUInt64]
      exact hlt.le
    have hdelay := UInt64.toNat_sub_of_le _ _ hrest
    rw [hmod, UInt32.toNat_toUInt64] at hdelay
    have htime : (addTime nowMs (intervalMs.toUInt64 -
        (nowMs - slot.periodicNextMs) % intervalMs.toUInt64)).toNat = _ := toNat_addTime (by omega)
    rw [hdelay] at htime
    refine ⟨_, _, _, ?_, hnext (addTime nowMs (intervalMs.toUInt64 -
      (nowMs - slot.periodicNextMs) % intervalMs.toUInt64)) ?_ ?_⟩
    · simp only [Option.bind_eq_bind, Option.bind_some, if_pos hperiod, checkedSub_of_le hperiod,
        checkedSub_of_le hrest]
    · rw [htime]
      refine isNextPeriod_of_le (by omega) ?_ (by omega)
      exact modEq_next hposN (UInt64.le_iff_toNat_le.mp hperiod)
    · omega
  · have hbefore := UInt64.lt_iff_toNat_lt.mp (lt_of_not_ge hperiod)
    have hreach : slot.periodicNextMs.toNat ≤ nowMs.toNat + intervalMs.toNat := (h.later hclock).reach
    refine ⟨_, _, _, ?_, hnext slot.periodicNextMs ?_ hreach⟩
    · simp only [Option.bind_eq_bind, Option.bind_some, if_neg hperiod]
    · exact isNextPeriod_of_le hbefore rfl hreach

end Slot

end AIWorld.Scheduler
