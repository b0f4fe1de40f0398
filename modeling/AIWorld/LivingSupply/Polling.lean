import AIWorld.LivingSupply.Conservation

/-! Expiry and polling. Settling a ledger at two times, in either order, leaves
what settling it once at the later time leaves, so it does not matter how often
or in which order a ledger is polled. -/

namespace AIWorld.LivingSupply

open Lib Ledger

/-! ### Fields -/

theorem growth_of_lt {f : Field} {t : ℕ} (h : f.lastGrowthAtMs < t) :
    f.growth t = min ((t - f.lastGrowthAtMs) / f.regrowMs) (f.capacity - f.remaining) :=
  if_neg (Nat.not_le.mpr h)

theorem growth_mono (f : Field) {t u : ℕ} (h : t ≤ u) : f.growth t ≤ f.growth u := by
  unfold Field.growth
  split_ifs with ht hu
  · exact le_rfl
  · exact Nat.zero_le _
  · omega
  · exact min_le_min_right _ (Nat.div_le_div_right (Nat.sub_le_sub_right h _))

/-- The growth anchor of a field that has not filled up by `t`. -/
theorem lastGrowthAtMs_regrown {f : Field} {t : ℕ} (h : f.lastGrowthAtMs < t)
    (hfull : f.remaining + f.growth t ≠ f.capacity) :
    (f.regrown t).lastGrowthAtMs = f.lastGrowthAtMs + f.growth t * f.regrowMs := by
  simp only [Field.regrown, if_neg (Nat.not_le.mpr h), if_neg hfull]

theorem lastGrowthAtMs_regrown_full {f : Field} {t : ℕ} (h : f.lastGrowthAtMs < t)
    (hfull : f.remaining + f.growth t = f.capacity) : (f.regrown t).lastGrowthAtMs = t := by
  simp only [Field.regrown, if_neg (Nat.not_le.mpr h), if_pos hfull]

/-- Growth is additive: the interval's remainder survives the first poll. -/
theorem growth_add {f : Field} (hle : f.remaining ≤ f.capacity) (t u : ℕ) :
    f.growth t + (f.regrown t).growth u = f.growth (max t u) := by
  by_cases hback : t ≤ f.lastGrowthAtMs
  · obtain ⟨hg, hr⟩ := regrown_eq_self hback
    rw [hg, hr, Nat.zero_add]
    by_cases hu : u ≤ t
    · rw [max_eq_left hu, hg, (regrown_eq_self (hu.trans hback)).1]
    · rw [max_eq_right (Nat.le_of_not_le hu)]
  rw [Nat.not_le] at hback
  have hlt : f.lastGrowthAtMs < max t u := lt_of_lt_of_le hback (le_max_left _ _)
  have hcap := growth_le f t
  have hmono := growth_mono f (le_max_left t u)
  by_cases hfull : f.remaining + f.growth t = f.capacity
  · have hrest := growth_le (f.regrown t) u
    have hmax := growth_le f (max t u)
    rw [regrown_remaining, regrown_capacity] at hrest
    omega
  -- not full: the anchor moved by whole intervals, and the rest of `t` is still there
  have hwhole : f.growth t = (t - f.lastGrowthAtMs) / f.regrowMs := by
    have := growth_of_lt hback
    omega
  have hanchor := lastGrowthAtMs_regrown hback hfull
  have hpast : f.growth t * f.regrowMs ≤ t - f.lastGrowthAtMs := by
    rw [hwhole]
    exact Nat.div_mul_le_self _ _
  by_cases hu : u ≤ f.lastGrowthAtMs + f.growth t * f.regrowMs
  · rw [← hanchor] at hu
    rw [(regrown_eq_self hu).1, max_eq_left (by omega), Nat.add_zero]
  · rw [Nat.not_le] at hu
    have hdiv : (u - (f.regrown t).lastGrowthAtMs) / f.regrowMs =
        (u - f.lastGrowthAtMs) / f.regrowMs - f.growth t := by
      rw [hanchor, ← Nat.sub_sub, Nat.mul_comm, Nat.sub_mul_div]
    rw [← hanchor] at hu
    have hrest := growth_of_lt hu
    have hmax := growth_of_lt hlt
    rw [regrown_regrowMs, hdiv, regrown_remaining, regrown_capacity] at hrest
    by_cases hut : u ≤ t
    · have := Nat.div_le_div_right (c := f.regrowMs) (Nat.sub_le_sub_right hut f.lastGrowthAtMs)
      rw [max_eq_left hut] at hmax ⊢
      omega
    · have := Nat.div_le_div_right (c := f.regrowMs)
        (Nat.sub_le_sub_right (Nat.le_of_not_le hut) f.lastGrowthAtMs)
      rw [max_eq_right (Nat.le_of_not_le hut)] at hmax ⊢
      omega

/-- A poll that is not later than the last one changes nothing. -/
theorem regrown_of_le {f : Field} (hle : f.remaining ≤ f.capacity) {t u : ℕ} (h : u ≤ t) :
    (f.regrown t).regrown u = f.regrown t := by
  have hadd := growth_add hle t u
  rw [max_eq_left h] at hadd
  have hzero : (f.regrown t).growth u = 0 := by omega
  have hlast : ((f.regrown t).regrown u).lastGrowthAtMs = (f.regrown t).lastGrowthAtMs := by
    by_cases hu : u ≤ (f.regrown t).lastGrowthAtMs
    · rw [(regrown_eq_self hu).2]
    rw [Nat.not_le] at hu
    by_cases hback : t ≤ f.lastGrowthAtMs
    · rw [(regrown_eq_self hback).2] at hu
      omega
    rw [Nat.not_le] at hback
    by_cases hfull : f.remaining + f.growth t = f.capacity
    · rw [lastGrowthAtMs_regrown_full hback hfull] at hu
      omega
    · rw [lastGrowthAtMs_regrown hu (by rw [hzero]; exact hfull), hzero, Nat.zero_mul, Nat.add_zero]
  refine Field.ext rfl rfl ?_ rfl rfl hlast rfl ?_
  · rw [regrown_remaining, hzero, Nat.add_zero]
  · rw [regrown_regrownTotal, hzero, Nat.add_zero]

theorem regrown_regrown {f : Field} (hle : f.remaining ≤ f.capacity) (t u : ℕ) :
    (f.regrown t).regrown u = f.regrown (max t u) := by
  by_cases hut : u ≤ t
  · rw [max_eq_left hut, regrown_of_le hle hut]
  rw [Nat.not_le] at hut
  have hadd := growth_add hle t u
  rw [max_eq_right hut.le] at hadd ⊢
  by_cases hback : t ≤ f.lastGrowthAtMs
  · rw [(regrown_eq_self hback).2]
  rw [Nat.not_le] at hback
  have hlt : f.lastGrowthAtMs < u := hback.trans hut
  have hcap := growth_le f u
  have hanchor : (f.regrown t).lastGrowthAtMs ≤ t := by
    by_cases hfull : f.remaining + f.growth t = f.capacity
    · rw [lastGrowthAtMs_regrown_full hback hfull]
    · have := growth_of_lt hback
      have := growth_le f t
      have hpast := Nat.div_mul_le_self (t - f.lastGrowthAtMs) f.regrowMs
      rw [lastGrowthAtMs_regrown hback hfull,
        show f.growth t = (t - f.lastGrowthAtMs) / f.regrowMs by omega]
      omega
  have hlate : (f.regrown t).lastGrowthAtMs < u := by omega
  have hlast : ((f.regrown t).regrown u).lastGrowthAtMs = (f.regrown u).lastGrowthAtMs := by
    have hsum : (f.regrown t).remaining + (f.regrown t).growth u = f.remaining + f.growth u := by
      rw [regrown_remaining]
      omega
    by_cases hfull : f.remaining + f.growth u = f.capacity
    · rw [lastGrowthAtMs_regrown_full hlt hfull, lastGrowthAtMs_regrown_full hlate (hsum.trans hfull)]
    · have hfull' : f.remaining + f.growth t ≠ f.capacity := by
        intro e
        have := growth_mono f hut.le
        omega
      rw [lastGrowthAtMs_regrown hlt hfull, lastGrowthAtMs_regrown hlate (fun e => hfull (hsum ▸ e)),
        lastGrowthAtMs_regrown hback hfull', ← hadd, Nat.add_mul, Nat.add_assoc]
      rfl
  refine Field.ext rfl rfl ?_ rfl rfl hlast rfl ?_
  · simp only [regrown_remaining]
    omega
  · simp only [regrown_regrownTotal]
    omega

/-! ### The whole ledger -/

variable {l : Ledger}

theorem grow_grow (h : l.Inv) (t u : ℕ) : (l.grow t).grow u = l.grow (max t u) := by
  have hm : ((l.fields.map fun _ f => f.regrown t).map fun _ f => f.regrown u) =
      l.fields.map fun _ f => f.regrown (max t u) := by
    rw [OrdMap.map_map]
    exact OrdMap.map_congr fun id f hf => regrown_regrown (h.field id f hf).remaining_le t u
  have ht : OrdMap.total (fun _ f => f.growth t) l.fields +
      OrdMap.total (fun _ f => f.growth u) (l.fields.map fun _ f => f.regrown t) =
      OrdMap.total (fun _ f => f.growth (max t u)) l.fields := by
    rw [OrdMap.total_map, ← OrdMap.total_add]
    exact OrdMap.total_congr fun id f hf => growth_add (h.field id f hf).remaining_le t u
  simp only [grow, hm, Nat.add_assoc, ht]

/-- Dropping claims and closing carcasses commute when the choice of carcasses
does not look at the reserved portions. -/
theorem drop_spoil (q : Claim → Bool) {q' : Carcass → Bool}
    (hq' : ∀ c n, q' { c with reserved := n } = q' c) :
    (l.spoil q').drop q = (l.drop q).spoil q' := by
  simp only [drop, spoil, OrdMap.map_map, OrdMap.total_map]
  have hm : ∀ (c : Carcass) (n : ℕ), (⟨c.key, (c.spoil q').remaining, n, (c.spoil q').expiresAtMs,
      (c.spoil q').active⟩ : Carcass) = { c with reserved := n }.spoil q' := by
    intro c n
    simp only [Carcass.spoil, hq']
    cases hc : c.active && q' c <;> simp
  have hw : ∀ c : Carcass, ∀ n, { c with reserved := n }.waste q' = c.waste q' := by
    intro c n
    unfold Carcass.waste
    rw [hq']
  have hk : ∀ c : Carcass, (c.spoil q').key = c.key := by
    intro c
    unfold Carcass.spoil
    cases c.active && q' c <;> rfl
  simp only [hk, hm, hw]

theorem settled_settled (h : l.Inv) (t u : ℕ) :
    (l.settled t).settled u = l.settled (max t u) := by
  have hmax (x : ℕ) : (decide (x ≤ t) || decide (x ≤ u)) = decide (x ≤ max t u) := by
    rw [← Bool.decide_or, decide_eq_decide, le_max_iff]
  calc (l.settled t).settled u
      = (((((l.grow t).grow u).drop fun c => c.expiresAtMs ≤ t).spoil fun c =>
          c.expiresAtMs ≤ t).drop fun c => c.expiresAtMs ≤ u).spoil fun c =>
          c.expiresAtMs ≤ u := rfl
    _ = l.settled (max t u) := by
        rw [drop_spoil _ (fun _ _ => rfl), spoil_spoil, drop_drop, grow_grow h]
        simp only [hmax]
        rfl

/-! ### Calls -/

/-- Polls at a list of times. -/
def Ledger.polled (l : Ledger) (ts : List ℕ) : Option Ledger := ts.foldlM Ledger.expire l

theorem polled_eq (h : l.Inv) (t : ℕ) (ts : List ℕ) :
    l.polled (t :: ts) = some (l.settled (ts.foldl max t)) := by
  induction ts generalizing t with
  | nil => simp [polled, expire_eq h]
  | cons u ts ih =>
    rw [List.foldl_cons, ← ih]
    simp only [polled, List.foldlM_cons, expire_eq h, Option.bind_eq_bind, Option.bind_some,
      expire_eq (h.settled t), settled_settled h]

theorem step_after_poll (h : l.Inv) {op : Op} {t nowMs : ℕ} (hop : op.polls? = some nowMs)
    (ht : t ≤ nowMs) : step (l.settled t) op = step l op := by
  have hpoll : (l.settled t).expire nowMs = l.expire nowMs := by
    rw [expire_eq (h.settled t), expire_eq h, settled_settled h, max_eq_right ht]
  cases op <;> simp only [Op.polls?, reduceCtorEq, Option.some.injEq] at hop
  all_goals
    subst hop
    simp only [step, reserve, commit, harvestField, hpoll]

/-- Expiry does not depend on the polling pattern. -/
theorem expiry_polling (h : Reachable l) :
    (∀ t u, ∃ m, l.expire (max t u) = some m ∧ (l.expire t).bind (·.expire u) = some m) ∧
    (∀ t, (l.expire t).bind (·.expire t) = l.expire t) ∧
    (∀ t ts, ∃ m, l.expire (ts.foldl max t) = some m ∧ l.polled (t :: ts) = some m) ∧
    (∀ op t nowMs, op.polls? = some nowMs → t ≤ nowMs →
      ∃ r, (l.expire t).bind (step · op) = some r ∧ step l op = some r) := by
  have hi := h.inv
  have htwice (t u : ℕ) : (l.expire t).bind (·.expire u) = some (l.settled (max t u)) := by
    rw [expire_eq hi, Option.bind_some, expire_eq (hi.settled t), settled_settled hi]
  refine ⟨fun t u => ⟨_, expire_eq hi _, htwice t u⟩, fun t => ?_,
    fun t ts => ⟨_, expire_eq hi _, polled_eq hi t ts⟩, fun op t nowMs hop ht => ?_⟩
  · rw [htwice, max_self, expire_eq hi]
  · obtain ⟨o, l', hstep, -⟩ := step_effect hi op
    exact ⟨(o, l'), by rw [expire_eq hi, Option.bind_some, step_after_poll hi hop ht, hstep], hstep⟩

theorem expiry_polling_smallWorld : ∃ l, Reachable l ∧ l.nextClaimSerial = 1 ∧
    (l.expire 50).bind (·.expire 20) = l.expire 50 := by
  obtain ⟨tr, l, hrun, hserial⟩ := smallWorld_run
  obtain ⟨m, hm, htwice⟩ := (expiry_polling ⟨tr, hrun⟩).1 50 20
  exact ⟨l, ⟨tr, hrun⟩, hserial, htwice.trans hm.symm⟩

end AIWorld.LivingSupply
