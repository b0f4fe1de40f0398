import AIWorld.Agent.LivingAdviceBudget

/-! What the parts of a call do to the queue: a sweep only removes, an offer only permutes
and leaves the offered agent queued, and a second sweep at the same time does nothing. -/

namespace AIWorld.Agent

open Lib

theorem Waiting.unseen_iff (w : Waiting) (now : UInt64) :
    w.unseen now = true ↔ now < w.seenAt ∨ w.seenAt.toNat + 30000 < now.toNat := by
  simp only [Waiting.unseen, gt_iff_lt, Bool.or_eq_true, decide_eq_true_eq]
  refine or_congr_right' fun h => ?_
  rw [UInt64.not_lt] at h
  have hsub := UInt64.toNat_sub_of_le _ _ h
  have hle := UInt64.le_iff_toNat_le.mp h
  have hnum : (30000 : UInt64).toNat = 30000 := rfl
  rw [UInt64.lt_iff_toNat_lt, hsub]
  omega

section Restate
variable {id now : UInt64} {returning dispatchable : Bool} {ws : List Waiting}

@[simp] theorem map_id_restate (ws : List Waiting) :
    (restate id now returning dispatchable ws).map Waiting.id = ws.map Waiting.id := by
  induction ws with
  | nil => rfl
  | cons w ws ih =>
    rw [restate]
    split_ifs
    · rfl
    · rw [List.map_cons, ih, List.map_cons]

/-- Only entries of the agent are updated. -/
theorem mem_restate_of_ne {w : Waiting} (hw : w ∈ ws) (hne : w.id ≠ id) :
    w ∈ restate id now returning dispatchable ws := by
  induction ws with
  | nil => contradiction
  | cons v ws ih =>
    rw [restate]
    rcases List.mem_cons.mp hw with rfl | hw
    · rw [if_neg (by simpa using hne)]
      exact List.mem_cons_self
    · split_ifs
      · exact List.mem_cons_of_mem _ hw
      · exact List.mem_cons_of_mem _ (ih hw)

end Restate

namespace LivingAdviceBudget

variable {s t u : LivingAdviceBudget} {id now : UInt64} {w : Waiting}

theorem isOpen_iff : s.isOpen now = true ↔
    ∀ a, s.admittedAt = some a → a.toNat + 2000 ≤ now.toNat := by
  unfold isOpen
  cases s.admittedAt with
  | none => simp
  | some a =>
    simp only [ge_iff_le, Bool.and_eq_true, decide_eq_true_eq, Option.some.injEq, forall_eq']
    have hnum : (2000 : UInt64).toNat = 2000 := rfl
    rw [UInt64.le_iff_toNat_le, UInt64.le_iff_toNat_le]
    constructor
    · intro ⟨hle, hsub⟩
      rw [UInt64.toNat_sub_of_le _ _ (UInt64.le_iff_toNat_le.mpr hle)] at hsub
      omega
    · intro h
      have hle : a.toNat ≤ now.toNat := by omega
      rw [UInt64.toNat_sub_of_le _ _ (UInt64.le_iff_toNat_le.mpr hle)]
      omega

/-! ### Sweeps -/

theorem sweepDue_expire (s : LivingAdviceBudget) (now : UInt64) : (s.expire now).sweepDue now = false := by
  unfold expire
  split_ifs with h
  · simp [sweepDue]
  · exact Bool.eq_false_iff.mpr h

theorem expire_eq_self (h : s.sweepDue now = false) : s.expire now = s := by
  rw [expire, if_neg (Bool.eq_false_iff.mp h)]

theorem waiting_expire_sublist (s : LivingAdviceBudget) (now : UInt64) :
    (s.expire now).waiting.Sublist s.waiting := by
  unfold expire
  split_ifs
  · exact List.filter_sublist
  · exact List.Sublist.refl _

/-- A sweep removes an entry only when it finds it unseen. -/
theorem mem_expire (hw : w ∈ s.waiting) :
    w ∈ (s.expire now).waiting ∨ s.sweepDue now = true ∧ w.unseen now = true := by
  unfold expire
  split_ifs with hdue
  · by_cases hu : w.unseen now = true
    · exact .inr ⟨hdue, hu⟩
    · exact .inl (List.mem_filter.mpr ⟨hw, by simpa using hu⟩)
  · exact .inl hw

@[simp] theorem admittedAt_expire (s : LivingAdviceBudget) (now : UInt64) :
    (s.expire now).admittedAt = s.admittedAt := by
  unfold expire
  split_ifs <;> rfl

@[simp] theorem offeredId_expire (s : LivingAdviceBudget) (now : UInt64) :
    (s.expire now).offeredId = s.offeredId := by
  unfold expire
  split_ifs <;> rfl

/-! ### Turns -/

section
variable (s : LivingAdviceBudget)

@[simp] theorem waiting_passOffer : s.passOffer.waiting = s.waiting := by
  unfold passOffer
  cases s.offeredId <;> rfl

@[simp] theorem admittedAt_passOffer : s.passOffer.admittedAt = s.admittedAt := by
  unfold passOffer
  cases s.offeredId <;> rfl

@[simp] theorem sweptAt_passOffer : s.passOffer.sweptAt = s.sweptAt := by
  unfold passOffer
  cases s.offeredId <;> rfl

@[simp] theorem offeredId_passOffer : s.passOffer.offeredId = none := by
  unfold passOffer
  cases h : s.offeredId with
  | none => exact h
  | some id => rfl

@[simp] theorem waiting_offerNext : (s.offerNext now).waiting = s.waiting := by
  unfold offerNext
  cases s.next <;> rfl

@[simp] theorem admittedAt_offerNext : (s.offerNext now).admittedAt = s.admittedAt := by
  unfold offerNext
  cases s.next <;> rfl

@[simp] theorem sweptAt_offerNext : (s.offerNext now).sweptAt = s.sweptAt := by
  unfold offerNext
  cases s.next <;> rfl

end

theorem next_mem (h : s.next = some w) : w ∈ s.waiting := by
  simp only [next] at h
  split_ifs at h
  · exact List.mem_of_find?_eq_some h
  · exact List.mem_of_find?_eq_some h

/-! ### Offers -/

/-- What becomes of the standing offer before a new one is made. -/
inductive Settles (s : LivingAdviceBudget) (now : UInt64) : LivingAdviceBudget → Prop
  | free (hid : s.offeredId = none) : Settles s now s
  | early {id : UInt64} (hid : s.offeredId = some id) (hnow : now < s.offeredAt) :
      Settles s now { s with offeredId := none }
  | lapsed {id : UInt64} (hid : s.offeredId = some id)
      (hfound : ∀ w, s.waiting.find? (fun w => w.id == id) = some w → w.dispatchable = false) :
      Settles s now s.passOffer
  | missed {id : UInt64} {w : Waiting} (hid : s.offeredId = some id)
      (hfound : s.waiting.find? (fun w => w.id == id) = some w) :
      Settles s now
        { s with waiting := s.waiting.eraseP (fun v : Waiting => v.id == id) ++ [w] }.passOffer

/-- An offer closes, lets the standing one be, or settles it and makes the next one. -/
theorem offer_cases (s : LivingAdviceBudget) (now : UInt64) :
    (s.expire now).isOpen now = false ∧ s.offer now = { s.expire now with offeredId := none } ∨
    (s.expire now).isOpen now = true ∧
      ((∃ id w, s.offeredId = some id ∧
          (s.expire now).waiting.find? (fun w => w.id == id) = some w ∧ w.dispatchable = true ∧
          s.offer now = s.expire now) ∨
        ∃ u, Settles (s.expire now) now u ∧ s.offer now = u.offerNext now) := by
  simp only [offer]
  cases hopen : (s.expire now).isOpen now with
  | false => exact .inl ⟨rfl, by rw [Bool.not_false, if_pos rfl]⟩
  | true =>
    refine .inr ⟨rfl, ?_⟩
    rw [Bool.not_true, if_neg Bool.false_ne_true]
    cases hid : (s.expire now).offeredId with
    | none => exact .inr ⟨_, .free hid, rfl⟩
    | some id =>
      simp only
      by_cases hearly : now < (s.expire now).offeredAt
      · rw [if_pos hearly]
        exact .inr ⟨_, .early hid hearly, rfl⟩
      · rw [if_neg hearly]
        cases hfound : (s.expire now).waiting.find? (fun w => w.id == id) with
        | none =>
          exact .inr ⟨_, .lapsed hid fun w hw => by rw [hfound] at hw; contradiction, rfl⟩
        | some w =>
          simp only
          split_ifs with hdisp
          · refine .inr ⟨_, .lapsed hid fun v hv => ?_, rfl⟩
            rw [← Option.some.inj (hfound.symm.trans hv)]
            simpa using hdisp
          · exact .inl ⟨id, w, s.offeredId_expire now ▸ hid, hfound, by simpa using hdisp, rfl⟩
          · exact .inr ⟨_, .missed hid hfound, by rw [hid]⟩

theorem Settles.waiting_perm (h : Settles s now u) : u.waiting.Perm s.waiting := by
  cases h with
  | free => exact List.Perm.refl _
  | early => exact List.Perm.refl _
  | lapsed => rw [waiting_passOffer]
  | @missed id w _ hfound =>
    rw [waiting_passOffer]
    obtain ⟨hw, as, bs, heq, has⟩ := List.find?_eq_some_iff_append.mp hfound
    have herase : (as ++ w :: bs).eraseP (fun v : Waiting => v.id == id) = as ++ bs := by
      rw [List.eraseP_append_right _ (by simpa using has)]
      exact congrArg (as ++ ·) (List.eraseP_cons_of_pos hw)
    simp only [heq, herase, List.append_assoc]
    exact List.Perm.append_left as List.perm_append_comm

theorem Settles.admittedAt (h : Settles s now u) : u.admittedAt = s.admittedAt := by
  cases h <;> simp

theorem Settles.sweptAt (h : Settles s now u) : u.sweptAt = s.sweptAt := by
  cases h <;> simp

theorem Settles.offeredId (h : Settles s now u) : u.offeredId = none := by
  cases h with
  | free hid => exact hid
  | early => rfl
  | lapsed => exact offeredId_passOffer _
  | missed => exact offeredId_passOffer _

section
variable (s : LivingAdviceBudget) (now : UInt64)

theorem waiting_offer_perm : (s.offer now).waiting.Perm (s.expire now).waiting := by
  obtain ⟨-, h⟩ | ⟨-, ⟨-, -, -, -, -, h⟩ | ⟨u, hu, h⟩⟩ := s.offer_cases now
  · rw [h]
  · rw [h]
  · rw [h, waiting_offerNext]
    exact hu.waiting_perm

theorem ids_offer_perm : (s.offer now).ids.Perm (s.expire now).ids :=
  (s.waiting_offer_perm now).map Waiting.id

@[simp] theorem admittedAt_offer : (s.offer now).admittedAt = s.admittedAt := by
  obtain ⟨-, h⟩ | ⟨-, ⟨-, -, -, -, -, h⟩ | ⟨u, hu, h⟩⟩ := s.offer_cases now
  · rw [h, admittedAt_expire]
  · rw [h, admittedAt_expire]
  · rw [h, admittedAt_offerNext, hu.admittedAt, admittedAt_expire]

theorem sweptAt_offer : (s.offer now).sweptAt = (s.expire now).sweptAt := by
  obtain ⟨-, h⟩ | ⟨-, ⟨-, -, -, -, -, h⟩ | ⟨u, hu, h⟩⟩ := s.offer_cases now
  · rw [h]
  · rw [h]
  · rw [h, sweptAt_offerNext, hu.sweptAt]

/-- After an offer the offered agent is queued, and the gate is open. -/
theorem offer_offered (h : (s.offer now).offeredId = some id) :
    id ∈ (s.offer now).ids ∧ s.isOpen now = true := by
  have hisOpen : (s.expire now).isOpen now = s.isOpen now := by
    rw [isOpen, admittedAt_expire, isOpen]
  obtain ⟨-, heq⟩ | ⟨hopen, ⟨id', w, hid, hfound, -, heq⟩ | ⟨u, hu, heq⟩⟩ := s.offer_cases now
  · rw [heq] at h
    contradiction
  · rw [heq, offeredId_expire, hid] at h
    rw [heq, ← Option.some.inj h]
    have hw := List.find?_some hfound
    rw [beq_iff_eq] at hw
    exact ⟨hw ▸ List.mem_map_of_mem (List.mem_of_find?_eq_some hfound), hisOpen ▸ hopen⟩
  · refine ⟨?_, hisOpen ▸ hopen⟩
    rw [heq, offerNext] at h
    rw [heq, ids, waiting_offerNext]
    cases hnext : u.next with
    | none =>
      rw [hnext] at h
      exact absurd (h.symm.trans hu.offeredId) (Option.some_ne_none id)
    | some w =>
      rw [hnext] at h
      rw [← Option.some.inj h]
      exact List.mem_map_of_mem (next_mem hnext)

theorem sweepDue_offer : (s.offer now).sweepDue now = false := by
  rw [sweepDue, sweptAt_offer, ← sweepDue, sweepDue_expire]

end

end LivingAdviceBudget

end AIWorld.Agent
