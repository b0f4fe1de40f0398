import AIWorld.Agent.AdviceSafety

/-! The order of the classes. Three turns of returning agents in a row are followed by one
of the others, as long as one of them is queued and can be served. An offer keeps the class
that the agent had when it was made, so only an agent that restates itself as returning
between its offer and its acquisition can make a fourth turn count as returning. -/

namespace AIWorld.Agent

open Lib

namespace LivingAdviceBudget

variable {s s' : LivingAdviceBudget} {id now : UInt64} {v w : Waiting} {i : AdviceOp} {o : Bool}

/-! ### Whose turn it is -/

theorem next_dispatchable (h : s.next = some v) : v.dispatchable = true := by
  simp only [next] at h
  split_ifs at h
  · have := List.find?_some h
    simp only [Bool.and_eq_true] at this
    exact this.2
  · have := List.find?_some h
    simp only [Bool.and_eq_true] at this
    exact this.2

/-- A returning agent is served because the others have not been passed over three times, or
because none of them can be served. -/
theorem next_returning (h : s.next = some v) (hv : v.returning = true) :
    s.waiting.find? (fun w => w.returning && w.dispatchable) = some v ∧
      (s.urgentRun < 3 ∨ s.waiting.find? (fun w => !w.returning && w.dispatchable) = none) := by
  simp only [next] at h
  split_ifs at h with hcond
  · simp only [Bool.and_eq_true, Bool.or_eq_true, decide_eq_true_eq, Option.isNone_iff_eq_none] at hcond
    exact ⟨h, hcond.2⟩
  · have := List.find?_some h
    simp [hv] at this

/-- One of the others is served because no returning agent can be, or because three of them
were served in a row. -/
theorem next_normal (h : s.next = some v) (hv : v.returning = false) :
    s.waiting.find? (fun w => !w.returning && w.dispatchable) = some v ∧
      (s.waiting.find? (fun w => w.returning && w.dispatchable) = none ∨ 3 ≤ s.urgentRun) := by
  simp only [next] at h
  split_ifs at h with hcond
  · have := List.find?_some h
    simp [hv] at this
  · refine ⟨h, ?_⟩
    simp only [Bool.and_eq_true, Bool.or_eq_true, decide_eq_true_eq, not_and_or, not_or, not_lt,
      Option.not_isSome_iff_eq_none] at hcond
    exact hcond.imp_right fun h => h.1

theorem find?_ne_none {p : Waiting → Bool} {ws : List Waiting} (hw : w ∈ ws) (hp : p w = true) :
    ws.find? p ≠ none := by
  rw [Ne, List.find?_eq_none]
  exact fun h => h w hw hp

theorem exists_next (hw : w ∈ s.waiting) (hdisp : w.dispatchable = true) : ∃ v, s.next = some v := by
  simp only [next]
  split_ifs with hcond
  · rw [Bool.and_eq_true] at hcond
    exact Option.isSome_iff_exists.mp hcond.1
  · rw [← Option.ne_none_iff_exists']
    intro hnone
    have hnot : w.returning = true := by
      by_contra hr
      exact find?_ne_none hw (by simp [hdisp, hr]) hnone
    refine hcond ?_
    rw [hnone, Bool.and_eq_true]
    exact ⟨Option.isSome_iff_ne_none.mpr (find?_ne_none hw (by simp [hdisp, hnot])), by simp⟩

/-! ### Parts of a call -/

/-- The queues in which a call makes its offers, up to their order. -/
def offerQueues (s : LivingAdviceBudget) : AdviceOp → List (List Waiting)
  | .cancel _ => []
  | .refresh id now eligible returning dispatchable =>
    if eligible then [restate id now returning dispatchable (s.expire now).waiting] else []
  | .ready _ now => [(s.expire now).waiting]
  | .acquire id now returning =>
    [restate id now returning true (s.expire now).waiting, (s.request id now returning).waiting]

/-- The state after a turn that ended by an acquisition. -/
def acquired (s : LivingAdviceBudget) (id : UInt64) (returning : Bool) : LivingAdviceBudget :=
  { (s.completeTurn returning).record ⟨id, s.offeredReturning, returning, true⟩ with offeredId := none }

/-- A property that the parts of a call preserve, where an offer is only made in a queue as
it should be. -/
structure Preserved (P : LivingAdviceBudget → Prop) (Q : List Waiting → Prop) : Prop where
  same : ∀ (s : LivingAdviceBudget) waiting sweptAt admittedAt, P s →
    P { s with waiting, sweptAt, admittedAt }
  drop : ∀ s, P s → P { s with offeredId := none }
  pass : ∀ s, P s → P s.passOffer
  next : ∀ s now, P s → Q s.waiting → P (s.offerNext now)
  admits : ∀ s id returning, P s → s.offeredId = some id → P (s.acquired id returning)
  perm : ∀ l l', l.Perm l' → Q l → Q l'

namespace Preserved

variable {P : LivingAdviceBudget → Prop} {Q : List Waiting → Prop}

theorem expire (h : Preserved P Q) (hs : P s) : P (s.expire now) := by
  unfold LivingAdviceBudget.expire
  split_ifs
  · exact h.same s _ _ s.admittedAt hs
  · exact hs

theorem offer (h : Preserved P Q) (hs : P s) (hQ : Q (s.expire now).waiting) : P (s.offer now) := by
  have hexpire : P (s.expire now) := h.expire hs
  obtain ⟨-, heq⟩ | ⟨-, ⟨-, -, -, -, -, heq⟩ | ⟨u, hu, heq⟩⟩ := s.offer_cases now
  · rw [heq]
    exact h.drop _ hexpire
  · rw [heq]
    exact hexpire
  · rw [heq]
    refine h.next u now ?_ (h.perm _ _ hu.waiting_perm.symm hQ)
    cases hu with
    | free => exact hexpire
    | early => exact h.drop _ hexpire
    | lapsed => exact h.pass _ hexpire
    | missed => exact h.pass _ (h.same _ _ _ _ hexpire)

theorem cancel (h : Preserved P Q) (hs : P s) : P (s.cancel id) := by
  have hremoved := h.same s (s.waiting.filter fun w => w.id != id) s.sweptAt s.admittedAt hs
  simp only [LivingAdviceBudget.cancel]
  split_ifs
  · exact h.pass _ hremoved
  · exact hremoved

theorem refresh (h : Preserved P Q) (hs : P s) {returning dispatchable : Bool}
    (hQ : Q (restate id now returning dispatchable (s.expire now).waiting)) :
    P (s.refresh id now true returning dispatchable) := by
  refine h.offer (h.same _ _ _ _ (h.expire hs)) ?_
  rw [expire_eq_self (by exact sweepDue_expire s now)]
  exact hQ

theorem deciding (h : Preserved P Q) (hs : P s) {returning : Bool}
    (hQ : Q (restate id now returning true (s.expire now).waiting))
    (hQ' : Q (s.request id now returning).waiting) : P (s.deciding id now returning) := by
  have hrequest : P (s.request id now returning) := by
    have hrefresh := h.refresh hs hQ
    rw [request, enqueue]
    split_ifs
    · exact h.same _ _ _ _ hrefresh
    · exact hrefresh
  refine h.offer hrequest ?_
  rw [expire_eq_self (sweepDue_request s id now returning)]
  exact hQ'

/-- What the parts of a call preserve, the call preserves. -/
theorem step (h : Preserved P Q) (hs : P s) (hstep : machine.step s i = some (o, s'))
    (hQ : ∀ l ∈ s.offerQueues i, Q l) : P s' := by
  cases i with
  | cancel id =>
    cases hstep
    exact h.cancel hs
  | refresh id now eligible returning dispatchable =>
    cases hstep
    cases eligible with
    | true => exact h.refresh hs (hQ _ List.mem_cons_self)
    | false => exact h.cancel (h.expire hs)
  | ready id now =>
    cases hstep
    exact h.offer hs (hQ _ List.mem_cons_self)
  | acquire id now returning =>
    have hmid := h.deciding hs (hQ _ List.mem_cons_self) (hQ _ (List.mem_cons_of_mem _ List.mem_cons_self))
    obtain ⟨-, hid, rfl⟩ | ⟨-, rfl⟩ := acquire_cases (Option.some.inj hstep)
    · exact h.same _ _ _ _ (h.cancel (h.admits _ id returning hmid hid))
    · exact hmid

end Preserved

/-! ### The streak -/

/-- How many turns at the end of the history were of returning agents. -/
def urgentTail (turns : List Turn) : ℕ := (turns.reverse.takeWhile Turn.returning).length

theorem urgentTail_append (turns : List Turn) (turn : Turn) :
    urgentTail (turns ++ [turn]) = if turn.returning then urgentTail turns + 1 else 0 := by
  rw [urgentTail, List.reverse_append, List.reverse_singleton, List.singleton_append,
    List.takeWhile_cons]
  split_ifs <;> rfl

/-- The counter is the length of the streak, as far as it matters. -/
def Streak (s : LivingAdviceBudget) : Prop := s.urgentRun = min 3 (urgentTail s.turns)

theorem Streak.turn (h : Streak s) (turn : Turn) :
    Streak ((s.completeTurn turn.returning).record turn) := by
  unfold Streak at h ⊢
  simp only [record, completeTurn, urgentTail_append, h]
  split_ifs <;> omega

theorem streak_preserved : Preserved Streak fun _ => True where
  same _ _ _ _ h := h
  drop _ h := h
  pass s h := by
    unfold passOffer
    cases s.offeredId with
    | none => exact h
    | some id => exact h.turn ⟨id, s.offeredReturning, s.offeredReturning, false⟩
  next s now h _ := by
    unfold offerNext
    cases s.next <;> exact h
  admits s id returning h _ := h.turn ⟨id, s.offeredReturning, returning, true⟩
  perm _ _ _ h := h

/-- Four turns of returning agents in a row, from some turn on, end with one that was offered
to another agent and acquired by it as a returning one. -/
structure Fair (base : ℕ) (s : LivingAdviceBudget) : Prop where
  streak : Streak s
  pending : s.offeredId.isSome → 3 ≤ s.urgentRun → base < s.turns.length → s.offeredReturning = false
  restated : ∀ a t₁ t₂ t₃ t₄ b, s.turns = a ++ [t₁, t₂, t₃, t₄] ++ b → base ≤ a.length + 2 →
    t₁.returning → t₂.returning → t₃.returning → t₄.returning →
    t₄.acquired ∧ t₄.offeredReturning = false

theorem urgentTail_three {a : List Turn} {t₁ t₂ t₃ : Turn} (h₁ : t₁.returning) (h₂ : t₂.returning)
    (h₃ : t₃.returning) : 3 ≤ urgentTail (a ++ [t₁, t₂, t₃]) := by
  have hcut : a ++ [t₁, t₂, t₃] = a ++ [t₁] ++ [t₂] ++ [t₃] := by simp
  simp only [hcut, urgentTail_append, h₁, h₂, h₃, if_true]
  omega

/-- One more turn: it is either not of a returning agent or was acquired by a restated one. -/
theorem Fair.turn {base : ℕ} (h : Fair base s) (turn : Turn)
    (hclass : s.offeredReturning = false → turn.returning = true →
      turn.acquired = true ∧ turn.offeredReturning = false) (hid : s.offeredId.isSome) :
    Fair base { (s.completeTurn turn.returning).record turn with offeredId := none } where
  streak := h.streak.turn turn
  pending h := by contradiction
  restated a t₁ t₂ t₃ t₄ b hturns hbase h₁ h₂ h₃ h₄ := by
    change s.turns ++ [turn] = _ at hturns
    rcases List.eq_nil_or_concat b with rfl | ⟨b, t, rfl⟩
    · rw [List.append_nil] at hturns
      have hcut : a ++ [t₁, t₂, t₃, t₄] = a ++ [t₁, t₂, t₃] ++ [t₄] := by simp
      obtain ⟨hold, hlast⟩ := List.append_inj' (hturns.trans hcut) rfl
      cases hlast
      have hrun : 3 ≤ s.urgentRun := by
        have := urgentTail_three (a := a) h₁ h₂ h₃
        rw [h.streak, hold]
        omega
      refine hclass (h.pending hid hrun ?_) h₄
      rw [hold, List.length_append]
      simp only [List.length_cons, List.length_nil]
      omega
    · rw [List.concat_eq_append, ← List.append_assoc] at hturns
      exact h.restated a t₁ t₂ t₃ t₄ b (List.append_inj' hturns rfl).1 hbase h₁ h₂ h₃ h₄

theorem fair_preserved (base : ℕ) :
    Preserved (Fair base) fun ws => ∃ w ∈ ws, w.returning = false ∧ w.dispatchable = true where
  same _ _ _ _ h := ⟨h.streak, h.pending, h.restated⟩
  drop _ h := ⟨h.streak, fun h => by contradiction, h.restated⟩
  pass s h := by
    unfold passOffer
    cases hid : s.offeredId with
    | none => exact h
    | some id =>
      refine h.turn ⟨id, s.offeredReturning, s.offeredReturning, false⟩ (fun hnot h => ?_) ?_
      · exact absurd (hnot.symm.trans h) Bool.false_ne_true
      · rw [hid]
        rfl
  next s now h hw := by
    unfold offerNext
    obtain ⟨w, hw, hnormal, hdisp⟩ := hw
    cases hnext : s.next with
    | none => exact h
    | some v =>
      refine ⟨h.streak, fun _ hrun _ => ?_, h.restated⟩
      by_contra hv
      rcases (next_returning hnext (by simpa using hv)).2 with hlt | hnone
      · exact absurd hrun (not_le.mpr hlt)
      · exact find?_ne_none hw (by simp [hnormal, hdisp]) hnone
  admits s id returning h hid := by
    refine h.turn ⟨id, s.offeredReturning, returning, true⟩ (fun hnot _ => ⟨rfl, hnot⟩) ?_
    rw [hid]
    rfl
  perm _ _ hperm := fun ⟨w, hw, h⟩ => ⟨w, hperm.mem_iff.mp hw, h⟩

/-! ### An agent that waits throughout -/

/-- The agent is queued, is not a returning one and can be served. -/
def WaitsNormal (s : LivingAdviceBudget) (id : UInt64) : Prop :=
  ∃ w ∈ s.waiting, w.id = id ∧ w.returning = false ∧ w.dispatchable = true

/-- It waits so before and after a call, whose sweep does not remove it. -/
def WaitsThrough (id : UInt64) (e : Event LivingAdviceBudget AdviceOp Bool) : Prop :=
  WaitsNormal e.pre id ∧ WaitsNormal e.post id ∧
    ∀ w ∈ e.pre.waiting, w.id = id → ¬ e.pre.SweepsAway e.input w

instance (id : UInt64) (e : Event LivingAdviceBudget AdviceOp Bool) : Decidable (WaitsThrough id e) :=
  inferInstanceAs (Decidable ((∃ w ∈ e.pre.waiting, _) ∧ (∃ w ∈ e.post.waiting, _) ∧
    ∀ w ∈ e.pre.waiting, w.id = id → ¬ e.pre.SweepsAway e.input w))

theorem waiting_refresh_perm {returning dispatchable : Bool} :
    (s.refresh id now true returning dispatchable).waiting.Perm
      (restate id now returning dispatchable (s.expire now).waiting) := by
  simp only [refresh, Bool.not_true, if_neg Bool.false_ne_true]
  refine (waiting_offer_perm _ now).trans ?_
  rw [expire_eq_self (by exact sweepDue_expire s now)]

theorem waiting_deciding_perm {returning : Bool} :
    (s.deciding id now returning).waiting.Perm (s.request id now returning).waiting := by
  refine (waiting_offer_perm _ now).trans ?_
  rw [expire_eq_self (sweepDue_request s id now returning)]

/-- An entry of a request was there before, or is the new one. -/
theorem mem_request {returning : Bool} (hw : w ∈ (s.request id now returning).waiting) :
    w ∈ restate id now returning true (s.expire now).waiting ∨
      id ∉ (s.expire now).ids ∧ w = ⟨id, now, now, returning, true⟩ := by
  have hids : (s.refresh id now true returning true).ids.Perm (s.expire now).ids := ids_refresh_perm
  rw [request, enqueue] at hw
  split_ifs at hw with hnew
  · rcases List.mem_append.mp hw with hw | hw
    · exact .inl (waiting_refresh_perm.mem_iff.mp hw)
    · refine .inr ⟨fun hmem => ?_, List.mem_singleton.mp hw⟩
      obtain ⟨v, hv, hvid⟩ := List.mem_map.mp (hids.mem_iff.mpr hmem)
      rw [Bool.and_eq_true, List.all_eq_true] at hnew
      simpa [hvid] using hnew.1 v hv
  · exact .inl (waiting_refresh_perm.mem_iff.mp hw)

theorem waiting_cancel (s : LivingAdviceBudget) (id : UInt64) :
    (s.cancel id).waiting = s.waiting.filter fun w => w.id != id := by
  simp only [cancel]
  split_ifs
  · exact waiting_passOffer _
  · rfl

theorem waiting_admitAgent (s : LivingAdviceBudget) (id now : UInt64) (returning : Bool) :
    (s.admitAgent id now returning).waiting = s.waiting.filter fun w => w.id != id :=
  waiting_cancel _ id

/-- The queue in which an acquisition decides holds what is left after it, and more only if
it succeeds. -/
theorem mem_deciding_of_acquire {returning : Bool} (h : s.acquire id now returning = (o, s'))
    (hw : w ∈ s'.waiting) : w ∈ (s.deciding id now returning).waiting := by
  obtain ⟨-, -, rfl⟩ | ⟨-, rfl⟩ := acquire_cases h
  · rw [waiting_admitAgent] at hw
    exact (List.mem_filter.mp hw).1
  · exact hw

/-- An agent that waits through a call is in each queue in which the call makes an offer. -/
theorem WaitsThrough.offerQueues {e : Event LivingAdviceBudget AdviceOp Bool} (h : WaitsThrough id e)
    (hstep : machine.IsStep e) :
    ∀ l ∈ e.pre.offerQueues e.input, ∃ w ∈ l, w.returning = false ∧ w.dispatchable = true := by
  obtain ⟨⟨v, hv, hvid, -⟩, ⟨w, hw, hwid, hnormal⟩, hkept⟩ := h
  obtain ⟨s, i, o, s'⟩ := e
  intro l hl
  have hstep : machine.step s i = some (o, s') := hstep
  cases i with
  | cancel id => contradiction
  | refresh id now eligible returning dispatchable =>
    cases hstep
    cases eligible with
    | false => contradiction
    | true =>
      rw [List.mem_singleton.mp hl]
      exact ⟨w, waiting_refresh_perm.mem_iff.mp hw, hnormal⟩
  | ready id now =>
    cases hstep
    rw [List.mem_singleton.mp hl]
    exact ⟨w, (s.waiting_offer_perm now).mem_iff.mp hw, hnormal⟩
  | acquire k now returning =>
    have hmid : w ∈ (s.request k now returning).waiting :=
      waiting_deciding_perm.mem_iff.mp (mem_deciding_of_acquire (Option.some.inj hstep) hw)
    rcases List.mem_cons.mp hl with rfl | hl
    · refine ⟨w, (mem_request hmid).resolve_right fun ⟨hnot, hnew⟩ => ?_, hnormal⟩
      have hin := (mem_ids_expire (i := .acquire k now returning) hv rfl).resolve_right (hkept v hv hvid)
      have hk : k = v.id := by rw [hvid, ← hwid, hnew]
      exact hnot (hk ▸ hin)
    · rw [List.mem_singleton.mp hl]
      exact ⟨w, hmid, hnormal⟩

/-- While one of the other agents waits, a fourth turn in a row counts as returning only when
it was offered to an agent that was none, and was acquired by it. -/
theorem four_returning {tr₁ tr₂ : List (Event LivingAdviceBudget AdviceOp Bool)}
    (hr₁ : machine.Run {} tr₁ s) (hr₂ : machine.Run s tr₂ s') (hwaits : ∀ e ∈ tr₂, WaitsThrough id e)
    {a b : List Turn} {t₁ t₂ t₃ t₄ : Turn} (hturns : s'.turns = a ++ [t₁, t₂, t₃, t₄] ++ b)
    (hbase : s.turns.length ≤ a.length + 2) (h₁ : t₁.returning) (h₂ : t₂.returning)
    (h₃ : t₃.returning) (h₄ : t₄.returning) : t₄.acquired ∧ t₄.offeredReturning = false := by
  have hstreak : Streak s := hr₁.invariant
    (fun _ _ _ _ hs hstep => streak_preserved.step hs hstep fun _ _ => trivial) rfl
  have hfair : Fair s.turns.length s := by
    refine ⟨hstreak, fun _ _ hlt => absurd hlt (lt_irrefl _), fun a t₁ t₂ t₃ t₄ b hturns hle => ?_⟩
    rw [hturns] at hle
    simp only [List.length_append, List.length_cons, List.length_nil] at hle
    omega
  have hend : Fair s.turns.length s' := hr₂.invariant_of_forall
    (fun _ _ _ _ hs hw hstep => (fair_preserved _).step hs hstep (hw.offerQueues hstep)) hwaits hfair
  exact hend.restated a t₁ t₂ t₃ t₄ b hturns hbase h₁ h₂ h₃ h₄

end LivingAdviceBudget

end AIWorld.Agent
