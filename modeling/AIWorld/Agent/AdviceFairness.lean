import AIWorld.Agent.AdviceTurns

/-! How long an agent waits for its turn. While the queue is steady, each turn of the class
of an agent serves one that is ahead of it, and at most three turns of the other class come
between. The bound is kept as what is left until the agent is offered the budget. -/

namespace AIWorld.Agent

open Lib

namespace LivingAdviceBudget

variable {s s' u : LivingAdviceBudget} {id k now clock : UInt64} {v w : Waiting} {i : AdviceOp} {o c : Bool}
  {bound done : ℕ} {l l₁ l₂ : List (UInt64 × Bool)}

/-! ### The clock -/

/-- A standing offer was made with the gate open, and the gate stays open. -/
def OfferOpen (clock : UInt64) (s : LivingAdviceBudget) : Prop :=
  ∀ id, s.offeredId = some id → s.offeredAt ≤ clock ∧ s.isOpen clock = true

theorem isOpen_mono (h : s.isOpen clock = true) (hclock : clock ≤ now) : s.isOpen now = true := by
  rw [isOpen_iff] at h ⊢
  intro a ha
  have := h a ha
  have := UInt64.le_iff_toNat_le.mp hclock
  omega

theorem OfferOpen.mono (h : OfferOpen clock s) (hclock : clock ≤ now) : OfferOpen now s := fun id hid =>
  ⟨(h id hid).1.trans hclock, isOpen_mono (h id hid).2 hclock⟩

theorem OfferOpen.congr (h : OfferOpen clock s) (hid : s'.offeredId = s.offeredId)
    (hat : s'.offeredAt = s.offeredAt) (hadmitted : s'.admittedAt = s.admittedAt) : OfferOpen clock s' := by
  intro id h'
  rw [hat, isOpen, hadmitted]
  exact h id (hid ▸ h')

theorem OfferOpen.of_none (h : s.offeredId = none) : OfferOpen clock s := fun id hid => by
  rw [h] at hid
  contradiction

theorem OfferOpen.expire (h : OfferOpen clock s) : OfferOpen clock (s.expire now) := by
  unfold LivingAdviceBudget.expire
  split_ifs
  · exact h.congr rfl rfl rfl
  · exact h

theorem OfferOpen.offer (h : OfferOpen now s) : OfferOpen now (s.offer now) := by
  obtain ⟨-, heq⟩ | ⟨-, ⟨-, -, -, -, -, heq⟩ | ⟨u, hu, heq⟩⟩ := s.offer_cases now
  · exact .of_none (by rw [heq])
  · exact heq ▸ h.expire
  · intro id hid
    have hopen : (s.offer now).isOpen now = true := by
      rw [isOpen, admittedAt_offer]
      exact (offer_offered s now hid).2
    refine ⟨?_, hopen⟩
    rw [heq, offerNext] at hid ⊢
    cases hnext : u.next with
    | none =>
      rw [hnext] at hid
      exact absurd (hid.symm.trans hu.offeredId) (Option.some_ne_none id)
    | some v => exact le_rfl

theorem OfferOpen.cancel (h : OfferOpen clock s) : OfferOpen clock (s.cancel id) := by
  simp only [LivingAdviceBudget.cancel]
  split_ifs
  · exact .of_none (offeredId_passOffer _)
  · exact h.congr rfl rfl rfl

theorem OfferOpen.refresh (h : OfferOpen now s) {returning dispatchable : Bool} :
    OfferOpen now (s.refresh id now true returning dispatchable) := by
  have hmid : OfferOpen now { s.expire now with
    waiting := restate id now returning dispatchable (s.expire now).waiting } := h.expire.congr rfl rfl rfl
  exact hmid.offer

theorem OfferOpen.request (h : OfferOpen now s) {returning : Bool} : OfferOpen now (s.request id now returning) := by
  have hrefresh : OfferOpen now (s.refresh id now true returning true) := h.refresh
  rw [LivingAdviceBudget.request, enqueue]
  split_ifs
  · exact hrefresh.congr rfl rfl rfl
  · exact hrefresh

theorem OfferOpen.step (h : OfferOpen clock s) (hstep : machine.step s i = some (o, s'))
    (hclock : ∀ now, i.now = some now → clock ≤ now) : OfferOpen (i.now.getD clock) s' := by
  cases i with
  | cancel id =>
    cases hstep
    exact h.cancel
  | refresh id now eligible returning dispatchable =>
    cases hstep
    have h := h.mono (hclock now rfl)
    cases eligible with
    | true => exact h.refresh
    | false => exact h.expire.cancel
  | ready id now =>
    cases hstep
    exact (h.mono (hclock now rfl)).offer
  | acquire id now returning =>
    obtain ⟨-, -, rfl⟩ | ⟨-, rfl⟩ := acquire_cases (Option.some.inj hstep)
    · exact .of_none (admit_frame _ id now returning).2.1
    · exact (h.mono (hclock now rfl)).request.offer

/-! ### What is left until an agent is offered the budget -/

/-- The agents in the order of the queue, with their classes. -/
def lane (s : LivingAdviceBudget) : List (UInt64 × Bool) := s.waiting.map fun w => (w.id, w.returning)

/-- How many agents of a class there are. -/
def countClass (c : Bool) (l : List (UInt64 × Bool)) : ℕ := l.countP fun x => x.2 == c

/-- The queue without one agent. -/
def without (k : UInt64) (l : List (UInt64 × Bool)) : List (UInt64 × Bool) := l.filter fun x => x.1 != k

/-- How many turns of the other class may come before the next one of this class. -/
def slack (c : Bool) (urgentRun : ℕ) : ℕ :=
  if c then (if urgentRun < 3 then 0 else 1) else 3 - urgentRun

/-- An agent of a class still waits for its offer, after some turns, and will have it before
more turns than the bound are completed. -/
inductive Owed (bound : ℕ) (id : UInt64) (c : Bool) (done : ℕ) (s : LivingAdviceBudget) : Prop
  | offered (hid : s.offeredId = some id) (hle : done ≤ bound)
  | free (l₁ l₂ : List (UInt64 × Bool)) (hlane : s.lane = l₁ ++ (id, c) :: l₂)
      (hid : s.offeredId = none) (hle : done + 4 * countClass c l₁ + slack c s.urgentRun ≤ bound)
  | first (l₁ l₂ : List (UInt64 × Bool)) (k : UInt64) (hlane : s.lane = l₁ ++ (id, c) :: l₂)
      (hid : s.offeredId = some k) (hne : k ≠ id) (hle : done + 4 * (countClass c l₁ + 1) ≤ bound)
  | other (l₁ l₂ : List (UInt64 × Bool)) (k : UInt64) (hlane : s.lane = l₁ ++ (id, c) :: l₂)
      (hid : s.offeredId = some k) (hne : k ≠ id) (hk : (k, s.offeredReturning) ∈ s.lane)
      (hle : done + 1 + 4 * countClass c (without k l₁) +
        slack c (s.completeTurn s.offeredReturning).urgentRun ≤ bound)

theorem Owed.done_le (h : Owed bound id c done s) : done ≤ bound := by
  cases h <;> omega

theorem slack_le (c : Bool) (n : ℕ) : slack c n ≤ 3 := by
  unfold slack
  split_ifs <;> omega

theorem countClass_without_le (c : Bool) (k : UInt64) (l : List (UInt64 × Bool)) :
    countClass c (without k l) ≤ countClass c l := List.filter_sublist.countP_le

theorem countClass_without_lt (hk : (k, c) ∈ l) : countClass c (without k l) < countClass c l := by
  obtain ⟨a, b, rfl⟩ := List.append_of_mem hk
  have ha := countClass_without_le c k a
  have hb := countClass_without_le c k b
  unfold countClass without at *
  simp only [List.filter_append, List.countP_append, List.filter_cons, bne_self_eq_false,
    Bool.false_eq_true, if_false, List.countP_cons, beq_self_eq_true, if_true]
  omega

theorem without_append_cons (hne : k ≠ id) :
    without k (l₁ ++ (id, c) :: l₂) = without k l₁ ++ (id, c) :: without k l₂ := by
  rw [without, List.filter_append, List.filter_cons_of_pos (by simpa using hne.symm), ← without, ← without]

theorem without_eq_self (h : ∀ r, (k, r) ∉ l) : without k l = l :=
  List.filter_eq_self.mpr fun ⟨j, r⟩ hj => by
    have hne : j ≠ k := by
      rintro rfl
      exact h r hj
    simpa using hne

theorem Owed.congr (h : Owed bound id c done s) (hlane : s'.lane = s.lane)
    (hid : s'.offeredId = s.offeredId) (hreturning : s'.offeredReturning = s.offeredReturning)
    (hrun : s'.urgentRun = s.urgentRun) : Owed bound id c done s' := by
  cases h with
  | offered h hle => exact .offered (hid.trans h) hle
  | free l₁ l₂ hl h hle => exact .free l₁ l₂ (hlane.trans hl) (hid.trans h) (hrun ▸ hle)
  | first l₁ l₂ k hl h hne hle => exact .first l₁ l₂ k (hlane.trans hl) (hid.trans h) hne hle
  | other l₁ l₂ k hl h hne hk hle =>
    refine .other l₁ l₂ k (hlane.trans hl) (hid.trans h) hne (by rw [hlane, hreturning]; exact hk) ?_
    rw [completeTurn, hreturning, hrun]
    exact hle

/-- A new agent joins at the back. -/
theorem Owed.push (h : Owed bound id c done s) {x : UInt64 × Bool} (hlane : s'.lane = s.lane ++ [x])
    (hid : s'.offeredId = s.offeredId) (hreturning : s'.offeredReturning = s.offeredReturning)
    (hrun : s'.urgentRun = s.urgentRun) : Owed bound id c done s' := by
  have happend {l₁ l₂ : List (UInt64 × Bool)} (hl : s.lane = l₁ ++ (id, c) :: l₂) :
      s'.lane = l₁ ++ (id, c) :: (l₂ ++ [x]) := by
    rw [hlane, hl, List.append_assoc, List.cons_append]
  cases h with
  | offered h hle => exact .offered (hid.trans h) hle
  | free l₁ l₂ hl h hle => exact .free l₁ _ (happend hl) (hid.trans h) (hrun ▸ hle)
  | first l₁ l₂ k hl h hne hle => exact .first l₁ _ k (happend hl) (hid.trans h) hne hle
  | other l₁ l₂ k hl h hne hk hle =>
    refine .other l₁ _ k (happend hl) (hid.trans h) hne ?_ ?_
    · rw [hlane, hreturning]
      exact List.mem_append_left _ hk
    · rw [completeTurn, hreturning, hrun]
      exact hle

/-- Another agent's turn is completed; the agent leaves the queue or goes to its back. -/
theorem Owed.turn (h : Owed bound id c done s) (returning : Bool) (rest : List (UInt64 × Bool))
    (hk : s.offeredId = some k) (hne : k ≠ id) (hlane : s'.lane = without k s.lane ++ rest)
    (hid : s'.offeredId = none) (hrun : s'.urgentRun = (s.completeTurn returning).urgentRun)
    (hclass : (k, s.offeredReturning) ∈ s.lane → returning = s.offeredReturning) :
    Owed bound id c (done + 1) s' := by
  have hremove {l₁ l₂ : List (UInt64 × Bool)} (hl : s.lane = l₁ ++ (id, c) :: l₂) :
      s'.lane = without k l₁ ++ (id, c) :: (without k l₂ ++ rest) := by
    rw [hlane, hl, without_append_cons hne, List.append_assoc, List.cons_append]
  cases h with
  | offered h hle => exact absurd (Option.some.inj (hk.symm.trans h)) hne
  | free l₁ l₂ hl h hle => exact absurd (hk.symm.trans h) (Option.some_ne_none k)
  | first l₁ l₂ j hl h _ hle =>
    refine .free _ _ (hremove hl) hid ?_
    have := countClass_without_le c k l₁
    have := slack_le c s'.urgentRun
    omega
  | other l₁ l₂ j hl h _ hmem hle =>
    cases Option.some.inj (hk.symm.trans h)
    refine .free _ _ (hremove hl) hid ?_
    rw [hrun, hclass hmem]
    exact hle

theorem mem_of_find?_append_cons {p : Waiting → Bool} {ws₁ ws₂ : List Waiting}
    (h : (ws₁ ++ w :: ws₂).find? p = some v) (hw : p w = true) : v ∈ ws₁ ∨ v = w := by
  rw [List.find?_append, List.find?_cons_of_pos hw, Option.or_eq_some_iff] at h
  rcases h with h | ⟨-, h⟩
  · exact .inl (List.mem_of_find?_eq_some h)
  · exact .inr (Option.some.inj h).symm

/-- An agent that is served is not behind another one of its class. -/
theorem mem_of_next {ws₁ ws₂ : List Waiting} (h : s.next = some v) (hws : s.waiting = ws₁ ++ w :: ws₂)
    (hdisp : w.dispatchable = true) (hclass : v.returning = w.returning) : v ∈ ws₁ ∨ v = w := by
  cases hv : v.returning with
  | true =>
    have hfind := (next_returning h hv).1
    rw [hws] at hfind
    exact mem_of_find?_append_cons hfind (by simp [← hclass, hv, hdisp])
  | false =>
    have hfind := (next_normal h hv).1
    rw [hws] at hfind
    exact mem_of_find?_append_cons hfind (by simp [← hclass, hv, hdisp])

/-- A turn of the other class uses up some of the slack. -/
theorem slack_of_next (h : s.next = some v) (hw : w ∈ s.waiting) (hdisp : w.dispatchable = true)
    (hclass : v.returning ≠ w.returning) :
    slack w.returning (s.completeTurn v.returning).urgentRun + 1 ≤ slack w.returning s.urgentRun := by
  cases hwr : w.returning with
  | true =>
    have hv : v.returning = false := by simpa [hwr] using hclass
    have hrun := (next_normal h hv).2.resolve_left (find?_ne_none hw (by simp [hwr, hdisp]))
    simp only [slack, completeTurn, hv, if_true, Bool.false_eq_true, if_false, if_neg (not_lt.mpr hrun)]
    decide
  | false =>
    have hv : v.returning = true := by simpa [hwr] using hclass
    have hrun := (next_returning h hv).2.resolve_right (find?_ne_none hw (by simp [hwr, hdisp]))
    simp only [slack, completeTurn, hv, if_true, Bool.false_eq_true, if_false]
    omega

/-- The next offer goes to the agent itself, to one of its class ahead of it, or to one of the
other class, whose turns are counted by the slack. -/
theorem Owed.next (h : Owed bound id c done s) (hid : s.offeredId = none)
    (hdisp : ∀ w ∈ s.waiting, w.dispatchable = true) : Owed bound id c done (s.offerNext now) := by
  cases h with
  | offered h => exact absurd (hid.symm.trans h).symm (Option.some_ne_none id)
  | first _ _ k _ h => exact absurd (hid.symm.trans h).symm (Option.some_ne_none k)
  | other _ _ k _ h => exact absurd (hid.symm.trans h).symm (Option.some_ne_none k)
  | free l₁ l₂ hl _ hle =>
    obtain ⟨ws₁, ws, hws, hl₁, hcons⟩ := List.map_eq_append_iff.mp hl
    obtain ⟨w, ws₂, rfl, hw, -⟩ := List.map_eq_cons_iff.mp hcons
    obtain ⟨rfl, rfl⟩ := Prod.mk.inj hw
    have hmem : w ∈ s.waiting := hws ▸ List.mem_append_right _ List.mem_cons_self
    obtain ⟨v, hv⟩ := exists_next hmem (hdisp w hmem)
    have hoffer : s.offerNext now =
        { s with offeredId := some v.id, offeredAt := now, offeredReturning := v.returning } := by
      rw [offerNext, hv]
    rw [hoffer]
    by_cases hvid : v.id = w.id
    · exact .offered (congrArg some hvid) (by omega)
    · refine .other l₁ l₂ v.id hl rfl hvid (List.mem_map_of_mem (next_mem hv)) ?_
      change done + 1 + 4 * countClass w.returning (without v.id l₁) +
        slack w.returning (s.completeTurn v.returning).urgentRun ≤ bound
      have hle' := countClass_without_le w.returning v.id l₁
      by_cases hclass : v.returning = w.returning
      · have hahead : (v.id, w.returning) ∈ l₁ := by
          rw [← hl₁, ← hclass]
          refine List.mem_map_of_mem ((mem_of_next hv hws (hdisp w hmem) hclass).resolve_right ?_)
          exact ne_of_apply_ne Waiting.id hvid
        have := countClass_without_lt hahead
        have := slack_le w.returning (s.completeTurn v.returning).urgentRun
        omega
      · have hslack := slack_of_next hv hmem (hdisp w hmem) hclass
        omega

/-! ### Calls on a steady queue -/

/-- The agent has been offered one of the first turns. -/
def Served (bound : ℕ) (id : UInt64) (turns : List Turn) : Prop := ∃ t ∈ turns.take (bound + 1), t.id = id

/-- Since some turns were completed the agent has been offered one of the next, or will be. -/
def Serves (base : List Turn) (bound : ℕ) (id : UInt64) (c : Bool) (s : LivingAdviceBudget) : Prop :=
  ∃ turns, s.turns = base ++ turns ∧ (Served bound id turns ∨ Owed bound id c turns.length s)

variable {base : List Turn}

/-- A part of a call that completes no turn. -/
theorem Serves.same (h : Serves base bound id c s) (hturns : s'.turns = s.turns)
    (howed : ∀ done, Owed bound id c done s → Owed bound id c done s') : Serves base bound id c s' := by
  obtain ⟨turns, heq, hs⟩ := h
  exact ⟨turns, hturns.trans heq, hs.imp_right (howed _)⟩

/-- A part of a call that completes the turn of the offered agent. -/
theorem Serves.turn (h : Serves base bound id c s) {t : Turn} (ht : t.id = k)
    (hturns : s'.turns = s.turns ++ [t])
    (howed : ∀ done, k ≠ id → Owed bound id c done s → Owed bound id c (done + 1) s') :
    Serves base bound id c s' := by
  obtain ⟨turns, heq, hs⟩ := h
  refine ⟨turns ++ [t], by rw [hturns, heq, List.append_assoc], ?_⟩
  rcases hs with ⟨u, hu, huid⟩ | ho
  · refine .inl ⟨u, ?_, huid⟩
    rw [List.take_append]
    exact List.mem_append_left _ hu
  · by_cases hk : k = id
    · have hle := ho.done_le
      refine .inl ⟨t, ?_, ht.trans hk⟩
      rw [List.take_of_length_le (by rw [List.length_append, List.length_singleton]; omega)]
      exact List.mem_append_right _ List.mem_cons_self
    · rw [List.length_append, List.length_singleton]
      exact .inr (howed _ hk ho)

theorem Serves.pass (h : Serves base bound id c s) (hid : s.offeredId = some k)
    {waiting : List Waiting} (rest : List (UInt64 × Bool))
    (hlane : ({ s with waiting } : LivingAdviceBudget).lane = without k s.lane ++ rest) :
    Serves base bound id c ({ s with waiting } : LivingAdviceBudget).passOffer := by
  have hpass : ({ s with waiting } : LivingAdviceBudget).passOffer =
      { (s.completeTurn s.offeredReturning).record
          ⟨k, s.offeredReturning, s.offeredReturning, false⟩ with waiting, offeredId := none } := by
    simp only [passOffer, hid]
    rfl
  rw [hpass]
  exact h.turn rfl rfl fun done hne ho => ho.turn s.offeredReturning rest hid hne hlane rfl rfl fun _ => rfl

theorem mem_lane_iff {r : Bool} : (k, r) ∈ s.lane ↔ ∃ w ∈ s.waiting, w.id = k ∧ w.returning = r := by
  simp [lane, List.mem_map]

theorem eraseP_eq_filter {ws : List Waiting} (h : (ws.map Waiting.id).Nodup) :
    ws.eraseP (fun w => w.id == k) = ws.filter fun w => w.id != k := by
  induction ws with
  | nil => rfl
  | cons w ws ih =>
    rw [List.map_cons, List.nodup_cons] at h
    by_cases hk : w.id = k
    · rw [List.eraseP_cons_of_pos (by simpa using hk), List.filter_cons_of_neg (by simpa using hk)]
      refine (List.filter_eq_self.mpr fun v hv => ?_).symm
      have hne : v.id ≠ k := fun hvk => h.1 (hk.trans hvk.symm ▸ List.mem_map_of_mem hv)
      simpa using hne
    · rw [List.eraseP_cons_of_neg (by simpa using hk), List.filter_cons_of_pos (by simpa using hk), ih h.2]

theorem lane_filter (ws : List Waiting) (k : UInt64) :
    (ws.filter fun w => w.id != k).map (fun w => (w.id, w.returning)) =
      without k (ws.map fun w => (w.id, w.returning)) := by
  rw [without, List.filter_map]
  rfl

theorem Serves.offer (h : Serves base bound id c s) (hopen : OfferOpen now s)
    (hkept : (s.expire now).waiting = s.waiting) (hnodup : s.ids.Nodup)
    (hdisp : ∀ w ∈ s.waiting, w.dispatchable = true) : Serves base bound id c (s.offer now) := by
  have hexpire : Serves base bound id c (s.expire now) := by
    refine h.same ?_ fun done ho => ho.congr (by rw [lane, hkept, lane]) (offeredId_expire s now) ?_ ?_
    all_goals
      unfold expire
      split_ifs <;> rfl
  have hopen : OfferOpen now (s.expire now) := hopen.expire
  rw [ids, ← hkept] at hnodup
  rw [← hkept] at hdisp
  obtain ⟨hclosed, heq⟩ | ⟨-, ⟨-, -, -, -, -, heq⟩ | ⟨u, hu, heq⟩⟩ := s.offer_cases now
  · rw [heq]
    cases hid : (s.expire now).offeredId with
    | none => exact hexpire.same rfl fun done ho => ho.congr rfl hid.symm rfl rfl
    | some k => exact absurd (hclosed.symm.trans (hopen k hid).2) Bool.false_ne_true
  · exact heq ▸ hexpire
  · rw [heq]
    have hserves : Serves base bound id c u := by
      cases hu with
      | free => exact hexpire
      | early hid hearly => exact absurd (hopen _ hid).1 (not_le.mpr hearly)
      | @lapsed k hid hfound =>
        refine hexpire.pass hid [] ?_
        rw [List.append_nil]
        refine (without_eq_self fun r hr => ?_).symm
        obtain ⟨v, hv, hvk, -⟩ := mem_lane_iff.mp hr
        obtain ⟨w, hw⟩ := Option.ne_none_iff_exists'.mp
          (find?_ne_none (p := fun w => w.id == k) hv (by simpa using hvk))
        exact Bool.false_ne_true ((hfound w hw).symm.trans (hdisp w (List.mem_of_find?_eq_some hw)))
      | @missed k w hid hfound =>
        refine hexpire.pass hid [(w.id, w.returning)] ?_
        rw [eraseP_eq_filter hnodup, lane, List.map_append, lane_filter]
        rfl
    have hdisp : ∀ w ∈ u.waiting, w.dispatchable = true := fun w hw => hdisp w (hu.waiting_perm.mem_iff.mp hw)
    refine hserves.same ?_ fun done ho => ho.next hu.offeredId hdisp
    unfold offerNext
    cases u.next <;> rfl

/-- The call is a successful acquisition of an agent in a class. -/
def AcquiresIn (id : UInt64) (returning : Bool) (i : AdviceOp) (o : Bool) : Prop :=
  ∃ now, i = .acquire id now returning ∧ o = true

instance (id : UInt64) (returning : Bool) (o : Bool) : (i : AdviceOp) →
    Decidable (AcquiresIn id returning i o)
  | .acquire k now r =>
    decidable_of_iff (k = id ∧ r = returning ∧ o = true)
      ⟨fun ⟨hk, hr, ho⟩ => ⟨now, hk ▸ hr ▸ rfl, ho⟩, fun ⟨_, hi, ho⟩ => by
        cases hi
        exact ⟨rfl, rfl, ho⟩⟩
  | .cancel _ => .isFalse fun ⟨_, hi, _⟩ => by cases hi
  | .refresh .. => .isFalse fun ⟨_, hi, _⟩ => by cases hi
  | .ready .. => .isFalse fun ⟨_, hi, _⟩ => by cases hi

/-- In a call every queued agent stays queued in its class, or leaves by acquiring in it, and
all queued agents can be served. -/
structure Steady (e : Event LivingAdviceBudget AdviceOp Bool) : Prop where
  kept : ∀ w ∈ e.pre.waiting, ¬ e.pre.SweepsAway e.input w
  stays : ∀ w ∈ e.pre.waiting, (∃ v ∈ e.post.waiting, v.id = w.id ∧ v.returning = w.returning) ∨
    AcquiresIn w.id w.returning e.input e.output
  dispatchable : ∀ w ∈ e.pre.waiting ++ e.post.waiting, w.dispatchable = true

instance (e : Event LivingAdviceBudget AdviceOp Bool) : Decidable (Steady e) :=
  decidable_of_iff ((∀ w ∈ e.pre.waiting, ¬ e.pre.SweepsAway e.input w) ∧
      (∀ w ∈ e.pre.waiting, (∃ v ∈ e.post.waiting, v.id = w.id ∧ v.returning = w.returning) ∨
        AcquiresIn w.id w.returning e.input e.output) ∧
      ∀ w ∈ e.pre.waiting ++ e.post.waiting, w.dispatchable = true)
    ⟨fun ⟨hkept, hstays, hdisp⟩ => ⟨hkept, hstays, hdisp⟩, fun h => ⟨h.kept, h.stays, h.dispatchable⟩⟩

theorem waiting_expire_eq (hi : i.now = some now) (hkept : ∀ w ∈ s.waiting, ¬ s.SweepsAway i w) :
    (s.expire now).waiting = s.waiting := by
  unfold expire
  split_ifs with hdue
  · refine List.filter_eq_self.mpr fun w hw => ?_
    by_contra hu
    exact hkept w hw ⟨now, hi, hdue, w.unseen_iff now |>.mp (by simpa using hu)⟩
  · rfl

theorem mem_restate_of_eq {returning dispatchable : Bool} {ws : List Waiting}
    (hnodup : (ws.map Waiting.id).Nodup) (hw : w ∈ restate id now returning dispatchable ws) (hid : w.id = id) :
    w.returning = returning ∧ w.dispatchable = dispatchable := by
  induction ws with
  | nil => contradiction
  | cons v ws ih =>
    rw [List.map_cons, List.nodup_cons] at hnodup
    rw [restate] at hw
    split_ifs at hw with hv
    · rcases List.mem_cons.mp hw with rfl | hw
      · exact ⟨rfl, rfl⟩
      · exact absurd (beq_iff_eq.mp hv ▸ hid ▸ List.mem_map_of_mem hw) hnodup.1
    · rcases List.mem_cons.mp hw with rfl | hw
      · exact absurd (beq_iff_eq.mpr hid) hv
      · exact ih hnodup.2 hw

theorem mem_of_mem_restate {returning dispatchable : Bool} {ws : List Waiting}
    (hw : w ∈ restate id now returning dispatchable ws) (hid : w.id ≠ id) : w ∈ ws := by
  induction ws with
  | nil => contradiction
  | cons v ws ih =>
    rw [restate] at hw
    split_ifs at hw with hv
    · rcases List.mem_cons.mp hw with rfl | hw
      · exact absurd (beq_iff_eq.mp hv) hid
      · exact List.mem_cons_of_mem _ hw
    · rcases List.mem_cons.mp hw with rfl | hw
      · exact List.mem_cons_self
      · exact List.mem_cons_of_mem _ (ih hw)

/-- A refresh that confirms the class of an agent leaves the lane as it is. -/
theorem lane_restate {returning dispatchable : Bool} {ws : List Waiting}
    (h : ∀ w ∈ ws, w.id = id → w.returning = returning) :
    (restate id now returning dispatchable ws).map (fun w => (w.id, w.returning)) =
      ws.map fun w => (w.id, w.returning) := by
  induction ws with
  | nil => rfl
  | cons w ws ih =>
    obtain ⟨hw, hws⟩ := List.forall_mem_cons.mp h
    rw [restate]
    split_ifs with hid
    · rw [List.map_cons, List.map_cons, hw (beq_iff_eq.mp hid)]
    · rw [List.map_cons, ih hws, List.map_cons]

/-- The part of a call that restates its agent, in the class it has, and offers the budget. -/
theorem Serves.refresh (h : Serves base bound id c s) (hopen : OfferOpen now s) (hnodup : s.ids.Nodup)
    {returning dispatchable : Bool} (hkept : (s.expire now).waiting = s.waiting)
    (hclass : ∀ w ∈ s.waiting, w.id = k → w.returning = returning)
    (hdisp : ∀ w ∈ restate k now returning dispatchable s.waiting, w.dispatchable = true) :
    Serves base bound id c (s.refresh k now true returning dispatchable) := by
  have hmid : Serves base bound id c { s.expire now with
      waiting := restate k now returning dispatchable (s.expire now).waiting } := by
    refine h.same ?_ fun done ho => ho.congr ?_ (offeredId_expire s now) ?_ ?_
    · unfold expire
      split_ifs <;> rfl
    · rw [hkept]
      exact lane_restate hclass
    all_goals
      unfold expire
      split_ifs <;> rfl
  refine hmid.offer (hopen.expire.congr rfl rfl rfl) ?_ ?_ ?_
  · rw [expire_eq_self (by exact sweepDue_expire s now)]
  · rw [ids, map_id_restate]
    exact hnodup.sublist (s.ids_expire_sublist now)
  · rw [hkept]
    exact hdisp

theorem Serves.cancel (h : Serves base bound id c s) (hgone : ∀ w ∈ s.waiting, w.id ≠ k) :
    Serves base bound id c (s.cancel k) := by
  have hself : s.waiting.filter (fun w => w.id != k) = s.waiting :=
    List.filter_eq_self.mpr fun w hw => by simpa using hgone w hw
  simp only [LivingAdviceBudget.cancel, hself]
  split_ifs with hid
  · refine h.pass (beq_iff_eq.mp hid) [] ?_
    rw [List.append_nil, without_eq_self fun r hr => ?_]
    obtain ⟨v, hv, hvk, -⟩ := mem_lane_iff.mp hr
    exact hgone v hv hvk
  · exact h

/-- The part of an acquisition before its decision. -/
theorem Serves.deciding (h : Serves base bound id c s) (hopen : OfferOpen now s) (hbounded : Bounded s)
    {returning : Bool} (hkept : (s.expire now).waiting = s.waiting)
    (hclass : ∀ w ∈ s.waiting, w.id = k → w.returning = returning)
    (hdisp : ∀ w ∈ s.waiting, w.dispatchable = true) :
    Serves base bound id c (s.deciding k now returning) := by
  have hrestate (w) (hw : w ∈ restate k now returning true s.waiting) : w.dispatchable = true := by
    by_cases hwk : w.id = k
    · exact (mem_restate_of_eq hbounded.1 hw hwk).2
    · exact hdisp w (mem_of_mem_restate hw hwk)
  have hrefresh := h.refresh hopen hbounded.1 hkept hclass hrestate
  have hrequest : Serves base bound id c (s.request k now returning) := by
    rw [request, enqueue]
    split_ifs
    · exact hrefresh.same rfl fun done ho => ho.push (x := (k, returning)) (by simp [lane]) rfl rfl rfl
    · exact hrefresh
  refine hrequest.offer hopen.request (by rw [expire_eq_self (sweepDue_request s k now returning)]) ?_ ?_
  · exact (waiting_deciding_perm.map Waiting.id).nodup_iff.mp (hbounded.deciding k now returning).1
  · intro w hw
    rcases mem_request hw with hw | hw
    · exact hrestate w (hkept ▸ hw)
    · rw [hw.2]

/-- In the queue in which an acquisition decides, its agent has the class it acquires in. -/
theorem returning_of_mem_deciding {returning : Bool} (hnodup : s.ids.Nodup)
    (hw : w ∈ (s.deciding k now returning).waiting) (hwk : w.id = k) : w.returning = returning := by
  have hnodup : ((s.expire now).waiting.map Waiting.id).Nodup := hnodup.sublist (s.ids_expire_sublist now)
  rcases mem_request (waiting_deciding_perm.mem_iff.mp hw) with hw | hw
  · exact (mem_restate_of_eq hnodup hw hwk).1
  · rw [hw.2]

theorem Serves.admitAgent (h : Serves base bound id c s) {returning : Bool} (hid : s.offeredId = some k)
    (hclass : ∀ w ∈ s.waiting, w.id = k → w.returning = returning) :
    Serves base bound id c (s.admitAgent k now returning) := by
  have hadmits : s.admitAgent k now returning = { s.acquired k returning with
      waiting := s.waiting.filter fun w => w.id != k, admittedAt := some now } := by
    simp only [LivingAdviceBudget.admitAgent, LivingAdviceBudget.cancel]
    rfl
  rw [hadmits]
  refine h.turn (t := ⟨k, s.offeredReturning, returning, true⟩) rfl rfl fun done hne ho => ?_
  refine ho.turn returning [] hid hne ?_ rfl rfl fun hmem => ?_
  · rw [List.append_nil]
    exact lane_filter s.waiting k
  · obtain ⟨w, hw, hwk, hwr⟩ := mem_lane_iff.mp hmem
    rw [← hwr, hclass w hw hwk]

theorem Serves.step (h : Serves base bound id c s) (hopen : OfferOpen clock s) (hbounded : Bounded s)
    (hclock : ∀ now, i.now = some now → clock ≤ now) (hsteady : Steady ⟨s, i, o, s'⟩)
    (hstep : machine.step s i = some (o, s')) : Serves base bound id c s' := by
  obtain ⟨hswept, hstays, hdisp⟩ := hsteady
  cases i with
  | cancel k =>
    cases hstep
    refine h.cancel fun w hw hwk => ?_
    rcases hstays w hw with ⟨v, hv, hvid, -⟩ | ⟨_, hi, -⟩
    · rw [waiting_cancel] at hv
      simpa [hvid, hwk] using (List.mem_filter.mp hv).2
    · contradiction
  | refresh k now eligible returning dispatchable =>
    cases hstep
    have hkept := waiting_expire_eq (i := .refresh k now eligible returning dispatchable) rfl hswept
    have hopen := hopen.mono (hclock now rfl)
    cases eligible with
    | false =>
      have hexpire : Serves base bound id c (s.expire now) := by
        refine h.same ?_ fun done ho => ho.congr (by rw [lane, hkept, lane]) (offeredId_expire s now) ?_ ?_
        all_goals
          unfold expire
          split_ifs <;> rfl
      refine hexpire.cancel fun w hw hwk => ?_
      rcases hstays w (hkept ▸ hw) with ⟨v, hv, hvid, -⟩ | ⟨_, hi, -⟩
      · change v ∈ ((s.expire now).cancel k).waiting at hv
        rw [waiting_cancel] at hv
        simpa [hvid, hwk] using (List.mem_filter.mp hv).2
      · contradiction
    | true =>
      have hpost {v : Waiting} : v ∈ (s.refresh k now true returning dispatchable).waiting ↔
          v ∈ restate k now returning dispatchable s.waiting := by
        rw [waiting_refresh_perm.mem_iff, hkept]
      refine h.refresh hopen hbounded.1 hkept (fun w hw hwk => ?_) fun w hw => hdisp w (List.mem_append_right _ (hpost.mpr hw))
      rcases hstays w hw with ⟨v, hv, hvid, hvr⟩ | ⟨_, hi, -⟩
      · rw [← hvr]
        exact (mem_restate_of_eq hbounded.1 (hpost.mp hv) (hvid.trans hwk)).1
      · contradiction
  | ready k now =>
    cases hstep
    have hkept := waiting_expire_eq (i := .ready k now) rfl hswept
    exact h.offer (hopen.mono (hclock now rfl)) hkept hbounded.1 fun w hw => hdisp w (List.mem_append_left _ hw)
  | acquire k now returning =>
    have hkept := waiting_expire_eq (i := .acquire k now returning) rfl hswept
    have hacquire := Option.some.inj hstep
    have hclass : ∀ w ∈ s.waiting, w.id = k → w.returning = returning := by
      intro w hw hwk
      rcases hstays w hw with ⟨v, hv, hvid, hvr⟩ | ⟨_, hi, -⟩
      · rw [← hvr]
        exact returning_of_mem_deciding hbounded.1 (mem_deciding_of_acquire hacquire hv) (hvid.trans hwk)
      · cases hi
        rfl
    have hmid := h.deciding (hopen.mono (hclock now rfl)) hbounded hkept hclass
      fun w hw => hdisp w (List.mem_append_left _ hw)
    obtain ⟨-, hid, rfl⟩ | ⟨-, rfl⟩ := acquire_cases hacquire
    · exact hmid.admitAgent hid fun w hw hwk => returning_of_mem_deciding hbounded.1 hw hwk
    · exact hmid

/-! ### Runs -/

variable {tr tr₁ tr₂ : List (Event LivingAdviceBudget AdviceOp Bool)}

/-- The clock of the calls does not go back. -/
def Nondecreasing (tr : List (Event LivingAdviceBudget AdviceOp Bool)) : Prop :=
  (tr.filterMap fun e => e.input.now).Pairwise (· ≤ ·)

instance : Decidable (Nondecreasing tr) := inferInstanceAs (Decidable (List.Pairwise _ _))

/-- The clock of the first call of a run, and of those after it. -/
theorem pairwise_clock {e : Event LivingAdviceBudget AdviceOp Bool}
    (h : (clock :: (e :: tr).filterMap fun e => e.input.now).Pairwise (· ≤ ·)) :
    (∀ now, e.input.now = some now → clock ≤ now) ∧
      (e.input.now.getD clock :: tr.filterMap fun e => e.input.now).Pairwise (· ≤ ·) := by
  rw [List.filterMap_cons] at h
  cases hnow : e.input.now with
  | none =>
    rw [hnow] at h
    exact ⟨by simp, h⟩
  | some now =>
    rw [hnow, List.pairwise_cons] at h
    exact ⟨fun u hu => Option.some.inj hu ▸ h.1 now List.mem_cons_self, h.2⟩

theorem OfferOpen.run (hr : machine.Run s tr s') (h : OfferOpen clock s)
    (hclock : (clock :: (tr ++ tr₂).filterMap fun e => e.input.now).Pairwise (· ≤ ·)) :
    ∃ u, OfferOpen u s' ∧ (u :: tr₂.filterMap fun e => e.input.now).Pairwise (· ≤ ·) := by
  induction hr generalizing clock with
  | nil => exact ⟨clock, h, hclock⟩
  | cons hstep _ ih =>
    obtain ⟨hfirst, hrest⟩ := pairwise_clock hclock
    exact ih (h.step hstep hfirst) hrest

theorem Serves.run (hr : machine.Run s tr s') (h : Serves base bound id c s) (hopen : OfferOpen clock s)
    (hbounded : Bounded s) (hclock : (clock :: tr.filterMap fun e => e.input.now).Pairwise (· ≤ ·))
    (hsteady : ∀ e ∈ tr, Steady e) : Serves base bound id c s' := by
  induction hr generalizing clock with
  | nil => exact h
  | cons hstep _ ih =>
    obtain ⟨hfirst, hrest⟩ := pairwise_clock hclock
    obtain ⟨hnow, hlater⟩ := List.forall_mem_cons.mp hsteady
    exact ih (h.step hopen hbounded hfirst hnow hstep) (hopen.step hstep hfirst)
      (step_bounded hbounded hstep) hrest hlater

/-- An agent in the queue will be offered the budget before four turns for each agent of its
class that is not behind it are completed. -/
theorem Serves.start {l l' : List Waiting} (hw : s.waiting = l ++ w :: l') :
    Serves s.turns (4 * (l.countP (fun v => v.returning == w.returning) + 1)) w.id w.returning s := by
  have hlane : s.lane = (l.map fun v => (v.id, v.returning)) ++ (w.id, w.returning) ::
      l'.map fun v => (v.id, v.returning) := by
    rw [lane, hw, List.map_append, List.map_cons]
  have hcount : countClass w.returning (l.map fun v => (v.id, v.returning)) =
      l.countP fun v => v.returning == w.returning := List.countP_map
  refine ⟨[], (List.append_nil _).symm, .inr ?_⟩
  cases hid : s.offeredId with
  | none =>
    have := slack_le w.returning s.urgentRun
    exact .free _ _ hlane hid (by rw [hcount, List.length_nil]; omega)
  | some k =>
    by_cases hk : k = w.id
    · exact .offered (hk ▸ hid) (Nat.zero_le _)
    · exact .first _ _ k hlane hid hk (by rw [hcount, List.length_nil]; omega)

/-- The two bounds on who has to wait for whom, over any run whose clock does not go back. -/
theorem budget_fair (hr₁ : machine.Run {} tr₁ s) (hr₂ : machine.Run s tr₂ s')
    (hclock : Nondecreasing (tr₁ ++ tr₂)) :
    (∀ id a t₁ t₂ t₃ t₄ b, (∀ e ∈ tr₂, WaitsThrough id e) → s'.turns = a ++ [t₁, t₂, t₃, t₄] ++ b →
      s.turns.length ≤ a.length + 2 → t₁.returning → t₂.returning → t₃.returning → t₄.returning →
      t₄.acquired ∧ t₄.offeredReturning = false) ∧
    ∀ l w l', s.waiting = l ++ w :: l' → (∀ e ∈ tr₂, Steady e) →
      ∃ turns, s'.turns = s.turns ++ turns ∧
        (4 * (l.countP (fun v => v.returning == w.returning) + 1) < turns.length →
          ∃ t ∈ turns.take (4 * (l.countP (fun v => v.returning == w.returning) + 1) + 1),
            t.id = w.id) := by
  refine ⟨fun id a t₁ t₂ t₃ t₄ b hwaits hturns hbase h₁ h₂ h₃ h₄ =>
    four_returning hr₁ hr₂ hwaits hturns hbase h₁ h₂ h₃ h₄, fun l w l' hw hsteady => ?_⟩
  have hchain : ((0 : UInt64) :: (tr₁ ++ tr₂).filterMap fun e => e.input.now).Pairwise (· ≤ ·) :=
    List.pairwise_cons.mpr ⟨fun now _ => UInt64.le_iff_toNat_le.mpr (Nat.zero_le _), hclock⟩
  obtain ⟨u, hopen, hlater⟩ := OfferOpen.run hr₁ (.of_none rfl) hchain
  have hbounded : Bounded s := hr₁.invariant (P := Bounded) (fun _ _ _ _ => step_bounded)
    ⟨List.nodup_nil, Nat.zero_le _⟩
  obtain ⟨turns, hturns, hserved⟩ := (Serves.start hw).run hr₂ hopen hbounded hlater hsteady
  refine ⟨turns, hturns, fun hlt => hserved.resolve_right fun howed => ?_⟩
  have := howed.done_le
  omega

/-- Two returning agents wait behind one that is none; only the first of them acquires. -/
def crowd : List AdviceOp × List AdviceOp :=
  ([.acquire 99 1000 false, .acquire 1 1000 false, .acquire 2 1000 true, .acquire 3 1000 true],
    [.ready 1 3000, .acquire 2 3000 true, .ready 1 5000, .ready 1 10000, .ready 1 15000,
      .ready 1 20000, .ready 1 25000])

/-- Two agents that are not returning ones wait; the first restates itself in its turn. -/
def restating : List AdviceOp × List AdviceOp :=
  ([.acquire 99 1000 false, .acquire 1 1000 false, .acquire 4 1000 false, .acquire 2 1000 true],
    [.ready 1 3000, .ready 1 8000, .ready 1 13000, .ready 1 18000, .acquire 1 18000 true])

/-- Run the two halves of a list of calls. -/
def halves (ops : List AdviceOp × List AdviceOp) : Option ((List (Event LivingAdviceBudget AdviceOp Bool) ×
    LivingAdviceBudget) × List (Event LivingAdviceBudget AdviceOp Bool) × LivingAdviceBudget) := do
  let first ← machine.exec {} ops.1
  let second ← machine.exec first.2 ops.2
  some (first, second)

theorem run_of_halves {ops : List AdviceOp × List AdviceOp} (h : halves ops = some ((tr₁, s), tr₂, s')) :
    machine.Run {} tr₁ s ∧ machine.Run s tr₂ s' := by
  simp only [halves, Option.bind_eq_bind, Option.bind_eq_some_iff, Option.some.injEq] at h
  obtain ⟨_, h₁, _, h₂, heq⟩ := h
  obtain ⟨rfl, rfl⟩ := Prod.mk.inj heq
  exact ⟨Machine.run_of_exec h₁, Machine.run_of_exec h₂⟩

theorem budget_fair_crowd :
    (∃ s s' turns, machine.Reachable s s' ∧ s'.turns = s.turns ++ turns ∧
      turns.map Turn.id = [2, 3, 3, 1, 3] ∧ ∃ t ∈ turns.take 5, t.id = 1) ∧
    ∃ s t, machine.Reachable {} s ∧ s.turns.getLast? = some t ∧
      s.turns.map Turn.returning = [false, true, true, true, true] ∧
      t.acquired ∧ t.offeredReturning = false := by
  constructor
  · have h : (halves crowd).map (fun p => (decide (Nondecreasing (p.1.1 ++ p.2.1)), p.1.2.waiting,
          p.2.1.all (fun e => decide (Steady e)), (p.2.2.turns.drop p.1.2.turns.length).map Turn.id)) =
        some (true, [⟨1, 1000, 1000, false, true⟩, ⟨2, 1000, 1000, true, true⟩,
          ⟨3, 1000, 1000, true, true⟩], true, [2, 3, 3, 1, 3]) := by decide +kernel
    obtain ⟨⟨⟨tr₁, s⟩, tr₂, s'⟩, hexec, h⟩ := Option.map_eq_some_iff.mp h
    simp only [Prod.mk.injEq, decide_eq_true_eq, List.all_eq_true] at h
    obtain ⟨hclock, hwaiting, hsteady, hids⟩ := h
    obtain ⟨hr₁, hr₂⟩ := run_of_halves hexec
    obtain ⟨turns, hturns, hserved⟩ := (budget_fair hr₁ hr₂ hclock).2 [] _ _ hwaiting hsteady
    rw [hturns, List.drop_left] at hids
    have hlength : turns.length = 5 := by rw [← List.length_map Turn.id, hids]; rfl
    exact ⟨s, s', turns, ⟨tr₂, hr₂⟩, hturns, hids, hserved (by rw [hlength]; decide)⟩
  · have h : (halves restating).map (fun p => (decide (Nondecreasing (p.1.1 ++ p.2.1)),
          p.2.1.all (fun e => decide (WaitsThrough 4 e)), p.1.2.turns.length, p.2.2.turns)) =
        some (true, true, 1, [⟨99, false, false, true⟩, ⟨2, true, true, false⟩,
          ⟨2, true, true, false⟩, ⟨2, true, true, false⟩, ⟨1, false, true, true⟩]) := by decide +kernel
    obtain ⟨⟨⟨tr₁, s⟩, tr₂, s'⟩, hexec, h⟩ := Option.map_eq_some_iff.mp h
    simp only [Prod.mk.injEq, decide_eq_true_eq, List.all_eq_true] at h
    obtain ⟨hclock, hwaits, hlength, hturns⟩ := h
    obtain ⟨hr₁, hr₂⟩ := run_of_halves hexec
    have hfourth := (budget_fair hr₁ hr₂ hclock).1 4 [_] _ _ _ _ [] hwaits hturns
      (by rw [hlength]; decide) rfl rfl rfl rfl
    exact ⟨s', _, ⟨_, hr₁.append hr₂⟩, by rw [hturns]; rfl, by rw [hturns]; rfl, hfourth⟩

end LivingAdviceBudget

end AIWorld.Agent
