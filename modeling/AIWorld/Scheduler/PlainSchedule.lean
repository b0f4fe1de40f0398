import AIWorld.Scheduler.Slots

/-! The schedule without a queue: a map from agents to their times. Who is due is found
by looking at the whole map, in the order of the due times and, where these are equal,
of the ids. This says what the scheduler is for. -/

namespace AIWorld.Scheduler

open Std (ExtTreeMap)
open Lib

/-- A due time and the agent that it is for. -/
abbrev Due := UInt64 × UInt64

/-- The earlier time goes first, and of equal times the lower id. -/
def Due.Before (a b : Due) : Prop := a.1 < b.1 ∨ a.1 = b.1 ∧ a.2 ≤ b.2

instance : DecidableRel Due.Before := fun _ _ => inferInstanceAs (Decidable (_ ∨ _ ∧ _))

theorem Due.Before.total (a b : Due) : a.Before b ∨ b.Before a := by
  rcases lt_trichotomy a.1 b.1 with h | h | h
  · exact .inl (.inl h)
  · exact (le_total a.2 b.2).imp (fun hle => .inr ⟨h, hle⟩) fun hle => .inr ⟨h.symm, hle⟩
  · exact .inr (.inl h)

theorem Due.Before.trans {a b c : Due} (hab : a.Before b) (hbc : b.Before c) : a.Before c := by
  rcases hab with hab | ⟨hab, hab'⟩ <;> rcases hbc with hbc | ⟨hbc, hbc'⟩
  · exact .inl (lt_trans hab hbc)
  · exact .inl (hbc ▸ hab)
  · exact .inl (hab ▸ hbc)
  · exact .inr ⟨hab.trans hbc, le_trans hab' hbc'⟩

theorem Due.Before.antisymm {a b : Due} (hab : a.Before b) (hba : b.Before a) : a = b := by
  rcases hab with hab | ⟨hab, hab'⟩ <;> rcases hba with hba | ⟨hba, hba'⟩
  · exact absurd hba (lt_asymm hab)
  · exact absurd hab (hba ▸ lt_irrefl _)
  · exact absurd hba (hab ▸ lt_irrefl _)
  · exact Prod.ext hab (le_antisymm hab' hba')

instance : Std.Total Due.Before := ⟨Due.Before.total⟩

instance : IsTrans Due Due.Before := ⟨fun _ _ _ => Due.Before.trans⟩

/-! ### Refreshes -/

/-- The times of an agent after a refresh; `next` is the first time of its new phase. -/
def Slot.sync (old : Option Slot) (sameInterval : Prop) [Decidable sameInterval]
    (nowMs next : UInt64) : Slot :=
  match old with
  | none => ⟨nowMs, next, next⟩
  | some old =>
    if nowMs ≥ old.lastMs then
      if sameInterval then old
      else if old.nextMs < old.periodicNextMs then ⟨old.lastMs, min next old.nextMs, next⟩
      else ⟨old.lastMs, next, next⟩
    else ⟨nowMs, next, next⟩

theorem State.sync_toSlot (old : Option State) (sameInterval : Prop) [Decidable sameInterval]
    (nowMs next : UInt64) : (State.sync old sameInterval nowMs next).toSlot =
      Slot.sync (old.map State.toSlot) sameInterval nowMs next := by
  cases old with
  | none => rfl
  | some old =>
    simp only [State.sync, Slot.sync, Option.map_some]
    split_ifs <;> rfl

theorem toNat_firstTime {nowMs : UInt64} {intervalMs : UInt32} (id salt : UInt64)
    (hpos : 0 < intervalMs) (hbelow : nowMs.toNat + intervalMs.toNat < 2 ^ 64) :
    nowMs.toNat < (firstTime id nowMs intervalMs salt).toNat ∧
      (firstTime id nowMs intervalMs salt).toNat ≤ nowMs.toNat + intervalMs.toNat := by
  have hposN : 0 < intervalMs.toNat := UInt32.lt_iff_toNat_lt.mp hpos
  have hmod : (stableAgentHash (id ^^^ salt) % intervalMs.toUInt64).toNat < intervalMs.toNat := by
    rw [UInt64.toNat_mod, UInt32.toNat_toUInt64]
    exact Nat.mod_lt _ hposN
  have hdelay : (1 + stableAgentHash (id ^^^ salt) % intervalMs.toUInt64).toNat =
      1 + (stableAgentHash (id ^^^ salt) % intervalMs.toUInt64).toNat :=
    toNat_add_of_lt (by rw [UInt64.toNat_one]; omega)
  rw [firstTime, toNat_addTime (by omega), hdelay]
  omega

/-- A refresh keeps the last pass of an agent and an early pass it asked for. -/
theorem Slot.Good.sync {old : Option Slot} {clock nowMs next : UInt64} {intervalMs oldIntervalMs : UInt32}
    (hold : ∀ slot, old = some slot → slot.Good clock oldIntervalMs) (hclock : clock ≤ nowMs)
    (hafter : nowMs < next) (hreach : next.toNat ≤ nowMs.toNat + intervalMs.toNat) :
    (Slot.sync old (intervalMs = oldIntervalMs) nowMs next).Good nowMs intervalMs := by
  have hnew : (⟨nowMs, next, next⟩ : Slot).Good nowMs intervalMs :=
    ⟨hafter, le_rfl, le_rfl, hreach, .inl rfl⟩
  unfold Slot.sync
  cases old with
  | none => exact hnew
  | some slot =>
    have hgood := (hold slot rfl).later hclock
    simp only
    split_ifs with hlast hsame hearly
    · exact hsame ▸ hgood
    · have hdue : slot.nextMs ≤ nowMs := hgood.early.resolve_left hearly.ne
      have hmin : min next slot.nextMs = slot.nextMs := min_eq_right (hdue.trans hafter.le)
      rw [hmin]
      exact ⟨hgood.last_lt, hdue.trans hafter.le, hlast, hreach, .inr hdue⟩
    · exact ⟨lt_of_le_of_lt hlast hafter, le_rfl, hlast, hreach, .inl rfl⟩
    · exact hnew

structure PlainSchedule where
  slots : ExtTreeMap UInt64 Slot := ∅
  intervalMs : UInt32 := 1

namespace PlainSchedule

/-- The next time of every agent. -/
def dues (p : PlainSchedule) : List Due := p.slots.toList.map fun a => (a.2.nextMs, a.1)

/-- The due agents in their order. -/
def inOrder (p : PlainSchedule) (nowMs : UInt64) : List Due :=
  (p.dues.filter fun d => d.1 ≤ nowMs).insertionSort Due.Before

/-- Exactly the listed agents are registered. -/
def sync (p : PlainSchedule) (agents : List UInt64) (nowMs : UInt64) (intervalMs : UInt32)
    (salt : UInt64) : PlainSchedule where
  slots := (agents.filter fun id => id ≠ 0).foldl (fun slots id =>
    slots.insert id (Slot.sync p.slots[id]? (max 1 intervalMs = p.intervalMs) nowMs
      (firstTime id nowMs (max 1 intervalMs) salt))) ∅
  intervalMs := max 1 intervalMs

def wake (p : PlainSchedule) (id nowMs : UInt64) : Bool × PlainSchedule :=
  match p.slots[id]? with
  | none => (false, p)
  | some slot =>
    if slot.lastMs < nowMs ∧ nowMs < slot.nextMs then
      (true, { p with slots := p.slots.insert id { slot with nextMs := nowMs } })
    else (false, p)

/-- One pass of one agent. -/
def advance (p : PlainSchedule) (id nowMs : UInt64) : Option (Update × PlainSchedule) := do
  let slot ← p.slots[id]?
  let (elapsedMs, lateMs, slot) ← slot.advance p.intervalMs nowMs
  some ({ agent := id, elapsedMs, lateMs }, { p with slots := p.slots.insert id slot })

def popDue (p : PlainSchedule) (nowMs : UInt64) : Option (Option Update × PlainSchedule) :=
  match (p.inOrder nowMs).head? with
  | none => some (none, p)
  | some d => (p.advance d.2 nowMs).map fun (update, p) => (some update, p)

def popDueAgent (p : PlainSchedule) (id nowMs : UInt64) :
    Option (Option Update × PlainSchedule) :=
  match p.slots[id]? with
  | none => some (none, p)
  | some slot =>
    if slot.nextMs ≤ nowMs ∧ slot.lastMs < nowMs then
      (p.advance id nowMs).map fun (update, p) => (some update, p)
    else some (none, p)

def step (p : PlainSchedule) : Op → Option (Outcome × PlainSchedule)
  | .sync agents nowMs intervalMs salt => some (.synced, p.sync agents nowMs intervalMs salt)
  | .wake id nowMs => let (woken, p) := p.wake id nowMs; some (.woken woken, p)
  | .popDue nowMs => (p.popDue nowMs).map fun (update, p) => (.popped update, p)
  | .dueAgents nowMs limit => some (.due (((p.inOrder nowMs).take limit).map Prod.snd), p)
  | .popDueAgent id nowMs => (p.popDueAgent id nowMs).map fun (update, p) => (.popped update, p)
  | .oldestLateMs nowMs =>
    some (.late (((p.inOrder nowMs).head?.map fun d => nowMs - d.1).getD 0), p)

def machine : Machine PlainSchedule Op Outcome := ⟨step⟩

/-- What there is after a refresh. -/
theorem sync_slot (p : PlainSchedule) (agents : List UInt64) (nowMs : UInt64)
    (intervalMs : UInt32) (salt id : UInt64) :
    (p.sync agents nowMs intervalMs salt).slots[id]? = if id ≠ 0 ∧ id ∈ agents then
      some (Slot.sync p.slots[id]? (max 1 intervalMs = p.intervalMs) nowMs
        (firstTime id nowMs (max 1 intervalMs) salt)) else none := by
  have hfold (f : UInt64 → Slot) (ids : List UInt64) (m : ExtTreeMap UInt64 Slot) :
      (ids.foldl (fun slots id => slots.insert id (f id)) m)[id]? =
        if id ∈ ids then some (f id) else m[id]? := by
    induction ids generalizing m with
    | nil => simp
    | cons a ids ih =>
      rw [List.foldl_cons, ih, OrdMap.getElem?_insert]
      by_cases ha : a = id
      · simp [ha]
      · simp [ha, Ne.symm ha]
  rw [sync, hfold]
  simp only [List.mem_filter, ne_eq, decide_not, Bool.not_eq_eq_eq_not, Bool.not_true,
    decide_eq_false_iff_not, ExtTreeMap.getElem?_empty]
  exact if_congr and_comm rfl rfl

/-! ### Who is due -/

variable {p : PlainSchedule} {nowMs : UInt64}

theorem mem_dues {d : Due} : d ∈ p.dues ↔ ∃ slot, p.slots[d.2]? = some slot ∧ slot.nextMs = d.1 := by
  rw [dues, List.mem_map]
  constructor
  · rintro ⟨⟨id, slot⟩, hmem, rfl⟩
    exact ⟨slot, ExtTreeMap.mem_toList_iff_getElem?_eq_some.mp hmem, rfl⟩
  · rintro ⟨slot, hslot, hd⟩
    exact ⟨(d.2, slot), ExtTreeMap.mem_toList_iff_getElem?_eq_some.mpr hslot, Prod.ext hd rfl⟩

theorem dues_nodup (p : PlainSchedule) : (p.dues.map Prod.snd).Nodup := by
  have hkeys : p.dues.map Prod.snd = p.slots.keys := by
    rw [dues, List.map_map]
    exact ExtTreeMap.map_fst_toList_eq_keys
  rw [hkeys]
  exact OrdMap.nodup_keys p.slots

theorem inOrder_pairwise (p : PlainSchedule) (nowMs : UInt64) :
    (p.inOrder nowMs).Pairwise Due.Before := List.pairwise_insertionSort _ _

theorem inOrder_perm (p : PlainSchedule) (nowMs : UInt64) :
    (p.inOrder nowMs).Perm (p.dues.filter fun d => d.1 ≤ nowMs) := List.perm_insertionSort _ _

/-- The due agents are the registered ones whose time has come. -/
theorem mem_inOrder {d : Due} : d ∈ p.inOrder nowMs ↔
    (∃ slot, p.slots[d.2]? = some slot ∧ slot.nextMs = d.1) ∧ d.1 ≤ nowMs := by
  rw [(p.inOrder_perm nowMs).mem_iff, List.mem_filter, mem_dues, decide_eq_true_eq]

/-- Nobody is due twice. -/
theorem inOrder_nodup (p : PlainSchedule) (nowMs : UInt64) :
    ((p.inOrder nowMs).map Prod.snd).Nodup := by
  refine (((p.inOrder_perm nowMs).map Prod.snd).nodup_iff).mpr ?_
  exact p.dues_nodup.sublist (List.filter_sublist.map Prod.snd)

theorem advance_spec {id : UInt64} {u : Update} {p' : PlainSchedule}
    (h : p.advance id nowMs = some (u, p')) : ∃ slot next, p.slots[id]? = some slot ∧
      slot.advance p.intervalMs nowMs = some (u.elapsedMs, u.lateMs, next) ∧ u.agent = id ∧
      p' = { p with slots := p.slots.insert id next } := by
  obtain ⟨slot, hslot, h⟩ := Option.bind_eq_some_iff.mp h
  obtain ⟨⟨elapsedMs, lateMs, next⟩, hadvance, h⟩ := Option.bind_eq_some_iff.mp h
  cases h
  exact ⟨slot, next, hslot, hadvance, rfl, rfl⟩

/-- A pop takes the first due agent, or there is none. -/
theorem popDue_spec {update : Option Update} {p' : PlainSchedule}
    (h : p.popDue nowMs = some (update, p')) :
    update = none ∧ (∀ (id : UInt64) (slot : Slot), p.slots[id]? = some slot → nowMs < slot.nextMs) ∨
    ∃ u slot, update = some u ∧ p.slots[u.agent]? = some slot ∧ slot.nextMs ≤ nowMs ∧
      ∀ (id : UInt64) (slot' : Slot), p.slots[id]? = some slot' → slot'.nextMs ≤ nowMs →
        Due.Before (slot.nextMs, u.agent) (slot'.nextMs, id) := by
  unfold popDue at h
  cases horder : p.inOrder nowMs with
  | nil =>
    rw [horder] at h
    cases h
    refine .inl ⟨rfl, fun id slot hslot => lt_of_not_ge fun hle => ?_⟩
    have hmem : (slot.nextMs, id) ∈ p.inOrder nowMs := mem_inOrder.mpr ⟨⟨slot, hslot, rfl⟩, hle⟩
    rw [horder] at hmem
    contradiction
  | cons d ds =>
    rw [horder] at h
    obtain ⟨⟨u, p''⟩, hadvance, hp⟩ := Option.map_eq_some_iff.mp h
    obtain ⟨⟨slot, hslot, hnext⟩, hdue⟩ := mem_inOrder.mp (horder ▸ List.mem_cons_self : d ∈ p.inOrder nowMs)
    obtain ⟨_, _, _, _, hu, _⟩ := advance_spec hadvance
    have hsorted := horder ▸ p.inOrder_pairwise nowMs
    refine .inr ⟨u, slot, (congrArg Prod.fst hp).symm, hu ▸ hslot, hnext.le.trans hdue, ?_⟩
    intro id slot' hslot' hle
    have hmem : (slot'.nextMs, id) ∈ d :: ds := horder ▸ mem_inOrder.mpr ⟨⟨slot', hslot', rfl⟩, hle⟩
    rw [hu, hnext]
    rcases List.mem_cons.mp hmem with heq | hin
    · rw [heq]
      exact .inr ⟨rfl, le_rfl⟩
    · exact (List.pairwise_cons.mp hsorted).1 _ hin

end PlainSchedule

end AIWorld.Scheduler
