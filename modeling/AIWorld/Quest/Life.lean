import AIWorld.Quest.Effect

/-! The life of a quest. Every stored instance keeps its counts and its owner in
order, a legal transition only takes it forward, and over a whole run an instance
is what its offer and the accepted calls since then made of it. -/

namespace AIWorld.Quest

open Std Lib DynamicQuestRegistry

/-- What every stored instance satisfies. -/
structure DynamicQuestInstance.Good (q : DynamicQuestInstance) : Prop where
  count : q.progress.toNat = q.consumedProgressEventIds.length
  progress_le : q.progress ≤ q.requiredCount
  nodup : q.consumedProgressEventIds.Nodup
  nonzero : 0 ∉ q.consumedProgressEventIds
  offered : q.state = .offered → q.acceptedByPlayerGuid = {} ∧ q.progress = 0
  owned : q.state = .active ∨ q.state = .completed → q.acceptedByPlayerGuid.isPlayer = true
  completed : q.state = .completed → q.progress = q.requiredCount

/-- An instance at two moments of its life. -/
structure Evolves (q q' : DynamicQuestInstance) : Prop where
  asOffered : q'.asOffered = q.asOffered
  owner : q.acceptedByPlayerGuid ≠ {} → q'.acceptedByPlayerGuid = q.acceptedByPlayerGuid
  consumed : q.consumedProgressEventIds <+: q'.consumedProgressEventIds
  terminal : isTerminal q.state = true → q' = q

variable {r r' : DynamicQuestRegistry} {op : Op} {o : Outcome} {id nowMs : UInt64}
  {q q' : DynamicQuestInstance} {t : Transition}

theorem Evolves.refl (q : DynamicQuestInstance) : Evolves q q :=
  ⟨rfl, fun _ => rfl, List.prefix_rfl, fun _ => rfl⟩

theorem Evolves.trans {s : DynamicQuestInstance} (h : Evolves q q') (h' : Evolves q' s) :
    Evolves q s where
  asOffered := h'.asOffered.trans h.asOffered
  owner hne := by
    have howner := h.owner hne
    rw [h'.owner (howner ▸ hne), howner]
  consumed := h.consumed.trans h'.consumed
  terminal ht := by
    obtain rfl := h.terminal ht
    exact h'.terminal ht

theorem Moves.evolves (hq : q.Good) (h : Moves nowMs q t q') : Evolves q q' := by
  cases h with
  | accept hstate =>
    refine ⟨rfl, fun hne => absurd (hq.offered hstate).1 hne, List.prefix_rfl, fun ht => ?_⟩
    rw [hstate] at ht
    contradiction
  | applyProgress hstate =>
    refine ⟨rfl, fun _ => rfl, List.prefix_append _ _, fun ht => ?_⟩
    rw [hstate] at ht
    contradiction
  | complete hstate | fail hstate =>
    refine ⟨rfl, fun _ => rfl, List.prefix_rfl, fun ht => ?_⟩
    rw [hstate] at ht
    contradiction
  | expire hstate =>
    refine ⟨rfl, fun _ => rfl, List.prefix_rfl, fun ht => ?_⟩
    rw [hstate] at ht
    contradiction

/-- Counting one more below the required count does not wrap. -/
theorem succ_toNat {n m : UInt32} (h : n < m) : (n + 1).toNat = n.toNat + 1 := by
  rw [UInt32.toNat_add]
  have hlt : n.toNat < m.toNat := h
  have hm := m.toNat_lt
  exact Nat.mod_eq_of_lt (by simp only [UInt32.toNat_one]; omega)

theorem Moves.good (hq : q.Good) (h : Moves nowMs q t q') : q'.Good := by
  cases h with
  | accept hstate hplayer =>
    exact { hq with offered := nofun, owned := fun _ => hplayer, completed := nofun }
  | @applyProgress event hstate _ hevent hnew hlt =>
    have hadd := succ_toNat hlt
    refine ⟨?_, ?_, ?_, ?_, fun h => ?_, fun _ => hq.owned (.inl hstate), fun h => ?_⟩
    · rw [hadd, hq.count, List.length_append]
      rfl
    · rw [UInt32.le_iff_toNat_le, hadd]
      exact hlt
    · rw [List.nodup_append]
      exact ⟨hq.nodup, List.nodup_singleton _, fun x hx y hy hxy =>
        hnew (List.mem_singleton.mp hy ▸ hxy ▸ hx)⟩
    · rw [List.mem_append, List.mem_singleton, not_or]
      exact ⟨hq.nonzero, hevent.symm⟩
    · rw [hstate] at h
      contradiction
    · rw [hstate] at h
      contradiction
  | complete hstate _ hdone =>
    exact { hq with
      offered := nofun
      owned := fun _ => hq.owned (.inl hstate)
      completed := fun _ => UInt32.le_antisymm hq.progress_le hdone }
  | fail => exact { hq with offered := nofun, owned := nofun, completed := nofun }
  | expire => exact { hq with offered := nofun, owned := nofun, completed := nofun }

theorem good_asOffered (q : DynamicQuestInstance) : q.asOffered.Good where
  count := rfl
  progress_le := UInt32.zero_le
  nodup := List.nodup_nil
  nonzero := List.not_mem_nil
  offered _ := ⟨rfl, rfl⟩
  owned := fun h => absurd h (by simp [DynamicQuestInstance.asOffered])
  completed := nofun

theorem good_of_offer {proposal : QuestProposal} {location : WorldEventLocation}
    (h : offerDynamicQuest id proposal location nowMs = accepted q) : q.Good := by
  rw [← (offerDynamicQuest_accepted h).2.2]
  exact good_asOffered q

/-- Every stored instance is in order and stored under its own id. -/
structure Inv (r : DynamicQuestRegistry) : Prop where
  id : ∀ (k : UInt64) (q : DynamicQuestInstance), r.quests[k]? = some q → q.id = k
  good : ∀ (k : UInt64) (q : DynamicQuestInstance), r.quests[k]? = some q → q.Good

theorem inv_empty : Inv {} := by constructor <;> simp

theorem Effect.inv (h : Inv r) (he : Effect r op o r') : Inv r' := by
  have hentry (k : UInt64) (q' : DynamicQuestInstance) (hq' : r'.quests[k]? = some q') :
      q'.id = k ∧ q'.Good := by
    have hc := he.change k
    rw [hq'] at hc
    generalize hq : r.quests[k]? = x at hc
    cases hc with
    | kept => exact ⟨h.id k q' hq, h.good k q' hq⟩
    | @moved _ _ q _ _ _ hmove =>
      have hgood := h.good k q hq
      have hoffered := congrArg DynamicQuestInstance.id (hmove.evolves hgood).asOffered
      have hid : q'.id = q.id := hoffered
      exact ⟨hid.trans (h.id k _ hq), hmove.good hgood⟩
    | offered _ _ _ hoffer => exact ⟨(offerDynamicQuest_accepted hoffer).1, good_of_offer hoffer⟩
  exact ⟨fun k q hq => (hentry k q hq).1, fun k q hq => (hentry k q hq).2⟩

theorem effect_of_step (hstep : machine.step r op = some (o, r')) : Effect r op o r' := by
  have he := step_effect r op
  rw [Option.some.inj hstep] at he
  exact he

theorem machine_inv (r : DynamicQuestRegistry) (op : Op) (o : Outcome) (r' : DynamicQuestRegistry)
    (h : Inv r) (hstep : machine.step r op = some (o, r')) : Inv r' := (effect_of_step hstep).inv h

/-! ### Runs -/

/-- A stored instance that no call removed has only gone forward. -/
theorem run_evolves (h : Inv r) {tr : List (Event DynamicQuestRegistry Op Outcome)}
    (hrun : machine.Run r tr r') (hq : r.quests[id]? = some q)
    (hstays : ∀ e ∈ tr, ¬ e.input.Removes id) :
    ∃ q', r'.quests[id]? = some q' ∧ Evolves q q' := by
  induction hrun generalizing q with
  | nil => exact ⟨q, hq, Evolves.refl q⟩
  | @cons s m s' op o tr hstep _ ih =>
    have hgone : ¬ op.Removes id := hstays _ List.mem_cons_self
    have he := effect_of_step hstep
    have hc := he.change id
    rw [hq] at hc
    obtain ⟨q₁, hq₁, hev⟩ : ∃ q₁, m.quests[id]? = some q₁ ∧ Evolves q q₁ := by
      generalize hm : m.quests[id]? = x at hc
      cases hc with
      | kept => exact ⟨q, rfl, Evolves.refl q⟩
      | moved _ _ hmove => exact ⟨_, rfl, hmove.evolves (h.good id q hq)⟩
      | removed hop => exact absurd hop hgone
    obtain ⟨q', hq', hev'⟩ :=
      ih (he.inv h) hq₁ fun e he => hstays e (List.mem_cons_of_mem _ he)
    exact ⟨q', hq', hev.trans hev'⟩

/-- The event that offered an instance under an id. -/
def Offers (id : UInt64) (q : DynamicQuestInstance)
    (e : Event DynamicQuestRegistry Op Outcome) : Prop :=
  ∃ proposal location nowMs, e.input = .offer id proposal location nowMs ∧
    e.output = .transition (accepted q) ∧
    offerDynamicQuest id proposal location nowMs = accepted q

/-- A stored instance was there from the start or was offered on the way. -/
theorem run_origin (h : Inv r) {tr : List (Event DynamicQuestRegistry Op Outcome)}
    (hrun : machine.Run r tr r') (hq' : r'.quests[id]? = some q') :
    ((∃ q, r.quests[id]? = some q ∧ Evolves q q') ∧ ∀ e ∈ tr, ¬ e.input.Removes id) ∨
      ∃ tr₁ e tr₂ q, tr = tr₁ ++ e :: tr₂ ∧ Offers id q e ∧ Evolves q q' ∧
        ∀ e' ∈ tr₂, ¬ e'.input.Removes id := by
  induction hrun with
  | nil => exact .inl ⟨⟨q', hq', Evolves.refl q'⟩, by simp⟩
  | @cons s m s' op o tr hstep _ ih =>
    have he := effect_of_step hstep
    rcases ih (he.inv h) hq' with ⟨⟨q₁, hq₁, hev⟩, hstays⟩ | ⟨tr₁, e, tr₂, q, rfl, hoffers, hev, hstays⟩
    · have hc := he.change id
      rw [hq₁] at hc
      generalize hs : s.quests[id]? = x at hc
      cases hc with
      | kept hop => exact .inl ⟨⟨q₁, rfl, hev⟩, List.forall_mem_cons.mpr ⟨hop, hstays⟩⟩
      | moved hop _ hmove =>
        exact .inl ⟨⟨_, rfl, (hmove.evolves (h.good id _ hs)).trans hev⟩,
          List.forall_mem_cons.mpr ⟨hop, hstays⟩⟩
      | offered hop ho _ hoffer =>
        exact .inr ⟨[], _, tr, q₁, rfl, ⟨_, _, _, hop, ho, hoffer⟩, hev, hstays⟩
    · exact .inr ⟨_ :: tr₁, e, tr₂, q, rfl, hoffers, hev, hstays⟩

/-! ### The contract -/

/-- An accepted call that credits an event to an instance. -/
def Credits (id event : UInt64) (e : Event DynamicQuestRegistry Op Outcome) : Prop :=
  (∃ playerGuid nowMs, e.input = .applyProgress id playerGuid event nowMs) ∧
    ∃ q, e.output = .transition (accepted q)

theorem Effect.accepted_moves {t : Transition} (he : Effect r op (.transition (accepted q')) r')
    (hop : op.transition? = some (id, t, nowMs)) :
    ∃ q, r.quests[id]? = some q ∧ Moves nowMs q t q' ∧ r'.quests[id]? = some q' := by
  cases he with
  | rejected ho => contradiction
  | offered => contradiction
  | moved hop' hq hmove =>
    rw [hop', Option.some.injEq, Prod.mk.injEq, Prod.mk.injEq] at hop
    obtain ⟨rfl, rfl, rfl⟩ := hop
    exact ⟨_, hq, hmove, ExtTreeMap.getElem?_insert_self⟩

/-- A credited event is new to its instance and is remembered by it. -/
theorem credits_moves {event : UInt64} {e : Event DynamicQuestRegistry Op Outcome}
    (he : Effect e.pre e.input e.output e.post) (hc : Credits id event e) :
    (∃ q, e.pre.quests[id]? = some q ∧ event ∉ q.consumedProgressEventIds) ∧
      ∃ q, e.post.quests[id]? = some q ∧ event ∈ q.consumedProgressEventIds := by
  obtain ⟨⟨playerGuid, nowMs, hop⟩, q', ho⟩ := hc
  rw [hop, ho] at he
  obtain ⟨q, hq, hmove, hq'⟩ := he.accepted_moves rfl
  cases hmove with
  | applyProgress _ _ _ hnew => exact ⟨⟨q, hq, hnew⟩, _, hq', by simp⟩

theorem credited_once {tr₁ tr₂ tr₃ : List (Event DynamicQuestRegistry Op Outcome)}
    {e e' : Event DynamicQuestRegistry Op Outcome} {event : UInt64}
    (hrun : machine.Run {} (tr₁ ++ e :: tr₂ ++ e' :: tr₃) r) (hc : Credits id event e)
    (hc' : Credits id event e') : ∃ e'' ∈ tr₂, e''.input.Removes id := by
  by_contra hno
  simp only [not_exists, not_and] at hno
  obtain ⟨hrun₂, hstep', -⟩ := hrun.split_cons
  obtain ⟨hrun₁, hstep, hrun₂⟩ := hrun₂.split_cons
  obtain ⟨-, q, hq, hmem⟩ := credits_moves (effect_of_step hstep) hc
  obtain ⟨⟨q', hq', hnew⟩, -⟩ := credits_moves (effect_of_step hstep') hc'
  have hinv := (effect_of_step hstep).inv (hrun₁.invariant machine_inv inv_empty)
  obtain ⟨q'', hq'', hev⟩ := run_evolves hinv hrun₂ hq hno
  rw [hq', Option.some.injEq] at hq''
  subst hq''
  exact hnew (hev.consumed.subset hmem)

theorem Effect.unchanged (he : Effect r op o r') (ho : o.Rejected) : r' = r := by
  cases he with
  | rejected => rfl
  | offered | moved => exact absurd ho (by simp [Outcome.Rejected, accepted_isAccepted])
  | failed hne => exact absurd ho hne
  | removed => contradiction
  | terminated _ _ hremoved =>
    rw [Outcome.Rejected, hremoved] at ho
    exact absurd ho.2 (by decide)

/-- Past its deadline an instance makes no move but to expire. -/
theorem Moves.expires (hmove : Moves nowMs q t q') (hexpired : q.expiresAtMs ≤ nowMs) :
    t = .expire := by
  have hdue : isDynamicQuestExpired q nowMs = true := decide_eq_true hexpired
  cases hmove with
  | accept _ _ hlive => simp [hdue] at hlive
  | applyProgress _ hlive => simp [hdue] at hlive
  | complete _ hlive => simp [hdue] at hlive
  | fail _ hlive => simp [hdue] at hlive
  | expire => rfl

theorem failing_of_expired (hexpired : q.expiresAtMs ≤ nowMs) : q.failing nowMs = none := by
  cases hf : q.failing nowMs with
  | none => rfl
  | some q' =>
    obtain ⟨hstate, hlive, rfl⟩ := failing_eq_some hf
    have := (Moves.fail hstate hlive).expires hexpired
    contradiction

theorem Effect.stays_of_expired (he : Effect r op o r') (hq : r.quests[id]? = some q)
    (hop : op.AsksFor id t nowMs) (hexpired : q.expiresAtMs ≤ nowMs) (ht : t ≠ .expire) :
    r'.quests[id]? = some q ∧ ∀ result, o = .transition result → result.isAccepted = false := by
  cases he with
  | rejected ho =>
    refine ⟨hq, fun result ho' => ?_⟩
    subst ho'
    exact ho
  | offered | removed | terminated => rcases hop with hop | ⟨hop, -⟩ <;> contradiction
  | moved hop' hq' hmove =>
    rcases hop with hop | ⟨rfl, -⟩
    · rw [hop', Option.some.injEq, Prod.mk.injEq, Prod.mk.injEq] at hop
      obtain ⟨rfl, rfl, rfl⟩ := hop
      rw [hq, Option.some.injEq] at hq'
      subst hq'
      exact absurd (hmove.expires hexpired) ht
    · contradiction
  | failed =>
    rcases hop with hop | ⟨hop, -⟩
    · contradiction
    · cases hop
      refine ⟨?_, fun result ho => by contradiction⟩
      rw [failAll, ExtTreeMap.getElem?_map, hq, Option.map_some, failing_of_expired hexpired]
      rfl

theorem Effect.terminated_of_expired {result : DynamicQuestTerminationResult}
    (he : Effect r (.terminateForReplayContainment id nowMs) (.terminated result) r')
    (hq : r.quests[id]? = some q) (hexpired : q.expiresAtMs ≤ nowMs) :
    result.failedInstance = none := by
  cases he with
  | rejected ho => exact ho.1
  | terminated hq' hfailed =>
    rw [hq, Option.some.injEq] at hq'
    subst hq'
    rw [hfailed, failing_of_expired hexpired]

/-- The quest lifecycle, for every run of an empty registry. -/
theorem quest_lifecycle {tr : List (Event DynamicQuestRegistry Op Outcome)}
    (hrun : machine.Run {} tr r) :
    (∀ (id : UInt64) (q : DynamicQuestInstance), r.quests[id]? = some q → q.Good ∧
      (∃ tr₁ e tr₂, tr = tr₁ ++ e :: tr₂ ∧ Offers id q.asOffered e ∧
        ∀ e' ∈ tr₂, ¬ e'.input.Removes id) ∧
      (∀ tr' r', machine.Run r tr' r' → (∀ e ∈ tr', ¬ e.input.Removes id) →
        ∃ q', r'.quests[id]? = some q' ∧ q'.asOffered = q.asOffered ∧
          (q.acceptedByPlayerGuid ≠ {} → q'.acceptedByPlayerGuid = q.acceptedByPlayerGuid) ∧
          (isTerminal q.state = true → q' = q)) ∧
      (∀ op t nowMs, op.AsksFor id t nowMs → q.expiresAtMs ≤ nowMs → t ≠ .expire →
        (step r op).2.quests[id]? = some q ∧
          ∀ result, (step r op).1 = .transition result → result.isAccepted = false) ∧
      ∀ nowMs result, q.expiresAtMs ≤ nowMs →
        (step r (.terminateForReplayContainment id nowMs)).1 = .terminated result →
        result.failedInstance = none) ∧
    (∀ tr₁ e tr₂ e' tr₃ id event, tr = tr₁ ++ e :: tr₂ ++ e' :: tr₃ → Credits id event e →
      Credits id event e' → ∃ e'' ∈ tr₂, e''.input.Removes id) ∧
    (∀ op, (step r op).1.Rejected → (step r op).2 = r) := by
  have h := hrun.invariant machine_inv inv_empty
  refine ⟨fun id q hq => ⟨h.good id q hq, ?_, ?_, ?_, ?_⟩, ?_, ?_⟩
  · rcases run_origin inv_empty hrun hq with ⟨⟨q₀, hq₀, -⟩, -⟩ | ⟨tr₁, e, tr₂, q₀, htr, ho, hev, hstays⟩
    · simp at hq₀
    · obtain ⟨proposal, location, nowMs, hop, hout, hoffer⟩ := ho
      have hsame : q.asOffered = q₀ := hev.asOffered.trans (offerDynamicQuest_accepted hoffer).2.2
      rw [hsame]
      exact ⟨tr₁, e, tr₂, htr, ⟨proposal, location, nowMs, hop, hout, hoffer⟩, hstays⟩
  · intro tr' r' hrun' hstays
    obtain ⟨q', hq', hev⟩ := run_evolves h hrun' hq hstays
    exact ⟨q', hq', hev.asOffered, hev.owner, hev.terminal⟩
  · exact fun op t nowMs hop hexpired ht => (step_effect r op).stays_of_expired hq hop hexpired ht
  · intro nowMs result hexpired ho
    have he := step_effect r (.terminateForReplayContainment id nowMs)
    rw [ho] at he
    exact he.terminated_of_expired hq hexpired
  · rintro tr₁ e tr₂ e' tr₃ id event rfl hc hc'
    exact credited_once hrun hc hc'
  · exact fun op ho => (step_effect r op).unchanged ho

/-- One quest from its offer to its turn-in. -/
def smallLife : List Op :=
  [.offer 5 { giver := 9, requiredCount := 1, expiryMs := 1000 } {} 10, .accept 5 ⟨77⟩ 20,
    .applyProgress 5 ⟨77⟩ 42 30, .complete 5 40]

theorem smallLife_run : ∃ tr r, machine.Run {} tr r ∧
    (r.quests[(5 : UInt64)]?).map DynamicQuestInstance.state = some .completed := by
  have h : ((machine.exec {} smallLife).bind fun p =>
      (p.2.quests[(5 : UInt64)]?).map DynamicQuestInstance.state) = some .completed := by
    decide +kernel
  obtain ⟨⟨tr, r⟩, hrun, hstate⟩ := Option.bind_eq_some_iff.mp h
  exact ⟨tr, r, Machine.run_of_exec hrun, hstate⟩

theorem quest_lifecycle_smallLife : ∃ (r : DynamicQuestRegistry) (q : DynamicQuestInstance),
    r.quests[(5 : UInt64)]? = some q ∧ q.state = .completed ∧ q.Good := by
  obtain ⟨tr, r, hrun, hstate⟩ := smallLife_run
  obtain ⟨q, hq, hcompleted⟩ := Option.map_eq_some_iff.mp hstate
  exact ⟨r, q, hq, hcompleted, ((quest_lifecycle hrun).1 5 q hq).1⟩

end AIWorld.Quest
