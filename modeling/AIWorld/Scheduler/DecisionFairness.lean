import AIWorld.Scheduler.DecisionScheduler
import Mathlib.Data.Finset.Card

/-! Admission is in order and no agent starves: whoever is skipped keeps its place, and whoever
is admitted goes behind it. -/

namespace AIWorld.Scheduler

open Std (ExtTreeMap)
open Lib.Ranking

/-! ### Selection -/

/-- The agents of `due` in order, cut off where the capacity ends. -/
def SelectionResult.InOrder {α : Type*} (outranks : α → α → Bool) (agentOf : α → UInt64)
    (due : List α) (maxAdmit : UInt32) (result : SelectionResult) : Prop :=
  ∃ sorted : List α, sorted.Perm due ∧ (sorted.Pairwise fun a b => outranks b a = false) ∧
    result.admitted ++ result.skippedCapacity = sorted.map agentOf ∧
    result.admitted.length = min due.length maxAdmit.toNat

namespace DecisionScheduler

variable {state : ExtTreeMap UInt64 DecisionScheduleState} {candidates candidates' : List Candidate}
  {nowMs : UInt64} {maxAdmit nearbyIntervalMs activeIntervalMs : UInt32}

theorem inOrder_selectDue (state : ExtTreeMap UInt64 DecisionScheduleState)
    (candidates : List Candidate) (nowMs : UInt64)
    (maxAdmit nearbyIntervalMs activeIntervalMs : UInt32) :
    (selectDue state candidates nowMs maxAdmit nearbyIntervalMs activeIntervalMs).InOrder
      (outranks state nearbyIntervalMs activeIntervalMs) Candidate.agent
      (candidates.filter (isDue state nowMs nearbyIntervalMs activeIntervalMs)) maxAdmit := by
  refine ⟨_, perm_ranked _ _, (strict_outranks _ _ _).pairwise_ranked _, ?_, ?_⟩
  · rw [selectDue, ← List.map_append, List.take_append_drop]
  · rw [selectDue, List.length_map, List.length_take, (perm_ranked _ _).length_eq]
    omega

theorem selectDue_eq_of_perm (hperm : candidates.Perm candidates') :
    selectDue state candidates nowMs maxAdmit nearbyIntervalMs activeIntervalMs =
      selectDue state candidates' nowMs maxAdmit nearbyIntervalMs activeIntervalMs := by
  unfold selectDue
  dsimp only
  rw [(strict_outranks _ _ _).ranked_eq_of_perm (hperm.filter _)]

theorem admitted_selectDue :
    (selectDue state candidates nowMs maxAdmit nearbyIntervalMs activeIntervalMs).admitted =
      ((ranked (outranks state nearbyIntervalMs activeIntervalMs) (candidates.filter
        (isDue state nowMs nearbyIntervalMs activeIntervalMs))).take maxAdmit.toNat).map
          Candidate.agent := by
  rw [selectDue, min_comm, ← List.take_eq_take_min]

end DecisionScheduler

namespace CoarseSimulationScheduler

theorem inOrder_selectDue (state : ExtTreeMap UInt64 SimulationScheduleState)
    (candidates : List UInt64) (nowMs : UInt64) (maxAdmit : UInt32) :
    (selectDue state candidates nowMs maxAdmit).InOrder (outranks state) id
      (candidates.filter fun agent => nextTickAtMs state agent ≤ nowMs) maxAdmit := by
  refine ⟨_, perm_ranked _ _, (strict_outranks _).pairwise_ranked _, ?_, ?_⟩
  · rw [selectDue, List.map_id, List.take_append_drop]
  · rw [selectDue, List.length_take, (perm_ranked _ _).length_eq]
    omega

theorem selectDue_eq_of_perm {state : ExtTreeMap UInt64 SimulationScheduleState}
    {candidates candidates' : List UInt64} {nowMs : UInt64} {maxAdmit : UInt32}
    (hperm : candidates.Perm candidates') :
    selectDue state candidates nowMs maxAdmit = selectDue state candidates' nowMs maxAdmit := by
  unfold selectDue
  dsimp only
  rw [(strict_outranks _).ranked_eq_of_perm (hperm.filter _)]

end CoarseSimulationScheduler

/-! ### Passes -/

namespace DecisionScheduler

structure Pass where
  state : ExtTreeMap UInt64 DecisionScheduleState
  candidates : List Candidate
  nowMs : UInt64

/-- The settings of the scheduler. -/
structure Settings where
  maxAdmit : UInt32
  nearbyIntervalMs : UInt32
  activeIntervalMs : UInt32

variable {s : Settings}

def Pass.admitted (s : Settings) (pass : Pass) : List UInt64 :=
  (selectDue pass.state pass.candidates pass.nowMs s.maxAdmit s.nearbyIntervalMs
    s.activeIntervalMs).admitted

/-- The next pass is strictly later. What was admitted is stamped with the time of the pass, and
all other stamps stay. Responses may have come in, and other agents may be candidates. -/
def Pass.Follows (s : Settings) (pass next : Pass) : Prop :=
  pass.nowMs < next.nowMs ∧ ∀ (agent : UInt64), lastSubmittedAtMs next.state agent =
    if agent ∈ pass.admitted s then pass.nowMs else lastSubmittedAtMs pass.state agent

/-- In every pass an agent is due among the unique candidates of its class, which are all from
the given agents. -/
structure Contest (s : Settings) (cadenceClass : DecisionCadenceClass) (agents : Finset UInt64)
    (agent : UInt64) (passes : List Pass) : Prop where
  self : agent ∈ agents
  chain : passes.IsChain (Pass.Follows s)
  mem : ∀ pass ∈ passes, ∀ candidate ∈ pass.candidates, candidate.agent ∈ agents
  sameClass : ∀ pass ∈ passes, ∀ candidate ∈ pass.candidates, candidate.cadenceClass = cadenceClass
  nodup : ∀ pass ∈ passes, (pass.candidates.map Candidate.agent).Nodup
  candidate : ∀ pass ∈ passes, ⟨agent, cadenceClass⟩ ∈ pass.candidates
  due : ∀ pass ∈ passes, isDue pass.state pass.nowMs s.nearbyIntervalMs s.activeIntervalMs
    ⟨agent, cadenceClass⟩ = true

/-- The clock runs, no due time wraps around, and a decision submitted in a pass is due only after
all that is due in it. -/
structure Timely (s : Settings) (cadenceClass : DecisionCadenceClass) (agent : UInt64)
    (passes : List Pass) : Prop where
  running : ∀ pass ∈ passes, pass.nowMs ≠ 0
  fits : ∀ pass ∈ passes, pass.nowMs.toNat +
    (intervalMs cadenceClass s.nearbyIntervalMs s.activeIntervalMs).toNat < 2 ^ 64
  later : 0 < intervalMs cadenceClass s.nearbyIntervalMs s.activeIntervalMs ∨
    ∀ pass ∈ passes.head?, lastSubmittedAtMs pass.state agent < pass.nowMs

/-- Who comes before the agent, if it is due. -/
def ahead (s : Settings) (cadenceClass : DecisionCadenceClass) (agents : Finset UInt64)
    (agent : UInt64) (pass : Pass) : Finset UInt64 :=
  agents.filter fun b => outranks pass.state s.nearbyIntervalMs s.activeIntervalMs
    ⟨b, cadenceClass⟩ ⟨agent, cadenceClass⟩ = true

variable {cadenceClass : DecisionCadenceClass} {agents : Finset UInt64} {agent b : UInt64}
  {pass next : Pass} {passes : List Pass} {n : ℕ}

theorem Contest.tail (h : Contest s cadenceClass agents agent (pass :: passes)) :
    Contest s cadenceClass agents agent passes where
  self := h.self
  chain := h.chain.tail
  mem p hp := h.mem p (List.mem_cons_of_mem _ hp)
  sameClass p hp := h.sameClass p (List.mem_cons_of_mem _ hp)
  nodup p hp := h.nodup p (List.mem_cons_of_mem _ hp)
  candidate p hp := h.candidate p (List.mem_cons_of_mem _ hp)
  due p hp := h.due p (List.mem_cons_of_mem _ hp)

theorem Contest.take (h : Contest s cadenceClass agents agent passes) :
    Contest s cadenceClass agents agent (passes.take n) where
  self := h.self
  chain := h.chain.take n
  mem p hp := h.mem p (List.mem_of_mem_take hp)
  sameClass p hp := h.sameClass p (List.mem_of_mem_take hp)
  nodup p hp := h.nodup p (List.mem_of_mem_take hp)
  candidate p hp := h.candidate p (List.mem_of_mem_take hp)
  due p hp := h.due p (List.mem_of_mem_take hp)

theorem Timely.take (h : Timely s cadenceClass agent passes) (hn : n ≠ 0) :
    Timely s cadenceClass agent (passes.take n) where
  running p hp := h.running p (List.mem_of_mem_take hp)
  fits p hp := h.fits p (List.mem_of_mem_take hp)
  later := by
    rw [List.head?_take, if_neg hn]
    exact h.later

/-- A skipped agent was stamped before the next pass as well. -/
theorem Timely.tail (h : Timely s cadenceClass agent (pass :: next :: passes))
    (hfollows : pass.Follows s next) (hmissed : agent ∉ pass.admitted s) :
    Timely s cadenceClass agent (next :: passes) where
  running p hp := h.running p (List.mem_cons_of_mem _ hp)
  fits p hp := h.fits p (List.mem_cons_of_mem _ hp)
  later := by
    refine h.later.imp_right fun hstamp p hp => ?_
    cases Option.some.inj hp
    rw [hfollows.2 agent, if_neg hmissed]
    exact (hstamp pass rfl).trans hfollows.1

/-! ### Losing a pass -/

/-- A skipped agent was due before what is submitted in the pass will be due again. -/
theorem Timely.due_lt (hc : Contest s cadenceClass agents agent (pass :: passes))
    (ht : Timely s cadenceClass agent (pass :: passes)) :
    effectiveDueAtMs pass.state ⟨agent, cadenceClass⟩ s.nearbyIntervalMs s.activeIntervalMs <
      pass.nowMs + (intervalMs cadenceClass s.nearbyIntervalMs s.activeIntervalMs).toUInt64 := by
  have hdue := hc.due pass List.mem_cons_self
  have hfits := ht.fits pass List.mem_cons_self
  have hrunning := ht.running pass List.mem_cons_self
  have hlater := ht.later.imp_right fun hstamp => hstamp pass rfl
  have hdue : effectiveDueAtMs pass.state ⟨agent, cadenceClass⟩ s.nearbyIntervalMs
      s.activeIntervalMs ≤ pass.nowMs := by
    unfold isDue at hdue
    split_ifs at hdue
    simpa using hdue
  rw [UInt64.lt_iff_toNat_lt, UInt64.toNat_add, UInt32.toNat_toUInt64, Nat.mod_eq_of_lt hfits]
  rw [UInt64.le_iff_toNat_le] at hdue
  rcases hlater with hinterval | hstamp
  · have hpos := UInt32.lt_iff_toNat_lt.mp hinterval
    rw [UInt32.toNat_zero] at hpos
    omega
  · rw [UInt64.lt_iff_toNat_lt] at hstamp
    unfold effectiveDueAtMs
    dsimp only
    split_ifs with hnever
    · have hpos := UInt64.toNat_inj.not.mpr hrunning
      rw [UInt64.toNat_zero] at hpos ⊢
      omega
    · rw [UInt64.toNat_add, UInt32.toNat_toUInt64, Nat.mod_eq_of_lt (by omega)]
      omega

theorem Contest.nodup_admitted (h : Contest s cadenceClass agents agent (pass :: passes)) :
    (pass.admitted s).Nodup := by
  unfold Pass.admitted
  rw [admitted_selectDue]
  have hdue := List.filter_sublist (l := pass.candidates)
    (p := isDue pass.state pass.nowMs s.nearbyIntervalMs s.activeIntervalMs)
  have hnodup := (h.nodup pass List.mem_cons_self).sublist (hdue.map Candidate.agent)
  exact (((perm_ranked _ _).map Candidate.agent).nodup_iff.mpr hnodup).sublist
    ((List.take_sublist _ _).map Candidate.agent)

/-- All that get a place in a pass that skips the agent are ahead of it, and no place is left. -/
theorem Contest.admitted_ahead (h : Contest s cadenceClass agents agent (pass :: passes))
    (hmissed : agent ∉ pass.admitted s) :
    (pass.admitted s).length = s.maxAdmit.toNat ∧
      ∀ b ∈ pass.admitted s, b ∈ ahead s cadenceClass agents agent pass := by
  unfold Pass.admitted at hmissed ⊢
  rw [admitted_selectDue] at hmissed ⊢
  have hmem : ⟨agent, cadenceClass⟩ ∈ pass.candidates.filter
      (isDue pass.state pass.nowMs s.nearbyIntervalMs s.activeIntervalMs) :=
    List.mem_filter.mpr ⟨h.candidate pass List.mem_cons_self, h.due pass List.mem_cons_self⟩
  obtain ⟨hlength, hbefore⟩ := (strict_outranks pass.state s.nearbyIntervalMs
    s.activeIntervalMs).of_notMem_take hmem fun htake => hmissed (List.mem_map_of_mem htake)
  refine ⟨by rw [List.length_map, hlength], fun b hb => ?_⟩
  obtain ⟨candidate, htake, rfl⟩ := List.mem_map.mp hb
  have hcandidate := (List.mem_filter.mp (mem_ranked.mp (List.mem_of_mem_take htake))).1
  have hclass := h.sameClass pass List.mem_cons_self candidate hcandidate
  refine Finset.mem_filter.mpr ⟨h.mem pass List.mem_cons_self candidate hcandidate, ?_⟩
  have hself : Candidate.mk candidate.agent cadenceClass = candidate := by rw [← hclass]
  rw [hself]
  exact hbefore candidate htake

/-- Who comes before the agent after a pass that skips it came before it already, and got no
place. -/
theorem ahead_next (hc : Contest s cadenceClass agents agent (pass :: passes))
    (ht : Timely s cadenceClass agent (pass :: passes)) (hfollows : pass.Follows s next)
    (hmissed : agent ∉ pass.admitted s) (hb : b ∈ ahead s cadenceClass agents agent next) :
    b ∈ ahead s cadenceClass agents agent pass ∧ b ∉ pass.admitted s := by
  obtain ⟨hmem, hbefore⟩ := Finset.mem_filter.mp hb
  have hagent := hfollows.2 agent
  rw [if_neg hmissed] at hagent
  have hdue : effectiveDueAtMs next.state ⟨agent, cadenceClass⟩ s.nearbyIntervalMs
      s.activeIntervalMs = effectiveDueAtMs pass.state ⟨agent, cadenceClass⟩ s.nearbyIntervalMs
        s.activeIntervalMs := by
    unfold effectiveDueAtMs
    rw [hagent]
  have hstamp := hfollows.2 b
  rw [outranks_iff, hdue] at hbefore
  by_cases hadmitted : b ∈ pass.admitted s
  · rw [if_pos hadmitted] at hstamp
    have hback : effectiveDueAtMs next.state ⟨b, cadenceClass⟩ s.nearbyIntervalMs
        s.activeIntervalMs =
          pass.nowMs + (intervalMs cadenceClass s.nearbyIntervalMs s.activeIntervalMs).toUInt64 := by
      unfold effectiveDueAtMs
      dsimp only
      rw [hstamp, if_neg (ht.running pass List.mem_cons_self)]
    have hlt := ht.due_lt hc
    rw [hback] at hbefore
    rcases hbefore with hbefore | ⟨heq, -⟩
    · exact absurd (hbefore.trans hlt) (UInt64.lt_irrefl _)
    · rw [heq] at hlt
      exact absurd hlt (UInt64.lt_irrefl _)
  · rw [if_neg hadmitted] at hstamp
    have hsame : effectiveDueAtMs next.state ⟨b, cadenceClass⟩ s.nearbyIntervalMs
        s.activeIntervalMs = effectiveDueAtMs pass.state ⟨b, cadenceClass⟩ s.nearbyIntervalMs
          s.activeIntervalMs := by
      unfold effectiveDueAtMs
      rw [hstamp]
    rw [hsame, ← outranks_iff] at hbefore
    exact ⟨Finset.mem_filter.mpr ⟨hmem, hbefore⟩, hadmitted⟩

/-- A pass that skips the agent is full of those ahead of it. -/
theorem Contest.card_admitted (h : Contest s cadenceClass agents agent (pass :: passes))
    (hmissed : agent ∉ pass.admitted s) :
    (pass.admitted s).toFinset ⊆ ahead s cadenceClass agents agent pass ∧
      (pass.admitted s).toFinset.card = s.maxAdmit.toNat := by
  obtain ⟨hfull, hplaced⟩ := h.admitted_ahead hmissed
  refine ⟨fun b hb => hplaced b (List.mem_toFinset.mp hb), ?_⟩
  rw [List.toFinset_card_of_nodup h.nodup_admitted, hfull]

theorem length_mul_le (hc : Contest s cadenceClass agents agent (pass :: passes))
    (ht : Timely s cadenceClass agent (pass :: passes))
    (hmissed : ∀ p ∈ pass :: passes, agent ∉ p.admitted s) :
    (passes.length + 1) * s.maxAdmit.toNat ≤ (ahead s cadenceClass agents agent pass).card := by
  induction passes generalizing pass with
  | nil =>
    obtain ⟨hsub, hcard⟩ := hc.card_admitted (hmissed pass List.mem_cons_self)
    have hle := Finset.card_le_card hsub
    rw [hcard] at hle
    simpa using hle
  | cons next passes ih =>
    have hhere := hmissed pass List.mem_cons_self
    have hfollows := (List.isChain_cons_cons.mp hc.chain).1
    obtain ⟨hsub, hcard⟩ := hc.card_admitted hhere
    have hrest := ih hc.tail (ht.tail hfollows hhere) fun p hp => hmissed p (List.mem_cons_of_mem _ hp)
    have hdrop : ahead s cadenceClass agents agent next ⊆
        ahead s cadenceClass agents agent pass \ (pass.admitted s).toFinset := by
      intro b hb
      obtain ⟨hahead, hskipped⟩ := ahead_next hc ht hfollows hhere hb
      exact Finset.mem_sdiff.mpr ⟨hahead, fun hadmitted => hskipped (List.mem_toFinset.mp hadmitted)⟩
    have hle := Finset.card_le_card hdrop
    rw [Finset.card_sdiff_of_subset hsub, hcard] at hle
    have hpart := Finset.card_le_card hsub
    rw [hcard] at hpart
    rw [List.length_cons, Nat.add_mul, Nat.one_mul]
    omega

/-- The passes in which each of so many agents can have a place. -/
def rounds (s : Settings) (agents : Finset UInt64) : ℕ :=
  (agents.card + s.maxAdmit.toNat - 1) / s.maxAdmit.toNat

theorem card_le_rounds_mul (hlimit : 0 < s.maxAdmit) (agents : Finset UInt64) :
    agents.card ≤ rounds s agents * s.maxAdmit.toNat := by
  have hpos := UInt32.lt_iff_toNat_lt.mp hlimit
  rw [UInt32.toNat_zero] at hpos
  have hlt := Nat.lt_div_mul_add hpos (a := agents.card + s.maxAdmit.toNat - 1)
  unfold rounds
  omega

/-- Nobody is skipped for so many passes in a row. -/
theorem exists_admitted (hc : Contest s cadenceClass agents agent passes)
    (ht : Timely s cadenceClass agent passes) (hlimit : 0 < s.maxAdmit)
    (henough : rounds s agents ≤ passes.length) :
    ∃ pass ∈ passes.take (rounds s agents), agent ∈ pass.admitted s := by
  by_contra! hmissed
  have hcard := card_le_rounds_mul hlimit agents
  have hpos : 0 < agents.card := Finset.card_pos.mpr ⟨agent, hc.self⟩
  have hrounds : rounds s agents ≠ 0 := by
    intro hzero
    rw [hzero, Nat.zero_mul] at hcard
    omega
  have hlength : (passes.take (rounds s agents)).length = rounds s agents :=
    List.length_take_of_le henough
  have hc' := hc.take (n := rounds s agents)
  have ht' := ht.take hrounds
  cases hpasses : passes.take (rounds s agents) with
  | nil =>
    rw [hpasses, List.length_nil] at hlength
    exact hrounds hlength.symm
  | cons pass rest =>
    rw [hpasses] at hc' ht' hmissed hlength
    have hbound := length_mul_le hc' ht' hmissed
    have hbehind : ahead s cadenceClass agents agent pass ⊂ agents := by
      refine Finset.filter_ssubset.mpr ⟨agent, hc.self, ?_⟩
      rw [(strict_outranks _ _ _).irrefl]
      simp
    have hlt := Finset.card_lt_card hbehind
    rw [List.length_cons] at hlength
    rw [hlength] at hbound
    omega

end DecisionScheduler

/-! ### Both schedulers -/

open DecisionScheduler in
/-- Admission is in order, independent of the order of the candidates, and with the clock running
it reaches every agent that stays due. -/
theorem selection_fair :
    (∀ (state : ExtTreeMap UInt64 DecisionScheduleState) (candidates : List Candidate)
        (nowMs : UInt64) (maxAdmit nearbyIntervalMs activeIntervalMs : UInt32),
      (selectDue state candidates nowMs maxAdmit nearbyIntervalMs activeIntervalMs).InOrder
        (outranks state nearbyIntervalMs activeIntervalMs) Candidate.agent
        (candidates.filter (isDue state nowMs nearbyIntervalMs activeIntervalMs)) maxAdmit ∧
      ∀ candidates', candidates.Perm candidates' →
        selectDue state candidates nowMs maxAdmit nearbyIntervalMs activeIntervalMs =
          selectDue state candidates' nowMs maxAdmit nearbyIntervalMs activeIntervalMs) ∧
    (∀ (state : ExtTreeMap UInt64 SimulationScheduleState) (candidates : List UInt64)
        (nowMs : UInt64) (maxAdmit : UInt32),
      (CoarseSimulationScheduler.selectDue state candidates nowMs maxAdmit).InOrder
        (CoarseSimulationScheduler.outranks state) id
        (candidates.filter fun agent =>
          CoarseSimulationScheduler.nextTickAtMs state agent ≤ nowMs) maxAdmit ∧
      ∀ candidates', candidates.Perm candidates' →
        CoarseSimulationScheduler.selectDue state candidates nowMs maxAdmit =
          CoarseSimulationScheduler.selectDue state candidates' nowMs maxAdmit) ∧
    ∀ (s : Settings) (cadenceClass : DecisionCadenceClass) (agents : Finset UInt64)
        (agent : UInt64) (passes : List Pass), 0 < s.maxAdmit →
      Contest s cadenceClass agents agent passes → Timely s cadenceClass agent passes →
      rounds s agents ≤ passes.length →
      ∃ pass ∈ passes.take (rounds s agents), agent ∈ pass.admitted s :=
  ⟨fun _ _ _ _ _ _ => ⟨inOrder_selectDue .., fun _ hperm => selectDue_eq_of_perm hperm⟩,
    fun _ _ _ _ => ⟨CoarseSimulationScheduler.inOrder_selectDue .., fun _ hperm =>
      CoarseSimulationScheduler.selectDue_eq_of_perm hperm⟩,
    fun _ _ _ _ _ hlimit hc ht henough => exists_admitted hc ht hlimit henough⟩

namespace DecisionScheduler

/-- One place for two agents. -/
def oneAtATime : Settings where
  maxAdmit := 1
  nearbyIntervalMs := 100
  activeIntervalMs := 100

def bothActive : List Candidate := [⟨1, .active⟩, ⟨2, .active⟩]

/-- A pass of the two agents, of which only the first may have been stamped. -/
def firstStamped (stampMs nowMs : UInt64) : Pass where
  state := (∅ : ExtTreeMap UInt64 DecisionScheduleState).insert 1 ⟨stampMs, false⟩
  candidates := bothActive
  nowMs := nowMs

theorem lastSubmittedAtMs_firstStamped (stampMs nowMs agent : UInt64) :
    lastSubmittedAtMs (firstStamped stampMs nowMs).state agent = if agent = 1 then stampMs else 0 := by
  unfold lastSubmittedAtMs firstStamped
  dsimp only
  rw [ExtTreeMap.getElem?_insert]
  by_cases h : agent = 1
  · subst h
    simp
  · have hne : ¬ compare (1 : UInt64) agent = .eq := by
      rw [Std.compare_eq_iff_eq]
      exact fun heq => h heq.symm
    simp [hne, h]

/-- With the first agent admitted in the first pass, the second pass follows. -/
theorem contest_firstStamped {firstMs secondMs : UInt64} (hlt : firstMs < secondMs)
    (hadmitted : (firstStamped 0 firstMs).admitted oneAtATime = [1])
    (hdue : isDue (firstStamped firstMs secondMs).state secondMs 100 100 ⟨2, .active⟩ = true)
    (hdue' : isDue (firstStamped 0 firstMs).state firstMs 100 100 ⟨2, .active⟩ = true) :
    Contest oneAtATime .active {1, 2} 2 [firstStamped 0 firstMs, firstStamped firstMs secondMs] where
  self := by decide
  chain := by
    refine List.isChain_pair.mpr ⟨hlt, fun agent => ?_⟩
    rw [hadmitted, lastSubmittedAtMs_firstStamped, lastSubmittedAtMs_firstStamped]
    simp only [List.mem_singleton]
    split_ifs <;> rfl
  mem := by simp [firstStamped, bothActive]
  sameClass := by simp [firstStamped, bothActive]
  nodup := by simp [firstStamped, bothActive]
  candidate := by simp [firstStamped, bothActive]
  due := by simpa [firstStamped, oneAtATime] using ⟨hdue', hdue⟩

/-- A decision submitted at time zero counts as never submitted, and the first agent is admitted
again. -/
theorem second_starves_at_zero :
    ¬ ∀ (s : Settings) (cadenceClass : DecisionCadenceClass) (agents : Finset UInt64)
        (agent : UInt64) (passes : List Pass), 0 < s.maxAdmit →
      Contest s cadenceClass agents agent passes → rounds s agents ≤ passes.length →
      ∃ pass ∈ passes.take (rounds s agents), agent ∈ pass.admitted s := by
  intro h
  have hc : Contest oneAtATime .active {1, 2} 2 [firstStamped 0 0, firstStamped 0 5] :=
    contest_firstStamped (by decide) (by decide) (by decide) (by decide)
  obtain ⟨pass, hpass, hadmitted⟩ := h oneAtATime .active {1, 2} 2 _ (by decide) hc (by decide)
  have hpass := List.mem_of_mem_take hpass
  rw [List.mem_pair] at hpass
  rcases hpass with rfl | rfl
  · exact absurd hadmitted (by decide)
  · exact absurd hadmitted (by decide)

theorem selection_fair_second :
    ∃ pass ∈ [firstStamped 0 10, firstStamped 10 110].take 2, 2 ∈ pass.admitted oneAtATime := by
  have hc : Contest oneAtATime .active {1, 2} 2 [firstStamped 0 10, firstStamped 10 110] :=
    contest_firstStamped (by decide) (by decide) (by decide) (by decide)
  have ht : Timely oneAtATime .active 2 [firstStamped 0 10, firstStamped 10 110] :=
    ⟨by simp [firstStamped], by simp [firstStamped, oneAtATime, intervalMs], .inl (by decide)⟩
  exact selection_fair.2.2 oneAtATime .active {1, 2} 2 _ (by decide) hc ht (by decide)

end DecisionScheduler

end AIWorld.Scheduler
