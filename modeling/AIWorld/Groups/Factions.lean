import AIWorld.Groups.Agreement

/-! The factions of a group's members. A join is checked against the members that are
still registered as agents, so agents that come and go are part of the state. As long
as no join into a group whose listed members have all gone brings in another faction,
every group stays with one faction, the one of its profile where it has a profile. -/

namespace AIWorld.Groups

open Std (ExtTreeMap)
open Lib LifecycleState

/-! ### Agents that come and go -/

/-- The group lifecycle over the agents that are registered. -/
structure World where
  lifecycle : LifecycleState
  agentRegistry : AgentRegistry := {}

inductive WorldInput where
  | lifecycle (i : Input)
  | addAgent (record : AgentRecord)
  | removeAgent (id : UInt64)

/-- A join is checked against the given agents. -/
def Input.against (agentRegistry : AgentRegistry) : Input → Input
  | .requestJoin groupId memberId joinedAtMs _ =>
    .requestJoin groupId memberId joinedAtMs agentRegistry
  | i => i

namespace World

def step (w : World) : WorldInput → Option ((Signal ⊕ Bool) × World)
  | .lifecycle i => (w.lifecycle.step (i.against w.agentRegistry)).map fun (o, lifecycle) =>
    (.inl o, { w with lifecycle })
  | .addAgent record =>
    let (added, agentRegistry) := w.agentRegistry.add record
    some (.inr added, { w with agentRegistry })
  | .removeAgent id =>
    let (removed, agentRegistry) := w.agentRegistry.remove id
    some (.inr removed, { w with agentRegistry })

def machine : Machine World WorldInput (Signal ⊕ Bool) := ⟨step⟩

/-- The world as it starts from its tables. -/
def startup (db : Database) (agentRegistry : AgentRegistry) : World :=
  ⟨LifecycleState.startup db agentRegistry, agentRegistry⟩

/-- The registered members of a group share one faction, the one of its profile. -/
def FactionHomogeneous (w : World) : Prop :=
  ∀ (groupId : UInt64) (group : AgentGroupRecord), w.lifecycle.registry.find groupId = some group →
    ∀ m ∈ group.memberIds, ∀ agent, w.agentRegistry.find m = some agent →
      (group.profileId ≠ .invalid →
        requiredWorldFactionFor group.profileId = some agent.worldFaction) ∧
      ∀ m' ∈ group.memberIds, ∀ agent', w.agentRegistry.find m' = some agent' →
        agent'.worldFaction = agent.worldFaction

end World

/-- With a faction for each agent id: a new agent has the faction of its id, and a join
that no registered member can vouch for is of the faction of the listed ones. -/
def WorldInput.Fits (factionOf : UInt64 → WorldFactionId) (w : World) : WorldInput → Prop
  | .addAgent record =>
    w.agentRegistry.find record.id = none → record.worldFaction = factionOf record.id
  | .lifecycle (.requestJoin groupId memberId _ _) => ∀ group joiningMember,
    w.lifecycle.registry.find groupId = some group →
    groupId ∉ w.lifecycle.pendingGroupOperations →
    w.agentRegistry.find memberId = some joiningMember → memberId ∉ group.memberIds →
    (∀ m ∈ group.memberIds, w.agentRegistry.find m = none) →
    ∀ m ∈ group.memberIds, factionOf m = joiningMember.worldFaction
  | _ => True

/-! ### Contents of one faction -/

variable {factionOf : UInt64 → WorldFactionId}

/-- The agents of a registry have the factions of their ids. -/
def AgentRegistry.Fits (factionOf : UInt64 → WorldFactionId) (r : AgentRegistry) : Prop :=
  ∀ id agent, r.find id = some agent → agent.worldFaction = factionOf id

/-- The members of a group are of one faction; a profile is none or names it. -/
structure GroupContent.Fits (factionOf : UInt64 → WorldFactionId) (c : GroupContent) : Prop where
  known : ∀ row, c.row = some row → (⟨row.profileId⟩ : CoalitionFormationProfileId) ≠ .invalid →
    ∃ faction, requiredWorldFactionFor ⟨row.profileId⟩ = some faction
  required : ∀ row faction, c.row = some row →
    requiredWorldFactionFor ⟨row.profileId⟩ = some faction → ∀ m ∈ c.memberIds, factionOf m = faction
  same : ∀ m ∈ c.memberIds, ∀ m' ∈ c.memberIds, factionOf m' = factionOf m

namespace GroupContent

variable {c : GroupContent}

theorem Fits.empty : Fits factionOf {} := by
  refine ⟨?_, ?_, ?_⟩ <;> simp [memberIds]

theorem Fits.create {newId : UInt64} {creation : GroupCreation} (h : Fits factionOf c)
    (hc : c.members = []) (hprofile : creation.profileId ≠ .invalid →
      ∃ faction, requiredWorldFactionFor creation.profileId = some faction) :
    Fits factionOf ((Operation.create newId creation).apply c) := by
  refine ⟨fun row hrow => ?_, fun row faction _ _ m hm => ?_, h.same⟩
  · cases hrow
    exact hprofile
  · change m ∈ c.memberIds at hm
    rw [memberIds, hc] at hm
    contradiction

theorem memberIds_join {groupId memberId joinedAtMs m : UInt64} :
    m ∈ ((Operation.join groupId memberId joinedAtMs).apply c).memberIds ↔
      m ∈ c.memberIds ∨ m = memberId := by
  simp only [Operation.apply, memberIds, List.map_append, List.map_cons, List.map_nil,
    List.mem_append, List.mem_singleton]

/-- A joining member has the faction of a first member, or of the members there are. -/
theorem Fits.join {groupId memberId joinedAtMs : UInt64} (h : Fits factionOf c)
    (hfirst : c.memberIds = [] → ∀ row faction, c.row = some row →
      requiredWorldFactionFor ⟨row.profileId⟩ = some faction → factionOf memberId = faction)
    (hsame : ∀ m ∈ c.memberIds, factionOf m = factionOf memberId) :
    Fits factionOf ((Operation.join groupId memberId joinedAtMs).apply c) := by
  refine ⟨h.known, fun row faction hrow hfaction m hm => ?_, fun m hm m' hm' => ?_⟩
  · have hjoin : factionOf memberId = faction := by
      rcases List.eq_nil_or_concat c.memberIds with hnil | ⟨ms, x, hms⟩
      · exact hfirst hnil row faction hrow hfaction
      · have hx : x ∈ c.memberIds := by simp [hms]
        rw [← hsame x hx]
        exact h.required row faction hrow hfaction x hx
    rcases memberIds_join.mp hm with hm | rfl
    · exact (hsame m hm).trans hjoin
    · exact hjoin
  · have hone : ∀ x ∈ ((Operation.join groupId memberId joinedAtMs).apply c).memberIds,
        factionOf x = factionOf memberId := by
      intro x hx
      rcases memberIds_join.mp hx with hx | rfl
      · exact hsame x hx
      · rfl
    rw [hone m hm, hone m' hm']

theorem Fits.leave {groupId memberId : UInt64} (h : Fits factionOf c) :
    Fits factionOf ((Operation.leave groupId memberId).apply c) := by
  have hsub : ∀ m ∈ ((Operation.leave groupId memberId).apply c).memberIds, m ∈ c.memberIds :=
    fun m hm => List.map_subset _ (List.filter_subset_self _) hm
  exact ⟨h.known, fun row faction hrow hfaction m hm => h.required row faction hrow hfaction m
    (hsub m hm), fun m hm m' hm' => h.same m (hsub m hm) m' (hsub m' hm')⟩

end GroupContent

/-! ### Requests that are accepted -/

variable {s s' : LifecycleState} {n : ℕ} {op : Operation}

theorem required_of_kind {profileId : CoalitionFormationProfileId} {kind : AgentGroupKind}
    (h : getCoalitionProfileKind profileId = some kind) :
    ∃ faction, requiredWorldFactionFor profileId = some faction := by
  unfold getCoalitionProfileKind at h
  split_ifs at h with hp
  rcases hp with rfl | rfl
  · exact ⟨_, rfl⟩
  · exact ⟨_, rfl⟩

/-- A profile that loads is none or names its faction. -/
theorem record?_known {row : GroupRow} {groupId : UInt64} {record : AgentGroupRecord}
    (h : row.record? groupId = some record)
    (hne : (⟨row.profileId⟩ : CoalitionFormationProfileId) ≠ .invalid) :
    ∃ faction, requiredWorldFactionFor ⟨row.profileId⟩ = some faction := by
  unfold GroupRow.record? at h
  split at h
  next kind profileId _ hprofile =>
    unfold CoalitionFormationProfileId.ofUInt8? at hprofile
    split_ifs at hprofile with hraw
    rcases hraw with hraw | hraw | hraw
    · rw [hraw] at hne
      exact absurd rfl hne
    · rw [hraw]
      exact ⟨_, rfl⟩
    · rw [hraw]
      exact ⟨_, rfl⟩
  · contradiction

theorem create_accepted {creation : GroupCreation}
    (h : s.requestCreateGroup creation = (.submitted n op, s')) :
    op = .create s.nextGroupId creation ∧ (creation.profileId ≠ .invalid →
      ∃ faction, requiredWorldFactionFor creation.profileId = some faction) := by
  unfold requestCreateGroup createGroupAsync at h
  split_ifs at h with hprofile
  · cases h
  · cases h
  · cases h
  · cases h
    refine ⟨rfl, fun hne => ?_⟩
    rw [not_and, not_not] at hprofile
    exact required_of_kind (hprofile hne)

theorem join_accepted {groupId memberId joinedAtMs : UInt64} {agentRegistry : AgentRegistry}
    (h : s.requestJoinGroup groupId memberId joinedAtMs agentRegistry = (.submitted n op, s')) :
    op = .join groupId memberId joinedAtMs ∧ groupId ∉ s.pendingGroupOperations ∧
      ∃ group joiningMember, s.registry.find groupId = some group ∧
        agentRegistry.find memberId = some joiningMember ∧ memberId ∉ group.memberIds ∧
        joinsFaction agentRegistry group joiningMember = true := by
  unfold requestJoinGroup at h
  cases hgroup : s.registry.find groupId with
  | none => cases hgroup ▸ h
  | some group =>
    simp only [hgroup] at h
    cases hagent : agentRegistry.find memberId with
    | none =>
      simp only [hagent] at h
      split_ifs at h <;> cases h
    | some joiningMember =>
      simp only [hagent] at h
      split_ifs at h with hpending hmember hfaction
      · cases h
      · cases h
      · cases h
      · cases h
        rw [any_member_iff] at hmember
        exact ⟨rfl, hpending, group, joiningMember, rfl, rfl, hmember, by simpa using hfaction⟩

theorem leave_accepted {groupId memberId : UInt64}
    (h : s.requestLeaveGroup groupId memberId = (.submitted n op, s')) :
    op = .leave groupId memberId := by
  unfold requestLeaveGroup at h
  split at h
  · cases h
  · split_ifs at h <;> cases h
    rfl

theorem dissolve_accepted {groupId : UInt64}
    (h : s.requestDissolveGroup groupId = (.submitted n op, s')) : op = .dissolve groupId := by
  unfold requestDissolveGroup at h
  split at h
  · cases h
  · split_ifs at h <;> cases h
    rfl

/-- What the check of a join finds out. -/
theorem joinsFaction_fits {agentRegistry : AgentRegistry} {group : AgentGroupRecord}
    {memberId : UInt64} {joiningMember : AgentRecord} (hagents : agentRegistry.Fits factionOf)
    (hc : group.content.Fits factionOf) (hjoining : agentRegistry.find memberId = some joiningMember)
    (hgone : (∀ m ∈ group.memberIds, agentRegistry.find m = none) →
      ∀ m ∈ group.memberIds, factionOf m = joiningMember.worldFaction)
    (h : joinsFaction agentRegistry group joiningMember = true) :
    (group.memberIds = [] → ∀ faction, requiredWorldFactionFor group.profileId = some faction →
      factionOf memberId = faction) ∧
    ∀ m ∈ group.memberIds, factionOf m = factionOf memberId := by
  have hfaction := hagents memberId joiningMember hjoining
  unfold joinsFaction at h
  split_ifs at h with hempty
  · refine ⟨fun _ faction hrequired => ?_, by simp [AgentGroupRecord.memberIds, hempty]⟩
    rw [hrequired] at h
    rw [← hfaction]
    exact of_decide_eq_true h
  · refine ⟨fun hnil => absurd (List.map_eq_nil_iff.mp hnil) hempty, ?_⟩
    split at h
    next existingMember hexisting =>
      -- the first registered member vouches for all of them
      obtain ⟨membership, hmem, hfind⟩ := List.exists_of_findSome?_eq_some hexisting
      have hex := hagents membership.member existingMember hfind
      have hin : membership.member ∈ group.memberIds := List.mem_map_of_mem hmem
      intro m hm
      rw [hc.same membership.member hin m hm, ← hex, ← hfaction]
      exact of_decide_eq_true h
    next hnone =>
      rw [List.findSome?_eq_none_iff] at hnone
      rw [← hfaction]
      refine hgone fun m hm => ?_
      obtain ⟨membership, hmem, rfl⟩ := List.mem_map.mp hm
      exact hnone membership hmem

/-- An accepted request makes contents of one faction from such contents. -/
theorem accepted_fits {w : World} {i : Input} (hagents : w.agentRegistry.Fits factionOf)
    (hgroups : ∀ k, (w.lifecycle.registry.content k).Fits factionOf)
    (hfits : WorldInput.Fits factionOf w (.lifecycle i))
    (hallowed : op.Allowed (w.lifecycle.registry.content op.groupId))
    (hstep : w.lifecycle.step (i.against w.agentRegistry) = some (.submitted n op, s')) :
    (op.apply (w.lifecycle.registry.content op.groupId)).Fits factionOf := by
  cases i with
  | requestCreate creation =>
    obtain ⟨rfl, hprofile⟩ := create_accepted (Option.some.inj hstep)
    exact (hgroups _).create (by rw [hallowed.2]) hprofile
  | requestJoin groupId memberId joinedAtMs =>
    obtain ⟨rfl, hfree, group, joiningMember, hgroup, hjoining, hnew, hjoins⟩ :=
      join_accepted (Option.some.inj hstep)
    have hcontent : w.lifecycle.registry.content groupId = group.content :=
      AgentGroupRegistry.content_of_some hgroup
    have hc := hgroups groupId
    rw [hcontent] at hc
    obtain ⟨hfirst, hsame⟩ := joinsFaction_fits hagents hc hjoining
      (hfits group joiningMember hgroup hfree hjoining hnew) hjoins
    change ((Operation.join groupId memberId joinedAtMs).apply
      (w.lifecycle.registry.content groupId)).Fits factionOf
    rw [hcontent]
    refine hc.join (fun hnil row faction hrow => ?_) hsame
    cases hrow
    exact hfirst hnil faction
  | requestLeave groupId memberId =>
    obtain rfl := leave_accepted (Option.some.inj hstep)
    exact (hgroups _).leave
  | requestDissolve groupId =>
    obtain rfl := dissolve_accepted (Option.some.inj hstep)
    exact .empty
  | transactionEnds request driverOk =>
    simp only [Input.against, LifecycleState.step, transactionEnds] at hstep
    split at hstep <;> cases hstep
  | callback request =>
    simp only [Input.against, LifecycleState.step, callback] at hstep
    split at hstep <;> cases hstep

/-- Only an accepted request has a new entry. -/
theorem Effect.new_entry {i : Input} {o : Signal} {out : Option Bool}
    (he : LifecycleState.Effect s i o s') (hold : s.copies.inFlight n = none)
    (hnew : s'.copies.inFlight n = some (op, out)) : o = .submitted n op := by
  have hnone : s.pending[n]? = none := Option.map_eq_none_iff.mp hold
  rw [inFlight_eq_some] at hnew
  cases he with
  | rejected =>
    change s.pending[n]? = _ at hnew
    rw [hnone] at hnew
    contradiction
  | created | requested =>
    change (s.pending.insert s.nextRequest _)[n]? = _ at hnew
    rw [OrdMap.getElem?_insert, hnone] at hnew
    split_ifs at hnew with hn
    cases hnew
    rw [hn]
  | @ended m _ _ _ _ hop =>
    change (s.pending.insert m _)[n]? = _ at hnew
    rw [OrdMap.getElem?_insert, hnone] at hnew
    split_ifs at hnew with hn
    rw [hn, hnone] at hop
    contradiction
  | @completed m success _ hop =>
    rw [complete_eq] at hnew
    change (s.pending.erase m)[n]? = _ at hnew
    rw [OrdMap.getElem?_erase, hnone] at hnew
    split_ifs at hnew

/-! ### Worlds of one faction for each group -/

namespace World

/-- What holds of every world reached. -/
structure Inv (factionOf : UInt64 → WorldFactionId) (w : World) : Prop where
  lifecycle : w.lifecycle.Inv
  groups : WriteThrough.Sound Operation.ops (GroupContent.Fits factionOf) w.lifecycle.copies
  agents : w.agentRegistry.Fits factionOf

variable {w w' : World} {i : WorldInput} {o : Signal ⊕ Bool}

theorem agents_add {record : AgentRecord} {r : AgentRegistry} (h : r.Fits factionOf)
    (hrecord : r.find record.id = none → record.worldFaction = factionOf record.id) :
    (r.add record).2.Fits factionOf := by
  unfold AgentRegistry.add
  split_ifs with hid hspawn hfind hbinding
  · exact h
  · exact h
  · exact h
  · exact h
  · refine OrdMap.forall_insert (P := fun id agent => agent.worldFaction = factionOf id) ?_
      fun id agent _ => h id agent
    exact hrecord (by simpa using hfind)

theorem agents_remove {id : UInt64} {r : AgentRegistry} (h : r.Fits factionOf) :
    (r.remove id).2.Fits factionOf := by
  intro k agent hk
  change (r.agents.erase id)[k]? = some agent at hk
  rw [OrdMap.getElem?_erase] at hk
  split_ifs at hk
  exact h k agent hk

theorem step_inv (h : Inv factionOf w) (hfits : i.Fits factionOf w)
    (hstep : machine.step w i = some (o, w')) : Inv factionOf w' := by
  cases i with
  | addAgent record =>
    cases hstep
    exact ⟨h.lifecycle, h.groups, agents_add h.agents hfits⟩
  | removeAgent id =>
    cases hstep
    exact ⟨h.lifecycle, h.groups, agents_remove h.agents⟩
  | lifecycle i =>
    obtain ⟨⟨signal, s'⟩, hs, hw⟩ := Option.map_eq_some_iff.mp hstep
    cases hw
    have he := LifecycleState.step_effect hs
    have hsimulates := he.simulates h.lifecycle
    refine ⟨he.inv h.lifecycle, hsimulates.sound h.lifecycle.mirror h.groups ?_, h.agents⟩
    intro n op out hold hnew hallowed
    obtain rfl := Effect.new_entry he hold hnew
    exact accepted_fits h.agents h.groups.mirror hfits hallowed hs

variable {db : Database} {agentRegistry : AgentRegistry} {tr : List (Event World WorldInput (Signal ⊕ Bool))}

theorem inv_startup (hdb : db.Loadable agentRegistry) (hagents : agentRegistry.Fits factionOf)
    (hrows : ∀ row ∈ db.groupMembers, ∀ row' ∈ db.groupMembers, row.groupId = row'.groupId →
      factionOf row'.memberAgentId = factionOf row.memberAgentId) :
    Inv factionOf (startup db agentRegistry) := by
  have hlifecycle := startup_inv hdb
  refine ⟨hlifecycle, ⟨fun k => ?_, fun n op out hn => ?_⟩, hagents⟩
  · have hcontent := congrFun (startup_content hdb).2 k
    change ((LifecycleState.startup db agentRegistry).registry.content k).Fits factionOf
    rw [hcontent]
    have hmember : ∀ m ∈ (db.content k).memberIds, ∃ row ∈ db.groupMembers, row.groupId = k ∧
        row.memberAgentId = m := by
      intro m hm
      obtain ⟨membership, hmembership, rfl⟩ := List.mem_map.mp hm
      obtain ⟨row, hrow, rfl⟩ := List.mem_map.mp hmembership
      obtain ⟨hrow, hk⟩ := List.mem_filter.mp hrow
      exact ⟨row, hrow, of_decide_eq_true hk, rfl⟩
    refine ⟨fun row hrow hne => ?_, fun row faction hrow hfaction m hm => ?_, fun m hm m' hm' => ?_⟩
    · obtain ⟨-, record, hrecord⟩ := hdb.groups k row hrow
      exact record?_known hrecord hne
    · obtain ⟨memberRow, hmemberRow, rfl, rfl⟩ := hmember m hm
      obtain ⟨groupRow, agent, hgroup, hagent, hadmits⟩ := hdb.members memberRow hmemberRow
      obtain rfl : groupRow = row := Option.some.inj (hgroup.symm.trans hrow)
      rw [← hagents _ agent hagent]
      exact hadmits faction hfaction
    · obtain ⟨memberRow, hmemberRow, hk, rfl⟩ := hmember m hm
      obtain ⟨memberRow', hmemberRow', hk', rfl⟩ := hmember m' hm'
      exact hrows memberRow hmemberRow memberRow' hmemberRow' (hk.trans hk'.symm)
  · rw [inFlight_eq_some] at hn
    simp [startup, LifecycleState.startup] at hn

theorem Inv.homogeneous (h : Inv factionOf w) : w.FactionHomogeneous := by
  intro groupId group hgroup m hm agent hagent
  have hcontent : w.lifecycle.registry.content groupId = group.content :=
    AgentGroupRegistry.content_of_some hgroup
  have hfits := h.groups.mirror groupId
  change (w.lifecycle.registry.content groupId).Fits factionOf at hfits
  rw [hcontent] at hfits
  refine ⟨fun hne => ?_, fun m' hm' agent' hagent' => ?_⟩
  · obtain ⟨faction, hfaction⟩ := hfits.known _ rfl hne
    rw [h.agents m agent hagent, hfits.required _ faction rfl hfaction m hm]
    exact hfaction
  · rw [h.agents m agent hagent, h.agents m' agent' hagent']
    exact hfits.same m hm m' hm'

/-- Groups stay with one faction in every run in which each new agent has the faction of
its id, and each join that no registered member vouches for is of the faction of the
members that are listed. -/
theorem groups_faction_homogeneous (hdb : db.Loadable agentRegistry)
    (hagents : agentRegistry.Fits factionOf)
    (hrows : ∀ row ∈ db.groupMembers, ∀ row' ∈ db.groupMembers, row.groupId = row'.groupId →
      factionOf row'.memberAgentId = factionOf row.memberAgentId)
    (hr : machine.Run (startup db agentRegistry) tr w)
    (hfits : ∀ e ∈ tr, e.input.Fits factionOf e.pre) : w.FactionHomogeneous :=
  (hr.invariant_of_forall (P := Inv factionOf) (fun _ _ _ _ h hi hstep => step_inv h hi hstep) hfits
    (inv_startup hdb hagents hrows)).homogeneous

/-- A wolf founds a group and is gone when an agent of another faction joins. -/
def strangerJoins (stranger : WorldFactionId) : List WorldInput :=
  let wolf : AgentRecord := { id := 7, spawnId := 70, worldFaction := WorldFactions.elwynnWolves }
  [.addAgent wolf, .lifecycle (.requestCreate { profileId := .wolfLoose }),
    .lifecycle (.transactionEnds 0 true), .lifecycle (.callback 0),
    .lifecycle (.requestJoin 1 7 100 {}), .lifecycle (.transactionEnds 1 true),
    .lifecycle (.callback 1), .removeAgent 7,
    .addAgent { id := 8, spawnId := 80, worldFaction := stranger },
    .lifecycle (.requestJoin 1 8 200 {}), .lifecycle (.transactionEnds 2 true),
    .lifecycle (.callback 2), .addAgent wolf]

/-- What one state shows of group 1 and of agent 8. -/
def observe (w : World) : Option (CoalitionFormationProfileId × List UInt64) × Option WorldFactionId :=
  ((w.lifecycle.registry.find 1).map fun group => (group.profileId, group.memberIds),
    (w.agentRegistry.find 8).map AgentRecord.worldFaction)

/-- Every join and every new agent is a wolf's. -/
def wolvesOnly (tr : List (Event World WorldInput (Signal ⊕ Bool))) : Bool :=
  tr.all fun e => match e.input with
    | .addAgent record => record.worldFaction = WorldFactions.elwynnWolves
    | .lifecycle (.requestJoin _ memberId _ _) => match e.pre.agentRegistry.find memberId with
      | some agent => agent.worldFaction = WorldFactions.elwynnWolves
      | none => true
    | _ => true

theorem fits_of_wolvesOnly (h : wolvesOnly tr = true) :
    ∀ e ∈ tr, e.input.Fits (fun _ => WorldFactions.elwynnWolves) e.pre := by
  intro e he
  have hwolf := List.all_eq_true.mp h e he
  obtain ⟨pre, i, o, post⟩ := e
  cases i with
  | addAgent record => exact fun _ => of_decide_eq_true hwolf
  | removeAgent id => trivial
  | lifecycle i =>
    cases i with
    | requestJoin groupId memberId joinedAtMs agents =>
      intro group joiningMember _ _ hjoining _ _ m _
      simp only [hjoining] at hwolf
      exact (of_decide_eq_true hwolf).symm
    | requestCreate | requestLeave | requestDissolve | transactionEnds | callback => trivial

theorem loadable_empty : Database.Loadable { nextGroupId := some 1 } {} :=
  ⟨fun groupId row hrow => by simp at hrow, by simp, by simp⟩

theorem groups_faction_homogeneous_wolves : ∃ tr w,
    machine.Run (startup { nextGroupId := some 1 } {}) tr w ∧
      observe w = (some (.wolfLoose, [7, 8]), some WorldFactions.elwynnWolves) ∧
      w.FactionHomogeneous := by
  have h : (machine.exec (startup { nextGroupId := some 1 } {})
      (strangerJoins WorldFactions.elwynnWolves)).map (fun p => (observe p.2, wolvesOnly p.1)) =
        some ((some (.wolfLoose, [7, 8]), some WorldFactions.elwynnWolves), true) := by
    decide +kernel
  obtain ⟨⟨tr, w⟩, hexec, h⟩ := Option.map_eq_some_iff.mp h
  obtain ⟨hobserve, hwolves⟩ := Prod.mk.inj h
  have hagents : AgentRegistry.Fits (fun _ => WorldFactions.elwynnWolves) {} := by
    intro id agent hid
    simp [AgentRegistry.find] at hid
  exact ⟨tr, w, Machine.run_of_exec hexec, hobserve, groups_faction_homogeneous loadable_empty
    hagents (by simp) (Machine.run_of_exec hexec) (fits_of_wolvesOnly hwolves)⟩

theorem groups_faction_mixed_stranger : ¬ ∀ tr w,
    machine.Run (startup { nextGroupId := some 1 } {}) tr w → w.FactionHomogeneous := by
  intro hall
  have h : (machine.exec (startup { nextGroupId := some 1 } {})
      (strangerJoins WorldFactions.defiasBrotherhood)).map (fun p => observe p.2) =
        some (some (.wolfLoose, [7, 8]), some WorldFactions.defiasBrotherhood) := by decide +kernel
  obtain ⟨⟨tr, w⟩, hexec, h⟩ := Option.map_eq_some_iff.mp h
  obtain ⟨hgroup, hagent⟩ := Prod.mk.inj h
  obtain ⟨group, hgroup, hids⟩ := Option.map_eq_some_iff.mp hgroup
  obtain ⟨agent, hagent, hfaction⟩ := Option.map_eq_some_iff.mp hagent
  obtain ⟨hprofile, hids⟩ := Prod.mk.inj hids
  have hmem : 8 ∈ group.memberIds := by simp [hids]
  have hrequired := (hall tr w (Machine.run_of_exec hexec) 1 group hgroup 8 hmem agent hagent).1
    (by rw [hprofile]; decide)
  rw [hprofile, hfaction] at hrequired
  revert hrequired
  decide

end World

end AIWorld.Groups
