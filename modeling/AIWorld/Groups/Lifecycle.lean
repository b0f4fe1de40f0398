import AIWorld.Groups.Operation

/-! Creation, joining, leaving and dissolution of groups. A request is checked at once
and then submits a transaction; the database applies the transaction at some later
time or not at all, and the completion of the request runs at some time after that.
The steps of the system are the requests, the ends of the transactions and the
completions, in any order. -/

namespace AIWorld.Groups

open Std Lib

/-! ### Factions and profiles -/

structure WorldFactionId where
  value : UInt32 := 0
  deriving DecidableEq

namespace WorldFactions

def defiasBrotherhood : WorldFactionId := ⟨2⟩
def elwynnWolves : WorldFactionId := ⟨6⟩

end WorldFactions

/-- The faction that every member of a profile's groups has. -/
def requiredWorldFactionFor (id : CoalitionFormationProfileId) : Option WorldFactionId :=
  if id = .wolfLoose then some WorldFactions.elwynnWolves
  else if id = .defiasLoose then some WorldFactions.defiasBrotherhood
  else none

def getCoalitionProfileKind (id : CoalitionFormationProfileId) : Option AgentGroupKind :=
  if id = .wolfLoose ∨ id = .defiasLoose then some .loose else none

structure AgentRecord where
  id : UInt64
  mapId : UInt32 := 0
  spawnId : UInt64 := 0
  worldFaction : WorldFactionId := {}

structure AgentRegistry where
  agents : ExtTreeMap UInt64 AgentRecord := ∅

namespace AgentRegistry

def find (r : AgentRegistry) (id : UInt64) : Option AgentRecord := r.agents[id]?

def findBySpawn (r : AgentRegistry) (mapId : UInt32) (spawnId : UInt64) : Option AgentRecord :=
  r.agents.values.find? fun agent => agent.mapId = mapId ∧ agent.spawnId = spawnId

def add (r : AgentRegistry) (record : AgentRecord) : Bool × AgentRegistry :=
  if record.id = 0 then (false, r)
  else if record.spawnId = 0 then (false, r)
  else if (r.find record.id).isSome then (false, r)
  else if (r.findBySpawn record.mapId record.spawnId).isSome then (false, r)
  else (true, { agents := r.agents.insert record.id record })

def remove (r : AgentRegistry) (id : UInt64) : Bool × AgentRegistry :=
  (r.agents.contains id, { agents := r.agents.erase id })

end AgentRegistry

/-- The first member decides, or the profile where there is none yet. -/
def joinsFaction (agentRegistry : AgentRegistry) (group : AgentGroupRecord)
    (joiningMember : AgentRecord) : Bool :=
  if group.members = [] then
    match requiredWorldFactionFor group.profileId with
    | some requiredWorldFaction => joiningMember.worldFaction = requiredWorldFaction
    | none => true
  else
    match group.members.findSome? fun membership => agentRegistry.find membership.member with
    | some existingMember => existingMember.worldFaction = joiningMember.worldFaction
    | none => true

/-! ### The system -/

/-- A submitted transaction, and its success once the database is done with it. -/
structure Transaction where
  operation : Operation
  outcome : Option Bool := none

/-- The registry, the tables, the allocator of ids, the groups with an operation in
flight, and the submitted transactions by the number of their request. -/
structure LifecycleState where
  registry : AgentGroupRegistry := {}
  database : Database := {}
  nextGroupId : UInt64 := 1
  groupIdAllocatorValid : Bool := false
  pendingGroupOperations : ExtTreeSet UInt64 := ∅
  pending : ExtTreeMap ℕ Transaction := ∅
  nextRequest : ℕ := 0

/-- What `onComplete` is called with. -/
inductive Answer where
  | created (groupId : Option UInt64)
  | done (success : Bool)
  deriving DecidableEq

inductive Signal where
  | submitted (request : ℕ) (operation : Operation)
  | settled (request : ℕ) (success : Bool)
  | answered (request : ℕ) (answer : Answer)

namespace LifecycleState

/-- Answer a request before anything is submitted. -/
def answer (s : LifecycleState) (a : Answer) : Signal × LifecycleState :=
  (.answered s.nextRequest a, { s with nextRequest := s.nextRequest + 1 })

/-- Submit an operation's transaction and keep its completion. -/
def submit (s : LifecycleState) (operation : Operation) : Signal × LifecycleState :=
  (.submitted s.nextRequest operation, { s with
    pending := s.pending.insert s.nextRequest { operation }
    nextRequest := s.nextRequest + 1 })

/-- Mark the group before its operation is submitted. -/
def reserve (s : LifecycleState) (groupId : UInt64) : LifecycleState :=
  { s with pendingGroupOperations := s.pendingGroupOperations.insert groupId }

def release (s : LifecycleState) (groupId : UInt64) : LifecycleState :=
  { s with pendingGroupOperations := s.pendingGroupOperations.erase groupId }

/-! ### Requests -/

def createGroupAsync (s : LifecycleState) (creation : GroupCreation) : Signal × LifecycleState :=
  if s.groupIdAllocatorValid = false then s.answer (.created none)
  else if s.nextGroupId = 0xFFFFFFFFFFFFFFFF then s.answer (.created none)
  else { s with nextGroupId := s.nextGroupId + 1 }.submit (.create s.nextGroupId creation)

def requestCreateGroup (s : LifecycleState) (creation : GroupCreation) :
    Signal × LifecycleState :=
  if creation.profileId ≠ .invalid ∧
      getCoalitionProfileKind creation.profileId ≠ some creation.kind then
    s.answer (.created none)
  else s.createGroupAsync creation

def requestJoinGroup (s : LifecycleState) (groupId memberId joinedAtMs : UInt64)
    (agentRegistry : AgentRegistry) : Signal × LifecycleState :=
  match s.registry.find groupId with
  | none => s.answer (.done false)
  | some group =>
    if groupId ∈ s.pendingGroupOperations then s.answer (.done false)
    else
      match agentRegistry.find memberId with
      | none => s.answer (.done false)
      | some joiningMember =>
        if group.members.any fun membership => membership.member = memberId then
          s.answer (.done false)
        else if joinsFaction agentRegistry group joiningMember = false then
          s.answer (.done false)
        else (s.reserve groupId).submit (.join groupId memberId joinedAtMs)

def requestLeaveGroup (s : LifecycleState) (groupId memberId : UInt64) :
    Signal × LifecycleState :=
  match s.registry.find groupId with
  | none => s.answer (.done false)
  | some group =>
    if groupId ∈ s.pendingGroupOperations then s.answer (.done false)
    else if group.members.any fun membership => membership.member = memberId then
      (s.reserve groupId).submit (.leave groupId memberId)
    else s.answer (.done false)

def requestDissolveGroup (s : LifecycleState) (groupId : UInt64) : Signal × LifecycleState :=
  match s.registry.find groupId with
  | none => s.answer (.done false)
  | some _ =>
    if groupId ∈ s.pendingGroupOperations then s.answer (.done false)
    else (s.reserve groupId).submit (.dissolve groupId)

def hasPendingOperation (s : LifecycleState) (groupId : UInt64) : Bool :=
  groupId ∈ s.pendingGroupOperations

/-! ### Completions -/

def completeCreate (s : LifecycleState) (success : Bool) (newId : UInt64)
    (creation : GroupCreation) : Answer × LifecycleState :=
  if success = false then (.created none, s)
  else
    match s.registry.add (creation.record newId) with
    | (false, registry) => (.created none, { s with registry })
    | (true, registry) => (.created (some newId), { s with registry })

def completeJoin (s : LifecycleState) (success : Bool) (groupId memberId joinedAtMs : UInt64) :
    Answer × LifecycleState :=
  let s := s.release groupId
  if success = false then (.done false, s)
  else
    match s.registry.addMember groupId ⟨memberId, joinedAtMs⟩ with
    | (false, registry) => (.done false, { s with registry })
    | (true, registry) => (.done true, { s with registry })

/-- The answer is the same whether the registry still had the member. -/
def completeLeave (s : LifecycleState) (success : Bool) (groupId memberId : UInt64) :
    Answer × LifecycleState :=
  let s := s.release groupId
  if success = false then (.done false, s)
  else (.done true, { s with registry := (s.registry.removeMember groupId memberId).2 })

def completeDissolve (s : LifecycleState) (success : Bool) (groupId : UInt64) :
    Answer × LifecycleState :=
  let s := s.release groupId
  if success = false then (.done false, s)
  else (.done true, { s with registry := (s.registry.remove groupId).2 })

def complete (s : LifecycleState) (success : Bool) : Operation → Answer × LifecycleState
  | .create newId creation => s.completeCreate success newId creation
  | .join groupId memberId joinedAtMs => s.completeJoin success groupId memberId joinedAtMs
  | .leave groupId memberId => s.completeLeave success groupId memberId
  | .dissolve groupId => s.completeDissolve success groupId

end LifecycleState

/-! ### Steps -/

inductive Input where
  | requestCreate (creation : GroupCreation)
  | requestJoin (groupId memberId joinedAtMs : UInt64) (agentRegistry : AgentRegistry)
  | requestLeave (groupId memberId : UInt64)
  | requestDissolve (groupId : UInt64)
  | transactionEnds (request : ℕ) (driverOk : Bool)
  | callback (request : ℕ)

namespace LifecycleState

/-- The database is done with a submitted transaction. -/
def transactionEnds (s : LifecycleState) (request : ℕ) (driverOk : Bool) :
    Option (Signal × LifecycleState) :=
  match s.pending[request]? with
  | some { operation, outcome := none } =>
    let (success, database) := s.database.commitTransaction operation.transaction driverOk
    some (.settled request success, { s with
      database, pending := s.pending.insert request { operation, outcome := some success } })
  | _ => none

/-- A ready callback runs, and is not kept. -/
def callback (s : LifecycleState) (request : ℕ) : Option (Signal × LifecycleState) :=
  match s.pending[request]? with
  | some { operation, outcome := some success } =>
    let (a, s) := { s with pending := s.pending.erase request }.complete success operation
    some (.answered request a, s)
  | _ => none

def step (s : LifecycleState) : Input → Option (Signal × LifecycleState)
  | .requestCreate creation => some (s.requestCreateGroup creation)
  | .requestJoin groupId memberId joinedAtMs agentRegistry =>
    some (s.requestJoinGroup groupId memberId joinedAtMs agentRegistry)
  | .requestLeave groupId memberId => some (s.requestLeaveGroup groupId memberId)
  | .requestDissolve groupId => some (s.requestDissolveGroup groupId)
  | .transactionEnds request driverOk => s.transactionEnds request driverOk
  | .callback request => s.callback request

/-- Runs of the system: any order of requests, ends of transactions and callbacks. -/
def machine : Machine LifecycleState Input Signal := ⟨step⟩

end LifecycleState

end AIWorld.Groups
