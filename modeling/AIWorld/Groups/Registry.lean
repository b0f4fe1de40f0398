import AIWorld.Lib.Machine
import AIWorld.Lib.SetMap

/-! The registry of agent groups. A group record carries its members; a second
map leads from an agent to the groups it is in. Groups and agents are named by
their raw ids. -/

namespace AIWorld.Groups

open Std Lib

inductive AgentGroupKind where
  | loose | stable
  deriving DecidableEq

/-- The stored number of a formation profile. -/
structure CoalitionFormationProfileId where
  value : UInt8
  deriving DecidableEq

namespace CoalitionFormationProfileId

def invalid : CoalitionFormationProfileId := ⟨0⟩
def wolfLoose : CoalitionFormationProfileId := ⟨1⟩
def defiasLoose : CoalitionFormationProfileId := ⟨2⟩

end CoalitionFormationProfileId

structure AgentGroupMembership where
  member : UInt64 := 0
  joinedAtMs : UInt64 := 0
  deriving DecidableEq

/-- Coordinates and resources are the bits of the source's floats. -/
structure AgentGroupRecord where
  id : UInt64 := 0
  kind : AgentGroupKind := .loose
  profileId : CoalitionFormationProfileId := .invalid
  territoryMapId : UInt32 := 0
  territoryX : UInt32 := 0
  territoryY : UInt32 := 0
  territoryZ : UInt32 := 0
  resources : UInt32 := 0
  version : UInt64 := 0
  members : List AgentGroupMembership := []
  deriving DecidableEq

/-- The ids of a group's members, in the order they were listed. -/
def AgentGroupRecord.memberIds (record : AgentGroupRecord) : List UInt64 :=
  record.members.map AgentGroupMembership.member

structure AgentGroupRegistry where
  groups : ExtTreeMap UInt64 AgentGroupRecord := ∅
  memberGroups : ExtTreeMap UInt64 (List UInt64) := ∅

namespace AgentGroupRegistry

def find (r : AgentGroupRegistry) (id : UInt64) : Option AgentGroupRecord := r.groups[id]?

/-! ### Changes -/

def add (r : AgentGroupRegistry) (record : AgentGroupRecord) : Bool × AgentGroupRegistry :=
  if record.id = 0 then (false, r)
  else if (r.find record.id).isSome then (false, r)
  else (true, {
    groups := r.groups.insert record.id record
    memberGroups := SetMap.linkAll r.memberGroups record.memberIds record.id })

def remove (r : AgentGroupRegistry) (id : UInt64) : Bool × AgentGroupRegistry :=
  match r.groups[id]? with
  | none => (false, r)
  | some record => (true, {
    groups := r.groups.erase id
    memberGroups := SetMap.unlinkAll r.memberGroups record.memberIds id })

def addMember (r : AgentGroupRegistry) (groupId : UInt64) (membership : AgentGroupMembership) :
    Bool × AgentGroupRegistry :=
  match r.find groupId with
  | none => (false, r)
  | some group =>
    if group.members.any fun existing => existing.member = membership.member then (false, r)
    else (true, {
      groups := r.groups.insert groupId { group with members := group.members ++ [membership] }
      memberGroups := SetMap.link r.memberGroups membership.member groupId })

/-- Takes out the first entry of the member. -/
def removeMember (r : AgentGroupRegistry) (groupId member : UInt64) : Bool × AgentGroupRegistry :=
  match r.find groupId with
  | none => (false, r)
  | some group =>
    if group.members.any fun membership => membership.member = member then (true, {
      groups := r.groups.insert groupId
        { group with members := group.members.eraseP fun membership => membership.member = member }
      memberGroups := SetMap.unlink r.memberGroups member groupId })
    else (false, r)

/-! ### Queries -/

def getGroupsOfMember (r : AgentGroupRegistry) (member : UInt64) : List UInt64 :=
  (r.memberGroups[member]?).getD []

def getGroups (r : AgentGroupRegistry) : List UInt64 := r.groups.toList.map fun p => p.2.id

def getHighestGroupId (r : AgentGroupRegistry) : UInt64 :=
  match r.groups.toList.getLast? with
  | none => 0
  | some p => p.2.id

def getGroupsAfterUntil (r : AgentGroupRegistry) (after untilId : UInt64) (maxCount : UInt32) :
    List UInt64 :=
  if maxCount = 0 ∨ untilId ≤ after then []
  else (((r.groups.toList.dropWhile fun p => p.1 ≤ after).takeWhile
    fun p => p.1 ≤ untilId).take maxCount.toNat).map fun p => p.2.id

def isMemberOfKind (r : AgentGroupRegistry) (member : UInt64) (kind : AgentGroupKind) : Bool :=
  match r.memberGroups[member]? with
  | none => false
  | some ids => ids.any fun id =>
    match r.groups[id]? with
    | none => false
    | some group => group.kind = kind

end AgentGroupRegistry

/-! ### The registry as a machine -/

inductive RegistryOp where
  | add (record : AgentGroupRecord)
  | remove (id : UInt64)
  | addMember (groupId : UInt64) (membership : AgentGroupMembership)
  | removeMember (groupId member : UInt64)

namespace AgentGroupRegistry

def step (r : AgentGroupRegistry) : RegistryOp → Bool × AgentGroupRegistry
  | .add record => r.add record
  | .remove id => r.remove id
  | .addMember groupId membership => r.addMember groupId membership
  | .removeMember groupId member => r.removeMember groupId member

/-- Runs of the registry. -/
def machine : Machine AgentGroupRegistry RegistryOp Bool := ⟨fun r op => some (r.step op)⟩

end AgentGroupRegistry

end AIWorld.Groups
