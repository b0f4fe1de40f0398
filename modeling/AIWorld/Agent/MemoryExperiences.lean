import AIWorld.Agent.MemoryRecall

/-! One experience is remembered once. What every operation does with the records is said once, and from it: numbers
grow, only the oldest give way, and no two records are of the same turn, the same utterance or the same outcome, as
long as outcomes come without blanks around them. -/

namespace AIWorld.Agent.NpcAgentMemoryStore

open Lib
open Lib.Json (Bytes ascii)
open Quest (ObjectGuid)

/-! ### One operation -/

/-- What is left of the public records when one is added. -/
def publicRoom (entries : List Record) : List Record :=
  if entries.length = 32 then eraseOldest entries {} else entries

/-- What an operation does with the records. -/
inductive Does (s : NpcAgentMemoryStore) : MemoryOp → Bool → NpcAgentMemoryStore → Prop
  | rejects {op : MemoryOp} {t : NpcAgentMemoryStore} (hprivate : t.privateRecords = s.privateRecords)
      (hpublic : t.publicRecords = s.publicRecords) (hsequence : t.sequence = s.sequence) : Does s op false t
  | answers {turnId : UInt64} {player : ObjectGuid} {response : Bytes} {atMs : UInt64} {old : Record}
      {t : NpcAgentMemoryStore}
      (hchanged : ChangedAt old { old with response := cleanNpcAgentSpeechText response, atMs }
        s.privateRecords t.privateRecords)
      (hpublic : t.publicRecords = s.publicRecords) (hsequence : t.sequence = s.sequence) :
      Does s (.reply turnId player response atMs) true t
  | renews {speaker feedback : Bytes} {atMs : UInt64} {old : Record} {t : NpcAgentMemoryStore}
      (hold : old.kind = ascii "ACTION_RESULT" ∧ old.speaker = speaker ∧ old.text = feedback)
      (hchanged : ChangedAt old { old with atMs } s.publicRecords t.publicRecords)
      (hprivate : t.privateRecords = s.privateRecords) (hsequence : t.sequence = s.sequence) :
      Does s (.action speaker feedback atMs) true t
  | addsPlayer {turnId : UInt64} {player : ObjectGuid} {speaker text : Bytes} {atMs : UInt64} {t : NpcAgentMemoryStore}
      (hplayer : player.isEmpty = false) (hroom : s.canAllocate = true)
      (hfresh : ∀ entry ∈ s.privateRecords, ¬(entry.turnId = turnId ∧ entry.player = player))
      (hprivate : t.privateRecords = makeRoom s.privateRecords player ++ [⟨s.sequence + 1, atMs, turnId, player,
        ascii "PLAYER_DIALOGUE", speaker, cleanNpcAgentSpeechText text, []⟩])
      (hpublic : t.publicRecords = s.publicRecords) (hsequence : t.sequence = s.sequence + 1) :
      Does s (.player turnId player speaker text atMs) true t
  | addsNpc {utteranceId : UInt64} {speaker text : Bytes} {atMs : UInt64} {t : NpcAgentMemoryStore}
      (hroom : s.canAllocate = true)
      (hfresh : ∀ entry ∈ s.publicRecords, ¬(entry.kind = ascii "NPC_DIALOGUE" ∧ entry.turnId = utteranceId))
      (hpublic : t.publicRecords = publicRoom s.publicRecords ++ [⟨s.sequence + 1, atMs, utteranceId, {},
        ascii "NPC_DIALOGUE", speaker, cleanNpcAgentSpeechText text, []⟩])
      (hprivate : t.privateRecords = s.privateRecords) (hsequence : t.sequence = s.sequence + 1) :
      Does s (.npc utteranceId speaker text atMs) true t
  | addsAction {speaker feedback : Bytes} {atMs : UInt64} {t : NpcAgentMemoryStore} (hroom : s.canAllocate = true)
      (hfresh : ∀ entry ∈ s.publicRecords,
        ¬(entry.kind = ascii "ACTION_RESULT" ∧ entry.speaker = speaker ∧ entry.text = feedback))
      (hpublic : t.publicRecords = publicRoom s.publicRecords ++ [⟨s.sequence + 1, atMs, 0, {},
        ascii "ACTION_RESULT", speaker, cleanNpcAgentSpeechText feedback, []⟩])
      (hprivate : t.privateRecords = s.privateRecords) (hsequence : t.sequence = s.sequence + 1) :
      Does s (.action speaker feedback atMs) true t

variable {s t : NpcAgentMemoryStore} {op : MemoryOp} {ok : Bool}

theorem Does.same (op : MemoryOp) : Does s op false s := .rejects rfl rfl rfl

/-- Observing a time keeps the records. -/
theorem observe_records (s : NpcAgentMemoryStore) (atMs : UInt64) :
    (s.observe atMs).2.privateRecords = s.privateRecords ∧ (s.observe atMs).2.publicRecords = s.publicRecords ∧
      (s.observe atMs).2.sequence = s.sequence := by
  unfold observe
  split_ifs <;> exact ⟨rfl, rfl, rfl⟩

theorem canAllocate_congr (h : t.sequence = s.sequence) : t.canAllocate = s.canAllocate := by
  unfold canAllocate
  rw [h]

/-- A record is put behind the public ones, unless the numbers have run out. -/
theorem publish_cases (kind speaker text : Bytes) (atMs turnId : UInt64) :
    s.publish kind speaker text atMs turnId = (false, s) ∨
      s.canAllocate = true ∧ s.publish kind speaker text atMs turnId = (true, { s with
        sequence := s.sequence + 1
        publicRecords := publicRoom s.publicRecords ++
          [⟨s.sequence + 1, atMs, turnId, {}, kind, speaker, cleanNpcAgentSpeechText text, []⟩] }) := by
  unfold publish
  by_cases hroom : s.canAllocate = true
  · exact .inr ⟨hroom, if_neg (by simp [hroom])⟩
  · exact .inl (if_pos (by simpa using hroom))

section Operations
variable (s) (speaker text : Bytes) (atMs : UInt64)

theorem does_player (turnId : UInt64) (player : ObjectGuid) : Does s (.player turnId player speaker text atMs)
    (s.rememberPlayer turnId player speaker text atMs).1 (s.rememberPlayer turnId player speaker text atMs).2 := by
  unfold rememberPlayer
  split_ifs with hrefused
  · exact .same _
  simp only [Bool.or_eq_true, Bool.not_eq_true', not_or, Bool.not_eq_false] at hrefused
  have hsame := observe_records s atMs
  generalize s.observe atMs = answered at hsame ⊢
  obtain ⟨observed, t⟩ := answered
  obtain ⟨hprivate, hpublic, hsequence⟩ := hsame
  dsimp only at hprivate hpublic hsequence ⊢
  rw [hprivate, canAllocate_congr hsequence, hsequence]
  split_ifs with hlate hknown hroom
  · exact .rejects hprivate hpublic hsequence
  · exact .rejects hprivate hpublic hsequence
  · exact .rejects hprivate hpublic hsequence
  · refine .addsPlayer ?_ (by simpa using hroom) (by simpa using hknown) rfl hpublic rfl
    simpa using (Bool.and_eq_true_iff.mp hrefused.1.2).1

theorem does_reply (turnId : UInt64) (player : ObjectGuid) : Does s (.reply turnId player text atMs)
    (s.rememberPlayerReply turnId player text atMs).1 (s.rememberPlayerReply turnId player text atMs).2 := by
  unfold rememberPlayerReply
  split_ifs with hrefused
  · exact .same _
  have hsame := observe_records s atMs
  generalize s.observe atMs = answered at hsame ⊢
  obtain ⟨observed, t⟩ := answered
  obtain ⟨hprivate, hpublic, hsequence⟩ := hsame
  dsimp only at hprivate hpublic hsequence ⊢
  split_ifs
  · exact .rejects hprivate hpublic hsequence
  rw [hprivate]
  cases hanswer : answer turnId player text atMs s.privateRecords with
  | none => exact .rejects hprivate hpublic hsequence
  | some entries =>
    obtain ⟨old, hchanged⟩ := answer_changed hanswer
    exact .answers hchanged hpublic hsequence

theorem does_npc (utteranceId : UInt64) : Does s (.npc utteranceId speaker text atMs)
    (s.rememberNpc utteranceId speaker text atMs).1 (s.rememberNpc utteranceId speaker text atMs).2 := by
  unfold rememberNpc
  split_ifs with hrefused
  · exact .same _
  have hsame := observe_records s atMs
  generalize s.observe atMs = answered at hsame ⊢
  obtain ⟨observed, t⟩ := answered
  obtain ⟨hprivate, hpublic, hsequence⟩ := hsame
  dsimp only at hprivate hpublic hsequence ⊢
  split_ifs with hlate hknown
  · exact .rejects hprivate hpublic hsequence
  · exact .rejects hprivate hpublic hsequence
  rcases publish_cases (s := t) (ascii "NPC_DIALOGUE") speaker text atMs utteranceId with hfull | ⟨hroom, heq⟩
  · rw [hfull]
    exact .rejects hprivate hpublic hsequence
  · rw [heq, hsequence, hpublic]
    rw [canAllocate_congr hsequence] at hroom
    rw [hpublic] at hknown
    exact .addsNpc hroom (by simpa using hknown) rfl hprivate rfl

theorem does_action : Does s (.action speaker text atMs) (s.rememberAction speaker text atMs).1
    (s.rememberAction speaker text atMs).2 := by
  unfold rememberAction
  split_ifs with hrefused
  · exact .same _
  have hsame := observe_records s atMs
  generalize s.observe atMs = answered at hsame ⊢
  obtain ⟨observed, t⟩ := answered
  obtain ⟨hprivate, hpublic, hsequence⟩ := hsame
  dsimp only at hprivate hpublic hsequence ⊢
  split_ifs
  · exact .rejects hprivate hpublic hsequence
  cases hrenew : renew speaker text atMs t.publicRecords with
  | some entries =>
    obtain ⟨old, hold, hchanged⟩ := renew_changed hrenew
    rw [hpublic] at hchanged
    exact .renews hold hchanged hprivate hsequence
  | none =>
    dsimp only
    rcases publish_cases (s := t) (ascii "ACTION_RESULT") speaker text atMs 0 with hfull | ⟨hroom, heq⟩
    · rw [hfull]
      exact .rejects hprivate hpublic hsequence
    · rw [heq, hsequence, hpublic]
      rw [canAllocate_congr hsequence] at hroom
      rw [hpublic] at hrenew
      exact .addsAction hroom (renew_none hrenew) rfl hprivate rfl

end Operations

theorem does_apply (s : NpcAgentMemoryStore) (op : MemoryOp) : Does s op (s.apply op).1 (s.apply op).2 := by
  cases op with
  | player turnId player speaker text atMs => exact does_player s speaker text atMs turnId player
  | reply turnId player response atMs => exact does_reply s response atMs turnId player
  | npc utteranceId speaker text atMs => exact does_npc s speaker text atMs utteranceId
  | action speaker feedback atMs => exact does_action s speaker feedback atMs

/-! ### What gives way -/

/-- The least record of some by time and number. -/
def Oldest (scope : List Record) (oldest : Record) : Prop :=
  oldest ∈ scope ∧ ∀ entry ∈ scope, toLex (oldest.atMs.toNat, oldest.id.toNat) ≤ toLex (entry.atMs.toNat, entry.id.toNat)

/-- The private records that stay when one of a player is added. -/
inductive PrivateEviction (entries : List Record) (player : ObjectGuid) : List Record → Prop
  | none : PrivateEviction entries player entries
  | ofPlayer {oldest : Record} (hfull : entries.countP (·.player = player) = 32)
      (holdest : Oldest (entries.filter (·.player = player)) oldest) :
      PrivateEviction entries player (entries.erase oldest)
  | ofAll {oldest : Record} (hfull : entries.length = 64) (holdest : Oldest entries oldest) :
      PrivateEviction entries player (entries.erase oldest)
  | partner {evicted : ObjectGuid} (hnew : player ∉ partners entries) (hfull : (partners entries).length = 8)
      (hevicted : evicted ∈ partners entries)
      (hsilent : ∀ partner ∈ partners entries, lastPlayerAt entries evicted ≤ lastPlayerAt entries partner) :
      PrivateEviction entries player (entries.filter (·.player ≠ evicted))

/-- The public records that stay when one is added. -/
inductive PublicEviction (entries : List Record) : List Record → Prop
  | none : PublicEviction entries entries
  | oldest {oldest : Record} (hfull : entries.length = 32) (holdest : Oldest entries oldest) :
      PublicEviction entries (entries.erase oldest)

theorem eraseOldest_oldest {entries : List Record} (player : ObjectGuid)
    (h : (entries.filter fun entry => player.isEmpty || entry.player = player) ≠ []) : ∃ oldest,
      Oldest (entries.filter fun entry => player.isEmpty || entry.player = player) oldest ∧
        eraseOldest entries player = entries.erase oldest := by
  unfold eraseOldest
  cases hleast : (entries.filter fun entry => player.isEmpty || entry.player = player).argmin
      fun entry => toLex (entry.atMs.toNat, entry.id.toNat) with
  | none => exact absurd (List.argmin_eq_none.mp hleast) h
  | some oldest =>
    refine ⟨oldest, ⟨List.argmin_mem hleast, fun entry hentry => ?_⟩, rfl⟩
    exact List.le_of_mem_argmin (f := fun entry : Record => toLex (entry.atMs.toNat, entry.id.toNat)) hentry hleast

theorem eraseOldest_all {entries : List Record} (h : entries ≠ []) :
    ∃ oldest, Oldest entries oldest ∧ eraseOldest entries {} = entries.erase oldest := by
  have hall : entries.filter (fun entry => ({} : ObjectGuid).isEmpty || entry.player = {}) = entries :=
    List.filter_eq_self.mpr fun entry _ => rfl
  have hsome : (entries.filter fun entry => ({} : ObjectGuid).isEmpty || entry.player = {}) ≠ [] := by rwa [hall]
  obtain ⟨oldest, holdest, herase⟩ := eraseOldest_oldest {} hsome
  exact ⟨oldest, by rwa [hall] at holdest, herase⟩

theorem publicRoom_evicts (entries : List Record) : PublicEviction entries (publicRoom entries) := by
  unfold publicRoom
  split_ifs with hfull
  · have hne : entries ≠ [] := by
      rintro rfl
      contradiction
    obtain ⟨oldest, holdest, herase⟩ := eraseOldest_all hne
    rw [herase]
    exact .oldest hfull holdest
  · exact .none

theorem makeRoom_evicts {entries : List Record} {player : ObjectGuid} (hplayer : player.isEmpty = false)
    (hlength : entries.length ≤ 64) (hcount : entries.countP (·.player = player) ≤ 32)
    (hpartners : (partners entries).length ≤ 8) : PrivateEviction entries player (makeRoom entries player) := by
  unfold makeRoom evictPartner
  by_cases hninth : player ∉ partners entries ∧ (partners entries).length ≥ 8
  · rw [if_pos hninth]
    cases hleast : (partners entries).argmin fun partner => (lastPlayerAt entries partner).toNat with
    | none =>
      rw [List.argmin_eq_none.mp hleast] at hninth
      simp at hninth
    | some evicted =>
      have hevicted := List.argmin_mem hleast
      obtain ⟨entry, hentry, hof⟩ := mem_partners.mp hevicted
      have hless : (entries.filter (·.player ≠ evicted)).length < entries.length :=
        List.length_filter_lt_length_iff_exists.mpr ⟨entry, hentry, by simpa using hof⟩
      have hnone : (entries.filter (·.player ≠ evicted)).countP (·.player = player) = 0 :=
        List.countP_eq_zero.mpr fun entry hentry => by
          have hknown := mem_partners.mpr ⟨entry, List.mem_of_mem_filter hentry, rfl⟩
          simpa using fun heq : entry.player = player => hninth.1 (heq ▸ hknown)
      have hfew : ¬(entries.filter (·.player ≠ evicted)).countP (·.player = player) ≥ 32 := by omega
      have hshort : ¬(entries.filter (·.player ≠ evicted)).length ≥ 64 := by omega
      dsimp only
      rw [if_neg hfew, if_neg hshort]
      refine .partner hninth.1 (by omega) hevicted fun partner hpartner => UInt64.le_iff_toNat_le.mpr ?_
      exact List.le_of_mem_argmin (f := fun partner => (lastPlayerAt entries partner).toNat) hpartner hleast
  · rw [if_neg hninth]
    by_cases hmany : entries.countP (·.player = player) ≥ 32
    · have hscope : (entries.filter fun entry => player.isEmpty || entry.player = player) =
          entries.filter (·.player = player) := by simp [hplayer]
      have hne : entries.filter (·.player = player) ≠ [] := by
        rw [← List.length_pos_iff, ← List.countP_eq_length_filter]
        omega
      obtain ⟨oldest, holdest, herase⟩ := eraseOldest_oldest player (hscope ▸ hne)
      have hmem := List.mem_of_mem_filter holdest.1
      have hlengthErase := List.length_erase_of_mem hmem
      dsimp only
      rw [if_pos hmany, herase, if_neg (by omega)]
      exact .ofPlayer (by omega) (hscope ▸ holdest)
    · dsimp only
      rw [if_neg hmany]
      split_ifs with hfull
      · have hne : entries ≠ [] := by
          rintro rfl
          simp at hfull
        obtain ⟨oldest, holdest, herase⟩ := eraseOldest_all hne
        rw [herase]
        exact .ofAll (by omega) holdest
      · exact .none

theorem PrivateEviction.sublist {entries kept : List Record} {player : ObjectGuid}
    (h : PrivateEviction entries player kept) : kept.Sublist entries := by
  cases h with
  | none => exact .refl _
  | ofPlayer => exact List.erase_sublist
  | ofAll => exact List.erase_sublist
  | partner => exact List.filter_sublist

theorem PublicEviction.sublist {entries kept : List Record} (h : PublicEviction entries kept) : kept.Sublist entries := by
  cases h with
  | none => exact .refl _
  | oldest => exact List.erase_sublist

/-- Private records are only taken away to make room for one more. -/
def PrivateStep (s t : NpcAgentMemoryStore) : Prop :=
  t.privateRecords.map Record.id = s.privateRecords.map Record.id ∨ ∃ player kept new,
    PrivateEviction s.privateRecords player kept ∧ new.player = player ∧ new.id = s.sequence + 1 ∧
      t.privateRecords = kept ++ [new]

def PublicStep (s t : NpcAgentMemoryStore) : Prop :=
  t.publicRecords.map Record.id = s.publicRecords.map Record.id ∨ ∃ kept new,
    PublicEviction s.publicRecords kept ∧ new.id = s.sequence + 1 ∧ t.publicRecords = kept ++ [new]

theorem Does.privateStep (h : Does s op ok t) (hs : Holds s) : PrivateStep s t := by
  cases h with
  | rejects hprivate => exact .inl (by rw [hprivate])
  | answers hchanged => exact .inl (hchanged.map_id ⟨rfl, rfl⟩)
  | renews _ _ hprivate => exact .inl (by rw [hprivate])
  | addsPlayer hplayer hroom hfresh hprivate =>
    have hpartners := hs.bounded.players
    rw [← length_partners] at hpartners
    exact .inr ⟨_, _, _, makeRoom_evicts hplayer hs.bounded.privateRecords (hs.bounded.perPlayer _) hpartners, rfl, rfl,
      hprivate⟩
  | addsNpc _ _ _ hprivate => exact .inl (by rw [hprivate])
  | addsAction _ _ _ hprivate => exact .inl (by rw [hprivate])

theorem Does.publicStep (h : Does s op ok t) : PublicStep s t := by
  cases h with
  | rejects _ hpublic => exact .inl (by rw [hpublic])
  | answers _ hpublic => exact .inl (by rw [hpublic])
  | renews _ hchanged => exact .inl (hchanged.map_id ⟨rfl, rfl⟩)
  | addsPlayer _ _ _ _ hpublic => exact .inl (by rw [hpublic])
  | addsNpc _ _ hpublic => exact .inr ⟨_, _, publicRoom_evicts _, rfl, hpublic⟩
  | addsAction _ _ hpublic => exact .inr ⟨_, _, publicRoom_evicts _, rfl, hpublic⟩

/-- A record of afterwards was there before, or it has the next number. -/
theorem Does.id_cases (h : Does s op ok t) (hs : Holds s) {entry : Record} (hentry : entry ∈ t.records) :
    (∃ old ∈ s.records, old.id = entry.id) ∨ entry.id = s.sequence + 1 := by
  have hsame {entries entries' : List Record} (hids : entries'.map Record.id = entries.map Record.id)
      (hmem : entry ∈ entries') : ∃ old ∈ entries, old.id = entry.id :=
    List.mem_map.mp (hids ▸ List.mem_map_of_mem hmem)
  rcases List.mem_append.mp hentry with hmem | hmem
  · rcases h.privateStep hs with hids | ⟨player, kept, new, hkept, -, hnew, heq⟩
    · obtain ⟨old, hold, hid⟩ := hsame hids hmem
      exact .inl ⟨old, List.mem_append_left _ hold, hid⟩
    · rw [heq] at hmem
      rcases List.mem_append.mp hmem with hold | hlast
      · exact .inl ⟨entry, List.mem_append_left _ (hkept.sublist.subset hold), rfl⟩
      · rw [List.mem_singleton.mp hlast]
        exact .inr hnew
  · rcases h.publicStep with hids | ⟨kept, new, hkept, hnew, heq⟩
    · obtain ⟨old, hold, hid⟩ := hsame hids hmem
      exact .inl ⟨old, List.mem_append_right _ hold, hid⟩
    · rw [heq] at hmem
      rcases List.mem_append.mp hmem with hold | hlast
      · exact .inl ⟨entry, List.mem_append_right _ (hkept.sublist.subset hold), rfl⟩
      · rw [List.mem_singleton.mp hlast]
        exact .inr hnew

theorem Does.sequence_cases (h : Does s op ok t) : t.sequence = s.sequence ∨ s.canAllocate = true ∧ t.sequence = s.sequence + 1 := by
  cases h with
  | rejects _ _ hsequence => exact .inl hsequence
  | answers _ _ hsequence => exact .inl hsequence
  | renews _ _ _ hsequence => exact .inl hsequence
  | addsPlayer _ hroom _ _ _ hsequence => exact .inr ⟨hroom, hsequence⟩
  | addsNpc hroom _ _ _ hsequence => exact .inr ⟨hroom, hsequence⟩
  | addsAction hroom _ _ _ hsequence => exact .inr ⟨hroom, hsequence⟩

/-! ### One record of each -/

def SameTurn (a b : Record) : Prop := a.turnId = b.turnId ∧ a.player = b.player

def SameUtterance (a b : Record) : Prop :=
  a.kind = ascii "NPC_DIALOGUE" ∧ b.kind = ascii "NPC_DIALOGUE" ∧ a.turnId = b.turnId

def SameOutcome (a b : Record) : Prop :=
  a.kind = ascii "ACTION_RESULT" ∧ b.kind = ascii "ACTION_RESULT" ∧ a.speaker = b.speaker ∧ a.text = b.text

/-- No experience is held twice. -/
structure Once (s : NpcAgentMemoryStore) : Prop where
  turn : s.privateRecords.Pairwise fun a b => ¬SameTurn a b
  utterance : s.publicRecords.Pairwise fun a b => ¬SameUtterance a b
  outcome : s.publicRecords.Pairwise fun a b => ¬SameOutcome a b

/-- The text of every public record is clean. -/
def Trimmed (s : NpcAgentMemoryStore) : Prop :=
  ∀ entry ∈ s.publicRecords, cleanNpcAgentSpeechText entry.text = entry.text

/-- An outcome that is reported has no blanks around it, or no record of it is held. -/
def Plain (s : NpcAgentMemoryStore) (op : MemoryOp) : Prop :=
  ∀ speaker feedback atMs, op = .action speaker feedback atMs → cleanNpcAgentSpeechText feedback = feedback ∨
    ∀ entry ∈ s.publicRecords, ¬(entry.kind = ascii "ACTION_RESULT" ∧ entry.speaker = speaker ∧
      entry.text = cleanNpcAgentSpeechText feedback)

theorem pairwise_changed {R : Record → Record → Prop} {old new : Record} {entries entries' : List Record}
    (h : ChangedAt old new entries entries') (hleft : ∀ entry, R entry old → R entry new)
    (hright : ∀ entry, R old entry → R new entry) (hR : entries.Pairwise R) : entries'.Pairwise R := by
  obtain ⟨front, back, rfl, rfl⟩ := h
  rw [List.pairwise_append, List.pairwise_cons] at hR ⊢
  obtain ⟨hfront, ⟨hold, hback⟩, hcross⟩ := hR
  refine ⟨hfront, ⟨fun entry hentry => hright entry (hold entry hentry), hback⟩, fun a ha b hb => ?_⟩
  rcases List.mem_cons.mp hb with rfl | hb
  · exact hleft a (hcross a ha old List.mem_cons_self)
  · exact hcross a ha b (List.mem_cons_of_mem _ hb)

theorem pairwise_add {R : Record → Record → Prop} {new : Record} {entries kept : List Record}
    (hkept : kept.Sublist entries) (hnew : ∀ entry ∈ entries, R entry new) (hR : entries.Pairwise R) :
    (kept ++ [new]).Pairwise R := by
  refine List.pairwise_append.mpr ⟨hR.sublist hkept, List.pairwise_singleton _ _, fun a ha b hb => ?_⟩
  rw [List.mem_singleton.mp hb]
  exact hnew a (hkept.subset ha)

theorem kinds_ne : ascii "NPC_DIALOGUE" ≠ ascii "ACTION_RESULT" := by decide

theorem Does.once (h : Does s op ok t) (hs : Holds s) (honce : Once s) (hplain : Plain s op) : Once t := by
  have hpublicRoom := (publicRoom_evicts s.publicRecords).sublist
  cases h with
  | rejects hprivate hpublic => exact ⟨hprivate ▸ honce.turn, hpublic ▸ honce.utterance, hpublic ▸ honce.outcome⟩
  | answers hchanged hpublic =>
    exact ⟨pairwise_changed hchanged (fun _ h => h) (fun _ h => h) honce.turn, hpublic ▸ honce.utterance,
      hpublic ▸ honce.outcome⟩
  | renews _ hchanged hprivate =>
    exact ⟨hprivate ▸ honce.turn, pairwise_changed hchanged (fun _ h => h) (fun _ h => h) honce.utterance,
      pairwise_changed hchanged (fun _ h => h) (fun _ h => h) honce.outcome⟩
  | addsPlayer hplayer _ hfresh hprivate hpublic =>
    have hpartners := hs.bounded.players
    rw [← length_partners] at hpartners
    have hroom := (makeRoom_evicts hplayer hs.bounded.privateRecords (hs.bounded.perPlayer _) hpartners).sublist
    refine ⟨?_, hpublic ▸ honce.utterance, hpublic ▸ honce.outcome⟩
    rw [hprivate]
    exact pairwise_add hroom hfresh honce.turn
  | addsNpc _ hfresh hpublic hprivate =>
    refine ⟨hprivate ▸ honce.turn, ?_, ?_⟩ <;> rw [hpublic]
    · exact pairwise_add hpublicRoom (fun entry hentry hsame => hfresh entry hentry ⟨hsame.1, hsame.2.2⟩) honce.utterance
    · exact pairwise_add hpublicRoom (fun entry _ hsame => kinds_ne hsame.2.1) honce.outcome
  | addsAction _ hfresh hpublic hprivate =>
    refine ⟨hprivate ▸ honce.turn, ?_, ?_⟩ <;> rw [hpublic]
    · exact pairwise_add hpublicRoom (fun entry _ hsame => kinds_ne hsame.2.1.symm) honce.utterance
    · refine pairwise_add hpublicRoom (fun entry hentry hsame => ?_) honce.outcome
      rcases hplain _ _ _ rfl with hclean | hnone
      · exact hfresh entry hentry ⟨hsame.1, hsame.2.2.1, hsame.2.2.2.trans hclean⟩
      · exact hnone entry hentry ⟨hsame.1, hsame.2.2.1, hsame.2.2.2⟩

theorem dropWhile_of_front {p : UInt8 → Bool} {l l' : Bytes} (h : l' <+: l) (hl : l.dropWhile p = l) :
    l'.dropWhile p = l' := by
  refine List.dropWhile_eq_self_iff.mpr fun hpos => ?_
  rw [h.getElem hpos]
  exact List.dropWhile_eq_self_iff.mp hl (hpos.trans_le h.length_le)

/-- Blanks are taken away at once. -/
theorem clean_clean (text : Bytes) :
    cleanNpcAgentSpeechText (cleanNpcAgentSpeechText text) = cleanNpcAgentSpeechText text := by
  by_cases hvalid : validateNpcAgentSpeechText text = true
  · have hagain := cleanNpcAgentSpeechText_valid hvalid
    have hclean {t : Bytes} (h : validateNpcAgentSpeechText t = true) :
        cleanNpcAgentSpeechText t = (t.dropWhile (· = 0x20)).rdropWhile (· = 0x20) := by
      simp [cleanNpcAgentSpeechText, h]
    rw [hclean hagain, hclean hvalid]
    rw [dropWhile_of_front (List.rdropWhile_prefix _ _) (List.dropWhile_idempotent _ _), List.rdropWhile_idempotent]
  · have hnil : cleanNpcAgentSpeechText text = [] := by simp [cleanNpcAgentSpeechText, hvalid]
    rw [hnil]
    rfl

theorem Does.trimmed (h : Does s op ok t) (htrimmed : Trimmed s) : Trimmed t := by
  have hadd {new : Record} (hnew : cleanNpcAgentSpeechText new.text = new.text)
      (heq : t.publicRecords = publicRoom s.publicRecords ++ [new]) : Trimmed t := by
    intro entry hentry
    rw [heq] at hentry
    rcases List.mem_append.mp hentry with hold | hlast
    · exact htrimmed entry ((publicRoom_evicts s.publicRecords).sublist.subset hold)
    · rwa [List.mem_singleton.mp hlast]
  cases h with
  | rejects _ hpublic => exact fun entry hentry => htrimmed entry (hpublic ▸ hentry)
  | answers _ hpublic => exact fun entry hentry => htrimmed entry (hpublic ▸ hentry)
  | @renews _ _ _ old _ _ hchanged => exact hchanged.forall_mem htrimmed (htrimmed old hchanged.mem_old)
  | addsPlayer _ _ _ _ hpublic => exact fun entry hentry => htrimmed entry (hpublic ▸ hentry)
  | addsNpc _ _ hpublic => exact hadd (clean_clean _) hpublic
  | addsAction _ _ hpublic => exact hadd (clean_clean _) hpublic

/-! ### Repetitions -/

/-- The record that an operation is about. -/
def Held (s : NpcAgentMemoryStore) : MemoryOp → Prop
  | .player turnId player _ _ _ => ∃ entry ∈ s.privateRecords, entry.turnId = turnId ∧ entry.player = player
  | .reply _ _ _ _ => True
  | .npc utteranceId _ _ _ =>
    ∃ entry ∈ s.publicRecords, entry.kind = ascii "NPC_DIALOGUE" ∧ entry.turnId = utteranceId
  | .action speaker feedback _ => ∃ entry ∈ s.publicRecords,
    entry.kind = ascii "ACTION_RESULT" ∧ entry.speaker = speaker ∧ entry.text = cleanNpcAgentSpeechText feedback

theorem ChangedAt.mem_new {old new : Record} {entries entries' : List Record} (h : ChangedAt old new entries entries') :
    new ∈ entries' := by
  obtain ⟨front, back, -, rfl⟩ := h
  simp

/-- What is accepted is held afterwards. -/
theorem Does.held (h : Does s op true t) (htrimmed : Trimmed s) : Held t op := by
  cases h with
  | answers => trivial
  | renews hold hchanged =>
    obtain ⟨hkind, hspeaker, htext⟩ := hold
    refine ⟨_, hchanged.mem_new, hkind, hspeaker, ?_⟩
    rw [← htext]
    exact (htrimmed _ hchanged.mem_old).symm
  | addsPlayer _ _ _ hprivate => exact ⟨_, hprivate ▸ List.mem_append_right _ (List.mem_singleton_self _), rfl, rfl⟩
  | addsNpc _ _ hpublic => exact ⟨_, hpublic ▸ List.mem_append_right _ (List.mem_singleton_self _), rfl, rfl⟩
  | addsAction _ _ hpublic => exact ⟨_, hpublic ▸ List.mem_append_right _ (List.mem_singleton_self _), rfl, rfl, rfl⟩

theorem Does.rejected (h : Does s op false t) : t.records = s.records := by
  cases h with
  | rejects hprivate hpublic => rw [records, records, hprivate, hpublic]

/-- What is held is not added again. -/
theorem Does.repeated (h : Does s op ok t) (hheld : Held s op) (hplain : Plain s op) :
    t.records.map Record.id = s.records.map Record.id := by
  have hsame (hprivate : t.privateRecords.map Record.id = s.privateRecords.map Record.id)
      (hpublic : t.publicRecords.map Record.id = s.publicRecords.map Record.id) :
      t.records.map Record.id = s.records.map Record.id := by
    rw [records, records, List.map_append, List.map_append, hprivate, hpublic]
  cases h with
  | rejects hprivate hpublic => exact hsame (by rw [hprivate]) (by rw [hpublic])
  | answers hchanged hpublic => exact hsame (hchanged.map_id ⟨rfl, rfl⟩) (by rw [hpublic])
  | renews _ hchanged hprivate => exact hsame (by rw [hprivate]) (hchanged.map_id ⟨rfl, rfl⟩)
  | addsPlayer _ _ hfresh =>
    obtain ⟨entry, hentry, hkey⟩ := hheld
    exact absurd hkey (hfresh entry hentry)
  | addsNpc _ hfresh =>
    obtain ⟨entry, hentry, hkey⟩ := hheld
    exact absurd hkey (hfresh entry hentry)
  | addsAction _ hfresh =>
    obtain ⟨entry, hentry, hkind, hspeaker, htext⟩ := hheld
    rcases hplain _ _ _ rfl with hclean | hnone
    · exact absurd ⟨hkind, hspeaker, htext.trans hclean⟩ (hfresh entry hentry)
    · exact absurd ⟨hkind, hspeaker, htext⟩ (hnone entry hentry)

/-! ### Runs -/

variable {tr : List (Event NpcAgentMemoryStore MemoryOp Bool)}

theorem step_eq (h : machine.step s op = some (ok, t)) : Does s op ok t ∧ (s.apply op).2 = t := by
  have happly : s.apply op = (ok, t) := Option.some.inj h
  have hdoes := does_apply s op
  rw [happly] at hdoes
  exact ⟨hdoes, by rw [happly]⟩

theorem holds_step (hs : Holds s) (h : machine.step s op = some (ok, t)) : Holds t := by
  have hholds := hs.apply op
  rwa [(step_eq h).2] at hholds

theorem trimmed_run (hrun : machine.Run {} tr s) : Trimmed s :=
  hrun.invariant (fun _ _ _ _ hm h => (step_eq h).1.trimmed hm) fun _ hentry => absurd hentry List.not_mem_nil

theorem holds_run (hrun : machine.Run {} tr s) : Holds s :=
  hrun.invariant (fun _ _ _ _ hm h => holds_step hm h) holds_empty

theorem once_run (hrun : machine.Run {} tr s) (hplain : ∀ e ∈ tr, Plain e.pre e.input) : Once s := by
  have hboth : Holds s ∧ Once s := by
    refine hrun.invariant_of_forall (P := fun s => Holds s ∧ Once s) (fun m op o m' hm hC h => ?_) hplain
      ⟨holds_empty, .nil, .nil, .nil⟩
    exact ⟨holds_step hm.1 h, (step_eq h).1.once hm.1 hm.2 hC⟩
  exact hboth.2

/-- Numbers grow from each event to the next. -/
theorem numbers_grow (hrun : machine.Run {} tr s) : tr.Pairwise fun e e' => ∀ old ∈ e.post.records,
    ∀ new ∈ e'.post.records, (∀ entry ∈ e'.pre.records, entry.id ≠ new.id) → old.id < new.id := by
  refine hrun.pairwise (P := Holds) (Q := fun e m => ∀ old ∈ e.post.records, old.id ≤ m.sequence)
    (fun _ _ _ _ hm h => holds_step hm h) (fun e hpre hstep old hold => ?_) (fun e m op o m' hm hQ h old hold => ?_)
    (fun e e' hpre hstep hQ old hold new hnew hfresh => ?_) holds_empty
  · exact ((holds_step hpre hstep).sound old hold).known
  · rcases (step_eq h).1.sequence_cases with heq | ⟨hroom, heq⟩ <;> rw [heq]
    · exact hQ old hold
    · exact UInt64.le_trans (hQ old hold) (UInt64.le_of_lt (next_sequence hroom).1)
  · have hdoes := (step_eq hstep).1
    rcases hdoes.id_cases hpre hnew with ⟨entry, hentry, hid⟩ | hid
    · exact absurd hid (hfresh entry hentry)
    · have hsound := (holds_step hpre hstep).sound new hnew
      have hnonzero := hsound.id_pos
      rw [hid] at hnonzero ⊢
      exact UInt64.lt_of_le_of_lt (hQ old hold) (by grind)

/-- An outcome is reported twice, and one player speaks. -/
def plainOps : List MemoryOp :=
  [.action (ascii "Mara") (ascii "Done.") 1, .action (ascii "Mara") (ascii "Done.") 2,
    .player 1 ⟨5⟩ (ascii "Anna") (ascii " Hello. ") 3]

/-- With a blank around it, the same outcome is reported twice and held twice. -/
def blankOps : List MemoryOp :=
  [.action (ascii "Mara") (ascii " Done.") 1, .action (ascii "Mara") (ascii " Done.") 2]

end AIWorld.Agent.NpcAgentMemoryStore
