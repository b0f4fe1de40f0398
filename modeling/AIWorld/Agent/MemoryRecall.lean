import AIWorld.Agent.NpcAgentMemory

/-! Whatever is recalled passes the check of a request. Records are sound when they are made and stay so,
the store keeps its bounds, and the choice of what is recalled stays within the limits of the check. -/

namespace AIWorld.Agent.NpcAgentMemoryStore

open Lib
open Lib.Json (Bytes ascii)
open Quest (ObjectGuid)
open Inference (NpcAgentMemory NpcAgentSpeechContext validMemory validMemories validMemories_iff oneOf)

/-! ### Sound records -/

/-- What every record keeps: its number and texts that can be sent. -/
structure Record.Sound (sequence : UInt64) (entry : Record) : Prop where
  id_pos : entry.id ≠ 0
  known : entry.id ≤ sequence
  speaker : validateNpcAgentPlainText entry.speaker 80 32 false = true
  text : validateNpcAgentSpeechText entry.text = true
  response : entry.response = [] ∨ validateNpcAgentSpeechText entry.response = true

structure Record.Personal (entry : Record) : Prop where
  kind : entry.kind = ascii "PLAYER_DIALOGUE"
  player : entry.player.isPlayer = true

structure Record.Public (entry : Record) : Prop where
  kind : entry.kind = ascii "NPC_DIALOGUE" ∨ entry.kind = ascii "ACTION_RESULT"
  player : entry.player.isEmpty = true
  response : entry.response = []

def records (s : NpcAgentMemoryStore) : List Record := s.privateRecords ++ s.publicRecords

/-- The limits of the store. -/
structure Bounded (s : NpcAgentMemoryStore) : Prop where
  privateRecords : s.privateRecords.length ≤ 64
  publicRecords : s.publicRecords.length ≤ 32
  perPlayer : ∀ player : ObjectGuid, s.privateRecords.countP (·.player = player) ≤ 32
  players : (s.privateRecords.map Record.player).toFinset.card ≤ 8

structure Holds (s : NpcAgentMemoryStore) : Prop where
  sound : ∀ entry ∈ s.records, entry.Sound s.sequence
  personal : ∀ entry ∈ s.privateRecords, entry.Personal
  shared : ∀ entry ∈ s.publicRecords, entry.Public
  distinct : (s.records.map Record.id).Nodup
  bounded : Bounded s

/-! ### Making room -/

theorem eraseOldest_sublist (entries : List Record) (player : ObjectGuid) :
    (eraseOldest entries player).Sublist entries := by
  unfold eraseOldest
  split
  · exact List.Sublist.refl _
  · exact List.erase_sublist

/-- When a player has a record, one of them gives way. -/
theorem eraseOldest_of_mem {entries : List Record} (player : ObjectGuid) {entry : Record} (hmem : entry ∈ entries)
    (hplayer : player.isEmpty = true ∨ entry.player = player) : ∃ oldest ∈ entries,
      (player.isEmpty = true ∨ oldest.player = player) ∧ eraseOldest entries player = entries.erase oldest := by
  have hcandidate : entry ∈ entries.filter fun entry => player.isEmpty || entry.player = player := by
    simp [hmem, hplayer]
  unfold eraseOldest
  cases h : (entries.filter fun entry => player.isEmpty || entry.player = player).argmin
      fun entry => toLex (entry.atMs.toNat, entry.id.toNat) with
  | none =>
    rw [List.argmin_eq_none.mp h] at hcandidate
    contradiction
  | some oldest =>
    have holdest := List.argmin_mem h
    simp only [List.mem_filter, Bool.or_eq_true, decide_eq_true_eq] at holdest
    exact ⟨oldest, holdest.1, holdest.2, rfl⟩

theorem length_eraseOldest {entries : List Record} (h : entries ≠ []) :
    (eraseOldest entries {}).length + 1 = entries.length := by
  obtain ⟨entry, hentry⟩ := List.exists_mem_of_ne_nil _ h
  obtain ⟨oldest, hmem, -, hrest⟩ := eraseOldest_of_mem {} hentry (.inl rfl)
  rw [hrest, List.length_erase_of_mem hmem, Nat.sub_add_cancel (List.length_pos_of_mem hmem)]

theorem countP_eraseOldest (entries : List Record) {player : ObjectGuid}
    (h : 0 < entries.countP (·.player = player)) (hplayer : player.isEmpty = false) :
    (eraseOldest entries player).countP (·.player = player) + 1 = entries.countP (·.player = player) := by
  obtain ⟨entry, hentry, hof⟩ := List.countP_pos_iff.mp h
  obtain ⟨oldest, hmem, holdest, hrest⟩ := eraseOldest_of_mem player hentry (.inr (of_decide_eq_true hof))
  have hits : oldest.player = player := holdest.resolve_left (by simp [hplayer])
  rw [hrest, List.countP_erase]
  simp only [hmem, hits, decide_true, and_self, if_true]
  omega

/-! ### Partners -/

theorem mem_partners {entries : List Record} {player : ObjectGuid} :
    player ∈ partners entries ↔ ∃ entry ∈ entries, entry.player = player := by
  unfold partners
  suffices h : ∀ seen : List ObjectGuid, player ∈ entries.foldl (fun partners entry =>
      if entry.player ∈ partners then partners else partners ++ [entry.player]) seen ↔
        player ∈ seen ∨ ∃ entry ∈ entries, entry.player = player by simpa using h []
  induction entries with
  | nil => simp
  | cons entry entries ih =>
    intro seen
    rw [List.foldl_cons, ih]
    simp only [List.exists_mem_cons_iff]
    split_ifs with hseen
    · exact ⟨fun h => h.imp_right .inr, fun h => h.elim .inl fun h => h.elim (fun h => .inl (h ▸ hseen)) .inr⟩
    · rw [List.mem_append, List.mem_singleton, eq_comm (a := player), or_assoc]

theorem nodup_partners (entries : List Record) : (partners entries).Nodup := by
  unfold partners
  suffices h : ∀ seen : List ObjectGuid, seen.Nodup → (entries.foldl (fun partners entry =>
      if entry.player ∈ partners then partners else partners ++ [entry.player]) seen).Nodup from h [] List.nodup_nil
  induction entries with
  | nil => exact fun _ hseen => hseen
  | cons entry entries ih =>
    intro seen hseen
    rw [List.foldl_cons]
    refine ih _ ?_
    split_ifs with hmem
    · exact hseen
    · exact List.nodup_append.mpr ⟨hseen, List.nodup_singleton _, by rintro a ha b hb rfl; simp_all⟩

theorem toFinset_partners (entries : List Record) :
    (partners entries).toFinset = (entries.map Record.player).toFinset := by
  ext player
  simp [mem_partners]

theorem length_partners (entries : List Record) :
    (partners entries).length = (entries.map Record.player).toFinset.card := by
  rw [← toFinset_partners, List.toFinset_card_of_nodup (nodup_partners entries)]

/-- A new player finds at most seven others. -/
theorem evictPartner_cases {entries : List Record} (player : ObjectGuid)
    (h : (entries.map Record.player).toFinset.card ≤ 8) :
    (evictPartner entries player).Sublist entries ∧
      (insert player ((evictPartner entries player).map Record.player).toFinset).card ≤ 8 := by
  unfold evictPartner
  split_ifs with hfull
  · cases hargmin : (partners entries).argmin fun partner => (lastPlayerAt entries partner).toNat with
    | none =>
      have hnil : partners entries = [] := List.argmin_eq_none.mp hargmin
      simp [hnil] at hfull
    | some evicted =>
      have hevicted : evicted ∈ (entries.map Record.player).toFinset := by
        rw [← toFinset_partners]
        exact List.mem_toFinset.mpr (List.argmin_mem hargmin)
      dsimp only
      refine ⟨List.filter_sublist, (Finset.card_insert_le _ _).trans ?_⟩
      have hsubset : ((entries.filter fun entry => entry.player ≠ evicted).map Record.player).toFinset ⊆
          (entries.map Record.player).toFinset.erase evicted := by
        intro partner hpartner
        simp only [List.mem_toFinset, List.mem_map, List.mem_filter, decide_eq_true_eq] at hpartner
        obtain ⟨entry, ⟨hentry, hne⟩, rfl⟩ := hpartner
        exact Finset.mem_erase.mpr ⟨hne, List.mem_toFinset.mpr (List.mem_map_of_mem hentry)⟩
      have hcard := Finset.card_le_card hsubset
      rw [Finset.card_erase_of_mem hevicted] at hcard
      have hpos := Finset.card_pos.mpr ⟨evicted, hevicted⟩
      omega
  · refine ⟨List.Sublist.refl _, ?_⟩
    rw [length_partners] at hfull
    by_cases hknown : player ∈ partners entries
    · rw [← toFinset_partners, Finset.insert_eq_of_mem (List.mem_toFinset.mpr hknown), toFinset_partners]
      exact h
    · have hfew : (entries.map Record.player).toFinset.card < 8 := not_le.mp fun h => hfull ⟨hknown, h⟩
      exact (Finset.card_insert_le _ _).trans hfew

/-- What is left has room for one more record of the player. -/
structure Room (entries kept : List Record) (player : ObjectGuid) : Prop where
  sublist : kept.Sublist entries
  length : kept.length < 64
  perPlayer : kept.countP (·.player = player) < 32
  players : (insert player (kept.map Record.player).toFinset).card ≤ 8

theorem card_insert_le_of_sublist {entries kept : List Record} (h : kept.Sublist entries) (player : ObjectGuid) :
    (insert player (kept.map Record.player).toFinset).card ≤
      (insert player (entries.map Record.player).toFinset).card := by
  refine Finset.card_le_card (Finset.insert_subset_insert _ ?_)
  exact fun partner hpartner => List.mem_toFinset.mpr ((h.map _).subset (List.mem_toFinset.mp hpartner))

theorem makeRoom_room {entries : List Record} {player : ObjectGuid} (hplayer : player.isEmpty = false)
    (hlength : entries.length ≤ 64) (hcount : entries.countP (·.player = player) ≤ 32)
    (hplayers : (entries.map Record.player).toFinset.card ≤ 8) : Room entries (makeRoom entries player) player := by
  unfold makeRoom
  dsimp only
  obtain ⟨hevict, hfew⟩ := evictPartner_cases player hplayers
  generalize evictPartner entries player = kept at hevict hfew
  have hkept : kept.countP (·.player = player) ≤ 32 := (hevict.countP_le).trans hcount
  have hown : (if kept.countP (·.player = player) ≥ 32 then eraseOldest kept player else kept).Sublist kept ∧
      (if kept.countP (·.player = player) ≥ 32 then eraseOldest kept player else kept).countP
        (·.player = player) < 32 := by
    split_ifs with hmany
    · have hless := countP_eraseOldest kept (by omega) hplayer
      exact ⟨eraseOldest_sublist _ _, by omega⟩
    · exact ⟨List.Sublist.refl _, not_le.mp hmany⟩
  generalize (if kept.countP (·.player = player) ≥ 32 then eraseOldest kept player else kept) = own at hown
  obtain ⟨hsub, hless⟩ := hown
  have hownlength := (hsub.trans hevict).length_le
  split_ifs with hfull
  · have hne : own ≠ [] := by
      rintro rfl
      simp at hfull
    have hroom := length_eraseOldest hne
    have herase := eraseOldest_sublist own {}
    exact ⟨(herase.trans hsub).trans hevict, by omega, (herase.countP_le).trans_lt hless,
      (card_insert_le_of_sublist (herase.trans hsub) player).trans hfew⟩
  · exact ⟨hsub.trans hevict, by omega, hless, (card_insert_le_of_sublist hsub player).trans hfew⟩

/-! ### One operation -/

section Step
variable {s : NpcAgentMemoryStore}

theorem Record.Sound.mono {sequence sequence' : UInt64} {entry : Record} (h : entry.Sound sequence)
    (hle : sequence ≤ sequence') : entry.Sound sequence' :=
  ⟨h.id_pos, UInt64.le_trans h.known hle, h.speaker, h.text, h.response⟩

/-- A number that was not given before. -/
theorem next_sequence (h : s.canAllocate = true) : s.sequence < s.sequence + 1 ∧ s.sequence + 1 ≠ 0 := by
  have hroom : s.sequence.toNat < 18446744073709551615 := UInt64.lt_iff_toNat_lt.mp (of_decide_eq_true h)
  have hnext : (s.sequence + 1).toNat = s.sequence.toNat + 1 := by
    rw [UInt64.toNat_add, UInt64.toNat_one, Nat.mod_eq_of_lt (by omega)]
  constructor
  · exact UInt64.lt_iff_toNat_lt.mpr (by omega)
  · intro hzero
    rw [hzero] at hnext
    simp at hnext

theorem sound_new (hroom : s.canAllocate = true) {speaker text : Bytes} (hvalid : valid speaker text = true)
    (atMs turnId : UInt64) (player : ObjectGuid) (kind : Bytes) :
    Record.Sound (s.sequence + 1)
      ⟨s.sequence + 1, atMs, turnId, player, kind, speaker, cleanNpcAgentSpeechText text, []⟩ := by
  obtain ⟨hspeaker, htext⟩ := Bool.and_eq_true_iff.mp hvalid
  exact ⟨(next_sequence hroom).2, UInt64.le_refl _, hspeaker, cleanNpcAgentSpeechText_valid htext, .inl rfl⟩

theorem Holds.ne_next (h : Holds s) (hroom : s.canAllocate = true) {entry : Record} (hentry : entry ∈ s.records) :
    entry.id ≠ s.sequence + 1 := by
  intro heq
  have hknown := (h.sound entry hentry).known
  rw [heq] at hknown
  exact UInt64.not_lt.mpr hknown (next_sequence hroom).1

/-- One more record among fewer. -/
theorem Holds.add {entries front back : List Record} {new : Record} (h : Holds s) (hroom : s.canAllocate = true)
    (hsub : (front ++ back).Sublist s.records) (hnew : new.id = s.sequence + 1)
    (hsound : new.Sound (s.sequence + 1)) (hentries : entries = front ++ new :: back) :
    (∀ entry ∈ entries, entry.Sound (s.sequence + 1)) ∧ (entries.map Record.id).Nodup := by
  subst hentries
  constructor
  · intro entry hentry
    have hmiddle : entry ∈ new :: (front ++ back) := List.perm_middle.mem_iff.mp hentry
    obtain rfl | hentry := List.mem_cons.mp hmiddle
    · exact hsound
    · exact (h.sound entry (hsub.subset hentry)).mono (UInt64.le_of_lt (next_sequence hroom).1)
  · rw [List.map_append, List.map_cons, List.nodup_middle, ← List.map_append, List.nodup_cons]
    refine ⟨?_, h.distinct.sublist (hsub.map _)⟩
    rintro hmem
    obtain ⟨entry, hentry, hid⟩ := List.mem_map.mp hmem
    exact h.ne_next hroom (hsub.subset hentry) (hid.trans hnew)

theorem Holds.addPrivate (h : Holds s) (hroom : s.canAllocate = true) {kept : List Record} {new : Record}
    (hkept : Room s.privateRecords kept new.player) (hnew : new.id = s.sequence + 1)
    (hsound : new.Sound (s.sequence + 1)) (hpersonal : new.Personal) :
    Holds { s with sequence := s.sequence + 1, privateRecords := kept ++ [new] } := by
  have hsub : (kept ++ s.publicRecords).Sublist s.records := hkept.sublist.append (List.Sublist.refl _)
  have hentries : kept ++ [new] ++ s.publicRecords = kept ++ new :: s.publicRecords := by simp
  obtain ⟨hall, hdistinct⟩ := h.add hroom hsub hnew hsound hentries
  refine ⟨hall, ?_, h.shared, hdistinct, ?_, h.bounded.publicRecords, ?_, ?_⟩
  · intro entry hentry
    obtain hentry | hentry := List.mem_append.mp hentry
    · exact h.personal entry (hkept.sublist.subset hentry)
    · rw [List.mem_singleton.mp hentry]
      exact hpersonal
  · have hlength := hkept.length
    simp only [List.length_append, List.length_singleton]
    omega
  · intro player
    rw [List.countP_append, List.countP_singleton]
    by_cases hplayer : new.player = player
    · subst hplayer
      have hcount := hkept.perPlayer
      simp only [decide_true, if_true]
      omega
    · have hcount := hkept.sublist.countP_le.trans (h.bounded.perPlayer player)
      simp only [hplayer, decide_false, Bool.false_eq_true, if_false, Nat.add_zero]
      exact hcount
  · have hplayers := hkept.players
    simp only [List.map_append, List.map_cons, List.map_nil, List.toFinset_append, List.toFinset_cons,
      List.toFinset_nil, insert_empty_eq]
    rwa [Finset.union_comm, ← Finset.insert_eq]

theorem Holds.publish (h : Holds s) {kind speaker text : Bytes} (hvalid : valid speaker text = true)
    (hkind : kind = ascii "NPC_DIALOGUE" ∨ kind = ascii "ACTION_RESULT") (atMs turnId : UInt64) :
    Holds (s.publish kind speaker text atMs turnId).2 := by
  unfold NpcAgentMemoryStore.publish
  split
  next => exact h
  next hroom =>
    replace hroom : s.canAllocate = true := by simpa using hroom
    dsimp only
    have hkept : (if s.publicRecords.length = 32 then eraseOldest s.publicRecords {} else s.publicRecords).Sublist
        s.publicRecords ∧
        (if s.publicRecords.length = 32 then eraseOldest s.publicRecords {} else s.publicRecords).length < 32 := by
      have hbound := h.bounded.publicRecords
      split_ifs with hfull
      · have hne : s.publicRecords ≠ [] := by
          intro hnil
          simp [hnil] at hfull
        have hlength := length_eraseOldest hne
        exact ⟨eraseOldest_sublist _ _, by omega⟩
      · exact ⟨List.Sublist.refl _, by omega⟩
    generalize (if s.publicRecords.length = 32 then eraseOldest s.publicRecords {} else s.publicRecords) = kept
      at hkept
    obtain ⟨hsublist, hlength⟩ := hkept
    have hsub : (s.privateRecords ++ kept ++ []).Sublist s.records := by
      rw [List.append_nil]
      exact (List.Sublist.refl _).append hsublist
    have hsound := sound_new hroom hvalid atMs turnId {} kind
    obtain ⟨hall, hdistinct⟩ := h.add hroom hsub rfl hsound rfl
    rw [List.append_assoc] at hall hdistinct
    refine ⟨hall, h.personal, ?_, hdistinct, h.bounded.privateRecords, ?_, h.bounded.perPlayer, h.bounded.players⟩
    · intro entry hentry
      obtain hentry | hentry := List.mem_append.mp hentry
      · exact h.shared entry (hsublist.subset hentry)
      · rw [List.mem_singleton.mp hentry]
        exact ⟨hkind, rfl, rfl⟩
    · simp only [List.length_append, List.length_singleton]
      omega

/-- One record of a list is changed in place. -/
def ChangedAt (old new : Record) (entries entries' : List Record) : Prop :=
  ∃ front back, entries = front ++ old :: back ∧ entries' = front ++ new :: back

theorem ChangedAt.cons {old new entry : Record} {entries entries' : List Record} (h : ChangedAt old new entries entries') :
    ChangedAt old new (entry :: entries) (entry :: entries') := by
  obtain ⟨front, back, rfl, rfl⟩ := h
  exact ⟨entry :: front, back, rfl, rfl⟩

theorem answer_changed {turnId atMs : UInt64} {player : ObjectGuid} {response : Bytes} {entries entries' : List Record}
    (h : answer turnId player response atMs entries = some entries') : ∃ entry,
      ChangedAt entry { entry with response := cleanNpcAgentSpeechText response, atMs } entries entries' := by
  induction entries generalizing entries' with
  | nil => contradiction
  | cons entry entries ih =>
    unfold answer at h
    split_ifs at h
    · cases h
      exact ⟨entry, [], entries, rfl, rfl⟩
    · obtain ⟨rest, hrest, rfl⟩ := Option.map_eq_some_iff.mp h
      obtain ⟨changed, hchanged⟩ := ih hrest
      exact ⟨changed, hchanged.cons⟩

theorem renew_changed {speaker feedback : Bytes} {atMs : UInt64} {entries entries' : List Record}
    (h : renew speaker feedback atMs entries = some entries') : ∃ entry,
      (entry.kind = ascii "ACTION_RESULT" ∧ entry.speaker = speaker ∧ entry.text = feedback) ∧
        ChangedAt entry { entry with atMs } entries entries' := by
  induction entries generalizing entries' with
  | nil => contradiction
  | cons entry entries ih =>
    unfold renew at h
    split_ifs at h with hsame
    · cases h
      exact ⟨entry, hsame, [], entries, rfl, rfl⟩
    · obtain ⟨rest, hrest, rfl⟩ := Option.map_eq_some_iff.mp h
      obtain ⟨changed, hsame, hchanged⟩ := ih hrest
      exact ⟨changed, hsame, hchanged.cons⟩

theorem renew_none {speaker feedback : Bytes} {atMs : UInt64} {entries : List Record}
    (h : renew speaker feedback atMs entries = none) : ∀ entry ∈ entries,
      ¬(entry.kind = ascii "ACTION_RESULT" ∧ entry.speaker = speaker ∧ entry.text = feedback) := by
  induction entries with
  | nil => simp
  | cons entry entries ih =>
    unfold renew at h
    split_ifs at h with hsame
    exact List.forall_mem_cons.mpr ⟨hsame, ih (Option.map_eq_none_iff.mp h)⟩

/-- A changed record keeps its number and its player. -/
structure Kept (old new : Record) : Prop where
  id : new.id = old.id
  player : new.player = old.player

section Changed
variable {old new : Record} {entries entries' : List Record} (h : ChangedAt old new entries entries')
  (hkept : Kept old new)
include h

theorem ChangedAt.mem_old : old ∈ entries := by
  obtain ⟨front, back, rfl, rfl⟩ := h
  simp

theorem ChangedAt.forall_mem {p : Record → Prop} (hp : ∀ entry ∈ entries, p entry) (hnew : p new) :
    ∀ entry ∈ entries', p entry := by
  obtain ⟨front, back, rfl, rfl⟩ := h
  intro entry hentry
  obtain rfl | hentry := List.mem_cons.mp (List.perm_middle.mem_iff.mp hentry)
  · exact hnew
  · exact hp entry (List.perm_middle.mem_iff.mpr (List.mem_cons_of_mem _ hentry))

include hkept

theorem ChangedAt.map_id : entries'.map Record.id = entries.map Record.id := by
  obtain ⟨front, back, rfl, rfl⟩ := h
  simp [hkept.id]

theorem ChangedAt.map_player : entries'.map Record.player = entries.map Record.player := by
  obtain ⟨front, back, rfl, rfl⟩ := h
  simp [hkept.player]

end Changed

theorem countP_player (entries : List Record) (player : ObjectGuid) :
    entries.countP (·.player = player) = (entries.map Record.player).countP (· = player) := by
  rw [List.countP_map]
  rfl

theorem Holds.changePrivate (h : Holds s) {old new : Record} {entries : List Record}
    (hchanged : ChangedAt old new s.privateRecords entries) (hkept : Kept old new) (hkind : new.kind = old.kind)
    (hsound : new.Sound s.sequence) : Holds { s with privateRecords := entries } := by
  have hids := hchanged.map_id hkept
  have hplayers := hchanged.map_player hkept
  have hlength : entries.length = s.privateRecords.length := by
    simpa using congrArg List.length hids
  have hold := h.personal old hchanged.mem_old
  refine ⟨?_, ?_, h.shared, ?_, ?_, h.bounded.publicRecords, ?_, ?_⟩
  · intro entry hentry
    obtain hentry | hentry := List.mem_append.mp hentry
    · exact hchanged.forall_mem (fun e he => h.sound e (List.mem_append_left _ he)) hsound entry hentry
    · exact h.sound entry (List.mem_append_right _ hentry)
  · exact hchanged.forall_mem h.personal ⟨hkind.trans hold.kind, hkept.player ▸ hold.player⟩
  · have hdistinct := h.distinct
    simp only [records, List.map_append] at hdistinct ⊢
    rwa [hids]
  · exact hlength.trans_le h.bounded.privateRecords
  · intro player
    have hcount := h.bounded.perPlayer player
    rw [countP_player] at hcount ⊢
    rwa [hplayers]
  · have hcard := h.bounded.players
    rwa [← hplayers] at hcard

theorem Holds.changePublic (h : Holds s) {old new : Record} {entries : List Record}
    (hchanged : ChangedAt old new s.publicRecords entries) (hkept : Kept old new)
    (hsound : new.Sound s.sequence) (hpublic : new.Public) : Holds { s with publicRecords := entries } := by
  have hids := hchanged.map_id hkept
  have hlength : entries.length = s.publicRecords.length := by
    simpa using congrArg List.length hids
  refine ⟨?_, h.personal, hchanged.forall_mem h.shared hpublic, ?_, h.bounded.privateRecords, ?_,
    h.bounded.perPlayer, h.bounded.players⟩
  · intro entry hentry
    obtain hentry | hentry := List.mem_append.mp hentry
    · exact h.sound entry (List.mem_append_left _ hentry)
    · exact hchanged.forall_mem (fun e he => h.sound e (List.mem_append_right _ he)) hsound entry hentry
  · have hdistinct := h.distinct
    simp only [records, List.map_append] at hdistinct ⊢
    rwa [hids]
  · exact hlength.trans_le h.bounded.publicRecords

theorem Holds.observe (h : Holds s) (atMs : UInt64) : Holds (s.observe atMs).2 := by
  unfold NpcAgentMemoryStore.observe
  split_ifs
  · exact h
  · exact ⟨h.sound, h.personal, h.shared, h.distinct, h.bounded.privateRecords, h.bounded.publicRecords,
      h.bounded.perPlayer, h.bounded.players⟩

theorem Holds.rememberPlayer (h : Holds s) (turnId : UInt64) (player : ObjectGuid) (speaker text : Bytes)
    (atMs : UInt64) : Holds (s.rememberPlayer turnId player speaker text atMs).2 := by
  unfold NpcAgentMemoryStore.rememberPlayer
  split_ifs with hrefused
  · exact h
  · simp only [Bool.or_eq_true, Bool.not_eq_true', not_or, Bool.not_eq_false] at hrefused
    obtain ⟨⟨-, hplayer⟩, hvalid⟩ := hrefused
    have hobserved := h.observe atMs
    generalize s.observe atMs = answered at hobserved ⊢
    obtain ⟨observed, t⟩ := answered
    dsimp only at hobserved ⊢
    split_ifs with hlate hknown hroom
    · exact hobserved
    · exact hobserved
    · exact hobserved
    · replace hroom : t.canAllocate = true := by simpa using hroom
      have hnonempty : player.isEmpty = false := by
        simpa using (Bool.and_eq_true_iff.mp hplayer).1
      have hmade : Room t.privateRecords (makeRoom t.privateRecords player) player :=
        makeRoom_room hnonempty hobserved.bounded.privateRecords (hobserved.bounded.perPlayer player)
          hobserved.bounded.players
      exact hobserved.addPrivate hroom hmade rfl (sound_new hroom hvalid _ _ _ _) ⟨rfl, hplayer⟩

theorem Holds.rememberPlayerReply (h : Holds s) (turnId : UInt64) (player : ObjectGuid) (response : Bytes)
    (atMs : UInt64) : Holds (s.rememberPlayerReply turnId player response atMs).2 := by
  unfold NpcAgentMemoryStore.rememberPlayerReply
  split_ifs with hrefused
  · exact h
  · simp only [Bool.or_eq_true, Bool.not_eq_true', not_or, Bool.not_eq_false] at hrefused
    have hobserved := h.observe atMs
    generalize s.observe atMs = answered at hobserved ⊢
    obtain ⟨observed, t⟩ := answered
    dsimp only at hobserved ⊢
    split_ifs
    · exact hobserved
    · cases hanswer : answer turnId player response atMs t.privateRecords with
      | none => exact hobserved
      | some entries =>
        obtain ⟨entry, hchanged⟩ := answer_changed hanswer
        have hsound := hobserved.sound entry (List.mem_append_left _ hchanged.mem_old)
        exact hobserved.changePrivate hchanged ⟨rfl, rfl⟩ rfl
          ⟨hsound.id_pos, hsound.known, hsound.speaker, hsound.text, .inr (cleanNpcAgentSpeechText_valid hrefused.2)⟩

theorem Holds.rememberNpc (h : Holds s) (utteranceId : UInt64) (speaker text : Bytes) (atMs : UInt64) :
    Holds (s.rememberNpc utteranceId speaker text atMs).2 := by
  unfold NpcAgentMemoryStore.rememberNpc
  split_ifs with hrefused
  · exact h
  · simp only [Bool.or_eq_true, Bool.not_eq_true', not_or, Bool.not_eq_false] at hrefused
    have hobserved := h.observe atMs
    generalize s.observe atMs = answered at hobserved ⊢
    obtain ⟨observed, t⟩ := answered
    dsimp only at hobserved ⊢
    split_ifs
    · exact hobserved
    · exact hobserved
    · exact hobserved.publish hrefused.2 (.inl rfl) atMs utteranceId

theorem Holds.rememberAction (h : Holds s) (speaker feedback : Bytes) (atMs : UInt64) :
    Holds (s.rememberAction speaker feedback atMs).2 := by
  unfold NpcAgentMemoryStore.rememberAction
  split_ifs with hrefused
  · exact h
  · replace hrefused : valid speaker feedback = true := by simpa using hrefused
    have hobserved := h.observe atMs
    generalize s.observe atMs = answered at hobserved ⊢
    obtain ⟨observed, t⟩ := answered
    dsimp only at hobserved ⊢
    split_ifs
    · exact hobserved
    · cases hrenew : renew speaker feedback atMs t.publicRecords with
      | none => exact hobserved.publish hrefused (.inr rfl) atMs 0
      | some entries =>
        obtain ⟨entry, -, hchanged⟩ := renew_changed hrenew
        have hsound := hobserved.sound entry (List.mem_append_right _ hchanged.mem_old)
        have hpublic := hobserved.shared entry hchanged.mem_old
        exact hobserved.changePublic hchanged ⟨rfl, rfl⟩
          ⟨hsound.id_pos, hsound.known, hsound.speaker, hsound.text, hsound.response⟩
          ⟨hpublic.kind, hpublic.player, hpublic.response⟩

theorem Holds.apply (h : Holds s) (op : MemoryOp) : Holds (s.apply op).2 := by
  cases op with
  | player turnId player speaker text atMs => exact h.rememberPlayer turnId player speaker text atMs
  | reply turnId player response atMs => exact h.rememberPlayerReply turnId player response atMs
  | npc utteranceId speaker text atMs => exact h.rememberNpc utteranceId speaker text atMs
  | action speaker feedback atMs => exact h.rememberAction speaker feedback atMs

theorem holds_empty : Holds {} :=
  ⟨by simp [records], by simp, by simp, by simp [records], by simp, by simp, by simp, by simp⟩

end Step

/-! ### What is recalled -/

section Retrieve
variable {s : NpcAgentMemoryStore} {nowMs excludedTurn : UInt64} {query currentPlayerName : Bytes}
  {player : ObjectGuid}

theorem offer_entry {queryTokens : List Bytes} {personal : Bool} {entry : Record} {candidate : Candidate}
    (h : offer nowMs excludedTurn queryTokens personal entry = some candidate) : candidate.entry = entry := by
  unfold offer at h
  split at h
  · contradiction
  · exact congrArg Candidate.entry (Option.some.inj h).symm

theorem offered_sublist (queryTokens : List Bytes) (personal : Bool) (entries : List Record) :
    ((entries.filterMap (offer nowMs excludedTurn queryTokens personal)).map Candidate.entry).Sublist entries := by
  induction entries with
  | nil => exact List.Sublist.refl _
  | cons entry entries ih =>
    cases h : offer nowMs excludedTurn queryTokens personal entry with
    | none => simpa [List.filterMap_cons, h] using ih.cons entry
    | some candidate => simpa [List.filterMap_cons, h, offer_entry h] using ih.cons_cons entry

variable (s nowMs query player excludedTurn) in
/-- Records of other players are not offered. -/
theorem candidates_sublist : ((s.candidates nowMs query player excludedTurn).map Candidate.entry).Sublist
    (s.publicRecords ++ if player.isPlayer then s.privateRecords.filter (·.player = player) else []) := by
  unfold candidates
  rw [List.map_append]
  refine (offered_sublist _ _ _).append ?_
  split_ifs
  · exact offered_sublist _ _ _
  · exact List.Sublist.refl _

/-- What is taken is in the order of the candidates, and within the limits. -/
theorem select_spec (currentPlayerName : Bytes) (selected bytes : ℕ) (candidates : List Candidate)
    (hselected : selected < 6) (hbytes : bytes ≤ 3072) : (select currentPlayerName selected bytes candidates).Sublist candidates ∧
      selected + (select currentPlayerName selected bytes candidates).length ≤ 6 ∧
      bytes + ((select currentPlayerName selected bytes candidates).map
        fun candidate => candidate.entry.cost currentPlayerName).sum ≤ 3072 := by
  induction candidates generalizing selected bytes with
  | nil => simpa [select] using ⟨hselected.le, hbytes⟩
  | cons candidate candidates ih =>
    unfold select
    split_ifs with hcost hlast
    · obtain ⟨hsub, hlength, hsum⟩ := ih _ _ hselected hbytes
      exact ⟨hsub.cons candidate, hlength, hsum⟩
    · simp only [List.length_singleton, List.map_cons, List.map_nil, List.sum_singleton]
      exact ⟨(List.nil_sublist _).cons_cons _, hlast.le, by omega⟩
    · obtain ⟨hsub, hlength, hsum⟩ := ih (selected + 1)
        (bytes + candidate.entry.cost currentPlayerName) (by omega) (by omega)
      simp only [List.length_cons, List.map_cons, List.sum_cons]
      exact ⟨hsub.cons_cons _, by omega, by omega⟩

variable (nowMs query player excludedTurn) in
/-- What is recalled: few candidates with records of their own. -/
theorem retrieve_eq (hdistinct : (s.records.map Record.id).Nodup)
    (hname : currentPlayerName = [] ∨ validateNpcAgentPlainText currentPlayerName 80 32 false = true) :
    ∃ chosen : List Candidate, s.retrieve nowMs query player excludedTurn currentPlayerName =
        chosen.map (fun candidate => candidate.memory nowMs currentPlayerName) ∧ chosen.length ≤ 6 ∧
      (chosen.map fun candidate => candidate.entry.cost currentPlayerName).sum ≤ 3072 ∧
      (chosen.map fun candidate => candidate.entry.id).Nodup ∧ ∀ candidate ∈ chosen,
        candidate.entry ∈ s.publicRecords ∨
          player.isPlayer = true ∧ candidate.entry ∈ s.privateRecords ∧ candidate.entry.player = player := by
  have haccept : ¬(!currentPlayerName.isEmpty && !validateNpcAgentPlainText currentPlayerName 80 32 false) = true := by
    obtain rfl | h := hname
    · simp
    · simp [h]
  unfold retrieve
  rw [if_neg haccept]
  dsimp only
  have hsorted := (s.candidates nowMs query player excludedTurn).perm_insertionSort fun a b => moreRelevant a b
  obtain ⟨hsub, hlength, hsum⟩ := select_spec currentPlayerName 0 0
    ((s.candidates nowMs query player excludedTurn).insertionSort fun a b => moreRelevant a b) (by omega) (by omega)
  generalize select currentPlayerName 0 0
    ((s.candidates nowMs query player excludedTurn).insertionSort fun a b => moreRelevant a b) = taken
    at hsub hlength hsum
  have horder := taken.perm_insertionSort fun a b => earlier a b
  have hfrom : ∀ candidate ∈ s.candidates nowMs query player excludedTurn,
      candidate.entry ∈ s.publicRecords ∨
        player.isPlayer = true ∧ candidate.entry ∈ s.privateRecords ∧ candidate.entry.player = player := by
    intro candidate hcandidate
    have hmem := (candidates_sublist _ _ _ _ _).subset (List.mem_map_of_mem hcandidate)
    obtain hmem | hmem := List.mem_append.mp hmem
    · exact .inl hmem
    · split_ifs at hmem with hplayer
      · obtain ⟨hentry, hof⟩ := List.mem_filter.mp hmem
        exact .inr ⟨hplayer, hentry, of_decide_eq_true hof⟩
      · contradiction
  refine ⟨_, rfl, ?_, ?_, ?_, fun candidate hcandidate => ?_⟩
  · rw [horder.length_eq]
    omega
  · rw [(horder.map _).sum_eq]
    omega
  · refine (horder.map _).nodup_iff.mpr (((hsub.map _).nodup ?_))
    refine (hsorted.map _).nodup_iff.mpr ?_
    have hids := (candidates_sublist s nowMs excludedTurn query player).map Record.id
    rw [List.map_map] at hids
    refine hids.nodup ?_
    have hall : (s.publicRecords ++ s.privateRecords).Perm s.records := List.perm_append_comm
    have hfewer : (s.publicRecords ++
        if player.isPlayer then s.privateRecords.filter (·.player = player) else []).Sublist
        (s.publicRecords ++ s.privateRecords) := by
      refine (List.Sublist.refl _).append ?_
      split_ifs
      · exact List.filter_sublist
      · exact List.nil_sublist _
    exact (hfewer.map _).nodup ((hall.map _).nodup_iff.mpr hdistinct)
  · exact hfrom candidate (hsorted.mem_iff.mp (hsub.subset (horder.mem_iff.mp hcandidate)))

/-- A public record is valid under any grant, and a player's under the grant to answer that player. -/
theorem Candidate.memory_valid (h : Holds s) {candidate : Candidate}
    (hname : currentPlayerName = [] ∨ validateNpcAgentPlainText currentPlayerName 80 32 false = true)
    {speech : Option NpcAgentSpeechContext} (hgrant : candidate.entry ∈ s.publicRecords ∨
      candidate.entry ∈ s.privateRecords ∧ currentPlayerName ≠ [] ∧
        ∃ turn, speech = some ⟨ascii "PLAYER_REPLY", some turn⟩ ∧ turn.speaker = currentPlayerName) :
    validMemory speech (candidate.memory nowMs currentPlayerName) = true := by
  have hrecord : candidate.entry ∈ s.records :=
    hgrant.elim (List.mem_append_right _) fun hgrant => List.mem_append_left _ hgrant.1
  have hsound := h.sound _ hrecord
  have hresponse : candidate.entry.response = [] ∨
      validateNpcAgentPlainText candidate.entry.response 768 256 false = true := hsound.response
  have htext : validateNpcAgentPlainText candidate.entry.text 768 256 false = true := hsound.text
  unfold validMemory Candidate.memory Record.recalledSpeaker
  obtain hpublic | ⟨hprivate, hne, turn, rfl, hturn⟩ := hgrant
  · have hshared := h.shared _ hpublic
    have hnokind : ascii "NPC_DIALOGUE" ≠ ascii "PLAYER_DIALOGUE" ∧ ascii "ACTION_RESULT" ≠ ascii "PLAYER_DIALOGUE" := by
      decide
    obtain hkind | hkind := hshared.kind <;>
      simp [hsound.id_pos, hshared.player, hsound.speaker, htext, hshared.response, hkind, hnokind, oneOf]
  · have hpersonal := h.personal _ hprivate
    have hnonempty : candidate.entry.player.isEmpty = false := by
      simpa using (Bool.and_eq_true_iff.mp hpersonal.player).1
    have hnokind : ascii "PLAYER_DIALOGUE" ≠ ascii "ACTION_RESULT" := by decide
    have hvalid := hname.resolve_left hne
    simp [hsound.id_pos, hnonempty, hne, hvalid, htext, hresponse, hpersonal.kind, hnokind, oneOf, hturn]

end Retrieve

/-! ### Every store -/

/-- A reachable store keeps its bounds. What it recalls is taken from records of its own, none of them of another
player. It passes the check of a request that answers the named player, and of any request where no player is
answered. -/
theorem retrieve_valid {s : NpcAgentMemoryStore} (hs : machine.Reachable {} s) (nowMs : UInt64) (query : Bytes)
    (player : ObjectGuid) (excludedTurn : UInt64) (currentPlayerName : Bytes) :
    Bounded s ∧ (s.records.map Record.id).Nodup ∧
      (∀ memory ∈ s.retrieve nowMs query player excludedTurn currentPlayerName, ∃ entry ∈ s.records,
        entry.id = memory.id ∧ entry.kind = memory.kind ∧ entry.text = memory.text ∧
          entry.response = memory.response ∧ (entry.player.isEmpty = true ∨ entry.player = player)) ∧
      ∀ speech : Option NpcAgentSpeechContext, (player.isPlayer = true → currentPlayerName ≠ [] ∧
          ∃ turn, speech = some ⟨ascii "PLAYER_REPLY", some turn⟩ ∧ turn.speaker = currentPlayerName) →
        validMemories speech (s.retrieve nowMs query player excludedTurn currentPlayerName) = true := by
  have h : Holds s := hs.invariant (fun s op o t hs hstep => (Option.some.inj hstep ▸ hs.apply op : Holds (o, t).2)) holds_empty
  refine ⟨h.bounded, h.distinct, ?_⟩
  by_cases hname : currentPlayerName = [] ∨ validateNpcAgentPlainText currentPlayerName 80 32 false = true
  · obtain ⟨chosen, heq, hlength, hsum, hids, hfrom⟩ := retrieve_eq nowMs excludedTurn query player
      h.distinct hname
    rw [heq]
    constructor
    · intro memory hmemory
      obtain ⟨candidate, hcandidate, rfl⟩ := List.mem_map.mp hmemory
      obtain hpublic | ⟨-, hprivate, hplayer⟩ := hfrom candidate hcandidate
      · exact ⟨candidate.entry, List.mem_append_right _ hpublic, rfl, rfl, rfl, rfl, .inl (h.shared _ hpublic).player⟩
      · exact ⟨candidate.entry, List.mem_append_left _ hprivate, rfl, rfl, rfl, rfl, .inr hplayer⟩
    · intro speech hgrant
      rw [validMemories_iff, List.length_map, List.map_map, List.map_map]
      refine ⟨hlength, fun memory hmemory => ?_, hids, hsum⟩
      obtain ⟨candidate, hcandidate, rfl⟩ := List.mem_map.mp hmemory
      refine candidate.memory_valid h hname ((hfrom candidate hcandidate).imp_right ?_)
      rintro ⟨hplayer, hprivate, -⟩
      exact ⟨hprivate, hgrant hplayer⟩
  · have hnil : s.retrieve nowMs query player excludedTurn currentPlayerName = [] := by
      rw [not_or] at hname
      simp [retrieve, hname]
    rw [hnil]
    exact ⟨by simp, fun speech _ => validMemories_iff.mpr ⟨by simp, by simp, by simp, by simp⟩⟩

/-- A player's question is answered, another player speaks, and an action ends. -/
def sampleOps : List MemoryOp :=
  [.player 1 ⟨5⟩ (ascii "Anna") (ascii " Where is the mill? ") 10, .reply 1 ⟨5⟩ (ascii "By the river.") 12,
    .player 2 ⟨6⟩ (ascii "Boris") (ascii "Nice mill.") 20, .action (ascii "Mara") (ascii "The mill is closed.") 30,
    .player 3 ⟨5⟩ (ascii "Anna") (ascii "Which river?") 40]

theorem retrieve_valid_sample : ∃ s, machine.Reachable {} s ∧
    (s.retrieve 50 (ascii "Which river?") ⟨5⟩ 3 (ascii "Anna")).map NpcAgentMemory.id = [1, 3] ∧
      validMemories (some ⟨ascii "PLAYER_REPLY", some ⟨3, ascii "Anna", 1, ascii "Which river?"⟩⟩)
        (s.retrieve 50 (ascii "Which river?") ⟨5⟩ 3 (ascii "Anna")) = true := by
  have hexec : (machine.exec {} sampleOps).map (fun p =>
      (p.2.retrieve 50 (ascii "Which river?") ⟨5⟩ 3 (ascii "Anna")).map NpcAgentMemory.id) = some [1, 3] := by
    decide +kernel
  obtain ⟨⟨tr, s⟩, hrun, hids⟩ := Option.map_eq_some_iff.mp hexec
  have hs : machine.Reachable {} s := ⟨tr, Machine.run_of_exec hrun⟩
  have hvalid := (retrieve_valid hs 50 (ascii "Which river?") ⟨5⟩ 3 (ascii "Anna")).2.2.2
    (some ⟨ascii "PLAYER_REPLY", some ⟨3, ascii "Anna", 1, ascii "Which river?"⟩⟩)
    fun _ => ⟨by decide, _, rfl, rfl⟩
  exact ⟨s, hs, hids, hvalid⟩

end AIWorld.Agent.NpcAgentMemoryStore
