import Meetkit.Proofs.TileStarts

/-! Which runs of the watch wall keep the observe sessions right. Connections are lost
when a second session takes the place of the first, when `observe-join` fails, or when
`play` comes back to a tile that is gone or taken. -/

namespace Meetkit

namespace TileSessions

variable {s : TileSessions} {key : TileKey} {room : RoomID} {id : StartId} {n : ℕ}

/-! ### Ending rooms -/

theorem Sound.scheduleRoomEnd (h : s.Sound) (room : RoomID) : (s.scheduleRoomEnd room).Sound := by
  rw [TileSessions.scheduleRoomEnd]
  split_ifs with hsched
  · exact h
  · refine ⟨⟨h.startFresh, h.waiting, h.alone⟩, h.sigFresh, h.sessionFresh, h.sessionInj,
      h.pcFresh, h.joining, h.entering, h.opened, fun {room' r} hr => ?_, fun {room'} hroom => ?_,
      h.owned⟩
    · rcases h.positive hr with hpos | hent | htimer
      · exact Or.inl hpos
      · exact Or.inr (Or.inl hent)
      · exact Or.inr (Or.inr (List.mem_append_left _ htimer))
    · by_cases he : room' = room
      · exact List.mem_append_right _ (List.mem_singleton.2 he)
      · refine List.mem_append_left _ (h.scheduled ?_)
        exact (Function.update_of_ne he _ _).symm.trans hroom

theorem Balanced.scheduleRoomEnd (h : s.Balanced) (room : RoomID) :
    (s.scheduleRoomEnd room).Balanced := by
  rw [TileSessions.scheduleRoomEnd]
  split_ifs
  · exact h
  · exact h

theorem foldl_scheduleRoomEnd (rooms : List RoomID) : ∀ {s : TileSessions}, s.Sound → s.Balanced →
    (rooms.foldl TileSessions.scheduleRoomEnd s).Sound ∧
      (rooms.foldl TileSessions.scheduleRoomEnd s).Balanced := by
  induction rooms with
  | nil => exact fun h hb => ⟨h, hb⟩
  | cons room rooms ih => exact fun h hb => ih (h.scheduleRoomEnd room) (hb.scheduleRoomEnd room)

theorem Sound.closeSig (h : s.Sound) (sg : SigId) : (s.closeSig sg).Sound := by
  refine ⟨⟨h.startFresh, h.waiting, h.alone⟩, fun hsg => h.sigFresh (open_closeSig hsg).2,
    h.sessionFresh, h.sessionInj, h.pcFresh, fun hp hjoin => ?_, h.entering, fun {sg'} hsg => ?_,
    h.positive, h.scheduled, h.owned⟩
  · rw [room_closeSig]
    exact h.joining hp hjoin
  · rw [room_closeSig]
    exact h.opened (open_closeSig hsg).2

/-- Nothing counts for a room without tiles. -/
theorem Balanced.cleanup (h : s.Balanced) (hnone : ∀ key, ¬s.Counted room key) :
    (s.cleanupRoomSession room).Balanced := by
  intro room'
  have hcounted : ∀ key, (s.cleanupRoomSession room).Counted room' key ↔ s.Counted room' key :=
    fun key => (sameTiles_cleanup s room).counted
  rw [count_cleanup]
  split_ifs with he
  · rw [he] at hcounted ⊢
    exact counts_zero fun key hc => hnone key ((hcounted key).1 hc)
  · exact (h room').congr hcounted

theorem mem_keysWhere {f : TileKey → SessionTile → Bool} :
    key ∈ s.keysWhere f ↔ ∃ tile, s.tiles.lookup key = some tile ∧ f key tile = true := by
  rw [keysWhere, List.mem_filter, List.mem_reverse, Option.any_eq_true]
  refine ⟨fun h => ?_, fun h => ⟨?_, ?_⟩⟩
  · obtain ⟨-, tile, htile, hf⟩ := h
    exact ⟨tile, htile, hf⟩
  · obtain ⟨tile, htile, -⟩ := h
    exact AList.mem_keys.1 (AList.lookup_isSome.1 (Option.isSome_iff_exists.2 ⟨tile, htile⟩))
  · obtain ⟨tile, htile, hf⟩ := h
    exact ⟨tile, htile, hf⟩

theorem Sound.not_entering (h : s.Sound)
    (hnone : ∀ key tile, s.tiles.lookup key = some tile → tile.roomId ≠ room) :
    ¬s.Entering room := by
  rintro ⟨id, p, r, hp, hroom, hent⟩
  obtain ⟨tile, htile, htroom⟩ := h.waiting hp (hent.trans_ne nofun)
  exact hnone p.key tile htile (htroom.trans hroom)

/-- The room's timer has fired. -/
theorem Sound.fired (h : s.Sound) (hsched : s.roomEndScheduled room = false)
    (hpos : ∀ r, s.roomSessions.lookup room = some r → 1 ≤ (s.session r).refCount) :
    Sound { s with timers := s.timers.erase room } := by
  refine ⟨⟨h.startFresh, h.waiting, h.alone⟩, h.sigFresh, h.sessionFresh, h.sessionInj, h.pcFresh,
    h.joining, h.entering, h.opened, fun {room' r} hr => ?_, fun {room'} hroom => ?_, h.owned⟩
  · by_cases he : room' = room
    · rw [he] at hr
      exact Or.inl (hpos r hr)
    · rcases h.positive hr with hpos' | hent | htimer
      · exact Or.inl hpos'
      · exact Or.inr (Or.inl hent)
      · exact Or.inr (Or.inr ((List.mem_erase_of_ne he).2 htimer))
  · refine (List.mem_erase_of_ne ?_).2 (h.scheduled hroom)
    rintro rfl
    exact Bool.false_ne_true (hsched.symm.trans hroom)

theorem roomEnd_keeps (h : s.Sound) (hb : s.Balanced) (room : RoomID)
    (hkeys : room ∈ s.timers →
      ∀ key ∈ s.keysWhere fun _ tile => tile.roomId = room, s.Removable key) :
    (s.roomEnd room).Sound ∧ (s.roomEnd room).Balanced := by
  by_cases htimer : room ∈ s.timers
  swap
  · rw [roomEnd, if_neg htimer]
    exact ⟨h, hb⟩
  rw [roomEnd, if_pos htimer]
  have h0 : Sound { s with roomEndScheduled := Function.update s.roomEndScheduled room false } := by
    refine ⟨⟨h.startFresh, h.waiting, h.alone⟩, h.sigFresh, h.sessionFresh, h.sessionInj,
      h.pcFresh, h.joining, h.entering, h.opened, h.positive, fun {room'} hroom => ?_, h.owned⟩
    by_cases he : room' = room
    · subst he
      exact absurd ((Function.update_self _ _ _).symm.trans hroom) Bool.false_ne_true
    · exact h.scheduled ((Function.update_of_ne he _ _).symm.trans hroom)
  have hsched : ∀ {s' : TileSessions},
      s'.roomEndScheduled = Function.update s.roomEndScheduled room false →
      s'.roomEndScheduled room = false := by
    intro s' hs'
    rw [hs', Function.update_self]
  refine stopTiles_rule (Q := fun s' => Sound { s' with timers := s'.timers.erase room } ∧
    Balanced { s' with timers := s'.timers.erase room }) h0 hb (hkeys htimer) ?_ ?_
  · intro s' hstops hgone
    have hnone : ∀ key tile, s'.tiles.lookup key = some tile → tile.roomId ≠ room := by
      intro key tile htile hroom
      rw [hgone key (mem_keysWhere.2 ⟨tile, hstops.tiles htile, decide_eq_true hroom⟩)] at htile
      cases htile
    have hclean := hstops.sound.cleanup (hstops.sound.not_entering hnone)
    refine ⟨hclean.fired ?_ fun r hr => ?_, hstops.balanced.cleanup fun key hc => ?_⟩
    · exact hsched ((sameTiles_cleanup s' room).roomEndScheduled.trans hstops.roomEndScheduled)
    · rw [lookup_cleanup, if_pos rfl] at hr
      cases hr
    · obtain ⟨⟨tile, htile, hroom⟩, -⟩ := hc
      exact hnone key tile htile hroom
  · -- the tile that could not be stopped still counts
    rintro s' hstops ⟨key, hkey, tile, htile⟩
    obtain ⟨tile', htile', hroom⟩ := mem_keysWhere.1 hkey
    have hsame : s.tiles.lookup key = some tile := hstops.tiles htile
    cases hsame.symm.trans htile'
    have hcounted : s'.Counted room key := by
      refine ⟨⟨tile, htile, of_decide_eq_true hroom⟩, ?_⟩
      rw [Uncounted, hstops.start]
      exact (hkeys htimer key hkey).1
    refine ⟨hstops.sound.fired (hsched hstops.roomEndScheduled) fun r hr => ?_, hstops.balanced⟩
    rw [← count_of_lookup hr]
    exact (hstops.balanced room).pos hcounted

theorem foldl_cleanup (rooms : List RoomID) : ∀ {s : TileSessions}, s.Sound → s.Balanced →
    (∀ key, s.tiles.lookup key = none) →
    (rooms.foldl cleanupRoomSession s).Sound ∧ (rooms.foldl cleanupRoomSession s).Balanced := by
  induction rooms with
  | nil => exact fun h hb _ => ⟨h, hb⟩
  | cons room rooms ih =>
    intro s h hb hnone
    refine ih (h.cleanup (h.not_entering fun key tile htile => ?_))
      (hb.cleanup fun key hc => ?_) fun key => ?_
    · rw [hnone] at htile
      cases htile
    · obtain ⟨⟨tile, htile, -⟩, -⟩ := hc
      rw [hnone] at htile
      cases htile
    · rw [(sameTiles_cleanup s room).tiles]
      exact hnone key

theorem stopAllWatching_keeps (h : s.Sound) (hb : s.Balanced)
    (hkeys : ∀ key ∈ s.tiles.keys, s.Removable key) :
    s.stopAllWatching.Sound ∧ s.stopAllWatching.Balanced := by
  have h0 : Sound { s with roomEndScheduled := fun _ => false } :=
    ⟨⟨h.startFresh, h.waiting, h.alone⟩, h.sigFresh, h.sessionFresh, h.sessionInj, h.pcFresh,
      h.joining, h.entering, h.opened, h.positive, fun hroom => absurd hroom Bool.false_ne_true,
      h.owned⟩
  refine stopTiles_rule (Q := fun s' => s'.Sound ∧ s'.Balanced) h0 hb
    (fun key hkey => hkeys key (List.mem_reverse.1 hkey)) ?_
    fun hstops _ => ⟨hstops.sound, hstops.balanced⟩
  intro s' hstops hgone
  refine foldl_cleanup _ hstops.sound hstops.balanced fun key => ?_
  cases htile : s'.tiles.lookup key with
  | none => rfl
  | some tile =>
    have hsome : s.tiles.lookup key = some tile := hstops.tiles htile
    have hmem : key ∈ s.tiles := AList.lookup_isSome.1 (Option.isSome_iff_exists.2 ⟨tile, hsome⟩)
    rw [← htile]
    exact hgone key (List.mem_reverse.2 (AList.mem_keys.1 hmem))

/-! ### Runs -/

/-- A session is opened for a room that has none, `play` comes back to the tile it was
called for, a call of `startTile` fails only when no session is at stake, and no tile is
removed before it counts for its session. -/
def Tidy (s : TileSessions) : WatchLabel → Prop
  | .connectFailed id => ∀ p, s.start id = some p → p.phase = .connecting → s.Spare p.room
  | .observeJoined id => ∀ p sg, s.start id = some p → p.phase = .joining sg →
      (s.sig sg).isOpen = true → s.roomSessions.lookup p.room = none
  | .joinFailed id => ∀ p sg, s.start id = some p → p.phase = .joining sg →
      (s.sig sg).isOpen = false ∧ s.Spare p.room
  | .played id => ∀ p, s.start id = some p → p.phase = .playing →
      ∃ tile, s.tiles.lookup p.key = some tile ∧ tile.pc = none
  | .playFailed id => ∀ p, s.start id = some p → p.phase = .playing →
      s.Removable p.key ∧ ∀ tile, s.tiles.lookup p.key = some tile → tile.roomId ≠ ""
  | .stopTile key => s.Removable key
  | .syncTilesWithHub hub => ∀ key ∈ s.keysWhere (departed hub), s.Removable key
  | .roomEnd room => room ∈ s.timers →
      ∀ key ∈ s.keysWhere fun _ tile => tile.roomId = room, s.Removable key
  | .stopAllWatching => ∀ key ∈ s.tiles.keys, s.Removable key
  | _ => True

theorem resume_rule {Q : TileSessions → Prop} {k : TileStart → StartPhase → Option TileSessions}
    (h : Q s) (hk : ∀ {p t}, s.start id = some p → k p p.phase = some t → Q t) :
    Q (s.resume id k) := by
  rw [resume]
  cases hp : s.start id with
  | none => exact h
  | some p =>
    rw [Option.bind_some]
    cases ht : k p p.phase with
    | none => exact h
    | some t => exact hk hp ht

/-- What is open belongs to a tile, to a session or to a call of `startTile`, and the count
of each session is that of the tiles and calls that need it. -/
def Accounted (s : TileSessions) : Prop := s.Sound ∧ s.Balanced

theorem accounted_init : (tileSessions.init).Accounted := by
  refine ⟨⟨⟨nofun, nofun, nofun⟩, nofun, nofun, nofun, nofun, nofun, nofun, nofun, nofun, nofun,
    nofun⟩, fun room => counts_zero ?_⟩
  rintro key ⟨⟨tile, htile, -⟩, -⟩
  cases htile

theorem accounted_step (l : WatchLabel) (hl : s.Tidy l) (h : s.Accounted) : (s.step l).Accounted := by
  obtain ⟨h, hb⟩ := h
  cases l with
  | startTile key room auditDetail =>
    exact ⟨h.startTile room auditDetail, hb.startTile h room auditDetail⟩
  | connected id =>
    rw [step]
    refine resume_rule (Q := Accounted) ⟨h, hb⟩ fun {p t} hp ht => ?_
    split_ifs at ht with hphase
    cases ht
    exact ⟨h.connected hp hphase, hb.connected hp hphase⟩
  | connectFailed id =>
    rw [step]
    refine resume_rule (Q := Accounted) ⟨h, hb⟩ fun {p t} hp ht => ?_
    split_ifs at ht with hphase
    cases ht
    refine startFailed_waiting h hb hp (hphase.trans_ne nofun) (fun r => hphase.trans_ne nofun)
      (fun sg hjoin => ?_) (hl p hp hphase)
    rw [hphase] at hjoin
    cases hjoin
  | observeJoined id =>
    rw [step]
    refine resume_rule (Q := Accounted) ⟨h, hb⟩ fun {p t} hp ht => ?_
    cases hphase : p.phase with
    | joining sg =>
      rw [hphase] at ht
      dsimp only at ht
      split_ifs at ht with hopen
      cases ht
      have hfirst := hl p sg hp hphase hopen
      exact ⟨h.observeJoined hp hphase hfirst, hb.observeJoined h hp hphase hfirst⟩
    | connecting | entering | playing =>
      rw [hphase] at ht
      cases ht
  | joinFailed id =>
    rw [step]
    refine resume_rule (Q := Accounted) ⟨h, hb⟩ fun {p t} hp ht => ?_
    cases hphase : p.phase with
    | joining sg =>
      rw [hphase] at ht
      cases ht
      obtain ⟨hclosed, hspare⟩ := hl p sg hp hphase
      refine startFailed_waiting h hb hp (hphase.trans_ne nofun) (fun r => hphase.trans_ne nofun)
        (fun sg' hjoin => ?_) hspare
      rw [hphase] at hjoin
      cases hjoin
      exact hclosed
    | connecting | entering | playing =>
      rw [hphase] at ht
      cases ht
  | entered id =>
    rw [step]
    refine resume_rule (Q := Accounted) ⟨h, hb⟩ fun {p t} hp ht => ?_
    cases hphase : p.phase with
    | entering r =>
      rw [hphase] at ht
      cases ht
      exact ⟨h.entered hp hphase, hb.entered h hp hphase⟩
    | connecting | joining | playing =>
      rw [hphase] at ht
      cases ht
  | played id =>
    rw [step]
    refine resume_rule (Q := Accounted) ⟨h, hb⟩ fun {p t} hp ht => ?_
    split_ifs at ht with hphase
    cases ht
    obtain ⟨tile, htile, hpc⟩ := hl p hp hphase
    exact ⟨h.played hp hphase htile hpc, hb.played hp hphase⟩
  | playFailed id =>
    rw [step]
    refine resume_rule (Q := Accounted) ⟨h, hb⟩ fun {p t} hp ht => ?_
    split_ifs at ht with hphase
    cases ht
    obtain ⟨hkey, hroom⟩ := hl p hp hphase
    exact startFailed_playing h hb hp hphase hkey hroom
  | stopTile key =>
    exact stopTiles_rule (Q := Accounted) h hb (List.forall_mem_singleton.2 hl)
      (fun hstops _ => ⟨hstops.sound, hstops.balanced⟩)
      fun hstops _ => ⟨hstops.sound, hstops.balanced⟩
  | syncTilesWithHub hub =>
    exact stopTiles_rule (Q := Accounted) h hb hl
      (fun hstops _ => foldl_scheduleRoomEnd _ hstops.sound hstops.balanced)
      fun hstops _ => ⟨hstops.sound, hstops.balanced⟩
  | observeEnded r =>
    change (s.observeEnded r).Accounted
    rw [observeEnded]
    split_ifs
    · exact ⟨h.scheduleRoomEnd _, hb.scheduleRoomEnd _⟩
    · exact ⟨h, hb⟩
  | dropped sg => exact ⟨h.closeSig sg, hb⟩
  | roomEnd room => exact roomEnd_keeps h hb room hl
  | stopAllWatching => exact stopAllWatching_keeps h hb hl

/-- No `startTile` and no timer of a room's end is pending. -/
def Quiet (s : TileSessions) : Prop := (∀ id, s.start id = none) ∧ s.timers = []

def tilesOf (s : TileSessions) (room : RoomID) : List TileKey :=
  s.keysWhere fun _ tile => tile.roomId = room

/-- The reference counts are exact and nothing is open that is not in use. -/
structure Exact (s : TileSessions) : Prop where
  sigs : ∀ sg, (s.sig sg).isOpen = true →
    ∃ r, s.roomSessions.lookup (s.sig sg).room = some r ∧ (s.session r).sig = sg
  refCounts : ∀ room r, s.roomSessions.lookup room = some r →
    (s.session r).refCount = (s.tilesOf room).length ∧ 1 ≤ (s.session r).refCount
  pcs : ∀ pc, s.pcOpen pc = true → ∃ key tile, s.tiles.lookup key = some tile ∧ tile.pc = some pc

theorem counts_tilesOf (hstart : ∀ id, s.start id = none) (h : s.Counts room n) :
    (s.tilesOf room).length = n := by
  obtain ⟨l, hnodup, hmem, hlen⟩ := h
  rw [← hlen]
  refine List.Perm.length_eq ((List.perm_ext_iff_of_nodup ?_ hnodup).2 fun key => ?_)
  · exact (List.nodup_reverse.2 s.tiles.nodupKeys).filter _
  · rw [hmem, tilesOf, mem_keysWhere, Counted]
    have hcounted : ¬s.Uncounted key := by
      rintro ⟨id, p, hp, -⟩
      rw [hstart] at hp
      cases hp
    simp [hcounted]

theorem Accounted.exact (h : s.Accounted) (hquiet : s.Quiet) : s.Exact := by
  obtain ⟨h, hb⟩ := h
  obtain ⟨hstart, htimers⟩ := hquiet
  refine ⟨fun sg hsg => ?_, fun room r hr => ⟨?_, ?_⟩, fun pc => h.owned⟩
  · rcases h.opened hsg with hsession | ⟨id, p, hp, -⟩
    · exact hsession
    · rw [hstart] at hp
      cases hp
  · rw [counts_tilesOf hstart (hb room), count_of_lookup hr]
  · rcases h.positive hr with hpos | ⟨id, p, r', hp, -⟩ | htimer
    · exact hpos
    · rw [hstart] at hp
      cases hp
    · rw [htimers] at htimer
      cases htimer

end TileSessions

/-- As long as every step is tidy, the reference counts are exact whenever nothing is
pending. -/
theorem observe_sessions_exact {ls : List WatchLabel}
    (hls : tileSessions.Guarded TileSessions.Tidy ls) (hquiet : (tileSessions.run ls).Quiet) :
    (tileSessions.run ls).Exact :=
  (Machine.guarded_invariant (P := TileSessions.Accounted) TileSessions.accounted_init
    (fun _ l hl h => TileSessions.accounted_step l hl h) hls).exact hquiet

/-- One tile is watched. -/
theorem observe_sessions_exact_one_tile :
    let s := tileSessions.run
      [.startTile "r:u:cam" "r" "u", .connected 0, .observeJoined 0, .entered 0, .played 0]
    (s.sig 0).isOpen = true ∧ s.pcOpen 0 = true ∧ s.Exact := by
  refine ⟨rfl, rfl, observe_sessions_exact ⟨trivial, trivial, ?_, trivial, ?_, trivial⟩ ⟨?_, rfl⟩⟩
  · intro p sg hp hphase hopen
    cases hp
    rfl
  · intro p hp hphase
    cases hp
    exact ⟨_, rfl, rfl⟩
  · rintro (_ | id) <;> rfl

/-- The server refuses the observer: the connection stays open and no session has it. -/
theorem refused_observer_leaks :
    let s := tileSessions.run [.startTile "r:u:cam" "r" "u", .connected 0, .joinFailed 0]
    s.Quiet ∧ ¬s.Exact := by
  refine ⟨⟨?_, rfl⟩, fun h => ?_⟩
  · rintro (_ | id) <;> rfl
  · obtain ⟨r, hr, -⟩ := h.sigs 0 rfl
    cases hr

end Meetkit
