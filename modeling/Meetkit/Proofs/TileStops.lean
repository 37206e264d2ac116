import Meetkit.Model.TileSessions

/-! What stopping tiles does to the observe sessions. A tile counts for the session of
its room once its `startTile` has increased the count. The count can only go wrong when a
tile that does not count yet is removed, since every removal decreases it. -/

namespace Meetkit

namespace TileSessions

variable {s s' : TileSessions} {key k : TileKey} {room room' : RoomID} {r r' : SessionRef}
  {id id' : StartId} {p p' : TileStart} {tile : SessionTile} {sg : SigId} {n : ℕ}

/-- A tile whose `startTile` has not increased the count of the session. -/
def Uncounted (s : TileSessions) (key : TileKey) : Prop :=
  ∃ id p, s.start id = some p ∧ p.key = key ∧ p.phase ≠ .playing

/-- A `startTile` is about to increase the count of the room's session. -/
def Entering (s : TileSessions) (room : RoomID) : Prop :=
  ∃ id p r, s.start id = some p ∧ p.room = room ∧ p.phase = .entering r

def Counted (s : TileSessions) (room : RoomID) (key : TileKey) : Prop :=
  (∃ tile, s.tiles.lookup key = some tile ∧ tile.roomId = room) ∧ ¬s.Uncounted key

/-- `n` tiles count for the session of the room. -/
def Counts (s : TileSessions) (room : RoomID) (n : ℕ) : Prop :=
  ∃ l : List TileKey, l.Nodup ∧ (∀ key, key ∈ l ↔ s.Counted room key) ∧ l.length = n

def count (s : TileSessions) (room : RoomID) : ℕ :=
  (s.roomSessions.lookup room).elim 0 fun r => (s.session r).refCount

/-- The counts of all sessions are right. -/
def Balanced (s : TileSessions) : Prop := ∀ room, s.Counts room (s.count room)

/-- The calls of `startTile`. -/
structure Starts (s : TileSessions) : Prop where
  startFresh : ∀ {id p}, s.start id = some p → id < s.newStart
  /-- A tile that does not count yet is there. -/
  waiting : ∀ {id p}, s.start id = some p → p.phase ≠ .playing →
    ∃ tile, s.tiles.lookup p.key = some tile ∧ tile.roomId = p.room
  alone : ∀ {id id' p p'}, s.start id = some p → s.start id' = some p' → p.phase ≠ .playing →
    p'.phase ≠ .playing → p.key = p'.key → id = id'

structure Sound (s : TileSessions) : Prop extends Starts s where
  sigFresh : ∀ {sg}, (s.sig sg).isOpen = true → sg < s.newSig
  sessionFresh : ∀ {room r}, s.roomSessions.lookup room = some r → r < s.newSession
  sessionInj : ∀ {room room' r}, s.roomSessions.lookup room = some r →
    s.roomSessions.lookup room' = some r → room = room'
  pcFresh : ∀ {pc}, s.pcOpen pc = true → pc < s.newPC
  joining : ∀ {id p sg}, s.start id = some p → p.phase = .joining sg →
    sg < s.newSig ∧ (s.sig sg).room = p.room
  entering : ∀ {id p r}, s.start id = some p → p.phase = .entering r →
    s.roomSessions.lookup p.room = some r
  opened : ∀ {sg}, (s.sig sg).isOpen = true →
    (∃ r, s.roomSessions.lookup (s.sig sg).room = some r ∧ (s.session r).sig = sg) ∨
      ∃ id p, s.start id = some p ∧ p.phase = .joining sg
  positive : ∀ {room r}, s.roomSessions.lookup room = some r →
    1 ≤ (s.session r).refCount ∨ s.Entering room ∨ room ∈ s.timers
  scheduled : ∀ {room}, s.roomEndScheduled room = true → room ∈ s.timers
  owned : ∀ {pc}, s.pcOpen pc = true →
    ∃ key tile, s.tiles.lookup key = some tile ∧ tile.pc = some pc

/-! ### Counting -/

theorem Counts.congr (h : s.Counts room n) (hsame : ∀ key, s'.Counted room key ↔ s.Counted room key) :
    s'.Counts room n := by
  obtain ⟨l, hnodup, hmem, hlen⟩ := h
  exact ⟨l, hnodup, fun key => (hmem key).trans (hsame key).symm, hlen⟩

/-- One more tile counts. -/
theorem Counts.more (h : s.Counts room n) (hnew : ¬s.Counted room k)
    (hmore : ∀ key, s'.Counted room key ↔ key = k ∨ s.Counted room key) :
    s'.Counts room (n + 1) := by
  obtain ⟨l, hnodup, hmem, hlen⟩ := h
  refine ⟨k :: l, List.nodup_cons.2 ⟨fun hk => hnew ((hmem k).1 hk), hnodup⟩, fun key => ?_, ?_⟩
  · rw [List.mem_cons, hmem, hmore]
  · rw [List.length_cons, hlen]

/-- One tile less counts. -/
theorem Counts.less (h : s.Counts room n) (hold : s.Counted room k)
    (hless : ∀ key, s'.Counted room key ↔ s.Counted room key ∧ key ≠ k) :
    s'.Counts room (n - 1) := by
  obtain ⟨l, hnodup, hmem, hlen⟩ := h
  refine ⟨l.erase k, hnodup.erase k, fun key => ?_, ?_⟩
  · rw [hnodup.mem_erase_iff, hmem, hless, and_comm]
  · rw [List.length_erase_of_mem ((hmem k).2 hold), hlen]

theorem counts_zero (h : ∀ key, ¬s.Counted room key) : s.Counts room 0 :=
  ⟨[], List.nodup_nil, fun key => ⟨fun hk => absurd hk List.not_mem_nil, fun hk => absurd hk (h key)⟩,
    rfl⟩

theorem Counts.zero (h : s.Counts room n) (hnone : ∀ key, ¬s.Counted room key) : n = 0 := by
  obtain ⟨l, -, hmem, hlen⟩ := h
  rw [← hlen, List.length_eq_zero_iff, List.eq_nil_iff_forall_not_mem]
  exact fun key hk => hnone key ((hmem key).1 hk)

theorem Counts.pos (h : s.Counts room n) (hk : s.Counted room k) : 1 ≤ n := by
  obtain ⟨l, -, hmem, hlen⟩ := h
  rw [← hlen]
  exact List.length_pos_of_mem ((hmem k).2 hk)

theorem count_of_lookup (hr : s.roomSessions.lookup room = some r) :
    s.count room = (s.session r).refCount := by
  rw [count, hr]
  rfl

theorem count_of_none (hr : s.roomSessions.lookup room = none) : s.count room = 0 := by
  rw [count, hr]
  rfl

/-! ### Sessions -/

theorem session_setRefCount : (s.setRefCount r n).session r' =
    if r' = r then { s.session r with refCount := n } else s.session r' :=
  Function.update_apply _ _ _ _

theorem sig_setRefCount : ((s.setRefCount r n).session r').sig = (s.session r').sig := by
  rw [session_setRefCount]
  split_ifs with hr
  · rw [hr]
  · rfl

theorem Sound.setRefCount (h : s.Sound)
    (hpos : ∀ {room}, s.roomSessions.lookup room = some r →
      1 ≤ n ∨ s.Entering room ∨ room ∈ s.timers) : (s.setRefCount r n).Sound := by
  refine ⟨⟨h.startFresh, h.waiting, h.alone⟩, h.sigFresh, h.sessionFresh, h.sessionInj, h.pcFresh,
    h.joining, h.entering, fun {sg} hsg => ?_, fun {room r'} hr' => ?_, h.scheduled, h.owned⟩
  · rcases h.opened hsg with ⟨r', hr', hsig⟩ | hjoin
    · exact Or.inl ⟨r', hr', sig_setRefCount.trans hsig⟩
    · exact Or.inr hjoin
  · rw [session_setRefCount]
    split_ifs with he
    · subst he
      exact hpos hr'
    · exact h.positive hr'

theorem count_setRefCount_ne (hne : s.roomSessions.lookup room ≠ some r) :
    (s.setRefCount r n).count room = s.count room := by
  cases hr : s.roomSessions.lookup room with
  | none => rw [count_of_none hr, count_of_none (s := s.setRefCount r n) hr]
  | some r' =>
    have hr' : r' ≠ r := by
      rintro rfl
      exact hne hr
    rw [count_of_lookup hr, count_of_lookup (s := s.setRefCount r n) hr, session_setRefCount,
      if_neg hr']

theorem count_setRefCount (h : s.Sound) (hr : s.roomSessions.lookup room = some r) :
    (s.setRefCount r n).count room' = if room' = room then n else s.count room' := by
  by_cases he : room' = room
  · rw [if_pos he, he, count_of_lookup (s := s.setRefCount r n) hr, session_setRefCount, if_pos rfl]
  · rw [if_neg he]
    exact count_setRefCount_ne fun hr' => he (h.sessionInj hr' hr)

theorem sig_closeSig {sg' : SigId} : (s.closeSig sg).sig sg' =
    if sg' = sg then { s.sig sg with isOpen := false } else s.sig sg' :=
  Function.update_apply _ _ _ _

theorem room_closeSig {sg' : SigId} : ((s.closeSig sg).sig sg').room = (s.sig sg').room := by
  rw [sig_closeSig]
  split_ifs with hsg
  · rw [hsg]
  · rfl

theorem open_closeSig {sg' : SigId} (hsg : ((s.closeSig sg).sig sg').isOpen = true) :
    sg' ≠ sg ∧ (s.sig sg').isOpen = true := by
  rw [sig_closeSig] at hsg
  split_ifs at hsg with he
  exact ⟨he, hsg⟩

theorem cleanup_eq (hr : s.roomSessions.lookup room = some r) : s.cleanupRoomSession room =
    { s.closeSig (s.session r).sig with roomSessions := s.roomSessions.erase room } := by
  rw [cleanupRoomSession, hr]

theorem lookup_cleanup (s : TileSessions) (room room' : RoomID) :
    (s.cleanupRoomSession room).roomSessions.lookup room' =
      if room' = room then none else s.roomSessions.lookup room' := by
  cases hr : s.roomSessions.lookup room with
  | none =>
    rw [cleanupRoomSession, hr]
    split_ifs with he
    · rw [he]
      exact hr
    · rfl
  | some r =>
    rw [cleanup_eq hr]
    exact GoMap.lookup_erase_iff _ _ _

/-- The session of a room is closed when nothing is about to use it. -/
theorem Sound.cleanup (h : s.Sound) (hidle : ¬s.Entering room) :
    (s.cleanupRoomSession room).Sound := by
  cases hr : s.roomSessions.lookup room with
  | none =>
    rw [cleanupRoomSession, hr]
    exact h
  | some r =>
    have hsub : ∀ {room' r'}, (s.roomSessions.erase room).lookup room' = some r' →
        room' ≠ room ∧ s.roomSessions.lookup room' = some r' := GoMap.lookup_erase_eq_some.1
    rw [cleanup_eq hr]
    refine ⟨⟨h.startFresh, h.waiting, h.alone⟩, fun hsg => h.sigFresh (open_closeSig hsg).2,
      fun hr' => h.sessionFresh (hsub hr').2, fun h1 h2 => h.sessionInj (hsub h1).2 (hsub h2).2,
      h.pcFresh, fun hp hphase => ?_, fun {id p r'} hp hphase => ?_,
      fun {sg} hsg => ?_, fun hr' => h.positive (hsub hr').2, h.scheduled, h.owned⟩
    · exact ⟨(h.joining hp hphase).1, room_closeSig.trans (h.joining hp hphase).2⟩
    · have hne : p.room ≠ room := fun he => hidle ⟨id, p, r', hp, he, hphase⟩
      change (s.roomSessions.erase room).lookup p.room = some r'
      rw [GoMap.lookup_erase_iff, if_neg hne]
      exact h.entering hp hphase
    · obtain ⟨hne, hopen⟩ := open_closeSig hsg
      rcases h.opened hopen with ⟨r', hr', hsig⟩ | hjoin
      · refine Or.inl ⟨r', ?_, hsig⟩
        change (s.roomSessions.erase room).lookup ((s.closeSig _).sig sg).room = some r'
        rw [room_closeSig, GoMap.lookup_erase_iff, if_neg]
        · exact hr'
        · -- the only connection of the room in `roomSessions` is the one that was closed
          intro he
          rw [he, hr] at hr'
          rw [← Option.some.inj hr'] at hsig
          exact hne hsig.symm
      · exact Or.inr hjoin

theorem count_cleanup : (s.cleanupRoomSession room).count room' =
    if room' = room then 0 else s.count room' := by
  have hlookup := lookup_cleanup s room room'
  split_ifs with he
  · rw [if_pos he] at hlookup
    exact count_of_none hlookup
  · rw [if_neg he] at hlookup
    rw [count, hlookup, count]
    cases hr : s.roomSessions.lookup room with
    | none =>
      rw [cleanupRoomSession, hr]
    | some r =>
      rw [cleanup_eq hr]
      rfl

/-- A session is closed when its last tile gives it back, unless the end of the room is
scheduled. -/
theorem release_eq (hr : s.roomSessions.lookup room = some r) : s.release room =
    if (s.session r).refCount - 1 = 0 ∧ s.roomEndScheduled room = false then
      (s.cleanupRoomSession room).setRefCount r ((s.session r).refCount - 1)
    else s.setRefCount r ((s.session r).refCount - 1) := by
  have hr' : (s.setRefCount r ((s.session r).refCount - 1)).roomSessions.lookup room = some r := hr
  rw [release, hr]
  dsimp only
  rw [session_setRefCount, if_pos rfl]
  change (if (s.session r).refCount - 1 = 0 ∧ s.roomEndScheduled room = false then _ else _) = _
  split_ifs
  · rw [cleanup_eq hr', cleanup_eq hr, sig_setRefCount]
    rfl
  · rfl

theorem Sound.release (h : s.Sound) (hidle : ¬s.Entering room) : (s.release room).Sound := by
  cases hr : s.roomSessions.lookup room with
  | none =>
    rw [TileSessions.release, hr]
    exact h
  | some r =>
    rw [release_eq hr]
    split_ifs with hlast
    · refine (h.cleanup hidle).setRefCount fun {room'} hr' => ?_
      rw [lookup_cleanup] at hr'
      split_ifs at hr' with he
      exact absurd (h.sessionInj hr' hr) he
    · refine h.setRefCount fun {room'} hr' => ?_
      rw [h.sessionInj hr' hr]
      by_cases hzero : (s.session r).refCount - 1 = 0
      · refine Or.inr (Or.inr (h.scheduled ?_))
        by_contra hsched
        exact hlast ⟨hzero, by simpa using hsched⟩
      · exact Or.inl (Nat.one_le_iff_ne_zero.2 hzero)

theorem count_release (h : s.Sound) (room room' : RoomID) : (s.release room).count room' =
    if room' = room then s.count room - 1 else s.count room' := by
  cases hr : s.roomSessions.lookup room with
  | none =>
    rw [release, hr, count_of_none hr]
    split_ifs with he
    · rw [he]
      exact count_of_none hr
    · rfl
  | some r =>
    rw [release_eq hr, count_of_lookup hr]
    split_ifs with hlast he he
    · rw [he, hlast.1]
      refine count_of_none ?_
      exact (lookup_cleanup s room room).trans (if_pos rfl)
    · rw [count_setRefCount_ne, count_cleanup, if_neg he]
      rw [lookup_cleanup, if_neg he]
      exact fun hr' => he (h.sessionInj hr' hr)
    · rw [count_setRefCount h hr, if_pos he]
    · rw [count_setRefCount h hr, if_neg he]

/-! ### Removing a tile -/

/-- The tile can be removed: it counts for its session, and nothing is about to. -/
def Removable (s : TileSessions) (key : TileKey) : Prop :=
  ¬s.Uncounted key ∧ ∀ tile, s.tiles.lookup key = some tile → ¬s.Entering tile.roomId

theorem pcOpen_closePC {pc : Option ℕ} {i : ℕ} (hpc : (s.closePC pc).pcOpen i = true) :
    s.pcOpen i = true ∧ pc ≠ some i := by
  cases pc with
  | none => exact ⟨hpc, fun h => by cases h⟩
  | some j =>
    by_cases hi : i = j
    · rw [hi] at hpc
      exact absurd ((Function.update_self _ _ _).symm.trans hpc) Bool.false_ne_true
    · refine ⟨(Function.update_of_ne hi _ _).symm.trans hpc, fun h => hi ?_⟩
      exact (Option.some.inj h).symm

theorem closePC_eq {pc : Option ℕ} : s.closePC pc = { s with pcOpen := (s.closePC pc).pcOpen } := by
  cases pc <;> rfl

/-- Only the tile and its peer connection go. -/
theorem removeTileEntry_eq (s : TileSessions) (key : TileKey) : ∃ pcOpen,
    s.removeTileEntry key = { s with tiles := s.tiles.erase key, pcOpen } ∧
      ∀ i, pcOpen i = true →
        s.pcOpen i = true ∧ ∀ tile, s.tiles.lookup key = some tile → tile.pc ≠ some i := by
  cases hkey : s.tiles.lookup key with
  | none =>
    refine ⟨s.pcOpen, ?_, fun i hi => ⟨hi, fun tile htile => by cases htile⟩⟩
    rw [removeTileEntry, hkey]
  | some tile =>
    refine ⟨(s.closePC tile.pc).pcOpen, ?_, fun i hi => ⟨(pcOpen_closePC hi).1, ?_⟩⟩
    · rw [removeTileEntry, hkey]
      dsimp only
      rw [closePC_eq]
    · rintro tile' ⟨⟩
      exact (pcOpen_closePC hi).2

theorem lookup_removeTileEntry (s : TileSessions) (key k : TileKey) :
    (s.removeTileEntry key).tiles.lookup k = if k = key then none else s.tiles.lookup k := by
  obtain ⟨pcOpen, he, -⟩ := removeTileEntry_eq s key
  rw [he]
  exact GoMap.lookup_erase_iff _ _ _

theorem Sound.removeTileEntry (h : s.Sound) (hkey : ¬s.Uncounted key) :
    (s.removeTileEntry key).Sound := by
  obtain ⟨pcOpen, he, hpc⟩ := removeTileEntry_eq s key
  rw [he]
  refine ⟨⟨h.startFresh, fun {id p} hp hphase => ?_, h.alone⟩, h.sigFresh, h.sessionFresh,
    h.sessionInj, fun hi => h.pcFresh (hpc _ hi).1, h.joining, h.entering, h.opened, h.positive,
    h.scheduled, fun {i} hi => ?_⟩
  · have hne : p.key ≠ key := fun hk => hkey ⟨id, p, hp, hk, hphase⟩
    obtain ⟨tile, htile, hroom⟩ := h.waiting hp hphase
    refine ⟨tile, ?_, hroom⟩
    change (s.tiles.erase key).lookup p.key = some tile
    rw [GoMap.lookup_erase_iff, if_neg hne]
    exact htile
  · obtain ⟨hi, hgone⟩ := hpc i hi
    obtain ⟨k, tile, htile, htilepc⟩ := h.owned hi
    refine ⟨k, tile, ?_, htilepc⟩
    change (s.tiles.erase key).lookup k = some tile
    rw [GoMap.lookup_erase_iff, if_neg]
    · exact htile
    · rintro rfl
      exact hgone tile htile htilepc

/-! ### Stopping tiles -/

/-- Only sessions and connections differ. -/
structure SameTiles (s s' : TileSessions) : Prop where
  start : s'.start = s.start
  tiles : s'.tiles = s.tiles
  roomEndScheduled : s'.roomEndScheduled = s.roomEndScheduled
  timers : s'.timers = s.timers

theorem sameTiles_cleanup (s : TileSessions) (room : RoomID) :
    s.SameTiles (s.cleanupRoomSession room) := by
  cases hr : s.roomSessions.lookup room with
  | none =>
    rw [cleanupRoomSession, hr]
    exact ⟨rfl, rfl, rfl, rfl⟩
  | some r =>
    rw [cleanup_eq hr]
    exact ⟨rfl, rfl, rfl, rfl⟩

theorem sameTiles_release (s : TileSessions) (room : RoomID) : s.SameTiles (s.release room) := by
  cases hr : s.roomSessions.lookup room with
  | none =>
    rw [release, hr]
    exact ⟨rfl, rfl, rfl, rfl⟩
  | some r =>
    obtain ⟨h1, h2, h3, h4⟩ := sameTiles_cleanup s room
    rw [release_eq hr]
    split_ifs
    · exact ⟨h1, h2, h3, h4⟩
    · exact ⟨rfl, rfl, rfl, rfl⟩

theorem SameTiles.counted (h : s.SameTiles s') : s'.Counted room key ↔ s.Counted room key := by
  rw [Counted, Counted, Uncounted, Uncounted, h.start, h.tiles]

/-- The page has stopped some tiles and nothing else. -/
structure Stops (s s' : TileSessions) : Prop where
  sound : s'.Sound
  balanced : s'.Balanced
  start : s'.start = s.start
  tiles : ∀ {key tile}, s'.tiles.lookup key = some tile → s.tiles.lookup key = some tile
  roomEndScheduled : s'.roomEndScheduled = s.roomEndScheduled
  timers : s'.timers = s.timers

theorem Stops.refl (h : s.Sound) (hb : s.Balanced) : s.Stops s :=
  ⟨h, hb, rfl, fun htile => htile, rfl, rfl⟩

theorem Stops.trans {s'' : TileSessions} (h : s.Stops s') (h' : s'.Stops s'') : s.Stops s'' :=
  ⟨h'.sound, h'.balanced, h'.start.trans h.start, fun htile => h.tiles (h'.tiles htile),
    h'.roomEndScheduled.trans h.roomEndScheduled, h'.timers.trans h.timers⟩

theorem Stops.removable (h : s.Stops s') (hkey : s.Removable key) : s'.Removable key := by
  obtain ⟨hcounted, hidle⟩ := hkey
  rw [Removable, Uncounted, h.start]
  refine ⟨hcounted, fun tile htile => ?_⟩
  rw [Entering, h.start]
  exact hidle tile (h.tiles htile)

/-- The session of a tile that counts for it loses one. -/
theorem stops_release (h : s.Sound) (hb : s.Balanced) (hkey : s.Removable key)
    (htile : s.tiles.lookup key = some tile) :
    s.Stops ((s.removeTileEntry key).release tile.roomId) := by
  have hsound := h.removeTileEntry hkey.1
  obtain ⟨pcOpen, he, -⟩ := removeTileEntry_eq s key
  have hlookup := lookup_removeTileEntry s key
  have hcount := count_release hsound tile.roomId
  have hsame := sameTiles_release (s.removeTileEntry key) tile.roomId
  rw [he] at hsound hlookup hcount hsame ⊢
  have hless : ∀ room k, Counted { s with tiles := s.tiles.erase key, pcOpen } room k ↔
      s.Counted room k ∧ k ≠ key := by
    intro room k
    have hk := hlookup k
    by_cases he : k = key
    · rw [if_pos he] at hk
      refine ⟨fun hc => ?_, fun hc => absurd he hc.2⟩
      obtain ⟨⟨tile', htile', -⟩, -⟩ := hc
      cases hk.symm.trans htile'
    · rw [if_neg he] at hk
      rw [Counted, hk]
      exact ⟨fun hc => ⟨hc, he⟩, fun hc => hc.1⟩
  refine ⟨hsound.release (hkey.2 tile htile), fun room => ?_, hsame.start, fun {k tile'} hk => ?_,
    hsame.roomEndScheduled, hsame.timers⟩
  · rw [hcount]
    split_ifs with hroom
    · subst hroom
      refine Counts.congr ?_ fun k => hsame.counted
      exact (hb tile.roomId).less ⟨⟨tile, htile, rfl⟩, hkey.1⟩ (hless tile.roomId)
    · refine (hb room).congr fun k => hsame.counted.trans ((hless room k).trans ?_)
      refine ⟨fun hc => hc.1, fun hc => ⟨hc, ?_⟩⟩
      rintro rfl
      obtain ⟨⟨tile', htile', hroom'⟩, -⟩ := hc
      rw [htile] at htile'
      rw [← Option.some.inj htile'] at hroom'
      exact hroom hroom'.symm
  · rw [hsame.tiles] at hk
    have hk' := hlookup k
    rw [hk] at hk'
    split_ifs at hk'
    exact hk'.symm

/-- Either all the tiles are gone or one of them could not be stopped. -/
def Stopped (s : TileSessions) (keys : List TileKey) : Except TileSessions TileSessions → Prop
  | .ok s' => s.Stops s' ∧ ∀ key ∈ keys, s'.tiles.lookup key = none
  | .error s' => s.Stops s' ∧ ∃ key ∈ keys, ∃ tile, s'.tiles.lookup key = some tile

theorem stopped_stopTile (h : s.Sound) (hb : s.Balanced) (hkey : s.Removable key) :
    s.Stopped [key] (s.stopTile key) := by
  cases htile : s.tiles.lookup key with
  | none =>
    rw [stopTile, htile]
    exact ⟨Stops.refl h hb, List.forall_mem_singleton.2 htile⟩
  | some tile =>
    rw [stopTile, htile]
    dsimp only
    split_ifs with hfails
    · exact ⟨Stops.refl h hb, key, List.mem_singleton_self key, tile, htile⟩
    · refine ⟨stops_release h hb hkey htile, List.forall_mem_singleton.2 ?_⟩
      rw [(sameTiles_release _ _).tiles, lookup_removeTileEntry, if_pos rfl]

theorem stopped_foldlM (keys : List TileKey) : ∀ s : TileSessions, s.Sound → s.Balanced →
    (∀ key ∈ keys, s.Removable key) → s.Stopped keys (keys.foldlM stopTile s) := by
  induction keys with
  | nil => exact fun s h hb _ => ⟨Stops.refl h hb, fun key hkey => absurd hkey List.not_mem_nil⟩
  | cons key keys ih =>
    intro s h hb hkeys
    have hfirst := stopped_stopTile h hb (hkeys key List.mem_cons_self)
    rw [List.foldlM_cons]
    cases hstop : s.stopTile key with
    | error s' =>
      rw [hstop] at hfirst
      obtain ⟨hstops, k, hk, tile, htile⟩ := hfirst
      rw [List.mem_singleton.1 hk] at htile
      exact ⟨hstops, key, List.mem_cons_self, tile, htile⟩
    | ok s' =>
      rw [hstop] at hfirst
      obtain ⟨hstops, hgone⟩ := hfirst
      have hrest := ih s' hstops.sound hstops.balanced fun k hk =>
        hstops.removable (hkeys k (List.mem_cons_of_mem _ hk))
      change s.Stopped (key :: keys) (keys.foldlM stopTile s')
      cases hfold : keys.foldlM stopTile s' with
      | error t =>
        rw [hfold] at hrest
        obtain ⟨hstops', k, hk, htile⟩ := hrest
        exact ⟨hstops.trans hstops', k, List.mem_cons_of_mem _ hk, htile⟩
      | ok t =>
        rw [hfold] at hrest
        obtain ⟨hstops', hgone'⟩ := hrest
        refine ⟨hstops.trans hstops', fun k hk => ?_⟩
        rcases List.mem_cons.1 hk with rfl | hk
        · cases htile : t.tiles.lookup k with
          | none => rfl
          | some tile =>
            have hlook := hstops'.tiles htile
            rw [hgone k (List.mem_singleton_self k)] at hlook
            cases hlook
        · exact hgone' k hk

/-- What holds after `stopTiles`, whether or not it throws. -/
theorem stopTiles_rule {Q : TileSessions → Prop} {keys : List TileKey}
    {andThen : TileSessions → TileSessions} (h : s.Sound) (hb : s.Balanced)
    (hkeys : ∀ key ∈ keys, s.Removable key)
    (hok : ∀ {s'}, s.Stops s' → (∀ key ∈ keys, s'.tiles.lookup key = none) → Q (andThen s'))
    (herror : ∀ {s'}, s.Stops s' → (∃ key ∈ keys, ∃ tile, s'.tiles.lookup key = some tile) → Q s') :
    Q (s.stopTiles keys andThen) := by
  have hstopped := stopped_foldlM keys s h hb hkeys
  rw [stopTiles]
  cases hfold : keys.foldlM stopTile s with
  | ok s' =>
    rw [hfold] at hstopped
    exact hok hstopped.1 hstopped.2
  | error s' =>
    rw [hfold] at hstopped
    exact herror hstopped.1 hstopped.2

end TileSessions

end Meetkit
