import Meetkit.Lib.Text
import Meetkit.Model.MemberTiles
import Meetkit.Proofs.TileSessions

/-! Which tiles a hub update retires. A tile is skipped as one of a push when `:push:` is
anywhere in its key, so also when it is in the room id, with the colon after it. And the
update ends at the first stop it cannot report. -/

namespace Meetkit

/-! ### Keys -/

section Keys

variable {R U K S : List Char}

/-- Of the colons of a member's key only those of the room id, with the one after it, can be
the two around `push`. -/
theorem push_infix_iff (hU : ':' ∉ U) (hpush : U ≠ "push".toList) (hK : ':' ∉ K) :
    ":push:".toList <:+: R ++ ':' :: (U ++ ':' :: K) ↔ ":push:".toList <:+: R ++ [':'] := by
  have hlit : ∀ X Y : List Char, X ++ ":push:".toList ++ Y = (X ++ ':' :: "push".toList) ++ ':' :: Y :=
    fun X Y => by simp
  constructor
  · rintro ⟨X, Y, h⟩
    rw [hlit, ← List.cons_append, ← List.append_assoc, Text.append_sep_inj_iff] at h
    rcases h with ⟨h, -⟩ | ⟨x, h, -⟩ | ⟨x, -, rfl⟩
    · -- the second colon of `:push:` is the one after the user id
      rcases Text.append_sep_inj_iff.1 h with ⟨-, h⟩ | ⟨y, -, h⟩ | ⟨y, -, rfl⟩
      · exact absurd h.symm hpush
      · have hcolon : ':' ∈ "push".toList := h ▸ List.mem_append_right y List.mem_cons_self
        exact absurd hcolon (by decide)
      · exact absurd (List.mem_append_right y List.mem_cons_self) hU
    · -- it comes before that one
      rcases Text.append_sep_inj_iff.1 h with ⟨rfl, -⟩ | ⟨y, -, rfl⟩ | ⟨y, rfl, -⟩
      · exact ⟨X, [], by simp⟩
      · exact absurd (List.mem_append_right y List.mem_cons_self) hU
      · exact ⟨X, y ++ [':'], by simp⟩
    · exact absurd (List.mem_append_right x List.mem_cons_self) hK
  · intro h
    refine h.trans (List.IsPrefix.isInfix ⟨U ++ ':' :: K, ?_⟩)
    rw [List.append_assoc, List.singleton_append]

theorem tileKeyMember_toList (room : RoomID) (user : UserID) (kind : Kind) :
    (tileKeyMember room user kind).toList =
      room.toList ++ ':' :: (user.toList ++ ':' :: kind.toList) := by
  simp [tileKeyMember]

theorem push_infix_tileKeyPush (room : RoomID) (stream : StreamID) :
    ":push:".toList <:+: (tileKeyPush room stream).toList := by
  refine ⟨room.toList, stream.toList, ?_⟩
  rw [tileKeyPush, String.toList_append, String.toList_append]

variable (u : Uuid)

theorem Uuid.colon_notMem : ':' ∉ u.text.toList := by
  intro h
  rw [← List.zipIdx_map_fst 0 u.text.toList] at h
  obtain ⟨⟨c, i⟩, hmem, rfl⟩ := List.mem_map.1 h
  have hall := u.valid
  rw [isUuid, Bool.and_eq_true, List.all_eq_true] at hall
  have hcolon := hall.2 _ hmem
  split_ifs at hcolon
  all_goals simp at hcolon

theorem Uuid.length_text : u.text.toList.length = 36 := by
  have hall := u.valid
  rw [isUuid, Bool.and_eq_true, decide_eq_true_eq] at hall
  exact hall.1

theorem Uuid.ne_push : u.text.toList ≠ "push".toList := by
  intro h
  have hlen := u.length_text
  rw [h] at hlen
  exact absurd hlen (by decide)

theorem Uuid.ne_nil : u.text.toList ≠ [] := by
  intro h
  have hlen := u.length_text
  rw [h] at hlen
  cases hlen

theorem MemberKind.colon_notMem (kind : MemberKind) : ':' ∉ kind.text.toList := by
  cases kind <;> decide

/-- A member's key has `:push:` exactly if the room id, with the colon after it, has. -/
theorem push_infix_tileKeyMember (room : RoomID) (kind : MemberKind) :
    ":push:".toList <:+: (tileKeyMember room u.text kind.text).toList ↔
      ":push:".toList <:+: (room ++ ":").toList := by
  rw [tileKeyMember_toList, push_infix_iff u.colon_notMem u.ne_push kind.colon_notMem,
    String.toList_append]
  rfl

end Keys

namespace TileSessions

variable {s t : TileSessions} {hub : List HubRoom} {key : TileKey} {tile : SessionTile}

/-! ### Who has departed -/

/-- The clients of the room in the snapshot that are no observers. -/
def clientsIn (hub : List HubRoom) (room : RoomID) : List UserID :=
  ((hubRoom hub room).map (·.clients)).getD []

theorem departed_member (u : Uuid) (kind : MemberKind)
    (hkey : key = tileKeyMember tile.roomId u.text kind.text) :
    departed hub key tile = true ↔ ended hub tile.roomId = false ∧
      ¬":push:".toList <:+: (tile.roomId ++ ":").toList ∧ u.text ∉ clientsIn hub tile.roomId := by
  have hlist : key.toList =
      (tile.roomId.toList ++ [':']) ++ (u.text.toList ++ ':' :: kind.text.toList) := by
    rw [hkey, tileKeyMember_toList]
    simp
  have huser : (key.toList.drop (tile.roomId.toList ++ [':']).length).takeWhile (· ≠ ':') =
      u.text.toList := by
    rw [hlist, List.drop_left, List.takeWhile_append_of_pos, List.takeWhile_cons_of_neg]
    · simp
    · simp
    · intro c hc
      have hne : c ≠ ':' := fun he => u.colon_notMem (he ▸ hc)
      simpa using hne
  have hprefix : tile.roomId.toList ++ [':'] <+: key.toList := ⟨_, hlist.symm⟩
  have hpush : ":push:".toList <:+: key.toList ↔ ":push:".toList <:+: (tile.roomId ++ ":").toList := by
    rw [hkey]
    exact push_infix_tileKeyMember u tile.roomId kind
  have hclients : ((hubRoom hub tile.roomId).any fun room =>
      !room.clients.any fun c => c.toList = u.text.toList) = true ∧ ended hub tile.roomId = false ↔
      u.text ∉ clientsIn hub tile.roomId ∧ ended hub tile.roomId = false := by
    refine and_congr_left fun hactive => ?_
    unfold clientsIn
    unfold ended at hactive
    cases hroom : hubRoom hub tile.roomId with
    | none => rw [hroom] at hactive; cases hactive
    | some room =>
      have hall : (∀ c ∈ room.clients, ¬c = u.text) ↔ u.text ∉ room.clients :=
        ⟨fun h hm => h u.text hm rfl, fun h c hc he => h (he ▸ hc)⟩
      simpa [String.toList_inj] using hall
  unfold departed
  dsimp only
  rw [huser]
  simp only [Bool.and_eq_true, Bool.not_eq_true', decide_eq_true_eq, decide_eq_false_iff_not, hpush,
    hprefix, and_true, ne_eq, u.ne_nil, not_false_eq_true]
  constructor
  · rintro ⟨⟨hactive, hnopush⟩, hgone⟩
    exact ⟨hactive, hnopush, (hclients.1 ⟨hgone, hactive⟩).1⟩
  · rintro ⟨hactive, hnopush, hgone⟩
    exact ⟨⟨hactive, hnopush⟩, (hclients.2 ⟨hgone, hactive⟩).1⟩

theorem not_departed_push {stream : StreamID} (hkey : key = tileKeyPush tile.roomId stream) :
    departed hub key tile = false := by
  have hpush : ":push:".toList <:+: key.toList := hkey ▸ push_infix_tileKeyPush _ _
  simp only [departed, hpush, decide_true, Bool.not_true, Bool.and_false, Bool.false_and]

/-! ### The tiles there are -/

/-- A tile as `startMemberTile` or `startPushTile` has put it up. -/
def MadeTile (key : TileKey) (tile : SessionTile) : Prop :=
  (∃ (u : Uuid) (kind : MemberKind), key = tileKeyMember tile.roomId u.text kind.text ∧
    tile.auditDetail ≠ "") ∨ ∃ stream, key = tileKeyPush tile.roomId stream

/-- The tiles are those of the page, and the connection of a session is to its room. -/
structure Made (s : TileSessions) : Prop where
  tile : ∀ key tile, s.tiles.lookup key = some tile → MadeTile key tile
  sessionFresh : ∀ room r, s.roomSessions.lookup room = some r →
    r < s.newSession ∧ (s.session r).sig < s.newSig
  sigRoom : ∀ room r, s.roomSessions.lookup room = some r → (s.sig (s.session r).sig).room = room
  joining : ∀ id p sg, s.start id = some p → p.phase = .joining sg →
    sg < s.newSig ∧ (s.sig sg).room = p.room

/-- What a departed tile is reported under is not empty. -/
theorem Made.departed_detail (h : s.Made) (htile : s.tiles.lookup key = some tile)
    (hgone : departed hub key tile = true) : tile.auditDetail ≠ "" := by
  rcases h.tile key tile htile with ⟨u, kind, -, hdetail⟩ | ⟨stream, hkey⟩
  · exact hdetail
  · rw [not_departed_push hkey] at hgone
    cases hgone

section Kept

variable {r : SessionRef} {sg : SigId} {n : ℕ} {id : StartId} {p : TileStart} {room : RoomID}

/-- Tiles go, and calls of `startTile` return. -/
theorem Made.fewer (h : s.Made)
    (htiles : ∀ key tile, t.tiles.lookup key = some tile → s.tiles.lookup key = some tile)
    (hstart : ∀ id p, t.start id = some p → s.start id = some p)
    (hsessions : t.roomSessions = s.roomSessions) (hsession : t.session = s.session)
    (hsig : t.sig = s.sig) (hnewSession : t.newSession = s.newSession) (hnewSig : t.newSig = s.newSig) :
    t.Made := by
  refine ⟨fun key tile htile => h.tile key tile (htiles key tile htile), ?_, ?_, ?_⟩
  · rw [hsessions, hsession, hnewSession, hnewSig]
    exact h.sessionFresh
  · rw [hsessions, hsession, hsig]
    exact h.sigRoom
  · rw [hsig, hnewSig]
    exact fun id p sg hp => h.joining id p sg (hstart id p hp)

theorem Made.closeSig (h : s.Made) (sg : SigId) : (s.closeSig sg).Made :=
  ⟨h.tile, h.sessionFresh, fun room r hr => room_closeSig.trans (h.sigRoom room r hr),
    fun id p sg' hp hphase =>
      ⟨(h.joining id p sg' hp hphase).1, room_closeSig.trans (h.joining id p sg' hp hphase).2⟩⟩

theorem Made.setRefCount (h : s.Made) (r : SessionRef) (n : ℕ) : (s.setRefCount r n).Made :=
  ⟨h.tile, fun room r' hr => by rw [sig_setRefCount]; exact h.sessionFresh room r' hr,
    fun room r' hr => by rw [sig_setRefCount]; exact h.sigRoom room r' hr, h.joining⟩

theorem Made.cleanup (h : s.Made) (room : RoomID) : (s.cleanupRoomSession room).Made := by
  cases hr : s.roomSessions.lookup room with
  | none =>
    rw [cleanupRoomSession, hr]
    exact h
  | some r =>
    have hclosed := h.closeSig (s.session r).sig
    rw [cleanup_eq hr]
    exact ⟨hclosed.tile,
      fun room' r' hr' => hclosed.sessionFresh room' r' (GoMap.lookup_erase_eq_some.1 hr').2,
      fun room' r' hr' => hclosed.sigRoom room' r' (GoMap.lookup_erase_eq_some.1 hr').2,
      hclosed.joining⟩

theorem Made.release (h : s.Made) (room : RoomID) : (s.release room).Made := by
  cases hr : s.roomSessions.lookup room with
  | none =>
    rw [TileSessions.release, hr]
    exact h
  | some r =>
    rw [release_eq hr]
    split_ifs
    · exact (h.cleanup room).setRefCount _ _
    · exact h.setRefCount _ _

theorem Made.removeTileEntry (h : s.Made) (key : TileKey) : (s.removeTileEntry key).Made := by
  obtain ⟨pcOpen, he, -⟩ := removeTileEntry_eq s key
  rw [he]
  exact h.fewer (fun k tile hk => (GoMap.lookup_erase_eq_some.1 hk).2) (fun _ _ hp => hp) rfl rfl
    rfl rfl rfl

theorem Made.scheduleRoomEnd (h : s.Made) (room : RoomID) : (s.scheduleRoomEnd room).Made := by
  unfold TileSessions.scheduleRoomEnd
  split_ifs
  · exact h
  · exact ⟨h.tile, h.sessionFresh, h.sigRoom, h.joining⟩

theorem Made.stopTile (h : s.Made) (key : TileKey) :
    (∀ t, s.stopTile key = .ok t → t.Made) ∧ ∀ t, s.stopTile key = .error t → t.Made := by
  unfold TileSessions.stopTile
  split
  · exact ⟨fun t ht => (by cases ht; exact h), fun t ht => by cases ht⟩
  · split_ifs
    · exact ⟨fun t ht => (by cases ht), fun t ht => by cases ht; exact h⟩
    · exact ⟨fun t ht => (by cases ht; exact (h.removeTileEntry key).release _),
        fun t ht => by cases ht⟩

/-- The page stops tiles, whether or not all of them. -/
theorem Made.stopTiles (h : s.Made) (keys : List TileKey) {andThen : TileSessions → TileSessions}
    (hthen : ∀ t : TileSessions, t.Made → (andThen t).Made) : (s.stopTiles keys andThen).Made := by
  unfold TileSessions.stopTiles
  induction keys generalizing s with
  | nil => exact hthen s h
  | cons key keys ih =>
    have hkey := h.stopTile key
    rw [List.foldlM_cons]
    cases hstop : s.stopTile key with
    | error t => exact hkey.2 t hstop
    | ok t => exact ih (hkey.1 t hstop)

theorem Made.foldl (h : s.Made) {f : TileSessions → RoomID → TileSessions}
    (hf : ∀ t room, Made t → (f t room).Made) (rooms : List RoomID) : (rooms.foldl f s).Made := by
  induction rooms generalizing s with
  | nil => exact h
  | cons room rooms ih => exact ih (hf s room h)

theorem Made.startTile (h : s.Made) {room : RoomID} {detail : String}
    (hnew : MadeTile key { roomId := room, auditDetail := detail }) :
    (s.startTile key room detail).Made := by
  unfold TileSessions.startTile
  split_ifs
  · exact h
  · refine ⟨fun k tile hk => ?_, h.sessionFresh, h.sigRoom, fun id p sg hp hphase => ?_⟩
    · rw [GoMap.lookup_insert_iff] at hk
      split_ifs at hk with he
      · cases hk
        exact he ▸ hnew
      · exact h.tile k tile hk
    · rcases start_cases hp with ⟨-, he⟩ | ⟨-, hp⟩
      · cases he
        dsimp only at hphase
        split at hphase <;> cases hphase
      · exact h.joining id p sg hp hphase

theorem Made.connected (h : s.Made) (id : StartId) (p : TileStart) : (s.connected id p).Made := by
  have hsig : ∀ {sg}, sg < s.newSig → (s.connected id p).sig sg = s.sig sg := fun hsg =>
    Function.update_of_ne hsg.ne _ _
  have hnew : (s.connected id p).sig s.newSig = { room := p.room, isOpen := true } :=
    Function.update_self _ _ _
  refine ⟨h.tile, fun room r hr => ?_, fun room r hr => ?_, fun id' p' sg hp hphase => ?_⟩
  · exact ⟨(h.sessionFresh room r hr).1, Nat.lt_succ_of_lt (h.sessionFresh room r hr).2⟩
  · exact (congrArg ObserveSig.room (hsig (h.sessionFresh room r hr).2)).trans (h.sigRoom room r hr)
  · rcases start_cases hp with ⟨-, he⟩ | ⟨-, hp⟩
    · cases he
      cases hphase
      exact ⟨Nat.lt_succ_self _, congrArg ObserveSig.room hnew⟩
    · obtain ⟨hlt, hroom⟩ := h.joining id' p' sg hp hphase
      exact ⟨Nat.lt_succ_of_lt hlt, (congrArg ObserveSig.room (hsig hlt)).trans hroom⟩

theorem Made.observeJoined (h : s.Made) (hp : s.start id = some p) (hphase : p.phase = .joining sg) :
    (s.observeJoined id p sg).Made := by
  have hold : ∀ {r}, r < s.newSession → (s.observeJoined id p sg).session r = s.session r :=
    fun hr => Function.update_of_ne hr.ne _ _
  have hnew : (s.observeJoined id p sg).session s.newSession = { sig := sg, refCount := 0 } :=
    Function.update_self _ _ _
  obtain ⟨hlt, hroom⟩ := h.joining id p sg hp hphase
  refine ⟨h.tile, fun room r hr => ?_, fun room r hr => ?_, fun id' p' sg' hp' hphase' => ?_⟩
  · rw [lookup_observeJoined] at hr
    split_ifs at hr
    · cases hr
      rw [hnew]
      exact ⟨Nat.lt_succ_self _, hlt⟩
    · rw [hold (h.sessionFresh room r hr).1]
      exact ⟨Nat.lt_succ_of_lt (h.sessionFresh room r hr).1, (h.sessionFresh room r hr).2⟩
  · rw [lookup_observeJoined] at hr
    split_ifs at hr with he
    · cases hr
      rw [hnew]
      exact hroom.trans he.symm
    · rw [hold (h.sessionFresh room r hr).1]
      exact h.sigRoom room r hr
  · rcases start_cases hp' with ⟨-, he⟩ | ⟨-, hp'⟩
    · cases he
      cases hphase'
    · exact h.joining id' p' sg' hp' hphase'

theorem Made.entered (h : s.Made) (id : StartId) (p : TileStart) (r : SessionRef) :
    (s.entered id p r).Made := by
  have hset := h.setRefCount r ((s.session r).refCount + 1)
  refine ⟨hset.tile, hset.sessionFresh, hset.sigRoom, fun id' p' sg hp hphase => ?_⟩
  rcases start_cases hp with ⟨-, he⟩ | ⟨-, hp⟩
  · cases he
    cases hphase
  · exact h.joining id' p' sg hp hphase

theorem start_of_update_none {start : StartId → Option TileStart} {id id' : StartId}
    {q : TileStart} (hq : Function.update start id none id' = some q) : start id' = some q := by
  rcases start_cases hq with ⟨-, he⟩ | ⟨-, hq⟩
  · cases he
  · exact hq

theorem Made.played (h : s.Made) (id : StartId) (p : TileStart) : (s.played id p).Made := by
  refine ⟨fun k tile hk => ?_, h.sessionFresh, h.sigRoom, fun id' p' sg hp hphase =>
    h.joining id' p' sg (start_of_update_none hp) hphase⟩
  rw [lookup_played] at hk
  split_ifs at hk with he
  · obtain ⟨tile', htile', rfl⟩ := Option.map_eq_some_iff.1 hk
    rw [he]
    exact h.tile p.key tile' htile'
  · exact h.tile k tile hk

theorem Made.startFailed (h : s.Made) (id : StartId) (p : TileStart) : (s.startFailed id p).Made := by
  have hreturned : (s.setStart id none).Made := h.fewer (fun _ _ htile => htile)
    (fun _ _ hp => start_of_update_none hp) rfl rfl rfl rfl rfl
  unfold TileSessions.startFailed
  dsimp only
  split
  · split_ifs
    · exact hreturned.removeTileEntry _
    · exact (hreturned.removeTileEntry _).release _
  · exact hreturned.removeTileEntry _

theorem Made.step (h : s.Made) {l : WatchLabel}
    (hl : ∀ key room detail, l ≠ .startTile key room detail) : (s.step l).Made := by
  cases l with
  | startTile key room detail => exact absurd rfl (hl key room detail)
  | connected id =>
    rw [TileSessions.step]
    refine resume_rule (Q := Made) h fun {p t} hp ht => ?_
    split_ifs at ht
    cases ht
    exact h.connected id p
  | connectFailed id =>
    rw [TileSessions.step]
    refine resume_rule (Q := Made) h fun {p t} hp ht => ?_
    split_ifs at ht
    cases ht
    exact h.startFailed id p
  | observeJoined id =>
    rw [TileSessions.step]
    refine resume_rule (Q := Made) h fun {p t} hp ht => ?_
    split at ht
    · rename_i sg hphase
      split_ifs at ht
      cases ht
      exact h.observeJoined hp hphase
    · cases ht
  | joinFailed id =>
    rw [TileSessions.step]
    refine resume_rule (Q := Made) h fun {p t} hp ht => ?_
    split at ht
    · cases ht
      exact h.startFailed id p
    · cases ht
  | entered id =>
    rw [TileSessions.step]
    refine resume_rule (Q := Made) h fun {p t} hp ht => ?_
    split at ht
    · cases ht
      exact h.entered id p _
    · cases ht
  | played id =>
    rw [TileSessions.step]
    refine resume_rule (Q := Made) h fun {p t} hp ht => ?_
    split_ifs at ht
    cases ht
    exact h.played id p
  | playFailed id =>
    rw [TileSessions.step]
    refine resume_rule (Q := Made) h fun {p t} hp ht => ?_
    split_ifs at ht
    cases ht
    exact h.startFailed id p
  | stopTile key => exact h.stopTiles [key] fun t ht => ht
  | syncTilesWithHub hub =>
    exact h.stopTiles _ fun t ht => ht.foldl (fun t room ht => ht.scheduleRoomEnd room) _
  | observeEnded r =>
    change (TileSessions.observeEnded s r).Made
    unfold TileSessions.observeEnded
    dsimp only
    split_ifs
    · exact h.scheduleRoomEnd _
    · exact h
  | dropped sg => exact h.closeSig sg
  | roomEnd room =>
    change (TileSessions.roomEnd s room).Made
    unfold TileSessions.roomEnd
    split_ifs
    · have hended : Made { s with roomEndScheduled := Function.update s.roomEndScheduled room false } :=
        ⟨h.tile, h.sessionFresh, h.sigRoom, h.joining⟩
      have hstopped := hended.stopTiles (TileSessions.keysWhere
        { s with roomEndScheduled := Function.update s.roomEndScheduled room false }
        fun _ tile => tile.roomId = room) fun t ht => ht.cleanup room
      exact ⟨hstopped.tile, hstopped.sessionFresh, hstopped.sigRoom, hstopped.joining⟩
    · exact h
  | stopAllWatching =>
    have hcleared : Made { s with roomEndScheduled := fun _ => false } :=
      ⟨h.tile, h.sessionFresh, h.sigRoom, h.joining⟩
    exact hcleared.stopTiles _ fun t ht => ht.foldl (fun t room ht => ht.cleanup room) _

theorem memberTiles_other {l : WatchLabel} (hl : ∀ key room detail, l ≠ .startTile key room detail) :
    memberTiles.step s (.other l) = s.step l := by
  cases l with
  | startTile key room detail => exact absurd rfl (hl key room detail)
  | _ => rfl

theorem made_run (ls : List TileLabel) : (memberTiles.run ls).Made := by
  refine Machine.run_invariant (P := Made) ?_ (fun s l h => ?_) ls
  · exact ⟨fun _ _ h => (by cases h), fun _ _ h => (by cases h), fun _ _ h => (by cases h),
      fun _ _ _ h => by cases h⟩
  · cases l with
    | startMemberTile room clients u kind =>
      refine h.startTile (Or.inl ⟨u, kind, rfl, ?_⟩)
      dsimp only
      split_ifs with hnick
      · exact fun he => u.ne_nil (congrArg String.toList he)
      · exact hnick
    | startPushTile room stream nickname => exact h.startTile (Or.inr ⟨stream, rfl⟩)
    | other l =>
      by_cases hl : ∃ key room detail, l = .startTile key room detail
      · obtain ⟨key, room, detail, rfl⟩ := hl
        exact h
      · rw [memberTiles_other fun key room detail he => hl ⟨key, room, detail, he⟩]
        exact h.step fun key room detail he => hl ⟨key, room, detail, he⟩

end Kept

/-! ### The loop -/

/-- Whether the stop of the tile cannot be reported. -/
def fails (s : TileSessions) (key : TileKey) : Bool := (s.tiles.lookup key).any s.reportFails

/-- Whether the room has a session, and if so, whether its connection is open. -/
def link (s : TileSessions) (room : RoomID) : Option Bool :=
  (s.roomSessions.lookup room).map fun r => (s.sig (s.session r).sig).isOpen

section Loop

variable {room : RoomID} {k : TileKey}

theorem reportFails_iff : s.reportFails tile = true ↔
    tile.auditDetail ≠ "" ∧ s.link tile.roomId = some false := by
  rw [reportFails, Bool.and_eq_true, decide_eq_true_eq, link]
  cases s.roomSessions.lookup tile.roomId with
  | none => simp
  | some r => simp

/-- Giving a session back closes no connection of another room. -/
theorem link_release (h : s.Made) (room room' : RoomID) : (s.release room).link room' = s.link room' ∨
    room' = room ∧ (s.release room).link room' = none := by
  cases hr : s.roomSessions.lookup room with
  | none =>
    left
    rw [release, hr]
  | some r =>
    rw [release_eq hr]
    split_ifs with hlast
    · by_cases he : room' = room
      · refine Or.inr ⟨he, ?_⟩
        have hnone : (s.cleanupRoomSession room).roomSessions.lookup room' = none := by
          rw [lookup_cleanup, if_pos he]
        exact congrArg (Option.map _) hnone
      · left
        have hkept : (s.cleanupRoomSession room).roomSessions.lookup room' =
            s.roomSessions.lookup room' := by
          rw [lookup_cleanup, if_neg he]
        refine (congrArg (Option.map _) hkept).trans ?_
        rw [link]
        refine Option.map_congr fun r' hr' => ?_
        have hne : (s.session r').sig ≠ (s.session r).sig := by
          intro hsig
          have hroom := h.sigRoom room' r' hr'
          rw [hsig, h.sigRoom room r hr] at hroom
          exact he hroom.symm
        rw [sig_setRefCount, cleanup_eq hr]
        change (Function.update s.sig (s.session r).sig _ (s.session r').sig).isOpen = _
        rw [Function.update_of_ne hne]
    · left
      rw [link]
      refine Option.map_congr fun r' _ => ?_
      rw [sig_setRefCount]
      rfl

theorem link_removeTileEntry : (s.removeTileEntry key).link room = s.link room := by
  obtain ⟨pcOpen, he, -⟩ := removeTileEntry_eq s key
  rw [he]
  rfl

/-- `t` is `s` without some tiles. -/
structure Without (s t : TileSessions) (gone : List TileKey) : Prop where
  tiles : ∀ k, t.tiles.lookup k = if k ∈ gone then none else s.tiles.lookup k
  roomEndScheduled : t.roomEndScheduled = s.roomEndScheduled

theorem Without.refl (s : TileSessions) : s.Without s [] :=
  ⟨fun _ => (if_neg List.not_mem_nil).symm, rfl⟩

theorem Without.cons {t' : TileSessions} {gone : List TileKey} (h : s.Without t [key])
    (h' : t.Without t' gone) : s.Without t' (key :: gone) where
  tiles k := by
    rw [h'.tiles, h.tiles]
    simp only [List.mem_cons, List.not_mem_nil, or_false]
    split_ifs <;> simp_all
  roomEndScheduled := h'.roomEndScheduled.trans h.roomEndScheduled

theorem without_stop (s : TileSessions) (key : TileKey) (tile : SessionTile) :
    s.Without ((s.removeTileEntry key).release tile.roomId) [key] := by
  have hsame := sameTiles_release (s.removeTileEntry key) tile.roomId
  obtain ⟨pcOpen, he, -⟩ := removeTileEntry_eq s key
  refine ⟨fun k => ?_, ?_⟩
  · rw [hsame.tiles, lookup_removeTileEntry]
    simp only [List.mem_singleton]
  · rw [hsame.roomEndScheduled, he]

/-- A stop that is reported leaves the others as they are, reported or not. -/
theorem fails_stop (h : s.Made) (hdetail : tile.auditDetail ≠ "") (hok : s.reportFails tile = false)
    (hk : k ≠ key) :
    ((s.removeTileEntry key).release tile.roomId).fails k = s.fails k := by
  have hlookup := (without_stop s key tile).tiles k
  rw [if_neg (by simpa using hk)] at hlookup
  rw [fails, fails, hlookup]
  cases hother : s.tiles.lookup k with
  | none => rfl
  | some other =>
    rw [Option.any_some, Option.any_some, Bool.eq_iff_iff, reportFails_iff, reportFails_iff]
    have hnot : s.link tile.roomId ≠ some false := fun he => by
      rw [reportFails_iff.2 ⟨hdetail, he⟩] at hok
      cases hok
    rcases link_release (h.removeTileEntry key) tile.roomId other.roomId with heq | ⟨he, hnone⟩
    · rw [heq, link_removeTileEntry]
    · rw [hnone, he]
      exact ⟨fun hf => (by cases hf.2), fun hf => absurd hf.2 hnot⟩

/-- The keys ahead of the first whose stop cannot be reported. -/
def reached (s : TileSessions) (keys : List TileKey) : List TileKey :=
  keys.takeWhile fun key => !s.fails key

theorem reached_congr {keys : List TileKey} (h : ∀ k ∈ keys, t.fails k = s.fails k) :
    t.reached keys = s.reached keys := by
  induction keys with
  | nil => rfl
  | cons k keys ih =>
    rw [reached, reached, List.takeWhile_cons, List.takeWhile_cons, h k List.mem_cons_self]
    split_ifs
    · exact congrArg (k :: ·) (ih fun k' hk' => h k' (List.mem_cons_of_mem k hk'))
    · rfl

/-- A key is reached if it comes before every one that is not stopped. -/
theorem mem_reached {keys : List TileKey} : key ∈ s.reached keys ↔
    key ∈ keys ∧ ∀ k ∈ keys, s.fails k = true → keys.idxOf key < keys.idxOf k := by
  induction keys with
  | nil => simp [reached]
  | cons x keys ih =>
    rw [reached, List.takeWhile_cons]
    cases hx : s.fails x with
    | true =>
      simp only [Bool.not_true, Bool.false_eq_true, if_false, List.not_mem_nil, false_iff, not_and]
      intro _ h
      have hlt := h x List.mem_cons_self hx
      rw [List.idxOf_cons_self] at hlt
      exact Nat.not_lt_zero _ hlt
    | false =>
      have hne : ∀ k, s.fails k = true → k ≠ x := by
        rintro k hk rfl
        rw [hx] at hk
        cases hk
      simp only [Bool.not_false, if_true, List.mem_cons]
      by_cases he : key = x
      · subst he
        refine ⟨fun _ => ⟨Or.inl rfl, fun k _ hk => ?_⟩, fun _ => Or.inl rfl⟩
        rw [List.idxOf_cons_self, List.idxOf_cons_ne _ (hne k hk).symm]
        exact Nat.succ_pos _
      · rw [List.idxOf_cons_ne _ (Ne.symm he), ← reached, ih]
        simp only [he, false_or]
        refine and_congr_right fun _ => ⟨fun h k hk hbroken => ?_, fun h k hk hbroken => ?_⟩
        · rw [List.idxOf_cons_ne _ (hne k hbroken).symm]
          exact Nat.succ_lt_succ (h k (hk.resolve_left (hne k hbroken)) hbroken)
        · have hlt := h k (Or.inr hk) hbroken
          rw [List.idxOf_cons_ne _ (hne k hbroken).symm] at hlt
          exact Nat.lt_of_succ_lt_succ hlt

/-- How a loop over `stopTile` ends. -/
def Looped (s : TileSessions) (keys : List TileKey) : Except TileSessions TileSessions → Prop
  | .ok t => (∀ k ∈ keys, s.fails k = false) ∧ s.Without t (s.reached keys)
  | .error t => (∃ k ∈ keys, s.fails k = true) ∧ s.Without t (s.reached keys)

theorem looped_foldlM (keys : List TileKey) : ∀ s : TileSessions, s.Made → keys.Nodup →
    (∀ k ∈ keys, ∃ tile, s.tiles.lookup k = some tile ∧ tile.auditDetail ≠ "") →
    s.Looped keys (keys.foldlM stopTile s) := by
  induction keys with
  | nil => exact fun s _ _ _ => ⟨fun k hk => absurd hk List.not_mem_nil, .refl s⟩
  | cons key keys ih =>
    intro s h hnodup hkeys
    obtain ⟨tile, htile, hdetail⟩ := hkeys key List.mem_cons_self
    obtain ⟨hkey, hnodup⟩ := List.nodup_cons.1 hnodup
    have hfails : s.fails key = s.reportFails tile := by rw [fails, htile, Option.any_some]
    rw [List.foldlM_cons, stopTile, htile]
    dsimp only
    cases hf : s.reportFails tile with
    | true =>
      rw [if_pos rfl]
      refine ⟨⟨key, List.mem_cons_self, hfails.trans hf⟩, ?_⟩
      rw [reached, List.takeWhile_cons_of_neg (by simp [hfails, hf])]
      exact .refl s
    | false =>
      rw [if_neg Bool.false_ne_true]
      have hne : ∀ k ∈ keys, k ≠ key := fun k hk he => hkey (he ▸ hk)
      have hsame : ∀ k ∈ keys, ((s.removeTileEntry key).release tile.roomId).fails k = s.fails k :=
        fun k hk => fails_stop h hdetail hf (hne k hk)
      have hstop := without_stop s key tile
      have hreached : s.reached (key :: keys) =
          key :: ((s.removeTileEntry key).release tile.roomId).reached keys := by
        rw [reached, List.takeWhile_cons_of_pos (by simp [hfails, hf])]
        exact congrArg (key :: ·) (reached_congr hsame).symm
      have hrest := ih _ ((h.removeTileEntry key).release tile.roomId) hnodup fun k hk => by
        obtain ⟨tile', htile', hdetail'⟩ := hkeys k (List.mem_cons_of_mem _ hk)
        refine ⟨tile', ?_, hdetail'⟩
        rw [hstop.tiles, if_neg (by simpa using hne k hk), htile']
      change s.Looped (key :: keys)
        (keys.foldlM stopTile ((s.removeTileEntry key).release tile.roomId))
      cases hfold : keys.foldlM stopTile ((s.removeTileEntry key).release tile.roomId) with
      | ok t =>
        rw [hfold] at hrest
        refine ⟨fun k hk => ?_, hreached ▸ hstop.cons hrest.2⟩
        rcases List.mem_cons.1 hk with rfl | hk
        · exact hfails.trans hf
        · exact (hsame k hk).symm.trans (hrest.1 k hk)
      | error t =>
        rw [hfold] at hrest
        obtain ⟨⟨k, hk, hbroken⟩, hwithout⟩ := hrest
        exact ⟨⟨k, List.mem_cons_of_mem _ hk, (hsame k hk).symm.trans hbroken⟩,
          hreached ▸ hstop.cons hwithout⟩

end Loop

/-! ### A hub update -/

section Sync

variable {room : RoomID} {k : TileKey}

/-- The departed tiles, in the order of the map. -/
def departedKeys (s : TileSessions) (hub : List HubRoom) : List TileKey := s.keysWhere (departed hub)

theorem mem_departedKeys : key ∈ s.departedKeys hub ↔
    ∃ tile, s.tiles.lookup key = some tile ∧ departed hub key tile = true := mem_keysWhere

theorem mem_departedKeys_iff (htile : s.tiles.lookup key = some tile) :
    key ∈ s.departedKeys hub ↔ departed hub key tile = true := by
  rw [mem_departedKeys, htile]
  constructor
  · rintro ⟨tile', htile', hgone⟩
    cases htile'
    exact hgone
  · exact fun hgone => ⟨tile, rfl, hgone⟩

theorem foldl_scheduleRoomEnd_eq (rooms : List RoomID) : ∀ s : TileSessions,
    (rooms.foldl scheduleRoomEnd s).tiles = s.tiles ∧
      ∀ room, (rooms.foldl scheduleRoomEnd s).roomEndScheduled room = true ↔
        s.roomEndScheduled room = true ∨ room ∈ rooms := by
  induction rooms with
  | nil => exact fun s => ⟨rfl, fun room => by simp⟩
  | cons x rooms ih =>
    intro s
    obtain ⟨htiles, hsched⟩ := ih (s.scheduleRoomEnd x)
    have hx : (s.scheduleRoomEnd x).tiles = s.tiles ∧
        ∀ room, (s.scheduleRoomEnd x).roomEndScheduled room = true ↔
          s.roomEndScheduled room = true ∨ room = x := by
      unfold scheduleRoomEnd
      split_ifs with hold
      · exact ⟨rfl, fun room => ⟨Or.inl, fun h => h.elim id fun he => he ▸ hold⟩⟩
      · refine ⟨rfl, fun room => ?_⟩
        dsimp only
        rw [Function.update_apply]
        split_ifs with he
        · exact ⟨fun _ => Or.inr he, fun _ => rfl⟩
        · exact ⟨Or.inl, fun h => h.resolve_right he⟩
    rw [List.foldl_cons]
    refine ⟨htiles.trans hx.1, fun room => ?_⟩
    rw [hsched, hx.2, List.mem_cons, or_assoc]

/-- What a hub update does to the tiles and to the scheduled ends. -/
theorem sync_spec (h : s.Made) (hub : List HubRoom) :
    (∀ k, (s.syncTilesWithHub hub).tiles.lookup k =
      if k ∈ s.reached (s.departedKeys hub) then none else s.tiles.lookup k) ∧
    ∀ room, (s.syncTilesWithHub hub).roomEndScheduled room = true ↔
      s.roomEndScheduled room = true ∨ (∀ k ∈ s.departedKeys hub, s.fails k = false) ∧
        ended hub room = true ∧ ∃ key tile, s.tiles.lookup key = some tile ∧ tile.roomId = room := by
  have hnodup : (s.departedKeys hub).Nodup :=
    (List.nodup_reverse.2 s.tiles.keys_nodup).filter _
  have hloop := looped_foldlM (s.departedKeys hub) s h hnodup fun k hk => by
    obtain ⟨tile, htile, hgone⟩ := mem_departedKeys.1 hk
    exact ⟨tile, htile, h.departed_detail htile hgone⟩
  have hrooms : ∀ room, room ∈ (s.keysWhere fun _ tile => ended hub tile.roomId).filterMap
      (fun key => (s.tiles.lookup key).map (·.roomId)) ↔
        ended hub room = true ∧ ∃ key tile, s.tiles.lookup key = some tile ∧ tile.roomId = room := by
    intro room
    rw [List.mem_filterMap]
    constructor
    · rintro ⟨key, hkey, hroom⟩
      obtain ⟨tile, htile, hended⟩ := mem_keysWhere.1 hkey
      rw [htile] at hroom
      cases hroom
      exact ⟨hended, key, tile, htile, rfl⟩
    · rintro ⟨hended, key, tile, htile, rfl⟩
      exact ⟨key, mem_keysWhere.2 ⟨tile, htile, hended⟩, by rw [htile]; rfl⟩
  unfold syncTilesWithHub stopTiles
  rw [← departedKeys]
  cases hfold : (s.departedKeys hub).foldlM stopTile s with
  | ok t =>
    rw [hfold] at hloop
    obtain ⟨hall, hwithout⟩ := hloop
    dsimp only
    have hends := foldl_scheduleRoomEnd_eq ((s.keysWhere fun _ tile => ended hub tile.roomId).filterMap
      fun key => (s.tiles.lookup key).map (·.roomId)) t
    refine ⟨fun k => by rw [hends.1, hwithout.tiles], fun room => ?_⟩
    rw [hends.2, hwithout.roomEndScheduled, hrooms]
    exact or_congr_right (and_iff_right hall).symm
  | error t =>
    rw [hfold] at hloop
    obtain ⟨⟨k, hk, hbroken⟩, hwithout⟩ := hloop
    refine ⟨hwithout.tiles, fun room => ?_⟩
    dsimp only
    rw [hwithout.roomEndScheduled]
    refine ⟨Or.inl, fun hor => hor.resolve_right fun hall => ?_⟩
    rw [hall.1 k hk] at hbroken
    cases hbroken

/-- After the update. -/
structure Retired (s : TileSessions) (hub : List HubRoom) : Prop where
  gone : ∀ key tile (u : Uuid) (kind : MemberKind),
    (s.syncTilesWithHub hub).tiles.lookup key = some tile →
    key = tileKeyMember tile.roomId u.text kind.text →
      u.text ∈ clientsIn hub tile.roomId ∨
        (s.syncTilesWithHub hub).roomEndScheduled tile.roomId = true
  kept : ∀ key tile (u : Uuid) (kind : MemberKind), s.tiles.lookup key = some tile →
    key = tileKeyMember tile.roomId u.text kind.text → ended hub tile.roomId = false →
    u.text ∈ clientsIn hub tile.roomId → (s.syncTilesWithHub hub).tiles.lookup key = some tile

/-- Before it: for every tile of a member that is not in its room, the end of which is not
scheduled. If the room has ended, every departed tile can be stopped. Otherwise the room id
does not make the tile one of a push, and no tile up to it in the order of the map is departed
and cannot be stopped. -/
def Retirable (s : TileSessions) (hub : List HubRoom) : Prop :=
  ∀ key tile (u : Uuid) (kind : MemberKind), s.tiles.lookup key = some tile →
    key = tileKeyMember tile.roomId u.text kind.text → u.text ∉ clientsIn hub tile.roomId →
    s.roomEndScheduled tile.roomId = false →
      if ended hub tile.roomId then ∀ k ∈ s.departedKeys hub, s.fails k = false
      else ¬":push:".toList <:+: (tile.roomId ++ ":").toList ∧
        ∀ k ∈ s.departedKeys hub, s.fails k = true →
          (s.departedKeys hub).idxOf key < (s.departedKeys hub).idxOf k

theorem Made.kept (h : s.Made) (u : Uuid) (kind : MemberKind) (htile : s.tiles.lookup key = some tile)
    (hkey : key = tileKeyMember tile.roomId u.text kind.text)
    (hin : u.text ∈ clientsIn hub tile.roomId) :
    (s.syncTilesWithHub hub).tiles.lookup key = some tile := by
  rw [(sync_spec h hub).1, if_neg, htile]
  intro hreached
  have hgone := (mem_departedKeys_iff htile).1 (mem_reached.1 hreached).1
  exact ((departed_member u kind hkey).1 hgone).2.2 hin

theorem Made.retired_iff (h : s.Made) (hub : List HubRoom) : s.Retired hub ↔ s.Retirable hub := by
  obtain ⟨htiles, hsched⟩ := sync_spec h hub
  constructor
  · intro hr key tile u kind htile hkey hout hunsched
    -- if the update leaves the tile, it has scheduled the end of the room
    have hleft : key ∉ s.reached (s.departedKeys hub) →
        (∀ k ∈ s.departedKeys hub, s.fails k = false) ∧ ended hub tile.roomId = true := by
      intro hkeep
      have hlookup : (s.syncTilesWithHub hub).tiles.lookup key = some tile := by
        rw [htiles, if_neg hkeep, htile]
      have hend := (hr.gone key tile u kind hlookup hkey).resolve_left hout
      rw [hsched, hunsched] at hend
      have hnew := hend.resolve_left Bool.false_ne_true
      exact ⟨hnew.1, hnew.2.1⟩
    split_ifs with hended
    · refine (hleft fun hreached => ?_).1
      have hgone := (mem_departedKeys_iff htile).1 (mem_reached.1 hreached).1
      rw [((departed_member u kind hkey).1 hgone).1] at hended
      cases hended
    · have hreached : key ∈ s.reached (s.departedKeys hub) :=
        not_not.1 fun hkeep => hended (hleft hkeep).2
      obtain ⟨hmem, hbefore⟩ := mem_reached.1 hreached
      have hgone := (mem_departedKeys_iff htile).1 hmem
      exact ⟨((departed_member u kind hkey).1 hgone).2.1, hbefore⟩
  · intro hr
    refine ⟨fun key tile u kind hleft hkey => ?_, fun key tile u kind htile hkey _ hin =>
      h.kept u kind htile hkey hin⟩
    by_cases hin : u.text ∈ clientsIn hub tile.roomId
    · exact Or.inl hin
    · right
      rw [htiles] at hleft
      split_ifs at hleft with hreached
      rw [hsched]
      cases hunsched : s.roomEndScheduled tile.roomId with
      | true => exact Or.inl rfl
      | false =>
        have hcond := hr key tile u kind hleft hkey hin hunsched
        split_ifs at hcond with hended
        · exact Or.inr ⟨hcond, hended, key, tile, hleft, rfl⟩
        · have hgone : departed hub key tile = true :=
            (departed_member u kind hkey).2 ⟨by simpa using hended, hcond.1, hin⟩
          exact absurd (mem_reached.2 ⟨(mem_departedKeys_iff hleft).2 hgone, hcond.2⟩) hreached

end Sync

end TileSessions

/-- Whatever has happened on the page, a hub update retires the tiles of departed members and
no others if and only if no stale tile is taken for one of a push and no stop before it, or
before the end of its room is scheduled, is cut off by a broken connection. -/
theorem tiles_retired_iff (ls : List TileLabel) (hub : List HubRoom) :
    (memberTiles.run ls).Retired hub ↔ (memberTiles.run ls).Retirable hub :=
  (TileSessions.made_run ls).retired_iff hub

def watchedUser : Uuid := ⟨"6f1c0b52-9d3e-4a77-8f20-5be1c4d09a3b", by decide⟩

/-- The camera of a member of the room `x:push` is on the wall. The member leaves, somebody
else stays. -/
theorem push_room_tile_stays :
    ¬(memberTiles.run [.startMemberTile "x:push" [(watchedUser.text, "u")] watchedUser .cam,
      .other (.connected 0), .other (.observeJoined 0), .other (.entered 0), .other (.played 0)]).Retired
      [{ id := "x:push", business := true, clients := ["a4d0e7c1-52b8-4e6f-9c13-70f2d86b1e95"] }] := by
  intro h
  have hleft := h.gone (tileKeyMember "x:push" watchedUser.text "cam")
    { roomId := "x:push", auditDetail := "u", pc := some 0 } watchedUser .cam (by rfl) rfl
  exact absurd hleft (by decide)

end Meetkit
