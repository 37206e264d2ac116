import Meetkit.Proofs.Handled
import Meetkit.Proofs.Observers

/-! The hub is well formed after every run: each operation is an allocation, a
handled message, a departure, or an observer's coming and going. -/

namespace Meetkit

open World

namespace World

variable {w : World} {c : UserID}

@[simp] theorem announceJoin_hub (w : World) (ord : MapOrder) (r : RoomRef) (c : UserID) :
    (w.announceJoin ord r c).hub = w.hub := by
  unfold announceJoin
  dsimp only
  split_ifs <;> simp

@[simp] theorem startStream_hub (w : World) (ord : MapOrder) (r : RoomRef) (c : UserID) (kind : Kind)
    (stream : StreamID) : (w.startStream ord r c kind stream).hub =
      w.hub.setClient c fun x => { x with streams := x.streams.insert kind stream } := rfl

@[simp] theorem stopStream_hub (w : World) (ord : MapOrder) (r : RoomRef) (c : UserID) (kind : Kind)
    (stream : StreamID) : (w.stopStream ord r c kind stream).hub = w.hub := rfl

@[simp] theorem recordControlled_hub (env : Env) (w : World) (r : RoomRef) (c : UserID)
    (reqID : String) (start : Bool) (kind : Kind) (stream : StreamID) :
    (recordControlled env w r c reqID start kind stream).hub =
      w.hub.setClient c fun x => { x with recordings := x.recordings.insert kind start } := by
  unfold recordControlled
  simp

theorem streamStops_hub (ord : MapOrder) (r : RoomRef) (c : UserID) :
    ∀ (entries : List (Kind × StreamID)) (w : World),
      (entries.foldl (fun w e => w.broadcastStreamStopped ord r c e.1 e.2) w).hub = w.hub := by
  intro entries
  induction entries with
  | nil => intro w; rfl
  | cons e entries ih => intro w; rw [List.foldl_cons, ih, broadcastStreamStopped_hub]

@[simp] theorem withdraw_hub (w : World) (ord : MapOrder) (r : RoomRef) (c : UserID) :
    (w.withdraw ord r c).hub =
      w.hub.setClient c fun x => { x with streams := ∅, recordings := ∅ } := by
  unfold withdraw
  dsimp only
  rw [emit_hub, spawn_hub]
  split_ifs
  · rw [broadcastExcept_hub, streamStops_hub]; rfl
  · rw [streamStops_hub]; rfl

end World

/-! ### A message -/

section Message

variable {env : Env} {w : World} {c : UserID} {reqID : String} {b : Body} {a : Act}

theorem World.getOrCreateRoom_hub {w v : World} {id : RoomID} {mode : RoomMode} {r : RoomRef}
    (hv : w.getOrCreateRoom id mode = (v, r)) :
    v = w.setHub (w.hub.getOrCreateRoom id mode).1 ∧ r = (w.hub.getOrCreateRoom id mode).2 := by
  simp only [World.getOrCreateRoom, Prod.mk.injEq] at hv
  exact ⟨hv.1.symm, hv.2.symm⟩

/-- The hub in which a join finds its room. -/
theorem joining_hub {f : Client → Client} {id : RoomID} {mode : RoomMode} {v : World} {r : RoomRef}
    (hw : w.hub.WellFormed) (hu : c ∈ w.hub.used) (hf : Mild f)
    (hroom : (w.hub.client c).room = none)
    (hv : (w.setClient c f).getOrCreateRoom id mode = (v, r)) :
    v.hub.WellFormed ∧ v.hub.used = w.hub.used ∧ (v.hub.client c).room = none ∧
      (v.hub.client c).closed = (w.hub.client c).closed ∧
      v.hub.rooms.lookup (v.hub.room r).id = some r ∧ (v.hub.room r).id = id := by
  obtain ⟨rfl, rfl⟩ := World.getOrCreateRoom_hub hv
  have hw' : (w.hub.setClient c f).WellFormed := hw.mild hu hf
  obtain ⟨hl, hid⟩ := hw'.getOrCreateRoom_listed id mode
  refine ⟨hw'.getOrCreateRoom id mode, ?_, ?_, ?_, ?_, hid⟩
  · simp
  · simpa [hf.room] using hroom
  · simp [hf.closed]
  · exact (congrArg (fun id => AList.lookup id _) hid).trans hl

theorem Handled.wellFormed {v : World × Option Err} (hw : w.hub.WellFormed)
    (hu : c ∈ w.hub.used) (hopen : (w.hub.client c).closed = false)
    (h : Handled env w c reqID b a v) : v.1.hub.WellFormed := by
  cases h with
  | refused e hb => exact hw
  | ignored hb => exact hw
  | misjoined e hf hroom => exact hw.mild hu hf
  | turnedAway e hf hroom hv hadm =>
    obtain ⟨hw', -, -, -, hl, -⟩ := joining_hub hw hu hf hroom hv
    exact hw'.removeRoomIfEmpty fun s hs => Option.some.inj (hs.symm.trans hl)
  | joined hf hroom hv hadm =>
    obtain ⟨hw', hu', hnone, hcl, hl, -⟩ := joining_hub hw hu hf hroom hv
    rw [setClient_hub, announceJoin_hub]
    exact hw'.enter (hu' ▸ hu) hnone (hcl.trans hopen) hl
  | chatted hroom => exact hw
  | mediaChanged hroom =>
    rw [broadcastMediaState_hub, setClient_hub]
    exact hw.mild hu (by constructor <;> intro x <;> rfl)
  | exchangeFailed e => exact hw
  | @published p r stream sdp hroom hbiz hs =>
    rw [send_hub, notifyStatsChanged_hub, startStream_hub]
    refine hw.rewrite hu rfl rfl rfl (Or.inl rfl)
      (Or.inr ⟨hbiz, ⟨_, hw.present c _ hroom hopen⟩, fun kind s hl => ?_⟩)
    rw [GoMap.lookup_insert_iff] at hl
    split_ifs at hl
    · rw [← Option.some.inj hl]; exact hs
    · exact hw.streamID c kind s hl
  | played m sdp es hroom hm hes =>
    rw [send_hub, emit_hub, setClient_hub]
    exact hw.mild hu (by constructor <;> intro x <;> rfl)
  | started hroom hbiz hs =>
    rw [startStream_hub]
    refine hw.rewrite hu rfl rfl rfl (Or.inl rfl)
      (Or.inr ⟨hbiz, ⟨_, hw.present c _ hroom hopen⟩, fun kind s hl => ?_⟩)
    rw [GoMap.lookup_insert_iff] at hl
    split_ifs at hl
    · rw [← Option.some.inj hl]; exact hs
    · exact hw.streamID c kind s hl
  | unstopped e hp => exact hw
  | stoppedNone hroom hbiz hk hs =>
    rw [setClient_hub]
    refine hw.rewrite hu rfl rfl rfl (Or.inl rfl)
      (Or.inr ⟨hbiz, ⟨_, hw.present c _ hroom hopen⟩, fun kind s hl => ?_⟩)
    exact hw.streamID c kind s (GoMap.lookup_erase_eq_some.1 hl).2
  | stopped hroom hbiz hk hs hne =>
    rw [stopStream_hub, setClient_hub]
    refine hw.rewrite hu rfl rfl rfl (Or.inl rfl)
      (Or.inr ⟨hbiz, ⟨_, hw.present c _ hroom hopen⟩, fun kind s hl => ?_⟩)
    exact hw.streamID c kind s (GoMap.lookup_erase_eq_some.1 hl).2
  | recordFailed e hroom hs => exact hw
  | recorded hroom hbiz hs =>
    rw [recordControlled_hub]
    exact hw.rewrite hu rfl rfl rfl (Or.inl rfl)
      (Or.inr ⟨hbiz, ⟨_, hw.present c _ hroom hopen⟩, fun kind s hl => hw.streamID c kind s hl⟩)

end Message

/-! ### A departure -/

section Departure

variable {w : World} {c : UserID} {r : RoomRef}

/-- The readLoop of a business client runs. -/
theorem serving_iff : w.serving c = true ↔
    (w.hub.client c).hasConn = true ∧ (w.hub.client c).closed = false := by
  simp [serving]

/-- The hub without a member that has closed its connection. -/
def Hub.withoutMember (h : Hub) (r : RoomRef) (c : UserID) : Hub :=
  (h.removeFrom r c).setClient c fun x =>
    { x with closed := true, streams := ∅, recordings := ∅ }

section WithoutMember

variable (h : Hub) (r s : RoomRef) (c d : UserID)

theorem Hub.withoutMember_client : (h.withoutMember r c).client d =
    if d = c then { h.client d with closed := true, streams := ∅, recordings := ∅ }
    else h.client d := by
  rw [Hub.withoutMember, Hub.setClient_client]
  split_ifs with hd
  · rw [hd]; rfl
  · rfl

theorem Hub.withoutMember_isObserver : (h.withoutMember r c).isObserver d = h.isObserver d := by
  rw [Hub.withoutMember, Hub.isObserver_setClient (by rfl)]
  rfl

theorem Hub.withoutMember_room : (h.withoutMember r c).room s =
    if s = r then (h.room r).remove c else h.room s := by
  rw [Hub.withoutMember, Hub.setClient_room, Hub.removeFrom, Hub.setRoom_room]

theorem Hub.withoutMember_id : ((h.withoutMember r c).room s).id = (h.room s).id := by
  rw [Hub.withoutMember, Hub.setClient_room, (h.removeFrom_kept r s c).1]

theorem Hub.withoutMember_mode : ((h.withoutMember r c).room s).mode = (h.room s).mode := by
  rw [Hub.withoutMember, Hub.setClient_room, (h.removeFrom_kept r s c).2]

variable {h r}

/-- A member is in no other room, so it is in none now. -/
theorem Hub.mem_withoutMember (hw : h.WellFormed) (hc : c ∈ (h.room r).clients) :
    d ∈ ((h.withoutMember r c).room s).clients ↔ d ≠ c ∧ d ∈ (h.room s).clients := by
  rw [Hub.withoutMember_room]
  split_ifs with hs
  · rw [hs, Room.mem_remove]
  · refine ⟨fun hd => ⟨?_, hd⟩, fun hd => hd.2⟩
    rintro rfl
    exact hs (hw.unique hd hc)

end WithoutMember

/-- A departure up to the point where the room's fate is decided. -/
def World.withdrawn (w : World) (ord : MapOrder) (r : RoomRef) (c : UserID) : World :=
  ((w.setClient c fun x => { x with closed := true }).removeFrom r c).withdraw ord r c

theorem withdrawn_hub (ord : MapOrder) : (w.withdrawn ord r c).hub = w.hub.withoutMember r c := by
  unfold withdrawn
  rw [withdraw_hub]
  change (((w.hub.setClient c _).removeFrom r c).setClient c _) = _
  have hcomm : (w.hub.setClient c fun x => { x with closed := true }).removeFrom r c =
      (w.hub.removeFrom r c).setClient c fun x => { x with closed := true } := rfl
  rw [hcomm, Hub.setClient_setClient]
  rfl

theorem Hub.WellFormed.withoutMember {h : Hub} (hw : h.WellFormed) (hbiz : h.isObserver c = false)
    (hr : (h.client c).room = some r) : (h.withoutMember r c).WellFormed :=
  hw.vacate (hw.used_of_room hr) hr rfl rfl (Or.inr ⟨rfl, hbiz⟩) ⟨rfl, rfl⟩

theorem cleanup_outside {ord : MapOrder} (hc : w.serving c = true)
    (hr : (w.hub.client c).room = none) :
    w.cleanup ord c = w.setClient c fun x => { x with closed := true } := by
  have hroom : ((w.setClient c fun x => { x with closed := true }).hub.client c).room = none := by
    rw [setClient_hub, Hub.setClient_same]; exact hr
  simp only [cleanup, (serving_iff.1 hc).2, Bool.false_eq_true, if_false, hroom]

/-- A member's departure: it withdraws, observers may be dismissed, the room may go. -/
theorem cleanup_member (ord : MapOrder) (hw : w.hub.WellFormed) (hc : w.serving c = true)
    (hr : (w.hub.client c).room = some r) :
    ∃ v, Aside (w.withdrawn ord r c) v ∧
      (v = if (w.withdrawn ord r c).hub.isBusinessActive r then w.withdrawn ord r c
        else (w.withdrawn ord r c).dismissObservers ord r "业务已结束") ∧
      w.cleanup ord c = (v.removeRoomIfEmpty r).notifyStatsChanged := by
  obtain ⟨hconn, hopen⟩ := serving_iff.1 hc
  have hbiz := hw.business hconn
  have hroom : ((w.setClient c fun x => { x with closed := true }).hub.client c).room = some r := by
    rw [setClient_hub, Hub.setClient_same]; exact hr
  have hobs : (w.setClient c fun x => { x with closed := true }).hub.isObserver c = false := by
    rw [Hub.isObserver, setClient_hub, Hub.setClient_same]; exact hbiz
  have hmem : c ∈ ((w.setClient c fun x => { x with closed := true }).hub.room r).clients :=
    hw.present c r hr hopen
  have hw' : (w.withdrawn ord r c).hub.WellFormed := by
    rw [withdrawn_hub]; exact hw.withoutMember hbiz hr
  refine ⟨_, ?_, rfl, ?_⟩
  · split_ifs
    · exact .refl hw'
    · exact .dismissObservers hw' ord r _
  · simp only [cleanup, hopen, Bool.false_eq_true, if_false, hroom, removeClient, hobs]
    rw [if_neg (not_not.2 hmem)]
    rfl

/-- The entry of the room a member left is its own, if it is still there. -/
theorem World.Aside.entry {ord : MapOrder} {v : World} (hw : w.hub.WellFormed)
    (hc : w.serving c = true) (hr : (w.hub.client c).room = some r)
    (ha : Aside (w.withdrawn ord r c) v) :
    ∀ s, v.hub.rooms.lookup (v.hub.room r).id = some s → s = r := by
  intro s hs
  have hl := hw.listed r (List.ne_nil_of_mem (hw.present c r hr (serving_iff.1 hc).2))
  have hid : (v.hub.room r).id = (w.hub.room r).id := by
    rw [ha.hub.id, withdrawn_hub, Hub.withoutMember_id]
  have hs' := ha.hub.rooms _ s hs
  rw [hid, withdrawn_hub] at hs'
  exact Option.some.inj (hs'.symm.trans hl)

theorem cleanup_wellFormed {ord : MapOrder} (hw : w.hub.WellFormed) (hc : w.serving c = true) :
    (w.cleanup ord c).hub.WellFormed := by
  obtain ⟨hconn, hopen⟩ := serving_iff.1 hc
  cases hr : (w.hub.client c).room with
  | none =>
    rw [cleanup_outside hc hr, setClient_hub]
    exact hw.rewrite (hw.used_of_hasConn hconn) rfl rfl rfl (Or.inr ⟨hr, hw.business hconn⟩)
      (Or.inl ⟨rfl, rfl⟩)
  | some r =>
    obtain ⟨v, ha, -, heq⟩ := cleanup_member ord hw hc hr
    rw [heq, notifyStatsChanged_hub]
    exact ha.wellFormed.removeRoomIfEmpty (ha.entry hw hc hr)

end Departure

/-! ### Kicks -/

section Kicks

variable {w : World}

/-- A member has a connection, so it is only told; it leaves when that closes. -/
theorem forceKick_member (ord : MapOrder) {c : UserID} {r : RoomRef} (hw : w.hub.WellFormed)
    (hc : c ∈ (w.hub.room r).clients) (hbiz : w.hub.isObserver c = false) (reason : String) :
    ∃ text, w.forceKick ord c reason = w.send c "" (.adminKicked text) := by
  have hborn := hw.born c (hw.used_of_room (hw.member r c hc).1)
  rw [hbiz] at hborn
  simp only [forceKick, hborn, Bool.not_false, if_true]
  exact ⟨_, rfl⟩

theorem kickMember_eq (ord : MapOrder) (roomID : RoomID) (userID : UserID) (reason : String)
    (hw : w.hub.WellFormed) : (w.kickMember ord roomID userID reason).1 = w ∨
      w.hub.isObserver userID = false ∧ ∃ text,
        (w.kickMember ord roomID userID reason).1 = w.send userID "" (.adminKicked text) := by
  unfold kickMember
  cases w.hub.getRoom roomID with
  | none => exact Or.inl rfl
  | some r =>
    dsimp only
    split_ifs with hmem hobs
    · exact Or.inl rfl
    · have hbiz : w.hub.isObserver userID = false := by simpa using hobs
      exact Or.inr ⟨hbiz, forceKick_member ord hw hmem hbiz reason⟩
    · exact Or.inl rfl

end Kicks

end Meetkit
