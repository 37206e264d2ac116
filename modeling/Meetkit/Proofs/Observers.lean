import Meetkit.Proofs.WellFormed

/-! Observers leave without a trace among the members: `Aside` says what an
observer's departure, and so a dismissal of all of a room's observers, may change. -/

namespace Meetkit

/-- The message says nothing about who is in a room or what they publish. -/
def ServerMsg.neutral : ServerMsg → Bool
  | .webrtcAnswer _ | .recordState _ | .observeEnded _ | .adminKicked _ | .chat _ | .error _ => true
  | _ => false

namespace Hub

/-- Nothing changes for the business clients. An observer may have left a room, and
entries of the table may have been deleted. -/
structure Aside (h h' : Hub) : Prop where
  token : h'.token = h.token
  nextRoom : h'.nextRoom = h.nextRoom
  used : h'.used = h.used
  client : ∀ c, h.isObserver c = false → h'.client c = h.client c
  isObserver : ∀ c, h'.isObserver c = h.isObserver c
  id : ∀ r, (h'.room r).id = (h.room r).id
  mode : ∀ r, (h'.room r).mode = (h.room r).mode
  members : ∀ r, h'.members r = h.members r
  was : ∀ r c, c ∈ (h'.room r).clients → c ∈ (h.room r).clients
  rooms : ∀ id r, h'.rooms.lookup id = some r → h.rooms.lookup id = some r

namespace Aside

theorem refl (h : Hub) : Aside h h :=
  ⟨rfl, rfl, rfl, fun _ _ => rfl, fun _ => rfl, fun _ => rfl, fun _ => rfl, fun _ => rfl,
    fun _ _ hc => hc, fun _ _ hr => hr⟩

theorem trans {h₁ h₂ h₃ : Hub} (h12 : Aside h₁ h₂) (h23 : Aside h₂ h₃) : Aside h₁ h₃ where
  token := h23.token.trans h12.token
  nextRoom := h23.nextRoom.trans h12.nextRoom
  used := h23.used.trans h12.used
  client c hc := (h23.client c ((h12.isObserver c).trans hc)).trans (h12.client c hc)
  isObserver c := (h23.isObserver c).trans (h12.isObserver c)
  id r := (h23.id r).trans (h12.id r)
  mode r := (h23.mode r).trans (h12.mode r)
  members r := (h23.members r).trans (h12.members r)
  was r c hc := h12.was r c (h23.was r c hc)
  rooms id r hr := h12.rooms id r (h23.rooms id r hr)

theorem mem {h h' : Hub} (ha : Aside h h') {r : RoomRef} {c : UserID}
    (hc : h.isObserver c = false) : c ∈ (h'.room r).clients ↔ c ∈ (h.room r).clients := by
  refine ⟨ha.was r c, fun hr => ?_⟩
  have hmem : c ∈ h'.members r := ha.members r ▸ mem_members.2 ⟨hr, hc⟩
  exact (mem_members.1 hmem).1

end Aside

/-- What the departure of an observer leaves of the hub. -/
def withoutObserver (h : Hub) (r : RoomRef) (c : UserID) : Hub :=
  (((h.removeFrom r c).setClient c fun x => { x with room := none })).removeRoomIfEmpty r

theorem withoutObserver_aside {h : Hub} {r : RoomRef} {c : UserID} (hc : h.isObserver c = true) :
    Aside h (h.withoutObserver r c) := by
  have hclient : (h.withoutObserver r c).client =
      ((h.removeFrom r c).setClient c fun x => { x with room := none }).client :=
    removeRoomIfEmpty_client _ r
  have hroom := removeRoomIfEmpty_room ((h.removeFrom r c).setClient c fun x => { x with room := none }) r
  have hrm : ∀ s, ((h.withoutObserver r c).room s) = if s = r then (h.room r).remove c else h.room s := by
    intro s
    rw [withoutObserver, hroom, setClient_room, removeFrom, setRoom_room]
  have hob : ∀ d, (h.withoutObserver r c).isObserver d = h.isObserver d := by
    intro d
    simp only [isObserver, hclient, setClient_client]
    split_ifs with hdc
    · subst hdc; rfl
    · rfl
  refine ⟨removeRoomIfEmpty_token _ r, removeRoomIfEmpty_nextRoom _ r, removeRoomIfEmpty_used _ r, ?_,
    hob, ?_, ?_, ?_, ?_, fun _ _ => lookup_of_removeRoomIfEmpty⟩
  · intro d hd
    have hdc : d ≠ c := by rintro rfl; rw [hc] at hd; cases hd
    rw [hclient, setClient_ne _ _ _ _ hdc]
    rfl
  · intro s
    rw [hrm]
    split_ifs with hs
    · subst hs; rfl
    · rfl
  · intro s
    rw [hrm]
    split_ifs with hs
    · subst hs; rfl
    · rfl
  · intro s
    simp only [Hub.members, hrm, hob]
    split_ifs with hs
    · subst hs
      simp only [Room.remove]
      rw [(h.room s).nodup.erase_eq_filter, List.filter_filter]
      refine List.filter_congr fun d _ => ?_
      by_cases hdc : d = c
      · subst hdc; simp [hc]
      · simp [hdc]
    · rfl
  · intro s d hds
    rw [hrm] at hds
    split_ifs at hds with hs
    · subst hs; exact (Room.mem_remove.1 hds).2
    · exact hds

theorem WellFormed.withoutObserver {h : Hub} (hw : h.WellFormed) {r : RoomRef} {c : UserID}
    (hc : h.isObserver c = true) (hr : (h.client c).room = some r) :
    (h.withoutObserver r c).WellFormed := by
  have hmem := hw.present c r hr (hw.watching c hc)
  refine (hw.vacate (hw.used_of_observer hc) hr rfl rfl (Or.inl ⟨rfl, rfl⟩)
    (hw.silent c hc)).removeRoomIfEmpty ?_
  intro s hs
  rw [setClient_room, removeFrom, setRoom_same, Room.remove_id] at hs
  have hl := hw.listed r (List.ne_nil_of_mem hmem)
  exact Option.some.inj (hs.symm.trans hl)

end Hub

namespace World

/-- An observer's departure, seen from the whole server: neutral messages go to
observers and no goroutine is started. -/
structure Aside (w w' : World) : Prop where
  hub : Hub.Aside w.hub w'.hub
  wellFormed : w'.hub.WellFormed
  goroutines : w'.goroutines = w.goroutines
  conn : w'.conn = w.conn
  log : ∃ es, w'.log = w.log ++ es ∧ ∀ e ∈ es, e = .statsChanged ∨
    ∃ o q m, e = .sent o q m ∧ w.hub.isObserver o = true ∧ m.neutral = true

namespace Aside

theorem refl {w : World} (hw : w.hub.WellFormed) : Aside w w :=
  ⟨.refl _, hw, rfl, rfl, [], (List.append_nil _).symm, by simp⟩

theorem trans {w₁ w₂ w₃ : World} (h12 : Aside w₁ w₂) (h23 : Aside w₂ w₃) : Aside w₁ w₃ := by
  obtain ⟨es, hes, hes'⟩ := h12.log
  obtain ⟨fs, hfs, hfs'⟩ := h23.log
  refine ⟨h12.hub.trans h23.hub, h23.wellFormed, h23.goroutines.trans h12.goroutines,
    h23.conn.trans h12.conn, es ++ fs, ?_, ?_⟩
  · rw [hfs, hes, List.append_assoc]
  · intro e he
    rcases List.mem_append.1 he with he | he
    · exact hes' e he
    · rcases hfs' e he with he | ⟨o, q, m, he, ho, hm⟩
      · exact Or.inl he
      · exact Or.inr ⟨o, q, m, he, (h12.hub.isObserver o).symm.trans ho, hm⟩

theorem send {w : World} (hw : w.hub.WellFormed) {c : UserID} (hc : w.hub.isObserver c = true)
    (reqID : String) {m : ServerMsg} (hm : m.neutral = true) : Aside w (w.send c reqID m) := by
  have hs := w.says_send c m reqID
  refine ⟨by rw [hs.hub]; exact .refl _, by rw [hs.hub]; exact hw, hs.goroutines, hs.conn, ?_⟩
  unfold World.send
  split_ifs
  · exact ⟨[], by simp, by simp⟩
  · exact ⟨[.sent c reqID m], rfl, fun e he =>
      Or.inr ⟨c, reqID, m, List.mem_singleton.1 he, hc, hm⟩⟩

/-- `LeaveRoom` of an observer in a room. -/
theorem observerLeaveRoom_eq {w : World} (hw : w.hub.WellFormed) {c : UserID} {r : RoomRef}
    (hc : w.hub.isObserver c = true) (hr : (w.hub.client c).room = some r) :
    w.observerLeaveRoom c = (w.setHub (w.hub.withoutObserver r c)).notifyStatsChanged := by
  have hmem := hw.present c r hr (hw.watching c hc)
  have hmem' : c ∈ ((w.setClient c fun x => { x with room := none }).hub.room r).clients := hmem
  simp only [observerLeaveRoom, hr, removeObserver]
  rw [if_neg (not_not.2 hmem')]
  rfl

theorem observerLeaveRoom {w : World} (hw : w.hub.WellFormed) {c : UserID}
    (hc : w.hub.isObserver c = true) : Aside w (w.observerLeaveRoom c) := by
  cases hr : (w.hub.client c).room with
  | none =>
    have : w.observerLeaveRoom c = w := by simp only [World.observerLeaveRoom, hr]
    rw [this]
    exact .refl hw
  | some r =>
    rw [observerLeaveRoom_eq hw hc hr]
    exact ⟨Hub.withoutObserver_aside hc, hw.withoutObserver hc hr, rfl, rfl, [.statsChanged], rfl,
      fun e he => Or.inl (List.mem_singleton.1 he)⟩

/-- Dismissing observers one after another. -/
theorem dismissAll (message : String) :
    ∀ (os : List UserID) {w : World}, w.hub.WellFormed → (∀ o ∈ os, w.hub.isObserver o = true) →
      Aside w (os.foldl
        (fun w c => (w.send c "" (.observeEnded message)).observerLeaveRoom c) w) := by
  intro os
  induction os with
  | nil => intro w hw _; exact .refl hw
  | cons o os ih =>
    intro w hw hos
    have ho := hos o (by simp)
    have h1 : Aside w (w.send o "" (.observeEnded message)) := .send hw ho _ rfl
    have h2 := h1.trans (.observerLeaveRoom h1.wellFormed ((h1.hub.isObserver o).trans ho))
    refine h2.trans (ih h2.wellFormed fun o' ho' => ?_)
    exact (h2.hub.isObserver o').trans (hos o' (by simp [ho']))

theorem dismissObservers {w : World} (hw : w.hub.WellFormed) (ord : MapOrder) (r : RoomRef)
    (message : String) : Aside w (w.dismissObservers ord r message) :=
  dismissAll message _ hw fun _ ho => (List.mem_filter.1 ho).2

end Aside

end World

end Meetkit
