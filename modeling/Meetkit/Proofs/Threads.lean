import Meetkit.Model.Threads
import Meetkit.Proofs.Turn

/-! What one step of the interleaved goroutines can do. A client is a member of the
room its readLoop has in hand or, while that waits, of the one it joined last, so the
fields that `handleJoin` writes are frozen while a client is in a room. -/

namespace Meetkit

/-! ### Clients and ids -/

/-- What holds of the clients in every interleaving. -/
structure Hub.Sane (h : Hub) : Prop where
  unborn : ∀ c, c ∉ h.used → h.client c = {}
  business : ∀ c, (h.client c).hasConn = true → h.isObserver c = false
  present : ∀ r c, c ∈ (h.room r).clients → c ∈ h.used

/-- A change of rooms, of clients that `who` holds of and of observers, all of which
exist and stay what they are. -/
structure Hub.Evolves (who : UserID → Prop) (h h' : Hub) : Prop where
  used : h'.used = h.used
  client : ∀ d, h'.client d = h.client d ∨ (who d ∨ h.isObserver d = true) ∧ d ∈ h.used ∧
    (h'.client d).hasConn = (h.client d).hasConn ∧ h'.isObserver d = h.isObserver d
  present : ∀ r d, d ∈ (h'.room r).clients → d ∈ (h.room r).clients ∨ d ∈ h.used

namespace Hub.Evolves

variable {who : UserID → Prop} {h h' : Hub} {c : UserID} {r : RoomRef}

theorem isObserver (he : Evolves who h h') (d : UserID) : h'.isObserver d = h.isObserver d := by
  rcases he.client d with hd | ⟨-, -, -, hd⟩
  · rw [Hub.isObserver, hd]; rfl
  · exact hd

/-- The other members stay as they are. -/
theorem other (he : Evolves who h h') {d : UserID} (hd : ¬who d) (hbiz : h.isObserver d = false) :
    h'.client d = h.client d := by
  refine (he.client d).resolve_right ?_
  rintro ⟨hwho | hob, -⟩
  · exact hd hwho
  · rw [hbiz] at hob
    cases hob

theorem sane (he : Evolves who h h') (hs : h.Sane) : h'.Sane where
  unborn d hd := by
    rw [he.used] at hd
    rcases he.client d with h1 | ⟨-, h1, -⟩
    · rw [h1]; exact hs.unborn d hd
    · exact absurd h1 hd
  business d hd := by
    rw [he.isObserver]
    refine hs.business d ?_
    rcases he.client d with h1 | ⟨-, -, h1, -⟩
    · rw [← h1]; exact hd
    · rw [← h1]; exact hd
  present r d hd := by
    rw [he.used]
    exact (he.present r d hd).elim (hs.present r d) id

theorem refl (h : Hub) : Evolves who h h := ⟨rfl, fun _ => Or.inl rfl, fun _ _ hd => Or.inl hd⟩

theorem setClient (hwho : who c ∨ h.isObserver c = true) (hc : c ∈ h.used) {f : Client → Client}
    (hconn : (f (h.client c)).hasConn = (h.client c).hasConn)
    (hob : (f (h.client c)).isObserver = (h.client c).isObserver) :
    Evolves who h (h.setClient c f) := by
  refine ⟨rfl, fun d => ?_, fun _ _ hd => Or.inl hd⟩
  by_cases hd : d = c
  · subst hd
    refine Or.inr ⟨hwho, hc, ?_, isObserver_setClient hob d⟩
    rw [setClient_same, hconn]
  · exact Or.inl (setClient_ne _ _ _ _ hd)

theorem addTo (hc : c ∈ h.used) (r : RoomRef) : Evolves who h (h.addTo r c) := by
  refine ⟨rfl, fun _ => Or.inl rfl, fun s d hd => ?_⟩
  rcases mem_addTo.1 hd with hd | ⟨-, rfl⟩
  · exact Or.inl hd
  · exact Or.inr hc

theorem removeFrom (h : Hub) (r : RoomRef) (c : UserID) : Evolves who h (h.removeFrom r c) := by
  exact ⟨rfl, fun _ => Or.inl rfl, fun _ _ hd => Or.inl (mem_removeFrom.1 hd).1⟩

theorem removeRoomIfEmpty (h : Hub) (r : RoomRef) : Evolves who h (h.removeRoomIfEmpty r) := by
  refine ⟨by simp, fun d => Or.inl (by simp), fun s d hd => Or.inl ?_⟩
  rwa [removeRoomIfEmpty_room] at hd

theorem getOrCreateRoom (h : Hub) (id : RoomID) (mode : RoomMode) :
    Evolves who h (h.getOrCreateRoom id mode).1 := by
  refine ⟨by simp, fun d => Or.inl (by simp), fun s d hd => Or.inl ?_⟩
  unfold Hub.getOrCreateRoom at hd
  split at hd
  · exact hd
  · simp only [Function.update_apply] at hd
    split_ifs at hd
    · exact absurd hd List.not_mem_nil
    · exact hd

end Hub.Evolves

theorem Hub.Sane.allocate {h : Hub} (hs : h.Sane) (c : UserID) {x : Client}
    (hx : x.hasConn = true → x.isObserver = false) : (h.allocate c x).Sane where
  unborn d hd := by
    simp only [Hub.allocate, List.mem_cons, not_or] at hd
    exact (Function.update_of_ne hd.1 _ _).trans (hs.unborn d hd.2)
  business d hd := by
    simp only [Hub.isObserver, Hub.allocate, Function.update_apply] at hd ⊢
    split_ifs at hd ⊢
    · exact hx hd
    · exact hs.business d hd
  present r d hd := List.mem_cons_of_mem _ (hs.present r d hd)

/-! ### What the checks of `addClient` found when they let `c` in -/

section Checks

variable {h : Hub} {r : RoomRef} {c d : UserID} {mode : RoomMode}

theorem admission_mode (ha : h.admission r c mode = none) : mode = (h.room r).mode := by
  unfold Hub.admission at ha
  split_ifs at ha with h1
  exact not_not.1 h1

theorem admission_capacity (ha : h.admission r c mode = none) (hr : (h.room r).mode = .call) :
    (h.members r).length < 2 := by
  unfold Hub.admission at ha
  split_ifs at ha with h1 h2
  simp only [Room.capacity, hr, if_true, Hub.realMemberCount] at h2
  omega

theorem admission_push (ha : h.admission r c mode = none) (hr : (h.room r).mode = .solo)
    (hc : (h.client c).soloRole = some .push) (hd : d ∈ h.members r) :
    (h.client d).soloRole ≠ some .push := by
  unfold Hub.admission at ha
  split_ifs at ha with h1 h2 h3
  intro hpush
  refine h3 ⟨hr, hc, List.any_eq_true.2 ⟨d, (Hub.mem_members.1 hd).1, ?_⟩⟩
  simp [(Hub.mem_members.1 hd).2, hpush]

theorem admission_nickname (ha : h.admission r c mode = none) (hd : d ∈ h.members r) :
    (h.client d).nickname ≠ (h.client c).nickname := by
  unfold Hub.admission at ha
  split_ifs at ha with h1 h2 h3 h4
  intro hname
  refine h4 (List.any_eq_true.2 ⟨d, (Hub.mem_members.1 hd).1, ?_⟩)
  simp [(Hub.mem_members.1 hd).2, hname]

end Checks

/-! ### Where a client is -/

/-- The room a readLoop has in hand. -/
def Loop.home (room : Option RoomRef) : Loop → Option RoomRef
  | .reading | .closing => room
  | .attach r | .delete r => some r
  | _ => none

def Loop.over : Loop → Bool
  | .closing | .gone => true
  | _ => false

/-- In `handleJoin`, with `c.room` not yet written. -/
def Loop.joining : Loop → Bool
  | .soloRole _ | .plannedStream _ | .nickname .. | .platform .. | .micOn .. | .camOn .. | .lookup ..
  | .insert .. | .attach _ => true
  | _ => false

/-- The readLoop has the room `r` in hand, or it is over without one: a join that panics
in its broadcast leaves a member behind. -/
def Loop.At (room : Option RoomRef) (r : RoomRef) (l : Loop) : Prop :=
  l.home room = some r ∨ l.home room = none ∧ l.over = true

theorem Loop.isReading_of_joining {l : Loop} (h : l.joining = true) : l.isReading = false := by
  cases l <;> first | rfl | cases h

def Sys.home (s : Sys) (c : UserID) : Option RoomRef := (s.loop c).home (s.hub.client c).room

def Sys.At (s : Sys) (c : UserID) (r : RoomRef) : Prop := (s.loop c).At (s.hub.client c).room r

/-- The step is about an observer. -/
def LeaveStep.Watches (h : Hub) : LeaveStep → Prop
  | .send o | .leave o | .delete _ o => o ∈ h.used ∧ h.isObserver o = true
  | .drop _ => True

/-- The steps a readLoop has taken on for the observers it dismisses. -/
def Loop.todo : Loop → List LeaveStep
  | .dismissing _ todo => todo
  | _ => []

structure Sys.Sane (s : Sys) : Prop where
  hub : s.hub.Sane
  busy : ∀ c, (s.loop c).isReading = false → c ∈ s.hub.used ∧ s.hub.isObserver c = false
  joining : ∀ c, (s.loop c).joining = true → (s.hub.client c).room = none
  dismissing : ∀ c, ∀ l ∈ (s.loop c).todo, l.Watches s.hub
  watching : ∀ u, s.watch u ≠ .away → u ∈ s.hub.used ∧ s.hub.isObserver u = true
  leaving : ∀ l ∈ s.leaves, l.Watches s.hub
  home : ∀ r, ∀ c ∈ s.hub.members r, s.At c r

/-- The room that a step calls `removeRoomIfEmpty` on. -/
def Sys.drops (s : Sys) : Label → Option RoomRef
  | .run c _ =>
    match s.loop c with
    | .rejected r | .drop r | .dismissing _ (.drop r :: _) => some r
    | _ => none
  | .leaving n =>
    match s.leaves[n]? with
    | some (.drop r) => some r
    | _ => none
  | _ => none

/-- Nobody enters a room and the table stays. The members that remain keep what
admission was decided on. -/
structure Sys.Calm (s s' : Sys) : Prop where
  rooms : s'.hub.rooms = s.hub.rooms
  nextRoom : s'.hub.nextRoom = s.hub.nextRoom
  id : ∀ r, (s'.hub.room r).id = (s.hub.room r).id
  mode : ∀ r, (s'.hub.room r).mode = (s.hub.room r).mode
  members : ∀ r, (s'.hub.members r).Sublist (s.hub.members r)
  frozen : ∀ r, ∀ c ∈ s'.hub.members r, (s'.hub.client c).nickname = (s.hub.client c).nickname ∧
    (s'.hub.client c).soloRole = (s.hub.client c).soloRole ∧ ∀ t, s.At c t → s'.At c t
  pending : ∀ c r mode, s'.loop c = .insert r mode → s.loop c = .insert r mode

inductive Sys.Move (s : Sys) (l : Label) : Sys → Prop
  | calm {s' : Sys} (h : s.Calm s') : Move s l s'
  | found {c : UserID} {id : RoomID} {mode : RoomMode} (hl : s.loop c = .lookup id mode) :
      Move s l ({ s with hub := (s.hub.getOrCreateRoom id mode).1 }.setLoop c
        (.insert (s.hub.getOrCreateRoom id mode).2 mode))
  | entered {c : UserID} {r : RoomRef} {mode : RoomMode} (hl : s.loop c = .insert r mode)
      (hadm : s.hub.admission r c mode = none) :
      Move s l ({ s with hub := s.hub.addTo r c }.setLoop c (.attach r))
  | dropped {r : RoomRef} {s' : Sys} (hl : s.drops l = some r)
      (hhub : s'.hub = s.hub.removeRoomIfEmpty r)
      (hhome : ∀ r, ∀ c ∈ s.hub.members r, s.At c r → s'.At c r)
      (hpending : ∀ c r mode, s'.loop c = .insert r mode → s.loop c = .insert r mode) : Move s l s'

namespace Sys

variable {s s' : Sys} {c : UserID} {l : Label}

@[simp] theorem setLoop_hub (s : Sys) (c : UserID) (l : Loop) : (s.setLoop c l).hub = s.hub := rfl

theorem setLoop_loop (s : Sys) (c d : UserID) (l : Loop) :
    (s.setLoop c l).loop d = if d = c then l else s.loop d := Function.update_apply _ _ _ _

@[simp] theorem setLoop_same (s : Sys) (c : UserID) (l : Loop) : (s.setLoop c l).loop c = l := by
  rw [setLoop_loop, if_pos rfl]

theorem listening_iff {s : Sys} {c : UserID} : s.listening c = true ↔
    s.loop c = .reading ∧ (s.hub.client c).hasConn = true ∧ (s.hub.client c).closed = false := by
  cases hl : s.loop c <;> simp [listening, Loop.isReading, hl]

theorem setLoop_ne (s : Sys) {c d : UserID} (l : Loop) (hd : d ≠ c) :
    (s.setLoop c l).loop d = s.loop d := by
  rw [setLoop_loop, if_neg hd]

theorem At.congr {r : RoomRef} (hat : s.At c r) (hloop : s'.loop c = s.loop c)
    (hclient : s'.hub.client c = s.hub.client c) : s'.At c r := by
  rw [At, hloop, hclient]
  exact hat

/-- A step of `c` in which at most `c` and observers change. -/
theorem Calm.of (hrooms : s'.hub.rooms = s.hub.rooms) (hnext : s'.hub.nextRoom = s.hub.nextRoom)
    (hid : ∀ r, (s'.hub.room r).id = (s.hub.room r).id)
    (hmode : ∀ r, (s'.hub.room r).mode = (s.hub.room r).mode)
    (hmembers : ∀ r, (s'.hub.members r).Sublist (s.hub.members r))
    (hloop : ∀ d, d ≠ c → s'.loop d = s.loop d)
    (hclient : ∀ d, d ≠ c → s.hub.isObserver d = false → s'.hub.client d = s.hub.client d)
    (hc : (∀ r, c ∉ s'.hub.members r) ∨ (s'.hub.client c).nickname = (s.hub.client c).nickname ∧
      (s'.hub.client c).soloRole = (s.hub.client c).soloRole ∧ ∀ t, s.At c t → s'.At c t)
    (hpending : ∀ r mode, s'.loop c = .insert r mode → s.loop c = .insert r mode) : Calm s s' := by
  refine ⟨hrooms, hnext, hid, hmode, hmembers, fun r d hd => ?_, fun d r mode hd => ?_⟩
  · by_cases hdc : d = c
    · subst hdc
      rcases hc with hout | hc
      · exact absurd hd (hout r)
      · exact hc
    · have hbiz := (Hub.mem_members.1 ((hmembers r).subset hd)).2
      have hsame := hclient d hdc hbiz
      exact ⟨by rw [hsame], by rw [hsame], fun t hat => hat.congr (hloop d hdc) hsame⟩
  · by_cases hdc : d = c
    · subst hdc; exact hpending r mode hd
    · rwa [hloop d hdc] at hd

/-- A step of `c` that leaves the hub alone. -/
theorem Calm.setLoop {next : Loop}
    (hc : (∀ r, c ∉ s.hub.members r) ∨ ∀ t, s.At c t → next.At (s.hub.client c).room t)
    (hpending : ∀ r mode, next = .insert r mode → s.loop c = .insert r mode) :
    Calm s (s.setLoop c next) := by
  refine .of (c := c) rfl rfl (fun _ => rfl) (fun _ => rfl) (fun _ => List.Sublist.refl _)
    (fun d hd => setLoop_ne s next hd) (fun _ _ _ => rfl) ?_ fun r mode h => hpending r mode ?_
  · refine hc.imp (fun h => h) fun h => ⟨rfl, rfl, fun t hat => ?_⟩
    rw [At, setLoop_same]
    exact h t hat
  · rwa [setLoop_same] at h

/-- A step of `c` that writes a field of `c`. -/
theorem Calm.setClient {f : Client → Client} {next : Loop}
    (hob : (f (s.hub.client c)).isObserver = (s.hub.client c).isObserver)
    (hc : (∀ r, c ∉ s.hub.members r) ∨ (f (s.hub.client c)).nickname = (s.hub.client c).nickname ∧
      (f (s.hub.client c)).soloRole = (s.hub.client c).soloRole ∧
        ∀ t, s.At c t → next.At (f (s.hub.client c)).room t)
    (hpending : ∀ r mode, next ≠ .insert r mode) :
    Calm s ({ s with hub := s.hub.setClient c f }.setLoop c next) := by
  have hmembers : ∀ r, (s.hub.setClient c f).members r = s.hub.members r := by
    intro r
    simp only [Hub.members, Hub.isObserver_setClient hob]
    rfl
  refine .of (c := c) rfl rfl (fun _ => rfl) (fun _ => rfl) (fun r => ?_)
    (fun d hd => setLoop_ne _ next hd) (fun d hd _ => Hub.setClient_ne _ _ _ _ hd) ?_
    fun r mode h => absurd ?_ (hpending r mode)
  · rw [setLoop_hub, hmembers]
  · refine hc.imp (fun h t => ?_) fun h => ?_
    · rw [setLoop_hub, hmembers]
      exact h t
    · obtain ⟨hname, hrole, hat⟩ := h
      rw [setLoop_hub, Hub.setClient_same]
      refine ⟨hname, hrole, fun t h => ?_⟩
      rw [At, setLoop_same, setLoop_hub, Hub.setClient_same]
      exact hat t h
  · rwa [setLoop_same] at h

theorem members_removeFrom (h : Hub) (r : RoomRef) (c : UserID) (s : RoomRef) :
    (h.removeFrom r c).members s = if s = r then (h.members r).erase c else h.members s := by
  have hfilter : (h.removeFrom r c).members s =
      ((h.removeFrom r c).room s).clients.filter fun d => !h.isObserver d := rfl
  rw [hfilter, Hub.removeFrom, Hub.setRoom_room]
  split_ifs with hs
  · simp only [Room.remove]
    rw [(Hub.members_nodup h r).erase_eq_filter, (h.room r).nodup.erase_eq_filter, Hub.members,
      List.filter_filter, List.filter_filter]
    exact List.filter_congr fun d _ => Bool.and_comm _ _
  · rfl

theorem members_addTo {h : Hub} {c : UserID} (r s : RoomRef) (hc : c ∉ (h.room r).clients) :
    (h.addTo r c).members s =
      if s = r ∧ h.isObserver c = false then c :: h.members r else h.members s := by
  have hfilter : (h.addTo r c).members s =
      ((h.addTo r c).room s).clients.filter fun d => !h.isObserver d := rfl
  have hadd : ((h.room r).add c).clients = c :: (h.room r).clients := List.insert_of_not_mem hc
  rw [hfilter, Hub.addTo, Hub.setRoom_room]
  by_cases hs : s = r
  · subst hs
    rw [if_pos rfl, hadd, List.filter_cons]
    cases h.isObserver c <;> simp [Hub.members]
  · rw [if_neg hs, if_neg fun h => hs h.1]
    rfl

theorem addTo_of_mem {h : Hub} {c : UserID} {r : RoomRef} (hc : c ∈ (h.room r).clients) :
    h.addTo r c = h := by
  have hroom : (h.room r).add c = h.room r := by
    simp only [Room.add, List.insert_of_mem hc]
  rw [Hub.addTo, Hub.setRoom, hroom, Function.update_eq_self]

theorem members_addTo_observer {h : Hub} {u : UserID} (hu : h.isObserver u = true) (r s : RoomRef) :
    (h.addTo r u).members s = h.members s := by
  by_cases hin : u ∈ (h.room r).clients
  · rw [addTo_of_mem hin]
  · rw [members_addTo r s hin, if_neg fun h => by rw [hu] at h; cases h.2]

/-- `c` leaves the map of the room it has in hand. -/
theorem Calm.removeFrom {r : RoomRef} {next : Loop} (hc : ∀ t, c ∈ s.hub.members t → t = r)
    (hpending : ∀ r mode, next ≠ .insert r mode) :
    Calm s ({ s with hub := s.hub.removeFrom r c }.setLoop c next) := by
  have hkept : ∀ t, (((s.hub.removeFrom r c).room t).id = (s.hub.room t).id) ∧
      ((s.hub.removeFrom r c).room t).mode = (s.hub.room t).mode :=
    fun t => s.hub.removeFrom_kept r t c
  refine .of (c := c) rfl rfl (fun t => (hkept t).1) (fun t => (hkept t).2) (fun t => ?_)
    (fun d hd => setLoop_ne _ next hd) (fun _ _ _ => rfl) (Or.inl fun t hmem => ?_)
    fun t mode h => absurd ?_ (hpending t mode)
  · rw [setLoop_hub, members_removeFrom]
    split_ifs with ht
    · subst ht; exact List.erase_sublist
    · exact List.Sublist.refl _
  · rw [setLoop_hub, members_removeFrom] at hmem
    split_ifs at hmem with ht
    · exact (Hub.members_nodup _ _).not_mem_erase hmem
    · exact ht (hc t hmem)
  · rwa [setLoop_same] at h

end Sys

/-! ### Observers leave -/

namespace LeaveStep

variable {who : UserID → Prop} {h h' : Hub} {l : LeaveStep}

theorem exec_delete (h : Hub) (r : RoomRef) (o : UserID) : exec h (.delete r o) = (h, []) ∨
    exec h (.delete r o) = (h.removeFrom r o, [.drop r]) := by
  simp only [exec]
  split_ifs
  · exact Or.inr rfl
  · exact Or.inl rfl

theorem exec_leave (h : Hub) (o : UserID) : exec h (.leave o) = (h, []) ∨
    ∃ r, exec h (.leave o) = (h.setClient o fun x => { x with room := none }, [.delete r o]) := by
  simp only [exec]
  split
  · exact Or.inl rfl
  · exact Or.inr ⟨_, rfl⟩

theorem Watches.evolves (he : h.Evolves who h') (hl : l.Watches h) : l.Watches h' := by
  cases l with
  | send o => exact ⟨he.used ▸ hl.1, (he.isObserver o).trans hl.2⟩
  | leave o => exact ⟨he.used ▸ hl.1, (he.isObserver o).trans hl.2⟩
  | delete r o => exact ⟨he.used ▸ hl.1, (he.isObserver o).trans hl.2⟩
  | drop r => trivial

theorem exec_evolves (hl : l.Watches h) : h.Evolves who (l.exec h).1 := by
  cases l with
  | send o => exact .refl h
  | leave o =>
    rcases exec_leave h o with he | ⟨r, he⟩
    · rw [he]; exact .refl h
    · rw [he]
      dsimp only
      exact .setClient (Or.inr hl.2) hl.1 (by rfl) (by rfl)
  | delete r o =>
    rcases exec_delete h r o with he | he
    · rw [he]; exact .refl h
    · rw [he]; exact .removeFrom h r o
  | drop r => exact .removeRoomIfEmpty h r

theorem exec_isObserver (hl : l.Watches h) (u : UserID) :
    (l.exec h).1.isObserver u = h.isObserver u :=
  have he : h.Evolves (fun _ => False) (l.exec h).1 := exec_evolves hl
  he.isObserver u

theorem exec_watches (hl : l.Watches h) : ∀ l' ∈ (l.exec h).2, l'.Watches (l.exec h).1 := by
  have he : h.Evolves (fun _ => False) (l.exec h).1 := exec_evolves hl
  intro l' hl'
  refine Watches.evolves he ?_
  cases l with
  | send o => cases hl'
  | leave o =>
    rcases exec_leave h o with heq | ⟨r, heq⟩
    · rw [heq] at hl'; cases hl'
    · rw [heq] at hl'; rw [List.mem_singleton.1 hl']; exact hl
  | delete r o =>
    rcases exec_delete h r o with heq | heq
    · rw [heq] at hl'; cases hl'
    · rw [heq] at hl'; rw [List.mem_singleton.1 hl']; trivial
  | drop r => cases hl'

/-- What the departure of an observer leaves alone, `removeRoomIfEmpty` apart. -/
theorem exec_frame (hl : l.Watches h) (hdrop : ∀ r, l ≠ .drop r) :
    (l.exec h).1.rooms = h.rooms ∧ (l.exec h).1.nextRoom = h.nextRoom ∧
      (∀ r, ((l.exec h).1.room r).id = (h.room r).id ∧ ((l.exec h).1.room r).mode = (h.room r).mode) ∧
      (∀ r, (l.exec h).1.members r = h.members r) ∧
      ∀ d, h.isObserver d = false → (l.exec h).1.client d = h.client d := by
  cases l with
  | send o => exact ⟨rfl, rfl, fun _ => ⟨rfl, rfl⟩, fun _ => rfl, fun _ _ => rfl⟩
  | leave o =>
    rcases exec_leave h o with he | ⟨r, he⟩
    · rw [he]; exact ⟨rfl, rfl, fun _ => ⟨rfl, rfl⟩, fun _ => rfl, fun _ _ => rfl⟩
    · rw [he]
      refine ⟨rfl, rfl, fun _ => ⟨rfl, rfl⟩, fun s => ?_, fun d hd => ?_⟩
      · simp only [Hub.members, Hub.isObserver_setClient (h := h) (c := o)
          (f := fun x => { x with room := none }) rfl]
        rfl
      · have hne : d ≠ o := by rintro rfl; rw [hl.2] at hd; cases hd
        dsimp only
        exact Hub.setClient_ne h o d _ hne
  | delete r o =>
    rcases exec_delete h r o with he | he
    · rw [he]; exact ⟨rfl, rfl, fun _ => ⟨rfl, rfl⟩, fun _ => rfl, fun _ _ => rfl⟩
    · rw [he]
      refine ⟨rfl, rfl, fun s => ?_, fun s => ?_, fun _ _ => rfl⟩
      · exact Hub.removeFrom_kept _ _ _ _
      · rw [Sys.members_removeFrom]
        split_ifs with hs
        · subst hs
          refine List.erase_of_not_mem fun hmem => ?_
          have hbiz := (Hub.mem_members.1 hmem).2
          rw [hl.2] at hbiz
          cases hbiz
        · rfl
  | drop r => exact absurd rfl (hdrop r)

end LeaveStep

namespace Sys

variable {s s' : Sys} {c : UserID} {l : Label}

/-- A step of an observer's departure, taken by `c` or by nobody. -/
theorem leaveStep_move {x : LeaveStep} (hx : x.Watches s.hub) (hhub : s'.hub = (x.exec s.hub).1)
    (hdrop : ∀ r, x = .drop r → s.drops l = some r)
    (hloop : ∀ d, d ≠ c → s'.loop d = s.loop d)
    (hc : (∀ r, c ∉ s.hub.members r) ∨ s'.loop c = s.loop c)
    (hpending : ∀ r mode, s'.loop c = .insert r mode → s.loop c = .insert r mode) : Move s l s' := by
  have hkept : ∀ t, ∀ d ∈ s.hub.members t, s'.loop d = s.loop d := by
    intro t d hd
    by_cases hdc : d = c
    · subst hdc
      exact hc.resolve_left fun hout => hout t hd
    · exact hloop d hdc
  have hpend : ∀ d r mode, s'.loop d = .insert r mode → s.loop d = .insert r mode := by
    intro d r mode hd
    by_cases hdc : d = c
    · subst hdc; exact hpending r mode hd
    · rwa [hloop d hdc] at hd
  by_cases hx' : ∃ r, x = .drop r
  · obtain ⟨r, rfl⟩ := hx'
    have hhub' : s'.hub = s.hub.removeRoomIfEmpty r := hhub
    refine .dropped (hdrop r rfl) hhub' (fun t d hd hat => hat.congr (hkept t d hd) ?_) hpend
    rw [hhub', Hub.removeRoomIfEmpty_client]
  · obtain ⟨hrooms, hnext, hroom, hmembers, hclient⟩ :=
      LeaveStep.exec_frame hx fun r hr => hx' ⟨r, hr⟩
    rw [← hhub] at hrooms hnext hroom hmembers hclient
    refine .calm ⟨hrooms, hnext, fun r => (hroom r).1, fun r => (hroom r).2, fun r => ?_,
      fun r d hd => ?_, hpend⟩
    · rw [hmembers]
    · rw [hmembers] at hd
      have hsame := hclient d (Hub.mem_members.1 hd).2
      exact ⟨by rw [hsame], by rw [hsame], fun t hat => hat.congr (hkept r d hd) hsame⟩

/-! ### One step -/

theorem home_eq {next : Loop} (hl : s.loop c = next) :
    s.home c = next.home (s.hub.client c).room := by
  rw [home, hl]

/-- A client whose readLoop goes on and has no room in hand is a member of none. -/
theorem Sane.outside (hs : s.Sane) (hc : s.home c = none) (hover : (s.loop c).over = false)
    (r : RoomRef) : c ∉ s.hub.members r := by
  intro hmem
  rcases hs.home r c hmem with h | ⟨-, h⟩
  · rw [Sys.home, h] at hc
    cases hc
  · rw [hover] at h
    cases h

theorem Sane.inside (hs : s.Sane) {r t : RoomRef} (hc : s.home c = some r)
    (hmem : c ∈ s.hub.members t) : t = r := by
  rcases hs.home t c hmem with h | ⟨h, -⟩
  · exact Option.some.inj (h.symm.trans hc)
  · rw [Sys.home, h] at hc
    cases hc

section ReadLoop

variable {ord : MapOrder} {l : Loop}

theorem run_eq {h : Hub} {next : Loop} (hl : s.loop c = l)
    (he : l.exec s.shut s.hub c ord = (h, next)) :
    s.step (.run c ord) = { s with hub := h }.setLoop c next := by
  simp only [step, hl, he]

/-- Nothing but the place of `c` changes. -/
theorem Sane.quiet_move (hs : s.Sane) (next : Loop) (hl : s.loop c = l)
    (he : l.exec s.shut s.hub c ord = (s.hub, next))
    (hc : s.home c = none ∧ l.over = false ∨ next = l)
    (hpending : ∀ r mode, next ≠ .insert r mode) : Move s (.run c ord) (s.step (.run c ord)) := by
  rw [run_eq hl he]
  refine .calm (.setLoop ?_ fun r mode h => absurd h (hpending r mode))
  refine hc.imp (fun ⟨hhome, hover⟩ => hs.outside hhome (hl ▸ hover)) fun hsame t hat => ?_
  rw [At, hl, ← hsame] at hat
  exact hat

/-- A field is written while `c` is in no room. -/
theorem Sane.write_move (hs : s.Sane) {f : Client → Client} {next : Loop} (hl : s.loop c = l)
    (he : l.exec s.shut s.hub c ord = (s.hub.setClient c f, next)) (hc : s.home c = none)
    (hover : l.over = false)
    (hob : (f (s.hub.client c)).isObserver = (s.hub.client c).isObserver)
    (hpending : ∀ r mode, next ≠ .insert r mode) : Move s (.run c ord) (s.step (.run c ord)) := by
  rw [run_eq hl he]
  exact .calm (.setClient hob (Or.inl (hs.outside hc (hl ▸ hover))) hpending)

/-- The room is dropped from the table if it is empty. -/
theorem Sane.drop_move (hs : s.Sane) {r : RoomRef} {next : Loop} (hl : s.loop c = l)
    (he : l.exec s.shut s.hub c ord = (s.hub.removeRoomIfEmpty r, next)) (hc : s.home c = none)
    (hover : l.over = false) (hdrops : s.drops (.run c ord) = some r)
    (hpending : ∀ r mode, next ≠ .insert r mode) : Move s (.run c ord) (s.step (.run c ord)) := by
  rw [run_eq hl he]
  refine .dropped hdrops rfl (fun t d hd hat => ?_) fun d t mode hd => ?_
  · have hdc : d ≠ c := by rintro rfl; exact hs.outside hc (hl ▸ hover) t hd
    exact hat.congr (setLoop_ne _ _ hdc) (by rw [setLoop_hub, Hub.removeRoomIfEmpty_client])
  · by_cases hdc : d = c
    · subst hdc
      rw [setLoop_same] at hd
      exact absurd hd (hpending t mode)
    · rwa [setLoop_ne _ _ hdc] at hd

end ReadLoop

/-- A step of `c`'s readLoop. -/
theorem Sane.run_move (hs : s.Sane) (c : UserID) (ord : MapOrder) :
    Move s (.run c ord) (s.step (.run c ord)) := by
  cases hl : s.loop c with
  | reading =>
    exact hs.quiet_move .reading hl rfl (Or.inr rfl) (by simp)
  | soloRole p =>
    have hhome : s.home c = none := home_eq hl
    cases hrole : Hub.soloRoleOf? p.soloRole with
    | none =>
      exact hs.quiet_move .reading hl (by simp only [Loop.exec, hrole]) (Or.inl ⟨hhome, rfl⟩)
        (by simp)
    | some role =>
      cases role with
      | play => exact hs.write_move hl (by simp only [Loop.exec, hrole]; rfl) hhome rfl rfl (by simp)
      | push => exact hs.write_move hl (by simp only [Loop.exec, hrole]; rfl) hhome rfl rfl (by simp)
  | plannedStream p =>
    have hhome : s.home c = none := home_eq hl
    cases hcheck : Hub.checkPlannedStream p with
    | error e =>
      exact hs.quiet_move .reading hl (by simp only [Loop.exec, hcheck]) (Or.inl ⟨hhome, rfl⟩)
        (by simp)
    | ok streamID => exact hs.write_move hl (by simp only [Loop.exec, hcheck]; rfl) hhome rfl rfl (by simp)
  | nickname p mode =>
    have hhome : s.home c = none := home_eq hl
    exact hs.write_move hl rfl hhome rfl rfl (by simp)
  | platform p mode =>
    have hhome : s.home c = none := home_eq hl
    exact hs.write_move hl rfl hhome rfl rfl (by simp)
  | micOn p mode =>
    have hhome : s.home c = none := home_eq hl
    cases hp : p.micOn with
    | none =>
      exact hs.quiet_move _ hl (by simp only [Loop.exec, hp]; rfl) (Or.inl ⟨hhome, rfl⟩) (by simp)
    | some b =>
      exact hs.write_move hl (by simp only [Loop.exec, hp, Hub.writeMicOn]; rfl) hhome rfl rfl (by simp)
  | camOn p mode =>
    have hhome : s.home c = none := home_eq hl
    cases hp : p.camOn with
    | none =>
      exact hs.quiet_move _ hl (by simp only [Loop.exec, hp]; rfl) (Or.inl ⟨hhome, rfl⟩) (by simp)
    | some b =>
      exact hs.write_move hl (by simp only [Loop.exec, hp, Hub.writeCamOn]; rfl) hhome rfl rfl (by simp)
  | lookup id mode =>
    have he : (Loop.lookup id mode).exec s.shut s.hub c ord = ((s.hub.getOrCreateRoom id mode).1,
        .insert (s.hub.getOrCreateRoom id mode).2 mode) := rfl
    rw [run_eq hl he]
    exact .found hl
  | insert r mode =>
    have hhome : s.home c = none := home_eq hl
    cases hadm : s.hub.admission r c mode with
    | some e =>
      exact hs.quiet_move (.rejected r) hl (by simp only [Loop.exec, hadm]) (Or.inl ⟨hhome, rfl⟩)
        (by simp)
    | none =>
      have he : (Loop.insert r mode).exec s.shut s.hub c ord = (s.hub.addTo r c, .attach r) := by
        simp only [Loop.exec, hadm]
      rw [run_eq hl he]
      exact .entered hl hadm
  | attach r =>
    have he : (Loop.attach r).exec s.shut s.hub c ord =
        (s.hub.setClient c fun x => { x with room := some r }, .reading) := rfl
    rw [run_eq hl he]
    refine .calm (.setClient rfl (Or.inr ⟨rfl, rfl, fun t hat => ?_⟩) (by simp))
    rw [At, hl] at hat
    exact hat
  | rejected r =>
    have hhome : s.home c = none := home_eq hl
    exact hs.drop_move hl rfl hhome rfl (by simp only [drops, hl]) (by simp)
  | closing =>
    cases hr : (s.hub.client c).room with
    | none =>
      have he : Loop.closing.exec s.shut s.hub c ord =
          (s.hub.setClient c fun x => { x with closed := true }, .gone) := by
        simp only [Loop.exec, hr]
      rw [run_eq hl he]
      refine .calm (.setClient rfl (Or.inr ⟨rfl, rfl, fun t hat => ?_⟩) (by simp))
      rw [At, hl, hr] at hat
      exact hat
    | some r =>
      have he : Loop.closing.exec s.shut s.hub c ord =
          (s.hub.setClient c fun x => { x with closed := true }, .delete r) := by
        simp only [Loop.exec, hr]
      rw [run_eq hl he]
      refine .calm (.setClient rfl (Or.inr ⟨rfl, rfl, fun t hat => ?_⟩) (by simp))
      rw [At, hl, hr] at hat
      exact hat.imp id fun h => by cases h.1
  | delete r =>
    have hhome : s.home c = some r := home_eq hl
    by_cases hin : c ∈ (s.hub.room r).clients
    · have he : (Loop.delete r).exec s.shut s.hub c ord =
          (s.hub.removeFrom r c, if s.hub.isObserver c then .drop r else .clear r) := by
        simp only [Loop.exec, if_neg (not_not.2 hin)]
      rw [run_eq hl he]
      exact .calm (.removeFrom (fun t => hs.inside hhome) fun t mode => by split_ifs <;> simp)
    · have he : (Loop.delete r).exec s.shut s.hub c ord = (s.hub, .gone) := by
        simp only [Loop.exec, if_pos hin]
      rw [run_eq hl he]
      refine .calm (.setLoop (Or.inl fun t hmem => ?_) (by simp))
      have ht := hs.inside hhome hmem
      subst ht
      exact hin (Hub.mem_members.1 hmem).1
  | clear r =>
    have hhome : s.home c = none := home_eq hl
    exact hs.write_move hl rfl hhome rfl rfl (by simp)
  | activity r =>
    have hhome : s.home c = none := home_eq hl
    exact hs.quiet_move _ hl rfl (Or.inl ⟨hhome, rfl⟩) fun t mode => by split_ifs <;> simp
  | observers r =>
    have hhome : s.home c = none := home_eq hl
    exact hs.quiet_move _ hl rfl (Or.inl ⟨hhome, rfl⟩) (by simp)
  | dismissing r todo =>
    have hhome : s.home c = none := home_eq hl
    cases todo with
    | nil => exact hs.quiet_move _ hl rfl (Or.inl ⟨hhome, rfl⟩) (by simp)
    | cons x todo =>
      have hx : x.Watches s.hub := hs.dismissing c x (by rw [hl]; simp [Loop.todo])
      by_cases hpanic : x.panics s.shut = true
      · have he : (Loop.dismissing r (x :: todo)).exec s.shut s.hub c ord = (s.hub, .gone) := by
          simp only [Loop.exec, if_pos hpanic]
        exact hs.quiet_move _ hl he (Or.inl ⟨hhome, rfl⟩) (by simp)
      · have he : (Loop.dismissing r (x :: todo)).exec s.shut s.hub c ord =
            ((x.exec s.hub).1, .dismissing r ((x.exec s.hub).2 ++ todo)) := by
          simp only [Loop.exec, if_neg hpanic]
        rw [run_eq hl he]
        refine leaveStep_move (c := c) hx rfl ?_ (fun d hd => setLoop_ne _ _ hd)
          (Or.inl (hs.outside hhome (by rw [hl]; rfl))) (by simp)
        rintro t rfl
        simp only [drops, hl]
  | drop r =>
    have hhome : s.home c = none := home_eq hl
    exact hs.drop_move hl rfl hhome rfl (by simp only [drops, hl]) (by simp)
  | gone => exact hs.quiet_move _ hl rfl (Or.inr rfl) (by simp)

/-- A broadcast of `c` comes to a closed queue. -/
theorem Sane.panic_calm (hs : s.Sane)
    (hclosed : ((s.loop c).audience s.hub c).any s.queueClosed = true) :
    Calm s (s.setLoop c (s.loop c).unwound) := by
  cases hl : s.loop c with
  | attach r =>
    have hroom : (s.hub.client c).room = none := hs.joining c (by rw [hl]; rfl)
    exact .setLoop (Or.inr fun t _ => Or.inr ⟨hroom, rfl⟩) (by simp [Loop.unwound])
  | activity r =>
    have hhome : s.home c = none := home_eq hl
    exact .setLoop (Or.inl (hs.outside hhome (by rw [hl]; rfl))) (by simp [Loop.unwound])
  | _ =>
    rw [hl] at hclosed
    cases hclosed

theorem Calm.same (hhub : s'.hub = s.hub) (hloop : s'.loop = s.loop) : Calm s s' := by
  refine ⟨by rw [hhub], by rw [hhub], by simp [hhub], by simp [hhub], fun r => ?_, fun r c _ => ?_,
    fun c r mode h => by rwa [hloop] at h⟩
  · rw [hhub]
  · exact ⟨by rw [hhub], by rw [hhub], fun t hat => hat.congr (by rw [hloop]) (by rw [hhub])⟩

/-- A client that is allocated is in no room. -/
theorem Sane.allocate_calm (hs : s.Sane) {u : UserID} (hu : u ∉ s.hub.used) (x : Client)
    (hhub : s'.hub = s.hub.allocate u x) (hloop : s'.loop = s.loop) : Calm s s' := by
  have hclient : ∀ d, d ≠ u → s'.hub.client d = s.hub.client d := fun d hd => by
    rw [hhub]; exact Function.update_of_ne hd _ _
  have hroom : s'.hub.room = s.hub.room := by rw [hhub]; rfl
  have hmembers : ∀ r, s'.hub.members r = s.hub.members r := by
    intro r
    rw [Hub.members, hroom]
    refine List.filter_congr fun d hd => ?_
    have hne : d ≠ u := by rintro rfl; exact hu (hs.hub.present r d hd)
    rw [Hub.isObserver, hclient d hne, Hub.isObserver]
  refine .of (c := u) (by rw [hhub]; rfl) (by rw [hhub]; rfl) (by simp [hroom]) (by simp [hroom])
    (fun r => ?_) (fun d _ => by rw [hloop]) (fun d hd _ => hclient d hd)
    (Or.inl fun r hmem => ?_) fun r mode h => by rwa [hloop] at h
  · rw [hmembers]
  · rw [hmembers] at hmem
    exact hu (hs.hub.present r u (Hub.mem_members.1 hmem).1)

/-- A step in which an observer alone changes. -/
theorem Calm.observer {u : UserID} {h : Hub} (hu : s.hub.isObserver u = true)
    (hh : h.rooms = s.hub.rooms ∧ h.nextRoom = s.hub.nextRoom)
    (hroom : ∀ r, (h.room r).id = (s.hub.room r).id ∧ (h.room r).mode = (s.hub.room r).mode)
    (hmembers : ∀ r, h.members r = s.hub.members r)
    (hclient : ∀ d, d ≠ u → h.client d = s.hub.client d) (hhub : s'.hub = h)
    (hloop : s'.loop = s.loop) : Calm s s' := by
  subst hhub
  refine .of (c := u) hh.1 hh.2 (fun r => (hroom r).1) (fun r => (hroom r).2) (fun r => ?_)
    (fun d _ => by rw [hloop]) (fun d hd _ => hclient d hd) (Or.inl fun r hmem => ?_)
    fun r mode h => by rwa [hloop] at h
  · rw [hmembers]
  · rw [hmembers] at hmem
    have hbiz := (Hub.mem_members.1 hmem).2
    rw [hu] at hbiz
    cases hbiz

/-- A step that lets the observer `u` in. -/
theorem Sane.watch_calm (hs : s.Sane) (u : UserID) : Calm s (s.step (.watch u)) := by
  have hquiet : ∀ next : Watch, (s.watch u).exec s.shut s.hub u = (s.hub, next) →
      Calm s (s.step (.watch u)) := by
    intro next he
    refine .same ?_ rfl
    simp only [step, he]
  -- the observer's room is written
  have hwrite : ∀ {next : Watch} {r : RoomRef}, s.hub.isObserver u = true →
      (s.watch u).exec s.shut s.hub u = (s.hub.setClient u fun x => { x with room := some r }, next) →
      Calm s (s.step (.watch u)) := by
    intro next r hu he
    have hob : ∀ d, (s.hub.setClient u fun x => { x with room := some r }).isObserver d =
        s.hub.isObserver d := Hub.isObserver_setClient (by rfl)
    refine .observer hu (h := s.hub.setClient u fun x => { x with room := some r }) ⟨rfl, rfl⟩
      (fun _ => ⟨rfl, rfl⟩) (fun t => ?_) (fun d hd => Hub.setClient_ne _ _ _ _ hd)
      (by simp only [step, he]) rfl
    simp only [Hub.members, hob]
    rfl
  cases hw : s.watch u with
  | away => exact hquiet .away (by rw [hw]; rfl)
  | lookup roomID =>
    cases hroom : s.hub.getRoom roomID with
    | none => exact hquiet .away (by rw [hw]; simp only [Watch.exec, hroom])
    | some r => exact hquiet (.insert r) (by rw [hw]; simp only [Watch.exec, hroom])
  | insert r =>
    have hu := (hs.watching u (by rw [hw]; simp)).2
    have he : (s.watch u).exec s.shut s.hub u = (s.hub.addTo r u, .attach r) := by
      rw [hw]; simp [Watch.exec, hu]
    exact .observer hu (h := s.hub.addTo r u) ⟨rfl, rfl⟩ (fun t => s.hub.addTo_kept r t u)
      (members_addTo_observer hu r) (fun _ _ => rfl) (by simp only [step, he]) rfl
  | attach r => exact hwrite (hs.watching u (by rw [hw]; simp)).2 (by rw [hw]; rfl)
  | send r => exact hquiet _ (by rw [hw]; rfl)
  | attachAgain r => exact hwrite (hs.watching u (by rw [hw]; simp)).2 (by rw [hw]; rfl)
  | watching => exact hquiet .watching (by rw [hw]; rfl)

theorem Sane.move (hs : s.Sane) (l : Label) : Move s l (s.step l) := by
  have hself : Move s l s := .calm (.same rfl rfl)
  cases l with
  | connect c =>
    simp only [step]
    split_ifs with hc
    · exact hself
    · exact .calm (hs.allocate_calm hc newClient rfl rfl)
  | join c p =>
    simp only [step]
    split_ifs with hc
    · simp only [Bool.and_eq_true] at hc
      unfold startJoin
      cases hq : s.hub.checkJoin c p with
      | error e => exact hself
      | ok q =>
        obtain ⟨q, mode⟩ := q
        have hroom := (checkJoin_ok hq).1
        have hreading := (listening_iff.1 hc.1).1
        have hhome : s.home c = none := (home_eq hreading).trans hroom
        have hout := hs.outside hhome (by rw [hreading]; rfl)
        exact .calm (.setLoop (Or.inl hout) fun r m h => by split_ifs at h)
    · exact hself
  | leave c =>
    simp only [step]
    split_ifs
    · exact .calm (.same rfl rfl)
    · exact hself
  | hangUp c => exact .calm (.same rfl rfl)
  | exit c =>
    simp only [step]
    split_ifs with hc
    · simp only [Bool.and_eq_true] at hc
      have hreading := (listening_iff.1 hc.1).1
      refine .calm (.setLoop (Or.inr fun t hat => ?_) (by simp))
      rw [At, hreading] at hat
      exact hat.imp id fun h => by cases h.2
    · exact hself
  | run c ord => exact hs.run_move c ord
  | panic c =>
    simp only [step]
    split_ifs with hclosed
    · exact .calm (hs.panic_calm hclosed)
    · exact hself
  | kick roomID userID =>
    simp only [step]
    split
    · exact hself
    · split_ifs
      · exact hself
      · exact .calm (.same rfl rfl)
  | dissolve roomID =>
    simp only [step]
    split
    · exact hself
    · exact .calm (.same rfl rfl)
  | observe u roomID mode username active =>
    simp only [step]
    split_ifs with hu
    · simp only [Bool.and_eq_true, decide_eq_true_eq] at hu
      unfold startObserve
      split
      · exact hself
      · split_ifs
        · exact hself
        · exact .calm (hs.allocate_calm hu.2 _ rfl rfl)
    · exact hself
  | watch u => exact .calm (hs.watch_calm u)
  | unobserve u =>
    simp only [step]
    split_ifs
    · exact .calm (.same rfl rfl)
    · exact hself
  | shut u =>
    simp only [step]
    split_ifs
    · exact .calm (.same rfl rfl)
    · exact hself
  | leaving n =>
    cases hx : s.leaves[n]? with
    | none =>
      have hstep : s.step (.leaving n) = s := by simp only [step, hx]
      rw [hstep]
      exact hself
    | some x =>
      refine leaveStep_move (c := "") (hs.leaving x (List.mem_of_getElem? hx)) ?_ ?_
        (fun d _ => ?_) (Or.inr ?_) ?_
      all_goals simp only [step, drops, hx]
      · rintro r rfl; rfl
      · exact fun _ _ h => h

/-! ### Every reachable state is sane -/

theorem members_getOrCreateRoom (h : Hub) (id : RoomID) (mode : RoomMode) (r : RoomRef) :
    ((h.getOrCreateRoom id mode).1.members r).Sublist (h.members r) := by
  unfold Hub.getOrCreateRoom
  split
  · exact List.Sublist.refl _
  · simp only [Hub.members, Function.update_apply]
    split_ifs
    · exact List.nil_sublist _
    · exact List.Sublist.refl _

/-- The room looked up is as it was, or it is new and empty. -/
theorem getOrCreateRoom_room (h : Hub) (id : RoomID) (mode : RoomMode) (r : RoomRef) :
    (h.getOrCreateRoom id mode).1.members r = [] ∨
      (h.getOrCreateRoom id mode).1.room r = h.room r := by
  unfold Hub.getOrCreateRoom
  split
  · exact Or.inr rfl
  · simp only [Hub.members, Function.update_apply]
    split_ifs
    · exact Or.inl rfl
    · exact Or.inr rfl

/-- Whoever is a member is in the room its readLoop says. -/
theorem Move.home (hs : s.Sane) (hm : Move s l s') : ∀ r, ∀ c ∈ s'.hub.members r, s'.At c r := by
  intro r c hc
  cases hm with
  | calm h => exact (h.frozen r c hc).2.2 r (hs.home r c ((h.members r).subset hc))
  | @found d id mode hl =>
    have hold : c ∈ s.hub.members r := (members_getOrCreateRoom s.hub id mode r).subset hc
    have hne : c ≠ d := by rintro rfl; exact hs.outside (home_eq hl) (by rw [hl]; rfl) r hold
    exact (hs.home r c hold).congr (setLoop_ne _ _ hne) (by simp)
  | @entered d t mode hl hadm =>
    by_cases hne : c = d
    · subst hne
      rcases Hub.mem_members_addTo.1 hc with hold | ⟨-, rfl, -⟩
      · exact absurd hold (hs.outside (home_eq hl) (by rw [hl]; rfl) r)
      · rw [At, setLoop_same]
        exact Or.inl rfl
    · have hold : c ∈ s.hub.members r :=
        (Hub.mem_members_addTo.1 hc).resolve_right fun h => hne h.1
      exact (hs.home r c hold).congr (setLoop_ne _ _ hne) rfl
  | dropped hl hhub hhome hpending =>
    have hold : c ∈ s.hub.members r := by
      rw [hhub] at hc
      simpa [Hub.members, Hub.isObserver] using hc
    exact hhome r c hold (hs.home r c hold)

/-- The steps a readLoop takes on are about observers. -/
theorem Sane.run_watches (hs : s.Sane) (c : UserID) (ord : MapOrder)
    (he : s.hub.Evolves (· = c) ((s.loop c).exec s.shut s.hub c ord).1) :
    ∀ x ∈ ((s.loop c).exec s.shut s.hub c ord).2.todo,
      x.Watches ((s.loop c).exec s.shut s.hub c ord).1 := by
  intro x hx
  cases hl : s.loop c with
  | observers r =>
    rw [hl] at hx
    obtain ⟨o, ho, hxo⟩ := List.mem_flatMap.1 hx
    simp only [List.mem_filter, Hub.mem_clientsOf] at ho
    have hwatch : o ∈ s.hub.used ∧ s.hub.isObserver o = true := ⟨hs.hub.present r o ho.1, ho.2⟩
    rcases List.mem_pair.1 hxo with rfl | rfl
    · exact hwatch
    · exact hwatch
  | dismissing r todo =>
    have hwatch : ∀ y ∈ todo, y.Watches s.hub := fun y hy => hs.dismissing c y (by rw [hl]; exact hy)
    rw [hl] at hx he
    cases todo with
    | nil => exact absurd hx List.not_mem_nil
    | cons y todo =>
      simp only [Loop.exec] at hx he ⊢
      split_ifs at hx he ⊢
      · exact absurd hx List.not_mem_nil
      · rcases List.mem_append.1 hx with hx | hx
        · exact LeaveStep.exec_watches (hwatch y (by simp)) x hx
        · exact (hwatch x (List.mem_cons_of_mem _ hx)).evolves he
  | _ =>
    -- no other step takes any on
    rw [hl] at hx
    simp only [Loop.exec] at hx
    repeat' split at hx
    all_goals exact absurd hx List.not_mem_nil

/-- A step of `c`'s readLoop changes clients that exist. -/
theorem Sane.run_evolves (hs : s.Sane) (c : UserID) (ord : MapOrder) :
    s.hub.Evolves (· = c) ((s.loop c).exec s.shut s.hub c ord).1 := by
  have hself : s.hub.Evolves (· = c) s.hub := .refl _
  have hwrite : ∀ f : Client → Client, (∀ x, (f x).hasConn = x.hasConn) →
      (∀ x, (f x).isObserver = x.isObserver) → (s.loop c).isReading = false →
      s.hub.Evolves (· = c) (s.hub.setClient c f) := fun f hconn hob hl => by
    refine .setClient ?_ (hs.busy c hl).1 (hconn _) (hob _)
    exact Or.inl rfl
  cases hl : s.loop c with
  | reading => exact hself
  | soloRole p =>
    simp only [Loop.exec]
    split
    · exact hself
    · exact hwrite (fun x => { x with soloRole := some .play }) (fun _ => rfl) (fun _ => rfl)
        (by rw [hl]; rfl)
    · exact hwrite (fun x => { x with soloRole := some .push }) (fun _ => rfl) (fun _ => rfl)
        (by rw [hl]; rfl)
  | plannedStream p =>
    simp only [Loop.exec]
    split
    · exact hself
    · rename_i streamID _
      exact hwrite (fun x => { x with plannedStreamID := streamID }) (fun _ => rfl) (fun _ => rfl)
        (by rw [hl]; rfl)
  | nickname p mode =>
    exact hwrite (fun x => { x with nickname := p.nickname }) (fun _ => rfl) (fun _ => rfl)
      (by rw [hl]; rfl)
  | platform p mode =>
    exact hwrite (fun x => { x with clientPlatform := normalizeClientPlatform p.clientPlatform })
      (fun _ => rfl) (fun _ => rfl) (by rw [hl]; rfl)
  | micOn p mode =>
    cases hp : p.micOn with
    | none => simpa only [Loop.exec, hp, Hub.writeMicOn] using hself
    | some b =>
      simp only [Loop.exec, hp, Hub.writeMicOn]
      exact hwrite (fun x => { x with micOn := b }) (fun _ => rfl) (fun _ => rfl) (by rw [hl]; rfl)
  | camOn p mode =>
    cases hp : p.camOn with
    | none => simpa only [Loop.exec, hp, Hub.writeCamOn] using hself
    | some b =>
      simp only [Loop.exec, hp, Hub.writeCamOn]
      exact hwrite (fun x => { x with camOn := b }) (fun _ => rfl) (fun _ => rfl) (by rw [hl]; rfl)
  | lookup id mode => exact .getOrCreateRoom s.hub id mode
  | insert r mode =>
    have hc := (hs.busy c (by rw [hl]; rfl)).1
    simp only [Loop.exec]
    split
    · exact hself
    · exact .addTo hc r
  | attach r =>
    exact hwrite (fun x => { x with room := some r }) (fun _ => rfl) (fun _ => rfl) (by rw [hl]; rfl)
  | rejected r => exact .removeRoomIfEmpty s.hub r
  | closing =>
    exact hwrite (fun x => { x with closed := true }) (fun _ => rfl) (fun _ => rfl) (by rw [hl]; rfl)
  | delete r =>
    by_cases hin : c ∈ (s.hub.room r).clients
    · simp only [Loop.exec, if_neg (not_not.2 hin)]
      exact .removeFrom s.hub r c
    · simp only [Loop.exec, if_pos hin]
      exact hself
  | clear r =>
    exact hwrite (fun x => { x with streams := ∅, recordings := ∅ }) (fun _ => rfl) (fun _ => rfl)
      (by rw [hl]; rfl)
  | activity r => exact hself
  | observers r => exact hself
  | dismissing r todo =>
    cases todo with
    | nil => exact hself
    | cons x todo =>
      simp only [Loop.exec]
      split_ifs
      · exact hself
      · exact LeaveStep.exec_evolves (hs.dismissing c x (by rw [hl]; simp [Loop.todo]))
  | drop r => exact .removeRoomIfEmpty s.hub r
  | gone => exact hself

theorem Sane.watch_evolves (hs : s.Sane) (u : UserID) :
    s.hub.Evolves (fun _ => False) ((s.watch u).exec s.shut s.hub u).1 := by
  have hself : s.hub.Evolves (fun _ => False) s.hub := .refl _
  have hattach : s.watch u ≠ .away → ∀ r, s.hub.Evolves (fun _ => False)
      (s.hub.setClient u fun x => { x with room := some r }) := fun hu _ =>
    .setClient (Or.inr (hs.watching u hu).2) (hs.watching u hu).1 (by rfl) (by rfl)
  cases hw : s.watch u with
  | away => exact hself
  | lookup roomID =>
    cases hroom : s.hub.getRoom roomID with
    | none => simpa only [Watch.exec, hroom] using hself
    | some r => simpa only [Watch.exec, hroom] using hself
  | insert r =>
    have hu := hs.watching u (by rw [hw]; simp)
    simp only [Watch.exec, hu.2, Bool.not_true, Bool.false_eq_true, if_false]
    exact .addTo hu.1 r
  | attach r => exact hattach (by rw [hw]; simp) r
  | send r => exact hself
  | attachAgain r => exact hattach (by rw [hw]; simp) r
  | watching => exact hself

/-- No step of a join writes `c.room` but the last. -/
theorem Sane.run_joining (hs : s.Sane) (c : UserID) (ord : MapOrder)
    (hnext : ((s.loop c).exec s.shut s.hub c ord).2.joining = true) :
    (((s.loop c).exec s.shut s.hub c ord).1.client c).room = none := by
  have hkept : (s.loop c).joining = true → (s.hub.client c).room = none := hs.joining c
  have hwrite : ∀ f : Client → Client, (∀ x, (f x).room = x.room) → (s.loop c).joining = true →
      ((s.hub.setClient c f).client c).room = none := fun f hf hl => by
    rw [Hub.setClient_same, hf]
    exact hkept hl
  cases hl : s.loop c with
  | soloRole p =>
    simp only [Loop.exec]
    split
    · exact hkept (by rw [hl]; rfl)
    · exact hwrite (fun x => { x with soloRole := some .play }) (fun _ => rfl) (by rw [hl]; rfl)
    · exact hwrite (fun x => { x with soloRole := some .push }) (fun _ => rfl) (by rw [hl]; rfl)
  | plannedStream p =>
    simp only [Loop.exec]
    split
    · exact hkept (by rw [hl]; rfl)
    · rename_i streamID _
      exact hwrite (fun x => { x with plannedStreamID := streamID }) (fun _ => rfl) (by rw [hl]; rfl)
  | nickname p mode =>
    exact hwrite (fun x => { x with nickname := p.nickname }) (fun _ => rfl) (by rw [hl]; rfl)
  | platform p mode =>
    exact hwrite (fun x => { x with clientPlatform := normalizeClientPlatform p.clientPlatform })
      (fun _ => rfl) (by rw [hl]; rfl)
  | micOn p mode =>
    cases hp : p.micOn with
    | none => simpa only [Loop.exec, hp, Hub.writeMicOn] using hkept (by rw [hl]; rfl)
    | some b =>
      simp only [Loop.exec, hp, Hub.writeMicOn]
      exact hwrite (fun x => { x with micOn := b }) (fun _ => rfl) (by rw [hl]; rfl)
  | camOn p mode =>
    cases hp : p.camOn with
    | none => simpa only [Loop.exec, hp, Hub.writeCamOn] using hkept (by rw [hl]; rfl)
    | some b =>
      simp only [Loop.exec, hp, Hub.writeCamOn]
      exact hwrite (fun x => { x with camOn := b }) (fun _ => rfl) (by rw [hl]; rfl)
  | lookup id mode =>
    simp only [Loop.exec, Hub.getOrCreateRoom_client]
    exact hkept (by rw [hl]; rfl)
  | insert r mode =>
    simp only [Loop.exec]
    split
    · exact hkept (by rw [hl]; rfl)
    · exact hkept (by rw [hl]; rfl)
  | dismissing r todo =>
    rw [hl] at hnext
    cases todo with
    | nil => cases hnext
    | cons x todo =>
      simp only [Loop.exec] at hnext
      split_ifs at hnext <;> cases hnext
  | _ =>
    -- no other step is followed by one of a join
    rw [hl] at hnext
    simp only [Loop.exec] at hnext
    repeat' split at hnext
    all_goals cases hnext

theorem Sane.of_evolves (hs : s.Sane) {who : UserID → Prop} (he : s.hub.Evolves who s'.hub)
    (hjoining : ∀ c, (s'.loop c).joining = true →
      s'.loop c = s.loop c ∧ ¬who c ∨ (s'.hub.client c).room = none)
    (hbusy : ∀ c, (s'.loop c).isReading = false → s'.loop c = s.loop c ∨
      c ∈ s.hub.used ∧ s.hub.isObserver c = false)
    (htodo : ∀ c, s'.loop c = s.loop c ∨ ∀ x ∈ (s'.loop c).todo, x.Watches s'.hub)
    (hwatch : ∀ u, s'.watch u ≠ .away → s.watch u ≠ .away)
    (hleaves : ∀ x ∈ s'.leaves, x ∈ s.leaves ∨ x.Watches s'.hub)
    (hhome : ∀ r, ∀ c ∈ s'.hub.members r, s'.At c r) : s'.Sane where
  hub := he.sane hs.hub
  joining c hc := by
    rcases hjoining c hc with ⟨h, hwho⟩ | h
    · rw [h] at hc
      have hbiz := (hs.busy c (Loop.isReading_of_joining hc)).2
      rw [he.other hwho hbiz]
      exact hs.joining c hc
    · exact h
  busy c hc := by
    rw [he.used, he.isObserver]
    rcases hbusy c hc with h | h
    · rw [h] at hc; exact hs.busy c hc
    · exact h
  dismissing c x hx := by
    rcases htodo c with h | h
    · rw [h] at hx; exact (hs.dismissing c x hx).evolves he
    · exact h x hx
  watching u hu := by
    rw [he.used, he.isObserver]
    exact hs.watching u (hwatch u hu)
  leaving x hx := (hleaves x hx).elim (fun h => (hs.leaving x h).evolves he) id
  home := hhome

theorem Sane.of_allocate (hs : s.Sane) {u : UserID} (hu : u ∉ s.hub.used) {x : Client}
    (hx : x.hasConn = true → x.isObserver = false) (hhub : s'.hub = s.hub.allocate u x)
    (hloop : s'.loop = s.loop) (hleaves : s'.leaves = s.leaves)
    (hwatch : ∀ d, s'.watch d ≠ .away → d = u ∧ x.isObserver = true ∨ s.watch d ≠ .away) :
    s'.Sane := by
  have hold : ∀ d, d ∈ s.hub.used → d ∈ s'.hub.used ∧ s'.hub.isObserver d = s.hub.isObserver d := by
    intro d hd
    have hne : d ≠ u := by rintro rfl; exact hu hd
    rw [hhub]
    refine ⟨List.mem_cons_of_mem _ hd, ?_⟩
    rw [Hub.isObserver, Hub.isObserver]
    exact congrArg Client.isObserver (Function.update_of_ne hne _ _)
  have hwatches : ∀ y : LeaveStep, y.Watches s.hub → y.Watches s'.hub := by
    intro y hy
    cases y with
    | send o => exact ⟨(hold o hy.1).1, (hold o hy.1).2.trans hy.2⟩
    | leave o => exact ⟨(hold o hy.1).1, (hold o hy.1).2.trans hy.2⟩
    | delete r o => exact ⟨(hold o hy.1).1, (hold o hy.1).2.trans hy.2⟩
    | drop r => trivial
  refine ⟨by rw [hhub]; exact hs.hub.allocate u hx, fun c hc => ?_, fun c hc => ?_, fun c y hy => ?_,
    fun d hd => ?_, fun y hy => ?_, ?_⟩
  · rw [hloop] at hc
    obtain ⟨h1, h2⟩ := hs.busy c hc
    exact ⟨(hold c h1).1, (hold c h1).2.trans h2⟩
  · rw [hloop] at hc
    have hne : c ≠ u := by
      rintro rfl
      exact hu (hs.busy c (Loop.isReading_of_joining hc)).1
    have hsame : s'.hub.client c = s.hub.client c := by
      rw [hhub]
      exact Function.update_of_ne hne _ _
    rw [hsame]
    exact hs.joining c hc
  · rw [hloop] at hy
    exact hwatches y (hs.dismissing c y hy)
  · rcases hwatch d hd with ⟨rfl, hob⟩ | hd
    · rw [hhub]
      refine ⟨List.mem_cons_self, ?_⟩
      exact (congrArg Client.isObserver (Function.update_self _ _ _)).trans hob
    · obtain ⟨h1, h2⟩ := hs.watching d hd
      exact ⟨(hold d h1).1, (hold d h1).2.trans h2⟩
  · rw [hleaves] at hy
    exact hwatches y (hs.leaving y hy)
  · exact Move.home hs (l := .connect u) (.calm (hs.allocate_calm hu x hhub hloop))

theorem Sane.of_same (hs : s.Sane) (hhub : s'.hub = s.hub) (hloop : s'.loop = s.loop)
    (hwatch : s'.watch = s.watch) (hleaves : ∀ x ∈ s'.leaves, x ∈ s.leaves ∨ x.Watches s.hub) :
    s'.Sane := by
  have he : s.hub.Evolves (fun _ => False) s'.hub := by
    rw [hhub]
    exact .refl _
  refine hs.of_evolves he (fun c _ => Or.inl ⟨by rw [hloop], id⟩)
    (fun c _ => Or.inl (by rw [hloop])) (fun c => Or.inl (by rw [hloop]))
    (fun u hu => by rwa [hwatch] at hu) (by rw [hhub]; exact hleaves) ?_
  exact Move.home hs (l := .hangUp "") (.calm (.same hhub hloop))

/-- A readLoop that takes a message belongs to a business client. -/
theorem Sane.of_setLoop (hs : s.Sane) {next : Loop} (hc : s.listening c = true)
    (htodo : next.todo = []) (hjoin : next.joining = true → (s.hub.client c).room = none)
    (hhome : ∀ r, ∀ d ∈ s.hub.members r, (s.setLoop c next).At d r) :
    (s.setLoop c next).Sane := by
  obtain ⟨-, hconn, -⟩ := listening_iff.1 hc
  have hused : c ∈ s.hub.used := by
    by_contra hu
    rw [hs.hub.unborn c hu] at hconn
    cases hconn
  have he : s.hub.Evolves (· = c) s.hub := .refl _
  refine hs.of_evolves he (fun d hd => ?_) (fun d _ => ?_) (fun d => ?_)
    (fun _ h => h) (fun _ h => Or.inl h) hhome
  · by_cases hdc : d = c
    · subst hdc
      rw [setLoop_same] at hd
      exact Or.inr (hjoin hd)
    · exact Or.inl ⟨setLoop_ne s next hdc, hdc⟩
  · by_cases hd : d = c
    · subst hd; exact Or.inr ⟨hused, hs.hub.business d hconn⟩
    · exact Or.inl (setLoop_ne s next hd)
  · by_cases hd : d = c
    · subst hd
      rw [setLoop_same, htodo]
      exact Or.inr (by simp)
    · exact Or.inl (setLoop_ne s next hd)

theorem Sane.step (hs : s.Sane) (l : Label) : (s.step l).Sane := by
  have hhome := (hs.move l).home hs
  cases l with
  | connect c =>
    simp only [Sys.step]
    split_ifs with hc
    · exact hs
    · exact hs.of_allocate hc (fun _ => rfl) rfl rfl rfl fun d hd => Or.inr hd
  | join c p =>
    simp only [Sys.step] at hhome ⊢
    split_ifs at hhome ⊢ with hc
    · simp only [Bool.and_eq_true] at hc
      unfold startJoin at hhome ⊢
      cases hq : s.hub.checkJoin c p with
      | error e => exact hs
      | ok q =>
        rw [hq] at hhome
        exact hs.of_setLoop hc.1 (by split_ifs <;> rfl) (fun _ => (checkJoin_ok hq).1) hhome
    · exact hs
  | leave c =>
    simp only [Sys.step]
    split_ifs
    · exact hs.of_same rfl rfl rfl fun _ h => Or.inl h
    · exact hs
  | hangUp c => exact hs.of_same rfl rfl rfl fun _ h => Or.inl h
  | exit c =>
    simp only [Sys.step] at hhome ⊢
    split_ifs at hhome ⊢ with hc
    · simp only [Bool.and_eq_true] at hc
      exact hs.of_setLoop hc.1 rfl (fun h => by cases h) hhome
    · exact hs
  | run c ord =>
    have he := hs.run_evolves c ord
    refine hs.of_evolves he (fun d hd => ?_) (fun d hd => ?_) (fun d => ?_) (fun _ h => h)
      (fun x hx => Or.inl hx) hhome
    · by_cases hdc : d = c
      · subst hdc
        simp only [Sys.step, setLoop_same] at hd
        exact Or.inr (hs.run_joining d ord hd)
      · exact Or.inl ⟨setLoop_ne _ _ hdc, hdc⟩
    · by_cases hdc : d = c
      · subst hdc
        refine Or.inr (hs.busy d ?_)
        cases hl : s.loop d with
        | reading =>
          simp only [Sys.step, setLoop_same, hl] at hd
          exact hd
        | _ => rfl
      · exact Or.inl (setLoop_ne _ _ hdc)
    · by_cases hdc : d = c
      · subst hdc
        refine Or.inr ?_
        simp only [Sys.step, setLoop_same]
        exact hs.run_watches d ord he
      · exact Or.inl (setLoop_ne _ _ hdc)
  | panic c =>
    simp only [Sys.step] at hhome ⊢
    split_ifs at hhome ⊢ with hclosed
    · have hbusy : (s.loop c).isReading = false := by
        cases hl : s.loop c with
        | reading => rw [hl] at hclosed; cases hclosed
        | _ => rfl
      have hend : (s.loop c).unwound.joining = false ∧ (s.loop c).unwound.todo = [] := by
        cases s.loop c <;> exact ⟨rfl, rfl⟩
      have he : s.hub.Evolves (fun _ => False) s.hub := .refl _
      refine hs.of_evolves he (fun d hd => ?_) (fun d _ => ?_)
        (fun d => ?_) (fun _ h => h) (fun _ h => Or.inl h) hhome
      · by_cases hdc : d = c
        · subst hdc
          rw [setLoop_same, hend.1] at hd
          cases hd
        · exact Or.inl ⟨setLoop_ne s _ hdc, id⟩
      · by_cases hdc : d = c
        · subst hdc; exact Or.inr (hs.busy d hbusy)
        · exact Or.inl (setLoop_ne s _ hdc)
      · by_cases hdc : d = c
        · subst hdc
          rw [setLoop_same, hend.2]
          exact Or.inr (by simp)
        · exact Or.inl (setLoop_ne s _ hdc)
    · exact hs
  | kick roomID userID =>
    simp only [Sys.step]
    split
    · exact hs
    · split_ifs
      · exact hs
      · exact hs.of_same rfl rfl rfl fun _ h => Or.inl h
  | dissolve roomID =>
    simp only [Sys.step]
    split
    · exact hs
    · exact hs.of_same rfl rfl rfl fun _ h => Or.inl h
  | observe u roomID mode username active =>
    simp only [Sys.step]
    split_ifs with hu
    · simp only [Bool.and_eq_true, decide_eq_true_eq] at hu
      unfold startObserve
      split
      · exact hs
      · split_ifs
        · exact hs
        · refine hs.of_allocate hu.2 (fun h => by cases h) rfl rfl rfl fun d hd => ?_
          by_cases hdu : d = u
          · exact Or.inl ⟨hdu, rfl⟩
          · exact Or.inr (by simpa [Function.update_of_ne hdu] using hd)
    · exact hs
  | watch u =>
    have he := hs.watch_evolves u
    refine hs.of_evolves he (fun _ _ => Or.inl ⟨rfl, id⟩) (fun _ _ => Or.inl rfl)
      (fun _ => Or.inl rfl) (fun d hd => ?_) (fun _ h => Or.inl h) hhome
    by_cases hdu : d = u
    · subst hdu
      intro haway
      simp only [Sys.step, Function.update_self, haway] at hd
      exact hd rfl
    · simpa only [Sys.step, Function.update_of_ne hdu] using hd
  | unobserve u =>
    simp only [Sys.step]
    split_ifs with hu
    · refine hs.of_same rfl rfl rfl fun x hx => ?_
      rcases List.mem_append.1 hx with hx | hx
      · exact Or.inl hx
      · rw [List.mem_singleton.1 hx]
        refine Or.inr ⟨?_, hu⟩
        by_contra hused
        rw [Hub.isObserver, hs.hub.unborn u hused] at hu
        cases hu
    · exact hs
  | shut u =>
    simp only [Sys.step]
    split_ifs
    · exact hs.of_same rfl rfl rfl fun _ h => Or.inl h
    · exact hs
  | leaving n =>
    cases hx : s.leaves[n]? with
    | none => simpa only [Sys.step, hx] using hs
    | some x =>
      have hwatches := hs.leaving x (List.mem_of_getElem? hx)
      simp only [Sys.step, hx] at hhome ⊢
      have he : s.hub.Evolves (fun _ => False) (x.exec s.hub).1 := LeaveStep.exec_evolves hwatches
      refine hs.of_evolves he (fun _ _ => Or.inl ⟨rfl, id⟩) (fun _ _ => Or.inl rfl)
        (fun _ => Or.inl rfl) (fun _ h => h) (fun y hy => ?_) hhome
      rcases List.mem_append.1 hy with hy | hy
      · rcases List.mem_append.1 hy with hy | hy
        · exact Or.inl (List.mem_of_mem_take hy)
        · exact Or.inr (LeaveStep.exec_watches hwatches y hy)
      · exact Or.inl (List.mem_of_mem_drop hy)

end Sys

theorem threads_sane (token : String) (ls : List Label) : ((threads token).run ls).Sane := by
  refine Machine.run_invariant (P := Sys.Sane) ?_ (fun s l hs => hs.step l) ls
  exact {
    hub := ⟨fun _ _ => rfl, fun _ hc => (nomatch hc), fun _ _ hc => (nomatch hc)⟩
    busy := fun c hc => nomatch hc
    joining := fun c hc => nomatch hc
    dismissing := fun c x hx => nomatch hx
    watching := fun u hu => absurd rfl hu
    leaving := fun x hx => nomatch hx
    home := fun r c hc => nomatch hc }

end Meetkit
