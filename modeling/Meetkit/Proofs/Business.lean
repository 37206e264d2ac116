import Meetkit.Model.AdminPage
import Meetkit.Proofs.Tenants

/-! Three readings of an active business: the server's on its live clients, the gate
of an observe-join on the statistics snapshot, and the admin page's on its JSON.
They differ in what they make of a member of a solo room without a role, and no
such member exists. -/

namespace Meetkit

open World

namespace Hub

/-- Every member of a solo room has its role. -/
def Roled (h : Hub) : Prop :=
  ∀ r c, c ∈ h.members r → (h.room r).mode = .solo → (h.client c).soloRole ≠ none

namespace Roled

variable {h h' : Hub} {c : UserID}

/-- Members may go. Those that stay keep their room's mode and their role. -/
theorem shrink (hr : h.Roled) (hmembers : ∀ r d, d ∈ h'.members r →
    d ∈ h.members r ∧ (h'.room r).mode = (h.room r).mode ∧
      (h'.client d).soloRole = (h.client d).soloRole) : h'.Roled := by
  intro r d hd hsolo
  obtain ⟨hd', hmode, hrole⟩ := hmembers r d hd
  rw [hrole]
  exact hr r d hd' (hmode ▸ hsolo)

theorem setClient (hr : h.Roled) {f : Client → Client}
    (hob : (f (h.client c)).isObserver = (h.client c).isObserver)
    (hrole : (f (h.client c)).soloRole = (h.client c).soloRole) : (h.setClient c f).Roled := by
  refine hr.shrink fun r d hd => ⟨(mem_members_setClient hob).1 hd, rfl, ?_⟩
  rw [setClient_client]
  split_ifs with hdc
  · rw [hdc, hrole]
  · rfl

/-- A client outside every room may write any of its fields. -/
theorem write (hr : h.Roled) (hw : h.WellFormed) {f : Client → Client} (hf : Mild f)
    (hroom : (h.client c).room = none) : (h.setClient c f).Roled := by
  refine hr.shrink fun r d hd => ⟨(mem_members_setClient (hf.isObserver _)).1 hd, rfl, ?_⟩
  have hd' := (mem_members.1 ((mem_members_setClient (hf.isObserver _)).1 hd)).1
  have hdc : d ≠ c := by
    rintro rfl
    exact hw.not_member_of_room hroom r hd'
  rw [setClient_ne _ _ _ _ hdc]

theorem aside (hr : h.Roled) (ha : Hub.Aside h h') : h'.Roled := by
  refine hr.shrink fun r d hd => ?_
  have hd' : d ∈ h.members r := ha.members r ▸ hd
  exact ⟨hd', ha.mode r, by rw [ha.client d (mem_members.1 hd').2]⟩

theorem removeRoomIfEmpty (hr : h.Roled) (r : RoomRef) : (h.removeRoomIfEmpty r).Roled := by
  refine hr.shrink fun s d hd => ?_
  simpa [Hub.members, Hub.isObserver] using hd

/-- A room that is created has no clients. -/
theorem getOrCreateRoom (hr : h.Roled) (id : RoomID) (mode : RoomMode) :
    (h.getOrCreateRoom id mode).1.Roled := by
  refine hr.shrink fun s d hd => ?_
  unfold Hub.getOrCreateRoom at hd ⊢
  split at hd
  · exact ⟨hd, rfl, rfl⟩
  · by_cases hs : s = h.nextRoom
    · subst hs
      simp [Hub.members] at hd
    · have hroom : (Function.update h.room h.nextRoom { id := id, mode := mode }) s = h.room s :=
        Function.update_of_ne hs _ _
      simp only [Hub.members, Hub.isObserver, hroom] at hd ⊢
      exact ⟨hd, trivial, trivial⟩

/-- A client with a role enters a room of its mode. -/
theorem addTo (hr : h.Roled) {r : RoomRef}
    (hc : (h.room r).mode = .solo → (h.client c).soloRole ≠ none) : (h.addTo r c).Roled := by
  intro s d hd hsolo
  rw [(addTo_kept h r s c).2] at hsolo
  rw [mem_members] at hd
  rcases mem_addTo.1 hd.1 with hd' | ⟨rfl, rfl⟩
  · exact hr s d (mem_members.2 ⟨hd', hd.2⟩) hsolo
  · exact hc hsolo

end Roled

end Hub

section Steps

variable {env : Env} {w : World} {i : Input} {c : UserID} {reqID : String} {b : Body} {a : Act}

/-- The solo block of `handleJoin` gives the client a role or refuses it. -/
theorem joinSolo_role {h : Hub} {p : JoinPayload} (hok : (h.joinSolo c p).2 = none) :
    ((h.joinSolo c p).1.client c).soloRole ≠ none := by
  unfold Hub.joinSolo at hok ⊢
  split at hok
  · cases hok
  · simp [Hub.writeSoloRole]
  · dsimp only at hok ⊢
    split at hok
    · cases hok
    · simp [Hub.writeSoloRole, Hub.writePlannedStream]

theorem joinFields_role (h : Hub) (p : JoinPayload) :
    ((h.joinFields c p).client c).soloRole = (h.client c).soloRole := by
  obtain ⟨room, nickname, mode, soloRole, streamID, token, micOn, camOn, platform⟩ := p
  cases micOn <;> cases camOn <;>
    simp [Hub.joinFields, Hub.writeCamOn, Hub.writeMicOn, Hub.writePlatform, Hub.writeNickname]

/-- A room's mode is checked before a client is let in. -/
theorem mode_of_admission {h : Hub} {r : RoomRef} {mode : RoomMode}
    (hadm : h.admission r c mode = none) : (h.room r).mode = mode := by
  unfold Hub.admission at hadm
  split_ifs at hadm with hmode
  exact (not_not.1 hmode).symm

theorem handleJoin_roled (hw : w.hub.WellFormed) (hr : w.hub.Roled)
    (p : Decoded JoinPayload) : (handleJoin env w c p).1.hub.Roled := by
  unfold handleJoin
  cases hq : w.hub.checkJoin c p with
  | error e => exact hr
  | ok q =>
    obtain ⟨q, mode⟩ := q
    obtain ⟨hroom, -⟩ := checkJoin_ok hq
    dsimp only
    cases hsel : (if mode = .solo then w.hub.joinSolo c q else (w.hub, none)) with
    | mk h₁ e₁ =>
      -- the writes so far
      obtain ⟨f, hf, hh₁⟩ : ∃ f, Mild f ∧ h₁ = w.hub.setClient c f := by
        split_ifs at hsel with hsolo
        · obtain ⟨f, hf, hh⟩ := joinSolo_mild w.hub c q
          exact ⟨f, hf, by rw [← hh, hsel]⟩
        · obtain ⟨rfl, -⟩ := Prod.mk.inj hsel
          exact ⟨id, mild_id, (Hub.setClient_id _ _).symm⟩
      cases e₁ with
      | some e => exact hh₁ ▸ hr.write hw hf hroom
      | none =>
        have hrole : mode = .solo → (h₁.client c).soloRole ≠ none := by
          intro hsolo
          rw [if_pos hsolo] at hsel
          have h := joinSolo_role (h := w.hub) (p := q) (c := c) (by rw [hsel])
          rwa [hsel] at h
        obtain ⟨g, hg, hfields⟩ := joinFields_mild c q
        have hr₂ : (h₁.joinFields c q).Roled := by
          rw [hfields, hh₁, Hub.setClient_setClient]
          exact hr.write hw (hg.comp hf) hroom
        have hrole₂ : mode = .solo → ((h₁.joinFields c q).client c).soloRole ≠ none := by
          rw [joinFields_role]
          exact hrole
        dsimp only
        cases hv : (w.setHub (h₁.joinFields c q)).getOrCreateRoom q.room mode with
        | mk v r =>
          obtain ⟨rfl, rfl⟩ := World.getOrCreateRoom_hub hv
          have hr₃ := hr₂.getOrCreateRoom q.room mode
          unfold addClient
          cases hadm : Hub.admission _ _ c mode with
          | some e => exact hr₃.removeRoomIfEmpty _
          | none =>
            dsimp only
            rw [setClient_hub, announceJoin_hub]
            refine Hub.Roled.setClient (hr₃.addTo fun hsolo => ?_) rfl rfl
            rw [setHub_hub, setHub_hub] at hadm
            rw [Hub.getOrCreateRoom_client]
            exact hrole₂ ((mode_of_admission hadm).symm.trans hsolo)

/-- A message other than a join leaves members, modes and roles alone. -/
theorem Handled.roled {v : World × Option Err} (hr : w.hub.Roled) (hb : ∀ p, b ≠ .join p)
    (h : Handled env w c reqID b a v) : v.1.hub.Roled := by
  cases h with
  | misjoined | turnedAway | joined => exact absurd rfl (hb _)
  | mediaChanged hroom =>
    rw [broadcastMediaState_hub, setClient_hub]
    exact hr.setClient rfl rfl
  | published sdp hroom hbiz hs =>
    rw [send_hub, notifyStatsChanged_hub, startStream_hub]
    exact hr.setClient rfl rfl
  | played m sdp es hroom hm hes =>
    rw [send_hub, emit_hub, setClient_hub]
    exact hr.setClient rfl rfl
  | started hroom hbiz hs =>
    rw [startStream_hub]
    exact hr.setClient rfl rfl
  | stoppedNone hroom hbiz hk hs =>
    rw [setClient_hub]
    exact hr.setClient rfl rfl
  | stopped hroom hbiz hk hs hne =>
    rw [stopStream_hub, setClient_hub]
    exact hr.setClient rfl rfl
  | recorded hroom hbiz hs =>
    rw [recordControlled_hub]
    exact hr.setClient rfl rfl
  | _ => exact hr

theorem cleanup_roled {ord : MapOrder} (hw : w.hub.WellFormed) (hr : w.hub.Roled)
    (hc : w.serving c = true) : (w.cleanup ord c).hub.Roled := by
  cases hroom : (w.hub.client c).room with
  | none =>
    rw [cleanup_outside hc hroom, setClient_hub]
    exact hr.setClient rfl rfl
  | some r =>
    obtain ⟨v, ha, hv, heq⟩ := cleanup_member ord hw hc hroom
    rw [heq, notifyStatsChanged_hub]
    refine Hub.Roled.removeRoomIfEmpty (Hub.Roled.aside ?_ ha.hub) r
    rw [withdrawn_hub, Hub.withoutMember]
    refine Hub.Roled.setClient (hr.shrink fun s d hd => ?_) rfl rfl
    rw [Hub.mem_members] at hd
    refine ⟨Hub.mem_members.2 ⟨(Hub.mem_removeFrom.1 hd.1).1, hd.2⟩, ?_, rfl⟩
    exact (Hub.removeFrom_kept w.hub r s c).2

theorem receive_roled (hw : w.Sound) (hr : w.hub.Roled) (e : Envelope) (hc : w.serving c = true) :
    (receive env w c e).hub.Roled := by
  have hhub : ∀ v : World × Option Err, dispatch env (w.emit [.received c e.body]) c e = v →
      (receive env w c e).hub = v.1.hub := by
    rintro ⟨v, result⟩ hv
    unfold receive
    rw [hv]
    cases result with
    | none => rfl
    | some err => exact send_hub _ _ _ _
  rw [hhub _ rfl]
  have hbiz := hw.hub.business (serving_iff.1 hc).1
  have hw' : (w.emit [.received c e.body]).hub.WellFormed := hw.hub
  have hr' : (w.emit [.received c e.body]).hub.Roled := hr
  by_cases hjoin : ∃ p, e.body = .join p
  · obtain ⟨p, hp⟩ := hjoin
    have hd : dispatch env (w.emit [.received c e.body]) c e =
        handleJoin env (w.emit [.received c e.body]) c p := by
      unfold dispatch; rw [hp]
    rw [hd]
    exact handleJoin_roled hw' hr' p
  · have h : Handled env (w.emit [.received c e.body]) c e.reqID e.body
        ((w.emit [.received c e.body]).messageAct env c e.body)
        (dispatch env (w.emit [.received c e.body]) c e) := dispatch_handled e hbiz
    exact h.roled hr' fun p hp => hjoin ⟨p, hp⟩

theorem World.Unseen.roled {v : World} (hu : Unseen w v) (hr : w.hub.Roled) : v.hub.Roled := by
  refine hr.shrink fun r d hd => ⟨hu.members r ▸ hd, hu.mode r, ?_⟩
  rw [hu.client d (Hub.mem_members.1 hd).2]

theorem Turn.roled {w' : World} (hw : w.Sound) (hr : w.hub.Roled) (h : Turn w i a w')
    (hrecv : ∀ c e, i.op ≠ .receive c e) : w'.hub.Roled := by
  cases h with
  | quiet h => rw [h.hub]; exact hr
  | @connected c hop hc =>
    have hbiz : w.hub.isObserver c = false := by rw [Hub.isObserver, hw.hub.unborn c hc]
    refine hr.shrink fun r d hd => ?_
    have hd' : d ∈ w.hub.members r := by
      have hsame : (w.hub.allocate c newClient).members r = w.hub.members r := by
        simp only [Hub.members, Hub.Twin.isObserver_allocate hbiz (x := newClient) rfl]
        rfl
      exact hsame ▸ hd
    refine ⟨hd', rfl, ?_⟩
    -- a new client is in no room yet
    have hdc : d ≠ c := by
      rintro rfl
      have hroom := (hw.hub.member r d (Hub.mem_members.1 hd').1).1
      rw [hw.hub.unborn d hc] at hroom
      cases hroom
    simp only [Hub.allocate, setHub_hub, Function.update_of_ne hdc]
  | served hop hc h hq => exact absurd hop (hrecv _ _)
  | departed hop hc => exact cleanup_roled hw.hub hr hc
  | @called n hop =>
    have hsame : (w.runGoroutine n).hub = w.hub := by unfold runGoroutine; split <;> rfl
    rw [hsame]
    exact hr
  | observed hop hu hl hgate hw' =>
    subst hw'
    exact (World.Unseen.observing hw.hub hu (members_of_gate hw.hub hl hgate)).roled hr
  | watched ho h hq =>
    rw [hq.hub]
    exact (World.Unseen.offered hw.hub ho h).roled hr
  | unobserved ha hq =>
    rw [hq.hub]
    exact hr.aside ha.hub

theorem step_roled (hw : w.Sound) (hr : w.hub.Roled) : (w.step i).hub.Roled := by
  by_cases hrecv : ∃ c e, i.op = .receive c e
  · obtain ⟨c, e, hop⟩ := hrecv
    unfold World.step
    rw [hop]
    dsimp only
    split_ifs with hc
    · exact receive_roled hw hr e hc
    · exact hr
  · exact (step_turn hw).roled hw hr fun c e hop => hrecv ⟨c, e, hop⟩

end Steps

theorem server_roled (token : String) (is : List Input) : ((server token).run is).hub.Roled := by
  refine (Machine.run_invariant (P := fun w : World => w.Sound ∧ w.hub.Roled) ?_ ?_ is).2
  · exact ⟨server_sound token [], fun r c hc => by cases hc⟩
  · intro w i hw
    exact ⟨(step_turn hw.1).sound hw.1, step_roled hw.1 hw.2⟩

/-! ### The readings -/

/-- An empty list of clients arrives as `null`. -/
theorem RoomStats.toJSON_clients (rs : RoomStats) :
    rs.toJSON.clients.getD [] = rs.clients.map (·.toJSON) := by
  unfold RoomStats.toJSON
  dsimp only
  split_ifs with hnil
  · rw [hnil]; rfl
  · rfl

namespace Hub

variable {h : Hub} {ord : MapOrder} {r : RoomRef} {id : RoomID}

/-- Of the rooms in the snapshot one has the id of a room of the table: that room. -/
theorem stats_of_id (hw : h.WellFormed) (hl : h.rooms.lookup id = some r) {rs : RoomStats}
    (hrs : rs ∈ (h.statsSnapshot ord).rooms) (hid : rs.id = (h.room r).id) :
    rs = h.roomStats ord r := by
  obtain ⟨s, hs, rfl⟩ := List.mem_map.1 hrs
  obtain ⟨⟨id', s'⟩, hentry, rfl⟩ := List.mem_map.1 hs
  have hl' := GoMap.mem_range.1 hentry
  have hid' : (h.room s').id = (h.room r).id := hid
  rw [(hw.table id r hl).1, (hw.table id' s' hl').1] at hid'
  subst hid'
  have hsr : s' = r := Option.some.inj (hl'.symm.trans hl)
  rw [hsr]

theorem stats_listed (hl : h.rooms.lookup id = some r) :
    h.roomStats ord r ∈ (h.statsSnapshot ord).rooms :=
  List.mem_map.2 ⟨r, List.mem_map.2 ⟨(id, r), GoMap.mem_range.2 hl, rfl⟩, rfl⟩

theorem roomHasRealMembers_iff (hw : h.WellFormed) (hl : h.rooms.lookup id = some r) :
    h.roomHasRealMembers ord (h.room r).id = true ↔ h.members r ≠ [] := by
  unfold roomHasRealMembers
  cases hfind : (h.statsSnapshot ord).rooms.find? fun rs => rs.id = (h.room r).id with
  | none =>
    have hlisted : h.roomStats ord r ∈ (h.statsSnapshot ord).rooms := stats_listed hl
    have hnone := List.find?_eq_none.1 hfind _ hlisted
    simp [roomStats] at hnone
  | some rs =>
    have hid : rs.id = (h.room r).id := by simpa using List.find?_some hfind
    rw [stats_of_id hw hl (List.mem_of_find?_eq_some hfind) hid]
    simp [roomStats, List.length_pos_iff]

/-- A test on the members of a room's snapshot that no observer passes. -/
theorem any_brief (p : ClientBrief → Bool) :
    ((h.roomStats ord r).clients.any fun b => !b.isObserver && p b) =
      (h.members r).any fun c => p (h.clientBrief ord c) := by
  rw [Bool.eq_iff_iff]
  simp only [roomStats, List.any_map, List.any_eq_true, Function.comp_apply, Bool.and_eq_true,
    mem_clientsOf, mem_members, Bool.not_eq_true', and_assoc]
  rfl

theorem roomHasPushMember_iff (hw : h.WellFormed) (hl : h.rooms.lookup id = some r) :
    h.roomHasPushMember ord (h.room r).id = true ↔
      ∃ c ∈ h.members r, (h.client c).soloRole ≠ some .play := by
  have hany : h.roomHasPushMember ord (h.room r).id =
      ((h.roomStats ord r).clients.any fun b => !b.isObserver && b.soloRole ≠ some .play) := by
    unfold roomHasPushMember
    rw [Bool.eq_iff_iff, List.any_eq_true]
    constructor
    · rintro ⟨rs, hrs, hp⟩
      rw [Bool.and_eq_true, decide_eq_true_eq] at hp
      rw [stats_of_id hw hl hrs hp.1] at hp
      exact hp.2
    · intro hp
      exact ⟨_, stats_listed hl, by rw [hp]; simp [roomStats]⟩
  rw [hany, any_brief fun b => b.soloRole ≠ some .play, List.any_eq_true]
  simp only [decide_eq_true_eq]
  rfl

theorem isPusher_toJSON (b : ClientBrief) :
    RoomJSON.isPusher b.toJSON = (!b.isObserver && b.soloRole = some .push) := by
  obtain ⟨userID, nickname, role, planned, micOn, camOn, streams, recording, isObserver, platform⟩ := b
  cases isObserver with
  | true => simp [RoomJSON.isPusher, ClientBrief.toJSON]
  | false =>
    cases role with
    | none => simp [RoomJSON.isPusher, ClientBrief.toJSON]
    | some role => cases role <;> simp [RoomJSON.isPusher, ClientBrief.toJSON, SoloRole.text]

theorem roomBizType_iff :
    (h.roomStats ord r).toJSON.roomBizType ≠ none ↔ h.members r ≠ [] ∧
      ((h.room r).mode = .solo → ∃ c ∈ h.members r, (h.client c).soloRole = some .push) := by
  have hclients : ((h.roomStats ord r).toJSON.clients.getD []).any RoomJSON.isPusher =
      (h.members r).any fun c => (h.client c).soloRole = some .push := by
    have hpush : ((h.roomStats ord r).clients.any fun b => !b.isObserver && b.soloRole = some .push) =
        (h.members r).any fun c => (h.clientBrief ord c).soloRole = some .push := h.any_brief _
    rw [RoomStats.toJSON_clients, List.any_map]
    simp only [Function.comp_def, isPusher_toJSON]
    exact hpush
  have hcount : (h.roomStats ord r).toJSON.realMembers.getD (h.roomStats ord r).toJSON.members < 1 ↔
      h.members r = [] := by
    simp [RoomStats.toJSON, roomStats]
  have hmode : (h.roomStats ord r).toJSON.mode = (h.room r).mode.text := rfl
  unfold RoomJSON.roomBizType
  rw [hclients, hmode]
  by_cases hnil : h.members r = []
  · rw [if_pos (hcount.2 hnil)]
    simp [hnil]
  · rw [if_neg fun hlt => hnil (hcount.1 hlt)]
    cases (h.room r).mode with
    | meeting => simp [RoomMode.text, hnil]
    | call => simp [RoomMode.text, hnil]
    | solo =>
      have hany : ((h.members r).any fun c => (h.client c).soloRole = some .push) = true ↔
          ∃ c ∈ h.members r, (h.client c).soloRole = some .push := by
        rw [List.any_eq_true]
        simp only [decide_eq_true_eq]
      simp only [RoomMode.text, String.reduceEq, if_false, if_true, ← hany]
      split_ifs with hp <;> simp [hnil, hp]

theorem isBusinessActive_iff :
    h.isBusinessActive r = true ↔ h.members r ≠ [] ∧
      ((h.room r).mode = .solo → ∃ c ∈ h.members r, (h.client c).soloRole ≠ some .play) := by
  unfold isBusinessActive
  split_ifs with hnil hsolo
  · simp [hnil]
  · rw [List.any_eq_true]
    simp only [decide_eq_true_eq, hsolo, forall_const, and_iff_right hnil]
  · simp [hnil, hsolo]

/-- Among members that have a role, not playing is pushing. -/
theorem Roled.push_iff (hr : h.Roled) (hsolo : (h.room r).mode = .solo) :
    (∃ c ∈ h.members r, (h.client c).soloRole = some .push) ↔
      ∃ c ∈ h.members r, (h.client c).soloRole ≠ some .play := by
  refine exists_congr fun c => and_congr_right fun hc => ?_
  have hrole := hr r c hc hsolo
  cases h' : (h.client c).soloRole with
  | none => exact absurd h' hrole
  | some role => cases role <;> simp

end Hub

/-- In a reachable hub a room's business is active for the server exactly when an
observer would be let in, and exactly when the admin page shows the room. -/
theorem business_definitions_agree (token : String) (is : List Input) (id : RoomID) (r : RoomRef)
    (hl : ((server token).run is).hub.rooms.lookup id = some r) :
    let h := ((server token).run is).hub
    (∀ ord ord', h.isBusinessActive r = true ↔
      h.roomHasRealMembers ord (h.room r).id = true ∧
        ((h.room r).mode = .solo → h.roomHasPushMember ord' (h.room r).id = true)) ∧
    (∀ ord, ∃ rs ∈ (h.statsSnapshot ord).rooms, rs.id = (h.room r).id) ∧
    ∀ ord, ∀ rs ∈ (h.statsSnapshot ord).rooms, rs.id = (h.room r).id →
      (h.isBusinessActive r = true ↔ rs.toJSON.roomBizType ≠ none) := by
  intro h
  have hw : h.WellFormed := (server_sound token is).hub
  have hr : h.Roled := server_roled token is
  refine ⟨fun ord ord' => ?_, fun ord => ⟨_, Hub.stats_listed hl, rfl⟩, fun ord rs hrs hid => ?_⟩
  · rw [Hub.isBusinessActive_iff, Hub.roomHasRealMembers_iff hw hl,
      Hub.roomHasPushMember_iff hw hl]
  · rw [Hub.stats_of_id hw hl hrs hid, Hub.roomBizType_iff, Hub.isBusinessActive_iff]
    exact and_congr_right fun _ => forall_congr' fun hsolo => (hr.push_iff hsolo).symm

/-- A solo room with a player alone, in which nobody pushes. -/
theorem solo_room_readings_agree :
    let is : List Input := [⟨.connect "p", {}⟩,
      ⟨.receive "p" ⟨"", .join (.ok { room := "live", mode := "solo", soloRole := "play" })⟩, {}⟩]
    let h := ((server "").run is).hub
    (h.isBusinessActive 0 = false) ∧ ∀ ord, ∀ rs ∈ (h.statsSnapshot ord).rooms, rs.id = (h.room 0).id →
      (h.isBusinessActive 0 = true ↔ rs.toJSON.roomBizType ≠ none) :=
  ⟨by decide +kernel, (business_definitions_agree "" _ "live" 0 (by decide +kernel)).2.2⟩

end Meetkit
