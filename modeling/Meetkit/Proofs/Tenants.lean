import Meetkit.Proofs.Invisible

/-! No room outlives its members: a room of the table has a member, a client is in
the map of one room at most, and the hub of a deserted server is empty. -/

namespace Meetkit

open World

/-- Every room of the table has a member. -/
def Hub.Tenanted (h : Hub) : Prop := ∀ id r, h.rooms.lookup id = some r → h.members r ≠ []

namespace Hub.Tenanted

variable {h h' : Hub} {c : UserID}

theorem grow (ht : h.Tenanted) (hrooms : ∀ id r, h'.rooms.lookup id = some r →
    h.rooms.lookup id = some r) (hmembers : ∀ r c, c ∈ h.members r → c ∈ h'.members r) :
    h'.Tenanted := by
  intro id r hl hnil
  obtain ⟨d, hd⟩ := List.exists_mem_of_ne_nil _ (ht id r (hrooms id r hl))
  have hd' := hmembers r d hd
  rw [hnil] at hd'
  exact List.not_mem_nil hd'

theorem setClient (ht : h.Tenanted) {f : Client → Client}
    (hf : (f (h.client c)).isObserver = (h.client c).isObserver) : (h.setClient c f).Tenanted :=
  ht.grow (fun _ _ hl => hl) fun _ _ hd => (mem_members_setClient hf).2 hd

theorem aside (ht : h.Tenanted) (ha : Hub.Aside h h') : h'.Tenanted :=
  ht.grow ha.rooms fun r _ hd => (ha.members r).symm ▸ hd

theorem removeRoomIfEmpty {r : RoomRef} (hw : h.WellFormed) (hwatched : h.Watched)
    (ht : ∀ id s, h.rooms.lookup id = some s → s ≠ r → h.members s ≠ []) :
    (h.removeRoomIfEmpty r).Tenanted := by
  intro id s hl hnil
  have hnil' : h.members s = [] := by
    simpa [Hub.members, Hub.isObserver] using hnil
  by_cases hs : s = r
  · subst hs
    rw [Hub.removeRoomIfEmpty, if_pos (hwatched s hnil')] at hl
    obtain ⟨hid, hl⟩ := GoMap.lookup_erase_eq_some.1 hl
    exact hid (hw.table id s hl).1.symm
  · exact ht id s (Hub.lookup_of_removeRoomIfEmpty hl) hs hnil'

/-- A room that has just been created is the only one that may be empty. -/
theorem getOrCreateRoom (ht : h.Tenanted) (id : RoomID) (mode : RoomMode) :
    ∀ id' s, (h.getOrCreateRoom id mode).1.rooms.lookup id' = some s →
      s ≠ (h.getOrCreateRoom id mode).2 → (h.getOrCreateRoom id mode).1.members s ≠ [] := by
  intro id' s
  unfold Hub.getOrCreateRoom
  split
  · intro hl _
    exact ht id' s hl
  · intro hl hs
    dsimp only at hl hs
    rw [GoMap.lookup_insert_iff] at hl
    split_ifs at hl with hid
    · exact absurd (Option.some.inj hl).symm hs
    · simp only [Hub.members, Function.update_of_ne hs]
      exact ht id' s hl

end Hub.Tenanted

section Steps

variable {env : Env} {w : World} {i : Input} {c : UserID} {reqID : String} {b : Body} {a : Act}

theorem Handled.tenanted {v : World × Option Err} (hw : w.hub.WellFormed) (hu : c ∈ w.hub.used)
    (hwatched : w.hub.Watched) (ht : w.hub.Tenanted) (hbiz : w.hub.isObserver c = false)
    (h : Handled env w c reqID b a v) : v.1.hub.Tenanted := by
  cases h with
  | misjoined e hf hroom => exact ht.setClient (hf.isObserver _)
  | @turnedAway p f id mode v r e hf hroom hv hadm =>
    obtain ⟨hw', -⟩ := joining_hub hw hu hf hroom hv
    obtain ⟨rfl, rfl⟩ := World.getOrCreateRoom_hub hv
    have hwatched' := (hwatched.setClient (c := c) (hf.isObserver _)).getOrCreateRoom id mode
    have ht' : (w.setClient c f).hub.Tenanted := ht.setClient (hf.isObserver _)
    exact Hub.Tenanted.removeRoomIfEmpty hw' hwatched'
      (ht'.getOrCreateRoom id mode)
  | @joined p f mode v r hf hroom hv hadm =>
    obtain ⟨rfl, rfl⟩ := World.getOrCreateRoom_hub hv
    have ht' : (w.setClient c f).hub.Tenanted := ht.setClient (hf.isObserver _)
    have hrest := ht'.getOrCreateRoom p.room mode
    rw [setClient_hub, announceJoin_hub]
    refine Hub.Tenanted.setClient ?_ (by rfl)
    intro id s hl
    by_cases hs : s = ((w.setClient c f).hub.getOrCreateRoom p.room mode).2
    · refine List.ne_nil_of_mem (a := c) (Hub.mem_members.2 ⟨?_, ?_⟩)
      · subst hs
        simp [World.addTo, Hub.addTo]
      · simp only [Hub.isObserver, World.addTo, Hub.addTo, setHub_hub, Hub.setRoom_client,
          Hub.getOrCreateRoom_client]
        exact (Hub.isObserver_setClient (hf.isObserver _) c).trans hbiz
    · have hroom' : (((w.setClient c f).hub.getOrCreateRoom p.room mode).1.addTo
          ((w.setClient c f).hub.getOrCreateRoom p.room mode).2 c).room s =
          ((w.setClient c f).hub.getOrCreateRoom p.room mode).1.room s :=
        Hub.setRoom_ne _ _ _ _ hs
      simp only [Hub.members, World.addTo, setHub_hub, hroom']
      exact hrest id s hl hs
  | mediaChanged hroom =>
    rw [broadcastMediaState_hub, setClient_hub]
    exact ht.setClient (by rfl)
  | published sdp hroom hb hs =>
    rw [send_hub, notifyStatsChanged_hub, startStream_hub]
    exact ht.setClient (by rfl)
  | played m sdp es hroom hm hes =>
    rw [send_hub, emit_hub, setClient_hub]
    exact ht.setClient (by rfl)
  | started hroom hb hs =>
    rw [startStream_hub]
    exact ht.setClient (by rfl)
  | stoppedNone hroom hb hk hs =>
    rw [setClient_hub]
    exact ht.setClient (by rfl)
  | stopped hroom hb hk hs hne =>
    rw [stopStream_hub, setClient_hub]
    exact ht.setClient (by rfl)
  | recorded hroom hb hs =>
    rw [recordControlled_hub]
    exact ht.setClient (by rfl)
  | _ => exact ht

theorem cleanup_tenanted {ord : MapOrder} (hw : w.hub.WellFormed) (hwatched : w.hub.Watched)
    (ht : w.hub.Tenanted) (hc : w.serving c = true) : (w.cleanup ord c).hub.Tenanted := by
  cases hr : (w.hub.client c).room with
  | none =>
    rw [cleanup_outside hc hr, setClient_hub]
    exact ht.setClient (by rfl)
  | some r =>
    have hwatched' : (w.cleanup ord c).hub.Watched := cleanup_watched hw hwatched hc
    obtain ⟨v, ha, hv, heq⟩ := cleanup_member ord hw hc hr
    rw [heq, notifyStatsChanged_hub] at hwatched' ⊢
    refine Hub.Tenanted.removeRoomIfEmpty ha.wellFormed ?_ ?_
    · intro s hs
      have hgone := hwatched' s (by simpa [Hub.members, Hub.isObserver, World.removeRoomIfEmpty] using hs)
      simpa [World.removeRoomIfEmpty] using hgone
    · intro id s hl hs
      have hl' : w.hub.rooms.lookup id = some s := by
        have hl := ha.hub.rooms id s hl
        rw [withdrawn_hub] at hl
        exact hl
      -- the other rooms keep their members
      have hroom : (w.withdrawn ord r c).hub.room s = w.hub.room s := by
        rw [withdrawn_hub, Hub.withoutMember_room, if_neg hs]
      have hob : ∀ d, (w.withdrawn ord r c).hub.isObserver d = w.hub.isObserver d := fun d => by
        rw [withdrawn_hub, Hub.withoutMember_isObserver]
      rw [ha.hub.members]
      simp only [Hub.members, hroom, hob]
      exact ht id s hl'

theorem Turn.tenanted {w' : World} (hw : w.Sound) (hwatched : w.hub.Watched) (ht : w.hub.Tenanted)
    (h : Turn w i a w') : w'.hub.Tenanted := by
  cases h with
  | quiet h => rw [h.hub]; exact ht
  | @connected c hop hc =>
    have hbiz : w.hub.isObserver c = false := by rw [Hub.isObserver, hw.hub.unborn c hc]
    refine ht.grow (fun _ _ hl => hl) fun r d hd => ?_
    have hsame : (w.hub.allocate c newClient).members r = w.hub.members r := by
      simp only [Hub.members, Hub.Twin.isObserver_allocate hbiz (x := newClient) rfl]
      rfl
    exact hsame.symm ▸ hd
  | @served c e a v w' hop hc h hq =>
    rw [hq.hub]
    obtain ⟨hconn, -⟩ := serving_iff.1 hc
    have hw' : (w.emit [.received c e.body]).hub.WellFormed := hw.hub
    exact h.tenanted hw' (hw.hub.used_of_hasConn hconn) hwatched ht (hw.hub.business hconn)
  | departed hop hc => exact cleanup_tenanted hw.hub hwatched ht hc
  | @called n hop =>
    have hsame : (w.runGoroutine n).hub = w.hub := by unfold runGoroutine; split <;> rfl
    rw [hsame]
    exact ht
  | @observed u k reqID username mode p r w' hop hu hl hgate hw' =>
    subst hw'
    have h1 : Unseen w (w.observing i.env.order u username r) :=
      .observing hw.hub hu (members_of_gate hw.hub hl hgate)
    exact ht.grow (fun id s hs => h1.rooms ▸ hs) fun s d hd => (h1.members s).symm ▸ hd
  | watched ho h hq =>
    have h1 := Unseen.offered hw.hub ho h
    rw [hq.hub]
    exact ht.grow (fun id s hs => h1.rooms ▸ hs) fun s d hd => (h1.members s).symm ▸ hd
  | unobserved ha hq =>
    rw [hq.hub]
    exact ht.aside ha.hub

end Steps

/-! ### Runs -/

structure World.Settled (w : World) : Prop where
  sound : w.Sound
  watched : w.hub.Watched
  tenanted : w.hub.Tenanted

theorem server_settled (token : String) (is : List Input) : ((server token).run is).Settled := by
  refine Machine.run_invariant (P := World.Settled) ?_ ?_ is
  · refine ⟨⟨.init token, fun k o ho => by cases ho⟩, fun r _ => rfl, fun id r hl => by cases hl⟩
  · intro w i hw
    have hturn := step_turn (i := i) hw.sound
    exact ⟨hturn.sound hw.sound, hturn.keepsWatched hw.sound hw.watched,
      hturn.tenanted hw.sound hw.watched hw.tenanted⟩

theorem Hub.rooms_empty {h : Hub} (hnone : ∀ id, h.rooms.lookup id = none) : h.rooms = ∅ := by
  refine AList.ext (List.eq_nil_iff_forall_not_mem.2 fun e he => ?_)
  have hl : h.rooms.lookup e.1 = some e.2 := AList.mem_lookup_iff.2 he
  rw [hnone] at hl
  cases hl

/-- Rooms are listed under their own ids and only while a member is in them, no
client is in two rooms, and the hub is empty when the last member has left. -/
theorem hub_leaks_no_rooms (token : String) (is : List Input) :
    let h := ((server token).run is).hub
    (∀ id r, h.rooms.lookup id = some r → (h.room r).id = id ∧ h.members r ≠ []) ∧
      (∀ r c, c ∈ (h.room r).clients →
        (h.client c).room = some r ∧ ∀ s, c ∈ (h.room s).clients → s = r) ∧
      ((∀ r, h.members r = []) → h.rooms = ∅ ∧ ∀ r, (h.room r).clients = []) := by
  intro h
  have hs := server_settled token is
  have hw := hs.sound.hub
  refine ⟨fun id r hl => ⟨(hw.table id r hl).1, hs.tenanted id r hl⟩, ?_, ?_⟩
  · intro r c hc
    exact ⟨(hw.member r c hc).1, fun s hcs => hw.unique hcs hc⟩
  · intro hgone
    refine ⟨Hub.rooms_empty fun id => ?_, fun r => hs.watched r (hgone r)⟩
    cases hl : h.rooms.lookup id with
    | none => rfl
    | some r => exact absurd (hgone r) (hs.tenanted id r hl)

end Meetkit
