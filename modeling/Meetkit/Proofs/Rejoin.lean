import Meetkit.Proofs.Invariant

/-! A client whose join was rejected tries again. What a rejected join writes to its
client stays there, and a later join that leaves a field out is let in with it. -/

namespace Meetkit

open World

namespace Hub

/-- The join, if it passes the checks made before the first write. -/
def offered (h : Hub) (c : UserID) (p : Decoded JoinPayload) : Option (JoinPayload × RoomMode) :=
  (h.checkJoin c p).toOption

def soloRefusal (q : JoinPayload) : Option Err :=
  match soloRoleOf? q.soloRole with
  | none => some (.quoted "invalid soloRole: " q.soloRole)
  | some .play => none
  | some .push =>
    match checkPlannedStream q with
    | .error e => some e
    | .ok _ => none

/-- Why a join does not get as far as the room. -/
def refusal (h : Hub) (c : UserID) (p : Decoded JoinPayload) : Option Err :=
  match h.checkJoin c p with
  | .error e => some e
  | .ok (q, mode) => if mode = .solo then soloRefusal q else none

/-- The join, if it gets as far as the room. -/
def attempt (h : Hub) (c : UserID) (p : Decoded JoinPayload) : Option (JoinPayload × RoomMode) :=
  if h.refusal c p = none then h.offered c p else none

/-! The values a join gives its client's fields, if it gets as far as writing them. -/

def givenRole (h : Hub) (c : UserID) (p : Decoded JoinPayload) : Option SoloRole :=
  (h.offered c p).bind fun a => if a.2 = .solo then soloRoleOf? a.1.soloRole else none

def givenStream (h : Hub) (c : UserID) (p : Decoded JoinPayload) : Option StreamID :=
  (h.offered c p).bind fun a =>
    if a.2 = .solo ∧ soloRoleOf? a.1.soloRole = some .push then (checkPlannedStream a.1).toOption
    else none

def givenMic (h : Hub) (c : UserID) (p : Decoded JoinPayload) : Option Bool :=
  (h.attempt c p).bind fun a => a.1.micOn

def givenCam (h : Hub) (c : UserID) (p : Decoded JoinPayload) : Option Bool :=
  (h.attempt c p).bind fun a => a.1.camOn

/-- The client after the writes of a join. -/
def written (h : Hub) (c : UserID) (p : Decoded JoinPayload) (x : Client) : Client :=
  { x with
    soloRole := (h.givenRole c p).or x.soloRole
    plannedStreamID := (h.givenStream c p).getD x.plannedStreamID
    nickname := ((h.attempt c p).map fun a => a.1.nickname).getD x.nickname
    clientPlatform :=
      ((h.attempt c p).map fun a => normalizeClientPlatform a.1.clientPlatform).getD x.clientPlatform
    micOn := (h.givenMic c p).getD x.micOn
    camOn := (h.givenCam c p).getD x.camOn }

end Hub

/-- The end of `handleJoin`, once the fields are written. -/
def World.enterRoom (env : Env) (w : World) (c : UserID) (q : JoinPayload) (mode : RoomMode) :
    World × Option Err :=
  let (w, room) := w.getOrCreateRoom q.room mode
  match w.addClient env.order room c mode with
  | (w, some e) => (w.removeRoomIfEmpty room, some e)
  | (w, none) => (w.setClient c fun x => { x with room := some room }, none)

section Writes

variable {env : Env} {w : World} {h : Hub} {c : UserID} {p : Decoded JoinPayload}

theorem written_mild (h : Hub) (c : UserID) (p : Decoded JoinPayload) : Mild (h.written c p) := by
  constructor <;> intro x <;> rfl

theorem joinFields_eq (h : Hub) (c : UserID) (q : JoinPayload) :
    h.joinFields c q = h.setClient c fun x =>
      { x with
        nickname := q.nickname
        clientPlatform := normalizeClientPlatform q.clientPlatform
        micOn := q.micOn.getD x.micOn
        camOn := q.camOn.getD x.camOn } := by
  obtain ⟨room, nickname, mode, soloRole, streamID, token, micOn, camOn, platform⟩ := q
  cases micOn <;> cases camOn <;>
    simp [Hub.joinFields, Hub.writeNickname, Hub.writePlatform, Hub.writeMicOn, Hub.writeCamOn,
      Hub.setClient]

theorem joinSolo_eq (h : Hub) (c : UserID) (q : JoinPayload) :
    h.joinSolo c q = (h.setClient c fun x =>
      { x with
        soloRole := (Hub.soloRoleOf? q.soloRole).or x.soloRole
        plannedStreamID :=
          (if Hub.soloRoleOf? q.soloRole = some .push then (Hub.checkPlannedStream q).toOption
            else none).getD x.plannedStreamID }, Hub.soloRefusal q) := by
  unfold Hub.joinSolo Hub.soloRefusal
  cases Hub.soloRoleOf? q.soloRole with
  | none => simp [Hub.setClient]
  | some role =>
    cases role with
    | play => simp [Hub.setClient, Hub.writeSoloRole]
    | push =>
      cases Hub.checkPlannedStream q with
      | error e => simp [Hub.setClient, Hub.writeSoloRole, Except.toOption]
      | ok stream =>
        simp [Hub.setClient, Hub.writeSoloRole, Hub.writePlannedStream, Except.toOption]

/-- A join refused before it gets to the room. -/
theorem handleJoin_refused {e : Err} (he : w.hub.refusal c p = some e) :
    handleJoin env w c p = (w.setClient c (w.hub.written c p), some e) := by
  have hno : w.hub.attempt c p = none := by rw [Hub.attempt, if_neg (by simp [he])]
  unfold Hub.refusal at he
  cases hq : w.hub.checkJoin c p with
  | error e' =>
    have hoff : w.hub.offered c p = none := by rw [Hub.offered, hq]; rfl
    obtain rfl : e' = e := by simpa [hq] using he
    have hsame : w.hub.setClient c (w.hub.written c p) = w.hub := by
      have hid : w.hub.written c p = id := by
        funext x
        simp [Hub.written, Hub.givenRole, Hub.givenStream, Hub.givenMic, Hub.givenCam, hno, hoff]
      rw [hid, Hub.setClient_id]
    simp only [handleJoin, hq, World.setClient, hsame]
    rfl
  | ok a =>
    obtain ⟨q, mode⟩ := a
    have hoff : w.hub.offered c p = some (q, mode) := by rw [Hub.offered, hq]; rfl
    rw [hq] at he
    dsimp only at he
    split_ifs at he with hsolo
    have hwritten : w.hub.written c p = fun x => { x with
        soloRole := (Hub.soloRoleOf? q.soloRole).or x.soloRole
        plannedStreamID :=
          (if Hub.soloRoleOf? q.soloRole = some .push then (Hub.checkPlannedStream q).toOption
            else none).getD x.plannedStreamID } := by
      funext x
      simp [Hub.written, Hub.givenRole, Hub.givenStream, Hub.givenMic, Hub.givenCam, hno, hoff, hsolo]
    simp only [handleJoin, hq, if_pos hsolo, joinSolo_eq, he, hwritten]
    rfl

/-- A join that gets to the room. -/
theorem handleJoin_attempted {q : JoinPayload} {mode : RoomMode}
    (ha : w.hub.attempt c p = some (q, mode)) :
    handleJoin env w c p = (w.setClient c (w.hub.written c p)).enterRoom env c q mode := by
  have hr : w.hub.refusal c p = none := by
    by_contra hr
    rw [Hub.attempt, if_neg hr] at ha
    cases ha
  have hoff : w.hub.offered c p = some (q, mode) := by rwa [Hub.attempt, if_pos hr] at ha
  have hq : w.hub.checkJoin c p = .ok (q, mode) := by
    cases hq : w.hub.checkJoin c p with
    | error e => rw [Hub.offered, hq] at hoff; cases hoff
    | ok a => rw [Hub.offered, hq] at hoff; exact congrArg _ (Option.some.inj hoff)
  have hwritten : w.hub.setClient c (w.hub.written c p) =
      (if mode = .solo then w.hub.joinSolo c q else (w.hub, none)).1.joinFields c q := by
    rw [joinFields_eq]
    by_cases hsolo : mode = .solo
    · rw [if_pos hsolo, joinSolo_eq, Hub.setClient_setClient]
      congr 1
      funext x
      simp [Hub.written, Hub.givenRole, Hub.givenStream, Hub.givenMic, Hub.givenCam, ha, hoff, hsolo]
    · rw [if_neg hsolo]
      congr 1
      funext x
      simp [Hub.written, Hub.givenRole, Hub.givenStream, Hub.givenMic, Hub.givenCam, ha, hoff, hsolo]
  have hnone : (if mode = .solo then w.hub.joinSolo c q else (w.hub, none)).2 = none := by
    rw [Hub.refusal, hq] at hr
    dsimp only at hr
    split_ifs at hr ⊢ with hsolo
    · rw [joinSolo_eq, hr]
    · rfl
  unfold handleJoin
  rw [hq]
  dsimp only
  generalize (if mode = .solo then w.hub.joinSolo c q else (w.hub, none)) = a at hnone hwritten ⊢
  obtain ⟨h₁, e₁⟩ := a
  subst hnone
  dsimp only
  rw [World.setClient, hwritten]
  rfl

end Writes

/-! ### The room -/

namespace Hub

variable {h : Hub} {c : UserID} {p : Decoded JoinPayload} {r : RoomRef} {mode : RoomMode}
  {f g : Client → Client}

/-- A room nobody is in, and the table has an entry under its id. -/
def Vacant (h : Hub) (r : RoomRef) : Prop :=
  (h.room r).clients = [] ∧ (h.rooms.lookup (h.room r).id).isSome

theorem removeRoomIfEmpty_of_not_vacant (hr : ¬h.Vacant r) : h.removeRoomIfEmpty r = h := by
  unfold removeRoomIfEmpty
  split_ifs with hnil
  · have habsent : (h.room r).id ∉ h.rooms.entries.keys := by
      intro hmem
      exact hr ⟨hnil, AList.lookup_isSome.2 hmem⟩
    have hsame : h.rooms.erase (h.room r).id = h.rooms :=
      AList.ext (List.kerase_of_notMem_keys habsent)
    rw [hsame]
  · rfl

theorem removeRoomIfEmpty_of_vacant (hr : h.Vacant r) : (h.removeRoomIfEmpty r).rooms ≠ h.rooms := by
  intro hsame
  obtain ⟨hnil, hsome⟩ := hr
  rw [removeRoomIfEmpty, if_pos hnil] at hsame
  rw [← hsame, AList.lookup_erase] at hsome
  cases hsome

theorem getOrCreateRoom_setClient (h : Hub) (c : UserID) (f : Client → Client) (id : RoomID)
    (mode : RoomMode) : (h.setClient c f).getOrCreateRoom id mode =
      ((h.getOrCreateRoom id mode).1.setClient c f, (h.getOrCreateRoom id mode).2) := by
  unfold getOrCreateRoom
  rw [setClient_rooms]
  cases h.rooms.lookup id <;> rfl

/-- A new room takes anyone who asks for its mode. -/
theorem admission_created {id : RoomID} (hl : h.rooms.lookup id = none) :
    ((h.getOrCreateRoom id mode).1.setClient c f).admission (h.getOrCreateRoom id mode).2 c mode =
      none := by
  have hroom : ((h.getOrCreateRoom id mode).1.setClient c f).room (h.getOrCreateRoom id mode).2 =
      { id, mode } := by
    simp [getOrCreateRoom, hl]
  have hcount : ((h.getOrCreateRoom id mode).1.setClient c f).realMemberCount
      (h.getOrCreateRoom id mode).2 = 0 := by
    simp [realMemberCount, members, hroom]
  unfold admission hasPushMember
  rw [hcount, hroom]
  simp
  omega

/-- The checks of `addClient` read the joiner's nickname and, in a solo room, its role. -/
theorem admission_congr (hf : (f (h.client c)).isObserver = (g (h.client c)).isObserver)
    (hname : (f (h.client c)).nickname = (g (h.client c)).nickname)
    (hrole : mode = .solo → (f (h.client c)).soloRole = (g (h.client c)).soloRole) :
    (h.setClient c f).admission r c mode = (h.setClient c g).admission r c mode := by
  have hother : ∀ d, d ≠ c → (h.setClient c f).client d = (h.setClient c g).client d := by
    intro d hd
    rw [setClient_ne _ _ _ _ hd, setClient_ne _ _ _ _ hd]
  have hob : ∀ d, (h.setClient c f).isObserver d = (h.setClient c g).isObserver d := by
    intro d
    unfold isObserver
    by_cases hd : d = c
    · subst hd; simpa using hf
    · rw [hother d hd]
  have hnick : ∀ d, ((h.setClient c f).client d).nickname = ((h.setClient c g).client d).nickname := by
    intro d
    by_cases hd : d = c
    · subst hd; simpa using hname
    · rw [hother d hd]
  have hcount : (h.setClient c f).realMemberCount r = (h.setClient c g).realMemberCount r := by
    unfold realMemberCount members
    rw [setClient_room, setClient_room]
    simp only [hob]
  unfold admission
  rw [hcount, setClient_room, setClient_room]
  by_cases hmode : mode ≠ (h.room r).mode
  · rw [if_pos hmode, if_pos hmode]
  · rw [if_neg hmode, if_neg hmode]
    have hsolo : (h.room r).mode = .solo →
        ∀ d, ((h.setClient c f).client d).soloRole = ((h.setClient c g).client d).soloRole := by
      intro hsolo d
      by_cases hd : d = c
      · subst hd
        simpa using hrole ((not_not.1 hmode).trans hsolo)
      · rw [hother d hd]
    have hpush : ((h.room r).mode = .solo ∧ ((h.setClient c f).client c).soloRole = some .push ∧
        (h.setClient c f).hasPushMember r = true) ↔
        ((h.room r).mode = .solo ∧ ((h.setClient c g).client c).soloRole = some .push ∧
        (h.setClient c g).hasPushMember r = true) := by
      refine and_congr_right fun hs => ?_
      unfold hasPushMember
      simp only [hsolo hs, hob, setClient_room]
    simp only [hpush, hob, hnick]

/-- A join that is let in: it gets to the room and passes the checks there. -/
def Admits (h : Hub) (c : UserID) (p : Decoded JoinPayload) : Prop :=
  ∃ q mode, h.attempt c p = some (q, mode) ∧
    ((h.getOrCreateRoom q.room mode).1.setClient c (h.written c p)).admission
      (h.getOrCreateRoom q.room mode).2 c mode = none

/-- A join that gets to a vacant room of the table. -/
def FindsVacant (h : Hub) (c : UserID) (p : Decoded JoinPayload) : Prop :=
  ∃ q mode r, h.attempt c p = some (q, mode) ∧ h.rooms.lookup q.room = some r ∧ h.Vacant r

/-! What the checks of a join make of it does not depend on earlier writes. -/

section Rewritten

theorem checkJoin_setClient (hf : Mild f) : (h.setClient c f).checkJoin c p = h.checkJoin c p := by
  unfold checkJoin validateToken
  rw [setClient_same, hf.room, setClient_token]

theorem attempt_setClient (hf : Mild f) : (h.setClient c f).attempt c p = h.attempt c p := by
  unfold attempt refusal offered
  rw [checkJoin_setClient hf]

theorem refusal_setClient (hf : Mild f) : (h.setClient c f).refusal c p = h.refusal c p := by
  unfold refusal
  rw [checkJoin_setClient hf]

theorem givenRole_setClient (hf : Mild f) : (h.setClient c f).givenRole c p = h.givenRole c p := by
  unfold givenRole offered
  rw [checkJoin_setClient hf]

theorem givenStream_setClient (hf : Mild f) :
    (h.setClient c f).givenStream c p = h.givenStream c p := by
  unfold givenStream offered
  rw [checkJoin_setClient hf]

theorem written_setClient (hf : Mild f) : (h.setClient c f).written c p = h.written c p := by
  funext x
  unfold written givenMic givenCam
  rw [attempt_setClient hf, givenRole_setClient hf, givenStream_setClient hf]

theorem findsVacant_setClient (hf : Mild f) : (h.setClient c f).FindsVacant c p ↔ h.FindsVacant c p := by
  unfold FindsVacant
  rw [attempt_setClient hf]
  rfl

end Rewritten

/-- A join that gets to the room has its role written if the room is to be solo. -/
theorem givenRole_of_attempt {q : JoinPayload} (ha : h.attempt c p = some (q, .solo)) :
    h.givenRole c p ≠ none := by
  unfold attempt at ha
  split_ifs at ha with hr
  have hq : h.checkJoin c p = .ok (q, .solo) := by
    cases hq : h.checkJoin c p with
    | error e => rw [offered, hq] at ha; cases ha
    | ok a => rw [offered, hq] at ha; exact congrArg _ (Option.some.inj ha)
  rw [refusal, hq] at hr
  rw [givenRole, ha]
  cases hrole : soloRoleOf? q.soloRole with
  | none => simp [soloRefusal, hrole] at hr
  | some role => simp [hrole]

end Hub

section Entering

variable {env : Env} {w : World} {c : UserID} {p : Decoded JoinPayload} {q : JoinPayload}
  {mode : RoomMode} {f : Client → Client} {e : Err}

theorem enterRoom_setClient : (w.setClient c f).enterRoom env c q mode =
    match ((w.hub.getOrCreateRoom q.room mode).1.setClient c f).admission
        (w.hub.getOrCreateRoom q.room mode).2 c mode with
    | some e => ((w.setHub ((w.hub.getOrCreateRoom q.room mode).1.setClient c f)).removeRoomIfEmpty
        (w.hub.getOrCreateRoom q.room mode).2, some e)
    | none =>
      ((((w.setHub ((w.hub.getOrCreateRoom q.room mode).1.setClient c f)).addTo
        (w.hub.getOrCreateRoom q.room mode).2 c).announceJoin env.order
          (w.hub.getOrCreateRoom q.room mode).2 c).setClient c fun x =>
            { x with room := some (w.hub.getOrCreateRoom q.room mode).2 }, none) := by
  unfold enterRoom World.getOrCreateRoom
  rw [setClient_hub, Hub.getOrCreateRoom_setClient]
  dsimp only
  unfold addClient
  rw [setHub_hub]
  cases Hub.admission _ _ c mode <;> rfl

theorem refused_or_attempted (h : Hub) (c : UserID) (p : Decoded JoinPayload) :
    (∃ e, h.refusal c p = some e ∧ h.attempt c p = none) ∨
      ∃ q mode, h.refusal c p = none ∧ h.attempt c p = some (q, mode) := by
  cases hr : h.refusal c p with
  | some e => exact Or.inl ⟨e, rfl, by simp [Hub.attempt, hr]⟩
  | none =>
    cases hq : h.checkJoin c p with
    | error e => simp [Hub.refusal, hq] at hr
    | ok a => exact Or.inr ⟨a.1, a.2, rfl, by simp [Hub.attempt, hr, Hub.offered, hq, Except.toOption]⟩

theorem World.setClient_setClient (w : World) (c : UserID) (f g : Client → Client) :
    (w.setClient c f).setClient c g = w.setClient c (g ∘ f) := by
  rw [World.setClient, World.setClient, World.setClient, setHub_hub, Hub.setClient_setClient]
  rfl

theorem handleJoin_rewritten (hf : Mild f) (ha : w.hub.attempt c p = some (q, mode)) :
    handleJoin env (w.setClient c f) c p =
      (w.setClient c (w.hub.written c p ∘ f)).enterRoom env c q mode := by
  rw [handleJoin_attempted (w := w.setClient c f) ((Hub.attempt_setClient hf).trans ha),
    World.setClient_setClient, setClient_hub, Hub.written_setClient hf]

theorem enterRoom_verdict : ((w.setClient c f).enterRoom env c q mode).2 =
    ((w.hub.getOrCreateRoom q.room mode).1.setClient c f).admission
      (w.hub.getOrCreateRoom q.room mode).2 c mode := by
  rw [enterRoom_setClient]
  cases Hub.admission _ _ c mode <;> rfl

/-- The verdict on a join is the same whatever its client was written before. -/
theorem handleJoin_verdict (hf : Mild f) :
    (handleJoin env (w.setClient c f) c p).2 = (handleJoin env w c p).2 := by
  obtain ⟨e, hr, -⟩ | ⟨q, mode, -, ha⟩ := refused_or_attempted w.hub c p
  · rw [handleJoin_refused (w := w.setClient c f) (e := e) ((Hub.refusal_setClient hf).trans hr),
      handleJoin_refused hr]
  · rw [handleJoin_rewritten hf ha, handleJoin_attempted ha, enterRoom_verdict, enterRoom_verdict]
    have hw := written_mild w.hub c p
    refine Hub.admission_congr ?_ ?_ ?_
    · exact ((hw.comp hf).isObserver _).trans (hw.isObserver _).symm
    · simp [Hub.written, ha]
    · rintro rfl
      obtain ⟨role, hrole⟩ := Option.ne_none_iff_exists'.1 (Hub.givenRole_of_attempt ha)
      simp [Hub.written, hrole]

theorem handleJoin_none_iff : (handleJoin env w c p).2 = none ↔ w.hub.Admits c p := by
  obtain ⟨e, hr, hno⟩ | ⟨q, mode, -, ha⟩ := refused_or_attempted w.hub c p
  · rw [handleJoin_refused hr]
    refine ⟨nofun, ?_⟩
    rintro ⟨q, mode, ha, -⟩
    rw [hno] at ha
    cases ha
  · rw [handleJoin_attempted ha, enterRoom_verdict]
    refine ⟨fun hadm => ⟨q, mode, ha, hadm⟩, ?_⟩
    rintro ⟨q', mode', ha', hadm⟩
    rw [ha] at ha'
    obtain ⟨rfl, rfl⟩ := Prod.mk.inj (Option.some.inj ha')
    exact hadm

/-- The client of a join that is let in has the fields it was written, before and by
that join. -/
theorem handleJoin_client (hf : Mild f) (hok : (handleJoin env w c p).2 = none) :
    ∃ r, (handleJoin env (w.setClient c f) c p).1.hub.client c =
      { w.hub.written c p (f (w.hub.client c)) with room := some r } := by
  obtain ⟨q, mode, ha, -⟩ := handleJoin_none_iff.1 hok
  have hverdict : (handleJoin env (w.setClient c f) c p).2 = (handleJoin env w c p).2 :=
    handleJoin_verdict hf
  rw [hok, handleJoin_rewritten hf ha, enterRoom_verdict] at hverdict
  rw [handleJoin_rewritten hf ha, enterRoom_setClient, hverdict]
  refine ⟨(w.hub.getOrCreateRoom q.room mode).2, ?_⟩
  simp [World.addTo, Hub.addTo]

/-- A rejected join changes the fields it wrote and, in the table, drops a vacant room
that it found. -/
theorem handleJoin_rejected (hno : (handleJoin env w c p).2 ≠ none) :
    (¬w.hub.FindsVacant c p → (handleJoin env w c p).1 = w.setClient c (w.hub.written c p)) ∧
      (w.hub.FindsVacant c p → (handleJoin env w c p).1.hub.rooms ≠ w.hub.rooms) := by
  obtain ⟨e, hr, hna⟩ | ⟨q, mode, -, ha⟩ := refused_or_attempted w.hub c p
  · rw [handleJoin_refused hr]
    refine ⟨fun _ => rfl, ?_⟩
    rintro ⟨q, mode, r, ha, -⟩
    rw [hna] at ha
    cases ha
  · rw [handleJoin_attempted ha] at hno ⊢
    rw [enterRoom_verdict] at hno
    cases hl : w.hub.rooms.lookup q.room with
    | none => exact absurd (Hub.admission_created hl) hno
    | some r =>
      have hfound : w.hub.getOrCreateRoom q.room mode = (w.hub, r) := by
        simp [Hub.getOrCreateRoom, hl]
      obtain ⟨e, he⟩ := Option.ne_none_iff_exists'.1 hno
      have hrun : ((w.setClient c (w.hub.written c p)).enterRoom env c q mode).1 =
          (w.setClient c (w.hub.written c p)).removeRoomIfEmpty r := by
        rw [enterRoom_setClient, he, hfound]
        rfl
      rw [hrun]
      refine ⟨fun hvacant => ?_, ?_⟩
      · have hv : ¬(w.setClient c (w.hub.written c p)).hub.Vacant r := fun hv =>
          hvacant ⟨q, mode, r, ha, hl, hv⟩
        rw [World.removeRoomIfEmpty, Hub.removeRoomIfEmpty_of_not_vacant hv]
        rfl
      · rintro ⟨q', mode', r', ha', hl', hv⟩
        rw [ha] at ha'
        obtain ⟨rfl, rfl⟩ := Prod.mk.inj (Option.some.inj ha')
        rw [hl] at hl'
        obtain rfl := Option.some.inj hl'
        exact Hub.removeRoomIfEmpty_of_vacant (h := (w.setClient c (w.hub.written c p)).hub) hv

end Entering

/-! ### One attempt after another -/

/-- The world after the joins a client sends one after another. -/
def World.rejoin (w : World) (c : UserID) (ms : List (Env × Decoded JoinPayload)) : World :=
  ms.foldl (fun w m => (handleJoin m.1 w c m.2).1) w

/-- Each of the joins is rejected. -/
def World.Rejects : World → UserID → List (Env × Decoded JoinPayload) → Prop
  | _, _, [] => True
  | w, c, m :: ms => (handleJoin m.1 w c m.2).2 ≠ none ∧ Rejects (handleJoin m.1 w c m.2).1 c ms

/-- What others see of a client that is in a room. -/
def Client.shown (x : Client) : String × Bool × Bool × String × Option SoloRole × StreamID :=
  (x.nickname, x.micOn, x.camOn, x.clientPlatform, x.soloRole, x.plannedStreamID)

namespace Hub

/-- The value that the last of the joins to give one gives. -/
def lastGiven (given : Decoded JoinPayload → Option Bool) (ms : List (Env × Decoded JoinPayload)) :
    Bool → Bool :=
  ms.foldl fun b m => (given m.2).getD b

/-- Whatever the last join leaves out was left out by the rejected ones too, or given
as a new client has it. -/
structure Unmarked (h : Hub) (c : UserID) (ms : List (Env × Decoded JoinPayload))
    (p : Decoded JoinPayload) : Prop where
  mic : h.givenMic c p = none → lastGiven (h.givenMic c) ms true = true
  cam : h.givenCam c p = none → lastGiven (h.givenCam c) ms true = true
  role : h.givenRole c p = none → ∀ m ∈ ms, h.givenRole c m.2 = none
  stream : h.givenStream c p = none → ∀ m ∈ ms, h.givenStream c m.2 = none

/-- The client after the writes of the joins. -/
def residue (h : Hub) (c : UserID) (ms : List (Env × Decoded JoinPayload)) (x : Client) : Client :=
  ms.foldl (fun x m => h.written c m.2 x) x

section Residue

variable {h : Hub} {c : UserID} {ms : List (Env × Decoded JoinPayload)} {f : Client → Client}

theorem residue_cons (h : Hub) (c : UserID) (m : Env × Decoded JoinPayload)
    (ms : List (Env × Decoded JoinPayload)) :
    h.residue c (m :: ms) = h.residue c ms ∘ h.written c m.2 := rfl

theorem residue_mild (h : Hub) (c : UserID) (ms : List (Env × Decoded JoinPayload)) :
    Mild (h.residue c ms) := by
  induction ms with
  | nil => exact mild_id
  | cons m ms ih =>
    rw [residue_cons]
    exact ih.comp (written_mild h c m.2)

theorem residue_setClient (hf : Mild f) : (h.setClient c f).residue c ms = h.residue c ms := by
  induction ms with
  | nil => rfl
  | cons m ms ih => rw [residue_cons, residue_cons, ih, written_setClient hf]

theorem residue_micOn (x : Client) :
    (h.residue c ms x).micOn = lastGiven (h.givenMic c) ms x.micOn := by
  induction ms generalizing x with
  | nil => rfl
  | cons m ms ih => exact ih (h.written c m.2 x)

theorem residue_camOn (x : Client) :
    (h.residue c ms x).camOn = lastGiven (h.givenCam c) ms x.camOn := by
  induction ms generalizing x with
  | nil => rfl
  | cons m ms ih => exact ih (h.written c m.2 x)

theorem residue_role (x : Client) : (h.residue c ms x).soloRole = none ↔
    x.soloRole = none ∧ ∀ m ∈ ms, h.givenRole c m.2 = none := by
  induction ms generalizing x with
  | nil => simp [residue]
  | cons m ms ih =>
    rw [residue_cons, Function.comp_apply, ih]
    simp only [written, Option.or_eq_none_iff, List.forall_mem_cons]
    tauto

theorem givenStream_ne_empty (p : Decoded JoinPayload) : h.givenStream c p ≠ some "" := by
  unfold givenStream
  intro hs
  obtain ⟨a, -, ha⟩ := Option.bind_eq_some_iff.1 hs
  split_ifs at ha
  unfold checkPlannedStream at ha
  dsimp only at ha
  split_ifs at ha with h1 h2
  · cases ha
  · cases ha
  · exact h1 (Option.some.inj ha)

theorem residue_stream (x : Client) : (h.residue c ms x).plannedStreamID = "" ↔
    x.plannedStreamID = "" ∧ ∀ m ∈ ms, h.givenStream c m.2 = none := by
  induction ms generalizing x with
  | nil => simp [residue]
  | cons m ms ih =>
    have hgiven : (h.givenStream c m.2).getD x.plannedStreamID = "" ↔
        h.givenStream c m.2 = none ∧ x.plannedStreamID = "" := by
      have hne := givenStream_ne_empty (h := h) (c := c) m.2
      cases hs : h.givenStream c m.2 with
      | none => simp
      | some s =>
        rw [hs] at hne
        simpa using hne
    rw [residue_cons, Function.comp_apply, ih]
    simp only [written, hgiven, List.forall_mem_cons]
    tauto

end Residue

end Hub

section Attempts

variable {w : World} {c : UserID} {ms : List (Env × Decoded JoinPayload)}

theorem World.Rejects.take (hr : w.Rejects c ms) (n : ℕ) : w.Rejects c (ms.take n) := by
  induction ms generalizing w n with
  | nil => simpa using hr
  | cons m ms ih =>
    cases n with
    | zero => trivial
    | succ n => exact ⟨hr.1, ih hr.2 n⟩

/-- Rejected joins that find no vacant room leave their writes and nothing else. -/
theorem rejoin_eq (hr : w.Rejects c ms) (hv : ∀ m ∈ ms, ¬w.hub.FindsVacant c m.2) :
    w.rejoin c ms = w.setClient c (w.hub.residue c ms) := by
  induction ms generalizing w with
  | nil => exact (congrArg w.setHub (w.hub.setClient_id c)).symm
  | cons m ms ih =>
    obtain ⟨hno, hrest⟩ := hr
    have hfirst := (handleJoin_rejected hno).1 (hv m List.mem_cons_self)
    have hmild := written_mild w.hub c m.2
    have hrun : w.rejoin c (m :: ms) = (handleJoin m.1 w c m.2).1.rejoin c ms := rfl
    rw [hrun]
    rw [hfirst] at hrest ⊢
    rw [ih hrest, World.setClient_setClient, setClient_hub, Hub.residue_setClient hmild]
    · rfl
    · intro m' hm'
      rw [setClient_hub, Hub.findsVacant_setClient hmild]
      exact hv m' (List.mem_cons_of_mem _ hm')

theorem rejoin_rooms (hr : w.Rejects c ms) :
    (∀ n, (w.rejoin c (ms.take n)).hub.rooms = w.hub.rooms) ↔
      ∀ m ∈ ms, ¬w.hub.FindsVacant c m.2 := by
  constructor
  · induction ms generalizing w with
    | nil => simp
    | cons m ms ih =>
      intro hsame
      obtain ⟨hno, hrest⟩ := hr
      obtain ⟨hkept, hdropped⟩ := handleJoin_rejected hno
      have hfirst : ¬w.hub.FindsVacant c m.2 := fun hv => hdropped hv (hsame 1)
      have hmild := written_mild w.hub c m.2
      rw [hkept hfirst] at hrest
      have htail := ih hrest fun n => by
        have h := hsame (n + 1)
        have hrun : w.rejoin c ((m :: ms).take (n + 1)) =
            (handleJoin m.1 w c m.2).1.rejoin c (ms.take n) := rfl
        rw [hrun, hkept hfirst] at h
        exact h
      refine List.forall_mem_cons.2 ⟨hfirst, fun m' hm' hv => htail m' hm' ?_⟩
      rwa [setClient_hub, Hub.findsVacant_setClient hmild]
  · intro hv n
    rw [rejoin_eq (hr.take n) fun m hm => hv m (List.mem_of_mem_take hm)]
    rfl

theorem getD_eq_iff {α : Type} {o : Option α} {a b : α} :
    o.getD a = o.getD b ↔ (o = none → a = b) := by
  cases o <;> simp

theorem or_none_eq_iff {α : Type} {o o' : Option α} : o.or o' = o.or none ↔ (o = none → o' = none) := by
  cases o <;> simp

/-- The fields of a join that is let in after rejected ones, compared with those it
has without them. -/
theorem shown_eq_iff {h : Hub} {p : Decoded JoinPayload} {q : JoinPayload} {mode : RoomMode}
    (ha : h.attempt c p = some (q, mode)) :
    (h.written c p (h.residue c ms newClient)).shown = (h.written c p newClient).shown ↔
      h.Unmarked c ms p := by
  have hmic : (h.residue c ms newClient).micOn = Hub.lastGiven (h.givenMic c) ms newClient.micOn :=
    h.residue_micOn newClient
  have hcam : (h.residue c ms newClient).camOn = Hub.lastGiven (h.givenCam c) ms newClient.camOn :=
    h.residue_camOn newClient
  have hrole : (h.residue c ms newClient).soloRole = none ↔ ∀ m ∈ ms, h.givenRole c m.2 = none :=
    (h.residue_role newClient).trans (and_iff_right rfl)
  have hstream : (h.residue c ms newClient).plannedStreamID = "" ↔
      ∀ m ∈ ms, h.givenStream c m.2 = none :=
    (h.residue_stream newClient).trans (and_iff_right rfl)
  have hfields : (h.written c p (h.residue c ms newClient)).shown =
      (h.written c p newClient).shown ↔
      (h.givenMic c p = none → (h.residue c ms newClient).micOn = true) ∧
      (h.givenCam c p = none → (h.residue c ms newClient).camOn = true) ∧
      (h.givenRole c p = none → (h.residue c ms newClient).soloRole = none) ∧
      (h.givenStream c p = none → (h.residue c ms newClient).plannedStreamID = "") := by
    simp only [Client.shown, Hub.written, ha, Option.map_some, Option.getD_some, Prod.mk.injEq,
      true_and, newClient, getD_eq_iff, or_none_eq_iff]
  rw [hfields, hmic, hcam, hrole, hstream]
  exact ⟨fun ⟨h1, h2, h3, h4⟩ => ⟨h1, h2, h3, h4⟩, fun ⟨h1, h2, h3, h4⟩ => ⟨h1, h2, h3, h4⟩⟩

/-- A fresh client's rejected joins leave no trace, in the table, in the verdict on the
next join or in what others see of the client once it is let in, exactly if none of
them found a vacant room and the join that is let in gives what they gave. -/
theorem rejected_joins_leave_no_trace_iff (hfresh : w.hub.client c = newClient)
    (hr : w.Rejects c ms) (env : Env) (p : Decoded JoinPayload) :
    ((∀ n, (w.rejoin c (ms.take n)).hub.rooms = w.hub.rooms) ∧
      (handleJoin env (w.rejoin c ms) c p).2 = (handleJoin env w c p).2 ∧
      ((handleJoin env w c p).2 = none →
        ((handleJoin env (w.rejoin c ms) c p).1.hub.client c).shown =
          ((handleJoin env w c p).1.hub.client c).shown)) ↔
    (∀ m ∈ ms, ¬w.hub.FindsVacant c m.2) ∧ (w.hub.Admits c p → w.hub.Unmarked c ms p) := by
  rw [rejoin_rooms hr]
  refine and_congr_right fun hv => ?_
  have hmild := w.hub.residue_mild c ms
  rw [rejoin_eq hr hv, and_iff_right (handleJoin_verdict hmild), handleJoin_none_iff]
  refine forall_congr' fun hadm => ?_
  have hok : (handleJoin env w c p).2 = none := handleJoin_none_iff.2 hadm
  obtain ⟨q, mode, ha, -⟩ := hadm
  obtain ⟨r, hafter⟩ := handleJoin_client hmild hok
  obtain ⟨r', hplain⟩ := handleJoin_client mild_id hok
  have hid : w.setClient c id = w := congrArg w.setHub (w.hub.setClient_id c)
  rw [hid] at hplain
  rw [hafter, hplain, hfresh, ← shown_eq_iff ha]
  rfl

end Attempts

/-- In room `r` somebody is called `n`; the newcomer asks for that name with its
microphone off, and is turned away. -/
theorem rejected_join_mutes :
    let w := (server "").run [⟨.connect "b", {}⟩,
      ⟨.receive "b" ⟨"", .join (.ok { room := "r", nickname := "n" })⟩, {}⟩, ⟨.connect "c", {}⟩]
    let m : Env × Decoded JoinPayload := ({}, .ok { room := "r", nickname := "n", micOn := some false })
    let p : Decoded JoinPayload := .ok { room := "r", nickname := "c" }
    w.Rejects "c" [m] ∧ (handleJoin {} w "c" p).2 = none ∧
      ((handleJoin {} w "c" p).1.hub.client "c").micOn = true ∧
      ((handleJoin {} (w.rejoin "c" [m]) "c" p).1.hub.client "c").micOn = false :=
  ⟨⟨by decide +kernel, trivial⟩, by decide +kernel, by decide +kernel, by decide +kernel⟩

/-- The condition, at that attempt followed by a join that says what its microphone is. -/
theorem rejected_join_overwritten :
    let w := (server "").run [⟨.connect "b", {}⟩,
      ⟨.receive "b" ⟨"", .join (.ok { room := "r", nickname := "n" })⟩, {}⟩, ⟨.connect "c", {}⟩]
    let ms : List (Env × Decoded JoinPayload) :=
      [({}, .ok { room := "r", nickname := "n", micOn := some false })]
    let p : Decoded JoinPayload := .ok { room := "r", nickname := "c", micOn := some true }
    ((∀ n, (w.rejoin "c" (ms.take n)).hub.rooms = w.hub.rooms) ∧
      (handleJoin {} (w.rejoin "c" ms) "c" p).2 = (handleJoin {} w "c" p).2 ∧
      ((handleJoin {} w "c" p).2 = none →
        ((handleJoin {} (w.rejoin "c" ms) "c" p).1.hub.client "c").shown =
          ((handleJoin {} w "c" p).1.hub.client "c").shown)) ↔
    (∀ m ∈ ms, ¬w.hub.FindsVacant "c" m.2) ∧ (w.hub.Admits "c" p → w.hub.Unmarked "c" ms p) :=
  rejected_joins_leave_no_trace_iff rfl (by exact ⟨by decide +kernel, trivial⟩) _ _

end Meetkit
