import Meetkit.Model.Entry
import Meetkit.Proofs.Runs
import Meetkit.Proofs.Tenants

/-! The home page's check and the join behind it. The rules are written twice; the
check leaves out the capacity of a call room and nothing else. -/

namespace Meetkit

open World

section Admission

variable {h : Hub} {r : RoomRef} {c : UserID} {mode : RoomMode}

theorem admission_eq_none : h.admission r c mode = none ↔
    mode = (h.room r).mode ∧ ¬(0 < (h.room r).capacity ∧ (h.room r).capacity ≤ h.realMemberCount r) ∧
      ¬((h.room r).mode = .solo ∧ (h.client c).soloRole = some .push ∧ h.hasPushMember r = true) ∧
      ∀ d ∈ (h.room r).clients, h.isObserver d = false →
        (h.client d).nickname ≠ (h.client c).nickname := by
  unfold Hub.admission
  split_ifs with h1 h2 h3 h4
  · simp [h1]
  · simp [h2]
  · simp [h3]
  · simp only [List.any_eq_true, Bool.and_eq_true, Bool.not_eq_true', decide_eq_true_eq] at h4
    obtain ⟨d, hd, hob, hname⟩ := h4
    refine iff_of_false (by simp) fun hall => hall.2.2.2 d hd hob hname
  · refine iff_of_true rfl ⟨not_not.1 h1, h2, h3, fun d hd hob hname => h4 ?_⟩
    simp only [List.any_eq_true, Bool.and_eq_true, Bool.not_eq_true', decide_eq_true_eq]
    exact ⟨d, hd, hob, hname⟩

theorem admission_empty (hmode : (h.room r).mode = mode) (hnil : (h.room r).clients = []) :
    h.admission r c mode = none := by
  refine admission_eq_none.2 ⟨hmode.symm, ?_, ?_, ?_⟩
  · rintro ⟨hpos, hle⟩
    rw [Hub.realMemberCount, Hub.members, hnil] at hle
    simp only [List.filter_nil, List.length_nil] at hle
    omega
  · simp [Hub.hasPushMember, hnil]
  · simp [hnil]

theorem admission_setClient {f : Client → Client} (hout : c ∉ (h.room r).clients)
    (hf : (f (h.client c)).isObserver = (h.client c).isObserver) :
    (h.setClient c f).admission r c mode = none ↔
      mode = (h.room r).mode ∧
        ¬(0 < (h.room r).capacity ∧ (h.room r).capacity ≤ h.realMemberCount r) ∧
        ¬((h.room r).mode = .solo ∧ (f (h.client c)).soloRole = some .push ∧
          h.hasPushMember r = true) ∧
        ∀ d ∈ (h.room r).clients, h.isObserver d = false →
          (h.client d).nickname ≠ (f (h.client c)).nickname := by
  have hob : ∀ d, (h.setClient c f).isObserver d = h.isObserver d := Hub.isObserver_setClient hf
  have hother : ∀ d ∈ (h.room r).clients, (h.setClient c f).client d = h.client d := fun d hd =>
    Hub.setClient_ne _ _ _ _ (by rintro rfl; exact hout hd)
  have hcount : (h.setClient c f).realMemberCount r = h.realMemberCount r := by
    simp only [Hub.realMemberCount, Hub.members, Hub.setClient_room, hob]
  have hpush : (h.setClient c f).hasPushMember r = h.hasPushMember r := by
    rw [Bool.eq_iff_iff, Hub.hasPushMember, Hub.hasPushMember, List.any_eq_true, List.any_eq_true,
      Hub.setClient_room]
    refine exists_congr fun d => and_congr_right fun hd => ?_
    rw [hob, hother d hd]
  rw [admission_eq_none, hcount, hpush, Hub.setClient_room, Hub.setClient_same]
  refine and_congr_right fun _ => and_congr_right fun _ => and_congr_right fun _ => ?_
  refine forall₂_congr fun d hd => ?_
  rw [hob, hother d hd]

end Admission

/-! ### The join behind a form -/

/-- A join message that carries what the form said. -/
structure JoinPayload.Carries (p : JoinPayload) (biz room nickname streamID token : String) :
    Prop where
  room : p.room = Text.trimSpace room
  nickname : p.nickname = Text.trimSpace nickname
  streamID : p.streamID = Text.trimSpace streamID
  token : p.token = token
  mode : p.mode = (bizToMode biz).text
  push : biz = "push" → p.soloRole = "push"
  play : biz = "play" → p.soloRole = "play"

section Join

variable {env : Env} {w : World} {c : UserID} {p : JoinPayload}

theorem ofText_text (mode : RoomMode) : RoomMode.ofText? mode.text = some mode := by
  cases mode <;> rfl

theorem checkJoin_carried {h : Hub} {biz room nickname streamID token : String}
    (hroom : (h.client c).room = none) (hp : p.Carries biz room nickname streamID token)
    (htoken : h.validateToken token = none) (hid : Text.trimSpace room ≠ "")
    (hnick : Text.trimSpace nickname ≠ "") :
    h.checkJoin c (.ok p) = .ok (p, bizToMode biz) := by
  have hmode : p.mode ≠ "" := by
    rw [hp.mode]; cases bizToMode biz <;> simp [RoomMode.text]
  have hid' : p.room ≠ "" := hp.room ▸ hid
  have hnick' : p.nickname ≠ "" := hp.nickname ▸ hnick
  have hof : RoomMode.ofText? p.mode = some (bizToMode biz) := by rw [hp.mode, ofText_text]
  simp only [Hub.checkJoin, hroom, Option.isSome_none, Bool.false_eq_true, if_false, hp.token,
    htoken, if_neg hid', if_neg hnick', if_neg hmode, hof]

theorem joinFields_client (h : Hub) (c : UserID) (p : JoinPayload) :
    ((h.joinFields c p).client c).nickname = p.nickname ∧
      ((h.joinFields c p).client c).soloRole = (h.client c).soloRole := by
  obtain ⟨room, nickname, mode, soloRole, streamID, token, micOn, camOn, platform⟩ := p
  cases micOn <;> cases camOn <;>
    simp [Hub.joinFields, Hub.writeNickname, Hub.writePlatform, Hub.writeMicOn, Hub.writeCamOn]

theorem joinSolo_carried {h : Hub} {biz room nickname streamID token : String}
    (hp : p.Carries biz room nickname streamID token)
    (hbiz : biz = "meeting" ∨ biz = "call" ∨ biz = "push" ∨ biz = "play")
    (hsafe : biz = "push" → isSafeStreamName (Text.trimSpace streamID) = true) :
    ∃ g, Mild g ∧ (if bizToMode biz = .solo then h.joinSolo c p else (h, none)) =
      (h.setClient c g, none) ∧ (biz = "play" → (g (h.client c)).soloRole = some .play) := by
  have hrole : ∀ role, Mild fun x : Client => { x with soloRole := some role } := fun role => by
    constructor <;> intro x <;> rfl
  have hplan : ∀ s, Mild fun x : Client => { x with plannedStreamID := s } := fun s => by
    constructor <;> intro x <;> rfl
  rcases hbiz with rfl | rfl | rfl | rfl
  · exact ⟨id, mild_id, by rw [if_neg (by decide), h.setClient_id], by simp⟩
  · exact ⟨id, mild_id, by rw [if_neg (by decide), h.setClient_id], by simp⟩
  · have hsafe' := hsafe rfl
    have hne : Text.trimSpace streamID ≠ "" := by
      intro hnil
      rw [hnil] at hsafe'
      simp [isSafeStreamName] at hsafe'
    have hplanned : Hub.checkPlannedStream p = .ok (Text.trimSpace streamID) := by
      simp only [Hub.checkPlannedStream, hp.streamID, Text.trimSpace_trimSpace, if_neg hne, hsafe',
        Bool.not_true, Bool.false_eq_true, if_false]
    refine ⟨_, (hplan (Text.trimSpace streamID)).comp (hrole .push), ?_, by simp⟩
    rw [if_pos (by decide), Hub.joinSolo, hp.push rfl]
    simp only [Hub.soloRoleOf?, hplanned, Hub.writePlannedStream, Hub.writeSoloRole,
      Hub.setClient_setClient]
  · refine ⟨_, hrole .play, ?_, fun _ => rfl⟩
    rw [if_pos (by decide), Hub.joinSolo, hp.play rfl]
    rfl

theorem handleJoin_carried (env : Env) {biz room nickname streamID token : String}
    (hroom : (w.hub.client c).room = none) (hp : p.Carries biz room nickname streamID token)
    (hbiz : biz = "meeting" ∨ biz = "call" ∨ biz = "push" ∨ biz = "play")
    (hsafe : biz = "push" → isSafeStreamName (Text.trimSpace streamID) = true)
    (htoken : w.hub.validateToken token = none) (hid : Text.trimSpace room ≠ "")
    (hnick : Text.trimSpace nickname ≠ "") :
    ∃ f, Mild f ∧ (f (w.hub.client c)).nickname = Text.trimSpace nickname ∧
      (biz = "play" → (f (w.hub.client c)).soloRole = some .play) ∧
      (handleJoin env w c (.ok p)).2 =
        ((w.hub.setClient c f).getOrCreateRoom (Text.trimSpace room) (bizToMode biz)).1.admission
          ((w.hub.setClient c f).getOrCreateRoom (Text.trimSpace room) (bizToMode biz)).2 c
          (bizToMode biz) := by
  obtain ⟨g, hg, hsolo, hplay⟩ := joinSolo_carried (c := c) (h := w.hub) hp hbiz hsafe
  obtain ⟨f, hf, hfields⟩ := joinFields_mild c p
  have hwrites := joinFields_client (w.hub.setClient c g) c p
  rw [hfields, Hub.setClient_same, Hub.setClient_same] at hwrites
  refine ⟨f ∘ g, hf.comp hg, hwrites.1.trans hp.nickname, ?_, ?_⟩
  · intro hb
    exact hwrites.2.trans (hplay hb)
  · unfold handleJoin
    rw [checkJoin_carried hroom hp htoken hid hnick]
    dsimp only
    rw [hsolo]
    simp only [hfields, Hub.setClient_setClient, World.getOrCreateRoom, setHub_hub, hp.room,
      World.addClient]
    cases ((w.hub.setClient c (f ∘ g)).getOrCreateRoom (Text.trimSpace room)
      (bizToMode biz)).1.admission ((w.hub.setClient c (f ∘ g)).getOrCreateRoom
        (Text.trimSpace room) (bizToMode biz)).2 c (bizToMode biz) <;> rfl

end Join

/-! ### What a passed check has established -/

section Check

variable {h : Hub} {biz room nickname streamID token : String} {r : RoomRef}

theorem checkEntry_token (hcheck : h.checkEntry biz room nickname streamID token = none) :
    h.validateToken token = none ∧ Text.trimSpace room ≠ "" := by
  unfold Hub.checkEntry at hcheck
  split at hcheck
  · cases hcheck
  · rename_i htoken
    refine ⟨htoken, fun hid => ?_⟩
    simp [hid] at hcheck

/-- The room of the form, when somebody is in it: its mode is the form's, nobody in
it has the nickname, and a publisher finds no other. -/
theorem checkEntry_room (hcheck : h.checkEntry biz room nickname streamID token = none)
    (hbiz : biz = "meeting" ∨ biz = "call" ∨ biz = "push" ∨ biz = "play")
    (hnick : Text.trimSpace nickname ≠ "")
    (hr : h.getRoom (Text.trimSpace room) = some r) (hne : (h.room r).clients ≠ []) :
    (h.room r).mode = bizToMode biz ∧ h.hasNickname r (Text.trimSpace nickname) = false ∧
      (biz = "push" → h.hasPushMember r = false) := by
  have hsize : 0 < h.size r := List.length_pos_iff.2 hne
  obtain ⟨htoken, hid⟩ := checkEntry_token hcheck
  have htrim : Text.trimSpace biz = biz := by
    rcases hbiz with rfl | rfl | rfl | rfl <;> decide +kernel
  simp only [Hub.checkEntry, htoken, htrim, if_neg hid, hr] at hcheck
  by_cases hplay : biz = "play"
  · subst hplay
    rw [if_neg (by decide), if_pos rfl] at hcheck
    simp only [Hub.checkPlayer] at hcheck
    split_ifs at hcheck with h1 h2 h3
    refine ⟨?_, by simpa using h3, by simp⟩
    by_contra hmode
    exact h1 (Or.inr hmode)
  · have hentrant : biz = "meeting" ∨ biz = "call" ∨ biz = "push" := by
      rcases hbiz with hb | hb | hb | hb
      · exact Or.inl hb
      · exact Or.inr (Or.inl hb)
      · exact Or.inr (Or.inr hb)
      · exact absurd hb hplay
    rw [if_pos hentrant] at hcheck
    simp only [Hub.checkEntrant] at hcheck
    split_ifs at hcheck with h1 h2 h3 h4
    refine ⟨?_, ?_, ?_⟩
    · by_contra hmode
      exact h1 ⟨hsize, hmode⟩
    · by_contra hname
      exact h3 ⟨hsize, hnick, by simpa using hname⟩
    · intro hpush
      by_contra hmem
      exact h2 ⟨hsize, hpush, by simpa using hmem⟩

end Check

def Hub.CallFull (h : Hub) (biz room : String) : Prop :=
  biz = "call" ∧ ∃ r, h.getRoom (Text.trimSpace room) = some r ∧ 2 ≤ (h.members r).length

/-- A check that passed is honoured by the join unless the form asks for a call
that has its two parties. -/
theorem passed_check_honoured_iff (serverToken : String) (is : List Input) (env : Env) (c : UserID)
    (biz room nickname streamID token : String) (p : JoinPayload)
    (hbiz : biz = "meeting" ∨ biz = "call" ∨ biz = "push" ∨ biz = "play")
    (hnick : Text.trimSpace nickname ≠ "")
    (hsafe : biz = "push" → isSafeStreamName (Text.trimSpace streamID) = true)
    (hp : p.Carries biz room nickname streamID token)
    (hc : (((server serverToken).run is).hub.client c).room = none)
    (hcheck : ((server serverToken).run is).hub.checkEntry biz room nickname streamID token = none) :
    (handleJoin env ((server serverToken).run is) c (.ok p)).2 = none ↔
      ¬((server serverToken).run is).hub.CallFull biz room := by
  have hs := server_settled serverToken is
  generalize (server serverToken).run is = w at hs hc hcheck ⊢
  obtain ⟨htoken, hid⟩ := checkEntry_token hcheck
  obtain ⟨f, hf, hname, hplay, hjoin⟩ :=
    handleJoin_carried env hc hp hbiz hsafe htoken hid hnick
  rw [hjoin]
  cases hr : w.hub.getRoom (Text.trimSpace room) with
  | none =>
    have hnew : (w.hub.setClient c f).rooms.lookup (Text.trimSpace room) = none := hr
    refine iff_of_true ?_ ?_
    · simp only [Hub.getOrCreateRoom, hnew]
      exact admission_empty (by simp) (by simp)
    · rintro ⟨-, r, hr', -⟩
      rw [hr] at hr'
      cases hr'
  | some r =>
    have hold : (w.hub.setClient c f).rooms.lookup (Text.trimSpace room) = some r := hr
    have hmembers := hs.tenanted _ r hr
    have hne : (w.hub.room r).clients ≠ [] := fun hnil => hmembers (by simp [Hub.members, hnil])
    obtain ⟨hmode, hfree, hpush⟩ := checkEntry_room hcheck hbiz hnick hr hne
    simp only [Hub.getOrCreateRoom, hold]
    rw [admission_setClient (hs.sound.hub.not_member_of_room hc r) (hf.isObserver _)]
    have hcapacity : (0 < (w.hub.room r).capacity ∧
        (w.hub.room r).capacity ≤ w.hub.realMemberCount r) ↔ w.hub.CallFull biz room := by
      unfold Room.capacity Hub.realMemberCount Hub.CallFull
      rw [hmode]
      rcases hbiz with rfl | rfl | rfl | rfl <;> simp [bizToMode, hr]
    rw [hcapacity]
    refine ⟨fun hall => hall.2.1, fun hroom => ⟨hmode.symm, hroom, ?_, ?_⟩⟩
    · rintro ⟨hsolo, hrole, hmem⟩
      rw [hmode] at hsolo
      rcases hbiz with rfl | rfl | rfl | rfl
      · cases hsolo
      · cases hsolo
      · rw [hpush rfl] at hmem; cases hmem
      · rw [hplay rfl] at hrole; cases hrole
    · intro d hd _ heq
      have hused : w.hub.hasNickname r (Text.trimSpace nickname) = true := by
        refine List.any_eq_true.2 ⟨d, hd, ?_⟩
        simpa using heq.trans hname
      rw [hfree] at hused
      cases hused

theorem meeting_check_honoured :
    (handleJoin {} ((server "").run [.connect "alice", .join "alice" "1001"]) "bob"
      (.ok { room := "1001", nickname := "Bob", mode := "meeting" })).2 = none := by
  refine (passed_check_honoured_iff "" [.connect "alice", .join "alice" "1001"] {} "bob" "meeting"
    " 1001" "Bob " "" "" { room := "1001", nickname := "Bob", mode := "meeting" } (Or.inl rfl)
    (by decide +kernel) (by simp) ?_ (by decide +kernel) (by decide +kernel)).2 ?_
  · constructor <;> decide +kernel
  · rintro ⟨hb, -⟩
    simp at hb

/-- The check lets Carol through to a call that is full. -/
theorem full_call_passes_check :
    let w := (server "").run
      [.connect "alice", .connect "bob", .joinCall "alice" "1001", .joinCall "bob" "1001"]
    (w.hub.client "carol").room = none ∧ w.hub.checkEntry "call" "1001" "Carol" "" "" = none ∧
      (handleJoin {} w "carol" (.ok { room := "1001", nickname := "Carol", mode := "call" })).2 =
        some (.text "room is full") := by
  decide +kernel

end Meetkit
