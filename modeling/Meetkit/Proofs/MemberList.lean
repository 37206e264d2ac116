import Meetkit.Model.Stats
import Meetkit.Proofs.Deeds
import Meetkit.Proofs.Runs
import Meetkit.Proofs.Turn

/-! Which stream the online flag of the member list is about. A row is looked up in ZLM's
media list by its room id and its stream id joined with a slash, so the flag is about this
stream alone as long as neither has a slash. Generated stream ids and those of the solo
mode have none; room ids and the ids of stream-started are taken as they come. -/

namespace Meetkit

open World

/-! ### What is listed -/

namespace Hub

variable {h : Hub} {ord : MapOrder} {online : List String} {media : List (RoomID × StreamID)}
  {r : RoomRef} {c : UserID} {R : RoomID} {S : StreamID} {row : MemberRow}

/-- `S` is in a row of the member `c` of `r`. -/
def Shows (h : Hub) (r : RoomRef) (c : UserID) (S : StreamID) : Prop :=
  if (h.room r).mode ≠ .solo then ∃ kind, (h.client c).streams.lookup kind = some S
  else match (h.client c).soloRole with
    | some .push => (((h.client c).streams.lookup "solo").filter (· ≠ "")).getD
        (h.client c).plannedStreamID = S
    | some .play => ∃ key p, (h.client c).pulling.lookup key = some p ∧ p.streamID = S
    | none => False

/-- A member of a room `R` has a row for the stream `S`. -/
def Lists (h : Hub) (R : RoomID) (S : StreamID) : Prop :=
  S ≠ "" ∧ ∃ id r c, h.rooms.lookup id = some r ∧ (h.room r).id = R ∧ c ∈ h.members r ∧ h.Shows r c S

/-- A row with a stream says whether its key is among those of the media list. -/
theorem mem_memberRows (hrow : row ∈ h.memberRows ord online r c) (hS : row.streamID ≠ "") :
    row.roomID = (h.room r).id ∧ h.Shows r c row.streamID ∧
      row.streamOnline = streamOnline online row.roomID row.streamID := by
  unfold memberRows at hrow
  unfold Shows
  dsimp only at hrow
  by_cases hmode : (h.room r).mode = .solo
  · rw [if_neg (not_not_intro hmode)] at hrow ⊢
    cases hrole : (h.client c).soloRole with
    | none => rw [hrole] at hrow; cases hrow
    | some role =>
      rw [hrole] at hrow
      cases role with
      | push =>
        rw [List.mem_singleton.1 hrow]
        exact ⟨rfl, (soloPublishStreamID_eq _ _ _).symm, rfl⟩
      | play =>
        dsimp only at hrow
        split_ifs at hrow
        · exact absurd (by rw [List.mem_singleton.1 hrow]) hS
        · obtain ⟨p, hp, rfl⟩ := List.mem_map.1 hrow
          obtain ⟨e, he, rfl⟩ := List.mem_map.1 hp
          exact ⟨rfl, ⟨e.1, e.2, GoMap.mem_range.1 he, rfl⟩, rfl⟩
  · rw [if_pos hmode] at hrow ⊢
    obtain ⟨s, hs, rfl⟩ := List.mem_map.1 hrow
    obtain ⟨e, he, rfl⟩ := List.mem_map.1 hs
    exact ⟨rfl, ⟨e.1, GoMap.mem_range.1 he⟩, rfl⟩

theorem exists_memberRow (hS : h.Shows r c S) (ord : MapOrder) (online : List String) :
    ∃ row ∈ h.memberRows ord online r c, row.roomID = (h.room r).id ∧ row.streamID = S := by
  unfold Shows at hS
  unfold memberRows
  dsimp only
  by_cases hmode : (h.room r).mode = .solo
  · rw [if_neg (not_not_intro hmode)] at hS ⊢
    cases hrole : (h.client c).soloRole with
    | none => rw [hrole] at hS; cases hS
    | some role =>
      rw [hrole] at hS
      cases role with
      | push =>
        exact ⟨_, List.mem_singleton.2 rfl, rfl, (soloPublishStreamID_eq _ _ _).trans hS⟩
      | play =>
        obtain ⟨key, p, hp, rfl⟩ := hS
        have hpull : (⟨p.kind, p.streamID, p.targetUserID⟩ : PullBrief) ∈
            ((h.client c).pulling.range (ord.pulls c)).map fun e =>
              ⟨e.2.kind, e.2.streamID, e.2.targetUserID⟩ :=
          List.mem_map.2 ⟨(key, p), GoMap.mem_range.2 hp, rfl⟩
        dsimp only
        rw [if_neg (List.ne_nil_of_mem hpull)]
        exact ⟨_, List.mem_map.2 ⟨_, hpull, rfl⟩, rfl, rfl⟩
  · rw [if_pos hmode] at hS ⊢
    obtain ⟨kind, hk⟩ := hS
    have hs : (⟨kind, S⟩ : StreamInfo) ∈
        ((h.client c).streams.range (ord.streams c)).map fun e => ⟨e.1, e.2⟩ :=
      List.mem_map.2 ⟨(kind, S), GoMap.mem_range.2 hk, rfl⟩
    exact ⟨_, List.mem_map.2 ⟨_, hs, rfl⟩, rfl, rfl⟩

theorem mem_memberSnapshot : row ∈ (h.memberSnapshot ord (.ok media)).1 ↔
    ∃ id r c, h.rooms.lookup id = some r ∧ h.memberRoomVisible r = true ∧ c ∈ h.members r ∧
      row ∈ h.memberRows ord (media.map fun m => m.1 ++ "/" ++ m.2) r c := by
  simp only [memberSnapshot, roomMemberRows, roomRefs, List.mem_flatMap, List.mem_filter,
    List.mem_map, mem_clientsOf, Bool.not_eq_true', mem_members]
  constructor
  · rintro ⟨r, ⟨⟨⟨id, r'⟩, he, rfl⟩, hvisible⟩, c, hc, hrow⟩
    exact ⟨id, r', c, GoMap.mem_range.1 he, hvisible, hc, hrow⟩
  · rintro ⟨id, r, c, hid, hvisible, hc, hrow⟩
    exact ⟨r, ⟨⟨(id, r), GoMap.mem_range.2 hid, rfl⟩, hvisible⟩, c, hc, hrow⟩

theorem Shows.visible (hS : h.Shows r c S) (hc : c ∈ h.members r) : h.memberRoomVisible r = true := by
  unfold memberRoomVisible
  rw [if_neg (List.ne_nil_of_mem hc)]
  unfold Shows at hS
  split_ifs with hmode
  · rw [if_neg (not_not_intro hmode)] at hS
    refine List.any_eq_true.2 ⟨c, hc, ?_⟩
    cases hrole : (h.client c).soloRole with
    | none => rw [hrole] at hS; cases hS
    | some role => rfl
  · rfl

theorem lists_of_mem (hrow : row ∈ (h.memberSnapshot ord (.ok media)).1) (hS : row.streamID ≠ "") :
    h.Lists row.roomID row.streamID ∧ row.streamOnline =
      streamOnline (media.map fun m => m.1 ++ "/" ++ m.2) row.roomID row.streamID := by
  obtain ⟨id, r, c, hid, -, hc, hrow⟩ := mem_memberSnapshot.1 hrow
  obtain ⟨hroom, hshow, honline⟩ := mem_memberRows hrow hS
  exact ⟨⟨hS, id, r, c, hid, hroom.symm, hc, hshow⟩, honline⟩

theorem Lists.exists_row (hl : h.Lists R S) (ord : MapOrder) (media : List (RoomID × StreamID)) :
    ∃ row ∈ (h.memberSnapshot ord (.ok media)).1, row.roomID = R ∧ row.streamID = S := by
  obtain ⟨-, id, r, c, hid, rfl, hc, hshow⟩ := hl
  obtain ⟨row, hrow, hroom, hstream⟩ := exists_memberRow hshow ord (media.map fun m => m.1 ++ "/" ++ m.2)
  exact ⟨row, mem_memberSnapshot.2 ⟨id, r, c, hid, hshow.visible hc, hc, hrow⟩, hroom, hstream⟩

end Hub

/-! ### Keys that read the same -/

def NoSlash (s : String) : Prop := '/' ∉ s.toList

/-- The entry `m` is not the pair of `R` and `S`, but has its key. -/
def Respells (m : RoomID × StreamID) (R : RoomID) (S : StreamID) : Prop :=
  (∃ x, R = m.1 ++ "/" ++ x ∧ m.2 = x ++ "/" ++ S) ∨ ∃ x, m.1 = R ++ "/" ++ x ∧ S = x ++ "/" ++ m.2

section Keys

variable {m : RoomID × StreamID} {R : RoomID} {S : StreamID}

theorem noSlash_empty : NoSlash "" := List.not_mem_nil

theorem noSlash_append {a b : String} : NoSlash (a ++ b) ↔ NoSlash a ∧ NoSlash b := by
  rw [NoSlash, String.toList_append, List.mem_append, not_or]
  rfl

theorem not_noSlash_join (a b : String) : ¬NoSlash (a ++ "/" ++ b) := by
  intro h
  exact (noSlash_append.1 (noSlash_append.1 h).1).2 (by decide)

theorem key_eq_iff : m.1 ++ "/" ++ m.2 = R ++ "/" ++ S ↔ m = (R, S) ∨ Respells m R S := by
  rw [Text.join_inj_iff (by rfl), Prod.ext_iff]
  rfl

theorem Respells.ne (h : Respells m R S) : m ≠ (R, S) := by
  have hlength : ∀ a b : String, a ≠ a ++ "/" ++ b := by
    intro a b heq
    have hlen := congrArg String.length heq
    rw [String.length_append, String.length_append] at hlen
    have hone : "/".length = 1 := rfl
    omega
  rintro rfl
  rcases h with ⟨x, hR, -⟩ | ⟨x, hR, -⟩
  · exact hlength R x hR
  · exact hlength R x hR

theorem not_respells (hR : NoSlash R) (hS : NoSlash S) : ¬Respells m R S := by
  rintro (⟨x, rfl, -⟩ | ⟨x, -, rfl⟩)
  · exact not_noSlash_join m.1 x hR
  · exact not_noSlash_join x m.2 hS

theorem exists_join_of_slash {s : String} (h : ¬NoSlash s) : ∃ a b, s = a ++ "/" ++ b := by
  obtain ⟨a, b, hs⟩ := List.append_of_mem (not_not.1 h)
  refine ⟨String.ofList a, String.ofList b, String.toList_inj.1 ?_⟩
  simp [hs]

/-- What has a slash is respelled by some entry. -/
theorem exists_respells (h : ¬(NoSlash R ∧ NoSlash S)) : ∃ m, Respells m R S := by
  by_cases hR : NoSlash R
  · obtain ⟨a, b, rfl⟩ := exists_join_of_slash fun hS => h ⟨hR, hS⟩
    exact ⟨(R ++ "/" ++ a, b), Or.inr ⟨a, rfl, rfl⟩⟩
  · obtain ⟨a, b, rfl⟩ := exists_join_of_slash hR
    exact ⟨(a, b ++ "/" ++ S), Or.inl ⟨b, rfl, rfl⟩⟩

end Keys

/-! ### The flag -/

namespace Hub

variable (h : Hub) (ord : MapOrder) (media : List (RoomID × StreamID))

/-- A row with a stream is online exactly if the media list has this stream. -/
def FlagsRight : Prop := ∀ row ∈ (h.memberSnapshot ord (.ok media)).1, row.streamID ≠ "" →
  (row.streamOnline = true ↔ (row.roomID, row.streamID) ∈ media)

/-- No entry has the key of a row for another stream. -/
def KeysApart : Prop := ∀ row ∈ (h.memberSnapshot ord (.ok media)).1, row.streamID ≠ "" →
  ∀ m ∈ media, m.1 ++ "/" ++ m.2 = row.roomID ++ "/" ++ row.streamID →
    m = (row.roomID, row.streamID)

/-- Nothing that is listed has a slash. -/
def Unslashed : Prop := ∀ R S, h.Lists R S → NoSlash R ∧ NoSlash S

variable {h ord media}

theorem streamOnline_iff {R : RoomID} {S : StreamID} (hS : S ≠ "") :
    streamOnline (media.map fun m => m.1 ++ "/" ++ m.2) R S = true ↔
      ∃ m ∈ media, m = (R, S) ∨ Respells m R S := by
  simp only [streamOnline, ne_eq, hS, not_false_eq_true, decide_true, Bool.true_and,
    List.contains_eq_mem, decide_eq_true_eq, List.mem_map, key_eq_iff]

theorem flagsRight_iff : h.FlagsRight ord media ↔
    ∀ R S, h.Lists R S → ∀ m ∈ media, Respells m R S → (R, S) ∈ media := by
  constructor
  · intro hright R S hl m hm hre
    obtain ⟨row, hrow, rfl, rfl⟩ := hl.exists_row ord media
    refine (hright row hrow hl.1).1 ?_
    rw [(lists_of_mem hrow hl.1).2]
    exact (streamOnline_iff hl.1).2 ⟨m, hm, Or.inr hre⟩
  · intro hall row hrow hS
    obtain ⟨hl, honline⟩ := lists_of_mem hrow hS
    rw [honline, streamOnline_iff hS]
    constructor
    · rintro ⟨m, hm, rfl | hre⟩
      · exact hm
      · exact hall _ _ hl m hm hre
    · exact fun hm => ⟨_, hm, Or.inl rfl⟩

theorem keysApart_iff : h.KeysApart ord media ↔
    ∀ R S, h.Lists R S → ∀ m ∈ media, ¬Respells m R S := by
  constructor
  · intro hkeys R S hl m hm hre
    obtain ⟨row, hrow, rfl, rfl⟩ := hl.exists_row ord media
    exact hre.ne (hkeys row hrow hl.1 m hm (key_eq_iff.2 (Or.inr hre)))
  · intro hall row hrow hS m hm hkey
    exact (key_eq_iff.1 hkey).resolve_right (hall _ _ (lists_of_mem hrow hS).1 m hm)

theorem unslashed_iff (ord : MapOrder) :
    (∀ media, h.FlagsRight ord media ∧ h.KeysApart ord media) ↔ h.Unslashed := by
  constructor
  · intro hall R S hl
    by_contra hslash
    obtain ⟨m, hm⟩ := exists_respells hslash
    -- the media list of this one entry
    exact keysApart_iff.1 (hall [m]).2 R S hl m (List.mem_singleton.2 rfl) hm
  · intro hplain media
    have hnone : ∀ R S, h.Lists R S → ∀ m ∈ media, ¬Respells m R S :=
      fun R S hl m _ => not_respells (hplain R S hl).1 (hplain R S hl).2
    exact ⟨flagsRight_iff.2 fun R S hl m hm hre => absurd hre (hnone R S hl m hm),
      keysApart_iff.2 hnone⟩

end Hub

/-! ### Where slashes come from -/

/-- Nothing of the client `c` that can be listed has a slash. -/
structure Client.Plain (c : UserID) (x : Client) : Prop where
  id : x.hasConn = true → NoSlash c
  streams : ∀ kind s, x.streams.lookup kind = some s → NoSlash s
  planned : NoSlash x.plannedStreamID
  pulling : ∀ key p, x.pulling.lookup key = some p → NoSlash p.streamID

/-- What can be listed of the client `x` is what can be listed of `y`. -/
structure Client.ListedAs (x y : Client) : Prop where
  hasConn : x.hasConn = y.hasConn
  streams : x.streams = y.streams
  planned : x.plannedStreamID = y.plannedStreamID
  pulling : x.pulling = y.pulling

structure Hub.Plain (h : Hub) : Prop where
  room : ∀ r, NoSlash (h.room r).id
  client : ∀ c, (h.client c).Plain c

/-- The message brings in no slash. A stream that is played by its publisher's user id may
be named after that id. -/
def Body.plain : Body → Prop
  | .join (.ok p) => NoSlash p.room
  | .streamStarted (.ok p) => NoSlash p.streamID
  | .webrtcOffer (.ok p) => p.mode = "play" → NoSlash p.targetUserID
  | _ => True

/-- The operation brings in no slash; the user ids are those of `uuid.NewString`. -/
def Op.plain : Op → Prop
  | .connect c => NoSlash c
  | .receive _ e => e.body.plain
  | .observe _ _ (.webrtcOffer p) => (Body.webrtcOffer p).plain
  | _ => True

/-- Whatever holds of the hub before the deed holds after it. -/
def Deed.Keeps (P : Hub → Prop) : Deed → Prop
  | .write f => ∀ h, P h → P (f h)
  | .notify => True

theorem Hub.performAll_keeps {P : Hub → Prop} {ds : List Deed} (hds : ∀ d ∈ ds, d.Keeps P) :
    ∀ {h : Hub}, P h → P (h.performAll ds) := by
  induction ds with
  | nil => exact fun h => h
  | cons d ds ih =>
    intro h hP
    refine ih (fun e he => hds e (List.mem_cons_of_mem d he)) ?_
    have hd := hds d List.mem_cons_self
    cases d with
    | write f => exact hd h hP
    | notify => exact hP

theorem noSlash_of_isSafeStreamName {s : StreamID} (h : isSafeStreamName s = true) : NoSlash s := by
  intro hslash
  simp only [isSafeStreamName, Bool.and_eq_true] at h
  exact absurd (List.all_eq_true.1 h.2 _ hslash) (by decide)

theorem noSlash_buildStreamID {c : UserID} {kind : Kind} (hc : NoSlash c) (hk : NoSlash kind) :
    NoSlash (buildStreamID c kind) := by
  have h1 : NoSlash "user_" := by unfold NoSlash; decide
  have h2 : NoSlash "_" := by unfold NoSlash; decide
  rw [buildStreamID]
  exact noSlash_append.2 ⟨noSlash_append.2 ⟨noSlash_append.2 ⟨h1, hc⟩, h2⟩, hk⟩

section Writes

theorem Client.Plain.fresh {c : UserID} {x : Client} (hc : x.hasConn = true → NoSlash c)
    (hstreams : x.streams = ∅) (hplanned : x.plannedStreamID = "") (hpulling : x.pulling = ∅) :
    x.Plain c where
  id := hc
  streams _ _ hs := by
    rw [hstreams, AList.lookup_empty] at hs
    cases hs
  planned := hplanned ▸ noSlash_empty
  pulling _ _ hp := by
    rw [hpulling, AList.lookup_empty] at hp
    cases hp

variable {h : Hub} {c : UserID} {f : Client → Client} {r : RoomRef} {id : RoomID}

theorem Hub.Plain.setClient (hp : h.Plain) (hf : ∀ x, x.Plain c → (f x).Plain c) :
    (h.setClient c f).Plain where
  room := hp.room
  client d := by
    rw [Hub.setClient_client]
    split_ifs with hd
    · exact hd ▸ hf _ (hp.client c)
    · exact hp.client d

theorem Hub.Plain.setRoom {g : Room → Room} (hp : h.Plain) (hg : ∀ x, (g x).id = x.id) :
    (h.setRoom r g).Plain where
  room s := by
    rw [Hub.setRoom_room]
    split_ifs
    · exact (hg _).symm ▸ hp.room r
    · exact hp.room s
  client := hp.client

theorem Hub.Plain.removeRoomIfEmpty (hp : h.Plain) : (h.removeRoomIfEmpty r).Plain where
  room s := by rw [Hub.removeRoomIfEmpty_room]; exact hp.room s
  client c := by rw [Hub.removeRoomIfEmpty_client]; exact hp.client c

theorem Hub.Plain.getOrCreateRoom (hp : h.Plain) (hid : NoSlash id) (mode : RoomMode) :
    (h.getOrCreateRoom id mode).1.Plain where
  room s := by
    unfold Hub.getOrCreateRoom
    split
    · exact hp.room s
    · dsimp only
      rw [Function.update_apply]
      split_ifs
      · exact hid
      · exact hp.room s
  client c := by rw [Hub.getOrCreateRoom_client]; exact hp.client c

theorem Hub.Plain.allocate {x : Client} (hp : h.Plain) (hx : x.Plain c) : (h.allocate c x).Plain where
  room := hp.room
  client d := by
    simp only [Hub.allocate, Function.update_apply]
    split_ifs with hd
    · exact hd ▸ hx
    · exact hp.client d

/-- Most writes to a client have nothing to do with what is listed of it. -/
theorem Hub.Plain.rest (hp : h.Plain) (hf : ∀ x, (f x).ListedAs x) : (h.setClient c f).Plain :=
  hp.setClient fun x hx =>
    ⟨fun hc => hx.id ((hf x).hasConn ▸ hc), (hf x).streams ▸ hx.streams, (hf x).planned ▸ hx.planned,
      (hf x).pulling ▸ hx.pulling⟩

end Writes

/-! ### The deeds bring in none -/

section Deeds

variable {w : World} {h : Hub} {ord : MapOrder} {r : RoomRef} {c : UserID} {env : Env}

theorem keeps_setRoomOf (room : Option RoomRef) :
    (Deed.write fun h => h.setRoomOf c room).Keeps Hub.Plain :=
  fun _ hp => hp.rest fun _ => ⟨rfl, rfl, rfl, rfl⟩

theorem keeps_removeFrom : (Deed.write fun h => h.removeFrom r c).Keeps Hub.Plain :=
  fun _ hp => hp.setRoom fun _ => rfl

theorem keeps_addTo : (Deed.write fun h => h.addTo r c).Keeps Hub.Plain :=
  fun _ hp => hp.setRoom fun _ => rfl

theorem keeps_removeRoomIfEmpty : (Deed.write fun h => h.removeRoomIfEmpty r).Keeps Hub.Plain :=
  fun _ hp => hp.removeRoomIfEmpty

theorem removeObserverDeeds_keep : ∀ d ∈ h.removeObserverDeeds r c, d.Keeps Hub.Plain := by
  unfold Hub.removeObserverDeeds
  split_ifs
  · simp only [List.forall_mem_cons, List.not_mem_nil, false_imp_iff, implies_true, and_true]
    exact ⟨keeps_removeFrom, keeps_removeRoomIfEmpty, trivial⟩
  · simp

theorem observerLeaveDeeds_keep : ∀ d ∈ h.observerLeaveDeeds c, d.Keeps Hub.Plain := by
  unfold Hub.observerLeaveDeeds
  split
  · simp
  · exact List.forall_mem_cons.2 ⟨keeps_setRoomOf none, removeObserverDeeds_keep⟩

theorem dismissDeeds_keep (cs : List UserID) :
    ∀ h : Hub, ∀ d ∈ h.dismissDeeds cs, d.Keeps Hub.Plain := by
  induction cs with
  | nil => simp [Hub.dismissDeeds]
  | cons c cs ih =>
    exact fun h => List.forall_mem_append.2 ⟨observerLeaveDeeds_keep, ih _⟩

theorem removeDeeds_keep : ∀ d ∈ h.removeDeeds ord r c, d.Keeps Hub.Plain := by
  have hwithdraw : (Deed.write fun h => h.setClient c fun x =>
      { x with streams := ∅, recordings := ∅ }).Keeps Hub.Plain := by
    refine fun _ hp => hp.setClient fun x hx => ⟨hx.id, fun kind s hs => ?_, hx.planned, hx.pulling⟩
    rw [AList.lookup_empty] at hs
    cases hs
  unfold Hub.removeDeeds
  split_ifs
  · exact removeObserverDeeds_keep
  · simp only [List.forall_mem_append, List.forall_mem_cons, List.not_mem_nil, false_imp_iff,
      implies_true, and_true]
    refine ⟨⟨⟨keeps_removeFrom, hwithdraw⟩, ?_⟩, keeps_removeRoomIfEmpty, trivial⟩
    intro d hd
    split_ifs at hd
    · cases hd
    · exact dismissDeeds_keep _ _ d hd
  · simp

theorem leaveDeeds_keep : ∀ d ∈ h.leaveDeeds ord c, d.Keeps Hub.Plain := by
  unfold Hub.leaveDeeds
  split
  · simp
  · exact List.forall_mem_cons.2 ⟨keeps_setRoomOf none, removeDeeds_keep⟩

theorem cleanupDeeds_keep : ∀ d ∈ h.cleanupDeeds ord c, d.Keeps Hub.Plain := by
  unfold Hub.cleanupDeeds
  split_ifs
  · simp
  · refine List.forall_mem_cons.2 ⟨fun _ hp => ?_, ?_⟩
    · exact hp.rest fun _ => ⟨rfl, rfl, rfl, rfl⟩
    · split
      · simp
      · exact removeDeeds_keep

theorem kickDeeds_keep : ∀ d ∈ h.kickDeeds ord c, d.Keeps Hub.Plain := by
  unfold Hub.kickDeeds
  split_ifs
  · simp
  · exact leaveDeeds_keep

theorem kickMemberDeeds_keep (roomID : RoomID) :
    ∀ d ∈ h.kickMemberDeeds ord roomID c, d.Keeps Hub.Plain := by
  unfold Hub.kickMemberDeeds
  split
  · simp
  · split_ifs
    · simp
    · exact kickDeeds_keep

theorem kickAllDeeds_keep (cs : List UserID) :
    ∀ h : Hub, ∀ d ∈ h.kickAllDeeds ord cs, d.Keeps Hub.Plain := by
  induction cs with
  | nil => simp [Hub.kickAllDeeds]
  | cons c cs ih => exact fun h => List.forall_mem_append.2 ⟨kickDeeds_keep, ih _⟩

theorem dissolveDeeds_keep (roomID : RoomID) :
    ∀ d ∈ h.dissolveDeeds ord roomID, d.Keeps Hub.Plain := by
  unfold Hub.dissolveDeeds
  split
  · simp
  · exact kickAllDeeds_keep _ _

theorem joinSolo_plain (hp : h.Plain) (p : JoinPayload) : (h.joinSolo c p).1.Plain := by
  have hrole : ∀ role, (h.writeSoloRole c role).Plain := fun role =>
    hp.rest fun _ => ⟨rfl, rfl, rfl, rfl⟩
  unfold Hub.joinSolo
  split
  · exact hp
  · exact hrole _
  · dsimp only
    cases hs : Hub.checkPlannedStream p with
    | error e => exact hrole _
    | ok stream =>
      have hsafe : isSafeStreamName stream = true := by
        unfold Hub.checkPlannedStream at hs
        dsimp only at hs
        split_ifs at hs with h1 h2
        cases hs
        simpa using h2
      have hplain : NoSlash stream := noSlash_of_isSafeStreamName hsafe
      exact (hrole _).setClient (f := fun x => { x with plannedStreamID := stream }) fun x hx =>
        ⟨hx.id, hx.streams, hplain, hx.pulling⟩

theorem joinFields_plain (hp : h.Plain) (p : JoinPayload) : (h.joinFields c p).Plain := by
  have hmic : ∀ h : Hub, h.Plain → (h.writeMicOn c p.micOn).Plain := by
    intro h hp
    unfold Hub.writeMicOn
    split
    · exact hp.rest fun _ => ⟨rfl, rfl, rfl, rfl⟩
    · exact hp
  have hcam : ∀ h : Hub, h.Plain → (h.writeCamOn c p.camOn).Plain := by
    intro h hp
    unfold Hub.writeCamOn
    split
    · exact hp.rest fun _ => ⟨rfl, rfl, rfl, rfl⟩
    · exact hp
  have hname : (h.writeNickname c p.nickname).Plain :=
    hp.rest fun _ => ⟨rfl, rfl, rfl, rfl⟩
  have hplatform : ((h.writeNickname c p.nickname).writePlatform c p.clientPlatform).Plain :=
    hname.rest fun _ => ⟨rfl, rfl, rfl, rfl⟩
  exact hcam _ (hmic _ hplatform)

theorem joinDeeds_keep {p : Decoded JoinPayload} (hp : (Body.join p).plain) :
    ∀ d ∈ h.joinDeeds c p, d.Keeps Hub.Plain := by
  unfold Hub.joinDeeds
  split
  · simp
  · rename_i q mode hq
    obtain ⟨-, p₀, rfl, hroom⟩ := checkJoin_ok hq
    have hid : NoSlash q.room := by
      rw [hroom]
      exact hp
    have hsolo : ∀ d ∈ (if mode = .solo then [Deed.write fun h => (h.joinSolo c q).1] else []),
        d.Keeps Hub.Plain := by
      intro d hd
      split_ifs at hd
      · rw [List.mem_singleton.1 hd]
        exact fun _ hp => joinSolo_plain hp q
      · cases hd
    have hfields : (Deed.write fun h => h.joinFields c q).Keeps Hub.Plain :=
      fun _ hp => joinFields_plain hp q
    have hcreate : (Deed.write fun h => (h.getOrCreateRoom q.room mode).1).Keeps Hub.Plain :=
      fun _ hp => hp.getOrCreateRoom hid mode
    dsimp only
    generalize (if mode = .solo then [Deed.write fun h => (h.joinSolo c q).1] else []) = solo at hsolo ⊢
    split_ifs
    · exact hsolo
    · split
      all_goals
        simp only [List.forall_mem_append, List.forall_mem_cons, List.not_mem_nil, false_imp_iff,
          implies_true, and_true]
      · exact ⟨⟨⟨hsolo, hfields⟩, hcreate⟩, keeps_removeRoomIfEmpty⟩
      · exact ⟨⟨⟨hsolo, hfields⟩, hcreate⟩, keeps_addTo, trivial, keeps_setRoomOf _⟩

theorem writeStream_keeps {kind : Kind} {s : StreamID} (hs : NoSlash s) :
    (writeStream c kind s).Keeps Hub.Plain := by
  refine fun _ hp => hp.setClient fun x hx => ⟨hx.id, fun k s' hk => ?_, hx.planned, hx.pulling⟩
  rw [GoMap.lookup_insert_iff] at hk
  split_ifs at hk
  · exact Option.some.inj hk ▸ hs
  · exact hx.streams k s' hk

theorem writePull_keeps {kind : Kind} {s : StreamID} {target : UserID} (hs : NoSlash s) :
    (writePull c s kind target).Keeps Hub.Plain := by
  refine fun _ hp => hp.setClient fun x hx => ⟨hx.id, hx.streams, hx.planned, fun key p hk => ?_⟩
  rw [GoMap.lookup_insert_iff] at hk
  split_ifs at hk
  · exact Option.some.inj hk ▸ hs
  · exact hx.pulling key p hk

/-- The stream of an offer: generated, checked, or published by the target already. -/
theorem resolveOffer_noSlash (hplain : w.hub.Plain) (hc : w.hub.isObserver c = false → NoSlash c)
    {p : WebRTCOfferPayload} (hp : (Body.webrtcOffer (.ok p)).plain) {s : StreamID} {type : WebRTCType}
    (hr : w.resolveOffer r c p = .ok (s, type)) : NoSlash s := by
  have hkind : ¬(p.kind ≠ "cam" ∧ p.kind ≠ "screen") → NoSlash p.kind := by
    intro h
    rcases not_and_or.1 h with hk | hk <;> rw [not_not.1 hk] <;> unfold NoSlash <;> decide
  unfold resolveOffer at hr
  split_ifs at hr with hpub hobs hk hplay htarget hk' hsolo hobs' hempty hsafe hplaySolo hempty'
    hsafe' hhas
  · cases hr
    exact noSlash_buildStreamID (hc (by simpa using hobs)) (hkind hk)
  · cases hr
    split_ifs with hnone
    · exact noSlash_buildStreamID (hp hplay) (hkind hk')
    · unfold Hub.targetStreamID
      split_ifs
      · cases hs : (w.hub.client p.targetUserID).streams.lookup p.kind with
        | none => exact noSlash_empty
        | some s => exact (hplain.client p.targetUserID).streams _ s hs
      · exact noSlash_empty
  · cases hr
    exact noSlash_of_isSafeStreamName (by simpa using hsafe)
  · cases hr
    exact noSlash_of_isSafeStreamName (by simpa using hsafe')

theorem offerDeeds_keep (hplain : w.hub.Plain) (hc : w.hub.isObserver c = false → NoSlash c)
    {p : Decoded WebRTCOfferPayload} (hp : (Body.webrtcOffer p).plain) :
    ∀ d ∈ offerDeeds env w c p, d.Keeps Hub.Plain := by
  unfold offerDeeds
  split
  · split_ifs
    · simp
    · split
      · rename_i hr _
        have hs := resolveOffer_noSlash hplain hc hp hr
        have hnotify : ∀ d ∈ [Deed.notify], d.Keeps Hub.Plain := List.forall_mem_singleton.2 trivial
        unfold registerDeeds
        split_ifs
        · exact List.forall_mem_cons.2 ⟨writeStream_keeps hs, hnotify⟩
        · exact List.forall_mem_cons.2 ⟨writeStream_keeps hs, hnotify⟩
        · exact List.forall_mem_cons.2 ⟨writePull_keeps hs, hnotify⟩
        · exact List.forall_mem_cons.2 ⟨writePull_keeps hs, hnotify⟩
      · simp
  · simp

theorem mediaDeeds_keep (p : Decoded MediaStatePayload) :
    ∀ d ∈ w.mediaDeeds c p, d.Keeps Hub.Plain := by
  unfold mediaDeeds
  split
  · split_ifs
    · simp
    · exact List.forall_mem_singleton.2 fun _ hp =>
        hp.rest fun _ => ⟨rfl, rfl, rfl, rfl⟩
  · simp

theorem startedDeeds_keep {p : Decoded StreamStartedPayload} (hp : (Body.streamStarted p).plain) :
    ∀ d ∈ w.startedDeeds c p, d.Keeps Hub.Plain := by
  unfold startedDeeds
  split
  · split_ifs
    · simp
    · exact List.forall_mem_singleton.2 (writeStream_keeps hp)
  · simp

theorem stoppedDeeds_keep (p : Decoded StreamStoppedPayload) :
    ∀ d ∈ w.stoppedDeeds c p, d.Keeps Hub.Plain := by
  unfold stoppedDeeds
  split
  · split_ifs
    · simp
    all_goals
      refine List.forall_mem_cons.2 ⟨fun _ hp => hp.setClient fun x hx =>
        ⟨hx.id, fun k s hk => ?_, hx.planned, hx.pulling⟩, by simp [Deed.Keeps]⟩
      exact hx.streams k s (GoMap.lookup_erase_eq_some.1 hk).2
  · simp

theorem recordDeeds_keep (start : Bool) (p : Decoded RecordControlPayload) :
    ∀ d ∈ recordDeeds env w c start p, d.Keeps Hub.Plain := by
  unfold recordDeeds
  split
  · split_ifs
    · simp
    · refine List.forall_mem_cons.2 ⟨fun _ hp => ?_, List.forall_mem_singleton.2 trivial⟩
      exact hp.rest fun _ => ⟨rfl, rfl, rfl, rfl⟩
  · simp

theorem messageDeeds_keep (hplain : w.hub.Plain) (hc : NoSlash c) {b : Body} (hb : b.plain) :
    ∀ d ∈ messageDeeds env w c b, d.Keeps Hub.Plain := by
  cases b with
  | join p => exact joinDeeds_keep hb
  | mediaState p => exact mediaDeeds_keep p
  | webrtcOffer p => exact offerDeeds_keep hplain (fun _ => hc) hb
  | streamStarted p => exact startedDeeds_keep hb
  | streamStopped p => exact stoppedDeeds_keep p
  | recordControl start p => exact recordDeeds_keep start p
  | leave | chat | unknown => simp [messageDeeds]

theorem observeLeaveDeeds_keep {k : ConnID} : ∀ d ∈ w.observeLeaveDeeds k, d.Keeps Hub.Plain := by
  unfold observeLeaveDeeds
  split
  · simp
  · exact observerLeaveDeeds_keep

theorem observeDeeds_keep (hw : w.Sound) (hplain : w.hub.Plain) {k : ConnID} {body : ObserveBody}
    (hb : ∀ p, body = .webrtcOffer p → (Body.webrtcOffer p).plain) :
    ∀ d ∈ observeDeeds env w k body, d.Keeps Hub.Plain := by
  cases body with
  | join u p =>
    have hclient : (Hub.observerClient u (w.conn k).username).Plain u :=
      .fresh (fun h => by cases h) rfl rfl rfl
    unfold observeDeeds observeJoinDeeds
    dsimp only
    split
    · simp
    · split
      · simp
      · split_ifs
        · simp
        · unfold Hub.observeJoinDeeds
          simp only [List.forall_mem_cons, List.not_mem_nil, false_imp_iff, implies_true, and_true]
          exact ⟨fun _ hp => hp.allocate hclient, keeps_addTo, keeps_setRoomOf _, trivial,
            keeps_setRoomOf _⟩
  | leave => exact observeLeaveDeeds_keep
  | webrtcOffer p =>
    unfold observeDeeds
    dsimp only
    split
    · simp
    · rename_i u hu
      refine offerDeeds_keep hplain (fun hbiz => ?_) (hb p rfl)
      rw [hw.conn k u hu] at hbiz
      cases hbiz
  | watchStop | unknown => simp [observeDeeds]

theorem deeds_keep (hw : w.Sound) (hplain : w.hub.Plain) {i : Input} (hi : i.op.plain) :
    ∀ d ∈ w.deeds i, d.Keeps Hub.Plain := by
  unfold deeds
  split
  · rename_i c hop
    rw [hop] at hi
    split_ifs
    · simp
    · exact List.forall_mem_singleton.2 fun _ hp => hp.allocate (.fresh (fun _ => hi) rfl rfl rfl)
  · rename_i c e hop
    rw [hop] at hi
    split_ifs with hc
    · exact messageDeeds_keep hplain ((hplain.client c).id (serving_iff.1 hc).1) hi
    · simp
  · split_ifs
    · exact cleanupDeeds_keep
    · simp
  · exact kickMemberDeeds_keep _
  · exact dissolveDeeds_keep _
  · rename_i k q body hop
    rw [hop] at hi
    split_ifs
    · refine observeDeeds_keep hw hplain fun p hp => ?_
      rw [hp] at hi
      exact hi
    · simp
  · split_ifs
    · exact observeLeaveDeeds_keep
    · simp
  all_goals simp

end Deeds

theorem plain_run {token : String} {is : List Input}
    (hg : (server token).Guarded (fun _ i => i.op.plain) is) : ((server token).run is).hub.Plain := by
  refine Machine.guarded_invariant_of (P := fun w => w.hub.Plain) (server_sound token) ?_ ?_ hg
  · exact ⟨fun _ => noSlash_empty, fun c => .fresh (fun h => by cases h) rfl rfl rfl⟩
  · intro w i hi hw hplain
    rw [show (server token).step w i = w.step i from rfl, (World.Performs.step hw.hub i).hub]
    exact Hub.performAll_keeps (deeds_keep hw hplain hi) hplain

theorem Hub.Plain.unslashed {h : Hub} (hp : h.Plain) : h.Unslashed := by
  rintro R S ⟨-, id, r, c, -, rfl, -, hS⟩
  refine ⟨hp.room r, ?_⟩
  unfold Hub.Shows at hS
  split_ifs at hS with hmode
  · obtain ⟨kind, hk⟩ := hS
    exact (hp.client c).streams kind S hk
  · cases hrole : (h.client c).soloRole with
    | none => rw [hrole] at hS; cases hS
    | some role =>
      rw [hrole] at hS
      cases role with
      | push =>
        rw [← hS]
        cases hs : (h.client c).streams.lookup "solo" with
        | none => exact (hp.client c).planned
        | some s =>
          rw [Option.filter_some]
          split_ifs
          · exact (hp.client c).streams "solo" s hs
          · exact (hp.client c).planned
      | play =>
        obtain ⟨key, p, hk, rfl⟩ := hS
        exact (hp.client c).pulling key p hk

/-- In every state the server reaches: for one media list the flags are right exactly if
every listed stream that an entry respells is in the list itself; for all media lists flags
and keys are right exactly if nothing listed has a slash; and nothing has when room ids, the
ids of stream-started and the user ids that are played have none. -/
theorem member_list_online (token : String) (is : List Input) (ord : MapOrder) :
    (∀ media, ((server token).run is).hub.FlagsRight ord media ↔
      ∀ R S, ((server token).run is).hub.Lists R S → ∀ m ∈ media, Respells m R S →
        (R, S) ∈ media) ∧
    (∀ media, ((server token).run is).hub.KeysApart ord media ↔
      ∀ R S, ((server token).run is).hub.Lists R S → ∀ m ∈ media, ¬Respells m R S) ∧
    ((∀ media, ((server token).run is).hub.FlagsRight ord media ∧
      ((server token).run is).hub.KeysApart ord media) ↔ ((server token).run is).hub.Unslashed) ∧
    ((server token).Guarded (fun _ i => i.op.plain) is → ((server token).run is).hub.Unslashed) :=
  ⟨fun _ => Hub.flagsRight_iff, fun _ => Hub.keysApart_iff, Hub.unslashed_iff ord,
    fun hg => (plain_run hg).unslashed⟩

/-- `u` tells room `a` that it publishes `b/c`; ZLM has the stream `c` of the app `a/b`. -/
theorem member_list_confused :
    ¬((server "").run [.connect "u", .join "u" "a", .streamStarted "u" "cam" "b/c"]).hub.FlagsRight {}
      [("a/b", "c")] := by
  intro hright
  have hl : ((server "").run [.connect "u", .join "u" "a", .streamStarted "u" "cam" "b/c"]).hub.Lists
      "a" "b/c" := by
    refine ⟨by decide, "a", 0, "u", by decide, by decide, by decide, ?_⟩
    rw [Hub.Shows, if_pos (by decide)]
    exact ⟨"cam", by decide⟩
  have hmem := Hub.flagsRight_iff.1 hright "a" "b/c" hl ("a/b", "c") (List.mem_singleton.2 rfl)
    (Or.inr ⟨"b", rfl, rfl⟩)
  exact absurd hmem (by decide)

end Meetkit
