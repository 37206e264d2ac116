import Mathlib.Data.Set.Card
import Meetkit.Model.StatsJSON
import Meetkit.Proofs.Business

/-! The server counts the members of the rooms, the page everyone its list of a solo
room names. The counts agree exactly as long as no observer is in a solo room. -/

namespace Meetkit

theorem RoomMode.text_inj {m m' : RoomMode} : m.text = m'.text ↔ m = m' := by
  cases m <;> cases m' <;> simp [RoomMode.text]

/-! ### The server's counters -/

theorem Hub.roomStats_realMembers (h : Hub) (ord : MapOrder) (r : RoomRef) :
    (h.roomStats ord r).realMembers = (h.clientsOf ord r).countP fun c => !h.isObserver c := by
  have hperm : (h.clientsOf ord r).Perm (h.room r).clients := rangeBy_perm _ _
  rw [hperm.countP_eq, List.countP_eq_length_filter]
  rfl

theorem Hub.roomStats_observers (h : Hub) (ord : MapOrder) (r : RoomRef) :
    (h.roomStats ord r).observers = (h.clientsOf ord r).countP h.isObserver := by
  have hperm : (h.clientsOf ord r).Perm (h.room r).clients := rangeBy_perm _ _
  rw [hperm.countP_eq, List.countP_eq_length_filter]
  rfl

namespace StatsOut

variable {h : Hub} {ord : MapOrder} {r : RoomRef} {out : StatsOut}

theorem foldl_countClient (briefs : List ClientBrief) (out : StatsOut) (rs : RoomStats) :
    let real := briefs.countP fun b => !b.isObserver
    let obs := briefs.countP (·.isObserver)
    briefs.foldl countClient (out, rs) =
      ({ out with
          totalClients := out.totalClients + real
          totalObservers := out.totalObservers + obs
          clientsByMode := out.clientsByMode.tally (List.replicate real rs.mode.text) },
        { rs with
          realMembers := rs.realMembers + real
          observers := rs.observers + obs
          clients := rs.clients ++ briefs }) := by
  induction briefs generalizing out rs with
  | nil => simp
  | cons b briefs ih =>
    dsimp only at ih ⊢
    rw [List.foldl_cons, ih, List.countP_cons, List.countP_cons]
    cases hb : b.isObserver with
    | true => simp [countClient, hb, Nat.add_assoc, Nat.add_comm 1]
    | false => simp [countClient, hb, List.replicate_succ, Nat.add_assoc, Nat.add_comm 1]

theorem countRoom_eq : countRoom h ord out r =
    { totalRooms := out.totalRooms + 1
      totalClients := out.totalClients + (h.roomStats ord r).realMembers
      totalObservers := out.totalObservers + (h.roomStats ord r).observers
      roomsByMode := out.roomsByMode.incr (h.room r).mode.text
      clientsByMode := out.clientsByMode.tally
        (List.replicate (h.roomStats ord r).realMembers (h.room r).mode.text)
      rooms := out.rooms ++ [h.roomStats ord r] } := by
  have hreal : ((h.clientsOf ord r).map (h.clientBrief ord)).countP (fun b => !b.isObserver) =
      (h.roomStats ord r).realMembers := by
    rw [List.countP_map, Hub.roomStats_realMembers]
    rfl
  have hobs : ((h.clientsOf ord r).map (h.clientBrief ord)).countP (·.isObserver) =
      (h.roomStats ord r).observers := by
    rw [List.countP_map, Hub.roomStats_observers]
    rfl
  unfold countRoom
  dsimp only
  rw [foldl_countClient]
  dsimp only
  rw [hreal, hobs]
  simp only [Nat.zero_add, List.nil_append]
  rfl

/-- The counters say what is in the rooms listed so far. -/
structure Tallied (out : StatsOut) : Prop where
  totalRooms : out.totalRooms = out.rooms.length
  totalClients : out.totalClients = (out.rooms.map (·.realMembers)).sum
  totalObservers : out.totalObservers = (out.rooms.map (·.observers)).sum
  roomsByMode : ∀ m : RoomMode,
    out.roomsByMode.count m.text = (out.rooms.filter (·.mode = m)).length
  clientsByMode : ∀ m : RoomMode, out.clientsByMode.count m.text =
    ((out.rooms.filter (·.mode = m)).map (·.realMembers)).sum
  total : out.clientsByMode.total = out.totalClients

theorem Tallied.countRoom (ht : Tallied out) : Tallied (countRoom h ord out r) := by
  have hmode : (h.roomStats ord r).mode = (h.room r).mode := rfl
  rw [countRoom_eq]
  constructor
  · simp [ht.totalRooms]
  · simp [ht.totalClients]
  · simp [ht.totalObservers]
  · intro m
    rw [GoMap.count_incr, ht.roomsByMode, List.filter_append, List.length_append]
    by_cases hm : (h.room r).mode = m
    · simp [hmode, hm]
    · simp [hmode, hm, RoomMode.text_inj, Ne.symm hm]
  · intro m
    rw [GoMap.count_tally, ht.clientsByMode, List.filter_append, List.map_append, List.sum_append,
      List.count_replicate]
    by_cases hm : (h.room r).mode = m
    · simp [hmode, hm]
    · simp [hmode, hm, RoomMode.text_inj]
  · rw [GoMap.total_tally, ht.total, List.length_replicate]

theorem foldl_countRoom (refs : List RoomRef) (ht : Tallied out) :
    Tallied (refs.foldl (countRoom h ord) out) ∧
      (refs.foldl (countRoom h ord) out).rooms = out.rooms ++ refs.map (h.roomStats ord) := by
  induction refs generalizing out with
  | nil => exact ⟨ht, (List.append_nil _).symm⟩
  | cons r refs ih =>
    obtain ⟨hfold, hrooms⟩ := ih ht.countRoom
    refine ⟨hfold, ?_⟩
    rw [List.foldl_cons, hrooms, countRoom_eq, List.append_assoc]
    rfl

end StatsOut

/-- The loop computes the snapshot. -/
theorem Hub.statsLoop_tallied (h : Hub) (ord : MapOrder) :
    (h.statsLoop ord).Tallied ∧ (h.statsLoop ord).rooms = (h.statsSnapshot ord).rooms :=
  StatsOut.foldl_countRoom _ ⟨rfl, rfl, rfl, fun _ => rfl, fun _ => rfl, rfl⟩

/-! ### The page's counters -/

/-- A list no room was appended to arrives as `null`. -/
theorem StatsOut.toJSON_rooms (out : StatsOut) :
    out.toJSON.rooms.getD [] = out.rooms.map (·.toJSON) := by
  unfold StatsOut.toJSON
  dsimp only
  split_ifs with hnil
  · rw [hnil]; rfl
  · rfl

namespace PushPull

theorem foldl_countClient (cs : List ClientJSON) (n : PushPull) :
    cs.foldl countClient n =
      ⟨n.push + cs.countP fun c => c.soloRole ≠ some "play",
        n.pull + cs.countP fun c => c.soloRole = some "play"⟩ := by
  induction cs generalizing n with
  | nil => rfl
  | cons c cs ih =>
    rw [List.foldl_cons, ih, List.countP_cons, List.countP_cons]
    by_cases hc : c.soloRole = some "play"
    · simp [countClient, hc, Nat.add_assoc, Nat.add_comm 1]
    · simp [countClient, hc, Nat.add_assoc, Nat.add_comm 1]

end PushPull

namespace Hub

variable {h : Hub} {ord : MapOrder}

/-- The non-observers with the role in the solo rooms. -/
def soloMembers (h : Hub) (role : SoloRole) : Set UserID :=
  {c | ∃ r, (h.room r).mode = .solo ∧ c ∈ h.members r ∧ (h.client c).soloRole = some role}

/-- Everyone in the solo rooms, observers too. -/
def soloClients (h : Hub) (ord : MapOrder) (refs : List RoomRef) : List UserID :=
  (refs.filter fun r => (h.room r).mode = .solo).flatMap (h.clientsOf ord)

theorem soloRole_play (c : UserID) :
    (h.clientBrief ord c).toJSON.soloRole = some "play" ↔ (h.client c).soloRole = some .play := by
  have hrole : (h.clientBrief ord c).toJSON.soloRole = (h.client c).soloRole.map SoloRole.text := rfl
  rw [hrole]
  cases (h.client c).soloRole with
  | none => simp
  | some role => cases role <;> simp [SoloRole.text]

theorem countRoom_page (r : RoomRef) (n : PushPull) :
    n.countRoom (h.roomStats ord r).toJSON =
      ⟨n.push + (h.soloClients ord [r]).countP fun c => (h.client c).soloRole ≠ some .play,
        n.pull + (h.soloClients ord [r]).countP fun c => (h.client c).soloRole = some .play⟩ := by
  have hmode : (h.roomStats ord r).toJSON.mode = (h.room r).mode.text := rfl
  have hsolo : (h.room r).mode.text = "solo" ↔ (h.room r).mode = .solo :=
    @RoomMode.text_inj _ .solo
  unfold PushPull.countRoom soloClients
  rw [hmode, RoomStats.toJSON_clients]
  by_cases hm : (h.room r).mode = .solo
  · rw [if_neg (not_not.2 (hsolo.2 hm)), PushPull.foldl_countClient]
    simp only [roomStats, List.map_map, List.countP_map, Function.comp_def, ne_eq, decide_not,
      soloRole_play]
    simp [hm]
  · rw [if_pos fun htext => hm (hsolo.1 htext)]
    simp [hm]

theorem foldl_countRoom_page (refs : List RoomRef) (n : PushPull) :
    ((refs.map (h.roomStats ord)).map (·.toJSON)).foldl PushPull.countRoom n =
      ⟨n.push + (h.soloClients ord refs).countP fun c => (h.client c).soloRole ≠ some .play,
        n.pull + (h.soloClients ord refs).countP fun c => (h.client c).soloRole = some .play⟩ := by
  induction refs generalizing n with
  | nil => rfl
  | cons r refs ih =>
    have hcons : h.soloClients ord (r :: refs) = h.soloClients ord [r] ++ h.soloClients ord refs := by
      unfold soloClients
      rw [← List.flatMap_append, ← List.filter_append]
      rfl
    rw [List.map_cons, List.map_cons, List.foldl_cons, countRoom_page, ih, hcons, List.countP_append,
      List.countP_append, Nat.add_assoc, Nat.add_assoc]

/-- The page counts everyone in a solo room, and a client without a role as a pusher. -/
theorem soloPushPullCounts_eq : (h.statsLoop ord).toJSON.soloPushPullCounts =
    ⟨(h.soloClients ord (h.roomRefs ord)).countP fun c => (h.client c).soloRole ≠ some .play,
      (h.soloClients ord (h.roomRefs ord)).countP fun c => (h.client c).soloRole = some .play⟩ := by
  have hrooms : (h.statsLoop ord).rooms = (h.roomRefs ord).map (h.roomStats ord) :=
    (h.statsLoop_tallied ord).2
  unfold HubJSON.soloPushPullCounts
  rw [StatsOut.toJSON_rooms, hrooms, foldl_countRoom_page, Nat.zero_add, Nat.zero_add]

theorem count_solo : (h.statsLoop ord).clientsByMode.count "solo" =
    (h.soloClients ord (h.roomRefs ord)).countP fun c => !h.isObserver c := by
  have hcount := (h.statsLoop_tallied ord).1.clientsByMode .solo
  rw [(h.statsLoop_tallied ord).2] at hcount
  refine hcount.trans ?_
  unfold soloClients
  rw [List.countP_flatMap]
  simp only [statsSnapshot, List.filter_map, List.map_map, Function.comp_def, roomStats_realMembers]
  rfl

section Rooms

variable (hw : h.WellFormed)
include hw

theorem roomRefs_nodup : (h.roomRefs ord).Nodup := by
  refine (GoMap.range_nodup _ _).map_on ?_
  rintro ⟨id, r⟩ hr ⟨id', r'⟩ hr' heq
  have hid := (hw.table id r (GoMap.mem_range.1 hr)).1
  have hid' := (hw.table id' r' (GoMap.mem_range.1 hr')).1
  dsimp only at heq
  rw [heq, hid'] at hid
  rw [heq, hid]

theorem mem_soloClients {c : UserID} : c ∈ h.soloClients ord (h.roomRefs ord) ↔
    ∃ r, (h.room r).mode = .solo ∧ c ∈ (h.room r).clients := by
  unfold soloClients
  simp only [List.mem_flatMap, List.mem_filter, mem_clientsOf, decide_eq_true_eq]
  constructor
  · rintro ⟨r, ⟨-, hm⟩, hc⟩
    exact ⟨r, hm, hc⟩
  · rintro ⟨r, hm, hc⟩
    have hl := hw.listed r (List.ne_nil_of_mem hc)
    exact ⟨r, ⟨List.mem_map.2 ⟨_, GoMap.mem_range.2 hl, rfl⟩, hm⟩, hc⟩

/-- A client is in one room. -/
theorem soloClients_nodup : (h.soloClients ord (h.roomRefs ord)).Nodup := by
  refine List.nodup_flatMap.2 ⟨fun r _ => h.clientsOf_nodup ord r, ?_⟩
  refine ((roomRefs_nodup hw).filter _).imp fun {r r'} hne => ?_
  intro c hc hc'
  exact hne (hw.unique (mem_clientsOf.1 hc) (mem_clientsOf.1 hc'))

theorem ncard_soloMembers (role : SoloRole) : (h.soloMembers role).ncard =
    (h.soloClients ord (h.roomRefs ord)).countP fun c =>
      !h.isObserver c && (h.client c).soloRole = some role := by
  have hset : h.soloMembers role = ((h.soloClients ord (h.roomRefs ord)).filter fun c =>
      !h.isObserver c && (h.client c).soloRole = some role).toFinset := by
    ext c
    simp only [soloMembers, mem_members, Set.mem_ofPred_eq, List.coe_toFinset, List.mem_filter,
      mem_soloClients hw, Bool.and_eq_true, Bool.not_eq_true', decide_eq_true_eq]
    constructor
    · rintro ⟨r, hm, ⟨hc, hob⟩, hrole⟩
      exact ⟨⟨r, hm, hc⟩, hob, hrole⟩
    · rintro ⟨⟨r, hm, hc⟩, hob, hrole⟩
      exact ⟨r, hm, ⟨hc, hob⟩, hrole⟩
  rw [hset, Set.ncard_coe_finset, List.toFinset_card_of_nodup ((soloClients_nodup hw).filter _),
    List.countP_eq_length_filter]

end Rooms

end Hub

/-! ### When they agree -/

/-- What the page counts in the snapshot it was sent are the members of the solo rooms. -/
structure CountsMembers (h : Hub) (hub : HubJSON) : Prop where
  push : hub.soloPushPullCounts.push = (h.soloMembers .push).ncard
  pull : hub.soloPushPullCounts.pull = (h.soloMembers .play).ncard
  both : hub.soloPushPullCounts.push + hub.soloPushPullCounts.pull = hub.clientsByMode.count "solo"
  byMode : hub.totalClients = hub.clientsByMode.total
  byRoom : hub.totalClients = ((hub.rooms.getD []).map fun room => room.realMembers.getD 0).sum

namespace Hub

variable {h : Hub} {ord : MapOrder}

theorem totalClients_byRoom : (h.statsLoop ord).toJSON.totalClients =
    (((h.statsLoop ord).toJSON.rooms.getD []).map fun room => room.realMembers.getD 0).sum := by
  rw [StatsOut.toJSON_rooms, List.map_map]
  exact (h.statsLoop_tallied ord).1.totalClients

/-- The page's two counters sum up to everyone in the solo rooms. -/
theorem pushPull_sum (h : Hub) (ord : MapOrder) :
    (h.statsLoop ord).toJSON.soloPushPullCounts.push +
      (h.statsLoop ord).toJSON.soloPushPullCounts.pull =
        (h.soloClients ord (h.roomRefs ord)).length := by
  rw [soloPushPullCounts_eq, List.length_eq_countP_add_countP fun c => (h.client c).soloRole = some .play]
  simp only [ne_eq, decide_not, decide_eq_true_eq]
  omega

theorem countsMembers_iff (hw : h.WellFormed) (hr : h.Roled) :
    CountsMembers h (h.statsLoop ord).toJSON ↔
      ∀ r, (h.room r).mode = .solo → ∀ c ∈ (h.room r).clients, h.isObserver c = false := by
  have hboth : (h.statsLoop ord).toJSON.clientsByMode.count "solo" =
      (h.soloClients ord (h.roomRefs ord)).countP fun c => !h.isObserver c := count_solo
  constructor
  · -- as many as there are members: then all are members
    intro hcounts r hm c hc
    have hlength := hcounts.both
    rw [pushPull_sum, hboth] at hlength
    have hall := List.countP_eq_length.1 hlength.symm
    simpa using hall c ((mem_soloClients hw).2 ⟨r, hm, hc⟩)
  · intro hnone
    have hmember : ∀ c ∈ h.soloClients ord (h.roomRefs ord),
        h.isObserver c = false ∧ (h.client c).soloRole ≠ none := by
      intro c hc
      obtain ⟨r, hm, hc⟩ := (mem_soloClients hw).1 hc
      have hob := hnone r hm c hc
      exact ⟨hob, hr r c (mem_members.2 ⟨hc, hob⟩) hm⟩
    constructor
    · rw [soloPushPullCounts_eq, ncard_soloMembers hw]
      refine List.countP_congr fun c hc => ?_
      obtain ⟨hob, hrole⟩ := hmember c hc
      rw [hob]
      cases hs : (h.client c).soloRole with
      | none => exact absurd hs hrole
      | some role => cases role <;> simp
    · rw [soloPushPullCounts_eq, ncard_soloMembers hw]
      refine List.countP_congr fun c hc => ?_
      rw [(hmember c hc).1]
      simp
    · rw [pushPull_sum, hboth]
      refine (List.countP_eq_length.2 fun c hc => ?_).symm
      rw [(hmember c hc).1]
      rfl
    · exact (h.statsLoop_tallied ord).1.total.symm
    · exact totalClients_byRoom

end Hub

/-- In a reachable hub the page's counters are those of the members exactly when no
observer is in a solo room. -/
theorem push_pull_counts_members_iff (token : String) (is : List Input) (ord : MapOrder) :
    let h := ((server token).run is).hub
    CountsMembers h (h.statsLoop ord).toJSON ↔
      ∀ r, (h.room r).mode = .solo → ∀ c ∈ (h.room r).clients, h.isObserver c = false :=
  Hub.countsMembers_iff (server_sound token is).hub (server_roled token is)

/-- `p` pushes, and the administrator watches. -/
theorem watcher_counted_as_push :
    let h := ((server "").run [⟨.connect "p", {}⟩,
      ⟨.receive "p" ⟨"", .join (.ok
        { room := "live", mode := "solo", soloRole := "push", streamID := "main" })⟩, {}⟩,
      ⟨.observeOpen 0 "admin", {}⟩, ⟨.observe 0 "" (.join "o" (.ok { room := "live" })), {}⟩]).hub
    (h.statsLoop {}).toJSON.soloPushPullCounts = ⟨2, 0⟩ ∧
      (h.statsLoop {}).toJSON.clientsByMode.count "solo" = 1 ∧
      ¬ CountsMembers h (h.statsLoop {}).toJSON := by
  intro h
  have hcounts : (h.statsLoop {}).toJSON.soloPushPullCounts = ⟨2, 0⟩ := by decide +kernel
  have hsolo : (h.statsLoop {}).toJSON.clientsByMode.count "solo" = 1 := by decide +kernel
  refine ⟨hcounts, hsolo, fun hagree => ?_⟩
  have hboth : (h.statsLoop {}).toJSON.soloPushPullCounts.push +
    (h.statsLoop {}).toJSON.soloPushPullCounts.pull = _ := hagree.both
  rw [hcounts, hsolo] at hboth
  cases hboth

end Meetkit
