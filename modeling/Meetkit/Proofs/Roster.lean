import Meetkit.Model.Roster
import Meetkit.Proofs.WellFormed

/-! The peers that members know. A member's snapshot and the message that carries it are
two steps, and a departure announced between them leaves the departed peer with the
member for good; without one, every member ends up with the others. -/

namespace Meetkit

namespace Stage

/-- The room whose map the client is in. -/
def within : Stage → Option RoomRef
  | .snapshot r | .joined r _ | .peerJoined r | .inside r | .delete r => some r
  | _ => none

/-- The same as long as the client's connection is open. -/
def present : Stage → Option RoomRef
  | .snapshot r | .joined r _ | .peerJoined r | .inside r => some r
  | _ => none

/-- The room that has yet to be told of the departure. -/
def leaving : Stage → Option RoomRef
  | .collect r | .stopped r _ => some r
  | _ => none

def departing : Stage → Bool
  | .delete _ | .collect _ | .stopped _ _ | .gone => true
  | _ => false

/-- The others will be told of the client. -/
def announcing : Stage → Bool
  | .snapshot _ | .joined _ _ | .peerJoined _ => true
  | _ => false

/-- The peers in the snapshot that is not queued yet. -/
def pending : Stage → List UserID
  | .joined _ peers => peers.map (·.userID)
  | _ => []

def resting : Stage → Bool
  | .outside | .inside _ | .gone => true
  | _ => false

theorem within_of_present {x : Stage} {r : RoomRef} (h : x.present = some r) : x.within = some r := by
  cases x <;> first | exact h | cases h

theorem departing_of_present {x : Stage} {r : RoomRef} (h : x.present = some r) :
    x.departing = false := by
  cases x <;> first | rfl | cases h

end Stage

namespace Hall

/-- The step tells a room of a departure only when no member is between a snapshot
that lists the departed and the message that carries it. -/
def settled (s : Hall) : HallLabel → Bool
  | .run c _ =>
    match s.stage c with
    | .stopped r [] => !(s.hub.room r).isBroadcast ||
        (s.hub.room r).clients.all fun j => c ∉ (s.stage j).pending
    | _ => true
  | _ => true

def Idle (s : Hall) : Prop := ∀ c, (s.stage c).resting = true

/-- The peers of every member of a room that tells its members of each other are the
other members. -/
def Mutual (s : Hall) : Prop :=
  ∀ r, (s.hub.room r).isBroadcast = true → ∀ j ∈ s.hub.members r, ∀ u,
    u ∈ s.peers j ↔ u ∈ s.hub.members r ∧ u ≠ j

structure Orderly (s : Hall) : Prop where
  business : ∀ c, s.hub.isObserver c = false
  within : ∀ r c, c ∈ (s.hub.room r).clients ↔ (s.stage c).within = some r
  closed : ∀ c, (s.hub.client c).closed = (s.stage c).departing
  fresh : ∀ c, s.stage c = .outside → s.inbox c = []

/-- What a member knows or is about to be told by its own join. -/
def known (s : Hall) (j : UserID) : List UserID := s.peers j ++ (s.stage j).pending

structure Accurate (s : Hall) : Prop where
  sound : ∀ r, (s.hub.room r).isBroadcast = true → ∀ j, (s.stage j).present = some r →
    ∀ u ∈ s.known j, u ≠ j ∧ ((s.stage u).within = some r ∨ (s.stage u).leaving = some r)
  complete : ∀ r, (s.hub.room r).isBroadcast = true → ∀ j, (s.stage j).present = some r →
    ∀ u, (s.stage u).within = some r → u ≠ j →
      u ∈ s.known j ∨ s.stage j = .snapshot r ∨ (s.stage u).announcing = true

section Steps

variable {s : Hall} {c d : UserID} {next : Stage} {ord : MapOrder}

@[simp] theorem setStage_hub : (s.setStage c next).hub = s.hub := rfl
@[simp] theorem setStage_inbox : (s.setStage c next).inbox = s.inbox := rfl
@[simp] theorem sendAll_hub (ids : List UserID) (m : ServerMsg) : (s.sendAll ids m).hub = s.hub := rfl
@[simp] theorem sendAll_stage (ids : List UserID) (m : ServerMsg) : (s.sendAll ids m).stage = s.stage := rfl

@[simp] theorem setStage_same : (s.setStage c next).stage c = next := Function.update_self _ _ _

theorem setStage_ne (hd : d ≠ c) : (s.setStage c next).stage d = s.stage d :=
  Function.update_of_ne hd _ _

theorem peers_sendAll (ids : List UserID) (m : ServerMsg) : (s.sendAll ids m).peers d =
    if d ∈ ids ∧ (s.hub.client d).closed = false then rosterReader.next (s.peers d) m
    else s.peers d := by
  unfold peers sendAll
  dsimp only
  split_ifs
  · exact rosterReader.read_snoc _ _
  · rfl

/-! ### Who is where -/

theorem Orderly.of {s' : Hall} (ho : s.Orderly) (hroom : s'.hub.room = s.hub.room)
    (hstage : s'.stage = Function.update s.stage c next)
    (hwithin : next.within = (s.stage c).within)
    (hbusiness : ∀ d, s'.hub.isObserver d = s.hub.isObserver d)
    (hclosed : ∀ d, (s'.hub.client d).closed =
      if d = c then next.departing else (s.hub.client d).closed)
    (hinbox : ∀ d, s'.stage d = .outside → s'.inbox d = s.inbox d)
    (hfresh : next = .outside → s.stage c = .outside) : s'.Orderly := by
  have hsame : ∀ d, d ≠ c → s'.stage d = s.stage d := fun d hd => by
    rw [hstage, Function.update_of_ne hd]
  have hself : s'.stage c = next := by rw [hstage, Function.update_self]
  refine ⟨fun d => (hbusiness d).trans (ho.business d), fun r d => ?_, fun d => ?_, fun d hd => ?_⟩
  · rw [hroom, ho.within]
    by_cases hdc : d = c
    · subst hdc; rw [hself, hwithin]
    · rw [hsame d hdc]
  · rw [hclosed]
    split_ifs with hdc
    · subst hdc; rw [hself]
    · rw [hsame d hdc, ho.closed]
  · rw [hinbox d hd]
    by_cases hdc : d = c
    · subst hdc; exact ho.fresh d (hfresh (hself ▸ hd))
    · exact ho.fresh d (hsame d hdc ▸ hd)

theorem Orderly.inbox_sendAll (ho : s.Orderly) {ids : List UserID} {r : RoomRef}
    (hids : ∀ d ∈ ids, d ∈ (s.hub.room r).clients) (m : ServerMsg) (hd : s.stage d = .outside) :
    (s.sendAll ids m).inbox d = s.inbox d := by
  refine if_neg fun h => ?_
  have hin := (ho.within r d).1 (hids d h.1)
  rw [hd] at hin
  cases hin

/-- A step of `c` that only says something. -/
theorem Orderly.told {s' : Hall} (ho : s.Orderly) (hhub : s'.hub = s.hub)
    (hstage : s'.stage = Function.update s.stage c next)
    (hwithin : next.within = (s.stage c).within)
    (hdeparting : next.departing = (s.stage c).departing) (hnext : next ≠ .outside)
    (hinbox : ∀ d, s.stage d = .outside → s'.inbox d = s.inbox d) : s'.Orderly := by
  refine ho.of (by rw [hhub]) hstage hwithin (fun _ => by rw [hhub]) (fun d => ?_) (fun d hd => ?_)
    fun h => absurd h hnext
  · rw [hhub]
    split_ifs with hdc
    · subst hdc; rw [hdeparting, ho.closed]
    · rfl
  · refine hinbox d ?_
    by_cases hdc : d = c
    · subst hdc
      rw [hstage, Function.update_self] at hd
      exact absurd hd hnext
    · rwa [hstage, Function.update_of_ne hdc] at hd

theorem Orderly.run (ho : s.Orderly) : (s.run c ord).Orderly := by
  have hroom : ∀ {r : RoomRef} {f : UserID → Bool}, ∀ d ∈ (s.hub.clientsOf ord r).filter f,
      d ∈ (s.hub.room r).clients := fun d hd => Hub.mem_clientsOf.1 (List.mem_filter.1 hd).1
  unfold Hall.run
  cases hc : s.stage c with
  | outside => exact ho
  | inside r => exact ho
  | gone => exact ho
  | snapshot r =>
    exact ho.told rfl rfl (by rw [hc]; rfl) (by rw [hc]; rfl) (by simp) fun _ _ => rfl
  | joined r peers =>
    refine ho.told rfl rfl (by rw [hc]; rfl) (by rw [hc]; rfl) (by simp) fun d hd =>
      ho.inbox_sendAll (r := r) (fun e he => ?_) _ hd
    rw [List.mem_singleton.1 he, ho.within, hc]
    rfl
  | peerJoined r =>
    dsimp only
    split_ifs
    · exact ho.told rfl rfl (by rw [hc]; rfl) (by rw [hc]; rfl) (by simp) fun d hd =>
        ho.inbox_sendAll hroom _ hd
    · exact ho.told rfl rfl (by rw [hc]; rfl) (by rw [hc]; rfl) (by simp) fun _ _ => rfl
  | delete r =>
    have hin : c ∈ (s.hub.room r).clients := by rw [ho.within, hc]; rfl
    dsimp only
    rw [if_neg (not_not.2 hin)]
    refine ⟨ho.business, fun t d => ?_, fun d => ?_, fun d hd => ?_⟩
    · rw [setStage_hub, Hub.mem_removeFrom, ho.within]
      by_cases hdc : d = c
      · subst hdc
        rw [setStage_same, hc]
        simp [Stage.within, eq_comm]
      · rw [setStage_ne hdc]
        exact ⟨fun h => h.1, fun h => ⟨h, fun h' => hdc h'.2⟩⟩
    · change (s.hub.client d).closed = _
      by_cases hdc : d = c
      · subst hdc
        rw [setStage_same, ho.closed, hc]
        rfl
      · rw [setStage_ne hdc, ho.closed]
    · refine ho.fresh d ?_
      by_cases hdc : d = c
      · subst hdc
        rw [setStage_same] at hd
        cases hd
      · rwa [setStage_ne hdc] at hd
  | collect r =>
    refine ho.of rfl rfl (by rw [hc]; rfl) (fun d => ?_) (fun d => ?_) (fun _ _ => rfl) (by simp)
    · simp only [setStage_hub]
      exact Hub.isObserver_setClient (by rfl) d
    · simp only [setStage_hub, Hub.setClient_client]
      split_ifs with hdc
      · exact (ho.closed c).trans (by rw [hc]; rfl)
      · rfl
  | stopped r entries =>
    cases entries with
    | cons e entries =>
      exact ho.told rfl rfl (by rw [hc]; rfl) (by rw [hc]; rfl) (by simp) fun d hd =>
        ho.inbox_sendAll hroom _ hd
    | nil =>
      dsimp only
      split_ifs
      · exact ho.told rfl rfl (by rw [hc]; rfl) (by rw [hc]; rfl) (by simp) fun d hd =>
          ho.inbox_sendAll hroom _ hd
      · exact ho.told rfl rfl (by rw [hc]; rfl) (by rw [hc]; rfl) (by simp) fun _ _ => rfl

theorem Orderly.step (ho : s.Orderly) (l : HallLabel) : (s.step l).Orderly := by
  cases l with
  | write c x =>
    refine ho.of (c := c) rfl (Function.update_eq_self c s.stage).symm rfl (fun d => ?_)
      (fun d => ?_) (fun _ _ => rfl) id
    · simp only [Hall.step]
      exact Hub.isObserver_setClient (by rfl) d
    · simp only [Hall.step, Hub.setClient_client]
      split_ifs with hdc
      · exact ho.closed c
      · rfl
  | insert c r mode =>
    simp only [Hall.step]
    split
    · rename_i hc
      split
      · exact ho
      · refine ⟨ho.business, fun t d => ?_, fun d => ?_, fun d hd => ?_⟩
        · rw [setStage_hub, Hub.mem_addTo, ho.within]
          by_cases hdc : d = c
          · subst hdc
            rw [setStage_same, hc]
            simp [Stage.within, eq_comm]
          · rw [setStage_ne hdc]
            simp [hdc]
        · change (s.hub.client d).closed = _
          by_cases hdc : d = c
          · subst hdc
            rw [setStage_same, ho.closed, hc]
            rfl
          · rw [setStage_ne hdc, ho.closed]
        · by_cases hdc : d = c
          · subst hdc; exact ho.fresh d hc
          · exact ho.fresh d (by rwa [setStage_ne hdc] at hd)
    · exact ho
  | run c ord => exact ho.run
  | depart c =>
    simp only [Hall.step]
    split
    · rename_i r hc
      refine ho.of rfl rfl (by rw [hc]; rfl) (fun d => ?_) (fun d => ?_) (fun _ _ => rfl) (by simp)
      · simp only [setStage_hub]
        exact Hub.isObserver_setClient (by rfl) d
      · simp only [setStage_hub, Hub.setClient_client]
        split_ifs <;> rfl
    · exact ho

/-! ### Who knows whom -/

theorem known_eq {s' : Hall} {j : UserID} (hinbox : s'.inbox j = s.inbox j)
    (hpending : (s'.stage j).pending = (s.stage j).pending) : s'.known j = s.known j := by
  rw [known, known, peers, peers, hinbox, hpending]

theorem isBroadcast_of {x y : Room} (h : x.mode = y.mode) : x.isBroadcast = y.isBroadcast := by
  rw [Room.isBroadcast, Room.isBroadcast, h]

/-- A step of `c` that is neither seen by others nor lets it see others. -/
theorem Accurate.of {s' : Hall} (ha : s.Accurate)
    (hmode : ∀ r, (s'.hub.room r).mode = (s.hub.room r).mode)
    (hstage : s'.stage = Function.update s.stage c next)
    (hpresent : ∀ r, next.present = some r → (s.stage c).present = some r)
    (hwithin : ∀ r, next.within = some r → (s.stage c).within = some r)
    (hgoing : ∀ r, (s.stage c).within = some r ∨ (s.stage c).leaving = some r →
      next.within = some r ∨ next.leaving = some r)
    (hannouncing : (s.stage c).announcing = true → next.announcing = true)
    (hsnapshot : ∀ r, s.stage c = .snapshot r → next = .snapshot r)
    (hknown : ∀ j u, (s'.stage j).present ≠ none → (u ∈ s'.known j ↔ u ∈ s.known j)) :
    s'.Accurate := by
  have hself : s'.stage c = next := by rw [hstage, Function.update_self]
  have hsame : ∀ d, d ≠ c → s'.stage d = s.stage d := fun d hd => by
    rw [hstage, Function.update_of_ne hd]
  have hpresent' : ∀ j r, (s'.stage j).present = some r → (s.stage j).present = some r := by
    intro j r hj
    by_cases hjc : j = c
    · subst hjc; exact hpresent r (hself ▸ hj)
    · rwa [hsame j hjc] at hj
  refine ⟨fun r hr j hj u hu => ?_, fun r hr j hj u hu huj => ?_⟩
  · rw [isBroadcast_of (hmode r)] at hr
    rw [hknown j u (by rw [hj]; simp)] at hu
    obtain ⟨huj, hu⟩ := ha.sound r hr j (hpresent' j r hj) u hu
    refine ⟨huj, ?_⟩
    by_cases huc : u = c
    · subst huc; rw [hself]; exact hgoing r hu
    · rwa [hsame u huc]
  · rw [isBroadcast_of (hmode r)] at hr
    have hu' : (s.stage u).within = some r := by
      by_cases huc : u = c
      · subst huc; exact hwithin r (hself ▸ hu)
      · rwa [hsame u huc] at hu
    rcases ha.complete r hr j (hpresent' j r hj) u hu' huj with h | h | h
    · exact Or.inl ((hknown j u (by rw [hj]; simp)).2 h)
    · refine Or.inr (Or.inl ?_)
      by_cases hjc : j = c
      · subst hjc; rw [hself]; exact hsnapshot r h
      · rwa [hsame j hjc]
    · refine Or.inr (Or.inr ?_)
      by_cases huc : u = c
      · subst huc; rw [hself]; exact hannouncing h
      · rwa [hsame u huc]

theorem Accurate.quiet {s' : Hall} (ha : s.Accurate) (hpeers : ∀ j, s'.peers j = s.peers j)
    (hmode : ∀ r, (s'.hub.room r).mode = (s.hub.room r).mode)
    (hstage : s'.stage = Function.update s.stage c next)
    (hpresent : ∀ r, next.present = some r → (s.stage c).present = some r)
    (hwithin : ∀ r, next.within = some r → (s.stage c).within = some r)
    (hgoing : ∀ r, (s.stage c).within = some r ∨ (s.stage c).leaving = some r →
      next.within = some r ∨ next.leaving = some r)
    (hannouncing : (s.stage c).announcing = true → next.announcing = true)
    (hsnapshot : ∀ r, s.stage c = .snapshot r → next = .snapshot r)
    (hpending : next.pending = (s.stage c).pending) : s'.Accurate := by
  refine ha.of hmode hstage hpresent hwithin hgoing hannouncing hsnapshot fun j u _ => ?_
  rw [known, known, hpeers, hstage, Function.update_apply]
  split_ifs with hj
  · subst hj; rw [hpending]
  · rfl

theorem Accurate.inserted (ha : s.Accurate) (ho : s.Orderly) {r : RoomRef}
    (hc : s.stage c = .outside) :
    ({ s with hub := s.hub.addTo r c }.setStage c (.snapshot r)).Accurate := by
  have hknown : ∀ j, j ≠ c → ({ s with hub := s.hub.addTo r c }.setStage c (.snapshot r)).known j =
      s.known j := fun j hj => known_eq rfl (by rw [setStage_ne hj])
  have hnobody : ({ s with hub := s.hub.addTo r c }.setStage c (.snapshot r)).known c = [] := by
    rw [known, setStage_same, peers, setStage_inbox]
    dsimp only
    rw [ho.fresh c hc]
    rfl
  refine ⟨fun t ht j hj u hu => ?_, fun t ht j hj u hu huj => ?_⟩
  · rw [setStage_hub, isBroadcast_of (s.hub.addTo_kept r t c).2] at ht
    by_cases hjc : j = c
    · subst hjc
      rw [hnobody] at hu
      exact absurd hu List.not_mem_nil
    · rw [setStage_ne hjc] at hj
      rw [hknown j hjc] at hu
      obtain ⟨huj, hu⟩ := ha.sound t ht j hj u hu
      refine ⟨huj, ?_⟩
      -- nobody knows `c` yet
      have huc : u ≠ c := by
        rintro rfl
        rw [hc] at hu
        rcases hu with hu | hu <;> cases hu
      rwa [setStage_ne huc]
  · rw [setStage_hub, isBroadcast_of (s.hub.addTo_kept r t c).2] at ht
    by_cases hjc : j = c
    · subst hjc
      rw [setStage_same] at hj ⊢
      obtain rfl : r = t := Option.some.inj hj
      exact Or.inr (Or.inl rfl)
    · by_cases huc : u = c
      · subst huc
        rw [setStage_same]
        exact Or.inr (Or.inr rfl)
      · rw [setStage_ne hjc] at hj ⊢
        rw [setStage_ne huc] at hu ⊢
        rw [hknown j hjc]
        exact ha.complete t ht j hj u hu huj

/-- `c` takes the snapshot its join will send it. -/
theorem Accurate.looked (ha : s.Accurate) (ho : s.Orderly) {r : RoomRef}
    (hc : s.stage c = .snapshot r) :
    (s.setStage c (.joined r (s.hub.snapshotPeers ord r c))).Accurate := by
  have hpeers : ∀ u, u ∈ (s.hub.snapshotPeers ord r c).map (·.userID) ↔
      (s.stage u).within = some r ∧ u ≠ c := by
    intro u
    have hid : (s.hub.snapshotPeers ord r c).map (·.userID) =
        (s.hub.clientsOf ord r).filter fun d => d ≠ c && !s.hub.isObserver d := by
      rw [Hub.snapshotPeers, List.map_map]
      exact List.map_id _
    rw [hid, List.mem_filter, Hub.mem_clientsOf, ho.within, ho.business]
    simp
  have hother : ∀ j, j ≠ c → (s.setStage c (.joined r (s.hub.snapshotPeers ord r c))).known j =
      s.known j := fun j hj => known_eq rfl (by rw [setStage_ne hj])
  have hself : ∀ u, u ∈ (s.setStage c (.joined r (s.hub.snapshotPeers ord r c))).known c ↔
      u ∈ s.known c ∨ (s.stage u).within = some r ∧ u ≠ c := by
    intro u
    have hnone : s.known c = s.peers c := by rw [known, hc]; exact List.append_nil _
    rw [known, setStage_same, List.mem_append, Stage.pending, hpeers, hnone]
    rfl
  have hwithin : ∀ u, (s.setStage c (.joined r (s.hub.snapshotPeers ord r c))).stage u =
      if u = c then .joined r (s.hub.snapshotPeers ord r c) else s.stage u := fun u =>
    Function.update_apply _ _ _ _
  refine ⟨fun t ht j hj u hu => ?_, fun t ht j hj u hu huj => ?_⟩
  · have hold : u ≠ j ∧ ((s.stage u).within = some t ∨ (s.stage u).leaving = some t) := by
      by_cases hjc : j = c
      · subst hjc
        rw [setStage_same] at hj
        obtain rfl : r = t := Option.some.inj hj
        rcases (hself u).1 hu with hu | ⟨hu, huj⟩
        · exact ha.sound r ht j (by rw [hc]; rfl) u hu
        · exact ⟨huj, Or.inl hu⟩
      · rw [hother j hjc] at hu
        rw [setStage_ne hjc] at hj
        exact ha.sound t ht j hj u hu
    refine ⟨hold.1, ?_⟩
    rw [hwithin]
    split_ifs with huc
    · subst huc
      rw [hc] at hold
      exact hold.2
    · exact hold.2
  · rw [hwithin] at hu
    have hu' : (s.stage u).within = some t := by
      split_ifs at hu with huc
      · subst huc; rw [hc]; exact hu
      · exact hu
    by_cases hjc : j = c
    · subst hjc
      rw [setStage_same] at hj
      obtain rfl : r = t := Option.some.inj hj
      exact Or.inl ((hself u).2 (Or.inr ⟨hu', huj⟩))
    · rw [hother j hjc, setStage_ne hjc]
      rw [setStage_ne hjc] at hj
      refine (ha.complete t ht j hj u hu' huj).imp_right fun h => h.imp_right fun h => ?_
      rw [hwithin]
      split_ifs
      · rfl
      · exact h

/-- What a page makes of a message to a room that tells its members of each other. -/
theorem peers_broadcast (ho : s.Orderly) {r t : RoomRef} (m : ServerMsg) {j : UserID}
    (ht : (s.hub.room t).isBroadcast = true) (hj : (s.stage j).present = some t) :
    (if (s.hub.room r).isBroadcast then s.broadcastExcept ord r c m else s).peers j =
      if t = r ∧ j ≠ c then rosterReader.next (s.peers j) m else s.peers j := by
  have hin : j ∈ (s.hub.room r).clients ↔ t = r := by
    rw [ho.within, Stage.within_of_present hj]
    exact Option.some_inj
  have hopen : (s.hub.client j).closed = false := by
    rw [ho.closed]; exact Stage.departing_of_present hj
  split_ifs with hr h h
  · rw [broadcastExcept, peers_sendAll, if_pos]
    refine ⟨List.mem_filter.2 ⟨Hub.mem_clientsOf.2 (hin.2 h.1), ?_⟩, hopen⟩
    simp [h.2, ho.business]
  · rw [broadcastExcept, peers_sendAll, if_neg]
    rintro ⟨hmem, -⟩
    obtain ⟨hmem, hne⟩ := List.mem_filter.1 hmem
    exact h ⟨hin.1 (Hub.mem_clientsOf.1 hmem), by simpa [ho.business] using hne⟩
  · rw [h.1] at ht
    exact absurd ht hr
  · rfl

theorem broadcast_stage (s : Hall) (ord : MapOrder) (r : RoomRef) (c : UserID) (m : ServerMsg)
    (next : Stage) (u : UserID) :
    ((if (s.hub.room r).isBroadcast then s.broadcastExcept ord r c m else s).setStage c next).stage u =
      if u = c then next else s.stage u := by
  simp only [setStage, Function.update_apply]
  split_ifs <;> rfl

theorem broadcast_hub (s : Hall) (ord : MapOrder) (r : RoomRef) (c : UserID) (m : ServerMsg)
    (next : Stage) :
    ((if (s.hub.room r).isBroadcast then s.broadcastExcept ord r c m else s).setStage c next).hub =
      s.hub := by
  rw [setStage_hub]
  split_ifs <;> rfl

theorem Accurate.announced (ha : s.Accurate) (ho : s.Orderly) {r : RoomRef}
    (hc : s.stage c = .peerJoined r) (p : PeerJoinedPayload) (hp : p.userID = c) :
    ((if (s.hub.room r).isBroadcast then s.broadcastExcept ord r c (.peerJoined p)
      else s).setStage c (.inside r)).Accurate := by
  have hstage := s.broadcast_stage ord r c (.peerJoined p) (.inside r)
  have hhub := s.broadcast_hub ord r c (.peerJoined p) (.inside r)
  have hpresent : ∀ {j t}, (if j = c then Stage.inside r else s.stage j).present = some t →
      (s.stage j).present = some t := by
    intro j t hj
    split_ifs at hj with hjc
    · subst hjc; rw [hc]; exact hj
    · exact hj
  have hwithin : ∀ {u t}, (if u = c then Stage.inside r else s.stage u).within = some t ↔
      (s.stage u).within = some t := by
    intro u t
    split_ifs with huc
    · subst huc; rw [hc]; rfl
    · rfl
  have hknown : ∀ {t}, (s.hub.room t).isBroadcast = true → ∀ {j}, (s.stage j).present = some t →
      ∀ u, u ∈ ((if (s.hub.room r).isBroadcast then s.broadcastExcept ord r c (.peerJoined p)
        else s).setStage c (.inside r)).known j ↔ u ∈ s.known j ∨ t = r ∧ j ≠ c ∧ u = c := by
    intro t ht j hj u
    have hpending : (if j = c then Stage.inside r else s.stage j).pending = (s.stage j).pending := by
      split_ifs with hjc
      · subst hjc; rw [hc]; rfl
      · rfl
    rw [known, hstage, hpending, List.mem_append]
    change u ∈ (if (s.hub.room r).isBroadcast then s.broadcastExcept ord r c (.peerJoined p)
      else s).peers j ∨ _ ↔ _
    rw [peers_broadcast ho _ ht hj, known, List.mem_append]
    split_ifs with h
    · simp only [rosterReader, List.mem_insert_iff, hp]
      tauto
    · have hno : ¬(t = r ∧ j ≠ c ∧ u = c) := fun h' => h ⟨h'.1, h'.2.1⟩
      tauto
  refine ⟨fun t ht j hj u hu => ?_, fun t ht j hj u hu huj => ?_⟩
  · rw [hhub] at ht
    rw [hstage] at hj ⊢
    have hj' := hpresent hj
    rcases (hknown ht hj' u).1 hu with hold | ⟨rfl, hjc, rfl⟩
    · obtain ⟨huj, hgoing⟩ := ha.sound t ht j hj' u hold
      refine ⟨huj, ?_⟩
      split_ifs with huc
      · subst huc
        rw [hc] at hgoing
        exact hgoing
      · exact hgoing
    · rw [if_pos rfl]
      exact ⟨Ne.symm hjc, Or.inl rfl⟩
  · rw [hhub] at ht
    rw [hstage] at hj hu ⊢
    rw [hstage]
    have hj' := hpresent hj
    rw [hknown ht hj' u]
    by_cases huc : u = c
    · subst huc
      have hur : r = t := by rw [if_pos rfl] at hu; exact Option.some.inj hu
      exact Or.inl (Or.inr ⟨hur.symm, Ne.symm huj, rfl⟩)
    · rw [if_neg huc]
      rcases ha.complete t ht j hj' u (hwithin.1 hu) huj with h | h | h
      · exact Or.inl (Or.inl h)
      · refine Or.inr (Or.inl ?_)
        have hjc : j ≠ c := by
          rintro rfl
          rw [hc] at h
          cases h
        rwa [if_neg hjc]
      · exact Or.inr (Or.inr h)

/-- The others are told that `c` left, at a time when none of them is about to hear of
it from its own join. -/
theorem Accurate.dropped (ha : s.Accurate) (ho : s.Orderly) {r : RoomRef}
    (hc : s.stage c = .stopped r [])
    (hg : (s.hub.room r).isBroadcast = true → ∀ j ∈ (s.hub.room r).clients, c ∉ (s.stage j).pending) :
    ((if (s.hub.room r).isBroadcast then s.broadcastExcept ord r c (.peerLeft c)
      else s).setStage c .gone).Accurate := by
  have hstage := s.broadcast_stage ord r c (.peerLeft c) .gone
  have hhub := s.broadcast_hub ord r c (.peerLeft c) .gone
  have hpresent : ∀ {j t}, (if j = c then Stage.gone else s.stage j).present = some t →
      j ≠ c ∧ (s.stage j).present = some t := by
    intro j t hj
    split_ifs at hj with hjc
    · cases hj
    · exact ⟨hjc, hj⟩
  have hknown : ∀ {t}, (s.hub.room t).isBroadcast = true → ∀ {j}, j ≠ c →
      (s.stage j).present = some t →
      ∀ u, u ∈ ((if (s.hub.room r).isBroadcast then s.broadcastExcept ord r c (.peerLeft c)
        else s).setStage c .gone).known j ↔ u ∈ s.known j ∧ u ≠ c := by
    intro t ht j hjc hj u
    rw [known, hstage, if_neg hjc, List.mem_append]
    change u ∈ (if (s.hub.room r).isBroadcast then s.broadcastExcept ord r c (.peerLeft c)
      else s).peers j ∨ _ ↔ _
    have hold : ∀ u, u ∈ s.known j ↔ u ∈ s.peers j ∨ u ∈ (s.stage j).pending := fun u => by
      rw [known, List.mem_append]
    rw [peers_broadcast ho _ ht hj, hold]
    split_ifs with h
    · obtain rfl := h.1
      have hpending : u ∈ (s.stage j).pending → u ≠ c := by
        rintro hu rfl
        exact hg ht j ((ho.within t j).2 (Stage.within_of_present hj)) hu
      simp only [rosterReader, List.mem_filter, decide_eq_true_eq]
      tauto
    · -- members of other rooms do not know `c`
      have htr : t ≠ r := fun htr => h ⟨htr, hjc⟩
      have hu : u ∈ s.peers j ∨ u ∈ (s.stage j).pending → u ≠ c := by
        rintro hu rfl
        have := (ha.sound t ht j hj u ((hold u).2 hu)).2
        rw [hc] at this
        rcases this with h | h
        · cases h
        · exact htr (Option.some.inj h).symm
      tauto
  refine ⟨fun t ht j hj u hu => ?_, fun t ht j hj u hu huj => ?_⟩
  · rw [hhub] at ht
    rw [hstage] at hj ⊢
    obtain ⟨hjc, hj'⟩ := hpresent hj
    obtain ⟨hu, huc⟩ := (hknown ht hjc hj' u).1 hu
    rw [if_neg huc]
    exact ha.sound t ht j hj' u hu
  · rw [hhub] at ht
    rw [hstage] at hj hu ⊢
    rw [hstage]
    obtain ⟨hjc, hj'⟩ := hpresent hj
    have huc : u ≠ c := by
      rintro rfl
      rw [if_pos rfl] at hu
      cases hu
    rw [if_neg huc] at hu ⊢
    rw [if_neg hjc, hknown ht hjc hj' u]
    exact (ha.complete t ht j hj' u hu huj).imp_left fun h => ⟨h, huc⟩

theorem Accurate.run (ha : s.Accurate) (ho : s.Orderly) (hg : s.settled (.run c ord) = true) :
    (s.run c ord).Accurate := by
  unfold Hall.run
  cases hc : s.stage c with
  | outside => exact ha
  | inside r => exact ha
  | gone => exact ha
  | snapshot r => exact ha.looked ho hc
  | joined r peers =>
    refine ha.of (fun _ => rfl) rfl (by rw [hc]; exact fun _ => id) (by rw [hc]; exact fun _ => id)
      (by rw [hc]; exact fun _ => id) (by rw [hc]; exact id) (by rw [hc]; exact fun _ h => (by cases h))
      fun j u hj => ?_
    -- what the snapshot had is in the message now
    change u ∈ (s.send c _).peers j ++ (Function.update s.stage c (.peerJoined r) j).pending ↔ _
    rw [known, send, peers_sendAll, Function.update_apply]
    by_cases hjc : j = c
    · subst hjc
      have hopen : (s.hub.client j).closed = false := by rw [ho.closed, hc]; rfl
      rw [if_pos ⟨List.mem_singleton.2 rfl, hopen⟩, if_pos rfl, hc]
      simp only [rosterReader, Stage.pending, List.append_nil, List.mem_append, List.mem_union_iff]
    · rw [if_neg (by simp [hjc]), if_neg hjc]
  | peerJoined r => exact ha.announced ho hc _ rfl
  | delete r =>
    have hin : c ∈ (s.hub.room r).clients := by rw [ho.within, hc]; rfl
    dsimp only
    rw [if_neg (not_not.2 hin)]
    exact ha.quiet (fun _ => rfl) (fun t => (s.hub.removeFrom_kept r t c).2) rfl
      (fun _ h => (by cases h)) (fun _ h => (by cases h))
      (by rw [hc]; exact fun t h => h.symm.imp_left fun h => (by cases h)) (by rw [hc]; exact id)
      (by rw [hc]; exact fun _ h => (by cases h)) (by rw [hc]; rfl)
  | collect r =>
    exact ha.quiet (fun _ => rfl) (fun _ => rfl) rfl (fun _ h => (by cases h))
      (fun _ h => (by cases h)) (by rw [hc]; exact fun _ => id) (by rw [hc]; exact id)
      (by rw [hc]; exact fun _ h => (by cases h)) (by rw [hc]; rfl)
  | stopped r entries =>
    cases entries with
    | cons e entries =>
      exact ha.quiet (fun j => (peers_sendAll _ _).trans (ite_self _)) (fun _ => rfl) rfl
        (fun _ h => (by cases h)) (fun _ h => (by cases h)) (by rw [hc]; exact fun _ => id)
        (by rw [hc]; exact id) (by rw [hc]; exact fun _ h => (by cases h)) (by rw [hc]; rfl)
    | nil =>
      refine ha.dropped ho hc fun hr j hj => ?_
      simp only [settled, hc, hr, Bool.not_true, Bool.false_or, List.all_eq_true,
        decide_eq_true_eq] at hg
      exact hg j hj

theorem Accurate.step (ha : s.Accurate) (ho : s.Orderly) {l : HallLabel}
    (hg : s.settled l = true) : (s.step l).Accurate := by
  cases l with
  | write c x =>
    exact ha.quiet (c := c) (fun _ => rfl) (fun _ => rfl)
      (Function.update_eq_self c s.stage).symm (fun _ => id) (fun _ => id) (fun _ => id) id
      (fun _ => id) rfl
  | insert c r mode =>
    simp only [Hall.step]
    split
    · rename_i hc
      split
      · exact ha
      · exact ha.inserted ho hc
    · exact ha
  | run c ord => exact ha.run ho hg
  | depart c =>
    simp only [Hall.step]
    split
    · rename_i r hc
      exact ha.quiet (fun _ => rfl) (fun _ => rfl) rfl (fun _ h => (by cases h))
        (by rw [hc]; exact fun _ => id) (by rw [hc]; exact fun _ => id) (by rw [hc]; exact id)
        (by rw [hc]; exact fun _ h => (by cases h)) (by rw [hc]; rfl)
    · exact ha

theorem Accurate.mutual (ha : s.Accurate) (ho : s.Orderly) (hidle : s.Idle) : s.Mutual := by
  have hinside : ∀ {r u}, u ∈ s.hub.members r ↔ s.stage u = .inside r := by
    intro r u
    rw [Hub.mem_members, ho.within, ho.business]
    have hu := hidle u
    cases hs : s.stage u <;> simp_all [Stage.within, Stage.resting]
  intro r hr j hj u
  have hpeers : s.known j = s.peers j := by
    rw [known, hinside.1 hj]
    exact List.append_nil _
  have hpresent : (s.stage j).present = some r := by rw [hinside.1 hj]; rfl
  rw [← hpeers]
  constructor
  · intro hu
    obtain ⟨huj, hgoing⟩ := ha.sound r hr j hpresent u hu
    refine ⟨?_, huj⟩
    rw [Hub.mem_members, ho.within, ho.business]
    refine ⟨hgoing.resolve_right fun h => ?_, rfl⟩
    have hrest := hidle u
    cases hs : s.stage u <;> simp_all [Stage.leaving, Stage.resting]
  · rintro ⟨hu, huj⟩
    have hu' := hinside.1 hu
    rcases ha.complete r hr j hpresent u (by rw [hu']; rfl) huj with h | h | h
    · exact h
    · rw [hinside.1 hj] at h
      cases h
    · rw [hu'] at h
      cases h

end Steps

end Hall

theorem hall_orderly (rooms : RoomRef → RoomID × RoomMode) (ls : List HallLabel) :
    ((hall rooms).run ls).Orderly := by
  refine Machine.run_invariant (P := Hall.Orderly) ?_ (fun s l ho => ho.step l) ls
  exact ⟨fun _ => rfl, fun r c => iff_of_false List.not_mem_nil (by simp [hall, Stage.within]),
    fun _ => rfl, fun _ _ => rfl⟩

/-- In every interleaving of joins and departures in which no departure is announced
while a member is between the snapshot that lists the departed and the message that
carries it, the members left in a room know each other and nobody else. -/
theorem members_know_each_other (rooms : RoomRef → RoomID × RoomMode) {ls : List HallLabel}
    (hg : (hall rooms).Guarded (fun s l => s.settled l = true) ls)
    (hidle : ((hall rooms).run ls).Idle) : ((hall rooms).run ls).Mutual := by
  have ha : ((hall rooms).run ls).Accurate := by
    refine Machine.guarded_invariant_of (Q := Hall.Orderly) (hall_orderly rooms) ?_
      (fun s l hg ho ha => ha.step ho hg) hg
    exact ⟨fun r _ j hj => (nomatch hj), fun r _ j hj => (nomatch hj)⟩
  exact ha.mutual (hall_orderly rooms ls) hidle

/-! ### Two runs -/

namespace HallLabel

def client : HallLabel → UserID
  | .write c _ | .insert c _ _ | .run c _ | .depart c => c

def looks (c : UserID) (r : RoomRef) : List HallLabel :=
  [.write c { nickname := c }, .insert c r .meeting, .run c {}]

def told (c : UserID) : List HallLabel := [.run c {}, .run c {}]

def departs (c : UserID) : List HallLabel := .depart c :: List.replicate 3 (.run c {})

end HallLabel

theorem Hall.step_stage {s : Hall} {l : HallLabel} {c : UserID} (hc : c ≠ l.client) :
    (s.step l).stage c = s.stage c := by
  cases l with
  | write d x => rfl
  | insert d r mode =>
    simp only [Hall.step]
    repeat' split
    all_goals first | rfl | exact setStage_ne hc
  | run d ord =>
    simp only [Hall.step, Hall.run]
    repeat' split
    all_goals first | rfl | exact setStage_ne hc
  | depart d =>
    simp only [Hall.step]
    split
    · exact setStage_ne hc
    · rfl

/-- Nothing is going on after a run if nothing is for the clients it is about. -/
theorem hall_idle {rooms : RoomRef → RoomID × RoomMode} {ls : List HallLabel}
    (h : (ls.all fun l => (((hall rooms).run ls).stage l.client).resting) = true) :
    ((hall rooms).run ls).Idle := by
  intro c
  by_cases hc : ∃ l ∈ ls, l.client = c
  · obtain ⟨l, hl, rfl⟩ := hc
    exact List.all_eq_true.1 h l hl
  · have hstage : ((hall rooms).run ls).stage c = .outside := by
      refine Machine.guarded_invariant (M := hall rooms) (P := fun s => s.stage c = .outside)
        (G := fun _ l => c ≠ l.client) rfl (fun s l hl hs => (Hall.step_stage hl).trans hs) ?_
      refine Machine.guarded_of_splits fun pre l post hls hl => hc ⟨l, ?_, hl.symm⟩
      rw [hls]
      simp
    rw [hstage]
    rfl

/-- `b` leaves a meeting of three. -/
theorem two_of_three_left :
    ((hall fun _ => ("r", .meeting)).run (HallLabel.looks "a" 0 ++ HallLabel.looks "b" 0 ++
      HallLabel.told "a" ++ HallLabel.told "b" ++ HallLabel.looks "c" 0 ++ HallLabel.told "c" ++
      HallLabel.departs "b")).Mutual :=
  members_know_each_other _ (by decide +kernel) (hall_idle (by decide +kernel))

/-- `b` leaves between `a`'s snapshot and the message that carries it. -/
theorem ghost_peer : ¬ ∀ (rooms : RoomRef → RoomID × RoomMode) (ls : List HallLabel),
    ((hall rooms).run ls).Idle → ((hall rooms).run ls).Mutual := by
  intro h
  have hab := h (fun _ => ("r", .meeting)) (HallLabel.looks "b" 0 ++ HallLabel.told "b" ++
    HallLabel.looks "a" 0 ++ HallLabel.departs "b" ++ HallLabel.told "a")
    (hall_idle (by decide +kernel)) 0 (by decide +kernel) "a" (by decide +kernel) "b"
  exact absurd hab (by decide +kernel)

end Meetkit
