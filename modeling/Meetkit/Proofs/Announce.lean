import Mathlib.Data.List.Find
import Meetkit.Proofs.Deeds
import Meetkit.Proofs.Rejoin
import Meetkit.Proofs.Tenants

/-! What the dashboard shows and when it is told. A change of what the statistics
snapshot reads is announced if the stats hook is called after it; two messages make
such a change and never call the hook. -/

namespace Meetkit

open World

/-! ### What the snapshot reads -/

def Client.content (x : Client) : BriefContent where
  nickname := x.nickname
  soloRole := x.soloRole
  plannedStreamID := x.plannedStreamID
  micOn := x.micOn
  camOn := x.camOn
  streams := fun kind => x.streams.lookup kind
  recording := x.recordings.entries.any fun e => e.2
  isObserver := x.isObserver
  clientPlatform := x.clientPlatform

namespace Hub

def roomContent (h : Hub) (r : RoomRef) : RoomContent where
  mode := (h.room r).mode
  members := (h.room r).clients.length
  realMembers := (h.members r).length
  observers := ((h.room r).clients.filter h.isObserver).length
  clients := fun u => if u ∈ (h.room r).clients then some (h.client u).content else none

/-- The data the snapshot reads. -/
def stats (h : Hub) (id : RoomID) : Option RoomContent := (h.rooms.lookup id).map h.roomContent

section Snapshot

variable {h : Hub} {ord : MapOrder}

theorem find_self (l : List UserID) (u : UserID) :
    (l.find? fun c => c = u) = if u ∈ l then some u else none := by
  cases hf : l.find? fun c => c = u with
  | none =>
    rw [List.find?_eq_none] at hf
    rw [if_neg fun hu => hf u hu (by simp)]
  | some c =>
    obtain rfl : c = u := by simpa using List.find?_some hf
    rw [if_pos (List.mem_of_find?_eq_some hf)]

theorem clientBrief_content (c : UserID) : (h.clientBrief ord c).content = (h.client c).content := by
  have hstreams : ∀ kind, (((h.clientBrief ord c).streams.find? fun s => s.kind = kind).map
      (·.streamID)) = (h.client c).streams.lookup kind := by
    intro kind
    rw [← GoMap.find_range (ord.streams c)]
    simp only [clientBrief, List.find?_map, Option.map_map]
    rfl
  unfold ClientBrief.content
  simp only [hstreams]
  rfl

theorem roomStats_content (r : RoomRef) : (h.roomStats ord r).content = h.roomContent r := by
  have hclients : ∀ u, ((h.roomStats ord r).clients.find? fun b => b.userID = u).map (·.content) =
      if u ∈ (h.room r).clients then some (h.client u).content else none := by
    intro u
    have hfind : (h.clientsOf ord r).find? (fun c => (h.clientBrief ord c).userID = u) =
        if u ∈ (h.room r).clients then some u else none := by
      have h := find_self (h.clientsOf ord r) u
      simp only [mem_clientsOf] at h
      exact h
    simp only [roomStats, List.find?_map]
    rw [show ((fun b : ClientBrief => decide (b.userID = u)) ∘ h.clientBrief ord) =
      fun c => decide ((h.clientBrief ord c).userID = u) from rfl, hfind]
    split_ifs
    · simp only [Option.map_some, clientBrief_content]
    · rfl
  unfold RoomStats.content
  simp only [hclients]
  rfl

/-- In a table whose rooms are listed under their own ids, the snapshot says what it
read, in whatever order the loops went. -/
theorem snapshot_content (htable : ∀ id r, h.rooms.lookup id = some r → (h.room r).id = id) :
    (h.statsSnapshot ord).content = h.stats := by
  funext id
  unfold HubStats.content stats
  rw [← GoMap.find_range ord.rooms h.rooms id]
  have hfind : (h.rooms.range ord.rooms).find? (fun e => (h.roomStats ord e.2).id = id) =
      (h.rooms.range ord.rooms).find? (fun e => e.1 = id) := by
    refine List.find?_congr fun e he => ?_
    rw [show (h.roomStats ord e.2).id = e.1 from htable e.1 e.2 (GoMap.mem_range.1 he)]
  simp only [statsSnapshot, roomRefs, List.map_map, List.find?_map, Option.map_map]
  rw [show ((fun rs : RoomStats => decide (rs.id = id)) ∘ h.roomStats ord ∘ Prod.snd) =
    fun e => decide ((h.roomStats ord e.2).id = id) from rfl, hfind]
  refine congrArg (fun f => Option.map f _) (funext fun e => ?_)
  exact roomStats_content e.2

end Snapshot

/-! ### What does not show -/

section Frame

variable {h : Hub} {c : UserID} {f : Client → Client}

theorem stats_congr {h h' : Hub} (hrooms : h'.rooms = h.rooms)
    (hcontent : ∀ id r, h.rooms.lookup id = some r → h'.roomContent r = h.roomContent r) :
    h'.stats = h.stats := by
  funext id
  unfold stats
  rw [hrooms]
  cases hl : h.rooms.lookup id with
  | none => rfl
  | some r => rw [Option.map_some, Option.map_some, hcontent id r hl]

/-- The content of a room is that of its clients. -/
theorem roomContent_congr {h h' : Hub} {r : RoomRef} (hmode : (h'.room r).mode = (h.room r).mode)
    (hclients : (h'.room r).clients = (h.room r).clients)
    (hsame : ∀ u ∈ (h.room r).clients, (h'.client u).content = (h.client u).content) :
    h'.roomContent r = h.roomContent r := by
  have hob : ∀ u ∈ (h.room r).clients, h'.isObserver u = h.isObserver u := fun u hu =>
    congrArg BriefContent.isObserver (hsame u hu)
  unfold roomContent members
  rw [hmode, hclients]
  congr 1
  · rw [List.filter_congr fun u hu => by rw [hob u hu]]
  · rw [List.filter_congr hob]
  · funext u
    split_ifs with hu
    · rw [hsame u hu]
    · rfl

theorem stats_setClient (hf : (f (h.client c)).content = (h.client c).content) :
    (h.setClient c f).stats = h.stats := by
  refine stats_congr rfl fun id r _ => roomContent_congr rfl rfl fun u _ => ?_
  rw [setClient_client]
  split_ifs with hu
  · rw [hu, hf]
  · rfl

theorem stats_outside (hout : ∀ r, c ∉ (h.room r).clients) : (h.setClient c f).stats = h.stats := by
  refine stats_congr rfl fun id r _ => roomContent_congr rfl rfl fun u hu => ?_
  have huc : u ≠ c := by
    rintro rfl
    exact hout r hu
  rw [setClient_ne _ _ _ _ huc]

theorem stats_allocate {x : Client} (hout : ∀ r, c ∉ (h.room r).clients) :
    (h.allocate c x).stats = h.stats :=
  stats_outside (f := fun _ => x) hout

end Frame

/-! ### Announcements -/

/-- Every write that changes what the snapshot reads is followed by a call of the hook. -/
def Announcing (h : Hub) (ds : List Deed) : Prop :=
  ∀ pre f post, ds = pre ++ Deed.write f :: post →
    (f (h.performAll pre)).stats ≠ (h.performAll pre).stats → Deed.notify ∈ post

namespace Announcing

variable {h : Hub} {ds es : List Deed} {f : Hub → Hub} {ord : MapOrder} {r : RoomRef} {c : UserID}

theorem nil (h : Hub) : h.Announcing [] := by
  intro pre f post heq
  simp at heq

theorem cons (hf : (f h).stats = h.stats) (ha : (f h).Announcing ds) :
    h.Announcing (.write f :: ds) := by
  intro pre g post heq hne
  cases pre with
  | nil =>
    obtain ⟨hfg, -⟩ := List.cons.inj heq
    obtain rfl := Deed.write.inj hfg
    exact absurd hf hne
  | cons d pre =>
    obtain ⟨rfl, htail⟩ := List.cons.inj heq
    exact ha pre g post htail hne

/-- What comes before a call of the hook is announced by it. -/
theorem notified (ds : List Deed) : h.Announcing (ds ++ [.notify]) := by
  intro pre g post heq _
  rcases List.eq_nil_or_concat post with rfl | ⟨post', d, rfl⟩
  · have hlast := congrArg List.getLast? heq
    simp at hlast
  · rw [List.concat_eq_append] at heq ⊢
    rw [← List.cons_append, ← List.append_assoc] at heq
    obtain ⟨-, hd⟩ := List.append_inj' heq rfl
    obtain rfl : Deed.notify = d := (List.cons.inj hd).1
    exact List.mem_append_right _ List.mem_cons_self

theorem append (h1 : h.Announcing ds) (h2 : (h.performAll ds).Announcing es) :
    h.Announcing (ds ++ es) := by
  intro pre f post heq hne
  rcases List.append_eq_append_iff.1 heq with ⟨mid, rfl, hes⟩ | ⟨mid, hds, hmid⟩
  · rw [performAll_append] at hne
    exact h2 mid f post hes hne
  · cases mid with
    | nil =>
      rw [List.append_nil] at hds
      subst hds
      exact h2 [] f post hmid.symm hne
    | cons d mid =>
      obtain ⟨rfl, rfl⟩ := List.cons.inj hmid
      exact List.mem_append_left _ (h1 pre f mid hds hne)

/-! The deeds of a removal are none, or end with a call of the hook. -/

theorem removeObserver : h.Announcing (h.removeObserverDeeds r c) := by
  unfold removeObserverDeeds
  by_cases hc : c ∉ (h.room r).clients
  · rw [if_pos hc]
    exact nil h
  · rw [if_neg hc]
    exact notified [.write fun h => h.removeFrom r c, .write fun h => h.removeRoomIfEmpty r]

theorem observerLeave : h.Announcing (h.observerLeaveDeeds c) := by
  unfold observerLeaveDeeds
  cases (h.client c).room with
  | none => exact nil h
  | some r => exact cons (stats_setClient rfl) removeObserver

theorem remove : h.Announcing (h.removeDeeds ord r c) := by
  unfold removeDeeds
  split_ifs
  · exact removeObserver
  · dsimp only
    rw [List.append_cons _ (Deed.write _) [Deed.notify]]
    exact notified _
  · exact nil h

theorem leave : h.Announcing (h.leaveDeeds ord c) := by
  unfold leaveDeeds
  cases (h.client c).room with
  | none => exact nil h
  | some r => exact cons (stats_setClient rfl) remove

theorem cleanup : h.Announcing (h.cleanupDeeds ord c) := by
  unfold cleanupDeeds
  split_ifs
  · exact nil h
  · refine cons (stats_setClient rfl) ?_
    cases (h.client c).room with
    | none => exact nil _
    | some r => exact remove

theorem kick : h.Announcing (h.kickDeeds ord c) := by
  unfold kickDeeds
  split_ifs
  · exact nil h
  · exact leave

theorem kickAll (cs : List UserID) : h.Announcing (kickAllDeeds ord h cs) := by
  induction cs generalizing h with
  | nil => exact nil h
  | cons c cs ih => exact kick.append ih

theorem kickMember {roomID : RoomID} : h.Announcing (h.kickMemberDeeds ord roomID c) := by
  unfold kickMemberDeeds
  split
  · exact nil h
  · split_ifs
    · exact nil h
    · exact kick

theorem dissolve {roomID : RoomID} : h.Announcing (h.dissolveDeeds ord roomID) := by
  unfold dissolveDeeds
  split
  · exact nil h
  · exact kickAll _

theorem observeJoin {u : UserID} {adminUser : String} :
    h.Announcing (observeJoinDeeds r u adminUser) :=
  append (notified [.write fun h => h.allocate u (observerClient u adminUser),
      .write fun h => h.addTo r u, .write fun h => h.setRoomOf u (some r)])
    (cons (stats_setClient rfl) (nil _))

theorem single (hf : (f h).stats = h.stats) : h.Announcing [.write f] := cons hf (nil _)

/-- A join is announced once it is let in. One that is rejected was written to a client
in no room and has found a room with members. -/
theorem join {p : Decoded JoinPayload} (hw : h.WellFormed) (ht : h.Tenanted) :
    h.Announcing (h.joinDeeds c p) := by
  unfold joinDeeds
  cases hq : h.checkJoin c p with
  | error e => exact nil h
  | ok a =>
    obtain ⟨q, mode⟩ := a
    obtain ⟨hroom, -⟩ := checkJoin_ok hq
    have hout := hw.not_member_of_room hroom
    dsimp only
    generalize hsolo : (if mode = .solo then [Deed.write fun h => (h.joinSolo c q).1] else []) = solo
    obtain ⟨hann₁, g, hh₁⟩ : h.Announcing solo ∧ ∃ g, h.performAll solo = h.setClient c g := by
      subst hsolo
      split_ifs
      · obtain ⟨g, -, hwrite⟩ := joinSolo_mild h c q
        exact ⟨single (hwrite ▸ stats_outside hout), g, hwrite⟩
      · exact ⟨nil h, id, (setClient_id h c).symm⟩
    obtain ⟨hann₂, f, hh₂⟩ : h.Announcing (solo ++ [.write fun h => h.joinFields c q]) ∧
        ∃ f, h.performAll (solo ++ [.write fun h => h.joinFields c q]) = h.setClient c f := by
      have hrun : h.performAll (solo ++ [.write fun h => h.joinFields c q]) =
          (h.performAll solo).joinFields c q := by
        rw [performAll_append]
        rfl
      obtain ⟨g', -, hg'⟩ := joinFields_mild c q
      refine ⟨hann₁.append (single ?_), g' ∘ g, ?_⟩
      · rw [hh₁, hg']
        exact stats_outside hout
      · rw [hrun, hh₁, hg', setClient_setClient]
    generalize solo ++ [Deed.write fun h => h.joinFields c q] = fields at hann₂ hh₂ ⊢
    have hcreated : h.performAll (fields ++ [.write fun h => (h.getOrCreateRoom q.room mode).1]) =
        ((h.setClient c f).getOrCreateRoom q.room mode).1 := by
      rw [performAll_append, hh₂]
      rfl
    rw [hh₂, hcreated]
    split_ifs with hrefused
    · exact hann₁
    · cases hadm : ((h.setClient c f).getOrCreateRoom q.room mode).1.admission
          ((h.setClient c f).getOrCreateRoom q.room mode).2 c mode with
      | some e =>
        dsimp only
        cases hl : (h.setClient c f).rooms.lookup q.room with
        | none =>
          have hnone : (((h.setClient c f).getOrCreateRoom q.room mode).1.setClient c id).admission
              ((h.setClient c f).getOrCreateRoom q.room mode).2 c mode = none :=
            admission_created hl
          rw [setClient_id, hadm] at hnone
          cases hnone
        | some r =>
          have hfound : (h.setClient c f).getOrCreateRoom q.room mode = (h.setClient c f, r) := by
            unfold getOrCreateRoom
            rw [hl]
          refine append (append hann₂ (single ?_)) (single ?_)
          · rw [hh₂, hfound]
          · have hnil : ((h.setClient c f).room r).clients ≠ [] := by
              intro hnil
              refine ht q.room r hl ?_
              have hnil' : (h.room r).clients = [] := hnil
              rw [members, hnil']
              rfl
            rw [hcreated, hfound, removeRoomIfEmpty, if_neg hnil]
      | none =>
        dsimp only
        generalize ((h.setClient c f).getOrCreateRoom q.room mode).2 = r
        have hnotified : h.Announcing (fields ++ [.write fun h => (h.getOrCreateRoom q.room mode).1] ++
            [.write fun h => h.addTo r c] ++ [.notify]) := notified _
        have hlast : h.Announcing ((fields ++ [.write fun h => (h.getOrCreateRoom q.room mode).1] ++
            [.write fun h => h.addTo r c] ++ [.notify]) ++
              [.write fun h => h.setRoomOf c (some r)]) :=
          append hnotified (single (stats_setClient rfl))
        rw [List.append_assoc, List.append_assoc] at hlast
        exact hlast

end Announcing

end Hub

/-! ### The messages that are not announced -/

section Messages

variable {env : Env} {w : World} {c : UserID}

/-- The step takes a message that changes a member's microphone, camera or streams
and does not call the hook. -/
def World.Silent (w : World) (i : Input) : Prop :=
  ∃ c q b, i.op = .receive c ⟨q, b⟩ ∧ w.serving c = true ∧ (w.hub.client c).room ≠ none ∧
    ((∃ p, b = .mediaState (.ok p) ∧
        (p.micOn ≠ (w.hub.client c).micOn ∨ p.camOn ≠ (w.hub.client c).camOn)) ∨
      ∃ p, b = .streamStarted (.ok p) ∧ p.kind ≠ "" ∧ p.streamID ≠ "" ∧
        (w.hub.client c).streams.lookup p.kind ≠ some p.streamID)

theorem registerDeeds_announcing (h : Hub) (p : WebRTCOfferPayload) (stream : StreamID) :
    h.Announcing (registerDeeds c p stream) := by
  unfold registerDeeds
  split_ifs
  · exact .notified [_]
  · exact .notified [_]
  · exact .notified [_]
  · exact .notified [_]

theorem offerDeeds_announcing (h : Hub) (p : Decoded WebRTCOfferPayload) :
    h.Announcing (offerDeeds env w c p) := by
  unfold offerDeeds
  split
  · split_ifs
    · exact .nil h
    · split
      · exact registerDeeds_announcing h _ _
      · exact .nil h
  · exact .nil h

theorem recordDeeds_announcing (h : Hub) (start : Bool) (p : Decoded RecordControlPayload) :
    h.Announcing (recordDeeds env w c start p) := by
  unfold recordDeeds
  split
  · split_ifs
    · exact .nil h
    · exact .notified [_]
  · exact .nil h

theorem stoppedDeeds_announcing (hw : w.hub.WellFormed) (p : Decoded StreamStoppedPayload) :
    w.hub.Announcing (w.stoppedDeeds c p) := by
  unfold stoppedDeeds
  split
  · rename_i r p hr
    split_ifs with hp hs
    · exact .nil _
    · -- there was no stream of the kind
      have hnone : (w.hub.client c).streams.lookup p.kind = none := by
        cases hl : (w.hub.client c).streams.lookup p.kind with
        | none => rfl
        | some s =>
          rw [hl] at hs
          exact absurd hs (hw.streamID c p.kind s hl)
      refine .single (Hub.stats_setClient ?_)
      have hlookup := GoMap.lookup_erase_absent hnone
      unfold Client.content
      dsimp only
      rw [hlookup]
    · exact .notified [_]
  · exact .nil _

theorem mediaDeeds_announcing {p : Decoded MediaStatePayload}
    (hsame : ∀ p', p = .ok p' → (w.hub.client c).room ≠ none →
      p'.micOn = (w.hub.client c).micOn ∧ p'.camOn = (w.hub.client c).camOn) :
    w.hub.Announcing (w.mediaDeeds c p) := by
  unfold mediaDeeds
  split
  · rename_i r p hr
    have hroom : (w.hub.client c).room ≠ none := by
      intro hnone
      rw [requireRoom, hnone] at hr
      cases hr
    obtain ⟨hmic, hcam⟩ := hsame p rfl hroom
    split_ifs
    · exact .nil _
    · refine .single (Hub.stats_setClient ?_)
      rw [hmic, hcam]
  · exact .nil _

theorem startedDeeds_announcing {p : Decoded StreamStartedPayload}
    (hsame : ∀ p', p = .ok p' → (w.hub.client c).room ≠ none → p'.kind ≠ "" → p'.streamID ≠ "" →
      (w.hub.client c).streams.lookup p'.kind = some p'.streamID) :
    w.hub.Announcing (w.startedDeeds c p) := by
  unfold startedDeeds
  split
  · rename_i r p hr
    have hroom : (w.hub.client c).room ≠ none := by
      intro hnone
      rw [requireRoom, hnone] at hr
      cases hr
    split_ifs with hp
    · exact .nil _
    · simp only [not_or] at hp
      have hl := hsame p rfl hroom hp.2.1 hp.2.2
      refine .single (Hub.stats_setClient ?_)
      have hlookup : ∀ k, ((w.hub.client c).streams.insert p.kind p.streamID).lookup k =
          (w.hub.client c).streams.lookup k := by
        intro k
        rw [GoMap.lookup_insert_iff]
        split_ifs with hk
        · rw [hk, hl]
        · rfl
      unfold Client.content
      simp only [hlookup]
  · exact .nil _

theorem messageDeeds_announcing {q : String} {b : Body} (hw : w.Settled)
    (hserving : w.serving c = true) (hloud : ¬w.Silent ⟨.receive c ⟨q, b⟩, env⟩) :
    w.hub.Announcing (messageDeeds env w c b) := by
  cases b with
  | join p => exact .join hw.sound.hub hw.tenanted
  | leave | chat | unknown => exact .nil _
  | mediaState p =>
    refine mediaDeeds_announcing fun p' hp hroom => ?_
    by_contra hne
    exact hloud ⟨c, q, _, rfl, hserving, hroom, Or.inl ⟨p', by rw [hp], not_and_or.1 hne⟩⟩
  | webrtcOffer p => exact offerDeeds_announcing _ p
  | streamStarted p =>
    refine startedDeeds_announcing fun p' hp hroom hk hs => ?_
    by_contra hne
    exact hloud ⟨c, q, _, rfl, hserving, hroom, Or.inr ⟨p', by rw [hp], hk, hs, hne⟩⟩
  | streamStopped p => exact stoppedDeeds_announcing hw.sound.hub p
  | recordControl start p => exact recordDeeds_announcing _ start p

theorem deeds_announcing (hw : w.Settled) {i : Input} (hloud : ¬w.Silent i) :
    w.hub.Announcing (w.deeds i) := by
  obtain ⟨op, env⟩ := i
  have hwf := hw.sound.hub
  cases op with
  | connect c =>
    simp only [deeds]
    split_ifs with hc
    · exact .nil _
    · refine .single (Hub.stats_allocate fun r hr => ?_)
      have hroom := (hwf.member r c hr).1
      rw [hwf.unborn c hc] at hroom
      cases hroom
  | receive c e =>
    simp only [deeds]
    split_ifs with hc
    · exact messageDeeds_announcing hw hc hloud
    · exact .nil _
  | disconnect c =>
    simp only [deeds]
    split_ifs
    · exact .cleanup
    · exact .nil _
  | kick roomID userID reason => exact .kickMember
  | dissolve roomID reason => exact .dissolve
  | observe k reqID body =>
    simp only [deeds]
    split_ifs
    · cases body with
      | join u p =>
        simp only [observeDeeds, World.observeJoinDeeds]
        split
        · exact .nil _
        · split
          · exact .nil _
          · split_ifs
            · exact .nil _
            · exact .observeJoin
      | leave =>
        simp only [observeDeeds, observeLeaveDeeds]
        split
        · exact .nil _
        · exact .observerLeave
      | webrtcOffer p =>
        simp only [observeDeeds]
        split
        · exact .nil _
        · exact offerDeeds_announcing _ p
      | watchStop | unknown => exact .nil _
    · exact .nil _
  | observeClose k =>
    simp only [deeds, observeLeaveDeeds]
    split_ifs
    · split
      · exact .nil _
      · exact .observerLeave
    · exact .nil _
  | badEnvelope | goroutine | observeOpen => exact .nil _

/-- What a member of a room is writing shows. -/
theorem stats_member (hw : w.hub.WellFormed) (hserving : w.serving c = true)
    (hroom : (w.hub.client c).room ≠ none) {f : Client → Client}
    (hf : (f (w.hub.client c)).content ≠ (w.hub.client c).content) :
    (w.hub.setClient c f).stats ≠ w.hub.stats := by
  obtain ⟨r, hr⟩ := Option.ne_none_iff_exists'.1 hroom
  have hin := hw.present c r hr (serving_iff.1 hserving).2
  have hlisted := hw.listed r (List.ne_nil_of_mem hin)
  intro hsame
  have hroomContent : (w.hub.setClient c f).roomContent r = w.hub.roomContent r := by
    have h := congrFun hsame (w.hub.room r).id
    unfold Hub.stats at h
    rw [Hub.setClient_rooms, hlisted] at h
    exact Option.some.inj h
  have hbrief := congrFun (congrArg RoomContent.clients hroomContent) c
  simp only [Hub.roomContent, Hub.setClient_room, if_pos hin, Hub.setClient_same,
    Option.some.injEq] at hbrief
  exact hf hbrief

/-- The silent messages change what shows, and their deeds are the one write. -/
theorem silent_deeds (hw : w.Settled) {i : Input} (hs : w.Silent i) :
    ∃ f, w.deeds i = [.write f] ∧ (f w.hub).stats ≠ w.hub.stats := by
  obtain ⟨op, env⟩ := i
  obtain ⟨c, q, b, hop, hserving, hroom, hb⟩ := hs
  obtain rfl : op = .receive c ⟨q, b⟩ := hop
  have hbiz := hw.sound.hub.business (serving_iff.1 hserving).1
  obtain ⟨r, hr⟩ := Option.ne_none_iff_exists'.1 hroom
  have hrequire : w.requireRoom c = .ok r := by rw [requireRoom, hr]
  rcases hb with ⟨p, rfl, hp⟩ | ⟨p, rfl, hk, hid, hp⟩
  · refine ⟨fun h => h.setClient c fun x => { x with micOn := p.micOn, camOn := p.camOn }, ?_,
      stats_member hw.sound.hub hserving hroom ?_⟩
    · simp only [deeds, if_pos hserving, messageDeeds, mediaDeeds, hrequire, hbiz,
        Bool.false_eq_true, if_false]
    · intro hsame
      have hmic := congrArg BriefContent.micOn hsame
      have hcam := congrArg BriefContent.camOn hsame
      rcases hp with hp | hp
      · exact hp hmic
      · exact hp hcam
  · refine ⟨fun h => h.setClient c fun x => { x with streams := x.streams.insert p.kind p.streamID },
      ?_, stats_member hw.sound.hub hserving hroom ?_⟩
    · simp only [deeds, if_pos hserving, messageDeeds, startedDeeds, hrequire, hbiz, hk, hid,
        Bool.false_eq_true, or_self, if_false, writeStream]
    · intro hsame
      have hstreams := congrFun (congrArg BriefContent.streams hsame) p.kind
      simp only [Client.content, GoMap.lookup_insert_iff, if_true] at hstreams
      exact hp hstreams.symm

end Messages

/-- For a step from a reachable hub: its deeds are what it does to the hub and when it
calls the stats hook, and if the snapshots before and after it differ then the hook is
called after the last change, exactly if the step is not one of the two silent
messages. Several steps in a row, such as a dissolve and the cleanups of its victims,
announce every change if none of them is silent. -/
theorem stats_changes_announced_iff (token : String) (is : List Input) :
    let w := (server token).run is
    (∀ i, (w.step i).hub = w.hub.performAll (w.deeds i) ∧
      (w.step i).log.count .statsChanged =
        w.log.count .statsChanged + (w.deeds i).countP Deed.isNotify) ∧
    (∀ i ord ord',
      (((w.step i).hub.statsSnapshot ord').content ≠ (w.hub.statsSnapshot ord).content →
        w.hub.Announcing (w.deeds i)) ↔ ¬w.Silent i) ∧
    ∀ js, (server token).GuardedFrom (fun w i => ¬w.Silent i) w js →
      w.hub.Announcing ((server token).labelsFrom World.deeds w js).flatten := by
  intro w
  have hw : w.Settled := server_settled token is
  refine ⟨fun i => ?_, fun i ord ord' => ?_, ?_⟩
  · have h := World.Performs.step hw.sound.hub i
    exact ⟨h.hub, h.notices⟩
  · have hafter : (w.step i).Settled := by
      have h := server_settled token (is ++ [i])
      rwa [Machine.run_snoc] at h
    have hsnap : (w.hub.statsSnapshot ord).content = w.hub.stats :=
      Hub.snapshot_content fun id r hl => (hw.sound.hub.table id r hl).1
    have hsnap' : ((w.step i).hub.statsSnapshot ord').content = (w.step i).hub.stats :=
      Hub.snapshot_content fun id r hl => (hafter.sound.hub.table id r hl).1
    rw [hsnap, hsnap']
    refine ⟨fun h hs => ?_, fun hloud _ => deeds_announcing hw hloud⟩
    obtain ⟨f, hdeeds, hne⟩ := silent_deeds hw hs
    have hhub := (World.Performs.step hw.sound.hub i).hub
    have hann := h (by rw [hhub, hdeeds]; exact hne)
    rw [hdeeds] at hann
    exact List.not_mem_nil (hann [] f [] rfl hne)
  · intro js
    have hrun : w = (server token).run is := rfl
    clear_value w
    induction js generalizing w is with
    | nil => exact fun _ => .nil _
    | cons j js ih =>
      rintro ⟨hloud, hrest⟩
      have hnext : (server token).step w j = (server token).run (is ++ [j]) := by
        rw [Machine.run_snoc, hrun]
      have hdeeds := (World.Performs.step hw.sound.hub j).hub
      have htail := ih (is ++ [j]) ((server token).step w j) (hnext ▸ server_settled token _)
        hnext hrest
      have hfirst := deeds_announcing hw hloud
      have hstep : ((server token).step w j).hub = w.hub.performAll (w.deeds j) := hdeeds
      rw [hstep] at htail
      exact hfirst.append htail

/-- A member switches its microphone off: the snapshot changes and the hook is not called. -/
theorem media_state_is_not_announced :
    let is : List Input := [⟨.connect "a", {}⟩, ⟨.receive "a" ⟨"", .join (.ok { room := "r" })⟩, {}⟩]
    let i : Input := ⟨.receive "a" ⟨"", .mediaState (.ok { micOn := false, camOn := true })⟩, {}⟩
    let w := (server "").run is
    (w.hub.statsSnapshot {}).rooms.map (fun rs => rs.clients.map (·.micOn)) = [[true]] ∧
      ((w.step i).hub.statsSnapshot {}).rooms.map (fun rs => rs.clients.map (·.micOn)) = [[false]] ∧
      Event.statsChanged ∉ w.news i := by
  decide +kernel

end Meetkit
