import Meetkit.Proofs.Orphans

/-! Observers in the interleaved server. The gate of an observe-join is passed before
the observer is in the room's map, and whoever ends the business takes out the
observers it finds there. Nobody is left behind when observers enter live rooms
only, are in the map, attached and open to messages when they are dismissed, and no
room that has some is dropped in another's place. -/

namespace Meetkit

/-- The room whose observers a departure has yet to collect. -/
def Loop.clears : Loop → Option RoomRef
  | .clear r | .activity r | .observers r => some r
  | _ => none

/-- The room that a departure has yet to leave. -/
def Loop.deletes : Loop → Option RoomRef
  | .delete r => some r
  | _ => none

def Watch.attaching : Watch → Bool
  | .attach _ => true
  | _ => false

/-- The rooms an observer may be in, by what lets it in. -/
def Watch.Allows : Watch → RoomRef → Prop
  | .away, _ | .lookup _, _ | .insert _, _ => False
  | .attach r, t | .send r, t | .attachAgain r, t => t = r
  | .watching, _ => True

def Loop.resting : Loop → Bool
  | .reading | .gone => true
  | _ => false

def Watch.resting : Watch → Bool
  | .away | .watching => true
  | _ => false

namespace Sys

structure Idle (s : Sys) : Prop where
  loop : ∀ c, (s.loop c).resting = true
  watch : ∀ u, (s.watch u).resting = true
  leaves : s.leaves = []

/-- The departing member `c` has yet to collect the observers of `r`. -/
def Collects (s : Sys) (r : RoomRef) (c : UserID) : Prop :=
  (s.loop c).clears = some r ∨ (s.loop c).deletes = some r ∧ c ∈ (s.hub.room r).clients

instance (s : Sys) (r : RoomRef) (c : UserID) : Decidable (s.Collects r c) :=
  inferInstanceAs (Decidable (_ ∨ _ ∧ _))

def clearing (s : Sys) (r : RoomRef) : Bool := s.hub.used.any fun c => s.Collects r c

/-- A room that the table lists and whose business goes on, or whose observers a
departing member has yet to collect. -/
def live (s : Sys) (r : RoomRef) : Bool :=
  s.hub.rooms.lookup (s.hub.room r).id = some r && (s.hub.isBusinessActive r || s.clearing r)

/-- Whether the table entry that the drop of `r` deletes is of a room with observers. -/
def dropsWatched (s : Sys) (r : RoomRef) : Bool :=
  (s.hub.room r).clients.isEmpty &&
    match s.hub.rooms.lookup (s.hub.room r).id with
    | none => false
    | some t => (s.hub.room t).clients.any s.hub.isObserver

/-- The step lets no observer into a room that is not live, dismisses none that is not
attached yet or whose queue is closed, and drops no room that has some. If the broadcast
of a departing member panics, the business of the room goes on or another member has
yet to collect the observers. -/
def attentive (s : Sys) (l : Label) : Bool :=
  (match l with
    | .watch u =>
      match s.watch u with
      | .insert r => s.live r
      | _ => true
    | .run c _ =>
      match s.loop c with
      | .dismissing _ (.leave o :: _) => !(s.watch o).attaching
      | .dismissing _ (.send o :: _) => !s.shut o
      | _ => true
    | .panic c =>
      match s.loop c with
      | .activity r =>
        s.hub.isBusinessActive r || s.hub.used.any fun d => d ≠ c && s.Collects r d
      | _ => true
    | _ => true) &&
  match s.drops l with
  | none => true
  | some r => !s.dropsWatched r

def In (s : Sys) (r : RoomRef) (o : UserID) : Prop :=
  o ∈ (s.hub.room r).clients ∧ s.hub.isObserver o = true

/-- Somebody is going to delete the observer from the room's map. -/
def Deleting (s : Sys) (r : RoomRef) (o : UserID) : Prop :=
  .delete r o ∈ s.leaves ∨ ∃ c, .delete r o ∈ (s.loop c).todo

/-- A departure has collected the observer. -/
def Dismissed (s : Sys) (o : UserID) : Prop := ∃ c, .leave o ∈ (s.loop c).todo

def Cleared (s : Sys) (r : RoomRef) : Prop := ∃ c, s.Collects r c

structure Supervised (s : Sys) : Prop where
  allowed : ∀ r o, s.In r o → (s.watch o).Allows r
  listed : ∀ r o, s.In r o → s.hub.rooms.lookup (s.hub.room r).id = some r
  attached : ∀ r o, s.In r o →
    s.watch o = .attach r ∨ (s.hub.client o).room = some r ∨ s.Deleting r o
  settled : ∀ r o, s.In r o →
    s.hub.isBusinessActive r = true ∨ s.Cleared r ∨ s.Dismissed o ∨ s.Deleting r o

section Frames

variable {s s' : Sys} {c : UserID}

/-- What a step may do that has nothing to do with observers, but for ending the
business of a room and taking observers on to dismiss. -/
theorem Supervised.of (hsup : s.Supervised) (hin : ∀ r o, s'.In r o → s.In r o)
    (hwatch : ∀ r o, s'.In r o → s'.watch o = s.watch o)
    (hlisted : ∀ r o, s'.In r o → s.hub.rooms.lookup (s.hub.room r).id = some r →
      s'.hub.rooms.lookup (s'.hub.room r).id = some r)
    (hroom : ∀ r o, s'.In r o → (s'.hub.client o).room = (s.hub.client o).room)
    (hdeleting : ∀ r o, s.Deleting r o → s'.Deleting r o)
    (hdismissed : ∀ o, s.Dismissed o → s'.Dismissed o)
    (hactive : ∀ r o, s'.In r o → s.hub.isBusinessActive r = true →
      s'.hub.isBusinessActive r = true ∨ s'.Cleared r)
    (hcleared : ∀ r o, s'.In r o → s.Cleared r →
      s'.hub.isBusinessActive r = true ∨ s'.Cleared r ∨ s'.Dismissed o) : s'.Supervised where
  allowed r o ho := hwatch r o ho ▸ hsup.allowed r o (hin r o ho)
  listed r o ho := hlisted r o ho (hsup.listed r o (hin r o ho))
  attached r o ho := by
    rw [hwatch r o ho, hroom r o ho]
    exact (hsup.attached r o (hin r o ho)).imp_right fun h => h.imp_right (hdeleting r o)
  settled r o ho := by
    rcases hsup.settled r o (hin r o ho) with h | h | h | h
    · exact (hactive r o ho h).imp_right Or.inl
    · exact (hcleared r o ho h).imp_right fun h => h.imp_right Or.inl
    · exact Or.inr (Or.inr (Or.inl (hdismissed o h)))
    · exact Or.inr (Or.inr (Or.inr (hdeleting r o h)))

theorem deleting_setLoop {next : Loop} {r : RoomRef} {o : UserID} (h : s.Deleting r o)
    (hnext : ∀ x ∈ (s.loop c).todo, x ∈ next.todo) : (s.setLoop c next).Deleting r o := by
  refine h.imp_right fun ⟨d, hd⟩ => ⟨d, ?_⟩
  rw [setLoop_loop]
  split_ifs with hdc
  · subst hdc; exact hnext _ hd
  · exact hd

theorem dismissed_setLoop {next : Loop} {o : UserID} (h : s.Dismissed o)
    (hnext : ∀ x ∈ (s.loop c).todo, x ∈ next.todo) : (s.setLoop c next).Dismissed o := by
  obtain ⟨d, hd⟩ := h
  refine ⟨d, ?_⟩
  rw [setLoop_loop]
  split_ifs with hdc
  · subst hdc; exact hnext _ hd
  · exact hd

theorem Collects.other {k : Hub} {next : Loop} {r : RoomRef} {d : UserID} (h : s.Collects r d)
    (hd : d ≠ c) (hkept : (s.loop d).deletes = some r → d ∈ (s.hub.room r).clients →
      d ∈ (k.room r).clients) : ({ s with hub := k }.setLoop c next).Collects r d := by
  unfold Collects
  rw [setLoop_ne _ _ hd]
  exact h.imp_right fun ⟨hdel, hin⟩ => ⟨hdel, hkept hdel hin⟩

theorem cleared_setLoop {h' : Hub} {next : Loop} {r : RoomRef} (h : s.Cleared r)
    (hkept : ∀ d, d ≠ c → (s.loop d).deletes = some r → d ∈ (s.hub.room r).clients →
      d ∈ (h'.room r).clients)
    (hnext : s.Collects r c → next.clears = some r) :
    ({ s with hub := h' }.setLoop c next).Cleared r := by
  obtain ⟨d, hd⟩ := h
  by_cases hdc : d = c
  · subst hdc
    exact ⟨d, Or.inl (by rw [setLoop_same]; exact hnext hd)⟩
  · exact ⟨d, hd.other hdc (hkept d hdc)⟩

theorem Supervised.of_setLoop (hsup : s.Supervised) {h' : Hub} {next : Loop}
    (htodo : ∀ x ∈ (s.loop c).todo, x ∈ next.todo)
    (hclears : ∀ r, s.Collects r c → next.clears = some r)
    (hkept : ∀ r o, o ∈ (h'.room r).clients → ∀ d, d ≠ c → d ∈ (s.hub.room r).clients →
      d ∈ (h'.room r).clients)
    (hin : ∀ r o, o ∈ (h'.room r).clients → h'.isObserver o = true → s.In r o)
    (hlisted : ∀ r o, o ∈ (h'.room r).clients →
      s.hub.rooms.lookup (s.hub.room r).id = some r → h'.rooms.lookup (h'.room r).id = some r)
    (hroom : ∀ r o, s.In r o → (h'.client o).room = (s.hub.client o).room)
    (hactive : ∀ r o, o ∈ (h'.room r).clients → s.hub.isBusinessActive r = true →
      h'.isBusinessActive r = true ∨ next.clears = some r) :
    ({ s with hub := h' }.setLoop c next).Supervised := by
  refine hsup.of (fun r o ho => hin r o ho.1 ho.2) (fun _ _ _ => rfl)
    (fun r o ho hl => hlisted r o ho.1 hl) (fun r o ho => hroom r o (hin r o ho.1 ho.2))
    (fun _ _ h => deleting_setLoop (s := { s with hub := h' }) h htodo)
    (fun _ h => dismissed_setLoop (s := { s with hub := h' }) h htodo)
    (fun r o ho h => (hactive r o ho.1 h).imp_right fun hn =>
      ⟨c, Or.inl (by rw [setLoop_same]; exact hn)⟩)
    (fun r o ho h => Or.inr (Or.inl
      (cleared_setLoop h (fun d hd _ => hkept r o ho.1 d hd) (hclears r))))

end Frames

end Sys

/-! ### Business -/

section Business

variable {h h' : Hub} {r : RoomRef}

theorem isBusinessActive_iff : h.isBusinessActive r = true ↔ ∃ c ∈ h.members r,
    (h.room r).mode = .solo → (h.client c).soloRole ≠ some .play := by
  unfold Hub.isBusinessActive
  split_ifs with hnil hsolo
  · simp [hnil]
  · simp [hsolo, List.any_eq_true]
  · obtain ⟨c, hc⟩ := List.exists_mem_of_ne_nil _ hnil
    exact iff_of_true rfl ⟨c, hc, fun h => absurd h hsolo⟩

theorem isBusinessActive_of (hmode : (h'.room r).mode = (h.room r).mode)
    (hmembers : ∀ c ∈ h.members r, c ∈ h'.members r ∧
      (h'.client c).soloRole = (h.client c).soloRole)
    (hactive : h.isBusinessActive r = true) : h'.isBusinessActive r = true := by
  rw [isBusinessActive_iff] at hactive ⊢
  obtain ⟨c, hc, hrole⟩ := hactive
  refine ⟨c, (hmembers c hc).1, ?_⟩
  rw [hmode, (hmembers c hc).2]
  exact hrole

end Business

namespace Sys

section Steps

variable {s s' : Sys} {c : UserID}

theorem Supervised.setClient (hsup : s.Supervised) (hbiz : s.hub.isObserver c = false)
    {f : Client → Client} {next : Loop}
    (hob : (f (s.hub.client c)).isObserver = (s.hub.client c).isObserver)
    (hrole : (f (s.hub.client c)).soloRole = (s.hub.client c).soloRole ∨
      ∀ r, c ∉ s.hub.members r)
    (htodo : ∀ x ∈ (s.loop c).todo, x ∈ next.todo)
    (hclears : ∀ r, s.Collects r c → next.clears = some r) :
    ({ s with hub := s.hub.setClient c f }.setLoop c next).Supervised := by
  have hobs : ∀ d, (s.hub.setClient c f).isObserver d = s.hub.isObserver d :=
    Hub.isObserver_setClient hob
  refine hsup.of_setLoop htodo hclears (fun _ _ _ _ _ hd => hd)
    (fun r o ho hobo => ⟨ho, (hobs o).symm.trans hobo⟩) (fun _ _ _ hl => hl)
    (fun r o ho => ?_) (fun r _ _ h => Or.inl ?_)
  · have hoc : o ≠ c := by
      rintro rfl
      have hob' := ho.2
      rw [hbiz] at hob'
      cases hob'
    rw [Hub.setClient_ne _ _ _ _ hoc]
  · have hmembers : (s.hub.setClient c f).members r = s.hub.members r := by
      simp only [Hub.members, hobs]
      rfl
    refine isBusinessActive_of (h := s.hub) rfl (fun d hd => ⟨hmembers.symm ▸ hd, ?_⟩) h
    rw [Hub.setClient_client]
    split_ifs with hdc
    · subst hdc
      exact hrole.resolve_right fun hout => hout r hd
    · rfl

theorem Supervised.setLoop (hsup : s.Supervised) {next : Loop}
    (htodo : ∀ x ∈ (s.loop c).todo, x ∈ next.todo)
    (hclears : ∀ r, s.Collects r c → next.clears = some r ∨ s.hub.isBusinessActive r = true ∨
      (∀ o, s.In r o → .leave o ∈ next.todo) ∨ ∃ d, d ≠ c ∧ s.Collects r d) :
    (s.setLoop c next).Supervised := by
  have hother : ∀ {r d}, d ≠ c → s.Collects r d → (s.setLoop c next).Cleared r := fun hd h =>
    ⟨_, h.other (k := s.hub) hd fun _ h => h⟩
  refine hsup.of (fun _ _ ho => ho) (fun _ _ _ => rfl) (fun _ _ _ hl => hl) (fun _ _ _ => rfl)
    (fun _ _ h => deleting_setLoop h htodo) (fun _ h => dismissed_setLoop h htodo)
    (fun _ _ _ h => Or.inl h) ?_
  rintro r o ho ⟨d, hd⟩
  by_cases hdc : d = c
  · subst hdc
    rcases hclears r hd with h | h | h | ⟨e, he, h⟩
    · exact Or.inr (Or.inl ⟨d, Or.inl (by rw [setLoop_same]; exact h)⟩)
    · exact Or.inl h
    · exact Or.inr (Or.inr ⟨d, by rw [setLoop_same]; exact h o ho⟩)
    · exact Or.inr (Or.inl (hother he h))
  · exact Or.inr (Or.inl (hother hdc hd))

theorem Supervised.drop (hsup : s.Supervised) {r : RoomRef} (hwatched : s.dropsWatched r = false)
    (hhub : s'.hub = s.hub.removeRoomIfEmpty r) (hwatch : s'.watch = s.watch)
    (hdeleting : ∀ t o, s.Deleting t o → s'.Deleting t o)
    (hdismissed : ∀ o, s.Dismissed o → s'.Dismissed o)
    (hcleared : ∀ t, s.Cleared t → s'.Cleared t) : s'.Supervised := by
  have hroom : s'.hub.room = s.hub.room := by rw [hhub, Hub.removeRoomIfEmpty_room]
  have hclient : s'.hub.client = s.hub.client := by rw [hhub, Hub.removeRoomIfEmpty_client]
  have hin : ∀ t o, s'.In t o → s.In t o := by
    rintro t o ⟨h1, h2⟩
    rw [hroom] at h1
    rw [Hub.isObserver, hclient] at h2
    exact ⟨h1, h2⟩
  refine hsup.of hin (fun _ _ _ => by rw [hwatch]) (fun t o ho hl => ?_)
    (fun _ _ _ => by rw [hclient]) hdeleting hdismissed (fun t _ _ h => Or.inl ?_)
    (fun t _ _ h => Or.inr (Or.inl (hcleared t h)))
  · have ho' := hin t o ho
    rw [hroom, hhub, Hub.removeRoomIfEmpty]
    split_ifs with hempty
    · simp only [GoMap.lookup_erase_iff]
      rw [if_neg, hl]
      -- the entry that goes is of a room without observers
      intro hid
      have hentry : s.hub.rooms.lookup (s.hub.room r).id = some t := hid ▸ hl
      have hsome : (s.hub.room t).clients.any s.hub.isObserver = true :=
        List.any_eq_true.2 ⟨o, ho'.1, ho'.2⟩
      simp [dropsWatched, hempty, hentry, hsome] at hwatched
    · exact hl
  · refine isBusinessActive_of (h := s.hub) (by rw [hroom]) (fun d hd => ⟨?_, by rw [hclient]⟩) h
    simpa only [Hub.mem_members, hroom, Hub.isObserver, hclient] using hd

theorem not_collects {l : Loop} (hl : s.loop c = l) (hclears : l.clears = none)
    (hdeletes : l.deletes = none) (r : RoomRef) : ¬s.Collects r c := by
  rintro (h | ⟨h, -⟩)
  · rw [hl, hclears] at h
    cases h
  · rw [hl, hdeletes] at h
    cases h

theorem Supervised.found (hsup : s.Supervised) {id : RoomID} {mode : RoomMode}
    (hl : s.loop c = .lookup id mode) :
    ({ s with hub := (s.hub.getOrCreateRoom id mode).1 }.setLoop c
      (.insert (s.hub.getOrCreateRoom id mode).2 mode)).Supervised := by
  have htodo : ∀ x ∈ (s.loop c).todo, x ∈ (Loop.insert (s.hub.getOrCreateRoom id mode).2
      mode).todo := by rw [hl]; exact fun _ hx => absurd hx List.not_mem_nil
  have hclears : ∀ r, s.Collects r c → (Loop.insert (s.hub.getOrCreateRoom id mode).2
      mode).clears = some r := fun r hr => absurd hr (not_collects hl rfl rfl r)
  cases hfind : s.hub.rooms.lookup id with
  | some r =>
    have hget : s.hub.getOrCreateRoom id mode = (s.hub, r) := by
      simp only [Hub.getOrCreateRoom, hfind]
    rw [hget] at htodo hclears ⊢
    exact hsup.setLoop htodo fun t ht => Or.inl (hclears t ht)
  | none =>
    have hget : s.hub.getOrCreateRoom id mode =
        ({ s.hub with
            rooms := s.hub.rooms.insert id s.hub.nextRoom
            room := Function.update s.hub.room s.hub.nextRoom { id, mode }
            nextRoom := s.hub.nextRoom + 1 }, s.hub.nextRoom) := by
      simp only [Hub.getOrCreateRoom, hfind]
    rw [hget] at htodo hclears ⊢
    -- the new room has no clients
    have hold : ∀ t o, o ∈ (Function.update s.hub.room s.hub.nextRoom ({ id, mode } : Room)
        t).clients → t ≠ s.hub.nextRoom := by
      rintro t o ho rfl
      rw [Function.update_self] at ho
      exact List.not_mem_nil ho
    have hroom : ∀ t, t ≠ s.hub.nextRoom →
        Function.update s.hub.room s.hub.nextRoom ({ id, mode } : Room) t = s.hub.room t := fun t ht =>
      Function.update_of_ne ht _ _
    refine hsup.of_setLoop htodo hclears (fun t o ho d _ hd => ?_) (fun t o ho hob => ⟨?_, hob⟩)
      (fun t o ho hlist => ?_) (fun _ _ _ => rfl) (fun t o ho h => Or.inl ?_)
    · dsimp only
      rwa [hroom t (hold t o ho)]
    · dsimp only at ho
      rwa [hroom t (hold t o ho)] at ho
    · have hne := hold t o ho
      change (s.hub.rooms.insert id s.hub.nextRoom).lookup
        (Function.update s.hub.room s.hub.nextRoom ({ id, mode } : Room) t).id = some t
      rw [hroom t hne, GoMap.lookup_insert_iff, if_neg, hlist]
      intro hid
      rw [hid, hfind] at hlist
      cases hlist
    · have hne := hold t o ho
      refine isBusinessActive_of (h := s.hub) ?_ (fun d hd => ⟨?_, rfl⟩) h
      · simp only [hroom t hne]
      · simpa only [Hub.members, Hub.isObserver, hroom t hne] using hd

theorem Supervised.entered (hsup : s.Supervised) (hbiz : s.hub.isObserver c = false) {r : RoomRef}
    {mode : RoomMode} (hl : s.loop c = .insert r mode) :
    ({ s with hub := s.hub.addTo r c }.setLoop c (.attach r)).Supervised := by
  have hkept := fun t => s.hub.addTo_kept r t c
  have htodo : ∀ x ∈ (s.loop c).todo, x ∈ (Loop.attach r).todo := by
    rw [hl]; exact fun _ hx => absurd hx List.not_mem_nil
  have hclears : ∀ t, s.Collects t c → (Loop.attach r).clears = some t := fun t ht =>
    absurd ht (not_collects hl rfl rfl t)
  refine hsup.of_setLoop htodo hclears (fun t o _ d _ hd => Hub.mem_addTo.2 (Or.inl hd))
    (fun t o hmem hob => ⟨?_, hob⟩) (fun t o _ hlist => ?_) (fun _ _ _ => rfl)
    (fun t o ho h => Or.inl ?_)
  · rcases Hub.mem_addTo.1 hmem with hmem | ⟨-, rfl⟩
    · exact hmem
    · have hbiz' : s.hub.isObserver o = true := hob
      rw [hbiz] at hbiz'
      cases hbiz'
  · rw [(hkept t).1]
    exact hlist
  · refine isBusinessActive_of (h := s.hub) (hkept t).2 (fun d hd => ⟨?_, rfl⟩) h
    exact Hub.mem_members_addTo.2 (Or.inl hd)

theorem Supervised.left (hsup : s.Supervised) {r : RoomRef}
    (hl : s.loop c = .delete r) :
    ({ s with hub := s.hub.removeFrom r c }.setLoop c (.clear r)).Supervised := by
  have hkept := fun t => s.hub.removeFrom_kept r t c
  have htodo : ∀ x ∈ (s.loop c).todo, x ∈ (Loop.clear r).todo := by
    rw [hl]; exact fun _ hx => absurd hx List.not_mem_nil
  have hclears : ∀ t, s.Collects t c → (Loop.clear r).clears = some t := by
    rintro t (ht | ⟨ht, -⟩)
    · rw [hl] at ht; cases ht
    · rw [hl] at ht; exact ht
  refine hsup.of_setLoop htodo hclears
    (fun t o _ d hdc hd => Hub.mem_removeFrom.2 ⟨hd, fun h => hdc h.2⟩)
    (fun t o hmem hob => ⟨?_, hob⟩) (fun t o _ hlist => ?_) (fun _ _ _ => rfl) (fun t o ho h => ?_)
  · exact (Hub.mem_removeFrom.1 hmem).1
  · rw [(hkept t).1]
    exact hlist
  · by_cases ht : t = r
    · subst ht
      exact Or.inr rfl
    · refine Or.inl (isBusinessActive_of (h := s.hub) (hkept t).2 (fun d hd => ⟨?_, rfl⟩) h)
      rw [members_removeFrom, if_neg ht]
      exact hd

/-- An observer leaves: of its own, or dismissed once it is attached. -/
theorem Supervised.leaves (hsup : s.Supervised) {o : UserID} (hx : (LeaveStep.leave o).Watches s.hub)
    (hhub : s'.hub = ((LeaveStep.leave o).exec s.hub).1) (hwatch : s'.watch = s.watch)
    (hdel : ∀ r u, s.Deleting r u → s'.Deleting r u)
    (hnew : ∀ r u, .delete r u ∈ ((LeaveStep.leave o).exec s.hub).2 → s'.Deleting r u)
    (hdismissed : ∀ u, s.Dismissed u → s'.Dismissed u ∨ u = o ∧ (s.watch o).attaching = false)
    (hcleared : ∀ r, s.Cleared r → s'.Cleared r) : s'.Supervised := by
  have hobs : ∀ u, s'.hub.isObserver u = s.hub.isObserver u := by
    rw [hhub]; exact LeaveStep.exec_isObserver hx
  have hroom : s'.hub.room = s.hub.room ∧ s'.hub.rooms = s.hub.rooms := by
    rw [hhub]
    rcases LeaveStep.exec_leave s.hub o with he | ⟨r, he⟩ <;> rw [he] <;> exact ⟨rfl, rfl⟩
  have hin : ∀ r u, s'.In r u → s.In r u := fun r u hu =>
    ⟨hroom.1 ▸ hu.1, (hobs u).symm.trans hu.2⟩
  have hactive : ∀ r, s.hub.isBusinessActive r = true → s'.hub.isBusinessActive r = true := by
    intro r h
    obtain ⟨-, -, hkept, hmembers, hclient⟩ :=
      LeaveStep.exec_frame (h := s.hub) (l := .leave o) hx (by simp)
    refine isBusinessActive_of (h := s.hub) (by rw [hhub]; exact (hkept r).2) (fun d hd => ?_) h
    rw [hhub, hmembers, hclient d (Hub.mem_members.1 hd).2]
    exact ⟨hd, rfl⟩
  -- an attached observer that was in the room is being deleted now
  have hgone : ∀ r, s.In r o → (s.hub.client o).room = some r → s'.Deleting r o := by
    intro r _ hr
    refine hnew r o ?_
    simp only [LeaveStep.exec, hr, List.mem_singleton]
  refine ⟨fun r u hu => hwatch ▸ hsup.allowed r u (hin r u hu), fun r u hu => ?_,
    fun r u hu => ?_, fun r u hu => ?_⟩
  · rw [hroom.1, hroom.2]; exact hsup.listed r u (hin r u hu)
  · rw [hwatch]
    rcases hsup.attached r u (hin r u hu) with h | h | h
    · exact Or.inl h
    · by_cases huo : u = o
      · subst huo
        exact Or.inr (Or.inr (hgone r (hin r u hu) h))
      · have hsame : s'.hub.client u = s.hub.client u := by
          rw [hhub]
          rcases LeaveStep.exec_leave s.hub o with he | ⟨t, he⟩
          · rw [he]
          · rw [he]
            dsimp only
            exact Hub.setClient_ne s.hub o u _ huo
        exact Or.inr (Or.inl (hsame ▸ h))
    · exact Or.inr (Or.inr (hdel r u h))
  · rcases hsup.settled r u (hin r u hu) with h | h | h | h
    · exact Or.inl (hactive r h)
    · exact Or.inr (Or.inl (hcleared r h))
    · rcases hdismissed u h with h | ⟨hxu, hattached⟩
      · exact Or.inr (Or.inr (Or.inl h))
      · subst hxu
        rcases hsup.attached r u (hin r u hu) with h' | h' | h'
        · rw [h'] at hattached; cases hattached
        · exact Or.inr (Or.inr (Or.inr (hgone r (hin r u hu) h')))
        · exact Or.inr (Or.inr (Or.inr (hdel r u h')))
    · exact Or.inr (Or.inr (Or.inr (hdel r u h)))

theorem Supervised.deleted (hsup : s.Supervised) {r : RoomRef} {o : UserID}
    (hx : (LeaveStep.delete r o).Watches s.hub)
    (hhub : s'.hub = ((LeaveStep.delete r o).exec s.hub).1) (hwatch : s'.watch = s.watch)
    (hdeleting : ∀ t u, s.Deleting t u → s'.Deleting t u ∨ t = r ∧ u = o)
    (hdismissed : ∀ u, s.Dismissed u → s'.Dismissed u)
    (hcleared : ∀ t, s.Cleared t → s'.Cleared t) : s'.Supervised := by
  have hobs : ∀ u, s'.hub.isObserver u = s.hub.isObserver u := by
    rw [hhub]; exact LeaveStep.exec_isObserver hx
  obtain ⟨hrooms, -, hkept, hmembers, hclient⟩ :=
    LeaveStep.exec_frame (h := s.hub) (l := .delete r o) hx (by simp)
  have hsame : s'.hub.client = s.hub.client := by
    rw [hhub]
    rcases LeaveStep.exec_delete s.hub r o with he | he
    · rw [he]
    · rw [he]; rfl
  have hin : ∀ t u, s'.In t u → s.In t u ∧ ¬(t = r ∧ u = o) := by
    rintro t u ⟨hmem, hu⟩
    rw [hobs] at hu
    rw [hhub] at hmem
    rcases LeaveStep.exec_delete s.hub r o with he | he
    · have hnot : o ∉ (s.hub.room r).clients := by
        intro ho
        simp [LeaveStep.exec, ho] at he
      rw [he] at hmem
      refine ⟨⟨hmem, hu⟩, ?_⟩
      rintro ⟨rfl, rfl⟩
      exact hnot hmem
    · rw [he] at hmem
      obtain ⟨hmem, hother⟩ := Hub.mem_removeFrom.1 hmem
      exact ⟨⟨hmem, hu⟩, hother⟩
  have hdel : ∀ t u, s'.In t u → s.Deleting t u → s'.Deleting t u := fun t u hu h =>
    (hdeleting t u h).resolve_right (hin t u hu).2
  refine ⟨fun t u hu => hwatch ▸ hsup.allowed t u (hin t u hu).1, fun t u hu => ?_,
    fun t u hu => ?_, fun t u hu => ?_⟩
  · rw [hhub, hrooms, (hkept t).1]
    exact hsup.listed t u (hin t u hu).1
  · rw [hwatch, hsame]
    exact (hsup.attached t u (hin t u hu).1).imp_right fun h => h.imp_right (hdel t u hu)
  · rcases hsup.settled t u (hin t u hu).1 with h | h | h | h
    · refine Or.inl (isBusinessActive_of (h := s.hub) (by rw [hhub]; exact (hkept t).2)
        (fun d hd => ?_) h)
      rw [hhub, hmembers, hclient d (Hub.mem_members.1 hd).2]
      exact ⟨hd, rfl⟩
    · exact Or.inr (Or.inl (hcleared t h))
    · exact Or.inr (Or.inr (Or.inl (hdismissed u h)))
    · exact Or.inr (Or.inr (Or.inr (hdel t u hu h)))

theorem Supervised.leaveStep (hsup : s.Supervised) {x : LeaveStep} (hx : x.Watches s.hub)
    (hhub : s'.hub = (x.exec s.hub).1) (hwatch : s'.watch = s.watch)
    (hdeleting : ∀ r o, s.Deleting r o → s'.Deleting r o ∨ x = .delete r o)
    (hnew : ∀ r o, .delete r o ∈ (x.exec s.hub).2 → s'.Deleting r o)
    (hdismissed : ∀ o, s.Dismissed o →
      s'.Dismissed o ∨ x = .leave o ∧ (s.watch o).attaching = false)
    (hcleared : ∀ r, s.Cleared r → s'.Cleared r)
    (hdrop : ∀ r, x = .drop r → s.dropsWatched r = false) : s'.Supervised := by
  cases x with
  | send o =>
    have hsame : s'.hub = s.hub := hhub
    refine hsup.of (fun r u hu => ?_) (fun _ _ _ => by rw [hwatch]) (fun _ _ _ h => by rwa [hsame])
      (fun _ _ _ => by rw [hsame]) (fun r u h => (hdeleting r u h).resolve_right (by simp))
      (fun u h => (hdismissed u h).resolve_right (by simp)) (fun _ _ _ h => Or.inl (by rwa [hsame]))
      (fun r _ _ h => Or.inr (Or.inl (hcleared r h)))
    simpa only [In, hsame] using hu
  | drop r =>
    exact hsup.drop (hdrop r rfl) hhub hwatch (fun t o h => (hdeleting t o h).resolve_right (by simp))
      (fun o h => (hdismissed o h).resolve_right (by simp)) hcleared
  | leave o =>
    refine hsup.leaves hx hhub hwatch (fun r u h => (hdeleting r u h).resolve_right (by simp)) hnew
      (fun u h => (hdismissed u h).imp_right fun ⟨hu, hattached⟩ => ?_) hcleared
    obtain rfl : o = u := by injection hu
    exact ⟨rfl, hattached⟩
  | delete r o =>
    refine hsup.deleted hx hhub hwatch (fun t u h => (hdeleting t u h).imp_right fun heq => ?_)
      (fun u h => (hdismissed u h).resolve_right (by simp)) hcleared
    injection heq with hr ho
    exact ⟨hr.symm, ho.symm⟩

theorem Sane.leaveStep_keeps (hs : s.Sane) {x : LeaveStep} (hx : x.Watches s.hub) {r : RoomRef}
    {d : UserID} (hdel : (s.loop d).deletes = some r) (hd : d ∈ (s.hub.room r).clients) :
    d ∈ ((x.exec s.hub).1.room r).clients := by
  have hbiz : s.hub.isObserver d = false := by
    refine (hs.busy d ?_).2
    cases hl : s.loop d with
    | reading => rw [hl] at hdel; cases hdel
    | _ => rfl
  by_cases hdrop : ∃ t, x = .drop t
  · obtain ⟨t, rfl⟩ := hdrop
    simpa only [LeaveStep.exec, Hub.removeRoomIfEmpty_room] using hd
  · obtain ⟨-, -, -, hmembers, -⟩ := LeaveStep.exec_frame hx fun t ht => hdrop ⟨t, ht⟩
    have hmem : d ∈ s.hub.members r := Hub.mem_members.2 ⟨hd, hbiz⟩
    rw [← hmembers] at hmem
    exact (Hub.mem_members.1 hmem).1

theorem Supervised.dismisses (hsup : s.Supervised) (hs : s.Sane) {r : RoomRef} {x : LeaveStep}
    {todo : List LeaveStep} (hl : s.loop c = .dismissing r (x :: todo)) (hx : x.Watches s.hub)
    (hattached : ∀ o, x = .leave o → (s.watch o).attaching = false)
    (hdrop : ∀ t, x = .drop t → s.dropsWatched t = false) :
    ({ s with hub := (x.exec s.hub).1 }.setLoop c
      (.dismissing r ((x.exec s.hub).2 ++ todo))).Supervised := by
  have hmem : ∀ y ∈ (s.loop c).todo, y = x ∨ y ∈ (x.exec s.hub).2 ++ todo := by
    intro y hy
    rw [hl] at hy
    exact (List.mem_cons.1 hy).imp_right fun h => List.mem_append.2 (Or.inr h)
  -- what a readLoop has taken on stays taken on, but for this step
  have hkeep : ∀ y : LeaveStep, (∃ d, y ∈ (s.loop d).todo) →
      (∃ d, y ∈ (({ s with hub := (x.exec s.hub).1 }.setLoop c
        (.dismissing r ((x.exec s.hub).2 ++ todo))).loop d).todo) ∨ x = y := by
    rintro y ⟨d, hd⟩
    by_cases hdc : d = c
    · subst hdc
      rcases hmem y hd with rfl | hy
      · exact Or.inr rfl
      · exact Or.inl ⟨d, by rw [setLoop_same]; exact hy⟩
    · exact Or.inl ⟨d, by rw [setLoop_ne _ _ hdc]; exact hd⟩
  refine hsup.leaveStep hx rfl rfl (fun t o h => ?_) (fun t o h => ?_) (fun o h => ?_)
    (fun t h => ?_) hdrop
  · rcases h with h | h
    · exact Or.inl (Or.inl h)
    · exact (hkeep _ h).imp_left Or.inr
  · refine Or.inr ⟨c, ?_⟩
    rw [setLoop_same]
    exact List.mem_append.2 (Or.inl h)
  · exact (hkeep _ h).imp_right fun hxo => ⟨hxo, hattached o hxo⟩
  · exact cleared_setLoop h (fun d _ hdel hd => hs.leaveStep_keeps hx hdel hd) fun ht =>
      absurd ht (not_collects hl rfl rfl t)

section ReadLoop

variable {ord : MapOrder} {l next : Loop}

theorem collects_room {r t : RoomRef} (hl : s.loop c = l) (hclears : l.clears = some r)
    (ht : s.Collects t c) : r = t := by
  rcases ht with ht | ⟨ht, -⟩
  · rw [hl, hclears] at ht
    exact Option.some.inj ht
  · rw [hl] at ht
    cases l <;> simp_all [Loop.clears, Loop.deletes]

theorem free_todo (hl : s.loop c = l) (h : l.todo = []) :
    ∀ x ∈ (s.loop c).todo, x ∈ next.todo := by
  intro x hx
  rw [hl, h] at hx
  cases hx

theorem Supervised.quiet_step (hsup : s.Supervised) (hl : s.loop c = l)
    (he : l.exec s.shut s.hub c ord = (s.hub, next)) (htodo : l.todo = []) (hclears : l.clears = none)
    (hdeletes : l.deletes = none) : (s.step (.run c ord)).Supervised := by
  rw [run_eq hl he]
  exact hsup.setLoop (free_todo hl htodo) fun r hr => absurd hr (not_collects hl hclears hdeletes r)

theorem Supervised.write_step (hsup : s.Supervised) (hs : s.Sane) {f : Client → Client}
    (hl : s.loop c = l) (he : l.exec s.shut s.hub c ord = (s.hub.setClient c f, next))
    (hbusy : l.isReading = false)
    (hob : (f (s.hub.client c)).isObserver = (s.hub.client c).isObserver)
    (hrole : (f (s.hub.client c)).soloRole = (s.hub.client c).soloRole ∨
      s.home c = none ∧ l.over = false)
    (htodo : l.todo = []) (hdeletes : l.deletes = none)
    (hclears : ∀ r, l.clears = some r → next.clears = some r) :
    (s.step (.run c ord)).Supervised := by
  rw [run_eq hl he]
  refine hsup.setClient (hs.busy c (by rw [hl, hbusy])).2 hob ?_ (free_todo hl htodo) fun r hr => ?_
  · exact hrole.imp_right fun ⟨hhome, hover⟩ => hs.outside hhome (hl ▸ hover)
  · rcases hr with hr | ⟨hr, -⟩
    · exact hclears r (by rw [← hl, hr])
    · rw [hl, hdeletes] at hr
      cases hr

theorem Supervised.drop_step (hsup : s.Supervised) (hg : s.attentive (.run c ord) = true)
    {r : RoomRef} (hl : s.loop c = l)
    (he : l.exec s.shut s.hub c ord = (s.hub.removeRoomIfEmpty r, next))
    (hr : s.drops (.run c ord) = some r) (htodo : l.todo = []) (hclears : l.clears = none)
    (hdeletes : l.deletes = none) : (s.step (.run c ord)).Supervised := by
  have hdrop : s.dropsWatched r = false := by
    simp only [attentive, hr, Bool.and_eq_true, Bool.not_eq_true'] at hg
    exact hg.2
  rw [run_eq hl he]
  exact hsup.drop hdrop rfl rfl
    (fun _ _ h => deleting_setLoop (s := { s with hub := _ }) h (free_todo hl htodo))
    (fun _ h => dismissed_setLoop (s := { s with hub := _ }) h (free_todo hl htodo))
    (fun t h => cleared_setLoop h (fun d _ _ hd => by rwa [Hub.removeRoomIfEmpty_room])
      fun ht => absurd ht (not_collects hl hclears hdeletes t))

end ReadLoop

theorem Supervised.run (hsup : s.Supervised) (hs : s.Sane) {ord : MapOrder}
    (hg : s.attentive (.run c ord) = true) : (s.step (.run c ord)).Supervised := by
  cases hl : s.loop c with
  | reading => exact hsup.quiet_step hl rfl rfl rfl rfl
  | soloRole p =>
    have hhome : s.home c = none := by rw [home_eq hl]; rfl
    cases hrole : Hub.soloRoleOf? p.soloRole with
    | none =>
      have he : (Loop.soloRole p).exec s.shut s.hub c ord = (s.hub, .reading) := by
        simp only [Loop.exec, hrole]
      exact hsup.quiet_step hl he rfl rfl rfl
    | some role =>
      cases role with
      | play =>
        have he : (Loop.soloRole p).exec s.shut s.hub c ord =
            (s.hub.writeSoloRole c .play, .nickname p .solo) := by simp only [Loop.exec, hrole]
        exact hsup.write_step hs hl he rfl rfl (Or.inr ⟨hhome, rfl⟩) rfl rfl fun _ => id
      | push =>
        have he : (Loop.soloRole p).exec s.shut s.hub c ord =
            (s.hub.writeSoloRole c .push, .plannedStream p) := by simp only [Loop.exec, hrole]
        exact hsup.write_step hs hl he rfl rfl (Or.inr ⟨hhome, rfl⟩) rfl rfl fun _ => id
  | plannedStream p =>
    cases hplan : Hub.checkPlannedStream p with
    | error e =>
      have he : (Loop.plannedStream p).exec s.shut s.hub c ord = (s.hub, .reading) := by
        simp only [Loop.exec, hplan]
      exact hsup.quiet_step hl he rfl rfl rfl
    | ok streamID =>
      have he : (Loop.plannedStream p).exec s.shut s.hub c ord =
          (s.hub.writePlannedStream c streamID, .nickname p .solo) := by
        simp only [Loop.exec, hplan]
      exact hsup.write_step hs hl he rfl rfl (Or.inl rfl) rfl rfl fun _ => id
  | nickname p mode => exact hsup.write_step hs hl rfl rfl rfl (Or.inl rfl) rfl rfl fun _ => id
  | platform p mode => exact hsup.write_step hs hl rfl rfl rfl (Or.inl rfl) rfl rfl fun _ => id
  | micOn p mode =>
    cases hp : p.micOn with
    | none =>
      have he : (Loop.micOn p mode).exec s.shut s.hub c ord = (s.hub, .camOn p mode) := by
        simp only [Loop.exec, hp, Hub.writeMicOn]
      exact hsup.quiet_step hl he rfl rfl rfl
    | some b =>
      have he : (Loop.micOn p mode).exec s.shut s.hub c ord =
          (s.hub.setClient c fun x => { x with micOn := b }, .camOn p mode) := by
        simp only [Loop.exec, hp, Hub.writeMicOn]
      exact hsup.write_step hs hl he rfl rfl (Or.inl rfl) rfl rfl fun _ => id
  | camOn p mode =>
    cases hp : p.camOn with
    | none =>
      have he : (Loop.camOn p mode).exec s.shut s.hub c ord = (s.hub, .lookup p.room mode) := by
        simp only [Loop.exec, hp, Hub.writeCamOn]
      exact hsup.quiet_step hl he rfl rfl rfl
    | some b =>
      have he : (Loop.camOn p mode).exec s.shut s.hub c ord =
          (s.hub.setClient c fun x => { x with camOn := b }, .lookup p.room mode) := by
        simp only [Loop.exec, hp, Hub.writeCamOn]
      exact hsup.write_step hs hl he rfl rfl (Or.inl rfl) rfl rfl fun _ => id
  | lookup id mode =>
    rw [run_eq hl rfl]
    exact hsup.found hl
  | insert r mode =>
    cases hadm : s.hub.admission r c mode with
    | some e =>
      have he : (Loop.insert r mode).exec s.shut s.hub c ord = (s.hub, .rejected r) := by
        simp only [Loop.exec, hadm]
      exact hsup.quiet_step hl he rfl rfl rfl
    | none =>
      have he : (Loop.insert r mode).exec s.shut s.hub c ord = (s.hub.addTo r c, .attach r) := by
        simp only [Loop.exec, hadm]
      rw [run_eq hl he]
      exact hsup.entered (hs.busy c (by rw [hl]; rfl)).2 hl
  | attach r => exact hsup.write_step hs hl rfl rfl rfl (Or.inl rfl) rfl rfl fun _ => id
  | rejected r => exact hsup.drop_step hg hl rfl (by simp only [drops, hl]) rfl rfl rfl
  | closing => exact hsup.write_step hs hl rfl rfl rfl (Or.inl rfl) rfl rfl fun _ ht => by cases ht
  | delete r =>
    have hbiz := (hs.busy c (by rw [hl]; rfl)).2
    by_cases hin : c ∈ (s.hub.room r).clients
    · have he : (Loop.delete r).exec s.shut s.hub c ord = (s.hub.removeFrom r c, .clear r) := by
        simp only [Loop.exec, if_neg (not_not.2 hin), hbiz, Bool.false_eq_true, if_false]
      rw [run_eq hl he]
      exact hsup.left hl
    · have he : (Loop.delete r).exec s.shut s.hub c ord = (s.hub, .gone) := by
        simp only [Loop.exec, if_pos hin]
      rw [run_eq hl he]
      refine hsup.setLoop (free_todo hl rfl) fun t ht => ?_
      rcases ht with ht | ⟨ht, hmem⟩
      · rw [hl] at ht; cases ht
      · obtain rfl : r = t := by rw [hl] at ht; exact Option.some.inj ht
        exact absurd hmem hin
  | clear r => exact hsup.write_step hs hl rfl rfl rfl (Or.inl rfl) rfl rfl fun _ => id
  | activity r =>
    rw [run_eq hl rfl]
    refine hsup.setLoop (free_todo hl rfl) fun t ht => ?_
    obtain rfl : r = t := collects_room hl rfl ht
    by_cases hactive : s.hub.isBusinessActive r = true
    · exact Or.inr (Or.inl hactive)
    · rw [if_neg hactive]
      exact Or.inl rfl
  | observers r =>
    rw [run_eq hl rfl]
    refine hsup.setLoop (free_todo hl rfl) fun t ht => Or.inr (Or.inr (Or.inl fun o ho => ?_))
    obtain rfl : r = t := collects_room hl rfl ht
    exact List.mem_flatMap.2
      ⟨o, List.mem_filter.2 ⟨Hub.mem_clientsOf.2 ho.1, ho.2⟩, List.mem_pair.2 (Or.inr rfl)⟩
  | dismissing r todo =>
    cases todo with
    | nil => exact hsup.quiet_step hl rfl rfl rfl rfl
    | cons x todo =>
      have hx : x.Watches s.hub := hs.dismissing c x (by rw [hl]; simp [Loop.todo])
      have hopen : ¬x.panics s.shut = true := by
        cases x with
        | send o =>
          simp only [attentive, hl, Bool.and_eq_true, Bool.not_eq_true'] at hg
          rw [LeaveStep.panics, hg.1]
          exact Bool.false_ne_true
        | _ => exact Bool.false_ne_true
      have he : (Loop.dismissing r (x :: todo)).exec s.shut s.hub c ord =
          ((x.exec s.hub).1, .dismissing r ((x.exec s.hub).2 ++ todo)) := by
        simp only [Loop.exec, if_neg hopen]
      rw [run_eq hl he]
      refine hsup.dismisses hs hl hx (fun o hxo => ?_) fun t hxt => ?_
      · subst hxo
        simp only [attentive, hl, Bool.and_eq_true, Bool.not_eq_true'] at hg
        exact hg.1
      · subst hxt
        have hdrops : s.drops (.run c ord) = some t := by simp only [drops, hl]
        simp only [attentive, hdrops, Bool.and_eq_true, Bool.not_eq_true'] at hg
        exact hg.2
  | drop r => exact hsup.drop_step hg hl rfl (by simp only [drops, hl]) rfl rfl rfl
  | gone => exact hsup.quiet_step hl rfl rfl rfl rfl

theorem Supervised.panic (hsup : s.Supervised) (hg : s.attentive (.panic c) = true) :
    (s.step (.panic c)).Supervised := by
  simp only [Sys.step]
  split_ifs with hclosed
  · cases hl : s.loop c with
    | attach r => exact hsup.setLoop (free_todo hl rfl) fun t ht => absurd ht (not_collects hl rfl rfl t)
    | activity r =>
      simp only [attentive, hl, Bool.and_eq_true, Bool.or_eq_true, List.any_eq_true,
        decide_eq_true_eq] at hg
      refine hsup.setLoop (free_todo hl rfl) fun t ht => Or.inr ?_
      obtain rfl : r = t := collects_room hl rfl ht
      rcases hg.1 with hactive | ⟨d, -, hd⟩
      · exact Or.inl hactive
      · exact Or.inr (Or.inr ⟨d, hd⟩)
    | _ =>
      rw [hl] at hclosed
      cases hclosed
  · exact hsup

/-- The room of an observer is written, to the one it entered. -/
theorem Supervised.writesRoom (hsup : s.Supervised) {u : UserID} (hu : s.hub.isObserver u = true)
    {r : RoomRef} {n : Watch} (honly : ∀ t, (s.watch u).Allows t → t = r) (hallows : n.Allows r) :
    ({ s with
      hub := s.hub.setClient u fun x => { x with room := some r }
      watch := Function.update s.watch u n } : Sys).Supervised := by
  have hother : ∀ {o : UserID}, o ≠ u → Function.update s.watch u n o = s.watch o :=
    fun ho => Function.update_of_ne ho _ _
  have hobs : ∀ d, (s.hub.setClient u fun x => { x with room := some r }).isObserver d =
      s.hub.isObserver d := Hub.isObserver_setClient (by rfl)
  have hin : ∀ t o, ({ s with
      hub := s.hub.setClient u fun x => { x with room := some r }
      watch := Function.update s.watch u n } : Sys).In t o → s.In t o := fun t o ho =>
    ⟨ho.1, (hobs o).symm.trans ho.2⟩
  refine ⟨fun t o ho => ?_, fun t o ho => hsup.listed t o (hin t o ho), fun t o ho => ?_,
    fun t o ho => ?_⟩
  · have hold := hsup.allowed t o (hin t o ho)
    by_cases hou : o = u
    · subst hou
      simp only [Function.update_self]
      rw [honly t hold]
      exact hallows
    · simp only [hother hou]
      exact hold
  · by_cases hou : o = u
    · subst hou
      rw [honly t (hsup.allowed t o (hin t o ho))]
      exact Or.inr (Or.inl (by simp only [Hub.setClient_same]))
    · simp only [hother hou, Hub.setClient_ne _ _ _ _ hou]
      exact hsup.attached t o (hin t o ho)
  · refine (hsup.settled t o (hin t o ho)).imp_left fun h => ?_
    refine isBusinessActive_of (h := s.hub) rfl (fun d hd => ?_) h
    have hdu : d ≠ u := by
      rintro rfl
      have hbiz := (Hub.mem_members.1 hd).2
      rw [hu] at hbiz
      cases hbiz
    refine ⟨?_, by simp only [Hub.setClient_ne _ _ _ _ hdu]⟩
    simpa only [Hub.mem_members, hobs, Hub.setClient_room] using hd

theorem Supervised.told (hsup : s.Supervised) {u : UserID} {n : Watch}
    (hallows : ∀ t, (s.watch u).Allows t → n.Allows t) (hattached : ∀ t, s.watch u ≠ .attach t) :
    ({ s with watch := Function.update s.watch u n } : Sys).Supervised := by
  have hother : ∀ {o : UserID}, o ≠ u → Function.update s.watch u n o = s.watch o :=
    fun ho => Function.update_of_ne ho _ _
  refine ⟨fun t o ho => ?_, fun t o ho => hsup.listed t o ho, fun t o ho => ?_,
    fun t o ho => hsup.settled t o ho⟩
  · have hold := hsup.allowed t o ho
    by_cases hou : o = u
    · subst hou
      simp only [Function.update_self]
      exact hallows t hold
    · simp only [hother hou]
      exact hold
  · by_cases hou : o = u
    · subst hou
      exact Or.inr ((hsup.attached t o ho).resolve_left (hattached t))
    · simp only [hother hou]
      exact hsup.attached t o ho

theorem Supervised.letIn (hsup : s.Supervised) {u : UserID} {r : RoomRef} (hlive : s.live r = true)
    (hout : ∀ t, ¬(s.watch u).Allows t) :
    ({ s with
      hub := s.hub.addTo r u
      watch := Function.update s.watch u (.attach r) } : Sys).Supervised := by
  have hother : ∀ {o : UserID}, o ≠ u → Function.update s.watch u (.attach r) o = s.watch o :=
    fun ho => Function.update_of_ne ho _ _
  simp only [live, Bool.and_eq_true, decide_eq_true_eq, Bool.or_eq_true] at hlive
  have hkept := fun t => s.hub.addTo_kept r t u
  have hin : ∀ t o, ({ s with
      hub := s.hub.addTo r u, watch := Function.update s.watch u (.attach r) } : Sys).In t o →
      t = r ∧ o = u ∨ o ≠ u ∧ s.In t o := by
    rintro t o ⟨hmem, hob⟩
    have hnot : o = u → o ∉ (s.hub.room t).clients := by
      rintro rfl hmem
      have hallowed := hsup.allowed t o ⟨hmem, hob⟩
      exact hout t hallowed
    rcases Hub.mem_addTo.1 hmem with hmem | hnew
    · exact Or.inr ⟨fun hou => hnot hou hmem, hmem, hob⟩
    · exact Or.inl hnew
  have hactive : ∀ t, s.hub.isBusinessActive t = true →
      (s.hub.addTo r u).isBusinessActive t = true := fun t h =>
    isBusinessActive_of (hkept t).2 (fun d hd => ⟨Hub.mem_members_addTo.2 (Or.inl hd), rfl⟩) h
  have hcleared : ∀ t, s.Cleared t → ({ s with
      hub := s.hub.addTo r u, watch := Function.update s.watch u (.attach r) } : Sys).Cleared t :=
    fun t ⟨c, hc⟩ => ⟨c, hc.imp_right fun ⟨hdel, hd⟩ => ⟨hdel, Hub.mem_addTo.2 (Or.inl hd)⟩⟩
  refine ⟨fun t o ho => ?_, fun t o ho => ?_, fun t o ho => ?_, fun t o ho => ?_⟩
  · rcases hin t o ho with ⟨rfl, rfl⟩ | ⟨hou, ho'⟩
    · simp only [Function.update_self]
      rfl
    · simp only [hother hou]
      exact hsup.allowed t o ho'
  · change s.hub.rooms.lookup ((s.hub.addTo r u).room t).id = some t
    rw [(hkept t).1]
    rcases hin t o ho with ⟨rfl, rfl⟩ | ⟨hou, ho'⟩
    · exact hlive.1
    · exact hsup.listed t o ho'
  · rcases hin t o ho with ⟨rfl, rfl⟩ | ⟨hou, ho'⟩
    · simp only [Function.update_self]
      exact Or.inl trivial
    · simp only [hother hou]
      exact hsup.attached t o ho'
  · rcases hin t o ho with ⟨rfl, rfl⟩ | ⟨hou, ho'⟩
    · rcases hlive.2 with h | h
      · exact Or.inl (hactive t h)
      · obtain ⟨c, -, hc⟩ := List.any_eq_true.1 h
        exact Or.inr (Or.inl (hcleared t ⟨c, of_decide_eq_true hc⟩))
    · exact (hsup.settled t o ho').imp (hactive t) fun h => h.imp_left (hcleared t)

theorem Supervised.watch (hsup : s.Supervised) (hs : s.Sane) {u : UserID}
    (hg : s.attentive (.watch u) = true) : (s.step (.watch u)).Supervised := by
  have hgo : ∀ {h : Hub} {n : Watch}, (s.watch u).exec s.shut s.hub u = (h, n) →
      s.step (.watch u) = { s with hub := h, watch := Function.update s.watch u n } := by
    intro h n he
    simp only [step, he]
  have hother : ∀ {n : Watch} {o : UserID}, o ≠ u → Function.update s.watch u n o = s.watch o :=
    fun ho => Function.update_of_ne ho _ _
  -- as long as the observer is in no room
  have hoff : ∀ n : Watch, (s.watch u).exec s.shut s.hub u = (s.hub, n) → (∀ t, ¬(s.watch u).Allows t) →
      (s.step (.watch u)).Supervised := by
    intro n he hout
    rw [hgo he]
    refine hsup.of (fun _ _ ho => ho) (fun r o ho => ?_) (fun _ _ _ hl => hl) (fun _ _ _ => rfl)
      (fun _ _ h => h) (fun _ h => h) (fun _ _ _ h => Or.inl h) (fun _ _ _ h => Or.inr (Or.inl h))
    exact hother (by rintro rfl; exact hout r (hsup.allowed r o ho))
  have hwrite : ∀ (r : RoomRef) (n : Watch),
      (s.watch u).exec s.shut s.hub u = (s.hub.setClient u fun x => { x with room := some r }, n) →
      (∀ t, (s.watch u).Allows t → t = r) → n.Allows r → s.watch u ≠ .away →
      (s.step (.watch u)).Supervised := by
    intro r n he honly hallows haway
    rw [hgo he]
    exact hsup.writesRoom (hs.watching u haway).2 honly hallows
  cases hw : s.watch u with
  | away => exact hoff .away (by rw [hw]; rfl) (by rw [hw]; exact fun _ h => h)
  | lookup roomID =>
    cases hroom : s.hub.getRoom roomID with
    | none =>
      exact hoff .away (by rw [hw]; simp only [Watch.exec, hroom]) (by rw [hw]; exact fun _ h => h)
    | some r =>
      exact hoff (.insert r) (by rw [hw]; simp only [Watch.exec, hroom])
        (by rw [hw]; exact fun _ h => h)
  | insert r =>
    have hu := (hs.watching u (by rw [hw]; simp)).2
    rw [hgo (h := s.hub.addTo r u) (n := .attach r) (by rw [hw]; simp [Watch.exec, hu])]
    refine hsup.letIn ?_ (by rw [hw]; exact fun _ h => h)
    simp only [attentive, hw, Bool.and_eq_true] at hg
    exact hg.1
  | attach r =>
    exact hwrite r (.send r) (by rw [hw]; rfl) (by rw [hw]; exact fun _ h => h) rfl
      (by rw [hw]; simp)
  | send r =>
    rw [hgo (h := s.hub) (n := if s.shut u then .watching else .attachAgain r) (by rw [hw]; rfl)]
    refine hsup.told (fun t ht => ?_) (by rw [hw]; simp)
    obtain rfl : t = r := by rw [hw] at ht; exact ht
    split_ifs
    · trivial
    · rfl
  | attachAgain r =>
    exact hwrite r .watching (by rw [hw]; rfl) (by rw [hw]; exact fun _ h => h) trivial
      (by rw [hw]; simp)
  | watching =>
    rw [hgo (h := s.hub) (n := .watching) (by rw [hw]; rfl), ← hw, Function.update_eq_self]
    exact hsup

theorem Supervised.same (hsup : s.Supervised) (hhub : s'.hub = s.hub) (hloop : s'.loop = s.loop)
    (hwatch : s'.watch = s.watch) (hleaves : ∀ x ∈ s.leaves, x ∈ s'.leaves) : s'.Supervised := by
  refine hsup.of (fun r o ho => ?_) (fun _ _ _ => by rw [hwatch]) (fun _ _ _ h => by rwa [hhub])
    (fun _ _ _ => by rw [hhub]) (fun r o h => ?_) (fun o ⟨d, hd⟩ => ⟨d, hloop ▸ hd⟩)
    (fun _ _ _ h => Or.inl (by rwa [hhub])) (fun r _ _ ⟨d, hd⟩ => Or.inr (Or.inl ⟨d, ?_⟩))
  · simpa only [In, hhub] using ho
  · exact h.imp (hleaves _) fun ⟨d, hd⟩ => ⟨d, hloop ▸ hd⟩
  · rwa [Collects, hloop, hhub]

theorem Supervised.allocated (hsup : s.Supervised) (hs : s.Sane) {u : UserID} (hu : u ∉ s.hub.used)
    {x : Client} (hhub : s'.hub = s.hub.allocate u x) (hloop : s'.loop = s.loop)
    (hwatch : ∀ d, d ≠ u → s'.watch d = s.watch d) (hleaves : s'.leaves = s.leaves) :
    s'.Supervised := by
  have hroom : s'.hub.room = s.hub.room := by rw [hhub]; rfl
  have hrooms : s'.hub.rooms = s.hub.rooms := by rw [hhub]; rfl
  have hne : ∀ r, ∀ d ∈ (s.hub.room r).clients, d ≠ u := by
    rintro r d hd rfl
    exact hu (hs.hub.present r d hd)
  have hclient : ∀ d, d ≠ u → s'.hub.client d = s.hub.client d := fun d hd => by
    rw [hhub]; exact Function.update_of_ne hd _ _
  have hin : ∀ r o, s'.In r o → o ≠ u ∧ s.In r o := by
    rintro r o ⟨hmem, hob⟩
    rw [hroom] at hmem
    refine ⟨hne r o hmem, hmem, ?_⟩
    rwa [Hub.isObserver, hclient o (hne r o hmem)] at hob
  refine hsup.of (fun r o ho => (hin r o ho).2) (fun r o ho => hwatch o (hin r o ho).1)
    (fun _ _ _ h => by rwa [hrooms, hroom]) (fun r o ho => by rw [hclient o (hin r o ho).1])
    ?_ ?_ (fun r o _ h => Or.inl ?_) ?_
  · intro r o h
    rcases h with h | ⟨d, hd⟩
    · exact Or.inl (hleaves ▸ h)
    · exact Or.inr ⟨d, hloop ▸ hd⟩
  · rintro o ⟨d, hd⟩
    exact ⟨d, hloop ▸ hd⟩
  · refine isBusinessActive_of (h := s.hub) (by rw [hroom]) (fun d hd => ?_) h
    have hdu := hne r d (Hub.mem_members.1 hd).1
    rw [Hub.mem_members, hroom, Hub.isObserver, hclient d hdu]
    exact ⟨Hub.mem_members.1 hd, rfl⟩
  · rintro r _ _ ⟨d, hd⟩
    exact Or.inr (Or.inl ⟨d, by rwa [Collects, hloop, hroom]⟩)

theorem Supervised.starts (hsup : s.Supervised) (hc : s.listening c = true) (next : Loop) :
    (s.setLoop c next).Supervised := by
  obtain ⟨hl, -, -⟩ := listening_iff.1 hc
  refine hsup.setLoop (fun x hx => ?_) fun r hr => absurd hr (not_collects hl rfl rfl r)
  rw [hl] at hx
  exact absurd hx List.not_mem_nil

theorem Supervised.leaving (hsup : s.Supervised) (hs : s.Sane) {n : ℕ}
    (hg : s.attentive (.leaving n) = true) : (s.step (.leaving n)).Supervised := by
  cases hx : s.leaves[n]? with
  | none => simpa only [step, hx] using hsup
  | some x =>
    obtain ⟨hn, hxn⟩ := List.getElem?_eq_some_iff.1 hx
    have hsplit : s.leaves = s.leaves.take n ++ x :: s.leaves.drop (n + 1) := by
      conv_lhs => rw [← List.take_append_drop n s.leaves, List.drop_eq_getElem_cons hn, hxn]
    simp only [step, hx]
    refine hsup.leaveStep (hs.leaving x (List.mem_of_getElem? hx)) rfl rfl (fun r o h => ?_)
      (fun r o h => ?_) (fun o h => Or.inl h) (fun r h => ?_) (fun r hr => ?_)
    · rcases h with h | h
      · rw [hsplit] at h
        rcases List.mem_append.1 h with h | h
        · exact Or.inl (Or.inl (List.mem_append_left _ (List.mem_append_left _ h)))
        · rcases List.mem_cons.1 h with h | h
          · exact Or.inr h.symm
          · exact Or.inl (Or.inl (List.mem_append_right _ h))
      · exact Or.inl (Or.inr h)
    · exact Or.inl (List.mem_append_left _ (List.mem_append_right _ h))
    · obtain ⟨d, hd⟩ := h
      have hwatches := hs.leaving x (List.mem_of_getElem? hx)
      exact ⟨d, hd.imp_right fun h => ⟨h.1, hs.leaveStep_keeps hwatches h.1 h.2⟩⟩
    · subst hr
      have hdrops : s.drops (.leaving n) = some r := by simp only [drops, hx]
      simp only [attentive, hdrops, Bool.and_eq_true, Bool.not_eq_true'] at hg
      exact hg.2

theorem Supervised.step (hsup : s.Supervised) (hs : s.Sane) {l : Label}
    (hg : s.attentive l = true) : (s.step l).Supervised := by
  cases l with
  | connect c =>
    simp only [Sys.step]
    split_ifs with hc
    · exact hsup
    · exact hsup.allocated hs hc rfl rfl (fun _ _ => rfl) rfl
  | join c p =>
    simp only [Sys.step]
    split_ifs with hc
    · simp only [Bool.and_eq_true] at hc
      unfold startJoin
      split
      · exact hsup
      · exact hsup.starts hc.1 _
    · exact hsup
  | leave c =>
    simp only [Sys.step]
    split_ifs
    · exact hsup.same rfl rfl rfl fun _ h => h
    · exact hsup
  | hangUp c => exact hsup.same rfl rfl rfl fun _ h => h
  | exit c =>
    simp only [Sys.step]
    split_ifs with hc
    · simp only [Bool.and_eq_true] at hc
      exact hsup.starts hc.1 _
    · exact hsup
  | run c ord => exact hsup.run hs hg
  | panic c => exact hsup.panic hg
  | kick roomID userID =>
    simp only [Sys.step]
    split
    · exact hsup
    · split_ifs
      · exact hsup
      · exact hsup.same rfl rfl rfl fun _ h => h
  | dissolve roomID =>
    simp only [Sys.step]
    split
    · exact hsup
    · exact hsup.same rfl rfl rfl fun _ h => h
  | observe u roomID mode username active =>
    simp only [Sys.step]
    split_ifs with hu
    · simp only [Bool.and_eq_true, decide_eq_true_eq] at hu
      unfold startObserve
      split
      · exact hsup
      · split_ifs
        · exact hsup
        · exact hsup.allocated hs hu.2 rfl rfl (fun d hd => Function.update_of_ne hd _ _) rfl
    · exact hsup
  | watch u => exact hsup.watch hs hg
  | unobserve u =>
    simp only [Sys.step]
    split_ifs
    · exact hsup.same rfl rfl rfl fun _ h => List.mem_append_left _ h
    · exact hsup
  | shut u =>
    simp only [Sys.step]
    split_ifs
    · exact hsup.same rfl rfl rfl fun _ h => h
    · exact hsup
  | leaving n => exact hsup.leaving hs hg

theorem Supervised.idle (hsup : s.Supervised) (hidle : s.Idle) {r : RoomRef} {o : UserID}
    (ho : s.In r o) :
    s.hub.rooms.lookup (s.hub.room r).id = some r ∧ s.hub.isBusinessActive r = true := by
  have hrest : ∀ c, (s.loop c).todo = [] ∧ ∀ t, ¬s.Collects t c := by
    intro c
    have hc := hidle.loop c
    cases hl : s.loop c with
    | reading => exact ⟨rfl, not_collects hl rfl rfl⟩
    | gone => exact ⟨rfl, not_collects hl rfl rfl⟩
    | _ => rw [hl] at hc; cases hc
  refine ⟨hsup.listed r o ho, ?_⟩
  rcases hsup.settled r o ho with h | ⟨c, hc⟩ | ⟨c, hc⟩ | h | ⟨c, hc⟩
  · exact h
  · exact absurd hc ((hrest c).2 r)
  · rw [(hrest c).1] at hc
    exact absurd hc List.not_mem_nil
  · rw [hidle.leaves] at h
    exact absurd h List.not_mem_nil
  · rw [(hrest c).1] at hc
    exact absurd hc List.not_mem_nil

end Steps

theorem Sane.idle {s : Sys} (hs : s.Sane)
    (hused : (s.hub.used.all fun c => (s.loop c).resting && (s.watch c).resting) = true)
    (hleaves : s.leaves = []) : s.Idle := by
  have hresting : ∀ c ∈ s.hub.used, (s.loop c).resting = true ∧ (s.watch c).resting = true :=
    fun c hc => by simpa only [Bool.and_eq_true] using List.all_eq_true.1 hused c hc
  refine ⟨fun c => ?_, fun u => ?_, hleaves⟩
  · cases hl : (s.loop c).isReading with
    | true =>
      cases hc : s.loop c with
      | reading => rfl
      | _ => rw [hc] at hl; cases hl
    | false => exact (hresting c (hs.busy c hl).1).1
  · by_cases hu : s.watch u = .away
    · rw [hu]; rfl
    · exact (hresting u (hs.watching u hu).1).2

/-- Every observer is in a room that the table lists and whose business goes on. -/
def Attended (s : Sys) : Prop := ∀ r o, s.In r o →
  s.hub.rooms.lookup (s.hub.room r).id = some r ∧ s.hub.isBusinessActive r = true

/-- The checks on the statistics say what they would if they were made at once. -/
def prompt (s : Sys) : Label → Bool
  | .observe _ roomID mode _ active =>
    match s.hub.getRoom roomID with
    | none => true
    | some r => active == (s.hub.observeGate {} r mode).isNone
  | _ => true

end Sys

/-- In every run of attentive steps the rooms that have observers when nothing is in
progress are listed and their business goes on. -/
theorem observers_in_live_rooms (token : String) {ls : List Label}
    (hg : (threads token).Guarded (fun s l => s.attentive l = true) ls)
    (hidle : ((threads token).run ls).Idle) : ((threads token).run ls).Attended := by
  have hsup : ((threads token).run ls).Supervised := by
    refine Machine.guarded_invariant_of (Q := Sys.Sane) (threads_sane token) ?_
      (fun s l hg hs hsup => hsup.step hs hg) hg
    exact ⟨fun r o ho => absurd ho.1 List.not_mem_nil, fun r o ho => absurd ho.1 List.not_mem_nil,
      fun r o ho => absurd ho.1 List.not_mem_nil, fun r o ho => absurd ho.1 List.not_mem_nil⟩
  exact fun r o ho => hsup.idle hidle ho

namespace Label

/-- `o` passes the gate of the room and has looked it up. -/
def admitted (o : UserID) (room : RoomID) : List Label :=
  [.observe o room "" "admin" true, .watch o]

/-- `o` enters the room it looked up. -/
def attend (o : UserID) : List Label := List.replicate 4 (.watch o)

end Label

/-- `o` watches a meeting that `b` leaves. -/
theorem observer_let_in :
    let s := (threads "").run (Label.arrive "a" "r" ++ Label.enter "a" ++ Label.arrive "b" "r" ++
      Label.enter "b" ++ Label.admitted "o" "r" ++ Label.attend "o" ++ Label.depart "b")
    s.In 0 "o" ∧ s.Attended :=
  ⟨by unfold Sys.In; decide +kernel, observers_in_live_rooms "" (by decide +kernel)
    ((threads_sane "" _).idle (by decide +kernel) (by decide +kernel))⟩

/-- `a`, alone in the meeting, goes between `o`'s gate and `o`'s entry. -/
theorem observer_stranded : ¬ ∀ (token : String) (ls : List Label),
    (threads token).Guarded (fun s l => s.prompt l = true) ls → ((threads token).run ls).Idle →
      ((threads token).run ls).Attended := by
  intro h
  have ho := h "" (Label.arrive "a" "r" ++ Label.enter "a" ++ Label.admitted "o" "r" ++
      Label.depart "a" ++ Label.attend "o") (by decide +kernel)
    ((threads_sane "" _).idle (by decide +kernel) (by decide +kernel)) 0 "o"
    (by unfold Sys.In; decide +kernel)
  exact absurd ho.1 (by decide +kernel)

end Meetkit
