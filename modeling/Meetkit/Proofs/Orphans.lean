import Meetkit.Proofs.Threads

/-! Rooms are looked up under one lock and entered under another, and a room is
dropped by its id. A member can therefore end up in a room that the table no longer
lists; it does not when no room is dropped that somebody is in or about to enter. -/

namespace Meetkit

/-- The table lists every room that has members. -/
def Hub.Housed (h : Hub) : Prop := ∀ r, ∀ c ∈ h.members r, h.rooms.lookup (h.room r).id = some r

def Loop.entering : Loop → Option (RoomRef × RoomMode)
  | .insert r mode => some (r, mode)
  | _ => none

namespace Sys

/-- If the step deletes a room from the table, the room has no members and nobody who
looked it up is still to enter it. -/
def DropsDeserted (s : Sys) (l : Label) : Prop :=
  match s.drops l with
  | none => True
  | some r =>
    (s.hub.room r).clients = [] →
      match s.hub.rooms.lookup (s.hub.room r).id with
      | none => True
      | some t => s.hub.members t = [] ∧
          ∀ c ∈ s.hub.used, (s.loop c).entering ≠ some (t, (s.hub.room t).mode)

instance (s : Sys) (l : Label) : Decidable (s.DropsDeserted l) := by
  unfold DropsDeserted
  split
  · infer_instance
  · split <;> infer_instance

structure Sheltered (s : Sys) : Prop where
  table : ∀ id r, s.hub.rooms.lookup id = some r → (s.hub.room r).id = id ∧ r < s.hub.nextRoom
  orphan : ∀ r, s.hub.rooms.lookup (s.hub.room r).id ≠ some r →
    s.hub.members r = [] ∧ ∀ c, (s.loop c).entering ≠ some (r, (s.hub.room r).mode)

theorem entering_iff {l : Loop} {r : RoomRef} {mode : RoomMode} :
    l.entering = some (r, mode) ↔ l = .insert r mode := by
  cases l <;> simp [Loop.entering]

variable {s s' : Sys} {l : Label}

theorem Sheltered.calm (hsh : s.Sheltered) (h : s.Calm s') : s'.Sheltered := by
  refine ⟨fun id r hr => ?_, fun r hr => ?_⟩
  · rw [h.rooms] at hr
    rw [h.id, h.nextRoom]
    exact hsh.table id r hr
  · rw [h.rooms, h.id] at hr
    obtain ⟨hnil, hnone⟩ := hsh.orphan r hr
    refine ⟨List.eq_nil_of_sublist_nil (hnil ▸ h.members r), fun c hc => hnone c ?_⟩
    rw [h.mode] at hc
    exact entering_iff.2 (h.pending c r _ (entering_iff.1 hc))

theorem Sheltered.found (hsh : s.Sheltered) (c : UserID) (id : RoomID) (mode : RoomMode) :
    ({ s with hub := (s.hub.getOrCreateRoom id mode).1 }.setLoop c
      (.insert (s.hub.getOrCreateRoom id mode).2 mode)).Sheltered := by
  cases hfind : s.hub.rooms.lookup id with
  | some r =>
    have hget : s.hub.getOrCreateRoom id mode = (s.hub, r) := by
      simp only [Hub.getOrCreateRoom, hfind]
    rw [hget]
    refine ⟨hsh.table, fun t ht => ⟨(hsh.orphan t ht).1, fun d hd => ?_⟩⟩
    by_cases hdc : d = c
    · -- the room looked up is listed
      subst hdc
      rw [setLoop_same, entering_iff] at hd
      simp only [Loop.insert.injEq] at hd
      have hid := (hsh.table id r hfind).1
      rw [hd.1] at hid hfind
      exact ht (hid.symm ▸ hfind)
    · rw [setLoop_ne _ _ hdc] at hd
      exact (hsh.orphan t ht).2 d hd
  | none =>
    have hget : s.hub.getOrCreateRoom id mode =
        ({ s.hub with
            rooms := s.hub.rooms.insert id s.hub.nextRoom
            room := Function.update s.hub.room s.hub.nextRoom { id, mode }
            nextRoom := s.hub.nextRoom + 1 }, s.hub.nextRoom) := by
      simp only [Hub.getOrCreateRoom, hfind]
    rw [hget]
    have hroom : ∀ t, t ≠ s.hub.nextRoom →
        Function.update s.hub.room s.hub.nextRoom ({ id, mode } : Room) t = s.hub.room t := fun t ht =>
      Function.update_of_ne ht _ _
    refine ⟨fun id' t ht => ?_, fun t ht => ?_⟩
    · simp only [setLoop_hub, GoMap.lookup_insert_iff] at ht ⊢
      split_ifs at ht with hid
      · obtain rfl := Option.some.inj ht
        rw [Function.update_self]
        exact ⟨hid.symm, Nat.lt_succ_self _⟩
      · obtain ⟨h1, h2⟩ := hsh.table id' t ht
        rw [hroom t (Nat.ne_of_lt h2)]
        exact ⟨h1, Nat.lt_succ_of_lt h2⟩
    · simp only [setLoop_hub, GoMap.lookup_insert_iff] at ht
      have hne : t ≠ s.hub.nextRoom := by
        rintro rfl
        rw [Function.update_self, if_pos rfl] at ht
        exact ht rfl
      rw [hroom t hne] at ht
      have hold : s.hub.rooms.lookup (s.hub.room t).id ≠ some t := by
        intro hl
        split_ifs at ht with hid
        · rw [hid, hfind] at hl; cases hl
        · exact ht hl
      obtain ⟨hnil, hnone⟩ := hsh.orphan t hold
      refine ⟨?_, fun d hd => ?_⟩
      · simp only [setLoop_hub, Hub.members, hroom t hne]
        exact hnil
      · simp only [setLoop_hub, hroom t hne] at hd
        by_cases hdc : d = c
        · subst hdc
          rw [setLoop_same, entering_iff] at hd
          simp only [Loop.insert.injEq] at hd
          exact hne hd.1.symm
        · rw [setLoop_ne _ _ hdc] at hd
          exact hnone d hd

theorem Sheltered.entered (hsh : s.Sheltered) {c : UserID} {r : RoomRef} {mode : RoomMode}
    (hl : s.loop c = .insert r mode) (hadm : s.hub.admission r c mode = none) :
    ({ s with hub := s.hub.addTo r c }.setLoop c (.attach r)).Sheltered := by
  have hkept := fun t => s.hub.addTo_kept r t c
  have hmode := admission_mode hadm
  refine ⟨fun id t ht => ?_, fun t ht => ?_⟩
  · rw [setLoop_hub, (hkept t).1]
    exact hsh.table id t ht
  · rw [setLoop_hub, (hkept t).1] at ht
    obtain ⟨hnil, hnone⟩ := hsh.orphan t ht
    have hne : t ≠ r := by
      rintro rfl
      exact hnone c (entering_iff.2 (hmode ▸ hl))
    refine ⟨?_, fun d hd => ?_⟩
    · refine List.eq_nil_iff_forall_not_mem.2 fun d hd => ?_
      rcases Hub.mem_members_addTo.1 hd with hd | ⟨-, htr, -⟩
      · rw [hnil] at hd; exact List.not_mem_nil hd
      · exact hne htr
    · rw [setLoop_hub, (hkept t).2] at hd
      by_cases hdc : d = c
      · subst hdc
        rw [setLoop_same] at hd
        cases hd
      · rw [setLoop_ne _ _ hdc] at hd
        exact hnone d hd

theorem Sheltered.dropped (hsh : s.Sheltered) (hs : s.Sane) {r : RoomRef} (hl : s.drops l = some r)
    (hg : s.DropsDeserted l) (hhub : s'.hub = s.hub.removeRoomIfEmpty r)
    (hpending : ∀ c r mode, s'.loop c = .insert r mode → s.loop c = .insert r mode) :
    s'.Sheltered := by
  have hrooms : ∀ id, s'.hub.rooms.lookup id =
      if (s.hub.room r).clients = [] ∧ id = (s.hub.room r).id then none
      else s.hub.rooms.lookup id := by
    intro id
    rw [hhub, Hub.removeRoomIfEmpty]
    by_cases hempty : (s.hub.room r).clients = []
    · rw [if_pos hempty]
      simp only [GoMap.lookup_erase_iff, hempty, true_and]
    · rw [if_neg hempty, if_neg fun h => hempty h.1]
  have hroom : s'.hub.room = s.hub.room := by rw [hhub, Hub.removeRoomIfEmpty_room]
  have hmembers : ∀ t, s'.hub.members t = s.hub.members t := fun t => by
    rw [hhub]; simp [Hub.members, Hub.isObserver]
  refine ⟨fun id t ht => ?_, fun t ht => ?_⟩
  · rw [hrooms] at ht
    split_ifs at ht
    rw [hroom, hhub, Hub.removeRoomIfEmpty_nextRoom]
    exact hsh.table id t ht
  · rw [hrooms, hroom] at ht
    have hold : s.hub.members t = [] ∧
        ∀ c ∈ s.hub.used, (s.loop c).entering ≠ some (t, (s.hub.room t).mode) := by
      split_ifs at ht with hgone
      · -- the room the step takes from the table, if it was listed
        by_cases hlist : s.hub.rooms.lookup (s.hub.room r).id = some t
        · simp only [DropsDeserted, hl, hlist] at hg
          exact hg hgone.1
        · rw [← hgone.2] at hlist
          exact (hsh.orphan t hlist).imp id fun h c _ => h c
      · exact (hsh.orphan t ht).imp id fun h c _ => h c
    rw [hmembers, hroom]
    refine ⟨hold.1, fun c hc => ?_⟩
    have hc' := hpending c t _ (entering_iff.1 hc)
    exact hold.2 c (hs.busy c (by rw [hc']; rfl)).1 (entering_iff.2 hc')

theorem Sheltered.move (hsh : s.Sheltered) (hs : s.Sane) (hg : s.DropsDeserted l)
    (hm : Move s l s') : s'.Sheltered := by
  cases hm with
  | calm h => exact hsh.calm h
  | @found c id mode hl => exact hsh.found c id mode
  | entered hl hadm => exact hsh.entered hl hadm
  | dropped hl hhub hhome hpending => exact hsh.dropped hs hl hg hhub hpending

theorem Sheltered.housed (hsh : s.Sheltered) : s.hub.Housed := by
  intro r c hc
  by_contra hr
  rw [(hsh.orphan r hr).1] at hc
  exact absurd hc List.not_mem_nil

end Sys

/-- In every interleaving in which no room is dropped that somebody is in or about to
enter, every member is in the room that the table has under its id. -/
theorem members_stay_housed (token : String) {ls : List Label}
    (hg : (threads token).Guarded Sys.DropsDeserted ls) :
    let h := ((threads token).run ls).hub
    h.Housed ∧ ∀ r t, ∀ c ∈ h.members r, ∀ d ∈ h.members t,
      (h.room r).id = (h.room t).id → r = t := by
  have hsh : ((threads token).run ls).Sheltered := by
    refine Machine.guarded_invariant_of (Q := Sys.Sane) (threads_sane token) ?_
      (fun s l hg hs hsh => hsh.move hs hg (hs.move l)) hg
    exact ⟨fun id r hr => (nomatch hr), fun r _ => ⟨rfl, fun c hc => (nomatch hc)⟩⟩
  refine ⟨hsh.housed, fun r t c hc d hd hid => ?_⟩
  have hr := hsh.housed r c hc
  rw [hid, hsh.housed t d hd] at hr
  exact (Option.some.inj hr).symm

/-! ### Two runs on one room -/

namespace Label

def arrive (c : UserID) (room : RoomID) : List Label :=
  [.connect c, .join c (.ok { room, nickname := c })] ++ List.replicate 5 (.run c {})

def enter (c : UserID) : List Label := List.replicate 2 (.run c {})

def depart (c : UserID) : List Label := [.hangUp c, .exit c] ++ List.replicate 7 (.run c {})

end Label

/-- `a` leaves when `b` is in the room, then `b` does and `c` gets a new one. -/
theorem three_members_housed :
    let h := ((threads "").run (Label.arrive "a" "r" ++ Label.arrive "b" "r" ++ Label.enter "a" ++
      Label.enter "b" ++ Label.depart "a" ++ Label.depart "b" ++ Label.arrive "c" "r" ++
      Label.enter "c")).hub
    h.Housed ∧ ∀ r t, ∀ c ∈ h.members r, ∀ d ∈ h.members t, (h.room r).id = (h.room t).id → r = t :=
  members_stay_housed "" (by decide +kernel)

/-- `a` leaves between `b`'s look-up and `b`'s entry. -/
theorem member_stranded : ¬ ∀ (token : String) (ls : List Label), ((threads token).run ls).hub.Housed := by
  intro h
  have hb := h "" (Label.arrive "a" "r" ++ Label.enter "a" ++ Label.arrive "b" "r" ++
    Label.depart "a" ++ Label.enter "b") 0 "b" (by decide)
  exact absurd hb (by decide)

end Meetkit
