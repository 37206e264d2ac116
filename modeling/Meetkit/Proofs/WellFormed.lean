import Meetkit.Model.Server

/-! What holds of the hub between two operations. A client is in the map of the
room it points at and of no other, a client in no room holds no streams and no
recordings, and the table lists every room that has clients. Each operation is
one of the changes below, and each of them keeps all of it. -/

namespace Meetkit

/-- A write that leaves a client's room, connection, streams and recordings alone. -/
structure Mild (f : Client → Client) : Prop where
  room : ∀ x : Client, (f x).room = x.room
  hasConn : ∀ x : Client, (f x).hasConn = x.hasConn
  streams : ∀ x : Client, (f x).streams = x.streams
  recordings : ∀ x : Client, (f x).recordings = x.recordings
  isObserver : ∀ x : Client, (f x).isObserver = x.isObserver
  closed : ∀ x : Client, (f x).closed = x.closed

theorem Mild.comp {f g : Client → Client} (hg : Mild g) (hf : Mild f) : Mild (g ∘ f) where
  room _ := (hg.room _).trans (hf.room _)
  hasConn _ := (hg.hasConn _).trans (hf.hasConn _)
  streams _ := (hg.streams _).trans (hf.streams _)
  recordings _ := (hg.recordings _).trans (hf.recordings _)
  isObserver _ := (hg.isObserver _).trans (hf.isObserver _)
  closed _ := (hg.closed _).trans (hf.closed _)

namespace Hub

theorem isObserver_setClient {h : Hub} {c : UserID} {f : Client → Client}
    (hf : (f (h.client c)).isObserver = (h.client c).isObserver) (d : UserID) :
    (h.setClient c f).isObserver d = h.isObserver d := by
  simp only [isObserver, setClient_client]
  split_ifs with hd
  · rw [hd, hf]
  · rfl

structure WellFormed (h : Hub) : Prop where
  unborn : ∀ c, c ∉ h.used → h.client c = {}
  born : ∀ c ∈ h.used, (h.client c).hasConn = !h.isObserver c
  member : ∀ r c, c ∈ (h.room r).clients → (h.client c).room = some r ∧ (h.client c).closed = false
  present : ∀ c r, (h.client c).room = some r → (h.client c).closed = false →
    c ∈ (h.room r).clients
  outside : ∀ c, (∀ r, c ∉ (h.room r).clients) →
    (h.client c).streams = ∅ ∧ (h.client c).recordings = ∅
  silent : ∀ c, h.isObserver c = true → (h.client c).streams = ∅ ∧ (h.client c).recordings = ∅
  watching : ∀ c, h.isObserver c = true → (h.client c).closed = false
  streamID : ∀ c kind s, (h.client c).streams.lookup kind = some s → s ≠ ""
  table : ∀ id r, h.rooms.lookup id = some r → (h.room r).id = id ∧ r < h.nextRoom
  listed : ∀ r, (h.room r).clients ≠ [] → h.rooms.lookup (h.room r).id = some r

namespace WellFormed

variable {h : Hub}

theorem unique (hw : h.WellFormed) {r s : RoomRef} {c : UserID} (hr : c ∈ (h.room r).clients)
    (hs : c ∈ (h.room s).clients) : r = s := by
  have h1 := (hw.member r c hr).1
  have h2 := (hw.member s c hs).1
  rw [h1] at h2
  exact Option.some.inj h2

theorem used_of_hasConn (hw : h.WellFormed) {c : UserID} (hc : (h.client c).hasConn = true) :
    c ∈ h.used := by
  by_contra hu
  rw [hw.unborn c hu] at hc
  cases hc

theorem used_of_room (hw : h.WellFormed) {c : UserID} {r : RoomRef}
    (hc : (h.client c).room = some r) : c ∈ h.used := by
  by_contra hu
  rw [hw.unborn c hu] at hc
  cases hc

theorem used_of_observer (hw : h.WellFormed) {c : UserID} (hc : h.isObserver c = true) :
    c ∈ h.used := by
  by_contra hu
  rw [isObserver, hw.unborn c hu] at hc
  cases hc

theorem business (hw : h.WellFormed) {c : UserID} (hc : (h.client c).hasConn = true) :
    h.isObserver c = false := by
  have hb := hw.born c (hw.used_of_hasConn hc)
  rw [hc] at hb
  simpa using hb.symm

theorem unallocated (hw : h.WellFormed) {r : RoomRef} (hr : h.nextRoom ≤ r) :
    (h.room r).clients = [] := by
  by_contra hne
  exact absurd hr (not_le.2 (hw.table _ r (hw.listed r hne)).2)

theorem not_member_of_room (hw : h.WellFormed) {c : UserID} (hc : (h.client c).room = none)
    (r : RoomRef) : c ∉ (h.room r).clients := by
  intro hr
  rw [(hw.member r c hr).1] at hc
  cases hc

theorem init (token : String) : ({ token } : Hub).WellFormed where
  unborn _ _ := rfl
  born c hc := absurd hc List.not_mem_nil
  member r c hc := absurd hc List.not_mem_nil
  present c r hc _ := by cases hc
  outside _ _ := ⟨rfl, rfl⟩
  silent _ _ := ⟨rfl, rfl⟩
  watching _ _ := rfl
  streamID c kind s hs := by cases hs
  table id r hr := by cases hr
  listed r hr := absurd rfl hr

/-- A client that is in no room may be replaced by another that is in none. -/
theorem allocate (hw : h.WellFormed) {c : UserID} (hc : c ∉ h.used) {x : Client}
    (hx : x.room = none) (hopen : x.closed = false) (hs : x.streams = ∅ ∧ x.recordings = ∅)
    (hb : x.hasConn = !x.isObserver) : (h.allocate c x).WellFormed := by
  have hroom : (h.client c).room = none := by rw [hw.unborn c hc]
  have hout := hw.not_member_of_room hroom
  have hcl : ∀ d, (h.allocate c x).client d = if d = c then x else h.client d := fun d =>
    Function.update_apply _ _ _ _
  refine ⟨?_, ?_, ?_, ?_, ?_, ?_, ?_, ?_, hw.table, hw.listed⟩
  · intro d hd
    simp only [Hub.allocate, List.mem_cons, not_or] at hd
    rw [hcl, if_neg hd.1]
    exact hw.unborn d hd.2
  · intro d hd
    simp only [Hub.allocate, List.mem_cons] at hd
    simp only [isObserver, hcl]
    split_ifs with hdc
    · exact hb
    · exact hw.born d (hd.resolve_left hdc)
  · intro r d hd
    have hdc : d ≠ c := by rintro rfl; exact hout r hd
    rw [hcl, if_neg hdc]
    exact hw.member r d hd
  · intro d r
    rw [hcl]
    split_ifs with hdc
    · intro hr; rw [hx] at hr; cases hr
    · exact hw.present d r
  · intro d hd
    rw [hcl]
    split_ifs with hdc
    · exact hs
    · exact hw.outside d hd
  · intro d
    simp only [isObserver, hcl]
    split_ifs with hdc
    · exact fun _ => hs
    · exact hw.silent d
  · intro d
    simp only [isObserver, hcl]
    split_ifs with hdc
    · exact fun _ => hopen
    · exact hw.watching d
  · intro d kind s
    rw [hcl]
    split_ifs with hdc
    · intro hl; rw [hs.1] at hl; cases hl
    · exact hw.streamID d kind s

/-- A write to the client that keeps its room, its connection and whether it is an
observer; its streams and recordings may change while it is a member. -/
theorem rewrite (hw : h.WellFormed) {c : UserID} (hu : c ∈ h.used) {f : Client → Client}
    (hroom : (f (h.client c)).room = (h.client c).room)
    (hconn : (f (h.client c)).hasConn = (h.client c).hasConn)
    (hobs : (f (h.client c)).isObserver = (h.client c).isObserver)
    (hclosed : (f (h.client c)).closed = (h.client c).closed ∨
      (h.client c).room = none ∧ h.isObserver c = false)
    (hheld : (f (h.client c)).streams = (h.client c).streams ∧
      (f (h.client c)).recordings = (h.client c).recordings ∨
      h.isObserver c = false ∧ (∃ r, c ∈ (h.room r).clients) ∧
        ∀ kind s, (f (h.client c)).streams.lookup kind = some s → s ≠ "") :
    (h.setClient c f).WellFormed := by
  have hcl := h.setClient_client c (f := f)
  refine ⟨?_, ?_, ?_, ?_, ?_, ?_, ?_, ?_, hw.table, hw.listed⟩
  · intro d hd
    rw [hcl, if_neg (by rintro rfl; exact hd hu)]
    exact hw.unborn d hd
  · intro d hd
    simp only [isObserver, hcl]
    split_ifs with hdc
    · subst hdc
      rw [hconn, hobs]
      exact hw.born d hd
    · exact hw.born d hd
  · intro r d hd
    rw [hcl]
    split_ifs with hdc
    · subst hdc
      rw [hroom]
      rcases hclosed with hsame | ⟨hnone, -⟩
      · rw [hsame]; exact hw.member r d hd
      · exact absurd hd (hw.not_member_of_room hnone r)
    · exact hw.member r d hd
  · intro d r
    rw [hcl]
    split_ifs with hdc
    · subst hdc
      rw [hroom]
      rcases hclosed with hsame | ⟨hnone, -⟩
      · rw [hsame]; exact hw.present d r
      · intro hr; rw [hnone] at hr; cases hr
    · exact hw.present d r
  · intro d hd
    rw [hcl]
    split_ifs with hdc
    · subst hdc
      rcases hheld with hsame | ⟨-, ⟨r, hr⟩, -⟩
      · rw [hsame.1, hsame.2]
        exact hw.outside d hd
      · exact absurd hr (hd r)
    · exact hw.outside d hd
  · intro d
    simp only [isObserver, hcl]
    split_ifs with hdc
    · subst hdc
      rw [hobs]
      intro hd
      rcases hheld with hsame | ⟨hob, -, -⟩
      · rw [hsame.1, hsame.2]
        exact hw.silent d hd
      · rw [isObserver, hd] at hob; cases hob
    · exact hw.silent d
  · intro d
    simp only [isObserver, hcl]
    split_ifs with hdc
    · subst hdc
      rw [hobs]
      intro hd
      rcases hclosed with hsame | ⟨-, hob⟩
      · rw [hsame]; exact hw.watching d hd
      · rw [isObserver, hd] at hob; cases hob
    · exact hw.watching d
  · intro d kind s
    rw [hcl]
    split_ifs with hdc
    · subst hdc
      rcases hheld with hsame | ⟨-, -, hne⟩
      · rw [hsame.1]
        exact hw.streamID d kind s
      · exact hne kind s
    · exact hw.streamID d kind s

theorem mild (hw : h.WellFormed) {c : UserID} (hu : c ∈ h.used) {f : Client → Client}
    (hf : Mild f) : (h.setClient c f).WellFormed :=
  hw.rewrite hu (hf.room _) (hf.hasConn _) (hf.isObserver _) (Or.inl (hf.closed _))
    (Or.inl ⟨hf.streams _, hf.recordings _⟩)

theorem getOrCreateRoom (hw : h.WellFormed) (id : RoomID) (mode : RoomMode) :
    (h.getOrCreateRoom id mode).1.WellFormed := by
  unfold Hub.getOrCreateRoom
  split
  · exact hw
  · rename_i hnone
    have hempty := hw.unallocated (le_refl h.nextRoom)
    have hroom : ∀ r, (Function.update h.room h.nextRoom { id, mode } r).clients =
        (h.room r).clients := by
      intro r
      rw [Function.update_apply]
      split_ifs with hr
      · subst hr; exact hempty.symm
      · rfl
    refine ⟨hw.unborn, hw.born, ?_, ?_, ?_, hw.silent, hw.watching, hw.streamID, ?_, ?_⟩
    · intro r c hc; exact hw.member r c (hroom r ▸ hc)
    · intro c r hr hcl; exact (hroom r).symm ▸ hw.present c r hr hcl
    · intro c hc; exact hw.outside c fun r hr => hc r ((hroom r).symm ▸ hr)
    · intro id' r hr
      simp only [GoMap.lookup_insert_iff] at hr
      simp only [Function.update_apply]
      split_ifs at hr with hid
      · obtain rfl := Option.some.inj hr
        rw [if_pos rfl]
        exact ⟨hid.symm, Nat.lt_succ_self _⟩
      · obtain ⟨h1, h2⟩ := hw.table id' r hr
        rw [if_neg h2.ne]
        exact ⟨h1, Nat.lt_succ_of_lt h2⟩
    · intro r hr
      have hr' : (h.room r).clients ≠ [] := hroom r ▸ hr
      have hne : r ≠ h.nextRoom := by rintro rfl; exact hr' hempty
      have hl := hw.listed r hr'
      dsimp only
      rw [Function.update_of_ne hne, GoMap.lookup_insert_iff, if_neg, hl]
      intro hid
      rw [hid, hnone] at hl
      cases hl

/-- The room that `getOrCreateRoom` returns is in the table. -/
theorem getOrCreateRoom_listed (hw : h.WellFormed) (id : RoomID) (mode : RoomMode) :
    (h.getOrCreateRoom id mode).1.rooms.lookup id = some (h.getOrCreateRoom id mode).2 ∧
      ((h.getOrCreateRoom id mode).1.room (h.getOrCreateRoom id mode).2).id = id := by
  unfold Hub.getOrCreateRoom
  split
  · rename_i r hr
    exact ⟨hr, (hw.table id r hr).1⟩
  · exact ⟨AList.lookup_insert _, by simp only [Function.update_self]⟩

/-- Only the entry of the empty room itself may be deleted. -/
theorem removeRoomIfEmpty (hw : h.WellFormed) {r : RoomRef}
    (hr : ∀ s, h.rooms.lookup (h.room r).id = some s → s = r) :
    (h.removeRoomIfEmpty r).WellFormed := by
  unfold Hub.removeRoomIfEmpty
  split_ifs with hempty
  · refine ⟨hw.unborn, hw.born, hw.member, hw.present, hw.outside, hw.silent, hw.watching,
      hw.streamID, ?_, ?_⟩
    · intro id s hs
      exact hw.table id s (GoMap.lookup_erase_eq_some.1 hs).2
    · intro s hs
      have hl := hw.listed s hs
      rw [GoMap.lookup_erase_iff, if_neg, hl]
      intro hid
      rw [hid] at hl
      rw [hr s hl] at hs
      exact hs hempty
  · exact hw

/-- A client in no room enters one of the table. -/
theorem enter (hw : h.WellFormed) {c : UserID} {r : RoomRef} (hu : c ∈ h.used)
    (hnone : (h.client c).room = none) (hopen : (h.client c).closed = false)
    (hr : h.rooms.lookup (h.room r).id = some r) :
    ((h.addTo r c).setClient c fun x => { x with room := some r }).WellFormed := by
  have hout := hw.not_member_of_room hnone
  obtain ⟨hs, hrec⟩ := hw.outside c hout
  have hcl : ∀ d, ((h.addTo r c).setClient c fun x => { x with room := some r }).client d =
      if d = c then { h.client d with room := some r } else h.client d := by
    intro d
    rw [setClient_client]
    split_ifs with hd
    · rw [hd]; rfl
    · rfl
  have hmem : ∀ s d, d ∈ ((h.addTo r c).room s).clients ↔
      s = r ∧ d = c ∨ d ∈ (h.room s).clients :=
    fun s d => mem_addTo.trans or_comm
  have hid : ∀ s, ((h.addTo r c).room s).id = (h.room s).id :=
    fun s => (h.addTo_kept r s c).1
  refine ⟨?_, ?_, ?_, ?_, ?_, ?_, ?_, ?_, ?_, ?_⟩
  · intro d hd
    rw [hcl, if_neg (by rintro rfl; exact hd hu)]
    exact hw.unborn d hd
  · intro d hd
    simp only [isObserver, hcl]
    split_ifs <;> exact hw.born d hd
  · intro s d hd
    rw [hcl]
    rcases (hmem s d).1 hd with ⟨rfl, rfl⟩ | hmd
    · rw [if_pos rfl]; exact ⟨rfl, hopen⟩
    · rw [if_neg (by rintro rfl; exact hout s hmd)]
      exact hw.member s d hmd
  · intro d s
    rw [hcl]
    split_ifs with hdc
    · intro hs _
      exact (hmem s d).2 (Or.inl ⟨(Option.some.inj hs).symm, hdc⟩)
    · intro hs hcl
      exact (hmem s d).2 (Or.inr (hw.present d s hs hcl))
  · intro d hd
    rw [hcl]
    split_ifs with hdc
    · subst hdc; exact ⟨hs, hrec⟩
    · exact hw.outside d fun s hds => hd s ((hmem s d).2 (Or.inr hds))
  · intro d
    simp only [isObserver, hcl]
    split_ifs with hdc
    · subst hdc; exact fun _ => ⟨hs, hrec⟩
    · exact hw.silent d
  · intro d
    simp only [isObserver, hcl]
    split_ifs with hdc
    · subst hdc; exact fun _ => hopen
    · exact hw.watching d
  · intro d kind s
    rw [hcl]
    split_ifs <;> exact hw.streamID d kind s
  · intro id s hs
    obtain ⟨h1, h2⟩ := hw.table id s hs
    exact ⟨(hid s).trans h1, h2⟩
  · intro s hs
    have hl : h.rooms.lookup (h.room s).id = some s := by
      by_cases hsr : s = r
      · rw [hsr]; exact hr
      · refine hw.listed s fun hnil => hs ?_
        refine List.eq_nil_iff_forall_not_mem.2 fun d hd => ?_
        rcases (hmem s d).1 hd with ⟨h1, -⟩ | hd
        · exact hsr h1
        · rw [hnil] at hd; cases hd
    rw [setClient_room, hid]
    exact hl

/-- A client leaves its room, without its streams and recordings; afterwards it is
closed or points at no room. -/
theorem vacate (hw : h.WellFormed) {c : UserID} {r : RoomRef} (hu : c ∈ h.used)
    (hc : (h.client c).room = some r) {f : Client → Client}
    (hconn : (f (h.client c)).hasConn = (h.client c).hasConn)
    (hobs : (f (h.client c)).isObserver = (h.client c).isObserver)
    (hgone : (f (h.client c)).room = none ∧ (f (h.client c)).closed = (h.client c).closed ∨
      (f (h.client c)).closed = true ∧ h.isObserver c = false)
    (hheld : (f (h.client c)).streams = ∅ ∧ (f (h.client c)).recordings = ∅) :
    ((h.removeFrom r c).setClient c f).WellFormed := by
  have hcl : ∀ d, ((h.removeFrom r c).setClient c f).client d =
      if d = c then f (h.client c) else h.client d := fun d => setClient_client _ _ _ _
  have hmem : ∀ s d, d ∈ ((h.removeFrom r c).room s).clients ↔ d ≠ c ∧ d ∈ (h.room s).clients := by
    intro s d
    rw [mem_removeFrom]
    constructor
    · rintro ⟨hd, hno⟩
      refine ⟨?_, hd⟩
      rintro rfl
      have hroom := (hw.member s d hd).1
      rw [hc] at hroom
      exact hno ⟨(Option.some.inj hroom).symm, rfl⟩
    · rintro ⟨hne, hd⟩
      exact ⟨hd, fun h => hne h.2⟩
  have hid : ∀ s, ((h.removeFrom r c).room s).id = (h.room s).id :=
    fun s => (h.removeFrom_kept r s c).1
  refine ⟨?_, ?_, ?_, ?_, ?_, ?_, ?_, ?_, ?_, ?_⟩
  · intro d hd
    rw [hcl, if_neg (by rintro rfl; exact hd hu)]
    exact hw.unborn d hd
  · intro d hd
    simp only [isObserver, hcl]
    split_ifs with hdc
    · subst hdc; rw [hconn, hobs]; exact hw.born d hd
    · exact hw.born d hd
  · intro s d hd
    obtain ⟨hdc, hd⟩ := (hmem s d).1 hd
    rw [hcl, if_neg hdc]
    exact hw.member s d hd
  · intro d s
    rw [hcl]
    split_ifs with hdc
    · intro hroom hopen
      rcases hgone with ⟨hg, -⟩ | ⟨hg, -⟩
      · rw [hg] at hroom; cases hroom
      · rw [hg] at hopen; cases hopen
    · exact fun hroom hopen => (hmem s d).2 ⟨hdc, hw.present d s hroom hopen⟩
  · intro d hd
    rw [hcl]
    split_ifs with hdc
    · exact hheld
    · exact hw.outside d fun s hds => hd s ((hmem s d).2 ⟨hdc, hds⟩)
  · intro d
    simp only [isObserver, hcl]
    split_ifs with hdc
    · exact fun _ => hheld
    · exact hw.silent d
  · intro d
    simp only [isObserver, hcl]
    split_ifs with hdc
    · subst hdc
      rw [hobs]
      intro hd
      rcases hgone with ⟨-, hg⟩ | ⟨-, hob⟩
      · rw [hg]; exact hw.watching d hd
      · rw [isObserver, hd] at hob; cases hob
    · exact hw.watching d
  · intro d kind s
    rw [hcl]
    split_ifs with hdc
    · intro hl; rw [hheld.1] at hl; cases hl
    · exact hw.streamID d kind s
  · intro id s hs
    obtain ⟨h1, h2⟩ := hw.table id s hs
    exact ⟨(hid s).trans h1, h2⟩
  · intro s hs
    rw [setClient_room, hid]
    refine hw.listed s fun hnil => hs ?_
    refine List.eq_nil_iff_forall_not_mem.2 fun d hd => ?_
    have := ((hmem s d).1 hd).2
    rw [hnil] at this
    cases this

end WellFormed

end Hub

end Meetkit
