import Meetkit.Proofs.TileStops

/-! What the calls of `startTile` do to the observe sessions when they go on. -/

namespace Meetkit

namespace TileSessions

variable {s s' : TileSessions} {key : TileKey} {room : RoomID} {r : SessionRef} {id id' : StartId}
  {p p' : TileStart} {tile : SessionTile} {sg : SigId}

/-! ### Starting a tile -/

/-- What a call of `startTile` awaits after one of them has gone on. -/
theorem start_cases {start : StartId → Option TileStart} {q : Option TileStart}
    (h : Function.update start id q id' = some p') :
    (id' = id ∧ q = some p') ∨ (id' ≠ id ∧ start id' = some p') := by
  rw [Function.update_apply] at h
  split_ifs at h with he
  · exact Or.inl ⟨he, h⟩
  · exact Or.inr ⟨he, h⟩

theorem update_ne {start : StartId → Option TileStart} {q : Option TileStart} (hne : id' ≠ id)
    (h : start id' = some p') : Function.update start id q id' = some p' :=
  (Function.update_of_ne hne _ _).trans h

/-- A tile that does not count yet goes on not counting. -/
theorem uncounted_moved {phase : StartPhase} (hp : s.start id = some p) (hphase : p.phase ≠ .playing)
    (hs : s'.start = Function.update s.start id (some { p with phase }))
    (hphase' : phase ≠ .playing) : s'.Uncounted key ↔ s.Uncounted key := by
  rw [Uncounted, Uncounted, hs]
  constructor
  · rintro ⟨id', p', hp', hkey, hwaits⟩
    rcases start_cases hp' with ⟨-, he⟩ | ⟨-, hp'⟩
    · rw [← Option.some.inj he] at hkey
      exact ⟨id, p, hp, hkey, hphase⟩
    · exact ⟨id', p', hp', hkey, hwaits⟩
  · rintro ⟨id', p', hp', hkey, hwaits⟩
    by_cases he : id' = id
    · rw [he, hp] at hp'
      rw [← Option.some.inj hp'] at hkey
      exact ⟨id, { p with phase }, Function.update_self _ _ _, hkey, hphase'⟩
    · exact ⟨id', p', update_ne he hp', hkey, hwaits⟩

theorem counted_congr (hstart : ∀ key, s'.Uncounted key ↔ s.Uncounted key)
    (htiles : s'.tiles = s.tiles) : s'.Counted room key ↔ s.Counted room key := by
  rw [Counted, Counted, hstart, htiles]

theorem Starts.moved {phase : StartPhase} (h : s.Starts) (hp : s.start id = some p)
    (hphase : p.phase ≠ .playing)
    (hs : s'.start = Function.update s.start id (some { p with phase }))
    (hnew : s'.newStart = s.newStart) (htiles : s'.tiles = s.tiles) : s'.Starts := by
  have hwas : ∀ {id' p'}, s'.start id' = some p' → p'.phase ≠ .playing →
      ∃ q, s.start id' = some q ∧ q.phase ≠ .playing ∧ q.key = p'.key ∧ q.room = p'.room := by
    intro id' p' hp' hwaits
    rw [hs] at hp'
    rcases start_cases hp' with ⟨rfl, he⟩ | ⟨-, hp'⟩
    · cases he
      exact ⟨p, hp, hphase, rfl, rfl⟩
    · exact ⟨p', hp', hwaits, rfl, rfl⟩
  refine ⟨fun {id' p'} hp' => ?_, fun {id' p'} hp' hwaits => ?_,
    fun {id₁ id₂ p₁ p₂} h₁ h₂ hw₁ hw₂ hkey => ?_⟩
  · rw [hs] at hp'
    rw [hnew]
    rcases start_cases hp' with ⟨rfl, -⟩ | ⟨-, hp'⟩
    · exact h.startFresh hp
    · exact h.startFresh hp'
  · obtain ⟨q, hq, hqwaits, hkey, hroom⟩ := hwas hp' hwaits
    obtain ⟨tile, htile, htroom⟩ := h.waiting hq hqwaits
    rw [hkey] at htile
    rw [htiles]
    exact ⟨tile, htile, htroom.trans hroom⟩
  · obtain ⟨q₁, hq₁, hqw₁, hk₁, -⟩ := hwas h₁ hw₁
    obtain ⟨q₂, hq₂, hqw₂, hk₂, -⟩ := hwas h₂ hw₂
    exact h.alone hq₁ hq₂ hqw₁ hqw₂ (hk₁.trans (hkey.trans hk₂.symm))

theorem Starts.returned (h : s.Starts) (hs : s'.start = Function.update s.start id none)
    (hnew : s'.newStart = s.newStart)
    (htiles : ∀ {id' p tile}, id' ≠ id → s.start id' = some p → p.phase ≠ .playing →
      s.tiles.lookup p.key = some tile →
      ∃ tile', s'.tiles.lookup p.key = some tile' ∧ tile'.roomId = tile.roomId) : s'.Starts := by
  have hwas : ∀ {id' p'}, s'.start id' = some p' → id' ≠ id ∧ s.start id' = some p' := by
    intro id' p' hp'
    rw [hs] at hp'
    rcases start_cases hp' with ⟨-, he⟩ | hp'
    · cases he
    · exact hp'
  refine ⟨fun {id' p'} hp' => ?_, fun {id' p'} hp' hwaits => ?_, fun h₁ h₂ => ?_⟩
  · rw [hnew]
    exact h.startFresh (hwas hp').2
  · obtain ⟨hne, hp'⟩ := hwas hp'
    obtain ⟨tile, htile, hroom⟩ := h.waiting hp' hwaits
    obtain ⟨tile', htile', hroom'⟩ := htiles hne hp' hwaits htile
    exact ⟨tile', htile', hroom'.trans hroom⟩
  · exact h.alone (hwas h₁).2 (hwas h₂).2

theorem phase_of_start (hp : s.start id = some p) (hp' : s.start id = some p') :
    p'.phase = p.phase := by
  rw [hp] at hp'
  rw [Option.some.inj hp']

theorem Sound.connected (h : s.Sound) (hp : s.start id = some p) (hphase : p.phase = .connecting) :
    (s.connected id p).Sound := by
  have hsig : ∀ {sg}, sg ≠ s.newSig → (s.connected id p).sig sg = s.sig sg := fun hsg =>
    Function.update_of_ne hsg _ _
  have hnew : (s.connected id p).sig s.newSig = { room := p.room, isOpen := true } :=
    Function.update_self _ _ _
  have hwas : p.phase ≠ .playing := hphase.trans_ne nofun
  refine ⟨h.toStarts.moved hp hwas rfl rfl rfl, fun {sg} hsg => ?_, h.sessionFresh, h.sessionInj,
    h.pcFresh, fun {id' p' sg} hp' hjoin => ?_, fun {id' p' r} hp' hent => ?_, fun {sg} hsg => ?_,
    fun {room r} hr => ?_, h.scheduled, h.owned⟩
  · by_cases he : sg = s.newSig
    · rw [he]
      exact Nat.lt_succ_self _
    · rw [hsig he] at hsg
      exact (h.sigFresh hsg).trans (Nat.lt_succ_self _)
  · rcases start_cases hp' with ⟨-, he⟩ | ⟨-, hp'⟩
    · cases he
      cases hjoin
      rw [hnew]
      exact ⟨Nat.lt_succ_self _, rfl⟩
    · obtain ⟨hlt, hroom⟩ := h.joining hp' hjoin
      rw [hsig hlt.ne]
      exact ⟨hlt.trans (Nat.lt_succ_self _), hroom⟩
  · rcases start_cases hp' with ⟨-, he⟩ | ⟨-, hp'⟩
    · cases he
      cases hent
    · exact h.entering hp' hent
  · by_cases he : sg = s.newSig
    · rw [he]
      exact Or.inr ⟨id, _, Function.update_self _ _ _, rfl⟩
    · rw [hsig he] at hsg ⊢
      rcases h.opened hsg with hsession | ⟨id', p', hp', hjoin⟩
      · exact Or.inl hsession
      · refine Or.inr ⟨id', p', update_ne ?_ hp', hjoin⟩
        rintro rfl
        rw [phase_of_start hp hp', hphase] at hjoin
        cases hjoin
  · rcases h.positive hr with hpos | ⟨id', p', r', hp', hroom, hent⟩ | htimer
    · exact Or.inl hpos
    · refine Or.inr (Or.inl ⟨id', p', r', update_ne ?_ hp', hroom, hent⟩)
      rintro rfl
      rw [phase_of_start hp hp', hphase] at hent
      cases hent
    · exact Or.inr (Or.inr htimer)

theorem Balanced.connected (h : s.Balanced) (hp : s.start id = some p)
    (hphase : p.phase = .connecting) : (s.connected id p).Balanced := by
  refine fun room => (h room).congr fun key => counted_congr (fun key => ?_) rfl
  exact uncounted_moved hp (hphase.trans_ne nofun) rfl nofun

theorem lookup_observeJoined : (s.observeJoined id p sg).roomSessions.lookup room =
    if room = p.room then some s.newSession else s.roomSessions.lookup room :=
  GoMap.lookup_insert_iff _ _ _ _

theorem session_observeJoined (hr : r < s.newSession) :
    (s.observeJoined id p sg).session r = s.session r :=
  Function.update_of_ne hr.ne _ _

theorem newSession_observeJoined :
    (s.observeJoined id p sg).session s.newSession = { sig := sg, refCount := 0 } :=
  Function.update_self _ _ _

theorem Sound.observeJoined (h : s.Sound) (hp : s.start id = some p)
    (hphase : p.phase = .joining sg) (hfirst : s.roomSessions.lookup p.room = none) :
    (s.observeJoined id p sg).Sound := by
  have hkept : ∀ {room r}, s.roomSessions.lookup room = some r →
      (s.observeJoined id p sg).roomSessions.lookup room = some r := by
    intro room r hr
    rw [lookup_observeJoined, if_neg]
    · exact hr
    · rintro rfl
      rw [hfirst] at hr
      cases hr
  have hwas : p.phase ≠ .playing := hphase.trans_ne nofun
  refine ⟨h.toStarts.moved hp hwas rfl rfl rfl, h.sigFresh, fun {room r} hr => ?_,
    fun {room room' r} h₁ h₂ => ?_, h.pcFresh, fun {id' p' sg'} hp' hjoin => ?_,
    fun {id' p' r} hp' hent => ?_, fun {sg'} hsg => ?_, fun {room r} hr => ?_, h.scheduled, h.owned⟩
  · rw [lookup_observeJoined] at hr
    split_ifs at hr
    · rw [← Option.some.inj hr]
      exact Nat.lt_succ_self _
    · exact (h.sessionFresh hr).trans (Nat.lt_succ_self _)
  · rw [lookup_observeJoined] at h₁ h₂
    split_ifs at h₁ h₂ with he₁ he₂ he₂
    · exact he₁.trans he₂.symm
    · rw [← Option.some.inj h₁] at h₂
      exact absurd (h.sessionFresh h₂) (lt_irrefl _)
    · rw [← Option.some.inj h₂] at h₁
      exact absurd (h.sessionFresh h₁) (lt_irrefl _)
    · exact h.sessionInj h₁ h₂
  · rcases start_cases hp' with ⟨-, he⟩ | ⟨-, hp'⟩
    · cases he
      cases hjoin
    · exact h.joining hp' hjoin
  · rcases start_cases hp' with ⟨-, he⟩ | ⟨-, hp'⟩
    · cases he
      cases hent
      exact lookup_observeJoined.trans (if_pos rfl)
    · exact hkept (h.entering hp' hent)
  · by_cases he : sg' = sg
    · refine Or.inl ⟨s.newSession, ?_, ?_⟩
      · rw [he]
        change (s.observeJoined id p sg).roomSessions.lookup (s.sig sg).room = _
        rw [(h.joining hp hphase).2, lookup_observeJoined, if_pos rfl]
      · rw [newSession_observeJoined]
        exact he.symm
    · rcases h.opened hsg with ⟨r, hr, hrsig⟩ | ⟨id', p', hp', hjoin⟩
      · refine Or.inl ⟨r, hkept hr, ?_⟩
        rw [session_observeJoined (h.sessionFresh hr)]
        exact hrsig
      · refine Or.inr ⟨id', p', update_ne ?_ hp', hjoin⟩
        rintro rfl
        rw [phase_of_start hp hp', hphase] at hjoin
        cases hjoin
        exact he rfl
  · rw [lookup_observeJoined] at hr
    split_ifs at hr with he
    · exact Or.inr (Or.inl ⟨id, _, s.newSession, Function.update_self _ _ _, he.symm, rfl⟩)
    · rw [session_observeJoined (h.sessionFresh hr)]
      rcases h.positive hr with hpos | ⟨id', p', r', hp', hroom, hent⟩ | htimer
      · exact Or.inl hpos
      · refine Or.inr (Or.inl ⟨id', p', r', update_ne ?_ hp', hroom, hent⟩)
        rintro rfl
        rw [phase_of_start hp hp', hphase] at hent
        cases hent
      · exact Or.inr (Or.inr htimer)

theorem Balanced.observeJoined (h : s.Balanced) (hsound : s.Sound) (hp : s.start id = some p)
    (hphase : p.phase = .joining sg) (hfirst : s.roomSessions.lookup p.room = none) :
    (s.observeJoined id p sg).Balanced := by
  intro room
  have hcounted : ∀ key, (s.observeJoined id p sg).Counted room key ↔ s.Counted room key :=
    fun key => counted_congr (fun key => uncounted_moved hp (hphase.trans_ne nofun) rfl nofun) rfl
  have hcount : (s.observeJoined id p sg).count room = s.count room := by
    have hlookup : (s.observeJoined id p sg).roomSessions.lookup room = _ := lookup_observeJoined
    by_cases he : room = p.room
    · rw [if_pos he] at hlookup
      rw [count_of_lookup hlookup, he, count_of_none hfirst, newSession_observeJoined]
    · rw [if_neg he] at hlookup
      cases hr : s.roomSessions.lookup room with
      | none => rw [count_of_none hr, count_of_none (hlookup.trans hr)]
      | some r =>
        rw [count_of_lookup hr, count_of_lookup (hlookup.trans hr),
          session_observeJoined (hsound.sessionFresh hr)]
  rw [hcount]
  exact (h room).congr hcounted

theorem Sound.entered (h : s.Sound) (hp : s.start id = some p) (hphase : p.phase = .entering r) :
    (s.entered id p r).Sound := by
  have hwas : p.phase ≠ .playing := hphase.trans_ne nofun
  have hcount := h.setRefCount (r := r) (n := (s.session r).refCount + 1) fun _ =>
    Or.inl (Nat.succ_le_succ (Nat.zero_le _))
  have hr := h.entering hp hphase
  refine ⟨hcount.toStarts.moved hp hwas rfl rfl rfl, h.sigFresh, h.sessionFresh, h.sessionInj,
    h.pcFresh, fun {id' p' sg} hp' hjoin => ?_, fun {id' p' r'} hp' hent => ?_, fun {sg} hsg => ?_,
    fun {room r'} hr' => ?_, h.scheduled, h.owned⟩
  · rcases start_cases hp' with ⟨-, he⟩ | ⟨-, hp'⟩
    · cases he
      cases hjoin
    · exact h.joining hp' hjoin
  · rcases start_cases hp' with ⟨-, he⟩ | ⟨-, hp'⟩
    · cases he
      cases hent
    · exact h.entering hp' hent
  · rcases hcount.opened hsg with hsession | ⟨id', p', hp', hjoin⟩
    · exact Or.inl hsession
    · refine Or.inr ⟨id', p', update_ne ?_ hp', hjoin⟩
      rintro rfl
      rw [phase_of_start hp hp', hphase] at hjoin
      cases hjoin
  · rcases hcount.positive hr' with hpos | ⟨id', p', r'', hp', hroom, hent⟩ | htimer
    · exact Or.inl hpos
    · by_cases he : id' = id
      · -- it was this call that was about to increase the count
        subst he
        rw [phase_of_start hp hp', hphase] at hent
        cases hent
        rw [← Option.some.inj (hp.symm.trans hp')] at hroom
        rw [hroom] at hr
        have hsame : r' = r := Option.some.inj (hr'.symm.trans hr)
        refine Or.inl ?_
        change 1 ≤ ((s.setRefCount r _).session r').refCount
        rw [session_setRefCount, if_pos hsame]
        exact Nat.succ_le_succ (Nat.zero_le _)
      · exact Or.inr (Or.inl ⟨id', p', r'', update_ne he hp', hroom, hent⟩)
    · exact Or.inr (Or.inr htimer)

theorem uncounted_entered (h : s.Sound) (hp : s.start id = some p) (hphase : p.phase = .entering r) :
    (s.entered id p r).Uncounted key ↔ s.Uncounted key ∧ key ≠ p.key := by
  constructor
  · rintro ⟨id', p', hp', hkey, hwaits⟩
    rcases start_cases hp' with ⟨-, he⟩ | ⟨hne, hp'⟩
    · cases he
      exact absurd rfl hwaits
    · refine ⟨⟨id', p', hp', hkey, hwaits⟩, fun he => hne ?_⟩
      exact h.alone hp' hp hwaits (hphase.trans_ne nofun) (hkey.trans he)
  · rintro ⟨⟨id', p', hp', hkey, hwaits⟩, hne⟩
    refine ⟨id', p', update_ne ?_ hp', hkey, hwaits⟩
    rintro rfl
    rw [hp] at hp'
    rw [← Option.some.inj hp'] at hkey
    exact hne hkey.symm

theorem Balanced.entered (h : s.Balanced) (hsound : s.Sound) (hp : s.start id = some p)
    (hphase : p.phase = .entering r) : (s.entered id p r).Balanced := by
  have hwas : p.phase ≠ .playing := hphase.trans_ne nofun
  obtain ⟨tile, htile, hroom⟩ := hsound.waiting hp hwas
  have hnot : ∀ room, ¬s.Counted room p.key := fun room hc => hc.2 ⟨id, p, hp, rfl, hwas⟩
  intro room
  have hcount : (s.entered id p r).count room =
      if room = p.room then (s.session r).refCount + 1 else s.count room :=
    count_setRefCount hsound (hsound.entering hp hphase)
  rw [hcount]
  split_ifs with he
  · rw [he, ← count_of_lookup (hsound.entering hp hphase)]
    refine (h p.room).more (hnot p.room) fun key => ?_
    rw [Counted, uncounted_entered hsound hp hphase, Counted]
    by_cases hk : key = p.key
    · rw [hk]
      exact ⟨fun _ => Or.inl rfl, fun _ => ⟨⟨tile, htile, hroom⟩, fun hu => hu.2 rfl⟩⟩
    · refine ⟨fun hc => Or.inr ⟨hc.1, fun hu => hc.2 ⟨hu, hk⟩⟩, fun hc => ?_⟩
      obtain ⟨hc, hu⟩ := hc.resolve_left hk
      exact ⟨hc, fun hu' => hu hu'.1⟩
  · refine (h room).congr fun key => ?_
    rw [Counted, uncounted_entered hsound hp hphase, Counted]
    refine and_congr_right fun hc => not_congr ⟨fun hu => hu.1, fun hu => ⟨hu, ?_⟩⟩
    -- the tile that is counted now is one of another room
    rintro rfl
    obtain ⟨tile', htile', hroom'⟩ := hc
    rw [show s.tiles.lookup p.key = some tile' from htile'] at htile
    rw [Option.some.inj htile, hroom] at hroom'
    exact he hroom'.symm

/-- A call of `startTile` that nothing depends on returns. -/
theorem Sound.returned (h : s.Sound) (hp : s.start id = some p)
    (hentering : ∀ r, p.phase ≠ .entering r)
    (hjoining : ∀ sg, p.phase = .joining sg → (s.sig sg).isOpen = false) :
    (s.setStart id none).Sound := by
  refine ⟨h.toStarts.returned rfl rfl fun {id' p' tile} _ _ _ htile => ⟨tile, htile, rfl⟩,
    h.sigFresh, h.sessionFresh, h.sessionInj, h.pcFresh, fun {id' p' sg} hp' hjoin => ?_,
    fun {id' p' r'} hp' hent => ?_, fun {sg} hsg => ?_, fun {room r'} hr' => ?_, h.scheduled,
    h.owned⟩
  · rcases start_cases hp' with ⟨-, he⟩ | ⟨-, hp'⟩
    · cases he
    · exact h.joining hp' hjoin
  · rcases start_cases hp' with ⟨-, he⟩ | ⟨-, hp'⟩
    · cases he
    · exact h.entering hp' hent
  · rcases h.opened hsg with hsession | ⟨id', p', hp', hjoin⟩
    · exact Or.inl hsession
    · refine Or.inr ⟨id', p', update_ne ?_ hp', hjoin⟩
      rintro rfl
      rw [phase_of_start hp hp'] at hjoin
      exact Bool.false_ne_true ((hjoining sg hjoin).symm.trans hsg)
  · rcases h.positive hr' with hpos | ⟨id', p', r'', hp', hroom, hent⟩ | htimer
    · exact Or.inl hpos
    · refine Or.inr (Or.inl ⟨id', p', r'', update_ne ?_ hp', hroom, hent⟩)
      rintro rfl
      rw [phase_of_start hp hp'] at hent
      exact hentering r'' hent
    · exact Or.inr (Or.inr htimer)

theorem Sound.returned_playing (h : s.Sound) (hp : s.start id = some p)
    (hphase : p.phase = .playing) : (s.setStart id none).Sound := by
  refine h.returned hp (fun r => hphase.trans_ne nofun) fun sg hjoin => ?_
  rw [hphase] at hjoin
  cases hjoin

theorem uncounted_returned (hp : s.start id = some p) (hphase : p.phase = .playing)
    (hs : s'.start = Function.update s.start id none) : s'.Uncounted key ↔ s.Uncounted key := by
  rw [Uncounted, Uncounted, hs]
  constructor
  · rintro ⟨id', p', hp', hkey, hwaits⟩
    rcases start_cases hp' with ⟨-, he⟩ | ⟨-, hp'⟩
    · cases he
    · exact ⟨id', p', hp', hkey, hwaits⟩
  · rintro ⟨id', p', hp', hkey, hwaits⟩
    refine ⟨id', p', update_ne ?_ hp', hkey, hwaits⟩
    rintro rfl
    rw [phase_of_start hp hp'] at hwaits
    exact hwaits hphase

theorem lookup_played : (s.played id p).tiles.lookup key =
    if key = p.key then (s.tiles.lookup p.key).map ({ · with pc := some s.newPC })
    else s.tiles.lookup key :=
  GoMap.lookup_modify _ _ _ _

/-- `play` comes back to the tile it was called for. -/
theorem Sound.played (h : s.Sound) (hp : s.start id = some p) (hphase : p.phase = .playing)
    (htile : s.tiles.lookup p.key = some tile) (hpc : tile.pc = none) : (s.played id p).Sound := by
  have h' := h.returned_playing hp hphase
  have hopen : ∀ {pc}, (s.played id p).pcOpen pc = true → pc ≠ s.newPC → s.pcOpen pc = true :=
    fun hpc hne => (Function.update_of_ne hne _ _).symm.trans hpc
  refine ⟨h.toStarts.returned rfl rfl ?_, h'.sigFresh, h'.sessionFresh, h'.sessionInj,
    fun {pc} hi => ?_, h'.joining, h'.entering, h'.opened, h'.positive, h'.scheduled,
    fun {pc} hi => ?_⟩
  · intro id' p' tile' _ _ _ htile'
    rw [lookup_played]
    split_ifs with he
    · rw [← he, htile']
      exact ⟨_, rfl, rfl⟩
    · exact ⟨tile', htile', rfl⟩
  · by_cases he : pc = s.newPC
    · rw [he]
      exact Nat.lt_succ_self _
    · exact (h.pcFresh (hopen hi he)).trans (Nat.lt_succ_self _)
  · by_cases he : pc = s.newPC
    · refine ⟨p.key, { tile with pc := some s.newPC }, ?_, congrArg some he.symm⟩
      rw [lookup_played, if_pos rfl, htile]
      rfl
    · obtain ⟨key, tile', htile', hpc'⟩ := h.owned (hopen hi he)
      refine ⟨key, tile', ?_, hpc'⟩
      rw [lookup_played, if_neg]
      · exact htile'
      · rintro rfl
        rw [htile] at htile'
        rw [← Option.some.inj htile', hpc] at hpc'
        cases hpc'

theorem Balanced.played (h : s.Balanced) (hp : s.start id = some p) (hphase : p.phase = .playing) :
    (s.played id p).Balanced := by
  refine fun room => (h room).congr fun key => ?_
  rw [Counted, Counted, uncounted_returned hp hphase rfl]
  have hlookup : (s.played id p).tiles.lookup key = _ := lookup_played
  rw [hlookup]
  by_cases he : key = p.key
  · rw [if_pos he, he]
    cases s.tiles.lookup p.key with
    | none => exact Iff.rfl
    | some tile =>
      refine and_congr_left fun _ => ⟨?_, ?_⟩
      · rintro ⟨tile', ⟨⟩, hroom⟩
        exact ⟨tile, rfl, hroom⟩
      · rintro ⟨tile', ⟨⟩, hroom⟩
        exact ⟨_, rfl, hroom⟩
  · rw [if_neg he]

/-- Giving the room's session back changes nothing. -/
def Spare (s : TileSessions) (room : RoomID) : Prop :=
  ∀ r, s.roomSessions.lookup room = some r →
    (s.session r).refCount = 0 ∧ s.roomEndScheduled room = true

theorem release_spare (h : s.Spare room) : s.release room = s := by
  cases hr : s.roomSessions.lookup room with
  | none => rw [release, hr]
  | some r =>
    obtain ⟨hzero, hsched⟩ := h r hr
    rw [release_eq hr, if_neg]
    · rw [hzero, setRefCount]
      have hsame : ({ s.session r with refCount := 0 - 1 } : RoomSession) = s.session r := by
        rw [Nat.zero_sub, ← hzero]
      rw [hsame, Function.update_eq_self]
    · rw [hsched]
      exact fun hlast => Bool.false_ne_true hlast.2.symm

/-- The `catch` of a call whose tile does not count yet. -/
theorem startFailed_waiting (h : s.Sound) (hb : s.Balanced) (hp : s.start id = some p)
    (hphase : p.phase ≠ .playing) (hentering : ∀ r, p.phase ≠ .entering r)
    (hjoining : ∀ sg, p.phase = .joining sg → (s.sig sg).isOpen = false)
    (hspare : s.Spare p.room) : (s.startFailed id p).Sound ∧ (s.startFailed id p).Balanced := by
  have hreturned := h.returned hp hentering hjoining
  have hother : ∀ {id' p'}, (s.setStart id none).start id' = some p' → p'.phase ≠ .playing →
      s.start id' = some p' ∧ p'.key ≠ p.key := by
    intro id' p' hp' hwaits
    rcases start_cases hp' with ⟨-, he⟩ | ⟨hne, hp'⟩
    · cases he
    · exact ⟨hp', fun he => hne (h.alone hp' hp hwaits hphase he)⟩
  have hkey : ¬(s.setStart id none).Uncounted p.key := by
    rintro ⟨id', p', hp', hkey, hwaits⟩
    exact (hother hp' hwaits).2 hkey
  obtain ⟨tile, htile, hroom⟩ := h.waiting hp hphase
  have heq : s.startFailed id p = (s.setStart id none).removeTileEntry p.key := by
    have hspare' : ((s.setStart id none).removeTileEntry p.key).Spare tile.roomId := by
      obtain ⟨pcOpen, he, -⟩ := removeTileEntry_eq (s.setStart id none) p.key
      rw [he, hroom]
      exact hspare
    rw [startFailed, show (s.setStart id none).tiles.lookup p.key = some tile from htile]
    dsimp only
    split_ifs
    · rfl
    · exact release_spare hspare'
  rw [heq]
  refine ⟨hreturned.removeTileEntry hkey, fun room => ?_⟩
  have hlookup := lookup_removeTileEntry (s.setStart id none) p.key
  obtain ⟨pcOpen, he, -⟩ := removeTileEntry_eq (s.setStart id none) p.key
  rw [he] at hlookup ⊢
  refine (hb room).congr fun key => ?_
  rw [Counted, hlookup]
  by_cases hk : key = p.key
  · rw [if_pos hk, hk]
    refine ⟨?_, fun hc => absurd ⟨id, p, hp, rfl, hphase⟩ hc.2⟩
    rintro ⟨⟨tile', ⟨⟩, -⟩, -⟩
  · rw [if_neg hk]
    refine and_congr_right fun _ => not_congr ⟨?_, ?_⟩
    · rintro ⟨id', p', hp', hkey, hwaits⟩
      exact ⟨id', p', (hother hp' hwaits).1, hkey, hwaits⟩
    · rintro ⟨id', p', hp', hkey', hwaits⟩
      refine ⟨id', p', update_ne ?_ hp', hkey', hwaits⟩
      rintro rfl
      rw [hp] at hp'
      rw [← Option.some.inj hp'] at hkey'
      exact hk hkey'.symm

/-- The `catch` of a call whose tile counts. -/
theorem startFailed_playing (h : s.Sound) (hb : s.Balanced) (hp : s.start id = some p)
    (hphase : p.phase = .playing) (hkey : s.Removable p.key)
    (hroom : ∀ tile, s.tiles.lookup p.key = some tile → tile.roomId ≠ "") :
    (s.startFailed id p).Sound ∧ (s.startFailed id p).Balanced := by
  have hsound := h.returned_playing hp hphase
  have hbalanced : (s.setStart id none).Balanced := fun room =>
    (hb room).congr fun key => counted_congr (fun key => uncounted_returned hp hphase rfl) rfl
  have hkey' : (s.setStart id none).Removable p.key := by
    refine ⟨fun hu => hkey.1 ((uncounted_returned hp hphase rfl).1 hu), fun tile htile => ?_⟩
    rintro ⟨id', p', r, hp', hroom, hent⟩
    rcases start_cases hp' with ⟨-, he⟩ | ⟨-, hp'⟩
    · cases he
    · exact hkey.2 tile htile ⟨id', p', r, hp', hroom, hent⟩
  cases htile : s.tiles.lookup p.key with
  | some tile =>
    have hstops := stops_release hsound hbalanced hkey' htile
    rw [startFailed, show (s.setStart id none).tiles.lookup p.key = some tile from htile]
    dsimp only
    rw [if_neg (hroom tile htile)]
    exact ⟨hstops.sound, hstops.balanced⟩
  | none =>
    have htile' : (s.setStart id none).tiles.lookup p.key = none := htile
    rw [startFailed, htile']
    change ((s.setStart id none).removeTileEntry p.key).Sound ∧
      ((s.setStart id none).removeTileEntry p.key).Balanced
    have hlookup := lookup_removeTileEntry (s.setStart id none) p.key
    have hremoved := hsound.removeTileEntry hkey'.1
    obtain ⟨pcOpen, he, -⟩ := removeTileEntry_eq (s.setStart id none) p.key
    rw [he] at hlookup hremoved ⊢
    refine ⟨hremoved, fun room => (hbalanced room).congr fun key => ?_⟩
    rw [Counted, hlookup, Counted]
    by_cases hk : key = p.key
    · rw [if_pos hk, hk, htile']
      exact Iff.rfl
    · rw [if_neg hk]
      exact Iff.rfl

/-- A new tile does not count yet. -/
theorem startTile_eq (s : TileSessions) (key : TileKey) (room : RoomID) (auditDetail : String) :
    s.startTile key room auditDetail = s ∨ s.tiles.lookup key = none ∧ ∃ phase,
      (phase = .connecting ∨ ∃ r, phase = .entering r ∧ s.roomSessions.lookup room = some r) ∧
      s.startTile key room auditDetail = { s with
        tiles := s.tiles.insert key { roomId := room, auditDetail }
        start := Function.update s.start s.newStart (some ⟨key, room, phase⟩)
        newStart := s.newStart + 1 } := by
  by_cases hfull : key ∈ s.tiles ∨ MAX_TILES ≤ s.tiles.keys.length
  · exact Or.inl (if_pos hfull)
  · have hnone : s.tiles.lookup key = none := AList.lookup_eq_none.2 fun hk => hfull (Or.inl hk)
    refine Or.inr ⟨hnone, ?_⟩
    rw [startTile, if_neg hfull]
    cases hr : s.roomSessions.lookup room with
    | none => exact ⟨_, Or.inl rfl, rfl⟩
    | some r => exact ⟨_, Or.inr ⟨r, rfl, rfl⟩, rfl⟩

theorem Sound.startTile (h : s.Sound) (room : RoomID) (auditDetail : String) :
    (s.startTile key room auditDetail).Sound := by
  rcases startTile_eq s key room auditDetail with he | ⟨hnone, phase, hphase, he⟩
  · rw [he]
    exact h
  rw [he]
  have hlookup : ∀ {k tile}, s.tiles.lookup k = some tile →
      (s.tiles.insert key { roomId := room, auditDetail }).lookup k = some tile := by
    intro k tile htile
    rw [GoMap.lookup_insert_iff, if_neg]
    · exact htile
    · rintro rfl
      rw [hnone] at htile
      cases htile
  have hold : ∀ {id p}, s.start id = some p → id ≠ s.newStart := fun hp => (h.startFresh hp).ne
  have hkeys : ∀ {id p}, s.start id = some p → p.phase ≠ .playing → p.key ≠ key := by
    rintro id p hp hwaits rfl
    obtain ⟨tile, htile, -⟩ := h.waiting hp hwaits
    rw [hnone] at htile
    cases htile
  refine ⟨⟨fun {id p} hp => ?_, fun {id p} hp hwaits => ?_,
    fun {id₁ id₂ p₁ p₂} h₁ h₂ hw₁ hw₂ hkey => ?_⟩, h.sigFresh, h.sessionFresh, h.sessionInj,
    h.pcFresh, fun {id p sg} hp hjoin => ?_, fun {id p r} hp hent => ?_, fun {sg} hsg => ?_,
    fun {room' r} hr => ?_, h.scheduled, fun {pc} hi => ?_⟩
  · rcases start_cases hp with ⟨rfl, -⟩ | ⟨-, hp⟩
    · exact Nat.lt_succ_self _
    · exact (h.startFresh hp).trans (Nat.lt_succ_self _)
  · rcases start_cases hp with ⟨-, he⟩ | ⟨-, hp⟩
    · cases he
      refine ⟨{ roomId := room, auditDetail }, ?_, rfl⟩
      exact (GoMap.lookup_insert_iff _ _ _ _).trans (if_pos rfl)
    · obtain ⟨tile, htile, hroom⟩ := h.waiting hp hwaits
      exact ⟨tile, hlookup htile, hroom⟩
  · rcases start_cases h₁ with ⟨hid₁, he₁⟩ | ⟨-, h₁⟩ <;>
      rcases start_cases h₂ with ⟨hid₂, he₂⟩ | ⟨-, h₂⟩
    · exact hid₁.trans hid₂.symm
    · cases he₁
      exact absurd hkey.symm (hkeys h₂ hw₂)
    · cases he₂
      exact absurd hkey (hkeys h₁ hw₁)
    · exact h.alone h₁ h₂ hw₁ hw₂ hkey
  · rcases start_cases hp with ⟨-, he⟩ | ⟨-, hp⟩
    · cases he
      rcases hphase with rfl | ⟨r, rfl, -⟩ <;> cases hjoin
    · exact h.joining hp hjoin
  · rcases start_cases hp with ⟨-, he⟩ | ⟨-, hp⟩
    · cases he
      rcases hphase with rfl | ⟨r', rfl, hr'⟩
      · cases hent
      · cases hent
        exact hr'
    · exact h.entering hp hent
  · rcases h.opened hsg with hsession | ⟨id, p, hp, hjoin⟩
    · exact Or.inl hsession
    · exact Or.inr ⟨id, p, update_ne (hold hp) hp, hjoin⟩
  · rcases h.positive hr with hpos | ⟨id, p, r', hp, hroom, hent⟩ | htimer
    · exact Or.inl hpos
    · exact Or.inr (Or.inl ⟨id, p, r', update_ne (hold hp) hp, hroom, hent⟩)
    · exact Or.inr (Or.inr htimer)
  · obtain ⟨k, tile, htile, hpc⟩ := h.owned hi
    exact ⟨k, tile, hlookup htile, hpc⟩

theorem Balanced.startTile (h : s.Balanced) (hsound : s.Sound) (room : RoomID)
    (auditDetail : String) : (s.startTile key room auditDetail).Balanced := by
  rcases startTile_eq s key room auditDetail with he | ⟨hnone, phase, hphase, he⟩
  · rw [he]
    exact h
  rw [he]
  have hwaits : phase ≠ .playing := by
    rcases hphase with rfl | ⟨r, rfl, -⟩ <;> exact nofun
  refine fun room' => (h room').congr fun k => ?_
  by_cases hk : k = key
  · subst hk
    refine ⟨fun hc => absurd ?_ hc.2, ?_⟩
    · exact ⟨s.newStart, ⟨k, room, phase⟩, Function.update_self _ _ _, rfl, hwaits⟩
    · rintro ⟨⟨tile, htile, -⟩, -⟩
      rw [hnone] at htile
      cases htile
  · rw [Counted, Counted, GoMap.lookup_insert_iff, if_neg hk]
    refine and_congr_right fun _ => not_congr ⟨?_, ?_⟩
    · rintro ⟨id', p', hp', hkey, hphase'⟩
      rcases start_cases hp' with ⟨-, he⟩ | ⟨-, hp'⟩
      · cases he
        exact absurd hkey.symm hk
      · exact ⟨id', p', hp', hkey, hphase'⟩
    · rintro ⟨id', p', hp', hkey, hphase'⟩
      exact ⟨id', p', update_ne (hsound.startFresh hp').ne hp', hkey, hphase'⟩

end TileSessions

end Meetkit
