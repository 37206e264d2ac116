import Meetkit.Lib.Window
import Meetkit.Proofs.WatchWall

/-! The pins of the watch wall. A pin is written down twice as well, in the slot
(`pinnedTileKey`) and in the tile (`pinnedSlotIndex`), and these two agree in every
state. Unlike what the tiles believe of where they are shown, no action breaks this. So
`redistributeSlots` always finds the pinned tiles, and puts each back in its slot. -/

namespace Meetkit

namespace WatchWall

variable {w w' : WatchWall} {key k : TileKey} {i j : ℕ}

/-- The tile that slot `i` is pinned to. -/
def pinKey (w : WatchWall) (i : ℕ) : Option TileKey :=
  (w.slots[i]?.filter (·.pinned)).bind (·.pinnedTileKey)

/-- The slot that the tile of `key` is pinned to. -/
def pinSlot (w : WatchWall) (key : TileKey) : Option ℕ :=
  (w.tiles.lookup key).bind (·.pinnedSlotIndex)

structure PinsAgree (w : WatchWall) : Prop where
  iff : ∀ i k, w.pinKey i = some k ↔ w.pinSlot k = some i
  keyed : ∀ i, w.pinned i = true → ∃ k, w.pinKey i = some k

theorem pinned_of_pinKey (h : w.pinKey i = some k) : w.pinned i = true := by
  unfold pinKey at h
  unfold pinned
  cases hslot : w.slots[i]? with
  | none =>
    rw [hslot] at h
    cases h
  | some slot =>
    rw [hslot, Option.bind_eq_some_iff] at h
    obtain ⟨slot', hslot', -⟩ := h
    obtain ⟨heq, hpin⟩ := Option.filter_eq_some_iff.1 hslot'
    rw [Option.some.inj heq]
    exact hpin

theorem lt_of_pinned (h : w.pinned i = true) : i < w.slots.length := by
  by_contra hi
  rw [pinned, List.getElem?_eq_none (Nat.le_of_not_lt hi)] at h
  cases h

theorem pinKey_eq_none (h : w.pinned i = false) : w.pinKey i = none := by
  by_contra hk
  obtain ⟨k, hk⟩ := Option.ne_none_iff_exists'.1 hk
  rw [pinned_of_pinKey hk] at h
  cases h

theorem mem_getCarouselSlotIndices : i ∈ w.getCarouselSlotIndices ↔
    i < w.slots.length ∧ w.pinned i = false := by
  rw [getCarouselSlotIndices, List.mem_filter, List.mem_range, Bool.not_eq_eq_eq_not, Bool.not_true]

theorem mem_getUnpinnedTileKeys : k ∈ w.getUnpinnedTileKeys ↔
    k ∈ w.watchOrder ∧ k ∈ w.tiles ∧ w.pinSlot k = none := by
  rw [getUnpinnedTileKeys, List.mem_filter, pinSlot, ← AList.lookup_isSome]
  cases w.tiles.lookup k with
  | none => simp
  | some tile => simp

theorem mem_of_pinSlot (h : w.pinSlot k = some i) : k ∈ w.tiles := by
  rw [← AList.lookup_isSome]
  rw [pinSlot, Option.bind_eq_some_iff] at h
  obtain ⟨tile, htile, -⟩ := h
  rw [htile]
  rfl

/-- What clearing and assigning leave of the pins: everything. -/
structure SamePins (w w' : WatchWall) : Prop where
  redrawn : Redrawn w w'
  slots : w'.slots.map ({ · with displayedTileKey := none }) =
    w.slots.map ({ · with displayedTileKey := none })

namespace SamePins

theorem refl (w : WatchWall) : SamePins w w := ⟨Redrawn.refl w, rfl⟩

theorem trans {w'' : WatchWall} (h : SamePins w w') (h' : SamePins w' w'') : SamePins w w'' :=
  ⟨h.redrawn.trans h'.redrawn, h'.slots.trans h.slots⟩

theorem stable (w : WatchWall) : Stable (SamePins w) where
  setShown i o h := ⟨(Redrawn.stable w).setShown i o h.redrawn,
    (map_slots_setShown fun _ _ => rfl).trans h.slots⟩
  setDisplay key o h := ⟨(Redrawn.stable w).setDisplay key o h.redrawn, by
    rw [setDisplay, slots_modifyTile]
    exact h.slots⟩

theorem pinKey_eq (h : SamePins w w') (i : ℕ) : w'.pinKey i = w.pinKey i := by
  have hi := congrArg (fun l : List WatchSlot => (l[i]?.filter (·.pinned)).bind (·.pinnedTileKey))
    h.slots
  simp only [List.getElem?_map, Option.filter_map, Option.bind_map] at hi
  exact hi

theorem pinSlot_eq (h : SamePins w w') (k : TileKey) : w'.pinSlot k = w.pinSlot k := by
  have hk := congrArg (fun o => o.bind id) (h.redrawn.tilePins k)
  simp only [Option.bind_map] at hk
  exact hk

theorem agree (h : SamePins w w') (ha : w.PinsAgree) : w'.PinsAgree where
  iff i k := by rw [h.pinKey_eq, h.pinSlot_eq, ha.iff]
  keyed i hi := by
    rw [h.redrawn.pinned_eq] at hi
    obtain ⟨k, hk⟩ := ha.keyed i hi
    exact ⟨k, (h.pinKey_eq i).trans hk⟩

end SamePins

/-! ### Slots that show what they should -/

/-- A pinned slot shows the tile it is pinned to, the others show tiles without a pin. -/
structure Settled (w : WatchWall) : Prop where
  pinned : ∀ i, w.pinned i = true → w.shown i = w.pinKey i
  free : ∀ i k, w.pinned i = false → w.shown i = some k → k ∈ w.tiles ∧ w.pinSlot k = none

theorem Settled.clear (h : w.Settled) (hi : w.pinned i = false) :
    (w.clearSlotDisplay i).Settled := by
  have hsame := (SamePins.stable w).clearSlotDisplay (SamePins.refl w) i
  constructor
  · intro j hj
    rw [hsame.redrawn.pinned_eq] at hj
    rw [hsame.pinKey_eq, shown_clearSlotDisplay, if_neg, h.pinned j hj]
    rintro rfl
    rw [hi] at hj
    cases hj
  · intro j k hj hs
    rw [hsame.redrawn.pinned_eq] at hj
    rw [hsame.redrawn.mem_iff, hsame.pinSlot_eq]
    rw [shown_clearSlotDisplay] at hs
    split_ifs at hs
    exact h.free j k hj hs

/-- A tile without a pin comes into a slot without one. -/
theorem Settled.assign (h : w.Settled) (ha : w.PinsAgree) (hi : w.pinned i = false)
    (hkey : w.pinSlot key = none) : (w.assignTileToSlot key i).Settled := by
  by_cases hv : key ∈ w.tiles ∧ i < w.slots.length
  swap
  · rwa [assignTileToSlot_invalid hv]
  have hsame := (SamePins.stable w).assignTileToSlot (SamePins.refl w) key i
  constructor
  · intro j hj
    rw [hsame.redrawn.pinned_eq] at hj
    rw [hsame.pinKey_eq, shown_assignTileToSlot hv.1 hv.2, if_neg, if_neg, h.pinned j hj]
    · rintro ⟨hs, -⟩
      rw [h.pinned j hj, ha.iff, hkey] at hs
      cases hs
    · rintro rfl
      rw [hi] at hj
      cases hj
  · intro j k hj hs
    rw [hsame.redrawn.pinned_eq] at hj
    rw [hsame.redrawn.mem_iff, hsame.pinSlot_eq]
    rw [shown_assignTileToSlot hv.1 hv.2] at hs
    split_ifs at hs
    · rw [← Option.some.inj hs]
      exact ⟨hv.1, hkey⟩
    · exact h.free j k hj hs

/-- Settled with the pins of `w`. -/
structure Fixed (w w' : WatchWall) : Prop where
  same : SamePins w w'
  settled : w'.Settled

section Fill

variable (ha : w.PinsAgree)
include ha

theorem Fixed.assignAll (h : Fixed w w') {es : List (TileKey × ℕ)}
    (hes : ∀ e ∈ es, w.pinSlot e.1 = none ∧ w.pinned e.2 = false) :
    Fixed w (es.foldl (fun w e => w.assignTileToSlot e.1 e.2) w') := by
  refine List.foldlRecOn (motive := Fixed w) _ _ h fun v hv e he => ?_
  obtain ⟨hkey, hi⟩ := hes e he
  refine ⟨(SamePins.stable w).assignTileToSlot hv.same e.1 e.2, ?_⟩
  apply hv.settled.assign (hv.same.agree ha)
  · rwa [hv.same.redrawn.pinned_eq]
  · rwa [hv.same.pinSlot_eq]

theorem Fixed.batch (h : w.Settled) : Fixed w w.applyCarouselBatch := by
  have hclear : Fixed w (w.getCarouselSlotIndices.foldl clearSlotDisplay w) := by
    refine List.foldlRecOn (motive := Fixed w) _ _ ⟨SamePins.refl w, h⟩ fun v hv i hi => ?_
    refine ⟨(SamePins.stable w).clearSlotDisplay hv.same i, hv.settled.clear ?_⟩
    rw [hv.same.redrawn.pinned_eq]
    exact (mem_getCarouselSlotIndices.1 hi).2
  unfold applyCarouselBatch
  dsimp only
  split_ifs
  · exact ⟨SamePins.refl w, h⟩
  · refine hclear.assignAll ha fun e he => ?_
    obtain ⟨hkey, hi⟩ := List.of_mem_zip he
    exact ⟨(mem_getUnpinnedTileKeys.1 (List.mem_of_mem_window hkey)).2.2, (mem_getCarouselSlotIndices.1 hi).2⟩

theorem Fixed.fill (h : w.Settled) : Fixed w w.fillSlots := by
  unfold fillSlots
  split_ifs
  · obtain ⟨hsame, hsettled⟩ := Fixed.batch ha h
    refine ⟨hsame.trans ⟨⟨rfl, rfl, List.Perm.refl _, rfl, fun _ => rfl⟩, rfl⟩, ?_⟩
    exact ⟨hsettled.pinned, hsettled.free⟩
  · refine Fixed.assignAll ha ⟨SamePins.refl w, h⟩ fun e he => ?_
    obtain ⟨hkey, hi⟩ := List.of_mem_zip he
    exact ⟨(mem_getUnpinnedTileKeys.1 hkey).2.2, (mem_getCarouselSlotIndices.1 hi).2⟩

end Fill

/-! ### Redistribution -/

theorem pinnedTile_eq (ha : w.PinsAgree) : w.pinnedTile i = w.pinKey i := by
  have hmem : ∀ slot, w.slots[i]?.filter (·.pinned) = some slot → ∀ k,
      slot.pinnedTileKey = some k → k ∈ w.tiles := fun slot hslot k hk => by
    have hkey : w.pinKey i = some k := by rw [pinKey, hslot, Option.bind_some, hk]
    exact mem_of_pinSlot ((ha.iff i k).1 hkey)
  unfold pinnedTile pinKey
  refine Option.bind_congr fun slot hslot => ?_
  cases hk : slot.pinnedTileKey with
  | none => rfl
  | some k => exact Option.filter_some_pos (by simpa using hmem slot hslot k hk)

/-- What the loop over the slots makes of one of them. -/
theorem resetSlot_spec (ha : w.PinsAgree) (i : ℕ) : SamePins w (w.resetSlot i) ∧
    (w.resetSlot i).shown i = w.pinKey i ∧
    ∀ j, j ≠ i → w.shown j = w.pinKey j → (w.resetSlot i).shown j = w.pinKey j := by
  unfold resetSlot
  rw [pinnedTile_eq ha]
  cases hkey : w.pinKey i with
  | some k =>
    have hmem := mem_of_pinSlot ((ha.iff i k).1 hkey)
    have hi := lt_of_pinned (pinned_of_pinKey hkey)
    refine ⟨(SamePins.stable w).assignTileToSlot (SamePins.refl w) k i, ?_, fun j hj hs => ?_⟩
    · rw [shown_assignTileToSlot hmem hi, if_pos rfl]
    · rw [shown_assignTileToSlot hmem hi, if_neg hj, if_neg, hs]
      rintro ⟨hold, -⟩
      -- the tile is pinned to one slot only
      rw [hs, ha.iff, (ha.iff i k).1 hkey] at hold
      exact hj (Option.some.inj hold).symm
  | none =>
    have hpin : w.pinned i = false := by
      by_contra h
      obtain ⟨k, hk⟩ := ha.keyed i (Bool.of_not_eq_false h)
      rw [hkey] at hk
      cases hk
    rw [hpin]
    refine ⟨(SamePins.stable w).clearSlotDisplay (SamePins.refl w) i, ?_, fun j hj hs => ?_⟩
    · exact shown_clearSlotDisplay.trans (if_pos rfl)
    · exact (shown_clearSlotDisplay.trans (if_neg hj)).trans hs

/-- The slots that the loop has been over show the tiles they are pinned to. -/
theorem resetAll (ha : w.PinsAgree) (n : ℕ) :
    SamePins w ((List.range n).foldl resetSlot w) ∧
      ∀ j < n, ((List.range n).foldl resetSlot w).shown j = w.pinKey j := by
  induction n with
  | zero => exact ⟨SamePins.refl w, fun j hj => absurd hj (Nat.not_lt_zero j)⟩
  | succ n ih =>
    obtain ⟨hsame, hshown⟩ := ih
    rw [List.range_succ, List.foldl_concat]
    obtain ⟨hstep, hn, hother⟩ := resetSlot_spec (hsame.agree ha) n
    refine ⟨hsame.trans hstep, fun j hj => ?_⟩
    by_cases hjn : j = n
    · rw [hjn, hn, hsame.pinKey_eq]
    · rw [hother j hjn, hsame.pinKey_eq]
      rw [hshown j (by omega), hsame.pinKey_eq]

theorem redistribute_fixed (ha : w.PinsAgree) : Fixed w w.redistributeSlots := by
  set w0 := w.stopCarouselTimer with hw0
  have hsame0 : SamePins w w0 := ⟨⟨rfl, rfl, List.Perm.refl _, rfl, fun _ => rfl⟩, rfl⟩
  obtain ⟨hsame, hshown⟩ := resetAll (hsame0.agree ha) w.slots.length
  set w1 : WatchWall :=
    { (List.range w.slots.length).foldl resetSlot w0 with carouselBatchIndex := 0 } with hw1
  have hsame1 : SamePins w w1 :=
    hsame0.trans (hsame.trans ⟨⟨rfl, rfl, List.Perm.refl _, rfl, fun _ => rfl⟩, rfl⟩)
  have hshown1 : ∀ j, w1.shown j = w1.pinKey j := fun j => by
    by_cases hj : j < w.slots.length
    · rw [hsame1.pinKey_eq]
      exact hshown j hj
    · have hlen : w1.slots.length ≤ j := by
        rw [hsame1.redrawn.length_eq]
        omega
      rw [shown, pinKey, List.getElem?_eq_none hlen]
      rfl
  have hsettled : w1.Settled := by
    refine ⟨fun i _ => hshown1 i, fun i k hi hs => ?_⟩
    rw [hshown1, pinKey_eq_none hi] at hs
    cases hs
  obtain ⟨hsame2, hsettled2⟩ := Fixed.fill (hsame1.agree ha) hsettled
  exact ⟨hsame1.trans hsame2, hsettled2⟩

/-! ### The actions -/

theorem shown_present (key : Option TileKey) (hj : j ≠ i) :
    (w.present key i).shown j = w.shown j := by
  unfold present applySlotPresentation
  have hclear : (w.clearSlotDisplay i).shown j = w.shown j :=
    shown_clearSlotDisplay.trans (if_neg hj)
  split_ifs
  · exact hclear
  · split
    · split_ifs
      · rfl
      · exact hclear
    · exact hclear

theorem shown_present_self (key : Option TileKey) :
    (w.present key i).shown i = none ∨ (w.present key i).shown i = w.shown i := by
  unfold present applySlotPresentation
  have hclear : (w.clearSlotDisplay i).shown i = none := shown_clearSlotDisplay.trans (if_pos rfl)
  split_ifs
  · exact Or.inl hclear
  · split
    · split_ifs
      · exact Or.inr rfl
      · exact Or.inl hclear
    · exact Or.inl hclear

theorem shown_setShown_any {o : Option TileKey} (hi : i < w.slots.length) :
    (w.setShown i o).shown j = if j = i then o else w.shown j := by
  cases o with
  | none => exact shown_setShown_none
  | some key =>
    rw [shown_setShown]
    simp only [hi, and_true]

theorem shown_moveDisplay (key other : Option TileKey) :
    (w.moveDisplay key other i).shown j = w.shown j := by
  unfold moveDisplay
  split
  · exact shown_setDisplay
  · rfl

theorem shown_swapSlots_other {a b : ℤ} {a' b' : ℕ} (hswap : w.swapped a b = some (a', b'))
    (hja : j ≠ a') (hjb : j ≠ b') : (w.swapSlots a b).shown j = w.shown j := by
  obtain ⟨ha, hb, -⟩ := swapped_eq hswap
  rw [swapSlots, hswap]
  dsimp only
  split_ifs
  · rfl
  · rw [shown_present _ hjb, shown_present _ hja, shown_moveDisplay, shown_moveDisplay,
      shown_setShown_any, if_neg hjb, shown_setShown_any ha, if_neg hja]
    rwa [(Redrawn.setShown w a' _).length_eq]

/-- A swap leaves the other slots alone, and shows nothing new in the two. -/
theorem shown_swapSlots {a b : ℤ} {a' b' : ℕ} (hswap : w.swapped a b = some (a', b')) (j : ℕ) :
    (w.swapSlots a b).shown j = w.shown j ∨ (w.swapSlots a b).shown j = none ∨
      (j = a' ∧ (w.swapSlots a b).shown j = w.shown b') ∨
      (j = b' ∧ (w.swapSlots a b).shown j = w.shown a') := by
  obtain ⟨ha, hb, hab⟩ := swapped_eq hswap
  by_cases hother : j ≠ a' ∧ j ≠ b'
  · exact Or.inl (shown_swapSlots_other hswap hother.1 hother.2)
  rw [swapSlots, hswap]
  dsimp only
  split_ifs
  · exact Or.inl rfl
  set v := (((w.setShown a' (w.shown b')).setShown b' (w.shown a')).moveDisplay (w.shown a')
    (w.shown b') b').moveDisplay (w.shown b') (w.shown a') a' with hv
  have hb1 : b' < (w.setShown a' (w.shown b')).slots.length := by
    rwa [(Redrawn.setShown w a' _).length_eq]
  have hshown : ∀ j, v.shown j =
      if j = b' then w.shown a' else if j = a' then w.shown b' else w.shown j := fun j => by
    rw [hv, shown_moveDisplay, shown_moveDisplay, shown_setShown_any hb1, shown_setShown_any ha]
  by_cases hjb : j = b'
  · subst hjb
    have hself := shown_present_self (w := v.present (w.shown j) a') (i := j) (w.shown a')
    rw [shown_present _ (Ne.symm hab), hshown, if_pos rfl] at hself
    rcases hself with h | h
    · exact Or.inr (Or.inl h)
    · exact Or.inr (Or.inr (Or.inr ⟨rfl, h⟩))
  · have hja : j = a' := by
      by_contra hja
      exact hother ⟨hja, hjb⟩
    subst hja
    rw [shown_present _ hjb]
    have hself := shown_present_self (w := v) (i := j) (w.shown b')
    rw [hshown, if_neg hjb, if_pos rfl] at hself
    rcases hself with h | h
    · exact Or.inr (Or.inl h)
    · exact Or.inr (Or.inr (Or.inl ⟨rfl, h⟩))

theorem swapped_free {a b : ℤ} {a' b' : ℕ} (h : w.swapped a b = some (a', b')) :
    w.pinned a' = false ∧ w.pinned b' = false := by
  unfold swapped at h
  split_ifs at h with hab hrange hpin
  simp only [Option.some.injEq, Prod.mk.injEq] at h
  obtain ⟨rfl, rfl⟩ := h
  simpa using hpin

theorem Settled.swap (h : w.Settled) (a b : ℤ) : (w.swapSlots a b).Settled := by
  cases hswap : w.swapped a b with
  | none => rwa [swapSlots, hswap]
  | some p =>
    obtain ⟨a', b'⟩ := p
    have hsame := (SamePins.stable w).swapSlots (SamePins.refl w) a b
    obtain ⟨hfa, hfb⟩ := swapped_free hswap
    obtain ⟨ha, hb, -⟩ := swapped_eq hswap
    constructor
    · intro i hi
      rw [hsame.redrawn.pinned_eq] at hi
      have hia : i ≠ a' := by
        rintro rfl
        rw [hfa] at hi
        cases hi
      have hib : i ≠ b' := by
        rintro rfl
        rw [hfb] at hi
        cases hi
      rw [hsame.pinKey_eq, ← h.pinned i hi]
      exact shown_swapSlots_other hswap hia hib
    · intro i k hi hs
      rw [hsame.redrawn.pinned_eq] at hi
      rw [hsame.redrawn.mem_iff, hsame.pinSlot_eq]
      rcases shown_swapSlots hswap i with h1 | h1 | ⟨-, h1⟩ | ⟨-, h1⟩
      · exact h.free i k hi (h1.symm.trans hs)
      · rw [h1] at hs
        cases hs
      · exact h.free b' k hfb (h1.symm.trans hs)
      · exact h.free a' k hfa (h1.symm.trans hs)

/-! ### Pinning and taking pins away -/

theorem pinned_modifySlot {f : WatchSlot → WatchSlot} : (w.modifySlot i f).pinned j =
    if j = i then w.slots[j]?.any fun slot => (f slot).pinned else w.pinned j := by
  rw [pinned, modifySlot, List.getElem?_modify, pinned]
  by_cases hj : j = i
  · subst hj
    simp [Option.any_map]
  · simp [hj, Ne.symm hj]

theorem pinKey_modifySlot {f : WatchSlot → WatchSlot} (hj : j ≠ i) :
    (w.modifySlot i f).pinKey j = w.pinKey j := by
  rw [pinKey, modifySlot, List.getElem?_modify, pinKey]
  simp [Ne.symm hj]

theorem pinKey_unpin : (w.modifySlot i WatchSlot.unpin).pinKey i = none := by
  rw [pinKey, modifySlot, List.getElem?_modify]
  cases w.slots[i]? with
  | none => rfl
  | some slot => simp [WatchSlot.unpin]

theorem pinKey_pin (hi : i < w.slots.length) :
    (w.modifySlot i (·.pin key)).pinKey i = some key := by
  rw [pinKey, modifySlot, List.getElem?_modify, List.getElem?_eq_getElem hi]
  simp [WatchSlot.pin, Option.filter]

theorem pinSlot_modifyTile {f : WatchTile → WatchTile} {o : Option ℕ} (hkey : key ∈ w.tiles)
    (hf : ∀ tile, (f tile).pinnedSlotIndex = o) :
    (w.modifyTile key f).pinSlot k = if k = key then o else w.pinSlot k := by
  rw [pinSlot, lookup_modifyTile, pinSlot]
  by_cases hk : k = key
  · subst hk
    obtain ⟨tile, htile⟩ := Option.isSome_iff_exists.1 (AList.lookup_isSome.2 hkey)
    simp [htile, hf]
  · simp [hk]

theorem pinKey_modifyTile {f : WatchTile → WatchTile} :
    (w.modifyTile key f).pinKey i = w.pinKey i := by
  rw [pinKey, slots_modifyTile, pinKey]

theorem pinned_modifyTile {f : WatchTile → WatchTile} :
    (w.modifyTile key f).pinned i = w.pinned i := by
  rw [pinned, slots_modifyTile, pinned]

theorem mem_modifyTile {f : WatchTile → WatchTile} :
    k ∈ (w.modifyTile key f).tiles ↔ k ∈ w.tiles :=
  (keys_modifyTile f).mem_iff

/-- The pins agree, the slots show them, and the grid has the slots of the layout. -/
structure PinsHeld (w : WatchWall) : Prop where
  agree : w.PinsAgree
  settled : w.Settled
  capacity : w.slots.length = w.getLayoutCapacity

theorem SamePins.getLayoutCapacity_eq (h : SamePins w w') :
    w'.getLayoutCapacity = w.getLayoutCapacity := by
  rw [getLayoutCapacity, getLayoutCapacity, h.redrawn.layout]

theorem Fixed.held (h : Fixed w w') (ha : w.PinsAgree)
    (hcap : w.slots.length = w.getLayoutCapacity) : w'.PinsHeld where
  agree := h.same.agree ha
  settled := h.settled
  capacity := by rw [h.same.redrawn.length_eq, hcap, h.same.getLayoutCapacity_eq]

/-- The wall with a new tile before it is distributed. -/
def insertTile (w : WatchWall) (key : TileKey) : WatchWall :=
  { w with tiles := w.tiles.insert key {}, watchOrder := w.watchOrder ++ [key] }

theorem startTile_eq (hkey : key ∉ w.tiles) (hmax : w.tiles.keys.length < MAX_TILES) :
    w.startTile key = (w.insertTile key).redistributeSlots := by
  refine if_neg ?_
  rintro (h | h)
  exacts [hkey h, absurd hmax (Nat.not_lt.2 h)]

theorem needsCarousel_insert (hkey : key ∉ w.tiles) :
    (w.insertTile key).needsCarousel = true ↔ w.getLayoutCapacity ≤ w.tiles.keys.length := by
  have hlen : (w.insertTile key).tiles.keys.length = w.tiles.keys.length + 1 := by
    rw [insertTile, AList.keys_insert, List.length_cons, List.erase_of_not_mem hkey]
  rw [needsCarousel, decide_eq_true_eq, hlen]
  exact Nat.lt_succ_iff

/-- A new tile is not pinned. -/
theorem agree_insert (ha : w.PinsAgree) (hkey : key ∉ w.tiles) : (w.insertTile key).PinsAgree := by
  have hslot : ∀ k, (w.insertTile key).pinSlot k = w.pinSlot k := fun k => by
    rw [pinSlot, insertTile, GoMap.lookup_insert_iff, pinSlot]
    by_cases hk : k = key
    · rw [if_pos hk, hk, AList.lookup_eq_none.2 hkey]
      rfl
    · rw [if_neg hk]
  exact ⟨fun i k => by rw [hslot, ← ha.iff]; rfl, ha.keyed⟩

/-- Nothing is pinned, on either side. -/
theorem agree_blank (h : w.Blank) : w.PinsAgree := by
  refine ⟨fun i k => ?_, fun i hi => ?_⟩
  · rw [pinKey_eq_none (h.pinned i), pinSlot]
    have hk := h.tiles k
    cases htile : w.tiles.lookup k with
    | none => exact ⟨fun h => (by cases h), fun h => (by cases h)⟩
    | some tile =>
      rw [htile] at hk
      rw [Option.bind_some, Option.isNone_iff_eq_none.1 hk]
      exact ⟨fun h => (by cases h), fun h => (by cases h)⟩
  · rw [h.pinned] at hi
    cases hi

theorem samePins_takeDown (w : WatchWall) (key : TileKey) : SamePins w (w.takeDown key) := by
  unfold takeDown
  split
  · exact (SamePins.stable w).clearSlotDisplay (SamePins.refl w) _
  · exact SamePins.refl w

theorem slot_deleteTile : (w.deleteTile key).slots[i]? = (w.slots[i]?).map fun slot : WatchSlot =>
    if slot.pinnedTileKey = some key then slot.unpin else slot :=
  List.getElem?_map

theorem pinned_deleteTile (h : (w.deleteTile key).pinned i = true) :
    w.pinned i = true ∧ w.pinKey i ≠ some key := by
  rw [pinned, slot_deleteTile, Option.any_map, Option.any_eq_true] at h
  obtain ⟨slot, hs, hi⟩ := h
  split_ifs at hi with hkey
  · cases hi
  · refine ⟨?_, ?_⟩
    · rw [pinned, hs]
      exact hi
    · rw [pinKey, hs, Option.filter_some_pos hi]
      exact hkey

/-- What is left of the pins when a tile is gone. -/
theorem agree_deleteTile (ha : w.PinsAgree) (key : TileKey) : (w.deleteTile key).PinsAgree := by
  have hpinKey : ∀ i, w.pinKey i ≠ some key → (w.deleteTile key).pinKey i = w.pinKey i :=
    fun i hi => by
      rw [pinKey, slot_deleteTile, pinKey]
      rw [pinKey] at hi
      cases hs : w.slots[i]? with
      | none => rfl
      | some slot =>
        rw [hs] at hi
        rw [Option.map_some]
        by_cases hkey : slot.pinnedTileKey = some key
        · -- the slot was not pinned, and is not now
          have hfree : slot.pinned = false := by
            by_contra hp
            rw [Option.filter_some_pos (Bool.of_not_eq_false hp)] at hi
            exact hi hkey
          have hfree' : slot.unpin.pinned = false := rfl
          rw [if_pos hkey, Option.filter, Option.filter, hfree, hfree']
          rfl
        · rw [if_neg hkey]
  have hpinSlot : ∀ k, (w.deleteTile key).pinSlot k = if k = key then none else w.pinSlot k :=
    fun k => by
      rw [pinSlot, deleteTile, GoMap.lookup_erase_iff, pinSlot]
      by_cases hk : k = key
      · rw [if_pos hk, if_pos hk]
        rfl
      · rw [if_neg hk, if_neg hk]
  constructor
  · intro i k
    rw [hpinSlot]
    by_cases hi : w.pinKey i = some key
    · have hnone : (w.deleteTile key).pinKey i = none := by
        by_contra h
        obtain ⟨k', hk'⟩ := Option.ne_none_iff_exists'.1 h
        exact (pinned_deleteTile (pinned_of_pinKey hk')).2 hi
      rw [hnone]
      refine ⟨fun h => (by cases h), fun hk => ?_⟩
      split_ifs at hk with hkey
      rw [← ha.iff, hi] at hk
      exact absurd (Option.some.inj hk).symm hkey
    · rw [hpinKey i hi]
      by_cases hk : k = key
      · rw [if_pos hk, hk]
        exact ⟨fun h => absurd h hi, fun h => (by cases h)⟩
      · rw [if_neg hk, ha.iff]
  · intro i hi
    obtain ⟨hi, hne⟩ := pinned_deleteTile hi
    obtain ⟨k, hk⟩ := ha.keyed i hi
    exact ⟨k, (hpinKey i hne).trans hk⟩

/-- Two partial maps that undo each other still do when `i` and `key`, which belong to
nothing else, are tied or parted. -/
theorem inverse_relink {α β : Type} [DecidableEq α] [DecidableEq β] {f : α → Option β}
    {g : β → Option α} {i : α} {key : β} {a : Option β} {b : Option α}
    (hiff : ∀ j k, f j = some k ↔ g k = some j) (hi : ∀ k, f i = some k → k = key)
    (hkey : ∀ j, g key = some j → j = i)
    (hab : (a = some key ∧ b = some i) ∨ (a = none ∧ b = none)) (j : α) (k : β) :
    (if j = i then a else f j) = some k ↔ (if k = key then b else g k) = some j := by
  by_cases hj : j = i <;> by_cases hk : k = key
  · rcases hab with ⟨rfl, rfl⟩ | ⟨rfl, rfl⟩ <;> simp [hj, hk]
  · have hne : g k ≠ some i := fun h => hk (hi k ((hiff i k).2 h))
    rcases hab with ⟨rfl, -⟩ | ⟨rfl, -⟩ <;> simp [hj, hk, hne, Ne.symm hk]
  · have hne : f j ≠ some key := fun h => hj (hkey j ((hiff j key).1 h))
    rcases hab with ⟨-, rfl⟩ | ⟨-, rfl⟩ <;> simp [hj, hk, hne, Ne.symm hj]
  · rw [if_neg hj, if_neg hk, hiff]

/-- The tile of a slot that is not pinned is pinned to it. -/
theorem agree_pin (h : w.PinsHeld) (hs : w.shown i = some key) (hi : w.pinned i = false) :
    ((w.modifySlot i (·.pin key)).modifyTile key (·.pin i)).PinsAgree := by
  obtain ⟨hkey, hnone⟩ := h.settled.free i key hi hs
  have hlt : i < w.slots.length := by
    by_contra hi
    rw [shown, List.getElem?_eq_none (Nat.le_of_not_lt hi)] at hs
    cases hs
  set v := (w.modifySlot i (·.pin key)).modifyTile key (·.pin i) with hv
  have hpinKey : ∀ j, v.pinKey j = if j = i then some key else w.pinKey j := fun j => by
    rw [hv, pinKey_modifyTile]
    by_cases hj : j = i
    · rw [if_pos hj, hj, pinKey_pin hlt]
    · rw [if_neg hj, pinKey_modifySlot hj]
  have hpinSlot : ∀ k, v.pinSlot k = if k = key then some i else w.pinSlot k := fun k =>
    pinSlot_modifyTile (w := w.modifySlot i (·.pin key)) hkey fun _ => rfl
  refine ⟨fun j k => ?_, fun j hj => ?_⟩
  · rw [hpinKey, hpinSlot]
    apply inverse_relink h.agree.iff _ _ (Or.inl ⟨rfl, rfl⟩)
    · simp [pinKey_eq_none hi]
    · simp [hnone]
  · rw [hpinKey]
    by_cases hji : j = i
    · exact ⟨key, if_pos hji⟩
    · rw [if_neg hji]
      rw [hv, pinned_modifyTile, pinned_modifySlot, if_neg hji] at hj
      exact h.agree.keyed j hj

namespace PinsHeld

/-- What only the pins and the slots tell. -/
theorem congr (h : w.PinsHeld) (hslots : w'.slots = w.slots) (htiles : w'.tiles = w.tiles)
    (hlayout : w'.currentLayoutKey = w.currentLayoutKey) : w'.PinsHeld := by
  have hpinned : ∀ i, w'.pinned i = w.pinned i := fun i => by rw [pinned, hslots, pinned]
  have hkey : ∀ i, w'.pinKey i = w.pinKey i := fun i => by rw [pinKey, hslots, pinKey]
  have hslot : ∀ k, w'.pinSlot k = w.pinSlot k := fun k => by rw [pinSlot, htiles, pinSlot]
  have hshown : ∀ i, w'.shown i = w.shown i := fun i => by rw [shown, hslots, shown]
  refine ⟨⟨fun i k => ?_, fun i hi => ?_⟩, ⟨fun i hi => ?_, fun i k hi hs => ?_⟩, ?_⟩
  · rw [hkey, hslot, h.agree.iff]
  · rw [hpinned] at hi
    rw [hkey]
    exact h.agree.keyed i hi
  · rw [hpinned] at hi
    rw [hshown, hkey, h.settled.pinned i hi]
  · rw [hpinned] at hi
    rw [hshown] at hs
    rw [hslot, htiles]
    exact h.settled.free i k hi hs
  · rw [hslots, h.capacity, getLayoutCapacity, getLayoutCapacity, hlayout]

theorem startTile (h : w.PinsHeld) (key : TileKey) : (w.startTile key).PinsHeld := by
  by_cases hguard : key ∈ w.tiles ∨ MAX_TILES ≤ w.tiles.keys.length
  · rwa [WatchWall.startTile, if_pos hguard]
  obtain ⟨hkey, hmax⟩ := not_or.1 hguard
  rw [startTile_eq hkey (Nat.lt_of_not_le hmax)]
  have ha := agree_insert h.agree hkey
  exact (redistribute_fixed ha).held ha h.capacity

theorem swapSlots (h : w.PinsHeld) (a b : ℤ) : (w.swapSlots a b).PinsHeld :=
  Fixed.held ⟨(SamePins.stable w).swapSlots (SamePins.refl w) a b, h.settled.swap a b⟩ h.agree
    h.capacity

theorem setLayoutKey (h : w.PinsHeld) (hord : w.Ordered) (l : String) :
    (w.setLayoutKey l).PinsHeld := by
  by_cases hkeep : layoutCapacities.lookup l = none ∨ l = w.currentLayoutKey
  · rwa [WatchWall.setLayoutKey, if_pos hkeep]
  obtain ⟨hl, hne⟩ := not_or.1 hkeep
  rw [setLayoutKey_eq hl hne]
  obtain ⟨hblank, -⟩ := newLayout_spec hord l
  have ha := agree_blank hblank
  exact (redistribute_fixed ha).held ha hblank.capacity

theorem carouselTick (h : w.PinsHeld) : w.carouselTick.PinsHeld := by
  unfold WatchWall.carouselTick
  split_ifs
  · exact h
  · exact h.congr rfl rfl rfl
  · set v : WatchWall := { w with carouselBatchIndex := w.carouselBatchIndex + 1 }
    have hv : v.PinsHeld := h.congr rfl rfl rfl
    exact (Fixed.batch hv.agree hv.settled).held hv.agree hv.capacity

theorem pin (h : w.PinsHeld) (hs : w.shown i = some key) (hi : w.pinned i = false) :
    (((w.modifySlot i (·.pin key)).modifyTile key (·.pin i)).redistributeSlots).PinsHeld := by
  have ha := agree_pin h hs hi
  refine (redistribute_fixed ha).held ha ?_
  rw [slots_modifyTile, getLayoutCapacity, currentLayoutKey_modifyTile]
  exact (List.length_modify ..).trans h.capacity

/-- The tile of a pinned slot stays there without a pin. -/
theorem unpin (h : w.PinsHeld) (hs : w.shown i = some key) (hi : w.pinned i = true) :
    ((w.modifySlot i WatchSlot.unpin).modifyTile key WatchTile.unpin).PinsHeld := by
  have hpin : w.pinKey i = some key := by rw [← h.settled.pinned i hi, hs]
  have hslot := (h.agree.iff i key).1 hpin
  have hkey := mem_of_pinSlot hslot
  set v := (w.modifySlot i WatchSlot.unpin).modifyTile key WatchTile.unpin with hv
  have hpinKey : ∀ j, v.pinKey j = if j = i then none else w.pinKey j := fun j => by
    rw [hv, pinKey_modifyTile]
    by_cases hj : j = i
    · rw [if_pos hj, hj, pinKey_unpin]
    · rw [if_neg hj, pinKey_modifySlot hj]
  have hpinSlot : ∀ k, v.pinSlot k = if k = key then none else w.pinSlot k := fun k =>
    pinSlot_modifyTile (w := w.modifySlot i WatchSlot.unpin) hkey fun _ => rfl
  have hpinned : ∀ j, v.pinned j = true → j ≠ i ∧ w.pinned j = true := fun j hj => by
    rw [hv, pinned_modifyTile, pinned_modifySlot] at hj
    split_ifs at hj with hji
    · rw [Option.any_eq_true] at hj
      obtain ⟨slot, -, hfalse⟩ := hj
      cases hfalse
    · exact ⟨hji, hj⟩
  have hshown : ∀ j, v.shown j = w.shown j := fun j =>
    shown_modifyTile.trans (shown_modifySlot fun _ => rfl)
  refine ⟨⟨fun j k => ?_, fun j hj => ?_⟩, ⟨fun j hj => ?_, fun j k hj hs' => ?_⟩, ?_⟩
  · rw [hpinKey, hpinSlot]
    apply inverse_relink h.agree.iff _ _ (Or.inr ⟨rfl, rfl⟩)
    · simp [hpin, eq_comm]
    · simp [hslot, eq_comm]
  · obtain ⟨hji, hj⟩ := hpinned j hj
    rw [hpinKey, if_neg hji]
    exact h.agree.keyed j hj
  · obtain ⟨hji, hj⟩ := hpinned j hj
    rw [hpinKey, if_neg hji, hshown, h.settled.pinned j hj]
  · rw [hshown] at hs'
    rw [hpinSlot, hv, mem_modifyTile]
    by_cases hji : j = i
    · rw [hji, hs] at hs'
      rw [← Option.some.inj hs', if_pos rfl]
      exact ⟨hkey, rfl⟩
    · rw [hv, pinned_modifyTile, pinned_modifySlot, if_neg hji] at hj
      obtain ⟨hmem, hnone⟩ := h.settled.free j k hj hs'
      exact ⟨hmem, by rw [hnone, ite_self]⟩
  · rw [hv, slots_modifyTile, getLayoutCapacity, currentLayoutKey_modifyTile]
    exact (List.length_modify ..).trans h.capacity

theorem togglePinSlot (h : w.PinsHeld) (i : ℕ) : (w.togglePinSlot i).PinsHeld := by
  unfold WatchWall.togglePinSlot
  cases hs : w.shown i with
  | none => exact h
  | some key =>
    dsimp only
    split_ifs with hi
    · exact (h.unpin hs hi).congr rfl rfl rfl
    · exact h.unpin hs hi
    · exact h
    · exact h.pin hs (Bool.eq_false_of_not_eq_true hi)

theorem removeTileEntry (h : w.PinsHeld) (key : TileKey) : (w.removeTileEntry key).PinsHeld := by
  set w1 : WatchWall := { w with watchOrder := w.watchOrder.erase key } with hw1
  have ha1 : w1.PinsAgree := ⟨h.agree.iff, h.agree.keyed⟩
  have hsame : SamePins w1 (w1.takeDown key) := samePins_takeDown w1 key
  have ha := agree_deleteTile (hsame.agree ha1) key
  refine (redistribute_fixed ha).held ha ?_
  have hlen : ((w1.takeDown key).deleteTile key).slots.length = (w1.takeDown key).slots.length :=
    List.length_map ..
  rw [hlen, hsame.redrawn.length_eq]
  exact h.capacity.trans hsame.getLayoutCapacity_eq.symm

theorem step (h : w.PinsHeld) (hord : w.Ordered) (a : WatchAction) : (w.step a).PinsHeld := by
  cases a with
  | startTile key => exact h.startTile key
  | removeTileEntry key => exact h.removeTileEntry key
  | togglePinSlot i => exact h.togglePinSlot i
  | swapSlots a b => exact h.swapSlots a b
  | setLayoutKey l => exact h.setLayoutKey hord l
  | carouselTick => exact h.carouselTick

theorem init : wall.init.PinsHeld := by
  have hslot : ∀ (i : ℕ) (slot : WatchSlot), wall.init.slots[i]? = some slot →
      slot = { pinned := false } := fun i slot h => by
    have hmem : slot ∈ List.replicate 4 { pinned := false } := List.mem_of_getElem? h
    exact List.eq_of_mem_replicate hmem
  have hpinned : ∀ i, wall.init.pinned i = false := fun i => by
    rw [pinned]
    cases h : wall.init.slots[i]? with
    | none => rfl
    | some slot => rw [hslot i slot h]; rfl
  have hshown : ∀ i, wall.init.shown i = none := fun i => by
    rw [shown]
    cases h : wall.init.slots[i]? with
    | none => rfl
    | some slot => rw [hslot i slot h]; rfl
  refine ⟨⟨fun i k => ?_, fun i hi => ?_⟩, ⟨fun i hi => ?_, fun i k _ hs => ?_⟩, by decide +kernel⟩
  · rw [pinKey_eq_none (hpinned i)]
    exact ⟨fun h => (by cases h), fun h => (by cases h)⟩
  · rw [hpinned] at hi
    cases hi
  · rw [hpinned] at hi
    cases hi
  · rw [hshown] at hs
    cases hs

end PinsHeld

end WatchWall

open WatchWall

/-- The two records of the pins agree after any run. -/
theorem pinsHeld_run (actions : List WatchAction) : (wall.run actions).PinsHeld := by
  refine (Machine.run_invariant (M := wall) (P := fun w => w.Ordered ∧ w.PinsHeld)
    ⟨List.Perm.refl _, PinsHeld.init⟩ ?_ actions).2
  rintro w a ⟨hord, h⟩
  exact ⟨hord.step a, h.step hord a⟩

end Meetkit
