import Meetkit.Model.WatchWall

/-! What clearing a slot of the watch wall and assigning a tile to one do to the two
maps. Both keep what the slots say true of the tiles, and of the tiles that say
something no slot confirms, the stale ones, they only ever take the assigned tile
away. -/

namespace Meetkit

namespace WatchWall

variable {w w' : WatchWall} {key k : TileKey} {i j : ℕ}

@[simp] theorem shown_setShown : (w.setShown i (some key)).shown j =
    if j = i ∧ i < w.slots.length then some key else w.shown j := by
  rw [shown, setShown, modifySlot, List.getElem?_modify, shown]
  by_cases hj : i = j
  · subst hj
    by_cases hi : i < w.slots.length
    · simp [hi]
    · rw [if_neg (fun h => hi h.2), List.getElem?_eq_none (Nat.le_of_not_lt hi)]
      simp
  · rw [if_neg (fun h => hj h.1.symm)]
    simp [hj]

@[simp] theorem shown_setShown_none : (w.setShown i none).shown j =
    if j = i then none else w.shown j := by
  rw [shown, setShown, modifySlot, List.getElem?_modify, shown]
  by_cases hj : i = j
  · subst hj
    cases h : w.slots[i]? with
    | none => simp
    | some slot => simp
  · rw [if_neg (Ne.symm hj)]
    simp [hj]

/-- What is read of the slots besides what they show. -/
theorem map_slots_setShown {α : Type} {f : WatchSlot → α} {o : Option TileKey}
    (hf : ∀ slot o, f { slot with displayedTileKey := o } = f slot) :
    (w.setShown i o).slots.map f = w.slots.map f := by
  refine List.ext_getElem? fun j => ?_
  rw [List.getElem?_map, List.getElem?_map, setShown, modifySlot, List.getElem?_modify]
  cases w.slots[j]? with
  | none => rfl
  | some slot => by_cases hj : i = j <;> simp [hj, hf]

theorem lookup_modifyTile (f : WatchTile → WatchTile) :
    (w.modifyTile key f).tiles.lookup k =
      if k = key then (w.tiles.lookup k).map f else w.tiles.lookup k := by
  unfold modifyTile
  cases h : w.tiles.lookup key with
  | none =>
    by_cases hk : k = key
    · subst hk
      simp [h]
    · simp [hk]
  | some tile =>
    simp only [GoMap.lookup_insert_iff]
    by_cases hk : k = key
    · subst hk
      simp [h]
    · simp [hk]

theorem slots_modifyTile (f : WatchTile → WatchTile) : (w.modifyTile key f).slots = w.slots := by
  unfold modifyTile
  split <;> rfl

theorem watchOrder_modifyTile (f : WatchTile → WatchTile) :
    (w.modifyTile key f).watchOrder = w.watchOrder := by
  unfold modifyTile
  split <;> rfl

theorem currentLayoutKey_modifyTile (f : WatchTile → WatchTile) :
    (w.modifyTile key f).currentLayoutKey = w.currentLayoutKey := by
  unfold modifyTile
  split <;> rfl

theorem keys_modifyTile (f : WatchTile → WatchTile) :
    (w.modifyTile key f).tiles.keys.Perm w.tiles.keys := by
  unfold modifyTile
  cases h : w.tiles.lookup key with
  | none => exact List.Perm.refl _
  | some tile =>
    have hmem : key ∈ w.tiles := AList.lookup_isSome.1 (by rw [h]; rfl)
    rw [AList.keys_insert]
    exact (List.perm_cons_erase hmem).symm

@[simp] theorem shown_setDisplay {o : Option ℕ} : (w.setDisplay key o).shown j = w.shown j := by
  rw [shown, setDisplay, slots_modifyTile, shown]

@[simp] theorem display_setShown {o : Option TileKey} :
    (w.setShown i o).display k = w.display k := rfl

theorem display_mem (h : w.display k = some i) : k ∈ w.tiles := by
  unfold display at h
  rw [← AList.lookup_isSome]
  cases ht : w.tiles.lookup k with
  | none => rw [ht] at h; cases h
  | some tile => rfl

theorem display_setDisplay {o : Option ℕ} (hkey : key ∈ w.tiles) :
    (w.setDisplay key o).display k = if k = key then o else w.display k := by
  rw [display, setDisplay, lookup_modifyTile]
  by_cases hk : k = key
  · subst hk
    obtain ⟨tile, htile⟩ := Option.isSome_iff_exists.1 (AList.lookup_isSome.2 hkey)
    simp [htile]
  · simp [hk, display]

@[simp] theorem display_setDisplay_none :
    (w.setDisplay key none).display k = if k = key then none else w.display k := by
  by_cases hkey : key ∈ w.tiles
  · exact display_setDisplay hkey
  · rw [display, setDisplay, lookup_modifyTile]
    by_cases hk : k = key
    · subst hk
      simp [AList.lookup_eq_none.2 hkey]
    · simp [hk, display]

/-! ### What clearing and assigning do -/

theorem shown_clearSlotDisplay :
    (w.clearSlotDisplay i).shown j = if j = i then none else w.shown j := by
  unfold clearSlotDisplay
  rw [shown_setShown_none]
  cases w.shown i with
  | none => rfl
  | some key => by_cases hd : w.display key = some i <;> simp [hd]

theorem display_clearSlotDisplay : (w.clearSlotDisplay i).display k =
    if w.shown i = some k ∧ w.display k = some i then none else w.display k := by
  unfold clearSlotDisplay
  rw [display_setShown]
  cases hs : w.shown i with
  | none => simp
  | some key =>
    dsimp only
    by_cases hd : w.display key = some i
    · rw [if_pos hd, display_setDisplay_none]
      by_cases hk : k = key
      · subst hk
        simp [hd]
      · rw [if_neg hk, if_neg (fun h => hk (Option.some.inj h.1).symm)]
    · rw [if_neg hd]
      by_cases hk : key = k
      · subst hk
        rw [if_neg (fun h => hd h.2)]
      · rw [if_neg (fun h => hk (Option.some.inj h.1))]

/-- Kept by writing down what a slot shows and where a tile is shown. -/
structure Stable (P : WatchWall → Prop) : Prop where
  setShown : ∀ {w : WatchWall} (i : ℕ) (o : Option TileKey), P w → P (w.setShown i o)
  setDisplay : ∀ {w : WatchWall} (key : TileKey) (o : Option ℕ), P w → P (w.setDisplay key o)

namespace Stable

variable {P : WatchWall → Prop} (h : Stable P) (hw : P w)
include h hw

theorem clearSlotDisplay (i : ℕ) : P (w.clearSlotDisplay i) := by
  unfold WatchWall.clearSlotDisplay
  refine h.setShown _ _ ?_
  split
  · split_ifs
    · exact h.setDisplay _ _ hw
    · exact hw
  · exact hw

theorem applySlotPresentation (i : ℕ) : P (w.applySlotPresentation i) := by
  unfold WatchWall.applySlotPresentation
  split
  · split_ifs
    · exact hw
    · exact h.clearSlotDisplay hw _
  · exact h.clearSlotDisplay hw _

theorem leaveOldSlot (key : TileKey) (i : ℕ) : P (w.leaveOldSlot key i) := by
  unfold WatchWall.leaveOldSlot
  split
  · split_ifs
    · exact hw
    · exact h.clearSlotDisplay hw _
    · exact h.setDisplay _ _ hw
  · exact hw

theorem displace (key : TileKey) (i : ℕ) : P (w.displace key i) := by
  unfold WatchWall.displace
  split
  · split_ifs
    · exact h.setDisplay _ _ hw
    · exact hw
  · exact hw

theorem assignTileToSlot (key : TileKey) (i : ℕ) : P (w.assignTileToSlot key i) := by
  unfold WatchWall.assignTileToSlot
  split_ifs
  · exact hw
  · have hleft := h.displace (h.leaveOldSlot hw key i) key i
    exact h.applySlotPresentation (h.setDisplay key _ (h.setShown i _ hleft)) i

theorem clearAll (is : List ℕ) : P (is.foldl WatchWall.clearSlotDisplay w) :=
  List.foldlRecOn _ _ hw fun _ hw i _ => h.clearSlotDisplay hw i

theorem assignAll (es : List (TileKey × ℕ)) :
    P (es.foldl (fun w e => w.assignTileToSlot e.1 e.2) w) :=
  List.foldlRecOn _ _ hw fun _ hw e _ => h.assignTileToSlot hw e.1 e.2

theorem batch : P w.applyCarouselBatch := by
  unfold applyCarouselBatch
  dsimp only
  split_ifs
  · exact hw
  · exact h.assignAll (h.clearAll hw _) _

theorem moveDisplay (key other : Option TileKey) (i : ℕ) : P (w.moveDisplay key other i) := by
  unfold WatchWall.moveDisplay
  split
  · exact h.setDisplay _ _ hw
  · exact hw

theorem present (key : Option TileKey) (i : ℕ) : P (w.present key i) := by
  unfold WatchWall.present
  split_ifs
  · exact h.clearSlotDisplay hw i
  · exact h.applySlotPresentation hw i

theorem swapSlots (a b : ℤ) : P (w.swapSlots a b) := by
  unfold WatchWall.swapSlots
  split
  · exact hw
  · dsimp only
    split_ifs
    · exact hw
    · refine h.present (h.present (h.moveDisplay (h.moveDisplay ?_ _ _ _) _ _ _) _ _) _ _
      exact h.setShown _ _ (h.setShown _ _ hw)

end Stable

/-- What neither clearing a slot nor assigning a tile changes. -/
structure Redrawn (w w' : WatchWall) : Prop where
  order : w'.watchOrder = w.watchOrder
  layout : w'.currentLayoutKey = w.currentLayoutKey
  keys : w'.tiles.keys.Perm w.tiles.keys
  slotPins : w'.slots.map (·.pinned) = w.slots.map (·.pinned)
  tilePins : ∀ k, (w'.tiles.lookup k).map (·.pinnedSlotIndex) =
    (w.tiles.lookup k).map (·.pinnedSlotIndex)

namespace Redrawn

theorem refl (w : WatchWall) : Redrawn w w := ⟨rfl, rfl, List.Perm.refl _, rfl, fun _ => rfl⟩

theorem trans {w'' : WatchWall} (h : Redrawn w w') (h' : Redrawn w' w'') : Redrawn w w'' where
  order := h'.order.trans h.order
  layout := h'.layout.trans h.layout
  keys := h'.keys.trans h.keys
  slotPins := h'.slotPins.trans h.slotPins
  tilePins k := (h'.tilePins k).trans (h.tilePins k)

theorem mem_iff (h : Redrawn w w') : k ∈ w'.tiles ↔ k ∈ w.tiles := h.keys.mem_iff

theorem length_eq (h : Redrawn w w') : w'.slots.length = w.slots.length := by
  have hlen := congrArg List.length h.slotPins
  simpa using hlen

theorem pinned_eq (h : Redrawn w w') (i : ℕ) : w'.pinned i = w.pinned i := by
  have hi := congrArg (fun l => l[i]?.any id) h.slotPins
  simpa [pinned, Option.any_map] using hi

theorem getCarouselSlotIndices_eq (h : Redrawn w w') :
    w'.getCarouselSlotIndices = w.getCarouselSlotIndices := by
  rw [getCarouselSlotIndices, getCarouselSlotIndices, h.length_eq]
  exact List.filter_congr fun i _ => by rw [h.pinned_eq]

theorem getUnpinnedTileKeys_eq (h : Redrawn w w') :
    w'.getUnpinnedTileKeys = w.getUnpinnedTileKeys := by
  rw [getUnpinnedTileKeys, getUnpinnedTileKeys, h.order]
  refine List.filter_congr fun k _ => ?_
  have hk := congrArg (fun o => o.any Option.isNone) (h.tilePins k)
  simpa only [Option.any_map] using hk

theorem setShown (w : WatchWall) (i : ℕ) (o : Option TileKey) : Redrawn w (w.setShown i o) where
  order := rfl
  layout := rfl
  keys := List.Perm.refl _
  slotPins := map_slots_setShown fun _ _ => rfl
  tilePins _ := rfl

theorem setDisplay (w : WatchWall) (key : TileKey) (o : Option ℕ) :
    Redrawn w (w.setDisplay key o) where
  order := watchOrder_modifyTile _
  layout := currentLayoutKey_modifyTile _
  keys := keys_modifyTile _
  slotPins := by rw [WatchWall.setDisplay, slots_modifyTile]
  tilePins k := by
    rw [WatchWall.setDisplay, lookup_modifyTile]
    by_cases hk : k = key
    · rw [if_pos hk, Option.map_map]
      rfl
    · rw [if_neg hk]

/-- From any wall on. -/
theorem stable (w : WatchWall) : Stable (Redrawn w) where
  setShown i o h := h.trans (setShown _ i o)
  setDisplay key o h := h.trans (setDisplay _ key o)

theorem clearSlotDisplay (w : WatchWall) (i : ℕ) : Redrawn w (w.clearSlotDisplay i) :=
  (stable w).clearSlotDisplay (refl w) i

theorem applySlotPresentation (w : WatchWall) (i : ℕ) : Redrawn w (w.applySlotPresentation i) :=
  (stable w).applySlotPresentation (refl w) i

theorem leaveOldSlot (w : WatchWall) (key : TileKey) (i : ℕ) :
    Redrawn w (w.leaveOldSlot key i) :=
  (stable w).leaveOldSlot (refl w) key i

theorem displace (w : WatchWall) (key : TileKey) (i : ℕ) : Redrawn w (w.displace key i) :=
  (stable w).displace (refl w) key i

theorem assignTileToSlot (w : WatchWall) (key : TileKey) (i : ℕ) :
    Redrawn w (w.assignTileToSlot key i) :=
  (stable w).assignTileToSlot (refl w) key i

end Redrawn

theorem shown_leaveOldSlot : (w.leaveOldSlot key i).shown j =
    if w.shown j = some key ∧ w.display key = some j ∧ j ≠ i then none else w.shown j := by
  unfold leaveOldSlot
  cases hd : w.display key with
  | none => simp
  | some oldIdx =>
    dsimp only
    by_cases hi : oldIdx = i
    · subst hi
      rw [if_pos rfl, if_neg (fun h => h.2.2 (Option.some.inj h.2.1).symm)]
    rw [if_neg hi]
    by_cases hs : w.shown oldIdx = some key
    · rw [if_pos hs, shown_clearSlotDisplay]
      by_cases hj : j = oldIdx
      · subst hj
        rw [if_pos rfl, if_pos ⟨hs, rfl, hi⟩]
      · rw [if_neg hj, if_neg (fun h => hj (Option.some.inj h.2.1).symm)]
    · rw [if_neg hs, shown_setDisplay, if_neg]
      rintro ⟨hj, h, -⟩
      rw [← Option.some.inj h] at hj
      exact hs hj

theorem display_leaveOldSlot (hk : k ≠ key) :
    (w.leaveOldSlot key i).display k = w.display k := by
  unfold leaveOldSlot
  cases hd : w.display key with
  | none => rfl
  | some oldIdx =>
    dsimp only
    split_ifs with hi hs
    · rfl
    · rw [display_clearSlotDisplay, hs, if_neg (fun h => hk (Option.some.inj h.1).symm)]
    · rw [display_setDisplay_none, if_neg hk]

@[simp] theorem shown_displace : (w.displace key i).shown j = w.shown j := by
  unfold displace
  split
  · split_ifs <;> simp
  · rfl

theorem display_displace (hk : k ≠ key) : (w.displace key i).display k =
    if w.shown i = some k ∧ w.display k = some i then none else w.display k := by
  unfold displace
  cases hs : w.shown i with
  | none => simp
  | some displacedKey =>
    dsimp only
    by_cases hd : displacedKey = k
    · subst hd
      by_cases hi : w.display displacedKey = some i
      · rw [if_pos ⟨hk, hi⟩, if_pos ⟨rfl, hi⟩, display_setDisplay_none, if_pos rfl]
      · rw [if_neg (fun h => hi h.2), if_neg (fun h => hi h.2)]
    · rw [if_neg (fun h : some displacedKey = some k ∧ _ => hd (Option.some.inj h.1))]
      split_ifs
      · rw [display_setDisplay_none, if_neg (Ne.symm hd)]
      · rfl

theorem applySlotPresentation_of_shown (hs : w.shown i = some key) (hkey : key ∈ w.tiles) :
    w.applySlotPresentation i = w := by
  rw [applySlotPresentation, hs]
  exact if_pos hkey

section Assign

variable (hkey : key ∈ w.tiles) (hi : i < w.slots.length)
include hkey hi

/-- The slot is really there and shows the tile, so presenting it clears nothing. -/
theorem assignTileToSlot_eq : w.assignTileToSlot key i =
    (((w.leaveOldSlot key i).displace key i).setShown i (some key)).setDisplay key (some i) := by
  have hre := (Redrawn.leaveOldSlot w key i).trans (Redrawn.displace _ key i)
  have hlen := hre.length_eq
  rw [assignTileToSlot, if_neg (by rintro (h | h); exacts [h hkey, absurd hi (Nat.not_lt.2 h)])]
  set w1 := (((w.leaveOldSlot key i).displace key i).setShown i (some key)).setDisplay key (some i)
  have hs : w1.shown i = some key := by
    rw [shown_setDisplay, shown_setShown, if_pos ⟨rfl, hlen ▸ hi⟩]
  have hmem : key ∈ w1.tiles :=
    ((Redrawn.setShown _ _ _).trans (Redrawn.setDisplay _ _ _)).mem_iff.2 (hre.mem_iff.2 hkey)
  exact applySlotPresentation_of_shown hs hmem

theorem shown_assignTileToSlot : (w.assignTileToSlot key i).shown j =
    if j = i then some key
    else if w.shown j = some key ∧ w.display key = some j then none else w.shown j := by
  have hlen := ((Redrawn.leaveOldSlot w key i).trans (Redrawn.displace _ key i)).length_eq
  rw [assignTileToSlot_eq hkey hi, shown_setDisplay, shown_setShown, hlen, shown_displace,
    shown_leaveOldSlot]
  by_cases hj : j = i
  · rw [if_pos ⟨hj, hi⟩, if_pos hj]
  · rw [if_neg (fun h => hj h.1), if_neg hj]
    simp only [ne_eq, hj, not_false_eq_true, and_true]

theorem display_assignTileToSlot : (w.assignTileToSlot key i).display k =
    if k = key then some i
    else if w.shown i = some k ∧ w.display k = some i then none else w.display k := by
  have hre := (Redrawn.leaveOldSlot w key i).trans (Redrawn.displace _ key i)
  have hmem : key ∈ (((w.leaveOldSlot key i).displace key i).setShown i (some key)).tiles :=
    hre.mem_iff.2 hkey
  rw [assignTileToSlot_eq hkey hi, display_setDisplay hmem, display_setShown]
  by_cases hk : k = key
  · rw [if_pos hk, if_pos hk]
  · have hs : (w.leaveOldSlot key i).shown i = w.shown i := by
      rw [shown_leaveOldSlot, if_neg (fun h => h.2.2 rfl)]
    rw [if_neg hk, if_neg hk, display_displace hk, display_leaveOldSlot hk, hs]

end Assign

/-! ### Slots that tell the truth, tiles that are stale -/

/-- What a tile believes and what the slots show is the same. -/
def Mirrors (w : WatchWall) : Prop :=
  ∀ k ∈ w.tiles, ∀ i, w.display k = some i ↔ w.shown i = some k

/-- A slot shows the tiles that believe it does. -/
def Truthful (w : WatchWall) : Prop := ∀ k i, w.shown i = some k → w.display k = some i

/-- The tile believes to be in a slot that shows another one, or none, or is not there. -/
def Stale (w : WatchWall) (k : TileKey) : Prop := ∃ i, w.display k = some i ∧ w.shown i ≠ some k

structure Exact (w : WatchWall) : Prop where
  truthful : w.Truthful
  fresh : ∀ k, ¬w.Stale k

theorem Exact.shown_iff (h : w.Exact) : w.shown i = some k ↔ w.display k = some i := by
  refine ⟨h.truthful k i, fun hd => ?_⟩
  by_contra hs
  exact h.fresh k ⟨i, hd, hs⟩

theorem exact_of_shown_iff (h : ∀ k i, w.shown i = some k ↔ w.display k = some i) : w.Exact where
  truthful k i := (h k i).1
  fresh := by
    rintro k ⟨i, hd, hs⟩
    exact hs ((h k i).2 hd)

theorem Exact.mirrors (h : w.Exact) : w.Mirrors := fun _ _ _ => h.shown_iff.symm

theorem Mirrors.fresh (h : w.Mirrors) (k : TileKey) : ¬w.Stale k := by
  rintro ⟨i, hd, hs⟩
  exact hs ((h k (display_mem hd) i).1 hd)

/-- Changes that touch neither of the two maps. -/
theorem Exact.congr (h : w.Exact) (hs : ∀ j, w'.shown j = w.shown j)
    (hd : ∀ k, w'.display k = w.display k) : w'.Exact :=
  exact_of_shown_iff fun k i => by rw [hs, hd, h.shown_iff]

theorem Truthful.clear (h : w.Truthful) (i : ℕ) : (w.clearSlotDisplay i).Truthful := by
  intro k j hs
  rw [shown_clearSlotDisplay] at hs
  split_ifs at hs with hj
  have hd := h k j hs
  rw [display_clearSlotDisplay, hd, if_neg]
  exact fun hi => hj (Option.some.inj hi.2)

theorem stale_clearSlotDisplay : (w.clearSlotDisplay i).Stale k ↔ w.Stale k := by
  unfold Stale
  refine exists_congr fun j => ?_
  rw [display_clearSlotDisplay, shown_clearSlotDisplay]
  by_cases hc : w.shown i = some k ∧ w.display k = some i
  · rw [if_pos hc, hc.2]
    constructor
    · rintro ⟨h, -⟩
      cases h
    · rintro ⟨h, hs⟩
      rw [← Option.some.inj h] at hs
      exact absurd hc.1 hs
  · rw [if_neg hc]
    by_cases hj : j = i
    · subst hj
      rw [if_pos rfl]
      exact ⟨fun h => ⟨h.1, fun hs => hc ⟨hs, h.1⟩⟩, fun h => ⟨h.1, Option.some_ne_none _ |>.symm⟩⟩
    · rw [if_neg hj]

theorem Exact.clear (h : w.Exact) (i : ℕ) : (w.clearSlotDisplay i).Exact :=
  ⟨h.truthful.clear i, fun k => by rw [stale_clearSlotDisplay]; exact h.fresh k⟩

theorem assignTileToSlot_invalid (h : ¬(key ∈ w.tiles ∧ i < w.slots.length)) :
    w.assignTileToSlot key i = w := by
  refine if_pos ?_
  by_cases hkey : key ∈ w.tiles
  · exact Or.inr (Nat.le_of_not_lt fun hi => h ⟨hkey, hi⟩)
  · exact Or.inl hkey

theorem Truthful.assign (h : w.Truthful) (key : TileKey) (i : ℕ) :
    (w.assignTileToSlot key i).Truthful := by
  by_cases hv : key ∈ w.tiles ∧ i < w.slots.length
  swap
  · rwa [assignTileToSlot_invalid hv]
  intro k j hs
  rw [shown_assignTileToSlot hv.1 hv.2] at hs
  rw [display_assignTileToSlot hv.1 hv.2]
  split_ifs at hs with hj hold
  · rw [if_pos (Option.some.inj hs).symm, hj]
  · have hd := h k j hs
    have hk : k ≠ key := by
      rintro rfl
      exact hold ⟨hs, hd⟩
    rw [if_neg hk, hd, if_neg]
    exact fun hi => hj (Option.some.inj hi.2)

theorem stale_assignTileToSlot (hkey : key ∈ w.tiles) (hi : i < w.slots.length) :
    (w.assignTileToSlot key i).Stale k ↔ w.Stale k ∧ k ≠ key := by
  unfold Stale
  simp only [shown_assignTileToSlot hkey hi, display_assignTileToSlot hkey hi]
  by_cases hk : k = key
  · subst hk
    simp
  simp only [if_neg hk, and_iff_left (show k ≠ key from hk)]
  refine exists_congr fun j => ?_
  -- a slot that loses `key` showed `key`, so it did not confirm `k`
  by_cases hj : j = i
  · subst hj
    grind
  · grind

theorem Exact.assign (h : w.Exact) (key : TileKey) (i : ℕ) : (w.assignTileToSlot key i).Exact := by
  refine ⟨h.truthful.assign key i, fun k => ?_⟩
  by_cases hv : key ∈ w.tiles ∧ i < w.slots.length
  · rw [stale_assignTileToSlot hv.1 hv.2]
    exact fun hk => h.fresh k hk.1
  · rw [assignTileToSlot_invalid hv]
    exact h.fresh k

/-- Assigning tiles one after the other. -/
theorem assignAll_stale : ∀ (es : List (TileKey × ℕ)) {w : WatchWall}, w.Truthful →
    (∀ e ∈ es, e.1 ∈ w.tiles ∧ e.2 < w.slots.length) →
    let w' := es.foldl (fun w e => w.assignTileToSlot e.1 e.2) w
    w'.Truthful ∧ ∀ k, w'.Stale k ↔ w.Stale k ∧ k ∉ es.map Prod.fst := by
  intro es
  induction es with
  | nil => exact fun h _ => ⟨h, fun k => by simp⟩
  | cons e es ih =>
    intro w h hv
    obtain ⟨hkey, hi⟩ := hv e (by simp)
    have hre := Redrawn.assignTileToSlot w e.1 e.2
    obtain ⟨htruth, hstale⟩ := ih (h.assign e.1 e.2) fun e' he' => by
      rw [hre.mem_iff, hre.length_eq]
      exact hv e' (by simp [he'])
    refine ⟨htruth, fun k => ?_⟩
    rw [List.foldl_cons, hstale, stale_assignTileToSlot hkey hi, List.map_cons, List.mem_cons,
      not_or, and_assoc]

end WatchWall

end Meetkit
