import Meetkit.Proofs.WatchSlots

/-! When the two sides of the watch wall agree: a tile says which slot shows it, and
that slot says so too. The actions that only clear and assign keep the agreement. A
swap with an empty slot breaks it, and a new layout forgets what the slots said, so
all its tiles are stale until they are assigned. -/

namespace Meetkit

namespace WatchWall

variable {w w' : WatchWall} {key k : TileKey} {i j : ℕ}

/-! ### The actions -/

theorem shown_modifySlot {f : WatchSlot → WatchSlot}
    (hf : ∀ slot, (f slot).displayedTileKey = slot.displayedTileKey) :
    (w.modifySlot i f).shown j = w.shown j := by
  rw [shown, modifySlot, List.getElem?_modify, shown]
  cases w.slots[j]? with
  | none => rfl
  | some slot => by_cases hj : i = j <;> simp [hj, hf]

theorem display_modifyTile {f : WatchTile → WatchTile}
    (hf : ∀ tile, (f tile).displaySlotIndex = tile.displaySlotIndex) :
    (w.modifyTile key f).display k = w.display k := by
  rw [display, lookup_modifyTile, display]
  cases w.tiles.lookup k with
  | none => simp
  | some tile => by_cases hk : k = key <;> simp [hk, hf]

theorem shown_modifyTile {f : WatchTile → WatchTile} :
    (w.modifyTile key f).shown j = w.shown j := by
  rw [shown, slots_modifyTile, shown]

theorem Exact.reset (h : w.Exact) (i : ℕ) : (w.resetSlot i).Exact := by
  unfold resetSlot
  cases w.pinnedTile i with
  | some key => exact h.assign key i
  | none =>
    refine Exact.clear ?_ i
    split_ifs
    · exact h.congr (fun j => shown_modifySlot fun _ => rfl) fun _ => rfl
    · exact h

theorem Exact.batch (h : w.Exact) : w.applyCarouselBatch.Exact := by
  unfold applyCarouselBatch
  dsimp only
  split_ifs
  · exact h
  · refine List.foldlRecOn _ _ ?_ fun w hw e _ => hw.assign e.1 e.2
    exact List.foldlRecOn _ _ h fun w hw i _ => hw.clear i

theorem Exact.fill (h : w.Exact) : w.fillSlots.Exact := by
  unfold fillSlots
  split_ifs
  · exact h.batch.congr (fun _ => rfl) fun _ => rfl
  · exact List.foldlRecOn _ _ h fun w hw e _ => hw.assign e.1 e.2

theorem Exact.redistribute (h : w.Exact) : w.redistributeSlots.Exact := by
  have hreset : ((List.range w.slots.length).foldl resetSlot w.stopCarouselTimer).Exact := by
    refine List.foldlRecOn _ _ ?_ fun w hw i _ => hw.reset i
    exact h.congr (fun _ => rfl) fun _ => rfl
  exact Exact.fill (hreset.congr (fun _ => rfl) fun _ => rfl)

theorem Exact.startTile (h : w.Exact) (key : TileKey) : (w.startTile key).Exact := by
  unfold WatchWall.startTile
  split_ifs with hguard
  · exact h
  · have hkey : key ∉ w.tiles := fun hk => hguard (Or.inl hk)
    refine Exact.redistribute (h.congr (fun _ => rfl) fun k => ?_)
    rw [display, GoMap.lookup_insert_iff, display]
    by_cases hk : k = key
    · -- a new tile believes nothing
      rw [if_pos hk, hk, AList.lookup_eq_none.2 hkey]
      rfl
    · rw [if_neg hk]

theorem Exact.takeDown (h : w.Exact) (key : TileKey) :
    (w.takeDown key).Exact ∧ (w.takeDown key).display key = none := by
  unfold WatchWall.takeDown
  cases hd : w.display key with
  | none => exact ⟨h, hd⟩
  | some i =>
    refine ⟨h.clear i, ?_⟩
    rw [display_clearSlotDisplay, if_pos ⟨h.shown_iff.2 hd, hd⟩]

/-- A tile that no slot shows can go. -/
theorem Exact.deleteTile (h : w.Exact) (hgone : w.display key = none) :
    (w.deleteTile key).Exact := by
  refine h.congr (fun j => ?_) fun k => ?_
  · rw [shown, WatchWall.deleteTile, List.getElem?_map, shown]
    cases w.slots[j]? with
    | none => rfl
    | some slot =>
      change (if slot.pinnedTileKey = some key then slot.unpin else slot).displayedTileKey = _
      split_ifs <;> rfl
  · rw [display, WatchWall.deleteTile, GoMap.lookup_erase_iff]
    by_cases hk : k = key
    · rw [if_pos hk, hk, hgone]
      rfl
    · rw [if_neg hk, display]

theorem Exact.removeTileEntry (h : w.Exact) (key : TileKey) : (w.removeTileEntry key).Exact := by
  have horder : Exact { w with watchOrder := w.watchOrder.erase key } :=
    h.congr (fun _ => rfl) fun _ => rfl
  obtain ⟨hdown, hgone⟩ := horder.takeDown key
  exact (hdown.deleteTile hgone).redistribute

theorem Exact.togglePinSlot (h : w.Exact) (i : ℕ) : (w.togglePinSlot i).Exact := by
  unfold WatchWall.togglePinSlot
  cases w.shown i with
  | none => exact h
  | some key =>
    have hpin : ∀ (f : WatchSlot → WatchSlot) (g : WatchTile → WatchTile),
        (∀ slot, (f slot).displayedTileKey = slot.displayedTileKey) →
        (∀ tile, (g tile).displaySlotIndex = tile.displaySlotIndex) →
        ((w.modifySlot i f).modifyTile key g).Exact := fun f g hf hg =>
      h.congr (fun j => by rw [shown_modifyTile, shown_modifySlot hf])
        fun k => by rw [display_modifyTile hg]; rfl
    have hunpin := hpin WatchSlot.unpin WatchTile.unpin (fun _ => rfl) fun _ => rfl
    dsimp only
    split_ifs
    · exact hunpin.congr (fun _ => rfl) fun _ => rfl
    · exact hunpin
    · exact h
    · exact (hpin (·.pin key) (·.pin i) (fun _ => rfl) fun _ => rfl).redistribute

theorem Exact.carouselTick (h : w.Exact) : w.carouselTick.Exact := by
  unfold WatchWall.carouselTick
  split_ifs
  · exact h
  · exact h.congr (fun _ => rfl) fun _ => rfl
  · exact Exact.batch (h.congr (fun _ => rfl) fun _ => rfl)

theorem swapped_eq {a b : ℤ} {a' b' : ℕ} (h : w.swapped a b = some (a', b')) :
    a' < w.slots.length ∧ b' < w.slots.length ∧ a' ≠ b' := by
  unfold swapped at h
  split_ifs at h with hab hrange
  simp only [Option.some.injEq, Prod.mk.injEq] at h
  omega

section Swap

variable {a b : ℤ} {a' b' : ℕ} (h : w.Exact) (hswap : w.swapped a b = some (a', b'))
include h hswap

/-- Two tiles change places. -/
theorem Exact.swap {keyA keyB : TileKey} (hA : w.shown a' = some keyA)
    (hB : w.shown b' = some keyB) : (w.swapSlots a b).Exact := by
  obtain ⟨ha, hb, hab⟩ := swapped_eq hswap
  have hdA := h.truthful _ _ hA
  have hdB := h.truthful _ _ hB
  have hne : keyA ≠ keyB := by
    rintro rfl
    exact hab (Option.some.inj (hdA.symm.trans hdB))
  set w1 := (w.setShown a' (some keyB)).setShown b' (some keyA) with hw1
  have hlen : (w.setShown a' (some keyB)).slots.length = w.slots.length :=
    (Redrawn.setShown w a' (some keyB)).length_eq
  have hs1 : ∀ j, w1.shown j =
      if j = b' then some keyA else if j = a' then some keyB else w.shown j := fun j => by
    rw [hw1, shown_setShown, shown_setShown, hlen]
    simp only [ha, hb, and_true]
  set w2 := (w1.setDisplay keyA (some b')).setDisplay keyB (some a') with hw2
  have hs2 : ∀ j, w2.shown j = w1.shown j := fun j => by
    rw [hw2, shown_setDisplay, shown_setDisplay]
  have hmemA : keyA ∈ w1.tiles := display_mem (w := w) hdA
  have hmemB : keyB ∈ (w1.setDisplay keyA (some b')).tiles :=
    (Redrawn.setDisplay w1 keyA _).mem_iff.2 (display_mem (w := w) hdB)
  have hd2 : ∀ k, w2.display k =
      if k = keyB then some a' else if k = keyA then some b' else w.display k := fun k => by
    rw [hw2, display_setDisplay hmemB, display_setDisplay hmemA, hw1, display_setShown,
      display_setShown]
  have hsA : w2.shown a' = some keyB := by rw [hs2, hs1, if_neg hab, if_pos rfl]
  have hsB : w2.shown b' = some keyA := by rw [hs2, hs1, if_pos rfl]
  have hpresA : w2.applySlotPresentation a' = w2 :=
    applySlotPresentation_of_shown hsA ((Redrawn.setDisplay _ _ _).mem_iff.2 hmemB)
  have hpresB : w2.applySlotPresentation b' = w2 :=
    applySlotPresentation_of_shown hsB
      (((Redrawn.setDisplay _ _ _).trans (Redrawn.setDisplay _ _ _)).mem_iff.2 hmemA)
  have heq : w.swapSlots a b = w2 := by
    simp [swapSlots, hswap, hA, hB, moveDisplay, present, ← hw1, ← hw2, hpresA, hpresB]
  rw [heq]
  refine exact_of_shown_iff fun k i => ?_
  rw [hs2, hs1, hd2]
  have hiff : w.shown i = some k ↔ w.display k = some i := h.shown_iff
  have hiA : w.shown a' = some k ↔ w.display k = some a' := h.shown_iff
  have hiB : w.shown b' = some k ↔ w.display k = some b' := h.shown_iff
  grind

/-- A tile that is dropped on an empty slot is shown there and does not know. -/
theorem swapSlots_empty {key : TileKey}
    (hone : w.shown a' = some key ∧ w.shown b' = none ∨ w.shown a' = none ∧ w.shown b' = some key) :
    ¬(w.swapSlots a b).Mirrors := by
  obtain ⟨ha, hb, hab⟩ := swapped_eq hswap
  have hmem : key ∈ w.tiles := by
    rcases hone with ⟨hs, -⟩ | ⟨-, hs⟩ <;> exact display_mem (h.truthful _ _ hs)
  suffices ∃ i, Redrawn w (w.swapSlots a b) ∧ (w.swapSlots a b).display key = none ∧
      (w.swapSlots a b).shown i = some key by
    obtain ⟨i, hre, hd, hs⟩ := this
    intro hm
    rw [← hm key (hre.mem_iff.2 hmem) i, hd] at hs
    cases hs
  rcases hone with ⟨hA, hB⟩ | ⟨hA, hB⟩
  · set w1 := (w.setShown a' none).setShown b' (some key) with hw1
    set w2 := (w1.setDisplay key none).clearSlotDisplay a' with hw2
    have hre : Redrawn w w2 := ((Redrawn.setShown _ _ _).trans (Redrawn.setShown _ _ _)).trans
      ((Redrawn.setDisplay _ _ _).trans (Redrawn.clearSlotDisplay _ _))
    have hs : w2.shown b' = some key := by
      rw [hw2, shown_clearSlotDisplay, if_neg (Ne.symm hab), shown_setDisplay, hw1, shown_setShown,
        if_pos ⟨rfl, (Redrawn.setShown w a' none).length_eq ▸ hb⟩]
    have hd : w2.display key = none := by
      rw [hw2, display_clearSlotDisplay, display_setDisplay_none, if_pos rfl, ite_self]
    have heq : w.swapSlots a b = w2 := by
      have hpres := applySlotPresentation_of_shown hs (hre.mem_iff.2 hmem)
      simp [swapSlots, hswap, hA, hB, moveDisplay, present, ← hw1, ← hw2, hpres]
    exact ⟨b', heq ▸ hre, heq ▸ hd, heq ▸ hs⟩
  · set w1 := (w.setShown a' (some key)).setShown b' none with hw1
    set w2 := w1.setDisplay key none with hw2
    have hre : Redrawn w w2 := ((Redrawn.setShown _ _ _).trans (Redrawn.setShown _ _ _)).trans
      (Redrawn.setDisplay _ _ _)
    have hs : w2.shown a' = some key := by
      rw [hw2, shown_setDisplay, hw1, shown_setShown_none, if_neg hab, shown_setShown,
        if_pos ⟨rfl, ha⟩]
    have hd : w2.display key = none := by rw [hw2, display_setDisplay_none, if_pos rfl]
    have heq : w.swapSlots a b = w2.clearSlotDisplay b' := by
      have hpres := applySlotPresentation_of_shown hs (hre.mem_iff.2 hmem)
      simp [swapSlots, hswap, hA, hB, moveDisplay, present, ← hw1, ← hw2, hpres]
    refine ⟨a', heq ▸ hre.trans (Redrawn.clearSlotDisplay _ _), ?_, ?_⟩
    · rw [heq, display_clearSlotDisplay, hd, ite_self]
    · rw [heq, shown_clearSlotDisplay, if_neg hab, hs]

end Swap

/-! ### The watch order -/

/-- The watch order lists the tiles. -/
def Ordered (w : WatchWall) : Prop := w.watchOrder.Perm w.tiles.keys

theorem Ordered.redrawn (h : w.Ordered) (hre : Redrawn w w') : w'.Ordered := by
  unfold Ordered
  rw [hre.order]
  exact h.trans hre.keys.symm

theorem Ordered.modifyTile (h : w.Ordered) (key : TileKey) (f : WatchTile → WatchTile) :
    (w.modifyTile key f).Ordered := by
  unfold Ordered
  rw [watchOrder_modifyTile]
  exact h.trans (keys_modifyTile f).symm

theorem Ordered.reset (h : w.Ordered) (i : ℕ) : (w.resetSlot i).Ordered := by
  unfold resetSlot
  cases w.pinnedTile i with
  | some key => exact h.redrawn (Redrawn.assignTileToSlot w key i)
  | none =>
    refine Ordered.redrawn ?_ (Redrawn.clearSlotDisplay _ i)
    split_ifs <;> exact h

theorem redrawn_assignAll (es : List (TileKey × ℕ)) (w : WatchWall) :
    Redrawn w (es.foldl (fun w e => w.assignTileToSlot e.1 e.2) w) :=
  (Redrawn.stable w).assignAll (Redrawn.refl w) es

theorem redrawn_batch (w : WatchWall) : Redrawn w w.applyCarouselBatch :=
  (Redrawn.stable w).batch (Redrawn.refl w)

theorem redrawn_fillSlots (w : WatchWall) : Redrawn w w.fillSlots := by
  unfold fillSlots
  split_ifs
  · obtain ⟨horder, hlayout, hkeys, hslots, htiles⟩ := redrawn_batch w
    exact ⟨horder, hlayout, hkeys, hslots, htiles⟩
  · exact redrawn_assignAll _ _

theorem Ordered.redistribute (h : w.Ordered) : w.redistributeSlots.Ordered := by
  have hreset : ((List.range w.slots.length).foldl resetSlot w.stopCarouselTimer).Ordered :=
    List.foldlRecOn _ _ h fun w hw i _ => hw.reset i
  set w1 := (List.range w.slots.length).foldl resetSlot w.stopCarouselTimer
  have hzero : Ordered { w1 with carouselBatchIndex := 0 } := hreset
  exact hzero.redrawn (redrawn_fillSlots _)

theorem Ordered.startTile (h : w.Ordered) (key : TileKey) : (w.startTile key).Ordered := by
  unfold WatchWall.startTile
  split_ifs with hguard
  · exact h
  · refine Ordered.redistribute ?_
    have hkey : key ∉ w.tiles.keys := fun hk => hguard (Or.inl hk)
    change (w.watchOrder ++ [key]).Perm (w.tiles.insert key {}).keys
    rw [AList.keys_insert, List.erase_of_not_mem hkey]
    exact (List.perm_append_singleton _ _).trans (h.cons key)

theorem Ordered.removeTileEntry (h : w.Ordered) (key : TileKey) :
    (w.removeTileEntry key).Ordered := by
  refine Ordered.redistribute ?_
  set w1 : WatchWall := { w with watchOrder := w.watchOrder.erase key } with hw1
  have hre : Redrawn w1 (w1.takeDown key) := by
    unfold WatchWall.takeDown
    split
    · exact Redrawn.clearSlotDisplay _ _
    · exact Redrawn.refl _
  change (w1.takeDown key).watchOrder.Perm ((w1.takeDown key).tiles.erase key).keys
  rw [hre.order, AList.keys_erase]
  exact (h.erase key).trans (hre.keys.erase key).symm

theorem Ordered.togglePinSlot (h : w.Ordered) (i : ℕ) : (w.togglePinSlot i).Ordered := by
  unfold WatchWall.togglePinSlot
  cases w.shown i with
  | none => exact h
  | some key =>
    have hpin : ∀ (f : WatchSlot → WatchSlot) (g : WatchTile → WatchTile),
        ((w.modifySlot i f).modifyTile key g).Ordered := fun f g =>
      Ordered.modifyTile (w := w.modifySlot i f) h key g
    dsimp only
    split_ifs
    · exact hpin _ _
    · exact hpin _ _
    · exact h
    · exact (hpin _ _).redistribute

theorem redrawn_swapSlots (w : WatchWall) (a b : ℤ) : Redrawn w (w.swapSlots a b) :=
  (Redrawn.stable w).swapSlots (Redrawn.refl w) a b

theorem Ordered.clearAllPins (h : w.Ordered) : w.clearAllPins.Ordered :=
  List.foldlRecOn _ _ h fun _ hw key _ => hw.modifyTile key _

theorem Ordered.setLayoutKey (h : w.Ordered) (l : String) : (w.setLayoutKey l).Ordered := by
  unfold WatchWall.setLayoutKey
  split_ifs
  · exact h
  · exact Ordered.redistribute (Ordered.clearAllPins (w := { w with currentLayoutKey := l }) h)

theorem Ordered.carouselTick (h : w.Ordered) : w.carouselTick.Ordered := by
  unfold WatchWall.carouselTick
  have hnext : Ordered { w with carouselBatchIndex := w.carouselBatchIndex + 1 } := h
  split_ifs
  · exact h
  · exact h
  · exact hnext.redrawn (redrawn_batch _)

theorem Ordered.step (h : w.Ordered) (a : WatchAction) : (w.step a).Ordered := by
  cases a with
  | startTile key => exact h.startTile key
  | removeTileEntry key => exact h.removeTileEntry key
  | togglePinSlot i => exact h.togglePinSlot i
  | swapSlots a b => exact h.redrawn (redrawn_swapSlots w a b)
  | setLayoutKey l => exact h.setLayoutKey l
  | carouselTick => exact h.carouselTick

/-! ### A new layout -/

/-- New slots for tiles none of which is pinned. -/
structure Blank (w : WatchWall) : Prop where
  shown : ∀ i, w.shown i = none
  pinned : ∀ i, w.pinned i = false
  tiles : ∀ k, (w.tiles.lookup k).all (·.pinnedSlotIndex.isNone)
  ordered : w.Ordered
  capacity : w.slots.length = w.getLayoutCapacity

namespace Blank

theorem getUnpinnedTileKeys_eq (h : w.Blank) : w.getUnpinnedTileKeys = w.watchOrder := by
  refine List.filter_eq_self.2 fun k hk => ?_
  have hmem : k ∈ w.tiles := h.ordered.mem_iff.1 hk
  obtain ⟨tile, htile⟩ := Option.isSome_iff_exists.1 (AList.lookup_isSome.2 hmem)
  have hpin := h.tiles k
  rw [htile] at hpin ⊢
  exact hpin

theorem getCarouselSlotIndices_eq (h : w.Blank) :
    w.getCarouselSlotIndices = List.range w.getLayoutCapacity := by
  rw [getCarouselSlotIndices, h.capacity]
  exact List.filter_eq_self.2 fun i _ => by rw [h.pinned]; rfl

theorem truthful (h : w.Blank) : w.Truthful := fun k i hs => by
  rw [h.shown] at hs
  cases hs

theorem stale_iff (h : w.Blank) : w.Stale k ↔ w.display k ≠ none := by
  unfold Stale
  simp only [h.shown, ne_eq, reduceCtorEq, not_false_eq_true, and_true]
  exact Option.ne_none_iff_exists'.symm

/-- Redrawing that leaves the slots as they are. -/
theorem redrawn (h : w.Blank) (hre : Redrawn w w') (hs : ∀ i, w'.shown i = none) : w'.Blank where
  shown := hs
  pinned i := (hre.pinned_eq i).trans (h.pinned i)
  tiles k := by
    have hk := congrArg (fun o => o.all Option.isNone) (hre.tilePins k)
    simp only [Option.all_map] at hk
    exact hk.trans (h.tiles k)
  ordered := h.ordered.redrawn hre
  capacity := by rw [hre.length_eq, h.capacity, getLayoutCapacity, getLayoutCapacity, hre.layout]

/-- There is nothing to clear. -/
theorem clear (h : w.Blank) (i : ℕ) :
    (w.clearSlotDisplay i).Blank ∧ ∀ k, (w.clearSlotDisplay i).display k = w.display k := by
  refine ⟨h.redrawn (Redrawn.clearSlotDisplay w i) fun j => ?_, fun k => ?_⟩
  · rw [shown_clearSlotDisplay, h.shown, ite_self]
  · rw [display_clearSlotDisplay, h.shown, if_neg (fun hk => by cases hk.1)]

theorem reset (h : w.Blank) (i : ℕ) : w.resetSlot i = w.clearSlotDisplay i := by
  have hslot : w.slots[i]?.filter (·.pinned) = none := by
    have hi := h.pinned i
    unfold WatchWall.pinned at hi
    cases hslot : w.slots[i]? with
    | none => rfl
    | some slot =>
      rw [hslot] at hi
      exact Option.filter_some_neg (by simpa using hi)
  rw [resetSlot, pinnedTile, hslot]
  simp [h.pinned]

/-- The loops over the slots change nothing either map says. -/
theorem foldl {f : WatchWall → ℕ → WatchWall}
    (hf : ∀ w i, w.Blank → f w i = w.clearSlotDisplay i) (l : List ℕ) (h : w.Blank) :
    (l.foldl f w).Blank ∧ Redrawn w (l.foldl f w) ∧
      ∀ k, (l.foldl f w).display k = w.display k := by
  refine List.foldlRecOn (motive := fun w' => w'.Blank ∧ Redrawn w w' ∧
    ∀ k, w'.display k = w.display k) l f ⟨h, Redrawn.refl w, fun _ => rfl⟩ ?_
  rintro w' ⟨hblank, hre, hd⟩ i -
  rw [hf w' i hblank]
  obtain ⟨hclear, hsame⟩ := hblank.clear i
  exact ⟨hclear, hre.trans (Redrawn.clearSlotDisplay _ _), fun k => (hsame k).trans (hd k)⟩

/-- The tiles at `keys` are assigned, the others are as stale as they were. -/
theorem assignAll (h : w.Blank) {keys : List TileKey} (hkeys : ∀ k ∈ keys, k ∈ w.tiles)
    (hlen : keys.length ≤ w.getLayoutCapacity) :
    let w' := (keys.zip (List.range w.getLayoutCapacity)).foldl
      (fun w e => w.assignTileToSlot e.1 e.2) w
    w'.Truthful ∧ ∀ k, w'.Stale k ↔ w.display k ≠ none ∧ k ∉ keys := by
  have hvalid : ∀ e ∈ keys.zip (List.range w.getLayoutCapacity),
      e.1 ∈ w.tiles ∧ e.2 < w.slots.length := fun e he => by
    obtain ⟨hkey, hi⟩ := List.of_mem_zip he
    rw [h.capacity]
    exact ⟨hkeys _ hkey, List.mem_range.1 hi⟩
  obtain ⟨htruth, hstale⟩ := assignAll_stale _ h.truthful hvalid
  refine ⟨htruth, fun k => ?_⟩
  rw [hstale, h.stale_iff, List.map_fst_zip (by simpa using hlen)]

end Blank

/-- The first `m` entries read one by one. -/
theorem filterMap_range_getElem? {α : Type} (l : List α) (m : ℕ) :
    (List.range m).filterMap (fun j => l[j]?) = l.take m := by
  induction m with
  | zero => rfl
  | succ m ih =>
    rw [List.range_succ, List.filterMap_append, ih, List.take_add_one]
    rfl

/-- The first batch is the start of the watch order. -/
theorem Blank.batch (h : w.Blank) (hcarousel : w.needsCarousel = true)
    (hindex : w.carouselBatchIndex = 0) :
    w.applyCarouselBatch.Truthful ∧
      ∀ k, w.applyCarouselBatch.Stale k ↔
        w.display k ≠ none ∧ k ∉ w.watchOrder.take w.getLayoutCapacity := by
  have hlen : w.getLayoutCapacity < w.watchOrder.length := by
    rw [h.ordered.length_eq]
    simpa [needsCarousel] using hcarousel
  unfold applyCarouselBatch
  simp only [h.getCarouselSlotIndices_eq, h.getUnpinnedTileKeys_eq, List.length_range, hindex,
    Nat.zero_mul, Nat.zero_mod, Nat.zero_add]
  have hkeys : (List.range w.getLayoutCapacity).filterMap
      (fun j => w.watchOrder[j % w.watchOrder.length]?) = w.watchOrder.take w.getLayoutCapacity := by
    rw [← filterMap_range_getElem?]
    refine List.filterMap_congr fun j hj => ?_
    rw [Nat.mod_eq_of_lt ((List.mem_range.1 hj).trans hlen)]
  rw [hkeys]
  obtain ⟨hblank, hre, hd⟩ := Blank.foldl (fun _ _ _ => rfl) (List.range w.getLayoutCapacity) h
  split_ifs with hnone
  · -- a layout without slots, or no tile at all
    refine ⟨h.truthful, fun k => ?_⟩
    have htake : w.watchOrder.take w.getLayoutCapacity = [] := by
      rcases hnone with hnone | hnone
      · rw [List.range_eq_nil.1 hnone, List.take_zero]
      · rw [hnone, List.take_nil]
    rw [h.stale_iff, htake, and_iff_left List.not_mem_nil]
  · have hcap := hblank.capacity
    rw [hre.length_eq, h.capacity] at hcap
    have hmem : ∀ k ∈ w.watchOrder.take w.getLayoutCapacity,
        k ∈ ((List.range w.getLayoutCapacity).foldl clearSlotDisplay w).tiles := fun k hk =>
      hre.mem_iff.2 (h.ordered.mem_iff.1 (List.mem_of_mem_take hk))
    have hassign := hblank.assignAll hmem (by rw [← hcap]; exact List.length_take_le _ _)
    rw [← hcap] at hassign
    simpa only [hd] using hassign

theorem Blank.fill (h : w.Blank) (hindex : w.carouselBatchIndex = 0) :
    w.fillSlots.Truthful ∧
      ∀ k, w.fillSlots.Stale k ↔
        w.display k ≠ none ∧ k ∉ w.watchOrder.take w.getLayoutCapacity := by
  unfold fillSlots
  split_ifs with hcarousel
  · obtain ⟨htruth, hstale⟩ := h.batch hcarousel hindex
    exact ⟨htruth, hstale⟩
  · have hlen : w.watchOrder.length ≤ w.getLayoutCapacity := by
      rw [h.ordered.length_eq]
      simpa [needsCarousel] using hcarousel
    rw [h.getUnpinnedTileKeys_eq, h.getCarouselSlotIndices_eq, List.take_of_length_le hlen]
    exact h.assignAll (fun k hk => h.ordered.mem_iff.1 hk) hlen

theorem Blank.redistribute (h : w.Blank) :
    w.redistributeSlots.Truthful ∧
      ∀ k, w.redistributeSlots.Stale k ↔
        w.display k ≠ none ∧ k ∉ w.watchOrder.take w.getLayoutCapacity := by
  have hstop : w.stopCarouselTimer.Blank :=
    ⟨h.shown, h.pinned, h.tiles, h.ordered, h.capacity⟩
  obtain ⟨hblank, hre, hd⟩ :=
    Blank.foldl (fun w i hw => hw.reset i) (List.range w.slots.length) hstop
  set w1 := (List.range w.slots.length).foldl resetSlot w.stopCarouselTimer with hw1
  have hzero : Blank { w1 with carouselBatchIndex := 0 } :=
    ⟨hblank.shown, hblank.pinned, hblank.tiles, hblank.ordered, hblank.capacity⟩
  obtain ⟨htruth, hstale⟩ := hzero.fill rfl
  refine ⟨htruth, fun k => (hstale k).trans ?_⟩
  have hcap : w1.getLayoutCapacity = w.getLayoutCapacity := by
    rw [getLayoutCapacity, hre.layout]
    rfl
  have horder : w1.watchOrder = w.watchOrder := hre.order
  rw [← hcap, ← horder]
  exact and_congr_left' (not_congr (iff_of_eq (congrArg (· = none) (hd k))))

/-- After `clearAllPins` no tile is pinned, and nothing else about a tile has changed. -/
theorem clearAllPins_spec (w : WatchWall) :
    w.clearAllPins.currentLayoutKey = w.currentLayoutKey ∧
      w.clearAllPins.watchOrder = w.watchOrder ∧
      ∀ k, w.clearAllPins.tiles.lookup k = (w.tiles.lookup k).map WatchTile.unpin := by
  have hfold : ∀ (keys : List TileKey) (w : WatchWall),
      let w' := keys.foldl (fun w key => w.modifyTile key WatchTile.unpin) w
      w'.currentLayoutKey = w.currentLayoutKey ∧ w'.watchOrder = w.watchOrder ∧
        ∀ k, w'.tiles.lookup k =
          if k ∈ keys then (w.tiles.lookup k).map WatchTile.unpin else w.tiles.lookup k := by
    intro keys
    induction keys with
    | nil => exact fun w => ⟨rfl, rfl, fun k => rfl⟩
    | cons key keys ih =>
      intro w
      obtain ⟨hlayout, horder, htiles⟩ := ih (w.modifyTile key WatchTile.unpin)
      refine ⟨hlayout.trans (currentLayoutKey_modifyTile _),
        horder.trans (watchOrder_modifyTile _), fun k => ?_⟩
      rw [List.foldl_cons, htiles, lookup_modifyTile]
      simp only [List.mem_cons]
      by_cases hk : k = key
      · rw [if_pos hk, Option.map_map, if_pos (Or.inl hk)]
        exact ite_self _
      · rw [if_neg hk]
        simp only [hk, false_or]
  obtain ⟨hlayout, horder, htiles⟩ :=
    hfold w.tiles.keys { w with slots := w.slots.map WatchSlot.unpin }
  refine ⟨hlayout, horder, fun k => (htiles k).trans ?_⟩
  by_cases hk : k ∈ w.tiles.keys
  · rw [if_pos hk]
  · rw [if_neg hk, AList.lookup_eq_none.2 hk]
    rfl

/-- The wall with a new layout before its tiles are distributed. -/
def newLayout (w : WatchWall) (layoutKey : String) : WatchWall :=
  { { w with currentLayoutKey := layoutKey }.clearAllPins with
    carouselBatchIndex := 0 }.renderWatchSlots

theorem setLayoutKey_eq {l : String} (hl : layoutCapacities.lookup l ≠ none)
    (hne : l ≠ w.currentLayoutKey) : w.setLayoutKey l = (w.newLayout l).redistributeSlots := by
  rw [WatchWall.setLayoutKey, if_neg]
  · rfl
  · rintro (h | h)
    exacts [hl h, hne h]

/-- The slots are new, and what the tiles believe is old. -/
theorem newLayout_spec (h : w.Ordered) (l : String) : (w.newLayout l).Blank ∧
    (w.newLayout l).currentLayoutKey = l ∧ (w.newLayout l).watchOrder = w.watchOrder ∧
    ∀ k, (w.newLayout l).display k = w.display k := by
  set w1 := { w with currentLayoutKey := l }.clearAllPins with hw1
  obtain ⟨hlayout, horder, htiles⟩ := clearAllPins_spec { w with currentLayoutKey := l }
  rw [← hw1] at hlayout horder htiles
  have hordered : w1.Ordered := Ordered.clearAllPins (w := { w with currentLayoutKey := l }) h
  set w2 := w.newLayout l with hw2
  have hslots : w2.slots = List.replicate w2.getLayoutCapacity { pinned := false } := rfl
  have hslot : ∀ (i : ℕ) (slot : WatchSlot), w2.slots[i]? = some slot →
      slot = { pinned := false } := fun i slot hslot => by
    rw [hslots, List.getElem?_replicate] at hslot
    split_ifs at hslot
    exact (Option.some.inj hslot).symm
  have hblank : w2.Blank :=
    { shown := fun i => by
        rw [shown]
        cases hs : w2.slots[i]? with
        | none => rfl
        | some slot => rw [hslot i slot hs]; rfl
      pinned := fun i => by
        rw [WatchWall.pinned]
        cases hs : w2.slots[i]? with
        | none => rfl
        | some slot => rw [hslot i slot hs]; rfl
      tiles := fun k => by
        change (w1.tiles.lookup k).all _ = true
        rw [htiles, Option.all_map]
        cases w.tiles.lookup k <;> rfl
      ordered := hordered
      capacity := List.length_replicate }
  refine ⟨hblank, hlayout, horder, fun k => ?_⟩
  change (w1.tiles.lookup k).bind _ = (w.tiles.lookup k).bind _
  rw [htiles]
  change ((w.tiles.lookup k).map _).bind _ = _
  cases w.tiles.lookup k <;> rfl

/-- A new layout leaves stale the tiles that were shown and are not in its first batch. -/
theorem setLayoutKey_spec (h : w.Ordered) {l : String} {capacity : ℕ}
    (hl : layoutCapacities.lookup l = some capacity) (hne : l ≠ w.currentLayoutKey) :
    (w.setLayoutKey l).Truthful ∧
      ∀ k, (w.setLayoutKey l).Stale k ↔ w.display k ≠ none ∧ k ∉ w.watchOrder.take capacity := by
  rw [setLayoutKey_eq (by rw [hl]; exact nofun) hne]
  obtain ⟨hblank, hlayout, horder, hd⟩ := newLayout_spec h l
  obtain ⟨htruth, hstale⟩ := hblank.redistribute
  refine ⟨htruth, fun k => (hstale k).trans ?_⟩
  have hcap : (w.newLayout l).getLayoutCapacity = capacity := by
    rw [getLayoutCapacity, hlayout, hl]
    rfl
  rw [hcap, hd, horder]

end WatchWall

open WatchWall

/-- A swap that goes through exchanges two tiles, and a new layout comes when no tile
beyond its capacity is shown. -/
def Tidy (w : WatchWall) : WatchAction → Prop
  | .swapSlots indexA indexB => ∀ a b, w.swapped indexA indexB = some (a, b) →
      ((w.shown a).isSome ↔ (w.shown b).isSome)
  | .setLayoutKey layoutKey => ∀ capacity, layoutCapacities.lookup layoutKey = some capacity →
      layoutKey ≠ w.currentLayoutKey → ∀ k ∈ w.watchOrder.drop capacity, w.display k = none
  | _ => True

theorem exact_step (w : WatchWall) (a : WatchAction) (htidy : Tidy w a) (hord : w.Ordered)
    (h : w.Exact) : (w.step a).Exact := by
  cases a with
  | startTile key => exact h.startTile key
  | removeTileEntry key => exact h.removeTileEntry key
  | togglePinSlot i => exact h.togglePinSlot i
  | carouselTick => exact h.carouselTick
  | swapSlots a b =>
    change (w.swapSlots a b).Exact
    cases hswap : w.swapped a b with
    | none => rwa [swapSlots, hswap]
    | some p =>
      obtain ⟨a', b'⟩ := p
      have hboth := htidy a' b' hswap
      cases hA : w.shown a' with
      | none =>
        have hB : w.shown b' = none := by
          rw [hA] at hboth
          simpa using hboth
        rw [swapSlots, hswap]
        simpa [hA, hB] using h
      | some keyA =>
        rw [hA] at hboth
        obtain ⟨keyB, hB⟩ := Option.isSome_iff_exists.1 (hboth.1 rfl)
        exact h.swap hswap hA hB
  | setLayoutKey l =>
    change (w.setLayoutKey l).Exact
    by_cases hkeep : layoutCapacities.lookup l = none ∨ l = w.currentLayoutKey
    · rwa [setLayoutKey, if_pos hkeep]
    obtain ⟨hl, hne⟩ := not_or.1 hkeep
    obtain ⟨capacity, hcap⟩ := Option.ne_none_iff_exists'.1 hl
    obtain ⟨htruth, hstale⟩ := setLayoutKey_spec hord hcap hne
    refine ⟨htruth, fun k hk => ?_⟩
    obtain ⟨hd, hk⟩ := (hstale k).1 hk
    obtain ⟨i, hd'⟩ := Option.ne_none_iff_exists'.1 hd
    have hmem : k ∈ w.watchOrder := hord.mem_iff.2 (display_mem hd')
    rw [← List.take_append_drop capacity w.watchOrder, List.mem_append] at hmem
    rcases hmem with hmem | hmem
    · exact hk hmem
    · exact hd (htidy capacity hcap hne k hmem)

theorem tidy_of_mirrors (w : WatchWall) (a : WatchAction) (hord : w.Ordered) (h : w.Exact)
    (hm : (w.step a).Mirrors) : Tidy w a := by
  cases a with
  | startTile | removeTileEntry | togglePinSlot | carouselTick => trivial
  | swapSlots a b =>
    intro a' b' hswap
    have hempty : ∀ key, ¬(w.shown a' = some key ∧ w.shown b' = none ∨
        w.shown a' = none ∧ w.shown b' = some key) := fun key hone =>
      swapSlots_empty h hswap hone hm
    cases hA : w.shown a' with
    | none =>
      cases hB : w.shown b' with
      | none => rfl
      | some key => exact absurd (Or.inr ⟨hA, hB⟩) (hempty key)
    | some key =>
      cases hB : w.shown b' with
      | none => exact absurd (Or.inl ⟨hA, hB⟩) (hempty key)
      | some key' => simp
  | setLayoutKey l =>
    intro capacity hcap hne k hk
    by_contra hd
    obtain ⟨-, hstale⟩ := setLayoutKey_spec hord hcap hne
    refine hm.fresh k ((hstale k).2 ⟨hd, fun htake => ?_⟩)
    have hnodup : w.watchOrder.Nodup := hord.nodup_iff.2 w.tiles.keys_nodup
    rw [← List.take_append_drop capacity w.watchOrder, List.nodup_append] at hnodup
    exact hnodup.2.2 k htake k hk rfl

theorem ordered_run (actions : List WatchAction) : (wall.run actions).Ordered :=
  Machine.run_invariant (M := wall) (P := Ordered) (List.Perm.refl _) (fun _ a h => h.step a) actions

theorem exact_init : wall.init.Exact := by
  have hshown : ∀ i, wall.init.shown i = none := fun i => by
    rw [shown]
    change ((List.replicate 4 { pinned := false } : List WatchSlot)[i]?).bind _ = none
    rw [List.getElem?_replicate]
    split_ifs <;> rfl
  refine exact_of_shown_iff fun k i => ?_
  rw [hshown]
  exact ⟨fun h => (by cases h), fun h => (by cases h)⟩

theorem exact_run {actions : List WatchAction} (hg : wall.Guarded Tidy actions) :
    (wall.run actions).Exact :=
  Machine.guarded_invariant_of ordered_run exact_init exact_step hg

/-- The tiles and the slots of the watch wall agree all along a run of actions if and
only if each swap exchanges two tiles and each new layout has room for the tiles shown. -/
theorem watch_wall_mirrors_iff (actions : List WatchAction) :
    (∀ pre, pre <+: actions → (wall.run pre).Mirrors) ↔ wall.Guarded Tidy actions :=
  Machine.guarded_iff (P := Exact) ordered_run exact_init exact_step tidy_of_mirrors
    (fun _ h => h.mirrors) actions

/-- One tile in the first slot, dropped on the second. -/
theorem dropped_tile_is_lost :
    ¬∀ actions : List WatchAction, (wall.run actions).Mirrors := by
  intro h
  have hmirror := h [.startTile "r:u:cam", .swapSlots 0 1] "r:u:cam" (by decide +kernel) 1
  exact absurd hmirror (by decide +kernel)

-- the fifth tile of a smaller layout believes to be in a slot that is not there any more
example : let w := wall.run [.setLayoutKey "2x3", .startTile "a", .startTile "b", .startTile "c",
      .startTile "d", .startTile "e", .setLayoutKey "2x2"]
    w.display "e" = some 4 ∧ w.slots.length = 4 := by decide +kernel

end Meetkit
