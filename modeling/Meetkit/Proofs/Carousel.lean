import Mathlib.Data.List.Perm.Subperm
import Mathlib.Logic.Function.Iterate
import Meetkit.Proofs.Pins

/-! What the carousel shows. A batch first clears the slots that are not pinned, so that
no slot shows a tile that is not pinned any more, and then lays a window of the watch
order over them. The batches are windows laid end to end, and after a full turn every
tile has been in one. -/

namespace Meetkit

namespace WatchWall

variable {w w' : WatchWall} {key k : TileKey} {i j : ℕ}

/-! ### Assigning tiles that no slot shows -/

theorem shown_clearAll (is : List ℕ) : ∀ {w : WatchWall},
    (is.foldl clearSlotDisplay w).shown j = if j ∈ is then none else w.shown j := by
  induction is with
  | nil => intro w; simp
  | cons i is ih =>
    intro w
    rw [List.foldl_cons, ih, shown_clearSlotDisplay]
    by_cases hj : j ∈ is
    · rw [if_pos hj, if_pos (List.mem_cons_of_mem i hj)]
    · rw [if_neg hj]
      simp only [List.mem_cons, hj, or_false]

/-- Each slot shows the tile it got and the other slots what they showed. -/
theorem shown_assignAll : ∀ (es : List (TileKey × ℕ)) {w : WatchWall},
    (es.map Prod.fst).Nodup → (es.map Prod.snd).Nodup →
    (∀ e ∈ es, e.1 ∈ w.tiles ∧ e.2 < w.slots.length) → (∀ e ∈ es, ∀ j, w.shown j ≠ some e.1) →
    let w' := es.foldl (fun w e => w.assignTileToSlot e.1 e.2) w
    (∀ e ∈ es, w'.shown e.2 = some e.1) ∧ ∀ j, j ∉ es.map Prod.snd → w'.shown j = w.shown j := by
  intro es
  induction es with
  | nil => exact fun _ _ _ _ => ⟨fun e he => absurd he List.not_mem_nil, fun _ _ => rfl⟩
  | cons e es ih =>
    intro w hkeys hslots hv hnew
    rw [List.map_cons, List.nodup_cons] at hkeys hslots
    obtain ⟨hkey, hi⟩ := hv e List.mem_cons_self
    have hre := Redrawn.assignTileToSlot w e.1 e.2
    -- nothing showed the tile, so only its new slot changes
    have hshown : ∀ j, (w.assignTileToSlot e.1 e.2).shown j =
        if j = e.2 then some e.1 else w.shown j := fun j => by
      rw [shown_assignTileToSlot hkey hi, if_neg (c := _ ∧ _) fun h => hnew e List.mem_cons_self j h.1]
    obtain ⟨hes, hother⟩ := ih hkeys.2 hslots.2
      (fun e' he' => by
        rw [hre.mem_iff, hre.length_eq]
        exact hv e' (List.mem_cons_of_mem e he'))
      (fun e' he' j => by
        rw [hshown]
        split_ifs
        · intro heq
          rw [Option.some.inj heq] at hkeys
          exact hkeys.1 (List.mem_map_of_mem he')
        · exact hnew e' (List.mem_cons_of_mem e he') j)
    refine ⟨fun e' he' => ?_, fun j hj => ?_⟩
    · rcases List.mem_cons.1 he' with rfl | he'
      · rw [List.foldl_cons, hother e'.2 hslots.1, hshown, if_pos rfl]
      · exact hes e' he'
    · rw [List.map_cons, List.mem_cons, not_or] at hj
      rw [List.foldl_cons, hother j hj.2, hshown, if_neg hj.1]

/-! ### One batch -/

/-- The pin of a slot and the pin of a tile are one pin, and the slot shows the tile. -/
def PinsShown (w : WatchWall) : Prop :=
  ∀ i slot, w.slots[i]? = some slot → slot.pinned = true → ∃ key tile,
    slot.pinnedTileKey = some key ∧ slot.displayedTileKey = some key ∧
    w.tiles.lookup key = some tile ∧ tile.pinnedSlotIndex = some i

theorem pinned_eq_true : w.pinned i = true ↔ ∃ slot, w.slots[i]? = some slot ∧ slot.pinned = true := by
  rw [pinned, Option.any_eq_true]

theorem PinsShown.shown_ne (h : w.PinsShown) (hi : w.pinned i = true)
    (hk : k ∈ w.getUnpinnedTileKeys) : w.shown i ≠ some k := by
  intro hs
  obtain ⟨slot, hslot, hpin⟩ := pinned_eq_true.1 hi
  obtain ⟨key, tile, -, hshown, htile, hidx⟩ := h i slot hslot hpin
  rw [shown, hslot] at hs
  have hkey : key = k := Option.some.inj (hshown.symm.trans hs)
  obtain ⟨-, -, hnone⟩ := mem_getUnpinnedTileKeys.1 hk
  rw [← hkey, pinSlot, htile, Option.bind_some, hidx] at hnone
  cases hnone

/-- What a batch shows in the slots that are not pinned, in their order. -/
def batchKeys (w : WatchWall) : List TileKey :=
  w.getUnpinnedTileKeys.window
    (w.carouselBatchIndex * w.getCarouselSlotIndices.length % w.getUnpinnedTileKeys.length)
    w.getCarouselSlotIndices.length

theorem Ordered.nodup (h : w.Ordered) : w.getUnpinnedTileKeys.Nodup :=
  (h.nodup_iff.2 w.tiles.keys_nodup).filter _

theorem nodup_getCarouselSlotIndices : w.getCarouselSlotIndices.Nodup :=
  List.nodup_range.filter _

section Batch

variable (hslots : 1 ≤ w.getCarouselSlotIndices.length)
  (hmany : w.getCarouselSlotIndices.length ≤ w.getUnpinnedTileKeys.length)
include hslots hmany

theorem length_batchKeys : w.batchKeys.length = w.getCarouselSlotIndices.length :=
  List.length_window (Nat.lt_of_lt_of_le hslots hmany)

variable (hpins : w.PinsShown) (hord : w.Ordered)
include hpins hord

theorem applyCarouselBatch_shown :
    (∀ e ∈ w.batchKeys.zip w.getCarouselSlotIndices, w.applyCarouselBatch.shown e.2 = some e.1) ∧
      ∀ i, w.pinned i = true → w.applyCarouselBatch.shown i = w.shown i := by
  have hlen := length_batchKeys hslots hmany
  have hfst : (w.batchKeys.zip w.getCarouselSlotIndices).map Prod.fst = w.batchKeys :=
    List.map_fst_zip (Nat.le_of_eq hlen)
  have hsnd : (w.batchKeys.zip w.getCarouselSlotIndices).map Prod.snd = w.getCarouselSlotIndices :=
    List.map_snd_zip (Nat.le_of_eq hlen.symm)
  have hbatch : w.applyCarouselBatch =
      (w.batchKeys.zip w.getCarouselSlotIndices).foldl (fun w e => w.assignTileToSlot e.1 e.2)
        (w.getCarouselSlotIndices.foldl clearSlotDisplay w) := by
    refine if_neg ?_
    rw [← List.length_eq_zero_iff, ← List.length_eq_zero_iff]
    omega
  have hre : Redrawn w (w.getCarouselSlotIndices.foldl clearSlotDisplay w) :=
    (Redrawn.stable w).clearAll (Redrawn.refl w) _
  have hkeys : ∀ k ∈ w.batchKeys, k ∈ w.getUnpinnedTileKeys := fun k => List.mem_of_mem_window
  obtain ⟨hes, hother⟩ := shown_assignAll (w.batchKeys.zip w.getCarouselSlotIndices)
    (w := w.getCarouselSlotIndices.foldl clearSlotDisplay w)
    (by
      rw [hfst]
      exact List.nodup_window hord.nodup hmany)
    (by
      rw [hsnd]
      exact nodup_getCarouselSlotIndices)
    (fun e he => by
      obtain ⟨hkey, hi⟩ := List.of_mem_zip he
      rw [hre.mem_iff, hre.length_eq]
      exact ⟨hord.mem_iff.1 (mem_getUnpinnedTileKeys.1 (hkeys _ hkey)).1,
        (mem_getCarouselSlotIndices.1 hi).1⟩)
    (fun e he j => by
      rw [shown_clearAll]
      split_ifs with hj
      · exact (Option.some_ne_none _).symm
      · -- a slot that was not cleared is pinned, or is not there
        by_cases hpin : w.pinned j = true
        · exact hpins.shown_ne hpin (hkeys _ (List.of_mem_zip he).1)
        · rw [mem_getCarouselSlotIndices, not_and, Bool.not_eq_false] at hj
          have hout : w.slots.length ≤ j := by
            by_contra hlt
            exact hpin (hj (Nat.lt_of_not_le hlt))
          rw [shown, List.getElem?_eq_none hout]
          exact (Option.some_ne_none _).symm)
  rw [hbatch]
  refine ⟨hes, fun i hi => ?_⟩
  have hnot : i ∉ w.getCarouselSlotIndices := fun h => by
    rw [(mem_getCarouselSlotIndices.1 h).2] at hi
    cases hi
  rw [hother i (by rwa [hsnd]), shown_clearAll, if_neg hnot]

/-- Each slot that is not pinned shows a tile that is not pinned. -/
theorem applyCarouselBatch_each (hi : i ∈ w.getCarouselSlotIndices) :
    ∃ k ∈ w.getUnpinnedTileKeys, w.applyCarouselBatch.shown i = some k := by
  have hsnd := List.map_snd_zip (Nat.le_of_eq (length_batchKeys hslots hmany).symm)
  rw [← hsnd, List.mem_map] at hi
  obtain ⟨e, he, rfl⟩ := hi
  exact ⟨e.1, List.mem_of_mem_window (List.of_mem_zip he).1,
    (applyCarouselBatch_shown hslots hmany hpins hord).1 e he⟩

theorem applyCarouselBatch_mem (hk : k ∈ w.batchKeys) :
    ∃ i ∈ w.getCarouselSlotIndices, w.applyCarouselBatch.shown i = some k := by
  have hfst := List.map_fst_zip (Nat.le_of_eq (length_batchKeys hslots hmany))
  rw [← hfst, List.mem_map] at hk
  obtain ⟨e, he, rfl⟩ := hk
  exact ⟨e.2, (List.of_mem_zip he).2, (applyCarouselBatch_shown hslots hmany hpins hord).1 e he⟩

end Batch

/-! ### Walls that agree with themselves -/

theorem stable_carousel (w : WatchWall) : Stable fun w' =>
    w'.carouselBatchIndex = w.carouselBatchIndex ∧ w'.carouselTimer = w.carouselTimer where
  setShown _ _ h := h
  setDisplay _ _ h := by
    rw [← h.1, ← h.2, setDisplay]
    unfold modifyTile
    split <;> exact ⟨rfl, rfl⟩

/-- A slot that shows what it showed is the slot it was. -/
theorem slot_eq_of_shown (hslots : w'.slots.map ({ · with displayedTileKey := none }) =
      w.slots.map ({ · with displayedTileKey := none }))
    (hs : w'.shown i = w.shown i) : w'.slots[i]? = w.slots[i]? := by
  have hi := congrArg (fun l : List WatchSlot => l[i]?) hslots
  simp only [List.getElem?_map] at hi
  rw [shown, shown] at hs
  cases h' : w'.slots[i]? with
  | none =>
    cases h : w.slots[i]? with
    | none => rfl
    | some slot =>
      rw [h', h] at hi
      cases hi
  | some slot' =>
    cases h : w.slots[i]? with
    | none =>
      rw [h', h] at hi
      cases hi
    | some slot =>
      rw [h', h] at hi hs
      have hrest := WatchSlot.mk.inj (Option.some.inj hi)
      have hshown : slot'.displayedTileKey = slot.displayedTileKey := hs
      congr 1
      exact WatchSlot.ext hrest.1 hrest.2.1 hshown

/-- What a tile believes and what a slot shows are each other's inverse, each pinned slot
shows the tile it is pinned to, and the watch order lists the tiles. -/
structure Consistent (w : WatchWall) : Prop where
  exact : w.Exact
  pins : w.PinsShown
  ordered : w.Ordered

/-- `w'` is `w` with another batch in the slots that are not pinned. -/
structure Batch (w w' : WatchWall) : Prop where
  each : ∀ i ∈ w.getCarouselSlotIndices, ∃ k ∈ w.getUnpinnedTileKeys, w'.shown i = some k
  distinct : ∀ i ∈ w.getCarouselSlotIndices, ∀ j ∈ w.getCarouselSlotIndices,
    w'.shown i = w'.shown j → i = j
  pinned : ∀ i, w.pinned i = true → w'.slots[i]? = w.slots[i]?
  consistent : w'.Consistent
  redrawn : Redrawn w w'

section Consistent

variable (h : w.Consistent) (hslots : 1 ≤ w.getCarouselSlotIndices.length)
  (hmany : w.getCarouselSlotIndices.length < w.getUnpinnedTileKeys.length)
include h hslots hmany

theorem Consistent.batch : Batch w w.applyCarouselBatch := by
  have hpinned : ∀ i, w.pinned i = true → w.applyCarouselBatch.slots[i]? = w.slots[i]? :=
    fun i hi => slot_eq_of_shown ((SamePins.stable w).batch (SamePins.refl w)).slots
      ((applyCarouselBatch_shown hslots (Nat.le_of_lt hmany) h.pins h.ordered).2 i hi)
  have hre := redrawn_batch w
  refine ⟨fun i => applyCarouselBatch_each hslots (Nat.le_of_lt hmany) h.pins h.ordered,
    fun i hi j hj hij => ?_, hpinned, ⟨h.exact.batch, fun i slot hslot hpin => ?_,
      h.ordered.redrawn hre⟩, hre⟩
  · obtain ⟨k, -, hk⟩ := applyCarouselBatch_each hslots (Nat.le_of_lt hmany) h.pins h.ordered hi
    have hdi := h.exact.batch.truthful k i hk
    have hdj := h.exact.batch.truthful k j (hij ▸ hk)
    exact Option.some.inj (hdi.symm.trans hdj)
  · have hi : w.pinned i = true := by
      rw [← hre.pinned_eq, pinned_eq_true]
      exact ⟨slot, hslot, hpin⟩
    obtain ⟨key, tile, hkey, hshown, htile, hidx⟩ := h.pins i slot (hpinned i hi ▸ hslot) hpin
    have hpins := hre.tilePins key
    rw [htile, Option.map_some, Option.map_eq_some_iff] at hpins
    obtain ⟨tile', htile', hsame⟩ := hpins
    exact ⟨key, tile', hkey, hshown, htile', hsame.trans hidx⟩

end Consistent

/-- What the interval of the carousel does. -/
def nextBatch (w : WatchWall) : WatchWall :=
  { w with carouselBatchIndex := w.carouselBatchIndex + 1 }.applyCarouselBatch

theorem Redrawn.needsCarousel_eq (h : Redrawn w w') : w'.needsCarousel = w.needsCarousel := by
  rw [needsCarousel, needsCarousel, getLayoutCapacity, getLayoutCapacity, h.layout, h.keys.length_eq]

theorem carouselTick_eq_nextBatch (htimer : w.carouselTimer = true)
    (hcarousel : w.needsCarousel = true) : w.carouselTick = w.nextBatch := by
  simp [carouselTick, htimer, hcarousel, nextBatch]

section Turns

variable (h : w.Consistent) (hslots : 1 ≤ w.getCarouselSlotIndices.length)
  (hmany : w.getCarouselSlotIndices.length < w.getUnpinnedTileKeys.length)
include h hslots hmany

theorem Consistent.nextBatch : Batch w w.nextBatch ∧
    w.nextBatch.carouselBatchIndex = w.carouselBatchIndex + 1 ∧
    w.nextBatch.carouselTimer = w.carouselTimer := by
  set v : WatchWall := { w with carouselBatchIndex := w.carouselBatchIndex + 1 }
  have hv : v.Consistent := ⟨h.exact.congr (fun _ => rfl) fun _ => rfl, h.pins, h.ordered⟩
  obtain ⟨heach, hdistinct, hpinned, hcons, hre⟩ := hv.batch hslots hmany
  exact ⟨⟨heach, hdistinct, hpinned, hcons, hre.order, hre.layout, hre.keys, hre.slotPins,
    hre.tilePins⟩, (stable_carousel v).batch ⟨rfl, rfl⟩⟩

theorem Consistent.batches (m : ℕ) : (WatchWall.nextBatch^[m] w).Consistent ∧
    Redrawn w (WatchWall.nextBatch^[m] w) ∧
    (WatchWall.nextBatch^[m] w).carouselBatchIndex = w.carouselBatchIndex + m ∧
    (∀ i, w.pinned i = true → (WatchWall.nextBatch^[m] w).slots[i]? = w.slots[i]?) := by
  induction m with
  | zero => exact ⟨h, Redrawn.refl w, rfl, fun _ _ => rfl⟩
  | succ m ih =>
    obtain ⟨hcons, hre, hidx, hpinned⟩ := ih
    rw [Function.iterate_succ_apply']
    obtain ⟨hbatch, hnext, -⟩ := hcons.nextBatch
      (by rwa [hre.getCarouselSlotIndices_eq])
      (by rwa [hre.getCarouselSlotIndices_eq, hre.getUnpinnedTileKeys_eq])
    refine ⟨hbatch.consistent, hre.trans hbatch.redrawn, ?_, fun i hi => ?_⟩
    · rw [hnext, hidx, Nat.add_assoc]
    · rw [hbatch.pinned i (by rwa [hre.pinned_eq]), hpinned i hi]

theorem Consistent.laterBatch (m : ℕ) : Batch w (WatchWall.nextBatch^[m + 1] w) := by
  obtain ⟨hcons, hre, -, -⟩ := h.batches hslots hmany m
  obtain ⟨hcons', hre', -, hpinned⟩ := h.batches hslots hmany (m + 1)
  have hslots' : (WatchWall.nextBatch^[m] w).getCarouselSlotIndices = w.getCarouselSlotIndices :=
    hre.getCarouselSlotIndices_eq
  have hkeys' : (WatchWall.nextBatch^[m] w).getUnpinnedTileKeys = w.getUnpinnedTileKeys :=
    hre.getUnpinnedTileKeys_eq
  obtain ⟨⟨heach, hdistinct, -, -, -⟩, -⟩ := hcons.nextBatch (by rwa [hslots'])
    (by rwa [hslots', hkeys'])
  rw [hslots', hkeys'] at heach
  rw [hslots'] at hdistinct
  rw [Function.iterate_succ_apply'] at hcons' hre' hpinned ⊢
  exact ⟨heach, hdistinct, hpinned, hcons', hre'⟩

/-- A full turn of batches shows every tile that is not pinned. -/
theorem Consistent.turn (hk : k ∈ w.getUnpinnedTileKeys) :
    ∃ m < (w.getUnpinnedTileKeys.length + w.getCarouselSlotIndices.length - 1) /
        w.getCarouselSlotIndices.length,
      ∃ i ∈ w.getCarouselSlotIndices, (WatchWall.nextBatch^[m + 1] w).shown i = some k := by
  obtain ⟨m, hm, hwindow⟩ :=
    List.exists_mem_window hslots (w.carouselBatchIndex + 1) hk
  obtain ⟨hcons, hre, hidx, -⟩ := h.batches hslots hmany m
  refine ⟨m, hm, ?_⟩
  rw [Function.iterate_succ_apply']
  set u := WatchWall.nextBatch^[m] w with hu
  set v : WatchWall := { u with carouselBatchIndex := u.carouselBatchIndex + 1 } with hv
  have hslots' : v.getCarouselSlotIndices = w.getCarouselSlotIndices :=
    hre.getCarouselSlotIndices_eq
  have hkeys' : v.getUnpinnedTileKeys = w.getUnpinnedTileKeys := hre.getUnpinnedTileKeys_eq
  have hindex : v.carouselBatchIndex = w.carouselBatchIndex + 1 + m := by
    change u.carouselBatchIndex + 1 = _
    omega
  have hbatch : k ∈ v.batchKeys := by
    rwa [batchKeys, hslots', hkeys', hindex]
  have hshown := applyCarouselBatch_mem (w := v) (by rwa [hslots'])
    (by rw [hslots', hkeys']; exact Nat.le_of_lt hmany) hcons.pins hcons.ordered hbatch
  rwa [hslots'] at hshown

/-- The ticks of the timer are batches, one after the other. -/
theorem Consistent.ticks (htimer : w.carouselTimer = true) (hneeds : w.needsCarousel = true) (m : ℕ) :
    wall.runFrom w (List.replicate m .carouselTick) = WatchWall.nextBatch^[m] w ∧
      (WatchWall.nextBatch^[m] w).carouselTimer = true := by
  induction m with
  | zero => exact ⟨rfl, htimer⟩
  | succ m ih =>
    obtain ⟨hrun, hticking⟩ := ih
    obtain ⟨hcons, hre, -, -⟩ := h.batches hslots hmany m
    obtain ⟨-, -, hnext⟩ := hcons.nextBatch (by rwa [hre.getCarouselSlotIndices_eq])
      (by rwa [hre.getCarouselSlotIndices_eq, hre.getUnpinnedTileKeys_eq])
    have htick := carouselTick_eq_nextBatch hticking (hre.needsCarousel_eq.trans hneeds)
    rw [List.replicate_succ', Machine.runFrom_append, hrun, Function.iterate_succ_apply']
    exact ⟨htick, hnext.trans hticking⟩

end Turns

theorem PinsHeld.shown (h : w.PinsHeld) : w.PinsShown := by
  intro i slot hslot hpin
  have hi : w.pinned i = true := pinned_eq_true.2 ⟨slot, hslot, hpin⟩
  obtain ⟨k, hk⟩ := h.agree.keyed i hi
  have hs := h.settled.pinned i hi
  have htile := (h.agree.iff i k).1 hk
  rw [pinSlot, Option.bind_eq_some_iff] at htile
  obtain ⟨tile, htile, hidx⟩ := htile
  rw [hk, WatchWall.shown, hslot] at hs
  rw [pinKey, hslot, Option.filter_some_pos hpin] at hk
  exact ⟨k, tile, hk, hs, htile, hidx⟩

theorem consistent_run {actions : List WatchAction} (hg : wall.Guarded Tidy actions) :
    (wall.run actions).Consistent where
  exact := exact_run hg
  pins := (pinsHeld_run actions).shown
  ordered := ordered_run actions

/-- With `b` slots that are not pinned and more than `b` tiles that are not pinned, each
batch shows `b` of these tiles in these slots, leaves the pinned slots alone, and `⌈n / b⌉`
batches in a row show every tile. -/
theorem carousel_shows_everyone (w : WatchWall) (h : w.Consistent)
    (hslots : 1 ≤ w.getCarouselSlotIndices.length)
    (hmany : w.getCarouselSlotIndices.length < w.getUnpinnedTileKeys.length) :
    Batch w w.applyCarouselBatch ∧ (∀ m, Batch w (nextBatch^[m + 1] w)) ∧
      ∀ k ∈ w.getUnpinnedTileKeys,
        ∃ m < (w.getUnpinnedTileKeys.length + w.getCarouselSlotIndices.length - 1) /
            w.getCarouselSlotIndices.length,
          ∃ i ∈ w.getCarouselSlotIndices, (nextBatch^[m + 1] w).shown i = some k :=
  ⟨h.batch hslots hmany, h.laterBatch hslots hmany, fun _ => h.turn hslots hmany⟩

/-- Four tiles take turns in three slots, two batches a turn, beside a pinned one. -/
theorem carousel_shows_everyone_of_five :
    let w := wall.run [.startTile "a", .startTile "b", .startTile "c", .startTile "d",
      .togglePinSlot 0, .startTile "e"]
    Batch w w.applyCarouselBatch ∧ (∀ m, Batch w (nextBatch^[m + 1] w)) ∧
      ∀ k ∈ ["b", "c", "d", "e"], ∃ m < 2, ∃ i ∈ [1, 2, 3],
        (nextBatch^[m + 1] w).shown i = some k := by
  intro w
  have hslots : w.getCarouselSlotIndices = [1, 2, 3] := by decide +kernel
  have hkeys : w.getUnpinnedTileKeys = ["b", "c", "d", "e"] := by decide +kernel
  have hcons : w.Consistent := consistent_run (by
    refine ⟨trivial, trivial, trivial, trivial, trivial, trivial, trivial⟩)
  have hshows := carousel_shows_everyone w hcons (by rw [hslots]; decide)
    (by rw [hslots, hkeys]; decide)
  rwa [hslots, hkeys] at hshows

/-! ### Room for the carousel -/

theorem length_pinned_le (h : w.PinsAgree) (hord : w.Ordered) :
    (w.watchOrder.filter fun k => (w.pinSlot k).isSome).length ≤
      ((List.range w.slots.length).filter w.pinned).length := by
  have hnd : (w.watchOrder.filter fun k => (w.pinSlot k).isSome).Nodup :=
    (hord.nodup_iff.2 w.tiles.keys_nodup).filter _
  have hslot : ∀ k ∈ w.watchOrder.filter (fun k => (w.pinSlot k).isSome),
      w.pinSlot k = some ((w.pinSlot k).getD 0) := fun k hk => by
    obtain ⟨i, hi⟩ := Option.isSome_iff_exists.1 (List.mem_filter.1 hk).2
    rw [hi, Option.getD_some]
  rw [← List.length_map (f := fun k => (w.pinSlot k).getD 0)]
  apply List.Subperm.length_le
  apply List.Nodup.subperm
  · refine hnd.map_on fun k hk k' hk' heq => ?_
    have h1 := (h.iff _ k).2 (hslot k hk)
    rw [heq, (h.iff _ k').2 (hslot k' hk')] at h1
    exact (Option.some.inj h1).symm
  · intro i hi
    obtain ⟨k, hk, rfl⟩ := List.mem_map.1 hi
    have hpin := pinned_of_pinKey ((h.iff _ k).2 (hslot k hk))
    exact List.mem_filter.2 ⟨List.mem_range.2 (lt_of_pinned hpin), hpin⟩

/-- When the carousel is needed, more tiles than slots are without a pin. -/
theorem length_lt_of_needsCarousel (h : w.PinsHeld) (hord : w.Ordered)
    (hneeds : w.needsCarousel = true) :
    w.getCarouselSlotIndices.length < w.getUnpinnedTileKeys.length := by
  have hslots := (List.range w.slots.length).length_eq_length_filter_add w.pinned
  have htiles := w.watchOrder.length_eq_length_filter_add fun k => (w.pinSlot k).isSome
  have hkeys : w.getUnpinnedTileKeys = w.watchOrder.filter fun k => !(w.pinSlot k).isSome := by
    refine List.filter_congr fun k hk => ?_
    have hmem : k ∈ w.tiles := hord.mem_iff.1 hk
    obtain ⟨tile, htile⟩ := Option.isSome_iff_exists.1 (AList.lookup_isSome.2 hmem)
    rw [pinSlot, htile, Option.bind_some, Option.any_some, Option.not_isSome]
  have hle := length_pinned_le h.agree hord
  have hlt : w.getLayoutCapacity < w.tiles.keys.length := by simpa [needsCarousel] using hneeds
  have hcap := h.capacity
  rw [List.length_range] at hslots
  rw [hord.length_eq] at htiles
  rw [getCarouselSlotIndices, hkeys]
  omega

/-- When the carousel is needed there is a slot for it, and some batch shows any tile that
is not pinned. -/
def CarouselRuns (w : WatchWall) : Prop :=
  w.needsCarousel = true → w.getCarouselSlotIndices ≠ [] ∧
    ∀ k ∈ w.getUnpinnedTileKeys, ∃ index, ∃ i ∈ w.getCarouselSlotIndices,
      ({ w with carouselBatchIndex := index }.applyCarouselBatch).shown i = some k

def HasRoom (w : WatchWall) : Prop := w.needsCarousel = true → ∃ i, i ∈ w.getCarouselSlotIndices

theorem HasRoom.runs (hroom : w.HasRoom) (h : w.PinsHeld) (hord : w.Ordered) :
    w.CarouselRuns := by
  intro hneeds
  obtain ⟨i, hi⟩ := hroom hneeds
  refine ⟨List.ne_nil_of_mem hi, fun k hk => ?_⟩
  have hslots : 1 ≤ w.getCarouselSlotIndices.length := List.length_pos_of_mem hi
  obtain ⟨m, -, hwindow⟩ := List.exists_mem_window hslots 0 hk
  rw [Nat.zero_add] at hwindow
  have hmany := length_lt_of_needsCarousel h hord hneeds
  exact ⟨m, applyCarouselBatch_mem (w := { w with carouselBatchIndex := m }) hslots
    (Nat.le_of_lt hmany) h.shown hord hwindow⟩

section Room

theorem SamePins.room (h : SamePins w w') (hroom : w.HasRoom) : w'.HasRoom := by
  unfold HasRoom
  rwa [h.redrawn.needsCarousel_eq, h.redrawn.getCarouselSlotIndices_eq]

theorem length_filter_modify {α : Type} (f : α → α) (p : α → Bool) : ∀ (l : List α) (i : ℕ),
    ((l.modify i f).filter p).length ≤ (l.filter p).length + 1 := by
  intro l
  induction l with
  | nil => intro i; simp
  | cons a l ih =>
    intro i
    cases i with
    | zero =>
      rw [List.modify_zero_cons, List.filter_cons, List.filter_cons]
      split_ifs <;> grind
    | succ i =>
      have hi := ih i
      rw [List.modify_succ_cons, List.filter_cons, List.filter_cons]
      split_ifs
      · rw [List.length_cons, List.length_cons]
        omega
      · exact hi

/-- A pin is refused where it would leave the carousel no slot. -/
theorem room_pin (h : w.PinsHeld) (hallowed : ¬(w.needsCarousel = true ∧
      w.getLayoutCapacity - 1 ≤ (w.slots.filter (·.pinned)).length)) :
    ((w.modifySlot i (·.pin key)).modifyTile key (·.pin i)).HasRoom := by
  set v := (w.modifySlot i (·.pin key)).modifyTile key (·.pin i) with hv
  intro hneeds
  have hlayout : v.getLayoutCapacity = w.getLayoutCapacity := by
    rw [getLayoutCapacity, hv, currentLayoutKey_modifyTile]
    rfl
  have hneeds' : w.needsCarousel = true := by
    rw [needsCarousel, hlayout, hv, (keys_modifyTile _).length_eq] at hneeds
    exact hneeds
  by_contra hnone
  have hlen : v.slots.length = w.slots.length := by
    rw [hv, slots_modifyTile]
    exact List.length_modify ..
  have hall : v.slots.filter (·.pinned) = v.slots := by
    refine List.filter_eq_self.2 fun slot hslot => ?_
    obtain ⟨j, hj, rfl⟩ := List.mem_iff_getElem.1 hslot
    by_contra hpin
    refine hnone ⟨j, mem_getCarouselSlotIndices.2 ⟨hj, ?_⟩⟩
    rw [pinned, List.getElem?_eq_getElem hj]
    exact Bool.eq_false_of_not_eq_true hpin
  have hcount := length_filter_modify (·.pin key) (·.pinned) w.slots i
  have hslots : v.slots = w.slots.modify i (·.pin key) := slots_modifyTile _
  rw [← hslots, hall, hlen, h.capacity] at hcount
  exact hallowed ⟨hneeds', by omega⟩

theorem room_unpin (hroom : w.HasRoom) :
    ((w.modifySlot i WatchSlot.unpin).modifyTile key WatchTile.unpin).HasRoom := by
  intro hneeds
  have hneeds' : w.needsCarousel = true := by
    rw [needsCarousel, getLayoutCapacity, currentLayoutKey_modifyTile,
      (keys_modifyTile _).length_eq] at hneeds
    exact hneeds
  obtain ⟨j, hj⟩ := hroom hneeds'
  obtain ⟨hlt, hfree⟩ := mem_getCarouselSlotIndices.1 hj
  refine ⟨j, mem_getCarouselSlotIndices.2 ⟨?_, ?_⟩⟩
  · rw [slots_modifyTile]
    exact Nat.lt_of_lt_of_eq hlt (List.length_modify ..).symm
  · rw [pinned_modifyTile, pinned_modifySlot]
    split_ifs
    · exact (Option.any_eq_false _ _).2 fun _ _ => rfl
    · exact hfree

theorem HasRoom.togglePinSlot (hroom : w.HasRoom) (h : w.PinsHeld) (i : ℕ) :
    (w.togglePinSlot i).HasRoom := by
  unfold WatchWall.togglePinSlot
  cases hs : w.shown i with
  | none => exact hroom
  | some key =>
    dsimp only
    split_ifs with hi hneeds hallowed
    · exact room_unpin hroom
    · exact room_unpin hroom
    · exact hroom
    · have ha := agree_pin h hs (Bool.eq_false_of_not_eq_true hi)
      exact (redistribute_fixed ha).same.room (room_pin h hallowed)

theorem HasRoom.removeTileEntry (hroom : w.HasRoom) (h : w.PinsHeld) (key : TileKey) :
    (w.removeTileEntry key).HasRoom := by
  set w1 : WatchWall := { w with watchOrder := w.watchOrder.erase key } with hw1
  have hsame : SamePins w1 (w1.takeDown key) := samePins_takeDown w1 key
  have ha := agree_deleteTile (hsame.agree (w := w1) ⟨h.agree.iff, h.agree.keyed⟩) key
  refine (redistribute_fixed ha).same.room fun hneeds => ?_
  obtain ⟨j, hj⟩ := hsame.room (w := w1) hroom (by
    rw [needsCarousel, decide_eq_true_eq] at hneeds ⊢
    have hle : ((w1.takeDown key).deleteTile key).tiles.keys.length ≤
        (w1.takeDown key).tiles.keys.length := by
      rw [deleteTile, AList.keys_erase]
      exact List.length_erase_le ..
    exact Nat.lt_of_lt_of_le hneeds hle)
  obtain ⟨hlt, hfree⟩ := mem_getCarouselSlotIndices.1 hj
  refine ⟨j, mem_getCarouselSlotIndices.2 ⟨?_, ?_⟩⟩
  · exact Nat.lt_of_lt_of_eq hlt (List.length_map ..).symm
  · by_contra hpin
    rw [(pinned_deleteTile (Bool.of_not_eq_false hpin)).1] at hfree
    cases hfree

theorem getLayoutCapacity_pos (w : WatchWall) : 0 < w.getLayoutCapacity := by
  have hpos : ∀ e ∈ layoutCapacities, 0 < e.2 := by decide
  unfold getLayoutCapacity
  cases h : layoutCapacities.lookup w.currentLayoutKey with
  | none => exact Nat.zero_lt_succ 3
  | some capacity =>
    obtain ⟨l1, l2, hsplit, -⟩ := List.lookup_eq_some_iff.1 h
    have hmem : (w.currentLayoutKey, capacity) ∈ layoutCapacities := by rw [hsplit]; simp
    exact hpos _ hmem

theorem HasRoom.setLayoutKey (hroom : w.HasRoom) (hord : w.Ordered) (l : String) :
    (w.setLayoutKey l).HasRoom := by
  by_cases hkeep : layoutCapacities.lookup l = none ∨ l = w.currentLayoutKey
  · rwa [WatchWall.setLayoutKey, if_pos hkeep]
  obtain ⟨hl, hne⟩ := not_or.1 hkeep
  rw [setLayoutKey_eq hl hne]
  obtain ⟨hblank, -⟩ := newLayout_spec hord l
  refine (redistribute_fixed (agree_blank hblank)).same.room fun _ => ⟨0, ?_⟩
  rw [hblank.getCarouselSlotIndices_eq]
  exact List.mem_range.2 (getLayoutCapacity_pos _)

theorem HasRoom.carouselTick (hroom : w.HasRoom) (h : w.PinsHeld) : w.carouselTick.HasRoom := by
  unfold WatchWall.carouselTick
  split_ifs
  · exact hroom
  · exact hroom
  · set v : WatchWall := { w with carouselBatchIndex := w.carouselBatchIndex + 1 }
    have hv : v.PinsHeld := h.congr rfl rfl rfl
    exact (Fixed.batch hv.agree hv.settled).same.room hroom

end Room

theorem CarouselRuns.room (h : w.CarouselRuns) : w.HasRoom := fun hneeds =>
  List.exists_mem_of_ne_nil _ (h hneeds).1

end WatchWall

open WatchWall

/-- A tile beyond the capacity of the layout is only started when a slot is left without
a pin. -/
def KeepsASlot (w : WatchWall) : WatchAction → Prop
  | .startTile key => key ∉ w.tiles → w.tiles.keys.length < MAX_TILES →
      w.getLayoutCapacity ≤ w.tiles.keys.length → w.getCarouselSlotIndices ≠ []
  | .removeTileEntry _ | .togglePinSlot _ | .swapSlots _ _ | .setLayoutKey _ | .carouselTick => True

theorem room_step {w : WatchWall} (hroom : w.HasRoom) (h : w.PinsHeld) (hord : w.Ordered)
    (a : WatchAction) (hkeeps : KeepsASlot w a) : (w.step a).HasRoom := by
  cases a with
  | startTile key =>
    change (w.startTile key).HasRoom
    by_cases hguard : key ∈ w.tiles ∨ MAX_TILES ≤ w.tiles.keys.length
    · rwa [startTile, if_pos hguard]
    obtain ⟨hkey, hmax⟩ := not_or.1 hguard
    rw [startTile_eq hkey (Nat.lt_of_not_le hmax)]
    refine (redistribute_fixed (agree_insert h.agree hkey)).same.room fun hneeds => ?_
    apply List.exists_mem_of_ne_nil
    apply hkeeps hkey (Nat.lt_of_not_le hmax)
    exact needsCarousel_insert hkey |>.1 hneeds
  | removeTileEntry key => exact hroom.removeTileEntry h key
  | togglePinSlot i => exact hroom.togglePinSlot h i
  | swapSlots a b => exact ((SamePins.stable w).swapSlots (SamePins.refl w) a b).room hroom
  | setLayoutKey l => exact hroom.setLayoutKey hord l
  | carouselTick => exact hroom.carouselTick h

theorem keepsASlot_of_room {w : WatchWall} (h : w.PinsHeld) (a : WatchAction)
    (hroom : (w.step a).HasRoom) : KeepsASlot w a := by
  cases a with
  | startTile key =>
    intro hkey hmax hfull
    change (w.startTile key).HasRoom at hroom
    rw [startTile_eq hkey hmax] at hroom
    have hsame := (redistribute_fixed (agree_insert h.agree hkey)).same
    have hneeds := (needsCarousel_insert hkey).2 hfull
    rw [HasRoom, hsame.redrawn.needsCarousel_eq, hsame.redrawn.getCarouselSlotIndices_eq] at hroom
    obtain ⟨i, hi⟩ := hroom hneeds
    exact List.ne_nil_of_mem hi
  | removeTileEntry | togglePinSlot | swapSlots | setLayoutKey | carouselTick => trivial

/-- The carousel has a slot all along a run of actions if and only if no tile is started
beyond the capacity of the layout while every slot is pinned. -/
theorem carousel_has_a_slot_iff (actions : List WatchAction) :
    (∀ pre, pre <+: actions → (wall.run pre).CarouselRuns) ↔ wall.Guarded KeepsASlot actions := by
  refine Machine.guarded_iff (Q := fun w => w.Ordered ∧ w.PinsHeld)
    (P := fun w => w.HasRoom ∧ w.Ordered ∧ w.PinsHeld)
    (fun is => ⟨ordered_run is, pinsHeld_run is⟩) ?_ ?_ ?_ ?_ actions
  · exact ⟨fun hneeds => absurd hneeds (by decide +kernel), List.Perm.refl _, PinsHeld.init⟩
  · rintro w a hkeeps ⟨hord, h⟩ ⟨hroom, -, -⟩
    exact ⟨room_step hroom h hord a hkeeps, hord.step a, h.step hord a⟩
  · rintro w a ⟨-, h⟩ - hruns
    exact keepsASlot_of_room h a hruns.room
  · rintro w ⟨hroom, hord, h⟩
    exact hroom.runs h hord

/-- Four tiles are pinned in four slots, and a fifth is started. -/
theorem pinned_wall_has_no_carousel :
    ¬∀ actions : List WatchAction, (wall.run actions).CarouselRuns := by
  intro h
  have hruns := h [.startTile "a", .startTile "b", .startTile "c", .startTile "d",
    .togglePinSlot 0, .togglePinSlot 1, .togglePinSlot 2, .togglePinSlot 3, .startTile "e"]
  exact (hruns (by decide +kernel)).1 (by decide +kernel)

end Meetkit
