import Meetkit.Lib.GoMap
import Meetkit.Lib.Machine

/-! The watch wall of the admin page: the tiles that are watched and the slots of the
grid that show them. What a tile shows is written down twice, in the tile
(`displaySlotIndex`) and in the slot (`displayedTileKey`). A key is never empty, so
`none` is what `!key` tests for. -/

namespace Meetkit

abbrev TileKey := String

def MAX_TILES := 16

/-- The capacities in `LAYOUTS`. -/
def layoutCapacities : List (String × ℕ) :=
  [("2x2", 4), ("2x3", 6), ("3x2", 6), ("3x3", 9), ("4x4", 16)]

@[ext] structure WatchSlot where
  pinned : Bool := false
  pinnedTileKey : Option TileKey := none
  displayedTileKey : Option TileKey := none
  deriving DecidableEq, Repr

structure WatchTile where
  pinnedSlotIndex : Option ℕ := none
  displaySlotIndex : Option ℕ := none
  deriving DecidableEq, Repr

structure WatchWall where
  slots : List WatchSlot := List.replicate 4 {}
  tiles : GoMap TileKey WatchTile := ∅
  watchOrder : List TileKey := []
  currentLayoutKey : String := "2x2"
  carouselBatchIndex : ℕ := 0
  /-- Whether the interval of the carousel is set. -/
  carouselTimer : Bool := false

inductive WatchAction
  /-- `startTile`, from the new tile to `redistributeSlots`. -/
  | startTile (key : TileKey)
  | removeTileEntry (key : TileKey)
  | togglePinSlot (slotIndex : ℕ)
  | swapSlots (indexA indexB : ℤ)
  | setLayoutKey (layoutKey : String)
  /-- The interval of the carousel. -/
  | carouselTick

def WatchSlot.pin (slot : WatchSlot) (key : TileKey) : WatchSlot :=
  { slot with pinned := true, pinnedTileKey := some key }

def WatchSlot.unpin (slot : WatchSlot) : WatchSlot :=
  { slot with pinned := false, pinnedTileKey := none }

def WatchTile.pin (tile : WatchTile) (slotIndex : ℕ) : WatchTile :=
  { tile with pinnedSlotIndex := some slotIndex }

def WatchTile.unpin (tile : WatchTile) : WatchTile := { tile with pinnedSlotIndex := none }

namespace WatchWall

/-- The tile that slot `i` shows. -/
def shown (w : WatchWall) (i : ℕ) : Option TileKey := w.slots[i]?.bind (·.displayedTileKey)

/-- The slot that the tile of `key` believes it is shown in. -/
def display (w : WatchWall) (key : TileKey) : Option ℕ :=
  (w.tiles.lookup key).bind (·.displaySlotIndex)

def pinned (w : WatchWall) (i : ℕ) : Bool := w.slots[i]?.any (·.pinned)

def modifySlot (w : WatchWall) (i : ℕ) (f : WatchSlot → WatchSlot) : WatchWall :=
  { w with slots := w.slots.modify i f }

def modifyTile (w : WatchWall) (key : TileKey) (f : WatchTile → WatchTile) : WatchWall :=
  match w.tiles.lookup key with
  | some tile => { w with tiles := w.tiles.insert key (f tile) }
  | none => w

def setShown (w : WatchWall) (i : ℕ) (key : Option TileKey) : WatchWall :=
  w.modifySlot i ({ · with displayedTileKey := key })

def setDisplay (w : WatchWall) (key : TileKey) (i : Option ℕ) : WatchWall :=
  w.modifyTile key ({ · with displaySlotIndex := i })

def getLayoutCapacity (w : WatchWall) : ℕ := (layoutCapacities.lookup w.currentLayoutKey).getD 4

def needsCarousel (w : WatchWall) : Bool := w.getLayoutCapacity < w.tiles.keys.length

def stopCarouselTimer (w : WatchWall) : WatchWall := { w with carouselTimer := false }

def startCarouselTimer (w : WatchWall) : WatchWall :=
  { w with carouselTimer := w.needsCarousel }

def clearAllPins (w : WatchWall) : WatchWall :=
  w.tiles.keys.foldl (fun w key => w.modifyTile key WatchTile.unpin)
    { w with slots := w.slots.map WatchSlot.unpin }

def getUnpinnedTileKeys (w : WatchWall) : List TileKey :=
  w.watchOrder.filter fun key =>
    (w.tiles.lookup key).any fun tile => tile.pinnedSlotIndex.isNone

def getCarouselSlotIndices (w : WatchWall) : List ℕ :=
  (List.range w.slots.length).filter fun i => !w.pinned i

def renderWatchSlots (w : WatchWall) : WatchWall :=
  { w with slots := List.replicate w.getLayoutCapacity {} }

def clearSlotDisplay (w : WatchWall) (slotIndex : ℕ) : WatchWall :=
  let w := match w.shown slotIndex with
    | some key => if w.display key = some slotIndex then w.setDisplay key none else w
    | none => w
  w.setShown slotIndex none

def applySlotPresentation (w : WatchWall) (slotIndex : ℕ) : WatchWall :=
  match w.shown slotIndex with
  | some key => if key ∈ w.tiles then w else w.clearSlotDisplay slotIndex
  | none => w.clearSlotDisplay slotIndex

/-- The tile leaves the slot it is shown in for `slotIndex`. -/
def leaveOldSlot (w : WatchWall) (key : TileKey) (slotIndex : ℕ) : WatchWall :=
  match w.display key with
  | some oldIdx =>
    if oldIdx = slotIndex then w
    else if w.shown oldIdx = some key then w.clearSlotDisplay oldIdx
    else w.setDisplay key none
  | none => w

/-- The tile that `slotIndex` shows makes way for the tile of `key`. -/
def displace (w : WatchWall) (key : TileKey) (slotIndex : ℕ) : WatchWall :=
  match w.shown slotIndex with
  | some displacedKey =>
    if displacedKey ≠ key ∧ w.display displacedKey = some slotIndex then
      w.setDisplay displacedKey none
    else w
  | none => w

def assignTileToSlot (w : WatchWall) (key : TileKey) (slotIndex : ℕ) : WatchWall :=
  if key ∉ w.tiles ∨ w.slots.length ≤ slotIndex then w
  else
    let w := (w.leaveOldSlot key slotIndex).displace key slotIndex
    ((w.setShown slotIndex (some key)).setDisplay key (some slotIndex)).applySlotPresentation
      slotIndex

/-- The tile that slot `i` is pinned to, if that tile exists. -/
def pinnedTile (w : WatchWall) (i : ℕ) : Option TileKey :=
  (w.slots[i]?.filter (·.pinned)).bind fun slot => slot.pinnedTileKey.filter (· ∈ w.tiles)

/-- The body of the loop of `redistributeSlots` over the slots. -/
def resetSlot (w : WatchWall) (i : ℕ) : WatchWall :=
  match w.pinnedTile i with
  | some key => w.assignTileToSlot key i
  | none => (if w.pinned i then w.modifySlot i WatchSlot.unpin else w).clearSlotDisplay i

def applyCarouselBatch (w : WatchWall) : WatchWall :=
  let carouselSlots := w.getCarouselSlotIndices
  let unpinned := w.getUnpinnedTileKeys
  if carouselSlots = [] ∨ unpinned = [] then w
  else
    let start := w.carouselBatchIndex * carouselSlots.length % unpinned.length
    let keys := (List.range carouselSlots.length).filterMap fun j =>
      unpinned[(start + j) % unpinned.length]?
    (keys.zip carouselSlots).foldl (fun w e => w.assignTileToSlot e.1 e.2)
      (carouselSlots.foldl clearSlotDisplay w)

/-- The part of `redistributeSlots` after the loop over the slots. -/
def fillSlots (w : WatchWall) : WatchWall :=
  if w.needsCarousel then w.applyCarouselBatch.startCarouselTimer
  else
    (w.getUnpinnedTileKeys.zip w.getCarouselSlotIndices).foldl
      (fun w e => w.assignTileToSlot e.1 e.2) w

def redistributeSlots (w : WatchWall) : WatchWall :=
  let w := (List.range w.slots.length).foldl resetSlot w.stopCarouselTimer
  { w with carouselBatchIndex := 0 }.fillSlots

/-- The callers of `startTile` have looked the key up and found nothing. -/
def startTile (w : WatchWall) (key : TileKey) : WatchWall :=
  if key ∈ w.tiles ∨ MAX_TILES ≤ w.tiles.keys.length then w
  else
    redistributeSlots
      { w with tiles := w.tiles.insert key {}, watchOrder := w.watchOrder ++ [key] }

/-- The slot that the tile of `key` believes it is shown in shows nothing any more. -/
def takeDown (w : WatchWall) (key : TileKey) : WatchWall :=
  match w.display key with
  | some i => w.clearSlotDisplay i
  | none => w

/-- No slot is pinned to `key`, and its tile is gone. -/
def deleteTile (w : WatchWall) (key : TileKey) : WatchWall :=
  { w with
    slots := w.slots.map fun slot => if slot.pinnedTileKey = some key then slot.unpin else slot
    tiles := w.tiles.erase key }

def removeTileEntry (w : WatchWall) (key : TileKey) : WatchWall :=
  let w := { w with watchOrder := w.watchOrder.erase key }
  ((w.takeDown key).deleteTile key).redistributeSlots

def togglePinSlot (w : WatchWall) (slotIndex : ℕ) : WatchWall :=
  match w.shown slotIndex with
  | none => w
  | some key =>
    if w.pinned slotIndex then
      -- the tile stays in its slot
      let w := (w.modifySlot slotIndex WatchSlot.unpin).modifyTile key WatchTile.unpin
      if w.needsCarousel then w.startCarouselTimer else w
    else if w.needsCarousel ∧ w.getLayoutCapacity - 1 ≤ (w.slots.filter (·.pinned)).length then w
    else
      ((w.modifySlot slotIndex (·.pin key)).modifyTile key (·.pin slotIndex)).redistributeSlots

/-- The slots `swapSlots` exchanges, past its guards on the indices, the pins and the carousel. -/
def swapped (w : WatchWall) (indexA indexB : ℤ) : Option (ℕ × ℕ) :=
  if indexA = indexB then none
  else if indexA < 0 ∨ indexB < 0 ∨ w.slots.length ≤ indexA ∨ w.slots.length ≤ indexB then none
  else if w.pinned indexA.toNat || w.pinned indexB.toNat then none
  else if w.needsCarousel then none
  else some (indexA.toNat, indexB.toNat)

/-- `tile.displaySlotIndex = other ? index : null` for the tile of a key, if there is one. -/
def moveDisplay (w : WatchWall) (key other : Option TileKey) (index : ℕ) : WatchWall :=
  match key with
  | some key => w.setDisplay key (if other.isSome then some index else none)
  | none => w

/-- `if (!key) clearSlotDisplay(index); else applySlotPresentation(index)`. -/
def present (w : WatchWall) (key : Option TileKey) (index : ℕ) : WatchWall :=
  if key = none then w.clearSlotDisplay index else w.applySlotPresentation index

def swapSlots (w : WatchWall) (indexA indexB : ℤ) : WatchWall :=
  match w.swapped indexA indexB with
  | none => w
  | some (a, b) =>
    let keyA := w.shown a
    let keyB := w.shown b
    if keyA = none ∧ keyB = none then w
    else
      let w := (w.setShown a keyB).setShown b keyA
      let w := (w.moveDisplay keyA keyB b).moveDisplay keyB keyA a
      (w.present keyB a).present keyA b

def setLayoutKey (w : WatchWall) (layoutKey : String) : WatchWall :=
  if layoutCapacities.lookup layoutKey = none ∨ layoutKey = w.currentLayoutKey then w
  else
    let w := { w with currentLayoutKey := layoutKey }.clearAllPins
    { w with carouselBatchIndex := 0 }.renderWatchSlots.redistributeSlots

def carouselTick (w : WatchWall) : WatchWall :=
  if !w.carouselTimer then w
  else if !w.needsCarousel then w.stopCarouselTimer
  else { w with carouselBatchIndex := w.carouselBatchIndex + 1 }.applyCarouselBatch

def step (w : WatchWall) : WatchAction → WatchWall
  | .startTile key => w.startTile key
  | .removeTileEntry key => w.removeTileEntry key
  | .togglePinSlot slotIndex => w.togglePinSlot slotIndex
  | .swapSlots indexA indexB => w.swapSlots indexA indexB
  | .setLayoutKey layoutKey => w.setLayoutKey layoutKey
  | .carouselTick => w.carouselTick

end WatchWall

def wall : Machine WatchWall WatchAction where
  init := {}
  step := WatchWall.step

end Meetkit
