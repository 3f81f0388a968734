import Kinetis.Lib.Words
import Mathlib.Logic.Function.Basic

/-!
# Allocator — the block table and its operations

`drivers/kinetis/memory_allocator.c`: a table of `MAX_BLOCKS` descriptors over up to
`MAX_MEM_REGIONS` RAM regions.  Live blocks occupy the front of the table in address order;
allocation searches the gaps of one region after the other and inserts a descriptor, release
removes one and moves the tail down.

Addresses are `u64` values and sizes `u32` values, as in the source; arithmetic that can wrap
there is written with its modulus.  `NULL` is the address `0`.  The arrays `blocks` and
`g_regions` are functions of the index.  A loop over an index range is a recursion over, or a
search through, the list of its indices.  Log output and the region names it prints are left out.
-/

namespace Kinetis.Allocator
open Lib

def MAX_BLOCKS : Nat := 256
def MAX_MEM_REGIONS : Nat := 4

inductive BlockStatus where
  | free
  | used
  deriving DecidableEq, Repr

/-- `memory_block_detailed`. -/
structure Block where
  start      : Nat
  size       : Nat
  actualSize : Nat
  status     : BlockStatus
  regionId   : Nat
  deriving DecidableEq, Repr

/-- A descriptor as `mem_init_with_config` and `mem_free` leave it. -/
def Block.cleared : Block := ⟨0, 0, 0, .free, 0⟩

/-- `mem_region_t`. -/
structure Region where
  start      : Nat
  size       : Nat
  memoryUsed : Nat
  deriving DecidableEq, Repr

/-- `mem_region_config`. -/
structure RegionConfig where
  start : UInt64
  size  : UInt32
  deriving DecidableEq, Repr

/-- The allocator's globals, the bounds the linker script gives each pool, and the bytes of
the pools. -/
structure State where
  blocks      : Nat → Block
  blockCount  : Nat
  initialized : Bool
  needSort    : Bool
  regions     : Nat → Region
  regionCount : Nat
  mempool     : Nat → UInt32 × UInt32
  mem         : Nat → UInt8

/-! ### Alignment macros -/

/-- `IS_POWER_OF_2`. -/
def isPowerOf2 (x : Nat) : Bool := x != 0 && x &&& (x - 1) == 0

/-- `ALIGN_UP` on a `u64` value. -/
def alignUp64 (val align : Nat) : Nat := (val + align - 1) % 2 ^ 64 &&& (2 ^ 64 - align)

/-- `(u32)ALIGN_UP(size, alignment)`: the sum is a `u32`, the mask a `u64`. -/
def alignedSize (size alignment : Nat) : Nat :=
  ((size + alignment - 1) % 2 ^ 32 &&& (2 ^ 64 - alignment)) % 2 ^ 32

/-! ### The descriptor table -/

def findFreeBlock (s : State) : Option Nat :=
  (List.range MAX_BLOCKS).find? fun i => (s.blocks i).status = .free

/-- Exchange `blocks[i]` and `blocks[j]`. -/
def swapBlocks (t : Nat → Block) (i j : Nat) : Nat → Block :=
  Function.update (Function.update t i (t j)) j (t i)

/-- The inner loop of the sort: bring the smaller address to position `i`. -/
def sortInner (i : Nat) : List Nat → (Nat → Block) → Nat → Block
  | [], t => t
  | j :: js, t => sortInner i js (if (t j).start < (t i).start then swapBlocks t i j else t)

def sortOuter (n : Nat) : List Nat → (Nat → Block) → Nat → Block
  | [], t => t
  | i :: is, t => sortOuter n is (sortInner i (List.range' (i + 1) (n - (i + 1))) t)

def ensureBlocksSorted (s : State) : State :=
  if s.needSort = false ∨ s.blockCount ≤ 1 then s
  else { s with
    blocks := sortOuter s.blockCount (List.range (s.blockCount - 1)) s.blocks
    needSort := false }

/-- `for (i = n; i > pos; i--) blocks[i] = blocks[i - 1]`. -/
def shiftUp (pos : Nat) : Nat → (Nat → Block) → Nat → Block
  | 0, t => t
  | i + 1, t => if pos < i + 1 then shiftUp pos i (Function.update t (i + 1) (t i)) else t

/-- `for (; i + 1 < n; i++) blocks[i] = blocks[i + 1]`, for `k` more rounds. -/
def shiftDown : Nat → Nat → (Nat → Block) → Nat → Block
  | 0, _, t => t
  | k + 1, i, t => shiftDown k (i + 1) (Function.update t i (t (i + 1)))

/-- The first position whose block lies above `start`. -/
def insertPos (s : State) (start : Nat) : Nat :=
  ((List.range s.blockCount).find? fun pos => start < (s.blocks pos).start).getD s.blockCount

def insertBlockSorted (s : State) (regionId start size actualSize : Nat) : State :=
  if MAX_BLOCKS ≤ s.blockCount then s
  else
    let s := ensureBlocksSorted s
    let pos := insertPos s start
    let t := shiftUp pos s.blockCount s.blocks
    { s with
      blocks := Function.update t pos ⟨start, size, actualSize, .used, regionId % 256⟩
      blockCount := s.blockCount + 1
      needSort := true }

/-! ### The gap search -/

/-- `used_indices`, as the blocks they name. -/
def usedInRegion (s : State) (regionId : Nat) : List Block :=
  ((List.range s.blockCount).filter fun i =>
    (s.blocks i).status = .used ∧ (s.blocks i).regionId = regionId).map s.blocks

def regionEnd (reg : Region) : Nat := (reg.start + reg.size) % 2 ^ 64

/-- One round of the gap loop. -/
def tryGap (size alignment gapStart gapEnd : Nat) : Option Nat :=
  if (gapEnd + 2 ^ 64 - gapStart) % 2 ^ 64 < size then none
  else
    let alignedStart := alignUp64 gapStart alignment
    let allocatedEnd := (alignedStart + size) % 2 ^ 64
    if gapStart ≤ alignedStart ∧ allocatedEnd ≤ gapEnd then some alignedStart else none

/-- The gap loop: before the first used block, between used blocks, after the last. -/
def searchGaps (size alignment rend : Nat) : Nat → List Block → Option Nat
  | gapStart, [] => tryGap size alignment gapStart rend
  | gapStart, b :: bs =>
    (tryGap size alignment gapStart b.start).or
      (searchGaps size alignment rend ((b.start + b.actualSize) % 2 ^ 64) bs)

/-- The pointer found, and the state with the table sorted. -/
def findFitInRegion (s : State) (regionId size alignment : Nat) : State × Nat :=
  let s := ensureBlocksSorted s
  let reg := s.regions regionId
  (s, (searchGaps size alignment (regionEnd reg) reg.start (usedInRegion s regionId)).getD 0)

/-! ### Initialisation -/

def memInitWithConfig (s : State) (configs : List RegionConfig) : State :=
  { s with
    blocks := fun i => if i < MAX_BLOCKS then .cleared else s.blocks i
    blockCount := 0
    needSort := false
    regionCount := min configs.length MAX_MEM_REGIONS
    regions := fun i =>
      match (configs.take MAX_MEM_REGIONS)[i]? with
      | some c => ⟨c.start.toNat, c.size.toNat, 0⟩
      | none => s.regions i
    initialized := true }

/-- `mem_init` of the hardware build: the non-empty pools of the linker script. -/
def memInit (s : State) : State :=
  let configs := (List.range MAX_MEM_REGIONS).filterMap fun i =>
    let (start, stop) := s.mempool i
    if 0 < stop - start then some ⟨start.toUInt64, stop - start⟩ else none
  if configs = [] then s else memInitWithConfig s configs

/-! ### Statistics -/

/-- The widest hole of one region, each hole truncated to `u32`. -/
def regionLargest (reg : Region) : List Block → Nat
  | [] => reg.size
  | b :: bs =>
    let first := (b.start + 2 ^ 64 - reg.start) % 2 ^ 64 % 2 ^ 32
    let rec between (best : Nat) (prev : Block) : List Block → Nat
      | [] =>
        let after := (reg.start + reg.size + 2 ^ 64
          - (prev.start + prev.actualSize) % 2 ^ 64) % 2 ^ 64 % 2 ^ 32
        max best after
      | c :: cs =>
        let gap := (c.start + 2 ^ 64 - (prev.start + prev.actualSize) % 2 ^ 64) % 2 ^ 64 % 2 ^ 32
        between (max best gap) c cs
    between first b bs

def memGetLargestFreeBlock (s : State) : State × Nat :=
  (List.range s.regionCount).foldl (fun (s, largest) r =>
    let s := ensureBlocksSorted s
    (s, max largest (regionLargest (s.regions r) (usedInRegion s r)))) (s, 0)

/-- `for (i = 0; i < g_region_count; i++) total += ...`, in `u32`. -/
def sumRegions (s : State) (f : Region → Nat) : Nat :=
  (List.range s.regionCount).foldl (fun total i => (total + f (s.regions i)) % 2 ^ 32) 0

def memGetUsed (s : State) : Nat := sumRegions s Region.memoryUsed

def memGetFree (s : State) : Nat :=
  sumRegions s fun reg => (reg.size + 2 ^ 32 - reg.memoryUsed) % 2 ^ 32

def memGetTotal (s : State) : Nat := sumRegions s Region.size

/-- The `int` that a `u32` value is cast to. -/
def asInt (x : Nat) : Int := if x < 2 ^ 31 then x else x - 2 ^ 32

def memGetUsagePercent (s : State) : Int :=
  if memGetTotal s = 0 then 0 else asInt (memGetUsed s * 100 % 2 ^ 32 / memGetTotal s)

def memGetFragmentationPercent (s : State) : State × Int :=
  let totalFree := memGetFree s
  let (s, largestFree) := memGetLargestFreeBlock s
  if totalFree = 0 ∨ largestFree = 0 then (s, 0)
  else (s, asInt ((100 + 2 ^ 32 - largestFree * 100 % 2 ^ 32 / totalFree) % 2 ^ 32))

/-! ### Allocation and release -/

def addUsed (s : State) (regionId n : Nat) : State :=
  let reg := s.regions regionId
  { s with
    regions := Function.update s.regions regionId
      { reg with memoryUsed := (reg.memoryUsed + n) % 2 ^ 32 } }

def tryAllocInRegion (s : State) (regionId size alignment alignedSize : Nat) : State × Nat :=
  let reg := s.regions regionId
  if reg.size < alignedSize then (s, 0)
  else if (findFreeBlock s).isNone then (s, 0)
  else
    let (s, ptr) := findFitInRegion s regionId alignedSize alignment
    if ptr = 0 then (s, 0)
    else if ptr < reg.start ∨ regionEnd reg ≤ ptr then (s, 0)
    else if regionEnd reg < (ptr + alignedSize) % 2 ^ 64 then (s, 0)
    else (addUsed (insertBlockSorted s regionId ptr size alignedSize) regionId alignedSize, ptr)

/-- The region loop of `mem_alloc_aligned`.  When every region fails the source logs the
largest free block, which sorts the table once more. -/
def tryRegions (size alignment alignedSize : Nat) : List Nat → State → State × Nat
  | [], s => ((memGetLargestFreeBlock s).1, 0)
  | r :: rs, s =>
    let (s, ptr) := tryAllocInRegion s r size alignment alignedSize
    if ptr ≠ 0 then (s, ptr) else tryRegions size alignment alignedSize rs s

def ensureInitialized (s : State) : State := if s.initialized then s else memInit s

/-- `if (alignment == 0) alignment = 1`. -/
def effectiveAlignment (alignment : Nat) : Nat := if alignment = 0 then 1 else alignment

/-- The checks `mem_alloc_aligned` makes before it looks at a region. -/
def requestOk (size alignment : Nat) : Bool :=
  size != 0 && isPowerOf2 alignment && size ≤ 0xFFFFFFFF - (alignment - 1)

def memAllocAligned (s : State) (size alignment : Nat) : State × Nat :=
  let s := ensureInitialized s
  let alignment := effectiveAlignment alignment
  if requestOk size alignment then
    tryRegions size alignment (alignedSize size alignment) (List.range s.regionCount) s
  else (s, 0)

def memAllocAlignedFromRegion (s : State) (regionId : Int) (size alignment : Nat) : State × Nat :=
  let s := ensureInitialized s
  if regionId < 0 ∨ (s.regionCount : Int) ≤ regionId then (s, 0)
  else
    let alignment := effectiveAlignment alignment
    if requestOk size alignment then
      tryAllocInRegion s regionId.toNat size alignment (alignedSize size alignment)
    else (s, 0)

/-- The descriptor of the live block that starts at `ptr`. -/
def findBlock (s : State) (ptr : Nat) : Option Nat :=
  (List.range s.blockCount).find? fun i => (s.blocks i).start = ptr ∧ (s.blocks i).status = .used

/-- Take `n` bytes off a region's usage, or clear it on underflow. -/
def subUsed (s : State) (regionId n : Nat) : State :=
  if regionId < s.regionCount then
    let reg := s.regions regionId
    let used := if reg.memoryUsed < n then 0 else reg.memoryUsed - n
    { s with regions := Function.update s.regions regionId { reg with memoryUsed := used } }
  else s

/-- Close the table over entry `i` and clear the last live entry. -/
def removeBlock (s : State) (i : Nat) : State :=
  { s with
    blocks := Function.update (shiftDown (s.blockCount - 1 - i) i s.blocks) (s.blockCount - 1)
      .cleared
    blockCount := s.blockCount - 1
    needSort := false }

def memFree (s : State) (ptr : Nat) : State :=
  if ptr = 0 then s
  else
    match findBlock s ptr with
    | none => s
    | some i =>
      let b := s.blocks i
      removeBlock (subUsed s b.regionId b.actualSize) i

/-- `memset(ptr, 0, n)`. -/
def memset0 (s : State) (ptr n : Nat) : State :=
  { s with mem := fun a => if ptr ≤ a ∧ a < ptr + n then 0 else s.mem a }

/-- `memmove(dst, src, n)`. -/
def memmove (s : State) (dst src n : Nat) : State :=
  { s with mem := fun a => if dst ≤ a ∧ a < dst + n then s.mem (src + (a - dst)) else s.mem a }

def memCallocAligned (s : State) (count size alignment : Nat) : State × Nat :=
  if size ≠ 0 ∧ 0xFFFFFFFF / size < count then (s, 0)
  else
    let totalSize := count * size % 2 ^ 32
    let (s, ptr) := memAllocAligned s totalSize alignment
    if ptr ≠ 0 then (memset0 s ptr totalSize, ptr) else (s, 0)

/-- The in-place path of `realloc`: only the requested size changes. -/
def setSize (s : State) (i newSize : Nat) : State :=
  { s with blocks := Function.update s.blocks i { s.blocks i with size := newSize } }

def memReallocAligned (s : State) (ptr newSize alignment : Nat) : State × Nat :=
  if ptr = 0 then memAllocAligned s newSize alignment
  else if newSize = 0 then (memFree s ptr, 0)
  else
    let alignment := effectiveAlignment alignment
    if !isPowerOf2 alignment then (s, 0)
    else
      match findBlock s ptr with
      | none => (s, 0)
      | some i =>
        let oldSize := (s.blocks i).size
        if newSize ≤ oldSize then (setSize s i newSize, ptr)
        else
          let (s, newPtr) := memAllocAligned s newSize alignment
          if newPtr = 0 then (s, ptr)
          else (memFree (memmove s newPtr ptr (min newSize oldSize)) ptr, newPtr)

/-! ### Calls and runs -/

/-- A call of the public interface, with its C argument types. -/
inductive Call where
  | allocAligned (size alignment : UInt32)
  | allocAlignedFromRegion (regionId : Int) (size alignment : UInt32)
  | callocAligned (count size alignment : UInt32)
  | reallocAligned (ptr : UInt64) (newSize alignment : UInt32)
  | free (ptr : UInt64)

/-- The state after a call, and the pointer returned. -/
def call (s : State) : Call → State × Nat
  | .allocAligned size alignment => memAllocAligned s size.toNat alignment.toNat
  | .allocAlignedFromRegion r size alignment =>
    memAllocAlignedFromRegion s r size.toNat alignment.toNat
  | .callocAligned count size alignment =>
    memCallocAligned s count.toNat size.toNat alignment.toNat
  | .reallocAligned ptr newSize alignment =>
    memReallocAligned s ptr.toNat newSize.toNat alignment.toNat
  | .free ptr => (memFree s ptr.toNat, 0)

def step (s : State) (c : Call) : State := (call s c).1

/-- 1 to 4 regions that start above `NULL`, do not wrap, and are pairwise disjoint. -/
structure Layout where
  configs  : List RegionConfig
  nonempty : configs ≠ []
  length   : configs.length ≤ MAX_MEM_REGIONS
  start    : ∀ c ∈ configs, c.start ≠ 0
  noWrap   : ∀ c ∈ configs, c.start.toNat + c.size.toNat < 2 ^ 64
  disjoint : configs.Pairwise fun c d =>
    c.start.toNat + c.size.toNat ≤ d.start.toNat ∨ d.start.toNat + d.size.toNat ≤ c.start.toNat

end Kinetis.Allocator
