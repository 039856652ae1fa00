import Mathlib.Data.List.Basic
import Mathlib.Logic.Function.Basic

/-!
# The buddy allocator (`libgpu_core/src/buddy.c`)

A free list per order, a table of allocation records and a pool of list nodes whose counter only
grows: a node that is freed is not used again before the next reset.

* `roundUpPow2` / `orderForSize` — the order that serves a request;
* `coalesce` — merges the buddies of an order, and then those of the orders above;
* `gpuBuddyInit`, `gpuBuddyAlloc`, `gpuBuddyFree`, `gpuBuddyReset` — the calls.
-/

namespace UsrLinuxEmu.GpuCore

/-! ### Sizes -/

def gpuBuddyMinBlockSize : UInt64 := 4096

def gpuBuddyMaxOrder : ℕ := 21

def gpuBuddyMaxRecords : ℕ := 4096

/-- The length of `block_pool`. -/
def blockPoolSize : ℕ := gpuBuddyMaxRecords + gpuBuddyMaxOrder + 1

/-- `GPU_BUDDY_MIN_BLOCK_SIZE << order`. -/
def blockSize (order : ℕ) : UInt64 := gpuBuddyMinBlockSize <<< UInt64.ofNat order

/-- Wraps to zero above `2 ^ 63`. -/
def roundUpPow2 (size : UInt64) : UInt64 :=
  if size = 0 then gpuBuddyMinBlockSize
  else
    let size := size - 1
    let size := size ||| size >>> 1
    let size := size ||| size >>> 2
    let size := size ||| size >>> 4
    let size := size ||| size >>> 8
    let size := size ||| size >>> 16
    let size := size ||| size >>> 32
    size + 1

/-- The loop of `order_for_size` with `n` orders left. -/
def orderLoop (size : UInt64) : ℕ → UInt64 → ℕ → ℕ
  | 0, _, order => order
  | n + 1, block, order =>
    if block < size then orderLoop size n (block * 2) (order + 1) else order

def orderForSize (size : UInt64) : ℕ := orderLoop size gpuBuddyMaxOrder gpuBuddyMinBlockSize 0

/-- `aligned_size` of a request. -/
def alignedSize (size : UInt64) : UInt64 :=
  let aligned := roundUpPow2 size
  if aligned < gpuBuddyMinBlockSize then gpuBuddyMinBlockSize else aligned

def buddyAddr (base addr block : UInt64) : UInt64 := base + ((addr - base) ^^^ block)

def areAdjacent (a b block : UInt64) : Bool := a + block == b || b + block == a

/-! ### The pool -/

structure GpuBuddyRecord where
  addr : UInt64
  size : UInt64
  order : ℕ
  deriving DecidableEq

/-- A free list is the list of its nodes' addresses, head first; `none` is an unused slot of the
record table.  `pool_size` and `record_count` are written and decide nothing. -/
structure GpuBuddy where
  baseAddr : UInt64
  maxOrder : ℕ
  freeLists : ℕ → List UInt64
  blockPoolUsed : ℕ
  records : List (Option GpuBuddyRecord)

namespace GpuBuddy

/-- `pool_alloc`: the pool with one node less, if there is one. -/
def poolAlloc (b : GpuBuddy) : Option GpuBuddy :=
  if blockPoolSize ≤ b.blockPoolUsed then none
  else some { b with blockPoolUsed := b.blockPoolUsed + 1 }

def setList (b : GpuBuddy) (order : ℕ) (l : List UInt64) : GpuBuddy :=
  { b with freeLists := Function.update b.freeLists order l }

def freeListInsert (b : GpuBuddy) (addr : UInt64) (order : ℕ) : GpuBuddy :=
  if b.maxOrder < order then b else b.setList order (addr :: b.freeLists order)

/-- `free_list_remove_block`, for the first node with that address. -/
def freeListRemove (b : GpuBuddy) (addr : UInt64) (order : ℕ) : GpuBuddy :=
  b.setList order ((b.freeLists order).erase addr)

def freeListPop (b : GpuBuddy) (order : ℕ) : Option (UInt64 × GpuBuddy) :=
  if b.maxOrder < order then none
  else
    match b.freeLists order with
    | [] => none
    | addr :: rest => some (addr, b.setList order rest)

/-- A new node for the block, which is lost when the pool has none left. -/
def insertNew (b : GpuBuddy) (addr : UInt64) (order : ℕ) : GpuBuddy :=
  match b.poolAlloc with
  | none => b
  | some b => b.freeListInsert addr order

/-! ### Records -/

def findRecord (b : GpuBuddy) (addr : UInt64) : Option GpuBuddyRecord :=
  (b.records.find? fun r => r.any fun r => r.addr == addr).join

/-- Takes the first unused slot. -/
def addRecord (b : GpuBuddy) (r : GpuBuddyRecord) : Option GpuBuddy :=
  match b.records.findIdx? Option.isNone with
  | none => none
  | some i => some { b with records := b.records.set i (some r) }

def removeRecord (b : GpuBuddy) (addr : UInt64) : GpuBuddy :=
  match b.records.findIdx? fun r => r.any fun r => r.addr == addr with
  | none => b
  | some i => { b with records := b.records.set i none }

/-! ### Coalescing -/

/-- The first block of the list whose buddy is in the list too, with that buddy. -/
def mergeable (b : GpuBuddy) (order : ℕ) : Option (UInt64 × UInt64) :=
  let block := blockSize order
  let l := b.freeLists order
  (l.find? fun a => buddyAddr b.baseAddr a block ∈ l &&
    areAdjacent a (buddyAddr b.baseAddr a block) block).map fun a =>
      (a, buddyAddr b.baseAddr a block)

def merge (b : GpuBuddy) (order : ℕ) (a buddy : UInt64) : GpuBuddy :=
  ((b.freeListRemove a order).freeListRemove buddy order).insertNew (if a < buddy then a else buddy)
    (order + 1)

/-- The traversal of one order, which starts again after every merge; `up` coalesces the orders
above and `n` bounds the number of merges. -/
def coalesceLoop (up : GpuBuddy → GpuBuddy) (order : ℕ) : ℕ → GpuBuddy → GpuBuddy
  | 0, b => b
  | n + 1, b =>
    match b.mergeable order with
    | none => b
    | some (a, buddy) => coalesceLoop up order n (up (b.merge order a buddy))

/-- `n` is the number of orders below `max_order`, from `order` on. -/
def coalesceFrom : ℕ → ℕ → GpuBuddy → GpuBuddy
  | 0, _, b => b
  | n + 1, order, b =>
    coalesceLoop (coalesceFrom n (order + 1)) order (b.freeLists order).length b

def coalesce (b : GpuBuddy) (order : ℕ) : GpuBuddy := coalesceFrom (b.maxOrder - order) order b

/-! ### The calls -/

/-- `max_order` of `gpu_buddy_init`, with `n` shift counts left; a shift by 64 is undefined. -/
def maxOrderLoop (size : UInt64) : ℕ → ℕ → Option ℕ
  | 0, _ => none
  | n + 1, order => if blockSize order < size then maxOrderLoop size n (order + 1) else some order

/-- A pool without nodes or records in use, and its initial block. -/
def fresh (base : UInt64) (maxOrder : ℕ) : GpuBuddy :=
  insertNew ⟨base, maxOrder, fun _ => [], 0, List.replicate gpuBuddyMaxRecords none⟩ base maxOrder

def gpuBuddyInit (base size : UInt64) : Option GpuBuddy :=
  (maxOrderLoop size 64 0).map fun order => fresh base (min order gpuBuddyMaxOrder)

/-- The lowest order from `order` on with a free block. -/
def firstFit (b : GpuBuddy) (order : ℕ) : Option ℕ :=
  (List.range' order (b.maxOrder + 1 - order)).find? fun i => !(b.freeLists i).isEmpty

/-- A block of order `order` that has been popped is replaced by its halves. -/
def splitBlock (b : GpuBuddy) (addr : UInt64) (order : ℕ) : GpuBuddy :=
  (b.insertNew addr (order - 1)).insertNew (addr + blockSize order / 2) (order - 1)

/-- The loop that splits down to `order`, with `n` orders to go; it stops early when the list that
it has come to is empty. -/
def splitLoop (order : ℕ) : ℕ → GpuBuddy → ℕ × GpuBuddy
  | 0, b => (order, b)
  | n + 1, b =>
    match b.freeListPop (order + n + 1) with
    | none => (order + n + 1, b)
    | some (addr, b) => splitLoop order n (b.splitBlock addr (order + n + 1))

/-- The address, or `none` for `-1`. -/
def gpuBuddyAlloc (b : GpuBuddy) (size : UInt64) : Option UInt64 × GpuBuddy :=
  if size = 0 then (none, b)
  else
    let aligned := alignedSize size
    let order := orderForSize aligned
    if gpuBuddyMaxOrder < order then (none, b)
    else
      match b.firstFit order with
      | none => (none, b)
      | some target =>
        let (target, b) := splitLoop order (target - order) b
        match b.freeListPop target with
        | none => (none, b)
        | some (addr, b) =>
          match b.addRecord ⟨addr, aligned, target⟩ with
          | none => (none, b.insertNew addr target)
          | some b => (some addr, b)

/-- Whether the block was found, `-1` if not. -/
def gpuBuddyFree (b : GpuBuddy) (addr : UInt64) : Bool × GpuBuddy :=
  match b.findRecord addr with
  | none => (false, b)
  | some r => (true, ((b.removeRecord addr).insertNew addr r.order).coalesce r.order)

def gpuBuddyReset (b : GpuBuddy) : GpuBuddy := fresh b.baseAddr b.maxOrder

end GpuBuddy

end UsrLinuxEmu.GpuCore
