import UsrLinuxEmu.Heap.RefHeap

/-!
# Socket buffers (`src/kernel/net/sk_buff.cpp`)

* `skbAlloc`, `skbFree`, `skbData`, `skbLen` — the buffer operations that the sockets use;
* `skbSend` — a buffer that is allocated and filled.
-/

namespace UsrLinuxEmu.Net

open UsrLinuxEmu.Heap

/-! ### The operations table -/

structure SkBuffImpl where
  dataLen : ℕ
  payload : List UInt8
  deriving DecidableEq, Repr

abbrev SkbHeap := RefHeap SkBuffImpl

/-- `malloc` says whether there is memory. -/
def skbAlloc (heap : SkbHeap) (dataLen : ℕ) (malloc : Bool) : Option ℕ × SkbHeap :=
  if dataLen = 0 then (none, heap)
  else if !malloc then (none, heap)
  else
    let (p, heap) := heap.alloc ⟨dataLen, List.replicate dataLen 0⟩
    (some p, heap)

def skbFree (heap : SkbHeap) (skb : Option ℕ) : SkbHeap :=
  match skb with
  | none => heap
  | some p => heap.release p

/-- The bytes that the pointer of the operations table leads to. -/
def skbData (heap : SkbHeap) (skb : ℕ) : List UInt8 × SkbHeap :=
  (((heap.read skb).map SkBuffImpl.payload).getD [], heap.access skb)

def skbLen (heap : SkbHeap) (skb : Option ℕ) : ℕ × SkbHeap :=
  match skb with
  | none => (0, heap)
  | some p => (((heap.read p).map SkBuffImpl.dataLen).getD 0, heap.access p)

/-- `memcpy` into the payload. -/
def skbCopyIn (heap : SkbHeap) (skb : ℕ) (bytes : List UInt8) : SkbHeap :=
  heap.write skb fun b => { b with payload := bytes ++ b.payload.drop bytes.length }

/-- The heap after a buffer has been allocated and filled. -/
def skbSend (heap : SkbHeap) (bytes : List UInt8) : SkbHeap :=
  skbCopyIn (heap.alloc ⟨bytes.length, List.replicate bytes.length 0⟩).2 heap.next bytes

/-- The new buffer holds the bytes copied in, and no other buffer changes. -/
theorem read_skbSend (heap : SkbHeap) (bytes : List UInt8) (p : ℕ) :
    (skbSend heap bytes).read p =
      if p = heap.next then some ⟨bytes.length, bytes⟩ else heap.read p := by
  rw [skbSend, skbCopyIn, RefHeap.read_write, RefHeap.read_alloc]
  split_ifs with hp
  · simp
  · rfl

theorem accounts_skbSend {heap : SkbHeap} {owners : Multiset ℕ} (hA : heap.Accounts owners)
    (bytes : List UInt8) : (skbSend heap bytes).Accounts (heap.next ::ₘ owners) :=
  (hA.alloc _).write (Multiset.mem_cons_self _ _) _

end UsrLinuxEmu.Net
