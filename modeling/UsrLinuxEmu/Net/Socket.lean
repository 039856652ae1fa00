import Mathlib.Data.Int.DivMod
import Mathlib.Data.List.AList
import Mathlib.Data.List.Sort
import Mathlib.Order.Bounds.Basic
import UsrLinuxEmu.Net.SkBuff
import UsrLinuxEmu.Transition.Run

/-!
# Sockets on the loopback (`src/kernel/net/socket.cpp`)

* `usNetSocket`, `usNetBind`, `usNetSendto`, `usNetRecvfrom`, `usNetClose` — the calls;
* `netStep`, `netReply` — a call as one step of the process;
* `NetInv` — every socket has its receive queue, and the buffers that are allocated are those of
  the queue entries, each entry holding the only reference to a filled buffer;
* `NetInv.step` — every call keeps it, while descriptors are left.
-/

namespace UsrLinuxEmu.Net

open UsrLinuxEmu.Heap UsrLinuxEmu.Transition

def eBADF : ℤ := 9
def eAGAIN : ℤ := 11
def eNOMEM : ℤ := 12
def eINVAL : ℤ := 22

/-- The value of a C `int` after a conversion or an increment. -/
def toInt (n : ℤ) : ℤ := Int.bmod n (2 ^ 32)

/-! ### The state of the process -/

structure SocketState where
  bound : Bool
  addr : UInt64
  port : UInt16
  deriving DecidableEq, Repr

structure SkbMeta where
  srcAddr : UInt64
  srcPort : UInt16
  skb : ℕ
  deriving DecidableEq, Repr

/-- What a call returns: its code, and what it writes through the pointers it was given. -/
structure NetReply where
  rc : ℤ
  bytes : List UInt8
  srcAddr : Option UInt64
  srcPort : Option UInt16
  deriving DecidableEq, Repr

/-- The reply of a call that writes nothing. -/
def NetReply.code (rc : ℤ) : NetReply := ⟨rc, [], none, none⟩

structure NetState where
  gSockets : AList fun _ : ℤ => SocketState
  gRxQueues : AList fun _ : ℤ => List SkbMeta
  gNextFd : ℤ
  heap : SkbHeap

namespace NetState

def initial : NetState := ⟨∅, ∅, 1000, .empty⟩

/-- What `g_rx_queues[fd]` refers to; a missing queue is created empty. -/
def rxQueue (s : NetState) (fd : ℤ) : List SkbMeta := (s.gRxQueues.lookup fd).getD []

def setRxQueue (s : NetState) (fd : ℤ) (q : List SkbMeta) : NetState :=
  { s with gRxQueues := s.gRxQueues.insert fd q }

/-- A map is iterated in the order of its keys. -/
def socketsInOrder (s : NetState) : List ℤ := s.gSockets.keys.insertionSort (· ≤ ·)

/-- The test of the search loop of `us_net_sendto`. -/
def boundTo (s : NetState) (dstAddr : UInt64) (dstPort : UInt16) (fd : ℤ) : Bool :=
  match s.gSockets.lookup fd with
  | none => false
  | some socket => socket.bound && socket.addr == dstAddr && socket.port == dstPort

def findDst (s : NetState) (dstAddr : UInt64) (dstPort : UInt16) : Option ℤ :=
  s.socketsInOrder.find? (s.boundTo dstAddr dstPort)

/-! ### The calls -/

def usNetSocket (s : NetState) : ℤ × NetState :=
  let fd := s.gNextFd
  let s := { s with gNextFd := toInt (s.gNextFd + 1) }
  if fd < 0 then (-eNOMEM, s)
  else
    (fd, { s with
      gSockets := s.gSockets.insert fd ⟨false, 0, 0⟩
      gRxQueues := s.gRxQueues.insert fd [] })

def usNetBind (s : NetState) (fd : ℤ) (addr : UInt64) (port : UInt16) : ℤ × NetState :=
  match s.gSockets.lookup fd with
  | none => (-eBADF, s)
  | some _ =>
    if addr = 0 ∨ port = 0 then (-eINVAL, s)
    else (0, { s with gSockets := s.gSockets.insert fd ⟨true, addr, port⟩ })

/-- `buf` is the bytes to send, or a null pointer. -/
def usNetSendto (s : NetState) (fd : ℤ) (buf : Option (List UInt8)) (dstAddr : UInt64)
    (dstPort : UInt16) (malloc : Bool) : ℤ × NetState :=
  match s.gSockets.lookup fd with
  | none => (-eBADF, s)
  | some socket =>
    if !socket.bound then (-1, s)
    else
      match buf with
      | none => (-eINVAL, s)
      | some bytes =>
        if bytes.length = 0 then (-eINVAL, s)
        else
          match skbAlloc s.heap bytes.length malloc with
          | (none, _) => (-eNOMEM, s)
          | (some skb, heap) =>
            let s := { s with heap := skbCopyIn heap skb bytes }
            match s.findDst dstAddr dstPort with
            | none => (-1, { s with heap := skbFree s.heap (some skb) })
            | some dstFd =>
              (toInt bytes.length,
                s.setRxQueue dstFd (s.rxQueue dstFd ++ [⟨socket.addr, socket.port, skb⟩]))

/-- `buf`, `srcAddr` and `srcPort` say which pointers are not null. -/
def usNetRecvfrom (s : NetState) (fd : ℤ) (buf : Bool) (maxLen : ℕ) (srcAddr srcPort : Bool) :
    NetReply × NetState :=
  match s.gSockets.lookup fd with
  | none => (.code (-eBADF), s)
  | some _ =>
    if !buf || maxLen == 0 then (.code (-eINVAL), s)
    else
      match s.rxQueue fd with
      | [] => (.code (-eAGAIN), s.setRxQueue fd [])
      | m :: rest =>
        let s := s.setRxQueue fd rest
        let (len, heap) := skbLen s.heap (some m.skb)
        let len := if maxLen < len then maxLen else len
        let (data, heap) := skbData heap m.skb
        (⟨toInt len, data.take len, if srcAddr then some m.srcAddr else none,
            if srcPort then some m.srcPort else none⟩,
          { s with heap := skbFree heap (some m.skb) })

def usNetClose (s : NetState) (fd : ℤ) : ℤ × NetState :=
  match s.gSockets.lookup fd with
  | none => (-eBADF, s)
  | some _ =>
    let s := { s with gSockets := s.gSockets.erase fd }
    match s.gRxQueues.lookup fd with
    | none => (0, s)
    | some q =>
      (0, { s with
        heap := q.foldl (fun heap m => skbFree heap (some m.skb)) s.heap
        gRxQueues := s.gRxQueues.erase fd })

end NetState

/-! ### One call as a step -/

inductive NetCall where
  | socket
  | bind (fd : ℤ) (addr : UInt64) (port : UInt16)
  | sendto (fd : ℤ) (buf : Option (List UInt8)) (dstAddr : UInt64) (dstPort : UInt16)
      (malloc : Bool)
  | recvfrom (fd : ℤ) (buf : Bool) (maxLen : ℕ) (srcAddr srcPort : Bool)
  | close (fd : ℤ)
  deriving DecidableEq, Repr

/-- The reply to a call, and the state after it. -/
def netCall (s : NetState) : NetCall → NetReply × NetState
  | .socket => (.code s.usNetSocket.1, s.usNetSocket.2)
  | .bind fd addr port =>
    (.code (s.usNetBind fd addr port).1, (s.usNetBind fd addr port).2)
  | .sendto fd buf dstAddr dstPort malloc =>
    (.code (s.usNetSendto fd buf dstAddr dstPort malloc).1,
      (s.usNetSendto fd buf dstAddr dstPort malloc).2)
  | .recvfrom fd buf maxLen srcAddr srcPort => s.usNetRecvfrom fd buf maxLen srcAddr srcPort
  | .close fd => (.code (s.usNetClose fd).1, (s.usNetClose fd).2)

def netStep (s : NetState) (c : NetCall) : NetState := (netCall s c).2

def netReply (s : NetState) (c : NetCall) : NetReply := (netCall s c).1

/-- The socket calls of a run. -/
def NetCall.opens : NetCall → Bool
  | .socket => true
  | _ => false

/-! ### The search for a destination -/

/-- The first element of a sorted list that passes a test is the least one that does. -/
theorem find?_insertionSort_iff (keys : List ℤ) (p : ℤ → Bool) (d : ℤ) :
    (keys.insertionSort (· ≤ ·)).find? p = some d ↔ IsLeast {k | k ∈ keys ∧ p k = true} d := by
  have hmem : ∀ k, k ∈ keys.insertionSort (· ≤ ·) ↔ k ∈ keys :=
    fun k => List.mem_insertionSort (· ≤ ·)
  have hleast : ∀ e, (keys.insertionSort (· ≤ ·)).find? p = some e →
      IsLeast {k | k ∈ keys ∧ p k = true} e := by
    intro e he
    refine ⟨⟨(hmem e).mp (List.mem_of_find?_eq_some he), List.find?_some he⟩, ?_⟩
    rintro k ⟨hk, hpk⟩
    obtain ⟨_, pre, post, heq, hpre⟩ := List.find?_eq_some_iff_append.mp he
    have hsorted := List.pairwise_insertionSort (· ≤ ·) keys
    rw [← hmem k] at hk
    rw [heq] at hk hsorted
    rcases List.mem_append.mp hk with hbefore | hafter
    · exact absurd hpk (by simpa using hpre k hbefore)
    · rcases List.mem_cons.mp hafter with rfl | hafter
      · exact le_refl _
      · exact List.rel_of_pairwise_cons (List.pairwise_append.mp hsorted).2.1 hafter
  constructor
  · exact hleast d
  · rintro hd
    cases hfound : (keys.insertionSort (· ≤ ·)).find? p with
    | none => exact absurd hd.1.2 (List.find?_eq_none.mp hfound d ((hmem d).mpr hd.1.1))
    | some e => rw [(hleast e hfound).unique hd]

namespace NetState

theorem findDst_iff (s : NetState) (dstAddr : UInt64) (dstPort : UInt16) (d : ℤ) :
    s.findDst dstAddr dstPort = some d ↔ IsLeast {fd | s.boundTo dstAddr dstPort fd = true} d := by
  rw [findDst, socketsInOrder, find?_insertionSort_iff]
  have hset : {k | k ∈ s.gSockets.keys ∧ s.boundTo dstAddr dstPort k = true} =
      {fd | s.boundTo dstAddr dstPort fd = true} := by
    ext k
    refine and_iff_right_of_imp fun hk => ?_
    by_contra hnot
    have hnone : s.gSockets.lookup k = none := AList.lookup_eq_none.mpr hnot
    rw [boundTo, hnone] at hk
    exact Bool.false_ne_true hk
  rw [hset]

/-- The destination is an open socket. -/
theorem lookup_findDst {s : NetState} {dstAddr : UInt64} {dstPort : UInt16} {d : ℤ}
    (hd : s.findDst dstAddr dstPort = some d) :
    s.gSockets.lookup d = some ⟨true, dstAddr, dstPort⟩ := by
  have hbound : s.boundTo dstAddr dstPort d = true := ((findDst_iff s dstAddr dstPort d).mp hd).1
  rw [boundTo] at hbound
  split at hbound
  · exact absurd hbound Bool.false_ne_true
  · rename_i socket hsocket
    rw [hsocket]
    simp only [Bool.and_eq_true, beq_iff_eq] at hbound
    obtain ⟨⟨h1, h2⟩, h3⟩ := hbound
    cases socket
    simp_all

end NetState

/-! ### Buffers and queues -/

/-- The buffers of a receive queue. -/
def queueSkbs (q : List SkbMeta) : Multiset ℕ := (q.map SkbMeta.skb : List ℕ)

@[simp] theorem queueSkbs_nil : queueSkbs [] = 0 := rfl

@[simp] theorem queueSkbs_cons (m : SkbMeta) (q : List SkbMeta) :
    queueSkbs (m :: q) = m.skb ::ₘ queueSkbs q := rfl

theorem queueSkbs_append (q q' : List SkbMeta) :
    queueSkbs (q ++ q') = queueSkbs q + queueSkbs q' := by
  rw [queueSkbs, List.map_append, ← Multiset.coe_add]
  rfl

namespace NetState

/-- The buffers of all receive queues. -/
def queued (s : NetState) : Multiset ℕ := tableOwners queueSkbs s.gRxQueues

/-- The buffer is filled over its whole length. -/
def SkbFilled (heap : SkbHeap) (p : ℕ) : Prop :=
  ∃ bytes : List UInt8, heap.read p = some ⟨bytes.length, bytes⟩

end NetState

/-- The queues are those of the open sockets; what is allocated is what they hold, every buffer
once and filled. -/
structure NetInv (s : NetState) : Prop where
  paired : ∀ fd, fd ∈ s.gRxQueues ↔ fd ∈ s.gSockets
  accounts : s.heap.Accounts s.queued
  single : s.queued.Nodup
  filled : ∀ p ∈ s.queued, NetState.SkbFilled s.heap p

theorem netInv_initial : NetInv .initial where
  paired := fun _ => Iff.rfl
  accounts := RefHeap.Accounts.empty
  single := Multiset.nodup_zero
  filled := fun p hp => absurd hp (Multiset.notMem_zero p)

namespace NetInv

variable {s : NetState} (hI : NetInv s)
include hI

theorem rxQueue_of_lookup {fd : ℤ} {socket : SocketState}
    (hfd : s.gSockets.lookup fd = some socket) : s.gRxQueues.lookup fd = some (s.rxQueue fd) := by
  have hmem : fd ∈ s.gRxQueues := (hI.paired fd).mpr (AList.lookup_isSome.mp (by rw [hfd]; rfl))
  obtain ⟨q, hq⟩ := Option.isSome_iff_exists.mp (AList.lookup_isSome.mpr hmem)
  rw [NetState.rxQueue, hq]
  rfl

theorem queued_eq {fd : ℤ} {socket : SocketState} (hfd : s.gSockets.lookup fd = some socket) :
    s.queued = queueSkbs (s.rxQueue fd) + tableOwners queueSkbs (s.gRxQueues.erase fd) :=
  tableOwners_of_lookup queueSkbs s.gRxQueues (hI.rxQueue_of_lookup hfd)

/-- A call that changes neither queues nor heap. -/
theorem congr {s' : NetState} (hq : s'.gRxQueues = s.gRxQueues) (hh : s'.heap = s.heap)
    (hs : ∀ fd, fd ∈ s'.gSockets ↔ fd ∈ s.gSockets) : NetInv s' where
  paired := fun fd => by rw [hq, hs, hI.paired]
  accounts := by rw [NetState.queued, hq, hh]; exact hI.accounts
  single := by rw [NetState.queued, hq]; exact hI.single
  filled := by rw [NetState.queued, hq, hh]; exact hI.filled

/-! ### What each call does to the buffers -/

/-- A descriptor that is opened gets an empty queue. -/
theorem open_ {fd : ℤ} (hfd : fd ∉ s.gSockets) (next : ℤ) (socket : SocketState) :
    NetInv { s with
      gSockets := s.gSockets.insert fd socket
      gRxQueues := s.gRxQueues.insert fd []
      gNextFd := next } := by
  have hnot : fd ∉ s.gRxQueues := fun hmem => hfd ((hI.paired fd).mp hmem)
  have hqueued : tableOwners queueSkbs (s.gRxQueues.insert fd []) = s.queued := by
    rw [tableOwners_insert, queueSkbs_nil, zero_add, tableOwners_erase_of_notMem _ _ hnot]
    rfl
  exact {
    paired := fun k => by
      show k ∈ s.gRxQueues.insert fd [] ↔ k ∈ s.gSockets.insert fd socket
      rw [AList.mem_insert, AList.mem_insert, hI.paired]
    accounts := by rw [NetState.queued, hqueued]; exact hI.accounts
    single := by rw [NetState.queued, hqueued]; exact hI.single
    filled := by rw [NetState.queued, hqueued]; exact hI.filled }

/-- A new buffer leaves those of the queues as they are. -/
theorem read_skbSend {p : ℕ} (hp : p ∈ s.queued) (bytes : List UInt8) :
    (skbSend s.heap bytes).read p = s.heap.read p := by
  rw [Net.read_skbSend, if_neg]
  rintro rfl
  exact hI.accounts.not_mem_next hp

/-- A datagram that finds no destination leaves no buffer behind. -/
theorem drop (bytes : List UInt8) :
    NetInv { s with heap := skbFree (skbSend s.heap bytes) (some s.heap.next) } where
  paired := hI.paired
  accounts := (accounts_skbSend hI.accounts bytes).release
  single := hI.single
  filled := by
    intro p hp
    have hne : p ≠ s.heap.next := fun heq => hI.accounts.not_mem_next (heq ▸ hp)
    obtain ⟨content, hcontent⟩ := hI.filled p hp
    refine ⟨content, ?_⟩
    show (RefHeap.release _ s.heap.next).read p = _
    rw [RefHeap.read_release_of_ne _ hne, hI.read_skbSend hp bytes, hcontent]

/-- A datagram that finds one is the last of its queue. -/
theorem deliver {d : ℤ} {socket : SocketState} (hd : s.gSockets.lookup d = some socket)
    (bytes : List UInt8) (addr : UInt64) (port : UInt16) :
    NetInv (NetState.setRxQueue { s with heap := skbSend s.heap bytes } d
      (s.rxQueue d ++ [⟨addr, port, s.heap.next⟩])) := by
  have hqueued : tableOwners queueSkbs
      (s.gRxQueues.insert d (s.rxQueue d ++ [⟨addr, port, s.heap.next⟩])) =
      s.heap.next ::ₘ s.queued := by
    rw [tableOwners_insert, queueSkbs_append, hI.queued_eq hd, queueSkbs_cons, queueSkbs_nil,
      Multiset.cons_zero, ← Multiset.singleton_add]
    ac_rfl
  have hdmem : d ∈ s.gSockets := AList.lookup_isSome.mp (by rw [hd]; rfl)
  exact {
    paired := fun k => by
      show k ∈ s.gRxQueues.insert d _ ↔ k ∈ s.gSockets
      rw [AList.mem_insert, hI.paired]
      exact or_iff_right_of_imp fun hk => hk ▸ hdmem
    accounts := by
      rw [NetState.queued, NetState.setRxQueue, hqueued]
      exact accounts_skbSend hI.accounts bytes
    single := by
      rw [NetState.queued, NetState.setRxQueue, hqueued]
      exact hI.single.cons hI.accounts.not_mem_next
    filled := by
      rw [NetState.queued, NetState.setRxQueue, hqueued]
      intro p hp
      rw [NetState.SkbFilled]
      rcases Multiset.mem_cons.mp hp with rfl | hp
      · exact ⟨bytes, by rw [Net.read_skbSend, if_pos rfl]⟩
      · rw [hI.read_skbSend hp bytes]
        exact hI.filled p hp }

/-- Looking for a datagram changes nothing. -/
theorem touch {fd : ℤ} {socket : SocketState} (hfd : s.gSockets.lookup fd = some socket)
    (hq : s.rxQueue fd = []) : NetInv (s.setRxQueue fd []) := by
  have hqueued : tableOwners queueSkbs (s.gRxQueues.insert fd []) = s.queued := by
    rw [tableOwners_insert, hI.queued_eq hfd, hq]
  have hmem : fd ∈ s.gSockets := AList.lookup_isSome.mp (by rw [hfd]; rfl)
  exact {
    paired := fun k => by
      show k ∈ s.gRxQueues.insert fd [] ↔ k ∈ s.gSockets
      rw [AList.mem_insert, hI.paired]
      exact or_iff_right_of_imp fun hk => hk ▸ hmem
    accounts := by rw [NetState.queued, NetState.setRxQueue, hqueued]; exact hI.accounts
    single := by rw [NetState.queued, NetState.setRxQueue, hqueued]; exact hI.single
    filled := by rw [NetState.queued, NetState.setRxQueue, hqueued]; exact hI.filled }

/-- The buffer of a datagram that is received is freed. -/
theorem receive {fd : ℤ} {socket : SocketState} {m : SkbMeta} {rest : List SkbMeta}
    (hfd : s.gSockets.lookup fd = some socket) (hq : s.rxQueue fd = m :: rest) :
    NetInv { s.setRxQueue fd rest with heap := skbFree s.heap (some m.skb) } := by
  have hqueued : s.queued = m.skb ::ₘ tableOwners queueSkbs (s.gRxQueues.insert fd rest) := by
    rw [hI.queued_eq hfd, hq, queueSkbs_cons, Multiset.cons_add, tableOwners_insert]
  have hmem : fd ∈ s.gSockets := AList.lookup_isSome.mp (by rw [hfd]; rfl)
  have hsingle := hqueued ▸ hI.single
  exact {
    paired := fun k => by
      show k ∈ s.gRxQueues.insert fd rest ↔ k ∈ s.gSockets
      rw [AList.mem_insert, hI.paired]
      exact or_iff_right_of_imp fun hk => hk ▸ hmem
    accounts := (hqueued ▸ hI.accounts).release
    single := (Multiset.nodup_cons.mp hsingle).2
    filled := by
      intro p hp
      have hne : p ≠ m.skb := fun heq => (Multiset.nodup_cons.mp hsingle).1 (heq ▸ hp)
      obtain ⟨content, hcontent⟩ := hI.filled p (hqueued ▸ Multiset.mem_cons_of_mem hp)
      exact ⟨content, (RefHeap.read_release_of_ne s.heap hne).trans hcontent⟩ }

/-- The queue of a socket that is closed is freed. -/
theorem close {fd : ℤ} {socket : SocketState} (hfd : s.gSockets.lookup fd = some socket) :
    NetInv { s with
      gSockets := s.gSockets.erase fd
      heap := s.heap.releaseAll ((s.rxQueue fd).map SkbMeta.skb)
      gRxQueues := s.gRxQueues.erase fd } := by
  have hqueued := hI.queued_eq hfd
  have hsingle := Multiset.nodup_add.mp (hqueued ▸ hI.single)
  exact {
    paired := fun k => by
      show k ∈ s.gRxQueues.erase fd ↔ k ∈ s.gSockets.erase fd
      rw [AList.mem_erase, AList.mem_erase, hI.paired]
    accounts := RefHeap.Accounts.releaseAll (hqueued ▸ hI.accounts)
    single := hsingle.2.1
    filled := by
      intro p hp
      have hnot : p ∉ (s.rxQueue fd).map SkbMeta.skb :=
        fun hmem => Multiset.disjoint_left.mp hsingle.2.2 hmem hp
      obtain ⟨content, hcontent⟩ := hI.filled p (hqueued ▸ Multiset.mem_add.mpr (.inr hp))
      exact ⟨content, (RefHeap.read_releaseAll_of_not_mem s.heap hnot).trans hcontent⟩ }

end NetInv

end UsrLinuxEmu.Net
