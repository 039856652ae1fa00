import UsrLinuxEmu.Net.Datagrams
import UsrLinuxEmu.Transition.Simulation

/-!
# The sockets implement the datagram service

* `NetState.view`, `netCall_refines` — a call answers as the service does, and leaves the sockets as
  the service leaves them;
* `fdFree_guarded` — a run that opens at most `2^32` sockets is never handed an open descriptor;
* `netCalls_accounted` — along every such run the buffers are those of the waiting datagrams;
* `netCalls_fifo` — along every such run datagrams are delivered once and in order.
-/

namespace UsrLinuxEmu.Net

open UsrLinuxEmu.Heap UsrLinuxEmu.Transition

/-! ### What the service sees of the process -/

namespace NetState

/-- The datagram of a queue entry. -/
def datagram (s : NetState) (m : SkbMeta) : Datagram :=
  ⟨m.srcAddr, m.srcPort, ((s.heap.read m.skb).map SkBuffImpl.payload).getD []⟩

def port (s : NetState) (fd : ℤ) : Option LoopbackPort :=
  (s.gSockets.lookup fd).map fun socket =>
    ⟨if socket.bound then some (socket.addr, socket.port) else none,
      (s.rxQueue fd).map s.datagram⟩

def view (s : NetState) : Loopback := ⟨s.port, s.gNextFd⟩

@[simp] theorem view_initial : initial.view = .initial := rfl

/-- The outcome of a call, as the service sees it. -/
def seen {α : Type*} (r : α × NetState) : α × Loopback := (r.1, r.2.view)

end NetState

/-! ### The calls refine the service -/

section Refinement

open NetState

variable {s : NetState}

/-- The buffers of the other sockets. -/
abbrev otherSkbs (s : NetState) (fd : ℤ) : Multiset ℕ :=
  tableOwners queueSkbs (s.gRxQueues.erase fd)

theorem mem_otherSkbs {fd k : ℤ} (hk : k ≠ fd) {m : SkbMeta} (hm : m ∈ s.rxQueue k) :
    m.skb ∈ otherSkbs s fd := by
  rw [NetState.rxQueue] at hm
  cases hq : s.gRxQueues.lookup k with
  | none =>
    rw [hq] at hm
    exact absurd hm List.not_mem_nil
  | some q =>
    rw [hq] at hm
    exact (mem_tableOwners queueSkbs _).mpr
      ⟨k, q, (AList.lookup_erase_ne hk).trans hq, List.mem_map_of_mem hm⟩

/-- A socket whose queue and buffers are left as they are. -/
theorem port_congr {s' : NetState} {fd : ℤ}
    (hsocket : s'.gSockets.lookup fd = s.gSockets.lookup fd) (hq : s'.rxQueue fd = s.rxQueue fd)
    (hread : ∀ m ∈ s.rxQueue fd, s'.heap.read m.skb = s.heap.read m.skb) :
    s'.port fd = s.port fd := by
  have hmap : (s.rxQueue fd).map s'.datagram = (s.rxQueue fd).map s.datagram := by
    refine List.map_congr_left fun m hm => ?_
    rw [NetState.datagram, NetState.datagram, hread m hm]
  rw [NetState.port, NetState.port, hsocket, hq, hmap]

theorem port_eq_none {fd : ℤ} (h : s.gSockets.lookup fd = none) : s.view.ports fd = none := by
  show s.port fd = none
  rw [NetState.port, h]
  rfl

theorem port_eq_some {fd : ℤ} {socket : SocketState} (h : s.gSockets.lookup fd = some socket) :
    s.view.ports fd = some ⟨if socket.bound then some (socket.addr, socket.port) else none,
      (s.rxQueue fd).map s.datagram⟩ := by
  show s.port fd = _
  rw [NetState.port, h]
  rfl

/-- The loop finds what the service defines. -/
theorem destination_view (dstAddr : UInt64) (dstPort : UInt16) :
    s.view.destination dstAddr dstPort = s.findDst dstAddr dstPort := by
  have hset : s.view.boundAt dstAddr dstPort = {fd | s.boundTo dstAddr dstPort fd = true} := by
    ext fd
    show (∃ p, s.view.ports fd = some p ∧ p.bound = some (dstAddr, dstPort)) ↔ _
    rw [Set.mem_ofPred_eq, NetState.boundTo]
    cases hfd : s.gSockets.lookup fd with
    | none => simp [port_eq_none hfd]
    | some socket =>
      rw [port_eq_some hfd]
      cases hb : socket.bound <;> simp [hb]
  refine Option.ext fun d => ?_
  rw [Loopback.destination_iff, hset, NetState.findDst_iff]

variable (hI : NetInv s)
include hI

theorem socket_refines (hfresh : 0 ≤ s.gNextFd → s.gNextFd ∉ s.gSockets) :
    seen s.usNetSocket = s.view.socket ∧ NetInv s.usNetSocket.2 := by
  rw [NetState.usNetSocket, Loopback.socket]
  show seen (if s.gNextFd < 0 then _ else _) = (if s.gNextFd < 0 then _ else _) ∧ _
  split_ifs with hneg
  · exact ⟨rfl, hI.congr rfl rfl fun _ => Iff.rfl⟩
  · refine ⟨Prod.ext rfl ?_, hI.open_ (hfresh (not_lt.mp hneg)) _ _⟩
    refine congrArg (Loopback.mk · _) (funext fun fd => ?_)
    show NetState.port _ fd = Function.update s.port s.gNextFd (some ⟨none, []⟩) fd
    by_cases hfd : fd = s.gNextFd
    · subst hfd
      rw [Function.update_self]
      simp [NetState.port, NetState.rxQueue]
    · rw [Function.update_of_ne hfd]
      refine port_congr ?_ ?_ fun _ _ => rfl
      · exact AList.lookup_insert_ne hfd
      · exact congrArg (Option.getD · []) (AList.lookup_insert_ne hfd)

theorem bind_refines (fd : ℤ) (addr : UInt64) (port : UInt16) :
    seen (s.usNetBind fd addr port) = s.view.bind fd addr port ∧
      NetInv (s.usNetBind fd addr port).2 := by
  cases hfd : s.gSockets.lookup fd with
  | none =>
    rw [NetState.usNetBind, hfd, Loopback.bind, port_eq_none hfd]
    exact ⟨rfl, hI⟩
  | some socket =>
    rw [NetState.usNetBind, hfd, Loopback.bind, port_eq_some hfd]
    dsimp only
    split_ifs with harg
    · exact ⟨rfl, hI⟩
    · refine ⟨Prod.ext rfl ?_, hI.congr rfl rfl fun k => ?_⟩
      · refine congrArg (Loopback.mk · _) (funext fun k => ?_)
        show NetState.port _ k = Function.update s.port fd _ k
        by_cases hk : k = fd
        · subst hk
          rw [Function.update_self, NetState.port, AList.lookup_insert]
          rfl
        · rw [Function.update_of_ne hk]
          exact port_congr (AList.lookup_insert_ne hk) rfl fun _ _ => rfl
      · show k ∈ s.gSockets.insert fd _ ↔ _
        rw [AList.mem_insert]
        exact or_iff_right_of_imp fun hk => hk ▸ AList.lookup_isSome.mp (by rw [hfd]; rfl)

omit hI in
/-- A new queue for a socket, in a heap that keeps the buffers of the others. -/
theorem port_setRxQueue {fd : ℤ} {socket : SocketState} (hfd : s.gSockets.lookup fd = some socket)
    {heap : SkbHeap} (hread : ∀ p ∈ otherSkbs s fd, heap.read p = s.heap.read p)
    {q : List SkbMeta} {pending : List Datagram}
    (hq : q.map (NetState.datagram { s with heap := heap }) = pending) :
    (NetState.setRxQueue { s with heap := heap } fd q).view =
      s.view.setPort fd ((s.view.ports fd).map fun p => { p with pending := pending }) := by
  refine congrArg (Loopback.mk · _) (funext fun k => ?_)
  show NetState.port _ k = Function.update s.port fd _ k
  by_cases hk : k = fd
  · subst hk
    rw [Function.update_self, port_eq_some hfd, ← hq, NetState.port]
    show (s.gSockets.lookup k).map _ = _
    rw [hfd, NetState.rxQueue, NetState.setRxQueue, AList.lookup_insert]
    rfl
  · rw [Function.update_of_ne hk]
    refine port_congr rfl (congrArg (Option.getD · []) (AList.lookup_insert_ne hk)) ?_
    exact fun m hm => hread m.skb (mem_otherSkbs hk hm)

theorem mem_queued_of_other {fd : ℤ} {socket : SocketState}
    (hfd : s.gSockets.lookup fd = some socket) {p : ℕ} (hp : p ∈ otherSkbs s fd) :
    p ∈ s.queued := by
  rw [hI.queued_eq hfd]
  exact Multiset.mem_add.mpr (.inr hp)

theorem mem_queued_of_rxQueue {fd : ℤ} {socket : SocketState}
    (hfd : s.gSockets.lookup fd = some socket) {m : SkbMeta} (hm : m ∈ s.rxQueue fd) :
    m.skb ∈ s.queued := by
  rw [hI.queued_eq hfd]
  exact Multiset.mem_add.mpr (.inl (List.mem_map_of_mem hm))

/-- The queues hold what they held when a buffer has been filled for a new datagram. -/
theorem view_deliver {d : ℤ} {socket : SocketState} (hd : s.gSockets.lookup d = some socket)
    (bytes : List UInt8) (addr : UInt64) (port : UInt16) :
    (NetState.setRxQueue { s with heap := skbSend s.heap bytes } d
        (s.rxQueue d ++ [⟨addr, port, s.heap.next⟩])).view =
      s.view.push d ⟨addr, port, bytes⟩ := by
  have hold : ∀ m ∈ s.rxQueue d,
      NetState.datagram { s with heap := skbSend s.heap bytes } m = s.datagram m := by
    intro m hm
    rw [NetState.datagram, NetState.datagram, hI.read_skbSend (mem_queued_of_rxQueue hI hd hm)]
  have hnew : NetState.datagram { s with heap := skbSend s.heap bytes } ⟨addr, port, s.heap.next⟩ =
      ⟨addr, port, bytes⟩ := by
    rw [NetState.datagram, read_skbSend, if_pos rfl]
    rfl
  rw [port_setRxQueue hd (fun p hp => hI.read_skbSend (mem_queued_of_other hI hd hp) bytes) rfl,
    List.map_append, List.map_congr_left hold, List.map_singleton, hnew, Loopback.push,
    port_eq_some hd]
  rfl

theorem view_drop (bytes : List UInt8) :
    NetState.view { s with heap := skbFree (skbSend s.heap bytes) (some s.heap.next) } =
      s.view := by
  refine congrArg (Loopback.mk · _) (funext fun k => ?_)
  cases hk : s.gSockets.lookup k with
  | none =>
    rw [NetState.port, NetState.port, hk]
    rfl
  | some socket =>
    refine port_congr rfl rfl fun m hm => ?_
    have hmem := mem_queued_of_rxQueue hI hk hm
    have hne : m.skb ≠ s.heap.next := fun heq => hI.accounts.not_mem_next (heq ▸ hmem)
    exact (RefHeap.read_release_of_ne _ hne).trans (hI.read_skbSend hmem bytes)

omit hI in
/-- A `sendto` that is given all it needs. -/
theorem usNetSendto_sent {fd : ℤ} {addr : UInt64} {port : UInt16}
    (hfd : s.gSockets.lookup fd = some ⟨true, addr, port⟩) {bytes : List UInt8} (hb : bytes ≠ [])
    (dstAddr : UInt64) (dstPort : UInt16) :
    s.usNetSendto fd (some bytes) dstAddr dstPort true =
      match s.findDst dstAddr dstPort with
      | none => (-1, { s with heap := skbFree (skbSend s.heap bytes) (some s.heap.next) })
      | some d => (toInt bytes.length, setRxQueue { s with heap := skbSend s.heap bytes } d
          (s.rxQueue d ++ [⟨addr, port, s.heap.next⟩])) := by
  have hlen : bytes.length ≠ 0 := fun h => hb (List.length_eq_zero_iff.mp h)
  have halloc : skbAlloc s.heap bytes.length true = (some s.heap.next,
      (s.heap.alloc ⟨bytes.length, List.replicate bytes.length 0⟩).2) := by
    rw [skbAlloc, if_neg hlen]
    rfl
  rw [usNetSendto, hfd]
  simp only [Bool.not_true, Bool.false_eq_true, if_false, if_neg hlen, halloc]
  rfl

theorem sendto_refines (fd : ℤ) (buf : Option (List UInt8)) (dstAddr : UInt64) (dstPort : UInt16)
    (malloc : Bool) :
    seen (s.usNetSendto fd buf dstAddr dstPort malloc) =
        s.view.sendto fd buf dstAddr dstPort malloc ∧
      NetInv (s.usNetSendto fd buf dstAddr dstPort malloc).2 := by
  cases hfd : s.gSockets.lookup fd with
  | none =>
    rw [usNetSendto, hfd, Loopback.sendto, port_eq_none hfd]
    exact ⟨rfl, hI⟩
  | some socket =>
    obtain ⟨bound, addr, port⟩ := socket
    have hport : s.view.ports fd =
        some ⟨if bound then some (addr, port) else none, (s.rxQueue fd).map s.datagram⟩ :=
      port_eq_some hfd
    cases bound with
    | false =>
      rw [usNetSendto, hfd, Loopback.sendto, hport]
      exact ⟨rfl, hI⟩
    | true =>
      cases buf with
      | none =>
        rw [usNetSendto, hfd, Loopback.sendto, hport]
        exact ⟨rfl, hI⟩
      | some bytes =>
        by_cases hempty : bytes = []
        · have hlen : bytes.length = 0 := List.length_eq_zero_iff.mpr hempty
          rw [usNetSendto, hfd]
          simp only [Loopback.sendto, hport, if_true, if_pos hempty, if_pos hlen, Bool.not_true,
            Bool.false_eq_true, if_false]
          exact ⟨rfl, hI⟩
        · have hlen : bytes.length ≠ 0 := fun h => hempty (List.length_eq_zero_iff.mp h)
          simp only [Loopback.sendto, hport, if_true, if_neg hempty]
          cases malloc with
          | false =>
            have halloc : skbAlloc s.heap bytes.length false = (none, s.heap) := if_neg hlen
            rw [usNetSendto, hfd]
            simp only [Bool.not_true, Bool.false_eq_true, if_false, if_neg hlen, halloc]
            exact ⟨rfl, hI⟩
          | true =>
            rw [usNetSendto_sent hfd hempty, destination_view]
            simp only [Bool.not_true, Bool.false_eq_true, if_false]
            cases hdst : s.findDst dstAddr dstPort with
            | none => exact ⟨congrArg (Prod.mk _) (view_drop hI bytes), hI.drop bytes⟩
            | some d =>
              have hd := lookup_findDst hdst
              refine ⟨?_, hI.deliver hd bytes addr port⟩
              dsimp only [seen]
              rw [view_deliver hI hd]

omit hI in
/-- A receive queue that is empty is created where it is missing. -/
theorem view_touch {fd : ℤ} {socket : SocketState} (hfd : s.gSockets.lookup fd = some socket)
    (hq : s.rxQueue fd = []) : (s.setRxQueue fd []).view = s.view := by
  refine (port_setRxQueue hfd (fun _ _ => rfl) rfl).trans (Loopback.setPort_of_eq ?_)
  rw [port_eq_some hfd, hq]
  rfl

/-- What is received is the oldest datagram. -/
theorem view_receive {fd : ℤ} {socket : SocketState} {m : SkbMeta} {rest : List SkbMeta}
    (hfd : s.gSockets.lookup fd = some socket) (hq : s.rxQueue fd = m :: rest) :
    NetState.view { s.setRxQueue fd rest with heap := skbFree s.heap (some m.skb) } =
      s.view.setPort fd (some ⟨if socket.bound then some (socket.addr, socket.port) else none,
        rest.map s.datagram⟩) := by
  have hqueued := hI.queued_eq hfd
  rw [hq, queueSkbs_cons, Multiset.cons_add] at hqueued
  have hnot := (Multiset.nodup_cons.mp (hqueued ▸ hI.single)).1
  have hkeep : ∀ p ∈ queueSkbs rest + otherSkbs s fd,
      (skbFree s.heap (some m.skb)).read p = s.heap.read p :=
    fun p hp => RefHeap.read_release_of_ne s.heap fun heq => hnot (heq ▸ hp)
  have hrest : rest.map (datagram { s with heap := skbFree s.heap (some m.skb) }) =
      rest.map s.datagram := by
    refine List.map_congr_left fun m' hm' => ?_
    have hmem : m'.skb ∈ queueSkbs rest + otherSkbs s fd :=
      Multiset.mem_add.mpr (.inl (List.mem_map_of_mem hm'))
    rw [datagram, datagram, hkeep m'.skb hmem]
  refine (port_setRxQueue hfd (fun p hp => hkeep p (Multiset.mem_add.mpr (.inr hp))) hrest).trans ?_
  rw [port_eq_some hfd]
  rfl

/-- The bytes that are received are those of the datagram. -/
theorem usNetRecvfrom_received {fd : ℤ} {socket : SocketState} {m : SkbMeta} {rest : List SkbMeta}
    (hfd : s.gSockets.lookup fd = some socket) (hq : s.rxQueue fd = m :: rest) {maxLen : ℕ}
    (hmax : maxLen ≠ 0) (srcAddr srcPort : Bool) :
    s.usNetRecvfrom fd true maxLen srcAddr srcPort =
      (Loopback.received (s.datagram m) maxLen srcAddr srcPort,
        { s.setRxQueue fd rest with heap := skbFree s.heap (some m.skb) }) := by
  have hmem : m.skb ∈ s.queued := mem_queued_of_rxQueue hI hfd (hq ▸ List.mem_cons_self)
  obtain ⟨bytes, hbytes⟩ := hI.filled m.skb hmem
  have hlen : skbLen s.heap (some m.skb) = (bytes.length, s.heap) := by
    rw [skbLen, hbytes, hI.accounts.access hmem]
    rfl
  have hdata : skbData s.heap m.skb = (bytes, s.heap) := by
    rw [skbData, hbytes, hI.accounts.access hmem]
    rfl
  have hdatagram : s.datagram m = ⟨m.srcAddr, m.srcPort, bytes⟩ := by
    rw [datagram, hbytes]
    rfl
  have hmin : (if maxLen < bytes.length then maxLen else bytes.length) = min maxLen bytes.length := by
    split_ifs <;> omega
  have htake : bytes.take (min maxLen bytes.length) = bytes.take maxLen :=
    List.take_eq_take_iff.mpr (by omega)
  have hheap : (s.setRxQueue fd rest).heap = s.heap := rfl
  have hmax' : (maxLen == 0) = false := beq_eq_false_iff_ne.mpr hmax
  rw [usNetRecvfrom, hfd]
  simp only [hmax', Bool.not_true, Bool.or_false, Bool.false_eq_true, if_false, hq, hheap, hlen,
    hdata, hmin, htake, hdatagram, Loopback.received]

theorem recvfrom_refines (fd : ℤ) (buf : Bool) (maxLen : ℕ) (srcAddr srcPort : Bool) :
    seen (s.usNetRecvfrom fd buf maxLen srcAddr srcPort) =
        s.view.recvfrom fd buf maxLen srcAddr srcPort ∧
      NetInv (s.usNetRecvfrom fd buf maxLen srcAddr srcPort).2 := by
  cases hfd : s.gSockets.lookup fd with
  | none =>
    rw [usNetRecvfrom, hfd, Loopback.recvfrom, port_eq_none hfd]
    exact ⟨rfl, hI⟩
  | some socket =>
    rw [Loopback.recvfrom, port_eq_some hfd]
    by_cases harg : (!buf || maxLen == 0) = true
    · rw [usNetRecvfrom, hfd]
      simp only [if_pos harg]
      exact ⟨rfl, hI⟩
    · simp only [if_neg harg]
      cases hq : s.rxQueue fd with
      | nil =>
        rw [usNetRecvfrom, hfd]
        simp only [if_neg harg, hq]
        exact ⟨congrArg (Prod.mk _) (view_touch hfd hq), hI.touch hfd hq⟩
      | cons m rest =>
        obtain ⟨rfl, hmax⟩ : buf = true ∧ maxLen ≠ 0 := by simpa using harg
        rw [usNetRecvfrom_received hI hfd hq hmax]
        exact ⟨congrArg (Prod.mk _) (view_receive hI hfd hq), hI.receive hfd hq⟩

theorem close_refines (fd : ℤ) :
    seen (s.usNetClose fd) = s.view.close fd ∧ NetInv (s.usNetClose fd).2 := by
  cases hfd : s.gSockets.lookup fd with
  | none =>
    rw [usNetClose, hfd, Loopback.close, port_eq_none hfd]
    exact ⟨rfl, hI⟩
  | some socket =>
    rw [Loopback.close, port_eq_some hfd, usNetClose, hfd]
    simp only [hI.rxQueue_of_lookup hfd]
    have hfree : (s.rxQueue fd).foldl (fun heap m => skbFree heap (some m.skb)) s.heap =
        s.heap.releaseAll ((s.rxQueue fd).map SkbMeta.skb) := by
      rw [RefHeap.releaseAll, List.foldl_map]
      rfl
    rw [hfree]
    refine ⟨Prod.ext rfl ?_, hI.close hfd⟩
    refine congrArg (Loopback.mk · _) (funext fun k => ?_)
    show NetState.port _ k = Function.update s.port fd none k
    by_cases hk : k = fd
    · subst hk
      rw [Function.update_self, NetState.port, AList.lookup_erase]
      rfl
    · rw [Function.update_of_ne hk]
      refine port_congr (AList.lookup_erase_ne hk)
        (congrArg (Option.getD · []) (AList.lookup_erase_ne hk)) fun m hm => ?_
      have hdisjoint := (Multiset.nodup_add.mp (hI.queued_eq hfd ▸ hI.single)).2.2
      have hnot : m.skb ∉ (s.rxQueue fd).map SkbMeta.skb :=
        fun hmem => Multiset.disjoint_left.mp hdisjoint hmem (mem_otherSkbs hk hm)
      exact RefHeap.read_releaseAll_of_not_mem s.heap hnot

end Refinement

/-! ### Every run -/

/-- A descriptor that a socket call hands out is not open. -/
def FdFree (s : NetState) (c : NetCall) : Prop :=
  c = .socket → 0 ≤ s.gNextFd → s.gNextFd ∉ s.gSockets

/-- One call: the service answers the same, and is left in the state that the process shows. -/
theorem netCall_refines {s : NetState} (hI : NetInv s) {c : NetCall} (hfresh : FdFree s c) :
    (netReply s c, (netStep s c).view) = s.view.call c ∧ NetInv (netStep s c) := by
  cases c with
  | socket =>
    obtain ⟨h, hinv⟩ := socket_refines hI (hfresh rfl)
    exact ⟨by rw [Loopback.call, ← h]; rfl, hinv⟩
  | bind fd addr port =>
    obtain ⟨h, hinv⟩ := bind_refines hI fd addr port
    exact ⟨by rw [Loopback.call, ← h]; rfl, hinv⟩
  | sendto fd buf dstAddr dstPort malloc =>
    obtain ⟨h, hinv⟩ := sendto_refines hI fd buf dstAddr dstPort malloc
    exact ⟨by rw [Loopback.call, ← h]; rfl, hinv⟩
  | recvfrom fd buf maxLen srcAddr srcPort =>
    obtain ⟨h, hinv⟩ := recvfrom_refines hI fd buf maxLen srcAddr srcPort
    exact ⟨by rw [Loopback.call, ← h]; rfl, hinv⟩
  | close fd =>
    obtain ⟨h, hinv⟩ := close_refines hI fd
    exact ⟨by rw [Loopback.call, ← h]; rfl, hinv⟩

theorem fdFree_of_issued {n : ℕ} {s : NetState} (hF : FdsIssued n s.view) {c : NetCall}
    (hn : n + (if c.opens then 1 else 0) ≤ 2 ^ 32) : FdFree s c := by
  rintro rfl - hmem
  have hnone : s.port s.gNextFd = none := hF.nextFd_free (Nat.lt_of_succ_le hn)
  obtain ⟨socket, hsocket⟩ := Option.isSome_iff_exists.mp (AList.lookup_isSome.mpr hmem)
  have hsome : s.port s.gNextFd ≠ none := by
    have hport := port_eq_some hsocket
    show s.view.ports s.gNextFd ≠ none
    rw [hport]
    exact Option.some_ne_none _
  exact hsome hnone

/-- A run that opens less than all descriptors never hands one out that is open. -/
theorem fdFree_guarded {n : ℕ} {s : NetState} (hI : NetInv s) (hF : FdsIssued n s.view)
    {as : List NetCall} (hn : n + as.countP NetCall.opens ≤ 2 ^ 32) :
    Guarded netStep FdFree s as := by
  induction as generalizing n s with
  | nil => trivial
  | cons c as ih =>
    rw [List.countP_cons] at hn
    have hfree : FdFree s c := fdFree_of_issued hF (by omega)
    obtain ⟨hrefines, hinv⟩ := netCall_refines hI hfree
    have hview : (netStep s c).view = (s.view.call c).2 := congrArg Prod.snd hrefines
    exact ⟨hfree, ih hinv (hview ▸ hF.call c) (by omega)⟩

/-- **Every buffer has one owner.**  Along every run that opens at most `2^32` sockets, no buffer is
used after it has been freed or freed twice, and the buffers that are allocated are those of the
datagrams that are waiting in a receive queue, each with one reference. -/
theorem netCalls_accounted (as : List NetCall) (hn : as.countP NetCall.opens ≤ 2 ^ 32) :
    Always netStep NetInv .initial as := by
  have hguard : Guarded netStep FdFree .initial as :=
    fdFree_guarded netInv_initial fdsIssued_initial (by rwa [zero_add])
  refine always_of_inductive (fun s c hI hG => ?_) netInv_initial hguard
  exact (netCall_refines hI hG).2

/-- Two sockets with the same address: the older one receives, and closing it frees the rest. -/
def loopbackExchange : List NetCall :=
  [.socket, .socket, .bind 1000 5 80, .bind 1001 5 80, .sendto 1001 (some [1, 2, 3]) 5 80 true,
    .sendto 1001 (some [4]) 5 80 true, .recvfrom 1000 true 2 true true, .close 1000,
    .sendto 1001 (some [5]) 5 80 true, .recvfrom 1001 true 8 true false]

theorem netCalls_accounted_exchange :
    loopbackExchange.countP NetCall.opens ≤ 2 ^ 32 ∧
      Always netStep NetInv .initial loopbackExchange :=
  ⟨by decide, netCalls_accounted loopbackExchange (by decide)⟩

/-! ### Every run receives in order -/

/-- The process with the history of its datagrams. -/
noncomputable abbrev watchedNet (x : DatagramHistory × NetState) (c : NetCall) :
    DatagramHistory × NetState :=
  observed netStep (fun h s c => h.note s.view c (netReply s c)) x c

/-- What the watcher checks: the call answers as the datagram service does. -/
def AnswersAsLoopback (x : DatagramHistory × NetState) (c : NetCall) : Prop :=
  (netReply x.2 c, (netStep x.2 c).view) = x.2.view.call c

/-- **Datagrams are delivered once and in order.**  Along every run that opens at most `2^32`
sockets, every call answers as the datagram service does, and what a socket has received are the
datagrams that were sent to it, oldest first, each with the sender's address and as much of its
contents as there was room for; those that it has not received are pending. -/
theorem netCalls_fifo (as : List NetCall) (hn : as.countP NetCall.opens ≤ 2 ^ 32) :
    Guarded watchedNet AnswersAsLoopback (.empty, .initial) as ∧
      Always watchedNet (fun x => FifoSound x.1 x.2.view) (.empty, .initial) as := by
  have hguard : Guarded watchedNet (fun x c => FdFree x.2 c) (.empty, .initial) as :=
    (guarded_observed netStep _ FdFree _ as).mpr
      (fdFree_guarded netInv_initial fdsIssued_initial (by rwa [zero_add]))
  have hstep : ∀ x c, NetInv x.2 ∧ FifoSound x.1 x.2.view → FdFree x.2 c →
      NetInv (watchedNet x c).2 ∧ FifoSound (watchedNet x c).1 (watchedNet x c).2.view := by
    rintro ⟨h, s⟩ c ⟨hI, hS⟩ hfree
    obtain ⟨hrefines, hinv⟩ := netCall_refines hI hfree
    refine ⟨hinv, ?_⟩
    have hcall := hS.call c
    rw [← hrefines] at hcall
    exact hcall
  have hstart : NetInv NetState.initial ∧ FifoSound .empty NetState.initial.view :=
    ⟨netInv_initial, FifoSound.empty⟩
  constructor
  · refine guarded_of_inductive hstep ?_ hstart hguard
    rintro ⟨h, s⟩ c ⟨hI, _⟩ hfree
    exact (netCall_refines hI hfree).1
  · exact (always_of_inductive hstep hstart hguard).mono _ fun _ hx => hx.2

theorem netCalls_fifo_exchange :
    loopbackExchange.countP NetCall.opens ≤ 2 ^ 32 ∧
      Guarded watchedNet AnswersAsLoopback (.empty, .initial) loopbackExchange ∧
      Always watchedNet (fun x => FifoSound x.1 x.2.view) (.empty, .initial) loopbackExchange :=
  ⟨by decide, netCalls_fifo loopbackExchange (by decide)⟩

example : (run netStep .initial loopbackExchange).heap.block 0 = none := by decide

end UsrLinuxEmu.Net
