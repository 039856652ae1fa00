import UsrLinuxEmu.Net.Socket

/-!
# A datagram service

* `Loopback` — open sockets with their address and their pending datagrams; no buffers;
* `Loopback.call` — what a call returns and does; of the sockets with the address, the one with the
  least descriptor gets a datagram;
* `FdsIssued` — descriptors are values of a counter, new ones until it has gone all the way round;
* `DatagramHistory`, `FifoSound` — what was sent to a socket is what it has received, in that order,
  followed by what is pending;
* `FifoSound.call` — every call keeps that.
-/

namespace UsrLinuxEmu.Net

/-! ### The service -/

structure Datagram where
  srcAddr : UInt64
  srcPort : UInt16
  bytes : List UInt8
  deriving DecidableEq, Repr

/-- An open socket. -/
structure LoopbackPort where
  bound : Option (UInt64 × UInt16)
  pending : List Datagram

structure Loopback where
  ports : ℤ → Option LoopbackPort
  nextFd : ℤ

namespace Loopback

def initial : Loopback := ⟨fun _ => none, 1000⟩

def setPort (l : Loopback) (fd : ℤ) (port : Option LoopbackPort) : Loopback :=
  { l with ports := Function.update l.ports fd port }

@[simp] theorem setPort_self (l : Loopback) (fd : ℤ) (port : Option LoopbackPort) :
    (l.setPort fd port).ports fd = port :=
  Function.update_self ..

theorem setPort_of_ne (l : Loopback) {fd k : ℤ} (hk : k ≠ fd) (port : Option LoopbackPort) :
    (l.setPort fd port).ports k = l.ports k :=
  Function.update_of_ne hk _ _

theorem setPort_of_eq {l : Loopback} {fd : ℤ} {port : Option LoopbackPort}
    (h : l.ports fd = port) : l.setPort fd port = l := by
  rw [setPort, ← h, Function.update_eq_self]

/-- The sockets with an address. -/
def boundAt (l : Loopback) (addr : UInt64) (port : UInt16) : Set ℤ :=
  {fd | ∃ p, l.ports fd = some p ∧ p.bound = some (addr, port)}

open Classical in
/-- The socket with the least descriptor among those with an address; as long as the counter has not
gone round, it is the oldest. -/
noncomputable def destination (l : Loopback) (addr : UInt64) (port : UInt16) : Option ℤ :=
  if h : ∃ fd, IsLeast (l.boundAt addr port) fd then some h.choose else none

theorem destination_iff (l : Loopback) (addr : UInt64) (port : UInt16) (fd : ℤ) :
    l.destination addr port = some fd ↔ IsLeast (l.boundAt addr port) fd := by
  rw [destination]
  split_ifs with h
  · rw [Option.some.injEq]
    constructor
    · rintro rfl
      exact h.choose_spec
    · exact h.choose_spec.unique
  · exact iff_of_false not_false fun hleast => h ⟨fd, hleast⟩

/-- What a datagram looks like to a receiver with room for `maxLen` bytes. -/
def received (d : Datagram) (maxLen : ℕ) (srcAddr srcPort : Bool) : NetReply :=
  ⟨toInt (min maxLen d.bytes.length : ℕ), d.bytes.take maxLen,
    if srcAddr then some d.srcAddr else none, if srcPort then some d.srcPort else none⟩

/-- A datagram is appended to what is pending at a socket. -/
def push (l : Loopback) (fd : ℤ) (d : Datagram) : Loopback :=
  l.setPort fd ((l.ports fd).map fun p => { p with pending := p.pending ++ [d] })

def socket (l : Loopback) : ℤ × Loopback :=
  let next := { l with nextFd := toInt (l.nextFd + 1) }
  if l.nextFd < 0 then (-eNOMEM, next)
  else (l.nextFd, next.setPort l.nextFd (some ⟨none, []⟩))

def bind (l : Loopback) (fd : ℤ) (addr : UInt64) (port : UInt16) : ℤ × Loopback :=
  match l.ports fd with
  | none => (-eBADF, l)
  | some p =>
    if addr = 0 ∨ port = 0 then (-eINVAL, l)
    else (0, l.setPort fd (some { p with bound := some (addr, port) }))

noncomputable def sendto (l : Loopback) (fd : ℤ) (buf : Option (List UInt8)) (dstAddr : UInt64)
    (dstPort : UInt16) (malloc : Bool) : ℤ × Loopback :=
  match l.ports fd with
  | none => (-eBADF, l)
  | some p =>
    match p.bound with
    | none => (-1, l)
    | some (addr, port) =>
      match buf with
      | none => (-eINVAL, l)
      | some bytes =>
        if bytes = [] then (-eINVAL, l)
        else if !malloc then (-eNOMEM, l)
        else
          match l.destination dstAddr dstPort with
          | none => (-1, l)
          | some dst => (toInt bytes.length, l.push dst ⟨addr, port, bytes⟩)

def recvfrom (l : Loopback) (fd : ℤ) (buf : Bool) (maxLen : ℕ) (srcAddr srcPort : Bool) :
    NetReply × Loopback :=
  match l.ports fd with
  | none => (.code (-eBADF), l)
  | some p =>
    if !buf || maxLen == 0 then (.code (-eINVAL), l)
    else
      match p.pending with
      | [] => (.code (-eAGAIN), l)
      | d :: rest => (received d maxLen srcAddr srcPort, l.setPort fd (some { p with pending := rest }))

def close (l : Loopback) (fd : ℤ) : ℤ × Loopback :=
  match l.ports fd with
  | none => (-eBADF, l)
  | some _ => (0, l.setPort fd none)

/-- The datagram that a call sends, and the socket that it goes to. -/
noncomputable def accepted (l : Loopback) : NetCall → Option (ℤ × Datagram)
  | .sendto fd (some bytes) dstAddr dstPort true =>
    match (l.ports fd).bind LoopbackPort.bound with
    | none => none
    | some (addr, port) =>
      if bytes = [] then none
      else (l.destination dstAddr dstPort).map fun dst => (dst, ⟨addr, port, bytes⟩)
  | _ => none

theorem sendto_eq (l : Loopback) (fd : ℤ) (buf : Option (List UInt8)) (dstAddr : UInt64)
    (dstPort : UInt16) (malloc : Bool) :
    (l.sendto fd buf dstAddr dstPort malloc).2 =
      match l.accepted (.sendto fd buf dstAddr dstPort malloc) with
      | none => l
      | some (dst, d) => l.push dst d := by
  rw [sendto]
  cases hport : l.ports fd with
  | none => cases buf <;> cases malloc <;> simp [accepted, hport]
  | some p =>
    obtain ⟨bound, pending⟩ := p
    rcases bound with _ | ⟨addr, port⟩
    · cases buf <;> cases malloc <;> simp [accepted, hport]
    · rcases buf with _ | bytes
      · cases malloc <;> simp [accepted]
      · by_cases hempty : bytes = []
        · cases malloc <;> simp [accepted, hport, hempty]
        · cases malloc with
          | false => simp [accepted, hempty]
          | true =>
            cases hdst : l.destination dstAddr dstPort <;>
              simp [accepted, hport, hempty, hdst]

/-- What is accepted has contents, and an open socket to go to. -/
theorem accepted_spec {l : Loopback} {c : NetCall} {dst : ℤ} {d : Datagram}
    (h : l.accepted c = some (dst, d)) : d.bytes ≠ [] ∧ l.ports dst ≠ none := by
  unfold accepted at h
  split at h
  · rename_i fd bytes dstAddr dstPort
    split at h
    · nomatch h
    · split_ifs at h with hempty
      obtain ⟨dst', hdst, heq⟩ := Option.map_eq_some_iff.mp h
      rw [Prod.mk.injEq] at heq
      obtain ⟨rfl, rfl⟩ := heq
      obtain ⟨p, hp, _⟩ := ((l.destination_iff _ _ _).mp hdst).1
      exact ⟨hempty, by rw [hp]; exact Option.some_ne_none p⟩
  · exact absurd h (by simp)

noncomputable def call (l : Loopback) : NetCall → NetReply × Loopback
  | .socket => (.code l.socket.1, l.socket.2)
  | .bind fd addr port => (.code (l.bind fd addr port).1, (l.bind fd addr port).2)
  | .sendto fd buf dstAddr dstPort malloc =>
    (.code (l.sendto fd buf dstAddr dstPort malloc).1,
      (l.sendto fd buf dstAddr dstPort malloc).2)
  | .recvfrom fd buf maxLen srcAddr srcPort => l.recvfrom fd buf maxLen srcAddr srcPort
  | .close fd => (.code (l.close fd).1, (l.close fd).2)

end Loopback

/-! ### Descriptors -/

/-- The open descriptors are values that the counter has passed. -/
structure FdsIssued (n : ℕ) (l : Loopback) : Prop where
  next : l.nextFd = toInt (1000 + (n : ℤ))
  issued : ∀ fd, l.ports fd ≠ none → ∃ i < n, fd = toInt (1000 + (i : ℤ))

namespace Loopback

theorem setPort_none_of_eq {l : Loopback} {fd k : ℤ} {port : Option LoopbackPort}
    (hfd : l.ports fd ≠ none) (h : (l.setPort fd port).ports k ≠ none) : l.ports k ≠ none := by
  by_cases hk : k = fd
  · exact hk ▸ hfd
  · rwa [setPort_of_ne l hk] at h

/-- No call but `socket` moves the counter or opens a socket. -/
theorem call_keeps (l : Loopback) {c : NetCall} (hc : c ≠ .socket) :
    (l.call c).2.nextFd = l.nextFd ∧
      ∀ fd, (l.call c).2.ports fd ≠ none → l.ports fd ≠ none := by
  cases c with
  | socket => exact absurd rfl hc
  | bind fd addr port =>
    rw [call, bind]
    split
    · exact ⟨rfl, fun _ => id⟩
    · rename_i p hp
      split_ifs
      · exact ⟨rfl, fun _ => id⟩
      · exact ⟨rfl, fun k => setPort_none_of_eq (by rw [hp]; exact Option.some_ne_none p)⟩
  | sendto fd buf dstAddr dstPort malloc =>
    rw [call, sendto_eq]
    split
    · exact ⟨rfl, fun _ => id⟩
    · rename_i dst d haccept
      exact ⟨rfl, fun k => setPort_none_of_eq (accepted_spec haccept).2⟩
  | recvfrom fd buf maxLen srcAddr srcPort =>
    rw [call, recvfrom]
    split
    · exact ⟨rfl, fun _ => id⟩
    · rename_i p hp
      split_ifs
      · exact ⟨rfl, fun _ => id⟩
      · split
        · exact ⟨rfl, fun _ => id⟩
        · exact ⟨rfl, fun k => setPort_none_of_eq (by rw [hp]; exact Option.some_ne_none p)⟩
  | close fd =>
    rw [call, close]
    split
    · exact ⟨rfl, fun _ => id⟩
    · rename_i p hp
      exact ⟨rfl, fun k => setPort_none_of_eq (by rw [hp]; exact Option.some_ne_none p)⟩

end Loopback

theorem toInt_inj {a b : ℤ} (h : toInt a = toInt b) : a % 2 ^ 32 = b % 2 ^ 32 := by
  have hmod : Int.bmod a (2 ^ 32) % (2 ^ 32 : ℕ) = Int.bmod b (2 ^ 32) % (2 ^ 32 : ℕ) :=
    congrArg (· % ((2 ^ 32 : ℕ) : ℤ)) h
  rw [Int.bmod_emod, Int.bmod_emod] at hmod
  exact hmod

theorem fdsIssued_initial : FdsIssued 0 .initial where
  next := rfl
  issued := fun _ h => absurd rfl h

namespace FdsIssued

variable {n : ℕ} {l : Loopback} (hF : FdsIssued n l)
include hF

theorem socket : FdsIssued (n + 1) l.socket.2 := by
  have hnext : toInt (l.nextFd + 1) = toInt (1000 + ((n + 1 : ℕ) : ℤ)) := by
    rw [hF.next, toInt, toInt, Int.bmod_add_bmod]
    exact congrArg toInt (by omega)
  have hkeep : ∀ fd, l.ports fd ≠ none → ∃ i < n + 1, fd = toInt (1000 + (i : ℤ)) := by
    intro fd hfd
    obtain ⟨i, hi, heq⟩ := hF.issued fd hfd
    exact ⟨i, Nat.lt_succ_of_lt hi, heq⟩
  rw [Loopback.socket]
  split_ifs with hneg
  · exact ⟨hnext, hkeep⟩
  · refine ⟨hnext, fun fd hfd => ?_⟩
    by_cases hk : fd = l.nextFd
    · exact ⟨n, Nat.lt_succ_self n, hk.trans hF.next⟩
    · refine hkeep fd fun hnone => hfd ?_
      exact (Function.update_of_ne hk _ _).trans hnone

theorem call (c : NetCall) : FdsIssued (n + if c.opens then 1 else 0) (l.call c).2 := by
  by_cases hc : c = .socket
  · subst hc
    exact hF.socket
  · have hopens : c.opens = false := by cases c <;> first | rfl | exact absurd rfl hc
    obtain ⟨hnext, hports⟩ := l.call_keeps hc
    rw [hopens]
    exact ⟨hnext.trans hF.next, fun fd hfd => hF.issued fd (hports fd hfd)⟩

/-- Until the counter has gone all the way round, what it hands out is new. -/
theorem nextFd_free (hn : n < 2 ^ 32) : l.ports l.nextFd = none := by
  by_contra hopen
  obtain ⟨i, hi, heq⟩ := hF.issued _ hopen
  have hmod := toInt_inj (hF.next.symm.trans heq)
  omega

end FdsIssued

/-! ### What a socket receives -/

/-- A receive that returned a datagram: the arguments, and the reply. -/
structure Receipt where
  maxLen : ℕ
  srcAddr : Bool
  srcPort : Bool
  reply : NetReply

/-- What was sent to the socket of a descriptor, and what it has returned, oldest first. -/
structure DatagramHistory where
  sent : ℤ → List Datagram
  receipts : ℤ → List Receipt

namespace DatagramHistory

def empty : DatagramHistory := ⟨fun _ => [], fun _ => []⟩

def start (h : DatagramHistory) (fd : ℤ) : DatagramHistory :=
  ⟨Function.update h.sent fd [], Function.update h.receipts fd []⟩

def addSent (h : DatagramHistory) (fd : ℤ) (d : Datagram) : DatagramHistory :=
  { h with sent := Function.update h.sent fd (h.sent fd ++ [d]) }

def addReceipt (h : DatagramHistory) (fd : ℤ) (e : Receipt) : DatagramHistory :=
  { h with receipts := Function.update h.receipts fd (h.receipts fd ++ [e]) }

/-- A new socket starts a new history; a reply that carries bytes is a receipt. -/
noncomputable def note (h : DatagramHistory) (l : Loopback) (c : NetCall) (r : NetReply) :
    DatagramHistory :=
  match c with
  | .socket => if l.nextFd < 0 then h else h.start l.nextFd
  | .recvfrom fd _ maxLen srcAddr srcPort =>
    if r.bytes = [] then h else h.addReceipt fd ⟨maxLen, srcAddr, srcPort, r⟩
  | c =>
    match l.accepted c with
    | none => h
    | some (dst, d) => h.addSent dst d

variable (h : DatagramHistory) {fd k : ℤ} (d : Datagram) (e : Receipt)

@[simp] theorem sent_addSent_self : (h.addSent fd d).sent fd = h.sent fd ++ [d] :=
  Function.update_self ..

theorem sent_addSent_of_ne (hk : k ≠ fd) : (h.addSent fd d).sent k = h.sent k :=
  Function.update_of_ne hk _ _

@[simp] theorem receipts_addReceipt_self :
    (h.addReceipt fd e).receipts fd = h.receipts fd ++ [e] :=
  Function.update_self ..

theorem receipts_addReceipt_of_ne (hk : k ≠ fd) : (h.addReceipt fd e).receipts k = h.receipts k :=
  Function.update_of_ne hk _ _

@[simp] theorem sent_start_self : (h.start fd).sent fd = [] := Function.update_self ..

@[simp] theorem receipts_start_self : (h.start fd).receipts fd = [] := Function.update_self ..

theorem sent_start_of_ne (hk : k ≠ fd) : (h.start fd).sent k = h.sent k :=
  Function.update_of_ne hk _ _

theorem receipts_start_of_ne (hk : k ≠ fd) : (h.start fd).receipts k = h.receipts k :=
  Function.update_of_ne hk _ _

end DatagramHistory

/-- The receipt shows the datagram, as far as there was room for it. -/
def Shows (d : Datagram) (e : Receipt) : Prop :=
  e.reply = Loopback.received d e.maxLen e.srcAddr e.srcPort

/-- What was sent is what has been received, in that order, and then what is pending. -/
structure FifoSound (h : DatagramHistory) (l : Loopback) : Prop where
  fifo : ∀ fd, ∃ got rest, h.sent fd = got ++ rest ∧ List.Forall₂ Shows got (h.receipts fd) ∧
    ∀ p, l.ports fd = some p → rest = p.pending
  nonempty : ∀ fd, ∀ d ∈ h.sent fd, d.bytes ≠ []

namespace FifoSound

variable {h : DatagramHistory} {l : Loopback} (hS : FifoSound h l)

theorem empty : FifoSound .empty .initial where
  fifo := fun _ => ⟨[], [], rfl, .nil, fun _ hp => nomatch hp⟩
  nonempty := fun _ _ hd => absurd hd List.not_mem_nil

include hS

/-- A call that leaves what is pending. -/
theorem congr {l' : Loopback}
    (hports : ∀ fd p', l'.ports fd = some p' → ∃ p, l.ports fd = some p ∧ p.pending = p'.pending) :
    FifoSound h l' where
  fifo := by
    intro fd
    obtain ⟨got, rest, hsent, hgot, hrest⟩ := hS.fifo fd
    refine ⟨got, rest, hsent, hgot, fun p' hp' => ?_⟩
    obtain ⟨p, hp, heq⟩ := hports fd p' hp'
    exact (hrest p hp).trans heq
  nonempty := hS.nonempty

theorem setBound {fd : ℤ} {p : LoopbackPort} (hp : l.ports fd = some p)
    (bound : Option (UInt64 × UInt16)) :
    FifoSound h (l.setPort fd (some { p with bound := bound })) := by
  refine hS.congr fun k p' hp' => ?_
  by_cases hk : k = fd
  · subst hk
    rw [Loopback.setPort_self, Option.some.injEq] at hp'
    exact ⟨p, hp, by rw [← hp']⟩
  · exact ⟨p', (Loopback.setPort_of_ne l hk _).symm.trans hp', rfl⟩

theorem close (fd : ℤ) : FifoSound h (l.setPort fd none) := by
  refine hS.congr fun k p' hp' => ?_
  by_cases hk : k = fd
  · subst hk
    rw [Loopback.setPort_self] at hp'
    nomatch hp'
  · exact ⟨p', (Loopback.setPort_of_ne l hk _).symm.trans hp', rfl⟩

theorem start (fd : ℤ) : FifoSound (h.start fd) (l.setPort fd (some ⟨none, []⟩)) where
  fifo := by
    intro k
    by_cases hk : k = fd
    · subst hk
      refine ⟨[], [], by simp, by simp, fun p hp => ?_⟩
      rw [Loopback.setPort_self, Option.some.injEq] at hp
      rw [← hp]
    · obtain ⟨got, rest, hsent, hgot, hrest⟩ := hS.fifo k
      refine ⟨got, rest, ?_, ?_, fun p hp => hrest p ?_⟩
      · rw [h.sent_start_of_ne hk, hsent]
      · rwa [h.receipts_start_of_ne hk]
      · rwa [Loopback.setPort_of_ne l hk] at hp
  nonempty := by
    intro k d hd
    by_cases hk : k = fd
    · subst hk
      rw [h.sent_start_self] at hd
      exact absurd hd List.not_mem_nil
    · rw [h.sent_start_of_ne hk] at hd
      exact hS.nonempty k d hd

theorem send {dst : ℤ} {d : Datagram} (hd : d.bytes ≠ []) (hdst : l.ports dst ≠ none) :
    FifoSound (h.addSent dst d) (l.push dst d) where
  fifo := by
    intro fd
    obtain ⟨got, rest, hsent, hgot, hrest⟩ := hS.fifo fd
    by_cases hfd : fd = dst
    · subst hfd
      obtain ⟨p, hp⟩ := Option.ne_none_iff_exists'.mp hdst
      refine ⟨got, rest ++ [d], ?_, hgot, fun p' hp' => ?_⟩
      · rw [h.sent_addSent_self, hsent, List.append_assoc]
      · rw [Loopback.push, Loopback.setPort_self, hp, Option.map_some, Option.some.injEq] at hp'
        rw [← hp', hrest p hp]
    · refine ⟨got, rest, ?_, hgot, fun p hp => hrest p ?_⟩
      · rw [h.sent_addSent_of_ne d hfd, hsent]
      · rwa [Loopback.push, Loopback.setPort_of_ne l hfd] at hp
  nonempty := by
    intro fd e he
    by_cases hfd : fd = dst
    · subst hfd
      rw [h.sent_addSent_self, List.mem_append, List.mem_singleton] at he
      rcases he with he | rfl
      · exact hS.nonempty fd e he
      · exact hd
    · rw [h.sent_addSent_of_ne d hfd] at he
      exact hS.nonempty fd e he

theorem receive {fd : ℤ} {p : LoopbackPort} (hp : l.ports fd = some p) {d : Datagram}
    {rest : List Datagram} (hpending : p.pending = d :: rest) {e : Receipt} (he : Shows d e) :
    FifoSound (h.addReceipt fd e) (l.setPort fd (some { p with pending := rest })) where
  fifo := by
    intro k
    obtain ⟨got, waiting, hsent, hgot, hrest⟩ := hS.fifo k
    by_cases hk : k = fd
    · subst hk
      have hwaiting : waiting = d :: rest := (hrest p hp).trans hpending
      refine ⟨got ++ [d], rest, ?_, ?_, fun p' hp' => ?_⟩
      · show h.sent k = _
        rw [hsent, hwaiting, List.append_assoc, List.singleton_append]
      · rw [h.receipts_addReceipt_self]
        exact List.rel_append hgot (.cons he .nil)
      · rw [Loopback.setPort_self, Option.some.injEq] at hp'
        rw [← hp']
    · refine ⟨got, waiting, hsent, ?_, fun p' hp' => hrest p' ?_⟩
      · rwa [h.receipts_addReceipt_of_ne e hk]
      · rwa [Loopback.setPort_of_ne l hk] at hp'
  nonempty := hS.nonempty

/-- What is pending has contents. -/
theorem pending_nonempty {fd : ℤ} {p : LoopbackPort} (hp : l.ports fd = some p) {d : Datagram}
    (hd : d ∈ p.pending) : d.bytes ≠ [] := by
  obtain ⟨got, rest, hsent, _, hrest⟩ := hS.fifo fd
  refine hS.nonempty fd d ?_
  rw [hsent, hrest p hp]
  exact List.mem_append_right _ hd

/-- Every call keeps the order. -/
theorem call (c : NetCall) : FifoSound (h.note l c (l.call c).1) (l.call c).2 := by
  cases c with
  | socket =>
    show FifoSound (if l.nextFd < 0 then h else h.start l.nextFd) l.socket.2
    rw [Loopback.socket]
    split_ifs
    · exact hS.congr fun _ p' hp' => ⟨p', hp', rfl⟩
    · exact (hS.start l.nextFd).congr fun _ p' hp' => ⟨p', hp', rfl⟩
  | bind fd addr port =>
    show FifoSound h (l.bind fd addr port).2
    rw [Loopback.bind]
    split
    · exact hS
    · rename_i p hp
      split_ifs
      · exact hS
      · exact hS.setBound hp _
  | sendto fd buf dstAddr dstPort malloc =>
    rw [Loopback.call, Loopback.sendto_eq, DatagramHistory.note]
    · cases haccept : l.accepted (.sendto fd buf dstAddr dstPort malloc) with
      | none => exact hS
      | some sent => exact hS.send (Loopback.accepted_spec haccept).1 (Loopback.accepted_spec haccept).2
    all_goals simp
  | recvfrom fd buf maxLen srcAddr srcPort =>
    rw [Loopback.call, DatagramHistory.note, Loopback.recvfrom]
    split
    · exact hS
    · rename_i p hp
      by_cases harg : (!buf || maxLen == 0) = true
      · rw [if_pos harg]
        exact hS
      · rw [if_neg harg]
        cases hpending : p.pending with
        | nil => exact hS
        | cons d rest =>
          -- neither the datagram nor the room for it is empty, so that its receipt is seen
          have hd := hS.pending_nonempty hp (hpending ▸ List.mem_cons_self)
          have hmax : maxLen ≠ 0 := fun h0 => harg (by rw [h0]; exact Bool.or_true _)
          have hbytes : (Loopback.received d maxLen srcAddr srcPort).bytes ≠ [] := by
            show d.bytes.take maxLen ≠ []
            rw [Ne, List.take_eq_nil_iff]
            exact not_or.mpr ⟨hmax, hd⟩
          dsimp only
          rw [if_neg hbytes]
          exact hS.receive hp hpending rfl
  | close fd =>
    show FifoSound h (l.close fd).2
    rw [Loopback.close]
    split
    · exact hS
    · exact hS.close fd

end FifoSound

end UsrLinuxEmu.Net
