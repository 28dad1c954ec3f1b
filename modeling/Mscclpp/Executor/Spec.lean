import Mscclpp.Executor.Frame

/-!
# What each step of a context build does

One lemma per function of `Mscclpp.Executor.Setup`, saying what it returns and how it
changes the executor when it returns; the results about the executor are proved from these
and never unfold the functions again.

## Main results

* `setupConnections_ok` — the connection round: one connection per connected peer, on tag
  0, to that peer, over the transport `selectTransport` chose; each stored under its peer;
  one `setup()` call over them.
* `exchangeRegisteredMemory_ok` — one round of `setupRegisteredMemories`: one
  `MemorySender` per accessor of the buffer, then one `MemoryReceiver` per peer whose
  descriptor the rank's channels need, one `setup()` call over them, and a descriptor
  stored under every `(role, peer)` received.
* `buildSemaphores_eq` — the semaphore loop of `setupChannels`: one semaphore per visited
  `(info, peer)` pair, over that peer's connection, numbered in visiting order, SM ones
  first; their setups are enqueued in the same order.

## Design Notes

The objects a call enqueues are named by `Executor.enqueue`: appended to the queue, with
the communicator's id counter advanced past them.  A connection request changes more of
the communicator (its connections and IB contexts), so the connection round states only
what it enqueues and what it leaves alone.
-/

namespace Mscclpp

variable {W Bytes : Type}

/-! ## The calls -/

namespace Executor

variable (e : Executor W)

@[simp] theorem allocate_apply : (allocate e) = (.ok e.fresh, { e with fresh := e.fresh + 1 }) :=
  rfl

@[simp] theorem sendMemoryOnSetup_apply (memory : RegisteredMemory) (remoteRank : Nat) (tag : Int) :
    sendMemoryOnSetup memory remoteRank tag e =
      (.ok (), { e with comm := e.comm.sendMemoryOnSetup memory remoteRank tag }) := rfl

@[simp] theorem recvMemoryOnSetup_apply (remoteRank : Nat) (tag : Int) :
    recvMemoryOnSetup remoteRank tag e =
      (.ok e.comm.nextId, { e with comm := (e.comm.recvMemoryOnSetup remoteRank tag).2 }) := rfl

/-- The executor after the objects `objs` were enqueued on its communicator, each under
the next id. -/
def enqueue (objs : List Setuppable) : Executor W :=
  { e with comm := { e.comm with
    toSetup := e.comm.toSetup ++ objs
    nextId := e.comm.nextId + objs.length } }

@[simp] theorem enqueue_nil : e.enqueue [] = e := by
  simp [enqueue]

theorem enqueue_append (objs₁ objs₂ : List Setuppable) :
    (e.enqueue objs₁).enqueue objs₂ = e.enqueue (objs₁ ++ objs₂) := by
  simp [enqueue, Nat.add_assoc]

@[simp] theorem enqueue_nranks (objs : List Setuppable) : (e.enqueue objs).nranks = e.nranks :=
  rfl

@[simp] theorem enqueue_nextId (objs : List Setuppable) :
    (e.enqueue objs).comm.nextId = e.comm.nextId + objs.length := rfl

@[simp] theorem enqueue_toSetup (objs : List Setuppable) :
    (e.enqueue objs).comm.toSetup = e.comm.toSetup ++ objs := rfl

@[simp] theorem enqueue_setups (objs : List Setuppable) : (e.enqueue objs).setups = e.setups :=
  rfl

/-- The executor after semaphores `sems` of `kind` were constructed: their setups are
enqueued in order, under their ids. -/
def enqueueSemaphores (kind : ChannelType) (sems : List Semaphore) : Executor W :=
  e.enqueue (sems.map fun s => .semaphore s.id kind s.conn)

@[simp] theorem enqueueSemaphores_nil (kind : ChannelType) : e.enqueueSemaphores kind [] = e := by
  simp [enqueueSemaphores]

theorem enqueueSemaphores_append (kind : ChannelType) (sems₁ sems₂ : List Semaphore) :
    (e.enqueueSemaphores kind sems₁).enqueueSemaphores kind sems₂ =
      e.enqueueSemaphores kind (sems₁ ++ sems₂) := by
  simp [enqueueSemaphores, enqueue_append]

@[simp] theorem enqueueSemaphores_nranks (kind : ChannelType) (sems : List Semaphore) :
    (e.enqueueSemaphores kind sems).nranks = e.nranks := rfl

@[simp] theorem enqueueSemaphores_nextId (kind : ChannelType) (sems : List Semaphore) :
    (e.enqueueSemaphores kind sems).comm.nextId = e.comm.nextId + sems.length := by
  simp [enqueueSemaphores]

theorem getFuture_apply (id : Nat) :
    getFuture id e = ((match e.promises.lookup id with
      | some memory => .ok memory
      | none => .error .brokenPromise), e) := by
  cases h : e.promises.lookup id <;> simp [getFuture, h]

variable (P : Platform W Bytes)

/-- **A `setup()` call that returns** ran the queue it logs and emptied it. -/
theorem setup_ok {e' : Executor W} (h : setup P e = (.ok (), e')) :
    e'.setups = e.setups ++ [e.comm.toSetup] ∧ e'.comm = { e.comm with toSetup := [] } := by
  obtain ⟨-, hok, -⟩ := Communicator.setup_spec P.runHook e.comm (e.world, e.promises)
  simp only [setup] at h
  split at h
  · cases h
  · rename_i hnone
    cases h
    exact ⟨rfl, (hok hnone).2⟩

end Executor

theorem Executor.buildSemaphore_apply (e : Executor W) (kind : ChannelType) (conn : Connection) :
    Executor.buildSemaphore kind conn e =
      (.ok ⟨e.comm.nextId, conn⟩, e.enqueueSemaphores kind [⟨e.comm.nextId, conn⟩]) := rfl

/-! ## Association lists filled in a loop -/

section Lookup

variable {α β : Type} [BEq α] [LawfulBEq α]

/-- Entries consed in front for keys other than `a` leave the lookup of `a` alone. -/
theorem lookup_foldl_cons_of_not_mem {a : α} (l m : List (α × β)) (ha : a ∉ l.map Prod.fst) :
    (l.foldl (fun m p => p :: m) m).lookup a = m.lookup a := by
  induction l generalizing m with
  | nil => rfl
  | cons p l ih =>
    simp only [List.map_cons, List.mem_cons, not_or] at ha
    rw [List.foldl_cons, ih _ ha.2]
    have hne : (a == p.1) = false := by simpa using ha.1
    cases p
    simp [List.lookup_cons, hne]

/-- **A loop that stores `l` under its keys** finds, for every key of `l`, one of the values
stored under it. -/
theorem lookup_foldl_cons (l m : List (α × β)) {a : α} (ha : a ∈ l.map Prod.fst) :
    ∃ b, (a, b) ∈ l ∧ (l.foldl (fun m p => p :: m) m).lookup a = some b := by
  induction l generalizing m with
  | nil => cases ha
  | cons p l ih =>
    rw [List.foldl_cons]
    by_cases hl : a ∈ l.map Prod.fst
    · obtain ⟨b, hb, hlook⟩ := ih (p :: m) hl
      exact ⟨b, List.mem_cons_of_mem _ hb, hlook⟩
    · have hp : a = p.1 := by simpa [hl] using ha
      refine ⟨p.2, by simp [hp], ?_⟩
      rw [lookup_foldl_cons_of_not_mem _ _ hl, hp]
      exact List.lookup_cons_self

end Lookup

/-! ## The connection round -/

section ConnectionRound

variable {nranksPerNode rank peer : Nat}

/-- **The body of the connection loop**, when it returns: a connection to `peer` on tag 0
over the transport `selectTransport` chose, its setup enqueued; only the communicator
changes. -/
theorem connectPeer_ok {e e' : Executor W} {conn : Connection}
    (h : connectPeer nranksPerNode rank peer e = (.ok conn, e')) :
    selectTransport nranksPerNode rank peer = .ok conn.transport ∧ conn.remoteRank = peer ∧
      conn.tag = 0 ∧ e' = { e with comm := e'.comm } ∧
      e'.comm.toSetup = e.comm.toSetup ++ [.connection conn] := by
  simp only [connectPeer, ExecM.bind_apply, ExecM.ofExcept_apply] at h
  cases hsel : selectTransport nranksPerNode rank peer with
  | error f => rw [hsel] at h; cases h
  | ok t =>
    rw [hsel] at h
    simp only [Executor.connectOnSetup] at h
    split at h
    · rename_i hc
      cases h
      obtain ⟨hr, ht, htr, -, hq⟩ := Communicator.connectOnSetup_ok hc
      exact ⟨by rw [htr], hr, ht, rfl, hq⟩
    · cases h

/-- The connection requests of a whole loop, when it returns. -/
theorem mapM_connectPeer_ok {peers : List Nat} {e e' : Executor W} {conns : List Connection}
    (h : peers.mapM (connectPeer nranksPerNode rank) e = (.ok conns, e')) :
    List.Forall₂ (fun peer conn => selectTransport nranksPerNode rank peer = .ok conn.transport ∧
        conn.remoteRank = peer ∧ conn.tag = 0) peers conns ∧
      e' = { e with comm := e'.comm } ∧
      e'.comm.toSetup = e.comm.toSetup ++ conns.map .connection := by
  induction peers generalizing e conns with
  | nil =>
    simp only [List.mapM_nil, ExecM.pure_apply, Prod.mk.injEq, Except.ok.injEq] at h
    obtain ⟨rfl, rfl⟩ := h
    simp
  | cons peer peers ih =>
    rw [List.mapM_cons] at h
    obtain ⟨conn, e₁, h₁, h⟩ := ExecM.bind_eq_ok.mp h
    obtain ⟨conns', e₂, h₂, h⟩ := ExecM.bind_eq_ok.mp h
    simp only [ExecM.pure_apply, Prod.mk.injEq, Except.ok.injEq] at h
    obtain ⟨rfl, rfl⟩ := h
    obtain ⟨hsel, hr, ht, he₁, hq₁⟩ := connectPeer_ok h₁
    obtain ⟨hall, he₂, hq₂⟩ := ih h₂
    refine ⟨.cons ⟨hsel, hr, ht⟩ hall, he₂.trans (by rw [he₁]), by simp [hq₂, hq₁]⟩

variable (P : Platform W Bytes) {plan : PlanLayout}

/-- **The connection round**, when it returns: one connection per connected peer, on tag 0,
to that peer, over the transport `selectTransport` chose; all of them stored, each under
its peer; one `setup()` call over the queue they were enqueued on. -/
theorem setupConnections_ok {c c' : ExecutionContext} {e e' : Executor W}
    (h : setupConnections P c rank plan e = (.ok c', e')) :
    ∃ conns, List.Forall₂ (fun peer conn =>
        selectTransport e.nranksPerNode rank peer = .ok conn.transport ∧
          conn.remoteRank = peer ∧ conn.tag = 0) (plan.getConnectedPeers rank) conns ∧
      c' = { c with connections :=
        ((plan.getConnectedPeers rank).zip conns).foldl (fun m pc => pc :: m) c.connections } ∧
      e'.setups = e.setups ++ [e.comm.toSetup ++ conns.map .connection] ∧ e'.comm.toSetup = [] := by
  simp only [setupConnections, ExecM.bind_apply, ExecM.get_apply] at h
  split at h
  · rename_i conns e₁ hconns
    obtain ⟨hall, he₁, hq⟩ := mapM_connectPeer_ok hconns
    split at h
    · rename_i e₂ hsetup
      simp only [ExecM.pure_apply, Prod.mk.injEq, Except.ok.injEq] at h
      obtain ⟨rfl, rfl⟩ := h
      obtain ⟨hlog, hcomm⟩ := Executor.setup_ok e₁ P hsetup
      refine ⟨conns, hall, rfl, ?_, by rw [hcomm]⟩
      rw [hlog, hq, he₁]
    · cases h
  · cases h

/-- After the connection round, every connected peer has a connection stored under it, to
that peer and on tag 0. -/
theorem setupConnections_lookup {c c' : ExecutionContext} {e e' : Executor W}
    (h : setupConnections P c rank plan e = (.ok c', e')) {peer : Nat}
    (hpeer : peer ∈ plan.getConnectedPeers rank) :
    ∃ conn, c'.connections.lookup peer = some conn ∧ conn.remoteRank = peer ∧ conn.tag = 0 := by
  obtain ⟨conns, hall, rfl, -⟩ := setupConnections_ok P h
  have hkeys : peer ∈ ((plan.getConnectedPeers rank).zip conns).map Prod.fst := by
    rwa [List.map_fst_zip _ _ hall.length_eq.le]
  obtain ⟨conn, hmem, hlook⟩ := lookup_foldl_cons _ c.connections hkeys
  obtain ⟨-, hr, ht⟩ := (List.forall₂_iff_zip.mp hall).2 hmem
  exact ⟨conn, hlook, hr, ht⟩

end ConnectionRound

/-! ## The registered-memory rounds -/

/-- The `MemorySender`s of `memory` toward `peers`, on tag 0, their ids numbered from `n`. -/
def memorySenders (memory : RegisteredMemory) : Nat → List Nat → List Setuppable
  | _, [] => []
  | n, peer :: peers => .memorySender n memory peer 0 :: memorySenders memory (n + 1) peers

/-- The `MemoryReceiver`s from `peers`, on tag 0, their ids numbered from `n`. -/
def memoryReceivers : Nat → List Nat → List Setuppable
  | _, [] => []
  | n, peer :: peers => .memoryReceiver n peer 0 :: memoryReceivers (n + 1) peers

@[simp] theorem length_memorySenders (memory : RegisteredMemory) (n : Nat) (peers : List Nat) :
    (memorySenders memory n peers).length = peers.length := by
  induction peers generalizing n <;> simp [memorySenders, *]

@[simp] theorem length_memoryReceivers (n : Nat) (peers : List Nat) :
    (memoryReceivers n peers).length = peers.length := by
  induction peers generalizing n <;> simp [memoryReceivers, *]

/-- The send loop of a memory round enqueues one `MemorySender` per peer. -/
theorem forM_sendMemoryOnSetup (memory : RegisteredMemory) (peers : List Nat) (e : Executor W) :
    (peers.forM fun peer => Executor.sendMemoryOnSetup memory peer 0) e =
      (.ok (), e.enqueue (memorySenders memory e.comm.nextId peers)) := by
  induction peers generalizing e with
  | nil => simp [memorySenders]
  | cons peer peers ih =>
    show (Executor.sendMemoryOnSetup memory peer 0 >>= fun _ => peers.forM _) e = _
    rw [ExecM.bind_apply, Executor.sendMemoryOnSetup_apply]
    dsimp only
    rw [ih]
    simp [Executor.enqueue, memorySenders, Communicator.sendMemoryOnSetup, Communicator.onSetup,
      Nat.add_assoc, Nat.add_comm 1]

/-- The receive loop of a memory round enqueues one `MemoryReceiver` per peer; the futures
are named by their ids. -/
theorem mapM_recvMemoryOnSetup (peers : List Nat) (e : Executor W) :
    peers.mapM (fun peer => Executor.recvMemoryOnSetup peer 0) e =
      (.ok (List.range' e.comm.nextId peers.length),
        e.enqueue (memoryReceivers e.comm.nextId peers)) := by
  induction peers generalizing e with
  | nil => simp [memoryReceivers]; rfl
  | cons peer peers ih =>
    rw [List.mapM_cons, ExecM.bind_apply, Executor.recvMemoryOnSetup_apply]
    dsimp only
    rw [ExecM.bind_apply, ih]
    simp [Executor.enqueue, memoryReceivers, Communicator.recvMemoryOnSetup, Communicator.onSetup,
      List.range'_succ, Nat.add_assoc, Nat.add_comm 1]

section Lookup

variable {α β : Type} [BEq α] [LawfulBEq α]

/-- Entries put in front keep every lookup that found something finding something. -/
theorem isSome_lookup_append (l m : List (α × β)) {a : α} (h : (m.lookup a).isSome) :
    ((l ++ m).lookup a).isSome := by
  rw [List.lookup_append]
  cases l.lookup a <;> simp [h]

end Lookup

variable {bufferType : BufferType}

/-- The store loop of a memory round, when it returns: a descriptor in front for every
received peer, and nothing else changed. -/
theorem foldlM_storeRegisteredMemory_ok {pfs : List (Nat × Nat)} {c c' : ExecutionContext}
    {e e' : Executor W} (h : pfs.foldlM (storeRegisteredMemory bufferType) c e = (.ok c', e')) :
    e' = e ∧ (∃ regs, c' = { c with registeredMemories := regs ++ c.registeredMemories }) ∧
      ∀ peer ∈ pfs.map Prod.fst, (c'.registeredMemories.lookup (bufferType, peer)).isSome := by
  induction pfs generalizing c e with
  | nil =>
    simp only [List.foldlM_nil, ExecM.pure_apply, Prod.mk.injEq, Except.ok.injEq] at h
    obtain ⟨rfl, rfl⟩ := h
    exact ⟨rfl, ⟨[], rfl⟩, by simp⟩
  | cons pf pfs ih =>
    rw [List.foldlM_cons] at h
    obtain ⟨c₁, e₁, h₁, h⟩ := ExecM.bind_eq_ok.mp h
    simp only [storeRegisteredMemory, ExecM.bind_apply, Executor.getFuture_apply] at h₁
    cases hm : e.promises.lookup pf.2 with
    | none => simp [hm] at h₁
    | some memory =>
      simp only [hm, ExecM.pure_apply, Prod.mk.injEq, Except.ok.injEq] at h₁
      obtain ⟨rfl, rfl⟩ := h₁
      obtain ⟨rfl, ⟨regs, rfl⟩, hlook⟩ := ih h
      refine ⟨rfl, ⟨regs ++ [((bufferType, pf.1), memory)], by simp⟩, ?_⟩
      simp only [List.map_cons, List.mem_cons, forall_eq_or_imp]
      exact ⟨isSome_lookup_append _ _ (by simp), hlook⟩

variable (P : Platform W Bytes) (sendbuff recvbuff sendBufferSize recvBufferSize rank : Nat)
  {plan : PlanLayout}

/-- **One memory round**, when it returns: a `MemorySender` toward every accessor of the
buffer, then a `MemoryReceiver` from every peer whose descriptor of that role the rank's
channels need, one `setup()` call over them, and a descriptor stored in front under every
`(role, peer)` received. -/
theorem exchangeRegisteredMemory_ok {c c' : ExecutionContext} {e e' : Executor W}
    (h : exchangeRegisteredMemory P sendbuff recvbuff sendBufferSize recvBufferSize rank plan c
      bufferType e = (.ok c', e')) :
    (∃ memory, e'.setups = e.setups ++ [e.comm.toSetup ++
      memorySenders memory e.comm.nextId
        (getConnectedPeers (plan.getChannelInfosByDstRank rank bufferType)) ++
      memoryReceivers (e.comm.nextId +
          (getConnectedPeers (plan.getChannelInfosByDstRank rank bufferType)).length)
        (getConnectedPeers (plan.getChannelInfos rank bufferType))]) ∧
      e'.comm.toSetup = [] ∧
      (∃ regs, c' = { c with registeredMemories := regs ++ c.registeredMemories }) ∧
      ∀ peer ∈ getConnectedPeers (plan.getChannelInfos rank bufferType),
        (c'.registeredMemories.lookup (bufferType, peer)).isSome := by
  simp only [exchangeRegisteredMemory, ExecM.bind_apply, ExecM.get_apply,
    ExecM.ofExcept_apply] at h
  cases hf : getTransportFlags e.nranksPerNode (plan.getChannelInfosByDstRank rank bufferType)
    rank with
  | error f => simp [hf] at h
  | ok flags =>
    cases hb : getBufferInfo sendbuff recvbuff sendBufferSize recvBufferSize c bufferType with
    | error f => simp [hf, hb] at h
    | ok b =>
      simp only [hf, hb, forM_sendMemoryOnSetup, mapM_recvMemoryOnSetup] at h
      split at h
      · rename_i e₃ hsetup
        obtain ⟨hlog, hcomm⟩ := Executor.setup_ok _ P hsetup
        obtain ⟨rfl, hregs, hlook⟩ := foldlM_storeRegisteredMemory_ok h
        refine ⟨⟨e.comm.registerMemory b.1 b.2 flags, by rw [hlog]; simp [List.append_assoc]⟩,
          by rw [hcomm], hregs,
          fun peer hp => hlook peer ?_⟩
        rwa [List.map_fst_zip _ _ (by simp)]
      · cases h

/-- The memory rounds over `bufferTypes`, when they return: every round's descriptors
stored in front, each `(role, peer)` received still found. -/
theorem foldlM_exchangeRegisteredMemory_ok {bufferTypes : List BufferType}
    {c c' : ExecutionContext} {e e' : Executor W}
    (h : bufferTypes.foldlM (exchangeRegisteredMemory P sendbuff recvbuff sendBufferSize
      recvBufferSize rank plan) c e = (.ok c', e')) :
    (∃ regs, c' = { c with registeredMemories := regs ++ c.registeredMemories }) ∧
      ∀ bt ∈ bufferTypes, ∀ peer ∈ getConnectedPeers (plan.getChannelInfos rank bt),
        (c'.registeredMemories.lookup (bt, peer)).isSome := by
  induction bufferTypes generalizing c e with
  | nil =>
    simp only [List.foldlM_nil, ExecM.pure_apply, Prod.mk.injEq, Except.ok.injEq] at h
    obtain ⟨rfl, rfl⟩ := h
    exact ⟨⟨[], rfl⟩, by simp⟩
  | cons bt bts ih =>
    rw [List.foldlM_cons] at h
    obtain ⟨c₁, e₁, h₁, h⟩ := ExecM.bind_eq_ok.mp h
    obtain ⟨-, -, ⟨regs₁, rfl⟩, hlook₁⟩ := exchangeRegisteredMemory_ok P sendbuff recvbuff
      sendBufferSize recvBufferSize rank h₁
    obtain ⟨⟨regs₂, rfl⟩, hlook⟩ := ih h
    refine ⟨⟨regs₂ ++ regs₁, by simp⟩, ?_⟩
    simp only [List.mem_cons, forall_eq_or_imp]
    exact ⟨fun peer hp => isSome_lookup_append _ _ (hlook₁ peer hp), hlook⟩

/-- **The memory rounds**, when they return: a descriptor stored under every `(role, peer)`
they received, and nothing of the context changed but its descriptors. -/
theorem setupRegisteredMemories_ok {c c' : ExecutionContext} {e e' : Executor W}
    (h : setupRegisteredMemories P c sendbuff recvbuff sendBufferSize recvBufferSize rank plan e =
      (.ok c', e')) :
    (∃ regs, c' = { c with registeredMemories := regs ++ c.registeredMemories }) ∧
      ∀ bt ∈ plan.getConnectedBufferTypes rank, ∀ peer ∈ getConnectedPeers (plan.getChannelInfos rank bt),
        (c'.registeredMemories.lookup (bt, peer)).isSome :=
  foldlM_exchangeRegisteredMemory_ok P sendbuff recvbuff sendBufferSize recvBufferSize rank h

/-! ## The semaphore loop of `setupChannels` -/

/-- The `(info, peer)` pairs of `infos`, in the order the loops over the infos and their
peers visit them. -/
def infoPeers (infos : List ChannelInfo) : List (ChannelInfo × Nat) :=
  infos.flatMap fun info => info.connectedPeers.map (info, ·)

@[simp] theorem infoPeers_nil : infoPeers [] = [] := rfl

theorem mem_infoPeers {infos : List ChannelInfo} {ip : ChannelInfo × Nat} :
    ip ∈ infoPeers infos ↔ ip.1 ∈ infos ∧ ip.2 ∈ ip.1.connectedPeers := by
  obtain ⟨info, peer⟩ := ip
  simp [infoPeers]

/-- The pairs the semaphore loop of `setupChannels` visits for `channelType`: those of the
paired infos, then those of the unpaired ones. -/
def semaphorePeers (plan : PlanLayout) (rank nranks : Nat) (channelType : ChannelType) :
    List (ChannelInfo × Nat) :=
  infoPeers (plan.getChannelInfosOfType rank channelType) ++
    infoPeers (plan.getUnpairedChannelInfos rank nranks channelType)

/-- Every pair the semaphore loop visits for a type has an info of that type. -/
theorem channelType_of_mem_semaphorePeers {plan : PlanLayout} {rank nranks : Nat}
    {channelType : ChannelType} {ip : ChannelInfo × Nat}
    (h : ip ∈ semaphorePeers plan rank nranks channelType) : ip.1.channelType = channelType := by
  rcases List.mem_append.mp h with h | h
  · exact plan.getChannelInfosOfType_channelType _ _ _ (mem_infoPeers.mp h).1
  · exact plan.getUnpairedChannelInfos_channelType _ _ _ _ (mem_infoPeers.mp h).1

/-- The semaphores built for the pairs `ps` over the connections `conns`, their ids
numbered from `n`. -/
def semaphoresOf (conns : Nat → Connection) : Nat → List (ChannelInfo × Nat) → List Semaphore
  | _, [] => []
  | n, ip :: ps => ⟨n, conns ip.2⟩ :: semaphoresOf conns (n + 1) ps

@[simp] theorem length_semaphoresOf (conns : Nat → Connection) (n : Nat)
    (ps : List (ChannelInfo × Nat)) : (semaphoresOf conns n ps).length = ps.length := by
  induction ps generalizing n <;> simp [semaphoresOf, *]

theorem semaphoresOf_append (conns : Nat → Connection) (n : Nat)
    (ps qs : List (ChannelInfo × Nat)) :
    semaphoresOf conns n (ps ++ qs) =
      semaphoresOf conns n ps ++ semaphoresOf conns (n + ps.length) qs := by
  induction ps generalizing n with
  | nil => rfl
  | cons ip ps ih => simp [semaphoresOf, ih, Nat.add_assoc, Nat.add_comm 1]

theorem map_conn_semaphoresOf (conns : Nat → Connection) (n : Nat)
    (ps : List (ChannelInfo × Nat)) :
    (semaphoresOf conns n ps).map Semaphore.conn = ps.map (conns ∘ Prod.snd) := by
  induction ps generalizing n <;> simp [semaphoresOf, *]

theorem map_id_semaphoresOf (conns : Nat → Connection) (n : Nat)
    (ps : List (ChannelInfo × Nat)) :
    (semaphoresOf conns n ps).map Semaphore.id = List.range' n ps.length := by
  induction ps generalizing n <;> simp [semaphoresOf, List.range'_succ, *]

theorem processChannelInfos_eq (infos : List ChannelInfo) (acc : SemaphoreAcc) :
    (processChannelInfos infos acc : ExecM (Executor W) SemaphoreAcc) =
      (infoPeers infos).foldlM (fun acc ip => buildSemaphoreFor acc ip.1 ip.2) acc := by
  induction infos generalizing acc with
  | nil => rfl
  | cons info infos ih =>
    simp only [processChannelInfos, infoPeers, List.flatMap_cons, List.foldlM_cons,
      List.foldlM_append, List.foldlM_map] at ih ⊢
    exact congrArg _ (funext ih)

section SemaphoreLoop

variable {acc : SemaphoreAcc} {info : ChannelInfo} {peer : Nat} {conn : Connection}

theorem buildSemaphoreFor_sm (h : info.channelType = .sm)
    (hc : acc.1.connections.lookup peer = some conn) (e : Executor W) :
    buildSemaphoreFor acc info peer e =
      (.ok (acc.1, acc.2.1 ++ [⟨e.comm.nextId, conn⟩], acc.2.2),
        e.enqueueSemaphores .sm [⟨e.comm.nextId, conn⟩]) := by
  simp only [buildSemaphoreFor, h, ExecutionContext.connectionsAt, hc]
  rfl

theorem buildSemaphoreFor_proxy (h : info.channelType = .proxy)
    (hc : acc.1.connections.lookup peer = some conn) (e : Executor W) :
    buildSemaphoreFor acc info peer e =
      (.ok ({ acc.1 with proxyService := { acc.1.proxyService with
          semaphores := acc.1.proxyService.semaphores ++ [⟨e.comm.nextId, conn⟩] } },
        acc.2.1, acc.2.2 ++ [acc.1.proxyService.semaphores.length]),
        e.enqueueSemaphores .proxy [⟨e.comm.nextId, conn⟩]) := by
  simp only [buildSemaphoreFor, h, ExecutionContext.connectionsAt, hc]
  rfl

variable (conns : Nat → Connection) (ps : List (ChannelInfo × Nat))

/-- The semaphore loop over SM pairs whose peers all have a connection. -/
theorem foldlM_buildSemaphoreFor_sm (acc : SemaphoreAcc) (hkind : ∀ ip ∈ ps, ip.1.channelType = .sm)
    (hconn : ∀ ip ∈ ps, acc.1.connections.lookup ip.2 = some (conns ip.2)) (e : Executor W) :
    ps.foldlM (fun acc ip => buildSemaphoreFor acc ip.1 ip.2) acc e =
      (.ok (acc.1, acc.2.1 ++ semaphoresOf conns e.comm.nextId ps, acc.2.2),
        e.enqueueSemaphores .sm (semaphoresOf conns e.comm.nextId ps)) := by
  induction ps generalizing acc e with
  | nil => simp [semaphoresOf]
  | cons ip ps ih =>
    have hip := List.mem_cons_self ip ps
    rw [List.foldlM_cons, ExecM.bind_apply, buildSemaphoreFor_sm (hkind ip hip) (hconn ip hip)]
    dsimp only
    refine (ih _ (fun q hq => hkind q (List.mem_cons_of_mem _ hq)) ?_ _).trans ?_
    · exact fun q hq => hconn q (List.mem_cons_of_mem _ hq)
    · simp [Executor.enqueueSemaphores_append, semaphoresOf]

/-- The semaphore loop over proxy pairs whose peers all have a connection. -/
theorem foldlM_buildSemaphoreFor_proxy (acc : SemaphoreAcc) (hkind : ∀ ip ∈ ps, ip.1.channelType = .proxy)
    (hconn : ∀ ip ∈ ps, acc.1.connections.lookup ip.2 = some (conns ip.2)) (e : Executor W) :
    ps.foldlM (fun acc ip => buildSemaphoreFor acc ip.1 ip.2) acc e =
      (.ok ({ acc.1 with proxyService := { acc.1.proxyService with
          semaphores := acc.1.proxyService.semaphores ++ semaphoresOf conns e.comm.nextId ps } },
        acc.2.1, acc.2.2 ++ List.range' acc.1.proxyService.semaphores.length ps.length),
        e.enqueueSemaphores .proxy (semaphoresOf conns e.comm.nextId ps)) := by
  induction ps generalizing acc e with
  | nil => simp [semaphoresOf]
  | cons ip ps ih =>
    have hip := List.mem_cons_self ip ps
    rw [List.foldlM_cons, ExecM.bind_apply,
      buildSemaphoreFor_proxy (hkind ip hip) (hconn ip hip)]
    dsimp only
    refine (ih _ (fun q hq => hkind q (List.mem_cons_of_mem _ hq)) ?_ _).trans ?_
    · exact fun q hq => hconn q (List.mem_cons_of_mem _ hq)
    · simp [Executor.enqueueSemaphores_append, semaphoresOf, List.range'_succ]

end SemaphoreLoop

/-- The semaphores of one channel type: those of its paired infos, then of its unpaired. -/
theorem processChannelInfos_paired_unpaired (plan : PlanLayout) (rank nranks : Nat)
    (channelType : ChannelType) (acc : SemaphoreAcc) :
    (do
      let acc ← processChannelInfos (plan.getChannelInfosOfType rank channelType) acc
      processChannelInfos (plan.getUnpairedChannelInfos rank nranks channelType) acc :
        ExecM (Executor W) SemaphoreAcc) =
      (semaphorePeers plan rank nranks channelType).foldlM
        (fun acc ip => buildSemaphoreFor acc ip.1 ip.2) acc := by
  simp only [semaphorePeers, List.foldlM_append, processChannelInfos_eq]

/-- **The semaphore loop of `setupChannels`**, when every peer it visits has a connection:
the SM semaphores, then the proxy ones built by the context's proxy service, one per
visited pair, over that peer's connection, numbered in visiting order and enqueued in that
order. -/
theorem buildSemaphores_eq {c : ExecutionContext} {rank : Nat} {plan : PlanLayout}
    (conns : Nat → Connection) (e : Executor W) (hconn : ∀ k ∈ channelTypes, ∀ ip ∈ semaphorePeers plan rank e.nranks k,
      c.connections.lookup ip.2 = some (conns ip.2)) :
    buildSemaphores c rank plan e =
      (.ok ({ c with proxyService := { c.proxyService with
          semaphores := c.proxyService.semaphores ++ semaphoresOf conns
            (e.comm.nextId + (semaphorePeers plan rank e.nranks .sm).length)
            (semaphorePeers plan rank e.nranks .proxy) } },
        semaphoresOf conns e.comm.nextId (semaphorePeers plan rank e.nranks .sm),
        List.range' c.proxyService.semaphores.length (semaphorePeers plan rank e.nranks .proxy).length),
        (e.enqueueSemaphores .sm (semaphoresOf conns e.comm.nextId
            (semaphorePeers plan rank e.nranks .sm))).enqueueSemaphores .proxy
          (semaphoresOf conns (e.comm.nextId + (semaphorePeers plan rank e.nranks .sm).length)
            (semaphorePeers plan rank e.nranks .proxy))) := by
  simp only [buildSemaphores, processChannelInfos_paired_unpaired, channelTypes, List.foldlM_cons,
    List.foldlM_nil, ExecM.bind_apply, ExecM.get_apply]
  rw [foldlM_buildSemaphoreFor_sm conns _ _ (fun _ h => channelType_of_mem_semaphorePeers h)
    (hconn .sm (List.mem_cons_self _ _))]
  dsimp only
  rw [foldlM_buildSemaphoreFor_proxy conns _ _ (fun _ h => channelType_of_mem_semaphorePeers h)
    (hconn .proxy (List.mem_cons_of_mem _ (List.mem_cons_self _ _)))]
  simp

end Mscclpp
