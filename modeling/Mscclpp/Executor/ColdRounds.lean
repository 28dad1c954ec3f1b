import Mscclpp.SetupRounds
import Mscclpp.Executor.Channels

/-!
# The cold path across ranks

Every rank builds its context with three kinds of `setup()` calls: the connection round of
`setupConnections`, one memory round per buffer role of `setupRegisteredMemories`, and the
semaphore round of `setupChannels`.  All their exchanges use tag 0, and ranks run different
numbers of memory rounds.  This module proves that, for a plan meeting its pairing
conditions, the calls of all ranks line up: no interleaving deadlocks, and every message is
received by the step it was sent for.

## Main Definitions

* `ColdStep`, `ColdRound` — the step a message belongs to, and the rounds of the cold path.
* `rankProgram`, `coldProgram` — a rank's `setup()` calls as a labelled bootstrap program,
  and all ranks' programs from their logs.
* `ColdLog` — what the log of a rank's cold path holds, round by round.
* `stepsOn`, `channelSteps` — the steps of the messages on a channel, from a queue and from
  a whole cold path.
* `PlanPaired` — the pairing conditions of a plan.

## Main results

* `coldProgram_twoPhase` — the rounds of every rank have increasing levels.
* `coldProgram_matched` — for a plan meeting its pairing conditions and ranks whose logs are
  `ColdLog`s, every channel's sends and receives belong to the same steps, in the same order.

These are the two hypotheses of `Bootstrap.reachable_not_deadlock`; `Mscclpp.Executor.ColdRun`
shows that the executor's run logs a `ColdLog` and assembles the cross-rank result.

## Design Notes

A rank's program is read off the log of its `setup()` calls (`Executor.setups`): the
queues those calls ran, whatever the platform's hooks did.  The bootstrap semantics then
lets the ranks' hooks interleave; a connection or a semaphore sends its handshake in
`beginSetup` and receives its peer's in `endSetup` (`hookAction`).
-/

namespace Mscclpp

open Bootstrap

/-! ## Steps and rounds -/

/-- The step a message of the cold path belongs to: a connection handshake, the descriptor
exchange of a buffer role, or a semaphore handshake of a channel kind. -/
inductive ColdStep
  | connection
  | memory (bufferType : BufferType)
  | semaphore (kind : ChannelType)
  deriving DecidableEq

/-- The `setup()` calls of the cold path: the connection round, the memory round of a
buffer role, and the semaphore round. -/
inductive ColdRound
  | connections
  | memories (bufferType : BufferType)
  | semaphores
  deriving DecidableEq

/-- The level of a step, for an order `order` of the buffer roles common to all ranks: the
connection handshakes first, the memory rounds in that order, the semaphores last. -/
def ColdStep.level (order : List BufferType) : ColdStep → Nat
  | .connection => 0
  | .memory bt => order.indexOf bt + 1
  | .semaphore _ => order.length + 1

namespace ColdRound

/-- The step an object of a round belongs to; a semaphore's is its kind. -/
def step : ColdRound → Setuppable → ColdStep
  | connections, _ => .connection
  | memories bt, _ => .memory bt
  | semaphores, .semaphore _ kind _ => .semaphore kind
  | semaphores, _ => .semaphore .none

/-- The level of a round: that of its steps. -/
def level (order : List BufferType) : ColdRound → Nat
  | connections => 0
  | memories bt => order.indexOf bt + 1
  | semaphores => order.length + 1

theorem level_step (order : List BufferType) (round : ColdRound) (s : Setuppable) :
    (round.step s).level order = round.level order := by
  cases round with
  | semaphores => cases s <;> rfl
  | _ => rfl

end ColdRound

/-- The rounds of the cold path of `rank`, in order. -/
def coldRounds (plan : PlanLayout) (rank : Nat) : List ColdRound :=
  .connections :: (plan.getConnectedBufferTypes rank).map .memories ++ [.semaphores]

/-! ## The channel of each hook -/

/-- The channel the `beginSetup` of an object sends on: that of a `MemorySender`, or the
peer and tag of the connection a connection or a semaphore is over (`hookAction`). -/
def Setuppable.sendTarget : Setuppable → Option (Nat × Int)
  | .memorySender _ _ remoteRank tag => some (remoteRank, tag)
  | .memoryReceiver .. => none
  | .connection conn => some (conn.remoteRank, conn.tag)
  | .semaphore _ _ conn => some (conn.remoteRank, conn.tag)

/-- The channel the `endSetup` of an object receives from. -/
def Setuppable.recvSource : Setuppable → Option (Nat × Int)
  | .memorySender .. => none
  | .memoryReceiver _ remoteRank tag => some (remoteRank, tag)
  | .connection conn => some (conn.remoteRank, conn.tag)
  | .semaphore _ _ conn => some (conn.remoteRank, conn.tag)

namespace Setuppable

variable {id : Nat} {memory : RegisteredMemory} {remoteRank : Nat} {tag : Int}
  {kind : ChannelType} {conn : Connection}

@[simp] theorem sendTarget_memorySender :
    (memorySender id memory remoteRank tag).sendTarget = some (remoteRank, tag) := rfl

@[simp] theorem sendTarget_memoryReceiver : (memoryReceiver id remoteRank tag).sendTarget = none :=
  rfl

@[simp] theorem sendTarget_connection :
    (connection conn).sendTarget = some (conn.remoteRank, conn.tag) := rfl

@[simp] theorem sendTarget_semaphore :
    (semaphore id kind conn).sendTarget = some (conn.remoteRank, conn.tag) := rfl

@[simp] theorem recvSource_memorySender :
    (memorySender id memory remoteRank tag).recvSource = none := rfl

@[simp] theorem recvSource_memoryReceiver :
    (memoryReceiver id remoteRank tag).recvSource = some (remoteRank, tag) := rfl

@[simp] theorem recvSource_connection :
    (connection conn).recvSource = some (conn.remoteRank, conn.tag) := rfl

@[simp] theorem recvSource_semaphore :
    (semaphore id kind conn).recvSource = some (conn.remoteRank, conn.tag) := rfl

end Setuppable

/-- The steps of the objects of `queue` whose `target` is the channel `(peer, t)`, in
enqueue order, as `round` labels them. -/
def stepsOn (target : Setuppable → Option (Nat × Int)) (peer : Nat) (t : Int) (round : ColdRound)
    (queue : List Setuppable) : List ColdStep :=
  (queue.filter fun x => target x = some (peer, t)).map round.step

/-! ## The programs -/

section Wire

variable {Bytes : Type} (serialize : RegisteredMemory → Bytes) (handshake : Setuppable → Bytes)

/-- The invocations of a `setup()` call of `round` over `queue` that returns, each labelled
with the step of its object. -/
def roundInstrs (round : ColdRound) (queue : List Setuppable) : List (Instr ColdStep Bytes) :=
  (Communicator.hooksOf queue).map fun h => ⟨round.step h.2, hookAction serialize handshake h.1 h.2⟩

/-- The program of `rank`, from the log of its `setup()` calls. -/
def rankProgram (plan : PlanLayout) (rank : Nat) (log : List (List Setuppable)) :
    List (Instr ColdStep Bytes) :=
  (List.zipWith (roundInstrs serialize handshake) (coldRounds plan rank) log).flatten

/-- Every rank's program, from the logs of all ranks. -/
def coldProgram (plan : PlanLayout) (logs : Nat → List (List Setuppable)) (rank : Nat) :
    List (Instr ColdStep Bytes) :=
  rankProgram serialize handshake plan rank (logs rank)

/-! ### Two phases -/

theorem level_of_mem_roundInstrs {order : List BufferType} {round : ColdRound}
    {queue : List Setuppable} {b : Instr ColdStep Bytes}
    (hb : b ∈ roundInstrs serialize handshake round queue) :
    b.label.level order = round.level order := by
  obtain ⟨h, -, rfl⟩ := List.mem_map.mp hb
  exact ColdRound.level_step order round h.2

/-- Within one call, every receive comes after every send. -/
theorem roundInstrs_twoPhase (order : List BufferType) (round : ColdRound)
    (queue : List Setuppable) :
    (roundInstrs serialize handshake round queue).Pairwise fun a b =>
      a.action.IsRecv → b.action.IsSend → a.label.level order < b.label.level order := by
  simp only [roundInstrs, Communicator.hooksOf, List.map_append, List.map_map,
    List.pairwise_append, List.pairwise_map]
  refine ⟨?_, ?_, ?_⟩
  · exact List.pairwise_of_forall fun a _ hr =>
      absurd hr (hookAction_beginSetup_not_recv serialize handshake a)
  · exact List.pairwise_of_forall fun _ b _ hs =>
      absurd hs (hookAction_endSetup_not_send serialize handshake b)
  · intro a ha b _ hr
    obtain ⟨s, -, rfl⟩ := List.mem_map.mp ha
    exact absurd hr (hookAction_beginSetup_not_recv _ _ _)

theorem level_of_mem_zipWith_roundInstrs {order : List BufferType} {rounds : List ColdRound}
    {queues : List (List Setuppable)} {b : Instr ColdStep Bytes}
    (hb : b ∈ (List.zipWith (roundInstrs serialize handshake) rounds queues).flatten) :
    ∃ round ∈ rounds, b.label.level order = round.level order := by
  induction rounds generalizing queues with
  | nil => simp at hb
  | cons round rounds ih =>
    cases queues with
    | nil => simp at hb
    | cons queue queues =>
      rw [List.zipWith_cons_cons, List.flatten_cons, List.mem_append] at hb
      rcases hb with hb | hb
      · exact ⟨round, List.mem_cons_self _ _, level_of_mem_roundInstrs serialize handshake hb⟩
      · obtain ⟨round', hr, hl⟩ := ih hb
        exact ⟨round', List.mem_cons_of_mem _ hr, hl⟩

/-- Calls of increasing levels, over any queues, make a two-phase program. -/
theorem zipWith_roundInstrs_twoPhase (order : List BufferType) {rounds : List ColdRound}
    (hrounds : rounds.Pairwise fun a b => a.level order < b.level order)
    (queues : List (List Setuppable)) :
    (List.zipWith (roundInstrs serialize handshake) rounds queues).flatten.Pairwise fun a b =>
      a.action.IsRecv → b.action.IsSend → a.label.level order < b.label.level order := by
  induction rounds generalizing queues with
  | nil => simp
  | cons round rounds ih =>
    cases queues with
    | nil => simp
    | cons queue queues =>
      rw [List.pairwise_cons] at hrounds
      rw [List.zipWith_cons_cons, List.flatten_cons, List.pairwise_append]
      refine ⟨roundInstrs_twoPhase serialize handshake order round queue, ih hrounds.2 queues,
        fun a ha b hb _ _ => ?_⟩
      obtain ⟨round', hr, hl⟩ := level_of_mem_zipWith_roundInstrs serialize handshake hb
      rw [level_of_mem_roundInstrs serialize handshake ha, hl]
      exact hrounds.1 round' hr

/-! ### The channels seen from the queues -/

theorem sendsTo_roundInstrs (round : ColdRound) (queue : List Setuppable) (d : Nat) (t : Int) :
    (sendsTo d t (roundInstrs serialize handshake round queue)).map Prod.fst =
      stepsOn Setuppable.sendTarget d t round queue := by
  have hend : ∀ q : List Setuppable, sendsTo d t (q.map fun x =>
      (⟨round.step x, hookAction serialize handshake .endSetup x⟩ : Instr ColdStep Bytes)) = [] := by
    intro q
    induction q with
    | nil => rfl
    | cons x q ih => cases x <;> simpa using ih
  simp only [roundInstrs, Communicator.hooksOf, List.map_append, List.map_map, sendsTo_append,
    Function.comp_def, hend, List.append_nil, stepsOn]
  induction queue with
  | nil => rfl
  | cons x q ih =>
    rw [List.map_cons, List.filter_cons]
    cases x with
    | memorySender _ _ r tg => by_cases h : r = d ∧ tg = t <;> simp [h, ih]
    | memoryReceiver => simpa using ih
    | connection c => by_cases h : c.remoteRank = d ∧ c.tag = t <;> simp [h, ih]
    | semaphore _ _ c => by_cases h : c.remoteRank = d ∧ c.tag = t <;> simp [h, ih]

theorem recvsFrom_roundInstrs (round : ColdRound) (queue : List Setuppable) (s : Nat) (t : Int) :
    recvsFrom s t (roundInstrs serialize handshake round queue) =
      stepsOn Setuppable.recvSource s t round queue := by
  have hbegin : ∀ q : List Setuppable, recvsFrom s t (q.map fun x =>
      (⟨round.step x, hookAction serialize handshake .beginSetup x⟩ : Instr ColdStep Bytes)) = [] := by
    intro q
    induction q with
    | nil => rfl
    | cons x q ih => cases x <;> simpa using ih
  simp only [roundInstrs, Communicator.hooksOf, List.map_append, List.map_map, recvsFrom_append,
    Function.comp_def, hbegin, List.nil_append, stepsOn]
  induction queue with
  | nil => rfl
  | cons x q ih =>
    rw [List.map_cons, List.filter_cons]
    cases x with
    | memorySender => simpa using ih
    | memoryReceiver _ r tg => by_cases h : r = s ∧ tg = t <;> simp [h, ih]
    | connection c => by_cases h : c.remoteRank = s ∧ c.tag = t <;> simp [h, ih]
    | semaphore _ _ c => by_cases h : c.remoteRank = s ∧ c.tag = t <;> simp [h, ih]

theorem sendsTo_rankProgram (plan : PlanLayout) (rank : Nat) (log : List (List Setuppable))
    (d : Nat) (t : Int) :
    (sendsTo d t (rankProgram serialize handshake plan rank log)).map Prod.fst =
      (List.zipWith (stepsOn Setuppable.sendTarget d t) (coldRounds plan rank) log).flatten := by
  rw [rankProgram]
  generalize coldRounds plan rank = rounds
  induction rounds generalizing log with
  | nil => simp
  | cons round rounds ih =>
    cases log with
    | nil => simp
    | cons queue log =>
      simp only [List.zipWith_cons_cons, List.flatten_cons, sendsTo_append, List.map_append,
        sendsTo_roundInstrs, ih]

theorem recvsFrom_rankProgram (plan : PlanLayout) (rank : Nat) (log : List (List Setuppable))
    (s : Nat) (t : Int) :
    recvsFrom s t (rankProgram serialize handshake plan rank log) =
      (List.zipWith (stepsOn Setuppable.recvSource s t) (coldRounds plan rank) log).flatten := by
  rw [rankProgram]
  generalize coldRounds plan rank = rounds
  induction rounds generalizing log with
  | nil => simp
  | cons round rounds ih =>
    cases log with
    | nil => simp
    | cons queue log =>
      simp only [List.zipWith_cons_cons, List.flatten_cons, recvsFrom_append,
        recvsFrom_roundInstrs, ih]

end Wire

/-! ## The logs of the cold path -/

/-- **What the cold path of `rank` logs**, round by round: its connections, one per connected
peer in order, each toward that peer on tag 0; for each buffer role, the `MemorySender`s
toward the peers of `getChannelInfosByDstRank` then the `MemoryReceiver`s from the peers of
`getChannelInfos`; and its SM then proxy semaphores, one per pair the semaphore loop visits,
each over a tag-0 connection to that pair's peer. -/
structure ColdLog (plan : PlanLayout) (nranks rank : Nat) where
  conns : List Connection
  memoryQueues : List (List Setuppable)
  smSemaphores : List Semaphore
  proxySemaphores : List Semaphore
  conns_peer : List.Forall₂ (fun peer conn => conn.remoteRank = peer ∧ conn.tag = 0)
    (plan.getConnectedPeers rank) conns
  memoryQueues_eq : List.Forall₂ (fun bt queue => ∃ memory n m,
      queue = memorySenders memory n (getConnectedPeers (plan.getChannelInfosByDstRank rank bt)) ++
        memoryReceivers m (getConnectedPeers (plan.getChannelInfos rank bt)))
    (plan.getConnectedBufferTypes rank) memoryQueues
  smSemaphores_peer : List.Forall₂ (fun ip s => s.conn.remoteRank = ip.2 ∧ s.conn.tag = 0)
    (semaphorePeers plan rank nranks .sm) smSemaphores
  proxySemaphores_peer : List.Forall₂ (fun ip s => s.conn.remoteRank = ip.2 ∧ s.conn.tag = 0)
    (semaphorePeers plan rank nranks .proxy) proxySemaphores

/-- The queues the `setup()` calls of a cold log ran: the connections, the memory queues,
and the semaphores as `enqueueSemaphores` enqueued them. -/
def ColdLog.log {plan : PlanLayout} {nranks rank : Nat} (l : ColdLog plan nranks rank) :
    List (List Setuppable) :=
  l.conns.map .connection :: l.memoryQueues ++
    [l.smSemaphores.map (fun s => .semaphore s.id .sm s.conn) ++
      l.proxySemaphores.map (fun s => .semaphore s.id .proxy s.conn)]

/-- The steps of the messages a cold path puts on its channel with `peer` on tag `t`, in one
direction, given the peers its connection round, each memory round and its semaphore round
exchange with: only tag 0 carries any. -/
def channelSteps (connected : List Nat) (memoryPeers : BufferType → List Nat)
    (bufferTypes : List BufferType) (sm proxy : List (ChannelInfo × Nat)) (peer : Nat) (t : Int) :
    List ColdStep :=
  if t = 0 then
    List.replicate (connected.count peer) .connection ++
      bufferTypes.flatMap (fun bt => List.replicate ((memoryPeers bt).count peer) (.memory bt)) ++
      (List.replicate ((sm.map Prod.snd).count peer) (.semaphore .sm) ++
        List.replicate ((proxy.map Prod.snd).count peer) (.semaphore .proxy))
  else []

section Streams

variable {target : Setuppable → Option (Nat × Int)} {peer : Nat} {t : Int} {round : ColdRound}

theorem stepsOn_append (q₁ q₂ : List Setuppable) :
    stepsOn target peer t round (q₁ ++ q₂) =
      stepsOn target peer t round q₁ ++ stepsOn target peer t round q₂ := by
  simp [stepsOn]

/-- Objects that each talk to the peer their key names, on tag 0, in one step `c`. -/
theorem stepsOn_of_forall₂ {α : Type} {c : ColdStep} {key : α → Nat} {as : List α}
    {objs : List Setuppable}
    (h : List.Forall₂ (fun a x => target x = some (key a, 0) ∧ round.step x = c) as objs) :
    stepsOn target peer t round objs =
      if t = 0 then List.replicate ((as.map key).count peer) c else [] := by
  induction h with
  | nil => simp [stepsOn]
  | @cons a x as objs hx _ ih =>
    rw [stepsOn, List.filter_cons, hx.1]
    rw [stepsOn] at ih
    by_cases ht : t = 0
    · subst ht
      by_cases hk : key a = peer
      · simp [hk, ih, hx.2, List.replicate_succ]
      · simp [hk, ih, List.count_cons]
    · simp [ht, Ne.symm ht, ih]

theorem stepsOn_of_forall_none {objs : List Setuppable} (h : ∀ x ∈ objs, target x = none) :
    stepsOn target peer t round objs = [] := by
  simp only [stepsOn, List.map_eq_nil_iff, List.filter_eq_nil_iff]
  intro x hx
  simp [h x hx]

theorem forall₂_memorySenders (bt : BufferType) (memory : RegisteredMemory) (n : Nat)
    (peers : List Nat) :
    List.Forall₂ (fun p x => x.sendTarget = some (p, 0) ∧ (ColdRound.memories bt).step x = .memory bt)
      peers (memorySenders memory n peers) := by
  induction peers generalizing n with
  | nil => exact .nil
  | cons p peers ih => exact .cons ⟨rfl, rfl⟩ (ih _)

theorem forall₂_memoryReceivers (bt : BufferType) (n : Nat) (peers : List Nat) :
    List.Forall₂ (fun p x => x.recvSource = some (p, 0) ∧ (ColdRound.memories bt).step x = .memory bt)
      peers (memoryReceivers n peers) := by
  induction peers generalizing n with
  | nil => exact .nil
  | cons p peers ih => exact .cons ⟨rfl, rfl⟩ (ih _)

theorem recvSource_memorySenders {memory : RegisteredMemory} {n : Nat} {peers : List Nat} :
    ∀ x ∈ memorySenders memory n peers, x.recvSource = none := by
  induction peers generalizing n with
  | nil => simp [memorySenders]
  | cons p peers ih =>
    simp only [memorySenders, List.mem_cons, forall_eq_or_imp]
    exact ⟨rfl, ih⟩

theorem sendTarget_memoryReceivers {n : Nat} {peers : List Nat} :
    ∀ x ∈ memoryReceivers n peers, x.sendTarget = none := by
  induction peers generalizing n with
  | nil => simp [memoryReceivers]
  | cons p peers ih =>
    simp only [memoryReceivers, List.mem_cons, forall_eq_or_imp]
    exact ⟨rfl, ih⟩

/-- The memory rounds of a log, role by role. -/
theorem flatten_zipWith_memories {f : BufferType → List ColdStep} {bufferTypes : List BufferType}
    {queues : List (List Setuppable)}
    (h : List.Forall₂ (fun bt q => stepsOn target peer t (.memories bt) q = f bt) bufferTypes queues) :
    (List.zipWith (stepsOn target peer t) (bufferTypes.map .memories) queues).flatten =
      bufferTypes.flatMap f := by
  induction h with
  | nil => rfl
  | cons hq _ ih => simp [hq, ih]

variable {plan : PlanLayout} {nranks rank : Nat}

/-- **The channel of a cold log with `peer`, one direction**: read through `target`, the
log's rounds put on it the steps `channelSteps` counts, given which peers each memory round
talks to that way. -/
theorem flatten_zipWith_stepsOn (l : ColdLog plan nranks rank)
    (hconn : ∀ c, target (.connection c) = some (c.remoteRank, c.tag))
    (hsem : ∀ id k c, target (.semaphore id k c) = some (c.remoteRank, c.tag))
    (memoryPeers : BufferType → List Nat)
    (hmem : ∀ bt memory n m, stepsOn target peer t (.memories bt)
      (memorySenders memory n (getConnectedPeers (plan.getChannelInfosByDstRank rank bt)) ++
        memoryReceivers m (getConnectedPeers (plan.getChannelInfos rank bt))) =
      if t = 0 then List.replicate ((memoryPeers bt).count peer) (.memory bt) else []) :
    (List.zipWith (stepsOn target peer t) (coldRounds plan rank) l.log).flatten =
      channelSteps (plan.getConnectedPeers rank) memoryPeers (plan.getConnectedBufferTypes rank)
        (semaphorePeers plan rank nranks .sm) (semaphorePeers plan rank nranks .proxy) peer t := by
  have hlen : (ColdRound.connections :: (plan.getConnectedBufferTypes rank).map .memories).length =
      (l.conns.map Setuppable.connection :: l.memoryQueues).length := by
    simp [l.memoryQueues_eq.length_eq]
  have hsemaphores : ∀ {sems : List Semaphore} (k : ChannelType),
      List.Forall₂ (fun ip s => s.conn.remoteRank = ip.2 ∧ s.conn.tag = 0)
        (semaphorePeers plan rank nranks k) sems →
      stepsOn target peer t .semaphores (sems.map fun s => .semaphore s.id k s.conn) =
        if t = 0 then
          List.replicate (((semaphorePeers plan rank nranks k).map Prod.snd).count peer)
            (.semaphore k)
        else [] := fun k h =>
    stepsOn_of_forall₂ (List.forall₂_map_right_iff.mpr
      (h.imp fun _ _ h => ⟨by rw [hsem, h.1, h.2], rfl⟩))
  rw [coldRounds, ColdLog.log, List.zipWith_append _ _ _ _ _ hlen]
  simp only [List.zipWith_cons_cons, List.zipWith_nil_left, List.flatten_append, List.flatten_cons,
    List.flatten_nil, List.append_nil]
  have hconns : stepsOn target peer t .connections (l.conns.map .connection) =
      if t = 0 then List.replicate ((plan.getConnectedPeers rank).count peer) .connection
      else [] := by
    rw [← List.map_id (plan.getConnectedPeers rank)]
    exact
    stepsOn_of_forall₂ (List.forall₂_map_right_iff.mpr
      (l.conns_peer.imp fun _ _ h => ⟨by rw [hconn, h.1, h.2]; rfl, rfl⟩))
  rw [channelSteps, stepsOn_append, hsemaphores .sm l.smSemaphores_peer,
    hsemaphores .proxy l.proxySemaphores_peer, hconns,
    flatten_zipWith_memories (l.memoryQueues_eq.imp fun bt _ ⟨memory, n, m, hq⟩ =>
      hq ▸ hmem bt memory n m)]
  by_cases ht : t = 0 <;> simp [ht]

end Streams

section Program

variable {Bytes : Type} (serialize : RegisteredMemory → Bytes) (handshake : Setuppable → Bytes)
  {plan : PlanLayout} {nranks rank : Nat}

/-- **The sends of a cold log** toward `d` on tag `t`: the steps of its connections to `d`,
of the descriptors of each role it sends to `d`, and of its semaphores toward `d`. -/
theorem sendsTo_coldLog (l : ColdLog plan nranks rank) (d : Nat) (t : Int) :
    (sendsTo d t (rankProgram serialize handshake plan rank l.log)).map Prod.fst =
      channelSteps (plan.getConnectedPeers rank)
        (fun bt => getConnectedPeers (plan.getChannelInfosByDstRank rank bt))
        (plan.getConnectedBufferTypes rank) (semaphorePeers plan rank nranks .sm)
        (semaphorePeers plan rank nranks .proxy) d t := by
  rw [sendsTo_rankProgram]
  refine flatten_zipWith_stepsOn l (fun _ => rfl) (fun _ _ _ => rfl) _ fun bt memory n m => ?_
  rw [stepsOn_append, stepsOn_of_forall₂ (forall₂_memorySenders bt memory n _),
    stepsOn_of_forall_none sendTarget_memoryReceivers, List.map_id', List.append_nil]

/-- **The receives of a cold log** from `s` on tag `t`: the steps of its connections to `s`,
of the descriptors of each role it requests from `s`, and of its semaphores toward `s`. -/
theorem recvsFrom_coldLog (l : ColdLog plan nranks rank) (s : Nat) (t : Int) :
    recvsFrom s t (rankProgram serialize handshake plan rank l.log) =
      channelSteps (plan.getConnectedPeers rank)
        (fun bt => getConnectedPeers (plan.getChannelInfos rank bt))
        (plan.getConnectedBufferTypes rank) (semaphorePeers plan rank nranks .sm)
        (semaphorePeers plan rank nranks .proxy) s t := by
  rw [recvsFrom_rankProgram]
  refine flatten_zipWith_stepsOn l (fun _ => rfl) (fun _ _ _ => rfl) _ fun bt memory n m => ?_
  rw [stepsOn_append, stepsOn_of_forall_none recvSource_memorySenders,
    stepsOn_of_forall₂ (forall₂_memoryReceivers bt m _), List.map_id', List.nil_append]

end Program

/-! ## Paired plans -/

/-- **The pairing conditions of a plan** over `nranks` ranks, `order` being an order of the
buffer roles common to all ranks: `getConnectedPeers` is symmetric and holds every peer the
semaphore loop visits; `p` requests `r`'s descriptor of a role exactly when `r` sends it to
`p`; every rank lists, in the common order, every role it sends or requests a descriptor of;
and for each channel kind, `r` builds as many semaphores toward `p` as `p` toward `r`. -/
structure PlanPaired (plan : PlanLayout) (nranks : Nat) (order : List BufferType) : Prop where
  connectedPeers_count : ∀ r p,
    (plan.getConnectedPeers r).count p = (plan.getConnectedPeers p).count r
  channelPeers_connected : ∀ r, ∀ k ∈ channelTypes, ∀ ip ∈ semaphorePeers plan r nranks k,
    ip.2 ∈ plan.getConnectedPeers r
  descriptorPeers_iff : ∀ r p bt, p ∈ getConnectedPeers (plan.getChannelInfos r bt) ↔
    r ∈ getConnectedPeers (plan.getChannelInfosByDstRank p bt)
  bufferTypes_cover : ∀ r bt p, p ∈ getConnectedPeers (plan.getChannelInfos r bt) ∨
    p ∈ getConnectedPeers (plan.getChannelInfosByDstRank r bt) → bt ∈ plan.getConnectedBufferTypes r
  order_nodup : order.Nodup
  bufferTypes_sublist : ∀ r, (plan.getConnectedBufferTypes r).Sublist order
  semaphorePeers_count : ∀ k ∈ channelTypes, ∀ r p,
    ((semaphorePeers plan r nranks k).map Prod.snd).count p =
      ((semaphorePeers plan p nranks k).map Prod.snd).count r

theorem nodup_getConnectedPeers (infos : List ChannelInfo) : (getConnectedPeers infos).Nodup :=
  (List.perm_insertionSort _ _).nodup_iff.mpr (List.nodup_dedup _)

theorem mem_getConnectedPeers {infos : List ChannelInfo} {p : Nat} :
    p ∈ getConnectedPeers infos ↔ ∃ info ∈ infos, p ∈ info.connectedPeers := by
  simp [getConnectedPeers, (List.perm_insertionSort _ _).mem_iff, List.mem_dedup]

/-- Over a sublist of a list without repeats, a `flatMap` that is empty off the sublist is
that over the whole list. -/
theorem flatMap_eq_of_sublist {α β : Type} {l order : List α} (hsub : l.Sublist order)
    (horder : order.Nodup) {f : α → List β} (hf : ∀ a ∈ order, a ∉ l → f a = []) :
    l.flatMap f = order.flatMap f := by
  induction hsub with
  | slnil => rfl
  | @cons l₁ l₂ x hsub ih =>
    have hx : x ∉ l₁ := fun h => (List.nodup_cons.mp horder).1 (hsub.subset h)
    rw [List.flatMap_cons, hf x (List.mem_cons_self _ _) hx, List.nil_append]
    exact ih (List.nodup_cons.mp horder).2 fun a ha hna => hf a (List.mem_cons_of_mem _ ha) hna
  | @cons₂ l₁ l₂ x hsub ih =>
    rw [List.flatMap_cons, List.flatMap_cons, ih (List.nodup_cons.mp horder).2 fun a ha hna =>
      hf a (List.mem_cons_of_mem _ ha) fun h => (List.mem_cons.mp h).elim
        (fun e => (List.nodup_cons.mp horder).1 (e ▸ ha)) hna]

variable {plan : PlanLayout} {nranks : Nat} {order : List BufferType}

/-- **A paired plan lines up every channel**: what `s` sends toward `d` is, step by step,
what `d` receives from `s`. -/
theorem channelSteps_paired (h : PlanPaired plan nranks order) (s d : Nat) (t : Int) :
    channelSteps (plan.getConnectedPeers s)
        (fun bt => getConnectedPeers (plan.getChannelInfosByDstRank s bt))
        (plan.getConnectedBufferTypes s) (semaphorePeers plan s nranks .sm)
        (semaphorePeers plan s nranks .proxy) d t =
      channelSteps (plan.getConnectedPeers d)
        (fun bt => getConnectedPeers (plan.getChannelInfos d bt))
        (plan.getConnectedBufferTypes d) (semaphorePeers plan d nranks .sm)
        (semaphorePeers plan d nranks .proxy) s t := by
  have hcount : ∀ bt, (getConnectedPeers (plan.getChannelInfosByDstRank s bt)).count d =
      (getConnectedPeers (plan.getChannelInfos d bt)).count s := fun bt => by
    rw [List.count_eq_of_nodup (nodup_getConnectedPeers _),
      List.count_eq_of_nodup (nodup_getConnectedPeers _)]
    simp only [h.descriptorPeers_iff d s bt]
  have hsend := flatMap_eq_of_sublist (h.bufferTypes_sublist s) h.order_nodup
    (f := fun bt => List.replicate ((getConnectedPeers (plan.getChannelInfosByDstRank s bt)).count d)
      (ColdStep.memory bt)) fun bt _ hbt => by
    rw [List.replicate_eq_nil_iff, List.count_eq_zero]
    exact fun hd => hbt (h.bufferTypes_cover s bt d (.inr hd))
  have hrecv := flatMap_eq_of_sublist (h.bufferTypes_sublist d) h.order_nodup
    (f := fun bt => List.replicate ((getConnectedPeers (plan.getChannelInfos d bt)).count s)
      (ColdStep.memory bt)) fun bt _ hbt => by
    rw [List.replicate_eq_nil_iff, List.count_eq_zero]
    exact fun hs => hbt (h.bufferTypes_cover d bt s (.inl hs))
  rw [channelSteps, channelSteps, hsend, hrecv, h.connectedPeers_count s d,
    h.semaphorePeers_count .sm (by decide) s d, h.semaphorePeers_count .proxy (by decide) s d]
  simp only [hcount]

/-- **Cold logs of a paired plan make matched programs**: on every channel, the `k`-th
message the receiver takes is labelled with the step of the `k`-th message the sender
sends. -/
theorem coldProgram_matched {Bytes : Type} (serialize : RegisteredMemory → Bytes)
    (handshake : Setuppable → Bytes) (h : PlanPaired plan nranks order)
    {logs : Nat → List (List Setuppable)} (hlogs : ∀ r, ∃ l : ColdLog plan nranks r, logs r = l.log) :
    Matched (coldProgram serialize handshake plan logs) := by
  intro s d t
  obtain ⟨ls, hs⟩ := hlogs s
  obtain ⟨ld, hd⟩ := hlogs d
  rw [coldProgram, coldProgram, hs, hd, sendsTo_coldLog, recvsFrom_coldLog]
  exact channelSteps_paired h s d t

/-- Along a sublist of a list without repeats, the positions in that list increase. -/
theorem pairwise_indexOf_lt_of_sublist {α : Type} [DecidableEq α] {l order : List α}
    (hsub : l.Sublist order) (horder : order.Nodup) :
    l.Pairwise fun a b => order.indexOf a < order.indexOf b := by
  induction hsub with
  | slnil => exact List.Pairwise.nil
  | @cons l₁ l₂ x hsub ih =>
    have hne : ∀ {a}, a ∈ l₁ → x ≠ a := fun ha e =>
      (List.nodup_cons.mp horder).1 (e ▸ hsub.subset ha)
    refine (ih (List.nodup_cons.mp horder).2).imp_of_mem fun ha hb h => ?_
    rw [List.indexOf_cons_ne _ (hne ha), List.indexOf_cons_ne _ (hne hb)]
    omega
  | @cons₂ l₁ l₂ x hsub ih =>
    have hne : ∀ {a}, a ∈ l₁ → x ≠ a := fun ha e =>
      (List.nodup_cons.mp horder).1 (e ▸ hsub.subset ha)
    refine List.pairwise_cons.mpr ⟨fun b hb => ?_,
      (ih (List.nodup_cons.mp horder).2).imp_of_mem fun ha hb h => ?_⟩
    · rw [List.indexOf_cons_self, List.indexOf_cons_ne _ (hne hb)]
      omega
    · rw [List.indexOf_cons_ne _ (hne ha), List.indexOf_cons_ne _ (hne hb)]
      omega

/-- The rounds of a rank whose buffer roles follow a common order have increasing levels. -/
theorem coldRounds_pairwise {plan : PlanLayout} {rank : Nat} {order : List BufferType}
    (horder : order.Nodup) (htypes : (plan.getConnectedBufferTypes rank).Sublist order) :
    (coldRounds plan rank).Pairwise fun a b => a.level order < b.level order := by
  have hlt : ∀ bt ∈ plan.getConnectedBufferTypes rank, order.indexOf bt < order.length :=
    fun bt hbt => List.indexOf_lt_length.mpr (htypes.subset hbt)
  rw [coldRounds, List.pairwise_append, List.pairwise_cons, List.pairwise_map]
  refine ⟨⟨fun b hb => ?_, (pairwise_indexOf_lt_of_sublist htypes horder).imp fun h => by
    simpa [ColdRound.level] using h⟩, List.pairwise_singleton _ _, fun a ha b hb => ?_⟩
  · obtain ⟨bt, -, rfl⟩ := List.mem_map.mp hb
    simp [ColdRound.level]
  · rw [List.mem_singleton.mp hb]
    rcases List.mem_cons.mp ha with rfl | ha
    · simp [ColdRound.level]
    · obtain ⟨bt, hbt, rfl⟩ := List.mem_map.mp ha
      simpa [ColdRound.level] using hlt bt hbt

/-- **The cold path is two-phase**: for buffer roles that every rank lists in one common
order, every rank's program, whatever its log holds, receives before sending only at a lower
level. -/
theorem coldProgram_twoPhase {Bytes : Type} (serialize : RegisteredMemory → Bytes)
    (handshake : Setuppable → Bytes) {plan : PlanLayout} {order : List BufferType}
    (horder : order.Nodup) (htypes : ∀ rank, (plan.getConnectedBufferTypes rank).Sublist order)
    (logs : Nat → List (List Setuppable)) :
    TwoPhase (coldProgram serialize handshake plan logs) (ColdStep.level order) := fun rank =>
  zipWith_roundInstrs_twoPhase serialize handshake order (coldRounds_pairwise horder (htypes rank))
    (logs rank)

end Mscclpp
