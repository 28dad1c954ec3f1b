import Mscclpp.Executor.ColdRounds
import Mscclpp.Executor.Frame

/-!
# The cold path of every rank, run together

Each rank builds its context with `buildContext`; the log of its `setup()` calls
(`Executor.setups`) is what the rank puts on the bootstrap, as `coldProgram` reads it.  This
module reads that log off the executor's run and assembles the cross-rank result.

## Main Definitions

* `ReachesSemaphoreRound` — a cold build that starts with nothing pending and whose
  connection and memory rounds return.

## Main results

* `coldRun_log` — the log of such a build is a `ColdLog`: the executor refines the rounds
  that `coldProgram` runs.
* `cold_setup_deadlock_free` — for a paired plan, when every rank's cold build reaches the
  `setup()` call of `setupChannels`, no interleaving of the ranks deadlocks, and every
  message a rank receives is the one its peer sent at the same position of their tag-0
  channel, for the same step.

## Design Notes

The executor's hooks run over an abstract `Platform`, so a rank's run is checked on its own
(`ExecM`), and the log it leaves is what ties it to the bootstrap semantics.  A `setup()`
call that throws still logs its queue (`Executor.setup`), so a rank that throws inside the
semaphore round's call, or in the channel loops after it, has the same program as one that
returns.
-/

namespace Mscclpp

open Bootstrap ExecM

variable {W Bytes : Type} (P : Platform W Bytes)

/-! ## The log of each round -/

/-- A `setup()` call logs its queue whether or not a hook throws. -/
theorem Executor.setup_setups (e : Executor W) :
    (Executor.setup P e).2.setups = e.setups ++ [e.comm.toSetup] := by
  simp only [Executor.setup]
  split <;> rfl

/-- A `setup()` call over an empty queue invokes nothing and returns. -/
theorem Executor.setup_nil {e : Executor W} (hq : e.comm.toSetup = []) :
    Executor.setup P e = (.ok (), { e with setups := e.setups ++ [[]] }) := by
  obtain ⟨_, _, ⟨_, _, _, _, _, _, _⟩, _, _, _, _, _⟩ := e
  subst hq
  rfl

section Rounds

variable (sendbuff recvbuff sendBufferSize recvBufferSize rank : Nat) (plan : PlanLayout)

/-- **The memory rounds log one queue per role**: the `MemorySender`s toward the accessors of
the rank's buffer of that role, then the `MemoryReceiver`s from the peers it needs that
role's descriptor of. -/
theorem foldlM_exchangeRegisteredMemory_log {bufferTypes : List BufferType}
    {c c' : ExecutionContext} {e e' : Executor W} (hq : e.comm.toSetup = [])
    (h : bufferTypes.foldlM (exchangeRegisteredMemory P sendbuff recvbuff sendBufferSize
      recvBufferSize rank plan) c e = (.ok c', e')) :
    ∃ queues, List.Forall₂ (fun bt queue => ∃ memory n m,
        queue = memorySenders memory n (getConnectedPeers (plan.getChannelInfosByDstRank rank bt)) ++
          memoryReceivers m (getConnectedPeers (plan.getChannelInfos rank bt))) bufferTypes queues ∧
      e'.setups = e.setups ++ queues ∧ e'.comm.toSetup = [] := by
  induction bufferTypes generalizing c e with
  | nil =>
    simp only [List.foldlM_nil, ExecM.pure_apply, Prod.mk.injEq, Except.ok.injEq] at h
    obtain ⟨rfl, rfl⟩ := h
    exact ⟨[], .nil, by simp, hq⟩
  | cons bt bts ih =>
    rw [List.foldlM_cons] at h
    obtain ⟨c₁, e₁, h₁, h⟩ := ExecM.bind_eq_ok.mp h
    obtain ⟨⟨memory, hlog₁⟩, hq₁, -⟩ := exchangeRegisteredMemory_ok P sendbuff recvbuff
      sendBufferSize recvBufferSize rank h₁
    obtain ⟨queues, hall, hlog, hq'⟩ := ih hq₁ h
    refine ⟨_ :: queues, .cons ⟨memory, e.comm.nextId, e.comm.nextId +
      (getConnectedPeers (plan.getChannelInfosByDstRank rank bt)).length, rfl⟩ hall, ?_, hq'⟩
    rw [hlog, hlog₁, hq, List.nil_append, List.append_assoc, List.singleton_append]

/-- The channel loops of `setupChannels` only read the executor. -/
theorem foldlM_buildChannels_state (ctx : ExecutionContext) (e : Executor W) :
    (channelTypes.foldlM (buildChannels sendbuff recvbuff sendBufferSize recvBufferSize rank plan)
      ctx e).2 = e :=
  (Keeps.foldlM (R := Eq) (fun _ _ => (Keeps.foldlM (fun _ _ =>
    (keeps_ofExcept _).bind fun _ => (keeps_ofExcept _).bind fun _ => keeps_get.bind fun _ =>
      (keeps_ofExcept _).bind fun _ => keeps_ofExcept _) _ _).bind fun _ => keeps_pure _)
    channelTypes ctx e).symm

/-- The semaphores built over the connections `conns` of the visited peers are each over a
tag-0 connection to their pair's peer, when those connections are. -/
theorem forall₂_semaphoresOf (conns : Nat → Connection) {ps : List (ChannelInfo × Nat)}
    (hps : ∀ ip ∈ ps, (conns ip.2).remoteRank = ip.2 ∧ (conns ip.2).tag = 0) (n : Nat) :
    List.Forall₂ (fun ip s => s.conn.remoteRank = ip.2 ∧ s.conn.tag = 0) ps
      (semaphoresOf conns n ps) := by
  induction ps generalizing n with
  | nil => exact .nil
  | cons ip ps ih =>
    exact .cons (hps ip (List.mem_cons_self _ _))
      (ih (fun ip' h => hps ip' (List.mem_cons_of_mem _ h)) _)

/-- **The semaphore round logs the semaphores**: when every peer the semaphore loop visits
has a tag-0 connection to it, `setupChannels` logs, after its SM semaphores, its proxy ones,
each over the connection to the peer of its pair; and nothing else, whether it returns or
throws. -/
theorem setupChannels_log {c : ExecutionContext} {e : Executor W} (hq : e.comm.toSetup = [])
    (hconn : ∀ k ∈ channelTypes, ∀ ip ∈ semaphorePeers plan rank e.nranks k,
      ∃ conn, c.connections.lookup ip.2 = some conn ∧ conn.remoteRank = ip.2 ∧ conn.tag = 0) :
    ∃ sm proxy : List Semaphore,
      List.Forall₂ (fun ip s => s.conn.remoteRank = ip.2 ∧ s.conn.tag = 0)
        (semaphorePeers plan rank e.nranks .sm) sm ∧
      List.Forall₂ (fun ip s => s.conn.remoteRank = ip.2 ∧ s.conn.tag = 0)
        (semaphorePeers plan rank e.nranks .proxy) proxy ∧
      (setupChannels P c sendbuff recvbuff sendBufferSize recvBufferSize rank plan e).2.setups =
        e.setups ++ [sm.map (fun s => .semaphore s.id .sm s.conn) ++
          proxy.map (fun s => .semaphore s.id .proxy s.conn)] := by
  let conns : Nat → Connection := fun p => (c.connections.lookup p).getD ⟨0, p, 0, .unknown⟩
  have hlook : ∀ k ∈ channelTypes, ∀ ip ∈ semaphorePeers plan rank e.nranks k,
      c.connections.lookup ip.2 = some (conns ip.2) ∧ (conns ip.2).remoteRank = ip.2 ∧
        (conns ip.2).tag = 0 := fun k hk ip hip => by
    obtain ⟨conn, hl, hr, ht⟩ := hconn k hk ip hip
    have hc : conns ip.2 = conn := by simp [conns, hl]
    rw [hc]
    exact ⟨hl, hr, ht⟩
  refine ⟨_, _, forall₂_semaphoresOf conns (fun ip h => (hlook .sm (by decide) ip h).2)
    e.comm.nextId, forall₂_semaphoresOf conns (fun ip h => (hlook .proxy (by decide) ip h).2)
    (e.comm.nextId + (semaphorePeers plan rank e.nranks .sm).length), ?_⟩
  have hlog := Executor.setup_setups P ((e.enqueueSemaphores .sm (semaphoresOf conns e.comm.nextId
    (semaphorePeers plan rank e.nranks .sm))).enqueueSemaphores .proxy (semaphoresOf conns
      (e.comm.nextId + (semaphorePeers plan rank e.nranks .sm).length)
      (semaphorePeers plan rank e.nranks .proxy)))
  simp only [setupChannels, ExecM.bind_apply,
    buildSemaphores_eq conns e fun k hk ip hip => (hlook k hk ip hip).1]
  rcases hs : Executor.setup P _ with ⟨_ | _, e₂⟩ <;> rw [hs] at hlog
  all_goals
    dsimp only at hlog ⊢
    simp [foldlM_buildChannels_state, hlog, Executor.enqueueSemaphores, hq]

/-! ## A rank's cold build -/

/-- The cold build, with its two allocations made. -/
theorem buildContext_apply (e : Executor W) :
    buildContext P rank sendbuff recvbuff sendBufferSize recvBufferSize plan e =
      (setupConnections P (ExecutionContext.init e.fresh
          (plan.getScratchBufferSize rank sendBufferSize recvBufferSize) (e.fresh + 1)
          plan.getNThreadsPerBlock) rank plan >>= fun c =>
        setupRegisteredMemories P c sendbuff recvbuff sendBufferSize recvBufferSize rank plan >>=
          fun c => setupChannels P c sendbuff recvbuff sendBufferSize recvBufferSize rank plan)
        { e with fresh := e.fresh + 2 } := rfl

/-- **The cold build of `rank` reaches the semaphore round**: it starts from `e` with nothing
pending in the communicator, and its connection round and every memory round return. -/
def ReachesSemaphoreRound (e : Executor W) : Prop :=
  e.comm.toSetup = [] ∧ ∃ c₁ e₁ c₂ e₂,
    setupConnections P (ExecutionContext.init e.fresh
        (plan.getScratchBufferSize rank sendBufferSize recvBufferSize) (e.fresh + 1)
        plan.getNThreadsPerBlock) rank plan { e with fresh := e.fresh + 2 } = (.ok c₁, e₁) ∧
      setupRegisteredMemories P c₁ sendbuff recvbuff sendBufferSize recvBufferSize rank plan e₁ =
        (.ok c₂, e₂)

/-- **A cold build refines the cold rounds**: when it reaches the semaphore round and every
peer its semaphore loop visits is a connected peer, the `setup()` calls it logs, returned or
thrown, are those of a `ColdLog`. -/
theorem coldRun_log {e : Executor W}
    (h : ReachesSemaphoreRound P sendbuff recvbuff sendBufferSize recvBufferSize rank plan e)
    (hpeers : ∀ k ∈ channelTypes, ∀ ip ∈ semaphorePeers plan rank e.nranks k,
      ip.2 ∈ plan.getConnectedPeers rank) :
    ∃ l : ColdLog plan e.nranks rank,
      (buildContext P rank sendbuff recvbuff sendBufferSize recvBufferSize plan e).2.setups =
        e.setups ++ l.log := by
  obtain ⟨hq, c₁, e₁, c₂, e₂, h₁, h₂⟩ := h
  obtain ⟨conns, hconns, -, hlog₁, hq₁⟩ := setupConnections_ok P h₁
  obtain ⟨queues, hqueues, hlog₂, hq₂⟩ := foldlM_exchangeRegisteredMemory_log P sendbuff recvbuff
    sendBufferSize recvBufferSize rank plan hq₁ h₂
  obtain ⟨⟨regs, hc₂⟩, -⟩ := setupRegisteredMemories_ok P sendbuff recvbuff sendBufferSize
    recvBufferSize rank h₂
  have hnranks : e₂.nranks = e.nranks := by
    have hf₁ := setupConnections_frame P rank plan (ExecutionContext.init e.fresh
      (plan.getScratchBufferSize rank sendBufferSize recvBufferSize) (e.fresh + 1)
      plan.getNThreadsPerBlock) { e with fresh := e.fresh + 2 }
    have hf₂ := setupRegisteredMemories_frame P sendbuff recvbuff sendBufferSize recvBufferSize
      rank plan c₁ e₁
    rw [h₁] at hf₁
    rw [h₂] at hf₂
    exact hf₂.nranks_eq.trans hf₁.nranks_eq
  obtain ⟨sm, proxy, hsm, hproxy, hlog₃⟩ := setupChannels_log P sendbuff recvbuff sendBufferSize
    recvBufferSize rank plan (c := c₂) hq₂ fun k hk ip hip =>
      hc₂ ▸ setupConnections_lookup P h₁ (hpeers k hk ip (hnranks ▸ hip))
  rw [hnranks] at hsm hproxy
  refine ⟨⟨conns, queues, sm, proxy, hconns.imp fun _ _ h => h.2, hqueues, hsm, hproxy⟩, ?_⟩
  rw [buildContext_apply, ExecM.bind_apply, h₁]
  dsimp only
  rw [ExecM.bind_apply, h₂]
  dsimp only
  rw [hlog₃, hlog₂, hlog₁]
  simp [ColdLog.log, hq]

/-- A rank with no connected peer and no buffer role reaches the semaphore round. -/
theorem reachesSemaphoreRound_of_idle {e : Executor W} (hq : e.comm.toSetup = [])
    (hpeers : plan.getConnectedPeers rank = []) (htypes : plan.getConnectedBufferTypes rank = []) :
    ReachesSemaphoreRound P sendbuff recvbuff sendBufferSize recvBufferSize rank plan e := by
  let context := ExecutionContext.init e.fresh
    (plan.getScratchBufferSize rank sendBufferSize recvBufferSize) (e.fresh + 1)
    plan.getNThreadsPerBlock
  let e' := { e with fresh := e.fresh + 2, setups := e.setups ++ [[]] }
  refine ⟨hq, context, e', context, e', ?_, ?_⟩
  · simp only [setupConnections, hpeers, ExecM.bind_apply, ExecM.get_apply, List.mapM_nil,
      ExecM.pure_apply, Executor.setup_nil P (e := { e with fresh := e.fresh + 2 }) hq]
    rfl
  · simp only [setupRegisteredMemories, htypes, List.foldlM_nil]
    rfl

end Rounds

/-! ## All ranks together -/

/-- **The cold paths of a paired plan neither deadlock nor mix up their messages.**  Let
every rank `r` run its cold build from an executor over `nranks` ranks, reaching the `setup()`
call of `setupChannels`, and let `logs r` be the `setup()` calls it logs.  Then in every
interleaving of the ranks' hooks, no reachable state is a deadlock; and whenever rank `r`
has received `m` at its `k`-th invocation, that invocation receives from some `s` on tag 0
for some step, and `m` is the message `s` sent toward `r` on tag 0 at the position of that
receive among `r`'s receives from `s`, sent for the same step. -/
theorem cold_setup_deadlock_free {Msg : Type} (serialize : RegisteredMemory → Msg)
    (handshake : Setuppable → Msg) {plan : PlanLayout} {nranks : Nat} {order : List BufferType}
    (hplan : PlanPaired plan nranks order) {logs : Nat → List (List Setuppable)}
    (hrun : ∀ r, ∃ (e : Executor W) (sendbuff recvbuff sendBufferSize recvBufferSize : Nat),
      e.nranks = nranks ∧
      ReachesSemaphoreRound P sendbuff recvbuff sendBufferSize recvBufferSize r plan e ∧
      (buildContext P r sendbuff recvbuff sendBufferSize recvBufferSize plan e).2.setups =
        e.setups ++ logs r)
    {w : World Msg} (hw : Reachable (coldProgram serialize handshake plan logs) w) :
    ¬ Deadlock (coldProgram serialize handshake plan logs) w ∧
      ∀ r k m, w.got (r, k) = some m → ∃ ℓ s,
        (coldProgram serialize handshake plan logs r)[k]? = some ⟨ℓ, .recv s 0⟩ ∧ k < w.pc r ∧
        (sendsTo r 0 (coldProgram serialize handshake plan logs s))[
          (recvsFrom s 0 ((coldProgram serialize handshake plan logs r).take k)).length]? =
          some (ℓ, m) := by
  have hlogs : ∀ r, ∃ l : ColdLog plan nranks r, logs r = l.log := fun r => by
    obtain ⟨e, sendbuff, recvbuff, sendBufferSize, recvBufferSize, hn, hreach, hlog⟩ := hrun r
    subst hn
    obtain ⟨l, hl⟩ := coldRun_log P sendbuff recvbuff sendBufferSize recvBufferSize r plan hreach
      (hplan.channelPeers_connected r)
    exact ⟨l, List.append_cancel_left (hlog.symm.trans hl)⟩
  have hmatch := coldProgram_matched serialize handshake hplan hlogs
  refine ⟨reachable_not_deadlock hmatch (coldProgram_twoPhase serialize handshake
    hplan.order_nodup hplan.bufferTypes_sublist logs) hw, fun r k m hgot => ?_⟩
  obtain ⟨ℓ, s, t, hi, hk, hsent⟩ := reachable_got_matched hmatch hw hgot
  obtain rfl : t = 0 := by
    by_contra ht
    have hrecv := recvsFrom_getElem?_of_getElem? hi
    obtain ⟨l, hl⟩ := hlogs r
    rw [coldProgram, hl, recvsFrom_coldLog, channelSteps, if_neg ht] at hrecv
    simp at hrecv
  exact ⟨ℓ, s, hi, hk, hsent⟩

/-! ## A pair of ranks -/

theorem mem_pairPeers {r p : Nat} : p ∈ pairPeers r ↔ r < 2 ∧ p = 1 - r := by
  unfold pairPeers
  split_ifs with h <;> simp [h]

theorem count_pairPeers (r p : Nat) : (pairPeers r).count p = (pairPeers p).count r := by
  unfold pairPeers
  split_ifs <;> simp only [List.count_singleton, List.count_nil, beq_iff_eq] <;> split_ifs <;> omega

/-- `pairPlan` is paired, over two ranks, in the order of its one buffer role. -/
theorem pairPlan_paired : PlanPaired pairPlan 2 [.output] where
  connectedPeers_count := count_pairPeers
  channelPeers_connected r k _ ip hip := by
    rcases List.mem_append.mp hip with h | h <;> obtain ⟨hinfo, hpeer⟩ := mem_infoPeers.mp h
    · rw [List.mem_singleton.mp hinfo] at hpeer
      exact hpeer
    · simp only [pairPlan] at hinfo
      split_ifs at hinfo
      · rw [List.mem_singleton.mp hinfo] at hpeer
        exact hpeer
      · simp at hinfo
  descriptorPeers_iff r p bt := by
    simp only [mem_getConnectedPeers, pairPlan]
    split_ifs
    · simp only [List.mem_cons, List.mem_singleton, List.not_mem_nil, or_false,
        exists_eq_or_imp, exists_eq_left, or_self, mem_pairPeers]
      omega
    · simp
  bufferTypes_cover r bt p h := by
    simp only [mem_getConnectedPeers, pairPlan] at h ⊢
    split_ifs at h ⊢ with hbt hr <;> simp_all [mem_pairPeers]
    omega
  order_nodup := by simp
  bufferTypes_sublist r := by
    simp only [pairPlan]
    split_ifs
    · exact List.Sublist.refl _
    · exact List.nil_sublist _
  semaphorePeers_count k hk r p := by
    simp only [channelTypes, List.mem_cons, List.mem_singleton, List.not_mem_nil, or_false] at hk
    rcases hk with rfl | rfl <;> simp [semaphorePeers, infoPeers, pairPlan, count_pairPeers r p]

/-- Rank `rank` among two ranks on one node, before its first context. -/
def pairRankExecutor (rank : Nat) : Executor Unit :=
  ⟨2, 2, ⟨rank, List.replicate (rank + 2) 7, [], [], [], 0, by simp⟩, [], (), [], 0, []⟩

/-- Every rank of the pair, and every idle rank past it, reaches the semaphore round. -/
theorem pairRank_reaches (r : Nat) :
    ReachesSemaphoreRound (Platform.quiet 8 8 0) 3 4 16 16 r pairPlan (pairRankExecutor r) := by
  refine ⟨rfl, ?_⟩
  match r with
  | 0 => exact ⟨{ ExecutionContext.init 0 64 1 256 with connections := [(1, ⟨0, 1, 0, .cudaIpc⟩)] },
      { pairRankExecutor 0 with
        comm := { (pairRankExecutor 0).comm with connections := [⟨0, 1, 0, .cudaIpc⟩], nextId := 1 }
        fresh := 2, setups := [[.connection ⟨0, 1, 0, .cudaIpc⟩]] }, _, _, rfl, rfl⟩
  | 1 => exact ⟨{ ExecutionContext.init 0 64 1 256 with connections := [(0, ⟨0, 0, 0, .cudaIpc⟩)] },
      { pairRankExecutor 1 with
        comm := { (pairRankExecutor 1).comm with connections := [⟨0, 0, 0, .cudaIpc⟩], nextId := 1 }
        fresh := 2, setups := [[.connection ⟨0, 0, 0, .cudaIpc⟩]] }, _, _, rfl, rfl⟩
  | r + 2 => exact (reachesSemaphoreRound_of_idle _ _ _ _ _ _ _ rfl
      (by simp [pairPlan, pairPeers]) (by simp [pairPlan])).2

theorem cold_setup_deadlock_free_pairPlan :
    ¬ Deadlock (coldProgram (fun _ => ()) (fun _ => ()) pairPlan fun r =>
        (buildContext (Platform.quiet 8 8 0) r 3 4 16 16 pairPlan (pairRankExecutor r)).2.setups)
      World.init ∧
      ∀ r k m, (World.init : World Unit).got (r, k) = some m → ∃ ℓ s,
        (coldProgram (fun _ => ()) (fun _ => ()) pairPlan (fun r =>
          (buildContext (Platform.quiet 8 8 0) r 3 4 16 16 pairPlan (pairRankExecutor r)).2.setups)
          r)[k]? = some ⟨ℓ, .recv s 0⟩ ∧ k < (World.init : World Unit).pc r ∧
        (sendsTo r 0 (coldProgram (fun _ => ()) (fun _ => ()) pairPlan (fun r =>
          (buildContext (Platform.quiet 8 8 0) r 3 4 16 16 pairPlan (pairRankExecutor r)).2.setups)
          s))[(recvsFrom s 0 ((coldProgram (fun _ => ()) (fun _ => ()) pairPlan (fun r =>
          (buildContext (Platform.quiet 8 8 0) r 3 4 16 16 pairPlan (pairRankExecutor r)).2.setups)
          r).take k)).length]? = some (ℓ, m) :=
  cold_setup_deadlock_free (Platform.quiet 8 8 0) (fun _ => ()) (fun _ => ()) pairPlan_paired
    (fun r => ⟨pairRankExecutor r, 3, 4, 16, 16, rfl, pairRank_reaches r, (List.nil_append _).symm⟩)
    Relation.ReflTransGen.refl

end Mscclpp
