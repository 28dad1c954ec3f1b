import Mscclpp.Executor.Channels

/-!
# What the device receives

A kernel reaches a context through the device plans `setupDeviceExecutionPlan` serializes,
and synchronizes through the semaphores of the channels those plans hold.  This module
proves that no two channels of a context share a semaphore or a proxy memory slot.

## Main Definitions

* `memoryIds`, `MemoryIdsFresh` — the `MemoryId`s of a context's proxy channels, and the fact
  that they are pairwise distinct entries of its proxy service.

## Main results

* `buildChannels_inv`, `setupChannels_inv` — a fact of the context that every channel step
  keeps, the channel loops keep.
* `setupChannels_distinct` — after `setupChannels`, the SM channels are on pairwise distinct
  semaphores, the proxy channels on pairwise distinct `SemaphoreId`s, and the proxy channels'
  `MemoryId`s are pairwise distinct entries of the proxy service.
* `except_bind_eq_ok`, `mapM_except_forall₂` — inversion of the serialization's `Except`
  loops, for `Mscclpp.Executor.Execute`.

## Design Notes

The channel steps are read once (`addChannel_semaphores`, `addChannel_memoryIdsFresh`) and
lifted through the loops by `foldlM_except_inv` and `ExecM.foldlM_inv`, which ask of a step
only that a step that returns keeps the fact.  A step that throws ends the loop, so the
results say nothing of the contexts a throwing build leaves.
-/

namespace Mscclpp

variable {W Bytes : Type}

/-! ## Loops that keep a fact -/

/-- A fold in `Except` that returns keeps every fact its returning steps keep. -/
theorem foldlM_except_inv {ε α β : Type} {g : β → α → Except ε β} (I : β → Prop)
    (hg : ∀ b a b', g b a = .ok b' → I b → I b') :
    ∀ (l : List α) {b b' : β}, l.foldlM g b = .ok b' → I b → I b'
  | [], _, _, h, hb => by cases h; exact hb
  | a :: l, b, _, h, hb => by
    rw [List.foldlM_cons] at h
    cases hba : g b a with
    | error f => rw [hba] at h; cases h
    | ok b₁ => rw [hba] at h; exact foldlM_except_inv I hg l h (hg b a b₁ hba hb)

/-- A fold in `ExecM` that returns keeps every fact of its accumulator its returning steps
keep. -/
theorem ExecM.foldlM_inv {σ α β : Type} {f : β → α → ExecM σ β} (I : β → Prop)
    (hf : ∀ b a s b' s', f b a s = (.ok b', s') → I b → I b') :
    ∀ (l : List α) {b b' : β} {s s' : σ}, l.foldlM f b s = (.ok b', s') → I b → I b'
  | [], _, _, _, _, h, hb => by cases h; exact hb
  | a :: l, b, _, s, _, h, hb => by
    rw [List.foldlM_cons, ExecM.bind_eq_ok] at h
    obtain ⟨b₁, s₁, h₁, h₂⟩ := h
    exact ExecM.foldlM_inv I hf l h₂ (hf b a s b₁ s₁ h₁ hb)

/-! ## One channel step -/

section Step

variable {k : ChannelType} {info : ChannelInfo} {localMemory : RegisteredMemory} {src : Nat}
  {acc acc' : ExecutionContext × Nat} {peer : Nat}

/-- A descriptor lookup changes the registered memories alone. -/
theorem registeredMemoriesAt_snd (c : ExecutionContext) (key : BufferType × Nat) :
    (c.registeredMemoriesAt key).2 =
      { c with registeredMemories := (c.registeredMemoriesAt key).2.registeredMemories } := by
  unfold ExecutionContext.registeredMemoriesAt
  split <;> rfl

/-- A channel step keeps the semaphore vectors. -/
theorem addChannel_semaphores (h : addChannel k info localMemory src acc peer = .ok acc') :
    acc'.1.smSemaphores = acc.1.smSemaphores ∧ acc'.1.proxySemaphores = acc.1.proxySemaphores := by
  unfold addChannel at h
  split_ifs at h
  · cases hs : readIndex "smSemaphores" acc.1.smSemaphores acc.2 <;> rw [hs] at h <;> cases h
    rw [registeredMemoriesAt_snd]
    exact ⟨rfl, rfl⟩
  · cases hs : readIndex "proxySemaphores" acc.1.proxySemaphores acc.2 <;> rw [hs] at h <;> cases h
    rw [registeredMemoriesAt_snd]
    exact ⟨rfl, rfl⟩
  · cases h
    exact ⟨rfl, rfl⟩

/-- The `MemoryId`s of a context's proxy channels: each channel's destination, then its
source. -/
def memoryIds (c : ExecutionContext) : List Nat :=
  c.proxyChannels.flatMap fun ch => [ch.dst, ch.src]

/-- **Every proxy channel has memories of its own**: the `MemoryId`s of the proxy channels
are pairwise distinct entries of the proxy service. -/
def MemoryIdsFresh (c : ExecutionContext) : Prop :=
  (memoryIds c).Nodup ∧ ∀ i ∈ memoryIds c, i < c.proxyService.memories.length

/-- A channel step keeps the proxy channels' memories their own: a proxy step appends its
two memories to the service and its channel on their new `MemoryId`s. -/
theorem addChannel_memoryIdsFresh (h : addChannel k info localMemory src acc peer = .ok acc')
    (hc : MemoryIdsFresh acc.1) : MemoryIdsFresh acc'.1 := by
  unfold addChannel at h
  split_ifs at h
  · cases hs : readIndex "smSemaphores" acc.1.smSemaphores acc.2 <;> rw [hs] at h <;> cases h
    rw [registeredMemoriesAt_snd]
    exact hc
  · cases hs : readIndex "proxySemaphores" acc.1.proxySemaphores acc.2 <;> rw [hs] at h <;> cases h
    rw [registeredMemoriesAt_snd]
    obtain ⟨hnodup, hlt⟩ := hc
    simp only [MemoryIdsFresh, memoryIds, ProxyService.addMemory, ProxyService.proxyChannel,
      List.flatMap_append, List.length_append] at hnodup hlt ⊢
    refine ⟨List.nodup_append.2 ⟨hnodup, by simp, ?_⟩, ?_⟩
    · intro i hi hi'
      have := hlt i hi
      simp at hi'
      omega
    · intro i hi
      simp only [List.mem_append] at hi
      rcases hi with hi | hi
      · have := hlt i hi; simp; omega
      · simp at hi; simp; omega
  · cases h
    exact hc

end Step

/-! ## The channel loops -/

section Loops

variable (sendbuff recvbuff sendBufferSize recvBufferSize rank : Nat) (plan : PlanLayout)

/-- **A fact every channel step keeps, the channel loop of a kind keeps.** -/
theorem buildChannels_inv (I : ExecutionContext → Prop)
    (hI : ∀ k info localMemory src (acc acc' : ExecutionContext × Nat) peer,
      addChannel k info localMemory src acc peer = .ok acc' → I acc.1 → I acc'.1)
    {ctx c' : ExecutionContext} {k : ChannelType} {e e' : Executor W}
    (h : buildChannels sendbuff recvbuff sendBufferSize recvBufferSize rank plan ctx k e =
      (.ok c', e')) (hctx : I ctx) : I c' := by
  unfold buildChannels at h
  obtain ⟨r, e₁, hr, hpure⟩ := ExecM.bind_eq_ok.1 h
  cases hpure
  refine ExecM.foldlM_inv (fun acc => I acc.1) (fun acc info e₀ acc' e₀' hstep hacc => ?_) _ hr
    hctx
  unfold addInfoChannels at hstep
  obtain ⟨_, _, -, hstep⟩ := ExecM.bind_eq_ok.1 hstep
  obtain ⟨_, _, -, hstep⟩ := ExecM.bind_eq_ok.1 hstep
  obtain ⟨_, _, -, hstep⟩ := ExecM.bind_eq_ok.1 hstep
  obtain ⟨_, _, -, hstep⟩ := ExecM.bind_eq_ok.1 hstep
  exact foldlM_except_inv (fun acc => I acc.1) (fun _ _ _ h => hI _ _ _ _ _ _ _ h) _
    (Prod.mk.inj hstep).1 hacc

/-- **A fact every channel step keeps, `setupChannels` keeps** from the context its semaphore
loop leaves, with the semaphores it built. -/
theorem setupChannels_inv (P : Platform W Bytes) (I : ExecutionContext → Prop)
    (hI : ∀ k info localMemory src (acc acc' : ExecutionContext × Nat) peer,
      addChannel k info localMemory src acc peer = .ok acc' → I acc.1 → I acc'.1)
    {c c' : ExecutionContext} {e e' : Executor W}
    (h : setupChannels P c sendbuff recvbuff sendBufferSize recvBufferSize rank plan e =
      (.ok c', e')) :
    ∃ acc e₁, buildSemaphores c rank plan e = (.ok acc, e₁) ∧
      (I { acc.1 with smSemaphores := acc.2.1, proxySemaphores := acc.2.2 } → I c') := by
  unfold setupChannels at h
  obtain ⟨acc, e₁, hacc, h⟩ := ExecM.bind_eq_ok.1 h
  obtain ⟨_, _, -, h⟩ := ExecM.bind_eq_ok.1 h
  exact ⟨acc, e₁, hacc, ExecM.foldlM_inv I (fun _ _ _ _ _ hk hc =>
    buildChannels_inv sendbuff recvbuff sendBufferSize recvBufferSize rank plan I hI hk hc) _ h⟩

/-- **No two channels share a semaphore or a memory slot.**  From a context with connections
to every peer the semaphore loop visits, descriptors for every destination of the channel
loops, and no channel yet: when `setupChannels` returns, its SM channels are on pairwise
distinct semaphores, its proxy channels on pairwise distinct `SemaphoreId`s, and the
`MemoryId`s of its proxy channels are pairwise distinct entries of the proxy service. -/
theorem setupChannels_distinct (P : Platform W Bytes) {c c' : ExecutionContext}
    {e e' : Executor W}
    (hconn : ∀ k ∈ channelTypes, ∀ ip ∈ semaphorePeers plan rank e.nranks k,
      (c.connections.lookup ip.2).isSome)
    (hmem : ∀ k ∈ channelTypes, ∀ ip ∈ infoPeers (plan.getChannelInfosOfType rank k),
      (c.registeredMemories.lookup (ip.1.dstBufferType, ip.2)).isSome)
    (hsm : c.smChannels = []) (hpx : c.proxyChannels = [])
    (h : setupChannels P c sendbuff recvbuff sendBufferSize recvBufferSize rank plan e =
      (.ok c', e')) :
    (c'.smChannels.map SmChannel.semaphore).Nodup ∧
      (c'.proxyChannels.map ProxyChannel.semaphore).Nodup ∧ MemoryIdsFresh c' := by
  have hb := (setupChannels_bound P sendbuff recvbuff sendBufferSize recvBufferSize rank plan e
    hconn hmem hsm hpx).1 c' e' h
  obtain ⟨sm, px, e₁, hbs, -, hnodup, -⟩ := buildSemaphores_ok e hconn
  let ids := List.range' c.proxyService.semaphores.length px.length
  obtain ⟨acc, e₂, hacc, hinv⟩ := setupChannels_inv sendbuff recvbuff sendBufferSize
    recvBufferSize rank plan P
    (fun d => (d.smSemaphores = sm ∧ d.proxySemaphores = ids) ∧ MemoryIdsFresh d)
    (fun _ _ _ _ _ _ _ hstep hd => ⟨⟨(addChannel_semaphores hstep).1.trans hd.1.1,
      (addChannel_semaphores hstep).2.trans hd.1.2⟩, addChannel_memoryIdsFresh hstep hd.2⟩) h
  rw [hbs] at hacc
  cases hacc
  obtain ⟨⟨hsm', hpx'⟩, hfresh⟩ := hinv ⟨⟨rfl, rfl⟩, by simp [MemoryIdsFresh, memoryIds, hpx]⟩
  refine ⟨?_, ?_, hfresh⟩
  · rw [hb.smChannels_semaphore, hsm']
    exact hnodup.sublist (List.take_sublist _ _)
  · rw [hb.proxyChannels_semaphore, hpx']
    exact (List.nodup_range' _ _).sublist (List.take_sublist _ _)

end Loops

/-- Rank 0 of `pairPlan` holding its connection to rank 1 and rank 1's output descriptor. -/
def pairChannelContext : ExecutionContext :=
  { ExecutionContext.init 0 64 1 256 with
    connections := [(1, ⟨0, 1, 0, .cudaIpc⟩)], registeredMemories := [((.output, 1), .empty)] }

theorem setupChannels_distinct_pairPlan : ∃ c' e',
    setupChannels (Platform.quiet 8 8 0) pairChannelContext 3 4 16 16 0 pairPlan pairExecutor =
      (.ok c', e') ∧
    (c'.smChannels.map SmChannel.semaphore).Nodup ∧
      (c'.proxyChannels.map ProxyChannel.semaphore).Nodup ∧ MemoryIdsFresh c' :=
  ⟨_, _, rfl, setupChannels_distinct 3 4 16 16 0 pairPlan (Platform.quiet 8 8 0)
    (c := pairChannelContext) (e := pairExecutor)
    (by decide) (by decide) rfl rfl rfl⟩

/-! ## The serialized plans -/

section Serialize

/-- **Bind inversion in `Except`**. -/
theorem except_bind_eq_ok {ε α β : Type} {x : Except ε α} {f : α → Except ε β} {b : β} :
    x >>= f = .ok b ↔ ∃ a, x = .ok a ∧ f a = .ok b := by
  cases x <;> simp [bind, Except.bind]

/-- A `mapM` in `Except` that returns maps each entry to its result. -/
theorem mapM_except_forall₂ {ε α β : Type} {f : α → Except ε β} :
    ∀ {l : List α} {ys : List β}, l.mapM f = .ok ys → List.Forall₂ (fun a b => f a = .ok b) l ys
  | [], _, h => by cases h; exact .nil
  | a :: l, _, h => by
    rw [List.mapM_cons] at h
    obtain ⟨b, hb, h⟩ := except_bind_eq_ok.1 h
    obtain ⟨bs, hbs, h⟩ := except_bind_eq_ok.1 h
    cases h
    exact .cons hb (mapM_except_forall₂ hbs)

/-- `pairChannelContext` with the SM and the proxy channel `setupChannels` gives it. -/
def pairChannels : ExecutionContext :=
  { pairChannelContext with
    smChannels := [⟨⟨0, ⟨0, 1, 0, .cudaIpc⟩⟩, .empty, 3⟩], proxyChannels := [⟨1, 0, 0, 1⟩] }

end Serialize

end Mscclpp
