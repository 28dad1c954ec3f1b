import Mscclpp.Executor.Spec

/-!
# The channels of a context

`setupChannels` fills its two semaphore vectors in one loop — per channel kind, the paired
infos, then the unpaired ones — and consumes them in another, whose counter restarts at 0
for each kind and visits only the paired infos.  This module proves that the two loops
line up.

## Main results

* `foldlM_addInfoChannels_sm`, `foldlM_addInfoChannels_proxy` — the channel loop of each
  kind, from any index: the `j`-th channel it builds is on the semaphore at that index plus
  `j`, toward the descriptor stored for the `j`-th `(info, peer)` pair, from the buffer of
  that info's source role.
* `setupChannels_bound` — from any context with the connections and descriptors its loops
  look up and no channel yet: what `setupChannels` returns is bound as `ChannelsBound`
  says, and it throws only what its `setup()` call throws or a `ChannelFailure`.
* `setupChannels_binds` — after the connection and memory rounds of a cold build, for a
  plan whose channel peers are connected peers and whose channel destinations were
  received: `setupChannels` fails no lookup, and binds each channel to the semaphore,
  connection, descriptor and buffer of its own pair, leaving the semaphores of unpaired
  infos unbound.

## Design Notes

The loops are stated relationally: what was built is named (`built`, and for proxy channels
the memories `added` to the service), and its reads are compared, as lists, with what the
source reads for each pair.  `getBuffer` and `getTransportFlags` may still throw inside the
loop; `ChannelFailure` names those two failures, neither of which is a lookup.
-/

namespace Mscclpp

variable {W Bytes : Type}

/-! ## Failures that are not lookups -/

/-- The failures the channel loop can raise besides a lookup: a channel whose source buffer
has no role, and a read past `IBs`. -/
def ChannelFailure (f : Failure) : Prop :=
  f = .error "Invalid buffer type" .executorError ∨ f = .undefinedBehavior "IBs"

/-- A fold in `Except` throws only what one of its steps throws. -/
theorem foldlM_except_error {ε α β : Type} {g : β → α → Except ε β} (bad : ε → Prop)
    (hg : ∀ b a f, g b a = .error f → bad f) (l : List α) (b : β) {f : ε}
    (h : l.foldlM g b = .error f) : bad f := by
  induction l generalizing b with
  | nil => cases h
  | cons a l ih =>
    rw [List.foldlM_cons] at h
    cases hb : g b a with
    | error f' => rw [hb] at h; cases h; exact hg b a f hb
    | ok b' => rw [hb] at h; exact ih b' h

theorem getBufferInfo_error {sendbuff recvbuff sendBufferSize recvBufferSize : Nat}
    {context : ExecutionContext} {type : BufferType} {f : Failure}
    (h : getBufferInfo sendbuff recvbuff sendBufferSize recvBufferSize context type = .error f) :
    f = .error "Invalid buffer type" .executorError := by
  cases type <;> simp only [getBufferInfo] at h <;> cases h
  rfl

/-- `getTransportFlags` throws only by reading past `IBs`. -/
theorem getTransportFlags_error {nranksPerNode rank : Nat} {infos : List ChannelInfo}
    {f : Failure} (h : getTransportFlags nranksPerNode infos rank = .error f) :
    f = .undefinedBehavior "IBs" := by
  have hread : ∀ f, readIBs nranksPerNode rank = .error f → f = .undefinedBehavior "IBs" := by
    intro f hf
    unfold readIBs at hf
    split at hf <;> cases hf
    rfl
  refine foldlM_except_error (· = .undefinedBehavior "IBs") (fun flags info f hf => ?_) _ _ h
  unfold addTransportFlags at hf
  split at hf
  · cases hf
  · refine foldlM_except_error (· = .undefinedBehavior "IBs") (fun flags peer f hf => ?_) _ _ hf
    unfold addPeerFlag at hf
    split at hf
    · cases hr : readIBs nranksPerNode rank with
      | error f' => rw [hr] at hf; cases hf; exact hread f hr
      | ok t => rw [hr] at hf; cases hf
    · cases hf
  · cases hf

/-- The buffers of the roles read only the context's scratch buffer. -/
theorem getBufferInfo_congr {sendbuff recvbuff sendBufferSize recvBufferSize : Nat}
    (c d : ExecutionContext) (hbuf : c.scratchBuffer = d.scratchBuffer)
    (hsize : c.scratchBufferSize = d.scratchBufferSize) :
    getBufferInfo sendbuff recvbuff sendBufferSize recvBufferSize c =
      getBufferInfo sendbuff recvbuff sendBufferSize recvBufferSize d := by
  funext type
  cases type <;> simp [getBufferInfo, hbuf, hsize]

theorem getBuffer_congr {sendbuff recvbuff sendBufferSize recvBufferSize : Nat}
    (c d : ExecutionContext) (hbuf : c.scratchBuffer = d.scratchBuffer)
    (hsize : c.scratchBufferSize = d.scratchBufferSize) :
    getBuffer sendbuff recvbuff sendBufferSize recvBufferSize c =
      getBuffer sendbuff recvbuff sendBufferSize recvBufferSize d := by
  funext type
  simp only [getBuffer, getBufferInfo_congr c d hbuf hsize]

/-! ## One channel -/

section AddChannel

variable {info : ChannelInfo} {localMemory : RegisteredMemory} {src : Nat}
  {ctx : ExecutionContext} {idx peer : Nat} {m : RegisteredMemory}

theorem addChannel_sm {s : Semaphore} (hs : ctx.smSemaphores[idx]? = some s)
    (hm : ctx.registeredMemories.lookup (info.dstBufferType, peer) = some m) :
    addChannel .sm info localMemory src (ctx, idx) peer =
      .ok ({ ctx with smChannels := ctx.smChannels ++ [⟨s, m, src⟩] }, idx + 1) := by
  simp [addChannel, readIndex, hs, ExecutionContext.registeredMemoriesAt, hm]
  rfl

theorem addChannel_proxy {s : Nat} (hs : ctx.proxySemaphores[idx]? = some s)
    (hm : ctx.registeredMemories.lookup (info.dstBufferType, peer) = some m) :
    addChannel .proxy info localMemory src (ctx, idx) peer =
      .ok ({ ctx with
        proxyService := { ctx.proxyService with
          memories := ctx.proxyService.memories ++ [m, localMemory] }
        proxyChannels := ctx.proxyChannels ++ [⟨ctx.proxyService.id, s,
          ctx.proxyService.memories.length, ctx.proxyService.memories.length + 1⟩] }, idx + 1) := by
  simp [addChannel, readIndex, hs, ExecutionContext.registeredMemoriesAt, hm,
    ProxyService.addMemory, ProxyService.proxyChannel]
  rfl

end AddChannel

/-! ## The channels toward the peers of one info -/


section PeerLoop

variable (info : ChannelInfo) (localMemory : RegisteredMemory) (src : Nat)

/-- **The SM channels of one info**, when the semaphores last and every destination was
received: the `j`-th is on the semaphore at `idx + j`, toward the descriptor stored for the
`j`-th peer, from `src`. -/
theorem foldlM_addChannel_sm (peers : List Nat) (ctx : ExecutionContext) (idx : Nat)
    (hlen : idx + peers.length ≤ ctx.smSemaphores.length)
    (hmem : ∀ peer ∈ peers, (ctx.registeredMemories.lookup (info.dstBufferType, peer)).isSome) :
    ∃ built, peers.foldlM (addChannel .sm info localMemory src) (ctx, idx) =
        .ok ({ ctx with smChannels := ctx.smChannels ++ built }, idx + peers.length) ∧
      built.map SmChannel.semaphore = (ctx.smSemaphores.drop idx).take peers.length ∧
      built.map (fun ch => some ch.dst) =
        peers.map (fun peer => ctx.registeredMemories.lookup (info.dstBufferType, peer)) ∧
      ∀ ch ∈ built, ch.src = src := by
  induction peers generalizing ctx idx with
  | nil => exact ⟨[], by simp; rfl, by simp, by simp, by simp⟩
  | cons peer peers ih =>
    have hidx : idx < ctx.smSemaphores.length := by simp at hlen; omega
    obtain ⟨m, hm⟩ := Option.isSome_iff_exists.mp (hmem peer (List.mem_cons_self _ _))
    obtain ⟨built, heq, hsem, hdst, hsrc⟩ :=
      ih { ctx with smChannels := ctx.smChannels ++ [⟨ctx.smSemaphores[idx], m, src⟩] } (idx + 1)
        (by simp at hlen ⊢; omega) (fun q hq => hmem q (List.mem_cons_of_mem _ hq))
    refine ⟨⟨ctx.smSemaphores[idx], m, src⟩ :: built, ?_, ?_, ?_, ?_⟩
    · rw [List.foldlM_cons, addChannel_sm (List.getElem?_eq_getElem hidx) hm]
      refine heq.trans ?_
      rw [show idx + 1 + peers.length = idx + (peers.length + 1) by omega]
      simp
    · rw [List.drop_eq_getElem_cons hidx, List.length_cons, List.take_succ_cons, List.map_cons, hsem]
    · simp [hdst, hm]
    · simpa using hsrc

/-- **The proxy channels of one info**, when the semaphores last and every destination was
received: the `j`-th is a channel of the context's proxy service on the `SemaphoreId` at
`idx + j`, whose two `MemoryId`s read back the descriptor stored for the `j`-th peer and
`localMemory`. -/
theorem foldlM_addChannel_proxy (peers : List Nat) (ctx : ExecutionContext) (idx : Nat)
    (hlen : idx + peers.length ≤ ctx.proxySemaphores.length)
    (hmem : ∀ peer ∈ peers, (ctx.registeredMemories.lookup (info.dstBufferType, peer)).isSome) :
    ∃ built added, peers.foldlM (addChannel .proxy info localMemory src) (ctx, idx) =
        .ok ({ ctx with
          proxyService := { ctx.proxyService with
            memories := ctx.proxyService.memories ++ added }
          proxyChannels := ctx.proxyChannels ++ built }, idx + peers.length) ∧
      built.map ProxyChannel.semaphore = (ctx.proxySemaphores.drop idx).take peers.length ∧
      (∀ ch ∈ built, ch.service = ctx.proxyService.id) ∧
      built.map (fun ch => (ctx.proxyService.memories ++ added)[ch.dst]?) =
        peers.map (fun peer => ctx.registeredMemories.lookup (info.dstBufferType, peer)) ∧
      built.map (fun ch => (ctx.proxyService.memories ++ added)[ch.src]?) =
        peers.map fun _ => some localMemory := by
  induction peers generalizing ctx idx with
  | nil => exact ⟨[], [], by simp; rfl, by simp, by simp, by simp, by simp⟩
  | cons peer peers ih =>
    have hidx : idx < ctx.proxySemaphores.length := by simp at hlen; omega
    obtain ⟨m, hm⟩ := Option.isSome_iff_exists.mp (hmem peer (List.mem_cons_self _ _))
    obtain ⟨built, added, heq, hsem, hsvc, hdst, hsrc⟩ :=
      ih { ctx with
        proxyService := { ctx.proxyService with
          memories := ctx.proxyService.memories ++ [m, localMemory] }
        proxyChannels := ctx.proxyChannels ++ [⟨ctx.proxyService.id, ctx.proxySemaphores[idx],
          ctx.proxyService.memories.length, ctx.proxyService.memories.length + 1⟩] } (idx + 1)
        (by simp at hlen ⊢; omega) (fun q hq => hmem q (List.mem_cons_of_mem _ hq))
    simp only [List.append_assoc, List.cons_append, List.nil_append] at heq hdst hsrc
    have hm₀ : (ctx.proxyService.memories ++ m :: localMemory :: added)[
        ctx.proxyService.memories.length]? = some m := by
      rw [List.getElem?_append_right (le_refl _), Nat.sub_self]; rfl
    have hm₁ : (ctx.proxyService.memories ++ m :: localMemory :: added)[
        ctx.proxyService.memories.length + 1]? = some localMemory := by
      rw [List.getElem?_append_right (Nat.le_succ _)]; simp
    refine ⟨⟨ctx.proxyService.id, ctx.proxySemaphores[idx], ctx.proxyService.memories.length,
      ctx.proxyService.memories.length + 1⟩ :: built, m :: localMemory :: added, ?_, ?_, ?_, ?_, ?_⟩
    · rw [List.foldlM_cons, addChannel_proxy (List.getElem?_eq_getElem hidx) hm]
      refine heq.trans ?_
      rw [show idx + 1 + peers.length = idx + (peers.length + 1) by omega]
      simp
    · rw [List.drop_eq_getElem_cons hidx, List.length_cons, List.take_succ_cons, List.map_cons, hsem]
    · simpa using hsvc
    · rw [List.map_cons, List.map_cons, hdst, hm₀, hm]
    · rw [List.map_cons, List.map_cons, hsrc, hm₁]

end PeerLoop

/-! ## The channels of one kind -/

/-- Reads through a longer list: the reads that found something find the same. -/
theorem map_getElem?_append {α γ : Type} {l : List α} (l' : List α) {xs : List γ}
    {index : γ → Nat} {ys : List (Option α)} (h : xs.map (fun x => l[index x]?) = ys)
    (hsome : ∀ y ∈ ys, y.isSome) : xs.map (fun x => (l ++ l')[index x]?) = ys := by
  rw [← h]
  refine List.map_congr_left fun x hx => ?_
  obtain ⟨a, ha⟩ := Option.isSome_iff_exists.mp (hsome _ (h ▸ List.mem_map_of_mem _ hx))
  exact List.getElem?_append_left (List.getElem?_eq_some_iff.mp ha).1

theorem take_drop_add {α : Type} (l : List α) (i m n : Nat) :
    (l.drop i).take (m + n) = (l.drop i).take m ++ (l.drop (i + m)).take n := by
  rw [List.take_add, List.drop_drop]

theorem infoPeers_cons (info : ChannelInfo) (infos : List ChannelInfo) :
    infoPeers (info :: infos) = info.connectedPeers.map (info, ·) ++ infoPeers infos := by
  simp [infoPeers]

theorem map_except_ok {ε α β : Type} (g : α → β) (a : α) :
    (g <$> (Except.ok a : Except ε α)) = .ok (g a) := rfl

section InfoLoop

variable (sendbuff recvbuff sendBufferSize recvBufferSize rank : Nat)
  {channelType : ChannelType} {channelInfos : List ChannelInfo} {acc : ExecutionContext × Nat}
  {info : ChannelInfo} {e : Executor W} {b : Nat × Nat} {f : Failure}

/-- The body of the channel loop, when the source buffer and the transports are read: one
channel per peer; the executor is only read. -/
theorem addInfoChannels_of_ok {flags : TransportFlags}
    (hb : getBufferInfo sendbuff recvbuff sendBufferSize recvBufferSize acc.1 info.srcBufferType =
      .ok b) (hflags : getTransportFlags e.nranksPerNode channelInfos rank = .ok flags) :
    addInfoChannels sendbuff recvbuff sendBufferSize recvBufferSize rank channelType channelInfos
        acc info e =
      (info.connectedPeers.foldlM
        (addChannel channelType info (e.comm.registerMemory b.1 b.2 flags) b.1) acc, e) := by
  simp only [addInfoChannels, getBuffer, getBufferSize, ExecM.bind_apply, ExecM.ofExcept_apply,
    ExecM.get_apply, hb, hflags, map_except_ok]

theorem addInfoChannels_of_buffer_error
    (hb : getBufferInfo sendbuff recvbuff sendBufferSize recvBufferSize acc.1 info.srcBufferType =
      .error f) :
    addInfoChannels sendbuff recvbuff sendBufferSize recvBufferSize rank channelType channelInfos
      acc info e = (.error f, e) := by
  simp only [addInfoChannels, getBuffer, ExecM.bind_apply, ExecM.ofExcept_apply, hb]
  rfl

theorem addInfoChannels_of_flags_error
    (hb : getBufferInfo sendbuff recvbuff sendBufferSize recvBufferSize acc.1 info.srcBufferType =
      .ok b) (hflags : getTransportFlags e.nranksPerNode channelInfos rank = .error f) :
    addInfoChannels sendbuff recvbuff sendBufferSize recvBufferSize rank channelType channelInfos
      acc info e = (.error f, e) := by
  simp only [addInfoChannels, getBuffer, getBufferSize, ExecM.bind_apply, ExecM.ofExcept_apply,
    ExecM.get_apply, hb, hflags, map_except_ok]

/-- When the transports of the kind cannot be read, the loop over a non-empty list of infos
throws at its first info, and not on a lookup. -/
theorem foldlM_addInfoChannels_of_flags_error
    (hflags : getTransportFlags e.nranksPerNode channelInfos rank = .error f)
    (infos : List ChannelInfo) (acc : ExecutionContext × Nat) :
    ∃ f', (info :: infos).foldlM (addInfoChannels sendbuff recvbuff sendBufferSize
      recvBufferSize rank channelType channelInfos) acc e = (.error f', e) ∧ ChannelFailure f' := by
  rw [List.foldlM_cons, ExecM.bind_apply]
  cases hb : getBufferInfo sendbuff recvbuff sendBufferSize recvBufferSize acc.1
    info.srcBufferType with
  | error f' =>
    rw [addInfoChannels_of_buffer_error _ _ _ _ _ hb]
    exact ⟨f', rfl, .inl (getBufferInfo_error hb)⟩
  | ok b =>
    rw [addInfoChannels_of_flags_error _ _ _ _ _ hb hflags]
    exact ⟨f, rfl, .inr (getTransportFlags_error hflags)⟩

variable {flags : TransportFlags}

/-- **The SM channel loop over `infos`**, from the index `idx`, when the semaphores last and
every destination was received: it throws only on a buffer of no role, and otherwise the
`j`-th channel it builds is on the semaphore at `idx + j`, toward the descriptor stored for
the `j`-th `(info, peer)` pair, from the buffer of that info's source role. -/
theorem foldlM_addInfoChannels_sm
    (hflags : getTransportFlags e.nranksPerNode channelInfos rank = .ok flags)
    (infos : List ChannelInfo) (ctx : ExecutionContext) (idx : Nat)
    (hlen : idx + (infoPeers infos).length ≤ ctx.smSemaphores.length)
    (hmem : ∀ ip ∈ infoPeers infos,
      (ctx.registeredMemories.lookup (ip.1.dstBufferType, ip.2)).isSome) :
    ∃ r, infos.foldlM (addInfoChannels sendbuff recvbuff sendBufferSize recvBufferSize rank .sm
        channelInfos) (ctx, idx) e = (r, e) ∧
      (∀ f, r = .error f → f = .error "Invalid buffer type" .executorError) ∧
      ∀ acc, r = .ok acc → ∃ built,
        acc = ({ ctx with smChannels := ctx.smChannels ++ built },
          idx + (infoPeers infos).length) ∧
        built.map SmChannel.semaphore = (ctx.smSemaphores.drop idx).take (infoPeers infos).length ∧
        built.map (fun ch => some ch.dst) = (infoPeers infos).map
          (fun ip => ctx.registeredMemories.lookup (ip.1.dstBufferType, ip.2)) ∧
        built.map (fun ch => (pure ch.src : Except Failure Nat)) = (infoPeers infos).map
          (fun ip => getBuffer sendbuff recvbuff sendBufferSize recvBufferSize ctx ip.1.srcBufferType) := by
  induction infos generalizing ctx idx with
  | nil =>
    refine ⟨.ok (ctx, idx), rfl, (fun _ h => by cases h), fun acc h => ?_⟩
    cases h
    exact ⟨[], by simp, by simp, by simp, by simp⟩
  | cons info infos ih =>
    rw [infoPeers_cons] at hlen hmem
    rw [List.foldlM_cons, ExecM.bind_apply]
    cases hb : getBufferInfo sendbuff recvbuff sendBufferSize recvBufferSize ctx
      info.srcBufferType with
    | error f =>
      rw [addInfoChannels_of_buffer_error _ _ _ _ _ hb]
      exact ⟨.error f, rfl, (fun f' h => by cases h; exact getBufferInfo_error hb),
        (fun _ h => by cases h)⟩
    | ok b =>
      obtain ⟨built₁, heq₁, hsem₁, hdst₁, hsrc₁⟩ := foldlM_addChannel_sm info
        (e.comm.registerMemory b.1 b.2 flags) b.1 info.connectedPeers ctx idx
        (by simp at hlen; omega) (fun p hp => hmem (info, p) (by simp [hp]))
      rw [addInfoChannels_of_ok _ _ _ _ _ hb hflags, heq₁]
      obtain ⟨r, hr, herr, hok⟩ := ih { ctx with smChannels := ctx.smChannels ++ built₁ }
        (idx + info.connectedPeers.length) (by simp at hlen ⊢; omega)
        (fun ip hip => hmem ip (List.mem_append_right _ hip))
      refine ⟨r, hr, herr, fun acc hacc => ?_⟩
      obtain ⟨built₂, rfl, hsem₂, hdst₂, hsrc₂⟩ := hok acc hacc
      have hlen₁ : built₁.length = info.connectedPeers.length := by
        simpa using congrArg List.length hdst₁
      refine ⟨built₁ ++ built₂, Prod.ext (by simp) (by simp [infoPeers_cons]; omega), ?_, ?_, ?_⟩
      · rw [infoPeers_cons, List.length_append, List.length_map, take_drop_add, List.map_append,
          hsem₁, hsem₂]
      · simp [infoPeers_cons, hdst₁, hdst₂, Function.comp_def]
      · have hsrc : built₁.map (fun ch => (pure ch.src : Except Failure Nat)) =
            info.connectedPeers.map fun _ => pure b.1 := by
          rw [List.map_congr_left fun ch hch => by rw [hsrc₁ ch hch], List.map_const',
            List.map_const', hlen₁]
        have hbuf : getBuffer sendbuff recvbuff sendBufferSize recvBufferSize ctx info.srcBufferType =
            pure b.1 := by
          simp [getBuffer, hb]; rfl
        rw [getBuffer_congr { ctx with smChannels := ctx.smChannels ++ built₁ } ctx rfl rfl] at hsrc₂
        rw [List.map_append, hsrc, hsrc₂, infoPeers_cons, List.map_append, List.map_map]
        simp [Function.comp_def, hbuf]

/-- **The proxy channel loop over `infos`**, from the index `idx`, when the semaphores last
and every destination was received: it throws only on a buffer of no role, and otherwise
the `j`-th channel it builds is a channel of the context's proxy service on the
`SemaphoreId` at `idx + j`, whose two `MemoryId`s read back the descriptor stored for the
`j`-th `(info, peer)` pair and the buffer of that info's source role, registered for
`flags`. -/
theorem foldlM_addInfoChannels_proxy
    (hflags : getTransportFlags e.nranksPerNode channelInfos rank = .ok flags)
    (infos : List ChannelInfo) (ctx : ExecutionContext) (idx : Nat)
    (hlen : idx + (infoPeers infos).length ≤ ctx.proxySemaphores.length)
    (hmem : ∀ ip ∈ infoPeers infos,
      (ctx.registeredMemories.lookup (ip.1.dstBufferType, ip.2)).isSome) :
    ∃ r, infos.foldlM (addInfoChannels sendbuff recvbuff sendBufferSize recvBufferSize rank .proxy
        channelInfos) (ctx, idx) e = (r, e) ∧
      (∀ f, r = .error f → f = .error "Invalid buffer type" .executorError) ∧
      ∀ acc, r = .ok acc → ∃ built added,
        acc = ({ ctx with
          proxyService := { ctx.proxyService with
            memories := ctx.proxyService.memories ++ added }
          proxyChannels := ctx.proxyChannels ++ built }, idx + (infoPeers infos).length) ∧
        built.map ProxyChannel.semaphore =
          (ctx.proxySemaphores.drop idx).take (infoPeers infos).length ∧
        (∀ ch ∈ built, ch.service = ctx.proxyService.id) ∧
        built.map (fun ch => (ctx.proxyService.memories ++ added)[ch.dst]?) = (infoPeers infos).map
          (fun ip => ctx.registeredMemories.lookup (ip.1.dstBufferType, ip.2)) ∧
        built.map (fun ch => (ctx.proxyService.memories ++ added)[ch.src]?) = (infoPeers infos).map
          (fun ip => (getBufferInfo sendbuff recvbuff sendBufferSize recvBufferSize ctx
            ip.1.srcBufferType).toOption.map fun b => e.comm.registerMemory b.1 b.2 flags) := by
  induction infos generalizing ctx idx with
  | nil =>
    refine ⟨.ok (ctx, idx), rfl, (fun _ h => by cases h), fun acc h => ?_⟩
    cases h
    exact ⟨[], [], by simp, by simp, by simp, by simp, by simp⟩
  | cons info infos ih =>
    rw [infoPeers_cons] at hlen hmem
    rw [List.foldlM_cons, ExecM.bind_apply]
    cases hb : getBufferInfo sendbuff recvbuff sendBufferSize recvBufferSize ctx
      info.srcBufferType with
    | error f =>
      rw [addInfoChannels_of_buffer_error _ _ _ _ _ hb]
      exact ⟨.error f, rfl, (fun f' h => by cases h; exact getBufferInfo_error hb),
        (fun _ h => by cases h)⟩
    | ok b =>
      have hmem₁ : ∀ p ∈ info.connectedPeers,
          (ctx.registeredMemories.lookup (info.dstBufferType, p)).isSome :=
        fun p hp => hmem (info, p) (by simp [hp])
      obtain ⟨built₁, added₁, heq₁, hsem₁, hsvc₁, hdst₁, hsrc₁⟩ := foldlM_addChannel_proxy info
        (e.comm.registerMemory b.1 b.2 flags) b.1 info.connectedPeers ctx idx
        (by simp at hlen; omega) hmem₁
      rw [addInfoChannels_of_ok _ _ _ _ _ hb hflags, heq₁]
      obtain ⟨r, hr, herr, hok⟩ := ih { ctx with
          proxyService := { ctx.proxyService with memories := ctx.proxyService.memories ++ added₁ }
          proxyChannels := ctx.proxyChannels ++ built₁ }
        (idx + info.connectedPeers.length) (by simp at hlen ⊢; omega)
        (fun ip hip => hmem ip (List.mem_append_right _ hip))
      refine ⟨r, hr, herr, fun acc hacc => ?_⟩
      obtain ⟨built₂, added₂, rfl, hsem₂, hsvc₂, hdst₂, hsrc₂⟩ := hok acc hacc
      dsimp only at hsem₂ hsvc₂ hdst₂ hsrc₂
      rw [getBufferInfo_congr { ctx with
          proxyService := { ctx.proxyService with memories := ctx.proxyService.memories ++ added₁ }
          proxyChannels := ctx.proxyChannels ++ built₁ } ctx rfl rfl] at hsrc₂
      refine ⟨built₁ ++ built₂, added₁ ++ added₂,
        Prod.ext (by simp) (by simp [infoPeers_cons]; omega), ?_, ?_, ?_, ?_⟩
      · rw [infoPeers_cons, List.length_append, List.length_map, take_drop_add, List.map_append,
          hsem₁, hsem₂]
      · simp only [List.mem_append]
        rintro ch (hch | hch)
        exacts [hsvc₁ ch hch, hsvc₂ ch hch]
      · have hsome : ∀ y ∈ info.connectedPeers.map
            (fun p => ctx.registeredMemories.lookup (info.dstBufferType, p)), y.isSome := by
          simp only [List.mem_map]
          rintro y ⟨p, hp, rfl⟩
          exact hmem₁ p hp
        rw [← List.append_assoc, List.map_append, map_getElem?_append added₂ hdst₁ hsome, hdst₂,
          infoPeers_cons, List.map_append, List.map_map]
        rfl
      · have hsome : ∀ y ∈ info.connectedPeers.map
            (fun _ => some (e.comm.registerMemory b.1 b.2 flags)), y.isSome := by
          simp
        rw [← List.append_assoc, List.map_append, map_getElem?_append added₂ hsrc₁ hsome, hsrc₂,
          infoPeers_cons, List.map_append, List.map_map]
        simp [Function.comp_def, hb, Except.toOption]

end InfoLoop

/-! ## The channel loop of each kind -/

section Kinds

variable (sendbuff recvbuff sendBufferSize recvBufferSize rank : Nat) (plan : PlanLayout)
  (ctx : ExecutionContext) (e : Executor W)

/-- **The SM channel loop of `setupChannels`**, when the SM semaphores last for the paired SM
infos and every destination was received: it throws no lookup, and the `j`-th channel it
builds is on the `j`-th SM semaphore, toward the descriptor stored for the `j`-th
`(info, peer)` pair, from the buffer of that info's source role. -/
theorem buildChannels_sm
    (hlen : (infoPeers (plan.getChannelInfosOfType rank .sm)).length ≤ ctx.smSemaphores.length)
    (hmem : ∀ ip ∈ infoPeers (plan.getChannelInfosOfType rank .sm),
      (ctx.registeredMemories.lookup (ip.1.dstBufferType, ip.2)).isSome) :
    ∃ r, buildChannels sendbuff recvbuff sendBufferSize recvBufferSize rank plan ctx .sm e =
        (r, e) ∧
      (∀ f, r = .error f → ChannelFailure f) ∧
      ∀ c', r = .ok c' → ∃ built, c' = { ctx with smChannels := ctx.smChannels ++ built } ∧
        built.map SmChannel.semaphore =
          ctx.smSemaphores.take (infoPeers (plan.getChannelInfosOfType rank .sm)).length ∧
        built.map (fun ch => some ch.dst) = (infoPeers (plan.getChannelInfosOfType rank .sm)).map
          (fun ip => ctx.registeredMemories.lookup (ip.1.dstBufferType, ip.2)) ∧
        built.map (fun ch => (pure ch.src : Except Failure Nat)) =
          (infoPeers (plan.getChannelInfosOfType rank .sm)).map
            (fun ip => getBuffer sendbuff recvbuff sendBufferSize recvBufferSize ctx
              ip.1.srcBufferType) := by
  simp only [buildChannels, ExecM.bind_apply]
  cases hflags : getTransportFlags e.nranksPerNode (plan.getChannelInfosOfType rank .sm) rank with
  | ok flags =>
    obtain ⟨r, hr, herr, hok⟩ := foldlM_addInfoChannels_sm sendbuff recvbuff sendBufferSize
      recvBufferSize rank hflags _ ctx 0 (by simpa using hlen) hmem
    rw [hr]
    cases r with
    | error f => exact ⟨.error f, rfl, (fun f' h => by cases h; exact .inl (herr f rfl)),
        (fun _ h => by cases h)⟩
    | ok acc =>
      obtain ⟨built, rfl, hsem, hdst, hsrc⟩ := hok _ rfl
      exact ⟨.ok _, rfl, (fun _ h => by cases h),
        fun c' h => by cases h; exact ⟨built, rfl, by simpa using hsem, hdst, hsrc⟩⟩
  | error f =>
    generalize plan.getChannelInfosOfType rank .sm = infos at hflags ⊢
    cases infos with
    | nil => cases hflags
    | cons info infos =>
      obtain ⟨f', hr, hf'⟩ := foldlM_addInfoChannels_of_flags_error sendbuff recvbuff
        sendBufferSize recvBufferSize rank hflags infos (ctx, 0)
      rw [hr]
      exact ⟨.error f', rfl, (fun f'' h => by cases h; exact hf'), (fun _ h => by cases h)⟩

/-- **The proxy channel loop of `setupChannels`**, when the proxy semaphores last for the
paired proxy infos and every destination was received: it throws no lookup, and the `j`-th
channel it builds is a channel of the context's proxy service on the `j`-th proxy
`SemaphoreId`, whose two `MemoryId`s read back the descriptor stored for the `j`-th
`(info, peer)` pair and the buffer of that info's source role, registered for the
transports of the proxy infos. -/
theorem buildChannels_proxy
    (hlen : (infoPeers (plan.getChannelInfosOfType rank .proxy)).length ≤
      ctx.proxySemaphores.length)
    (hmem : ∀ ip ∈ infoPeers (plan.getChannelInfosOfType rank .proxy),
      (ctx.registeredMemories.lookup (ip.1.dstBufferType, ip.2)).isSome) :
    ∃ r, buildChannels sendbuff recvbuff sendBufferSize recvBufferSize rank plan ctx .proxy e =
        (r, e) ∧
      (∀ f, r = .error f → ChannelFailure f) ∧
      ∀ c', r = .ok c' → ∃ built added, c' = { ctx with
          proxyService := { ctx.proxyService with
            memories := ctx.proxyService.memories ++ added }
          proxyChannels := ctx.proxyChannels ++ built } ∧
        built.map ProxyChannel.semaphore =
          ctx.proxySemaphores.take (infoPeers (plan.getChannelInfosOfType rank .proxy)).length ∧
        (∀ ch ∈ built, ch.service = ctx.proxyService.id) ∧
        built.map (fun ch => (ctx.proxyService.memories ++ added)[ch.dst]?) =
          (infoPeers (plan.getChannelInfosOfType rank .proxy)).map
            (fun ip => ctx.registeredMemories.lookup (ip.1.dstBufferType, ip.2)) ∧
        ∃ flags, getTransportFlags e.nranksPerNode (plan.getChannelInfosOfType rank .proxy) rank =
            .ok flags ∧
          built.map (fun ch => (ctx.proxyService.memories ++ added)[ch.src]?) =
            (infoPeers (plan.getChannelInfosOfType rank .proxy)).map
              (fun ip => (getBufferInfo sendbuff recvbuff sendBufferSize recvBufferSize ctx
                ip.1.srcBufferType).toOption.map fun b => e.comm.registerMemory b.1 b.2 flags) := by
  simp only [buildChannels, ExecM.bind_apply]
  cases hflags : getTransportFlags e.nranksPerNode (plan.getChannelInfosOfType rank .proxy)
    rank with
  | ok flags =>
    obtain ⟨r, hr, herr, hok⟩ := foldlM_addInfoChannels_proxy sendbuff recvbuff sendBufferSize
      recvBufferSize rank hflags _ ctx 0 (by simpa using hlen) hmem
    rw [hr]
    cases r with
    | error f => exact ⟨.error f, rfl, (fun f' h => by cases h; exact .inl (herr f rfl)),
        (fun _ h => by cases h)⟩
    | ok acc =>
      obtain ⟨built, added, rfl, hsem, hsvc, hdst, hsrc⟩ := hok _ rfl
      exact ⟨.ok _, rfl, (fun _ h => by cases h),
        fun c' h => by cases h; exact ⟨built, added, rfl, by simpa using hsem, hsvc, hdst,
          flags, rfl, hsrc⟩⟩
  | error f =>
    generalize plan.getChannelInfosOfType rank .proxy = infos at hflags ⊢
    cases infos with
    | nil => cases hflags
    | cons info infos =>
      obtain ⟨f', hr, hf'⟩ := foldlM_addInfoChannels_of_flags_error sendbuff recvbuff
        sendBufferSize recvBufferSize rank hflags infos (ctx, 0)
      rw [hr]
      exact ⟨.error f', rfl, (fun f'' h => by cases h; exact hf'), (fun _ h => by cases h)⟩

end Kinds

/-! ## Semaphores and channels together -/

/-- **The semaphore loop, read back**: when every peer it visits has a connection, it
returns distinct SM semaphores, the `j`-th over the connection stored for the peer of the
`j`-th SM pair it visits, and appends to the context's proxy service proxy semaphores in the
same way, returning their `SemaphoreId`s. -/
theorem buildSemaphores_ok {c : ExecutionContext} {rank : Nat} {plan : PlanLayout}
    (e : Executor W) (hconn : ∀ k ∈ channelTypes, ∀ ip ∈ semaphorePeers plan rank e.nranks k,
      (c.connections.lookup ip.2).isSome) :
    ∃ sm px e', buildSemaphores c rank plan e = (.ok ({ c with proxyService :=
        { c.proxyService with semaphores := c.proxyService.semaphores ++ px } }, sm,
        List.range' c.proxyService.semaphores.length px.length), e') ∧
      sm.map (fun s => some s.conn) =
        (semaphorePeers plan rank e.nranks .sm).map (fun ip => c.connections.lookup ip.2) ∧
      sm.Nodup ∧
      px.map (fun s => some s.conn) =
        (semaphorePeers plan rank e.nranks .proxy).map (fun ip => c.connections.lookup ip.2) := by
  let conns : Nat → Connection := fun p => (c.connections.lookup p).getD ⟨0, p, 0, .unknown⟩
  have hconns : ∀ k ∈ channelTypes, ∀ ip ∈ semaphorePeers plan rank e.nranks k,
      c.connections.lookup ip.2 = some (conns ip.2) := by
    intro k hk ip hip
    obtain ⟨x, hx⟩ := Option.isSome_iff_exists.mp (hconn k hk ip hip)
    simp [conns, hx]
  have hread : ∀ k ∈ channelTypes, ∀ n, (semaphoresOf conns n (semaphorePeers plan rank e.nranks k)).map
      (fun s => some s.conn) = (semaphorePeers plan rank e.nranks k).map (fun ip => c.connections.lookup ip.2) := by
    intro k hk n
    have h := congrArg (List.map some) (map_conn_semaphoresOf conns n (semaphorePeers plan rank e.nranks k))
    simp only [List.map_map] at h
    rw [List.map_congr_left fun ip hip => hconns k hk ip hip]
    exact h
  refine ⟨_, _, _, by rw [buildSemaphores_eq conns e hconns, length_semaphoresOf],
    hread .sm (by decide) _, ?_, hread .proxy (by decide) _⟩
  refine List.Nodup.of_map Semaphore.id ?_
  rw [map_id_semaphoresOf]
  exact List.nodup_range' _ _

/-- Every entry of `l'`, read back by its index in `l ++ l'`. -/
theorem map_getElem?_range'_append {α : Type} (l l' : List α) :
    (List.range' l.length l'.length).map (fun i => (l ++ l')[i]?) = l'.map some := by
  refine List.ext_getElem (by simp) fun j h₁ h₂ => ?_
  simp [List.getElem_range', List.getElem?_append_right]

/-- The `(role, peer)` pairs whose descriptors `setupRegisteredMemories` receives. -/
def receivedPairs (plan : PlanLayout) (rank : Nat) : List (BufferType × Nat) :=
  (plan.getConnectedBufferTypes rank).flatMap fun bt =>
    (getConnectedPeers (plan.getChannelInfos rank bt)).map (bt, ·)

/-- **What `setupChannels` binds**, run by `e` on the context `c`, in the context `c'` it
returns.  No lookup inserted a descriptor; the `j`-th semaphore of a kind is over the
connection `context.connections.at(peer)` for the `j`-th pair the semaphore loop visits for
that kind (paired infos first); the `j`-th channel of a kind is on the `j`-th semaphore of
that kind, toward `registeredMemories[{dstBufferType, peer}]` and from the buffer of the
source role, for the `j`-th pair of the paired infos; the semaphores of unpaired infos are
on no channel. -/
structure ChannelsBound (sendbuff recvbuff sendBufferSize recvBufferSize rank : Nat)
    (plan : PlanLayout) (e : Executor W) (c c' : ExecutionContext) : Prop where
  connections_eq : c'.connections = c.connections
  registeredMemories_eq : c'.registeredMemories = c.registeredMemories
  smSemaphores_conn : c'.smSemaphores.map (fun s => some s.conn) =
    (semaphorePeers plan rank e.nranks .sm).map fun ip => c.connections.lookup ip.2
  smChannels_semaphore : c'.smChannels.map SmChannel.semaphore =
    c'.smSemaphores.take (infoPeers (plan.getChannelInfosOfType rank .sm)).length
  smChannels_dst : c'.smChannels.map (fun ch => some ch.dst) =
    (infoPeers (plan.getChannelInfosOfType rank .sm)).map fun ip =>
      c.registeredMemories.lookup (ip.1.dstBufferType, ip.2)
  smChannels_src : c'.smChannels.map (fun ch => (pure ch.src : Except Failure Nat)) =
    (infoPeers (plan.getChannelInfosOfType rank .sm)).map fun ip =>
      getBuffer sendbuff recvbuff sendBufferSize recvBufferSize c ip.1.srcBufferType
  smSemaphores_unbound : ∀ s ∈ c'.smSemaphores.drop
    (infoPeers (plan.getChannelInfosOfType rank .sm)).length, s ∉ c'.smChannels.map SmChannel.semaphore
  proxySemaphores_conn : c'.proxySemaphores.map (fun i =>
      Option.map Semaphore.conn c'.proxyService.semaphores[i]?) =
    (semaphorePeers plan rank e.nranks .proxy).map fun ip => c.connections.lookup ip.2
  proxyChannels_semaphore : c'.proxyChannels.map ProxyChannel.semaphore =
    c'.proxySemaphores.take (infoPeers (plan.getChannelInfosOfType rank .proxy)).length
  proxyChannels_service : ∀ ch ∈ c'.proxyChannels, ch.service = c'.proxyService.id
  proxyChannels_dst : c'.proxyChannels.map (fun ch => c'.proxyService.memories[ch.dst]?) =
    (infoPeers (plan.getChannelInfosOfType rank .proxy)).map fun ip =>
      c.registeredMemories.lookup (ip.1.dstBufferType, ip.2)
  proxyChannels_src : ∃ flags,
    getTransportFlags e.nranksPerNode (plan.getChannelInfosOfType rank .proxy) rank = .ok flags ∧
    c'.proxyChannels.map (fun ch => c'.proxyService.memories[ch.src]?) =
      (infoPeers (plan.getChannelInfosOfType rank .proxy)).map fun ip =>
        (getBufferInfo sendbuff recvbuff sendBufferSize recvBufferSize c
          ip.1.srcBufferType).toOption.map fun b => e.comm.registerMemory b.1 b.2 flags
  proxySemaphores_unbound : ∀ i ∈ c'.proxySemaphores.drop
    (infoPeers (plan.getChannelInfosOfType rank .proxy)).length,
    i ∉ c'.proxyChannels.map ProxyChannel.semaphore

theorem Communicator.registerMemory_eq_of_rank {c d : Communicator} (h : c.rank = d.rank) :
    c.registerMemory = d.registerMemory := by
  funext ptr size transports
  simp [Communicator.registerMemory, h]

section Assembly

variable (P : Platform W Bytes) (sendbuff recvbuff sendBufferSize recvBufferSize rank : Nat)
  (plan : PlanLayout)

/-- **`setupChannels`, from a context with connections to every peer its semaphore loop
visits, descriptors for every destination of its channel loop, and no channel yet**: what
it returns is bound as `ChannelsBound` says, and it throws only what the `setup()` call
between the loops throws, or a `ChannelFailure`. -/
theorem setupChannels_bound {c : ExecutionContext} (e : Executor W)
    (hconn : ∀ k ∈ channelTypes, ∀ ip ∈ semaphorePeers plan rank e.nranks k,
      (c.connections.lookup ip.2).isSome)
    (hmem : ∀ k ∈ channelTypes, ∀ ip ∈ infoPeers (plan.getChannelInfosOfType rank k),
      (c.registeredMemories.lookup (ip.1.dstBufferType, ip.2)).isSome)
    (hsm : c.smChannels = []) (hpx : c.proxyChannels = []) :
    (∀ c' e', setupChannels P c sendbuff recvbuff sendBufferSize recvBufferSize rank plan e =
        (.ok c', e') → ChannelsBound sendbuff recvbuff sendBufferSize recvBufferSize rank plan e c c') ∧
      ∀ f e', setupChannels P c sendbuff recvbuff sendBufferSize recvBufferSize rank plan e =
        (.error f, e') →
        (Executor.setup P (buildSemaphores c rank plan e).2).1 = .error f ∨ ChannelFailure f := by
  obtain ⟨sm, px, e₁, hbs, hsmConn, hnodup, hpxConn⟩ := buildSemaphores_ok e hconn
  have hframe₁ : Executor.Frame e e₁ := by simpa [hbs] using buildSemaphores_frame rank plan c e
  simp only [setupChannels, ExecM.bind_apply, hbs]
  rcases hsetup : Executor.setup P e₁ with ⟨f | _, e₂⟩
  · simp [hsetup]
  have hframe₂ : Executor.Frame e e₂ :=
    IsTrans.trans _ _ _ hframe₁ (by simpa [hsetup] using Executor.setup_frame P e₁)
  simp only [hsetup, channelTypes, List.foldlM_cons, List.foldlM_nil, ExecM.bind_apply]
  have hlenS : (infoPeers (plan.getChannelInfosOfType rank .sm)).length ≤ sm.length := by
    have := congrArg List.length hsmConn
    simp only [List.length_map, semaphorePeers, List.length_append] at this
    omega
  have hlenP : (infoPeers (plan.getChannelInfosOfType rank .proxy)).length ≤ px.length := by
    have := congrArg List.length hpxConn
    simp only [List.length_map, semaphorePeers, List.length_append] at this
    omega
  obtain ⟨r₁, hr₁, herr₁, hok₁⟩ := buildChannels_sm sendbuff recvbuff sendBufferSize
    recvBufferSize rank plan { c with
      proxyService := { c.proxyService with semaphores := c.proxyService.semaphores ++ px }
      smSemaphores := sm
      proxySemaphores := List.range' c.proxyService.semaphores.length px.length } e₂
    hlenS (hmem .sm (by decide))
  rw [hr₁]
  rcases r₁ with f | c₁
  · exact ⟨(fun _ _ h => by cases h), fun _ _ h => by cases h; exact .inr (herr₁ _ rfl)⟩
  obtain ⟨builtS, hc₁, hsemS, hdstS, hsrcS⟩ := hok₁ _ rfl
  obtain ⟨r₂, hr₂, herr₂, hok₂⟩ := buildChannels_proxy sendbuff recvbuff sendBufferSize
    recvBufferSize rank plan c₁ e₂ (by simpa [hc₁] using hlenP)
    (by simpa [hc₁] using hmem .proxy (by decide))
  dsimp only
  rw [hr₂]
  rcases r₂ with f | c'
  · exact ⟨(fun _ _ h => by cases h), fun _ _ h => by cases h; exact .inr (herr₂ _ rfl)⟩
  obtain ⟨builtP, added, rfl, hsemP, hsvc, hdstP, flags, hflags, hsrcP⟩ := hok₂ _ rfl
  subst hc₁
  refine ⟨fun c'' e' h => ?_, fun _ _ h => by cases h⟩
  cases h
  have hnodupP := List.nodup_range' c.proxyService.semaphores.length px.length
  dsimp only at hsemS hdstS hsrcS hsemP hsvc hdstP hsrcP ⊢
  rw [hsm, List.nil_append] at *
  rw [hpx, List.nil_append] at *
  refine ⟨rfl, rfl, hsmConn, hsemS, hdstS, ?_, ?_, ?_, hsemP, hsvc, hdstP, ?_, ?_⟩
  · rwa [getBuffer_congr c _ rfl rfl]
  · exact fun s hs hb => List.disjoint_take_drop hnodup le_rfl (hsemS ▸ hb) hs
  · have h := congrArg (List.map (Option.map Semaphore.conn))
      (map_getElem?_range'_append c.proxyService.semaphores px)
    simp only [List.map_map] at h
    rw [← hpxConn]
    exact h
  · refine ⟨flags, hframe₂.nranksPerNode_eq ▸ hflags, ?_⟩
    rwa [getBufferInfo_congr c _ rfl rfl, ← Communicator.registerMemory_eq_of_rank hframe₂.rank_eq]
  · exact fun i hi hb => List.disjoint_take_drop hnodupP le_rfl (hsemP ▸ hb) hi

/-- **`setupChannels` after the connection and memory rounds of a cold build binds every
channel to its own pair.**  For a plan whose SM and proxy channel peers (paired and unpaired)
are connected peers and whose channel destinations are among the `(role, peer)` pairs the
memory rounds receive: the semaphore of each visited pair is over the tag-0 connection to that
peer stored by `setupConnections`; `setupChannels` fails no lookup, throwing only what its
`setup()` call throws or a `ChannelFailure`; and what it returns is bound as `ChannelsBound`
says. -/
theorem setupChannels_binds (scratchBuffer scratchBufferSize proxyService nthreadsPerBlock : Nat)
    {c₁ c₂ : ExecutionContext} {e₀ e₁ e₂ : Executor W}
    (h₁ : setupConnections P (ExecutionContext.init scratchBuffer scratchBufferSize proxyService
      nthreadsPerBlock) rank plan e₀ = (.ok c₁, e₁))
    (h₂ : setupRegisteredMemories P c₁ sendbuff recvbuff sendBufferSize recvBufferSize rank plan
      e₁ = (.ok c₂, e₂))
    (hpeers : ∀ k ∈ channelTypes, ∀ ip ∈ semaphorePeers plan rank e₀.nranks k,
      ip.2 ∈ plan.getConnectedPeers rank)
    (hpairs : ∀ k ∈ channelTypes, ∀ ip ∈ infoPeers (plan.getChannelInfosOfType rank k),
      (ip.1.dstBufferType, ip.2) ∈ receivedPairs plan rank) :
    (∀ k ∈ channelTypes, ∀ ip ∈ semaphorePeers plan rank e₀.nranks k,
      ∃ conn, c₂.connections.lookup ip.2 = some conn ∧ conn.remoteRank = ip.2 ∧ conn.tag = 0) ∧
    (∀ c' e', setupChannels P c₂ sendbuff recvbuff sendBufferSize recvBufferSize rank plan e₂ =
        (.ok c', e') → ChannelsBound sendbuff recvbuff sendBufferSize recvBufferSize rank plan e₂ c₂ c') ∧
    ∀ f e', setupChannels P c₂ sendbuff recvbuff sendBufferSize recvBufferSize rank plan e₂ =
        (.error f, e') →
      (Executor.setup P (buildSemaphores c₂ rank plan e₂).2).1 = .error f ∨ ChannelFailure f := by
  obtain ⟨conns, -, hc₁, -⟩ := setupConnections_ok P h₁
  obtain ⟨⟨regs, hc₂⟩, hrecv⟩ := setupRegisteredMemories_ok P sendbuff recvbuff sendBufferSize
    recvBufferSize rank h₂
  have hnranks : e₂.nranks = e₀.nranks := by
    have hf₁ := setupConnections_frame P rank plan
      (ExecutionContext.init scratchBuffer scratchBufferSize proxyService nthreadsPerBlock) e₀
    have hf₂ := setupRegisteredMemories_frame P sendbuff recvbuff sendBufferSize recvBufferSize
      rank plan c₁ e₁
    rw [h₁] at hf₁
    rw [h₂] at hf₂
    exact hf₂.nranks_eq.trans hf₁.nranks_eq
  have hconn : ∀ k ∈ channelTypes, ∀ ip ∈ semaphorePeers plan rank e₀.nranks k,
      ∃ conn, c₂.connections.lookup ip.2 = some conn ∧ conn.remoteRank = ip.2 ∧ conn.tag = 0 :=
    fun k hk ip hip => hc₂ ▸ setupConnections_lookup P h₁ (hpeers k hk ip hip)
  refine ⟨hconn, setupChannels_bound P sendbuff recvbuff sendBufferSize recvBufferSize rank plan
    e₂ ?_ ?_ (by rw [hc₂, hc₁]; rfl) (by rw [hc₂, hc₁]; rfl)⟩
  · intro k hk ip hip
    obtain ⟨conn, hlook, -⟩ := hconn k hk ip (hnranks ▸ hip)
    simp [hlook]
  · intro k hk ip hip
    obtain ⟨bt, hbt, hpeer⟩ : ∃ bt ∈ plan.getConnectedBufferTypes rank,
        ip.2 ∈ getConnectedPeers (plan.getChannelInfos rank bt) ∧ bt = ip.1.dstBufferType := by
      simpa [receivedPairs, eq_comm] using hpairs k hk ip hip
    exact hpeer.2 ▸ hrecv bt hbt ip.2 hpeer.1

/-- The peer of `r` in a pair of ranks; ranks past the pair have none. -/
def pairPeers (r : Nat) : List Nat := if r < 2 then [1 - r] else []

/-- A plan of two ranks: each has an SM and a proxy channel from its input to its peer's
output, and an unpaired SM info toward its peer's scratch buffer; ranks past the pair take
no part. -/
def pairPlan : PlanLayout where
  getConnectedPeers r := pairPeers r
  getConnectedBufferTypes r := if r < 2 then [.output] else []
  getChannelInfosByDstRank r bt :=
    if bt = .output then [⟨.input, .output, .sm, pairPeers r⟩, ⟨.input, .output, .proxy, pairPeers r⟩]
    else []
  getChannelInfos r bt :=
    if bt = .output then [⟨.input, .output, .sm, pairPeers r⟩, ⟨.input, .output, .proxy, pairPeers r⟩]
    else []
  getChannelInfosOfType r k := [⟨.input, .output, k, pairPeers r⟩]
  getUnpairedChannelInfos r _ k := if k = .sm then [⟨.scratch, .scratch, .sm, pairPeers r⟩] else []
  getScratchBufferSize _ _ _ := 64
  getNThreadsPerBlock := 256
  getThreadblockCount _ := 1
  threadblockSMChannelMap _ := some [[0]]
  threadblockProxyChannelMap _ := some [[0]]
  getChannelInfosOfType_channelType _ _ := by simp
  getUnpairedChannelInfos_channelType _ _ k := by cases k <;> simp

/-- Rank 0 of two, on one node, before its first context. -/
def pairExecutor : Executor Unit :=
  ⟨2, 2, ⟨0, [7, 7], [], [], [], 0, by decide⟩, [], (), [], 0, []⟩

theorem setupChannels_binds_pairPlan :
    ∃ c₁ e₁ c₂ e₂,
      setupConnections (Platform.quiet 8 8 0) (ExecutionContext.init 1 64 2 256) 0 pairPlan
        pairExecutor = (.ok c₁, e₁) ∧
      setupRegisteredMemories (Platform.quiet 8 8 0) c₁ 3 4 16 16 0 pairPlan e₁ = (.ok c₂, e₂) ∧
      (∀ k ∈ channelTypes, ∀ ip ∈ semaphorePeers pairPlan 0 pairExecutor.nranks k,
        ip.2 ∈ pairPlan.getConnectedPeers 0) ∧
      (∀ k ∈ channelTypes, ∀ ip ∈ infoPeers (pairPlan.getChannelInfosOfType 0 k),
        (ip.1.dstBufferType, ip.2) ∈ receivedPairs pairPlan 0) ∧
      ((∀ k ∈ channelTypes, ∀ ip ∈ semaphorePeers pairPlan 0 pairExecutor.nranks k,
        ∃ conn, c₂.connections.lookup ip.2 = some conn ∧ conn.remoteRank = ip.2 ∧ conn.tag = 0) ∧
      (∀ c' e', setupChannels (Platform.quiet 8 8 0) c₂ 3 4 16 16 0 pairPlan e₂ = (.ok c', e') →
        ChannelsBound 3 4 16 16 0 pairPlan e₂ c₂ c') ∧
      ∀ f e', setupChannels (Platform.quiet 8 8 0) c₂ 3 4 16 16 0 pairPlan e₂ = (.error f, e') →
        (Executor.setup (Platform.quiet 8 8 0) (buildSemaphores c₂ 0 pairPlan e₂).2).1 = .error f ∨
          ChannelFailure f) := by
  have hpeers : ∀ k ∈ channelTypes, ∀ ip ∈ semaphorePeers pairPlan 0 pairExecutor.nranks k,
      ip.2 ∈ pairPlan.getConnectedPeers 0 := by decide
  have hpairs : ∀ k ∈ channelTypes, ∀ ip ∈ infoPeers (pairPlan.getChannelInfosOfType 0 k),
      (ip.1.dstBufferType, ip.2) ∈ receivedPairs pairPlan 0 := by decide
  exact ⟨_, _, _, _, rfl, rfl, hpeers, hpairs,
    setupChannels_binds _ 3 4 16 16 0 pairPlan 1 64 2 256 rfl rfl hpeers hpairs⟩

end Assembly

end Mscclpp
