import Mscclpp.Executor.State
import Mathlib.Data.List.Sort

/-!
# Building an execution context

`Executor::Impl::setupExecutionContext` and the functions it calls, in the order the
source gives them.  A cold build (key absent) allocates the scratch buffer and the proxy
service, then runs three rounds of the communicator's setup protocol — `setupConnections`,
one `setupRegisteredMemories` round per buffer role, `setupChannels` — and serializes the
plan with `setupDeviceExecutionPlan`; a warm build (key present) only reserializes.

## Main Definitions

* `getTransportFlags`, `selectTransport` — the two places that choose transports.
* `setupConnections`, `setupRegisteredMemories`, `setupChannels` — the three rounds;
  `buildSemaphores` and `buildChannels` are the two loops of `setupChannels`.
* `setupDeviceExecutionPlan` — one `DeviceExecutionPlan` per threadblock.
* `buildContext` — the cold path up to its channels; `setupExecutionContext` — the whole.

## Design Notes

Each loop of the source is a `foldlM`, `forM` or `mapM` over the list it iterates, and
each lambda of the source is a definition under its name.  Reads that C++ leaves
undefined fail with `Failure.undefinedBehavior`, naming the array read.
`registeredMemories[key]` inserts a default-constructed descriptor when the key is
absent (`ExecutionContext.registeredMemoriesAt`).  The two `addMemory` calls that build a
proxy channel are arguments of one call, which C++ evaluates in an unspecified order; the
model takes them left to right, and what is proved about them reads each `MemoryId` back,
which holds in either order.
-/

namespace Mscclpp

/-! ## Reads -/

/-- `xs[index]` on the vector or array `access` of the source: undefined past the end. -/
def readIndex {α : Type} (access : String) (xs : List α) (index : Nat) : Except Failure α :=
  match xs[index]? with
  | some x => pure x
  | none => throw (.undefinedBehavior access)

/-- `IBs[rank % nranksPerNode]`. -/
def readIBs (nranksPerNode rank : Nat) : Except Failure Transport :=
  match ibTransport nranksPerNode rank with
  | some transport => pure transport
  | none => throw (.undefinedBehavior "IBs")

namespace ExecutionContext

/-- `context.connections.at(peer)`. -/
def connectionsAt (context : ExecutionContext) (peer : Nat) : Except Failure Connection :=
  match context.connections.lookup peer with
  | some conn => pure conn
  | none => throw .outOfRange

/-- `context.registeredMemories[key]` read through `operator[]`: the entry, or a
default-constructed descriptor, which `operator[]` inserts. -/
def registeredMemoriesAt (context : ExecutionContext) (key : BufferType × Nat) :
    RegisteredMemory × ExecutionContext :=
  match context.registeredMemories.lookup key with
  | some memory => (memory, context)
  | none => (.empty, { context with registeredMemories := (key, .empty) :: context.registeredMemories })

end ExecutionContext

/-! ## Transports -/

/-- The transport `setupConnections` picks for `peer`: `CudaIpc` on the node of `rank`,
`IBs[rank % nranksPerNode]` off it. -/
def selectTransport (nranksPerNode rank peer : Nat) : Except Failure Transport :=
  if inSameNode rank peer nranksPerNode then pure .cudaIpc else readIBs nranksPerNode rank

/-- The flag a peer of a proxy channel adds: `IBs[rank % nranksPerNode]` off the node of
`rank`, `CudaIpc` on it. -/
def addPeerFlag (nranksPerNode rank : Nat) (flags : TransportFlags) (peer : Nat) :
    Except Failure TransportFlags :=
  if !inSameNode rank peer nranksPerNode then
    (insert · flags) <$> readIBs nranksPerNode rank
  else pure (insert .cudaIpc flags)

/-- The flags `info` adds: the body of the loop of `getTransportFlags`. -/
def addTransportFlags (nranksPerNode rank : Nat) (flags : TransportFlags) (info : ChannelInfo) :
    Except Failure TransportFlags :=
  match info.channelType with
  | .sm => pure (insert .cudaIpc flags)
  | .proxy => info.connectedPeers.foldlM (addPeerFlag nranksPerNode rank) flags
  | .none => pure flags

section AddTransportFlags

variable {nranksPerNode rank : Nat} {flags : TransportFlags} {info : ChannelInfo}

theorem addTransportFlags_of_none (h : info.channelType = .none) :
    addTransportFlags nranksPerNode rank flags info = pure flags := by
  simp [addTransportFlags, h]

end AddTransportFlags

/-- `Executor::Impl::getTransportFlags`: `CudaIpc` for an SM channel; for a proxy channel,
per peer, `IBs[rank % nranksPerNode]` off the node and `CudaIpc` on it. -/
def getTransportFlags (nranksPerNode : Nat) (infos : List ChannelInfo) (rank : Nat) :
    Except Failure TransportFlags :=
  infos.foldlM (addTransportFlags nranksPerNode rank) ∅

/-! ## Buffers -/

/-- The `getBufferInfo` lambda of `setupRegisteredMemories`: the buffer of a role and its
size. -/
def getBufferInfo (sendbuff recvbuff sendBufferSize recvBufferSize : Nat)
    (context : ExecutionContext) : BufferType → Except Failure (Nat × Nat)
  | .input => pure (sendbuff, sendBufferSize)
  | .output => pure (recvbuff, recvBufferSize)
  | .scratch => pure (context.scratchBuffer, context.scratchBufferSize)
  | .none => throw (.error "Invalid buffer type" .executorError)

/-- The `getBuffer` lambda of `setupChannels`: the first half of `getBufferInfo`. -/
def getBuffer (sendbuff recvbuff sendBufferSize recvBufferSize : Nat)
    (context : ExecutionContext) (type : BufferType) : Except Failure Nat :=
  Prod.fst <$> getBufferInfo sendbuff recvbuff sendBufferSize recvBufferSize context type

/-- The `getBufferSize` lambda of `setupChannels`: the second half of `getBufferInfo`. -/
def getBufferSize (sendbuff recvbuff sendBufferSize recvBufferSize : Nat)
    (context : ExecutionContext) (type : BufferType) : Except Failure Nat :=
  Prod.snd <$> getBufferInfo sendbuff recvbuff sendBufferSize recvBufferSize context type

/-- The `getConnectedPeers` lambda of `setupRegisteredMemories`: the peers of `infos`, as
the `std::set<int>` it fills returns them, sorted and without repeats. -/
def getConnectedPeers (infos : List ChannelInfo) : List Nat :=
  (infos.flatMap ChannelInfo.connectedPeers).dedup.insertionSort (· ≤ ·)

section Rounds

variable {W Bytes : Type} (P : Platform W Bytes)

/-! ## The three rounds of the setup protocol -/

/-- The body of the loop of `setupConnections`: a connection request toward `peer`, on tag
0, over the transport chosen for it. -/
def connectPeer (nranksPerNode rank peer : Nat) : ExecM (Executor W) Connection := do
  let transport ← ExecM.ofExcept (selectTransport nranksPerNode rank peer)
  Executor.connectOnSetup peer 0 transport

/-- `Executor::Impl::setupConnections`: a connection request toward every connected peer,
one `setup()` call, then `context.connections[peer]` for each, in order. -/
def setupConnections (context : ExecutionContext) (rank : Nat) (plan : PlanLayout) :
    ExecM (Executor W) ExecutionContext := do
  let connectedPeers := plan.getConnectedPeers rank
  let nranksPerNode := (← get).nranksPerNode
  let connectionFutures ← connectedPeers.mapM (connectPeer nranksPerNode rank)
  Executor.setup P
  pure { context with
    connections := (connectedPeers.zip connectionFutures).foldl (fun m pc => pc :: m)
      context.connections }

/-- The body of the last loop of `setupRegisteredMemories`: wait on the future `pf.2` of the
peer `pf.1` and store the descriptor under `(bufferType, pf.1)`. -/
def storeRegisteredMemory (bufferType : BufferType) (context : ExecutionContext) (pf : Nat × Nat) :
    ExecM (Executor W) ExecutionContext := do
  let memory ← Executor.getFuture pf.2
  pure { context with
    registeredMemories := ((bufferType, pf.1), memory) :: context.registeredMemories }

/-- One pass of the loop of `setupRegisteredMemories`, for the role `bufferType`: register
the buffer for the transports its accessors need, send its descriptor to each of them,
request the descriptor of that role from each peer this rank's channels need it from, run
one `setup()` call, and store what arrives under `(bufferType, peer)`. -/
def exchangeRegisteredMemory (sendbuff recvbuff sendBufferSize recvBufferSize rank : Nat)
    (plan : PlanLayout) (context : ExecutionContext) (bufferType : BufferType) :
    ExecM (Executor W) ExecutionContext := do
  let e ← get
  let channelInfos := plan.getChannelInfosByDstRank rank bufferType
  let transportFlags ← ExecM.ofExcept (getTransportFlags e.nranksPerNode channelInfos rank)
  let info ← ExecM.ofExcept
    (getBufferInfo sendbuff recvbuff sendBufferSize recvBufferSize context bufferType)
  let memory := e.comm.registerMemory info.1 info.2 transportFlags
  (getConnectedPeers channelInfos).forM fun peer => Executor.sendMemoryOnSetup memory peer 0
  let connectedPeers := getConnectedPeers (plan.getChannelInfos rank bufferType)
  let remoteRegMemoryFutures ← connectedPeers.mapM fun peer => Executor.recvMemoryOnSetup peer 0
  Executor.setup P
  (connectedPeers.zip remoteRegMemoryFutures).foldlM (storeRegisteredMemory bufferType) context

/-- `Executor::Impl::setupRegisteredMemories`: one exchange round per connected buffer
role, in the plan's order. -/
def setupRegisteredMemories (context : ExecutionContext)
    (sendbuff recvbuff sendBufferSize recvBufferSize rank : Nat) (plan : PlanLayout) :
    ExecM (Executor W) ExecutionContext :=
  (plan.getConnectedBufferTypes rank).foldlM
    (exchangeRegisteredMemory P sendbuff recvbuff sendBufferSize recvBufferSize rank plan) context

/-- `ProxyService::buildAndAddSemaphore(comm, conn)`: a `Host2DeviceSemaphore` over
`conn`, appended; its index is the `SemaphoreId`. -/
def ProxyService.buildAndAddSemaphore (service : ProxyService) (conn : Connection) :
    ExecM (Executor W) (Nat × ProxyService) := do
  let semaphore ← Executor.buildSemaphore .proxy conn
  pure (service.semaphores.length, { service with semaphores := service.semaphores ++ [semaphore] })

/-- The semaphores `setupChannels` has built so far: the context (whose proxy service
holds the proxy ones), the SM semaphores, and the proxy `SemaphoreId`s. -/
abbrev SemaphoreAcc := ExecutionContext × List Semaphore × List Nat

/-- One step of the `processChannelInfos` lambda of `setupChannels`: a semaphore of the
type of `info` toward `peer`, over `context.connections.at(peer)`. -/
def buildSemaphoreFor (acc : SemaphoreAcc) (info : ChannelInfo) (peer : Nat) :
    ExecM (Executor W) SemaphoreAcc :=
  match info.channelType with
  | .sm => do
    let conn ← ExecM.ofExcept (acc.1.connectionsAt peer)
    let semaphore ← Executor.buildSemaphore .sm conn
    pure (acc.1, acc.2.1 ++ [semaphore], acc.2.2)
  | .proxy => do
    let conn ← ExecM.ofExcept (acc.1.connectionsAt peer)
    let r ← acc.1.proxyService.buildAndAddSemaphore conn
    pure ({ acc.1 with proxyService := r.2 }, acc.2.1, acc.2.2 ++ [r.1])
  | .none => pure acc

/-- The `processChannelInfos` lambda of `setupChannels`: a semaphore toward every peer of
every info. -/
def processChannelInfos (channelInfos : List ChannelInfo) (acc : SemaphoreAcc) :
    ExecM (Executor W) SemaphoreAcc :=
  channelInfos.foldlM (fun acc info =>
    info.connectedPeers.foldlM (fun acc peer => buildSemaphoreFor acc info peer) acc) acc

/-- The `channelTypes` of `setupChannels`. -/
def channelTypes : List ChannelType := [.sm, .proxy]

/-- The first loop of `setupChannels`: per channel type, the semaphores of the paired infos,
then those of the unpaired ones. -/
def buildSemaphores (context : ExecutionContext) (rank : Nat) (plan : PlanLayout) :
    ExecM (Executor W) SemaphoreAcc := do
  let nranks := (← get).nranks
  channelTypes.foldlM (fun acc channelType => do
    let acc ← processChannelInfos (plan.getChannelInfosOfType rank channelType) acc
    processChannelInfos (plan.getUnpairedChannelInfos rank nranks channelType) acc)
    (context, [], [])

/-- One channel of the channel loop of `setupChannels`, toward `peer` of `info`: on the
semaphore at `index`, to the peer's descriptor of `info.dstBufferType`, from `src`.  The two
`addMemory` calls are arguments of one call, whose order of evaluation C++ leaves
unspecified; the model makes the destination's first, as written (g++ makes the source's
first).  The order only decides which of the two fresh `MemoryId`s each one gets. -/
def addChannel (channelType : ChannelType) (info : ChannelInfo) (localMemory : RegisteredMemory)
    (src : Nat) (acc : ExecutionContext × Nat) (peer : Nat) :
    Except Failure (ExecutionContext × Nat) :=
  if channelType = .sm then do
    let semaphore ← readIndex "smSemaphores" acc.1.smSemaphores acc.2
    let dst := acc.1.registeredMemoriesAt (info.dstBufferType, peer)
    pure ({ dst.2 with smChannels := dst.2.smChannels ++ [⟨semaphore, dst.1, src⟩] }, acc.2 + 1)
  else if channelType = .proxy then do
    let semaphore ← readIndex "proxySemaphores" acc.1.proxySemaphores acc.2
    let dst := acc.1.registeredMemoriesAt (info.dstBufferType, peer)
    let dstId := dst.2.proxyService.addMemory dst.1
    let srcId := dstId.2.addMemory localMemory
    pure ({ dst.2 with
      proxyService := srcId.2
      proxyChannels := dst.2.proxyChannels ++ [srcId.2.proxyChannel semaphore dstId.1 srcId.1] },
      acc.2 + 1)
  else pure acc

/-- The body of the channel loop of `setupChannels` for one info of `channelInfos`: register
its source buffer for the transports of all of `channelInfos`, then one channel per peer. -/
def addInfoChannels (sendbuff recvbuff sendBufferSize recvBufferSize rank : Nat)
    (channelType : ChannelType) (channelInfos : List ChannelInfo) (acc : ExecutionContext × Nat)
    (info : ChannelInfo) : ExecM (Executor W) (ExecutionContext × Nat) := do
  let src ← ExecM.ofExcept
    (getBuffer sendbuff recvbuff sendBufferSize recvBufferSize acc.1 info.srcBufferType)
  let bufferSize ← ExecM.ofExcept
    (getBufferSize sendbuff recvbuff sendBufferSize recvBufferSize acc.1 info.srcBufferType)
  let e ← get
  let transport ← ExecM.ofExcept (getTransportFlags e.nranksPerNode channelInfos rank)
  let localMemory := e.comm.registerMemory src bufferSize transport
  ExecM.ofExcept (info.connectedPeers.foldlM (addChannel channelType info localMemory src) acc)

/-- The channel loop of `setupChannels` for `channelType`, taking the semaphores of that type
in order from index 0. -/
def buildChannels (sendbuff recvbuff sendBufferSize recvBufferSize rank : Nat)
    (plan : PlanLayout) (context : ExecutionContext) (channelType : ChannelType) :
    ExecM (Executor W) ExecutionContext := do
  let channelInfos := plan.getChannelInfosOfType rank channelType
  let r ← channelInfos.foldlM (addInfoChannels sendbuff recvbuff sendBufferSize recvBufferSize
    rank channelType channelInfos) (context, 0)
  pure r.1

/-- `Executor::Impl::setupChannels`: the semaphores of every paired and unpaired info, SM
then proxy, one `setup()` call, then the channels of each type. -/
def setupChannels (context : ExecutionContext)
    (sendbuff recvbuff sendBufferSize recvBufferSize rank : Nat) (plan : PlanLayout) :
    ExecM (Executor W) ExecutionContext := do
  let acc ← buildSemaphores context rank plan
  Executor.setup P
  channelTypes.foldlM (buildChannels sendbuff recvbuff sendBufferSize recvBufferSize rank plan)
    { acc.1 with smSemaphores := acc.2.1, proxySemaphores := acc.2.2 }

end Rounds

/-! ## Serializing the plan -/

/-- `threadblockChannelMap.at(rank).at(threadblock)`. -/
def channelMapAt (map : Nat → Option (List (List Nat))) (rank threadblock : Nat) :
    Except Failure (List Nat) :=
  match map rank with
  | none => throw .outOfRange
  | some perThreadblock =>
    match perThreadblock[threadblock]? with
    | none => throw .outOfRange
    | some indices => pure indices

/-- The loop `channels[chanIndex++] = deviceHandle(contextChannels[index])` over a
threadblock's channel indices, into an array of `capacity` entries. -/
def channelHandles {α : Type} (array contextArray : String) (capacity : Nat)
    (contextChannels : List α) (indices : List Nat) : Except Failure (List α) :=
  indices.enum.mapM fun ci => do
    let channel ← readIndex contextArray contextChannels ci.2
    if ci.1 < capacity then pure channel else throw (.undefinedBehavior array)

variable {W Bytes : Type} (P : Platform W Bytes)

/-- The `DeviceExecutionPlan` of one threadblock, with its operations `ops`. -/
def deviceExecutionPlanOf (context : ExecutionContext) (rank : Nat) (plan : PlanLayout)
    (ops : List Operation) (threadblock : Nat) : Except Failure DeviceExecutionPlan := do
  let smIndices ← channelMapAt plan.threadblockSMChannelMap rank threadblock
  let proxyIndices ← channelMapAt plan.threadblockProxyChannelMap rank threadblock
  let smChannels ← channelHandles "channels.smChannels" "smChannels" P.maxChannel
    context.smChannels smIndices
  let proxyChannels ← channelHandles "channels.proxyChannels" "proxyChannels" P.maxChannel
    context.proxyChannels proxyIndices
  if ops.length ≤ P.maxOperation then
    pure ⟨ops.length, smIndices.length, proxyIndices.length, smChannels, proxyChannels, ops⟩
  else throw (.undefinedBehavior "operations")

/-- `Executor::Impl::setupDeviceExecutionPlan`, with `getOperations(rank, threadblock)` the
operations the plan holds after its last reload. -/
def setupDeviceExecutionPlan (context : ExecutionContext) (rank : Nat) (plan : PlanLayout)
    (getOperations : Nat → Nat → List Operation) : Except Failure ExecutionContext := do
  let deviceExecutionPlans ← (List.range (plan.getThreadblockCount rank)).mapM fun threadblock =>
    deviceExecutionPlanOf P context rank plan (getOperations rank threadblock) threadblock
  pure { context with deviceExecutionPlans := deviceExecutionPlans }

/-! ## The context cache -/

/-- `ExecutionContext context;` of the cold path, with its scratch buffer, its proxy service
and its threads per block set. -/
def ExecutionContext.init (scratchBuffer scratchBufferSize proxyService nthreadsPerBlock : Nat) :
    ExecutionContext :=
  ⟨⟨proxyService, [], [], false⟩, [], [], [], [], [], [], [], scratchBuffer, scratchBufferSize, 0,
    nthreadsPerBlock⟩

/-- The cold path of `setupExecutionContext` up to its channels: the scratch buffer, a
fresh proxy service, and the three rounds of the setup protocol. -/
def buildContext (rank sendbuff recvbuff sendBufferSize recvBufferSize : Nat)
    (plan : PlanLayout) : ExecM (Executor W) ExecutionContext := do
  let scratchBuffer ← Executor.allocate
  let proxyService ← Executor.allocate
  let context := ExecutionContext.init scratchBuffer
    (plan.getScratchBufferSize rank sendBufferSize recvBufferSize) proxyService
    plan.getNThreadsPerBlock
  let context ← setupConnections P context rank plan
  let context ← setupRegisteredMemories P context sendbuff recvbuff sendBufferSize
    recvBufferSize rank plan
  setupChannels P context sendbuff recvbuff sendBufferSize recvBufferSize rank plan

/-- `Executor::Impl::setupExecutionContext`.  A cached key reloads the plan's operations
with `lightLoadExecutionPlan`, reserializes them into the cached context and gives it a
new device buffer; an absent key builds the context, serializes the operations of
`loadExecutionPlan`, starts the proxy and caches the context. -/
def setupExecutionContext (rank sendbuff recvbuff : Nat) (args : LoadArgs)
    (sendBufferSize recvBufferSize : Nat) (plan : ExecutionPlan) :
    ExecM (Executor W) ExecutionContext := do
  let key : ExecutionContextKey := ⟨sendbuff, recvbuff, sendBufferSize, recvBufferSize, plan.name⟩
  match (← get).contexts.lookup key with
  | some context =>
    let context ← ExecM.ofExcept (setupDeviceExecutionPlan P context rank plan.layout
      (plan.lightLoadExecutionPlan args))
    modify fun e => { e with contexts := (key, context) :: e.contexts }
    let buffer ← Executor.allocate
    let context := { context with deviceExecutionPlansBuffer := buffer }
    modify fun e => { e with contexts := (key, context) :: e.contexts }
    pure context
  | none =>
    let context ← buildContext P rank sendbuff recvbuff sendBufferSize recvBufferSize plan.layout
    let context ← ExecM.ofExcept (setupDeviceExecutionPlan P context rank plan.layout
      (plan.loadExecutionPlan args))
    let buffer ← Executor.allocate
    let context := { context with
      deviceExecutionPlansBuffer := buffer
      proxyService := { context.proxyService with running := true } }
    modify fun e => { e with contexts := (key, context) :: e.contexts }
    pure context

end Mscclpp
