import Mscclpp.Basic

/-!
# The execution plan, as the executor reads it

`Executor::Impl` reads an `ExecutionPlan` only through the queries of its `impl_`; the
plan's own code (the parser and `execution_plan.cc`) is outside this repository's sources.
A plan is therefore modelled by those queries, each a field under the source's name.

## Main Definitions

* `PlanLayout` — the structural queries: connected peers, buffer roles, channel infos,
  scratch size, threads per block, threadblocks and their channel maps.
* `ExecutionPlan` — a name, a layout, and the operations the two reload paths produce.
* `ExecutionContextKey` — the cache key of `setupExecutionContext`.

## Design Notes

The plan is mutable in the source: `reset()` with `loadExecutionPlan(...)`, or
`operationsReset()` with `lightLoadExecutionPlan(...)`, rebuilds the per-threadblock
operations for new message sizes and offsets, and every later `getOperations(rank, tb)`
reads them.  The executor always reloads right before it reads, so the loaded state is
never observed across calls; `loadExecutionPlan args` and `lightLoadExecutionPlan args`
are the operations each path leaves behind.

The structural queries are fields of the layout, independent of the loaded sizes.  Within
one `setupExecutionContext` call the plan is loaded once, before any query, so a plan whose
structure depended on the sizes is, for that call, the layout it has after the load; only
the cache's warm path compares two calls, and its results take the independence as a
hypothesis.

The overload `getChannelInfos(rank, ChannelType)` cannot share its name with the
`BufferType` one in Lean; it is `getChannelInfosOfType`.  The two by-kind queries carry
the contract their names state: every info they return is of the kind asked for.
-/

namespace Mscclpp

/-- A device `Operation`.  Its fields belong to the kernel's instruction set, outside
this repository's sources; the executor only copies operations, so one is kept as an
opaque code. -/
structure Operation where
  code : Nat
  deriving DecidableEq, Repr

/-- The arguments of `loadExecutionPlan` and `lightLoadExecutionPlan`. -/
structure LoadArgs where
  inputMessageSize : Nat
  outputMessageSize : Nat
  constSrcOffset : Nat
  constDstOffset : Nat
  deriving DecidableEq, Repr

/-- The structural queries of `ExecutionPlan::Impl` the executor makes. -/
structure PlanLayout where
  /-- `getConnectedPeers(rank)`: the peers `rank` opens a connection to, in order. -/
  getConnectedPeers : Nat → List Nat
  /-- `getConnectedBufferTypes(rank)`: the buffer roles `rank` exchanges descriptors for. -/
  getConnectedBufferTypes : Nat → List BufferType
  /-- `getChannelInfosByDstRank(rank, bufferType)`: the channels whose destination is
  `rank`'s buffer of that role, each toward the peers that access it. -/
  getChannelInfosByDstRank : Nat → BufferType → List ChannelInfo
  /-- `getChannelInfos(rank, bufferType)`: `rank`'s channels toward its peers' buffers of
  that role, each toward the peers whose descriptor of that role `rank` needs. -/
  getChannelInfos : Nat → BufferType → List ChannelInfo
  /-- `getChannelInfos(rank, channelType)`: `rank`'s channels of that kind. -/
  getChannelInfosOfType : Nat → ChannelType → List ChannelInfo
  /-- `getUnpairedChannelInfos(rank, nranks, channelType)`: the channels of that kind
  toward `rank` that have no counterpart at `rank`. -/
  getUnpairedChannelInfos : Nat → Nat → ChannelType → List ChannelInfo
  /-- `getScratchBufferSize(rank, sendBufferSize, recvBufferSize)`. -/
  getScratchBufferSize : Nat → Nat → Nat → Nat
  /-- `getNThreadsPerBlock()`. -/
  getNThreadsPerBlock : Nat
  /-- `getThreadblockCount(rank)`. -/
  getThreadblockCount : Nat → Nat
  /-- `threadblockSMChannelMap`: for a rank, for each threadblock, the indices into
  the context's SM channels it uses (the channel keys beside them are not read). -/
  threadblockSMChannelMap : Nat → Option (List (List Nat))
  /-- `threadblockProxyChannelMap`, as `threadblockSMChannelMap` for proxy channels. -/
  threadblockProxyChannelMap : Nat → Option (List (List Nat))
  getChannelInfosOfType_channelType : ∀ rank channelType,
    ∀ info ∈ getChannelInfosOfType rank channelType, info.channelType = channelType
  getUnpairedChannelInfos_channelType : ∀ rank nranks channelType,
    ∀ info ∈ getUnpairedChannelInfos rank nranks channelType, info.channelType = channelType

/-- An `ExecutionPlan`: its `name`, its layout, and the per-threadblock operations
`getOperations(rank, threadblock)` returns after each reload path. -/
structure ExecutionPlan where
  name : String
  layout : PlanLayout
  /-- The operations after `reset()` and `loadExecutionPlan(args)`. -/
  loadExecutionPlan : LoadArgs → Nat → Nat → List Operation
  /-- The operations after `operationsReset()` and `lightLoadExecutionPlan(args)`. -/
  lightLoadExecutionPlan : LoadArgs → Nat → Nat → List Operation

/-- `ExecutionContextKey`: two calls share a context iff all five fields are equal. -/
structure ExecutionContextKey where
  sendBuff : Nat
  recvBuff : Nat
  sendBuffSize : Nat
  recvBuffSize : Nat
  plan : String
  deriving DecidableEq, Repr

end Mscclpp
