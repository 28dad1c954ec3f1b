import Mathlib.Data.Finset.Basic

/-!
# Transports, buffer roles and the locality policy

The vocabulary both halves of `communicator.cc` share: the transports a connection or a
registered memory can use, the buffer roles and channel kinds of an execution plan, the
descriptors exchanged during setup, and the failures the code raises.

## Main Definitions

* `Transport`, `TransportFlags` — `mscclpp::Transport` and its bitset.
* `BufferType`, `ChannelType`, `ChannelInfo` — what an execution plan names per rank.
* `RegisteredMemory` — the descriptor `Communicator::registerMemory` builds.
* `Failure` — `mscclpp::Error` with its `ErrorCode`, `std::out_of_range` from `.at()`,
  an out-of-bounds `operator[]`, which C++ leaves undefined, a broken promise, and a
  failed CUDA driver call.
* `inSameNode`, `IBs`, `ibTransport` — the locality test and the IB table of the
  anonymous namespace of the executor.

## Design Notes

Ranks are the bootstrap's `0 .. nranks - 1`, so they are `Nat`; the `int` of the source
never holds a negative rank.  The enums are declared in headers outside `src`; each is
modelled with the values the code names, plus the further value its `default:` or
trailing `else if` branch presupposes (`Transport.unknown`, `BufferType.none`,
`ChannelType.none`).

`IBs[rank % nranksPerNode]` indexes an eight-entry array with no bound check.  The model
reads it with `getElem?`: `none` is the read past the end, which C++ leaves undefined.
`ibs_index_past_end` exhibits such a read at a node width the bootstrap can report.
-/

namespace Mscclpp

/-! ## Transports -/

/-- `mscclpp::Transport`.  The eight IB transports `IB0 .. IB7` are `ib 0 .. ib 7`;
`unknown` stands for every value `connectOnSetup` rejects. -/
inductive Transport
  | unknown
  | cudaIpc
  | ib (index : Fin 8)
  deriving DecidableEq, Repr

/-- `AllIBTransports.has(transport)`. -/
def Transport.isIB : Transport → Bool
  | .ib _ => true
  | _ => false

/-- `TransportFlags`, a bitset over `Transport`, as the set of its bits. -/
abbrev TransportFlags := Finset Transport

/-! ## What an execution plan names -/

/-- `mscclpp::BufferType`: the role a buffer plays in a plan. -/
inductive BufferType
  | none
  | input
  | output
  | scratch
  deriving DecidableEq, Repr

/-- `mscclpp::ChannelType`. -/
inductive ChannelType
  | none
  | sm
  | proxy
  deriving DecidableEq, Repr

/-- `ChannelInfo`: one channel of a rank, from a source role to a destination role,
toward each of `connectedPeers`. -/
structure ChannelInfo where
  srcBufferType : BufferType
  dstBufferType : BufferType
  channelType : ChannelType
  connectedPeers : List Nat
  deriving DecidableEq, Repr

/-- `RegisteredMemory`: a region (base address `data`, `size` bytes) owned by `rank` and
reachable through `transports`. -/
structure RegisteredMemory where
  data : Nat
  size : Nat
  rank : Nat
  transports : TransportFlags
  deriving DecidableEq

/-- A default-constructed `RegisteredMemory`: no region, no transports. -/
def RegisteredMemory.empty : RegisteredMemory :=
  ⟨0, 0, 0, ∅⟩

/-! ## Failures -/

/-- The `mscclpp::ErrorCode`s this code raises, and `systemError`, which the bootstrap's
sockets raise inside a hook. -/
inductive ErrorCode
  | invalidUsage
  | internalError
  | executorError
  | systemError
  deriving DecidableEq, Repr

/-- How a call of the modelled code can fail. -/
inductive Failure
  /-- `throw mscclpp::Error(message, code)`. -/
  | error (message : String) (code : ErrorCode)
  /-- `std::out_of_range`, thrown by `.at()` on a missing key or index. -/
  | outOfRange
  /-- `operator[]` past the end of the array or vector named `access`: undefined in C++. -/
  | undefinedBehavior (access : String)
  /-- `std::future_error` (`broken_promise`): `get()` on a future whose promise was
  destroyed without a value. -/
  | brokenPromise
  /-- `mscclpp::CuError`, thrown by `MSCCLPP_CUTHROW` when a CUDA driver call fails. -/
  | cuError
  deriving DecidableEq, Repr

/-! ## Locality -/

/-- The `inSameNode` lambda: ranks are laid out node by node, `nranksPerNode` to a node. -/
def inSameNode (rank1 rank2 nranksPerNode : Nat) : Bool :=
  rank1 / nranksPerNode == rank2 / nranksPerNode

/-- The static `IBs` table: the IB transport of each local rank. -/
def IBs : List Transport :=
  [.ib 0, .ib 1, .ib 2, .ib 3, .ib 4, .ib 5, .ib 6, .ib 7]

@[simp] theorem IBs_length : IBs.length = 8 := rfl

/-- `IBs[rank % nranksPerNode]`, the read both `setupConnections` and `getTransportFlags`
make for a peer off the node; `none` is a read past the end of the table. -/
def ibTransport (nranksPerNode rank : Nat) : Option Transport :=
  IBs[rank % nranksPerNode]?

/-- The index the transport selection reads is not always in range: at nine ranks per
node, rank 8 and rank 9 sit on different nodes and rank 8 reads `IBs[8]`, past the end of
the eight-entry table. -/
theorem ibs_index_past_end :
    inSameNode 8 9 9 = false ∧ ¬ 8 % 9 < IBs.length ∧ ibTransport 9 8 = none := by
  decide

end Mscclpp
