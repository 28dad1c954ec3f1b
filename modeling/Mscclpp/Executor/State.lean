import Mscclpp.Communicator
import Mscclpp.Executor.Plan

/-!
# The executor's state and the calls it makes

The data `Executor::Impl` builds and keeps, and the operations on the communicator, the
bootstrap and the device that its functions call, each as a step of the monad `ExecM`.

## Main Definitions

* `ProxyService`, `Semaphore`, `SmChannel`, `ProxyChannel`, `DeviceExecutionPlan`,
  `ExecutionContext` — what a context holds.
* `Platform` — what the executor relies on from outside this repository's sources.
* `Platform.runHook` — the hooks of `MemorySender` and `MemoryReceiver`.
* `Executor` — `Executor::Impl` with the host state its calls change.
* `ExecM` — a computation that may throw and keeps the effects made before a throw.

## Design Notes

`std::unordered_map`s are association lists read with `List.lookup`; `m[k] = v` puts
`(k, v)` in front, where it shadows older entries.  Objects made by `make_shared` or
`allocExtSharedCuda` are told apart by the identity a single counter `fresh` hands out;
their sizes are not modelled.  A failed allocation is not modelled either.

`ProxyService` is outside the sources: `buildAndAddSemaphore` and `addMemory` append to the
service's vectors and return the new entry's index, as its `SemaphoreId` and `MemoryId`
are.  A semaphore constructor enqueues the semaphore's setup on the communicator; the
setup exchange itself belongs to `Platform.objectHook`.

`setups` is a ghost field: the queue of every `setup()` call the executor makes, in order,
kept for the cross-rank view of `Mscclpp.Executor.ColdRounds`.  No code reads it.
-/

namespace Mscclpp

/-! ## What a context holds -/

/-- A semaphore object (`SmDevice2DeviceSemaphore`, or a proxy service's
`Host2DeviceSemaphore`): the identity its setup was enqueued under, and its connection. -/
structure Semaphore where
  id : Nat
  conn : Connection
  deriving DecidableEq, Repr

/-- `SmChannel(semaphore, dst, src, nullptr)`. -/
structure SmChannel where
  semaphore : Semaphore
  dst : RegisteredMemory
  src : Nat
  deriving DecidableEq

/-- `SimpleProxyChannel(proxyService->proxyChannel(semaphore), dst, src)`: the service,
the `SemaphoreId`, and two `MemoryId`s of that service. -/
structure ProxyChannel where
  service : Nat
  semaphore : Nat
  dst : Nat
  src : Nat
  deriving DecidableEq, Repr

/-- A `ProxyService`: its identity, its semaphores and memories by index, and whether
`startProxy()` ran. -/
structure ProxyService where
  id : Nat
  semaphores : List Semaphore
  memories : List RegisteredMemory
  running : Bool
  deriving DecidableEq

namespace ProxyService

/-- `addMemory(memory)`: the new entry's `MemoryId`, and the service. -/
def addMemory (service : ProxyService) (memory : RegisteredMemory) : Nat × ProxyService :=
  (service.memories.length, { service with memories := service.memories ++ [memory] })

/-- `proxyChannel(semaphoreId)`, as the `SimpleProxyChannel` it starts. -/
def proxyChannel (service : ProxyService) (semaphore dst src : Nat) : ProxyChannel :=
  ⟨service.id, semaphore, dst, src⟩

end ProxyService

/-- `DeviceExecutionPlan`: one threadblock's record, with the device handles of its
channels in the order of the plan's threadblock channel maps. -/
structure DeviceExecutionPlan where
  nOperations : Nat
  nSmChannels : Nat
  nProxyChannels : Nat
  smChannels : List SmChannel
  proxyChannels : List ProxyChannel
  operations : List Operation
  deriving DecidableEq

/-- `ExecutionContext`. -/
structure ExecutionContext where
  proxyService : ProxyService
  connections : List (Nat × Connection)
  registeredMemories : List ((BufferType × Nat) × RegisteredMemory)
  smSemaphores : List Semaphore
  proxySemaphores : List Nat
  smChannels : List SmChannel
  proxyChannels : List ProxyChannel
  deviceExecutionPlans : List DeviceExecutionPlan
  scratchBuffer : Nat
  scratchBufferSize : Nat
  deviceExecutionPlansBuffer : Nat
  nthreadsPerBlock : Nat
  deriving DecidableEq

/-! ## Outside the sources -/

/-- What the executor relies on from outside this repository's sources, as one rank sees
it: the bootstrap's `send` and `recv` on a world `W`, the wire format of
`RegisteredMemory`, the setup hooks of connections and semaphores, the capacities and size
of `DeviceExecutionPlan`, and `cuMemGetAddressRange`. -/
structure Platform (W Bytes : Type) where
  /-- `bootstrap->send(data, peer, tag)`: the world after it, and whether it threw. -/
  send : Bytes → Nat → Int → W → W × Option Failure
  /-- `bootstrap->recv(data, peer, tag)`. -/
  recv : Nat → Int → W → W × Except Failure Bytes
  serialize : RegisteredMemory → Bytes
  deserialize : Bytes → RegisteredMemory
  /-- `beginSetup` and `endSetup` of a connection or a semaphore. -/
  objectHook : Hook → Setuppable → W → W × Option Failure
  /-- `MAX_CHANNEL`: the entries of each channel array of a `DeviceExecutionPlan`. -/
  maxChannel : Nat
  /-- `MAX_OPERATION`: the entries of its operation array. -/
  maxOperation : Nat
  /-- `sizeof(DeviceExecutionPlan)`. -/
  planBytes : Nat
  /-- `cuMemGetAddressRange(ptr)`: the base and size of the allocation holding `ptr`;
  `none` when the driver call fails. -/
  addressRange : Nat → Option (Nat × Nat)

variable {W Bytes : Type}

/-- The promises fulfilled so far, by the id of their `MemoryReceiver`. -/
abbrev Promises := List (Nat × RegisteredMemory)

/-- The hooks over the bootstrap world and the promises.  `MemorySender::beginSetup` sends
`memory_.serialize()`; `MemoryReceiver::endSetup` receives and sets its promise to
`RegisteredMemory::deserialize(data)`; their other hooks are the empty defaults of
`Setuppable`; connections and semaphores run their own. -/
def Platform.runHook (P : Platform W Bytes) :
    Hook → Setuppable → W × Promises → (W × Promises) × Option Failure
  | .beginSetup, .memorySender _ memory remoteRank tag, (w, ps) =>
    let r := P.send (P.serialize memory) remoteRank tag w
    ((r.1, ps), r.2)
  | .endSetup, .memoryReceiver id remoteRank tag, (w, ps) =>
    match P.recv remoteRank tag w with
    | (w', .ok data) => ((w', (id, P.deserialize data) :: ps), none)
    | (w', .error e) => ((w', ps), some e)
  | .endSetup, .memorySender .., x => (x, none)
  | .beginSetup, .memoryReceiver .., x => (x, none)
  | hook, s, (w, ps) =>
    let r := P.objectHook hook s w
    ((r.1, ps), r.2)

/-! ## The executor -/

/-- `Executor::Impl` with the host state its calls change: the communicator, the
bootstrap world, the promises of the communicator's receivers, the identity counter, and
the ghost log of `setup()` queues. -/
structure Executor (W : Type) where
  nranksPerNode : Nat
  nranks : Nat
  comm : Communicator
  contexts : List (ExecutionContextKey × ExecutionContext)
  world : W
  promises : Promises
  fresh : Nat
  setups : List (List Setuppable)

/-- A computation over a state `σ` that returns a value or throws.  A throw keeps the
effects made before it, as a C++ exception does. -/
def ExecM (σ α : Type) : Type := σ → Except Failure α × σ

namespace ExecM

variable {σ α β : Type}

instance : Monad (ExecM σ) where
  pure a := fun s => (.ok a, s)
  bind x f := fun s =>
    match x s with
    | (.ok a, s') => f a s'
    | (.error e, s') => (.error e, s')

instance : MonadExceptOf Failure (ExecM σ) where
  throw e := fun s => (.error e, s)
  tryCatch x handle := fun s =>
    match x s with
    | (.error e, s') => handle e s'
    | r => r

instance : MonadStateOf σ (ExecM σ) where
  get := fun s => (.ok s, s)
  set s := fun _ => (.ok (), s)
  modifyGet f := fun s => ((.ok (f s).1), (f s).2)

@[simp] theorem pure_apply (a : α) (s : σ) : (pure a : ExecM σ α) s = (.ok a, s) := rfl

@[simp] theorem bind_apply (x : ExecM σ α) (f : α → ExecM σ β) (s : σ) :
    (x >>= f) s = match x s with
      | (.ok a, s') => f a s'
      | (.error e, s') => (.error e, s') := rfl

@[simp] theorem throw_apply (e : Failure) (s : σ) :
    (throw e : ExecM σ α) s = (.error e, s) := rfl

@[simp] theorem get_apply (s : σ) : (get : ExecM σ σ) s = (.ok s, s) := rfl

@[simp] theorem modify_apply (f : σ → σ) (s : σ) :
    (modify f : ExecM σ Unit) s = (.ok (), f s) := rfl

@[simp] theorem map_apply (f : α → β) (x : ExecM σ α) (s : σ) :
    (f <$> x) s = match x s with
      | (.ok a, s') => (.ok (f a), s')
      | (.error e, s') => (.error e, s') := rfl

instance : LawfulMonad (ExecM σ) :=
  LawfulMonad.mk' (ExecM σ)
    (fun x => by funext s; rw [map_apply]; split <;> simp_all)
    (fun _ _ => rfl)
    (fun x f g => by
      funext s
      simp only [bind_apply]
      obtain ⟨r, s'⟩ := x s
      cases r <;> rfl)

/-- A computation of `Except`, run on the state without touching it. -/
def ofExcept (x : Except Failure α) : ExecM σ α := fun s => (x, s)

@[simp] theorem ofExcept_apply (x : Except Failure α) (s : σ) : ofExcept x s = (x, s) := rfl

/-- Run a computation on the first of two states. -/
def onFst {τ : Type} (x : ExecM σ α) : ExecM (σ × τ) α := fun s => ((x s.1).1, ((x s.1).2, s.2))

/-- Run a computation on the second of two states. -/
def onSnd {τ : Type} (x : ExecM τ α) : ExecM (σ × τ) α := fun s => ((x s.2).1, (s.1, (x s.2).2))

/-- **Bind inversion**: a sequence returned iff its first part did and the rest returned
from there. -/
theorem bind_eq_ok {x : ExecM σ α} {f : α → ExecM σ β} {s s'' : σ} {b : β} :
    (x >>= f) s = (.ok b, s'') ↔ ∃ a s', x s = (.ok a, s') ∧ f a s' = (.ok b, s'') := by
  rw [bind_apply]
  constructor
  · intro h
    split at h
    · exact ⟨_, _, ‹_›, h⟩
    · cases h
  · rintro ⟨a, s', hx, hf⟩
    rw [hx]; exact hf

/-- A throw of the first part is the throw of the sequence. -/
theorem bind_of_error {x : ExecM σ α} {f : α → ExecM σ β} {s s' : σ} {e : Failure}
    (hx : x s = (.error e, s')) : (x >>= f) s = (.error e, s') := by
  rw [bind_apply, hx]

end ExecM

/-! ## The calls the executor makes -/

namespace Executor

variable (P : Platform W Bytes)

/-- `allocExtSharedCuda` or `make_shared`: a fresh identity. -/
def allocate : ExecM (Executor W) Nat := fun e => (.ok e.fresh, { e with fresh := e.fresh + 1 })

/-- `comm->connectOnSetup(remoteRank, tag, transport)`. -/
def connectOnSetup (remoteRank : Nat) (tag : Int) (transport : Transport) :
    ExecM (Executor W) Connection := fun e =>
  match e.comm.connectOnSetup remoteRank tag transport with
  | .ok (conn, c) => (.ok conn, { e with comm := c })
  | .error err => (.error err, e)

/-- `comm->sendMemoryOnSetup(memory, remoteRank, tag)`. -/
def sendMemoryOnSetup (memory : RegisteredMemory) (remoteRank : Nat) (tag : Int) :
    ExecM (Executor W) Unit := fun e =>
  (.ok (), { e with comm := e.comm.sendMemoryOnSetup memory remoteRank tag })

/-- `comm->recvMemoryOnSetup(remoteRank, tag)`: the future, named by its receiver's id. -/
def recvMemoryOnSetup (remoteRank : Nat) (tag : Int) : ExecM (Executor W) Nat := fun e =>
  (.ok (e.comm.recvMemoryOnSetup remoteRank tag).1,
    { e with comm := (e.comm.recvMemoryOnSetup remoteRank tag).2 })

/-- The constructor of a semaphore of `kind` over `conn`
(`SmDevice2DeviceSemaphore(*comm, conn)` or `Host2DeviceSemaphore(comm, conn)`): it
enqueues the semaphore's setup under a fresh id. -/
def buildSemaphore (kind : ChannelType) (conn : Connection) : ExecM (Executor W) Semaphore :=
  fun e => (.ok ⟨e.comm.nextId, conn⟩,
    { e with comm := { e.comm.onSetup (.semaphore e.comm.nextId kind conn) with
      nextId := e.comm.nextId + 1 } })

/-- `comm->setup()`, over the hooks of `P`; the ghost log records the queue it ran. -/
def setup : ExecM (Executor W) Unit := fun e =>
  let call := e.comm.setup P.runHook (e.world, e.promises)
  let e' := { e with
    comm := call.comm
    world := call.world.1
    promises := call.world.2
    setups := e.setups ++ [e.comm.toSetup] }
  match call.failure with
  | some err => (.error err, e')
  | none => (.ok (), e')

/-- `future.get()` on the future of the receiver `id`. -/
def getFuture (id : Nat) : ExecM (Executor W) RegisteredMemory := fun e =>
  match e.promises.lookup id with
  | some memory => (.ok memory, e)
  | none => (.error .brokenPromise, e)

end Executor

/-- A platform whose bootstrap and hooks always return, each `recv` delivering nothing to
speak of: one rank's code run on its own, with no failure from outside the sources. -/
def Platform.quiet (maxChannel maxOperation planBytes : Nat) : Platform Unit Unit where
  send _ _ _ w := (w, none)
  recv _ _ w := (w, .ok ())
  serialize _ := ()
  deserialize _ := .empty
  objectHook _ _ w := (w, none)
  maxChannel := maxChannel
  maxOperation := maxOperation
  planBytes := planBytes
  addressRange ptr := some (ptr, 0)

end Mscclpp
