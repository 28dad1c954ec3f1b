import Mscclpp.Basic

/-!
# The Communicator and its setup queue

`Communicator` owns an ordered queue of pending `Setuppable`s.  `sendMemoryOnSetup`,
`recvMemoryOnSetup` and `connectOnSetup` each enqueue one; `setup()` calls `beginSetup` on
every queued object in order, then `endSetup` on every one in order, then clears the queue.

## Main Definitions

* `Connection`, `Setuppable` — the objects a queue holds, each with its identity `id`.
* `Communicator` — `Communicator::Impl`: rank, host hashes, queue, connections, IB contexts.
* `Communicator.connectOnSetup` and the other enqueueing operations.
* `Communicator.setup` — the two loops and the `clear()`, over a hook semantics `runHook`.
* `Communicator.runInvocations` — what a `setup()` call is for: the flat loop over
  `hooksOf` its queue, stopping at the first hook that throws.
* `QueueEvent`, `QueueDiscipline` — what each operation of a run did to the queue, and the
  discipline a run keeps.

## Main results

* `setup_spec` — a `setup()` call invokes a prefix of `hooksOf` its queue, empties the queue
  if it returns and leaves it if it throws.
* `setup_eq_runInvocations` — its two loops make exactly the invocations of the flat loop,
  and it throws exactly when that loop does; `setup_of_hooks_return` — so when no hook
  throws it returns, having invoked all of `hooksOf` its queue.
* `runOps_queueDiscipline` — over every run, every `setup()` call processes what completed
  operations enqueued since the last call that returned, stopping at the first hook that
  throws; when no hook throws, each call processes its whole queue.

## Design Notes

What a hook does is not this file's concern: `setup` is parametric in
`runHook : Hook → Setuppable → W → W × Option Failure`, the effect of one invocation on an
outside world `W` (the bootstrap) and whether it throws.  An arbitrary `runHook` is every
pattern of failing hooks; `Mscclpp.SetupRounds` supplies the one the bootstrap gives.

`setup` returns the list of hook invocations it made, in order.  A hook that throws
propagates out of the loop, so `toSetup_.clear()` never runs and the queue is left as it
was (`setup_spec`).
-/

namespace Mscclpp

/-- A connection object (`CudaIpcConnection` or `IBConnection`); `id` is its identity. -/
structure Connection where
  id : Nat
  remoteRank : Nat
  tag : Int
  transport : Transport
  deriving DecidableEq, Repr

/-- The objects a setup queue holds.  `memorySender` and `memoryReceiver` are the
`MemorySender` and `MemoryReceiver` of this file, `connection` a connection's own setup.
`semaphore` is the setup of a semaphore object (`SmDevice2DeviceSemaphore`, or the
`Host2DeviceSemaphore` of `ProxyService::buildAndAddSemaphore`) built over `conn`. -/
inductive Setuppable
  | memorySender (id : Nat) (memory : RegisteredMemory) (remoteRank : Nat) (tag : Int)
  | memoryReceiver (id : Nat) (remoteRank : Nat) (tag : Int)
  | connection (conn : Connection)
  | semaphore (id : Nat) (kind : ChannelType) (conn : Connection)
  deriving DecidableEq

/-- The identity of the object. -/
def Setuppable.id : Setuppable → Nat
  | .memorySender id .. => id
  | .memoryReceiver id .. => id
  | .connection conn => conn.id
  | .semaphore id .. => id

/-- The two lifecycle hooks. -/
inductive Hook
  | beginSetup
  | endSetup
  deriving DecidableEq, Repr

/-- `Communicator::Impl`.  `rankToHash` is the all-gathered host hash of every rank;
`nextId` numbers the objects the communicator creates. -/
structure Communicator where
  rank : Nat
  rankToHash : List UInt64
  toSetup : List Setuppable
  connections : List Connection
  ibContexts : List Transport
  nextId : Nat
  /-- The rank's own slot of the all-gathered table exists. -/
  rank_lt : rank < rankToHash.length

namespace Communicator

/-- `Communicator::registerMemory`: a purely local descriptor. -/
def registerMemory (c : Communicator) (ptr size : Nat) (transports : TransportFlags) :
    RegisteredMemory :=
  ⟨ptr, size, c.rank, transports⟩

/-- `Communicator::onSetup`. -/
def onSetup (c : Communicator) (setuppable : Setuppable) : Communicator :=
  { c with toSetup := c.toSetup ++ [setuppable] }

/-- `Communicator::sendMemoryOnSetup`: enqueue a fresh `MemorySender`. -/
def sendMemoryOnSetup (c : Communicator) (memory : RegisteredMemory) (remoteRank : Nat)
    (tag : Int) : Communicator :=
  { c.onSetup (.memorySender c.nextId memory remoteRank tag) with nextId := c.nextId + 1 }

/-- `Communicator::recvMemoryOnSetup`: enqueue a fresh `MemoryReceiver`; the future it
returns is named by the receiver's id. -/
def recvMemoryOnSetup (c : Communicator) (remoteRank : Nat) (tag : Int) : Nat × Communicator :=
  (c.nextId, { c.onSetup (.memoryReceiver c.nextId remoteRank tag) with nextId := c.nextId + 1 })

/-- `Communicator::Impl::getIbContext`: create the IB context of `ibTransport` on first use. -/
def getIbContext (c : Communicator) (ibTransport : Transport) : Communicator :=
  if ibTransport ∈ c.ibContexts then c else { c with ibContexts := c.ibContexts ++ [ibTransport] }

/-- Lower-case hexadecimal, as `std::hex` prints. -/
def hexString (n : Nat) : String :=
  String.mk (Nat.toDigits 16 n)

/-- The message of the cross-node `CudaIpc` check.  The stream prints the caller's hash on
both sides, and `std::hex` stays set for the caller's rank. -/
def cudaIpcAcrossNodesMessage (remoteRank rank : Nat) (hash : UInt64) : String :=
  "Cuda IPC connection can only be made within a node: " ++ toString remoteRank ++ "(" ++
    hexString hash.toNat ++ ")" ++ " != " ++ hexString rank ++ "(" ++ hexString hash.toNat ++ ")"

/-- `Communicator::connectOnSetup`.  `rankToHash_[remoteRank]` past the end of the table
is undefined. -/
def connectOnSetup (c : Communicator) (remoteRank : Nat) (tag : Int) (transport : Transport) :
    Except Failure (Connection × Communicator) := do
  let hash := c.rankToHash.get ⟨c.rank, c.rank_lt⟩
  let c' ←
    if transport = .cudaIpc then
      match c.rankToHash[remoteRank]? with
      | none => throw (.undefinedBehavior "rankToHash_")
      | some remoteHash =>
        if remoteHash ≠ hash then
          throw (.error (cudaIpcAcrossNodesMessage remoteRank c.rank hash) .invalidUsage)
        else pure c
    else if transport.isIB then pure (c.getIbContext transport)
    else throw (.error "Unsupported transport" .internalError)
  let conn : Connection := ⟨c'.nextId, remoteRank, tag, transport⟩
  pure (conn, { c'.onSetup (.connection conn) with
    connections := c'.connections ++ [conn], nextId := c'.nextId + 1 })

/-! ## `setup()` -/

section Setup

variable {W : Type} (runHook : Hook → Setuppable → W → W × Option Failure)

/-- One loop of `setup()`: `hook` on each object in order, until one throws.  Returns the
objects whose hook was invoked (the throwing one included), the world after them, and the
failure, if any. -/
def runHooks (hook : Hook) : List Setuppable → W → List Setuppable × W × Option Failure
  | [], w => ([], w, none)
  | s :: rest, w =>
    match runHook hook s w with
    | (w', some e) => ([s], w', some e)
    | (w', none) =>
      let r := runHooks hook rest w'
      (s :: r.1, r.2.1, r.2.2)

/-- The outcome of one `setup()` call: the hook invocations in order, the communicator and
the world after it, and the failure it propagated, if any. -/
structure SetupCall (W : Type) where
  invoked : List (Hook × Setuppable)
  comm : Communicator
  world : W
  failure : Option Failure

/-- `Communicator::setup`. -/
def setup (c : Communicator) (w : W) : SetupCall W :=
  let b := runHooks runHook .beginSetup c.toSetup w
  let begun := b.1.map (Hook.beginSetup, ·)
  match b.2.2 with
  | some e => ⟨begun, c, b.2.1, some e⟩
  | none =>
    let e := runHooks runHook .endSetup c.toSetup b.2.1
    let invoked := begun ++ e.1.map (Hook.endSetup, ·)
    match e.2.2 with
    | some err => ⟨invoked, c, e.2.1, some err⟩
    | none => ⟨invoked, { c with toSetup := [] }, e.2.1, none⟩

/-- The specification of a `setup()` call, one flat loop: the invocations of `invocations`
in order, each from the world the one before left, stopping at the first that throws.
Returns the invocations made (the throwing one included), the world after them, and the
failure, if any. -/
def runInvocations : List (Hook × Setuppable) → W → List (Hook × Setuppable) × W × Option Failure
  | [], w => ([], w, none)
  | i :: rest, w =>
    match runHook i.1 i.2 w with
    | (w', some e) => ([i], w', some e)
    | (w', none) =>
      let r := runInvocations rest w'
      (i :: r.1, r.2.1, r.2.2)

end Setup

/-- The invocations a `setup()` call over `queue` makes when no hook throws: `beginSetup`
on each object in order, then `endSetup` on each in order. -/
def hooksOf (queue : List Setuppable) : List (Hook × Setuppable) :=
  queue.map (Hook.beginSetup, ·) ++ queue.map (Hook.endSetup, ·)

section SetupLemmas

variable {W : Type} (runHook : Hook → Setuppable → W → W × Option Failure)

theorem isPrefix_runHooks (hook : Hook) (queue : List Setuppable) (w : W) :
    (runHooks runHook hook queue w).1 <+: queue := by
  induction queue generalizing w with
  | nil => exact List.prefix_refl _
  | cons s rest ih =>
    simp only [runHooks]
    split
    · exact List.prefix_cons_inj s |>.mpr List.nil_prefix
    · exact List.prefix_cons_inj s |>.mpr (ih _)

/-- A loop that propagated nothing ran its hook on every object. -/
theorem runHooks_of_none (hook : Hook) (queue : List Setuppable) (w : W)
    (h : (runHooks runHook hook queue w).2.2 = none) :
    (runHooks runHook hook queue w).1 = queue := by
  induction queue generalizing w with
  | nil => rfl
  | cons s rest ih =>
    simp only [runHooks] at h ⊢
    split at h
    · simp_all
    · simp_all

/-- **Every `setup()` call** invokes a prefix of `hooksOf` its queue; if it returns, it
invokes all of it and empties the queue; if it throws, the queue is left as it was. -/
theorem setup_spec (c : Communicator) (w : W) :
    (c.setup runHook w).invoked <+: hooksOf c.toSetup ∧
      ((c.setup runHook w).failure = none →
        (c.setup runHook w).invoked = hooksOf c.toSetup ∧
          (c.setup runHook w).comm = { c with toSetup := [] }) ∧
      ((c.setup runHook w).failure ≠ none → (c.setup runHook w).comm = c) := by
  have hb := isPrefix_runHooks runHook .beginSetup c.toSetup w
  simp only [setup, hooksOf]
  split
  · exact ⟨(hb.map _).trans (List.prefix_append _ _), by simp, fun _ => rfl⟩
  · rename_i hnone
    have he := isPrefix_runHooks runHook .endSetup c.toSetup
      (runHooks runHook .beginSetup c.toSetup w).2.1
    rw [runHooks_of_none runHook _ _ _ hnone]
    split
    · exact ⟨(List.prefix_append_right_inj _).mpr (he.map _), by simp, fun _ => rfl⟩
    · rename_i hnone2
      rw [runHooks_of_none runHook _ _ _ hnone2]
      exact ⟨List.prefix_refl _, fun _ => ⟨rfl, rfl⟩, fun h => absurd rfl h⟩

/-- One loop of `setup()` is the flat loop over its invocations. -/
theorem runInvocations_map (hook : Hook) (queue : List Setuppable) (w : W) :
    runInvocations runHook (queue.map (hook, ·)) w =
      ((runHooks runHook hook queue w).1.map (hook, ·), (runHooks runHook hook queue w).2) := by
  induction queue generalizing w with
  | nil => rfl
  | cons s rest ih =>
    simp only [List.map_cons, runInvocations, runHooks]
    split <;> simp [ih]

/-- The flat loop over two lists runs the second from where the first left, unless the
first threw. -/
theorem runInvocations_append (l₁ l₂ : List (Hook × Setuppable)) (w : W) :
    runInvocations runHook (l₁ ++ l₂) w =
      match runInvocations runHook l₁ w with
      | (inv, w', some e) => (inv, w', some e)
      | (inv, w', none) =>
        ((inv ++ (runInvocations runHook l₂ w').1), (runInvocations runHook l₂ w').2) := by
  induction l₁ generalizing w with
  | nil => rfl
  | cons i rest ih =>
    rw [List.cons_append]
    simp only [runInvocations]
    split
    · rfl
    · rw [ih]
      rcases runInvocations runHook rest _ with ⟨inv, w', _ | e⟩ <;> rfl

/-- **`setup()` refines its specification**: its two loops make the invocations of the flat
loop over `hooksOf` its queue, stopping at the first hook that throws, and it throws exactly
when that loop does. -/
theorem setup_eq_runInvocations (c : Communicator) (w : W) :
    (c.setup runHook w).invoked = (runInvocations runHook (hooksOf c.toSetup) w).1 ∧
      (c.setup runHook w).world = (runInvocations runHook (hooksOf c.toSetup) w).2.1 ∧
      (c.setup runHook w).failure = (runInvocations runHook (hooksOf c.toSetup) w).2.2 := by
  simp only [hooksOf, runInvocations_append, runInvocations_map, setup]
  rcases runHooks runHook .beginSetup c.toSetup w with ⟨inv, w₁, _ | e⟩
  · simp only [runInvocations_map]
    rcases runHooks runHook .endSetup c.toSetup w₁ with ⟨inv', w₂, _ | e'⟩ <;> exact ⟨rfl, rfl, rfl⟩
  · exact ⟨rfl, rfl, rfl⟩

/-- When no hook throws, the flat loop makes every invocation and returns. -/
theorem runInvocations_of_none (hret : ∀ h s w, (runHook h s w).2 = none)
    (invocations : List (Hook × Setuppable)) (w : W) :
    (runInvocations runHook invocations w).1 = invocations ∧
      (runInvocations runHook invocations w).2.2 = none := by
  induction invocations generalizing w with
  | nil => exact ⟨rfl, rfl⟩
  | cons i rest ih =>
    simp only [runInvocations]
    split
    · rename_i w' e h
      exact absurd (congrArg Prod.snd h) (by simp [hret])
    · exact ⟨congrArg _ (ih _).1, (ih _).2⟩

/-- **A `setup()` call whose hooks all return returns**, having invoked `beginSetup` on
every queued object and then `endSetup` on every one, and empties the queue. -/
theorem setup_of_hooks_return (hret : ∀ h s w, (runHook h s w).2 = none) (c : Communicator)
    (w : W) :
    (c.setup runHook w).failure = none ∧ (c.setup runHook w).invoked = hooksOf c.toSetup ∧
      (c.setup runHook w).comm = { c with toSetup := [] } := by
  obtain ⟨hinv, -, hfail⟩ := setup_eq_runInvocations runHook c w
  obtain ⟨hall, hnone⟩ := runInvocations_of_none runHook hret (hooksOf c.toSetup) w
  have hok : (c.setup runHook w).failure = none := hfail.trans hnone
  exact ⟨hok, hinv.trans hall, ((setup_spec runHook c w).2.1 hok).2⟩

end SetupLemmas

end Communicator

/-! ## Runs of Communicator operations -/

/-- The operations of a run: the public enqueueing calls and `setup()`.  `onSetup` takes
any object, as the public method does. -/
inductive CommOp
  | sendMemoryOnSetup (memory : RegisteredMemory) (remoteRank : Nat) (tag : Int)
  | recvMemoryOnSetup (remoteRank : Nat) (tag : Int)
  | connectOnSetup (remoteRank : Nat) (tag : Int) (transport : Transport)
  | onSetup (setuppable : Setuppable)
  | setup

/-- What one operation did, as far as the queue is concerned. -/
inductive QueueEvent (W : Type)
  /-- The operation enqueued `setuppable` and returned. -/
  | enqueued (setuppable : Setuppable)
  /-- The operation threw before enqueuing anything. -/
  | threw
  /-- A `setup()` call: the world it started from, its hook invocations, and whether it
  returned normally. -/
  | setupCall (before : W) (invoked : List (Hook × Setuppable)) (returned : Bool)

namespace QueueEvent

variable {W : Type}

/-- The hook invocations an event made. -/
def invoked : QueueEvent W → List (Hook × Setuppable)
  | .setupCall _ invoked _ => invoked
  | _ => []

/-- What the queue holds after the event, if it held `pending` before. -/
def pendingAfter (pending : List Setuppable) : QueueEvent W → List Setuppable
  | .enqueued s => pending ++ [s]
  | .threw => pending
  | .setupCall _ _ returned => if returned then [] else pending

/-- The discipline one event keeps, for hooks that behave as `runHook`: a `setup()` call over
`pending` makes the invocations of `hooksOf pending`, in order, from the world it started
from, up to and including the first that throws, and returns iff none of them threw. -/
def Respects (runHook : Hook → Setuppable → W → W × Option Failure) (pending : List Setuppable) :
    QueueEvent W → Prop
  | .setupCall before invoked returned =>
    invoked = (Communicator.runInvocations runHook (Communicator.hooksOf pending) before).1 ∧
      returned = (Communicator.runInvocations runHook (Communicator.hooksOf pending) before).2.2.isNone
  | _ => True

/-- What a `setup()` call over `pending` does when no hook throws: it invokes all of
`hooksOf pending` and returns. -/
def Processes (pending : List Setuppable) : QueueEvent W → Prop
  | .setupCall _ invoked returned => invoked = Communicator.hooksOf pending ∧ returned = true
  | _ => True

/-- When no hook throws, an event that respects the discipline processes its whole queue. -/
theorem Respects.processes {runHook : Hook → Setuppable → W → W × Option Failure}
    (hret : ∀ h s w, (runHook h s w).2 = none) {pending : List Setuppable} {e : QueueEvent W}
    (h : e.Respects runHook pending) : e.Processes pending := by
  cases e with
  | setupCall before invoked returned =>
    obtain ⟨hall, hnone⟩ := Communicator.runInvocations_of_none runHook hret
      (Communicator.hooksOf pending) before
    exact ⟨h.1.trans hall, by rw [h.2, hnone]; rfl⟩
  | _ => trivial

end QueueEvent

/-- **The queue discipline** `R` of a whole run: starting from `pending`, every event keeps
`R` toward what is pending at its time. -/
def QueueDiscipline {W : Type} (R : List Setuppable → QueueEvent W → Prop) :
    List Setuppable → List (QueueEvent W) → Prop
  | _, [] => True
  | pending, e :: rest => R pending e ∧ QueueDiscipline R (e.pendingAfter pending) rest

theorem QueueDiscipline.mono {W : Type} {R₁ R₂ : List Setuppable → QueueEvent W → Prop}
    (hR : ∀ pending e, R₁ pending e → R₂ pending e) :
    ∀ {pending : List Setuppable} {events : List (QueueEvent W)},
      QueueDiscipline R₁ pending events → QueueDiscipline R₂ pending events
  | _, [], _ => trivial
  | _, _ :: _, ⟨he, hrest⟩ => ⟨hR _ _ he, QueueDiscipline.mono hR hrest⟩

section Runs

variable {W : Type} (runHook : Hook → Setuppable → W → W × Option Failure)

/-- One operation of a run, on the communicator and the world its hooks act on. -/
def CommOp.run : CommOp → Communicator × W → (Communicator × W) × QueueEvent W
  | .sendMemoryOnSetup memory remoteRank tag, (c, w) =>
    ((c.sendMemoryOnSetup memory remoteRank tag, w),
      .enqueued (.memorySender c.nextId memory remoteRank tag))
  | .recvMemoryOnSetup remoteRank tag, (c, w) =>
    (((c.recvMemoryOnSetup remoteRank tag).2, w),
      .enqueued (.memoryReceiver c.nextId remoteRank tag))
  | .connectOnSetup remoteRank tag transport, (c, w) =>
    match c.connectOnSetup remoteRank tag transport with
    | .ok (conn, c') => ((c', w), .enqueued (.connection conn))
    | .error _ => ((c, w), .threw)
  | .onSetup s, (c, w) => ((c.onSetup s, w), .enqueued s)
  | .setup, (c, w) =>
    let r := c.setup runHook w
    ((r.comm, r.world), .setupCall w r.invoked r.failure.isNone)

/-- A run: the operations in order, with the event of each. -/
def runOps : List CommOp → Communicator × W → (Communicator × W) × List (QueueEvent W)
  | [], cw => (cw, [])
  | op :: ops, cw =>
    let r := op.run runHook cw
    let rest := runOps ops r.1
    (rest.1, r.2 :: rest.2)

/-- **What a returning `connectOnSetup` does**: a connection to `remoteRank` on `tag` over
`transport`, with its setup enqueued; the communicator's rank is unchanged. -/
theorem Communicator.connectOnSetup_ok {c c' : Communicator} {remoteRank : Nat} {tag : Int}
    {transport : Transport} {conn : Connection}
    (h : c.connectOnSetup remoteRank tag transport = .ok (conn, c')) :
    conn.remoteRank = remoteRank ∧ conn.tag = tag ∧ conn.transport = transport ∧
      c'.rank = c.rank ∧ c'.toSetup = c.toSetup ++ [.connection conn] := by
  simp only [Communicator.connectOnSetup, bind, Except.bind, pure, Except.pure] at h
  split at h
  · split at h
    · cases h
    · split at h <;> cases h; exact ⟨rfl, rfl, rfl, rfl, rfl⟩
  · split at h <;> cases h
    · refine ⟨rfl, rfl, rfl, ?_, ?_⟩ <;> simp only [Communicator.onSetup, Communicator.getIbContext] <;>
        split <;> rfl

/-- **Step lemma.** Each operation respects the discipline, and leaves in the queue what
the discipline says is pending. -/
theorem CommOp.run_respects (op : CommOp) (c : Communicator) (w : W) :
    (op.run runHook (c, w)).2.Respects runHook c.toSetup ∧
      (op.run runHook (c, w)).1.1.toSetup = (op.run runHook (c, w)).2.pendingAfter c.toSetup := by
  cases op with
  | connectOnSetup remoteRank tag transport =>
    simp only [CommOp.run]
    split
    · rename_i h; exact ⟨trivial, (Communicator.connectOnSetup_ok h).2.2.2.2⟩
    · exact ⟨trivial, rfl⟩
  | setup =>
    obtain ⟨hinv, -, hfail⟩ := Communicator.setup_eq_runInvocations runHook c w
    obtain ⟨-, hok, herr⟩ := Communicator.setup_spec runHook c w
    refine ⟨⟨hinv, by rw [hfail]⟩, ?_⟩
    simp only [CommOp.run, QueueEvent.pendingAfter]
    cases hf : (c.setup runHook w).failure with
    | none => simp [hok hf]
    | some e => simp [herr (by simp [hf])]
  | _ => exact ⟨trivial, rfl⟩

/-- **Run lemma**: every run respects the discipline. -/
theorem runOps_respects (ops : List CommOp) (c : Communicator) (w : W) :
    QueueDiscipline (QueueEvent.Respects runHook) c.toSetup (runOps runHook ops (c, w)).2 := by
  induction ops generalizing c w with
  | nil => trivial
  | cons op ops ih =>
    obtain ⟨hresp, hq⟩ := CommOp.run_respects runHook op c w
    refine ⟨hresp, ?_⟩
    rw [← hq]
    exact ih _ _

/-- **The Communicator keeps the queue discipline over every run**, whatever its hooks do:
every `setup()` call invokes hooks only on what completed operations enqueued since the
last call that returned, `beginSetup` on each in order and then `endSetup` on each in
order, stopping at the first hook that throws, and it returns iff no hook it invoked threw;
a call that returns empties the queue, one that throws leaves it as it was.  When no hook
throws, every `setup()` call processes its whole queue and returns. -/
theorem runOps_queueDiscipline (ops : List CommOp) (c : Communicator) (w : W) :
    QueueDiscipline (QueueEvent.Respects runHook) c.toSetup (runOps runHook ops (c, w)).2 ∧
      ((∀ h s w', (runHook h s w').2 = none) →
        QueueDiscipline QueueEvent.Processes c.toSetup (runOps runHook ops (c, w)).2) :=
  ⟨runOps_respects runHook ops c w, fun hret =>
    (runOps_respects runHook ops c w).mono fun _ _ => QueueEvent.Respects.processes hret⟩

end Runs

/-- A bootstrap whose first `recv` in a `MemoryReceiver`'s `endSetup` fails, as it does
when the peer's socket closes; every other hook succeeds. -/
def failFirstReceive : Hook → Setuppable → Bool → Bool × Option Failure
  | .endSetup, .memoryReceiver .., false => (true, some (.error "recv failed" .systemError))
  | _, _, failed => (failed, none)

/-- A communicator of rank 0 in a one-rank world, with nothing queued. -/
def freshCommunicator : Communicator :=
  ⟨0, [0], [], [], [], 0, by decide⟩

/-- Retrying `setup()` after a hook threw runs the hooks of the first call again: the
sender's `beginSetup` is invoked twice, so its descriptor is sent twice. -/
theorem setup_retry_reinvokes_beginSetup :
    ((runOps failFirstReceive
        [.sendMemoryOnSetup ⟨0, 0, 0, ∅⟩ 1 0, .recvMemoryOnSetup 1 0, .setup, .setup]
        (freshCommunicator, false)).2.flatMap QueueEvent.invoked).count
      (.beginSetup, .memorySender 0 ⟨0, 0, 0, ∅⟩ 1 0) = 2 := by
  decide

end Mscclpp
