import Mscclpp.Executor.Setup

/-!
# Launching the kernel

`Executor::Impl::launchKernel` and `Executor::execute`.  Every launch passes the kernel a
flag taken from one counter, `static uint32_t flag` of `launchKernel`, which all executors
and contexts of a process share: `++flag` increments it before each launch, and it wraps
to `0` after `2 ^ 32` of them.

## Main Definitions

* `PacketType`, `KernelLaunch`, `Process` — the launches of a process and its counter.
* `launchKernel`, `execute`.
* `runLaunches` — a run of `launchKernel` calls in one process.

## Main results

* `launchKernel_flagsCount`, `runLaunches_flagsCount` — the `k`-th launch of a process
  passes `(k + 1) % 2 ^ 32`, one call and then a whole run at a time.
* `runLaunches_flag_eq_iff` — the launch at position `i` passes `(i + 1) % 2 ^ 32`: two
  launches pass the same flag iff their positions are congruent modulo `2 ^ 32`, and a launch
  passes `0` iff it is a `2 ^ 32`-th one.

## Design Notes

The source has a second branch under `ENABLE_NPKIT`, a compile-time option that adds an
instrumentation check and enlarges the shared memory; the model is the default build.
The data type and the stream are opaque handles, kept as numbers.
-/

namespace Mscclpp

/-- `mscclpp::PacketType`: the two packet encodings `launchKernel` dispatches on, and any
other value, which its `default:` rejects. -/
inductive PacketType
  | ll16
  | ll8
  | unknown
  deriving DecidableEq, Repr

/-- One call of `ExecutionKernel::launchKernel<Packet>`, with its arguments. -/
structure KernelLaunch where
  packetType : PacketType
  rank : Nat
  nthreadblocks : Nat
  nthreadsPerBlock : Nat
  sendbuff : Nat
  recvbuff : Nat
  scratchBuffer : Nat
  scratchBufferSize : Nat
  dataType : Nat
  deviceExecutionPlans : Nat
  sharedMemSize : Nat
  stream : Nat
  flag : UInt32
  deriving DecidableEq

/-- What `launchKernel` changes in the process: its counter, and the kernels launched so
far, oldest first. -/
structure Process where
  flag : UInt32
  launches : List KernelLaunch

/-- A process before its first launch: `static uint32_t flag = 0`. -/
def Process.init : Process := ⟨0, []⟩

/-- `ExecutionKernel::launchKernel<Packet>(..., ++flag)`: increment the counter, then
launch with its new value. -/
def Process.launch (s : Process) (launch : UInt32 → KernelLaunch) : Process :=
  ⟨s.flag + 1, s.launches ++ [launch (s.flag + 1)]⟩

variable {W Bytes : Type} (P : Platform W Bytes)

/-- `Executor::Impl::launchKernel`: one thread block per device plan, on the context's
scratch buffer and serialized plan. -/
def launchKernel (context : ExecutionContext) (rank sendbuff recvbuff dataType stream : Nat)
    (packetType : PacketType) : ExecM Process Unit :=
  let kernel (packet : PacketType) (flag : UInt32) : KernelLaunch :=
    ⟨packet, rank, context.deviceExecutionPlans.length, context.nthreadsPerBlock, sendbuff,
      recvbuff, context.scratchBuffer, context.scratchBufferSize, dataType,
      context.deviceExecutionPlansBuffer, P.planBytes, stream, flag⟩
  match packetType with
  | .ll16 => modify (·.launch (kernel .ll16))
  | .ll8 => modify (·.launch (kernel .ll8))
  | .unknown => throw (.error "Invalid packet type" .executorError)

/-- `Executor::execute`: find the allocations holding the two buffers, build or reuse the
context for their bases (the offsets of the buffers in them go to the plan), and launch on
the caller's own pointers. -/
def execute (rank sendbuff recvbuff sendBuffSize recvBuffSize dataType : Nat)
    (plan : ExecutionPlan) (stream : Nat) (packetType : PacketType) :
    ExecM (Executor W × Process) Unit := do
  let some (sendBasePtr, sendBytes) := P.addressRange sendbuff | throw .cuError
  let some (recvBasePtr, recvBytes) := P.addressRange recvbuff | throw .cuError
  let context ← ExecM.onFst (setupExecutionContext P rank sendBasePtr recvBasePtr
    ⟨sendBuffSize, recvBuffSize, sendbuff - sendBasePtr, recvbuff - recvBasePtr⟩
    sendBytes recvBytes plan)
  ExecM.onSnd (launchKernel P context rank sendbuff recvbuff dataType stream packetType)

/-! ## The launch counter -/

/-- The arguments of one `launchKernel` call. -/
structure LaunchCall where
  context : ExecutionContext
  rank : Nat
  sendbuff : Nat
  recvbuff : Nat
  dataType : Nat
  stream : Nat
  packetType : PacketType

/-- A run of `launchKernel` calls in one process, by any executors on any contexts; a call
that throws launches nothing, and the run goes on with its caller's next call. -/
def runLaunches (calls : List LaunchCall) (s : Process) : Process :=
  calls.foldl (fun s c =>
    (launchKernel P c.context c.rank c.sendbuff c.recvbuff c.dataType c.stream c.packetType s).2) s

/-- The counter has counted the launches, modulo `2 ^ 32`, and the `k`-th launch passed
`(k + 1) % 2 ^ 32`. -/
def FlagsCount (s : Process) : Prop :=
  s.flag.toNat = s.launches.length % 2 ^ 32 ∧
    s.launches.map (fun l => l.flag.toNat) =
      (List.range s.launches.length).map fun k => (k + 1) % 2 ^ 32

theorem flagsCount_init : FlagsCount Process.init := ⟨rfl, rfl⟩

theorem flagsCount_launch {s : Process} (h : FlagsCount s) (launch : UInt32 → KernelLaunch)
    (hflag : ∀ f, (launch f).flag = f) : FlagsCount (s.launch launch) := by
  have hinc : (s.flag + 1).toNat = (s.launches.length + 1) % 2 ^ 32 := by
    rw [show (s.flag + 1).toNat = (s.flag.toNat + 1) % 2 ^ 32 from BitVec.toNat_add _ _, h.1]
    exact Nat.mod_add_mod _ _ _
  refine ⟨by simpa [Process.launch] using hinc, ?_⟩
  simp [Process.launch, List.range_succ, h.2, hflag, hinc]

/-- **Step lemma**: one `launchKernel` call keeps the count. -/
theorem launchKernel_flagsCount {s : Process} (h : FlagsCount s) (context : ExecutionContext)
    (rank sendbuff recvbuff dataType stream : Nat) (packetType : PacketType) :
    FlagsCount (launchKernel P context rank sendbuff recvbuff dataType stream packetType s).2 := by
  cases packetType
  · exact flagsCount_launch h _ fun _ => rfl
  · exact flagsCount_launch h _ fun _ => rfl
  · exact h

/-- **Run lemma**: a run of launches keeps the count. -/
theorem runLaunches_flagsCount (calls : List LaunchCall) {s : Process} (h : FlagsCount s) :
    FlagsCount (runLaunches P calls s) := by
  induction calls generalizing s with
  | nil => exact h
  | cons c calls ih => exact ih (launchKernel_flagsCount P h _ _ _ _ _ _ _)

/-- The flag of the `k`-th launch of a run from a fresh process. -/
theorem runLaunches_flag_toNat {calls : List LaunchCall} {k : Nat} {l : KernelLaunch}
    (hl : (runLaunches P calls Process.init).launches[k]? = some l) :
    l.flag.toNat = (k + 1) % 2 ^ 32 := by
  have h := congrArg (·[k]?) (runLaunches_flagsCount P calls flagsCount_init).2
  have hk : k < (runLaunches P calls Process.init).launches.length :=
    (List.getElem?_eq_some_iff.mp hl).1
  simpa [hl, List.getElem?_range hk] using h

/-- A run launches once per call with a packet type `launchKernel` accepts. -/
theorem length_runLaunches (calls : List LaunchCall) (s : Process) :
    (runLaunches P calls s).launches.length =
      s.launches.length + (calls.filter (·.packetType ≠ .unknown)).length := by
  induction calls generalizing s with
  | nil => rfl
  | cons c calls ih =>
    rw [runLaunches, List.foldl_cons, ← runLaunches, ih]
    cases h : c.packetType <;>
      simp [h, launchKernel, Process.launch, List.filter_cons, Nat.add_assoc, Nat.add_comm 1]

/-- An empty context, as a launch of an executor that built nothing sees it. -/
def ExecutionContext.empty : ExecutionContext :=
  ⟨⟨0, [], [], false⟩, [], [], [], [], [], [], [], 0, 0, 0, 0⟩

/-- **The flags of a process count its launches modulo `2 ^ 32`.**  Over every run of
`launchKernel` calls in a process, the launch at position `i` (counting from `0`) passes
`(i + 1) % 2 ^ 32`; so two launches pass the same flag iff their positions are congruent
modulo `2 ^ 32`, and a launch passes `0` iff it is the `2 ^ 32 * m`-th. -/
theorem runLaunches_flag_eq_iff (calls : List LaunchCall) {i j : Nat} {a b : KernelLaunch}
    (ha : (runLaunches P calls Process.init).launches[i]? = some a)
    (hb : (runLaunches P calls Process.init).launches[j]? = some b) :
    a.flag.toNat = (i + 1) % 2 ^ 32 ∧
      (a.flag = b.flag ↔ i % 2 ^ 32 = j % 2 ^ 32) ∧ (a.flag = 0 ↔ (i + 1) % 2 ^ 32 = 0) := by
  have hai := runLaunches_flag_toNat P ha
  have hbj := runLaunches_flag_toNat P hb
  have hinj : ∀ x y : UInt32, x = y ↔ x.toNat = y.toNat := fun _ _ =>
    ⟨congrArg _, UInt32.toNat.inj⟩
  refine ⟨hai, ?_⟩
  rw [hinj, hinj, hai, hbj, show (0 : UInt32).toNat = 0 from rfl]
  omega

/-- Two calls, one per packet type `launchKernel` accepts. -/
def twoLaunches : List LaunchCall :=
  [⟨.empty, 0, 0, 0, 0, 0, .ll16⟩, ⟨.empty, 0, 0, 0, 0, 0, .ll8⟩]

/-- The first two launches of a process pass different, nonzero flags. -/
theorem runLaunches_flag_eq_iff_first_two :
    ∃ a b, (runLaunches (Platform.quiet 0 0 0) twoLaunches Process.init).launches[0]? = some a ∧
      (runLaunches (Platform.quiet 0 0 0) twoLaunches Process.init).launches[1]? = some b ∧
      a.flag.toNat = (0 + 1) % 2 ^ 32 ∧
        (a.flag = b.flag ↔ 0 % 2 ^ 32 = 1 % 2 ^ 32) ∧ (a.flag = 0 ↔ (0 + 1) % 2 ^ 32 = 0) :=
  ⟨_, _, rfl, rfl, runLaunches_flag_eq_iff (Platform.quiet 0 0 0) twoLaunches rfl rfl⟩

/-- After a run of accepted calls, the last launch passes the run's length modulo
`2 ^ 32`. -/
theorem runLaunches_last_flag (calls : List LaunchCall)
    (hvalid : ∀ c ∈ calls, c.packetType ≠ .unknown) (hpos : 0 < calls.length) :
    ∃ l, (runLaunches P calls Process.init).launches[calls.length - 1]? = some l ∧
      l.flag.toNat = calls.length % 2 ^ 32 := by
  have hlen : (runLaunches P calls Process.init).launches.length = calls.length := by
    rw [length_runLaunches, List.filter_eq_self.mpr (by simpa using hvalid)]
    exact Nat.zero_add _
  have hl := List.getElem?_eq_getElem (l := (runLaunches P calls Process.init).launches)
    (n := calls.length - 1) (by omega)
  refine ⟨_, hl, ?_⟩
  rw [runLaunches_flag_toNat P hl, Nat.sub_add_cancel hpos]

/-- The `2 ^ 32`-th launch of a process passes the flag `0`, so the flags of a run are not
all nonzero, and the next launch passes the first launch's flag again. -/
theorem runLaunches_flag_wraps_to_zero :
    ∃ l, (runLaunches (Platform.quiet 0 0 0)
        (List.replicate (2 ^ 32) ⟨ExecutionContext.empty, 0, 0, 0, 0, 0, .ll16⟩)
        Process.init).launches[2 ^ 32 - 1]? = some l ∧ l.flag = 0 := by
  obtain ⟨l, hl, hflag⟩ := runLaunches_last_flag (Platform.quiet 0 0 0)
    (List.replicate (2 ^ 32) ⟨ExecutionContext.empty, 0, 0, 0, 0, 0, .ll16⟩)
    (fun c hc => by rw [List.eq_of_mem_replicate hc]; decide) (by rw [List.length_replicate]; omega)
  rw [List.length_replicate] at hl hflag
  exact ⟨l, hl, UInt32.toNat.inj (hflag.trans (Nat.mod_self _))⟩

end Mscclpp
