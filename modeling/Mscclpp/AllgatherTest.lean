import Mathlib.Algebra.Group.Nat.Basic
import Mathlib.Data.List.Nodup

/-!
# The allgather test

`tests/allgather_test.cu` gathers one chunk of `int`s per rank into every rank's buffer
`data_d`.  Each rank connects to every other rank, copies the device handles of its
connections to `constDevConns`, and launches `kernel` with one warp per connection; the warp
puts the rank's own chunk to its peer, by `allgather0` (all warps at once) or `allgather1`
(in iteration `i`, only the warp toward rank `(rank + i) % world_size`).  `main` then copies
the buffer back and checks that its `i`-th `int` is `i + 1`.

## Main Definitions

* `setupMscclppConnections` — the `mscclppConnect` calls of a rank, one per other rank.
* `kernel`, `allgather0`, `allgather1` — the calls each warp of the kernel makes.
* `launchPuts`, `allPuts` — the puts one launch issues on the connections its rank made, and
  those of the launches of all ranks.
* `Put.apply`, `runPuts` — a put on the ranks' buffers, and a run of puts in a given order.
* `initializeAndAllocateAllGatherData`, `firstMismatch` — the host data a rank starts from,
  and the check of `main`.
* `copyDevConns`, `launchFits` — the copy of the device handles into the 16 entries of
  `constDevConns`, and the block's limit of 1024 threads.

## Main results

* `launchPuts_eq` — a launch of either algorithm puts the rank's chunk exactly once to each
  other rank, on the connection toward that rank.
* `iterationPuts_eq` — in iteration `i` of `allgather1` the launch issues one put, to rank
  `(rank + i) % world_size`.
* `allgather_check_passes` — for every run that delivers the puts of all launches, in any
  order and any number of times, the check of `main` passes on every rank.
* `allgather_offsets_in_bounds`, `host_copy_in_bounds_iff` — the index arithmetic fits in
  `int` and every put lies in the registered buffer; the host copies of `data_size` bytes
  stay in `data_h` exactly when `world_size` divides `2 ^ 28`.
* `copyDevConns_isSome_iff` — the test reaches its launch exactly up to 17 ranks.

## Design Notes

The device API the test calls (`mscclppConnect`, `mscclppGetAllDeviceConnections`, the
`put`, `signal` and `wait` of a device connection) is not among the sources.  Two of its
documented properties are taken as the model: the device connections come back in the order
they were made, and `put(offset, size)` on a connection whose two ends registered `data_d`
copies the `size` bytes at `offset` of the local buffer to the same offset of the peer's.
Signals and waits only order the puts; the result is proved for every order, so they stay
calls without an effect on the data.  Buffers are counted in `int`s: every offset and size
the test passes is a multiple of `sizeof(int)`.

The launch is modelled at every world size.  From 18 ranks on, the copy into
`constDevConns` fails and `CUDACHECK` exits before the launch (`copyDevConns_isSome_iff`),
so there the results describe a launch the test does not make; they are no weaker for it.
-/

namespace Mscclpp.AllgatherTest

/-! ## Sizes -/

/-- `sizeof(int)`. -/
def sizeofInt : Nat := 4

/-- `data_size` of `main`: the bytes of `data_d` on every rank. -/
def mainDataSize : Nat := 1024 * 1024 * 1024

/-- `nelemsPerGPU = data_size / sizeof(int) / world_size`: the `int`s of one rank's chunk. -/
def nelemsPerGPU (worldSize : Nat) : Nat := mainDataSize / sizeofInt / worldSize

/-! ## Connections -/

/-- `rankToLocalRank`, with `RANKS_PER_NODE` (8 without MPI, the size of the shared-memory
communicator with it). -/
def rankToLocalRank (ranksPerNode rank : Nat) : Nat := rank % ranksPerNode

/-- `rankToNode`. -/
def rankToNode (ranksPerNode rank : Nat) : Nat := rank / ranksPerNode

/-- `mscclppTransport_t`. -/
inductive TransportType
  | p2p
  | ib
  deriving DecidableEq, Repr

/-- The arguments of one `mscclppConnect(comm, r, 0, data_d, data_size, transportType, ibDev)`
call. -/
structure ConnectCall where
  remoteRank : Nat
  tag : Nat
  buffSize : Nat
  transportType : TransportType
  ibDev : Option String
  deriving DecidableEq, Repr

/-- `setupMscclppConnections`: a connection to every other rank in increasing order, over P2P
on the rank's own node and over the IB device `mlx5_ib<local rank>` off it. -/
def setupMscclppConnections (ranksPerNode rank worldSize dataSize : Nat) : List ConnectCall :=
  ((List.range worldSize).filter (· ≠ rank)).map fun r =>
    if rankToNode ranksPerNode r = rankToNode ranksPerNode rank then ⟨r, 0, dataSize, .p2p, none⟩
    else ⟨r, 0, dataSize, .ib, some ("mlx5_ib" ++ toString (rankToLocalRank ranksPerNode rank))⟩

/-! ## The kernel -/

/-- The calls a warp makes: on its device connection, and the block barrier. -/
inductive DeviceCall
  | put (offset size : Nat)
  | signal
  | putWithSignal (offset size : Nat)
  | wait
  | syncthreads
  deriving DecidableEq, Repr

/-- `allgather0`: put the rank's chunk, signal, wait for the peer's signal. -/
def allgather0 (rank nelemsPerGPU : Nat) : List DeviceCall :=
  [.put (rank * nelemsPerGPU * sizeofInt) (nelemsPerGPU * sizeofInt), .signal, .wait]

/-- Iteration `i` of the loop of `allgather1`: the barrier, then the put if the warp's peer is
rank `(rank + i) % world_size`. -/
def allgather1Step (rank worldSize remoteRank nelemsPerGPU i : Nat) : List DeviceCall :=
  .syncthreads :: if remoteRank ≠ (rank + i) % worldSize then []
    else [.putWithSignal (rank * nelemsPerGPU * sizeofInt) (nelemsPerGPU * sizeofInt)]

/-- `allgather1`: iterations `1` to `world_size - 1`, then the wait. -/
def allgather1 (rank worldSize remoteRank nelemsPerGPU : Nat) : List DeviceCall :=
  (List.range' 1 (worldSize - 1)).flatMap (allgather1Step rank worldSize remoteRank nelemsPerGPU) ++
    [.wait]

/-- `remoteRank` in `kernel`: warp `warpId` serves the `warpId`-th rank other than `rank`. -/
def remoteRankOf (rank warpId : Nat) : Nat := if warpId < rank then warpId else warpId + 1

/-- `kernel` on thread `threadIdx`: its warp, which indexes `constDevConns`, and the calls of
the algorithm `kernelNum`; `none` for the threads that return at once. -/
def kernel (rank worldSize nelemsPerGPU kernelNum threadIdx : Nat) :
    Option (Nat × List DeviceCall) :=
  if threadIdx % 32 ≠ 0 then none
  else
    let warpId := threadIdx / 32
    some (warpId,
      if kernelNum = 0 then allgather0 rank nelemsPerGPU
      else if kernelNum = 1 then allgather1 rank worldSize (remoteRankOf rank warpId) nelemsPerGPU
      else [])

/-! ## Puts -/

/-- A put of `size` bytes at `offset` from rank `src`'s buffer to rank `dst`'s. -/
structure Put where
  src : Nat
  dst : Nat
  offset : Nat
  size : Nat
  deriving DecidableEq, Repr

/-- The put a call makes on a connection from `src` to `dst`, if it is one. -/
def DeviceCall.toPut (src dst : Nat) : DeviceCall → Option Put
  | .put offset size | .putWithSignal offset size => some ⟨src, dst, offset, size⟩
  | _ => none

/-- The put of rank `src`'s own chunk to rank `dst`, as both algorithms make it. -/
def chunkPut (nelemsPerGPU src dst : Nat) : Put :=
  ⟨src, dst, src * nelemsPerGPU * sizeofInt, nelemsPerGPU * sizeofInt⟩

/-- The puts of thread `threadIdx` of a launch on rank `rank`, on the connection
`constDevConns[warpId]` of its warp; `devConns` are the peers of the connections
`mscclppGetAllDeviceConnections` returned, in order.  A warp past them would read a
`constDevConns` entry no connection filled, and puts nothing here. -/
def threadPuts (devConns : List Nat) (rank worldSize nelemsPerGPU kernelNum threadIdx : Nat) :
    List Put :=
  match kernel rank worldSize nelemsPerGPU kernelNum threadIdx with
  | none => []
  | some (warpId, calls) =>
    match devConns[warpId]? with
    | none => []
    | some dst => calls.filterMap (DeviceCall.toPut rank dst)

/-- The puts of one launch `kernel<<<1, 32 * (world_size - 1)>>>` on rank `rank`. -/
def launchPuts (devConns : List Nat) (rank worldSize nelemsPerGPU kernelNum : Nat) : List Put :=
  (List.range (32 * (worldSize - 1))).flatMap
    (threadPuts devConns rank worldSize nelemsPerGPU kernelNum)

/-- The peers of the device connections of `rank`, in the order it made them. -/
def devConnsOf (ranksPerNode rank worldSize dataSize : Nat) : List Nat :=
  (setupMscclppConnections ranksPerNode rank worldSize dataSize).map (·.remoteRank)

/-- The entries of `__constant__ mscclppDevConn_t constDevConns[16]`. -/
def constDevConnsCapacity : Nat := 16

/-- `cudaMemcpyToSymbol(constDevConns, devConns, sizeof(mscclppDevConn_t) * nCons)` of
`setupMscclppConnections`: the copy fails past the symbol's entries, and `CUDACHECK` then
exits, before the launch. -/
def copyDevConns (devConns : List Nat) : Option (List Nat) :=
  if devConns.length ≤ constDevConnsCapacity then some devConns else none

/-- `kernel<<<1, 32 * (world_size - 1)>>>` is within the limit of 1024 threads a block. -/
def launchFits (worldSize : Nat) : Bool :=
  32 * (worldSize - 1) ≤ 1024

/-- The puts of one launch on every rank. -/
def allPuts (ranksPerNode worldSize dataSize nelemsPerGPU kernelNum : Nat) : List Put :=
  (List.range worldSize).flatMap fun rank =>
    launchPuts (devConnsOf ranksPerNode rank worldSize dataSize) rank worldSize nelemsPerGPU
      kernelNum

/-- A put on the `int` buffers of all ranks (`data rank i`): the `int`s inside its byte range
on `dst` take the values of `src`. -/
def Put.apply (p : Put) (data : Nat → Nat → Int) : Nat → Nat → Int := fun q i =>
  if q = p.dst ∧ p.offset ≤ sizeofInt * i ∧ sizeofInt * i < p.offset + p.size then data p.src i
  else data q i

/-- The puts of a run, applied in order. -/
def runPuts (puts : List Put) (data : Nat → Nat → Int) : Nat → Nat → Int :=
  puts.foldl (fun d p => p.apply d) data

/-- The host array `data_h` of `initializeAndAllocateAllGatherData`: `i + 1` on the rank's own
chunk, `0` elsewhere.  The function copies `data_size` bytes of it to `data_d`. -/
def initializeAndAllocateAllGatherData (rank worldSize nelemsPerGPU : Nat) : List Int :=
  (List.range (nelemsPerGPU * worldSize)).map fun i =>
    if i / nelemsPerGPU = rank then (i + 1 : Int) else 0

/-- The check of `main` over the copy of a rank's buffer: the first `i` with
`data_h[i] != i + 1`, where the loop prints and breaks; `none` when it runs through. -/
def firstMismatch (data_h : Nat → Int) (n : Nat) : Option Nat :=
  (List.range n).find? fun i => data_h i ≠ i + 1

/-! ## The warps of a launch -/

/-- The warps' peers are the other ranks, in increasing order. -/
theorem map_remoteRankOf_range {rank worldSize : Nat} (h : rank < worldSize) :
    (List.range (worldSize - 1)).map (remoteRankOf rank) =
      (List.range worldSize).filter (· ≠ rank) := by
  induction worldSize, h using Nat.le_induction with
  | base =>
    rw [Nat.succ_sub_one, List.range_succ, List.filter_append,
      List.filter_eq_self.2 fun x hx => by simpa using (List.mem_range.1 hx).ne]
    simp only [decide_not, decide_True, Bool.not_true, Bool.false_eq_true, not_false_eq_true,
      List.filter_cons_of_neg, List.filter_nil, List.append_nil]
    exact (List.map_congr_left fun w hw => if_pos (List.mem_range.1 hw)).trans (List.map_id _)
  | succ w hw ih =>
    rw [show w + 1 - 1 = w - 1 + 1 by omega, List.range_succ, List.map_append, ih,
      List.range_succ w, List.filter_append]
    simp [remoteRankOf, show ¬ w - 1 < rank by omega, show w - 1 + 1 = w by omega,
      show w ≠ rank by omega]

theorem devConnsOf_eq {ranksPerNode rank worldSize dataSize : Nat} (h : rank < worldSize) :
    devConnsOf ranksPerNode rank worldSize dataSize =
      (List.range (worldSize - 1)).map (remoteRankOf rank) := by
  rw [map_remoteRankOf_range h, devConnsOf, setupMscclppConnections, List.map_map]
  exact (List.map_congr_left fun r _ => by dsimp only [Function.comp]; split <;> rfl).trans
    (List.map_id _)

/-- Warp `warpId` of a launch puts on the connection toward its `remoteRank`. -/
theorem devConnsOf_getElem? {ranksPerNode rank worldSize dataSize warpId : Nat}
    (hrank : rank < worldSize) (hw : warpId < worldSize - 1) :
    (devConnsOf ranksPerNode rank worldSize dataSize)[warpId]? =
      some (remoteRankOf rank warpId) := by
  rw [devConnsOf_eq hrank, List.getElem?_map, List.getElem?_range hw]
  rfl

/-- **The test reaches its launch up to 17 ranks only**: the device connections of a rank fit
`constDevConns` exactly when `world_size ≤ 17`, and the block of such a launch is within
the thread limit.  The results of this development hold at every world size, and so at the
ones where the test exits before it launches. -/
theorem copyDevConns_isSome_iff {ranksPerNode rank worldSize dataSize : Nat}
    (hrank : rank < worldSize) :
    ((copyDevConns (devConnsOf ranksPerNode rank worldSize dataSize)).isSome ↔
      worldSize ≤ 17) ∧ (worldSize ≤ 17 → launchFits worldSize = true) := by
  have hlen : (devConnsOf ranksPerNode rank worldSize dataSize).length = worldSize - 1 := by
    rw [devConnsOf_eq hrank, List.length_map, List.length_range]
  refine ⟨?_, fun h => by simp only [launchFits, decide_eq_true_eq]; omega⟩
  simp only [copyDevConns, hlen, constDevConnsCapacity]
  split <;> simp <;> omega

/-- Only the first thread of each warp makes calls, so a launch's threads reduce to its
warps. -/
theorem flatMap_range_warps {α : Type} (n : Nat) (f : Nat → List α)
    (hf : ∀ t, t % 32 ≠ 0 → f t = []) :
    (List.range (32 * n)).flatMap f = (List.range n).flatMap fun w => f (32 * w) := by
  induction n with
  | zero => rfl
  | succ n ih =>
    rw [Nat.mul_succ, List.range_add, List.flatMap_append, ih, List.range_succ n,
      List.flatMap_append, List.range_succ_eq_map 31, List.map_cons, List.flatMap_cons,
      List.map_map, List.flatMap_map]
    simpa using fun j (hj : j < 31) => hf (32 * n + (j + 1)) (by omega)

/-! ## What one warp puts -/

theorem mem_range'_one_iff {i worldSize : Nat} :
    i ∈ List.range' 1 (worldSize - 1) ↔ 1 ≤ i ∧ i < worldSize := by
  rw [List.mem_range'_1]; omega

/-- A sum below `2 * n` reduces by at most one `n`. -/
theorem mod_of_lt_two_mul {a n : Nat} (h : a < 2 * n) : a % n = if a < n then a else a - n := by
  split
  · exact Nat.mod_eq_of_lt ‹_›
  · rw [Nat.mod_eq_sub_mod (by omega), Nat.mod_eq_of_lt (by omega)]

/-- For a peer `q` other than `rank`, exactly one iteration of `allgather1` names it. -/
theorem iteration_eq_iff {rank worldSize q i : Nat} (hrank : rank < worldSize)
    (hq : q < worldSize) (hi : 1 ≤ i ∧ i < worldSize) :
    q = (rank + i) % worldSize ↔ i = (q + worldSize - rank) % worldSize := by
  rw [mod_of_lt_two_mul (by omega : rank + i < 2 * worldSize),
    mod_of_lt_two_mul (by omega : q + worldSize - rank < 2 * worldSize)]
  split <;> split <;> omega

theorem filter_eq_singleton {α : Type} {l : List α} (hl : l.Nodup) {p : α → Bool} {a : α}
    (ha : a ∈ l) (hpa : p a) (huniq : ∀ b ∈ l, p b → b = a) : l.filter p = [a] := by
  have hrep := List.eq_replicate_iff.2 ⟨rfl, fun b hb =>
    huniq b (List.mem_of_mem_filter hb) (List.of_mem_filter hb)⟩
  have hle : (l.filter p).length ≤ 1 := List.nodup_replicate.1 (hrep ▸ hl.filter p)
  have hpos : 0 < (l.filter p).length := List.length_pos_of_mem (List.mem_filter.2 ⟨ha, hpa⟩)
  rw [hrep, show (l.filter p).length = 1 by omega]
  rfl

theorem flatMap_ite_singleton {α β : Type} (l : List α) (p : α → Prop) [DecidablePred p]
    (g : α → β) :
    l.flatMap (fun i => if p i then [g i] else []) = (l.filter fun i => p i).map g := by
  induction l with
  | nil => rfl
  | cons i l ih => by_cases h : p i <;> simp [h, ih]

theorem allgather1Step_puts (rank worldSize q nelemsPerGPU dst i : Nat) :
    (allgather1Step rank worldSize q nelemsPerGPU i).filterMap (DeviceCall.toPut rank dst) =
      if q = (rank + i) % worldSize then [chunkPut nelemsPerGPU rank dst] else [] := by
  by_cases h : q = (rank + i) % worldSize <;> simp [allgather1Step, h, DeviceCall.toPut, chunkPut]

/-- In `allgather1`, the warp toward a peer other than its rank puts exactly once. -/
theorem allgather1_puts {rank worldSize q nelemsPerGPU dst : Nat} (hrank : rank < worldSize)
    (hq : q < worldSize) (hne : q ≠ rank) :
    (allgather1 rank worldSize q nelemsPerGPU).filterMap (DeviceCall.toPut rank dst) =
      [chunkPut nelemsPerGPU rank dst] := by
  have hi0 : 1 ≤ (q + worldSize - rank) % worldSize ∧ (q + worldSize - rank) % worldSize <
      worldSize := by
    rw [mod_of_lt_two_mul (by omega)]; split <;> omega
  have hone : (List.range' 1 (worldSize - 1)).filter (fun i => q = (rank + i) % worldSize) =
      [(q + worldSize - rank) % worldSize] :=
    filter_eq_singleton (List.nodup_range' _ _) (mem_range'_one_iff.2 hi0)
      (by simpa using (iteration_eq_iff hrank hq hi0).2 rfl) fun i hi hqi =>
        (iteration_eq_iff hrank hq (mem_range'_one_iff.1 hi)).1 (by simpa using hqi)
  rw [allgather1, List.filterMap_append, List.filterMap_flatMap]
  simp only [allgather1Step_puts, flatMap_ite_singleton, hone]
  rfl

theorem remoteRankOf_lt_ne (rank : Nat) {worldSize warpId : Nat} (hw : warpId < worldSize - 1) :
    remoteRankOf rank warpId < worldSize ∧ remoteRankOf rank warpId ≠ rank := by
  unfold remoteRankOf; split <;> omega

/-! ## What a launch puts -/

section Launch

variable {ranksPerNode rank worldSize dataSize nelemsPerGPU kernelNum : Nat}

theorem threadPuts_of_mod_ne {devConns : List Nat} {threadIdx : Nat} (h : threadIdx % 32 ≠ 0) :
    threadPuts devConns rank worldSize nelemsPerGPU kernelNum threadIdx = [] := by
  simp [threadPuts, kernel, h]

/-- The first thread of warp `warpId` puts the rank's chunk once, on the connection toward the
warp's `remoteRank`. -/
theorem threadPuts_warp (hrank : rank < worldSize) (hk : kernelNum = 0 ∨ kernelNum = 1)
    {warpId : Nat} (hw : warpId < worldSize - 1) :
    threadPuts (devConnsOf ranksPerNode rank worldSize dataSize) rank worldSize nelemsPerGPU
        kernelNum (32 * warpId) =
      [chunkPut nelemsPerGPU rank (remoteRankOf rank warpId)] := by
  simp only [threadPuts, kernel, Nat.mul_mod_right, Nat.mul_div_cancel_left _ (by omega : 0 < 32),
    ne_eq, not_true_eq_false, if_false, devConnsOf_getElem? hrank hw]
  obtain ⟨hlt, hne⟩ := remoteRankOf_lt_ne rank hw
  rcases hk with rfl | rfl
  · simp [allgather0, DeviceCall.toPut, chunkPut]
  · simpa using allgather1_puts hrank hlt hne

/-- **A launch puts the rank's chunk exactly once to every other rank**, with either
algorithm: warp `warpId` puts on `constDevConns[warpId]`, the connection toward the rank the
warp computes as its `remoteRank`, and the warps' peers are the other ranks, once each. -/
theorem launchPuts_eq (hrank : rank < worldSize) (hk : kernelNum = 0 ∨ kernelNum = 1) :
    launchPuts (devConnsOf ranksPerNode rank worldSize dataSize) rank worldSize nelemsPerGPU
        kernelNum =
      ((List.range worldSize).filter (· ≠ rank)).map (chunkPut nelemsPerGPU rank) := by
  rw [launchPuts, flatMap_range_warps _ _ fun _ => threadPuts_of_mod_ne,
    List.flatMap_congr fun w hw => threadPuts_warp hrank hk (List.mem_range.1 hw),
    ← map_remoteRankOf_range hrank, List.map_map, List.map_eq_flatMap]
  rfl

theorem mem_allPuts (hk : kernelNum = 0 ∨ kernelNum = 1) {p : Put} :
    p ∈ allPuts ranksPerNode worldSize dataSize nelemsPerGPU kernelNum ↔
      ∃ src < worldSize, ∃ dst < worldSize, dst ≠ src ∧ p = chunkPut nelemsPerGPU src dst := by
  simp only [allPuts, List.mem_flatMap, List.mem_range]
  constructor
  · rintro ⟨src, hsrc, hp⟩
    rw [launchPuts_eq hsrc hk] at hp
    obtain ⟨dst, hdst, rfl⟩ := List.mem_map.1 hp
    obtain ⟨hdst, hne⟩ := by simpa using hdst
    exact ⟨src, hsrc, dst, hdst, hne, rfl⟩
  · rintro ⟨src, hsrc, dst, hdst, hne, rfl⟩
    exact ⟨src, hsrc, by rw [launchPuts_eq hsrc hk]; exact List.mem_map.2 ⟨dst, by simpa using
      ⟨hdst, hne⟩, rfl⟩⟩

end Launch

section Runs

variable {nelemsPerGPU worldSize : Nat}

/-- The `int`s a chunk put covers are those of its chunk. -/
theorem chunkPut_covers_iff (hN : 0 < nelemsPerGPU) {src dst i : Nat} :
    ((chunkPut nelemsPerGPU src dst).offset ≤ sizeofInt * i ∧
      sizeofInt * i < (chunkPut nelemsPerGPU src dst).offset + (chunkPut nelemsPerGPU src dst).size)
      ↔ i / nelemsPerGPU = src := by
  have hlo := Nat.le_div_iff_mul_le (x := src) (y := i) hN
  have hhi := Nat.div_lt_iff_lt_mul (x := i) (y := src + 1) hN
  rw [Nat.succ_mul] at hhi
  simp only [chunkPut, sizeofInt]
  omega

/-- The check's view of the buffers: every `int` it reads is `0` or its final value, and every
rank holds its own chunk. -/
def Consistent (nelemsPerGPU worldSize : Nat) (data : Nat → Nat → Int) : Prop :=
  ∀ rank < worldSize, ∀ i < nelemsPerGPU * worldSize,
    (data rank i = 0 ∨ data rank i = i + 1) ∧ (i / nelemsPerGPU = rank → data rank i = i + 1)

/-- A chunk put writes only final values. -/
theorem chunkPut_apply {data : Nat → Nat → Int} (hc : Consistent nelemsPerGPU worldSize data)
    {src : Nat} (dst q : Nat) {i : Nat} (hsrc : src < worldSize)
    (hi : i < nelemsPerGPU * worldSize) :
    (chunkPut nelemsPerGPU src dst).apply data q i = data q i ∨
      (q = dst ∧ i / nelemsPerGPU = src ∧
        (chunkPut nelemsPerGPU src dst).apply data q i = i + 1) := by
  have hN : 0 < nelemsPerGPU := Nat.pos_of_ne_zero fun h => by simp [h] at hi
  unfold Put.apply
  split
  · rename_i hcov
    have hchunk := (chunkPut_covers_iff hN).1 hcov.2
    exact .inr ⟨hcov.1, hchunk, (hc src hsrc i hi).2 hchunk⟩
  · exact .inl rfl

theorem chunkPut_consistent {data : Nat → Nat → Int}
    (hc : Consistent nelemsPerGPU worldSize data) {src : Nat} (dst : Nat) (hsrc : src < worldSize) :
    Consistent nelemsPerGPU worldSize ((chunkPut nelemsPerGPU src dst).apply data) := by
  intro q hq i hi
  rcases chunkPut_apply hc dst q hsrc hi with h | ⟨-, -, h⟩
  · rw [h]; exact hc q hq i hi
  · rw [h]; exact ⟨.inr rfl, fun _ => rfl⟩

/-- The puts a run may hold: chunk puts of ranks of the world. -/
def ChunkPuts (nelemsPerGPU worldSize : Nat) (run : List Put) : Prop :=
  ∀ p ∈ run, ∃ src < worldSize, ∃ dst, p = chunkPut nelemsPerGPU src dst

/-- A run of chunk puts keeps the buffers consistent, and an `int` that has its final value
keeps it. -/
theorem runPuts_consistent (run : List Put) (hrun : ChunkPuts nelemsPerGPU worldSize run) :
    ∀ {data : Nat → Nat → Int}, Consistent nelemsPerGPU worldSize data →
      Consistent nelemsPerGPU worldSize (runPuts run data) ∧
        ∀ q i, i < nelemsPerGPU * worldSize → data q i = i + 1 → runPuts run data q i = i + 1 := by
  induction run with
  | nil => exact fun hc => ⟨hc, fun _ _ _ h => h⟩
  | cons p run ih =>
    intro data hc
    obtain ⟨src, hsrc, dst, rfl⟩ := hrun p (List.mem_cons_self _ _)
    obtain ⟨hc', hkeep⟩ := ih (fun p hp => hrun p (List.mem_cons_of_mem _ hp))
      (chunkPut_consistent hc dst hsrc)
    refine ⟨hc', fun q i hi h => hkeep q i hi ?_⟩
    rcases chunkPut_apply hc dst q hsrc hi with h' | ⟨-, -, h'⟩ <;> rw [h']
    exact h

/-- After a run holding the chunk put of `src` to `dst`, `dst` holds that chunk. -/
theorem runPuts_delivers {run : List Put} (hrun : ChunkPuts nelemsPerGPU worldSize run)
    {data : Nat → Nat → Int} (hc : Consistent nelemsPerGPU worldSize data) {src dst i : Nat}
    (hsrc : src < worldSize) (hmem : chunkPut nelemsPerGPU src dst ∈ run)
    (hi : i < nelemsPerGPU * worldSize) (hchunk : i / nelemsPerGPU = src) :
    runPuts run data dst i = i + 1 := by
  have hN : 0 < nelemsPerGPU := Nat.pos_of_ne_zero fun h => by simp [h] at hi
  obtain ⟨pre, post, rfl⟩ := List.append_of_mem hmem
  have hpre := runPuts_consistent pre (fun p hp => hrun p (by simp [hp])) hc
  rw [runPuts, List.foldl_append, List.foldl_cons]
  refine (runPuts_consistent post (fun p hp => hrun p (by simp [hp]))
    (chunkPut_consistent hpre.1 dst hsrc)).2 dst i hi ?_
  have hcov : dst = (chunkPut nelemsPerGPU src dst).dst ∧
      (chunkPut nelemsPerGPU src dst).offset ≤ sizeofInt * i ∧
      sizeofInt * i <
        (chunkPut nelemsPerGPU src dst).offset + (chunkPut nelemsPerGPU src dst).size :=
    ⟨rfl, (chunkPut_covers_iff hN).2 hchunk⟩
  simp only [Put.apply, if_pos hcov]
  exact (hpre.1 src hsrc i hi).2 hchunk

end Runs

/-! ## The check of `main` -/

theorem getD_initializeAndAllocateAllGatherData {rank worldSize nelemsPerGPU i : Nat}
    (hi : i < nelemsPerGPU * worldSize) :
    (initializeAndAllocateAllGatherData rank worldSize nelemsPerGPU).getD i 0 =
      if i / nelemsPerGPU = rank then (i + 1 : Int) else 0 := by
  rw [List.getD_eq_getElem?_getD, initializeAndAllocateAllGatherData, List.getElem?_map,
    List.getElem?_range hi]
  rfl

/-- Buffers that hold the host data of their ranks are consistent. -/
theorem consistent_init {nelemsPerGPU worldSize : Nat} {data : Nat → Nat → Int}
    (hinit : ∀ rank < worldSize, ∀ i < nelemsPerGPU * worldSize,
      data rank i = (initializeAndAllocateAllGatherData rank worldSize nelemsPerGPU).getD i 0) :
    Consistent nelemsPerGPU worldSize data := by
  intro q hq i hi
  rw [hinit q hq i hi, getD_initializeAndAllocateAllGatherData hi]
  by_cases h : i / nelemsPerGPU = q <;> simp [h]

theorem firstMismatch_eq_none_iff {data_h : Nat → Int} {n : Nat} :
    firstMismatch data_h n = none ↔ ∀ i < n, data_h i = i + 1 := by
  simp [firstMismatch, List.find?_eq_none]

/-- **The check of the allgather test passes on every rank**: for every run made of the puts of
one launch on each rank, in any order and any number of times, that delivers each of them at
least once, every rank ends with `i + 1` in its `i`-th `int`. -/
theorem allgather_check_passes {ranksPerNode worldSize dataSize nelemsPerGPU kernelNum : Nat}
    (hk : kernelNum = 0 ∨ kernelNum = 1) {run : List Put}
    (hrun : ∀ p ∈ run, p ∈ allPuts ranksPerNode worldSize dataSize nelemsPerGPU kernelNum)
    (hdelivered : ∀ p ∈ allPuts ranksPerNode worldSize dataSize nelemsPerGPU kernelNum, p ∈ run)
    {data : Nat → Nat → Int}
    (hinit : ∀ rank < worldSize, ∀ i < nelemsPerGPU * worldSize,
      data rank i = (initializeAndAllocateAllGatherData rank worldSize nelemsPerGPU).getD i 0)
    {rank : Nat} (hrank : rank < worldSize) :
    firstMismatch (runPuts run data rank) (nelemsPerGPU * worldSize) = none := by
  have hchunks : ChunkPuts nelemsPerGPU worldSize run := fun p hp => by
    obtain ⟨src, hsrc, dst, -, -, rfl⟩ := (mem_allPuts hk).1 (hrun p hp)
    exact ⟨src, hsrc, dst, rfl⟩
  have hc := consistent_init hinit
  refine firstMismatch_eq_none_iff.2 fun i hi => ?_
  have hN : 0 < nelemsPerGPU := Nat.pos_of_ne_zero fun h => by simp [h] at hi
  have hsrc : i / nelemsPerGPU < worldSize :=
    (Nat.div_lt_iff_lt_mul hN).2 (by rwa [Nat.mul_comm])
  by_cases hown : i / nelemsPerGPU = rank
  · exact ((runPuts_consistent run hchunks hc).1 rank hrank i hi).2 hown
  · exact runPuts_delivers hchunks hc hsrc (hdelivered _
      ((mem_allPuts hk).2 ⟨_, hsrc, rank, hrank, Ne.symm hown, rfl⟩)) hi rfl

theorem allgather_check_passes_two_ranks :
    firstMismatch (runPuts (allPuts 8 2 mainDataSize 1 1)
      (fun rank i => (initializeAndAllocateAllGatherData rank 2 1).getD i 0) 1) (1 * 2) = none :=
  allgather_check_passes (Or.inr rfl) (fun _ hp => hp) (fun _ hp => hp) (fun _ _ _ _ => rfl)
    (by decide)

/-! ## Sizes -/

theorem mainDataSize_div_sizeofInt : mainDataSize / sizeofInt = 2 ^ 28 := rfl

/-- **The index arithmetic of the test fits in `int`, and every put lies in `data_d`**: the
check's loop bound `nelemsPerGPU * world_size` and its values `i + 1` stay within `2 ^ 28`,
`rank * nelemsPerGPU` below `2 ^ 31`, and the bytes a rank puts end within `data_size`. -/
theorem allgather_offsets_in_bounds {worldSize rank : Nat} (hrank : rank < worldSize) :
    nelemsPerGPU worldSize * worldSize ≤ 2 ^ 28 ∧ rank * nelemsPerGPU worldSize < 2 ^ 31 ∧
      rank * nelemsPerGPU worldSize * sizeofInt + nelemsPerGPU worldSize * sizeofInt ≤
        mainDataSize := by
  have hNW : nelemsPerGPU worldSize * worldSize ≤ 2 ^ 28 := by
    rw [nelemsPerGPU, mainDataSize_div_sizeofInt]; exact Nat.div_mul_le_self _ _
  have hrN : rank * nelemsPerGPU worldSize + nelemsPerGPU worldSize ≤
      nelemsPerGPU worldSize * worldSize := by
    have := Nat.mul_le_mul_right (nelemsPerGPU worldSize) (hrank : rank + 1 ≤ worldSize)
    rwa [Nat.succ_mul, Nat.mul_comm worldSize] at this
  refine ⟨hNW, by omega, ?_⟩
  simp only [sizeofInt, mainDataSize]
  omega

theorem allgather_offsets_in_bounds_eight :
    7 < 8 ∧ (nelemsPerGPU 8 * 8 ≤ 2 ^ 28 ∧ 7 * nelemsPerGPU 8 < 2 ^ 31 ∧
      7 * nelemsPerGPU 8 * sizeofInt + nelemsPerGPU 8 * sizeofInt ≤ mainDataSize) :=
  ⟨by decide, allgather_offsets_in_bounds (by decide)⟩

/-- **The host copies stay in `data_h` exactly when `world_size` divides `2 ^ 28`.**  `data_h`
holds `nelemsPerGPU * world_size` `int`s and both `cudaMemcpy` calls of `main` move
`data_size` bytes; for any other world size, such as 3 or 6, the copy to the device reads and
the copy back writes past the end of `data_h`. -/
theorem host_copy_in_bounds_iff (worldSize : Nat) :
    mainDataSize ≤ nelemsPerGPU worldSize * worldSize * sizeofInt ↔ worldSize ∣ 2 ^ 28 := by
  have := Nat.div_add_mod' (2 ^ 28) worldSize
  rw [nelemsPerGPU, mainDataSize_div_sizeofInt, Nat.dvd_iff_mod_eq_zero]
  simp only [sizeofInt, mainDataSize]
  omega

example : ¬ mainDataSize ≤ nelemsPerGPU 3 * 3 * sizeofInt := by decide

end Mscclpp.AllgatherTest
