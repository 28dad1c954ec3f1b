import Mscclpp.Communicator

/-!
# The host-hash table and the `CudaIpc` check across ranks

`Communicator::Impl::Impl` gives every rank the table `rankToHash_` of the host hash of
every rank: the rank writes its host's hash into its own slot of a zeroed table of
`getNranks()` slots, and the bootstrap's `allGather` hands every rank each rank's own slot.
`connectOnSetup` refuses a `CudaIpc` connection toward a rank whose entry differs from the
caller's.  No operation changes the table afterwards, and both ends of a connection read
the same table, so the two ends of a `CudaIpc` connection agree on whether it is made.

## Main Definitions

* `allGather` — the bootstrap's `allGather` of one slot per rank.
* `Communicator.impl` — `Communicator::Impl::Impl`.

## Main results

* `rankToHash_impl` — the table every rank builds holds the host hash of every rank.
* `runOps_rankToHash` — no run of operations changes the rank or the table.
* `connectOnSetup_cudaIpc_isOk_iff` — a `CudaIpc` connect returns iff the two entries agree.
* `cudaIpc_connect_agree` — at every point of any runs of two ranks, rank `a`'s `CudaIpc`
  connect toward `b` returns iff `b`'s toward `a` does, iff their hosts' hashes are equal.

## Design Notes

`allGather` belongs to the bootstrap, outside the sources; it is modelled by its contract,
slot `q` of every rank's result being slot `q` of rank `q`'s buffer.  `getHostHash()` is a
function of the host a rank runs on, given over the ranks as `hostHash`.  The stream the
constructor creates and its log line are not modelled.
-/

namespace Mscclpp

/-- `BaseBootstrap::allGather` of one slot per rank, by its contract: every rank receives,
in slot `q`, what rank `q` holds in slot `q`. -/
def allGather (nranks : Nat) (buffers : Nat → List UInt64) : List UInt64 :=
  (List.range nranks).map fun q => (buffers q).getD q 0

/-- `Communicator::Impl::Impl` on rank `rank` of `nranks`, whose ranks run on hosts of hash
`hostHash`: `rankToHash_.resize(nranks)`, the rank's own slot, then `allGather`. -/
def Communicator.impl (nranks rank : Nat) (hostHash : Nat → UInt64) (hrank : rank < nranks) :
    Communicator where
  rank := rank
  rankToHash := allGather nranks fun q => (List.replicate nranks 0).set q (hostHash q)
  toSetup := []
  connections := []
  ibContexts := []
  nextId := 0
  rank_lt := by simpa [allGather] using hrank

/-- **The constructor's table**: every rank holds the host hash of every rank. -/
theorem rankToHash_impl (nranks rank : Nat) (hostHash : Nat → UInt64) (hrank : rank < nranks) :
    (Communicator.impl nranks rank hostHash hrank).rankToHash =
      (List.range nranks).map hostHash := by
  refine List.map_congr_left fun q hq => ?_
  simp [List.getD_eq_getElem?_getD, List.getElem?_set, List.mem_range.1 hq]

/-- A returning `connectOnSetup` leaves the table as it was. -/
theorem Communicator.connectOnSetup_rankToHash {c c' : Communicator} {remoteRank : Nat}
    {tag : Int} {transport : Transport} {conn : Connection}
    (h : c.connectOnSetup remoteRank tag transport = .ok (conn, c')) :
    c'.rankToHash = c.rankToHash := by
  simp only [Communicator.connectOnSetup, bind, Except.bind, pure, Except.pure] at h
  split at h
  · split at h
    · cases h
    · split at h <;> cases h; rfl
  · split at h <;> cases h
    simp only [Communicator.onSetup, Communicator.getIbContext]
    split <;> rfl

section Runs

variable {W : Type} (runHook : Hook → Setuppable → W → W × Option Failure)

/-- **Step lemma**: no operation changes the rank or the table. -/
theorem CommOp.run_rankToHash (op : CommOp) (c : Communicator) (w : W) :
    (op.run runHook (c, w)).1.1.rank = c.rank ∧
      (op.run runHook (c, w)).1.1.rankToHash = c.rankToHash := by
  cases op with
  | connectOnSetup remoteRank tag transport =>
    simp only [CommOp.run]
    split
    · rename_i h
      exact ⟨(Communicator.connectOnSetup_ok h).2.2.2.1,
        Communicator.connectOnSetup_rankToHash h⟩
    · exact ⟨rfl, rfl⟩
  | setup =>
    obtain ⟨-, hok, herr⟩ := Communicator.setup_spec runHook c w
    simp only [CommOp.run]
    by_cases hf : (c.setup runHook w).failure = none
    · rw [(hok hf).2]
      exact ⟨rfl, rfl⟩
    · rw [herr hf]
      exact ⟨rfl, rfl⟩
  | _ => exact ⟨rfl, rfl⟩

/-- **Run lemma**: no run of operations changes the rank or the table. -/
theorem runOps_rankToHash (ops : List CommOp) (c : Communicator) (w : W) :
    (runOps runHook ops (c, w)).1.1.rank = c.rank ∧
      (runOps runHook ops (c, w)).1.1.rankToHash = c.rankToHash := by
  induction ops generalizing c w with
  | nil => exact ⟨rfl, rfl⟩
  | cons op ops ih =>
    obtain ⟨hrank, htable⟩ := CommOp.run_rankToHash runHook op c w
    obtain ⟨hrank', htable'⟩ := ih (op.run runHook (c, w)).1.1 (op.run runHook (c, w)).1.2
    exact ⟨hrank'.trans hrank, htable'.trans htable⟩

end Runs

/-- **The `CudaIpc` check**: a `CudaIpc` connect toward a rank of the table returns iff the
rank's entry is the caller's own. -/
theorem connectOnSetup_cudaIpc_isOk_iff (c : Communicator) {remoteRank : Nat} (tag : Int)
    (hremote : remoteRank < c.rankToHash.length) :
    (c.connectOnSetup remoteRank tag .cudaIpc).isOk ↔
      c.rankToHash[remoteRank] = c.rankToHash.get ⟨c.rank, c.rank_lt⟩ := by
  have hrank := c.rank_lt
  simp only [Communicator.connectOnSetup, bind, Except.bind, pure, Except.pure, if_true,
    List.getElem?_eq_getElem hremote, List.get_eq_getElem]
  by_cases heq : c.rankToHash[remoteRank] = c.rankToHash[c.rank] <;>
    simp [heq, Except.isOk, Except.toBool]

/-- At every point of any run after construction, a `CudaIpc` connect toward a rank of the
world returns iff that rank's host has the caller's hash. -/
theorem runOps_impl_cudaIpc_isOk_iff {W : Type}
    (runHook : Hook → Setuppable → W → W × Option Failure) (hostHash : Nat → UInt64)
    (ops : List CommOp) (w : W) {nranks rank remoteRank : Nat} (hrank : rank < nranks)
    (hremote : remoteRank < nranks) (tag : Int) :
    ((runOps runHook ops (Communicator.impl nranks rank hostHash hrank, w)).1.1.connectOnSetup
        remoteRank tag .cudaIpc).isOk ↔ hostHash remoteRank = hostHash rank := by
  obtain ⟨hrank', htable⟩ :=
    runOps_rankToHash runHook ops (Communicator.impl nranks rank hostHash hrank) w
  rw [rankToHash_impl] at htable
  rw [connectOnSetup_cudaIpc_isOk_iff _ _ (by simp [htable, hremote])]
  simp only [List.get_eq_getElem, htable, hrank', List.getElem_map, List.getElem_range]
  rfl

/-- **Both ends of a `CudaIpc` connection agree.**  Let two ranks `a` and `b` of a world
construct their communicators over hosts of hash `hostHash`, then run any operations.  At
every point of these runs, `a`'s `CudaIpc` connect toward `b` returns iff `b`'s toward `a`
returns, and both return iff the two ranks run on hosts of the same hash. -/
theorem cudaIpc_connect_agree {WA WB : Type}
    (runHookA : Hook → Setuppable → WA → WA × Option Failure)
    (runHookB : Hook → Setuppable → WB → WB × Option Failure) (hostHash : Nat → UInt64)
    {nranks a b : Nat} (ha : a < nranks) (hb : b < nranks) (opsA opsB : List CommOp)
    (wA : WA) (wB : WB) (tagA tagB : Int) :
    (((runOps runHookA opsA (Communicator.impl nranks a hostHash ha, wA)).1.1.connectOnSetup
        b tagA .cudaIpc).isOk ↔
      ((runOps runHookB opsB (Communicator.impl nranks b hostHash hb, wB)).1.1.connectOnSetup
        a tagB .cudaIpc).isOk) ∧
    (((runOps runHookA opsA (Communicator.impl nranks a hostHash ha, wA)).1.1.connectOnSetup
        b tagA .cudaIpc).isOk ↔ hostHash a = hostHash b) := by
  rw [runOps_impl_cudaIpc_isOk_iff runHookA hostHash opsA wA ha hb,
    runOps_impl_cudaIpc_isOk_iff runHookB hostHash opsB wB hb ha]
  exact ⟨eq_comm, eq_comm⟩

theorem cudaIpc_connect_agree_two_ranks :
    (((runOps (fun _ _ w => (w, none)) [] (Communicator.impl 2 0 (fun _ => 7) (by decide),
        ())).1.1.connectOnSetup 1 0 .cudaIpc).isOk ↔
      ((runOps (fun _ _ w => (w, none)) [] (Communicator.impl 2 1 (fun _ => 7) (by decide),
        ())).1.1.connectOnSetup 0 0 .cudaIpc).isOk) ∧
    (((runOps (fun _ _ w => (w, none)) [] (Communicator.impl 2 0 (fun _ => 7) (by decide),
        ())).1.1.connectOnSetup 1 0 .cudaIpc).isOk ↔ (7 : UInt64) = 7) :=
  cudaIpc_connect_agree (fun _ _ w => (w, none)) (fun _ _ w => (w, none)) (fun _ => 7)
    (by decide) (by decide) [] [] () () 0 0

end Mscclpp
