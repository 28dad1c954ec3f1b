import Mscclpp.AllgatherDelivery

/-!
# What the allgather launch computes

`AllgatherDelivery` says which puts have landed in a state of a launch on every rank; this
module says what the buffers then hold.  Every put of the launch copies its source's own
chunk to a peer, so no put writes where another reads and the buffers of a state depend only
on which puts have landed, not on their order.

Two results follow.  Once every warp of every rank has returned, the buffers are those of an
allgather (`allgatherResult`): every rank of the world holds, in chunk `c`, what rank `c` held
there at launch, and nothing else has changed.  The launch refines the collective it
implements under every interleaving of its warps and from any buffers, so in particular its
result does not depend on the schedule.  And while the launch runs, a warp that has returned
from its `wait()` finds its peer's chunk in its rank's buffer: the synchronization the check
of `main` relies on, for every warp and any buffers.

## Main Definitions

* `allgatherResult` — what an allgather computes.
* `Synced` — a raised flag comes from its warp's signal, and a warp that has waited has its
  peer's flag raised.

## Main results

* `runPuts_chunkPuts` — the buffers after a run of chunk puts, in closed form.
* `Delivery.data_eq` — the buffers of every reachable state, in closed form.
* `launch_computes_allgather` — every run in which all warps return computes the allgather.
* `warpStep_synced`, `reachable_synced` — one call, then every run, keeps `Synced`.
* `wait_sees_peer_chunk` — a warp past its wait sees its peer's chunk.

## Design Notes

`allgatherResult` is stated from what the collective is for, not from the code: it reads
neither the puts nor the warps.  The launch is connected to it in two steps, through the run
of puts of `AllgatherTest`: a completed launch is a reordering of `allPuts`
(`Delivery.allReturned_perm`), and every reordering of `allPuts` computes the allgather.
-/

namespace Mscclpp.AllgatherTest

/-- **What an allgather computes**: every rank of the world ends with, in each chunk `c` of
its first `nelemsPerGPU * worldSize` `int`s, what rank `c` held there; everything else is
left as it was. -/
def allgatherResult (worldSize nelemsPerGPU : Nat) (data : Nat → Nat → Int) :
    Nat → Nat → Int := fun q i =>
  if q < worldSize ∧ i < nelemsPerGPU * worldSize then data (i / nelemsPerGPU) i else data q i

/-! ## Runs of chunk puts -/

section Puts

variable {worldSize nelemsPerGPU : Nat}

theorem chunkPut_inj {a b c d : Nat} :
    chunkPut nelemsPerGPU a b = chunkPut nelemsPerGPU c d ↔ a = c ∧ b = d := by
  constructor
  · intro h
    exact ⟨congrArg Put.src h, congrArg Put.dst h⟩
  · rintro ⟨rfl, rfl⟩
    rfl

/-- A chunk put, pointwise: rank `dst` takes rank `src`'s values on chunk `src`. -/
theorem chunkPut_apply_eq (data : Nat → Nat → Int) (src dst q i : Nat) :
    (chunkPut nelemsPerGPU src dst).apply data q i =
      if q = dst ∧ 0 < nelemsPerGPU ∧ i / nelemsPerGPU = src then data src i else data q i := by
  rcases Nat.eq_zero_or_pos nelemsPerGPU with h0 | hN
  · simp [Put.apply, chunkPut, h0]
  · unfold Put.apply
    simp only [chunkPut_covers_iff hN, hN, true_and]
    rfl

/-- **The closed form of a run of chunk puts** none of which goes back to its source: an
`int` of rank `q` holds its chunk owner's value iff the owner's put toward `q` is in the run.
No put reads what another writes, so the order of the run does not matter. -/
theorem runPuts_chunkPuts {run : List Put}
    (hrun : ∀ p ∈ run, ∃ src dst, dst ≠ src ∧ p = chunkPut nelemsPerGPU src dst)
    (data : Nat → Nat → Int) (q i : Nat) :
    runPuts run data q i =
      if 0 < nelemsPerGPU ∧ chunkPut nelemsPerGPU (i / nelemsPerGPU) q ∈ run
      then data (i / nelemsPerGPU) i else data q i := by
  induction run generalizing data with
  | nil => simp [runPuts]
  | cons p run ih =>
    obtain ⟨src, dst, hne, rfl⟩ := hrun p (List.mem_cons_self _ _)
    have hread : ¬(i / nelemsPerGPU = dst ∧ 0 < nelemsPerGPU ∧ i / nelemsPerGPU = src) :=
      fun h => hne (h.1.symm.trans h.2.2)
    rw [runPuts, List.foldl_cons, ← runPuts, ih (fun p hp => hrun p (List.mem_cons_of_mem _ hp)),
      chunkPut_apply_eq, chunkPut_apply_eq, if_neg hread]
    simp only [List.mem_cons, chunkPut_inj]
    by_cases hN : 0 < nelemsPerGPU
    · by_cases hmem : chunkPut nelemsPerGPU (i / nelemsPerGPU) q ∈ run
      · simp [hN, hmem]
      · by_cases hw : q = dst ∧ i / nelemsPerGPU = src
        · obtain ⟨rfl, h⟩ := hw
          simp [hN, hmem, h]
        · simp only [hN, hmem, true_and, and_false, or_false, ite_false]
          rw [if_neg hw, if_neg fun h : i / nelemsPerGPU = src ∧ q = dst => hw ⟨h.2, h.1⟩]
    · simp [hN]

/-- The allgather, in the form the closed form of a run gives. -/
theorem allgatherResult_eq_ite (data : Nat → Nat → Int) (q i : Nat) :
    allgatherResult worldSize nelemsPerGPU data q i =
      if 0 < nelemsPerGPU ∧ i / nelemsPerGPU < worldSize ∧ q < worldSize ∧ q ≠ i / nelemsPerGPU
      then data (i / nelemsPerGPU) i else data q i := by
  unfold allgatherResult
  by_cases hq : q = i / nelemsPerGPU
  · subst hq
    split_ifs <;> rfl
  · have hi : i < nelemsPerGPU * worldSize ↔ 0 < nelemsPerGPU ∧ i / nelemsPerGPU < worldSize := by
      rcases Nat.eq_zero_or_pos nelemsPerGPU with h0 | hN
      · simp [h0]
      · rw [Nat.div_lt_iff_lt_mul hN, Nat.mul_comm]
        simp [hN]
    simp only [hi, hq, ne_eq, not_false_eq_true, and_true]
    by_cases h : 0 < nelemsPerGPU ∧ i / nelemsPerGPU < worldSize ∧ q < worldSize
    · rw [if_pos ⟨h.2.2, h.1, h.2.1⟩, if_pos h]
    · rw [if_neg fun h' => h ⟨h'.2.1, h'.2.2, h'.1⟩, if_neg h]

end Puts

section Launch

variable {ranksPerNode dataSize worldSize nelemsPerGPU kernelNum : Nat}

theorem chunkPut_mem_allPuts (hk : kernelNum = 0 ∨ kernelNum = 1) {src dst : Nat} :
    chunkPut nelemsPerGPU src dst ∈ allPuts ranksPerNode worldSize dataSize nelemsPerGPU kernelNum ↔
      src < worldSize ∧ dst < worldSize ∧ dst ≠ src := by
  rw [mem_allPuts hk]
  constructor
  · rintro ⟨src, hsrc, dst, hdst, hne, h⟩
    obtain ⟨rfl, rfl⟩ := chunkPut_inj.1 h
    exact ⟨hsrc, hdst, hne⟩
  · rintro ⟨hsrc, hdst, hne⟩
    exact ⟨src, hsrc, dst, hdst, hne, rfl⟩

/-- **Every reordering of the puts of a launch computes the allgather.** -/
theorem runPuts_perm_allPuts (hk : kernelNum = 0 ∨ kernelNum = 1) {run : List Put}
    (hperm : run.Perm (allPuts ranksPerNode worldSize dataSize nelemsPerGPU kernelNum))
    (data : Nat → Nat → Int) :
    runPuts run data = allgatherResult worldSize nelemsPerGPU data := by
  have hrun : ∀ p ∈ run, ∃ src dst, dst ≠ src ∧ p = chunkPut nelemsPerGPU src dst := fun p hp => by
    obtain ⟨src, -, dst, -, hne, rfl⟩ := (mem_allPuts hk).1 (hperm.subset hp)
    exact ⟨src, dst, hne, rfl⟩
  funext q i
  rw [runPuts_chunkPuts hrun, allgatherResult_eq_ite]
  simp only [hperm.mem_iff, chunkPut_mem_allPuts hk]

end Launch

/-! ## The buffers of a reachable state -/

section Runs

variable {ranksPerNode dataSize worldSize nelemsPerGPU kernelNum : Nat} {data : Nat → Nat → Int}

theorem mem_landedPuts {s : Device} {p : Put} :
    p ∈ landedPuts worldSize nelemsPerGPU kernelNum s ↔
      ∃ r < worldSize, ∃ w < worldSize - 1,
        s.made worldSize nelemsPerGPU kernelNum DeviceCall.signals r w = true ∧
          p = chunkPut nelemsPerGPU r (remoteRankOf r w) := by
  simp only [landedPuts, warps, List.mem_filterMap, List.mem_product, List.mem_range,
    Prod.exists]
  constructor
  · rintro ⟨r, w, ⟨hr, hw⟩, hp⟩
    split at hp
    · cases hp
      exact ⟨r, hr, w, hw, by assumption, rfl⟩
    · cases hp
  · rintro ⟨r, hr, w, hw, hm, rfl⟩
    exact ⟨r, w, ⟨hr, hw⟩, by rw [if_pos hm]⟩

/-- **The buffers of every reachable state**: an `int` of rank `q` in the chunk of rank `c`
holds `c`'s value at launch once `c`'s put toward `q` has landed, and its own before. -/
theorem Delivery.data_eq {s : Device} (h : Delivery worldSize nelemsPerGPU kernelNum data s)
    (q i : Nat) :
    s.data q i =
      if 0 < nelemsPerGPU ∧
          chunkPut nelemsPerGPU (i / nelemsPerGPU) q ∈ landedPuts worldSize nelemsPerGPU kernelNum s
      then data (i / nelemsPerGPU) i else data q i := by
  obtain ⟨delivered, hperm, hdata⟩ := h.landed
  have hrun : ∀ p ∈ delivered, ∃ src dst, dst ≠ src ∧ p = chunkPut nelemsPerGPU src dst :=
    fun p hp => by
      obtain ⟨r, -, w, hw, -, rfl⟩ := mem_landedPuts.1 (hperm.subset hp)
      exact ⟨r, _, (remoteRankOf_lt_ne r hw).2, rfl⟩
  rw [hdata, runPuts_chunkPuts hrun]
  simp only [hperm.mem_iff]

/-- **The launch computes an allgather.**  In every interleaving of the warps of a launch on
every rank, from any buffers, once every warp has returned the buffers are those of the
allgather: every rank of the world holds, in chunk `c`, what rank `c` held there at launch,
and nothing else has changed.  So the result does not depend on the schedule. -/
theorem launch_computes_allgather (hk : kernelNum = 0 ∨ kernelNum = 1) {s : Device}
    (hs : Reachable (fun r => devConnsOf ranksPerNode r worldSize dataSize) worldSize
      nelemsPerGPU kernelNum (Device.start data) s)
    (hdone : AllReturned worldSize nelemsPerGPU kernelNum s) :
    s.data = allgatherResult worldSize nelemsPerGPU data := by
  obtain ⟨delivered, hperm, hdata⟩ := @Delivery.allReturned_perm ranksPerNode dataSize _ _ _ _
    hk s (reachable_delivery hk hs) hdone
  rw [hdata, runPuts_perm_allPuts hk hperm]

theorem launch_computes_allgather_two_ranks :
    ((runSchedule (fun r => devConnsOf 8 r 2 8) 2 1 1 (Device.start twoRankData)
      twoRankSchedule).getD (Device.start twoRankData)).data = allgatherResult 2 1 twoRankData :=
  @launch_computes_allgather 8 8 2 1 1 twoRankData (Or.inr rfl) _
    (@reachable_of_runSchedule _ 2 1 1 _ _ _ twoRankSchedule (by decide) .start rfl) (by decide)

end Runs

/-! ## What a returned wait sees -/

/-- The warp of `a` toward a peer `b` of the world is a warp of the launch. -/
theorem warpOf_lt {worldSize a b : Nat} (ha : a < worldSize) (hb : b < worldSize) (hne : b ≠ a) :
    warpOf a b < worldSize - 1 := by
  unfold warpOf
  split <;> omega

theorem Device.deliver_signals (s : Device) (src dst a b : Nat) :
    (s.deliver src dst).signals a b =
      if a = src ∧ b = dst then s.signals a b + 1 else s.signals a b := rfl

/-- A signal raises only its own connection's flag. -/
theorem Device.pos_signals_deliver {s : Device} {src dst a b : Nat}
    (h : 0 < (s.deliver src dst).signals a b) : 0 < s.signals a b ∨ (a = src ∧ b = dst) := by
  rw [Device.deliver_signals] at h
  split_ifs at h with hab
  · exact .inr hab
  · exact .inl h

section Sync

variable {devConns : Nat → List Nat} {worldSize nelemsPerGPU kernelNum : Nat}

/-- **What one call does to the flags**: a flag rises only by a signal of the warp that
steps, on its own connection, and a wait is taken only once its peer's flag is above the
waits the warp has done. -/
theorem warpStep_flags {s s' : Device} {rank warpId : Nat}
    (h : warpStep devConns worldSize nelemsPerGPU kernelNum s rank warpId = some s') :
    ∃ call, (warpCalls worldSize nelemsPerGPU kernelNum rank warpId)[s.pc rank warpId]? =
        some call ∧
      (∀ a b, 0 < s'.signals a b → 0 < s.signals a b ∨
        call.signals ∧ a = rank ∧ (devConns rank)[warpId]? = some b) ∧
      (call = .wait → ∃ dst, (devConns rank)[warpId]? = some dst ∧
        waitsDone (warpCalls worldSize nelemsPerGPU kernelNum rank warpId) (s.pc rank warpId) <
          s.signals dst rank) := by
  obtain ⟨call, hcall, hcases⟩ := warpStep_cases h
  refine ⟨call, hcall, ?_⟩
  rcases hcases with ⟨dst, _, _, hd, rfl, rfl⟩ | ⟨dst, hd, rfl, rfl⟩ |
    ⟨dst, _, _, hd, rfl, rfl⟩ | ⟨dst, hd, rfl, hlt, rfl⟩ | ⟨rfl, rfl⟩
  · exact ⟨fun _ _ => .inl, fun h => by cases h⟩
  · exact ⟨fun a b hpos => (Device.pos_signals_deliver hpos).imp id
      fun hab : a = rank ∧ b = dst => ⟨rfl, hab.1, hab.2 ▸ hd⟩, fun h => by cases h⟩
  · exact ⟨fun a b hpos => (Device.pos_signals_deliver hpos).imp id
      fun hab : a = rank ∧ b = dst => ⟨rfl, hab.1, hab.2 ▸ hd⟩, fun h => by cases h⟩
  · exact ⟨fun _ _ => .inl, fun _ => ⟨dst, hd, hlt⟩⟩
  · exact ⟨fun _ _ => .inl, fun h => by cases h⟩

/-- Moving a warp past its call adds the call to those it has made, counted by kind. -/
theorem count_take_advance {s : Device} {rank warpId : Nat} {call : DeviceCall}
    (hcall : (warpCalls worldSize nelemsPerGPU kernelNum rank warpId)[s.pc rank warpId]? =
      some call) (c : DeviceCall) (r w : Nat) :
    ((warpCalls worldSize nelemsPerGPU kernelNum r w).take ((s.advance rank warpId).pc r w)).count
        c =
      ((warpCalls worldSize nelemsPerGPU kernelNum r w).take (s.pc r w)).count c +
        if r = rank ∧ w = warpId ∧ call = c then 1 else 0 := by
  rw [Device.advance_pc]
  by_cases h : r = rank ∧ w = warpId
  · obtain ⟨rfl, rfl⟩ := h
    simp [take_succ_eq_of_getElem? hcall, List.count_singleton]
  · rw [if_neg h, if_neg fun h' : r = rank ∧ w = warpId ∧ call = c => h ⟨h'.1, h'.2.1⟩,
      Nat.add_zero]

end Sync

/-- **The synchronization invariant**: a raised flag comes from the signal of the warp of
its source toward its destination, and a warp that has returned from its wait has its peer's
flag raised. -/
structure Synced (worldSize nelemsPerGPU kernelNum : Nat) (s : Device) : Prop where
  signals_made : ∀ a b, 0 < s.signals a b →
    a < worldSize ∧ b < worldSize ∧ b ≠ a ∧
      s.made worldSize nelemsPerGPU kernelNum DeviceCall.signals a (warpOf a b) = true
  waited : ∀ r < worldSize, ∀ w < worldSize - 1,
    0 < waitsDone (warpCalls worldSize nelemsPerGPU kernelNum r w) (s.pc r w) →
      0 < s.signals (remoteRankOf r w) r

section Synced

variable {ranksPerNode dataSize worldSize nelemsPerGPU kernelNum : Nat} {data : Nat → Nat → Int}

/-- The launch starts with no flag raised and no wait done. -/
theorem Synced.start : Synced worldSize nelemsPerGPU kernelNum (Device.start data) where
  signals_made _ _ h := absurd h (lt_irrefl 0)
  waited _ _ _ _ h := by simp [Device.start, waitsDone] at h

/-- **Step lemma** of `Synced`: a signal raises the flag of the warp's own peer after the
warp has made it, and a wait is taken only once that flag is raised. -/
theorem warpStep_synced {s s' : Device} {rank warpId : Nat} (hrank : rank < worldSize)
    (hw : warpId < worldSize - 1) (h : Synced worldSize nelemsPerGPU kernelNum s)
    (hstep : warpStep (fun r => devConnsOf ranksPerNode r worldSize dataSize) worldSize
      nelemsPerGPU kernelNum s rank warpId = some s') :
    Synced worldSize nelemsPerGPU kernelNum s' := by
  obtain ⟨call, hcall, hpc, hmono, -⟩ := warpStep_frame hstep
  obtain ⟨call', hcall', hflag, hwait⟩ := warpStep_flags hstep
  obtain rfl : call = call' := Option.some.inj (hcall.symm.trans hcall')
  have hmade := fun q r w => (Device.made_congr hpc q r w).trans (Device.made_advance hcall q r w)
  refine ⟨fun a b hpos => ?_, fun r hr w hw' hpos => ?_⟩
  · rcases hflag a b hpos with hpos | ⟨hsig, rfl, hd⟩
    · obtain ⟨ha, hb, hne, hm⟩ := h.signals_made a b hpos
      refine ⟨ha, hb, hne, ?_⟩
      rw [hmade]
      split_ifs with hrw
      · obtain ⟨rfl, rfl⟩ := hrw
        rw [hm, Bool.true_or]
      · exact hm
    · obtain rfl := eq_remoteRankOf_of_devConnsOf hrank hw hd
      obtain ⟨hb, hne⟩ := remoteRankOf_lt_ne a hw
      refine ⟨hrank, hb, hne, ?_⟩
      rw [warpOf_remoteRankOf, hmade, if_pos ⟨rfl, rfl⟩, hsig, Bool.or_true]
  · rw [waitsDone, hpc, count_take_advance hcall] at hpos
    by_cases hrw : r = rank ∧ w = warpId ∧ call = .wait
    · obtain ⟨rfl, rfl, rfl⟩ := hrw
      obtain ⟨dst, hd, hlt⟩ := hwait rfl
      obtain rfl := eq_remoteRankOf_of_devConnsOf hrank hw hd
      exact lt_of_le_of_lt (Nat.zero_le _) (lt_of_lt_of_le hlt (hmono _ _))
    · rw [if_neg hrw, Nat.add_zero] at hpos
      exact lt_of_lt_of_le (h.waited r hr w hw' hpos) (hmono _ _)

/-- **Run lemma** of `Synced`. -/
theorem reachable_synced {s : Device}
    (hs : Reachable (fun r => devConnsOf ranksPerNode r worldSize dataSize) worldSize
      nelemsPerGPU kernelNum (Device.start data) s) :
    Synced worldSize nelemsPerGPU kernelNum s := by
  induction hs with
  | start => exact Synced.start
  | step rank warpId hrank hwarp _ hstep ih => exact warpStep_synced hrank hwarp ih hstep

/-- **A returned wait sees its peer's chunk.**  In every state of a launch on every rank,
from any buffers, a warp that has returned from its `wait()` finds in its rank's buffer the
chunk of its peer as the peer held it at launch: the peer's flag is raised only by the
signal that lands that chunk. -/
theorem wait_sees_peer_chunk (hk : kernelNum = 0 ∨ kernelNum = 1) {s : Device}
    (hs : Reachable (fun r => devConnsOf ranksPerNode r worldSize dataSize) worldSize
      nelemsPerGPU kernelNum (Device.start data) s)
    {rank warpId : Nat} (hrank : rank < worldSize) (hw : warpId < worldSize - 1)
    (hwaited : 0 < waitsDone (warpCalls worldSize nelemsPerGPU kernelNum rank warpId)
      (s.pc rank warpId)) :
    ∀ j < nelemsPerGPU, s.data rank (remoteRankOf rank warpId * nelemsPerGPU + j) =
      data (remoteRankOf rank warpId) (remoteRankOf rank warpId * nelemsPerGPU + j) := by
  intro j hj
  have hsync := reachable_synced hs
  obtain ⟨hq, -, hne, hmade⟩ := hsync.signals_made _ _ (hsync.waited rank hrank warpId hw hwaited)
  have hdiv : (remoteRankOf rank warpId * nelemsPerGPU + j) / nelemsPerGPU =
      remoteRankOf rank warpId := by
    rw [Nat.add_comm, Nat.add_mul_div_right _ _ (by omega), Nat.div_eq_of_lt hj, Nat.zero_add]
  have hland : chunkPut nelemsPerGPU (remoteRankOf rank warpId) rank ∈
      landedPuts worldSize nelemsPerGPU kernelNum s :=
    mem_landedPuts.2 ⟨_, hq, _, warpOf_lt hq hrank hne, hmade, by rw [remoteRankOf_warpOf hne]⟩
  rw [(reachable_delivery hk hs).data_eq, hdiv, if_pos ⟨by omega, hland⟩]

theorem wait_sees_peer_chunk_two_ranks :
    ((runSchedule (fun r => devConnsOf 8 r 2 8) 2 1 1 (Device.start twoRankData)
        twoRankSchedule).getD (Device.start twoRankData)).data 0 (remoteRankOf 0 0 * 1 + 0) =
      twoRankData (remoteRankOf 0 0) (remoteRankOf 0 0 * 1 + 0) :=
  @wait_sees_peer_chunk 8 8 2 1 1 twoRankData (Or.inr rfl) _
    (@reachable_of_runSchedule _ 2 1 1 _ _ _ twoRankSchedule (by decide) .start rfl) 0 0
    (by decide) (by decide) (by decide) 0 (by decide)

end Synced

end Mscclpp.AllgatherTest
