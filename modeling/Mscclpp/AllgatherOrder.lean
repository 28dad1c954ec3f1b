import Mscclpp.AllgatherResult

/-!
# The calls of `allgather1`: the order of its puts

`allgather1` puts its rank's chunk to rank `(rank + i) % world_size` in iteration `i` of its
loop and starts every iteration with `__syncthreads()`; its comment gives the order as the
point of the algorithm ("Step 1: GPU rank i sends data to GPU rank (i+1) % world_size",
"This order is much better for DMA engine for NVLinks").  This module proves that the
barriers enforce that order in every interleaving: in every state a launch reaches, the
warp of a rank toward its `i'`-th peer of the order has made its put only if the warps
toward the earlier peers have made theirs.

The argument is the invariant of a block-wide barrier: no warp of a block has crossed two
barriers more than another, and a warp that has crossed one more has the other waiting at
that barrier.  The warp toward the `i`-th peer makes its put right after its `i`-th barrier,
so a warp past its `i'`-th barrier leaves the warps toward the earlier peers past their puts.

## Main Definitions

* `BarrierCounts` — the barrier invariant over the warps of one block.
* `BarrierInv` — that invariant at every rank of a launch.
* `iterationOf` — the iteration of `allgather1` in which the warp toward a peer puts.

## Main results

* `BarrierCounts.other`, `BarrierCounts.cross` — a call other than a barrier, and a barrier
  that every warp has reached, keep the invariant.
* `warpStep_barrierInv`, `reachable_barrierInv` — one call, then every run, keeps
  `BarrierInv`.
* `warpCalls_warpOf` — the calls of the warp toward the `i`-th peer: `i` barriers, its put
  with signal, the later barriers, the wait.
* `allgather1_puts_in_order` — each rank puts to its peers in the order of the comment.

## Design Notes

Neither the barrier invariant nor the order reads the connections: both hold for any
`devConns`, so they are results about the barriers alone.

The comment's second line, "Step 2: GPU rank i waits for data from GPU rank (i+2) %
world_size", is not what the code does: in iteration `2` the rank puts to
`(rank + 2) % world_size`, and every warp waits once, after the loop.  The order proved
here is the code's.
-/

namespace Mscclpp.AllgatherTest

/-! ## The barrier invariant of a block -/

/-- **The barrier invariant** over the warps `w < n` of a block, given the barriers each has
crossed and whether each waits at a barrier: no warp has crossed two barriers more than
another, and one that has crossed one more has the other waiting at the barrier. -/
def BarrierCounts (n : Nat) (crossed : Nat → Nat) (atBarrier : Nat → Prop) : Prop :=
  ∀ v < n, ∀ w < n, crossed w ≤ crossed v + 1 ∧ (crossed w = crossed v + 1 → atBarrier v)

section Counts

variable {n : Nat} {crossed crossed' : Nat → Nat} {atBarrier atBarrier' : Nat → Prop}

/-- A call other than a barrier, made by a warp `u` that does not wait at one, keeps the
invariant. -/
theorem BarrierCounts.other (h : BarrierCounts n crossed atBarrier) {u : Nat}
    (hu : ¬atBarrier u) (hcrossed : ∀ w, crossed' w = crossed w)
    (hat : ∀ v, v ≠ u → (atBarrier' v ↔ atBarrier v)) :
    BarrierCounts n crossed' atBarrier' := by
  intro v hv w hw
  obtain ⟨hle, hwait⟩ := h v hv w hw
  rw [hcrossed, hcrossed]
  refine ⟨hle, fun heq => ?_⟩
  by_cases hvu : v = u
  · exact absurd (hwait heq) (hvu ▸ hu)
  · exact (hat v hvu).2 (hwait heq)

/-- Warp `u` crossing a barrier that every warp of the block has reached keeps the
invariant. -/
theorem BarrierCounts.cross (h : BarrierCounts n crossed atBarrier) {u : Nat}
    (hready : ∀ v < n, crossed u < crossed v ∨ (crossed v = crossed u ∧ atBarrier v))
    (hcrossed : ∀ w, crossed' w = crossed w + if w = u then 1 else 0)
    (hat : ∀ v, v ≠ u → (atBarrier' v ↔ atBarrier v)) :
    BarrierCounts n crossed' atBarrier' := by
  intro v hv w hw
  obtain ⟨hle, hwait⟩ := h v hv w hw
  rw [hcrossed, hcrossed]
  by_cases hwu : w = u <;> by_cases hvu : v = u
  · subst hwu hvu
    rw [if_pos rfl]
    exact ⟨by omega, fun heq => by omega⟩
  · subst hwu
    rw [if_pos rfl, if_neg hvu, Nat.add_zero]
    rcases hready v hv with hlt | ⟨heq, hv'⟩
    · exact ⟨by omega, fun heq => by omega⟩
    · exact ⟨by omega, fun _ => (hat v hvu).2 hv'⟩
  · subst hvu
    rw [if_pos rfl, if_neg hwu, Nat.add_zero]
    exact ⟨by omega, fun heq => by omega⟩
  · rw [if_neg hwu, if_neg hvu, Nat.add_zero, Nat.add_zero]
    exact ⟨hle, fun heq => (hat v hvu).2 (hwait heq)⟩

end Counts

/-! ## The barriers of a launch -/

/-- **The barrier invariant of a launch**: `BarrierCounts` over the warps of every rank. -/
def BarrierInv (worldSize nelemsPerGPU kernelNum : Nat) (s : Device) : Prop :=
  ∀ rank, BarrierCounts (worldSize - 1)
    (fun w => barriersDone (warpCalls worldSize nelemsPerGPU kernelNum rank w) (s.pc rank w))
    (fun w => (warpCalls worldSize nelemsPerGPU kernelNum rank w)[s.pc rank w]? =
      some .syncthreads)

section Barriers

variable {devConns : Nat → List Nat} {worldSize nelemsPerGPU kernelNum : Nat}

/-- A barrier is crossed only when every warp of the block has reached it. -/
theorem barrierReady_of_warpStep {s s' : Device} {rank warpId : Nat}
    (h : warpStep devConns worldSize nelemsPerGPU kernelNum s rank warpId = some s')
    (hcall : (warpCalls worldSize nelemsPerGPU kernelNum rank warpId)[s.pc rank warpId]? =
      some .syncthreads) :
    ∀ v < worldSize - 1,
      barriersDone (warpCalls worldSize nelemsPerGPU kernelNum rank warpId) (s.pc rank warpId) <
          barriersDone (warpCalls worldSize nelemsPerGPU kernelNum rank v) (s.pc rank v) ∨
        barriersDone (warpCalls worldSize nelemsPerGPU kernelNum rank v) (s.pc rank v) =
            barriersDone (warpCalls worldSize nelemsPerGPU kernelNum rank warpId)
              (s.pc rank warpId) ∧
          (warpCalls worldSize nelemsPerGPU kernelNum rank v)[s.pc rank v]? = some .syncthreads := by
  have hready : barrierReady worldSize nelemsPerGPU kernelNum s rank warpId = true := by
    unfold warpStep at h
    rw [hcall] at h
    generalize (devConns rank)[warpId]? = d at h
    cases d <;> simp only at h <;> split_ifs at h with hb <;> exact hb
  simpa only [barrierReady, List.all_eq_true, List.mem_range, Bool.or_eq_true, Bool.and_eq_true,
    decide_eq_true_eq] using hready

variable {data : Nat → Nat → Int}

/-- The launch starts with every warp before its first barrier. -/
theorem BarrierInv.start : BarrierInv worldSize nelemsPerGPU kernelNum (Device.start data) :=
  fun _ _ _ _ _ => by simp [Device.start, barriersDone]

/-- **Step lemma** of `BarrierInv`: a barrier is crossed once every warp of the block has
reached it, and any other call leaves the barriers crossed as they were. -/
theorem warpStep_barrierInv {s s' : Device} {rank warpId : Nat}
    (h : BarrierInv worldSize nelemsPerGPU kernelNum s)
    (hstep : warpStep devConns worldSize nelemsPerGPU kernelNum s rank warpId = some s') :
    BarrierInv worldSize nelemsPerGPU kernelNum s' := by
  obtain ⟨call, hcall, hpc, -, -⟩ := warpStep_frame hstep
  intro r
  by_cases hr : r = rank
  · subst hr
    have hat : ∀ v, v ≠ warpId →
        ((warpCalls worldSize nelemsPerGPU kernelNum r v)[s'.pc r v]? = some .syncthreads ↔
          (warpCalls worldSize nelemsPerGPU kernelNum r v)[s.pc r v]? = some .syncthreads) :=
      fun v hv => by rw [hpc, Device.advance_pc, if_neg fun h => hv h.2]
    have hcrossed : ∀ w,
        barriersDone (warpCalls worldSize nelemsPerGPU kernelNum r w) (s'.pc r w) =
          barriersDone (warpCalls worldSize nelemsPerGPU kernelNum r w) (s.pc r w) +
            if w = warpId ∧ call = .syncthreads then 1 else 0 := fun w => by
      simp only [barriersDone, hpc, count_take_advance hcall, true_and]
    by_cases hsync : call = .syncthreads
    · subst hsync
      exact (h r).cross (barrierReady_of_warpStep hstep hcall)
        (fun w => by simp only [hcrossed, and_true]) hat
    · exact (h r).other (by rw [hcall]; exact fun h => hsync (Option.some.inj h))
        (fun w => by simp only [hcrossed, hsync, and_false, if_false, Nat.add_zero]) hat
  · have hpc' : ∀ w, s'.pc r w = s.pc r w := fun w => by
      rw [hpc, Device.advance_pc, if_neg fun h => hr h.1]
    simpa only [hpc'] using h r

/-- **Run lemma** of `BarrierInv`. -/
theorem reachable_barrierInv {s : Device}
    (hs : Reachable devConns worldSize nelemsPerGPU kernelNum (Device.start data) s) :
    BarrierInv worldSize nelemsPerGPU kernelNum s := by
  induction hs with
  | start => exact BarrierInv.start
  | step _ _ _ _ _ hstep ih => exact warpStep_barrierInv ih hstep

end Barriers

/-! ## The calls of `allgather1`, laid out -/

/-- The iteration of the loop of `allgather1` on `rank` in which the warp toward `q` puts. -/
def iterationOf (rank worldSize q : Nat) : Nat := (q + worldSize - rank) % worldSize

section Layout

variable {rank worldSize q nelemsPerGPU : Nat}

/-- Iterations that do not name the warp's peer are barriers alone. -/
theorem flatMap_allgather1Step_of_ne {l : List Nat} (h : ∀ i ∈ l, q ≠ (rank + i) % worldSize) :
    l.flatMap (allgather1Step rank worldSize q nelemsPerGPU) =
      List.replicate l.length .syncthreads := by
  induction l with
  | nil => rfl
  | cons i l ih =>
    rw [List.flatMap_cons, ih fun j hj => h j (List.mem_cons_of_mem _ hj), allgather1Step,
      if_pos (h i (List.mem_cons_self _ _))]
    rfl

/-- The warp toward a peer puts in one of the iterations `1` to `world_size - 1`. -/
theorem iterationOf_mem (hrank : rank < worldSize) (hq : q < worldSize) (hne : q ≠ rank) :
    1 ≤ iterationOf rank worldSize q ∧ iterationOf rank worldSize q < worldSize := by
  unfold iterationOf
  rw [mod_of_lt_two_mul (by omega)]
  split <;> omega

/-- **The calls of `allgather1`**: a barrier per iteration up to the warp's own, its put
with signal, a barrier per later iteration, and the wait. -/
theorem allgather1_eq (hrank : rank < worldSize) (hq : q < worldSize) (hne : q ≠ rank) :
    allgather1 rank worldSize q nelemsPerGPU =
      List.replicate (iterationOf rank worldSize q) .syncthreads ++
        .putWithSignal (rank * nelemsPerGPU * sizeofInt) (nelemsPerGPU * sizeofInt) ::
          (List.replicate (worldSize - 1 - iterationOf rank worldSize q) .syncthreads ++
            [.wait]) := by
  have hi := iterationOf_mem hrank hq hne
  obtain ⟨t, ht⟩ : ∃ t, iterationOf rank worldSize q = t + 1 :=
    ⟨_, (Nat.succ_pred_eq_of_pos hi.1).symm⟩
  have hsplit : List.range' 1 (worldSize - 1) =
      List.range' 1 t ++ (t + 1) :: List.range' (t + 2) (worldSize - 2 - t) := by
    rw [show worldSize - 1 = worldSize - 2 - t + 1 + t by omega, ← List.range'_append_1,
      List.range'_succ, Nat.add_comm 1 t]
  have hother : ∀ i, 1 ≤ i → i < worldSize → i ≠ t + 1 → q ≠ (rank + i) % worldSize :=
    fun i h1 h2 hne' hqi => hne' ((iteration_eq_iff hrank hq ⟨h1, h2⟩).1 hqi ▸ ht)
  have hbefore : ∀ i ∈ List.range' 1 t, q ≠ (rank + i) % worldSize := fun i hi' =>
    have hi' := List.mem_range'_1.1 hi'
    hother i hi'.1 (by omega) (by omega)
  have hafter : ∀ i ∈ List.range' (t + 2) (worldSize - 2 - t), q ≠ (rank + i) % worldSize :=
    fun i hi' =>
      have hi' := List.mem_range'_1.1 hi'
      hother i (by omega) (by omega) (by omega)
  rw [allgather1, hsplit, List.flatMap_append, List.flatMap_cons,
    flatMap_allgather1Step_of_ne hbefore, flatMap_allgather1Step_of_ne hafter, allgather1Step,
    if_neg (not_not.2 ((iteration_eq_iff hrank hq (ht ▸ hi)).2 ht.symm)), ht]
  simp only [List.length_range', List.replicate_succ', List.append_assoc, List.cons_append,
    List.singleton_append, List.nil_append]
  rw [show worldSize - 1 - (t + 1) = worldSize - 2 - t by omega]

end Layout

section Positions

variable {L rest : List DeviceCall} {t pc offset size : Nat}

theorem take_replicate_append_of_le {c : DeviceCall} (h : pc ≤ t) :
    (List.replicate t DeviceCall.syncthreads ++ c :: rest).take pc =
      List.replicate pc .syncthreads := by
  rw [List.take_append_of_le_length (by simpa using h), List.take_replicate, Nat.min_eq_left h]

theorem take_replicate_append_of_lt {c : DeviceCall} (h : t < pc) :
    (List.replicate t DeviceCall.syncthreads ++ c :: rest).take pc =
      List.replicate t .syncthreads ++ c :: rest.take (pc - t - 1) := by
  obtain ⟨k, hk⟩ : ∃ k, pc - t = k + 1 := ⟨pc - t - 1, by omega⟩
  rw [List.take_append_eq_append_take, List.take_of_length_le (by simp; omega),
    List.length_replicate, hk, List.take_succ_cons, Nat.add_sub_cancel]

/-- A warp whose calls are barriers then a put has made its put iff it is past it. -/
theorem any_posts_take_iff
    (hL : L = List.replicate t .syncthreads ++ .putWithSignal offset size :: rest) :
    (L.take pc).any DeviceCall.posts = true ↔ t < pc := by
  subst hL
  by_cases h : t < pc
  · simp [take_replicate_append_of_lt h, DeviceCall.posts, h]
  · simp [take_replicate_append_of_le (Nat.le_of_not_lt h), DeviceCall.posts, h]

/-- Before its put, such a warp has crossed a barrier per call. -/
theorem barriersDone_of_le
    (hL : L = List.replicate t .syncthreads ++ .putWithSignal offset size :: rest)
    (h : pc ≤ t) : barriersDone L pc = pc := by
  rw [hL, barriersDone, take_replicate_append_of_le h, List.count_replicate_self]

/-- Past its put, such a warp has crossed all the barriers before it. -/
theorem le_barriersDone_of_lt
    (hL : L = List.replicate t .syncthreads ++ .putWithSignal offset size :: rest)
    (h : t < pc) : t ≤ barriersDone L pc := by
  rw [hL, barriersDone, take_replicate_append_of_lt h, List.count_append,
    List.count_replicate_self]
  omega

/-- The call after the barriers is the put. -/
theorem getElem?_eq_putWithSignal
    (hL : L = List.replicate t .syncthreads ++ .putWithSignal offset size :: rest) :
    L[t]? = some (.putWithSignal offset size) := by
  rw [hL, List.getElem?_append_right (by simp), List.length_replicate, Nat.sub_self,
    List.getElem?_cons_zero]

end Positions

section Order

variable {devConns : Nat → List Nat} {worldSize nelemsPerGPU : Nat} {data : Nat → Nat → Int}

/-- **The calls of the warp toward the `i`-th peer** of the order: `i` barriers, its put
with signal, the later barriers, the wait. -/
theorem warpCalls_warpOf {rank i : Nat} (hrank : rank < worldSize) (hi : 1 ≤ i)
    (hi' : i < worldSize) :
    warpCalls worldSize nelemsPerGPU 1 rank (warpOf rank ((rank + i) % worldSize)) =
      List.replicate i .syncthreads ++
        .putWithSignal (rank * nelemsPerGPU * sizeofInt) (nelemsPerGPU * sizeofInt) ::
          (List.replicate (worldSize - 1 - i) .syncthreads ++ [.wait]) := by
  have hq : (rank + i) % worldSize < worldSize := Nat.mod_lt _ (by omega)
  have hne : (rank + i) % worldSize ≠ rank := by
    rw [mod_of_lt_two_mul (by omega)]
    split <;> omega
  have hiter : iterationOf rank worldSize ((rank + i) % worldSize) = i :=
    ((iteration_eq_iff hrank hq ⟨hi, hi'⟩).1 rfl).symm
  rw [warpCalls_eq, if_neg Nat.one_ne_zero, if_pos rfl, remoteRankOf_warpOf hne,
    allgather1_eq hrank hq hne, hiter]

/-- **`allgather1` sends in the order of its comment.**  In every state a launch of
`allgather1` on every rank reaches, in any interleaving of the warps, if the warp of `rank`
toward rank `(rank + i') % world_size` has made its put, then so has the warp toward
`(rank + i) % world_size` for every earlier iteration `1 ≤ i < i'`: each rank puts to
`rank + 1`, then `rank + 2`, and so on around the ring. -/
theorem allgather1_puts_in_order {s : Device}
    (hs : Reachable devConns worldSize nelemsPerGPU 1 (Device.start data) s)
    {rank i i' : Nat} (hrank : rank < worldSize) (hi : 1 ≤ i) (hii' : i < i')
    (hi' : i' < worldSize)
    (hput : s.made worldSize nelemsPerGPU 1 DeviceCall.posts rank
      (warpOf rank ((rank + i') % worldSize)) = true) :
    s.made worldSize nelemsPerGPU 1 DeviceCall.posts rank
      (warpOf rank ((rank + i) % worldSize)) = true := by
  have hwarp : ∀ j, 1 ≤ j → j < worldSize → warpOf rank ((rank + j) % worldSize) < worldSize - 1 :=
    fun j h1 h2 => warpOf_lt hrank (Nat.mod_lt _ (by omega)) (by
      rw [mod_of_lt_two_mul (by omega)]
      split <;> omega)
  have hA : warpCalls worldSize nelemsPerGPU 1 rank (warpOf rank ((rank + i) % worldSize)) = _ :=
    warpCalls_warpOf hrank hi (by omega)
  have hB : warpCalls worldSize nelemsPerGPU 1 rank (warpOf rank ((rank + i') % worldSize)) = _ :=
    warpCalls_warpOf hrank (by omega) hi'
  obtain ⟨hle, hwait⟩ := reachable_barrierInv hs rank _ (hwarp i hi (by omega)) _
    (hwarp i' (by omega) hi')
  dsimp only at hle hwait
  unfold Device.made at hput ⊢
  rw [any_posts_take_iff hB] at hput
  rw [any_posts_take_iff hA]
  have hcrossed := le_barriersDone_of_lt hB hput
  refine Nat.lt_of_not_le fun hpc => ?_
  rw [barriersDone_of_le hA hpc] at hle hwait
  have hat := hwait (by omega)
  rw [show s.pc rank (warpOf rank ((rank + i) % worldSize)) = i by omega,
    getElem?_eq_putWithSignal hA] at hat
  cases hat

theorem allgather1_puts_in_order_three_ranks :
    ((runSchedule (fun r => devConnsOf 8 r 3 8) 3 1 1 (Device.start fun _ _ => 0)
        [(0, 0), (0, 1), (0, 0), (0, 0), (0, 1), (0, 1)]).getD
      (Device.start fun _ _ => 0)).made 3 1 1 DeviceCall.posts 0 (warpOf 0 ((0 + 1) % 3)) =
        true :=
  @allgather1_puts_in_order (fun r => devConnsOf 8 r 3 8) 3 1 (fun _ _ => 0) _
    (@reachable_of_runSchedule _ 3 1 1 _ _ _ [(0, 0), (0, 1), (0, 0), (0, 0), (0, 1), (0, 1)]
      (by decide) .start rfl) 0 1 2 (by decide) (by decide) (by decide) (by decide) (by decide)

end Order

end Mscclpp.AllgatherTest
