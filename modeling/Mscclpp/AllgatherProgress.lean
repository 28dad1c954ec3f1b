import Mathlib.Algebra.Order.BigOperators.Group.Finset
import Mathlib.Data.Nat.Find
import Mscclpp.AllgatherRun

/-!
# The allgather launch runs to its end

`AllgatherRun` says what a rank holds once its kernel has returned; this module says that
the kernels do return.  In every state a launch on every rank reaches, whatever the
interleaving of the warps, either every warp of every rank has returned or some warp can make
its next call; every call leaves one call fewer to make; so from every reachable state the
launch can run to its end, where the check of `main` passes on every rank.

## Main Definitions

* `DeviceCall.signals` — whether a call raises the flag of its connection.
* `AllReturned` — every warp of every rank has returned.
* `Signalled` — a warp that has passed its signal has raised its connection's flag.
* `callsLeft` — the calls the warps have left to make.

## Main results

* `warpStep_ne_none` — what a warp needs to make its next call.
* `reachable_signalled` — every run keeps `Signalled`.
* `not_syncthreads_of_blocked`, `returned_or_wait_of_blocked` — in a rank none of whose warps
  can move, no warp stands at a barrier, and every warp has returned or waits.
* `Signalled.progress`, `launch_deadlock_free` — every reachable state has returned or can
  move.
* `launch_completes` — from every reachable state the launch can run to its end, and the
  check of `main` then passes on every rank.

## Design Notes

Both algorithms wait once, as their last call, and cross the same barriers on every warp of
a rank.  A rank whose warps are all stuck therefore has none at a barrier: among those at a
barrier, one that has crossed the fewest is released, since every other warp of its block has
crossed more, or stands at the same barrier, or waits or has returned and so has crossed all
of them.  A warp that waits is then released by its peer's warp toward it, which has
returned or waits and so has signalled.  No fairness is assumed: `launch_deadlock_free` holds
at every state of every run, and `callsLeft_lt_of_warpStep` bounds every run by `callsLeft`.
-/

namespace Mscclpp.AllgatherTest

/-- Whether a call raises the flag of its connection. -/
def DeviceCall.signals : DeviceCall → Bool
  | .signal | .putWithSignal .. => true
  | _ => false

/-! ## The calls of a warp -/

section Calls

variable {worldSize nelemsPerGPU kernelNum rank warpId : Nat}

/-- Both algorithms wait once, as their last call. -/
theorem warpCalls_eq_append_wait (hk : kernelNum = 0 ∨ kernelNum = 1) :
    ∃ body, warpCalls worldSize nelemsPerGPU kernelNum rank warpId = body ++ [.wait] ∧
      .wait ∉ body := by
  rw [warpCalls_eq]
  rcases hk with rfl | rfl
  · exact ⟨[.put (rank * nelemsPerGPU * sizeofInt) (nelemsPerGPU * sizeofInt), .signal], rfl,
      by simp⟩
  · rw [if_neg Nat.one_ne_zero, if_pos rfl]
    refine ⟨_, rfl, ?_⟩
    simp only [List.mem_flatMap, not_exists, not_and]
    intro i _
    unfold allgather1Step
    split_ifs <;> simp

/-- Every warp of a rank crosses as many barriers. -/
theorem count_syncthreads_warpCalls (v : Nat) :
    (warpCalls worldSize nelemsPerGPU kernelNum rank warpId).count .syncthreads =
      (warpCalls worldSize nelemsPerGPU kernelNum rank v).count .syncthreads := by
  have hstep : ∀ q i,
      (allgather1Step rank worldSize q nelemsPerGPU i).count .syncthreads = 1 := by
    intro q i
    unfold allgather1Step
    split_ifs <;> simp
  simp only [warpCalls_eq]
  split_ifs
  · rfl
  · simp only [allgather1, List.count_append, List.flatMap, List.count_flatten, List.map_map,
      Function.comp_def, hstep]
  · rfl

/-- Every warp toward a peer raises its connection's flag. -/
theorem any_signals_warpCalls (hk : kernelNum = 0 ∨ kernelNum = 1) (hrank : rank < worldSize)
    (hw : warpId < worldSize - 1) :
    (warpCalls worldSize nelemsPerGPU kernelNum rank warpId).any DeviceCall.signals := by
  rw [warpCalls_eq]
  rcases hk with rfl | rfl
  · rfl
  · obtain ⟨hq, hne⟩ := remoteRankOf_lt_ne rank hw
    have hi : 1 ≤ (remoteRankOf rank warpId + worldSize - rank) % worldSize ∧
        (remoteRankOf rank warpId + worldSize - rank) % worldSize < worldSize := by
      rw [mod_of_lt_two_mul (by omega)]
      split <;> omega
    simp only [if_neg Nat.one_ne_zero, if_pos, allgather1, List.any_append, List.any_flatMap,
      Bool.or_eq_true, List.any_eq_true]
    refine .inl ⟨_, mem_range'_one_iff.2 hi, ?_⟩
    rw [allgather1Step, if_neg (not_not.2 ((iteration_eq_iff hrank hq hi).2 rfl))]
    simp [DeviceCall.signals]

end Calls

section Position

variable {calls : List DeviceCall} {pc : Nat}

/-- A warp at its last call, the wait, has made every other call. -/
theorem take_eq_of_getElem?_eq_wait {body : List DeviceCall} (hbody : DeviceCall.wait ∉ body)
    (h : (body ++ [DeviceCall.wait])[pc]? = some .wait) :
    (body ++ [DeviceCall.wait]).take pc = body := by
  rcases lt_trichotomy pc body.length with hlt | rfl | hgt
  · rw [List.getElem?_append_left hlt] at h
    exact absurd (List.getElem?_mem h) hbody
  · simp
  · rw [List.getElem?_eq_none (by simp; omega)] at h
    cases h

/-- A warp that has returned, or waits, has crossed all its barriers and raised its flag. -/
theorem crossed_of_returned_or_wait
    (hcalls : ∃ body, calls = body ++ [.wait] ∧ DeviceCall.wait ∉ body)
    (h : calls.length ≤ pc ∨ calls[pc]? = some .wait) :
    (calls.take pc).count .syncthreads = calls.count .syncthreads ∧
      (calls.take pc).any DeviceCall.signals = calls.any DeviceCall.signals := by
  obtain ⟨body, rfl, hbody⟩ := hcalls
  rcases h with h | h
  · rw [List.take_of_length_le h]
    exact ⟨rfl, rfl⟩
  · rw [take_eq_of_getElem?_eq_wait hbody h]
    simp [List.count_append, DeviceCall.signals]

/-- A warp at its wait has not waited yet. -/
theorem waitsDone_eq_zero_of_wait
    (hcalls : ∃ body, calls = body ++ [.wait] ∧ DeviceCall.wait ∉ body)
    (h : calls[pc]? = some .wait) : waitsDone calls pc = 0 := by
  obtain ⟨body, rfl, hbody⟩ := hcalls
  rw [waitsDone, take_eq_of_getElem?_eq_wait hbody h]
  exact List.count_eq_zero.2 hbody

/-- A warp at a barrier has a barrier left to cross. -/
theorem barriersDone_lt_of_syncthreads (h : calls[pc]? = some .syncthreads) :
    barriersDone calls pc < calls.count .syncthreads := by
  have hle := (List.take_sublist (pc + 1) calls).count_le .syncthreads
  rw [take_succ_eq_of_getElem? h, List.count_append] at hle
  simpa [barriersDone] using hle

end Position

/-! ## One call of one warp -/

/-- A signal raises its connection's flag by one. -/
theorem Device.deliver_signals_self (s : Device) (src dst : Nat) :
    (s.deliver src dst).signals src dst = s.signals src dst + 1 := by
  simp [Device.deliver]

/-- A signal lowers no flag. -/
theorem Device.signals_le_deliver (s : Device) (src dst a b : Nat) :
    s.signals a b ≤ (s.deliver src dst).signals a b := by
  simp only [Device.deliver]
  split_ifs <;> omega

section Step

variable {devConns : Nat → List Nat} {worldSize nelemsPerGPU kernelNum : Nat}

/-- **When a warp can move**: a warp with a connection and a next call can make it, if a
wait has its signal and a barrier is released. -/
theorem warpStep_ne_none {s : Device} {rank warpId dst : Nat} {call : DeviceCall}
    (hd : (devConns rank)[warpId]? = some dst)
    (hcall : (warpCalls worldSize nelemsPerGPU kernelNum rank warpId)[s.pc rank warpId]? =
      some call)
    (hwait : call = .wait →
      waitsDone (warpCalls worldSize nelemsPerGPU kernelNum rank warpId) (s.pc rank warpId) <
        s.signals dst rank)
    (hsync : call = .syncthreads → barrierReady worldSize nelemsPerGPU kernelNum s rank warpId) :
    warpStep devConns worldSize nelemsPerGPU kernelNum s rank warpId ≠ none := by
  unfold warpStep
  rw [hd, hcall]
  cases call with
  | wait => simp [hwait rfl]
  | syncthreads => simp [hsync rfl]
  | _ => simp

/-- **What one call changes for progress**: it moves its warp on by one, the flags only
rise, and a call that signals raises the flag of the warp's connection. -/
theorem warpStep_frame {s s' : Device} {rank warpId : Nat}
    (h : warpStep devConns worldSize nelemsPerGPU kernelNum s rank warpId = some s') :
    ∃ call, (warpCalls worldSize nelemsPerGPU kernelNum rank warpId)[s.pc rank warpId]? =
        some call ∧
      (∀ r w, s'.pc r w = (s.advance rank warpId).pc r w) ∧
      (∀ a b, s.signals a b ≤ s'.signals a b) ∧
      (call.signals → ∃ dst, (devConns rank)[warpId]? = some dst ∧ 0 < s'.signals rank dst) := by
  obtain ⟨call, hcall, hcases⟩ := warpStep_cases h
  refine ⟨call, hcall, ?_⟩
  rcases hcases with ⟨dst, _, _, hd, rfl, rfl⟩ | ⟨dst, hd, rfl, rfl⟩ |
    ⟨dst, _, _, hd, rfl, rfl⟩ | ⟨dst, hd, rfl, -, rfl⟩ | ⟨rfl, rfl⟩
  · exact ⟨fun _ _ => rfl, fun _ _ => le_rfl, fun h => by cases h⟩
  · exact ⟨fun _ _ => rfl, fun _ _ => Device.signals_le_deliver .., fun _ =>
      ⟨dst, hd, by simp [Device.deliver_signals_self]⟩⟩
  · exact ⟨fun _ _ => rfl, fun _ _ => Device.signals_le_deliver .., fun _ =>
      ⟨dst, hd, by simp [Device.deliver_signals_self]⟩⟩
  · exact ⟨fun _ _ => rfl, fun _ _ => le_rfl, fun h => by cases h⟩
  · exact ⟨fun _ _ => rfl, fun _ _ => le_rfl, fun h => by cases h⟩

end Step

/-! ## Every run -/

/-- Every warp of every rank has returned. -/
def AllReturned (worldSize nelemsPerGPU kernelNum : Nat) (s : Device) : Prop :=
  ∀ rank < worldSize, ∀ warpId < worldSize - 1,
    (warpCalls worldSize nelemsPerGPU kernelNum rank warpId).length ≤ s.pc rank warpId

instance (worldSize nelemsPerGPU kernelNum : Nat) (s : Device) :
    Decidable (AllReturned worldSize nelemsPerGPU kernelNum s) :=
  inferInstanceAs (Decidable (∀ rank < worldSize, ∀ warpId < worldSize - 1, _ ≤ _))

/-- **The progress invariant**: a warp that has made a call that signals has raised the
flag of its connection to its peer. -/
def Signalled (worldSize nelemsPerGPU kernelNum : Nat) (s : Device) : Prop :=
  ∀ rank < worldSize, ∀ warpId < worldSize - 1,
    ((warpCalls worldSize nelemsPerGPU kernelNum rank warpId).take
        (s.pc rank warpId)).any DeviceCall.signals →
      0 < s.signals rank (remoteRankOf rank warpId)

/-- The calls the warps of the launch have left to make. -/
def callsLeft (worldSize nelemsPerGPU kernelNum : Nat) (s : Device) : Nat :=
  ∑ rank in Finset.range worldSize, ∑ warpId in Finset.range (worldSize - 1),
    ((warpCalls worldSize nelemsPerGPU kernelNum rank warpId).length - s.pc rank warpId)

/-- Every call leaves one call fewer to make. -/
theorem callsLeft_lt_of_warpStep {devConns : Nat → List Nat}
    {worldSize nelemsPerGPU kernelNum : Nat} {s s' : Device} {rank warpId : Nat}
    (hrank : rank < worldSize) (hw : warpId < worldSize - 1)
    (hstep : warpStep devConns worldSize nelemsPerGPU kernelNum s rank warpId = some s') :
    callsLeft worldSize nelemsPerGPU kernelNum s' <
      callsLeft worldSize nelemsPerGPU kernelNum s := by
  obtain ⟨call, hcall, hpc, -, -⟩ := warpStep_frame hstep
  have hlt := (List.getElem?_eq_some_iff.1 hcall).1
  have hle : ∀ r w, (warpCalls worldSize nelemsPerGPU kernelNum r w).length - s'.pc r w ≤
      (warpCalls worldSize nelemsPerGPU kernelNum r w).length - s.pc r w := fun r w => by
    rw [hpc, Device.advance_pc]
    split_ifs <;> omega
  refine Finset.sum_lt_sum (fun r _ => Finset.sum_le_sum fun w _ => hle r w)
    ⟨rank, Finset.mem_range.2 hrank, Finset.sum_lt_sum (fun w _ => hle rank w)
      ⟨warpId, Finset.mem_range.2 hw, ?_⟩⟩
  rw [hpc, Device.advance_pc, if_pos ⟨rfl, rfl⟩]
  omega

section Runs

variable {ranksPerNode dataSize worldSize nelemsPerGPU kernelNum : Nat}

/-- Step lemma of `Signalled`. -/
theorem warpStep_signalled {s s' : Device} {rank warpId : Nat} (hrank : rank < worldSize)
    (hw : warpId < worldSize - 1) (h : Signalled worldSize nelemsPerGPU kernelNum s)
    (hstep : warpStep (fun r => devConnsOf ranksPerNode r worldSize dataSize) worldSize
      nelemsPerGPU kernelNum s rank warpId = some s') :
    Signalled worldSize nelemsPerGPU kernelNum s' := by
  obtain ⟨call, hcall, hpc, hmono, hsig⟩ := warpStep_frame hstep
  intro r hr w hw' hany
  rw [hpc, Device.advance_pc] at hany
  by_cases hrw : r = rank ∧ w = warpId
  · obtain ⟨rfl, rfl⟩ := hrw
    rw [if_pos ⟨rfl, rfl⟩, take_succ_eq_of_getElem? hcall, List.any_append] at hany
    simp only [List.any_cons, List.any_nil, Bool.or_false, Bool.or_eq_true] at hany
    rcases hany with hany | hany
    · exact lt_of_lt_of_le (h r hr w hw' hany) (hmono _ _)
    · obtain ⟨dst, hd, hpos⟩ := hsig hany
      obtain rfl := Option.some.inj ((devConnsOf_getElem? hr hw').symm.trans hd)
      exact hpos
  · rw [if_neg hrw] at hany
    exact lt_of_lt_of_le (h r hr w hw' hany) (hmono _ _)

/-- Run lemma of `Signalled`. -/
theorem reachable_signalled {data : Nat → Nat → Int} {s : Device}
    (hs : Reachable (fun r => devConnsOf ranksPerNode r worldSize dataSize) worldSize
      nelemsPerGPU kernelNum (Device.start data) s) :
    Signalled worldSize nelemsPerGPU kernelNum s := by
  induction hs with
  | start => intro _ _ _ _ h; simp [Device.start] at h
  | step rank warpId hrank hwarp _ hstep ih => exact warpStep_signalled hrank hwarp ih hstep

/-- A warp that cannot move, with a call left, is at a wait or at a barrier. -/
theorem blocked_call {s : Device} {rank warpId : Nat} {call : DeviceCall}
    (hrank : rank < worldSize) (hw : warpId < worldSize - 1)
    (hblocked : warpStep (fun r => devConnsOf ranksPerNode r worldSize dataSize) worldSize
      nelemsPerGPU kernelNum s rank warpId = none)
    (hcall : (warpCalls worldSize nelemsPerGPU kernelNum rank warpId)[s.pc rank warpId]? =
      some call) :
    call = .wait ∨ call = .syncthreads := by
  by_contra hne
  push_neg at hne
  exact warpStep_ne_none (by exact devConnsOf_getElem? hrank hw) hcall (absurd · hne.1)
    (absurd · hne.2) hblocked

/-- A warp that cannot move has returned, or is at a wait or at a barrier. -/
theorem returned_or_blocked_call {s : Device} {rank warpId : Nat}
    (hrank : rank < worldSize) (hw : warpId < worldSize - 1)
    (hblocked : warpStep (fun r => devConnsOf ranksPerNode r worldSize dataSize) worldSize
      nelemsPerGPU kernelNum s rank warpId = none) :
    (warpCalls worldSize nelemsPerGPU kernelNum rank warpId).length ≤ s.pc rank warpId ∨
      (warpCalls worldSize nelemsPerGPU kernelNum rank warpId)[s.pc rank warpId]? = some .wait ∨
      (warpCalls worldSize nelemsPerGPU kernelNum rank warpId)[s.pc rank warpId]? =
        some .syncthreads := by
  by_cases hlen : (warpCalls worldSize nelemsPerGPU kernelNum rank warpId).length ≤ s.pc rank warpId
  · exact .inl hlen
  · have hcall := List.getElem?_eq_getElem (Nat.lt_of_not_le hlen)
    rcases blocked_call hrank hw hblocked hcall with h | h
    · exact .inr (.inl (h ▸ hcall))
    · exact .inr (.inr (h ▸ hcall))

/-- **No rank is stuck at a barrier**: in a rank none of whose warps can move, no warp
stands at a barrier, since the one at the lowest barrier would be released. -/
theorem not_syncthreads_of_blocked (hk : kernelNum = 0 ∨ kernelNum = 1) {s : Device}
    {rank : Nat} (hrank : rank < worldSize)
    (hblocked : ∀ w < worldSize - 1, warpStep (fun r => devConnsOf ranksPerNode r worldSize
      dataSize) worldSize nelemsPerGPU kernelNum s rank w = none)
    {warpId : Nat} (hw : warpId < worldSize - 1) :
    (warpCalls worldSize nelemsPerGPU kernelNum rank warpId)[s.pc rank warpId]? ≠
      some .syncthreads := by
  intro hsync
  classical
  have hex : ∃ b, ∃ v < worldSize - 1,
      (warpCalls worldSize nelemsPerGPU kernelNum rank v)[s.pc rank v]? = some .syncthreads ∧
        barriersDone (warpCalls worldSize nelemsPerGPU kernelNum rank v) (s.pc rank v) = b :=
    ⟨_, warpId, hw, hsync, rfl⟩
  obtain ⟨v, hv, hvsync, hvb⟩ := Nat.find_spec hex
  have hmin : ∀ u < worldSize - 1,
      (warpCalls worldSize nelemsPerGPU kernelNum rank u)[s.pc rank u]? = some .syncthreads →
        barriersDone (warpCalls worldSize nelemsPerGPU kernelNum rank v) (s.pc rank v) ≤
          barriersDone (warpCalls worldSize nelemsPerGPU kernelNum rank u) (s.pc rank u) :=
    fun u hu husync => hvb ▸ Nat.find_min' hex ⟨u, hu, husync, rfl⟩
  refine warpStep_ne_none (by exact devConnsOf_getElem? hrank hv) hvsync (fun h => by cases h)
    (fun _ => ?_) (hblocked v hv)
  have hcrossed : ∀ u, (warpCalls worldSize nelemsPerGPU kernelNum rank u).length ≤ s.pc rank u ∨
      (warpCalls worldSize nelemsPerGPU kernelNum rank u)[s.pc rank u]? = some .wait →
        barriersDone (warpCalls worldSize nelemsPerGPU kernelNum rank v) (s.pc rank v) <
          barriersDone (warpCalls worldSize nelemsPerGPU kernelNum rank u) (s.pc rank u) :=
    fun u hpast => calc
      _ < (warpCalls worldSize nelemsPerGPU kernelNum rank v).count .syncthreads :=
        barriersDone_lt_of_syncthreads hvsync
      _ = (warpCalls worldSize nelemsPerGPU kernelNum rank u).count .syncthreads :=
        count_syncthreads_warpCalls u
      _ = _ := ((crossed_of_returned_or_wait (warpCalls_eq_append_wait hk) hpast).1).symm
  simp only [barrierReady, List.all_eq_true, List.mem_range, Bool.or_eq_true, Bool.and_eq_true,
    decide_eq_true_eq]
  intro u hu
  rcases returned_or_blocked_call hrank hu (hblocked u hu) with hpast | hpast | husync
  · exact .inl (hcrossed u (.inl hpast))
  · exact .inl (hcrossed u (.inr hpast))
  · rcases (hmin u hu husync).lt_or_eq with hlt | heq
    · exact .inl hlt
    · exact .inr ⟨heq.symm, husync⟩

/-- A warp of a rank none of whose warps can move has returned or waits. -/
theorem returned_or_wait_of_blocked (hk : kernelNum = 0 ∨ kernelNum = 1) {s : Device}
    {rank : Nat} (hrank : rank < worldSize)
    (hblocked : ∀ w < worldSize - 1, warpStep (fun r => devConnsOf ranksPerNode r worldSize
      dataSize) worldSize nelemsPerGPU kernelNum s rank w = none)
    {warpId : Nat} (hw : warpId < worldSize - 1) :
    (warpCalls worldSize nelemsPerGPU kernelNum rank warpId).length ≤ s.pc rank warpId ∨
      (warpCalls worldSize nelemsPerGPU kernelNum rank warpId)[s.pc rank warpId]? =
        some .wait := by
  rcases returned_or_blocked_call hrank hw (hblocked warpId hw) with h | h | h
  · exact .inl h
  · exact .inr h
  · exact absurd h (not_syncthreads_of_blocked hk hrank hblocked hw)

/-- **Progress**: in a state that keeps `Signalled`, every warp of every rank has returned
or some warp can make its next call. -/
theorem Signalled.progress {s : Device} (hsig : Signalled worldSize nelemsPerGPU kernelNum s) :
    AllReturned worldSize nelemsPerGPU kernelNum s ∨
      ∃ rank < worldSize, ∃ warpId < worldSize - 1, ∃ s',
        warpStep (fun r => devConnsOf ranksPerNode r worldSize dataSize) worldSize nelemsPerGPU
          kernelNum s rank warpId = some s' := by
  by_cases hk : kernelNum = 0 ∨ kernelNum = 1
  swap
  · push_neg at hk
    left
    intro rank _ warpId _
    simp [warpCalls_eq, hk.1, hk.2]
  refine or_iff_not_imp_right.2 fun hmove => ?_
  have hblocked : ∀ r < worldSize, ∀ w < worldSize - 1, warpStep (fun r => devConnsOf
      ranksPerNode r worldSize dataSize) worldSize nelemsPerGPU kernelNum s r w = none :=
    fun r hr w hw => Option.eq_none_iff_forall_not_mem.2 fun s' h => hmove ⟨r, hr, w, hw, s', h⟩
  intro rank hrank warpId hw
  refine (returned_or_wait_of_blocked hk hrank (hblocked rank hrank) hw).resolve_right
    fun hwait => ?_
  obtain ⟨hq, hne⟩ := remoteRankOf_lt_ne rank hw
  obtain ⟨v, hv, hpeer⟩ := exists_remoteRankOf_eq hq hrank (Ne.symm hne)
  have hcrossed := (crossed_of_returned_or_wait (warpCalls_eq_append_wait hk)
    (returned_or_wait_of_blocked hk hq (hblocked _ hq) hv)).2
  have hpos := hsig _ hq v hv (hcrossed ▸ any_signals_warpCalls hk hq hv)
  rw [hpeer] at hpos
  refine warpStep_ne_none (by exact devConnsOf_getElem? hrank hw) hwait (fun _ => ?_)
    (fun h => by cases h) (hblocked rank hrank warpId hw)
  rwa [waitsDone_eq_zero_of_wait (warpCalls_eq_append_wait hk) hwait]

/-- **The launch never deadlocks.**  In every state a launch on every rank reaches, in any
interleaving of the warps, every warp of every rank has returned or some warp can make its
next call. -/
theorem launch_deadlock_free {data : Nat → Nat → Int} {s : Device}
    (hs : Reachable (fun r => devConnsOf ranksPerNode r worldSize dataSize) worldSize
      nelemsPerGPU kernelNum (Device.start data) s) :
    AllReturned worldSize nelemsPerGPU kernelNum s ∨
      ∃ rank < worldSize, ∃ warpId < worldSize - 1, ∃ s',
        warpStep (fun r => devConnsOf ranksPerNode r worldSize dataSize) worldSize nelemsPerGPU
          kernelNum s rank warpId = some s' :=
  (reachable_signalled hs).progress

theorem launch_deadlock_free_two_ranks :
    AllReturned 2 1 1 ((runSchedule (fun r => devConnsOf 8 r 2 8) 2 1 1 (Device.start twoRankData)
        (twoRankSchedule.take 3)).getD (Device.start twoRankData)) ∨
      ∃ rank < 2, ∃ warpId < 2 - 1, ∃ s',
        warpStep (fun r => devConnsOf 8 r 2 8) 2 1 1
          ((runSchedule (fun r => devConnsOf 8 r 2 8) 2 1 1 (Device.start twoRankData)
            (twoRankSchedule.take 3)).getD (Device.start twoRankData)) rank warpId = some s' :=
  launch_deadlock_free
    (@reachable_of_runSchedule _ 2 1 1 _ _ _ (twoRankSchedule.take 3) (by decide) .start rfl)

/-- **Every launch runs to its end, and the test then passes on every rank.**  From every
state a launch of either algorithm reaches, from the host data of `main`, the warps can go on
until every warp of every rank has returned, and then the check of `main` passes on every
rank. -/
theorem launch_completes (hk : kernelNum = 0 ∨ kernelNum = 1) {data : Nat → Nat → Int}
    (hinit : ∀ rank < worldSize, ∀ i < nelemsPerGPU * worldSize,
      data rank i = (initializeAndAllocateAllGatherData rank worldSize nelemsPerGPU).getD i 0)
    {s : Device} (hs : Reachable (fun r => devConnsOf ranksPerNode r worldSize dataSize)
      worldSize nelemsPerGPU kernelNum (Device.start data) s) :
    ∃ s', Reachable (fun r => devConnsOf ranksPerNode r worldSize dataSize) worldSize
        nelemsPerGPU kernelNum s s' ∧ AllReturned worldSize nelemsPerGPU kernelNum s' ∧
      ∀ rank < worldSize, firstMismatch (s'.data rank) (nelemsPerGPU * worldSize) = none := by
  suffices hrun : ∀ n s, callsLeft worldSize nelemsPerGPU kernelNum s = n →
      Reachable (fun r => devConnsOf ranksPerNode r worldSize dataSize) worldSize nelemsPerGPU
        kernelNum (Device.start data) s →
      ∃ s', Reachable (fun r => devConnsOf ranksPerNode r worldSize dataSize) worldSize
        nelemsPerGPU kernelNum s s' ∧ AllReturned worldSize nelemsPerGPU kernelNum s' by
    obtain ⟨s', hss', hdone⟩ := hrun _ s rfl hs
    have hinv := reachable_inv (Inv.start (consistent_init hinit)) (hs.trans hss')
    exact ⟨s', hss', hdone, fun rank hrank => hinv.check_passes hk hrank (hdone rank hrank)⟩
  intro n
  induction n using Nat.strong_induction_on with
  | _ n ih =>
    intro s hn hs
    rcases (reachable_signalled hs).progress with hdone | ⟨r, hr, w, hw, s₁, hstep⟩
    · exact ⟨s, .start, hdone⟩
    · obtain ⟨s', h₁, hdone⟩ :=
        ih _ (hn ▸ callsLeft_lt_of_warpStep hr hw hstep) s₁ rfl (.step r w hr hw hs hstep)
      exact ⟨s', (Reachable.step r w hr hw .start hstep).trans h₁, hdone⟩

theorem launch_completes_two_ranks :
    ∃ s', Reachable (fun r => devConnsOf 8 r 2 8) 2 1 1 (Device.start twoRankData) s' ∧
      AllReturned 2 1 1 s' ∧ ∀ rank < 2, firstMismatch (s'.data rank) (1 * 2) = none :=
  launch_completes (Or.inr rfl) (fun _ _ _ _ => rfl) .start

end Runs

end Mscclpp.AllgatherTest
