import Mscclpp.AllgatherTest

/-!
# The allgather test, run on all ranks at once

`AllgatherTest` reads the puts a launch makes; this module runs the launches of all ranks
together, call by call, in any interleaving of their warps.  A put is posted on its
connection and lands when a later `signal()` on that connection flushes it; `wait()` returns
once the peer has signalled as often as the warp has waited; `__syncthreads()` releases a warp
once every warp of its block has reached the barrier.  Each rank checks its buffer as soon
as its own kernel has finished, with no barrier across ranks, so the question is what a rank
holds at that moment.

## Main Definitions

* `Device` — the warps' positions, the signals and the posted puts of every connection, and
  the buffers of all ranks.
* `warpStep`, `Reachable` — one call of one warp, and the states a launch on every rank can
  reach.
* `Inv` — the invariant of a launch.

## Main results

* `warpStep_inv`, `reachable_inv` — one call, then every run, keeps `Inv`.
* `Inv.check_passes`, `check_passes_when_rank_done` — in every reachable state in which
  every warp of a rank has returned, that rank's buffer passes the check of `main`.

## Design Notes

The device API is outside the sources (see `AllgatherTest`): a put becomes visible to the
peer at the latest with the next signal on its connection, and a wait returns after a
signal of the peer.  The model lets a put land exactly at that signal, the latest moment the
API allows, so a state of the model is a state the hardware may be in.  Only the first
thread of each warp makes calls; the other threads return at once and take no part in the
model.
-/

namespace Mscclpp.AllgatherTest

/-! ## Device state -/

/-- A launch of the kernel on every rank: the next call of each warp (`pc rank warpId`), the
signals delivered and the puts posted but not yet landed on the connection from `src` to
`dst`, and the `int` buffers of the ranks. -/
structure Device where
  pc : Nat → Nat → Nat
  signals : Nat → Nat → Nat
  pending : Nat → Nat → List Put
  data : Nat → Nat → Int

namespace Device

/-- The launch before its first call, on buffers `data`. -/
def start (data : Nat → Nat → Int) : Device :=
  ⟨fun _ _ => 0, fun _ _ => 0, fun _ _ => [], data⟩

/-- Warp `warpId` of `rank` moves past its call. -/
def advance (s : Device) (rank warpId : Nat) : Device :=
  { s with pc := fun r w => if r = rank ∧ w = warpId then s.pc r w + 1 else s.pc r w }

/-- `put`: the put is posted on the connection from its source to its destination. -/
def post (s : Device) (p : Put) : Device :=
  { s with pending := fun a b =>
      if a = p.src ∧ b = p.dst then s.pending a b ++ [p] else s.pending a b }

/-- `signal` on the connection from `src` to `dst`: the puts posted on it land, then its
flag rises. -/
def deliver (s : Device) (src dst : Nat) : Device :=
  { s with
    data := runPuts (s.pending src dst) s.data
    pending := fun a b => if a = src ∧ b = dst then [] else s.pending a b
    signals := fun a b => if a = src ∧ b = dst then s.signals a b + 1 else s.signals a b }

variable (s : Device) (rank warpId src dst : Nat) (p : Put)

theorem advance_pc (r w : Nat) : (s.advance rank warpId).pc r w =
    if r = rank ∧ w = warpId then s.pc r w + 1 else s.pc r w := rfl
@[simp] theorem advance_signals : (s.advance rank warpId).signals = s.signals := rfl
@[simp] theorem advance_pending : (s.advance rank warpId).pending = s.pending := rfl
@[simp] theorem advance_data : (s.advance rank warpId).data = s.data := rfl
@[simp] theorem post_pc : (s.post p).pc = s.pc := rfl
@[simp] theorem post_signals : (s.post p).signals = s.signals := rfl
@[simp] theorem post_data : (s.post p).data = s.data := rfl
@[simp] theorem deliver_pc : (s.deliver src dst).pc = s.pc := rfl
@[simp] theorem deliver_data : (s.deliver src dst).data = runPuts (s.pending src dst) s.data := rfl

end Device

/-! ## One call of one warp -/

section Run

variable (devConns : Nat → List Nat) (worldSize nelemsPerGPU kernelNum : Nat)

/-- The calls of warp `warpId` of `rank`: those of its first thread. -/
def warpCalls (rank warpId : Nat) : List DeviceCall :=
  match kernel rank worldSize nelemsPerGPU kernelNum (32 * warpId) with
  | some (_, calls) => calls
  | none => []

/-- The waits among the first `pc` calls. -/
def waitsDone (calls : List DeviceCall) (pc : Nat) : Nat := (calls.take pc).count .wait

/-- The barriers among the first `pc` calls. -/
def barriersDone (calls : List DeviceCall) (pc : Nat) : Nat :=
  (calls.take pc).count .syncthreads

/-- `__syncthreads()` releases warp `warpId` of `rank` once every warp of its block has
reached the barrier it waits at: has passed more barriers, or as many and waits at one. -/
def barrierReady (s : Device) (rank warpId : Nat) : Bool :=
  (List.range (worldSize - 1)).all fun v =>
    barriersDone (warpCalls worldSize nelemsPerGPU kernelNum rank warpId) (s.pc rank warpId) <
        barriersDone (warpCalls worldSize nelemsPerGPU kernelNum rank v) (s.pc rank v) ||
      barriersDone (warpCalls worldSize nelemsPerGPU kernelNum rank v) (s.pc rank v) =
          barriersDone (warpCalls worldSize nelemsPerGPU kernelNum rank warpId)
            (s.pc rank warpId) &&
        (warpCalls worldSize nelemsPerGPU kernelNum rank v)[s.pc rank v]? = some .syncthreads

/-- The next call of warp `warpId` of `rank`, on its connection `constDevConns[warpId]`
(whose peer is `(devConns rank)[warpId]`), if the warp can make it now; `none` when it has
returned or waits. -/
def warpStep (s : Device) (rank warpId : Nat) : Option Device :=
  match (devConns rank)[warpId]?,
      (warpCalls worldSize nelemsPerGPU kernelNum rank warpId)[s.pc rank warpId]? with
  | some dst, some (.put offset size) =>
    some ((s.post ⟨rank, dst, offset, size⟩).advance rank warpId)
  | some dst, some .signal => some ((s.deliver rank dst).advance rank warpId)
  | some dst, some (.putWithSignal offset size) =>
    some (((s.post ⟨rank, dst, offset, size⟩).deliver rank dst).advance rank warpId)
  | some dst, some .wait =>
    if waitsDone (warpCalls worldSize nelemsPerGPU kernelNum rank warpId) (s.pc rank warpId) <
        s.signals dst rank
    then some (s.advance rank warpId) else none
  | _, some .syncthreads =>
    if barrierReady worldSize nelemsPerGPU kernelNum s rank warpId then
      some (s.advance rank warpId)
    else none
  | _, _ => none

/-- The states a launch on every rank reaches from `init`, the warps of all ranks taking
their calls in any interleaving. -/
inductive Reachable (init : Device) : Device → Prop
  | start : Reachable init init
  | step {s s' : Device} (rank warpId : Nat) (hrank : rank < worldSize)
      (hwarp : warpId < worldSize - 1) :
      Reachable init s → warpStep devConns worldSize nelemsPerGPU kernelNum s rank warpId = some s' →
      Reachable init s'

/-- The warps named by `schedule` take their calls in turn; `none` if one of them cannot. -/
def runSchedule (s : Device) : List (Nat × Nat) → Option Device
  | [] => some s
  | (rank, warpId) :: schedule =>
    (warpStep devConns worldSize nelemsPerGPU kernelNum s rank warpId).bind fun s' =>
      runSchedule s' schedule

variable {devConns worldSize nelemsPerGPU kernelNum}

/-- A state reached from a reachable state is reachable. -/
theorem Reachable.trans {init s s' : Device}
    (h₁ : Reachable devConns worldSize nelemsPerGPU kernelNum init s)
    (h₂ : Reachable devConns worldSize nelemsPerGPU kernelNum s s') :
    Reachable devConns worldSize nelemsPerGPU kernelNum init s' := by
  induction h₂ with
  | start => exact h₁
  | step rank warpId hrank hwarp _ hstep ih => exact .step rank warpId hrank hwarp ih hstep

/-- A schedule of warps of the launch that runs to its end reaches its final state. -/
theorem reachable_of_runSchedule {init s s' : Device} {schedule : List (Nat × Nat)}
    (hsched : ∀ x ∈ schedule, x.1 < worldSize ∧ x.2 < worldSize - 1)
    (hs : Reachable devConns worldSize nelemsPerGPU kernelNum init s)
    (h : runSchedule devConns worldSize nelemsPerGPU kernelNum s schedule = some s') :
    Reachable devConns worldSize nelemsPerGPU kernelNum init s' := by
  induction schedule generalizing s with
  | nil => cases h; exact hs
  | cons x schedule ih =>
    obtain ⟨s₁, hstep, hrun⟩ := Option.bind_eq_some.1 h
    have hx := hsched x (List.mem_cons_self _ _)
    exact ih (fun y hy => hsched y (List.mem_cons_of_mem _ hy)) (.step _ _ hx.1 hx.2 hs hstep) hrun

/-- **What one call does**: a put is posted, a signal lands the connection's puts and
raises its flag, a put with signal does both, and a wait or a barrier only moves the warp
on, the wait once the peer has signalled more often than the warp has waited. -/
theorem warpStep_cases {s s' : Device} {rank warpId : Nat}
    (h : warpStep devConns worldSize nelemsPerGPU kernelNum s rank warpId = some s') :
    ∃ call, (warpCalls worldSize nelemsPerGPU kernelNum rank warpId)[s.pc rank warpId]? =
        some call ∧
      ((∃ dst offset size, (devConns rank)[warpId]? = some dst ∧ call = .put offset size ∧
          s' = (s.post ⟨rank, dst, offset, size⟩).advance rank warpId) ∨
        (∃ dst, (devConns rank)[warpId]? = some dst ∧ call = .signal ∧
          s' = (s.deliver rank dst).advance rank warpId) ∨
        (∃ dst offset size, (devConns rank)[warpId]? = some dst ∧
          call = .putWithSignal offset size ∧
          s' = ((s.post ⟨rank, dst, offset, size⟩).deliver rank dst).advance rank warpId) ∨
        (∃ dst, (devConns rank)[warpId]? = some dst ∧ call = .wait ∧
          waitsDone (warpCalls worldSize nelemsPerGPU kernelNum rank warpId) (s.pc rank warpId) <
            s.signals dst rank ∧ s' = s.advance rank warpId) ∨
        (call = .syncthreads ∧ s' = s.advance rank warpId)) := by
  unfold warpStep at h
  split at h
  next dst offset size hd hc => cases h; exact ⟨_, hc, .inl ⟨dst, offset, size, hd, rfl, rfl⟩⟩
  next dst hd hc => cases h; exact ⟨_, hc, .inr (.inl ⟨dst, hd, rfl, rfl⟩)⟩
  next dst offset size hd hc =>
    cases h; exact ⟨_, hc, .inr (.inr (.inl ⟨dst, offset, size, hd, rfl, rfl⟩))⟩
  next dst hd hc =>
    split at h <;> cases h
    exact ⟨_, hc, .inr (.inr (.inr (.inl ⟨dst, hd, rfl, ‹_›, rfl⟩)))⟩
  next hc =>
    split at h <;> cases h
    exact ⟨_, hc, .inr (.inr (.inr (.inr ⟨rfl, rfl⟩)))⟩
  next => cases h

end Run

/-! ## The calls of a warp -/

/-- Whether a call posts a put. -/
def DeviceCall.posts : DeviceCall → Bool
  | .put .. | .putWithSignal .. => true
  | _ => false

/-- Making the call at `pc` extends the calls made by that call. -/
theorem take_succ_eq_of_getElem? {calls : List DeviceCall} {pc : Nat} {call : DeviceCall}
    (h : calls[pc]? = some call) : calls.take (pc + 1) = calls.take pc ++ [call] := by
  rw [List.take_succ, h]
  rfl

section Calls

variable {worldSize nelemsPerGPU kernelNum rank warpId : Nat}

theorem warpCalls_eq :
    warpCalls worldSize nelemsPerGPU kernelNum rank warpId =
      if kernelNum = 0 then allgather0 rank nelemsPerGPU
      else if kernelNum = 1 then allgather1 rank worldSize (remoteRankOf rank warpId) nelemsPerGPU
      else [] := by
  simp [warpCalls, kernel, Nat.mul_div_cancel_left]

/-- Every put a warp posts is its rank's chunk. -/
theorem toPut_of_mem_warpCalls {dst : Nat} {call : DeviceCall} {p : Put}
    (hcall : call ∈ warpCalls worldSize nelemsPerGPU kernelNum rank warpId)
    (hp : call.toPut rank dst = some p) : p = chunkPut nelemsPerGPU rank dst := by
  rw [warpCalls_eq] at hcall
  split_ifs at hcall
  · simp only [allgather0, List.mem_cons, List.mem_singleton, List.not_mem_nil, or_false] at hcall
    rcases hcall with rfl | rfl | rfl <;> cases hp
    rfl
  · simp only [allgather1, List.mem_append, List.mem_flatMap, List.mem_singleton] at hcall
    rcases hcall with ⟨i, -, hi⟩ | rfl
    · simp only [allgather1Step, List.mem_cons] at hi
      rcases hi with rfl | hi
      · cases hp
      · split_ifs at hi <;> simp only [List.mem_singleton, List.not_mem_nil] at hi
        subst hi
        cases hp
        rfl
    · cases hp
  · simp at hcall

/-- A warp signals only after it has posted a put. -/
theorem posts_before_signal {k : Nat}
    (h : (warpCalls worldSize nelemsPerGPU kernelNum rank warpId)[k]? = some .signal) :
    ((warpCalls worldSize nelemsPerGPU kernelNum rank warpId).take k).any DeviceCall.posts := by
  rw [warpCalls_eq] at h ⊢
  split_ifs at h ⊢
  · rcases k with _ | _ | k <;> simp_all [allgather0, DeviceCall.posts]
  · have hmem := List.getElem?_mem h
    simp only [allgather1, allgather1Step, List.mem_append, List.mem_flatMap,
      List.mem_cons, List.mem_singleton] at hmem
    rcases hmem with ⟨i, -, hi | hi⟩ | hi | hi
    · cases hi
    · split_ifs at hi <;> simp at hi
    · cases hi
    · cases hi
  · simp at h

/-- Both algorithms end with a wait. -/
theorem wait_mem_warpCalls (hk : kernelNum = 0 ∨ kernelNum = 1) :
    .wait ∈ warpCalls worldSize nelemsPerGPU kernelNum rank warpId := by
  rw [warpCalls_eq]
  rcases hk with rfl | rfl <;> simp [allgather0, allgather1]

end Calls

/-! ## The invariant -/

/-- Rank `dst` holds the final values of rank `src`'s chunk. -/
def ChunkFinal (nelemsPerGPU worldSize : Nat) (data : Nat → Nat → Int) (dst src : Nat) : Prop :=
  ∀ i < nelemsPerGPU * worldSize, i / nelemsPerGPU = src → data dst i = i + 1

/-- **The invariant of a launch on every rank**: the buffers are consistent; every posted
put is its source's chunk; a connection that has signalled has landed its source's chunk; a
warp that has posted its put has it still posted or landed; and a warp has waited at most as
often as its peer has signalled it. -/
structure Inv (worldSize nelemsPerGPU kernelNum : Nat) (s : Device) : Prop where
  consistent : Consistent nelemsPerGPU worldSize s.data
  pending_chunks : ∀ a b, ∀ p ∈ s.pending a b, a < worldSize ∧ p = chunkPut nelemsPerGPU a b
  signals_final : ∀ src dst, 0 < s.signals src dst →
    ChunkFinal nelemsPerGPU worldSize s.data dst src
  posted_final : ∀ r < worldSize, ∀ w < worldSize - 1,
    ((warpCalls worldSize nelemsPerGPU kernelNum r w).take (s.pc r w)).any DeviceCall.posts →
      chunkPut nelemsPerGPU r (remoteRankOf r w) ∈ s.pending r (remoteRankOf r w) ∨
        ChunkFinal nelemsPerGPU worldSize s.data (remoteRankOf r w) r
  waits_covered : ∀ r < worldSize, ∀ w < worldSize - 1,
    waitsDone (warpCalls worldSize nelemsPerGPU kernelNum r w) (s.pc r w) ≤
      s.signals (remoteRankOf r w) r

section Invariant

variable {worldSize nelemsPerGPU kernelNum : Nat}

theorem Inv.chunkPuts {s : Device} (h : Inv worldSize nelemsPerGPU kernelNum s) (a b : Nat) :
    ChunkPuts nelemsPerGPU worldSize (s.pending a b) := fun p hp =>
  ⟨a, (h.pending_chunks a b p hp).1, b, (h.pending_chunks a b p hp).2⟩

/-- Landing chunk puts keeps every chunk that has landed. -/
theorem ChunkFinal.runPuts {data : Nat → Nat → Int} {run : List Put}
    (hrun : ChunkPuts nelemsPerGPU worldSize run) (hc : Consistent nelemsPerGPU worldSize data)
    {dst src : Nat} (h : ChunkFinal nelemsPerGPU worldSize data dst src) :
    ChunkFinal nelemsPerGPU worldSize (runPuts run data) dst src := fun i hi hq =>
  (runPuts_consistent run hrun hc).2 dst i hi (h i hi hq)

/-- The launch starts with nothing posted, signalled or waited for. -/
theorem Inv.start {data : Nat → Nat → Int} (hc : Consistent nelemsPerGPU worldSize data) :
    Inv worldSize nelemsPerGPU kernelNum (Device.start data) where
  consistent := hc
  pending_chunks _ _ _ hp := by cases hp
  signals_final _ _ h := absurd h (lt_irrefl 0)
  posted_final _ _ _ _ h := by simp [Device.start] at h
  waits_covered _ _ _ _ := by simp [Device.start, waitsDone]

/-- Posting a rank's chunk keeps the invariant, and leaves the chunk posted. -/
theorem Inv.post {s : Device} (h : Inv worldSize nelemsPerGPU kernelNum s) {src : Nat}
    (dst : Nat) (hsrc : src < worldSize) :
    Inv worldSize nelemsPerGPU kernelNum (s.post (chunkPut nelemsPerGPU src dst)) ∧
      chunkPut nelemsPerGPU src dst ∈ (s.post (chunkPut nelemsPerGPU src dst)).pending src dst := by
  have hpend : ∀ a b, (s.post (chunkPut nelemsPerGPU src dst)).pending a b =
      if a = src ∧ b = dst then s.pending a b ++ [chunkPut nelemsPerGPU src dst]
      else s.pending a b := fun _ _ => rfl
  refine ⟨⟨h.consistent, fun a b p hp => ?_, h.signals_final, fun r hr w hw hposted => ?_,
    h.waits_covered⟩, by simp [hpend]⟩
  · rw [hpend] at hp
    split_ifs at hp with hab
    · rcases List.mem_append.1 hp with hp | hp
      · exact h.pending_chunks a b p hp
      · obtain ⟨rfl, rfl⟩ := hab
        exact ⟨hsrc, List.mem_singleton.1 hp⟩
    · exact h.pending_chunks a b p hp
  · rcases h.posted_final r hr w hw hposted with hmem | hfin
    · left
      rw [hpend]
      split_ifs <;> simp [hmem]
    · exact .inr hfin

/-- A signal on the connection from `src` to `dst`, whose source's chunk is posted there or
has landed, keeps the invariant and leaves that chunk landed. -/
theorem Inv.deliver {s : Device} (h : Inv worldSize nelemsPerGPU kernelNum s) {src dst : Nat}
    (hsrc : src < worldSize)
    (hready : chunkPut nelemsPerGPU src dst ∈ s.pending src dst ∨
      ChunkFinal nelemsPerGPU worldSize s.data dst src) :
    Inv worldSize nelemsPerGPU kernelNum (s.deliver src dst) ∧
      ChunkFinal nelemsPerGPU worldSize (s.deliver src dst).data dst src := by
  have hrun := h.chunkPuts src dst
  have hkeep : ∀ {a b}, ChunkFinal nelemsPerGPU worldSize s.data b a →
      ChunkFinal nelemsPerGPU worldSize (s.deliver src dst).data b a :=
    fun hf => hf.runPuts hrun h.consistent
  have hfin : ChunkFinal nelemsPerGPU worldSize (s.deliver src dst).data dst src := by
    rcases hready with hmem | hf
    · exact fun i hi hq => runPuts_delivers hrun h.consistent hsrc hmem hi hq
    · exact hkeep hf
  refine ⟨⟨(runPuts_consistent _ hrun h.consistent).1, fun a b p hp => ?_, fun a b hab => ?_,
    fun r hr w hw hposted => ?_, fun r hr w hw => ?_⟩, hfin⟩
  · simp only [Device.deliver] at hp
    split_ifs at hp
    · cases hp
    · exact h.pending_chunks a b p hp
  · by_cases hab' : a = src ∧ b = dst
    · obtain ⟨rfl, rfl⟩ := hab'
      exact hfin
    · exact hkeep (h.signals_final a b (by simpa [Device.deliver, hab'] using hab))
  · by_cases hrq : r = src ∧ remoteRankOf r w = dst
    · obtain ⟨rfl, hq⟩ := hrq
      rw [hq]
      exact .inr hfin
    · rcases h.posted_final r hr w hw hposted with hmem | hf
      · exact .inl (by simpa [Device.deliver, hrq] using hmem)
      · exact .inr (hkeep hf)
  · refine (h.waits_covered r hr w hw).trans ?_
    simp only [Device.deliver]
    split_ifs <;> omega

/-- A warp moving past its call keeps the invariant, when the call, if it posts, has its put
posted or landed, and, if it waits, has been signalled. -/
theorem Inv.advance {s : Device} (h : Inv worldSize nelemsPerGPU kernelNum s) {r w : Nat}
    {call : DeviceCall}
    (hcall : (warpCalls worldSize nelemsPerGPU kernelNum r w)[s.pc r w]? = some call)
    (hposts : r < worldSize → w < worldSize - 1 → call.posts →
      chunkPut nelemsPerGPU r (remoteRankOf r w) ∈ s.pending r (remoteRankOf r w) ∨
        ChunkFinal nelemsPerGPU worldSize s.data (remoteRankOf r w) r)
    (hwait : r < worldSize → w < worldSize - 1 → call = .wait →
      waitsDone (warpCalls worldSize nelemsPerGPU kernelNum r w) (s.pc r w) <
        s.signals (remoteRankOf r w) r) :
    Inv worldSize nelemsPerGPU kernelNum (s.advance r w) := by
  have htake := take_succ_eq_of_getElem? hcall
  refine ⟨h.consistent, h.pending_chunks, h.signals_final, fun r' hr' w' hw' hposted => ?_,
    fun r' hr' w' hw' => ?_⟩
  · by_cases hrw : r' = r ∧ w' = w
    · obtain ⟨rfl, rfl⟩ := hrw
      rw [Device.advance_pc, if_pos ⟨rfl, rfl⟩, htake, List.any_append] at hposted
      simp only [List.any_cons, List.any_nil, Bool.or_false, Bool.or_eq_true] at hposted
      rcases hposted with hp | hp
      · exact h.posted_final r' hr' w' hw' hp
      · exact hposts hr' hw' hp
    · rw [Device.advance_pc, if_neg hrw] at hposted
      exact h.posted_final r' hr' w' hw' hposted
  · by_cases hrw : r' = r ∧ w' = w
    · obtain ⟨rfl, rfl⟩ := hrw
      have hle := h.waits_covered r' hr' w' hw'
      rw [Device.advance_pc, if_pos ⟨rfl, rfl⟩, waitsDone, htake, List.count_append,
        List.count_singleton]
      by_cases hc : call = .wait
      · have := hwait hr' hw' hc
        simp only [hc, beq_self_eq_true, if_true, Device.advance_signals]
        unfold waitsDone at this
        omega
      · simpa [hc] using hle
    · rw [Device.advance_pc, if_neg hrw]
      exact h.waits_covered r' hr' w' hw'

end Invariant

/-! ## Every run -/

section Runs

variable {ranksPerNode dataSize worldSize nelemsPerGPU kernelNum : Nat}

/-- The connection of warp `warpId` of `rank` leads to the warp's own peer. -/
theorem eq_remoteRankOf_of_devConnsOf {rank warpId dst : Nat} (hrank : rank < worldSize)
    (hw : warpId < worldSize - 1)
    (hd : (devConnsOf ranksPerNode rank worldSize dataSize)[warpId]? = some dst) :
    dst = remoteRankOf rank warpId :=
  Option.some.inj (hd.symm.trans (devConnsOf_getElem? hrank hw))

/-- **Step lemma**: every call of a warp of the launch keeps the invariant. -/
theorem warpStep_inv {s s' : Device} {rank warpId : Nat} (hrank : rank < worldSize)
    (hw : warpId < worldSize - 1) (h : Inv worldSize nelemsPerGPU kernelNum s)
    (hstep : warpStep (fun r => devConnsOf ranksPerNode r worldSize dataSize) worldSize
      nelemsPerGPU kernelNum s rank warpId = some s') :
    Inv worldSize nelemsPerGPU kernelNum s' := by
  obtain ⟨call, hcall, hcases⟩ := warpStep_cases hstep
  have hmem := List.getElem?_mem hcall
  rcases hcases with ⟨dst, offset, size, hd, rfl, rfl⟩ | ⟨dst, hd, rfl, rfl⟩ |
    ⟨dst, offset, size, hd, rfl, rfl⟩ | ⟨dst, hd, rfl, hlt, rfl⟩ | ⟨rfl, rfl⟩
  · obtain rfl := eq_remoteRankOf_of_devConnsOf hrank hw hd
    rw [toPut_of_mem_warpCalls hmem rfl]
    obtain ⟨hinv, hin⟩ := h.post (remoteRankOf rank warpId) hrank
    exact hinv.advance hcall (fun _ _ _ => .inl hin) (by simp)
  · obtain rfl := eq_remoteRankOf_of_devConnsOf hrank hw hd
    obtain ⟨hinv, -⟩ := h.deliver hrank
      (h.posted_final rank hrank warpId hw (posts_before_signal hcall))
    exact hinv.advance hcall (by simp [DeviceCall.posts]) (by simp)
  · obtain rfl := eq_remoteRankOf_of_devConnsOf hrank hw hd
    rw [toPut_of_mem_warpCalls hmem rfl]
    obtain ⟨hinv₁, hin⟩ := h.post (remoteRankOf rank warpId) hrank
    obtain ⟨hinv₂, hfin⟩ := hinv₁.deliver hrank (.inl hin)
    exact hinv₂.advance hcall (fun _ _ _ => .inr hfin) (by simp)
  · obtain rfl := eq_remoteRankOf_of_devConnsOf hrank hw hd
    exact h.advance hcall (by simp [DeviceCall.posts]) fun _ _ _ => hlt
  · exact h.advance hcall (by simp [DeviceCall.posts]) (by simp)

/-- **Run lemma**: every state a launch reaches keeps the invariant. -/
theorem reachable_inv {init s : Device} (hinit : Inv worldSize nelemsPerGPU kernelNum init)
    (hs : Reachable (fun r => devConnsOf ranksPerNode r worldSize dataSize) worldSize
      nelemsPerGPU kernelNum init s) :
    Inv worldSize nelemsPerGPU kernelNum s := by
  induction hs with
  | start => exact hinit
  | step rank warpId hrank hwarp _ hstep ih => exact warpStep_inv hrank hwarp ih hstep

/-- Every rank other than `rank` is the peer of one of its warps. -/
theorem exists_remoteRankOf_eq {rank q : Nat} (hrank : rank < worldSize) (hq : q < worldSize)
    (hne : q ≠ rank) : ∃ w < worldSize - 1, remoteRankOf rank w = q := by
  have hmem : q ∈ (List.range worldSize).filter (· ≠ rank) := by simp [hq, hne]
  rw [← map_remoteRankOf_range hrank] at hmem
  obtain ⟨w, hw, rfl⟩ := List.mem_map.1 hmem
  exact ⟨w, List.mem_range.1 hw, rfl⟩

/-- A rank whose warps have all returned, in a state that keeps the invariant, passes the
check of `main`: each of its warps has waited for its peer's signal, which came after the
peer's chunk had landed. -/
theorem Inv.check_passes {s : Device} (h : Inv worldSize nelemsPerGPU kernelNum s)
    (hk : kernelNum = 0 ∨ kernelNum = 1) {rank : Nat} (hrank : rank < worldSize)
    (hdone : ∀ w < worldSize - 1,
      (warpCalls worldSize nelemsPerGPU kernelNum rank w).length ≤ s.pc rank w) :
    firstMismatch (s.data rank) (nelemsPerGPU * worldSize) = none := by
  refine firstMismatch_eq_none_iff.2 fun i hi => ?_
  have hN : 0 < nelemsPerGPU := Nat.pos_of_ne_zero fun h => by simp [h] at hi
  have hsrc : i / nelemsPerGPU < worldSize :=
    (Nat.div_lt_iff_lt_mul hN).2 (by rwa [Nat.mul_comm])
  by_cases hown : i / nelemsPerGPU = rank
  · exact (h.consistent rank hrank i hi).2 hown
  · obtain ⟨w, hw, hq⟩ := exists_remoteRankOf_eq hrank hsrc hown
    have hwaits := h.waits_covered rank hrank w hw
    rw [hq, waitsDone, List.take_of_length_le (hdone w hw)] at hwaits
    have hsig : 0 < s.signals (i / nelemsPerGPU) rank :=
      lt_of_lt_of_le (List.count_pos_iff.2 (wait_mem_warpCalls hk)) hwaits
    exact h.signals_final _ _ hsig i hi rfl

/-- **A rank whose kernel has returned holds the whole gather.**  In every state that a
launch on every rank reaches, from buffers holding the host data, in which every warp of
`rank` has returned, the check of `main` passes on `rank`, whatever the other ranks are still
doing. -/
theorem check_passes_when_rank_done (hk : kernelNum = 0 ∨ kernelNum = 1)
    {data : Nat → Nat → Int}
    (hinit : ∀ rank < worldSize, ∀ i < nelemsPerGPU * worldSize,
      data rank i = (initializeAndAllocateAllGatherData rank worldSize nelemsPerGPU).getD i 0)
    {s : Device} (hs : Reachable (fun r => devConnsOf ranksPerNode r worldSize dataSize)
      worldSize nelemsPerGPU kernelNum (Device.start data) s)
    {rank : Nat} (hrank : rank < worldSize)
    (hdone : ∀ w < worldSize - 1,
      (warpCalls worldSize nelemsPerGPU kernelNum rank w).length ≤ s.pc rank w) :
    firstMismatch (s.data rank) (nelemsPerGPU * worldSize) = none :=
  (reachable_inv (Inv.start (consistent_init hinit)) hs).check_passes hk hrank hdone

/-- The host buffers of `main` on two ranks of one `int` each. -/
def twoRankData : Nat → Nat → Int := fun rank i =>
  (initializeAndAllocateAllGatherData rank 2 1).getD i 0

/-- Rank 0 crosses its barrier and puts with signal, then rank 1 does, then both wait. -/
def twoRankSchedule : List (Nat × Nat) := [(0, 0), (0, 0), (1, 0), (1, 0), (0, 0), (1, 0)]

theorem check_passes_when_rank_done_two_ranks :
    firstMismatch (((runSchedule (fun r => devConnsOf 8 r 2 8) 2 1 1 (Device.start twoRankData)
      twoRankSchedule).getD (Device.start twoRankData)).data 0) (1 * 2) = none :=
  @check_passes_when_rank_done 8 8 2 1 1 (Or.inr rfl) twoRankData (fun _ _ _ _ => rfl) _
    (@reachable_of_runSchedule _ 2 1 1 _ _ _ twoRankSchedule (by decide) .start rfl) 0
    (by decide) (by decide)

end Runs

end Mscclpp.AllgatherTest
