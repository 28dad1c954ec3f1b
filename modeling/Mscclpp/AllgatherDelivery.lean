import Mathlib.Data.List.ProdSigma
import Mscclpp.AllgatherProgress

/-!
# Every put of the allgather lands exactly once

`AllgatherRun` follows what the buffers hold; this module follows which puts made them.  In
every state a launch on every rank reaches, the connection from `a` to `b` holds the chunk of
`a` for `b` exactly while the warp of `a` toward `b` has put it and not yet signalled, and
the buffers are those of a run of puts that has landed, once each, the chunks of the warps
that have signalled.  Once every warp of every rank has returned, that run is a reordering of
the puts of the launch (`allPuts`): no put is lost and none lands twice, and the launch is a
run of puts in the sense of `AllgatherTest`.

## Main Definitions

* `warps`, `warpOf` — the warps of a launch, and the warp of a rank toward a peer.
* `Device.made` — whether a warp has made a call of some kind.
* `landedPuts` — the chunks of the warps that have signalled.
* `Delivery` — the invariant.

## Main results

* `warpCalls_post_signal` — a warp puts once, before or with its only signal.
* `filterMap_perm_of_update` — the run of landed puts grows by one put per signal.
* `warpStep_delivery`, `reachable_delivery` — one call, then every run, keeps `Delivery`.
* `Delivery.allReturned_perm`, `launch_delivers_each_put_once` — once every warp has
  returned, the buffers are those of a run that lands every put of the launch exactly once.

## Design Notes

The run of landed puts is not part of the state: `Delivery` says that some run, a
reordering of `landedPuts`, gives the buffers.  A signal lands the puts of its connection in
the order they were posted, which is at most one put here.
-/

namespace Mscclpp.AllgatherTest

/-- The warps of a launch on every rank, as `(rank, warpId)`, rank by rank. -/
def warps (worldSize : Nat) : List (Nat × Nat) :=
  List.range worldSize ×ˢ List.range (worldSize - 1)

/-- The warp of `rank` whose peer is `dst`: the inverse of `remoteRankOf`. -/
def warpOf (rank dst : Nat) : Nat := if dst < rank then dst else dst - 1

/-- Whether warp `warpId` of `rank` has made a call of the kind `q`. -/
def Device.made (worldSize nelemsPerGPU kernelNum : Nat) (s : Device) (q : DeviceCall → Bool)
    (rank warpId : Nat) : Bool :=
  ((warpCalls worldSize nelemsPerGPU kernelNum rank warpId).take (s.pc rank warpId)).any q

/-- The puts landed in `s`: the chunk of every warp that has signalled, warp by warp. -/
def landedPuts (worldSize nelemsPerGPU kernelNum : Nat) (s : Device) : List Put :=
  (warps worldSize).filterMap fun x =>
    if s.made worldSize nelemsPerGPU kernelNum DeviceCall.signals x.1 x.2 then
      some (chunkPut nelemsPerGPU x.1 (remoteRankOf x.1 x.2))
    else none

theorem remoteRankOf_warpOf {rank dst : Nat} (hne : dst ≠ rank) :
    remoteRankOf rank (warpOf rank dst) = dst := by
  unfold remoteRankOf warpOf
  split_ifs <;> omega

theorem warpOf_remoteRankOf (rank warpId : Nat) :
    warpOf rank (remoteRankOf rank warpId) = warpId := by
  unfold remoteRankOf warpOf
  split_ifs <;> omega

theorem warps_eq (worldSize : Nat) :
    warps worldSize =
      (List.range worldSize).flatMap fun rank => (List.range (worldSize - 1)).map (rank, ·) :=
  rfl

theorem nodup_warps (worldSize : Nat) : (warps worldSize).Nodup :=
  (List.nodup_range _).product (List.nodup_range _)

/-! ## The calls of a warp -/

section Calls

variable {worldSize nelemsPerGPU kernelNum rank warpId : Nat}

/-- A call of `allgather1` is a barrier, the wait, or the rank's put with signal. -/
theorem mem_allgather1 {q : Nat} {call : DeviceCall}
    (h : call ∈ allgather1 rank worldSize q nelemsPerGPU) :
    call = .syncthreads ∨ call = .wait ∨
      call = .putWithSignal (rank * nelemsPerGPU * sizeofInt) (nelemsPerGPU * sizeofInt) := by
  simp only [allgather1, allgather1Step, List.mem_append, List.mem_flatMap, List.mem_cons,
    List.mem_singleton] at h
  rcases h with ⟨i, -, h | h⟩ | h
  · exact .inl h
  · split_ifs at h <;> simp_all
  · exact .inr (.inl (by simpa using h))

/-- A call appearing once, at position `i`, has no call of its kind before it. -/
theorem not_any_take_of_countP_eq_one {calls : List DeviceCall} {p : DeviceCall → Bool}
    (hcount : calls.countP p = 1) {i : Nat} {call : DeviceCall} (h : calls[i]? = some call)
    (hp : p call) : (calls.take i).any p = false := by
  obtain ⟨hi, rfl⟩ := List.getElem?_eq_some_iff.1 h
  have hsplit := List.countP_append p (calls.take i) (calls.drop i)
  rw [List.take_append_drop, hcount, List.drop_eq_getElem_cons hi,
    List.countP_cons_of_pos _ _ hp] at hsplit
  exact List.any_eq_false.2 fun x hx => List.countP_eq_zero.1 (by omega) x hx

/-- **A warp puts once, before or with its only signal.**  A call that posts comes when the
warp has made no post and no signal; a `signal` comes after the post and before any other
signal. -/
theorem warpCalls_post_signal (hk : kernelNum = 0 ∨ kernelNum = 1) (hrank : rank < worldSize)
    (hw : warpId < worldSize - 1) {s : Device} {call : DeviceCall}
    (h : (warpCalls worldSize nelemsPerGPU kernelNum rank warpId)[s.pc rank warpId]? =
      some call) :
    (call.posts → s.made worldSize nelemsPerGPU kernelNum DeviceCall.posts rank warpId = false ∧
      s.made worldSize nelemsPerGPU kernelNum DeviceCall.signals rank warpId = false) ∧
    (call = .signal →
      s.made worldSize nelemsPerGPU kernelNum DeviceCall.posts rank warpId = true ∧
        s.made worldSize nelemsPerGPU kernelNum DeviceCall.signals rank warpId = false) := by
  unfold Device.made
  generalize s.pc rank warpId = i at h ⊢
  rw [warpCalls_eq] at h ⊢
  rcases hk with rfl | rfl
  · rcases i with _ | _ | _ | i <;> simp [allgather0] at h <;> subst h <;>
      simp [allgather0, DeviceCall.posts, DeviceCall.signals]
  · simp only [if_neg Nat.one_ne_zero, if_pos] at h ⊢
    obtain ⟨hq, hne⟩ := remoteRankOf_lt_ne rank hw
    have hposts : (allgather1 rank worldSize (remoteRankOf rank warpId) nelemsPerGPU).countP
        DeviceCall.posts = 1 := by
      have hlen := congrArg List.length
        (@allgather1_puts rank worldSize (remoteRankOf rank warpId) nelemsPerGPU 0 hrank hq hne)
      rw [List.length_filterMap_eq_countP] at hlen
      exact (List.countP_congr fun c _ => by cases c <;> rfl).trans hlen
    have hiff : ∀ c ∈ allgather1 rank worldSize (remoteRankOf rank warpId) nelemsPerGPU,
        c.posts = true ↔ c.signals = true := fun c hc => by
      rcases mem_allgather1 hc with rfl | rfl | rfl <;> rfl
    have hsignals := (List.countP_congr hiff).symm.trans hposts
    refine ⟨fun hp => ⟨not_any_take_of_countP_eq_one hposts h hp,
      not_any_take_of_countP_eq_one hsignals h ((hiff _ (List.getElem?_mem h)).1 hp)⟩,
      fun hsig => ?_⟩
    rcases mem_allgather1 (List.getElem?_mem h) with rfl | rfl | rfl <;> cases hsig

end Calls

/-! ## The landed puts -/

/-- Turning one entry of a duplicate-free list from no value to `y` adds `y` to what
`filterMap` keeps, up to order. -/
theorem filterMap_perm_of_update {α β : Type} {l : List α} (hl : l.Nodup) {f g : α → Option β}
    {x : α} {y : β} (hx : x ∈ l) (hfx : f x = none) (hgx : g x = some y)
    (hfg : ∀ a ∈ l, a ≠ x → g a = f a) : (l.filterMap g).Perm (l.filterMap f ++ [y]) := by
  induction l with
  | nil => cases hx
  | cons a l ih =>
    obtain ⟨ha, hl⟩ := List.nodup_cons.1 hl
    by_cases hax : a = x
    · subst hax
      have hrest : l.filterMap g = l.filterMap f :=
        List.filterMap_congr fun b hb => hfg b (List.mem_cons_of_mem _ hb) fun h => ha (h ▸ hb)
      rw [List.filterMap_cons_some hgx, List.filterMap_cons_none hfx, hrest]
      exact (List.perm_append_singleton _ _).symm
    · have hperm := ih hl ((List.mem_cons.1 hx).resolve_left (Ne.symm hax))
        fun b hb => hfg b (List.mem_cons_of_mem _ hb)
      rw [List.filterMap_cons, List.filterMap_cons, hfg a (List.mem_cons_self _ _) hax]
      cases f a with
      | none => exact hperm
      | some b => exact hperm.cons b

/-- The puts of a run, then of another. -/
theorem runPuts_append (run run' : List Put) (data : Nat → Nat → Int) :
    runPuts (run ++ run') data = runPuts run' (runPuts run data) :=
  List.foldl_append _ _ _ _

section Made

variable {worldSize nelemsPerGPU kernelNum : Nat}

/-- What the warps have made depends on the state only through their positions. -/
theorem Device.made_congr {s s' : Device} (hpc : ∀ r w, s'.pc r w = s.pc r w)
    (q : DeviceCall → Bool) (r w : Nat) :
    s'.made worldSize nelemsPerGPU kernelNum q r w =
      s.made worldSize nelemsPerGPU kernelNum q r w := by
  simp only [Device.made, hpc]

/-- Moving a warp past its call adds the call to what it has made. -/
theorem Device.made_advance {s : Device} {rank warpId : Nat} {call : DeviceCall}
    (hcall : (warpCalls worldSize nelemsPerGPU kernelNum rank warpId)[s.pc rank warpId]? =
      some call) (q : DeviceCall → Bool) (r w : Nat) :
    (s.advance rank warpId).made worldSize nelemsPerGPU kernelNum q r w =
      if r = rank ∧ w = warpId then s.made worldSize nelemsPerGPU kernelNum q rank warpId || q call
      else s.made worldSize nelemsPerGPU kernelNum q r w := by
  unfold Device.made
  rw [Device.advance_pc]
  split_ifs with h
  · obtain ⟨rfl, rfl⟩ := h
    rw [take_succ_eq_of_getElem? hcall, List.any_append]
    simp
  · rfl

/-- A warp's first signal adds its chunk to the landed puts. -/
theorem landedPuts_perm_of_signal {s s' : Device} {rank warpId : Nat} (hrank : rank < worldSize)
    (hw : warpId < worldSize - 1)
    (hmade : ∀ r w, s'.made worldSize nelemsPerGPU kernelNum DeviceCall.signals r w =
      if r = rank ∧ w = warpId then true
      else s.made worldSize nelemsPerGPU kernelNum DeviceCall.signals r w)
    (hsi : s.made worldSize nelemsPerGPU kernelNum DeviceCall.signals rank warpId = false) :
    (landedPuts worldSize nelemsPerGPU kernelNum s').Perm
      (landedPuts worldSize nelemsPerGPU kernelNum s ++
        [chunkPut nelemsPerGPU rank (remoteRankOf rank warpId)]) :=
  filterMap_perm_of_update (nodup_warps worldSize) (x := (rank, warpId))
    (List.mem_product.2 ⟨List.mem_range.2 hrank, List.mem_range.2 hw⟩) (by simp [hsi])
    (by simp [hmade]) fun a _ ha => by
      simp only [hmade, if_neg fun h : a.1 = rank ∧ a.2 = warpId => ha (Prod.ext h.1 h.2)]

end Made

/-- The chunk the connection from `a` to `b` holds: `a`'s chunk for `b`, while `a`'s warp
toward `b` has put it and not yet signalled. -/
def pendingChunk (worldSize nelemsPerGPU kernelNum : Nat) (s : Device) (a b : Nat) : List Put :=
  if a < worldSize ∧ b < worldSize ∧ b ≠ a ∧
      s.made worldSize nelemsPerGPU kernelNum DeviceCall.posts a (warpOf a b) = true ∧
      s.made worldSize nelemsPerGPU kernelNum DeviceCall.signals a (warpOf a b) = false
  then [chunkPut nelemsPerGPU a b] else []

/-- **The delivery invariant**: every connection holds its pending chunk, and the buffers are
those of a run of puts that is a reordering of the landed puts. -/
structure Delivery (worldSize nelemsPerGPU kernelNum : Nat) (data : Nat → Nat → Int)
    (s : Device) : Prop where
  pending_eq : ∀ a b, s.pending a b = pendingChunk worldSize nelemsPerGPU kernelNum s a b
  landed : ∃ delivered : List Put, delivered.Perm (landedPuts worldSize nelemsPerGPU kernelNum s) ∧
    s.data = runPuts delivered data

section Step

variable {worldSize nelemsPerGPU kernelNum : Nat}

/-- The pending chunk toward a warp's own peer. -/
theorem pendingChunk_remoteRankOf (s : Device) {rank warpId : Nat} (hrank : rank < worldSize)
    (hw : warpId < worldSize - 1) :
    pendingChunk worldSize nelemsPerGPU kernelNum s rank (remoteRankOf rank warpId) =
      if s.made worldSize nelemsPerGPU kernelNum DeviceCall.posts rank warpId = true ∧
          s.made worldSize nelemsPerGPU kernelNum DeviceCall.signals rank warpId = false
      then [chunkPut nelemsPerGPU rank (remoteRankOf rank warpId)] else [] := by
  obtain ⟨hq, hne⟩ := remoteRankOf_lt_ne rank hw
  simp only [pendingChunk, warpOf_remoteRankOf, hrank, hq, ne_eq, hne, not_false_eq_true,
    true_and]

/-- The pending chunks of the other connections do not change when one warp moves. -/
theorem pendingChunk_of_ne {s s' : Device} {rank warpId : Nat}
    (hmade : ∀ q r w, ¬(r = rank ∧ w = warpId) →
      s'.made worldSize nelemsPerGPU kernelNum q r w =
        s.made worldSize nelemsPerGPU kernelNum q r w)
    {a b : Nat} (hab : ¬(a = rank ∧ b = remoteRankOf rank warpId)) :
    pendingChunk worldSize nelemsPerGPU kernelNum s' a b =
      pendingChunk worldSize nelemsPerGPU kernelNum s a b := by
  unfold pendingChunk
  by_cases hin : a < worldSize ∧ b < worldSize ∧ b ≠ a
  · have hne : ¬(a = rank ∧ warpOf a b = warpId) := fun ⟨ha, hw⟩ =>
      hab ⟨ha, by rw [← hw, ← ha, remoteRankOf_warpOf hin.2.2]⟩
    rw [hmade _ _ _ hne, hmade _ _ _ hne]
  · rw [if_neg fun h => hin ⟨h.1, h.2.1, h.2.2.1⟩, if_neg fun h => hin ⟨h.1, h.2.1, h.2.2.1⟩]

variable {data : Nat → Nat → Int} {s s' : Device} {rank warpId : Nat} {call : DeviceCall}

/-- A call that does not signal lands nothing. -/
theorem Delivery.landed_quiet (h : Delivery worldSize nelemsPerGPU kernelNum data s)
    (hmade : ∀ q r w, s'.made worldSize nelemsPerGPU kernelNum q r w =
      if r = rank ∧ w = warpId then s.made worldSize nelemsPerGPU kernelNum q rank warpId || q call
      else s.made worldSize nelemsPerGPU kernelNum q r w)
    (hsig : call.signals = false) (hdata : s'.data = s.data) :
    ∃ delivered : List Put, delivered.Perm (landedPuts worldSize nelemsPerGPU kernelNum s') ∧
      s'.data = runPuts delivered data := by
  have hland : landedPuts worldSize nelemsPerGPU kernelNum s' =
      landedPuts worldSize nelemsPerGPU kernelNum s := by
    have hsame : ∀ r w, s'.made worldSize nelemsPerGPU kernelNum DeviceCall.signals r w =
        s.made worldSize nelemsPerGPU kernelNum DeviceCall.signals r w := fun r w => by
      rw [hmade]
      split_ifs with hrw
      · obtain ⟨rfl, rfl⟩ := hrw
        simp [hsig]
      · rfl
    simp only [landedPuts, hsame]
  rw [hland, hdata]
  exact h.landed

/-- A warp's first signal lands its chunk after the puts landed before. -/
theorem Delivery.landed_signal (h : Delivery worldSize nelemsPerGPU kernelNum data s)
    (hrank : rank < worldSize) (hw : warpId < worldSize - 1)
    (hmade : ∀ q r w, s'.made worldSize nelemsPerGPU kernelNum q r w =
      if r = rank ∧ w = warpId then s.made worldSize nelemsPerGPU kernelNum q rank warpId || q call
      else s.made worldSize nelemsPerGPU kernelNum q r w)
    (hsig : call.signals = true)
    (hsi : s.made worldSize nelemsPerGPU kernelNum DeviceCall.signals rank warpId = false)
    (hdata : s'.data = runPuts [chunkPut nelemsPerGPU rank (remoteRankOf rank warpId)] s.data) :
    ∃ delivered : List Put, delivered.Perm (landedPuts worldSize nelemsPerGPU kernelNum s') ∧
      s'.data = runPuts delivered data := by
  obtain ⟨delivered, hperm, hdata₀⟩ := h.landed
  refine ⟨delivered ++ [chunkPut nelemsPerGPU rank (remoteRankOf rank warpId)],
    ((hperm.append_right _).trans (landedPuts_perm_of_signal hrank hw (fun r w => ?_) hsi).symm),
    by rw [hdata, hdata₀, runPuts_append]⟩
  rw [hmade]
  split_ifs <;> simp [hsig]

/-- **Assembling a step**: a step of warp `warpId` of `rank` keeps `Delivery` when it leaves
the other connections alone, leaves its own connection with its pending chunk, and lands
what it signals. -/
theorem Delivery.of_step (h : Delivery worldSize nelemsPerGPU kernelNum data s)
    (hrank : rank < worldSize) (hw : warpId < worldSize - 1)
    (hmade : ∀ q r w, s'.made worldSize nelemsPerGPU kernelNum q r w =
      if r = rank ∧ w = warpId then s.made worldSize nelemsPerGPU kernelNum q rank warpId || q call
      else s.made worldSize nelemsPerGPU kernelNum q r w)
    (hother : ∀ a b, ¬(a = rank ∧ b = remoteRankOf rank warpId) → s'.pending a b = s.pending a b)
    (hself : s'.pending rank (remoteRankOf rank warpId) =
      if (s.made worldSize nelemsPerGPU kernelNum DeviceCall.posts rank warpId ||
            call.posts) = true ∧
          (s.made worldSize nelemsPerGPU kernelNum DeviceCall.signals rank warpId ||
            call.signals) = false
      then [chunkPut nelemsPerGPU rank (remoteRankOf rank warpId)] else [])
    (hlanded : ∃ delivered : List Put,
      delivered.Perm (landedPuts worldSize nelemsPerGPU kernelNum s') ∧
        s'.data = runPuts delivered data) :
    Delivery worldSize nelemsPerGPU kernelNum data s' := by
  refine ⟨fun a b => ?_, hlanded⟩
  by_cases hab : a = rank ∧ b = remoteRankOf rank warpId
  · obtain ⟨rfl, rfl⟩ := hab
    rw [hself, pendingChunk_remoteRankOf s' hrank hw, hmade, hmade]
    simp only [and_self, if_true]
  · rw [hother a b hab, h.pending_eq a b,
      pendingChunk_of_ne (fun q r w hrw => by rw [hmade, if_neg hrw]) hab]

end Step

/-! ## Every run -/

section Runs

variable {ranksPerNode dataSize worldSize nelemsPerGPU kernelNum : Nat} {data : Nat → Nat → Int}

/-- The launch starts with nothing posted and nothing landed. -/
theorem Delivery.start : Delivery worldSize nelemsPerGPU kernelNum data (Device.start data) where
  pending_eq a b := by simp [pendingChunk, Device.start, Device.made]
  landed := ⟨[], by simp [landedPuts, Device.start, Device.made], rfl⟩

/-- **Step lemma** of `Delivery`: a put posts the warp's chunk, a signal lands it, a put
with signal does both, and a wait or a barrier changes no connection. -/
theorem warpStep_delivery (hk : kernelNum = 0 ∨ kernelNum = 1) {s s' : Device}
    {rank warpId : Nat} (hrank : rank < worldSize) (hw : warpId < worldSize - 1)
    (h : Delivery worldSize nelemsPerGPU kernelNum data s)
    (hstep : warpStep (fun r => devConnsOf ranksPerNode r worldSize dataSize) worldSize
      nelemsPerGPU kernelNum s rank warpId = some s') :
    Delivery worldSize nelemsPerGPU kernelNum data s' := by
  obtain ⟨call, hcall, hpc, -, -⟩ := warpStep_frame hstep
  have hmade := fun q r w => (Device.made_congr hpc q r w).trans (Device.made_advance hcall q r w)
  obtain ⟨call', hcall', hcases⟩ := warpStep_cases hstep
  obtain rfl : call = call' := Option.some.inj (hcall.symm.trans hcall')
  obtain ⟨hpost, hsignal⟩ := warpCalls_post_signal hk hrank hw hcall
  have hold := h.pending_eq rank (remoteRankOf rank warpId)
  rw [pendingChunk_remoteRankOf s hrank hw] at hold
  rcases hcases with ⟨dst, offset, size, hd, rfl, rfl⟩ | ⟨dst, hd, rfl, rfl⟩ |
    ⟨dst, offset, size, hd, rfl, rfl⟩ | ⟨dst, hd, rfl, -, rfl⟩ | ⟨rfl, rfl⟩
  · obtain rfl := eq_remoteRankOf_of_devConnsOf hrank hw hd
    obtain ⟨hpo, hsi⟩ := hpost rfl
    rw [hpo] at hold
    refine h.of_step hrank hw hmade (fun a b hab => by simp [Device.post, hab]) ?_
      (h.landed_quiet hmade rfl rfl)
    simp [Device.post, hold, hpo, hsi, toPut_of_mem_warpCalls (List.getElem?_mem hcall) rfl,
      DeviceCall.posts, DeviceCall.signals]
  · obtain rfl := eq_remoteRankOf_of_devConnsOf hrank hw hd
    obtain ⟨hpo, hsi⟩ := hsignal rfl
    simp only [hpo, hsi, and_self, if_true] at hold
    refine h.of_step hrank hw hmade (fun a b hab => by simp [Device.deliver, hab]) ?_
      (h.landed_signal hrank hw hmade rfl hsi (by simp [hold]))
    simp [Device.deliver, DeviceCall.signals]
  · obtain rfl := eq_remoteRankOf_of_devConnsOf hrank hw hd
    obtain ⟨hpo, hsi⟩ := hpost rfl
    rw [hpo] at hold
    refine h.of_step hrank hw hmade
      (fun a b hab => by simp [Device.post, Device.deliver, hab]) ?_
      (h.landed_signal hrank hw hmade rfl hsi ?_)
    · simp [Device.post, Device.deliver, DeviceCall.signals]
    · simp [Device.post, hold, toPut_of_mem_warpCalls (List.getElem?_mem hcall) rfl]
  · obtain rfl := eq_remoteRankOf_of_devConnsOf hrank hw hd
    exact h.of_step hrank hw hmade (fun _ _ _ => rfl)
      (by simp [hold, DeviceCall.posts, DeviceCall.signals]) (h.landed_quiet hmade rfl rfl)
  · exact h.of_step hrank hw hmade (fun _ _ _ => rfl)
      (by simp [hold, DeviceCall.posts, DeviceCall.signals]) (h.landed_quiet hmade rfl rfl)

/-- **Run lemma** of `Delivery`. -/
theorem reachable_delivery (hk : kernelNum = 0 ∨ kernelNum = 1) {s : Device}
    (hs : Reachable (fun r => devConnsOf ranksPerNode r worldSize dataSize) worldSize
      nelemsPerGPU kernelNum (Device.start data) s) :
    Delivery worldSize nelemsPerGPU kernelNum data s := by
  induction hs with
  | start => exact Delivery.start
  | step rank warpId hrank hwarp _ hstep ih => exact warpStep_delivery hk hrank hwarp ih hstep

/-- Once every warp has returned, every warp has landed its chunk. -/
theorem landedPuts_of_allReturned (hk : kernelNum = 0 ∨ kernelNum = 1) {s : Device}
    (hdone : AllReturned worldSize nelemsPerGPU kernelNum s) :
    landedPuts worldSize nelemsPerGPU kernelNum s =
      (warps worldSize).map fun x => chunkPut nelemsPerGPU x.1 (remoteRankOf x.1 x.2) := by
  rw [← List.filterMap_eq_map]
  refine List.filterMap_congr fun x hx => ?_
  obtain ⟨hr, hw⟩ := List.mem_product.1 hx
  have hsig : s.made worldSize nelemsPerGPU kernelNum DeviceCall.signals x.1 x.2 = true := by
    rw [Device.made, List.take_of_length_le (hdone _ (List.mem_range.1 hr) _ (List.mem_range.1 hw))]
    exact any_signals_warpCalls hk (List.mem_range.1 hr) (List.mem_range.1 hw)
  simp [hsig]

/-- The puts of a launch on every rank, warp by warp. -/
theorem allPuts_eq_warps (hk : kernelNum = 0 ∨ kernelNum = 1) :
    allPuts ranksPerNode worldSize dataSize nelemsPerGPU kernelNum =
      (warps worldSize).map fun x => chunkPut nelemsPerGPU x.1 (remoteRankOf x.1 x.2) := by
  rw [allPuts, List.flatMap_congr fun r hr => launchPuts_eq (List.mem_range.1 hr) hk,
    List.flatMap_congr fun r hr => by rw [← map_remoteRankOf_range (List.mem_range.1 hr)],
    warps_eq, List.map_flatMap]
  simp [List.map_map, Function.comp_def]

/-- Once every warp has returned, the landed puts are a reordering of the puts of the
launch. -/
theorem Delivery.allReturned_perm (hk : kernelNum = 0 ∨ kernelNum = 1) {s : Device}
    (h : Delivery worldSize nelemsPerGPU kernelNum data s)
    (hdone : AllReturned worldSize nelemsPerGPU kernelNum s) :
    ∃ delivered : List Put,
      delivered.Perm (allPuts ranksPerNode worldSize dataSize nelemsPerGPU kernelNum) ∧
        s.data = runPuts delivered data := by
  obtain ⟨delivered, hperm, hdata⟩ := h.landed
  rw [landedPuts_of_allReturned hk hdone, ← allPuts_eq_warps hk] at hperm
  exact ⟨delivered, hperm, hdata⟩

/-- **Every put of the launch lands exactly once.**  Once every warp of every rank has
returned, in whatever interleaving, the buffers of all ranks are those of a run of puts that
is a reordering of the puts of the launch: each rank's chunk has landed on every other rank
once, and nothing else has landed. -/
theorem launch_delivers_each_put_once (hk : kernelNum = 0 ∨ kernelNum = 1) {s : Device}
    (hs : Reachable (fun r => devConnsOf ranksPerNode r worldSize dataSize) worldSize
      nelemsPerGPU kernelNum (Device.start data) s)
    (hdone : AllReturned worldSize nelemsPerGPU kernelNum s) :
    ∃ delivered : List Put,
      delivered.Perm (allPuts ranksPerNode worldSize dataSize nelemsPerGPU kernelNum) ∧
        s.data = runPuts delivered data :=
  (reachable_delivery hk hs).allReturned_perm hk hdone

theorem launch_delivers_each_put_once_two_ranks :
    ∃ delivered : List Put, delivered.Perm (allPuts 8 2 8 1 1) ∧
      ((runSchedule (fun r => devConnsOf 8 r 2 8) 2 1 1 (Device.start twoRankData)
        twoRankSchedule).getD (Device.start twoRankData)).data = runPuts delivered twoRankData :=
  @launch_delivers_each_put_once 8 8 2 1 1 twoRankData (Or.inr rfl) _
    (@reachable_of_runSchedule _ 2 1 1 _ _ _ twoRankSchedule (by decide) .start rfl) (by decide)

end Runs

end Mscclpp.AllgatherTest
