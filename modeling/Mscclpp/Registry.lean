import Mscclpp.HostHash

/-!
# The communicator's registry of connections and IB contexts

`connectOnSetup` numbers every connection with the communicator's counter and, for an IB
transport, looks the transport up in `ibContexts_` and creates its context on first use
(`getIbContext`).  This module proves that the registry stays consistent over every run of
operations after construction: the connections have distinct identities, all below the
counter, and the IB contexts are exactly the IB transports the connections use, each
created once.

## Main Definitions

* `Registry` — the invariant.

## Main results

* `Communicator.connectOnSetup_fields` — what a returning `connectOnSetup` changes.
* `Registry.connectOnSetup`, `CommOp.run_registry`, `runOps_registry` — one connect, one
  operation, then every run, keep `Registry`.
* `runOps_impl_registry` — every run after construction keeps it.

## Design Notes

The other enqueueing operations and `setup()` leave the connections and the contexts alone;
`sendMemoryOnSetup` and `recvMemoryOnSetup` move the counter on, which keeps every identity
below it (`Registry.of_eq`).
-/

namespace Mscclpp

/-- **The registry invariant** of a communicator: its connections have distinct identities,
all below the counter `nextId`; it holds each IB context once, and its contexts are exactly
the IB transports of its connections. -/
structure Registry (c : Communicator) : Prop where
  ids_nodup : (c.connections.map Connection.id).Nodup
  ids_lt : ∀ conn ∈ c.connections, conn.id < c.nextId
  contexts_nodup : c.ibContexts.Nodup
  mem_contexts : ∀ t, t ∈ c.ibContexts ↔
    t.isIB = true ∧ ∃ conn ∈ c.connections, conn.transport = t

namespace Communicator

theorem getIbContext_nextId (c : Communicator) (ibTransport : Transport) :
    (c.getIbContext ibTransport).nextId = c.nextId := by
  unfold getIbContext
  split <;> rfl

theorem getIbContext_connections (c : Communicator) (ibTransport : Transport) :
    (c.getIbContext ibTransport).connections = c.connections := by
  unfold getIbContext
  split <;> rfl

theorem mem_getIbContext (c : Communicator) (ibTransport t : Transport) :
    t ∈ (c.getIbContext ibTransport).ibContexts ↔ t ∈ c.ibContexts ∨ t = ibTransport := by
  unfold getIbContext
  split
  · rename_i hin
    exact ⟨.inl, by rintro (h | rfl); exacts [h, hin]⟩
  · simp

theorem nodup_getIbContext {c : Communicator} (h : c.ibContexts.Nodup) (ibTransport : Transport) :
    (c.getIbContext ibTransport).ibContexts.Nodup := by
  unfold getIbContext
  split
  · exact h
  · exact h.append (List.nodup_singleton _) (List.disjoint_singleton.2 ‹_›)

/-- **What a returning `connectOnSetup` changes**: the connection carries the counter as its
identity and joins the connections, the counter moves on, and an IB transport gets its
context if it had none. -/
theorem connectOnSetup_fields {c c' : Communicator} {remoteRank : Nat} {tag : Int}
    {transport : Transport} {conn : Connection}
    (h : c.connectOnSetup remoteRank tag transport = .ok (conn, c')) :
    conn = ⟨c.nextId, remoteRank, tag, transport⟩ ∧
      c'.connections = c.connections ++ [conn] ∧ c'.nextId = c.nextId + 1 ∧
      c'.ibContexts = (if transport.isIB then c.getIbContext transport else c).ibContexts := by
  simp only [connectOnSetup, bind, Except.bind, pure, Except.pure] at h
  split at h
  · split at h
    · cases h
    · split at h <;> cases h
      subst ‹transport = .cudaIpc›
      exact ⟨rfl, rfl, rfl, rfl⟩
  · split at h <;> cases h
    exact ⟨by rw [getIbContext_nextId], by rw [getIbContext_connections, getIbContext_nextId],
      by rw [getIbContext_nextId], by rw [if_pos ‹_›]; rfl⟩

end Communicator

/-- Changing neither the connections nor the contexts, and not moving the counter back,
keeps the registry. -/
theorem Registry.of_eq {c c' : Communicator} (h : Registry c)
    (hconns : c'.connections = c.connections) (hctx : c'.ibContexts = c.ibContexts)
    (hnext : c.nextId ≤ c'.nextId) : Registry c' where
  ids_nodup := hconns ▸ h.ids_nodup
  ids_lt conn hmem := Nat.lt_of_lt_of_le (h.ids_lt conn (hconns ▸ hmem)) hnext
  contexts_nodup := hctx ▸ h.contexts_nodup
  mem_contexts t := hconns ▸ hctx ▸ h.mem_contexts t

/-- **A returning `connectOnSetup` keeps the registry**: the new identity is the counter,
above every earlier one, and an IB transport's context is created only if it is missing. -/
theorem Registry.connectOnSetup {c c' : Communicator} {remoteRank : Nat} {tag : Int}
    {transport : Transport} {conn : Connection} (h : Registry c)
    (hok : c.connectOnSetup remoteRank tag transport = .ok (conn, c')) : Registry c' := by
  obtain ⟨rfl, hconns, hnext, hctx⟩ := Communicator.connectOnSetup_fields hok
  have hmem : ∀ t, t ∈ c'.ibContexts ↔
      t ∈ c.ibContexts ∨ (transport.isIB = true ∧ t = transport) := fun t => by
    rw [hctx]
    split <;> rename_i hib
    · simp [Communicator.mem_getIbContext, hib]
    · simp [hib]
  refine ⟨?_, fun conn' hc => ?_, ?_, fun t => ?_⟩
  · rw [hconns, List.map_append, List.nodup_append]
    exact ⟨h.ids_nodup, List.nodup_singleton _, List.disjoint_singleton.2 fun hin =>
      have ⟨_, hc, heq⟩ := List.mem_map.1 hin
      Nat.lt_irrefl _ (heq ▸ h.ids_lt _ hc)⟩
  · rw [hconns, List.mem_append, List.mem_singleton] at hc
    rw [hnext]
    rcases hc with hc | rfl
    · exact Nat.lt_succ_of_lt (h.ids_lt conn' hc)
    · exact Nat.lt_succ_self _
  · rw [hctx]
    split
    · exact Communicator.nodup_getIbContext h.contexts_nodup transport
    · exact h.contexts_nodup
  · rw [hmem, h.mem_contexts, hconns]
    simp only [List.mem_append, List.mem_singleton]
    constructor
    · rintro (⟨hib, conn', hc, rfl⟩ | ⟨hib, rfl⟩)
      · exact ⟨hib, conn', .inl hc, rfl⟩
      · exact ⟨hib, _, .inr rfl, rfl⟩
    · rintro ⟨hib, conn', hc | rfl, rfl⟩
      · exact .inl ⟨hib, conn', hc, rfl⟩
      · exact .inr ⟨hib, rfl⟩

section Runs

variable {W : Type} (runHook : Hook → Setuppable → W → W × Option Failure)

/-- **Step lemma**: every operation keeps the registry. -/
theorem CommOp.run_registry (op : CommOp) {c : Communicator} (w : W) (h : Registry c) :
    Registry (op.run runHook (c, w)).1.1 := by
  cases op with
  | sendMemoryOnSetup => exact h.of_eq rfl rfl (Nat.le_succ _)
  | recvMemoryOnSetup => exact h.of_eq rfl rfl (Nat.le_succ _)
  | connectOnSetup remoteRank tag transport =>
    simp only [CommOp.run]
    split
    · exact h.connectOnSetup ‹_›
    · exact h
  | onSetup => exact h.of_eq rfl rfl le_rfl
  | setup =>
    obtain ⟨-, hok, herr⟩ := Communicator.setup_spec runHook c w
    simp only [CommOp.run]
    by_cases hf : (c.setup runHook w).failure = none
    · rw [(hok hf).2]
      exact h.of_eq rfl rfl le_rfl
    · rw [herr hf]
      exact h

/-- **Run lemma**: every run keeps the registry. -/
theorem runOps_registry (ops : List CommOp) {c : Communicator} (w : W) (h : Registry c) :
    Registry (runOps runHook ops (c, w)).1.1 := by
  induction ops generalizing c w with
  | nil => exact h
  | cons op ops ih => exact ih _ (CommOp.run_registry runHook op w h)

end Runs

/-- **The registry stays consistent over every run after construction.**  Whatever
operations a rank's communicator runs, and whatever its hooks do, its connections have
distinct identities below its counter, and it holds one IB context for each IB transport its
connections use and no other. -/
theorem runOps_impl_registry {W : Type} (runHook : Hook → Setuppable → W → W × Option Failure)
    (nranks rank : Nat) (hostHash : Nat → UInt64) (hrank : rank < nranks) (ops : List CommOp)
    (w : W) : Registry (runOps runHook ops (Communicator.impl nranks rank hostHash hrank, w)).1.1 :=
  runOps_registry runHook ops w
    ⟨List.nodup_nil, fun _ h => (by cases h), List.nodup_nil, fun _ => by simp [Communicator.impl]⟩

theorem runOps_impl_registry_two_ranks :
    Registry (runOps (fun _ _ w => (w, none))
      [.connectOnSetup 1 0 (.ib 0), .connectOnSetup 1 1 (.ib 0), .connectOnSetup 1 2 .cudaIpc,
        .setup] (Communicator.impl 2 0 (fun _ => 7) (by decide), ())).1.1 :=
  runOps_impl_registry (fun _ _ w => (w, none)) 2 0 (fun _ => 7) (by decide) _ ()

end Mscclpp
