import Mscclpp.Executor.Cache
import Mscclpp.Executor.Handles

/-!
# What `execute` launches

`Executor::execute` builds or reuses a context, then launches the kernel on it.  This
module follows a call through both: a call that returns launches exactly one kernel, with
one thread block per threadblock of its plan for the rank, on the caller's pointers and with
the next value of the process's counter; a call that throws launches nothing.  Over a run of
calls, the process's launches are its earlier ones followed by one launch for each call
that returned, in order and made for its request, and none for a call that threw; the
counter keeps counting them.

## Main Definitions

* `ExecuteRequest.Launched` — a kernel launch made for a request by a rank.

## Main results

* `setupDeviceExecutionPlan_length`, `run_plans_length` — a context holds one device plan per
  threadblock, on both paths of the cache.
* `execute_launches` — one `execute` call.
* `runExecute_launches` — a run of `execute` calls: one launch per call that returned
  (`returnedRequests`), in order, and none per call that threw.
* `context_built_once` — once a call returns, every later call with its key reuses its
  context: it makes no `setup()` round and leaves the communicator and the bootstrap world
  alone.

## Design Notes

A launch that throws (a packet type other than the two `launchKernel` knows) comes after
the context has been built and cached: the executor keeps the cached context, and the
process is left as it was.
-/

namespace Mscclpp

variable {W Bytes : Type} (P : Platform W Bytes)

/-- The serialization holds one device plan per threadblock of the rank. -/
theorem setupDeviceExecutionPlan_length {c c' : ExecutionContext} {rank : Nat}
    {plan : PlanLayout} {ops : Nat → Nat → List Operation}
    (h : setupDeviceExecutionPlan P c rank plan ops = .ok c') :
    c'.deviceExecutionPlans.length = plan.getThreadblockCount rank := by
  unfold setupDeviceExecutionPlan at h
  obtain ⟨plans, hplans, h⟩ := except_bind_eq_ok.1 h
  cases h
  simpa using (mapM_except_forall₂ hplans).length_eq.symm

/-- **Both paths of the cache**: a context `setupExecutionContext` returns, reused or built,
holds one device plan per threadblock of the call's plan for the rank. -/
theorem run_plans_length {rank : Nat} (call : ContextCall) {e e' : Executor W}
    {context : ExecutionContext} (h : call.run P rank e = (.ok context, e')) :
    context.deviceExecutionPlans.length = call.plan.layout.getThreadblockCount rank := by
  cases hl : e.contexts.lookup call.key with
  | some cached =>
    cases hd : setupDeviceExecutionPlan P cached rank call.plan.layout
        (call.plan.lightLoadExecutionPlan call.args) with
    | error f => rw [run_warm_error P hl hd] at h; cases h
    | ok c =>
      rw [run_warm P hl hd] at h
      cases h
      exact (setupDeviceExecutionPlan_length P hd).trans rfl
  | none =>
    cases hb : buildContext P rank call.sendbuff call.recvbuff call.sendBufferSize
        call.recvBufferSize call.plan.layout e with
    | mk r e₁ =>
      cases r with
      | error f => rw [run_cold_build_error P hl hb] at h; cases h
      | ok built =>
        cases hd : setupDeviceExecutionPlan P built rank call.plan.layout
            (call.plan.loadExecutionPlan call.args) with
        | error f => rw [run_cold_error P hl hb hd] at h; cases h
        | ok c =>
          rw [run_cold P hl hb hd] at h
          cases h
          exact (setupDeviceExecutionPlan_length P hd).trans rfl

/-- `l` is a launch made for `r` by rank `rank`: on the request's pointers, data type, stream
and packet type, with one thread block per threadblock of its plan for the rank. -/
def ExecuteRequest.Launched (r : ExecuteRequest) (rank : Nat) (l : KernelLaunch) : Prop :=
  l.rank = rank ∧ l.nthreadblocks = r.plan.layout.getThreadblockCount rank ∧
    l.sendbuff = r.sendbuff ∧ l.recvbuff = r.recvbuff ∧ l.dataType = r.dataType ∧
    l.stream = r.stream ∧ l.packetType = r.packetType

/-- **One `execute` call**: one that returns launches one kernel for its request, with the
next value of the counter; one that throws leaves the process as it was. -/
theorem execute_launches (rank : Nat) (r : ExecuteRequest) (s : Executor W × Process) :
    (∀ u s', execute P rank r.sendbuff r.recvbuff r.sendBuffSize r.recvBuffSize r.dataType r.plan
        r.stream r.packetType s = (.ok u, s') →
      ∃ launch : UInt32 → KernelLaunch, s'.2 = s.2.launch launch ∧
        (∀ f, (launch f).flag = f) ∧ r.Launched rank (launch (s.2.flag + 1))) ∧
    (∀ f s', execute P rank r.sendbuff r.recvbuff r.sendBuffSize r.recvBuffSize r.dataType r.plan
        r.stream r.packetType s = (.error f, s') → s'.2 = s.2) := by
  simp only [execute]
  cases hsend : P.addressRange r.sendbuff with
  | none => exact ⟨fun _ _ h => (by cases h), fun _ _ h => (by cases h; rfl)⟩
  | some sb =>
    cases hrecv : P.addressRange r.recvbuff with
    | none => exact ⟨fun _ _ h => (by cases h), fun _ _ h => (by cases h; rfl)⟩
    | some rb =>
      simp only [ExecM.bind_apply, ExecM.onFst, ExecM.onSnd]
      cases hx : setupExecutionContext P rank sb.1 rb.1
          ⟨r.sendBuffSize, r.recvBuffSize, r.sendbuff - sb.1, r.recvbuff - rb.1⟩ sb.2 rb.2 r.plan
          s.1 with
      | mk x e' =>
        cases x with
        | error f => exact ⟨fun _ _ h => (by cases h), fun _ _ h => (by cases h; rfl)⟩
        | ok context =>
          have hlen := run_plans_length P ⟨sb.1, rb.1,
            ⟨r.sendBuffSize, r.recvBuffSize, r.sendbuff - sb.1, r.recvbuff - rb.1⟩, sb.2, rb.2,
            r.plan⟩ hx
          simp only [launchKernel]
          cases hp : r.packetType with
          | unknown => exact ⟨fun _ _ h => (by cases h), fun _ _ h => (by cases h; rfl)⟩
          | _ =>
            refine ⟨fun _ _ h => ?_, fun _ _ h => by cases h⟩
            cases h
            exact ⟨_, rfl, fun _ => rfl, rfl, hlen, rfl, rfl, rfl, rfl, hp.symm⟩

/-- The requests of a run of `execute` calls whose call returned, in order. -/
def returnedRequests (rank : Nat) : List ExecuteRequest → Executor W × Process → List ExecuteRequest
  | [], _ => []
  | r :: rs, s =>
    let x := execute P rank r.sendbuff r.recvbuff r.sendBuffSize r.recvBuffSize r.dataType r.plan
      r.stream r.packetType s
    match x.1 with
    | .ok _ => r :: returnedRequests rank rs x.2
    | .error _ => returnedRequests rank rs x.2

/-- **A run of `execute` calls** launches exactly one kernel per call that returned and none
per call that threw: the process's launches become its earlier ones followed by one launch
for each returning request, in order, made for that request; and the counter keeps counting
the launches. -/
theorem runExecute_launches (rank : Nat) (requests : List ExecuteRequest)
    (s : Executor W × Process) (hflags : FlagsCount s.2) :
    FlagsCount (runExecute P rank requests s).2 ∧
      ∃ new, (runExecute P rank requests s).2.launches = s.2.launches ++ new ∧
        List.Forall₂ (fun r l => r.Launched rank l) (returnedRequests P rank requests s) new := by
  induction requests generalizing s with
  | nil => exact ⟨hflags, [], by simp [runExecute], .nil⟩
  | cons r rs ih =>
    obtain ⟨hok, herr⟩ := execute_launches P rank r s
    rw [runExecute, returnedRequests]
    cases hx : execute P rank r.sendbuff r.recvbuff r.sendBuffSize r.recvBuffSize r.dataType
        r.plan r.stream r.packetType s with
    | mk x s₁ =>
      cases x with
      | error f =>
        obtain ⟨hflags', new, hnew, hall⟩ := ih s₁ (herr f s₁ hx ▸ hflags)
        exact ⟨hflags', new, by rw [hnew, herr f s₁ hx], hall⟩
      | ok u =>
        obtain ⟨launch, hs₁, hflag, hlaunched⟩ := hok u s₁ hx
        obtain ⟨hflags', new, hnew, hall⟩ := ih s₁ (hs₁ ▸ flagsCount_launch hflags launch hflag)
        refine ⟨hflags', launch (s.2.flag + 1) :: new, ?_, .cons hlaunched hall⟩
        rw [hnew, hs₁]
        simp [Process.launch]

/-- Two calls of the pair plan, one on each packet type. -/
def pairRequests : List ExecuteRequest :=
  [⟨3, 4, 16, 16, 0, pairExecutionPlan, 0, .ll16⟩, ⟨3, 4, 16, 16, 0, pairExecutionPlan, 0, .ll8⟩]

theorem runExecute_launches_pair :
    FlagsCount (runExecute (Platform.quiet 8 8 0) 0 pairRequests (pairExecutor, Process.init)).2 ∧
      ∃ new, (runExecute (Platform.quiet 8 8 0) 0 pairRequests
          (pairExecutor, Process.init)).2.launches = Process.init.launches ++ new ∧
        List.Forall₂ (fun r l => r.Launched 0 l)
          (returnedRequests (Platform.quiet 8 8 0) 0 pairRequests (pairExecutor, Process.init)) new :=
  runExecute_launches (Platform.quiet 8 8 0) 0 pairRequests (pairExecutor, Process.init)
    flagsCount_init

/-! ## A context is built once per key -/

/-- **A context is built once per key.**  In a run of calls by the executor of rank `rank`,
once a call returns a context, every later call with its key — the same buffers, sizes and
plan name — finds that context cached, the same but for its serialized plan and device
buffer: it runs no `setup()` round, touches neither the communicator nor the bootstrap
world, and changes only the serialized plan and device buffer of its own entry, whether it
returns or throws. -/
theorem context_built_once (rank : Nat) {pre mid : List ContextCall} {call call' : ContextCall}
    {e : Executor W} {context : ExecutionContext}
    (hok : (call.run P rank (runCalls P rank pre e)).1 = .ok context)
    (hkey : call'.key = call.key) :
    ∃ cached, cached.withoutPlans = context.withoutPlans ∧
      WarmCall call'.key cached (runCalls P rank (pre ++ call :: mid) e)
        (call'.run P rank (runCalls P rank (pre ++ call :: mid) e)).2 := by
  obtain ⟨cached, hlook, hcached⟩ := runCalls_lookup_of_cached P mid (run_lookup_of_ok P hok)
  refine ⟨cached, hcached, setupExecutionContext_warm P ?_⟩
  rw [hkey, runCalls_append]
  exact hlook

/-- `pairExecutor` with `pairChannels` cached under the key of the calls `pairCall`. -/
def pairWarmExecutor : Executor Unit :=
  { pairExecutor with contexts := [((pairCall 16).key, pairChannels)] }

theorem context_built_once_pairCall : ∃ context,
    ((pairCall 16).run (Platform.quiet 8 8 0) 0
      (runCalls (Platform.quiet 8 8 0) 0 [] pairWarmExecutor)).1 = .ok context ∧
    (pairCall 8).key = (pairCall 16).key ∧
    ∃ cached, cached.withoutPlans = context.withoutPlans ∧
      WarmCall (pairCall 8).key cached
        (runCalls (Platform.quiet 8 8 0) 0 ([] ++ [pairCall 16]) pairWarmExecutor)
        ((pairCall 8).run (Platform.quiet 8 8 0) 0
          (runCalls (Platform.quiet 8 8 0) 0 ([] ++ [pairCall 16]) pairWarmExecutor)).2 :=
  ⟨_, rfl, rfl, context_built_once (Platform.quiet 8 8 0) 0 rfl rfl⟩

end Mscclpp
