import Mscclpp.Executor.Channels
import Mscclpp.Executor.Launch

/-!
# The context cache

`setupExecutionContext` caches the context it builds under the key of its two buffers,
their sizes and the plan's name; a later call with that key only reloads the plan's
operations into the cached context and gives it a new device buffer.  This module proves
that over every run of calls the fast path returns what a cold build returns, and that it
touches nothing but its own entry's serialized plan.

## Main Definitions

* `ContextCall` — the arguments of one `setupExecutionContext` call; `runCalls` — a run of
  calls by one executor.
* `ExecutionContext.started`, `ExecutionContext.withoutPlans` — a built context with its proxy
  started, and a context without its serialized plan and device buffer.
* `ColdEntry`, `CacheCoherent` — a cached context is a cold build's, from some executor
  with an empty cache; every cached context is.
* `WarmCall` — what a call that finds its key may change.
* `ExecuteRequest`, `runExecute` — the arguments of an `execute` call, and a run of them.

## Main results

* `setupDeviceExecutionPlan_ok` — serializing reads only the context's channels and writes
  only its device plans.
* `setupExecutionContext_coherent`, `runCalls_coherent` — one call, then a run, keeps the
  cache coherent.
* `setupExecutionContext_ok_eq_cold` — from a coherent cache, a call that returns, warm or
  cold, returns what the same call returns on an empty cache, but for its device buffer.
* `setupExecutionContext_warm` — a call that finds its key issues no bootstrap exchange and
  changes only the serialized plan and device buffer of its own entry.
* `cached_context_eq_cold` — both, at every call of a run from an empty cache.
* `run_lookup_of_ok`, `run_lookup_of_cached`, `runCalls_lookup_of_cached` — a call that
  returns caches its context, and a cached key stays cached over every run, with the same
  context but for its serialized plan and device buffer.

## Design Notes

A cold build reads the bootstrap world and the communicator, which earlier calls change, so
the cold build a warm result is compared with runs from the executor its key's cold build
ran from, with the cache emptied; `buildContext_commutes` says the cache it ran with did
not matter.  The plans of a run are assumed to keep their structure per name and to reload
the same operations on both paths: the two assumptions of the comparison, as hypotheses.
-/

namespace Mscclpp

variable {W Bytes : Type} (P : Platform W Bytes)

/-! ## Calls and runs -/

/-- The arguments of one `setupExecutionContext` call. -/
structure ContextCall where
  sendbuff : Nat
  recvbuff : Nat
  args : LoadArgs
  sendBufferSize : Nat
  recvBufferSize : Nat
  plan : ExecutionPlan

namespace ContextCall

/-- The `ExecutionContextKey` the call looks up. -/
def key (call : ContextCall) : ExecutionContextKey :=
  ⟨call.sendbuff, call.recvbuff, call.sendBufferSize, call.recvBufferSize, call.plan.name⟩

/-- The call, made by the executor of rank `rank`. -/
def run (rank : Nat) (call : ContextCall) : ExecM (Executor W) ExecutionContext :=
  setupExecutionContext P rank call.sendbuff call.recvbuff call.args call.sendBufferSize
    call.recvBufferSize call.plan

end ContextCall

/-- A run of calls by the executor of rank `rank`: each from the executor the one before
left, whether it returned or threw. -/
def runCalls (rank : Nat) : List ContextCall → Executor W → Executor W
  | [], e => e
  | call :: calls, e => runCalls rank calls (call.run P rank e).2

theorem runCalls_append (rank : Nat) (calls calls' : List ContextCall) (e : Executor W) :
    runCalls P rank (calls ++ calls') e = runCalls P rank calls' (runCalls P rank calls e) := by
  induction calls generalizing e with
  | nil => rfl
  | cons call calls ih => exact ih _

/-! ## Contexts up to their serialized plan -/

namespace ExecutionContext

/-- The context as the cold path caches it: its proxy started. -/
def started (c : ExecutionContext) : ExecutionContext :=
  { c with proxyService := { c.proxyService with running := true } }

/-- The context without its serialized plan and device buffer, the two fields a warm call
replaces. -/
def withoutPlans (c : ExecutionContext) : ExecutionContext :=
  { c with deviceExecutionPlans := [], deviceExecutionPlansBuffer := 0 }

variable (c : ExecutionContext) (plans : List DeviceExecutionPlan) (buffer : Nat)

@[simp] theorem withoutPlans_setPlans :
    { c with deviceExecutionPlans := plans }.withoutPlans = c.withoutPlans := rfl

@[simp] theorem withoutPlans_setBuffer :
    { c with deviceExecutionPlansBuffer := buffer }.withoutPlans = c.withoutPlans := rfl

@[simp] theorem smChannels_withoutPlans : c.withoutPlans.smChannels = c.smChannels := rfl

@[simp] theorem proxyChannels_withoutPlans : c.withoutPlans.proxyChannels = c.proxyChannels := rfl

@[simp] theorem smChannels_started : c.started.smChannels = c.smChannels := rfl

@[simp] theorem proxyChannels_started : c.started.proxyChannels = c.proxyChannels := rfl

/-- Two contexts equal but for their serialized plans and buffers are equal once both are
given the same ones. -/
theorem setPlans_eq_of_withoutPlans_eq {c d : ExecutionContext}
    (h : c.withoutPlans = d.withoutPlans) :
    { c with deviceExecutionPlans := plans, deviceExecutionPlansBuffer := buffer } =
      { d with deviceExecutionPlans := plans, deviceExecutionPlansBuffer := buffer } := by
  cases c; cases d
  simp only [withoutPlans, mk.injEq] at h
  simp only [h]

end ExecutionContext

/-! ## Serializing the plan -/

section Serialize

variable {c d : ExecutionContext} {rank : Nat} {plan : PlanLayout}
  {ops : Nat → Nat → List Operation}

theorem deviceExecutionPlanOf_congr (hsm : c.smChannels = d.smChannels)
    (hpx : c.proxyChannels = d.proxyChannels) :
    deviceExecutionPlanOf P c rank plan = deviceExecutionPlanOf P d rank plan := by
  funext ops threadblock
  simp only [deviceExecutionPlanOf, hsm, hpx]

/-- **Serializing reads only the context's channels and writes only its device plans**: a
context `d` with the channels of `c` is serialized into the same plans. -/
theorem setupDeviceExecutionPlan_ok {c' : ExecutionContext}
    (h : setupDeviceExecutionPlan P c rank plan ops = .ok c')
    (hsm : c.smChannels = d.smChannels) (hpx : c.proxyChannels = d.proxyChannels) :
    c' = { c with deviceExecutionPlans := c'.deviceExecutionPlans } ∧
      setupDeviceExecutionPlan P d rank plan ops =
        .ok { d with deviceExecutionPlans := c'.deviceExecutionPlans } := by
  unfold setupDeviceExecutionPlan at h ⊢
  rw [← deviceExecutionPlanOf_congr P hsm hpx]
  generalize (List.range (plan.getThreadblockCount rank)).mapM (fun threadblock =>
    deviceExecutionPlanOf P c rank plan (ops rank threadblock) threadblock) = r at h ⊢
  cases r with
  | error f => cases h
  | ok plans => cases h; exact ⟨rfl, rfl⟩

end Serialize

/-! ## The cache invariant -/

section Coherence

variable (S : ExecutionPlan → Prop) (rank : Nat)

/-- `context` is **cold for `key`**: a cold build by rank `rank` of a plan of `S` named as
the key, from some executor with an empty cache, returned a context which, its proxy
started, differs from `context` only in its serialized plan and device buffer. -/
def ColdEntry (key : ExecutionContextKey) (context : ExecutionContext) : Prop :=
  ∃ (e₀ : Executor W) (plan : ExecutionPlan) (built : ExecutionContext) (e₁ : Executor W),
    e₀.contexts = [] ∧ S plan ∧ plan.name = key.plan ∧
    buildContext P rank key.sendBuff key.recvBuff key.sendBuffSize key.recvBuffSize plan.layout
      e₀ = (.ok built, e₁) ∧
    context.withoutPlans = built.started.withoutPlans

/-- **The cache invariant**: every context the cache holds is cold for its key. -/
def CacheCoherent (contexts : List (ExecutionContextKey × ExecutionContext)) : Prop :=
  ∀ key context, contexts.lookup key = some context → ColdEntry (W := W) P S rank key context

variable {P S rank}

theorem ColdEntry.of_withoutPlans {key : ExecutionContextKey} {c d : ExecutionContext}
    (h : ColdEntry (W := W) P S rank key c) (hd : d.withoutPlans = c.withoutPlans) :
    ColdEntry (W := W) P S rank key d := by
  obtain ⟨e₀, plan, built, e₁, h₀, hS, hname, hbuild, hc⟩ := h
  exact ⟨e₀, plan, built, e₁, h₀, hS, hname, hbuild, hd.trans hc⟩

theorem cacheCoherent_nil : CacheCoherent (W := W) P S rank [] := fun _ _ h => by cases h

theorem CacheCoherent.cons {contexts : List (ExecutionContextKey × ExecutionContext)}
    (h : CacheCoherent (W := W) P S rank contexts) {key : ExecutionContextKey}
    {context : ExecutionContext} (hkey : ColdEntry (W := W) P S rank key context) :
    CacheCoherent (W := W) P S rank ((key, context) :: contexts) := by
  intro k c hk
  by_cases hne : k = key
  · subst hne
    rw [List.lookup_cons_self] at hk
    cases hk
    exact hkey
  · rw [List.lookup_cons, beq_false_of_ne hne] at hk
    exact h k c hk

end Coherence

/-! ## One call -/

section Call

variable {rank : Nat} {call : ContextCall} {e : Executor W}

/-- The context the cold path caches and returns, with its device buffer. -/
theorem started_setBuffer (c : ExecutionContext) (buffer : Nat) :
    { c with deviceExecutionPlansBuffer := buffer,
             proxyService := { c.proxyService with running := true } } =
      { c.started with deviceExecutionPlansBuffer := buffer } := rfl

/-- **A warm call**: the cached context reserialized with the reloaded operations, cached
twice — before and after it is given a new device buffer. -/
theorem run_warm {cached context : ExecutionContext}
    (h : e.contexts.lookup call.key = some cached)
    (hd : setupDeviceExecutionPlan P cached rank call.plan.layout
      (call.plan.lightLoadExecutionPlan call.args) = .ok context) :
    call.run P rank e = (.ok { context with deviceExecutionPlansBuffer := e.fresh },
      { e with contexts := (call.key, { context with deviceExecutionPlansBuffer := e.fresh }) ::
          (call.key, context) :: e.contexts, fresh := e.fresh + 1 }) := by
  simp only [ContextCall.key] at h
  simp [ContextCall.run, setupExecutionContext, h, hd, ContextCall.key]

/-- A warm call whose serialization throws leaves the executor as it was. -/
theorem run_warm_error {cached : ExecutionContext} {f : Failure}
    (h : e.contexts.lookup call.key = some cached)
    (hd : setupDeviceExecutionPlan P cached rank call.plan.layout
      (call.plan.lightLoadExecutionPlan call.args) = .error f) :
    call.run P rank e = (.error f, e) := by
  simp only [ContextCall.key] at h
  simp [ContextCall.run, setupExecutionContext, h, hd]

/-- **A cold call** that builds `built`: its serialization of the operations of
`loadExecutionPlan`, given a device buffer and a started proxy, cached. -/
theorem run_cold {built context : ExecutionContext} {e₁ : Executor W}
    (h : e.contexts.lookup call.key = none)
    (hb : buildContext P rank call.sendbuff call.recvbuff call.sendBufferSize call.recvBufferSize
      call.plan.layout e = (.ok built, e₁))
    (hd : setupDeviceExecutionPlan P built rank call.plan.layout
      (call.plan.loadExecutionPlan call.args) = .ok context) :
    call.run P rank e = (.ok { context.started with deviceExecutionPlansBuffer := e₁.fresh },
      { e₁ with contexts := (call.key, { context.started with deviceExecutionPlansBuffer := e₁.fresh }) ::
          e₁.contexts, fresh := e₁.fresh + 1 }) := by
  simp only [ContextCall.key] at h
  simp [ContextCall.run, setupExecutionContext, h, hb, hd, ContextCall.key,
    ExecutionContext.started]

/-- A cold call whose build returns and whose serialization throws. -/
theorem run_cold_error {built : ExecutionContext} {e₁ : Executor W} {f : Failure}
    (h : e.contexts.lookup call.key = none)
    (hb : buildContext P rank call.sendbuff call.recvbuff call.sendBufferSize call.recvBufferSize
      call.plan.layout e = (.ok built, e₁))
    (hd : setupDeviceExecutionPlan P built rank call.plan.layout
      (call.plan.loadExecutionPlan call.args) = .error f) :
    call.run P rank e = (.error f, e₁) := by
  simp only [ContextCall.key] at h
  simp [ContextCall.run, setupExecutionContext, h, hb, hd]

/-- A cold call whose build throws. -/
theorem run_cold_build_error {e₁ : Executor W} {f : Failure}
    (h : e.contexts.lookup call.key = none)
    (hb : buildContext P rank call.sendbuff call.recvbuff call.sendBufferSize call.recvBufferSize
      call.plan.layout e = (.error f, e₁)) :
    call.run P rank e = (.error f, e₁) := by
  simp only [ContextCall.key] at h
  simp [ContextCall.run, setupExecutionContext, h, hb]

end Call

/-! ## The cache stays coherent -/

section Runs

variable {S : ExecutionPlan → Prop} {rank : Nat}

/-- **Step lemma**: a call with a plan of `S` keeps the cache coherent, whether it finds its
key or not, returns or throws. -/
theorem setupExecutionContext_coherent {call : ContextCall} {e : Executor W}
    (hcoh : CacheCoherent P S rank e.contexts) (hS : S call.plan) :
    CacheCoherent P S rank (call.run P rank e).2.contexts := by
  cases hlook : e.contexts.lookup call.key with
  | some cached =>
    cases hd : setupDeviceExecutionPlan P cached rank call.plan.layout
        (call.plan.lightLoadExecutionPlan call.args) with
    | error f => rw [run_warm_error P hlook hd]; exact hcoh
    | ok context =>
      rw [run_warm P hlook hd]
      have hentry : ColdEntry P S rank call.key context :=
        (hcoh _ _ hlook).of_withoutPlans (by rw [(setupDeviceExecutionPlan_ok P hd rfl rfl).1]; rfl)
      exact (hcoh.cons hentry).cons (hentry.of_withoutPlans rfl)
  | none =>
    have hctx := buildContext_contexts P call.sendbuff call.recvbuff call.sendBufferSize
      call.recvBufferSize rank call.plan.layout e
    rcases hb : buildContext P rank call.sendbuff call.recvbuff call.sendBufferSize
      call.recvBufferSize call.plan.layout e with ⟨_ | built, e₁⟩ <;> simp only [hb] at hctx
    · rw [run_cold_build_error P hlook hb]; exact hctx ▸ hcoh
    cases hd : setupDeviceExecutionPlan P built rank call.plan.layout
        (call.plan.loadExecutionPlan call.args) with
    | error f => rw [run_cold_error P hlook hb hd]; exact hctx ▸ hcoh
    | ok context =>
      rw [run_cold P hlook hb hd]
      refine (hctx ▸ hcoh).cons
        ⟨e.setContexts [], call.plan, built, e₁.setContexts [], rfl, hS, rfl, ?_, ?_⟩
      · have h := buildContext_commutes P [] call.sendbuff call.recvbuff call.sendBufferSize
          call.recvBufferSize rank call.plan.layout e
        rwa [hb] at h
      · rw [(setupDeviceExecutionPlan_ok P hd rfl rfl).1]; rfl

/-- **Run lemma**: a run of calls with plans of `S` keeps the cache coherent. -/
theorem runCalls_coherent {calls : List ContextCall} {e : Executor W}
    (hcoh : CacheCoherent P S rank e.contexts) (hS : ∀ call ∈ calls, S call.plan) :
    CacheCoherent P S rank (runCalls P rank calls e).contexts := by
  induction calls generalizing e with
  | nil => exact hcoh
  | cons call calls ih =>
    exact ih (setupExecutionContext_coherent P hcoh (hS call (List.mem_cons_self _ _)))
      fun c hc => hS c (List.mem_cons_of_mem _ hc)

end Runs

/-! ## A warm call returns what a cold one does -/

section WarmCold

variable {S : ExecutionPlan → Prop} {rank : Nat} {call : ContextCall}

/-- A cold call returns the same from any cache without its key: the cache only chooses
the branch. -/
theorem run_setContexts_of_none {e : Executor W} (h : e.contexts.lookup call.key = none) :
    (call.run P rank (e.setContexts [])).1 = (call.run P rank e).1 := by
  have hcomm := buildContext_commutes P [] call.sendbuff call.recvbuff call.sendBufferSize
    call.recvBufferSize rank call.plan.layout e
  have h₀ : (e.setContexts []).contexts.lookup call.key = none := rfl
  rcases hb : buildContext P rank call.sendbuff call.recvbuff call.sendBufferSize
    call.recvBufferSize call.plan.layout e with ⟨_ | built, e₁⟩ <;> rw [hb] at hcomm
  · rw [run_cold_build_error P h hb, run_cold_build_error P h₀ hcomm]
  cases hd : setupDeviceExecutionPlan P built rank call.plan.layout
      (call.plan.loadExecutionPlan call.args) with
  | error f => rw [run_cold_error P h hb hd, run_cold_error P h₀ hcomm hd]
  | ok context => rw [run_cold P h hb hd, run_cold P h₀ hcomm hd]; rfl

/-- **A call returns what it returns on an empty cache, but for its device buffer.**  From
a coherent cache, when the plans of `S` keep their layout per name and reload the same
operations on both paths, a call with a plan of `S` that returns — warm or cold — returns
the context the same call returns, cold, from an executor with an empty cache, given a
different device buffer. -/
theorem setupExecutionContext_ok_eq_cold
    (hshape : ∀ p q, S p → S q → p.name = q.name → p.layout = q.layout)
    (hlight : ∀ p, S p → p.lightLoadExecutionPlan = p.loadExecutionPlan)
    {e e' : Executor W} {context : ExecutionContext}
    (hcoh : CacheCoherent P S rank e.contexts) (hS : S call.plan)
    (h : call.run P rank e = (.ok context, e')) :
    ∃ (e₀ : Executor W) (context₀ : ExecutionContext) (e₀' : Executor W), e₀.contexts = [] ∧
      call.run P rank e₀ = (.ok context₀, e₀') ∧
      context = { context₀ with deviceExecutionPlansBuffer := context.deviceExecutionPlansBuffer } := by
  cases hlook : e.contexts.lookup call.key with
  | none =>
    have hcold : (call.run P rank (e.setContexts [])).1 = (call.run P rank e).1 :=
      run_setContexts_of_none P hlook
    rw [h] at hcold
    exact ⟨e.setContexts [], context, (call.run P rank (e.setContexts [])).2, rfl,
      Prod.ext hcold rfl, rfl⟩
  | some cached =>
    obtain ⟨e₀, plan, built, e₁, h₀, hSp, hname, hbuild, hwp⟩ := hcoh _ _ hlook
    cases hd : setupDeviceExecutionPlan P cached rank call.plan.layout
        (call.plan.lightLoadExecutionPlan call.args) with
    | error f => rw [run_warm_error P hlook hd] at h; cases h
    | ok warm =>
      rw [run_warm P hlook hd, Prod.mk.injEq, Except.ok.injEq] at h
      obtain ⟨rfl, -⟩ := h
      have hlayout : call.plan.layout = plan.layout := hshape _ _ hS hSp hname.symm
      have hnone : e₀.contexts.lookup call.key = none := by rw [h₀]; rfl
      have hb : buildContext P rank call.sendbuff call.recvbuff call.sendBufferSize
          call.recvBufferSize call.plan.layout e₀ = (.ok built, e₁) := hlayout ▸ hbuild
      have hsm : cached.smChannels = built.smChannels := by
        simpa using congrArg ExecutionContext.smChannels hwp
      have hpx : cached.proxyChannels = built.proxyChannels := by
        simpa using congrArg ExecutionContext.proxyChannels hwp
      have hd₀ := (setupDeviceExecutionPlan_ok P hd hsm hpx).2
      rw [hlight _ hS] at hd₀
      refine ⟨e₀, _, _, h₀, run_cold P hnone hb hd₀, ?_⟩
      rw [(setupDeviceExecutionPlan_ok P hd rfl rfl).1]
      exact ExecutionContext.setPlans_eq_of_withoutPlans_eq _ _ hwp

end WarmCold

/-! ## What a warm call changes -/

/-- What a call that finds `key` cached as `cached` may change, from `e` to `e'`: the cache
and the allocator, nothing else — no communicator, bootstrap world, promise or setup call —
no other entry, and of its own entry only the serialized plan and the device buffer. -/
def WarmCall (key : ExecutionContextKey) (cached : ExecutionContext) (e e' : Executor W) : Prop :=
  ∃ contexts fresh, e' = { e with contexts := contexts, fresh := fresh } ∧
    (∀ k, k ≠ key → contexts.lookup k = e.contexts.lookup k) ∧
    ∃ plans buffer, contexts.lookup key =
      some { cached with deviceExecutionPlans := plans, deviceExecutionPlansBuffer := buffer }

/-- **A warm call** issues no bootstrap exchange and changes only the serialized plan and
the device buffer of its own entry, whether it returns or throws. -/
theorem setupExecutionContext_warm {rank : Nat} {call : ContextCall} {e : Executor W}
    {cached : ExecutionContext} (h : e.contexts.lookup call.key = some cached) :
    WarmCall call.key cached e (call.run P rank e).2 := by
  cases hd : setupDeviceExecutionPlan P cached rank call.plan.layout
      (call.plan.lightLoadExecutionPlan call.args) with
  | error f =>
    rw [run_warm_error P h hd]
    exact ⟨e.contexts, e.fresh, rfl, fun _ _ => rfl, _, _, h⟩
  | ok warm =>
    rw [run_warm P h hd]
    refine ⟨_, _, rfl, fun k hk => by simp [List.lookup_cons, beq_false_of_ne hk],
      warm.deviceExecutionPlans, e.fresh, ?_⟩
    rw [List.lookup_cons_self, (setupDeviceExecutionPlan_ok P hd rfl rfl).1]

/-! ## Runs from an empty cache -/

/-- **The cached fast path agrees with the cold build over every run.**  In a run of calls by
the executor of rank `rank` from an empty cache, whose plans keep their layout per name and
reload the same operations on both paths, at every call: if it returns, it returns the
context the same call returns, cold, from an executor with an empty cache, but for the
device buffer; and if it finds its key, it issues no bootstrap exchange and changes only the
serialized plan and device buffer of its own entry. -/
theorem cached_context_eq_cold (rank : Nat) {calls pre post : List ContextCall}
    {call : ContextCall} {e : Executor W} (hempty : e.contexts = [])
    (hshape : ∀ c ∈ calls, ∀ d ∈ calls, c.plan.name = d.plan.name → c.plan.layout = d.plan.layout)
    (hlight : ∀ c ∈ calls, c.plan.lightLoadExecutionPlan = c.plan.loadExecutionPlan)
    (hsplit : calls = pre ++ call :: post) :
    (∀ context e', call.run P rank (runCalls P rank pre e) = (.ok context, e') →
      ∃ (e₀ : Executor W) (context₀ : ExecutionContext) (e₀' : Executor W), e₀.contexts = [] ∧
        call.run P rank e₀ = (.ok context₀, e₀') ∧
        context = { context₀ with deviceExecutionPlansBuffer := context.deviceExecutionPlansBuffer }) ∧
    ∀ cached, (runCalls P rank pre e).contexts.lookup call.key = some cached →
      WarmCall call.key cached (runCalls P rank pre e) (call.run P rank (runCalls P rank pre e)).2 := by
  let S : ExecutionPlan → Prop := fun p => ∃ c ∈ calls, c.plan = p
  have hS : ∀ c ∈ calls, S c.plan := fun c hc => ⟨c, hc, rfl⟩
  have hcoh : CacheCoherent P S rank (runCalls P rank pre e).contexts :=
    runCalls_coherent P (hempty ▸ cacheCoherent_nil)
      fun c hc => hS c (hsplit ▸ List.mem_append_left _ hc)
  refine ⟨fun context e' h => setupExecutionContext_ok_eq_cold P ?_ ?_ hcoh
    (hS call (hsplit ▸ List.mem_append_right _ (List.mem_cons_self _ _))) h,
    fun cached h => setupExecutionContext_warm P h⟩
  · rintro _ _ ⟨c, hc, rfl⟩ ⟨d, hd, rfl⟩
    exact hshape c hc d hd
  · rintro _ ⟨c, hc, rfl⟩
    exact hlight c hc

/-- A plan named `"pair"` over `pairPlan`, whose one operation per threadblock records the
input message size, on both reload paths. -/
def pairExecutionPlan : ExecutionPlan :=
  ⟨"pair", pairPlan, fun args _ _ => [⟨args.inputMessageSize⟩],
    fun args _ _ => [⟨args.inputMessageSize⟩]⟩

/-- A call on fixed buffers with messages of `size` bytes: all such calls share one key. -/
def pairCall (size : Nat) : ContextCall :=
  ⟨3, 4, ⟨size, size, 0, 0⟩, 16, 16, pairExecutionPlan⟩

theorem cached_context_eq_cold_pairCall :
    pairExecutor.contexts = [] ∧
    (∀ c ∈ [pairCall 16, pairCall 8], ∀ d ∈ [pairCall 16, pairCall 8],
      c.plan.name = d.plan.name → c.plan.layout = d.plan.layout) ∧
    (∀ c ∈ [pairCall 16, pairCall 8], c.plan.lightLoadExecutionPlan = c.plan.loadExecutionPlan) ∧
    [pairCall 16, pairCall 8] = [pairCall 16] ++ pairCall 8 :: [] ∧
    ((∀ context e', (pairCall 8).run (Platform.quiet 8 8 0) 0
        (runCalls (Platform.quiet 8 8 0) 0 [pairCall 16] pairExecutor) = (.ok context, e') →
      ∃ (e₀ : Executor Unit) (context₀ : ExecutionContext) (e₀' : Executor Unit), e₀.contexts = [] ∧
        (pairCall 8).run (Platform.quiet 8 8 0) 0 e₀ = (.ok context₀, e₀') ∧
        context = { context₀ with deviceExecutionPlansBuffer := context.deviceExecutionPlansBuffer }) ∧
    ∀ cached, (runCalls (Platform.quiet 8 8 0) 0 [pairCall 16] pairExecutor).contexts.lookup
        (pairCall 8).key = some cached →
      WarmCall (pairCall 8).key cached (runCalls (Platform.quiet 8 8 0) 0 [pairCall 16] pairExecutor)
        ((pairCall 8).run (Platform.quiet 8 8 0) 0
          (runCalls (Platform.quiet 8 8 0) 0 [pairCall 16] pairExecutor)).2) := by
  have hplan : ∀ c ∈ [pairCall 16, pairCall 8], c.plan = pairExecutionPlan := by simp [pairCall]
  have hshape : ∀ c ∈ [pairCall 16, pairCall 8], ∀ d ∈ [pairCall 16, pairCall 8],
      c.plan.name = d.plan.name → c.plan.layout = d.plan.layout := fun c hc d hd _ => by
    rw [hplan c hc, hplan d hd]
  have hlight : ∀ c ∈ [pairCall 16, pairCall 8],
      c.plan.lightLoadExecutionPlan = c.plan.loadExecutionPlan := fun c hc => by
    rw [hplan c hc]; rfl
  exact ⟨rfl, hshape, hlight, rfl,
    cached_context_eq_cold (Platform.quiet 8 8 0) 0 rfl hshape hlight rfl⟩

/-! ## A cached key stays cached -/

section BuiltOnce

variable {rank : Nat} {call : ContextCall} {e : Executor W}

/-- **A call leaves every other key's entry as it was**, warm or cold, returning or
throwing: a cold build does not touch the cache, and both paths cache under the call's key
only. -/
theorem run_lookup_of_ne {k : ExecutionContextKey} (hk : k ≠ call.key) :
    (call.run P rank e).2.contexts.lookup k = e.contexts.lookup k := by
  cases hlook : e.contexts.lookup call.key with
  | some cached =>
    obtain ⟨contexts, fresh, he', hother, -⟩ : WarmCall call.key cached e (call.run P rank e).2 :=
      setupExecutionContext_warm P hlook
    rw [he']
    exact hother k hk
  | none =>
    have hctx := buildContext_contexts P call.sendbuff call.recvbuff call.sendBufferSize
      call.recvBufferSize rank call.plan.layout e
    rcases hb : buildContext P rank call.sendbuff call.recvbuff call.sendBufferSize
      call.recvBufferSize call.plan.layout e with ⟨_ | built, e₁⟩ <;> simp only [hb] at hctx
    · rw [run_cold_build_error P hlook hb, hctx]
    cases hd : setupDeviceExecutionPlan P built rank call.plan.layout
        (call.plan.loadExecutionPlan call.args) with
    | error f => rw [run_cold_error P hlook hb hd, hctx]
    | ok context =>
      rw [run_cold P hlook hb hd]
      simp [List.lookup_cons, beq_false_of_ne hk, hctx]

/-- **A returning call caches what it returns** under its key. -/
theorem run_lookup_of_ok {context : ExecutionContext} (h : (call.run P rank e).1 = .ok context) :
    (call.run P rank e).2.contexts.lookup call.key = some context := by
  cases hlook : e.contexts.lookup call.key with
  | some cached =>
    cases hd : setupDeviceExecutionPlan P cached rank call.plan.layout
        (call.plan.lightLoadExecutionPlan call.args) with
    | error f => rw [run_warm_error P hlook hd] at h; cases h
    | ok warm =>
      rw [run_warm P hlook hd] at h ⊢
      cases h
      exact List.lookup_cons_self
  | none =>
    rcases hb : buildContext P rank call.sendbuff call.recvbuff call.sendBufferSize
      call.recvBufferSize call.plan.layout e with ⟨_ | built, e₁⟩
    · rw [run_cold_build_error P hlook hb] at h; cases h
    cases hd : setupDeviceExecutionPlan P built rank call.plan.layout
        (call.plan.loadExecutionPlan call.args) with
    | error f => rw [run_cold_error P hlook hb hd] at h; cases h
    | ok built' =>
      rw [run_cold P hlook hb hd] at h ⊢
      cases h
      exact List.lookup_cons_self

/-- **Step lemma**: a cached key stays cached, with the same context but for its serialized
plan and device buffer. -/
theorem run_lookup_of_cached {k : ExecutionContextKey} {c : ExecutionContext}
    (h : e.contexts.lookup k = some c) :
    ∃ c', (call.run P rank e).2.contexts.lookup k = some c' ∧ c'.withoutPlans = c.withoutPlans := by
  by_cases hk : k = call.key
  · subst hk
    obtain ⟨contexts, fresh, he', -, plans, buffer, hkey⟩ : WarmCall call.key c e (call.run P rank e).2 :=
      setupExecutionContext_warm P h
    rw [he']
    exact ⟨_, hkey, rfl⟩
  · exact ⟨c, (run_lookup_of_ne P hk).trans h, rfl⟩

/-- **Run lemma**: over every run of calls, a cached key stays cached, with the same context
but for its serialized plan and device buffer. -/
theorem runCalls_lookup_of_cached (calls : List ContextCall) {k : ExecutionContextKey}
    {c : ExecutionContext} (h : e.contexts.lookup k = some c) :
    ∃ c', (runCalls P rank calls e).contexts.lookup k = some c' ∧
      c'.withoutPlans = c.withoutPlans := by
  induction calls generalizing e c with
  | nil => exact ⟨c, h, rfl⟩
  | cons call calls ih =>
    obtain ⟨c₁, h₁, hc₁⟩ := @run_lookup_of_cached W Bytes P rank call e k c h
    obtain ⟨c', h', hc'⟩ := ih h₁
    exact ⟨c', h', hc'.trans hc₁⟩

end BuiltOnce

/-! ## Runs of `execute` -/

/-- The arguments of one `Executor::execute` call. -/
structure ExecuteRequest where
  sendbuff : Nat
  recvbuff : Nat
  sendBuffSize : Nat
  recvBuffSize : Nat
  dataType : Nat
  plan : ExecutionPlan
  stream : Nat
  packetType : PacketType

/-- A run of `execute` calls by the executor of rank `rank`, in one process. -/
def runExecute (rank : Nat) : List ExecuteRequest → Executor W × Process → Executor W × Process
  | [], s => s
  | r :: rs, s => runExecute rank rs
      (execute P rank r.sendbuff r.recvbuff r.sendBuffSize r.recvBuffSize r.dataType r.plan r.stream
        r.packetType s).2

end Mscclpp
