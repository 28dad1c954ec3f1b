import Mscclpp.Executor.Setup
import Mathlib.Order.Defs.Unbundled

/-!
# What a context build leaves alone

Two frame conditions on the executor's computations.  Each is closed under the monad's
operations and the list loops, is proved once for every call the executor makes, and then
follows for every function of a context build by composition.

## Main Definitions

* `ExecM.Keeps R x` — the state `x` leaves, returned or thrown, is `R`-related to the state
  it started from.
* `Executor.Frame` — the relation "same node width, rank count and communicator rank".
* `ExecM.Commutes f x` — `x` neither reads nor writes what `f` changes: running it after
  `f` is running it before, then `f`.

## Main results

* `buildContext_frame` — a cold build, returned or thrown, keeps `Executor.Frame`.
* `buildContext_commutes` — a cold build never looks at the cache: it computes the same
  from any cache, and leaves the cache as it found it (`buildContext_contexts`).

## Design Notes

`get` is the one operation that can read the whole state.  `Commutes.get_bind` asks of its
continuation only that it compute the same after `f`; for every `get` of the executor's
code that holds by `rfl`, since each reads `nranksPerNode`, `nranks` or `comm`, never
`contexts`.
-/

namespace Mscclpp

namespace ExecM

variable {σ α β : Type}

/-! ## Keeping a relation -/

/-- `x` leaves a state `R`-related to the one it started from, whether it returns or
throws. -/
def Keeps (R : σ → σ → Prop) (x : ExecM σ α) : Prop :=
  ∀ s, R s (x s).2

section Keeps

variable {R : σ → σ → Prop} [IsPreorder σ R]

theorem keeps_pure (a : α) : Keeps R (pure a : ExecM σ α) :=
  fun s => refl_of R s

theorem keeps_get : Keeps R (get : ExecM σ σ) :=
  fun s => refl_of R s

theorem keeps_ofExcept (x : Except Failure α) : Keeps R (ofExcept x : ExecM σ α) :=
  fun s => refl_of R s

theorem Keeps.bind {x : ExecM σ α} {f : α → ExecM σ β} (hx : Keeps R x)
    (hf : ∀ a, Keeps R (f a)) : Keeps R (x >>= f) := by
  intro s
  have h := hx s
  rw [bind_apply]
  revert h
  obtain ⟨r, s'⟩ := x s
  cases r with
  | error e => exact id
  | ok a => exact fun h => trans_of R h (hf a s')

theorem Keeps.foldlM {f : β → α → ExecM σ β} (hf : ∀ b a, Keeps R (f b a)) (l : List α)
    (b : β) : Keeps R (l.foldlM f b) := by
  induction l generalizing b with
  | nil => exact keeps_pure b
  | cons a l ih => rw [List.foldlM_cons]; exact (hf b a).bind ih

theorem Keeps.mapM {f : α → ExecM σ β} (hf : ∀ a, Keeps R (f a)) (l : List α) :
    Keeps R (l.mapM f) := by
  induction l with
  | nil => exact keeps_pure []
  | cons a l ih => rw [List.mapM_cons]; exact (hf a).bind fun _ => ih.bind fun _ => keeps_pure _

theorem Keeps.forM {f : α → ExecM σ PUnit} (hf : ∀ a, Keeps R (f a)) (l : List α) :
    Keeps R (l.forM f) := by
  induction l with
  | nil => exact keeps_pure _
  | cons a l ih => exact (hf a).bind fun _ => ih

end Keeps

/-! ## Commuting with an update -/

/-- `x` neither reads nor writes what `f` changes. -/
def Commutes (f : σ → σ) (x : ExecM σ α) : Prop :=
  ∀ s, x (f s) = ((x s).1, f (x s).2)

section Commutes

variable {f : σ → σ}

theorem commutes_pure (a : α) : Commutes f (pure a : ExecM σ α) :=
  fun _ => rfl

theorem commutes_ofExcept (x : Except Failure α) : Commutes f (ofExcept x : ExecM σ α) :=
  fun _ => rfl

theorem Commutes.bind {x : ExecM σ α} {g : α → ExecM σ β} (hx : Commutes f x)
    (hg : ∀ a, Commutes f (g a)) : Commutes f (x >>= g) := by
  intro s
  rw [bind_apply, bind_apply, hx s]
  obtain ⟨r, s'⟩ := x s
  cases r with
  | error e => rfl
  | ok a => exact hg a s'

/-- A `get` whose continuation computes the same after `f`. -/
theorem Commutes.get_bind {g : σ → ExecM σ β} (hg : ∀ s, g (f s) = g s)
    (hg' : ∀ s, Commutes f (g s)) : Commutes f (get >>= g) := by
  intro s
  simp only [bind_apply, get_apply]
  rw [hg s]
  exact hg' s s

theorem Commutes.foldlM {g : β → α → ExecM σ β} (hg : ∀ b a, Commutes f (g b a))
    (l : List α) (b : β) : Commutes f (l.foldlM g b) := by
  induction l generalizing b with
  | nil => exact commutes_pure b
  | cons a l ih => rw [List.foldlM_cons]; exact (hg b a).bind ih

theorem Commutes.mapM {g : α → ExecM σ β} (hg : ∀ a, Commutes f (g a)) (l : List α) :
    Commutes f (l.mapM g) := by
  induction l with
  | nil => exact commutes_pure []
  | cons a l ih =>
    rw [List.mapM_cons]; exact (hg a).bind fun _ => ih.bind fun _ => commutes_pure _

theorem Commutes.forM {g : α → ExecM σ PUnit} (hg : ∀ a, Commutes f (g a)) (l : List α) :
    Commutes f (l.forM g) := by
  induction l with
  | nil => exact commutes_pure _
  | cons a l ih => exact (hg a).bind fun _ => ih

end Commutes

end ExecM

open ExecM

variable {W Bytes : Type}

/-! ## The frame of a context build -/

namespace Executor

/-- What no call of a context build changes: the node width and rank count the bootstrap
reported, and the communicator's rank. -/
structure Frame (e e' : Executor W) : Prop where
  nranksPerNode_eq : e'.nranksPerNode = e.nranksPerNode
  nranks_eq : e'.nranks = e.nranks
  rank_eq : e'.comm.rank = e.comm.rank

instance : IsPreorder (Executor W) Frame where
  refl _ := ⟨rfl, rfl, rfl⟩
  trans _ _ _ h₁ h₂ :=
    ⟨h₂.1.trans h₁.1, h₂.2.trans h₁.2, h₂.3.trans h₁.3⟩

/-- The cache replaced by `contexts`. -/
def setContexts (contexts : List (ExecutionContextKey × ExecutionContext)) (e : Executor W) :
    Executor W :=
  { e with contexts := contexts }

@[simp] theorem contexts_setContexts (cs : List (ExecutionContextKey × ExecutionContext))
    (e : Executor W) : (setContexts cs e).contexts = cs := rfl

@[simp] theorem setContexts_self (e : Executor W) : setContexts e.contexts e = e := rfl

variable (P : Platform W Bytes) (cs : List (ExecutionContextKey × ExecutionContext))

theorem allocate_frame : Keeps Frame (allocate : ExecM (Executor W) Nat) :=
  fun _ => ⟨rfl, rfl, rfl⟩

theorem allocate_commutes : Commutes (setContexts cs) (allocate : ExecM (Executor W) Nat) :=
  fun _ => rfl

theorem connectOnSetup_frame (remoteRank : Nat) (tag : Int) (transport : Transport) :
    Keeps Frame (connectOnSetup remoteRank tag transport : ExecM (Executor W) Connection) := by
  intro e
  simp only [connectOnSetup]
  split
  · rename_i h
    exact ⟨rfl, rfl, (Communicator.connectOnSetup_ok h).2.2.2.1⟩
  · exact refl_of Frame e

theorem connectOnSetup_commutes (remoteRank : Nat) (tag : Int) (transport : Transport) :
    Commutes (setContexts cs)
      (connectOnSetup remoteRank tag transport : ExecM (Executor W) Connection) := by
  intro e
  simp only [connectOnSetup, setContexts]
  split <;> rfl

theorem sendMemoryOnSetup_frame (memory : RegisteredMemory) (remoteRank : Nat) (tag : Int) :
    Keeps Frame (sendMemoryOnSetup memory remoteRank tag : ExecM (Executor W) Unit) :=
  fun _ => ⟨rfl, rfl, rfl⟩

theorem sendMemoryOnSetup_commutes (memory : RegisteredMemory) (remoteRank : Nat) (tag : Int) :
    Commutes (setContexts cs) (sendMemoryOnSetup memory remoteRank tag : ExecM (Executor W) Unit) :=
  fun _ => rfl

theorem recvMemoryOnSetup_frame (remoteRank : Nat) (tag : Int) :
    Keeps Frame (recvMemoryOnSetup remoteRank tag : ExecM (Executor W) Nat) :=
  fun _ => ⟨rfl, rfl, rfl⟩

theorem recvMemoryOnSetup_commutes (remoteRank : Nat) (tag : Int) :
    Commutes (setContexts cs) (recvMemoryOnSetup remoteRank tag : ExecM (Executor W) Nat) :=
  fun _ => rfl

theorem buildSemaphore_frame (kind : ChannelType) (conn : Connection) :
    Keeps Frame (buildSemaphore kind conn : ExecM (Executor W) Semaphore) :=
  fun _ => ⟨rfl, rfl, rfl⟩

theorem buildSemaphore_commutes (kind : ChannelType) (conn : Connection) :
    Commutes (setContexts cs) (buildSemaphore kind conn : ExecM (Executor W) Semaphore) :=
  fun _ => rfl

theorem setup_frame : Keeps Frame (setup P) := by
  intro e
  have hrank : (e.comm.setup P.runHook (e.world, e.promises)).comm.rank = e.comm.rank := by
    simp only [Communicator.setup]
    split
    · rfl
    · split <;> rfl
  simp only [setup]
  split <;> exact ⟨rfl, rfl, hrank⟩

theorem setup_commutes : Commutes (setContexts cs) (setup P) := by
  intro e
  simp only [setup, setContexts]
  split <;> rfl

theorem getFuture_frame (id : Nat) : Keeps Frame (getFuture id : ExecM (Executor W) _) := by
  intro e
  simp only [getFuture]
  split <;> exact refl_of Frame e

theorem getFuture_commutes (id : Nat) :
    Commutes (setContexts cs) (getFuture id : ExecM (Executor W) _) := by
  intro e
  simp only [getFuture, setContexts]
  split <;> rfl

end Executor

open Executor

/-! ## The three rounds -/

section Rounds

variable (P : Platform W Bytes) (cs : List (ExecutionContextKey × ExecutionContext))
  (sendbuff recvbuff sendBufferSize recvBufferSize rank : Nat) (plan : PlanLayout)

theorem connectPeer_frame (nranksPerNode peer : Nat) :
    Keeps Frame (connectPeer nranksPerNode rank peer : ExecM (Executor W) Connection) :=
  (keeps_ofExcept _).bind fun _ => connectOnSetup_frame _ _ _

theorem connectPeer_commutes (nranksPerNode peer : Nat) :
    Commutes (setContexts cs) (connectPeer nranksPerNode rank peer : ExecM (Executor W) Connection) :=
  (commutes_ofExcept _).bind fun _ => connectOnSetup_commutes cs _ _ _

theorem setupConnections_frame (context : ExecutionContext) :
    Keeps Frame (setupConnections P context rank plan) :=
  keeps_get.bind fun e => (Keeps.mapM (connectPeer_frame rank e.nranksPerNode) _).bind
    fun _ => (setup_frame P).bind fun _ => keeps_pure _

theorem setupConnections_commutes (context : ExecutionContext) :
    Commutes (setContexts cs) (setupConnections P context rank plan) :=
  Commutes.get_bind (fun _ => rfl) fun e =>
    (Commutes.mapM (connectPeer_commutes cs rank e.nranksPerNode) _).bind
      fun _ => (setup_commutes P cs).bind fun _ => commutes_pure _

theorem exchangeRegisteredMemory_frame (context : ExecutionContext) (bufferType : BufferType) :
    Keeps Frame (exchangeRegisteredMemory P sendbuff recvbuff sendBufferSize recvBufferSize rank
      plan context bufferType) :=
  keeps_get.bind fun _ => (keeps_ofExcept _).bind fun _ => (keeps_ofExcept _).bind fun _ =>
    (Keeps.forM (fun _ => sendMemoryOnSetup_frame _ _ _) _).bind fun _ =>
      (Keeps.mapM (fun _ => recvMemoryOnSetup_frame _ _) _).bind fun _ =>
        (setup_frame P).bind fun _ =>
          Keeps.foldlM (fun _ _ => (getFuture_frame _).bind fun _ => keeps_pure _) _ _

theorem exchangeRegisteredMemory_commutes (context : ExecutionContext) (bufferType : BufferType) :
    Commutes (setContexts cs) (exchangeRegisteredMemory P sendbuff recvbuff sendBufferSize
      recvBufferSize rank plan context bufferType) :=
  Commutes.get_bind (fun _ => rfl) fun _ => (commutes_ofExcept _).bind fun _ =>
    (commutes_ofExcept _).bind fun _ =>
      (Commutes.forM (fun _ => sendMemoryOnSetup_commutes cs _ _ _) _).bind fun _ =>
        (Commutes.mapM (fun _ => recvMemoryOnSetup_commutes cs _ _) _).bind fun _ =>
          (setup_commutes P cs).bind fun _ =>
            Commutes.foldlM (fun _ _ => (getFuture_commutes cs _).bind fun _ => commutes_pure _) _ _

theorem setupRegisteredMemories_frame (context : ExecutionContext) :
    Keeps Frame (setupRegisteredMemories P context sendbuff recvbuff sendBufferSize
      recvBufferSize rank plan) :=
  Keeps.foldlM (exchangeRegisteredMemory_frame P sendbuff recvbuff sendBufferSize
    recvBufferSize rank plan) _ _

theorem setupRegisteredMemories_commutes (context : ExecutionContext) :
    Commutes (setContexts cs) (setupRegisteredMemories P context sendbuff recvbuff
      sendBufferSize recvBufferSize rank plan) :=
  Commutes.foldlM (exchangeRegisteredMemory_commutes P cs sendbuff recvbuff sendBufferSize
    recvBufferSize rank plan) _ _

theorem buildSemaphoreFor_frame (acc : SemaphoreAcc) (info : ChannelInfo) (peer : Nat) :
    Keeps Frame (buildSemaphoreFor acc info peer : ExecM (Executor W) SemaphoreAcc) := by
  unfold buildSemaphoreFor ProxyService.buildAndAddSemaphore
  split
  · exact (keeps_ofExcept _).bind fun _ => (buildSemaphore_frame _ _).bind fun _ => keeps_pure _
  · exact (keeps_ofExcept _).bind fun _ =>
      ((buildSemaphore_frame _ _).bind fun _ => keeps_pure _).bind fun _ => keeps_pure _
  · exact keeps_pure _

theorem buildSemaphoreFor_commutes (acc : SemaphoreAcc) (info : ChannelInfo) (peer : Nat) :
    Commutes (setContexts cs) (buildSemaphoreFor acc info peer : ExecM (Executor W) SemaphoreAcc) := by
  unfold buildSemaphoreFor ProxyService.buildAndAddSemaphore
  split
  · exact (commutes_ofExcept _).bind fun _ =>
      (buildSemaphore_commutes cs _ _).bind fun _ => commutes_pure _
  · exact (commutes_ofExcept _).bind fun _ =>
      ((buildSemaphore_commutes cs _ _).bind fun _ => commutes_pure _).bind fun _ => commutes_pure _
  · exact commutes_pure _

theorem buildSemaphores_frame (context : ExecutionContext) :
    Keeps Frame (buildSemaphores context rank plan : ExecM (Executor W) SemaphoreAcc) :=
  keeps_get.bind fun _ => Keeps.foldlM (fun _ _ =>
    (Keeps.foldlM (fun _ info => Keeps.foldlM (fun acc => buildSemaphoreFor_frame acc info) _ _) _ _).bind
      fun _ => Keeps.foldlM (fun _ info => Keeps.foldlM (fun acc => buildSemaphoreFor_frame acc info) _ _) _ _) _ _

theorem buildSemaphores_commutes (context : ExecutionContext) :
    Commutes (setContexts cs) (buildSemaphores context rank plan : ExecM (Executor W) SemaphoreAcc) :=
  Commutes.get_bind (fun _ => rfl) fun _ => Commutes.foldlM (fun _ _ =>
    (Commutes.foldlM (fun _ info =>
      Commutes.foldlM (fun acc => buildSemaphoreFor_commutes cs acc info) _ _) _ _).bind fun _ =>
        Commutes.foldlM (fun _ info =>
          Commutes.foldlM (fun acc => buildSemaphoreFor_commutes cs acc info) _ _) _ _) _ _

theorem addInfoChannels_frame (channelType : ChannelType) (channelInfos : List ChannelInfo)
    (acc : ExecutionContext × Nat) (info : ChannelInfo) :
    Keeps Frame (addInfoChannels sendbuff recvbuff sendBufferSize recvBufferSize rank channelType
      channelInfos acc info : ExecM (Executor W) _) :=
  (keeps_ofExcept _).bind fun _ => (keeps_ofExcept _).bind fun _ => keeps_get.bind fun _ =>
    (keeps_ofExcept _).bind fun _ => keeps_ofExcept _

theorem addInfoChannels_commutes (channelType : ChannelType) (channelInfos : List ChannelInfo)
    (acc : ExecutionContext × Nat) (info : ChannelInfo) :
    Commutes (setContexts cs) (addInfoChannels sendbuff recvbuff sendBufferSize recvBufferSize
      rank channelType channelInfos acc info : ExecM (Executor W) _) :=
  (commutes_ofExcept _).bind fun _ => (commutes_ofExcept _).bind fun _ =>
    Commutes.get_bind (fun _ => rfl) fun _ => (commutes_ofExcept _).bind fun _ => commutes_ofExcept _

theorem setupChannels_frame (context : ExecutionContext) :
    Keeps Frame (setupChannels P context sendbuff recvbuff sendBufferSize recvBufferSize rank plan) :=
  (buildSemaphores_frame rank plan context).bind fun _ => (setup_frame P).bind fun _ =>
    Keeps.foldlM (fun _ _ => (Keeps.foldlM (addInfoChannels_frame sendbuff recvbuff sendBufferSize
      recvBufferSize rank _ _) _ _).bind fun _ => keeps_pure _) _ _

theorem setupChannels_commutes (context : ExecutionContext) :
    Commutes (setContexts cs) (setupChannels P context sendbuff recvbuff sendBufferSize
      recvBufferSize rank plan) :=
  (buildSemaphores_commutes cs rank plan context).bind fun _ => (setup_commutes P cs).bind fun _ =>
    Commutes.foldlM (fun _ _ => (Commutes.foldlM (addInfoChannels_commutes cs sendbuff recvbuff
      sendBufferSize recvBufferSize rank _ _) _ _).bind fun _ => commutes_pure _) _ _

/-- **A cold build keeps the frame**, whether it returns or throws. -/
theorem buildContext_frame :
    Keeps Frame (buildContext P rank sendbuff recvbuff sendBufferSize recvBufferSize plan) :=
  allocate_frame.bind fun _ => allocate_frame.bind fun _ =>
    (setupConnections_frame P rank plan _).bind fun _ =>
      (setupRegisteredMemories_frame P sendbuff recvbuff sendBufferSize recvBufferSize rank plan _).bind
        fun _ => setupChannels_frame P sendbuff recvbuff sendBufferSize recvBufferSize rank plan _

/-- **A cold build never looks at the cache.** -/
theorem buildContext_commutes :
    Commutes (setContexts cs) (buildContext P rank sendbuff recvbuff sendBufferSize
      recvBufferSize plan) :=
  (allocate_commutes cs).bind fun _ => (allocate_commutes cs).bind fun _ =>
    (setupConnections_commutes P cs rank plan _).bind fun _ =>
      (setupRegisteredMemories_commutes P cs sendbuff recvbuff sendBufferSize recvBufferSize rank
        plan _).bind fun _ =>
          setupChannels_commutes P cs sendbuff recvbuff sendBufferSize recvBufferSize rank plan _

/-- A cold build leaves the cache as it found it. -/
theorem buildContext_contexts (e : Executor W) :
    (buildContext P rank sendbuff recvbuff sendBufferSize recvBufferSize plan e).2.contexts =
      e.contexts := by
  have h := buildContext_commutes P e.contexts sendbuff recvbuff sendBufferSize recvBufferSize
    rank plan e
  rw [setContexts_self] at h
  rw [congrArg Prod.snd h]
  rfl

end Rounds

end Mscclpp
