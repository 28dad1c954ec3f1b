import Mscclpp.Communicator
import Mscclpp.Bootstrap

/-!
# Successive `setup()` calls across ranks

Each rank runs a sequence of `setup()` calls, the `i`-th over the queue its operations
filled since the `(i-1)`-th.  A call that returns makes the invocations `hooksOf queue`
(`Communicator.setup_spec`); here each invocation becomes what it does on the bootstrap
channel (`hookAction`), and the rank's run is the concatenation of its calls, each
invocation labelled with the index of its call (`roundsProgram`).

## Main result

`setup_rounds_deadlock_free` — for queues of `MemorySender`s and `MemoryReceiver`s, if in
every round `i` and for every `(src, dst, tag)` the `i`-th call at `dst` holds as many
receivers from `(src, tag)` as the `i`-th call at `src` holds senders toward `(dst, tag)`,
then no interleaving of the ranks' steps deadlocks, and every receiver's promise holds the
deserialized bytes of the sender at the same position, among the matching senders of the
same round.

`setup_invoked_setupInstrs` — a `setup()` call whose hooks all return runs exactly
`setupInstrs` of its queue, so a rank's program is what its `setup()` calls run.

`setup_rounds_complete` — for such calls on finitely many ranks every interleaving is
finite, and one that cannot go on has run every call to the end, drained the bootstrap
channel and fulfilled every promise.

The two hypotheses of `Bootstrap.reachable_not_deadlock` come from different places:
*matched* from the per-round balance (`roundsProgram_matched`), *two-phase* from the two
loops of `setup()` alone (`roundsProgram_twoPhase`), for any queues whatsoever.
-/

namespace Mscclpp

open Bootstrap

/-- The objects of a memory exchange: a `MemorySender` or a `MemoryReceiver`. -/
def Setuppable.IsMemoryExchange : Setuppable → Prop
  | .memorySender .. => True
  | .memoryReceiver .. => True
  | _ => False

/-- The memories the `MemorySender`s of `queue` send toward `(dst, tag)`, in enqueue order. -/
def sendersTo (dst : Nat) (tag : Int) (queue : List Setuppable) : List RegisteredMemory :=
  queue.filterMap fun
    | .memorySender _ memory d t => if d = dst ∧ t = tag then some memory else none
    | _ => none

/-- The ids of the `MemoryReceiver`s of `queue` that receive from `(src, tag)`, in enqueue
order. -/
def receiversFrom (src : Nat) (tag : Int) (queue : List Setuppable) : List Nat :=
  queue.filterMap fun
    | .memoryReceiver id s t => if s = src ∧ t = tag then some id else none
    | _ => none

section QueueStreams

variable {dst src : Nat} {tag : Int} {id : Nat} {queue : List Setuppable}

@[simp] theorem sendersTo_nil : sendersTo dst tag [] = [] := rfl

@[simp] theorem sendersTo_cons_memorySender (memory : RegisteredMemory) (d : Nat) (t : Int) :
    sendersTo dst tag (.memorySender id memory d t :: queue) =
      (if d = dst ∧ t = tag then [memory] else []) ++ sendersTo dst tag queue := by
  by_cases h : d = dst ∧ t = tag <;> simp [sendersTo, h]

@[simp] theorem sendersTo_cons_memoryReceiver (s : Nat) (t : Int) :
    sendersTo dst tag (.memoryReceiver id s t :: queue) = sendersTo dst tag queue := rfl

@[simp] theorem receiversFrom_nil : receiversFrom src tag [] = [] := rfl

@[simp] theorem receiversFrom_cons_memoryReceiver (s : Nat) (t : Int) :
    receiversFrom src tag (.memoryReceiver id s t :: queue) =
      (if s = src ∧ t = tag then [id] else []) ++ receiversFrom src tag queue := by
  by_cases h : s = src ∧ t = tag <;> simp [receiversFrom, h]

@[simp] theorem receiversFrom_cons_memorySender (memory : RegisteredMemory) (d : Nat) (t : Int) :
    receiversFrom src tag (.memorySender id memory d t :: queue) = receiversFrom src tag queue :=
  rfl

end QueueStreams

section Wire

variable {Bytes : Type} (serialize : RegisteredMemory → Bytes) (handshake : Setuppable → Bytes)

/-- What one hook invocation does on the bootstrap channel: `MemorySender::beginSetup`
sends `memory_.serialize()`, `MemoryReceiver::endSetup` receives; a connection or a
semaphore sends its handshake in `beginSetup` and receives its peer's in `endSetup`.  Every
other hook is the empty default of `Setuppable`. -/
def hookAction : Hook → Setuppable → Action Bytes
  | .beginSetup, .memorySender _ memory remoteRank tag => .send remoteRank tag (serialize memory)
  | .beginSetup, .connection conn => .send conn.remoteRank conn.tag (handshake (.connection conn))
  | .beginSetup, .semaphore id kind conn =>
    .send conn.remoteRank conn.tag (handshake (.semaphore id kind conn))
  | .endSetup, .memoryReceiver _ remoteRank tag => .recv remoteRank tag
  | .endSetup, .connection conn => .recv conn.remoteRank conn.tag
  | .endSetup, .semaphore _ _ conn => .recv conn.remoteRank conn.tag
  | _, _ => .skip

section HookAction

variable {id : Nat} {memory : RegisteredMemory} {remoteRank : Nat} {tag : Int}
  {kind : ChannelType} {conn : Connection}

@[simp] theorem hookAction_beginSetup_memorySender :
    hookAction serialize handshake .beginSetup (.memorySender id memory remoteRank tag) =
      .send remoteRank tag (serialize memory) := rfl

@[simp] theorem hookAction_beginSetup_memoryReceiver :
    hookAction serialize handshake .beginSetup (.memoryReceiver id remoteRank tag) = .skip := rfl

@[simp] theorem hookAction_beginSetup_connection :
    hookAction serialize handshake .beginSetup (.connection conn) =
      .send conn.remoteRank conn.tag (handshake (.connection conn)) := rfl

@[simp] theorem hookAction_beginSetup_semaphore :
    hookAction serialize handshake .beginSetup (.semaphore id kind conn) =
      .send conn.remoteRank conn.tag (handshake (.semaphore id kind conn)) := rfl

@[simp] theorem hookAction_endSetup_memorySender :
    hookAction serialize handshake .endSetup (.memorySender id memory remoteRank tag) = .skip :=
  rfl

@[simp] theorem hookAction_endSetup_memoryReceiver :
    hookAction serialize handshake .endSetup (.memoryReceiver id remoteRank tag) =
      .recv remoteRank tag := rfl

@[simp] theorem hookAction_endSetup_connection :
    hookAction serialize handshake .endSetup (.connection conn) =
      .recv conn.remoteRank conn.tag := rfl

@[simp] theorem hookAction_endSetup_semaphore :
    hookAction serialize handshake .endSetup (.semaphore id kind conn) =
      .recv conn.remoteRank conn.tag := rfl

end HookAction

theorem hookAction_beginSetup_not_recv (s : Setuppable) :
    ¬ (hookAction serialize handshake .beginSetup s).IsRecv := by
  cases s <;> simp [hookAction, Action.IsRecv]

theorem hookAction_endSetup_not_send (s : Setuppable) :
    ¬ (hookAction serialize handshake .endSetup s).IsSend := by
  cases s <;> simp [hookAction, Action.IsSend]

/-- The invocations of a `setup()` call over `queue` that returns, labelled `i`. -/
def setupInstrs (i : Nat) (queue : List Setuppable) : List (Instr Nat Bytes) :=
  (Communicator.hooksOf queue).map fun h => ⟨i, hookAction serialize handshake h.1 h.2⟩

/-- **A `setup()` call runs `setupInstrs`** when no hook throws: it returns, and its
invocations, each doing `hookAction` on the channel, are `setupInstrs` of its queue.  With
`Communicator.setup_spec` (a call that returns made these invocations) this ties the
programs below to `Communicator.setup` both ways. -/
theorem setup_invoked_setupInstrs {W : Type} {runHook : Hook → Setuppable → W → W × Option Failure}
    (hret : ∀ h s w, (runHook h s w).2 = none) (c : Communicator) (w : W) (i : Nat) :
    (c.setup runHook w).failure = none ∧
      (c.setup runHook w).invoked.map (fun h => ⟨i, hookAction serialize handshake h.1 h.2⟩) =
        setupInstrs serialize handshake i c.toSetup := by
  obtain ⟨hok, hinv, -⟩ := Communicator.setup_of_hooks_return runHook hret c w
  exact ⟨hok, by rw [hinv]; rfl⟩

/-- A rank's run of successive `setup()` calls, the first labelled `i`. -/
def roundsProgram : Nat → List (List Setuppable) → List (Instr Nat Bytes)
  | _, [] => []
  | i, queue :: rest => setupInstrs serialize handshake i queue ++ roundsProgram (i + 1) rest

@[simp] theorem roundsProgram_nil (i : Nat) : roundsProgram serialize handshake i [] = [] := rfl

theorem roundsProgram_cons (i : Nat) (queue : List Setuppable) (rest : List (List Setuppable)) :
    roundsProgram serialize handshake i (queue :: rest) =
      setupInstrs serialize handshake i queue ++ roundsProgram serialize handshake (i + 1) rest :=
  rfl

theorem roundsProgram_append (i : Nat) (qs₁ qs₂ : List (List Setuppable)) :
    roundsProgram serialize handshake i (qs₁ ++ qs₂) =
      roundsProgram serialize handshake i qs₁ ++
        roundsProgram serialize handshake (i + qs₁.length) qs₂ := by
  induction qs₁ generalizing i with
  | nil => simp
  | cons q qs ih => simp [roundsProgram_cons, ih, Nat.add_assoc, Nat.add_comm 1]

/-- Every invocation of a run starting at label `i` has a label at least `i`. -/
theorem le_label_of_mem_roundsProgram {i : Nat} {qs : List (List Setuppable)}
    {b : Instr Nat Bytes} (hb : b ∈ roundsProgram serialize handshake i qs) : i ≤ b.label := by
  induction qs generalizing i with
  | nil => cases hb
  | cons q qs ih =>
    rw [roundsProgram_cons, List.mem_append] at hb
    rcases hb with hb | hb
    · obtain ⟨_, _, rfl⟩ := List.mem_map.mp hb; exact le_rfl
    · exact Nat.le_of_succ_le (ih hb)

/-- **The two loops of `setup()` make every run two-phase**, whatever its queues hold: a
call's receives all come after its sends, and later calls have larger labels. -/
theorem roundsProgram_twoPhase (i : Nat) (qs : List (List Setuppable)) :
    (roundsProgram serialize handshake i qs).Pairwise fun a b =>
      a.action.IsRecv → b.action.IsSend → a.label < b.label := by
  induction qs generalizing i with
  | nil => exact List.Pairwise.nil
  | cons q qs ih =>
    rw [roundsProgram_cons, List.pairwise_append]
    refine ⟨?_, ih (i + 1), fun a ha b hb _ _ => ?_⟩
    · simp only [setupInstrs, Communicator.hooksOf, List.map_append, List.map_map,
        List.pairwise_append, List.pairwise_map]
      refine ⟨?_, ?_, ?_⟩
      · exact List.pairwise_of_forall fun a _ hr =>
          absurd hr (hookAction_beginSetup_not_recv serialize handshake a)
      · exact List.pairwise_of_forall fun _ b _ hs =>
          absurd hs (hookAction_endSetup_not_send serialize handshake b)
      · intro a ha b _ hr
        obtain ⟨s, -, rfl⟩ := List.mem_map.mp ha
        exact absurd hr (hookAction_beginSetup_not_recv _ _ _)
    · obtain ⟨_, _, rfl⟩ := List.mem_map.mp ha
      exact le_label_of_mem_roundsProgram serialize handshake hb

/-! ### The channels seen from the queues -/

/-- The `beginSetup` invocations of a call over `queue`, labelled `i`. -/
def beginInstrs (i : Nat) (queue : List Setuppable) : List (Instr Nat Bytes) :=
  queue.map fun s => ⟨i, hookAction serialize handshake .beginSetup s⟩

/-- The `endSetup` invocations of a call over `queue`, labelled `i`. -/
def endInstrs (i : Nat) (queue : List Setuppable) : List (Instr Nat Bytes) :=
  queue.map fun s => ⟨i, hookAction serialize handshake .endSetup s⟩

theorem setupInstrs_eq (i : Nat) (queue : List Setuppable) :
    setupInstrs serialize handshake i queue =
      beginInstrs serialize handshake i queue ++ endInstrs serialize handshake i queue := by
  simp [setupInstrs, Communicator.hooksOf, beginInstrs, endInstrs, Function.comp_def]

variable {serialize handshake}

theorem sendsTo_beginInstrs {queue : List Setuppable} (hq : ∀ x ∈ queue, x.IsMemoryExchange)
    (i dst : Nat) (tag : Int) :
    sendsTo dst tag (beginInstrs serialize handshake i queue) =
      (sendersTo dst tag queue).map fun m => (i, serialize m) := by
  induction queue with
  | nil => rfl
  | cons x xs ih =>
    have hx := hq x (List.mem_cons_self _ _)
    have ih := ih fun y hy => hq y (List.mem_cons_of_mem _ hy)
    simp only [beginInstrs, List.map_cons] at ih ⊢
    cases x with
    | memorySender id m r t => by_cases h : r = dst ∧ t = tag <;> simp [h, ih]
    | memoryReceiver => simpa using ih
    | connection => exact hx.elim
    | semaphore => exact hx.elim

theorem sendsTo_endInstrs (queue : List Setuppable) (i dst : Nat) (tag : Int) :
    sendsTo dst tag (endInstrs serialize handshake i queue) = [] := by
  induction queue with
  | nil => rfl
  | cons x xs ih => cases x <;> simpa [endInstrs] using ih

theorem recvsFrom_beginInstrs (queue : List Setuppable) (i src : Nat) (tag : Int) :
    recvsFrom src tag (beginInstrs serialize handshake i queue) = [] := by
  induction queue with
  | nil => rfl
  | cons x xs ih => cases x <;> simpa [beginInstrs] using ih

theorem recvsFrom_endInstrs {queue : List Setuppable} (hq : ∀ x ∈ queue, x.IsMemoryExchange)
    (i src : Nat) (tag : Int) :
    recvsFrom src tag (endInstrs serialize handshake i queue) =
      (receiversFrom src tag queue).map fun _ => i := by
  induction queue with
  | nil => rfl
  | cons x xs ih =>
    have hx := hq x (List.mem_cons_self _ _)
    have ih := ih fun y hy => hq y (List.mem_cons_of_mem _ hy)
    simp only [endInstrs, List.map_cons] at ih ⊢
    cases x with
    | memorySender => simpa using ih
    | memoryReceiver id r t => by_cases h : r = src ∧ t = tag <;> simp [h, ih]
    | connection => exact hx.elim
    | semaphore => exact hx.elim

/-! ### Whole runs -/

/-- `count q₀` copies of `i`, then `count q₁` copies of `i + 1`, and so on: the labels of a
channel's stream when call `j` puts `count qⱼ` messages on it. -/
def levels (count : List Setuppable → Nat) : Nat → List (List Setuppable) → List Nat
  | _, [] => []
  | i, q :: rest => List.replicate (count q) i ++ levels count (i + 1) rest

theorem sendsTo_roundsProgram {qs : List (List Setuppable)}
    (hqs : ∀ q ∈ qs, ∀ x ∈ q, x.IsMemoryExchange) (i dst : Nat) (tag : Int) :
    (sendsTo dst tag (roundsProgram serialize handshake i qs)).map Prod.fst =
      levels (fun q => (sendersTo dst tag q).length) i qs := by
  induction qs generalizing i with
  | nil => rfl
  | cons q qs ih =>
    have ih := ih (fun q' hq' => hqs q' (List.mem_cons_of_mem _ hq')) (i + 1)
    rw [roundsProgram_cons, setupInstrs_eq, sendsTo_append, sendsTo_append,
      sendsTo_beginInstrs (hqs q (List.mem_cons_self _ _)), sendsTo_endInstrs]
    simp [levels, ih, Function.comp_def, List.map_const']

theorem recvsFrom_roundsProgram {qs : List (List Setuppable)}
    (hqs : ∀ q ∈ qs, ∀ x ∈ q, x.IsMemoryExchange) (i src : Nat) (tag : Int) :
    recvsFrom src tag (roundsProgram serialize handshake i qs) =
      levels (fun q => (receiversFrom src tag q).length) i qs := by
  induction qs generalizing i with
  | nil => rfl
  | cons q qs ih =>
    rw [roundsProgram_cons, setupInstrs_eq, recvsFrom_append, recvsFrom_append,
      recvsFrom_beginInstrs, recvsFrom_endInstrs (hqs q (List.mem_cons_self _ _)),
      ih (fun q' hq' => hqs q' (List.mem_cons_of_mem _ hq'))]
    simp [levels, List.map_const']

theorem levels_eq_nil {count : List Setuppable → Nat} {qs : List (List Setuppable)}
    (h : ∀ j, count (qs.getD j []) = 0) (i : Nat) : levels count i qs = [] := by
  induction qs generalizing i with
  | nil => rfl
  | cons q qs ih =>
    simp only [levels, List.append_eq_nil, List.replicate_eq_nil_iff]
    exact ⟨h 0, ih (fun j => h (j + 1)) _⟩

/-- Two runs whose calls put equally many messages on a channel, call by call, give the
channel the same stream of labels. -/
theorem levels_congr {count₁ count₂ : List Setuppable → Nat} (h₁ : count₁ [] = 0)
    (h₂ : count₂ [] = 0) {qs₁ qs₂ : List (List Setuppable)}
    (h : ∀ j, count₁ (qs₁.getD j []) = count₂ (qs₂.getD j [])) (i : Nat) :
    levels count₁ i qs₁ = levels count₂ i qs₂ := by
  induction qs₁ generalizing qs₂ i with
  | nil => exact (levels_eq_nil (fun j => (h j).symm.trans (by simpa using h₁)) i).symm
  | cons q qs ih =>
    cases qs₂ with
    | nil => exact levels_eq_nil (fun j => (h j).trans (by simpa using h₂)) i
    | cons q' qs' =>
      simp only [levels]
      rw [show count₁ q = count₂ q' from h 0, ih (fun j => h (j + 1))]

variable (serialize handshake)

@[simp] theorem setupInstrs_nil (i : Nat) : setupInstrs serialize handshake i [] = [] := rfl

theorem length_beginInstrs (i : Nat) (queue : List Setuppable) :
    (beginInstrs serialize handshake i queue).length = queue.length := by
  simp [beginInstrs]

theorem length_roundsProgram (i : Nat) (qs : List (List Setuppable)) :
    (roundsProgram serialize handshake i qs).length = 2 * qs.flatten.length := by
  induction qs generalizing i with
  | nil => rfl
  | cons q qs ih =>
    simp [roundsProgram_cons, setupInstrs_eq, ih, endInstrs, length_beginInstrs]; omega

/-- A run cut at its `i`-th call: the calls before, the `i`-th, the calls after. -/
theorem roundsProgram_split (j i : Nat) (qs : List (List Setuppable)) :
    roundsProgram serialize handshake j qs =
      roundsProgram serialize handshake j (qs.take i) ++
        setupInstrs serialize handshake (j + i) (qs.getD i []) ++
          roundsProgram serialize handshake (j + i + 1) (qs.drop (i + 1)) := by
  induction qs generalizing j i with
  | nil => simp
  | cons q qs ih =>
    cases i with
    | zero => simp [roundsProgram_cons]
    | succ i =>
      rw [List.take_succ_cons, List.getD_cons_succ, List.drop_succ_cons, roundsProgram_cons,
        roundsProgram_cons, ih (j + 1) i]
      simp only [List.append_assoc, Nat.add_right_comm j 1 i]
      rfl

/-- Every rank's run of `setup()` calls, its first call labelled `0`. -/
def setupProgram (rounds : Nat → List (List Setuppable)) (r : Nat) : List (Instr Nat Bytes) :=
  roundsProgram serialize handshake 0 (rounds r)

/-- Where the `endSetup` of the object at `pos` of the `i`-th call sits in a rank's run:
past the `i` calls before, and past the `beginSetup`s of the `i`-th. -/
def endSetupIndex (rounds : List (List Setuppable)) (i pos : Nat) : Nat :=
  2 * (rounds.take i).flatten.length + (rounds.getD i []).length + pos

/-- The promise of the `MemoryReceiver` at `pos` of the `i`-th `setup()` call of rank `d` in
world `w`: `deserialize` of the bytes its `endSetup` received, once it has run. -/
def promise (deserialize : Bytes → RegisteredMemory) (rounds : Nat → List (List Setuppable))
    (w : World Bytes) (d i pos : Nat) : Option RegisteredMemory :=
  (w.got (d, endSetupIndex (rounds d) i pos)).map deserialize

/-- The `endSetup` at `pos` of the `i`-th call sits past the calls before and past the
`beginSetup`s of the `i`-th. -/
theorem endSetupIndex_eq (qs : List (List Setuppable)) (i pos : Nat) :
    endSetupIndex qs i pos = (roundsProgram serialize handshake 0 (qs.take i)).length +
      ((beginInstrs serialize handshake i (qs.getD i [])).length + pos) := by
  rw [endSetupIndex, length_roundsProgram, length_beginInstrs, Nat.add_assoc]

/-- A run cut at its `i`-th call, from the first call. -/
theorem roundsProgram_split_zero (i : Nat) (qs : List (List Setuppable)) :
    roundsProgram serialize handshake 0 qs =
      roundsProgram serialize handshake 0 (qs.take i) ++ setupInstrs serialize handshake i (qs.getD i []) ++
        roundsProgram serialize handshake (i + 1) (qs.drop (i + 1)) := by
  simpa using roundsProgram_split serialize handshake 0 i qs

variable {serialize handshake}

theorem roundsProgram_getElem?_endSetupIndex {qs : List (List Setuppable)} {i pos : Nat}
    {x : Setuppable} (hx : (qs.getD i [])[pos]? = some x) :
    (roundsProgram serialize handshake 0 qs)[endSetupIndex qs i pos]? =
      some ⟨i, hookAction serialize handshake .endSetup x⟩ := by
  have hlt : pos < (qs.getD i []).length := (List.getElem?_eq_some_iff.mp hx).1
  rw [roundsProgram_split_zero serialize handshake i, setupInstrs_eq,
    endSetupIndex_eq serialize handshake, List.append_assoc, List.append_assoc,
    List.getElem?_append_right (Nat.le_add_right _ _), Nat.add_sub_cancel_left,
    List.getElem?_append_right (Nat.le_add_right _ _), Nat.add_sub_cancel_left,
    List.getElem?_append_left (by simpa [endInstrs] using hlt)]
  simp only [endInstrs, List.getElem?_map, hx, Option.map_some']

theorem roundsProgram_take_endSetupIndex {qs : List (List Setuppable)} {i pos : Nat}
    (hpos : pos ≤ (qs.getD i []).length) :
    (roundsProgram serialize handshake 0 qs).take (endSetupIndex qs i pos) =
      roundsProgram serialize handshake 0 (qs.take i) ++
        beginInstrs serialize handshake i (qs.getD i []) ++
          endInstrs serialize handshake i ((qs.getD i []).take pos) := by
  rw [roundsProgram_split_zero serialize handshake i, setupInstrs_eq,
    endSetupIndex_eq serialize handshake, List.append_assoc, List.append_assoc, List.take_append,
    List.take_append, List.take_append_of_le_length (by simpa [endInstrs] using hpos)]
  simp [endInstrs, List.map_take, List.append_assoc]

theorem mem_of_getD {qs : List (List Setuppable)} {i : Nat} {x : Setuppable}
    (hx : x ∈ qs.getD i []) : qs.getD i [] ∈ qs := by
  rw [List.getD_eq_getElem?_getD] at hx ⊢
  cases h : qs[i]? with
  | none => simp [h] at hx
  | some q => simpa using List.getElem?_mem h

/-- The receives from `(src, tag)` a rank has made when it reaches the `endSetup` at `pos`
of its `i`-th call: those of the calls before, then those of the receivers before `pos`. -/
theorem recvsFrom_take_endSetupIndex {qs : List (List Setuppable)}
    (hqs : ∀ q ∈ qs, ∀ x ∈ q, x.IsMemoryExchange) {i pos : Nat}
    (hpos : pos ≤ (qs.getD i []).length) (src : Nat) (tag : Int) :
    (recvsFrom src tag ((roundsProgram serialize handshake 0 qs).take (endSetupIndex qs i pos))).length =
      (recvsFrom src tag (roundsProgram serialize handshake 0 (qs.take i))).length +
        (receiversFrom src tag ((qs.getD i []).take pos)).length := by
  rw [roundsProgram_take_endSetupIndex hpos, recvsFrom_append, recvsFrom_append,
    recvsFrom_beginInstrs, recvsFrom_endInstrs fun x hx =>
      hqs _ (mem_of_getD (List.mem_of_mem_take hx)) x (List.mem_of_mem_take hx)]
  simp

/-- The sends toward `(dst, tag)` of a rank's run, read past those of its first `i` calls,
are those of its `i`-th call. -/
theorem sendsTo_getElem?_round {qs : List (List Setuppable)}
    (hqs : ∀ q ∈ qs, ∀ x ∈ q, x.IsMemoryExchange) {i j : Nat} {dst : Nat} {tag : Int}
    (hj : j < (sendersTo dst tag (qs.getD i [])).length) :
    (sendsTo dst tag (roundsProgram serialize handshake 0 qs))[
        (sendsTo dst tag (roundsProgram serialize handshake 0 (qs.take i))).length + j]? =
      ((sendersTo dst tag (qs.getD i [])).map fun m => (i, serialize m))[j]? := by
  have hq : ∀ x ∈ qs.getD i [], x.IsMemoryExchange := fun x hx => hqs _ (mem_of_getD hx) x hx
  rw [roundsProgram_split_zero serialize handshake i, setupInstrs_eq, sendsTo_append,
    sendsTo_append, sendsTo_append,
    sendsTo_beginInstrs hq, sendsTo_endInstrs, List.append_nil, List.append_assoc,
    List.getElem?_append_right (Nat.le_add_right _ _), Nat.add_sub_cancel_left,
    List.getElem?_append_left (by simpa using hj)]

theorem receiversFrom_take_lt {q : List Setuppable} {pos id src : Nat} {tag : Int}
    (hx : q[pos]? = some (.memoryReceiver id src tag)) :
    (receiversFrom src tag (q.take pos)).length < (receiversFrom src tag q).length := by
  have hd : q.drop pos = .memoryReceiver id src tag :: q.drop (pos + 1) := by
    rw [List.drop_eq_getElem_cons (List.getElem?_eq_some_iff.mp hx).1,
      (List.getElem?_eq_some_iff.mp hx).2]
  conv_rhs => rw [← List.take_append_drop pos q, hd]
  simp [receiversFrom, List.filterMap_append]

variable {rounds : Nat → List (List Setuppable)}

section Balanced

variable (hkinds : ∀ r, ∀ q ∈ rounds r, ∀ x ∈ q, x.IsMemoryExchange)
  (hbalanced : ∀ i src dst tag, (receiversFrom src tag ((rounds dst).getD i [])).length =
    (sendersTo dst tag ((rounds src).getD i [])).length)
include hkinds hbalanced

/-- **Balanced calls make matched programs**: call by call, as many sends as receives on
every channel. -/
theorem setupProgram_matched : Matched (setupProgram serialize handshake rounds) := by
  intro s d t
  rw [setupProgram, setupProgram, sendsTo_roundsProgram (hkinds s), recvsFrom_roundsProgram (hkinds d)]
  exact levels_congr rfl rfl (fun j => (hbalanced j s d t).symm) 0

/-- Before call `i`, as many sends on a channel as receives from it. -/
theorem length_sendsTo_take (i s d : Nat) (t : Int) :
    (sendsTo d t (roundsProgram serialize handshake 0 ((rounds s).take i))).length =
      (recvsFrom s t (roundsProgram serialize handshake 0 ((rounds d).take i))).length := by
  have h : levels (fun q => (sendersTo d t q).length) 0 ((rounds s).take i) =
      levels (fun q => (receiversFrom s t q).length) 0 ((rounds d).take i) :=
    levels_congr rfl rfl (fun j => by
      simp only [List.getD_eq_getElem?_getD, List.getElem?_take]
      split_ifs
      · simpa [List.getD_eq_getElem?_getD] using (hbalanced j s d t).symm
      · rfl) 0
  rw [← sendsTo_roundsProgram (fun q hq => hkinds s q (List.mem_of_mem_take hq)),
    ← recvsFrom_roundsProgram (fun q hq => hkinds d q (List.mem_of_mem_take hq))] at h
  simpa using congrArg List.length h

/-- **Successive `setup()` calls across ranks.**  Let every rank run successive `setup()`
calls over queues of `MemorySender`s and `MemoryReceiver`s, such that in every round `i`
and for every `(src, dst, tag)`, the `i`-th call at `dst` holds as many receivers from
`(src, tag)` as the `i`-th call at `src` holds senders toward `(dst, tag)`.  Then in every
interleaving of the ranks' steps no reachable world is a deadlock, and the promise of the
receiver at `pos` of the `i`-th call at `d`, the `j`-th of that call's receivers from
`(src, tag)`, is fulfilled once `d` has finished, and only ever with `deserialize` of the
bytes `serialize`d by the `j`-th of the senders toward `(d, tag)` of the `i`-th call at
`src`. -/
theorem setup_rounds_deadlock_free (deserialize : Bytes → RegisteredMemory)
    {w : World Bytes} (hw : Reachable (setupProgram serialize handshake rounds) w) :
    ¬ Deadlock (setupProgram serialize handshake rounds) w ∧
      ∀ d i pos id src tag, ((rounds d).getD i [])[pos]? = some (.memoryReceiver id src tag) →
        (Finished (setupProgram serialize handshake rounds) w d →
          (promise deserialize rounds w d i pos).isSome) ∧
        ∀ v, promise deserialize rounds w d i pos = some v →
          ∃ memory, (sendersTo d tag ((rounds src).getD i []))[
              (receiversFrom src tag (((rounds d).getD i []).take pos)).length]? = some memory ∧
            v = deserialize (serialize memory) := by
  have hmatch : Matched (setupProgram serialize handshake rounds) :=
    setupProgram_matched hkinds hbalanced
  have hphase : TwoPhase (setupProgram serialize handshake rounds) id :=
    fun r => roundsProgram_twoPhase serialize handshake 0 (rounds r)
  refine ⟨reachable_not_deadlock hmatch hphase hw, ?_⟩
  intro d i pos id src tag hx
  have hk : (roundsProgram serialize handshake 0 (rounds d))[endSetupIndex (rounds d) i pos]? =
      some ⟨i, .recv src tag⟩ := roundsProgram_getElem?_endSetupIndex hx
  refine ⟨fun hfin => ?_, fun v hv => ?_⟩
  · rw [promise, Option.isSome_map']
    exact reachable_got_isSome hw hk
      (Nat.lt_of_lt_of_le (List.getElem?_eq_some_iff.mp hk).1 hfin)
  · obtain ⟨m, hgot, rfl⟩ := Option.map_eq_some'.mp hv
    obtain ⟨ℓ, s, t, hk', -, hsent⟩ := reachable_got_matched hmatch hw hgot
    simp only [setupProgram] at hk' hsent
    rw [hk] at hk'
    simp only [Option.some.injEq, Instr.mk.injEq, Action.recv.injEq] at hk'
    obtain ⟨rfl, rfl, rfl⟩ := hk'
    have hpos : pos ≤ ((rounds d).getD i []).length :=
      (List.getElem?_eq_some_iff.mp hx).1.le
    have hj : (receiversFrom src tag (((rounds d).getD i []).take pos)).length <
        (sendersTo d tag ((rounds src).getD i [])).length :=
      (hbalanced i src d tag) ▸ receiversFrom_take_lt hx
    rw [recvsFrom_take_endSetupIndex (hkinds d) hpos,
      ← length_sendsTo_take hkinds hbalanced,
      sendsTo_getElem?_round (hkinds src) hj, List.getElem?_map] at hsent
    obtain ⟨memory, hmem, heq⟩ := Option.map_eq_some'.mp hsent
    simp only [Prod.mk.injEq] at heq
    exact ⟨memory, hmem, by rw [heq.2]⟩

/-- **The `setup()` rounds always complete.**  For balanced calls of `MemorySender`s and
`MemoryReceiver`s on the ranks below `n`, every interleaving of the ranks' steps is finite,
and one that cannot go on has run every rank's calls to the end, left no message on the
bootstrap channel, and fulfilled the promise of every `MemoryReceiver`. -/
theorem setup_rounds_complete (deserialize : Bytes → RegisteredMemory) {n : Nat}
    (hn : ∀ r, n ≤ r → rounds r = []) :
    WellFounded (fun w' w : World Bytes => Step (setupProgram serialize handshake rounds) w w') ∧
      ∀ w, Reachable (setupProgram serialize handshake rounds) w →
        (∀ r, stepRank (setupProgram serialize handshake rounds) r w = none) →
        (∀ r, Finished (setupProgram serialize handshake rounds) w r) ∧ (∀ c, w.chan c = []) ∧
        ∀ d i pos id src tag, ((rounds d).getD i [])[pos]? = some (.memoryReceiver id src tag) →
          (promise deserialize rounds w d i pos).isSome := by
  have hmatch : Matched (setupProgram serialize handshake rounds) :=
    setupProgram_matched hkinds hbalanced
  have hphase : TwoPhase (setupProgram serialize handshake rounds) id :=
    fun r => roundsProgram_twoPhase serialize handshake 0 (rounds r)
  have hprog : ∀ r, n ≤ r → setupProgram serialize handshake rounds r = [] := fun r hr => by
    rw [setupProgram, hn r hr]; rfl
  refine ⟨step_wellFounded hprog, fun w hw hstuck => ?_⟩
  have hfin := finished_of_stuck hmatch hphase hw hstuck
  refine ⟨hfin, chan_eq_nil_of_finished hmatch (reachable_inv _ hw) hfin,
    fun d i pos id src tag hx => ?_⟩
  have hk : (roundsProgram serialize handshake 0 (rounds d))[endSetupIndex (rounds d) i pos]? =
      some ⟨i, .recv src tag⟩ := roundsProgram_getElem?_endSetupIndex hx
  rw [promise, Option.isSome_map']
  exact reachable_got_isSome hw hk (Nat.lt_of_lt_of_le (List.getElem?_eq_some_iff.mp hk).1 (hfin d))

end Balanced

end Wire

end Mscclpp

namespace Mscclpp

/-- Rank 0 sends one descriptor to rank 1 on tag 0; rank 1 receives it; one call each. -/
def oneExchange : Nat → List (List Setuppable)
  | 0 => [[.memorySender 0 ⟨0, 8, 0, ∅⟩ 1 0]]
  | 1 => [[.memoryReceiver 0 0 0]]
  | _ => []

theorem oneExchange_deadlock_free :
    (∀ r, ∀ q ∈ oneExchange r, ∀ x ∈ q, x.IsMemoryExchange) ∧
      (∀ i src dst tag, (receiversFrom src tag ((oneExchange dst).getD i [])).length =
        (sendersTo dst tag ((oneExchange src).getD i [])).length) ∧
      ¬ Bootstrap.Deadlock (setupProgram id (fun _ => ⟨0, 0, 0, ∅⟩) oneExchange)
        Bootstrap.World.init := by
  have hkinds : ∀ r, ∀ q ∈ oneExchange r, ∀ x ∈ q, x.IsMemoryExchange := by
    intro r q hq x hx
    rcases r with _ | _ | r <;> simp_all [oneExchange, Setuppable.IsMemoryExchange]
  have hbalanced : ∀ i src dst tag, (receiversFrom src tag ((oneExchange dst).getD i [])).length =
      (sendersTo dst tag ((oneExchange src).getD i [])).length := by
    intro i src dst tag
    rcases i with _ | i <;> rcases src with _ | _ | src <;> rcases dst with _ | _ | dst <;>
      simp [oneExchange, eq_comm, apply_ite List.length]
  exact ⟨hkinds, hbalanced,
    (setup_rounds_deadlock_free hkinds hbalanced id Relation.ReflTransGen.refl).1⟩

theorem oneExchange_isMemoryExchange : ∀ r, ∀ q ∈ oneExchange r, ∀ x ∈ q, x.IsMemoryExchange := by
  intro r q hq x hx
  rcases r with _ | _ | r <;> simp_all [oneExchange, Setuppable.IsMemoryExchange]

theorem oneExchange_balanced (i src dst : Nat) (tag : Int) :
    (receiversFrom src tag ((oneExchange dst).getD i [])).length =
      (sendersTo dst tag ((oneExchange src).getD i [])).length := by
  rcases i with _ | i <;> rcases src with _ | _ | src <;> rcases dst with _ | _ | dst <;>
    simp [oneExchange, eq_comm, apply_ite List.length]

theorem setup_rounds_complete_oneExchange :
    WellFounded (fun w' w : Bootstrap.World RegisteredMemory =>
      Bootstrap.Step (setupProgram id (fun _ => ⟨0, 0, 0, ∅⟩) oneExchange) w w') ∧
      ∀ w, Bootstrap.Reachable (setupProgram id (fun _ => ⟨0, 0, 0, ∅⟩) oneExchange) w →
        (∀ r, Bootstrap.stepRank (setupProgram id (fun _ => ⟨0, 0, 0, ∅⟩) oneExchange) r w = none) →
        (∀ r, Bootstrap.Finished (setupProgram id (fun _ => ⟨0, 0, 0, ∅⟩) oneExchange) w r) ∧
          (∀ c, w.chan c = []) ∧
          ∀ d i pos rid src tag, ((oneExchange d).getD i [])[pos]? =
            some (.memoryReceiver rid src tag) → (promise id oneExchange w d i pos).isSome :=
  setup_rounds_complete oneExchange_isMemoryExchange oneExchange_balanced id
    (n := 2) fun r hr => match r, hr with | _ + 2, _ => rfl

end Mscclpp
