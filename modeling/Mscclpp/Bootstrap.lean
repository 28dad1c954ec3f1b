import Mathlib.Logic.Relation
import Mathlib.Data.List.Basic

/-!
# The bootstrap channel across ranks

Every rank runs its own sequence of `setup()` calls; between ranks the only interaction is
the bootstrap channel, whose `send` never blocks and whose `recv` blocks until a message is
there, reliable and FIFO per `(source, destination, tag)`.  This file is the semantics of
that interaction for any number of ranks and any interleaving of their steps.

A rank's run is flattened to the list of its hook invocations (`Instr`), each doing one
`Action` on the channel.  The global `World` holds each rank's program counter, the
messages in flight on every channel, and what each executed `recv` returned.  `Step` lets
any one rank run its next invocation; a `recv` on an empty channel cannot run.

## Main results

* `reachable_inv` — in every reachable world the channels and the received messages are
  functions of the program counters (`inFlight`, `expectedGot`): the channel holds what its
  sender has sent less what its receiver has taken, and the `k`-th receive on a channel
  returned the `k`-th message sent on it.
* `reachable_not_deadlock` — no reachable world is a deadlock, provided the programs are
  *matched* and *two-phase*.
* `step_wellFounded` — on finitely many ranks every interleaving is finite
  (`workLeft` falls at every step).
* `finished_of_stuck`, `chan_eq_nil_of_finished` — for such programs a reachable world where
  no rank can step has every rank finished and nothing left on any channel.

### Labels and levels

Each invocation carries a `label`, the protocol step it belongs to, and `level` maps labels
to `Nat`.  *Matched*: for every channel, the labels of the sends on it, in order, are the
labels of the receives from it, in order.  *Two-phase*: within a rank, a receive is never
followed by a send of the same or a lower level.  A `setup()` call runs all `beginSetup`s
(the sends) before all `endSetup`s (the receives), so a rank whose calls have increasing
levels is two-phase; that is exactly what the two loops of `Communicator::setup` buy.

The proof of `reachable_not_deadlock` is a descent on levels: a blocked receiver waits for
a send its sender has not made; that sender, stuck too, is blocked on a receive that comes
before the send in its program, hence at a strictly lower level.
-/

namespace Mscclpp.Bootstrap

/-- What one hook invocation does on the bootstrap channel. -/
inductive Action (Msg : Type)
  /-- `bootstrap->send(msg, peer, tag)`: never blocks. -/
  | send (peer : Nat) (tag : Int) (msg : Msg)
  /-- `bootstrap->recv(data, peer, tag)`: blocks until a message is there. -/
  | recv (peer : Nat) (tag : Int)
  /-- A hook that does not touch the channel. -/
  | skip

namespace Action

variable {Msg : Type}

/-- Is the action a receive? -/
def IsRecv : Action Msg → Prop
  | .recv .. => True
  | _ => False

/-- Is the action a send? -/
def IsSend : Action Msg → Prop
  | .send .. => True
  | _ => False

end Action

/-- One hook invocation of a rank's run, labelled with the protocol step it belongs to. -/
structure Instr (Label Msg : Type) where
  label : Label
  action : Action Msg

/-- A channel: `(source, destination, tag)`. -/
abbrev Channel := Nat × Nat × Int

variable {Label Msg : Type}

/-! ## Channels seen from the programs -/

/-- The sends of a program onto the channel toward `dst` with `tag`, in order. -/
def sendsTo (dst : Nat) (tag : Int) : List (Instr Label Msg) → List (Label × Msg) :=
  List.filterMap fun i =>
    match i.action with
    | .send d t m => if d = dst ∧ t = tag then some (i.label, m) else none
    | _ => none

/-- The receives of a program from the channel of `src` with `tag`, in order. -/
def recvsFrom (src : Nat) (tag : Int) : List (Instr Label Msg) → List Label :=
  List.filterMap fun i =>
    match i.action with
    | .recv s t => if s = src ∧ t = tag then some i.label else none
    | _ => none

section Streams

variable {dst src : Nat} {tag : Int}

@[simp] theorem sendsTo_nil : sendsTo dst tag ([] : List (Instr Label Msg)) = [] := rfl

@[simp] theorem sendsTo_append (l₁ l₂ : List (Instr Label Msg)) :
    sendsTo dst tag (l₁ ++ l₂) = sendsTo dst tag l₁ ++ sendsTo dst tag l₂ :=
  List.filterMap_append _ _ _

@[simp] theorem recvsFrom_nil : recvsFrom src tag ([] : List (Instr Label Msg)) = [] := rfl

@[simp] theorem recvsFrom_append (l₁ l₂ : List (Instr Label Msg)) :
    recvsFrom src tag (l₁ ++ l₂) = recvsFrom src tag l₁ ++ recvsFrom src tag l₂ :=
  List.filterMap_append _ _ _

@[simp] theorem sendsTo_cons_send (ℓ : Label) (d : Nat) (t : Int) (m : Msg)
    (l : List (Instr Label Msg)) :
    sendsTo dst tag (⟨ℓ, .send d t m⟩ :: l) =
      (if d = dst ∧ t = tag then [(ℓ, m)] else []) ++ sendsTo dst tag l := by
  by_cases h : d = dst ∧ t = tag <;> simp [sendsTo, h]

@[simp] theorem sendsTo_cons_recv (ℓ : Label) (s : Nat) (t : Int) (l : List (Instr Label Msg)) :
    sendsTo dst tag (⟨ℓ, .recv s t⟩ :: l) = sendsTo dst tag l := by
  simp [sendsTo]

@[simp] theorem sendsTo_cons_skip (ℓ : Label) (l : List (Instr Label Msg)) :
    sendsTo dst tag (⟨ℓ, .skip⟩ :: l) = sendsTo dst tag l := by
  simp [sendsTo]

@[simp] theorem recvsFrom_cons_send (ℓ : Label) (d : Nat) (t : Int) (m : Msg)
    (l : List (Instr Label Msg)) :
    recvsFrom src tag (⟨ℓ, .send d t m⟩ :: l) = recvsFrom src tag l := by
  simp [recvsFrom]

@[simp] theorem recvsFrom_cons_recv (ℓ : Label) (s : Nat) (t : Int) (l : List (Instr Label Msg)) :
    recvsFrom src tag (⟨ℓ, .recv s t⟩ :: l) =
      (if s = src ∧ t = tag then [ℓ] else []) ++ recvsFrom src tag l := by
  by_cases h : s = src ∧ t = tag <;> simp [recvsFrom, h]

@[simp] theorem recvsFrom_cons_skip (ℓ : Label) (l : List (Instr Label Msg)) :
    recvsFrom src tag (⟨ℓ, .skip⟩ :: l) = recvsFrom src tag l := by
  simp [recvsFrom]

theorem isPrefix_sendsTo {l₁ l₂ : List (Instr Label Msg)} (h : l₁ <+: l₂) :
    sendsTo dst tag l₁ <+: sendsTo dst tag l₂ :=
  h.filterMap _

theorem isPrefix_recvsFrom {l₁ l₂ : List (Instr Label Msg)} (h : l₁ <+: l₂) :
    recvsFrom src tag l₁ <+: recvsFrom src tag l₂ :=
  h.filterMap _

/-- A send to `(dst, tag)` somewhere in a program is an invocation of it. -/
theorem exists_of_mem_sendsTo {l : List (Instr Label Msg)} {ℓ : Label} {m : Msg}
    (h : (ℓ, m) ∈ sendsTo dst tag l) : ∃ i ∈ l, i.label = ℓ ∧ i.action = .send dst tag m := by
  obtain ⟨i, hi, hsome⟩ := List.mem_filterMap.mp h
  obtain ⟨ℓ', a⟩ := i
  cases a with
  | send d t m' =>
    by_cases hdt : d = dst ∧ t = tag
    · simp only [hdt, and_self, ite_true, Option.some.injEq, Prod.mk.injEq] at hsome
      obtain ⟨rfl, rfl⟩ := hsome
      obtain ⟨rfl, rfl⟩ := hdt
      exact ⟨_, hi, rfl, rfl⟩
    · simp [hdt] at hsome
  | recv => simp at hsome
  | skip => simp at hsome

end Streams

/-! ## The world and its steps -/

/-- The global state: each rank's program counter, the messages in flight on each channel,
and what each executed `recv` returned, by rank and invocation index. -/
structure World (Msg : Type) where
  pc : Nat → Nat
  chan : Channel → List Msg
  got : Nat × Nat → Option Msg

/-- Nothing run, nothing in flight. -/
def World.init : World Msg := ⟨fun _ => 0, fun _ => [], fun _ => none⟩

/-- Rank `r`'s counter moved one invocation on. -/
def advance (pc : Nat → Nat) (r : Nat) : Nat → Nat :=
  Function.update pc r (pc r + 1)

section Semantics

variable (prog : Nat → List (Instr Label Msg))

/-- Rank `r` runs its next invocation, if it can: a `send` appends to its channel, a
`recv` takes the head of its channel and cannot run on an empty one. -/
def stepRank (r : Nat) (w : World Msg) : Option (World Msg) :=
  match (prog r)[w.pc r]? with
  | none => none
  | some i =>
    match i.action with
    | .send dst tag m =>
      some ⟨advance w.pc r, Function.update w.chan (r, dst, tag) (w.chan (r, dst, tag) ++ [m]),
        w.got⟩
    | .recv src tag =>
      match w.chan (src, r, tag) with
      | [] => none
      | m :: rest =>
        some ⟨advance w.pc r, Function.update w.chan (src, r, tag) rest,
          Function.update w.got (r, w.pc r) (some m)⟩
    | .skip => some ⟨advance w.pc r, w.chan, w.got⟩

/-- Some rank runs its next invocation. -/
def Step (w w' : World Msg) : Prop := ∃ r, stepRank prog r w = some w'

/-- The worlds some interleaving of the ranks' steps reaches. -/
def Reachable : World Msg → Prop := Relation.ReflTransGen (Step prog) World.init

/-- Rank `r` has run its whole program. -/
def Finished (w : World Msg) (r : Nat) : Prop := (prog r).length ≤ w.pc r

/-- Some rank has not finished and no rank can step. -/
def Deadlock (w : World Msg) : Prop :=
  (∃ r, ¬ Finished prog w r) ∧ ∀ r, stepRank prog r w = none

/-- **Inversion of a step**: everything one invocation can do. -/
theorem stepRank_cases {r : Nat} {w w' : World Msg} (h : stepRank prog r w = some w') :
    ∃ i, (prog r)[w.pc r]? = some i ∧ w'.pc = advance w.pc r ∧
      ((∃ dst tag m, i.action = .send dst tag m ∧
          w'.chan = Function.update w.chan (r, dst, tag) (w.chan (r, dst, tag) ++ [m]) ∧
          w'.got = w.got) ∨
        (∃ src tag m rest, i.action = .recv src tag ∧ w.chan (src, r, tag) = m :: rest ∧
          w'.chan = Function.update w.chan (src, r, tag) rest ∧
          w'.got = Function.update w.got (r, w.pc r) (some m)) ∨
        (i.action = .skip ∧ w'.chan = w.chan ∧ w'.got = w.got)) := by
  unfold stepRank at h
  split at h
  · cases h
  · rename_i i hi
    refine ⟨i, hi, ?_⟩
    split at h
    · cases h; exact ⟨rfl, .inl ⟨_, _, _, ‹_›, rfl, rfl⟩⟩
    · split at h
      · cases h
      · cases h; exact ⟨rfl, .inr (.inl ⟨_, _, _, _, ‹_›, ‹_›, rfl, rfl⟩)⟩
    · cases h; exact ⟨rfl, .inr (.inr ⟨‹_›, rfl, rfl⟩)⟩

/-! ## The invariant: the world is a function of the program counters -/

/-- What channel `c` holds once the ranks have run `pc`: what its sender has sent on it,
less as many messages as its receiver has received from it. -/
def inFlight (pc : Nat → Nat) (c : Channel) : List Msg :=
  ((sendsTo c.2.1 c.2.2 ((prog c.1).take (pc c.1))).map Prod.snd).drop
    (recvsFrom c.1 c.2.2 ((prog c.2.1).take (pc c.2.1))).length

/-- What invocation `k` of rank `r` has received once the ranks have run `pc`: if it is a
`recv` already run, the message its sender put at the same position of the channel. -/
def expectedGot (pc : Nat → Nat) (rk : Nat × Nat) : Option Msg :=
  if rk.2 < pc rk.1 then
    match (prog rk.1)[rk.2]? with
    | some ⟨_, .recv s t⟩ =>
      ((sendsTo rk.1 t (prog s)).map Prod.snd)[(recvsFrom s t ((prog rk.1).take rk.2)).length]?
    | _ => none
  else none

/-- The invariant of every reachable world. -/
structure Inv (w : World Msg) : Prop where
  pc_le : ∀ r, w.pc r ≤ (prog r).length
  recvs_le : ∀ s d t, (recvsFrom s t ((prog d).take (w.pc d))).length ≤
    (sendsTo d t ((prog s).take (w.pc s))).length
  chan_eq : w.chan = inFlight prog w.pc
  got_eq : w.got = expectedGot prog w.pc

theorem inv_init : Inv prog (World.init : World Msg) :=
  ⟨fun _ => Nat.zero_le _, fun _ _ _ => by simp [World.init],
    funext fun _ => by simp [World.init, inFlight],
    funext fun _ => by simp [World.init, expectedGot]⟩

section Advance

variable {prog} {pc : Nat → Nat} {r : Nat} {i : Instr Label Msg}

theorem take_advance (h : (prog r)[pc r]? = some i) (x : Nat) :
    (prog x).take (advance pc r x) = (prog x).take (pc x) ++ if x = r then [i] else [] := by
  by_cases hx : x = r
  · subst hx; simp [advance, List.take_succ, h]
  · simp [advance, Function.update_noteq hx, hx]

theorem expectedGot_advance_of_ne {x k : Nat} (hne : (x, k) ≠ (r, pc r)) :
    expectedGot prog (advance pc r) (x, k) = expectedGot prog pc (x, k) := by
  by_cases hx : x = r
  · subst hx
    have hk : k ≠ pc x := fun hk => hne (by rw [hk])
    have hlt : k < pc x + 1 ↔ k < pc x := by omega
    simp [expectedGot, advance, hlt]
  · simp [expectedGot, advance, Function.update_noteq hx]

theorem expectedGot_advance_self :
    expectedGot prog (advance pc r) (r, pc r) =
      match (prog r)[pc r]? with
      | some ⟨_, .recv s t⟩ =>
        ((sendsTo r t (prog s)).map Prod.snd)[(recvsFrom s t ((prog r).take (pc r))).length]?
      | _ => none := by
  simp [expectedGot, advance]

theorem sendsTo_take_advance (h : (prog r)[pc r]? = some i) (x d : Nat) (t : Int) :
    sendsTo d t ((prog x).take (advance pc r x)) =
      sendsTo d t ((prog x).take (pc x)) ++ if x = r then sendsTo d t [i] else [] := by
  rw [take_advance h]; split_ifs <;> simp

theorem recvsFrom_take_advance (h : (prog r)[pc r]? = some i) (x s : Nat) (t : Int) :
    recvsFrom s t ((prog x).take (advance pc r x)) =
      recvsFrom s t ((prog x).take (pc x)) ++ if x = r then recvsFrom s t [i] else [] := by
  rw [take_advance h]; split_ifs <;> simp

theorem advance_le (hlt : pc r < (prog r).length) (hle : ∀ x, pc x ≤ (prog x).length) (x : Nat) :
    advance pc r x ≤ (prog x).length := by
  by_cases hx : x = r
  · subst hx; simpa [advance] using hlt
  · simpa [advance, Function.update_noteq hx] using hle x

end Advance

theorem isPrefix_getElem? {α : Type} {l₁ l₂ : List α} {n : Nat} {a : α} (h : l₁ <+: l₂)
    (ha : l₁[n]? = some a) : l₂[n]? = some a := by
  obtain ⟨t, rfl⟩ := h
  rwa [List.getElem?_append_left (List.getElem?_eq_some_iff.mp ha).1]

/-- The head of a non-empty channel is the message its sender sent at the position the
receiver has reached. -/
theorem getElem?_sendsTo_of_inFlight {pc : Nat → Nat} {s d : Nat} {t : Int} {m : Msg}
    {rest : List Msg} (h : inFlight prog pc (s, d, t) = m :: rest) :
    ((sendsTo d t (prog s)).map Prod.snd)[(recvsFrom s t ((prog d).take (pc d))).length]? =
      some m := by
  refine isPrefix_getElem? ((isPrefix_sendsTo <| List.take_prefix (pc s) (prog s)).map _) ?_
  have := congrArg (·[0]?) h
  simpa [inFlight, List.getElem?_drop] using this

/-- **Step lemma**: one step of any rank keeps the invariant. -/
theorem stepRank_inv {r : Nat} {w w' : World Msg} (hinv : Inv prog w)
    (h : stepRank prog r w = some w') : Inv prog w' := by
  obtain ⟨⟨ℓ, a⟩, hi, hpc, hcase⟩ := stepRank_cases prog h
  have hlt : w.pc r < (prog r).length := (List.getElem?_eq_some_iff.mp hi).1
  have hle := advance_le hlt hinv.pc_le
  rcases hcase with ⟨dst, tag, m, rfl, hchan, hgot⟩ | ⟨src, tag, m, rest, rfl, hhead, hchan, hgot⟩ |
    ⟨rfl, hchan, hgot⟩
  · -- a send appends to its channel
    refine ⟨hpc ▸ hle, fun s d t => ?_, ?_, ?_⟩
    · rw [hpc, sendsTo_take_advance hi, recvsFrom_take_advance hi]
      have := hinv.recvs_le s d t
      split_ifs <;> simp <;> omega
    · rw [hchan, hpc, hinv.chan_eq]
      funext ⟨s, d, t⟩
      by_cases hc : (s, d, t) = (r, dst, tag)
      · simp only [Prod.mk.injEq] at hc
        obtain ⟨rfl, rfl, rfl⟩ := hc
        have := hinv.recvs_le s d t
        simp only [Function.update_same, inFlight, sendsTo_take_advance hi,
          recvsFrom_take_advance hi]
        simp only [ite_true, sendsTo_cons_send, and_self, sendsTo_nil, List.append_nil,
          recvsFrom_cons_send, recvsFrom_nil, ite_self, List.map_append, List.map_cons,
          List.map_nil]
        rw [List.drop_append_of_le_length (by simpa using this)]
      · rw [Function.update_noteq hc]
        have hne : s = r → ¬ (dst = d ∧ tag = t) := by
          rintro rfl ⟨rfl, rfl⟩; exact hc rfl
        simp only [inFlight, sendsTo_take_advance hi, recvsFrom_take_advance hi]
        by_cases hs : s = r <;> simp [hs, hne]
    · rw [hgot, hpc, hinv.got_eq]
      funext ⟨x, k⟩
      by_cases hxk : (x, k) = (r, w.pc r)
      · rw [hxk, expectedGot_advance_self, hi]; simp [expectedGot]
      · rw [expectedGot_advance_of_ne hxk]
  · -- a receive takes the head of its channel
    have hfl : inFlight prog w.pc (src, r, tag) = m :: rest := hinv.chan_eq ▸ hhead
    refine ⟨hpc ▸ hle, fun s d t => ?_, ?_, ?_⟩
    · rw [hpc, sendsTo_take_advance hi, recvsFrom_take_advance hi]
      have := hinv.recvs_le s d t
      have hpos : (recvsFrom src tag ((prog r).take (w.pc r))).length <
          (sendsTo r tag ((prog src).take (w.pc src))).length := by
        have := congrArg List.length hfl
        simp only [inFlight, List.length_drop, List.length_map, List.length_cons] at this
        omega
      simp only [sendsTo_cons_recv, recvsFrom_cons_recv, sendsTo_nil, recvsFrom_nil,
        List.append_nil, ite_self]
      split_ifs <;> simp_all; omega
    · rw [hchan, hpc, hinv.chan_eq]
      funext ⟨s, d, t⟩
      by_cases hc : (s, d, t) = (src, r, tag)
      · simp only [Prod.mk.injEq] at hc
        obtain ⟨rfl, rfl, rfl⟩ := hc
        simp only [Function.update_same, inFlight, sendsTo_take_advance hi,
          recvsFrom_take_advance hi]
        simp only [inFlight] at hfl
        simp [← List.tail_drop, hfl]
      · rw [Function.update_noteq hc]
        have hne : d = r → ¬ (src = s ∧ tag = t) := by
          rintro rfl ⟨rfl, rfl⟩; exact hc rfl
        simp only [inFlight, sendsTo_take_advance hi, recvsFrom_take_advance hi]
        by_cases hd : d = r <;> simp [hd, hne]
    · rw [hgot, hpc, hinv.got_eq]
      funext ⟨x, k⟩
      by_cases hxk : (x, k) = (r, w.pc r)
      · rw [hxk, Function.update_same, expectedGot_advance_self, hi]
        exact (getElem?_sendsTo_of_inFlight prog hfl).symm
      · rw [Function.update_noteq hxk, expectedGot_advance_of_ne hxk]
  · -- a hook that does not touch the channel
    refine ⟨hpc ▸ hle, fun s d t => ?_, ?_, ?_⟩
    · rw [hpc, sendsTo_take_advance hi, recvsFrom_take_advance hi]
      have := hinv.recvs_le s d t
      split_ifs <;> simp <;> omega
    · rw [hchan, hpc, hinv.chan_eq]
      funext ⟨s, d, t⟩
      simp only [inFlight, sendsTo_take_advance hi, recvsFrom_take_advance hi]
      split_ifs <;> simp
    · rw [hgot, hpc, hinv.got_eq]
      funext ⟨x, k⟩
      by_cases hxk : (x, k) = (r, w.pc r)
      · rw [hxk, expectedGot_advance_self, hi]; simp [expectedGot]
      · rw [expectedGot_advance_of_ne hxk]

/-- **Run lemma**: the invariant holds in every reachable world. -/
theorem reachable_inv {w : World Msg} (hw : Reachable prog w) : Inv prog w := by
  induction hw with
  | refl => exact inv_init prog
  | tail _ hstep ih =>
    obtain ⟨r, hr⟩ := hstep
    exact stepRank_inv prog ih hr

/-! ## What a receive returns -/

/-- The receive at `k` is the receive of position `(recvsFrom s t (l.take k)).length` on its
channel. -/
theorem recvsFrom_getElem?_of_getElem? {l : List (Instr Label Msg)} {k s : Nat} {t : Int}
    {ℓ : Label} (h : l[k]? = some ⟨ℓ, .recv s t⟩) :
    (recvsFrom s t l)[(recvsFrom s t (l.take k)).length]? = some ℓ := by
  have hk : k < l.length := (List.getElem?_eq_some_iff.mp h).1
  have hd : l.drop k = ⟨ℓ, .recv s t⟩ :: l.drop (k + 1) := by
    rw [List.drop_eq_getElem_cons hk, (List.getElem?_eq_some_iff.mp h).2]
  have hsplit : recvsFrom s t l = recvsFrom s t (l.take k) ++ ℓ :: recvsFrom s t (l.drop (k + 1)) := by
    conv_lhs => rw [← List.take_append_drop k l, hd]
    simp
  rw [hsplit, List.getElem?_append_right le_rfl, Nat.sub_self]
  simp

theorem recvsFrom_take_lt {l : List (Instr Label Msg)} {k n s : Nat} {t : Int} {ℓ : Label}
    (h : l[k]? = some ⟨ℓ, .recv s t⟩) (hkn : k < n) :
    (recvsFrom s t (l.take k)).length < (recvsFrom s t (l.take n)).length := by
  have hlen : (recvsFrom s t (l.take (k + 1))).length ≤ (recvsFrom s t (l.take n)).length :=
    (isPrefix_recvsFrom <| List.take_prefix_take_left l hkn).length_le
  have hsucc : l.take (k + 1) = l.take k ++ [⟨ℓ, .recv s t⟩] := by
    rw [List.take_succ, h]; rfl
  simp only [hsucc, recvsFrom_append, recvsFrom_cons_recv, and_self, ite_true,
    recvsFrom_nil, List.append_nil, List.length_append, List.length_singleton] at hlen
  omega

variable {prog}

/-- **FIFO delivery**: in every reachable world, what invocation `k` of rank `r` received
is a receive already run, and the message is the one its sender put on the channel at the
position of that receive among `r`'s receives from the channel. -/
theorem reachable_got {w : World Msg} (hw : Reachable prog w) {r k : Nat} {m : Msg}
    (h : w.got (r, k) = some m) :
    ∃ ℓ s t, (prog r)[k]? = some ⟨ℓ, .recv s t⟩ ∧ k < w.pc r ∧
      ((sendsTo r t (prog s)).map Prod.snd)[(recvsFrom s t ((prog r).take k)).length]? =
        some m := by
  rw [(reachable_inv prog hw).got_eq] at h
  simp only [expectedGot] at h
  split_ifs at h with hk
  split at h
  · exact ⟨_, _, _, ‹_›, hk, h⟩
  · cases h

/-- A receive already run has received something. -/
theorem reachable_got_isSome {w : World Msg} (hw : Reachable prog w) {r k s : Nat} {t : Int}
    {ℓ : Label} (hi : (prog r)[k]? = some ⟨ℓ, .recv s t⟩) (hk : k < w.pc r) :
    (w.got (r, k)).isSome := by
  have hinv := reachable_inv prog hw
  have hlt := recvsFrom_take_lt hi hk
  have hle := hinv.recvs_le s r t
  have hfull : (sendsTo r t ((prog s).take (w.pc s))).length ≤ (sendsTo r t (prog s)).length :=
    (isPrefix_sendsTo <| List.take_prefix (w.pc s) (prog s)).length_le
  rw [hinv.got_eq]
  simp only [expectedGot, hk, ite_true, hi, List.getElem?_map, Option.isSome_map]
  rw [List.getElem?_eq_getElem (by omega)]
  rfl

variable (prog)

/-- *Matched*: on every channel the labels of the sends, in order, are the labels of the
receives, in order. -/
def Matched : Prop :=
  ∀ s d t, (sendsTo d t (prog s)).map Prod.fst = recvsFrom s t (prog d)

variable {prog}

/-- **Delivery within a step**: for matched programs, the message a receive got is the one
its sender sent at the same position of the channel, by an invocation with the same label. -/
theorem reachable_got_matched (hmatch : Matched prog) {w : World Msg} (hw : Reachable prog w)
    {r k : Nat} {m : Msg} (h : w.got (r, k) = some m) :
    ∃ ℓ s t, (prog r)[k]? = some ⟨ℓ, .recv s t⟩ ∧ k < w.pc r ∧
      (sendsTo r t (prog s))[(recvsFrom s t ((prog r).take k)).length]? = some (ℓ, m) := by
  obtain ⟨ℓ, s, t, hi, hk, hm⟩ := reachable_got hw h
  have hl := recvsFrom_getElem?_of_getElem? hi
  rw [← hmatch] at hl
  refine ⟨ℓ, s, t, hi, hk, ?_⟩
  rw [List.getElem?_map] at hm hl
  cases hc : (sendsTo r t (prog s))[(recvsFrom s t ((prog r).take k)).length]? with
  | none => simp [hc] at hm
  | some p => simp only [hc, Option.map_some', Option.some.injEq] at hm hl; simp [← hm, ← hl]

/-! ## No deadlock -/

variable (prog)

/-- *Two-phase*: within a rank, a receive is never followed by a send of the same or a
lower level. -/
def TwoPhase (level : Label → Nat) : Prop :=
  ∀ r, (prog r).Pairwise fun a b => a.action.IsRecv → b.action.IsSend → level a.label < level b.label

/-- Rank `r` waits, at an invocation of level `n`, on a `recv` whose channel is empty. -/
def BlockedAt (level : Label → Nat) (w : World Msg) (r n : Nat) : Prop :=
  ∃ i s t, (prog r)[w.pc r]? = some i ∧ i.action = .recv s t ∧ w.chan (s, r, t) = [] ∧
    level i.label = n

variable {prog}

/-- A rank that has not finished and cannot step is blocked on a receive. -/
theorem blockedAt_of_stuck (level : Label → Nat) {w : World Msg} {r : Nat}
    (hstuck : stepRank prog r w = none) (hr : ¬ Finished prog w r) :
    ∃ n, BlockedAt prog level w r n := by
  have hlt : w.pc r < (prog r).length := Nat.lt_of_not_le hr
  obtain ⟨i, hi⟩ : ∃ i, (prog r)[w.pc r]? = some i := ⟨_, List.getElem?_eq_getElem hlt⟩
  unfold stepRank at hstuck
  rw [hi] at hstuck
  obtain ⟨ℓ, a⟩ := i
  cases a with
  | send => cases hstuck
  | recv s t =>
    simp only at hstuck
    split at hstuck
    · exact ⟨_, _, s, t, hi, rfl, ‹_›, rfl⟩
    · cases hstuck
  | skip => cases hstuck

/-- **The descent**: in a world where no rank can step, the sender a blocked rank waits
for is itself blocked, at a strictly lower level. -/
theorem blockedAt_descent {level : Label → Nat} (hmatch : Matched prog)
    (hphase : TwoPhase prog level) {w : World Msg} (hinv : Inv prog w)
    (hstuck : ∀ r, stepRank prog r w = none) {r n : Nat} (hb : BlockedAt prog level w r n) :
    ∃ r' n', n' < n ∧ BlockedAt prog level w r' n' := by
  obtain ⟨⟨ℓ, a⟩, s, t, hi, rfl, hempty, rfl⟩ := hb
  set c := (recvsFrom s t ((prog r).take (w.pc r))).length
  -- the sender has sent exactly what the receiver has taken
  have hsent : (sendsTo r t ((prog s).take (w.pc s))).length = c := by
    have h0 : inFlight prog w.pc (s, r, t) = [] := hinv.chan_eq ▸ hempty
    simp only [inFlight, List.drop_eq_nil_iff, List.length_map] at h0
    exact le_antisymm h0 (hinv.recvs_le s r t)
  -- so the send the receiver waits for is still ahead in the sender's program
  have hlabel : ((sendsTo r t (prog s)).map Prod.fst)[c]? = some ℓ := by
    rw [hmatch]; exact recvsFrom_getElem?_of_getElem? hi
  rw [← List.take_append_drop (w.pc s) (prog s), sendsTo_append, List.map_append,
    List.getElem?_append_right (by simp [hsent]), List.length_map, hsent, Nat.sub_self] at hlabel
  obtain ⟨⟨ℓ', m⟩, rest, hcons⟩ :
      ∃ p rest, sendsTo r t ((prog s).drop (w.pc s)) = p :: rest := by
    cases hq : sendsTo r t ((prog s).drop (w.pc s)) with
    | nil => simp [hq] at hlabel
    | cons p rest => exact ⟨p, rest, rfl⟩
  have hℓ : ℓ' = ℓ := by simpa [hcons] using hlabel
  subst hℓ
  -- the sender has not finished, so it is blocked too
  have hs : ¬ Finished prog w s := by
    intro hfin
    rw [List.drop_eq_nil_of_le hfin] at hcons
    cases hcons
  obtain ⟨n', ⟨j, s', t', hj, hjact, hjempty, rfl⟩⟩ := blockedAt_of_stuck level (hstuck s) hs
  refine ⟨s, _, ?_, j, s', t', hj, hjact, hjempty, rfl⟩
  -- and the receive it waits at comes before the send
  have hdrop : (prog s).drop (w.pc s) = j :: (prog s).drop (w.pc s + 1) := by
    rw [List.drop_eq_getElem_cons (Nat.lt_of_not_le hs), (List.getElem?_eq_some_iff.mp hj).2]
  obtain ⟨ℓj, aj⟩ := j
  simp only at hjact
  subst hjact
  rw [hdrop, sendsTo_cons_recv] at hcons
  obtain ⟨b, hb, hbℓ, hbact⟩ := exists_of_mem_sendsTo (hcons ▸ List.mem_cons_self _ _)
  have hpw := (hphase s).drop (n := w.pc s)
  rw [hdrop, List.pairwise_cons] at hpw
  have := hpw.1 b hb trivial (by rw [hbact]; trivial)
  rwa [hbℓ] at this

/-- **No reachable world is a deadlock**, for matched two-phase programs: in every
interleaving of the ranks' steps, as long as some rank has not finished, some rank can
step. -/
theorem reachable_not_deadlock {level : Label → Nat} (hmatch : Matched prog)
    (hphase : TwoPhase prog level) {w : World Msg} (hw : Reachable prog w) :
    ¬ Deadlock prog w := by
  rintro ⟨⟨r, hr⟩, hstuck⟩
  have hinv := reachable_inv prog hw
  have key : ∀ n r, ¬ BlockedAt prog level w r n := by
    intro n
    induction n using Nat.strong_induction_on with
    | _ n ih =>
      intro r hb
      obtain ⟨r', n', hlt, hb'⟩ := blockedAt_descent hmatch hphase hinv hstuck hb
      exact ih n' hlt r' hb'
  obtain ⟨n, hb⟩ := blockedAt_of_stuck level (hstuck r) hr
  exact key n r hb

/-! ## Every run ends, and ends complete -/

variable (prog)

/-- The invocations ranks `0, …, n-1` have still to run once the ranks have run `pc`. -/
def workLeft : Nat → (Nat → Nat) → Nat
  | 0, _ => 0
  | n + 1, pc => workLeft n pc + ((prog n).length - pc n)

variable {prog}

theorem workLeft_advance_of_le {n r : Nat} (pc : Nat → Nat) (h : n ≤ r) :
    workLeft prog n (advance pc r) = workLeft prog n pc := by
  induction n with
  | zero => rfl
  | succ n ih =>
    have hn : advance pc r n = pc n := Function.update_noteq (Nat.ne_of_lt h) _ _
    rw [workLeft, workLeft, ih (Nat.le_of_succ_le h), hn]

/-- A step of rank `r < n` takes one invocation off the work left. -/
theorem workLeft_advance_lt {n r : Nat} {pc : Nat → Nat} (hr : r < n)
    (hlt : pc r < (prog r).length) : workLeft prog n (advance pc r) < workLeft prog n pc := by
  induction n with
  | zero => exact absurd hr (Nat.not_lt_zero r)
  | succ n ih =>
    rw [workLeft, workLeft]
    obtain hr | rfl := Nat.lt_succ_iff_lt_or_eq.1 hr
    · have hn : advance pc r n = pc n := Function.update_noteq (Nat.ne_of_gt hr) _ _
      have := ih hr
      omega
    · have hr : advance pc r r = pc r + 1 := Function.update_same _ _ _
      rw [workLeft_advance_of_le pc le_rfl, hr]
      omega

/-- **Step lemma**: when only the ranks below `n` have programs, every step takes one
invocation off the work left. -/
theorem workLeft_step {n : Nat} (hn : ∀ r, n ≤ r → prog r = []) {w w' : World Msg}
    (h : Step prog w w') : workLeft prog n w'.pc < workLeft prog n w.pc := by
  obtain ⟨r, hr⟩ := h
  obtain ⟨i, hi, hpc, -⟩ := stepRank_cases prog hr
  have hlt : w.pc r < (prog r).length := (List.getElem?_eq_some_iff.1 hi).1
  have hrn : r < n := Nat.lt_of_not_le fun hle => by simp [hn r hle] at hlt
  rw [hpc]
  exact workLeft_advance_lt hrn hlt

/-- **Every interleaving terminates**: when only the ranks below `n` have programs, there is
no infinite run of steps. -/
theorem step_wellFounded {n : Nat} (hn : ∀ r, n ≤ r → prog r = []) :
    WellFounded (fun w' w : World Msg => Step prog w w') :=
  Subrelation.wf (fun h => workLeft_step hn h)
    (InvImage.wf (fun w : World Msg => workLeft prog n w.pc) Nat.lt_wfRel.wf)

/-- A reachable world where no rank can step has every rank finished, for matched
two-phase programs. -/
theorem finished_of_stuck {level : Label → Nat} (hmatch : Matched prog)
    (hphase : TwoPhase prog level) {w : World Msg} (hw : Reachable prog w)
    (hstuck : ∀ r, stepRank prog r w = none) (r : Nat) : Finished prog w r :=
  by_contra fun hr => reachable_not_deadlock hmatch hphase hw ⟨⟨r, hr⟩, hstuck⟩

/-- **Nothing is left in flight** once every rank has finished matched programs: each
channel's receiver has taken as many messages as its sender sent. -/
theorem chan_eq_nil_of_finished (hmatch : Matched prog) {w : World Msg} (hinv : Inv prog w)
    (hfin : ∀ r, Finished prog w r) (c : Channel) : w.chan c = [] := by
  obtain ⟨s, d, t⟩ := c
  rw [hinv.chan_eq]
  simp [inFlight, List.take_of_length_le (hfin s), List.take_of_length_le (hfin d), ← hmatch s d t]

end Semantics

end Mscclpp.Bootstrap
