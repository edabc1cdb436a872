import Mathlib.Data.List.Basic

/-!
# Bounded channels

A `SyncChannel α cap` is the buffered half of `mpsc::sync_channel`: a queue that never holds more
than `cap` items, the bound being part of the value. The sender only ever tries to send, so an
item that finds the queue full is dropped (`trySend`).

The receiver empties the channel in a loop while the sender keeps sending. `recvLoop` is that
loop: before each receive the environment says what the sender tried to send in the meantime, and
the loop ends after a number of receives, or earlier, at the first receive that finds nothing.

* `SyncChannel.recvLoop_conserves` — whatever the interleaving, what was queued followed by what
  was accepted is what was received followed by what is left queued.
* `SyncChannel.recvLoop_drains` — a loop allowed one receive more than there can be items leaves
  the channel empty.
-/

namespace LibRustdesk

/-- A queue of at most `cap` items. -/
structure SyncChannel (α : Type*) (cap : ℕ) where
  queue : List α
  length_le : queue.length ≤ cap

namespace SyncChannel

variable {α : Type*} {cap : ℕ}

/-- The channel as `sync_channel` returns it. -/
def empty : SyncChannel α cap := ⟨[], Nat.zero_le cap⟩

/-- `SyncSender::try_send`: the items accepted (one or none) and the channel. -/
def trySend (c : SyncChannel α cap) (a : α) : List α × SyncChannel α cap :=
  if h : c.queue.length < cap then
    ([a], ⟨c.queue ++ [a], by rw [List.length_append]; exact h⟩)
  else ([], c)

def sendAll (c : SyncChannel α cap) : List α → List α × SyncChannel α cap
  | [] => ([], c)
  | a :: as =>
    let (first, c) := c.trySend a
    let (accepted, c) := c.sendAll as
    (first ++ accepted, c)

def tryRecv (c : SyncChannel α cap) : Option α × SyncChannel α cap :=
  match c with
  | ⟨[], h⟩ => (none, ⟨[], h⟩)
  | ⟨a :: as, h⟩ => (some a, ⟨as, Nat.le_of_succ_le h⟩)

/-- What a receive loop did: the items the channel accepted while it ran, the items received, and
the channel it leaves. -/
structure Drained (α : Type*) (cap : ℕ) where
  accepted : List α
  received : List α
  channel : SyncChannel α cap

/-- A loop of at most so many receives; `sent` lists what the sender tries to send before each. -/
def recvLoop : ℕ → List (List α) → SyncChannel α cap → Drained α cap
  | 0, _, c => ⟨[], [], c⟩
  | n + 1, sent, c =>
    let (accepted, c) := c.sendAll (sent.headD [])
    match c.tryRecv with
    | (none, c) => ⟨accepted, [], c⟩
    | (some a, c) =>
      let rest := recvLoop n sent.tail c
      ⟨accepted ++ rest.accepted, a :: rest.received, rest.channel⟩

theorem trySend_conserves (c : SyncChannel α cap) (a : α) :
    (c.trySend a).2.queue = c.queue ++ (c.trySend a).1 := by
  unfold trySend
  split
  · rfl
  · exact (List.append_nil _).symm

theorem sendAll_conserves (c : SyncChannel α cap) (as : List α) :
    (c.sendAll as).2.queue = c.queue ++ (c.sendAll as).1 := by
  induction as generalizing c with
  | nil => exact (List.append_nil _).symm
  | cons a as ih =>
    calc (c.sendAll (a :: as)).2.queue
        = (c.trySend a).2.queue ++ ((c.trySend a).2.sendAll as).1 := ih _
      _ = c.queue ++ (c.sendAll (a :: as)).1 := by
        rw [trySend_conserves, List.append_assoc]
        rfl

theorem sendAll_length_le (c : SyncChannel α cap) (as : List α) :
    (c.sendAll as).1.length ≤ as.length := by
  induction as generalizing c with
  | nil => exact Nat.le_refl _
  | cons a as ih =>
    have hone : (c.trySend a).1.length ≤ 1 := by
      unfold trySend
      split <;> simp
    have hrest := ih (c.trySend a).2
    show ((c.trySend a).1 ++ ((c.trySend a).2.sendAll as).1).length ≤ as.length + 1
    rw [List.length_append]
    omega

theorem recvLoop_conserves (n : ℕ) (sent : List (List α)) (c : SyncChannel α cap) :
    c.queue ++ (recvLoop n sent c).accepted =
      (recvLoop n sent c).received ++ (recvLoop n sent c).channel.queue := by
  induction n generalizing sent c with
  | zero => exact List.append_nil _
  | succ n ih =>
    have hsend := sendAll_conserves c (sent.headD [])
    rcases hs : c.sendAll (sent.headD []) with ⟨accepted, ⟨queue, hle⟩⟩
    rw [hs] at hsend
    cases queue with
    | nil =>
      simp only [recvLoop, hs, tryRecv]
      exact hsend.symm
    | cons a as =>
      have hrest := ih sent.tail ⟨as, Nat.le_of_succ_le hle⟩
      simp only [recvLoop, hs, tryRecv]
      rw [← List.append_assoc, ← hsend, List.cons_append, hrest, List.cons_append]

theorem recvLoop_drains (n : ℕ) (sent : List (List α)) (c : SyncChannel α cap)
    (h : c.queue.length + sent.flatten.length < n) : (recvLoop n sent c).channel.queue = [] := by
  induction n generalizing sent c with
  | zero => exact absurd h (Nat.not_lt_zero _)
  | succ n ih =>
    have hsend := sendAll_conserves c (sent.headD [])
    have hlen := sendAll_length_le c (sent.headD [])
    rcases hs : c.sendAll (sent.headD []) with ⟨accepted, ⟨queue, hle⟩⟩
    rw [hs] at hsend hlen
    cases queue with
    | nil => simp only [recvLoop, hs, tryRecv]
    | cons a as =>
      simp only [recvLoop, hs, tryRecv]
      apply ih
      have hqueue : as.length + 1 = c.queue.length + accepted.length := by
        rw [← List.length_append, ← hsend]
        rfl
      have hsent : (sent.headD []).length + sent.tail.flatten.length = sent.flatten.length := by
        cases sent <;> simp
      simp only at hlen ⊢
      omega

end SyncChannel

end LibRustdesk
