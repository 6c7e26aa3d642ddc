import LetAgents.Lib.BinaryHeap
import LetAgents.Lib.OrderedMap
import Mathlib.Logic.Function.Basic

/-!
# The delivery release queue

Source: src/api/rooms/agent-delivery.ts:54-271. Modelling boundary: the timer, whose firing is
a pump at any time, and the clock with its random delay, which an input gives. A release is an
active promise that settles and then runs its `finally`. Drains may overlap.
-/
namespace LetAgents.Rooms.DeliveryReleases

open Lib

structure PendingDeliveryRelease where
  key : String
  leaseKey : String
  attempt : Nat
  dueAt : Int
  /-- `pendingDeliveryReleaseKey` writes a line feed. -/
  named : key ≠ ""

def MAX_CONCURRENT_DELIVERY_RELEASES : Nat := 8

def MAX_PENDING_DELIVERY_RELEASES_PER_LEASE : Nat := 16

def MAX_PENDING_DELIVERY_RELEASES : Nat := 4096

/-- `deliveryReleaseQueue`, `deliveryReleaseQueueIndexes` -/
structure ReleaseQueue where
  entries : List PendingDeliveryRelease
  indexes : String → Option Nat

namespace ReleaseQueue

def mark (q : ReleaseQueue) (index : Nat) : ReleaseQueue :=
  match q.entries[index]? with
  | some entry => { q with indexes := Function.update q.indexes entry.key (some index) }
  | none => q

def swap (q : ReleaseQueue) (left right : Nat) : ReleaseQueue :=
  ({ q with entries := BinaryHeap.swap q.entries left right }.mark left).mark right

theorem mark_entries (q : ReleaseQueue) (index : Nat) : (q.mark index).entries = q.entries := by
  unfold mark
  split
  · rfl
  · rfl

theorem swap_entries (q : ReleaseQueue) (left right : Nat) :
    (q.swap left right).entries = BinaryHeap.swap q.entries left right := by
  rw [swap, mark_entries, mark_entries]

/-- Both are in the queue, and the one is due before the other. -/
def isBefore (q : ReleaseQueue) (left right : Nat) : Bool :=
  match q.entries[left]?, q.entries[right]? with
  | some a, some b => a.dueAt < b.dueAt
  | _, _ => false

theorem isBefore_inside {q : ReleaseQueue} (before : q.isBefore left right = true) :
    left < q.entries.length ∧ right < q.entries.length := by
  unfold isBefore at before
  split at before
  · next here there =>
    exact ⟨(List.getElem?_eq_some_iff.mp here).1, (List.getElem?_eq_some_iff.mp there).1⟩
  · cases before

def siftUp (q : ReleaseQueue) (index : Nat) : ReleaseQueue :=
  if _positive : 0 < index then
    if q.isBefore index (BinaryHeap.parent index) then
      (q.swap (BinaryHeap.parent index) index).siftUp (BinaryHeap.parent index)
    else q
  else q
termination_by index
decreasing_by exact BinaryHeap.parent_lt _positive

def push (q : ReleaseQueue) (entry : PendingDeliveryRelease) : ReleaseQueue :=
  let index := q.entries.length
  ReleaseQueue.siftUp ⟨q.entries ++ [entry], Function.update q.indexes entry.key (some index)⟩ index

def smallest (q : ReleaseQueue) (index : Nat) : Nat :=
  let left := index * 2 + 1
  let right := left + 1
  let first := if q.isBefore left index then left else index
  if q.isBefore right first then right else first

theorem smallest_bounds {q : ReleaseQueue} (other : q.smallest index ≠ index) :
    index < q.smallest index ∧ q.smallest index < q.entries.length := by
  unfold smallest at *
  dsimp only at *
  by_cases low : q.isBefore (index * 2 + 1) index = true
  · rw [if_pos low] at other ⊢
    have inside := isBefore_inside low
    by_cases high : q.isBefore (index * 2 + 1 + 1) (index * 2 + 1) = true
    · rw [if_pos high]
      have within := isBefore_inside high
      omega
    · rw [if_neg high]
      omega
  · rw [if_neg low] at other ⊢
    by_cases high : q.isBefore (index * 2 + 1 + 1) index = true
    · rw [if_pos high]
      have within := isBefore_inside high
      omega
    · rw [if_neg high] at other
      exact absurd rfl other

def siftDown (q : ReleaseQueue) (index : Nat) : ReleaseQueue :=
  if _other : q.smallest index = index then q
  else (q.swap index (q.smallest index)).siftDown (q.smallest index)
termination_by q.entries.length - index
decreasing_by
  have bounds := smallest_bounds _other
  rw [swap_entries, BinaryHeap.length_swap]
  omega

def removeAt (q : ReleaseQueue) (index : Nat) : ReleaseQueue :=
  match q.entries[index]?, q.entries.getLast? with
  | some removed, some last =>
    let popped : ReleaseQueue := ⟨q.entries.dropLast, Function.update q.indexes removed.key none⟩
    if index < popped.entries.length then
      let placed := { popped with entries := popped.entries.set index last }.mark index
      if 0 < index ∧ placed.isBefore index (BinaryHeap.parent index) then placed.siftUp index
      else placed.siftDown index
    else popped
  | _, _ => q

end ReleaseQueue

structure ActiveRelease where
  entry : PendingDeliveryRelease
  settled : Bool

structure Releases where
  pending : OrderedMap String PendingDeliveryRelease
  groups : String → Option (List String)
  queue : ReleaseQueue
  active : List ActiveRelease
  draining : Bool
  /-- What the pump removed, with what was pending then. -/
  pumped : List (PendingDeliveryRelease × List PendingDeliveryRelease)

namespace Releases

def initial : Releases := ⟨OrderedMap.empty, fun _ => none, ⟨[], fun _ => none⟩, [], false, []⟩

def group (s : Releases) (leaseKey : String) : List String := (s.groups leaseKey).getD []

/-- `removePendingDeliveryRelease` -/
def remove (s : Releases) (key : String) : Releases :=
  match s.pending.get key with
  | none => s
  | some entry =>
    { s with
      pending := s.pending.delete key
      queue :=
        match s.queue.indexes key with
        | some index => s.queue.removeAt index
        | none => s.queue
      groups :=
        match s.groups entry.leaseKey with
        | some group =>
          Function.update s.groups entry.leaseKey (if group.erase key = [] then none else some (group.erase key))
        | none => s.groups }

/-- A loop that evicts the oldest of some keys while there are too many; at most some steps. -/
def evict (limit : Nat) (keys : Releases → List String) (s : Releases) : Nat → Option Releases
  | 0 => none
  | fuel + 1 =>
    if limit ≤ (keys s).length then
      match (keys s).head? with
      | some oldest => if oldest = "" then some s else evict limit keys (s.remove oldest) fuel
      | none => some s
    else some s

def evictGroup (s : Releases) (leaseKey : String) : Nat → Option Releases :=
  evict MAX_PENDING_DELIVERY_RELEASES_PER_LEASE (fun s => s.group leaseKey) s

def evictAll (s : Releases) : Nat → Option Releases :=
  evict MAX_PENDING_DELIVERY_RELEASES (fun s => s.pending.keys) s

/-- An entry whose key is not pending. -/
def insert (s : Releases) (entry : PendingDeliveryRelease) : Releases :=
  { s with
    pending := s.pending.set entry.key entry
    groups := Function.update s.groups entry.leaseKey
      (some (if entry.key ∈ s.group entry.leaseKey then s.group entry.leaseKey
        else s.group entry.leaseKey ++ [entry.key]))
    queue := s.queue.push entry }

/-- A pending entry of the same key goes. -/
def displace (s : Releases) (entry : PendingDeliveryRelease) : Releases :=
  match s.pending.get entry.key with
  | some existing => s.remove existing.key
  | none => s

def openGroup (s : Releases) (leaseKey : String) : Releases :=
  match s.groups leaseKey with
  | some _ => s
  | none => { s with groups := Function.update s.groups leaseKey (some []) }

/-- `retainPendingDeliveryRelease`; nothing where a loop does not end. -/
def retain (s : Releases) (entry : PendingDeliveryRelease) : Option Releases :=
  let grouped := (s.displace entry).openGroup entry.leaseKey
  (grouped.evictGroup entry.leaseKey ((grouped.group entry.leaseKey).length + 1)).bind fun evicted =>
    (evicted.evictAll (evicted.pending.keys.length + 1)).map fun room => room.insert entry

/-- The loop of `pumpDeliveryReleaseScheduler`. -/
def pumpFrom (now : Int) (s : Releases) : Nat → Option Releases
  | 0 => none
  | fuel + 1 =>
    if s.active.length < MAX_CONCURRENT_DELIVERY_RELEASES then
      match s.queue.entries.head? with
      | none => some s
      | some next =>
        if now < next.dueAt then some s
        else
          match s.pending.get next.key with
          | none => pumpFrom now (s.remove next.key) fuel
          | some entry =>
            pumpFrom now
              { s.remove next.key with
                active := s.active ++ [⟨entry, false⟩]
                pumped := (entry, s.pending.values) :: s.pumped } fuel
    else some s

def pump (now : Int) (s : Releases) : Option Releases :=
  if s.draining then some s else s.pumpFrom now (MAX_CONCURRENT_DELIVERY_RELEASES - s.active.length + 1)

end Releases

inductive Input where
  | retain (entry : PendingDeliveryRelease)
  | remove (key : String)
  | pump (now : Int)
  /-- An active release settles; one that failed is due again. -/
  | settles (k : Nat) (failed : Option Int)
  /-- The handler of `finally`. -/
  | finishes (k : Nat) (now : Int)
  /-- The three parts of `drainPendingDeliveryReleases`. -/
  | drain
  | clear
  | drained

def step (s : Releases) : Input → Option Releases
  | .retain entry => s.retain entry
  | .remove key => some (s.remove key)
  | .pump now => s.pump now
  | .settles k failed =>
    match s.active[k]? with
    | some ⟨entry, false⟩ =>
      let settled := { s with active := s.active.set k ⟨entry, true⟩ }
      match failed with
      | some dueAt =>
        if s.draining then some settled
        else settled.retain { entry with attempt := entry.attempt + 1, dueAt := dueAt }
      | none => some settled
    | _ => some s
  | .finishes k now =>
    match s.active[k]? with
    | some ⟨_, true⟩ => Releases.pump now { s with active := s.active.eraseIdx k }
    | _ => some s
  | .drain => some { s with draining := true }
  | .clear =>
    some { s with pending := OrderedMap.empty, groups := fun _ => none, queue := ⟨[], fun _ => none⟩ }
  | .drained => some { s with draining := false }

/-- Nothing where a step does not end. -/
def run (inputs : List Input) : Option Releases := inputs.foldlM step Releases.initial

/-! ## The property -/

structure Kept (s : Releases) : Prop where
  heap : BinaryHeap.Heap PendingDeliveryRelease.dueAt s.queue.entries
  indexed : ∀ key index, s.queue.indexes key = some index ↔
    ∃ entry, s.queue.entries[index]? = some entry ∧ entry.key = key
  queued : ∀ key, key ∈ s.queue.entries.map (·.key) ↔ key ∈ s.pending.keys
  grouped : ∀ key, key ∈ s.pending.keys ↔ ∃ leaseKey, key ∈ s.group leaseKey
  few : ∀ leaseKey, (s.group leaseKey).length ≤ MAX_PENDING_DELIVERY_RELEASES_PER_LEASE
  bounded : s.pending.keys.length ≤ MAX_PENDING_DELIVERY_RELEASES
  /-- The pump removes what is due first. -/
  least : ∀ removal ∈ s.pumped, removal.1 ∈ removal.2 ∧ ∀ entry ∈ removal.2, removal.1.dueAt ≤ entry.dueAt

end LetAgents.Rooms.DeliveryReleases
