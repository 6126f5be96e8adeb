import Mathlib.Data.List.AList
import Duris.Economy.CollectorPolicy
import Duris.Lib.Sorted

/-!
# The collector's due queue

`collector::due_queue` of `src/economy/collector_policy.{h,c}`: the listings that wait for
something, by the time it falls due. The queue keeps every deadline twice, in a set ordered
by time, from which work is leased, and in a map by listing, through which it is moved.

`std::set` is the list of its elements in ascending order, `std::map` an association list
with one entry a key; the order of the latter is never looked at. Allocation succeeds, so
the restoring branches of the source have no counterpart.
-/

namespace Duris.Economy.Collector

/-- A deadline with its listing, as `by_deadline` holds them. -/
abbrev Due := BitVec 64 × BitVec 64

/-- `operator<` of the pair. -/
def dueLess (left right : Due) : Bool :=
  decide (left.1 < right.1) || (left.1 == right.1 && decide (left.2 < right.2))

structure DueQueue where
  byDeadline : List Due := []
  byListing : AList fun _ : BitVec 64 => BitVec 64 := ∅

/-- `std::set::emplace`. -/
def emplace (set : List Due) (due : Due) : List Due :=
  if due ∈ set then set else Sorted.insert dueLess id set due

namespace DueQueue

def erase (queue : DueQueue) (listing : BitVec 64) : DueQueue :=
  match queue.byListing.lookup listing with
  | none => queue
  | some found => {
      byDeadline := queue.byDeadline.erase (found, listing)
      byListing := queue.byListing.erase listing }

/-- The tail of `update`: the new deadline goes in before the old one goes out. -/
def schedule (queue : DueQueue) (listing deadline : BitVec 64) : DueQueue :=
  match queue.byListing.lookup listing with
  | none => {
      byDeadline := emplace queue.byDeadline (deadline, listing)
      byListing := queue.byListing.insert listing deadline }
  | some previous =>
      if previous = deadline then queue
      else {
        byDeadline := (emplace queue.byDeadline (deadline, listing)).erase (previous, listing)
        byListing := queue.byListing.insert listing deadline }

def update (queue : DueQueue) (entry : Record) : Bool × DueQueue :=
  if validRecord entry = false then (false, queue)
  else
    match entry.status with
    | .candidate => (true, queue.schedule entry.listing entry.collectAt)
    | .collected => (true, queue.schedule entry.listing entry.saleAt)
    | .available =>
        if entry.holdingPaused then (true, queue.erase entry.listing)
        else (true, queue.schedule entry.listing entry.expiresAt)
    | .purchased | .cancelled | .expired => (true, queue.erase entry.listing)

def defer (queue : DueQueue) (listing deadline : BitVec 64) : Bool × DueQueue :=
  if listing = 0 ∨ deadline = 0 then (false, queue)
  else
    match queue.byListing.lookup listing with
    | none => (false, queue)
    | some previous =>
        if deadline ≤ previous then (true, queue)
        else if (deadline, listing) ∈ queue.byDeadline then (false, queue)
        else
          (true, {
            byDeadline := (emplace queue.byDeadline (deadline, listing)).erase (previous, listing)
            byListing := queue.byListing.insert listing deadline })

/-- The loop that selects: from the front, while due, up to `limit`. -/
def selectDue (queue : DueQueue) (now : BitVec 64) (limit : Nat) : List (BitVec 64) :=
  ((queue.byDeadline.takeWhile fun due => decide (due.1 ≤ now)).take limit).map Prod.snd

/-- One turn of the loop that moves what was selected. -/
def leaseOne (leaseUntil : BitVec 64) (queue : DueQueue) (listing : BitVec 64) : DueQueue :=
  match queue.byListing.lookup listing with
  | none => queue
  | some found =>
      if (found, listing) ∈ queue.byDeadline then {
        byDeadline := emplace (queue.byDeadline.erase (found, listing)) (leaseUntil, listing)
        byListing := queue.byListing.insert listing leaseUntil }
      else queue

def leaseDue (queue : DueQueue) (now : BitVec 64) (limit : Nat) (leaseUntil : BitVec 64) :
    List (BitVec 64) × DueQueue :=
  if limit = 0 ∨ leaseUntil ≤ now then ([], queue)
  else
    let result := queue.selectDue now limit
    (result, result.foldl (leaseOne leaseUntil) queue)

end DueQueue

/-- One call on one of several queues, which `swap` lets exchange their contents. -/
inductive DueCall (ι : Type) where
  | update (queue : ι) (entry : Record)
  | defer (queue : ι) (listing deadline : BitVec 64)
  | erase (queue : ι) (listing : BitVec 64)
  | leaseDue (queue : ι) (now : BitVec 64) (limit : Nat) (leaseUntil : BitVec 64)
  | swap (queue other : ι)

variable {ι : Type} [DecidableEq ι]

def dueStep (queues : ι → DueQueue) : DueCall ι → ι → DueQueue
  | .update queue entry => Function.update queues queue ((queues queue).update entry).2
  | .defer queue listing deadline =>
      Function.update queues queue ((queues queue).defer listing deadline).2
  | .erase queue listing => Function.update queues queue ((queues queue).erase listing)
  | .leaseDue queue now limit leaseUntil =>
      Function.update queues queue ((queues queue).leaseDue now limit leaseUntil).2
  | .swap queue other =>
      Function.update (Function.update queues queue (queues other)) other (queues queue)

/-- The queues after a sequence of calls on new ones. -/
def dueRun (calls : List (DueCall ι)) : ι → DueQueue := run dueStep (fun _ => {}) calls

end Duris.Economy.Collector
