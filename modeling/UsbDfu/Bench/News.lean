import UsbDfu.Exchange

/-!
# News of devices that leave

Every subscriber has a queue of its own, which fills from the time it subscribes. A queue that has
ended takes nothing more in but can still be emptied.
-/

namespace UsbDfu
namespace Bench

/-- What has arrived for one subscriber, the oldest first. -/
structure Feed where
  arrived : List DeviceId
  ended : Bool
  deriving DecidableEq, Repr

/-- The queues of all subscribers; a subscription is a place in the list. -/
structure News where
  feeds : List Feed
  deriving DecidableEq, Repr

namespace News

/-- There are no subscribers. -/
def empty : News := ⟨[]⟩

/-- A new subscriber, for whom nothing has arrived. -/
def subscribe (n : News) : Subscription × News :=
  (n.feeds.length, ⟨n.feeds ++ [⟨[], false⟩]⟩)

/-- Every subscriber learns that the device left. -/
def deliver (n : News) (id : DeviceId) : News :=
  ⟨n.feeds.map fun f => if f.ended then f else { f with arrived := f.arrived ++ [id] }⟩

/-- Nothing more arrives for the present subscribers. -/
def endAll (n : News) : News :=
  ⟨n.feeds.map fun f => { f with ended := true }⟩

/-- What has arrived for a subscriber. -/
def arrived (n : News) (s : Subscription) : List DeviceId :=
  match n.feeds[s]? with
  | some f => f.arrived
  | none => []

/-- Sets what has arrived for one subscriber. -/
def setArrived (n : News) (s : Subscription) (ids : List DeviceId) : News :=
  ⟨n.feeds.modify s fun f => { f with arrived := ids }⟩

/-- Takes all that has arrived. -/
def takeAll (n : News) (s : Subscription) : List DeviceId × News :=
  (n.arrived s, n.setArrived s [])

/-- Takes what has arrived up to the device, or all of it; true if the device was there. -/
def takeUntil (n : News) (s : Subscription) (id : DeviceId) : Bool × News :=
  match (n.arrived s).dropWhile (· ≠ id) with
  | [] => (false, n.setArrived s [])
  | _ :: rest => (true, n.setArrived s rest)

end News
end Bench
end UsbDfu
