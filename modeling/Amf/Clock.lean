import Amf.Event

/-!
# The clock

Events in time. After every event the expiries that it scheduled are taken over, each due its duration
later, at most thirty years (`longestWait`), and delivered as events when they are due, the earliest first
and of those due together the one taken over first. Every message that is sent and every response is
written down with its time.

Delivery ends because a timer that runs is retried only so often: every expiry that is delivered uses
up either itself or one of the retries left (`Clock.deliveries` counts both).
-/

namespace Amf

/-- An expiry under way. -/
structure DueExpiry where
  /-- The time at which it is delivered, in milliseconds. -/
  due : Nat
  /-- Which timer. -/
  kind : TimerKind
  /-- The UE. -/
  ue : Nat
  /-- The generation that it carries. -/
  generation : Nat
  deriving DecidableEq, Repr, Inhabited

/-- The longest that an expiry is waited for, in milliseconds: thirty years of 365 days. -/
def longestWait : Nat := 30 * 365 * 24 * 60 * 60 * 1000

/-- An expiry taken over at a time. -/
def DueExpiry.ofScheduled (now : Nat) (s : ScheduledExpiry) : DueExpiry :=
  ⟨now + min s.millis longestWait, s.kind, s.ue, s.generation⟩

/-- What is written down. -/
inductive Remark where
  /-- A message was accepted by its transport. -/
  | sent (m : Outbound)
  /-- A request was answered. -/
  | answered (r : Response)
  deriving Inhabited

/-- An AMF in time. -/
structure Clock where
  /-- The AMF. -/
  node : Node
  /-- The time, in milliseconds. -/
  now : Nat := 0
  /-- The expiries under way, in the order in which they were taken over. -/
  underWay : List DueExpiry := []
  /-- What was written down, with its time, in order. -/
  remarks : List (Nat × Remark) := []
  /-- The AMF has stopped. -/
  stopped : Bool := false
  deriving Inhabited

/-- The event of an expiry. -/
def DueExpiry.event (d : DueExpiry) : Event := .timer d.kind d.ue d.generation

namespace Clock

/-- The response that an event came to, if it did. -/
def responses : Event.Outcome → List Remark
  | .replied (.answered r) => [.answered r]
  | _ => []

/-- The AMF with the messages sent so far taken out, and those messages. -/
def takeSent (n : Node) : List Outbound × Node :=
  (n.links.sent, { n with links := { n.links with sent := [] } })

/-- The AMF with the expiries that it has scheduled taken over, and those expiries. -/
def takeScheduled (n : Node) : List ScheduledExpiry × Node :=
  let (scheduled, timers) := n.context.timers.takeScheduled
  (scheduled, { n with context := { n.context with timers } })

/-- The AMF has dealt with an event. One that has stopped deals with no more, and one that stops takes
no expiries over. -/
def deal (c : Clock) (e : Event) : Clock :=
  if c.stopped then c else
    let (outcome, node) := e.handle c.node
    let (sent, node) := takeSent node
    let remarks := c.remarks ++ (sent.map Remark.sent ++ responses outcome).map fun r => (c.now, r)
    match outcome with
    | .stopped => { c with node, remarks, stopped := true }
    | _ =>
      let (scheduled, node) := takeScheduled node
      { c with node, remarks, underWay := c.underWay ++ scheduled.map (.ofScheduled c.now) }

/-- The earlier of an expiry and another that was taken over before it. -/
def earlier (d : DueExpiry) : Option DueExpiry → DueExpiry
  | some e => if e.due ≤ d.due then e else d
  | none => d

/-- The expiry that is due first, and of those due together the one taken over first. -/
def next? (c : Clock) : Option DueExpiry :=
  c.underWay.foldl (fun first d => some (earlier d first)) none

/-- A bound on the expiries that can still be delivered: those under way, and one for every retry that
is left to a timer that runs. -/
def deliveries (c : Clock) : Nat :=
  let timers := c.node.context.timers
  c.underWay.length +
    timers.running.foldr (fun t n => (timers.configs.of t.kind).maxRetries - t.retries + n) 0

/-- The clock after at most `fuel` of the expiries due by a time. -/
def deliver (time : Nat) : Nat → Clock → Clock
  | 0, c => c
  | fuel + 1, c =>
    match c.next? with
    | none => c
    | some d =>
      if d.due ≤ time && !c.stopped then
        deliver time fuel
          ({ c with now := d.due, underWay := c.underWay.erase d }.deal d.event)
      else c

/-- The clock at a later time: every expiry due by then is delivered. -/
def advance (c : Clock) (time : Nat) : Clock :=
  { deliver time c.deliveries c with now := time }

/-- The clock after an event at a time. -/
def post (c : Clock) (time : Nat) (e : Event) : Clock := (c.advance time).deal e

end Clock
end Amf
