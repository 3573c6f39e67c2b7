/-!
# Timers of UEs

Two retransmission timers for each UE. Starting or retrying a timer schedules an expiry under a new
generation; only the expiry of the generation under which a timer runs counts, and every other one is
stale.

| operation | timer of its kind and UE after it |
| --- | --- |
| `start` | running, no retries, a new generation |
| `stop` | not running |
| `expire`, live, retries left | running, one retry more, a new generation |
| `expire`, live, no retries left | not running |
| `expire`, stale | as before |
-/

namespace Amf

/-- The retransmission timers. -/
inductive TimerKind where
  /-- Guards a paging attempt. -/
  | t3513
  /-- Guards a deregistration request to a UE. -/
  | t3522
  deriving DecidableEq, Repr, Inhabited

/-- The name of a timer. -/
def TimerKind.name : TimerKind → String
  | t3513 => "AMF_TIMER_T3513"
  | t3522 => "AMF_TIMER_T3522"

/-- The settings of a timer. -/
structure TimerConfig where
  /-- A timer that is not enabled does not start. -/
  enabled : Bool := true
  /-- The most retries. -/
  maxRetries : Nat
  /-- The milliseconds to an expiry. -/
  millis : Nat
  deriving DecidableEq, Repr, Inhabited

/-- The settings of the two timers. -/
structure TimerConfigs where
  /-- Paging: two retries, two seconds. -/
  t3513 : TimerConfig := { maxRetries := 2, millis := 2000 }
  /-- Deregistration: four retries, three seconds. -/
  t3522 : TimerConfig := { maxRetries := 4, millis := 3000 }
  deriving DecidableEq, Repr, Inhabited

/-- The settings of a timer. -/
def TimerConfigs.of (c : TimerConfigs) : TimerKind → TimerConfig
  | .t3513 => c.t3513
  | .t3522 => c.t3522

/-- A timer that runs. -/
structure RunningTimer where
  /-- Which timer. -/
  kind : TimerKind
  /-- The UE. -/
  ue : Nat
  /-- The retries so far. -/
  retries : Nat
  /-- The generation of the expiry that counts. -/
  generation : Nat
  deriving DecidableEq, Repr, Inhabited

/-- An expiry to be delivered after a time. -/
structure ScheduledExpiry where
  /-- Which timer. -/
  kind : TimerKind
  /-- The UE. -/
  ue : Nat
  /-- The generation that the expiry carries. -/
  generation : Nat
  /-- The milliseconds to the expiry. -/
  millis : Nat
  deriving DecidableEq, Repr, Inhabited

/-- What a live expiry asks for. -/
inductive Expiry where
  /-- The retry of a number, counted from 1. -/
  | retry (n : Nat)
  /-- Nothing more: there are no retries left. -/
  | exhausted
  deriving DecidableEq, Repr, Inhabited

/-- The timers of all UEs. -/
structure Timers where
  /-- The settings. -/
  configs : TimerConfigs := {}
  /-- The timers that run. -/
  running : List RunningTimer := []
  /-- The expiries that nobody has taken over yet, oldest first. -/
  scheduled : List ScheduledExpiry := []
  /-- The generation of the next expiry. -/
  nextGeneration : Nat := 1
  deriving DecidableEq, Repr, Inhabited

/-- A timer of the given kind and UE. -/
def RunningTimer.is (t : RunningTimer) (kind : TimerKind) (ue : Nat) : Bool :=
  t.kind = kind && t.ue = ue

namespace Timers

/-- The timers with one more expiry scheduled, under the next generation. -/
def schedule (ts : Timers) (kind : TimerKind) (ue : Nat) : Timers :=
  { ts with
    scheduled := ts.scheduled ++ [⟨kind, ue, ts.nextGeneration, (ts.configs.of kind).millis⟩]
    nextGeneration := ts.nextGeneration + 1 }

/-- The timers without one of them. -/
def stop (ts : Timers) (kind : TimerKind) (ue : Nat) : Timers :=
  { ts with running := ts.running.filter fun t => !t.is kind ue }

/-- The timers without those of a UE. -/
def stopAll (ts : Timers) (ue : Nat) : Timers :=
  { ts with running := ts.running.filter (·.ue ≠ ue) }

/-- The timers with one of them started anew, if its settings allow it. -/
def start (ts : Timers) (kind : TimerKind) (ue : Nat) : Timers :=
  if (ts.configs.of kind).enabled then
    let stopped := ts.stop kind ue
    { stopped.schedule kind ue with
      running := stopped.running ++ [⟨kind, ue, 0, ts.nextGeneration⟩] }
  else ts

/-- The timer runs. -/
def isRunning (ts : Timers) (kind : TimerKind) (ue : Nat) : Bool :=
  ts.running.any (·.is kind ue)

/-- The timer that an expiry counts for. -/
def live? (ts : Timers) (kind : TimerKind) (ue generation : Nat) : Option RunningTimer :=
  ts.running.find? fun t => t.is kind ue && t.generation = generation

/-- An expiry: what it asks for, unless it is stale, and the timers after it. -/
def expire (ts : Timers) (kind : TimerKind) (ue generation : Nat) : Option Expiry × Timers :=
  match ts.live? kind ue generation with
  | none => (none, ts)
  | some t =>
    if (ts.configs.of kind).maxRetries ≤ t.retries then (some .exhausted, ts.stop kind ue)
    else
      let retried := { t with retries := t.retries + 1, generation := ts.nextGeneration }
      (some (.retry retried.retries),
        { ts.schedule kind ue with
          running := ts.running.map fun r => if r.is kind ue then retried else r })

/-- The expiries to be delivered, and the timers with none left to take over. -/
def takeScheduled (ts : Timers) : List ScheduledExpiry × Timers :=
  (ts.scheduled, { ts with scheduled := [] })

end Timers
end Amf
