import Amf.Context.Basic
import Amf.Fault
import Amf.Metrics
import Amf.Outbound

/-!
# Procedures

The state of an AMF at work, and the programs that change it. A procedure yields a value or a fault;
what it has done before a fault stays done.
-/

namespace Amf

/-- The state of an AMF: its context, its metrics, and its transports. -/
structure Node where
  /-- The context. -/
  context : Context
  /-- The metrics. -/
  metrics : Metrics := {}
  /-- The transports. -/
  links : Links := {}
  deriving Inhabited

/-- A program on the state of an AMF. -/
abbrev Procedure (α : Type) := ExceptT Fault (StateM Node) α

namespace Procedure

/-- The value or fault of a procedure, and the state after it. -/
def exec (p : Procedure α) (n : Node) : Except Fault α × Node := (p.run).run n

/-- The context. -/
def context : Procedure Context := return (← get).context

/-- A change of the context. -/
def change (f : Context → Context) : Procedure Unit :=
  modify fun n => { n with context := f n.context }

/-- A value that has to be there. -/
def need (a : Option α) (fault : Fault) : Procedure α :=
  match a with
  | some a => pure a
  | none => throw fault

/-- One more of a metric. -/
def count (m : Metric) : Procedure Unit :=
  modify fun n => { n with metrics := n.metrics.inc m }

/-- One less of a metric. -/
def uncount (m : Metric) : Procedure Unit :=
  modify fun n => { n with metrics := n.metrics.dec m }

/-- Hands a message to its transport, which may refuse it. -/
def emit (m : Outbound) : Procedure Unit := do
  let n ← get
  set { n with links := n.links.offer m }
  if n.links.accepts m then pure () else throw (.send (.transportClosed m.transport))

/-- Hands a message to the radio network on a leg. -/
def emitOn (leg : Leg) (pdu : Octets) : Procedure Unit :=
  emit (.radio (.toLeg leg.gnb leg.ids pdu))

/-- Hands a NAS message to the radio network for the UE on a leg. -/
def emitNas (leg : Leg) (nas : Octets) : Procedure Unit :=
  emitOn leg ((Ngap.Request.downlinkNas nas).octets leg.ids)

/-- A procedure with its fault as a value. -/
def observe (p : Procedure α) : Procedure (Except Fault α) := fun n =>
  let (r, n') := p.exec n
  (.ok r, n')

/-- A procedure whose outcome does not matter. -/
def attempt (p : Procedure α) : Procedure Unit := do
  let _ ← observe p

/-- The session of a number. -/
def session (id : Nat) : Procedure Session := do
  need ((← context).sessions.get? id) (.send (.contextGone "Session"))

/-- The UE of a number. -/
def ue (id : Nat) : Procedure Ue := do
  need ((← context).ues.get? id) (.send (.contextGone "UE"))

/-- The leg of a UE, with its number. -/
def legOf (id : Nat) : Procedure (Nat × Leg) := do
  need ((← context).legOf? id) (.send (.noLeg id))

end Procedure
end Amf
