import WebrtcGccNs3.Sim.SequenceRunner

/-!
# SimulatedThread

The thread of simulated-thread.cc on top of `rtc::Thread`, of which it uses this much:
`Post` stores a message due now, `PostDelayed` and `PostAt` one due at a millisecond,
`ProcessMessages(0)` dispatches messages that are due, in an order of its own, until
there are none, and `GetDelay` is the time to the earliest one. `TimeMillis` cuts the clock to
milliseconds. `Send` belongs to the controller's call stack.
-/
namespace WebrtcGccNs3.Sim

/-- A stored message, with the millisecond it is due at. -/
structure Message (τ : Type) where
  due : Int
  content : τ

structure SimulatedThread (τ : Type) where
  messages : List (Message τ) := []
  nextRunTime : Timestamp := .plusInfinity
  quitting : Bool := false
  /-- The place, among the messages that are due, of the one that `rtc::Thread` dispatches next. -/
  pick : List (Message τ) → Nat := fun _ => 0

def timeMillis (now : Int) : Int := now / 1000

namespace SimulatedThread

variable {τ : Type}

def getNextRunTime (t : SimulatedThread τ) : Timestamp := t.nextRunTime

/-- `GetDelay`, where `none` is `kForever`. -/
def getDelay (t : SimulatedThread τ) (now : Int) : Option Int :=
  (t.messages.map (·.due)).min?.map fun due => max 0 (due - timeMillis now)

/-- `ProcessMessages(0)` up to the next message it dispatches, or the rest of `RunReady`. -/
def processMessages (t : SimulatedThread τ) (now : Int) (atTime : Timestamp) :
    Progress (SimulatedThread τ) (τ × Timestamp) :=
  match t.messages.zipIdx.filter (·.1.due ≤ timeMillis now) with
  | first :: rest =>
    let next := (first :: rest).getD (t.pick t.messages) first
    .callback { t with messages := t.messages.eraseIdx next.2 } (next.1.content, atTime)
  | [] =>
    .done { t with nextRunTime := ((t.getDelay now).map (atTime.plusMillis ·)).getD .plusInfinity }

def runReady (t : SimulatedThread τ) (now : Int) (atTime : Timestamp) :
    Progress (SimulatedThread τ) (τ × Timestamp) := t.processMessages now atTime

def resume (t : SimulatedThread τ) (locals : τ × Timestamp) (now : Int) :
    Progress (SimulatedThread τ) (τ × Timestamp) := t.processMessages now locals.2

def post (t : SimulatedThread τ) (now : Int) (content : τ) : SimulatedThread τ :=
  { t with messages := t.messages ++ [⟨timeMillis now, content⟩], nextRunTime := .minusInfinity }

/-- `Timestamp::Millis`. -/
def millis (ms : Int) : Timestamp := .micros (1000 * ms)

def postAt (t : SimulatedThread τ) (targetTimeMs : Int) (content : τ) : SimulatedThread τ :=
  { t with
    messages := t.messages ++ [⟨targetTimeMs, content⟩]
    nextRunTime := min t.nextRunTime (millis targetTimeMs) }

def postDelayed (t : SimulatedThread τ) (now : Int) (delayMs : Int) (content : τ) :
    SimulatedThread τ :=
  { t with
    messages := t.messages ++ [⟨timeMillis now + delayMs, content⟩]
    nextRunTime := min t.nextRunTime (millis (timeMillis now + delayMs)) }

def stop (t : SimulatedThread τ) : SimulatedThread τ := { t with quitting := true }

end SimulatedThread

end WebrtcGccNs3.Sim
