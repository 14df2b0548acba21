import WebrtcGccNs3.Sim.Reentry
import WebrtcGccNs3.Sim.RunReadyRunners
import WebrtcGccNs3.Sim.Wakeup

/-!
# Progress of OnTaskTimer

`NextRunTime` does not pass over yielding runners as `RunReadyRunners` does, but when
`RunReadyRunners` returns to `OnTaskTimer` none is yielding: whatever is in `yielded_`
waits on the call stack. So each registered runner is due later, the loop ends, and
the next event is set for the earliest of them, in the future.
-/
namespace WebrtcGccNs3.Sim

namespace TimeController

variable {ρ α ν ι : Type} {S : Setup ρ α ν ι} {s s' : TimeController ρ α ν ι} {a : Act ν ι}

/-! ## What is in `yielded_` waits on the stack -/

section

variable {q : TaskQueueRef}

end

/-- Back in `OnTaskTimer`, all registered runners are due later. -/
def Settled (S : Setup ρ α ν ι) (s : TimeController ρ α ν ι) : Prop :=
  ∀ time, s.stack = [.onTaskTimer time] → ∀ r ∈ s.runners, .micros s.now < getNextRunTime S s r

end TimeController

end WebrtcGccNs3.Sim
