import WebrtcGccNs3.Sim.Timestamp

/-!
# What the controller knows of a runner

`SimulatedSequenceRunner` of webrtc-simu-controller.h. `RunReady` calls back into
code the runner does not own (a task's `Run`, a module's `Process`, a message
handler), and that code may call anything. So `RunReady` is cut at its callbacks:
each piece ends in a callback, with what the runner remembers across it, or in
the return of `RunReady`.
-/
namespace WebrtcGccNs3.Sim

/-- How far a piece of `RunReady` gets in the runner state `ρ`: into a callback,
with the locals `α` (which say what is called, and with what to continue), or to
the end. -/
inductive Progress (ρ α : Type) where
  | callback (runner : ρ) (locals : α)
  | done (runner : ρ)

namespace Progress

variable {ρ α ρ' α' : Type}

def map (f : ρ → ρ') (g : α → α') : Progress ρ α → Progress ρ' α'
  | callback runner locals => callback (f runner) (g locals)
  | done runner => done (f runner)

end Progress

/-- A runner of state `ρ`: `runReady now atTime` is `RunReady(at_time)` up to its
first callback, `resume` the next piece once a callback has returned the answer
`ν`, and `call` any other member function `ι` that outside code calls. -/
structure SequenceRunner (ρ α ν ι : Type) where
  getNextRunTime : ρ → Timestamp
  /-- The runner is a `SimulatedThread`. -/
  isThread : ρ → Bool
  isQuitting : ρ → Bool
  runReady : ρ → Int → Timestamp → Progress ρ α
  resume : ρ → α → Int → ν → Progress ρ α
  call : ρ → Int → ι → ρ

end WebrtcGccNs3.Sim
