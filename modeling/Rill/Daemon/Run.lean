import Rill.Daemon.Step
import Rill.Lib.Runs

/-!
# Runs of the daemon

`Act` is what a step is made of. A step that succeeds is a run of acts, and acts
may also come in any other order, so what holds in every run of acts holds in
every run of steps.
-/

namespace Rill.Daemon

open Lib Attach Kernel

inductive Act
  | accept (stream : Stream)
  | spawn (turns : List Turn)
  | fetch (idx : Nat)
  | frame (m : Moment) (idx : Nat) (f : Frame)
  | reap (m : Moment) (id : SessionId)
  | drain (id : SessionId)
  | flush
  | resync (id : SessionId)

namespace Act

def run : Act → DaemonM Unit
  | accept stream => modify fun d => d.acceptClient stream
  | spawn turns => spawnTabLeaf (.ok turns)
  | fetch idx => do let _ ← fetchFrames idx
  | frame m idx f => dispatchFrame m idx f
  | reap m id => onKernel (Kernel.reap m id)
  | drain id => do let _ ← drainOnce id
  | flush => flushOutbound
  | resync id => resyncLeaf id

/-- Only a leaf whose child is alive is polled. -/
def enabled (d : Daemon) : Act → Prop
  | drain id => childAlive d id
  | _ => True

instance (d : Daemon) : (a : Act) → Decidable (a.enabled d)
  | drain id => inferInstanceAs (Decidable (childAlive d id = true))
  | accept _ | spawn _ | fetch _ | frame .. | reap .. | flush | resync _ => instDecidableTrue

/-- An act that succeeds; one that fails ends the daemon. -/
def Takes (d : Daemon) (a : Act) (d' : Daemon) : Prop :=
  a.enabled d ∧ a.run.exec d = (.ok (), d')

end Act

/-- The states a daemon can be in, over all that its environment may do. -/
inductive Reachable : Daemon → Prop
  | mk {turns : List Turn} {size : Winsize} {isWorker : Bool} {d₀ d : Daemon}
    (hbind : Daemon.bind (.spawn size turns) size isWorker = .ok d₀)
    (hrun : AllRuns Act.Takes d₀ d) : Reachable d

end Rill.Daemon
