import ReclaimFabric.Model.Recovery

/-!
# The running system

Threads of one coordinator process, each inside one operation, interleaved at the granularity of
atomic steps.

* `Op`        an operation and its program (`Op.prog`);
* `Traced`    the shared state with the record of everything that happened;
* `Sys`       the shared state and the programs the threads still have to run;
* `Sys.next`  start an operation, let a thread make a step, or stop the process and open a new one;
* `Reach`     the states of the runs whose labels a mode admits.

`Coordinator::open` claims the store, runs recovery and serves only when recovery returns without
errors, so a restart puts one recovery under way and nothing else starts until it has returned
with an empty list of errors.  The drop of an operation guard and the return of the operation are
one step.
-/

namespace ReclaimFabric

/-! ## operations -/

inductive Op where
  | createObject (req : CreateObjectRequest)
  | touch (id : Uuid) (actor : String)
  | pin (id : Uuid) (actor : String)
  | unpin (id : Uuid) (actor : String)
  | setProtected (id : Uuid) (isProtected : Bool) (actor : String)
  | addLineage (parent child : Uuid) (kind : EdgeKind) (actor : String)
  | removeLineage (parent child : Uuid) (kind : EdgeKind) (actor : String)
  | plan (id : Uuid) (actor : String)
  | reclaim (req : ReclaimRequest)
  | compress (id : Uuid) (actor : String)
  | archive (id : Uuid) (actor : String)
  | restore (id : Uuid) (actor : String)
  | verify (id : Uuid) (actor : String)
  | recover
  | heartbeat
  | requestShutdown

namespace Coordinator

open Prog (attempt)

/-- one round of the background heartbeat of `start_authority_heartbeat` -/
def authorityHeartbeat : M Unit := do
  if ← ask .loadShutdown then
    pure ()
  else do
    let p ← ask .readProc
    let now ← nowMs
    match ← attempt (store (.coordinatorHeartbeat p.1.processId p.2.2 p.2.1 now)) with
    | .ok () => pure ()
    | .error _ => ask .setAuthorityLost

/-- `Coordinator::request_shutdown` -/
def requestShutdown : M Unit := ask .setShutdown

end Coordinator

namespace Op

/-- what the operation returns -/
abbrev Out : Op → Type
  | .createObject _ => ReclaimObject
  | .touch _ _ => ReclaimObject
  | .pin _ _ => ReclaimObject
  | .unpin _ _ => ReclaimObject
  | .setProtected _ _ _ => ReclaimObject
  | .addLineage _ _ _ _ => Unit
  | .removeLineage _ _ _ _ => Unit
  | .plan _ _ => PolicyDecision
  | .reclaim _ => ReclaimReport
  | .compress _ _ => CompressionResult
  | .archive _ _ => ArchiveRecord
  | .restore _ _ => ReclaimObject
  | .verify _ _ => Json
  | .recover => RecoveryReport
  | .heartbeat => Unit
  | .requestShutdown => Unit

def prog (env : Env) : (op : Op) → M op.Out
  | .createObject req => Coordinator.createObject env req
  | .touch id actor => Coordinator.touch id actor
  | .pin id actor => Coordinator.pin id actor
  | .unpin id actor => Coordinator.unpin id actor
  | .setProtected id b actor => Coordinator.setProtected id b actor
  | .addLineage p c k actor => Coordinator.addLineage p c k actor
  | .removeLineage p c k actor => Coordinator.removeLineage p c k actor
  | .plan id actor => Coordinator.plan id actor
  | .reclaim req => Coordinator.reclaim env req
  | .compress id actor => Coordinator.compress env id actor
  | .archive id actor => Coordinator.archive env id actor
  | .restore id actor => Coordinator.restore env id actor
  | .verify id actor => Coordinator.verify env id actor
  | .recover => Coordinator.recover
  | .heartbeat => Coordinator.authorityHeartbeat
  | .requestShutdown => Coordinator.requestShutdown

end Op

/-! ## the record -/

/-- what happened: a step with the world before it, a return, a restart -/
inductive Event where
  | call (t : Tid) (op : Op) (c : Cmd) (r : c.Reply) (before : World)
  | returned (t : Tid) (op : Op) (r : Res op.Out)
  | restarted

/-- the shared state with its record, newest first -/
structure Traced extends World where
  log : List Event

/-- one atomic step, recorded -/
def Traced.exec (env : Env) (t : Tid) (op : Op) (c : Cmd) (i : Input) (w : Traced) :
    Option (c.Reply × Traced) :=
  (ReclaimFabric.exec env t c i w.toWorld).map fun x =>
    (x.1, ⟨x.2, .call t op c x.1 w.toWorld :: w.log⟩)

/-! ## the system -/

/-- an operation under way and what it still has to do -/
structure Thread where
  op : Op
  rest : Prog Cmd Cmd.Reply (Res op.Out)

structure Sys where
  shared : Traced
  threads : Tid → Option Thread
  serving : Bool

inductive Label where
  | start (t : Tid) (op : Op)
  | step (t : Tid) (i : Input)
  | restart (config : Config) (bootId : Uuid) (now : Int)

/-- the thread of the recovery `Coordinator::open` runs -/
def openingTid : Tid := 0

/-- recovery returned and left nothing unresolved -/
def Op.opened : (op : Op) → Res op.Out → Bool
  | .recover, .ok report => decide (report.errors = [])
  | _, _ => false

namespace Sys

def setThread (s : Sys) (t : Tid) (th : Option Thread) : Sys :=
  { s with threads := fun u => if u = t then th else s.threads u }

/-- an operation returns -/
def finish (s : Sys) (t : Tid) (op : Op) (r : Res op.Out) : Sys :=
  { s with
    shared := { s.shared with log := .returned t op r :: s.shared.log }
    threads := fun u => if u = t then none else s.threads u
    serving := s.serving || op.opened r }

/-- go on with a thread, which returns as soon as it has nothing left to do -/
def advance (s : Sys) (t : Tid) (th : Thread) : Sys :=
  match th.rest with
  | .ret r => s.finish t th.op r
  | .call _ _ => s.setThread t (some th)

section
variable (env : Env)

/-- what a backend still holds when the process is gone -/
def surviving (payloads : String → String → Option Bytes) : String → String → Option Bytes :=
  fun b k => if env.volatile b then none else payloads b k

/-- stop the process, if there is one, and open a new one -/
def restart (s : Sys) (config : Config) (bootId : Uuid) (now : Int) : Option Sys :=
  if bootId ∈ s.shared.issued then none
  else
    match s.shared.store.claimCoordinator config.processId bootId now
        (max config.nodeHeartbeatTimeoutMs 5000) with
    | .error _ => none
    | .ok (epoch, store) =>
      some
        { shared :=
            { store := store
              payloads := surviving env s.shared.payloads
              blobs := s.shared.blobs
              proc := Proc.start config epoch bootId
              issued := bootId :: s.shared.issued
              log := .restarted :: s.shared.log }
          threads := fun u =>
            if u = openingTid then some ⟨.recover, Op.prog env .recover⟩ else none
          serving := false }

def next : Label → Sys → Option Sys
  | .start t op, s =>
    match s.serving, s.threads t with
    | true, none => some (s.advance t ⟨op, op.prog env⟩)
    | _, _ => none
  | .step t i, s =>
    match s.threads t with
    | none => none
    | some th =>
      match th.rest with
      | .ret _ => none
      | .call c k =>
        match s.shared.exec env t th.op c i with
        | none => none
        | some (r, shared) => some ({ s with shared := shared }.advance t ⟨th.op, k r⟩)
  | .restart config bootId now, s => s.restart env config bootId now

end

/-- an empty store and no process -/
def init : Sys where
  shared :=
    { store := Store.new
      payloads := fun _ _ => none
      blobs := fun _ _ => none
      proc := Proc.start ⟨"", 0, 0, [], [], []⟩ 0 .nil
      issued := []
      log := [] }
  threads := fun _ => none
  serving := false

/-- nothing is under way -/
def Quiescent (s : Sys) : Prop := ∀ t, s.threads t = none

end Sys

/-- which labels the runs under consideration may take -/
abbrev Mode := Sys → Label → Prop

/-- the states of the runs whose labels the mode admits -/
inductive Reach (env : Env) (mode : Mode) : Sys → Prop where
  | init : Reach env mode Sys.init
  | next {s s' : Sys} (l : Label) : Reach env mode s → mode s l → s.next env l = some s' →
      Reach env mode s'

end ReclaimFabric
