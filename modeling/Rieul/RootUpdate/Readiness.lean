import Rieul.RootUpdate.Migration
import Rieul.Lib.System
import Rieul.Lib.Trace

/-!
# What a migration exposes

In a resume the policy is enabled behind the health check and the GUI sessions.
-/

namespace Rieul.RootUpdate
open Trace

def ResumeEvent.Justified : ResumeEvent → List ResumeEvent → Prop
  | healthy pid, before => .counted pid ∈ before
  | tried pending, before =>
    ∃ users, pending = some users ∧ ∀ uid, uid ∈ users ↔ .session uid false ∈ before
  | enabled, before =>
    ∃ later earlier pid, before = later ++ .tried (some []) :: earlier ∧ .healthy pid ∈ earlier
  | _, _ => True

def Late (record : Option Migration) : Prop :=
  ∀ m, record = some m → m.phase = .starting ∨ m.phase = .complete

/-- A daemon read the record in one of the last phases, found the worker live and the request of the
record; or it read that there is no record. -/
def Admitted (before : List StartEvent) : Prop :=
  .read none ∈ before ∨
    ∃ m, .read (some m) ∈ before ∧ (m.phase = .starting ∨ m.phase = .complete) ∧
      .inspected true ∈ before ∧ .requested (some m.request) ∈ before

def StartEvent.Justified : StartEvent → List StartEvent → Prop
  | opened record, before => Admitted before ∧ Late record
  | _, _ => True

namespace Host

def Forward (host next : Host) : Prop :=
  ∀ m', next.dir.migration = some m' →
    ∃ m, host.dir.migration = some m ∧ m.phase.rank ≤ m'.phase.rank

/-- The policy is enabled only by a resume whose health check succeeded and that finished the GUI
sessions, the record goes forward and is retired with the policy enabled, a daemon opens the database
only where it may, no process that is parked is counted as ready, and the pending users are those whose
session failed. -/
structure Guarded (host : Host) : Prop where
  resumed : Sound ResumeEvent.Justified host.resumed
  enabled : ∀ step next, host.step step = some next → next.dir.policy ≠ host.dir.policy →
    next.resumed = .enabled :: host.resumed
  forward : ∀ (steps : List HostStep) (next : Host), steps.foldlM step host = some next → host.Forward next
  retired : host.dir.migration = none → host.dir.policy = some ⟨1, true⟩
  starts : ∀ pid, Sound StartEvent.Justified (host.starts pid)
  counted : ∀ step next pid, host.step step = some next →
    next.resumed = .counted pid :: host.resumed → .parks ∉ host.starts pid
  parked : ∀ pid, host.daemons pid = some .waking ∨ host.daemons pid = some .parked →
    .parks ∈ host.starts pid

def Healthy (resumed : List ResumeEvent) : Prop := ∃ pid, .healthy pid ∈ resumed

def Untried (resumed : List ResumeEvent) : Prop := ∀ uid, .session uid false ∉ resumed

structure Trying (resumed : List ResumeEvent) (pending rest errors : List ℕ) : Prop where
  healthy : Healthy resumed
  nodup : rest.Nodup
  kept : pending.Nodup
  untried : ∀ uid ∈ rest, .session uid false ∉ resumed
  pending : ∀ uid, uid ∈ pending ↔ uid ∈ rest ∨ .session uid false ∈ resumed
  errors : ∀ uid, uid ∈ errors ↔ .session uid false ∈ resumed

def Fits (dir : Dir) (resumed : List ResumeEvent) (m : Migration) : Stage → Prop
  | .validate => Untried resumed
  | .saveStopping => m.phase.rank ≤ 1 ∧ Untried resumed
  | .stopLegacy | .installRegistration | .saveRegistered => m.phase.rank ≤ 2 ∧ Untried resumed
  | .saveStarting => m.phase.rank ≤ 3 ∧ Untried resumed
  | .inspectJob _ | .readParked _ _ | .readReady _ _ | .stopJob | .removeReady | .saveRequest
  | .startJob => 3 ≤ m.phase.rank ∧ Untried resumed
  | .verifyPid pid => 3 ≤ m.phase.rank ∧ Untried resumed ∧ .counted pid ∈ resumed
  | .saveComplete => 3 ≤ m.phase.rank ∧ Untried resumed ∧ Healthy resumed
  | .installAgent | .loadGuis | .discoverGuis => Untried resumed ∧ Healthy resumed
  | .saveGuis pending => Untried resumed ∧ Healthy resumed ∧ pending.Nodup
  | .session pending rest errors =>
    Trying resumed pending rest errors ∧ dir.migrationGuis = some pending
  | .savePending pending rest errors => Trying resumed pending rest errors
  | .enable => ResumeEvent.Justified .enabled resumed
  | .saveResult | .removeRecord => dir.policy = some ⟨1, true⟩
  | .discardApp => True

/-- What is known of a daemon; `unready` is that no receipt has its process. -/
def FitsDaemon (starts : List StartEvent) (unready : Prop) (late : Prop) : Daemon → Prop
  | .launched _ => .parks ∉ starts
  | .bound _ m => .parks ∉ starts ∧ .read (some m) ∈ starts
  | .inspected _ m workerRunning => .parks ∉ starts ∧ .read (some m) ∈ starts ∧
      (workerRunning = true → .inspected true ∈ starts)
  | .allowed _ | .capturing _ => .parks ∉ starts ∧ Admitted starts ∧ late
  | .refused _ _ => .parks ∉ starts
  | .parking _ _ => .parks ∉ starts ∧ unready
  | .waking | .parked => .parks ∈ starts
  | .serving _ | .acknowledging _ => .parks ∉ starts

def Unready (dir : Dir) (pid : ℕ) : Prop := ∀ ready, dir.ready = some ready → ready.pid ≠ pid

def Seen (record : Option Migration) (m : Migration) : Prop :=
  ∀ m', record = some m' → m.phase.rank ≤ m'.phase.rank

structure Kept (host : Host) : Prop where
  resumed : Sound ResumeEvent.Justified host.resumed
  starts : ∀ pid, Sound StartEvent.Justified (host.starts pid)
  worker : ∀ m stage, host.worker = some (.resuming m stage) →
    Fits host.dir host.resumed m stage ∧ (stage ≠ .discardApp → host.dir.migration = some m)
  guis : ∀ pending, host.dir.migrationGuis = some pending → pending.Nodup
  retired : host.dir.migration = none → host.dir.policy = some ⟨1, true⟩
  seen : ∀ pid m, .read (some m) ∈ host.starts pid → Seen host.dir.migration m
  daemons : ∀ pid daemon, host.daemons pid = some daemon →
    FitsDaemon (host.starts pid) (Unready host.dir pid) (Late host.dir.migration) daemon
  parks : ∀ pid, .parks ∈ host.starts pid → Unready host.dir pid

end Host
end Rieul.RootUpdate
