import Rieul.Terminal.Convergence
import Rieul.Lib.Calls

/-!
# Attaches and their streams (daemon/host/src/server.rs, terminal.rs)

A stream's task attaches, streams, and detaches behind its last await. When its
connection ends the tasks of the connection are aborted at whatever await they are,
and there is nothing that detaches then.
-/

namespace Rieul.Terminal
open Bytes Fallible

/-- The task of `stream_attach_terminal_session` behind its attach. -/
structure AttachTask where
  attachId : ℕ
  rpcSessionId : ℕ

/-- `removed` when the session is no longer in the manager's table. `attachers` are the connections
that ever attached. -/
structure AttachableSession where
  session : TerminalSession
  removed : Bool
  connections : List ℕ
  nextRpcSessionId : ℕ
  nextAttachId : ℕ
  tasks : List AttachTask
  attachers : List ℕ

def AttachableSession.created (request : CreateTerminalSessionReq) (terminalSessionId : ℕ)
    (creatorClientId : String) (initialCwd : Option String) (now : ℕ) : AttachableSession :=
  ⟨.new request terminalSessionId creatorClientId initialCwd now, false, [], 1, 1, [], []⟩

inductive AttachStep where
  | connect
  | openStream (rpcSessionId : ℕ) (afterSeq : Option ℕ) (now : ℕ)
  | endStream (index now : ℕ)
  | endConnection (rpcSessionId : ℕ)
  | op (op : SessionOp)

def SessionOp.ofTask : SessionOp → Bool
  | attach _ _ _ _ => true
  | detach _ _ => true
  | _ => false

variable (parseOscMetadata : Str → Option TerminalMetadata)

namespace AttachableSession
variable (attachable : AttachableSession)

def openStream (rpcSessionId : ℕ) (afterSeq : Option ℕ) (now : ℕ) : Option AttachableSession :=
  if rpcSessionId ∈ attachable.connections then
    if attachable.removed then some attachable
    else match attachable.session.attach attachable.nextAttachId rpcSessionId afterSeq now with
      | .error _ => some { attachable with nextAttachId := attachable.nextAttachId + 1 }
      | .ok (session, attached) => some { attachable with
          session := session
          nextAttachId := attachable.nextAttachId + 1
          tasks := attachable.tasks ++ [⟨attached.attachId, rpcSessionId⟩]
          attachers := attachable.attachers ++ [rpcSessionId] }
  else none

/-- `stream_attached_terminal` returns, with or without an error, and the task detaches. -/
def endStream (index now : ℕ) : Option AttachableSession :=
  (attachable.tasks[index]?).map fun task => { attachable with
    session :=
      if attachable.removed then attachable.session
      else attachable.session.detach task.attachId now
    tasks := attachable.tasks.eraseIdx index }

/-- `run_rpc_session` returns, which aborts the tasks of its streams. -/
def endConnection (rpcSessionId : ℕ) : Option AttachableSession :=
  if rpcSessionId ∈ attachable.connections then
    some { attachable with
      connections := attachable.connections.filter (· ≠ rpcSessionId)
      tasks := attachable.tasks.filter (·.rpcSessionId ≠ rpcSessionId) }
  else none

def step : AttachStep → Option AttachableSession
  | .connect => some { attachable with
      connections := attachable.connections ++ [attachable.nextRpcSessionId]
      nextRpcSessionId := attachable.nextRpcSessionId + 1 }
  | .openStream rpcSessionId afterSeq now => attachable.openStream rpcSessionId afterSeq now
  | .endStream index now => attachable.endStream index now
  | .endConnection rpcSessionId => attachable.endConnection rpcSessionId
  | .op op =>
    if op.ofTask then none
    else some { attachable with
      session := attachable.session.apply parseOscMetadata op
      removed := attachable.removed || op.removes }

end AttachableSession

namespace AttachableSession
variable (attachable : AttachableSession)

/-- The owners of a session in the table are its streams, the connections that ended have none and
left the time of their detach, and nobody can use an attach without a stream. -/
structure Live : Prop where
  owners : ∀ attachId rpcSessionId, (attachId, rpcSessionId) ∈ attachable.session.attachOwners ↔
    ⟨attachId, rpcSessionId⟩ ∈ attachable.tasks
  ended : ∀ rpcSessionId ∈ attachable.attachers, rpcSessionId ∉ attachable.connections →
    (∀ owner ∈ attachable.session.attachOwners, owner.2 ≠ rpcSessionId) ∧
    attachable.session.info.lastDetachedAtMs.isSome = true
  unused : ∀ attachId, attachId ∉ attachable.tasks.map (·.attachId) → ∀ rpcSessionId,
    validateAttachOwner attachable.session attachId rpcSessionId =
      .error (.operationFailed "attach not found")

def unattached : AttachStep → Bool
  | .endConnection rpcSessionId => attachable.tasks.all (·.rpcSessionId ≠ rpcSessionId)
  | _ => true

def stepUnattached (step : AttachStep) : Option AttachableSession :=
  if attachable.unattached step then attachable.step parseOscMetadata step else none

structure Kept : Prop where
  owners : attachable.removed = false → ∀ attachId rpcSessionId,
    (attachId, rpcSessionId) ∈ attachable.session.attachOwners ↔
      ⟨attachId, rpcSessionId⟩ ∈ attachable.tasks
  fresh : ∀ task ∈ attachable.tasks, task.attachId < attachable.nextAttachId
  distinct : (attachable.tasks.map (·.attachId)).Nodup
  connected : ∀ task ∈ attachable.tasks, task.rpcSessionId ∈ attachable.connections
  detached : attachable.removed = false → ∀ rpcSessionId ∈ attachable.attachers,
    (∃ task ∈ attachable.tasks, task.rpcSessionId = rpcSessionId) ∨
      attachable.session.info.lastDetachedAtMs.isSome = true

variable {attachable} {next : AttachableSession}

theorem lookup_none (owners : List (ℕ × ℕ)) (attachId : ℕ)
    (h : ∀ rpcSessionId, (attachId, rpcSessionId) ∉ owners) : owners.lookup attachId = none := by
  induction owners with
  | nil => rfl
  | cons owner owners ih =>
    have hne : attachId ≠ owner.1 := by
      intro heq
      refine h owner.2 ?_
      rw [heq]
      exact List.mem_cons_self
    rw [List.lookup_cons, beq_false_of_ne hne]
    exact ih fun rpcSessionId hmem => h rpcSessionId (List.mem_cons_of_mem _ hmem)

theorem Kept.live (h : attachable.Kept) (htable : attachable.removed = false) :
    attachable.Live := by
  have howners := h.owners htable
  refine ⟨howners, ?_, ?_⟩
  · intro rpcSessionId hattacher hended
    have hnone : ∀ task ∈ attachable.tasks, task.rpcSessionId ≠ rpcSessionId := by
      intro task hmem heq
      rw [← heq] at hended
      exact hended (h.connected task hmem)
    refine ⟨?_, ?_⟩
    · intro owner hmem
      exact hnone _ ((howners owner.1 owner.2).mp hmem)
    · rcases h.detached htable rpcSessionId hattacher with ⟨task, hmem, heq⟩ | hdetached
      · exact absurd heq (hnone task hmem)
      · exact hdetached
  · intro attachId hdead rpcSessionId
    unfold validateAttachOwner
    rw [lookup_none]
    intro owner hmem
    exact hdead (List.mem_map_of_mem ((howners attachId owner).mp hmem))

theorem Kept.openStream (h : attachable.Kept) (rpcSessionId : ℕ) (afterSeq : Option ℕ) (now : ℕ)
    (hstep : attachable.openStream rpcSessionId afterSeq now = some next) : next.Kept := by
  obtain ⟨hconnected, hstep⟩ := Option.ite_none_right_eq_some.mp hstep
  split at hstep
  · cases hstep
    exact h
  · split at hstep
    · cases hstep
      exact ⟨h.owners, fun task hmem => Nat.lt_succ_of_lt (h.fresh task hmem), h.distinct,
        h.connected, h.detached⟩
    · rename_i session attached hattach
      obtain ⟨-, hnext, -⟩ := attachable.session.attach_eq_ok session _ rpcSessionId afterSeq now
        attached hattach
      have hid : attached.attachId = attachable.nextAttachId := by
        obtain ⟨-, hattach⟩ := (bind_unit_eq_ok _ _ _).mp hattach
        cases hattach
        rfl
      cases hstep
      refine ⟨?_, ?_, ?_, ?_, ?_⟩
      · intro htable attachId owner
        rw [hnext, hid]
        simp only [List.mem_cons, List.mem_append, List.not_mem_nil, or_false, Prod.mk.injEq,
          AttachTask.mk.injEq, h.owners htable attachId owner]
        tauto
      · intro task hmem
        rcases List.mem_append.mp hmem with hold | hnew
        · exact Nat.lt_succ_of_lt (h.fresh task hold)
        · rw [List.mem_singleton.mp hnew, hid]
          exact Nat.lt_succ_self _
      · rw [List.map_append, hid]
        refine List.nodup_append.mpr ⟨h.distinct, List.nodup_singleton _, ?_⟩
        intro attachId hmem other hother heq
        obtain ⟨task, htask, hsame⟩ := List.mem_map.mp hmem
        have hlt := h.fresh task htask
        rw [hsame, heq, List.mem_singleton.mp hother] at hlt
        exact absurd hlt (Nat.lt_irrefl _)
      · intro task hmem
        rcases List.mem_append.mp hmem with hold | hnew
        · exact h.connected task hold
        · rw [List.mem_singleton.mp hnew]
          exact hconnected
      · intro htable connection hmem
        rcases List.mem_append.mp hmem with hold | hnew
        · rcases h.detached htable connection hold with ⟨task, htask, heq⟩ | hdetached
          · exact .inl ⟨task, List.mem_append_left _ htask, heq⟩
          · right
            rw [hnext]
            exact hdetached
        · rw [List.mem_singleton.mp hnew]
          exact .inl ⟨_, List.mem_append_right _ List.mem_cons_self, rfl⟩

theorem Kept.endStream (h : attachable.Kept) (index now : ℕ)
    (hstep : attachable.endStream index now = some next) : next.Kept := by
  obtain ⟨task, hindex, heq⟩ := Option.map_eq_some_iff.mp hstep
  have hperm := Calls.perm_eraseIdx hindex
  have hdistinct := (hperm.map (·.attachId)).nodup_iff.mpr h.distinct
  obtain ⟨hgone, hrest⟩ := List.nodup_cons.mp hdistinct
  rw [← heq]
  refine ⟨?_, fun other hmem => h.fresh other (List.mem_of_mem_eraseIdx hmem), hrest,
    fun other hmem => h.connected other (List.mem_of_mem_eraseIdx hmem), ?_⟩
  · intro htable attachId rpcSessionId
    have htable : attachable.removed = false := htable
    dsimp only
    rw [if_neg (by rw [htable]; exact Bool.false_ne_true)]
    simp only [TerminalSession.detach, List.mem_filter, h.owners htable attachId rpcSessionId,
      decide_eq_true_eq]
    constructor
    · rintro ⟨hmem, hne⟩
      rcases Calls.mem_or_mem_eraseIdx hindex _ hmem with hsame | hother
      · exact absurd (congrArg (·.attachId) hsame) hne
      · exact hother
    · intro hmem
      refine ⟨List.mem_of_mem_eraseIdx hmem, ?_⟩
      intro hsame
      refine hgone ?_
      show task.attachId ∈ _
      rw [← hsame]
      exact List.mem_map_of_mem (f := (·.attachId)) hmem
  · intro htable connection _
    have htable : attachable.removed = false := htable
    right
    dsimp only
    rw [if_neg (by rw [htable]; exact Bool.false_ne_true)]
    rfl

theorem Kept.endConnection (h : attachable.Kept) (rpcSessionId : ℕ)
    (hunattached : attachable.unattached (.endConnection rpcSessionId) = true)
    (hstep : attachable.endConnection rpcSessionId = some next) : next.Kept := by
  obtain ⟨-, heq⟩ := Option.ite_none_right_eq_some.mp hstep
  have hfilter : attachable.tasks.filter (·.rpcSessionId ≠ rpcSessionId) = attachable.tasks :=
    List.filter_eq_self.mpr (List.all_eq_true.mp hunattached)
  rw [hfilter] at heq
  cases heq
  refine ⟨h.owners, h.fresh, h.distinct, ?_, h.detached⟩
  intro task hmem
  exact List.mem_filter.mpr ⟨h.connected task hmem, List.all_eq_true.mp hunattached task hmem⟩

theorem apply_owners (session : TerminalSession) (op : SessionOp) (hop : op.ofTask = false) :
    (session.apply parseOscMetadata op).attachOwners = session.attachOwners ∧
      (session.apply parseOscMetadata op).info.lastDetachedAtMs = session.info.lastDetachedAtMs := by
  revert hop
  refine session.apply_cases (P := fun op next => op.ofTask = false →
    next.attachOwners = session.attachOwners ∧
      next.info.lastDetachedAtMs = session.info.lastDetachedAtMs)
    parseOscMetadata op (fun _ _ => ⟨rfl, rfl⟩) ?_ ?_ ?_ ?_ (fun _ => ⟨rfl, rfl⟩)
    (fun _ _ _ _ _ => ⟨rfl, rfl⟩) (fun _ _ => ⟨rfl, rfl⟩)
  · intro bytes now result h _
    unfold TerminalSession.recordOutput at h
    split at h
    · cases h
    · cases h
      refine ⟨rfl, ?_⟩
      refine TerminalSessionInfo.noteAll_keeps (·.lastDetachedAtMs) ?_ _ _ _
      intro info event
      cases event <;> rfl
  · intro attachId rpcSessionId afterSeq now hop
    cases hop
  · intro attachId now hop
    cases hop
  · intro attachId rpcSessionId cols rows resize _
    unfold TerminalSession.takeControl
    split
    · exact ⟨rfl, rfl⟩
    · split
      · exact ⟨rfl, rfl⟩
      · exact ⟨rfl, rfl⟩

theorem Kept.step (h : attachable.Kept) (step : AttachStep)
    (hstep : attachable.stepUnattached parseOscMetadata step = some next) : next.Kept := by
  obtain ⟨hunattached, hstep⟩ := Option.ite_none_right_eq_some.mp hstep
  cases step with
  | connect =>
    cases hstep
    exact ⟨h.owners, h.fresh, h.distinct,
      fun task hmem => List.mem_append_left _ (h.connected task hmem), h.detached⟩
  | openStream rpcSessionId afterSeq now => exact h.openStream rpcSessionId afterSeq now hstep
  | endStream index now => exact h.endStream index now hstep
  | endConnection rpcSessionId => exact h.endConnection rpcSessionId hunattached hstep
  | op op =>
    obtain ⟨hop, heq⟩ := Option.ite_none_left_eq_some.mp hstep
    obtain ⟨howners, hdetached⟩ := apply_owners parseOscMetadata attachable.session op
      (Bool.eq_false_of_not_eq_true hop)
    cases heq
    refine ⟨?_, h.fresh, h.distinct, h.connected, ?_⟩
    · intro htable attachId rpcSessionId
      rw [howners]
      exact h.owners (Bool.or_eq_false_iff.mp htable).1 attachId rpcSessionId
    · intro htable connection hmem
      rw [hdetached]
      exact h.detached (Bool.or_eq_false_iff.mp htable).1 connection hmem

end AttachableSession

theorem attaches_live (request : CreateTerminalSessionReq) (terminalSessionId : ℕ)
    (creatorClientId : String) (initialCwd : Option String) (now : ℕ) (steps : List AttachStep)
    (attachable : AttachableSession)
    (hrun : steps.foldlM (AttachableSession.stepUnattached parseOscMetadata)
      (.created request terminalSessionId creatorClientId initialCwd now) = some attachable)
    (htable : attachable.removed = false) : attachable.Live := by
  have hkept : attachable.Kept := by
    refine System.run_invariant (AttachableSession.stepUnattached parseOscMetadata) (·.Kept) ?_
      steps ?_ hrun
    · exact fun attachable step next h hstep => h.step parseOscMetadata step hstep
    · refine ⟨?_, fun _ hmem => absurd hmem List.not_mem_nil, List.nodup_nil,
        fun _ hmem => absurd hmem List.not_mem_nil, fun _ _ hmem => absurd hmem List.not_mem_nil⟩
      intro _ attachId rpcSessionId
      exact ⟨fun hmem => absurd hmem List.not_mem_nil, fun hmem => absurd hmem List.not_mem_nil⟩
  exact hkept.live htable

def unusedShell : AttachableSession := .created ⟨80, 24, none⟩ 1 "client" none 0

def politeRun : List AttachStep :=
  [.connect, .openStream 1 none 5, .connect, .openStream 2 none 6, .endStream 0 7,
    .endConnection 1]

def lostConnection : List AttachStep := [.connect, .openStream 1 none 5, .endConnection 1]

theorem attaches_live_politeRun : ∃ attachable,
    politeRun.foldlM (AttachableSession.stepUnattached fun _ => none) unusedShell =
      some attachable ∧
    attachable.connections = [2] ∧ attachable.session.attachOwners = [(2, 2)] ∧
    attachable.Live := by
  refine ⟨_, rfl, rfl, rfl, ?_⟩
  exact attaches_live (fun _ => none) ⟨80, 24, none⟩ 1 "client" none 0 politeRun _ rfl rfl

theorem attach_leaked : ∃ attachable,
    lostConnection.foldlM (AttachableSession.step fun _ => none) unusedShell = some attachable ∧
    attachable.removed = false ∧ attachable.connections = [] ∧ attachable.tasks = [] ∧
    attachable.session.attachOwners = [(1, 1)] ∧
    attachable.session.info.lastDetachedAtMs = none ∧
    validateAttachOwner attachable.session 1 1 = .ok () ∧ ¬ attachable.Live := by
  refine ⟨_, rfl, rfl, rfl, rfl, rfl, rfl, rfl, ?_⟩
  intro hlive
  have hmem := (hlive.owners 1 1).mp List.mem_cons_self
  exact absurd hmem List.not_mem_nil

end Rieul.Terminal
