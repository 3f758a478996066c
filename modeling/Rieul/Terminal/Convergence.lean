import Rieul.Terminal.Table

/-!
# Convergence of the terminal table

While broadcasts leave in the order of the changes and none is missed by a
subscription that joins, what a subscriber has, with all that it has still to
receive, is what the sessions are; a session that is being removed is excepted
until its removal is broadcast.
-/

namespace Rieul.Terminal
open Bytes Fallible Broadcast Replica

def SessionOp.removes : SessionOp → Bool
  | .close => true
  | .hostClosed _ => true
  | _ => false

section
variable (parseOscMetadata : Str → Option TerminalMetadata) (session : TerminalSession)
variable (info : TerminalSessionInfo) (events : List TerminalMetadata)

theorem TerminalSessionInfo.noteAll_id (changed : Bool)
    (events : List TerminalMetadata) :
    (info.noteAll changed events).1.terminalSessionId = info.terminalSessionId := by
  refine noteAll_keeps (·.terminalSessionId) ?_ info changed events
  intro info event
  cases event <;> rfl

theorem TerminalSessionInfo.noteAll_true : (info.noteAll true events).2 = true := by
  induction events generalizing info with
  | nil => rfl
  | cons event events ih =>
    unfold TerminalSessionInfo.noteAll
    split
    · exact ih info
    · exact ih _

theorem TerminalSessionInfo.noteAll_unchanged (h : (info.noteAll false events).2 = false) :
    (info.noteAll false events).1 = info := by
  induction events with
  | nil => rfl
  | cons event events ih =>
    unfold TerminalSessionInfo.noteAll at h ⊢
    split at h
    · rename_i heq
      rw [if_pos heq]
      exact ih h
    · rw [TerminalSessionInfo.noteAll_true] at h
      cases h

namespace TerminalSession

theorem takeControl_cases (attachId rpcSessionId cols rows : ℕ) :
    (∃ err, session.takeControl attachId rpcSessionId cols rows (.ok ()) = (session, .error err)) ∨
      ∃ next, session.takeControl attachId rpcSessionId cols rows (.ok ()) = (next, .ok next.info) ∧
        next.closed = session.closed ∧
        next.info.terminalSessionId = session.info.terminalSessionId := by
  unfold takeControl
  split
  · exact .inl ⟨_, rfl⟩
  · exact .inr ⟨_, rfl, rfl, rfl⟩

theorem markExited_cases (code : Option Int) (signal : Option String) (now : ℕ) :
    session.markExited code signal now = none ∨
      ∃ next, session.markExited code signal now = some next ∧ next.closed = session.closed ∧
        next.info.terminalSessionId = session.info.terminalSessionId := by
  unfold markExited
  split
  · exact .inl rfl
  · exact .inr ⟨_, rfl, rfl, rfl⟩

theorem recordOutput_cases (bytes : Str) (now : ℕ) :
    session.recordOutput parseOscMetadata bytes now = none ∨
      ∃ next updated, session.recordOutput parseOscMetadata bytes now = some (next, updated) ∧
        next.closed = session.closed ∧
        next.info.terminalSessionId = session.info.terminalSessionId ∧
        (updated = some next.info ∨ updated = none ∧ next.info.shown = session.info.shown) := by
  unfold recordOutput
  split
  · exact .inl rfl
  · refine .inr ⟨_, _, rfl, rfl, TerminalSessionInfo.noteAll_id _ _ _, ?_⟩
    split
    · exact .inl rfl
    · rename_i hchanged
      refine .inr ⟨rfl, ?_⟩
      rw [TerminalSessionInfo.noteAll_unchanged _ _ (Bool.eq_false_iff.mpr hchanged)]
      rfl

theorem update_open (op : SessionOp) (hopen : session.closed = false)
    (hop : op.removes = false) (hheard : op.Heard session) :
    (session.update parseOscMetadata op).1.closed = false ∧
    (session.update parseOscMetadata op).1.info.terminalSessionId =
      session.info.terminalSessionId ∧
    ((session.update parseOscMetadata op).2 =
        some (.upsert (session.update parseOscMetadata op).1.info) ∨
      (session.update parseOscMetadata op).2 = none ∧
        (session.update parseOscMetadata op).1.info.shown = session.info.shown) := by
  cases op with
  | close | hostClosed message => cases hop
  | detach attachId now => exact ⟨hopen, rfl, .inl rfl⟩
  | attach attachId rpcSessionId afterSeq now =>
    dsimp only [update]
    unfold attach
    rw [ensure_of _ _ hopen]
    exact ⟨hopen, rfl, .inl rfl⟩
  | takeControl attachId rpcSessionId cols rows resize =>
    dsimp only [update]
    cases hvalid : validateAttachOwner session attachId rpcSessionId with
    | error err =>
      unfold takeControl
      rw [hvalid]
      exact ⟨hopen, rfl, .inr ⟨rfl, rfl⟩⟩
    | ok u =>
      obtain ⟨_, rfl⟩ := hheard hvalid
      rcases session.takeControl_cases attachId rpcSessionId cols rows with
        ⟨err, h⟩ | ⟨next, h, hclosed, hid⟩
      · rw [h]
        exact ⟨hopen, rfl, .inr ⟨rfl, rfl⟩⟩
      · rw [h]
        exact ⟨hclosed.trans hopen, hid, .inl rfl⟩
  | exited code signal now =>
    dsimp only [update]
    rcases session.markExited_cases code signal now with h | ⟨next, h, hclosed, hid⟩
    · rw [h]
      exact ⟨hopen, rfl, .inr ⟨rfl, rfl⟩⟩
    · rw [h]
      exact ⟨hclosed.trans hopen, hid, .inl rfl⟩
  | output bytes now =>
    dsimp only [update]
    rcases session.recordOutput_cases parseOscMetadata bytes now with
      h | ⟨next, updated, h, hclosed, hid, hupdated⟩
    · rw [h]
      exact ⟨hopen, rfl, .inr ⟨rfl, rfl⟩⟩
    · rw [h]
      refine ⟨hclosed.trans hopen, hid, ?_⟩
      rcases hupdated with rfl | ⟨rfl, hshown⟩
      · exact .inl rfl
      · exact .inr ⟨rfl, hshown⟩

theorem update_closed (op : SessionOp) (hclosed : session.closed = true)
    (hop : op.removes = false) (hheard : op.Heard session) :
    session.update parseOscMetadata op = (session, none) := by
  cases op with
  | close | hostClosed message => cases hop
  | detach attachId now => exact absurd (hclosed.symm.trans hheard) nofun
  | takeControl attachId rpcSessionId cols rows resize =>
    cases hvalid : validateAttachOwner session attachId rpcSessionId with
    | error err =>
      dsimp only [update]
      unfold takeControl
      rw [hvalid]
    | ok u => exact absurd (hclosed.symm.trans (hheard hvalid).1) nofun
  | attach attachId rpcSessionId afterSeq now =>
    dsimp only [update]
    unfold attach ensure
    rw [hclosed, if_neg nofun]
    rfl
  | exited code signal now =>
    dsimp only [update]
    unfold markExited
    rw [if_pos (.inl hclosed)]
  | output bytes now =>
    dsimp only [update]
    unfold recordOutput
    rw [if_pos (.inl hclosed)]

theorem update_removes (op : SessionOp) (hopen : session.closed = false)
    (hop : op.removes = true) (hheard : op.Heard session) :
    (session.update parseOscMetadata op).1.closed = true ∧
    (session.update parseOscMetadata op).1.info.terminalSessionId =
      session.info.terminalSessionId ∧
    (session.update parseOscMetadata op).2 = some (.remove session.info.terminalSessionId) := by
  cases op with
  | close => exact ⟨rfl, rfl, rfl⟩
  | hostClosed message =>
    have hexit : session.info.exit = none := hheard
    dsimp only [update]
    unfold markHostClosed
    rw [if_neg (by simp [hopen, hexit])]
    exact ⟨rfl, rfl, rfl⟩
  | _ => cases hop

end TerminalSession

end

namespace TerminalManager

def removals (manager : TerminalManager) (id : ℕ) : ℕ :=
  manager.located.countP fun entry => entry.1 = id && entry.2.removes

def current (manager : TerminalManager) (id : ℕ) : Option Shown :=
  if id ∈ manager.listed then (manager.sessions id).map (·.info.shown) else none

def outstanding (manager : TerminalManager) : List (Change ℕ TerminalSessionInfo) :=
  manager.broadcasts.map (·.change)

def Placed (manager : TerminalManager) (id : ℕ) : Prop :=
  manager.sessions id = none ∧ id ∉ manager.listed ∧ manager.removals id = 0 ∨
  ∃ session, manager.sessions id = some session ∧ session.info.terminalSessionId = id ∧
    (session.closed = false ∧ id ∈ manager.listed ∧ manager.removals id = 0 ∨
      session.closed = false ∧ id ∉ manager.listed ∧ manager.removals id = 1 ∨
      session.closed = true ∧ id ∉ manager.listed ∧ manager.removals id = 0)

/-- A table that is still to see the changes and then what is outstanding, is right about a session
that is not being removed. -/
def Right (manager : TerminalManager) (changes : List (Change ℕ TerminalSessionInfo))
    (table : Table) (id : ℕ) : Prop :=
  manager.removals id = 0 →
    (settle (changes ++ manager.outstanding) table id).map (·.shown) = manager.current id

def Subscribed (manager : TerminalManager) (id : ℕ) : Subscription → Prop
  | .idle => True
  | .taken rows => manager.Right [] (rowsTable rows) id
  | .written table => manager.Right [] table id
  | .following next table => next ≤ manager.tableEvents.length ∧
      manager.Right ((manager.tableEvents.drop next).map (·.change)) table id

structure Good (manager : TerminalManager) : Prop where
  fresh : ∀ id, manager.nextSessionId ≤ id → manager.sessions id = none
  placed : ∀ id, manager.Placed id
  settled : ∀ id table, (table id).map (·.shown) = manager.current id → manager.Right [] table id
  subscribed : ∀ n id, manager.Subscribed id (manager.subscriptions n)

theorem new_good : TerminalManager.new.Good := by
  constructor
  · exact fun _ _ => rfl
  · exact fun _ => .inl ⟨rfl, List.not_mem_nil, rfl⟩
  · exact fun _ _ h _ => h
  · exact fun _ _ => True.intro

section
variable {manager changed : TerminalManager} (id : ℕ) (event : Option TableBroadcast)

structure ChangesOne (manager changed : TerminalManager) (id : ℕ) (event : Option TableBroadcast) :
    Prop where
  subscriptions : changed.subscriptions = manager.subscriptions
  tableEvents : changed.tableEvents = manager.tableEvents
  broadcasts : changed.broadcasts = manager.broadcasts ++ event.toList
  key : ∀ b, event = some b → b.change.key = id
  others : ∀ other, other ≠ id →
    changed.current other = manager.current other ∧ changed.removals other = manager.removals other
  heard : changed.removals id = 0 →
    (∃ b, event = some b ∧ b.change.value.map (·.shown) = changed.current id) ∨
      event = none ∧ changed.current id = manager.current id ∧ manager.removals id = 0

variable {id event} (h : manager.ChangesOne changed id event)
include h

theorem ChangesOne.right (changes : List (Change ℕ TerminalSessionInfo)) (table : Table) (other : ℕ)
    (hright : other ≠ id ∨ event = none → manager.Right changes table other) :
    changed.Right changes table other := by
  intro hremovals
  have houtstanding : changed.outstanding =
      manager.outstanding ++ event.toList.map (·.change) := by
    rw [outstanding, h.broadcasts, List.map_append]
    rfl
  rw [houtstanding, ← List.append_assoc]
  by_cases hother : other = id
  · rw [hother] at hremovals hright ⊢
    rcases h.heard hremovals with ⟨b, hevent, hshown⟩ | ⟨hevent, hcurrent, hzero⟩
    · have hkey := h.key b hevent
      rw [hevent, ← hshown, ← hkey]
      exact congrArg _ (settle_snoc_key _ _ b.change)
    · rw [hevent, hcurrent]
      simpa using hright (.inr hevent) hzero
  · obtain ⟨hcurrent, hsame⟩ := h.others other hother
    have hbefore := hright (.inl hother) (hsame ▸ hremovals)
    rw [hcurrent, ← hbefore]
    cases hevent : event with
    | none => simp
    | some b =>
      have hne : other ≠ b.change.key := by
        rw [h.key b hevent]
        exact hother
      exact congrArg _ (settle_snoc_of_ne _ _ _ b.change hne)

theorem ChangesOne.good (hgood : manager.Good)
    (hfresh : ∀ id, changed.nextSessionId ≤ id → changed.sessions id = none)
    (hplaced : ∀ id, changed.Placed id) : changed.Good := by
  refine ⟨hfresh, hplaced, ?_, ?_⟩
  · intro other table htable hremovals
    refine h.right [] table other (fun hsame => ?_) hremovals
    intro hzero
    apply hgood.settled other table _ hzero
    rw [htable]
    by_cases hother : other = id
    · rw [hother] at hremovals hsame ⊢
      rcases h.heard hremovals with ⟨b, hevent, _⟩ | ⟨_, hcurrent, _⟩
      · rw [hevent] at hsame
        exact absurd (hsame.resolve_left fun hne => hne rfl) nofun
      · exact hcurrent
    · exact (h.others other hother).1
  · intro n other
    have hbefore := hgood.subscribed n other
    rw [h.subscriptions]
    cases hsubscription : manager.subscriptions n with
    | idle => exact True.intro
    | taken rows | written table =>
      rw [hsubscription] at hbefore
      exact h.right [] _ other fun _ => hbefore
    | following next table =>
      rw [hsubscription] at hbefore
      refine ⟨?_, ?_⟩
      · rw [h.tableEvents]
        exact hbefore.1
      · rw [h.tableEvents]
        exact h.right _ _ other fun _ => hbefore.2

end

section
variable {manager changed : TerminalManager} {id : ℕ}

theorem current_of_same (hsessions : changed.sessions id = manager.sessions id)
    (hlisted : id ∈ changed.listed ↔ id ∈ manager.listed) :
    changed.current id = manager.current id := by
  unfold current
  rw [hsessions]
  simp only [hlisted]

theorem Placed.of_same (h : manager.Placed id) (hsessions : changed.sessions id = manager.sessions id)
    (hlisted : id ∈ changed.listed ↔ id ∈ manager.listed)
    (hremovals : changed.removals id = manager.removals id) : changed.Placed id := by
  unfold Placed
  rw [hsessions, hlisted, hremovals]
  exact h

theorem locate_good (h : manager.Good) (id : ℕ) (op : SessionOp) (hop : op.removes = false) :
    (manager.locate id op).Good := by
  unfold locate
  split
  · have hremovals : ∀ other, TerminalManager.removals { manager with
        located := manager.located ++ [(id, op)] } other = manager.removals other := by
      intro other
      simp [removals, List.countP_append, hop]
    have hone : manager.ChangesOne { manager with located := manager.located ++ [(id, op)] } id none :=
      ⟨rfl, rfl, (List.append_nil _).symm, fun b hnone => absurd hnone.symm (Option.some_ne_none b),
        fun other _ => ⟨rfl, hremovals other⟩,
        fun hzero => .inr ⟨rfl, rfl, (hremovals id).symm.trans hzero⟩⟩
    exact hone.good h h.fresh fun other => (h.placed other).of_same rfl Iff.rfl (hremovals other)
  · exact h

theorem remove_good (h : manager.Good) (id : ℕ) (op : SessionOp) (hop : op.removes = true) :
    (manager.remove id op).Good := by
  unfold remove
  split
  · rename_i hlisted
    have hremovals : ∀ other, TerminalManager.removals { manager with
        listed := manager.listed.filter (· ≠ id)
        located := manager.located ++ [(id, op)] } other =
          manager.removals other + if other = id then 1 else 0 := by
      intro other
      by_cases heq : other = id
      · simp [removals, List.countP_append, hop, heq]
      · simp [removals, List.countP_append, hop, heq, Ne.symm heq]
    have hmem : ∀ other, other ≠ id → (other ∈ manager.listed.filter (· ≠ id) ↔
        other ∈ manager.listed) := by
      intro other hne
      simp [hne]
    have hone : manager.ChangesOne { manager with
        listed := manager.listed.filter (· ≠ id)
        located := manager.located ++ [(id, op)] } id none := by
      refine ⟨rfl, rfl, (List.append_nil _).symm,
        fun b hnone => absurd hnone.symm (Option.some_ne_none b), ?_, ?_⟩
      · intro other hne
        refine ⟨current_of_same rfl (hmem other hne), ?_⟩
        rw [hremovals, if_neg hne, Nat.add_zero]
      · intro hzero
        rw [hremovals, if_pos rfl] at hzero
        omega
    apply hone.good h h.fresh
    intro other
    by_cases heq : other = id
    · rw [heq]
      rcases h.placed id with ⟨_, hunlisted, _⟩ | ⟨session, hsession, hid, hplaced⟩
      · exact absurd hlisted hunlisted
      · rcases hplaced with ⟨hopen, _, hzero⟩ | ⟨_, hunlisted, _⟩ | ⟨_, hunlisted, _⟩
        · refine .inr ⟨session, hsession, hid, .inr (.inl ⟨hopen, by simp, ?_⟩)⟩
          rw [hremovals, if_pos rfl, hzero]
        · exact absurd hlisted hunlisted
        · exact absurd hlisted hunlisted
    · refine (h.placed other).of_same rfl (hmem other heq) ?_
      rw [hremovals, if_neg heq, Nat.add_zero]
  · exact h

theorem create_good (h : manager.Good) (request : CreateTerminalSessionReq) (creator : String)
    (spawned : Except ServiceError (Option String)) (now : ℕ)
    (hcreate : manager.create request creator spawned now = .ok changed) : changed.Good := by
  obtain ⟨_, hcreate⟩ := (bind_unit_eq_ok _ _ _).mp hcreate
  obtain ⟨cwd, _, hcreate⟩ := (bind_eq_ok _ _ _).mp hcreate
  cases hcreate
  have hnone := h.fresh manager.nextSessionId (Nat.le_refl _)
  have hzero : manager.removals manager.nextSessionId = 0 := by
    rcases h.placed manager.nextSessionId with ⟨_, _, hzero⟩ | ⟨_, hsession, _⟩
    · exact hzero
    · exact absurd (hsession.symm.trans hnone) (Option.some_ne_none _)
  have hmem : ∀ other, other ≠ manager.nextSessionId →
      (other ∈ manager.listed ++ [manager.nextSessionId] ↔ other ∈ manager.listed) := by
    intro other hne
    simp [hne]
  refine @ChangesOne.good manager _ manager.nextSessionId (some (.upsert _))
    ⟨rfl, rfl, rfl, ?_, ?_, ?_⟩ h ?_ ?_
  · rintro _ ⟨⟩
    rfl
  · intro other hne
    exact ⟨current_of_same (Function.update_of_ne hne _ _) (hmem other hne), rfl⟩
  · intro _
    refine .inl ⟨_, rfl, ?_⟩
    simp [current, TableBroadcast.change]
  · intro other hle
    have hlt : manager.nextSessionId < other := hle
    exact (Function.update_of_ne (Nat.ne_of_gt hlt) _ _).trans (h.fresh other (Nat.le_of_lt hlt))
  · intro other
    by_cases heq : other = manager.nextSessionId
    · rw [heq]
      exact .inr ⟨_, Function.update_self _ _ _, rfl, .inl ⟨rfl, by simp, hzero⟩⟩
    · exact (h.placed other).of_same (Function.update_of_ne heq _ _) (hmem other heq) rfl

theorem countP_eraseIdx {α : Type} (p : α → Bool) (xs : List α) (k : ℕ) (x : α)
    (h : xs[k]? = some x) : xs.countP p = (xs.eraseIdx k).countP p + if p x then 1 else 0 := by
  induction xs generalizing k with
  | nil => cases h
  | cons y ys ih =>
    cases k with
    | zero =>
      cases h
      exact List.countP_cons
    | succ k =>
      rw [List.eraseIdx_cons_succ, List.countP_cons, List.countP_cons, ih k h]
      omega

end

section
variable {manager : TerminalManager} (parseOscMetadata : Str → Option TerminalMetadata)

/-- The step `update`. -/
def updated (manager : TerminalManager) (k id : ℕ) (op : SessionOp) (session : TerminalSession) :
    TerminalManager :=
  { manager with
    sessions := Function.update manager.sessions id (some (session.update parseOscMetadata op).1)
    located := manager.located.eraseIdx k
    broadcasts := manager.broadcasts ++ (session.update parseOscMetadata op).2.toList }

theorem updated_removals (k id other : ℕ) (op : SessionOp) (session : TerminalSession)
    (hop : manager.located[k]? = some (id, op)) :
    manager.removals other = (manager.updated parseOscMetadata k id op session).removals other +
      if id = other ∧ op.removes = true then 1 else 0 := by
  unfold removals
  rw [countP_eraseIdx _ manager.located k (id, op) hop]
  simp only [Bool.and_eq_true, decide_eq_true_eq]
  rfl

theorem updated_current (k id : ℕ) (op : SessionOp) (session : TerminalSession) :
    (manager.updated parseOscMetadata k id op session).current id =
      if id ∈ manager.listed then some (session.update parseOscMetadata op).1.info.shown
      else none := by
  unfold current updated
  dsimp only
  rw [Function.update_self]
  rfl

theorem updated_other (k id other : ℕ) (op : SessionOp) (session : TerminalSession)
    (hne : other ≠ id) : (manager.updated parseOscMetadata k id op session).sessions other =
      manager.sessions other :=
  Function.update_of_ne hne _ _

section
variable (h : manager.Good) (k id : ℕ) (op : SessionOp) (session : TerminalSession)
  (hop : manager.located[k]? = some (id, op)) (hsession : manager.sessions id = some session)
include h k id op session hop hsession

theorem updated_good
    (hkey : ∀ b, (session.update parseOscMetadata op).2 = some b → b.change.key = id)
    (hplaced : (manager.updated parseOscMetadata k id op session).Placed id)
    (hheard : (manager.updated parseOscMetadata k id op session).removals id = 0 →
      (∃ b, (session.update parseOscMetadata op).2 = some b ∧ b.change.value.map (·.shown) =
        (manager.updated parseOscMetadata k id op session).current id) ∨
      (session.update parseOscMetadata op).2 = none ∧
        (manager.updated parseOscMetadata k id op session).current id = manager.current id ∧
        manager.removals id = 0) :
    (manager.updated parseOscMetadata k id op session).Good := by
  have hremovals : ∀ other, other ≠ id →
      (manager.updated parseOscMetadata k id op session).removals other = manager.removals other := by
    intro other hne
    rw [updated_removals parseOscMetadata k id other op session hop,
      if_neg fun heq => hne heq.1.symm, Nat.add_zero]
  refine @ChangesOne.good manager _ id (session.update parseOscMetadata op).2
    ⟨rfl, rfl, rfl, hkey, ?_, hheard⟩ h ?_ ?_
  · intro other hne
    exact ⟨current_of_same (updated_other parseOscMetadata k id other op session hne) Iff.rfl,
      hremovals other hne⟩
  · intro other hle
    have hnone := h.fresh other hle
    have hne : other ≠ id := by
      intro heq
      rw [heq, hsession] at hnone
      cases hnone
    exact (updated_other parseOscMetadata k id other op session hne).trans hnone
  · intro other
    by_cases heq : other = id
    · rw [heq]
      exact hplaced
    · exact (h.placed other).of_same (updated_other parseOscMetadata k id other op session heq)
        Iff.rfl (hremovals other heq)

theorem update_good
    (hheard : op.Heard session) : (manager.updated parseOscMetadata k id op session).Good := by
  have hremovals := updated_removals parseOscMetadata k id id op session hop
  have hcurrent := @updated_current manager parseOscMetadata k id op session
  have hupdate : (manager.updated parseOscMetadata k id op session).sessions id =
      some (session.update parseOscMetadata op).1 := Function.update_self _ _ _
  rcases h.placed id with ⟨hnone, _⟩ | ⟨session', hsession', hid, hplaced⟩
  · exact absurd (hsession.symm.trans hnone) (Option.some_ne_none _)
  · cases hsession'.symm.trans hsession
    cases hremoves : op.removes with
    | false =>
      rw [if_neg (by simp [hremoves]), Nat.add_zero] at hremovals
      rcases hplaced with ⟨hopen, hlisted, hzero⟩ | ⟨hopen, hlisted, hone⟩ |
        ⟨hclosed, hlisted, hzero⟩
      · obtain ⟨hopen', hid', hevent⟩ := session.update_open parseOscMetadata op hopen hremoves hheard
        apply updated_good parseOscMetadata h k id op session hop hsession
        · rintro b hb
          rcases hevent with heq | ⟨heq, _⟩
          · cases heq.symm.trans hb
            exact hid'.trans hid
          · cases heq.symm.trans hb
        · exact .inr ⟨_, hupdate, hid'.trans hid, .inl ⟨hopen', hlisted, hremovals ▸ hzero⟩⟩
        · intro _
          rw [hcurrent, if_pos hlisted]
          rcases hevent with heq | ⟨heq, hshown⟩
          · exact .inl ⟨_, heq, rfl⟩
          · refine .inr ⟨heq, ?_, hzero⟩
            rw [current, if_pos hlisted, hsession, hshown]
            rfl
      · obtain ⟨hopen', hid', hevent⟩ := session.update_open parseOscMetadata op hopen hremoves hheard
        apply updated_good parseOscMetadata h k id op session hop hsession
        · rintro b hb
          rcases hevent with heq | ⟨heq, _⟩
          · cases heq.symm.trans hb
            exact hid'.trans hid
          · cases heq.symm.trans hb
        · exact .inr ⟨_, hupdate, hid'.trans hid, .inr (.inl ⟨hopen', hlisted, hremovals ▸ hone⟩)⟩
        · intro hzero
          omega
      · have hsame := session.update_closed parseOscMetadata op hclosed hremoves hheard
        apply updated_good parseOscMetadata h k id op session hop hsession
        · rw [hsame]
          exact nofun
        · refine .inr ⟨session, ?_, hid, .inr (.inr ⟨hclosed, hlisted, hremovals ▸ hzero⟩)⟩
          rw [hupdate, hsame]
        · intro _
          rw [hcurrent, if_neg hlisted]
          refine .inr ⟨by rw [hsame], ?_, hzero⟩
          rw [current, if_neg hlisted]
    | true =>
      rw [if_pos ⟨rfl, hremoves⟩] at hremovals
      rcases hplaced with ⟨_, _, hzero⟩ | ⟨hopen, hlisted, hone⟩ | ⟨_, _, hzero⟩
      · omega
      · obtain ⟨hclosed, hid', hevent⟩ :=
          session.update_removes parseOscMetadata op hopen hremoves hheard
        apply updated_good parseOscMetadata h k id op session hop hsession
        · rintro b hb
          cases hevent.symm.trans hb
          exact hid
        · exact .inr ⟨_, hupdate, hid'.trans hid, .inr (.inr ⟨hclosed, hlisted, by omega⟩)⟩
        · intro _
          rw [hcurrent, if_neg hlisted]
          exact .inl ⟨_, hevent, rfl⟩
      · omega

end

end

section
variable {manager : TerminalManager}

theorem rowsTable_snapshot (h : manager.Good) (id : ℕ) :
    (rowsTable manager.sessionsSnapshot id).map (·.shown) = manager.current id := by
  have hrows : ∀ ids : List ℕ, (∀ i ∈ ids, ∃ session, manager.sessions i = some session ∧
      session.info.terminalSessionId = i) →
      rowsTable (ids.filterMap fun i => (manager.sessions i).map (·.info)) id =
        if id ∈ ids then (manager.sessions id).map (·.info) else none := by
    intro ids hids
    induction ids with
    | nil => rfl
    | cons i ids ih =>
      rw [List.forall_mem_cons] at hids
      obtain ⟨⟨session, hsession, hid⟩, hids⟩ := hids
      have hrest := ih hids
      unfold rowsTable at hrest ⊢
      rw [List.filterMap_cons_some (by rw [hsession]; rfl), List.find?_cons, hid]
      by_cases heq : i = id
      · rw [decide_eq_true heq, if_pos (heq ▸ List.mem_cons_self), ← heq, hsession]
        rfl
      · rw [decide_eq_false heq, hrest]
        simp [Ne.symm heq]
  have hlisted : ∀ i ∈ manager.listed, ∃ session, manager.sessions i = some session ∧
      session.info.terminalSessionId = i := by
    intro i hi
    rcases h.placed i with ⟨_, hunlisted, _⟩ | ⟨session, hsession, hid, _⟩
    · exact absurd hi hunlisted
    · exact ⟨session, hsession, hid⟩
  rw [sessionsSnapshot, hrows manager.listed hlisted, current]
  split
  · rw [Option.map_map]
    rfl
  · rfl

theorem Good.subscription (h : manager.Good) (n : ℕ) (subscription : Subscription)
    (hright : ∀ id, manager.Subscribed id subscription) :
    Good { manager with
      subscriptions := Function.update manager.subscriptions n subscription } := by
  refine ⟨h.fresh, h.placed, h.settled, ?_⟩
  intro m id
  by_cases heq : m = n
  · rw [heq]
    dsimp only
    rw [Function.update_self]
    cases subscription <;> exact hright id
  · have hbefore := h.subscribed m id
    dsimp only
    rw [Function.update_of_ne heq]
    cases hsubscription : manager.subscriptions m <;> rw [hsubscription] at hbefore <;> exact hbefore

theorem taken_right (h : manager.Good) (id : ℕ) :
    manager.Right [] (rowsTable manager.sessionsSnapshot) id :=
  h.settled id _ (rowsTable_snapshot h id)

theorem receive_good (h : manager.Good) (n next : ℕ) (table : Table) (subscription : Subscription)
    (hsubscription : manager.subscriptions n = .following next table)
    (hreceive : manager.receive next table = some subscription) (id : ℕ) :
    manager.Subscribed id subscription := by
  have hbefore := h.subscribed n id
  rw [hsubscription] at hbefore
  obtain ⟨hle, hright⟩ := hbefore
  unfold receive at hreceive
  cases hrecv : recv TERMINAL_TABLE_CHANNEL_CAPACITY manager.tableEvents next with
  | none =>
    rw [hrecv] at hreceive
    cases hreceive
  | some received =>
    obtain ⟨event, next'⟩ := received
    rw [hrecv] at hreceive
    cases event with
    | value event =>
      cases hreceive
      obtain ⟨rfl, hdrop⟩ := recv_value _ _ _ _ _ hrecv
      have hlt : next < manager.tableEvents.length := by
        apply Nat.not_le.mp
        intro hge
        rw [List.drop_eq_nil_of_le hge] at hdrop
        cases hdrop
      refine ⟨hlt, fun hzero => ?_⟩
      have hsettled := hright hzero
      rw [hdrop, List.map_cons, List.cons_append, settle_cons] at hsettled
      rw [event.event_apply]
      exact hsettled
    | lagged =>
      cases hreceive
      obtain ⟨hnext', hlt⟩ := recv_lagged _ _ _ _ hrecv
      refine ⟨by omega, fun hzero => ?_⟩
      have hsettled := hright hzero
      obtain ⟨lost, hlost⟩ := drop_suffix manager.tableEvents next next' (Nat.le_of_lt hlt)
      rw [← hlost, List.map_append, List.append_assoc, settle_append] at hsettled
      show (settle _ (rowsTable manager.sessionsSnapshot) id).map (·.shown) = manager.current id
      rcases settle_touched_or ((manager.tableEvents.drop next').map (·.change) ++
        manager.outstanding) id with htouched | huntouched
      · rw [← hsettled, htouched]
      · rw [huntouched, rowsTable_snapshot h id]

end

section
variable {manager : TerminalManager}

/-- The step `broadcast`. -/
def sent (manager : TerminalManager) (k : ℕ) (event : TableBroadcast) : TerminalManager :=
  { manager with
    broadcasts := manager.broadcasts.eraseIdx k
    tableEvents := manager.tableEvents ++ [event] }

theorem outstanding_split (k : ℕ) (event : TableBroadcast)
    (hevent : manager.broadcasts[k]? = some event) :
    manager.outstanding = (manager.broadcasts.take k).map (·.change) ++
      event.change :: (manager.broadcasts.drop (k + 1)).map (·.change) ∧
    (manager.sent k event).outstanding = (manager.broadcasts.take k).map (·.change) ++
      (manager.broadcasts.drop (k + 1)).map (·.change) := by
  obtain ⟨hk, heq⟩ := List.getElem?_eq_some_iff.mp hevent
  constructor
  · have hsplit : manager.broadcasts =
        manager.broadcasts.take k ++ event :: manager.broadcasts.drop (k + 1) := by
      rw [← heq, ← List.drop_eq_getElem_cons hk, List.take_append_drop]
    rw [outstanding, hsplit, List.map_append, List.map_cons, ← hsplit]
  · unfold outstanding sent
    rw [List.eraseIdx_eq_take_drop_succ, List.map_append]

theorem broadcast_good (h : manager.Good) (k : ℕ) (event : TableBroadcast)
    (hevent : manager.broadcasts[k]? = some event)
    (hfirst : ∀ before ∈ manager.broadcasts.take k, before.change.key ≠ event.change.key)
    (hjoining : ∀ n, (∀ rows, manager.subscriptions n ≠ .taken rows) ∧
      ∀ table, manager.subscriptions n ≠ .written table) : (manager.sent k event).Good := by
  obtain ⟨hbefore, hafter⟩ := outstanding_split k event hevent
  have hkeys : ∀ change ∈ (manager.broadcasts.take k).map (·.change),
      change.key ≠ event.change.key := by
    intro change hchange
    obtain ⟨before, hmem, rfl⟩ := List.mem_map.mp hchange
    exact hfirst before hmem
  refine ⟨h.fresh, h.placed, ?_, ?_⟩
  · intro id table htable hzero
    have hsettled := h.settled id table htable hzero
    show (settle (manager.sent k event).outstanding table id).map (·.shown) = manager.current id
    rw [List.nil_append, hbefore, settle_append, settle_cons] at hsettled
    rw [hafter, settle_append]
    by_cases hid : id = event.change.key
    · rcases settle_touched_or ((manager.broadcasts.drop (k + 1)).map (·.change)) id with
        htouched | huntouched
      · rw [← hsettled, htouched]
      · rw [huntouched, settle_untouched _ _ _ fun change hmem => hid ▸ (hkeys change hmem).symm]
        exact htable
    · rw [← hsettled, settle_congr _ _ _ id (event.change.apply_of_ne _ id hid)]
  · intro n id
    have hsubscribed := h.subscribed n id
    show (manager.sent k event).Subscribed id (manager.subscriptions n)
    cases hsubscription : manager.subscriptions n with
    | idle => exact True.intro
    | taken rows => exact absurd hsubscription ((hjoining n).1 rows)
    | written table => exact absurd hsubscription ((hjoining n).2 table)
    | following next table =>
      rw [hsubscription] at hsubscribed
      obtain ⟨hle, hright⟩ := hsubscribed
      refine ⟨hle.trans (List.length_append ▸ Nat.le_add_right _ _), fun hzero => ?_⟩
      have hsettled := hright hzero
      show (settle (((manager.tableEvents ++ [event]).drop next).map (·.change) ++
        (manager.sent k event).outstanding) table id).map (·.shown) = manager.current id
      rw [hbefore, settle_append, ← settle_move _ _ _ _ _ hkeys] at hsettled
      rw [hafter, List.drop_append_of_le_length hle, List.map_append, List.append_assoc,
        settle_append]
      exact hsettled

end

section
variable (parseOscMetadata : Str → Option TerminalMetadata)

theorem step_good (manager next : TerminalManager) (h : manager.Good) (action : Action)
    (horderly : manager.Orderly action) (hstep : manager.step parseOscMetadata action = some next) :
    next.Good := by
  cases action with
  | create request creator spawned now =>
    dsimp only [step] at hstep
    cases hcreate : manager.create request creator spawned now with
    | error err =>
      rw [hcreate] at hstep
      cases hstep
      exact h
    | ok created =>
      rw [hcreate] at hstep
      cases hstep
      exact create_good h request creator spawned now hcreate
  | attach id rpcSessionId cols rows afterSeq now =>
    dsimp only [step] at hstep
    cases hvalid : validateSize cols rows with
    | error err =>
      rw [hvalid] at hstep
      cases hstep
      exact h
    | ok u =>
      rw [hvalid] at hstep
      cases hstep
      have hlocated := locate_good h id (.attach manager.nextAttachId rpcSessionId afterSeq now) rfl
      split
      · exact ⟨hlocated.fresh, hlocated.placed, hlocated.settled, hlocated.subscribed⟩
      · exact hlocated
  | detach id attachId now | output id bytes now | exited id code signal now =>
    cases hstep
    exact locate_good h id _ rfl
  | takeControl id attachId rpcSessionId cols rows resize =>
    dsimp only [step] at hstep
    cases hvalid : validateSize cols rows with
    | error err =>
      rw [hvalid] at hstep
      cases hstep
      exact h
    | ok u =>
      rw [hvalid] at hstep
      cases hstep
      exact locate_good h id _ rfl
  | close id | hostClosed id message =>
    cases hstep
    exact remove_good h id _ rfl
  | update k =>
    obtain ⟨⟨id, op⟩, hop, hstep⟩ := Option.bind_eq_some_iff.mp hstep
    obtain ⟨session, hsession, hstep⟩ := Option.bind_eq_some_iff.mp hstep
    cases hstep
    exact update_good parseOscMetadata h k id op session hop hsession (horderly id op session hop hsession)
  | broadcast k =>
    obtain ⟨event, hevent, hstep⟩ := Option.bind_eq_some_iff.mp hstep
    cases hstep
    exact broadcast_good h k event hevent (horderly.1 event hevent) horderly.2
  | take n =>
    dsimp only [step] at hstep
    split at hstep
    · cases hstep
      exact h.subscription n _ fun id => taken_right h id
    · cases hstep
  | write n =>
    dsimp only [step] at hstep
    split at hstep
    · rename_i rows hsubscription
      cases hstep
      apply h.subscription n
      intro id
      have hbefore := h.subscribed n id
      rw [hsubscription] at hbefore
      exact hbefore
    · cases hstep
  | follow n =>
    dsimp only [step] at hstep
    split at hstep
    · rename_i table hsubscription
      cases hstep
      apply h.subscription n
      intro id
      have hbefore := h.subscribed n id
      rw [hsubscription] at hbefore
      refine ⟨Nat.le_refl _, ?_⟩
      rw [List.drop_length]
      exact hbefore
    · cases hstep
  | receive n =>
    dsimp only [step] at hstep
    split at hstep
    · rename_i next table hsubscription
      obtain ⟨subscription, hreceive, rfl⟩ := Option.map_eq_some_iff.mp hstep
      exact h.subscription n _ fun id =>
        receive_good h n next table subscription hsubscription hreceive id
    · cases hstep

theorem good_converged (manager : TerminalManager) (h : manager.Good) (hquiet : manager.Quiet) :
    manager.Converged := by
  obtain ⟨hlocated, hbroadcasts, hreceived⟩ := hquiet
  intro n next table hsubscription id
  have hsubscribed := h.subscribed n id
  rw [hsubscription] at hsubscribed
  have hright := hsubscribed.2 (by rw [removals, hlocated]; rfl)
  rw [hreceived n next table hsubscription, List.drop_length, outstanding, hbroadcasts] at hright
  exact hright.trans (rowsTable_snapshot h id).symm

def OrderlyReachable : TerminalManager → Prop :=
  System.Reachable (· = TerminalManager.new) fun manager next =>
    ∃ action, manager.Orderly action ∧ manager.step parseOscMetadata action = some next

theorem OrderlyReachable.after {parseOscMetadata : Str → Option TerminalMetadata}
    {manager : TerminalManager} (h : OrderlyReachable parseOscMetadata manager)
    (next : TerminalManager) (action : Action) (horderly : manager.Orderly action)
    (hstep : manager.step parseOscMetadata action = some next) :
    OrderlyReachable parseOscMetadata next :=
  System.Reachable.next manager next h ⟨action, horderly, hstep⟩

theorem orderly_converges (manager : TerminalManager)
    (h : OrderlyReachable parseOscMetadata manager) (hquiet : manager.Quiet) : manager.Converged := by
  refine good_converged manager (h.invariant Good ?_ ?_) hquiet
  · rintro _ rfl
    exact new_good
  · rintro manager next hgood ⟨action, horderly, hstep⟩
    exact step_good parseOscMetadata manager next hgood action horderly hstep

end

def opened : Action := .create ⟨80, 24, none⟩ "client" (.ok none) 1

theorem opened_converges : ∃ manager, OrderlyReachable (fun _ => none) manager ∧
    manager.sessionsSnapshot.length = 1 ∧ (∃ table, manager.subscriptions 0 = .following 1 table) ∧
    manager.Converged := by
  have hnew : OrderlyReachable (fun _ => none) TerminalManager.new := .start _ rfl
  have hcreated := hnew.after _ opened True.intro rfl
  have hsent := hcreated.after _ (.broadcast 0)
    ⟨fun _ _ _ hbefore => absurd hbefore List.not_mem_nil, fun _ => ⟨nofun, nofun⟩⟩ rfl
  have htaken := hsent.after _ (.take 0) True.intro rfl
  have hwritten := htaken.after _ (.write 0) True.intro rfl
  have hfollows := hwritten.after _ (.follow 0) True.intro rfl
  refine ⟨_, hfollows, rfl, ⟨_, rfl⟩, orderly_converges (fun _ => none) _ hfollows ⟨rfl, rfl, ?_⟩⟩
  intro n next table hsubscription
  by_cases hn : n = 0
  · subst hn
    cases hsubscription
    rfl
  · simp [TerminalManager.new, hn] at hsubscription

/-- A session is created and broadcast between the snapshot of a subscription and its subscribing: the
subscriber never has it. -/
theorem opened_missed : ∃ manager,
    [Action.take 0, opened, .broadcast 0, .write 0, .follow 0].foldlM
        (TerminalManager.step fun _ => none) TerminalManager.new = some manager ∧
      manager.Quiet ∧ (∃ table, manager.subscriptions 0 = .following 1 table ∧ table 1 = none) ∧
      (rowsTable manager.sessionsSnapshot 1).isSome ∧ ¬ manager.Converged := by
  refine ⟨_, rfl, ⟨rfl, rfl, ?_⟩, ⟨_, rfl, rfl⟩, rfl, ?_⟩
  · intro n next table hsubscription
    by_cases hn : n = 0
    · subst hn
      cases hsubscription
      rfl
    · simp [TerminalManager.new, hn] at hsubscription
  · intro hconverged
    cases hconverged 0 1 _ rfl 1

end TerminalManager

end Rieul.Terminal
