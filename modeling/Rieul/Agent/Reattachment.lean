import Rieul.Agent.Attachment
import Rieul.Agent.EventStream

/-!
# One runtime for a session

The attachment lock is held from the look for a runtime to the installation of one,
so that the row it was started from is that of the session as long as nothing is
written in between; afterwards the transactions go through the live session.
-/

namespace Rieul.Agent

structure SessionColumns where
  title : Option String
  archived : Bool
  providerSessionId : Option String
  deriving DecidableEq

def StoredSession.columns (row : StoredSession) : SessionColumns :=
  ⟨row.title, row.archived, row.providerSessionId⟩

def AgentSessionInfo.columns (session : AgentSessionInfo) : SessionColumns :=
  ⟨session.title, session.archived, session.providerSessionId⟩

def Publication.columns (columns : SessionColumns) (publication : Publication) : SessionColumns :=
  if publication.change.keepsLock then columns
  else { columns with
    title := publication.stored.title
    archived := publication.stored.archived }

theorem LiveChange.write_columns (change : LiveChange) (stored : StoredSession)
    (snapshot : AgentSessionLiveSnapshot) (events : Option (List AgentSessionEvent)) :
    (change.write stored snapshot).1.session.columns =
      Publication.columns snapshot.session.columns ⟨change, stored, events⟩ := by
  cases change with
  | create new | update title archived | config options | chunk turnId messageId text
  | usage used => rfl
  | finish turnId messageId outcome =>
    dsimp only [LiveChange.write]
    split
    · rfl
    · split
      · rfl
      · rfl
  | exit message =>
    cases message with
    | none | some message => rfl

theorem LiveChange.commit_columns (change : LiveChange) (row stored : StoredSession)
    (events : Option (List AgentSessionEvent)) (h : change.commit row = some stored) :
    stored.columns = Publication.columns row.columns ⟨change, stored, events⟩ := by
  cases change with
  | create new =>
    obtain ⟨-, rfl⟩ := LiveChange.commit_create h
    rfl
  | chunk turnId messageId text =>
    rw [LiveChange.commit_chunk h]
    rfl
  | update title archived | config options | usage used | finish turnId messageId outcome
  | exit message =>
    cases h
    rfl

def AttachedSession.Current (attached : AttachedSession) : Prop :=
  attached.live.waiting.foldl Publication.columns attached.live.snapshot.session.columns =
    attached.row.columns

theorem AttachedSession.Effect.current {attached next : AttachedSession}
    (h : attached.Effect next) (hcurrent : attached.Current) : next.Current := by
  unfold AttachedSession.Current at hcurrent ⊢
  cases h with
  | none hrow hsnapshot hwaiting =>
    rw [hrow, hsnapshot, hwaiting]
    exact hcurrent
  | commit change hchecked hcommit hsnapshot hwaiting =>
    rw [hwaiting, hsnapshot, List.foldl_append, hcurrent]
    exact (change.commit_columns _ _ Option.none hcommit).symm
  | write change stored hrow htold hseq hsnapshot hwaiting =>
    rw [hwaiting, List.foldl_cons, ← change.write_columns stored] at hcurrent
    rw [hrow, hsnapshot]
    exact hcurrent

namespace AgentConversation
variable (conversation : AgentConversation)

def unattached : Bool :=
  conversation.current = none ∧
    (conversation.attaching = none ∨ conversation.attaching = some .locked)

/-- The row that a creation read is still the session's when it takes the lock; a start that failed
has ended before the next; the row is written through the runtime that is attached, or through none
where none is; and snapshots are written and events sent in the order of the transactions. -/
def undisturbed : ConversationStep → Bool
  | .lockCreated index => conversation.current.isSome ∨
      (conversation.creating[index]?).all fun session =>
        session.columns = conversation.row.columns
  | .startRuntime => conversation.alive.all (· ∉ conversation.abandoned)
  | .updateUnattached _ _ => conversation.unattached
  | .live index (.commit ok) => !ok ∨ conversation.current = some index ∨ conversation.unattached
  | .live index step => (conversation.entries[index]?).all (·.live.inOrder step)
  | _ => true

def stepUndisturbed (step : ConversationStep) : Option AgentConversation :=
  if conversation.undisturbed step then conversation.step step else none

def holder : Option ℕ :=
  match conversation.attaching with
  | some (.starting start) => some start.task
  | some (.ready ready) => some ready.start.task
  | some (.stored ready) => some ready.start.task
  | _ => (conversation.current.bind (conversation.entries[·]?)).map (·.task)

def FreshStart (row : StoredSession) (start : RuntimeStart) : Prop :=
  start.persisted.columns = row.columns ∧ start.latestSeq = row.latestSeq

def Fresh (row : StoredSession) : Attaching → Prop
  | .locked => True
  | .persisted session => session.columns = row.columns
  | .starting start => FreshStart row start
  | .ready ready => FreshStart row ready.start ∧
      ∀ id ∈ row.providerSessionId, id = ready.providerSessionId
  | .stored ready => ready.start.persisted.title = row.title ∧
      ready.start.persisted.archived = row.archived ∧
      ready.start.latestSeq = row.latestSeq ∧
      row.providerSessionId = some ready.providerSessionId

def Follows (row : StoredSession) (entry : AgentRuntimeEntry) : Prop :=
  (∃ initial, AttachedSession.Streamed initial ⟨row, entry.live⟩) ∧
    AttachedSession.Current ⟨row, entry.live⟩

structure Single : Prop where
  exclusive : conversation.attaching.isSome → conversation.current = none
  fresh : ∀ attaching, conversation.attaching = some attaching → Fresh conversation.row attaching
  entry : ∀ index, conversation.current = some index → ∃ entry,
    conversation.entries[index]? = some entry ∧ Follows conversation.row entry
  alive : ∀ task ∈ conversation.alive, task ∈ conversation.abandoned ∨
    conversation.holder = some task
  single : conversation.alive.length ≤ 1

variable {conversation} {next : AgentConversation}

section
variable (h : conversation.Single)
include h

theorem Single.of_same (hrow : next.row = conversation.row)
    (hattaching : next.attaching.isSome → next.current = none)
    (hfresh : ∀ attaching, next.attaching = some attaching → Fresh next.row attaching)
    (hcurrent : next.current = conversation.current) (hentries : next.entries = conversation.entries)
    (halive : next.alive = conversation.alive) (habandoned : next.abandoned = conversation.abandoned)
    (hholder : next.holder = conversation.holder) : next.Single := by
  refine ⟨hattaching, hfresh, ?_, ?_, ?_⟩
  · rw [hcurrent, hentries, hrow]
    exact h.entry
  · rw [halive, habandoned, hholder]
    exact h.alive
  · rw [halive]
    exact h.single

theorem Single.lock (attaching : Attaching)
    (hfresh : conversation.current = none → Fresh conversation.row attaching)
    (hholder : ∀ current, { conversation with
      attaching := some attaching, current := current }.holder =
        (current.bind (conversation.entries[·]?)).map (·.task))
    (hstep : conversation.lock attaching = some next) : next.Single := by
  obtain ⟨hnone, hstep⟩ := Option.ite_none_left_eq_some.mp hstep
  split at hstep
  · cases hstep
    exact h
  · rename_i hcurrent
    have hcurrent : conversation.current = none := by simpa using hcurrent
    have hnone : conversation.attaching = none := by simpa using hnone
    cases hstep
    refine h.of_same rfl (fun _ => hcurrent) ?_ rfl rfl rfl rfl ?_
    · intro other heq
      cases heq
      exact hfresh hcurrent
    · refine (hholder conversation.current).trans ?_
      unfold holder
      rw [hnone]

theorem Single.abandon (task : ℕ)
    (hholder : conversation.holder = some task)
    (hcurrent : conversation.current = none) : (conversation.abandon task).Single := by
  refine ⟨nofun, nofun, ?_, ?_, h.single⟩
  · intro index heq
    rw [show conversation.current = some index from heq] at hcurrent
    cases hcurrent
  · intro other hmem
    refine .inl ?_
    rcases h.alive other hmem with habandoned | heq
    · exact List.mem_append_left _ habandoned
    · rw [hholder] at heq
      cases heq
      exact List.mem_append_right _ (List.mem_singleton_self _)

theorem Single.readRow (providerKnown : Bool)
    (hstep : conversation.readRow providerKnown = some next) : next.Single := by
  unfold AgentConversation.readRow at hstep
  split at hstep
  · rename_i hlocked
    cases hstep
    have hcurrent := h.exclusive (by rw [hlocked]; rfl)
    refine h.of_same rfl (fun _ => hcurrent) ?_ rfl rfl rfl rfl ?_
    · intro attaching heq
      cases providerKnown with
      | true =>
        cases heq
        exact rfl
      | false => cases heq
    · unfold holder
      rw [hlocked]
      cases providerKnown with
      | true | false => rfl
  · cases hstep

theorem Single.startRuntime (hended : conversation.undisturbed .startRuntime = true)
    (hstep : conversation.startRuntime = some next) : next.Single := by
  unfold AgentConversation.startRuntime at hstep
  split at hstep
  · rename_i session hpersisted
    have hcurrent := h.exclusive (by rw [hpersisted]; rfl)
    have hholder : conversation.holder = none := by
      unfold holder
      rw [hpersisted, hcurrent]
      rfl
    -- no task is alive that is not of an abandoned start, and none of those
    have hnone : conversation.alive = [] := by
      apply List.eq_nil_iff_forall_not_mem.mpr
      intro task hmem
      rcases h.alive task hmem with habandoned | heq
      · exact of_decide_eq_true (List.all_eq_true.mp hended task hmem) habandoned
      · rw [hholder] at heq
        cases heq
    cases hstep
    refine ⟨fun _ => hcurrent, ?_, ?_, ?_, ?_⟩
    · intro attaching heq
      cases heq
      exact ⟨h.fresh _ hpersisted, rfl⟩
    · intro index heq
      rw [show conversation.current = some index from heq] at hcurrent
      cases hcurrent
    · intro task hmem
      dsimp only at hmem
      rw [hnone, List.nil_append] at hmem
      rw [List.mem_singleton.mp hmem]
      exact .inr rfl
    · dsimp only
      rw [hnone]
      exact Nat.le_refl 1
  · cases hstep

theorem Single.started (ready : Option (String × List AgentConfigOption))
    (hstep : conversation.started ready = some next) : next.Single := by
  unfold AgentConversation.started at hstep
  split at hstep
  · rename_i start hstarting
    have hcurrent := h.exclusive (by rw [hstarting]; rfl)
    have hholder : conversation.holder = some start.task := by
      unfold holder
      rw [hstarting]
    have hfresh : FreshStart conversation.row start := h.fresh _ hstarting
    split at hstep
    · cases hstep
      exact h.abandon start.task hholder hcurrent
    · rename_i providerSessionId configOptions
      obtain ⟨hkeeps, hstep⟩ := Option.ite_none_right_eq_some.mp hstep
      cases hstep
      refine h.of_same rfl (fun _ => hcurrent) ?_ rfl rfl rfl rfl hholder.symm
      intro attaching heq
      cases heq
      refine ⟨hfresh, fun id hid => ?_⟩
      have hpersisted : start.persisted.providerSessionId = some id :=
        (congrArg SessionColumns.providerSessionId hfresh.1).trans hid
      rw [hpersisted] at hkeeps
      exact of_decide_eq_true hkeeps
  · cases hstep

theorem Single.storeProviderSession (ok : Bool)
    (hstep : conversation.storeProviderSession ok = some next) :
    next.Single ∧ ∀ id, conversation.row.providerSessionId = some id →
      next.row.providerSessionId = some id := by
  unfold AgentConversation.storeProviderSession at hstep
  split at hstep
  · rename_i ready hready
    have hcurrent := h.exclusive (by rw [hready]; rfl)
    have hholder : conversation.holder = some ready.start.task := by
      unfold holder
      rw [hready]
    obtain ⟨⟨hcolumns, hseq⟩, hkeeps⟩ := h.fresh _ hready
    have hprovider : ready.start.persisted.providerSessionId = conversation.row.providerSessionId :=
      congrArg SessionColumns.providerSessionId hcolumns
    have htitle : ready.start.persisted.title = conversation.row.title :=
      congrArg SessionColumns.title hcolumns
    have harchived : ready.start.persisted.archived = conversation.row.archived :=
      congrArg SessionColumns.archived hcolumns
    split at hstep
    · rename_i hsome
      cases hstep
      refine ⟨h.of_same rfl (fun _ => hcurrent) ?_ rfl rfl rfl rfl hholder.symm, fun _ hid => hid⟩
      intro attaching heq
      cases heq
      refine ⟨htitle, harchived, hseq, ?_⟩
      have hrow : conversation.row.providerSessionId.isSome := hprovider ▸ hsome
      obtain ⟨id, hid⟩ := Option.isSome_iff_exists.mp hrow
      rw [hid, hkeeps id hid]
    · rename_i hnone
      -- the row has no id either
      have hrow : conversation.row.providerSessionId = none := by
        rw [← Option.not_isSome_iff_eq_none]
        exact fun hsome => hnone (hprovider.symm ▸ hsome)
      split at hstep
      · cases hstep
        refine ⟨⟨fun _ => hcurrent, ?_, ?_, ?_, h.single⟩, ?_⟩
        · intro attaching heq
          cases heq
          exact ⟨htitle, harchived, hseq, rfl⟩
        · intro index heq
          rw [show conversation.current = some index from heq] at hcurrent
          cases hcurrent
        · intro task hmem
          have halive := h.alive task hmem
          rw [hholder] at halive
          exact halive
        · intro id hid
          rw [hrow] at hid
          cases hid
      · cases hstep
        exact ⟨h.abandon ready.start.task hholder hcurrent, fun _ hid => hid⟩
  · cases hstep

theorem Single.install (ok : Bool)
    (hstep : conversation.install ok = some next) : next.Single := by
  unfold AgentConversation.install at hstep
  split at hstep
  · rename_i ready hstored
    have hcurrent := h.exclusive (by rw [hstored]; rfl)
    have hholder : conversation.holder = some ready.start.task := by
      unfold holder
      rw [hstored]
    obtain ⟨htitle, harchived, hseq, hprovider⟩ := h.fresh _ hstored
    split at hstep
    · cases hstep
      have hlast : (conversation.entries ++
          [(⟨ready.start.task, .started ready.snapshot⟩ : AgentRuntimeEntry)])[
            conversation.entries.length]? = some ⟨ready.start.task, .started ready.snapshot⟩ :=
        List.getElem?_concat_length
      refine ⟨nofun, nofun, ?_, ?_, h.single⟩
      · intro index heq
        cases heq
        refine ⟨_, hlast, ⟨ready.snapshot, ?_⟩, ?_⟩
        · exact AttachedSession.started_streamed _ _ hseq rfl
        · show (⟨ready.start.persisted.title, ready.start.persisted.archived,
            some ready.providerSessionId⟩ : SessionColumns) = conversation.row.columns
          unfold StoredSession.columns
          rw [htitle, harchived, hprovider]
      · intro task hmem
        have halive := h.alive task hmem
        rw [hholder] at halive
        refine halive.imp_right fun heq => ?_
        unfold holder
        dsimp only
        rw [Option.bind_some, hlast]
        exact heq
    · cases hstep
      exact h.abandon ready.start.task hholder hcurrent
  · cases hstep

theorem Single.removeRuntime (index : ℕ)
    (hstep : conversation.removeRuntime index = some next) : next.Single := by
  obtain ⟨entry, hentry, hstep⟩ := Option.bind_eq_some_iff.mp hstep
  obtain ⟨hended, hstep⟩ := Option.ite_none_left_eq_some.mp hstep
  cases hstep
  by_cases hindex : conversation.current = some index
  · have hattaching : conversation.attaching = none := by
      cases hattaching : conversation.attaching with
      | none => rfl
      | some attaching =>
        have hnone := h.exclusive (by rw [hattaching]; rfl)
        rw [hindex] at hnone
        cases hnone
    refine ⟨?_, ?_, ?_, ?_, h.single⟩
    · exact fun _ => if_pos hindex
    · exact h.fresh
    · intro other heq
      dsimp only at heq
      rw [if_pos hindex] at heq
      cases heq
    · intro task hmem
      refine .inl ((h.alive task hmem).resolve_right ?_)
      unfold holder
      rw [hattaching, hindex]
      dsimp only
      rw [Option.bind_some, hentry]
      intro heq
      cases heq
      exact hended hmem
  · rw [if_neg hindex]
    exact h

end

theorem onLive_row (index : ℕ) (step : LiveStep) (hcommit : step ≠ .commit true)
    (hstep : conversation.onLive index step = some next) : next.row = conversation.row := by
  obtain ⟨entry, -, hstep⟩ := Option.bind_eq_some_iff.mp hstep
  obtain ⟨attached, hattached, heq⟩ := Option.map_eq_some_iff.mp hstep
  rw [← heq]
  by_cases hok : ∃ ok, step = .commit ok
  · obtain ⟨ok, rfl⟩ := hok
    cases AttachedSession.commit_stepped ok hattached with
    | none hwrite hrow hsnapshot hwaiting
    | write position change stored hwritten hindex hrow hsnapshot hwaiting => exact hrow
    | commit change hcommitted => exact absurd hcommitted hcommit
  · exact AttachedSession.step_row _ attached step (fun ok heq => hok ⟨ok, heq⟩) hattached

theorem Single.onOther (h : conversation.Single) (index : ℕ) (step : LiveStep)
    (hindex : conversation.current ≠ some index)
    (hrow : step ≠ .commit true ∨ conversation.unattached = true)
    (hstep : conversation.onLive index step = some next) : next.Single := by
  have hsame := @onLive_row conversation next index step
  obtain ⟨entry, hentry, hattached⟩ := Option.bind_eq_some_iff.mp hstep
  obtain ⟨attached, -, heq⟩ := Option.map_eq_some_iff.mp hattached
  have hnext : next.attaching = conversation.attaching ∧ next.current = conversation.current ∧
      next.alive = conversation.alive ∧ next.abandoned = conversation.abandoned ∧
      next.entries = conversation.entries.set index { entry with live := attached.live } := by
    rw [← heq]
    exact ⟨rfl, rfl, rfl, rfl, rfl⟩
  obtain ⟨hattaching, hcurrent, halive, habandoned, hentries⟩ := hnext
  have hget : ∀ other, conversation.current = some other →
      next.entries[other]? = conversation.entries[other]? := by
    intro other hother
    rw [hentries, List.getElem?_set_ne]
    intro hsame
    rw [hsame] at hindex
    exact hindex hother
  have hfresh : ∀ attaching, next.attaching = some attaching → Fresh next.row attaching := by
    intro other hother
    rw [hattaching] at hother
    rcases hrow with hnot | hunattached
    · rw [hsame hnot hstep]
      exact h.fresh other hother
    · rcases (of_decide_eq_true hunattached).2 with hnone | hlocked
      · rw [hnone] at hother
        cases hother
      · rw [hlocked] at hother
        cases hother
        trivial
  refine ⟨?_, hfresh, ?_, ?_, ?_⟩
  · rw [hattaching, hcurrent]
    exact h.exclusive
  · rw [hcurrent]
    intro other hother
    obtain ⟨found, hfound, hfollows⟩ := h.entry other hother
    refine ⟨found, (hget other hother).trans hfound, ?_⟩
    rcases hrow with hnot | hunattached
    · rw [hsame hnot hstep]
      exact hfollows
    · rw [(of_decide_eq_true hunattached).1] at hother
      cases hother
  · rw [halive, habandoned]
    have hholder : next.holder = conversation.holder := by
      unfold holder
      rw [hattaching, hcurrent]
      cases hother : conversation.current with
      | none => rfl
      | some other => rw [Option.bind_some, Option.bind_some, hget other hother]
    rw [hholder]
    exact h.alive
  · rw [halive]
    exact h.single

theorem Single.onCurrent (h : conversation.Single) (index : ℕ) (step : LiveStep)
    (hindex : conversation.current = some index)
    (horder : (conversation.entries[index]?).all (·.live.inOrder step) = true)
    (hstep : conversation.onLive index step = some next) : next.Single := by
  obtain ⟨entry, hentry, hattached⟩ := Option.bind_eq_some_iff.mp hstep
  obtain ⟨attached, hattached, heq⟩ := Option.map_eq_some_iff.mp hattached
  obtain ⟨found, hfound, ⟨initial, hstreamed⟩, hcurrent⟩ := h.entry index hindex
  rw [hentry] at hfound horder
  cases hfound
  have hordered : AttachedSession.stepInOrder ⟨conversation.row, entry.live⟩ step = some attached := by
    unfold AttachedSession.stepInOrder
    rw [if_pos (show entry.live.inOrder step = true from horder)]
    exact hattached
  have hnone : conversation.attaching = none := by
    cases hattaching : conversation.attaching with
    | none => rfl
    | some attaching =>
      have hnot := h.exclusive (by rw [hattaching]; rfl)
      rw [hindex] at hnot
      cases hnot
  have hget : (conversation.entries.set index { entry with live := attached.live })[index]? =
      some { entry with live := attached.live } := by
    obtain ⟨hlt, -⟩ := List.getElem?_eq_some_iff.mp hentry
    exact List.getElem?_set_self hlt
  rw [← heq]
  refine ⟨?_, ?_, ?_, ?_, h.single⟩
  · intro hsome
    dsimp only at hsome
    rw [hnone] at hsome
    cases hsome
  · intro attaching hattaching
    dsimp only at hattaching
    rw [hnone] at hattaching
    cases hattaching
  · intro other hother
    dsimp only at hother
    rw [hindex] at hother
    cases hother
    exact ⟨_, hget, ⟨initial, hstreamed.step step hordered⟩,
      (hstreamed.effect step hordered).current hcurrent⟩
  · intro task hmem
    refine (h.alive task hmem).imp_right fun hholder => ?_
    unfold holder at hholder ⊢
    dsimp only
    rw [hnone, hindex] at hholder ⊢
    dsimp only at hholder ⊢
    rw [Option.bind_some, hentry] at hholder
    rw [Option.bind_some, hget]
    exact hholder

theorem Single.updateUnattached (h : conversation.Single) (row : StoredSession)
    (hunattached : conversation.unattached = true) : ({ conversation with row := row } :
      AgentConversation).Single := by
  obtain ⟨hcurrent, hattaching⟩ := of_decide_eq_true hunattached
  refine ⟨h.exclusive, ?_, ?_, h.alive, h.single⟩
  · intro attaching heq
    rcases hattaching with hnone | hlocked
    · rw [show conversation.attaching = some attaching from heq] at hnone
      cases hnone
    · rw [show conversation.attaching = some attaching from heq] at hlocked
      cases hlocked
      trivial
  · intro index heq
    rw [show conversation.current = some index from heq] at hcurrent
    cases hcurrent

theorem Single.step (h : conversation.Single) (step : ConversationStep)
    (hstep : conversation.stepUndisturbed step = some next) : next.Single := by
  obtain ⟨hcondition, hstep⟩ := Option.ite_none_right_eq_some.mp hstep
  cases step with
  | createAndAttach =>
    cases hstep
    exact h.of_same rfl h.exclusive h.fresh rfl rfl rfl rfl rfl
  | lockCreated index =>
    obtain ⟨session, hsession, hstep⟩ := Option.bind_eq_some_iff.mp hstep
    have hrest : ({ conversation with
        creating := conversation.creating.eraseIdx index } : AgentConversation).Single :=
      h.of_same rfl h.exclusive h.fresh rfl rfl rfl rfl rfl
    refine hrest.lock (.persisted session) ?_ (fun _ => rfl) hstep
    intro hcurrent
    have hcondition : conversation.current.isSome ∨ (conversation.creating[index]?).all
        (fun session => decide (session.columns = conversation.row.columns)) = true :=
      of_decide_eq_true hcondition
    rw [show conversation.current = none from hcurrent, hsession] at hcondition
    have hcolumns : session.columns = conversation.row.columns :=
      of_decide_eq_true (hcondition.resolve_left nofun)
    exact hcolumns
  | lockAttach => exact h.lock .locked (fun _ => trivial) (fun _ => rfl) hstep
  | readRow providerKnown => exact h.readRow providerKnown hstep
  | startRuntime => exact h.startRuntime hcondition hstep
  | started ready => exact h.started ready hstep
  | storeProviderSession ok => exact (h.storeProviderSession ok hstep).1
  | install ok => exact h.install ok hstep
  | taskEnds task =>
    cases hstep
    refine ⟨h.exclusive, h.fresh, h.entry, ?_, ?_⟩
    · exact fun other hmem => h.alive other (List.mem_of_mem_filter hmem)
    · exact Nat.le_trans (List.length_filter_le _ _) h.single
  | removeRuntime index => exact h.removeRuntime index hstep
  | updateUnattached title archived =>
    cases hstep
    exact h.updateUnattached _ hcondition
  | live index step =>
    by_cases hindex : conversation.current = some index
    · refine h.onCurrent index step hindex ?_ hstep
      cases step with
      | commit ok =>
        cases hentry : conversation.entries[index]? with
        | none | some entry => rfl
      | _ => exact hcondition
    · refine h.onOther index step hindex ?_ hstep
      cases step with
      | commit ok =>
        refine (of_decide_eq_true hcondition).imp ?_ fun h => h.resolve_left hindex
        rintro hok ⟨⟩
        cases hok
      | _ => exact .inl nofun
  | restart =>
    cases hstep
    refine ⟨?_, ?_, ?_, ?_, Nat.zero_le 1⟩
    · exact nofun
    all_goals exact nofun

theorem created_single (row : StoredSession) : (created row).Single := by
  refine ⟨?_, ?_, ?_, ?_, Nat.zero_le 1⟩
  · exact nofun
  all_goals exact nofun

theorem onLive_provider (index : ℕ) (step : LiveStep)
    (hstep : conversation.onLive index step = some next) :
    next.row.providerSessionId = conversation.row.providerSessionId := by
  by_cases hcommit : step = .commit true
  · rw [hcommit] at hstep
    obtain ⟨entry, -, hstep⟩ := Option.bind_eq_some_iff.mp hstep
    obtain ⟨attached, hattached, heq⟩ := Option.map_eq_some_iff.mp hstep
    rw [← heq]
    dsimp only
    cases AttachedSession.commit_stepped true hattached with
    | none hwrite hrow hsnapshot hwaiting
    | write position change stored hwritten hindex hrow hsnapshot hwaiting => rw [hrow]
    | commit change hcommitted hchecked hcommit hsnapshot hwaiting =>
      have hcolumns := change.commit_columns _ _ Option.none hcommit
      have hprovider := congrArg SessionColumns.providerSessionId hcolumns
      refine Eq.trans hprovider ?_
      unfold Publication.columns
      split
      · rfl
      · rfl
  · rw [onLive_row index step hcommit hstep]

theorem Single.provider_kept (h : conversation.Single) (step : ConversationStep)
    (hstep : conversation.stepUndisturbed step = some next) (id : String)
    (hid : conversation.row.providerSessionId = some id) :
    next.row.providerSessionId = some id := by
  obtain ⟨-, hstep⟩ := Option.ite_none_right_eq_some.mp hstep
  have hlock : ∀ (other : AgentConversation) attaching, other.row = conversation.row →
      other.lock attaching = some next → next.row.providerSessionId = some id := by
    intro other attaching hrow hlock
    obtain ⟨-, hlock⟩ := Option.ite_none_left_eq_some.mp hlock
    split at hlock
    · cases hlock
      rw [hrow]
      exact hid
    · cases hlock
      dsimp only
      rw [hrow]
      exact hid
  cases step with
  | createAndAttach | taskEnds task | updateUnattached title archived | restart =>
    cases hstep
    exact hid
  | lockCreated index =>
    obtain ⟨session, -, hstep⟩ := Option.bind_eq_some_iff.mp hstep
    exact hlock { conversation with creating := conversation.creating.eraseIdx index } _ rfl hstep
  | lockAttach => exact hlock conversation _ rfl hstep
  | readRow providerKnown =>
    dsimp only [AgentConversation.step, AgentConversation.readRow] at hstep
    split at hstep
    · cases hstep
      exact hid
    · cases hstep
  | startRuntime =>
    dsimp only [AgentConversation.step, AgentConversation.startRuntime] at hstep
    split at hstep
    · cases hstep
      exact hid
    · cases hstep
  | started ready =>
    dsimp only [AgentConversation.step, AgentConversation.started] at hstep
    split at hstep
    · split at hstep
      · cases hstep
        exact hid
      · obtain ⟨-, hstep⟩ := Option.ite_none_right_eq_some.mp hstep
        cases hstep
        exact hid
    · cases hstep
  | storeProviderSession ok => exact (h.storeProviderSession ok hstep).2 id hid
  | install ok =>
    dsimp only [AgentConversation.step, AgentConversation.install] at hstep
    split at hstep
    · split at hstep
      · cases hstep
        exact hid
      · cases hstep
        exact hid
    · cases hstep
  | removeRuntime index =>
    obtain ⟨entry, -, hstep⟩ := Option.bind_eq_some_iff.mp hstep
    obtain ⟨-, hstep⟩ := Option.ite_none_left_eq_some.mp hstep
    cases hstep
    exact hid
  | live index step => exact (onLive_provider index step hstep).trans hid

/-- One runtime runs, and where no operation is under way the attached one has the columns of the
row and its number. -/
structure Consistent (conversation : AgentConversation) : Prop where
  single : conversation.alive.length ≤ 1
  agrees : ∀ index entry, conversation.current = some index →
    conversation.entries[index]? = some entry → entry.live.idle →
    entry.live.snapshot.session.columns = conversation.row.columns ∧
    entry.live.snapshot.latestSeq = conversation.row.latestSeq

theorem Single.consistent (h : conversation.Single) : conversation.Consistent := by
  refine ⟨h.single, ?_⟩
  intro index entry hindex hentry hidle
  obtain ⟨found, hfound, ⟨initial, hstreamed⟩, hcurrent⟩ := h.entry index hindex
  rw [hentry] at hfound
  cases hfound
  refine ⟨?_, hstreamed.exact.stored hidle⟩
  have hnone : entry.live.waiting = [] := by
    unfold AgentLiveSession.waiting
    rw [hidle.1]
    rfl
  unfold AttachedSession.Current at hcurrent
  dsimp only at hcurrent
  rw [hnone] at hcurrent
  exact hcurrent

end AgentConversation

/-- In undisturbed runs attachments are consistent, and the stored id of the agent's session is not
replaced. -/
theorem attachment_exact (row : StoredSession) (steps : List ConversationStep)
    (conversation : AgentConversation)
    (hrun : steps.foldlM AgentConversation.stepUndisturbed (.created row) = some conversation) :
    conversation.Consistent ∧ ∀ step next, conversation.stepUndisturbed step = some next →
      ∀ id, conversation.row.providerSessionId = some id →
        next.row.providerSessionId = some id := by
  have hsingle : conversation.Single := by
    refine System.run_invariant AgentConversation.stepUndisturbed (·.Single) ?_ steps
      (AgentConversation.created_single row) hrun
    exact fun conversation step next h hstep => h.step step hstep
  exact ⟨hsingle.consistent, fun step next hstep id hid => hsingle.provider_kept step hstep id hid⟩

def attachSteps (id : String) : List ConversationStep :=
  [.startRuntime, .started (some (id, [])), .storeProviderSession true, .install true]

def promptAttachment : List ConversationStep :=
  [.createAndAttach, .lockCreated 0] ++ attachSteps "first" ++
    promptRename.map (.live 0)

theorem attachment_exact_promptAttachment : ∃ conversation,
    promptAttachment.foldlM AgentConversation.stepUndisturbed (.created emptyRow) =
      some conversation ∧ conversation.current = some 0 ∧ conversation.Consistent := by
  refine ⟨_, rfl, rfl, ?_⟩
  exact (attachment_exact emptyRow promptAttachment _ rfl).1

/-- A repeated creation that read the row before the first one attached, after whose exit it starts
a new session of the agent. -/
def staleCreation : List ConversationStep :=
  [.createAndAttach, .createAndAttach, .lockCreated 0] ++ attachSteps "first" ++
    [.taskEnds 0, .removeRuntime 0, .lockCreated 0, .startRuntime, .started (some ("second", []))]

def renamedStart : List ConversationStep :=
  [.lockAttach, .readRow true, .startRuntime, .updateUnattached (some (some "Final")) none,
    .started (some ("first", [])), .storeProviderSession true, .install true]

def overlappingStarts : List ConversationStep :=
  [.lockAttach, .readRow true, .startRuntime, .started none, .lockAttach, .readRow true,
    .startRuntime]

/-- The stored id is replaced, the title in the snapshot is not that of the row, and two runtimes
run. -/
theorem attachment_disturbed :
    (∃ conversation next,
      staleCreation.foldlM AgentConversation.step (.created emptyRow) = some conversation ∧
      conversation.step (.storeProviderSession true) = some next ∧
      conversation.row.providerSessionId = some "first" ∧
      next.row.providerSessionId = some "second") ∧
    (∃ conversation,
      renamedStart.foldlM AgentConversation.step (.created emptyRow) = some conversation ∧
      conversation.attaching = none ∧ ¬ conversation.Consistent) ∧
    ∃ conversation,
      overlappingStarts.foldlM AgentConversation.step (.created emptyRow) = some conversation ∧
      conversation.alive = [0, 1] ∧ ¬ conversation.Consistent := by
  refine ⟨⟨_, _, rfl, rfl, rfl, rfl⟩, ⟨_, rfl, rfl, ?_⟩, _, rfl, rfl, ?_⟩
  · intro hconsistent
    have hagrees := (hconsistent.agrees 0 _ rfl rfl ⟨rfl, rfl⟩).1
    have htitle : some "Draft" = some "Final" := congrArg SessionColumns.title hagrees
    exact absurd htitle (by decide)
  · intro hconsistent
    have hsingle := hconsistent.single
    cases hsingle with
    | step hle => cases hle

end Rieul.Agent
