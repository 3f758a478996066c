import Rieul.Terminal.BrowserControl

/-!
# Views agree about control

The events that are still to come make a view's primary attach that of the session.
-/

namespace Rieul.Terminal
open Bytes Fallible Broadcast

def control (primary : Option ℕ) : List TerminalEvent → Option ℕ
  | [] => primary
  | .controlChanged primaryAttachId :: events => control (some primaryAttachId) events
  | _ :: events => control primary events

def TerminalEvent.changesControl : TerminalEvent → Bool
  | controlChanged _ => true
  | _ => false

theorem control_append (primary : Option ℕ) (events rest : List TerminalEvent) :
    control primary (events ++ rest) = control (control primary events) rest := by
  induction events generalizing primary with
  | nil => rfl
  | cons event events ih =>
    cases event with
    | controlChanged primaryAttachId => exact ih _
    | _ => exact ih primary

theorem control_of_changes (primary other : Option ℕ) (events : List TerminalEvent)
    (h : events.any (·.changesControl) = true) : control primary events = control other events := by
  induction events with
  | nil => cases h
  | cons event events ih =>
    cases event with
    | controlChanged primaryAttachId => rfl
    | _ => exact ih h

theorem control_plain_events (primary : Option ℕ) (events : List TerminalEvent)
    (h : ∀ event ∈ events, event.changesControl = false) : control primary events = primary := by
  induction events with
  | nil => rfl
  | cons event events ih =>
    have hevent := h event List.mem_cons_self
    have hrest := ih fun other hmem => h other (List.mem_cons_of_mem _ hmem)
    cases event with
    | controlChanged primaryAttachId => cases hevent
    | _ => exact hrest

/-- A view that has all events of its attach has the primary attach of the session, and its input is
not refused when it believes to have control. -/
structure BrowserView.Agrees (view : BrowserView) (session : TerminalSession) : Prop where
  primary : view.primaryAttachId = session.info.primaryAttachId
  shown : view.phase = .attached → session.info.primaryAttachId = some view.attached.attachId
  input : view.primaryAttachId = view.attachId → ∀ host,
    session.writeInput view.attached.attachId view.rpcSessionId host =
      validateAttachOwner session view.attached.attachId view.rpcSessionId >>= fun _ => host

structure BrowserView.UpToDate (view : BrowserView) (session : TerminalSession) : Prop where
  attached : view.attachId.isSome = true
  running : view.finished = false
  delivered : view.next = session.sent.length

def TerminalSession.tellsControl (session : TerminalSession) (request : TakeTerminalControlReq)
    (resize : Except ServiceError Unit) : Bool :=
  (validateAttachOwner session request.attachId request.rpcSessionId).isOk = false ∨
    resize.isOk = true ∨ session.info.primaryAttachId = some request.attachId

namespace SharedTerminal
variable (shared : SharedTerminal)

def agrees : ControlStep → Bool
  | .process index resize =>
    (shared.requests[index]?).all (shared.session.tellsControl · resize)
  | .respond index =>
    (shared.responses[index]?).all fun response => shared.views.all fun view =>
      view.attachId ≠ some response.attachId ∨ view.finished ∨ response.result.isOk = false ∨
        (shared.session.sent.drop view.next).any (·.changesControl) ∨
        shared.session.info.primaryAttachId = some response.attachId
  | _ => true

variable (parseOscMetadata : Str → Option TerminalMetadata)

def stepAgreeing (step : ControlStep) : Option SharedTerminal :=
  if shared.agrees step then shared.step parseOscMetadata step else none

end SharedTerminal

structure BrowserView.Kept (view : BrowserView) (session : TerminalSession) : Prop where
  place : view.next ≤ session.sent.length
  snapshot : view.attachId = none → view.finished = false ∧ view.phase = .waiting ∧
    control view.attached.primaryAttachId (session.sent.drop view.next) =
      session.info.primaryAttachId
  own : ∀ attachId, view.attachId = some attachId → attachId = view.attached.attachId
  primary : view.attachId.isSome = true → view.finished = false →
    control view.primaryAttachId (session.sent.drop view.next) = session.info.primaryAttachId
  shown : view.phase = .attached → view.finished = false →
    view.primaryAttachId = some view.attached.attachId

structure SharedTerminal.Kept (shared : SharedTerminal) : Prop where
  views : ∀ view ∈ shared.views, view.Kept shared.session
  responses : ∀ response ∈ shared.responses, ∀ primaryAttachId,
    response.result = .ok primaryAttachId → primaryAttachId = response.attachId

variable {view : BrowserView} {session : TerminalSession}

theorem BrowserView.Kept.agrees (h : view.Kept session) (hnew : view.UpToDate session) :
    view.Agrees session := by
  have hprimary := h.primary hnew.attached hnew.running
  rw [hnew.delivered, List.drop_length] at hprimary
  have hprimary : view.primaryAttachId = session.info.primaryAttachId := hprimary
  refine ⟨hprimary, ?_, ?_⟩
  · intro hphase
    rw [← hprimary]
    exact h.shown hphase hnew.running
  · intro hbelieves host
    obtain ⟨attachId, hattach⟩ := Option.isSome_iff_exists.mp hnew.attached
    have hown : session.info.primaryAttachId = some view.attached.attachId := by
      rw [← hprimary, hbelieves, hattach, h.own attachId hattach]
    unfold TerminalSession.writeInput
    rw [ensure_of _ _ hown]
    rfl

structure ControlTold (session next : TerminalSession) (events : List TerminalEvent) : Prop where
  sent : next.sent = session.sent ++ events
  primary : next.info.primaryAttachId = control session.info.primaryAttachId events

theorem BrowserView.Kept.told (h : view.Kept session) (next : TerminalSession)
    (events : List TerminalEvent) (htold : ControlTold session next events) : view.Kept next := by
  have hdrop : next.sent.drop view.next = session.sent.drop view.next ++ events := by
    rw [htold.sent, List.drop_append_of_le_length h.place]
  refine ⟨?_, ?_, h.own, ?_, h.shown⟩
  · rw [htold.sent, List.length_append]
    exact Nat.le_add_right_of_le h.place
  · intro hnone
    obtain ⟨hrunning, hphase, hsnapshot⟩ := h.snapshot hnone
    refine ⟨hrunning, hphase, ?_⟩
    rw [hdrop, control_append, hsnapshot, htold.primary]
  · intro hattached hrunning
    rw [hdrop, control_append, h.primary hattached hrunning, htold.primary]

theorem ControlTold.silent {session next : TerminalSession} (hsent : next.sent = session.sent)
    (hprimary : next.info.primaryAttachId = session.info.primaryAttachId) :
    ControlTold session next [] := by
  refine ⟨?_, hprimary⟩
  rw [hsent, List.append_nil]

theorem noteAll_primary (info : TerminalSessionInfo) (changed : Bool)
    (events : List TerminalMetadata) :
    (info.noteAll changed events).1.primaryAttachId = info.primaryAttachId := by
  refine TerminalSessionInfo.noteAll_keeps (·.primaryAttachId) ?_ info changed events
  intro info event
  cases event <;> rfl

theorem takeControl_controlTold (session : TerminalSession) (request : TakeTerminalControlReq)
    (resize : Except ServiceError Unit) (htells : session.tellsControl request resize = true) :
    ∃ events, ControlTold session (session.takeControl request.attachId request.rpcSessionId
      request.cols request.rows resize).1 events := by
  have htells := of_decide_eq_true htells
  unfold TerminalSession.takeControl
  cases hvalid : validateAttachOwner session request.attachId request.rpcSessionId with
  | error err => exact ⟨[], .silent rfl rfl⟩
  | ok valid =>
    rw [hvalid] at htells
    have htells := htells.resolve_left nofun
    cases resize with
    | error err => exact ⟨[], .silent rfl (htells.resolve_left nofun).symm⟩
    | ok resized =>
      refine ⟨_, List.append_assoc _ _ _, ?_⟩
      dsimp only
      by_cases hprimary : session.info.primaryAttachId = some request.attachId
      · rw [if_neg (not_not.mpr hprimary), List.nil_append]
        split
        · exact hprimary.symm
        · exact hprimary.symm
      · rw [if_pos hprimary]
        split
        · rfl
        · rfl

section
variable (parseOscMetadata : Str → Option TerminalMetadata)

theorem op_controlTold (session : TerminalSession) (op : SessionOp)
    (hop : op.takesControl = false) :
    ∃ events, ControlTold session (session.apply parseOscMetadata op) events := by
  revert hop
  refine session.apply_cases
    (P := fun op next => op.takesControl = false → ∃ events, ControlTold session next events)
    parseOscMetadata op (fun _ _ => ⟨[], .silent rfl rfl⟩) ?_ (fun _ _ _ _ _ => ⟨[], .silent rfl rfl⟩)
    (fun _ _ _ => ⟨[], .silent rfl rfl⟩) ?_ (fun _ => ⟨_, rfl, rfl⟩)
    (fun _ _ _ _ _ => ⟨_, rfl, rfl⟩) (fun _ _ => ⟨_, rfl, rfl⟩)
  · intro bytes now result h _
    unfold TerminalSession.recordOutput at h
    split at h
    · cases h
    · cases h
      refine ⟨_, rfl, ?_⟩
      rw [control_plain_events]
      · exact noteAll_primary _ _ _
      · intro event hmem
        rcases List.mem_cons.mp hmem with hchunk | hmetadata
        · rw [hchunk]
          rfl
        · obtain ⟨noted, -, heq⟩ := List.mem_map.mp hmetadata
          rw [← heq]
          cases noted <;> rfl
  · intro attachId rpcSessionId cols rows resize hop
    cases hop

end

theorem BrowserView.Kept.handleAttached (h : view.Kept session) (hnone : view.attachId = none) :
    view.handleAttached.Kept session := by
  obtain ⟨-, -, hsnapshot⟩ := h.snapshot hnone
  refine ⟨h.place, nofun, ?_, fun _ _ => hsnapshot, ?_⟩
  · intro attachId hattach
    cases hattach
    rfl
  · intro hphase hrunning
    dsimp only [BrowserView.handleAttached] at hphase hrunning
    rw [hrunning, if_neg Bool.false_ne_true] at hphase
    split at hphase
    · assumption
    · cases hphase

theorem BrowserView.Kept.deliver (h : view.Kept session) (next : BrowserView)
    (hdeliver : view.deliver session.sent = some next) : next.Kept session := by
  obtain ⟨hrunning, hdeliver⟩ := Option.ite_none_left_eq_some.mp hdeliver
  have hrunning := Bool.eq_false_of_not_eq_true hrunning
  split at hdeliver
  · rename_i hnone
    cases hdeliver
    exact h.handleAttached hnone
  · rename_i attachId hattach
    obtain ⟨event, hevent, heq⟩ := Option.map_eq_some_iff.mp hdeliver
    obtain ⟨hlt, hget⟩ := List.getElem?_eq_some_iff.mp hevent
    have hprimary := h.primary (by rw [hattach]; rfl) hrunning
    rw [List.drop_eq_getElem_cons hlt, hget] at hprimary
    have hplace : view.next + 1 ≤ session.sent.length := hlt
    have hsome : view.attachId ≠ none := by
      rw [hattach]
      nofun
    rw [← heq]
    cases event with
    | controlChanged primaryAttachId =>
      refine ⟨hplace, fun hnone => absurd hnone hsome, h.own, fun _ _ => hprimary, ?_⟩
      intro hphase _
      dsimp only [BrowserView.handleTerminalEvent] at hphase ⊢
      split at hphase
      · rename_i hown
        rw [hown, hattach, h.own attachId hattach]
      · cases hphase
    | historyGap nextSeq =>
      exact ⟨hplace, fun hnone => absurd hnone hsome, h.own, fun _ _ => hprimary, nofun⟩
    | sessionExited exit | sessionClosed reason =>
      exact ⟨hplace, fun hnone => absurd hnone hsome, h.own, nofun, nofun⟩
    | _ => exact ⟨hplace, fun hnone => absurd hnone hsome, h.own, fun _ _ => hprimary, h.shown⟩

theorem BrowserView.Kept.handleResponse (h : view.Kept session) (response : TakeTerminalControlRes)
    (hview : view.attachId = some response.attachId)
    (hown : ∀ primaryAttachId, response.result = .ok primaryAttachId →
      primaryAttachId = response.attachId)
    (htimely : view.finished = true ∨ response.result.isOk = false ∨
      (session.sent.drop view.next).any (·.changesControl) = true ∨
      session.info.primaryAttachId = some response.attachId) :
    (view.handleResponse response.result).Kept session := by
  have hsome : view.attachId ≠ none := by
    rw [hview]
    nofun
  cases hresult : response.result with
  | error err =>
    exact ⟨h.place, fun hnone => absurd hnone hsome, h.own, h.primary, nofun⟩
  | ok primaryAttachId =>
    have hsame := hown primaryAttachId hresult
    refine ⟨h.place, fun hnone => absurd hnone hsome, h.own, ?_, ?_⟩
    · intro hattached hrunning
      have hprimary := h.primary hattached hrunning
      have hrunning : view.finished = false := hrunning
      rw [hrunning, hresult] at htimely
      show control (some primaryAttachId) (session.sent.drop view.next) = _
      rcases (htimely.resolve_left nofun).resolve_left nofun with hcoming | hcontrol
      · rw [← hprimary]
        exact control_of_changes _ _ _ hcoming
      · -- no takeover is to come, or the last one is the view's own
        by_cases hcoming : (session.sent.drop view.next).any (·.changesControl) = true
        · rw [← hprimary]
          exact control_of_changes _ _ _ hcoming
        · have hplain : ∀ event ∈ session.sent.drop view.next, event.changesControl = false := by
            simpa using hcoming
          rw [control_plain_events _ _ hplain, hcontrol, hsame]
    · intro _ _
      have hattached := h.own response.attachId hview
      show some primaryAttachId = some view.attached.attachId
      rw [hsame, hattached]

section
variable (parseOscMetadata : Str → Option TerminalMetadata) {shared next : SharedTerminal}

theorem SharedTerminal.Kept.told (h : shared.Kept) (session : TerminalSession)
    (events : List TerminalEvent) (htold : ControlTold shared.session session events) :
    ∀ view ∈ shared.views, view.Kept session :=
  fun view hmem => (h.views view hmem).told session events htold

theorem SharedTerminal.Kept.attach (h : shared.Kept) (rpcSessionId : ℕ) (afterSeq : Option ℕ)
    (now : ℕ) (hstep : shared.step parseOscMetadata (.attach rpcSessionId afterSeq now) = some next) :
    next.Kept := by
  dsimp only [SharedTerminal.step] at hstep
  split at hstep
  · cases hstep
    exact ⟨h.views, h.responses⟩
  · rename_i session attached hattach
    obtain ⟨-, hnext, -, hreceiver⟩ :=
      shared.session.attach_eq_ok session _ rpcSessionId afterSeq now attached hattach
    have hprimary : attached.primaryAttachId = session.info.primaryAttachId := by
      obtain ⟨-, hattach⟩ := (bind_unit_eq_ok _ _ _).mp hattach
      cases hattach
      rfl
    have htold : ControlTold shared.session session [] := by
      rw [hnext]
      exact .silent rfl rfl
    have hlength : attached.receiver = session.sent.length := by
      rw [hreceiver, hnext]
    cases hstep
    refine ⟨?_, h.responses⟩
    intro view hmem
    rcases List.mem_append.mp hmem with hold | hnew
    · exact h.told session [] htold view hold
    · rw [List.mem_singleton.mp hnew]
      refine ⟨Nat.le_of_eq hlength, ?_, nofun, nofun, nofun⟩
      intro _
      refine ⟨rfl, rfl, ?_⟩
      show control attached.primaryAttachId (session.sent.drop attached.receiver) = _
      rw [hlength, List.drop_length]
      exact hprimary

theorem SharedTerminal.Kept.process (h : shared.Kept) (index : ℕ) (resize : Except ServiceError Unit)
    (hagrees : shared.agrees (.process index resize) = true)
    (hstep : shared.step parseOscMetadata (.process index resize) = some next) : next.Kept := by
  obtain ⟨request, hindex, heq⟩ := Option.map_eq_some_iff.mp hstep
  dsimp only [SharedTerminal.agrees] at hagrees
  rw [hindex] at hagrees
  obtain ⟨events, htold⟩ : ∃ events,
      ControlTold shared.session (shared.takeControl request resize).1 events := by
    unfold SharedTerminal.takeControl
    split
    · exact ⟨[], .silent rfl rfl⟩
    · exact takeControl_controlTold shared.session request resize hagrees
  have hown : ∀ primaryAttachId, (shared.takeControl request resize).2.result = .ok primaryAttachId →
      primaryAttachId = (shared.takeControl request resize).2.attachId := by
    intro primaryAttachId hresult
    unfold SharedTerminal.takeControl at hresult ⊢
    split at hresult
    · cases hresult
    · dsimp only at hresult ⊢
      cases hcontrol : (shared.session.takeControl request.attachId request.rpcSessionId
          request.cols request.rows resize).2 with
      | error err =>
        rw [hcontrol] at hresult
        cases hresult
      | ok info =>
        rw [hcontrol] at hresult
        cases hresult
        rfl
  rw [← heq]
  refine ⟨h.told _ events htold, ?_⟩
  intro response hmem
  rcases List.mem_append.mp hmem with hold | hnew
  · exact h.responses response hold
  · rw [List.mem_singleton.mp hnew]
    exact hown

theorem SharedTerminal.Kept.respond (h : shared.Kept) (index : ℕ)
    (hagrees : shared.agrees (.respond index) = true)
    (hstep : shared.step parseOscMetadata (.respond index) = some next) : next.Kept := by
  obtain ⟨response, hindex, heq⟩ := Option.map_eq_some_iff.mp hstep
  dsimp only [SharedTerminal.agrees] at hagrees
  rw [hindex] at hagrees
  have htimely := List.all_eq_true.mp hagrees
  rw [← heq]
  refine ⟨?_, fun other hmem => h.responses other (List.mem_of_mem_eraseIdx hmem)⟩
  intro view hmem
  obtain ⟨old, hold, heq⟩ := List.mem_map.mp hmem
  rw [← heq]
  split
  · rename_i hview
    have hold_timely := of_decide_eq_true (htimely old hold)
    exact (h.views old hold).handleResponse response hview
      (h.responses response (Calls.mem hindex)) (hold_timely.resolve_left (not_not.mpr hview))
  · exact h.views old hold

theorem SharedTerminal.Kept.step (h : shared.Kept) (step : ControlStep)
    (hstep : shared.stepAgreeing parseOscMetadata step = some next) : next.Kept := by
  obtain ⟨hagrees, hstep⟩ := Option.ite_none_right_eq_some.mp hstep
  cases step with
  | op op =>
    obtain ⟨hop, heq⟩ := Option.ite_none_left_eq_some.mp hstep
    obtain ⟨events, htold⟩ := op_controlTold parseOscMetadata shared.session op
      (Bool.eq_false_of_not_eq_true hop)
    cases heq
    exact ⟨h.told _ events htold, h.responses⟩
  | attach rpcSessionId afterSeq now => exact h.attach parseOscMetadata rpcSessionId afterSeq now hstep
  | leave index =>
    cases hstep
    exact ⟨fun view hmem => h.views view (List.mem_of_mem_eraseIdx hmem), h.responses⟩
  | request index cols rows =>
    obtain ⟨view, -, hstep⟩ := Option.bind_eq_some_iff.mp hstep
    obtain ⟨-, hstep⟩ := Option.ite_none_left_eq_some.mp hstep
    obtain ⟨attachId, -, heq⟩ := Option.map_eq_some_iff.mp hstep
    rw [← heq]
    exact ⟨h.views, h.responses⟩
  | process index resize => exact h.process parseOscMetadata index resize hagrees hstep
  | respond index => exact h.respond parseOscMetadata index hagrees hstep
  | deliver index =>
    obtain ⟨view, hindex, hstep⟩ := Option.bind_eq_some_iff.mp hstep
    obtain ⟨delivered, hdeliver, heq⟩ := Option.map_eq_some_iff.mp hstep
    rw [← heq]
    refine ⟨?_, h.responses⟩
    intro other hmem
    rcases List.mem_or_eq_of_mem_set hmem with hold | hnew
    · exact h.views other hold
    · rw [hnew]
      exact (h.views view (Calls.mem hindex)).deliver delivered hdeliver

theorem control_agrees (request : CreateTerminalSessionReq) (terminalSessionId : ℕ)
    (creatorClientId : String) (initialCwd : Option String) (now : ℕ) (steps : List ControlStep)
    (shared : SharedTerminal)
    (hrun : steps.foldlM (SharedTerminal.stepAgreeing · parseOscMetadata)
      (.created request terminalSessionId creatorClientId initialCwd now) = some shared)
    (view : BrowserView) (hview : view ∈ shared.views) (hnew : view.UpToDate shared.session) :
    view.Agrees shared.session := by
  have hkept : shared.Kept := by
    refine System.run_invariant (SharedTerminal.stepAgreeing · parseOscMetadata) (·.Kept) ?_ steps
      ?_ hrun
    · exact fun shared step next h hstep => h.step parseOscMetadata step hstep
    · exact ⟨fun _ hmem => absurd hmem List.not_mem_nil, fun _ hmem => absurd hmem List.not_mem_nil⟩
  exact (hkept.views view hview).agrees hnew

end

def twoViews : List ControlStep := [.attach 7 none 0, .attach 8 none 0, .deliver 0, .deliver 1]

def bothTakeControl : List ControlStep :=
  twoViews ++ [.request 0 80 24, .request 1 80 24, .process 0 (.ok ()), .respond 0,
    .process 0 (.ok ()), .deliver 0, .deliver 0, .deliver 1, .deliver 1, .respond 0]

def lateResponse : List ControlStep :=
  twoViews ++ [.request 0 80 24, .process 0 (.ok ()), .request 1 80 24, .process 0 (.ok ()),
    .deliver 0, .deliver 0, .deliver 1, .deliver 1, .respond 1, .respond 0]

def failedResize : List ControlStep :=
  twoViews ++ [.request 0 100 30, .process 0 (.error (.operationFailed "resize")), .respond 0]

def shell : SharedTerminal := .created ⟨80, 24, none⟩ 1 "client" none 0

theorem control_agrees_bothTakeControl : ∃ shared view,
    bothTakeControl.foldlM (SharedTerminal.stepAgreeing · fun _ => none) shell = some shared ∧
    shared.views[1]? = some view ∧ shared.responses.length = 0 ∧ view.phase = .attached ∧
    view.Agrees shared.session := by
  refine ⟨_, _, rfl, rfl, rfl, rfl, ?_⟩
  exact control_agrees (fun _ => none) ⟨80, 24, none⟩ 1 "client" none 0 bothTakeControl _ rfl _
    (List.mem_cons_of_mem _ List.mem_cons_self) ⟨rfl, rfl, rfl⟩

/-- A view shows itself attached and its input is refused, and a view that has control never knows. -/
theorem control_disagrees :
    (∃ shared view,
      lateResponse.foldlM (SharedTerminal.step fun _ => none) shell = some shared ∧
      view ∈ shared.views ∧ shared.responses.length = 0 ∧ view.UpToDate shared.session ∧
      view.phase = .attached ∧ shared.session.info.primaryAttachId = some 2 ∧
      shared.session.writeInput 1 7 (.ok ()) = .error stalePrimaryAttach ∧
      ¬ view.Agrees shared.session) ∧
    ∃ shared view,
      failedResize.foldlM (SharedTerminal.step fun _ => none) shell = some shared ∧
      view ∈ shared.views ∧ shared.responses.length = 0 ∧ view.UpToDate shared.session ∧
      shared.session.info.primaryAttachId = some 1 ∧ ¬ view.Agrees shared.session := by
  refine ⟨⟨_, _, rfl, List.mem_cons_self, rfl, ⟨rfl, rfl, rfl⟩, rfl, rfl, rfl, ?_⟩,
    _, _, rfl, List.mem_cons_self, rfl, ⟨rfl, rfl, rfl⟩, rfl, ?_⟩
  · intro hagrees
    cases hagrees.primary
  · intro hagrees
    cases hagrees.primary

end Rieul.Terminal
