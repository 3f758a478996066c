import Rieul.Terminal.ControlAgreement

/-!
# Control and its events (daemon/host/src/terminal.rs)

`take_control` sets the primary attach and the size before the host resizes, and
says what has changed only if the host did resize. An attach stream gets what is sent
after its attach; events do not fall out of the channel here.
-/

namespace Rieul.Terminal
open Bytes Fallible Broadcast

structure TerminalControl where
  primaryAttachId : Option ℕ
  cols : ℕ
  rows : ℕ
  deriving DecidableEq

def TerminalSessionInfo.control (info : TerminalSessionInfo) : TerminalControl :=
  ⟨info.primaryAttachId, info.cols, info.rows⟩

def TerminalControl.apply (control : TerminalControl) : TerminalEvent → TerminalControl
  | .controlChanged primaryAttachId => { control with primaryAttachId := some primaryAttachId }
  | .pseudoTerminalResized cols rows => { control with cols := cols, rows := rows }
  | _ => control

def TerminalControl.applyAll (control : TerminalControl) (events : List TerminalEvent) :
    TerminalControl :=
  events.foldl (·.apply) control

def AttachedTerminal.control (attached : AttachedTerminal) (sent : List TerminalEvent) :
    TerminalControl :=
  TerminalControl.applyAll ⟨attached.primaryAttachId, attached.session.cols, attached.session.rows⟩
    (sent.drop attached.receiver)

/-- `take_control`; `found` says whether the session is in the manager's table. -/
def TerminalSession.handleTakeControl (session : TerminalSession) (found : Bool)
    (request : TakeTerminalControlReq) (resize : Except ServiceError Unit) :
    TerminalSession × Except ServiceError ℕ :=
  match validateSize request.cols request.rows with
  | .error err => (session, .error err)
  | .ok () =>
    if found = false then (session, .error .notFound)
    else
      let (next, result) := session.takeControl request.attachId request.rpcSessionId request.cols
        request.rows resize
      (next, result.map fun _ => request.attachId)

structure Attachments where
  session : TerminalSession
  nextAttachId : ℕ
  attached : List AttachedTerminal

def Attachments.created (request : CreateTerminalSessionReq) (terminalSessionId : ℕ)
    (creatorClientId : String) (initialCwd : Option String) (nextAttachId now : ℕ) : Attachments :=
  ⟨.new request terminalSessionId creatorClientId initialCwd now, nextAttachId, []⟩

/-- `others` attaches of other sessions have taken ids before an attach. -/
inductive AttachmentOp where
  | attach (others viewportCols viewportRows rpcSessionId : ℕ) (afterSeq : Option ℕ) (now : ℕ)
  | detach (attachId now : ℕ)
  | takeControl (request : TakeTerminalControlReq) (resize : Except ServiceError Unit)
  | output (bytes : Str) (now : ℕ)

def TerminalSession.SetsSilently (session : TerminalSession) (request : TakeTerminalControlReq)
    (resize : Except ServiceError Unit) : Prop :=
  validateSize request.cols request.rows = .ok () ∧
  validateAttachOwner session request.attachId request.rpcSessionId = .ok () ∧
  (∃ err, resize = .error err) ∧
  session.info.control ≠ ⟨some request.attachId, request.cols, request.rows⟩

def Attachments.SetsSilently (attachments : Attachments) : AttachmentOp → Prop
  | .takeControl request resize => attachments.session.SetsSilently request resize
  | _ => False

section
variable (parseOscMetadata : Str → Option TerminalMetadata)

def Attachments.step (attachments : Attachments) : AttachmentOp → Attachments
  | .attach others viewportCols viewportRows rpcSessionId afterSeq now =>
    match validateSize viewportCols viewportRows with
    | .error _ => attachments
    | .ok () =>
      let attachId := attachments.nextAttachId + others
      match attachments.session.attach attachId rpcSessionId afterSeq now with
      | .error _ => { attachments with nextAttachId := attachId + 1 }
      | .ok (session, attached) =>
        { session := session
          nextAttachId := attachId + 1
          attached := attachments.attached ++ [attached] }
  | .detach attachId now => { attachments with
      session := attachments.session.detach attachId now
      attached := attachments.attached.filter (·.attachId ≠ attachId) }
  | .takeControl request resize => { attachments with
      session := (attachments.session.handleTakeControl true request resize).1 }
  | .output bytes now => { attachments with
      session := attachments.session.apply parseOscMetadata (.output bytes now) }

def Attachments.run (attachments : Attachments) (ops : List AttachmentOp) : Attachments :=
  ops.foldl (·.step parseOscMetadata) attachments

def Attachments.Current (attachments : Attachments) : Prop :=
  ∀ attached ∈ attachments.attached,
    attached.control attachments.session.sent = attachments.session.info.control

instance (attachments : Attachments) : Decidable attachments.Current :=
  inferInstanceAs (Decidable (∀ attached ∈ attachments.attached,
    attached.control attachments.session.sent = attachments.session.info.control))

structure Announced (session next : TerminalSession) (events : List TerminalEvent) : Prop where
  sent : next.sent = session.sent ++ events
  control : next.info.control = session.info.control.applyAll events

theorem Announced.silent {session next : TerminalSession} (hsent : next.sent = session.sent)
    (hcontrol : next.info.control = session.info.control) : Announced session next [] := by
  refine ⟨?_, hcontrol⟩
  rw [hsent, List.append_nil]

theorem applyAll_append (control : TerminalControl) (events rest : List TerminalEvent) :
    control.applyAll (events ++ rest) = (control.applyAll events).applyAll rest :=
  List.foldl_append

theorem applyAll_metadata (control : TerminalControl) (metadata : List TerminalMetadata) :
    control.applyAll (metadata.map (·.event)) = control := by
  induction metadata with
  | nil => rfl
  | cons event metadata ih => cases event <;> exact ih

theorem noteAll_control (info : TerminalSessionInfo) (changed : Bool)
    (events : List TerminalMetadata) : (info.noteAll changed events).1.control = info.control := by
  refine TerminalSessionInfo.noteAll_keeps (·.control) ?_ info changed events
  intro info event
  cases event <;> rfl

variable {session : TerminalSession} {request : TakeTerminalControlReq}
  {resize : Except ServiceError Unit}

theorem takeControl_valid (attachId rpcSessionId cols rows : ℕ)
    (hvalid : validateAttachOwner session attachId rpcSessionId = .ok ()) :
    (session.takeControl attachId rpcSessionId cols rows resize).1.info.control =
      ⟨some attachId, cols, rows⟩ := by
  unfold TerminalSession.takeControl
  rw [hvalid]
  cases resize <;> rfl

theorem applyAll_changes (control : TerminalControl) (attachId cols rows : ℕ) :
    control.applyAll ((if control.primaryAttachId ≠ some attachId then
        [TerminalEvent.controlChanged attachId] else []) ++
      if (control.cols, control.rows) ≠ (cols, rows) then
        [TerminalEvent.pseudoTerminalResized cols rows] else []) = ⟨some attachId, cols, rows⟩ := by
  have hprimary : control.applyAll (if control.primaryAttachId ≠ some attachId then
      [TerminalEvent.controlChanged attachId] else []) =
        { control with primaryAttachId := some attachId } := by
    split
    · rfl
    · rename_i hsame
      rw [← not_not.mp hsame]
      rfl
  rw [applyAll_append, hprimary]
  split
  · rfl
  · rename_i hsame
    obtain ⟨rfl, rfl⟩ := Prod.mk.inj (not_not.mp hsame)
    rfl

theorem takeControl_announced (attachId rpcSessionId cols rows : ℕ) :
    ∃ events, Announced session (session.takeControl attachId rpcSessionId cols rows (.ok ())).1 events := by
  unfold TerminalSession.takeControl
  cases hvalid : validateAttachOwner session attachId rpcSessionId with
  | error err => exact ⟨[], .silent rfl rfl⟩
  | ok valid =>
    exact ⟨_, List.append_assoc _ _ _, (applyAll_changes session.info.control attachId cols rows).symm⟩

theorem handleTakeControl_announced (h : ¬ session.SetsSilently request resize) :
    ∃ events, Announced session (session.handleTakeControl true request resize).1 events := by
  unfold TerminalSession.handleTakeControl
  cases hsize : validateSize request.cols request.rows with
  | error err => exact ⟨[], .silent rfl rfl⟩
  | ok valid =>
    dsimp only
    rw [if_neg Bool.true_eq_false_eq_False]
    cases hresize : resize with
    | ok resized => exact takeControl_announced _ _ _ _
    | error err =>
      cases howner : validateAttachOwner session request.attachId request.rpcSessionId with
      | error refused =>
        unfold TerminalSession.takeControl
        rw [howner]
        exact ⟨[], .silent rfl rfl⟩
      | ok owner =>
        have hcontrol : session.info.control = ⟨some request.attachId, request.cols, request.rows⟩ := by
          by_contra hne
          exact h ⟨hsize, howner, ⟨err, hresize⟩, hne⟩
        refine ⟨[], .silent ?_ ?_⟩
        · unfold TerminalSession.takeControl
          rw [howner]
        · rw [hcontrol]
          exact takeControl_valid _ _ _ _ howner

theorem handleTakeControl_error_iff (found : Bool) :
    (∀ err, (session.handleTakeControl found request resize).2 = .error err →
      (session.handleTakeControl found request resize).1.info.control = session.info.control) ↔
      ¬ (found = true ∧ session.SetsSilently request resize) := by
  constructor
  · rintro hkeeps ⟨rfl, hsize, howner, ⟨err, rfl⟩, hnew⟩
    have herror := hkeeps err
    unfold TerminalSession.handleTakeControl TerminalSession.takeControl at herror
    rw [hsize, howner] at herror
    exact hnew (herror rfl).symm
  · intro h err herror
    unfold TerminalSession.handleTakeControl at herror ⊢
    cases hsize : validateSize request.cols request.rows with
    | error refused => rfl
    | ok valid =>
      rw [hsize] at herror
      cases found with
      | false => rfl
      | true =>
        dsimp only at herror ⊢
        rw [if_neg Bool.true_eq_false_eq_False] at herror ⊢
        unfold TerminalSession.takeControl at herror ⊢
        cases howner : validateAttachOwner session request.attachId request.rpcSessionId with
        | error refused => rfl
        | ok owner =>
          rw [howner] at herror
          cases resize with
          | ok resized => cases herror
          | error failed =>
            by_contra hne
            exact h ⟨rfl, hsize, howner, ⟨failed, rfl⟩, fun hsame => hne hsame.symm⟩

structure Attachments.Kept (attachments : Attachments) : Prop where
  place : ∀ attached ∈ attachments.attached,
    attached.receiver ≤ attachments.session.sent.length
  current : attachments.Current

def Attachments.Owned (attachments : Attachments) : Prop :=
  ∀ owner ∈ attachments.session.attachOwners,
    ∃ attached ∈ attachments.attached, attached.attachId = owner.1

variable {attachments : Attachments}

theorem Attachments.Kept.told (h : attachments.Kept) {next : TerminalSession}
    {events : List TerminalEvent} (htold : Announced attachments.session next events) :
    Attachments.Kept { attachments with session := next } := by
  constructor
  · intro attached hmem
    rw [htold.sent, List.length_append]
    exact Nat.le_add_right_of_le (h.place attached hmem)
  · intro attached hmem
    have hcurrent := h.current attached hmem
    unfold AttachedTerminal.control at hcurrent ⊢
    rw [htold.sent, List.drop_append_of_le_length (h.place attached hmem), applyAll_append, hcurrent,
      htold.control]

theorem Attachments.Kept.attach (h : attachments.Kept) {attachId rpcSessionId now nextAttachId : ℕ}
    {afterSeq : Option ℕ} {next : TerminalSession} {attached : AttachedTerminal}
    (hattach : attachments.session.attach attachId rpcSessionId afterSeq now = .ok (next, attached)) :
    Attachments.Kept ⟨next, nextAttachId, attachments.attached ++ [attached]⟩ := by
  obtain ⟨-, hattach⟩ := (bind_unit_eq_ok _ _ _).mp hattach
  cases hattach
  constructor
  · intro other hmem
    rcases List.mem_append.mp hmem with hold | hnew
    · exact h.place other hold
    · exact Nat.le_of_eq (congrArg AttachedTerminal.receiver (List.mem_singleton.mp hnew))
  · intro other hmem
    rcases List.mem_append.mp hmem with hold | hnew
    · exact h.current other hold
    · rw [List.mem_singleton.mp hnew]
      unfold AttachedTerminal.control
      rw [List.drop_length]
      rfl

theorem Attachments.Kept.step (h : attachments.Kept) (op : AttachmentOp)
    (hop : ¬ attachments.SetsSilently op) : (attachments.step parseOscMetadata op).Kept := by
  cases op with
  | attach others viewportCols viewportRows rpcSessionId afterSeq now =>
    dsimp only [Attachments.step]
    split
    · exact h
    · split
      · exact ⟨h.place, h.current⟩
      · rename_i hattach
        exact h.attach hattach
  | detach attachId now =>
    exact ⟨fun attached hmem => h.place attached (List.mem_of_mem_filter hmem),
      fun attached hmem => h.current attached (List.mem_of_mem_filter hmem)⟩
  | takeControl request resize =>
    obtain ⟨events, htold⟩ := handleTakeControl_announced hop
    exact h.told htold
  | output bytes now =>
    dsimp only [Attachments.step, TerminalSession.apply]
    cases hrecord : attachments.session.recordOutput parseOscMetadata bytes now with
    | none => exact h
    | some result =>
      unfold TerminalSession.recordOutput at hrecord
      split at hrecord
      · cases hrecord
      · cases hrecord
        refine h.told ⟨rfl, ?_⟩
        exact (noteAll_control _ _ _).trans (applyAll_metadata _ _).symm

theorem owner_of_valid (attachId rpcSessionId : ℕ)
    (h : validateAttachOwner session attachId rpcSessionId = .ok ()) :
    ∃ owner ∈ session.attachOwners, owner.1 = attachId := by
  unfold validateAttachOwner at h
  cases hlookup : session.attachOwners.lookup attachId with
  | none =>
    rw [hlookup] at h
    cases h
  | some owner =>
    obtain ⟨before, after, heq, -⟩ := List.lookup_eq_some_iff.mp hlookup
    exact ⟨(attachId, owner), heq ▸ by simp, rfl⟩

theorem takeControl_owners (attachId rpcSessionId cols rows : ℕ) :
    (session.takeControl attachId rpcSessionId cols rows resize).1.attachOwners =
      session.attachOwners := by
  unfold TerminalSession.takeControl
  split
  · rfl
  · split <;> rfl

theorem Attachments.Owned.step (h : attachments.Owned) (op : AttachmentOp) :
    (attachments.step parseOscMetadata op).Owned := by
  cases op with
  | attach others viewportCols viewportRows rpcSessionId afterSeq now =>
    dsimp only [Attachments.step]
    split
    · exact h
    · split
      · exact h
      · rename_i hattach
        obtain ⟨-, hattach⟩ := (bind_unit_eq_ok _ _ _).mp hattach
        cases hattach
        intro owner hmem
        rcases List.mem_cons.mp hmem with hnew | hold
        · exact ⟨_, List.mem_append_right _ List.mem_cons_self, (congrArg Prod.fst hnew).symm⟩
        · obtain ⟨attached, hattached, heq⟩ := h owner hold
          exact ⟨attached, List.mem_append_left _ hattached, heq⟩
  | detach attachId now =>
    intro owner hmem
    obtain ⟨hold, hne⟩ := List.mem_filter.mp hmem
    obtain ⟨attached, hattached, heq⟩ := h owner hold
    refine ⟨attached, List.mem_filter.mpr ⟨hattached, ?_⟩, heq⟩
    rw [heq]
    exact hne
  | takeControl request resize =>
    have howners : (attachments.session.handleTakeControl true request resize).1.attachOwners =
        attachments.session.attachOwners := by
      unfold TerminalSession.handleTakeControl
      split
      · rfl
      · split
        · rfl
        · exact takeControl_owners _ _ _ _
    intro owner hmem
    exact h owner (howners ▸ hmem)
  | output bytes now =>
    have howners : (attachments.session.apply parseOscMetadata (.output bytes now)).attachOwners =
        attachments.session.attachOwners := by
      dsimp only [TerminalSession.apply]
      unfold TerminalSession.recordOutput
      split <;> rfl
    intro owner hmem
    exact h owner (howners ▸ hmem)

theorem silent_breaks (howned : attachments.Owned) (hcurrent : attachments.Current)
    (op : AttachmentOp) (hop : attachments.SetsSilently op) :
    ¬ (attachments.step parseOscMetadata op).Current := by
  cases op with
  | takeControl request resize =>
    obtain ⟨hsize, howner, ⟨err, rfl⟩, hnew⟩ := hop
    obtain ⟨owner, hmem, heq⟩ := owner_of_valid _ _ howner
    obtain ⟨attached, hattached, -⟩ := howned owner hmem
    have hold := hcurrent attached hattached
    intro hstep
    have hafter := hstep attached hattached
    dsimp only [Attachments.step] at hafter
    unfold TerminalSession.handleTakeControl TerminalSession.takeControl at hafter
    rw [hsize, howner] at hafter
    exact hnew (hold.symm.trans hafter)
  | attach others viewportCols viewportRows rpcSessionId afterSeq now | detach attachId now
  | output bytes now => exact hop.elim

theorem run_snoc (ops : List AttachmentOp) (op : AttachmentOp) :
    attachments.run parseOscMetadata (ops ++ [op]) =
      (attachments.run parseOscMetadata ops).step parseOscMetadata op :=
  List.foldl_concat ..

theorem Attachments.Owned.run (h : attachments.Owned) (ops : List AttachmentOp) :
    (attachments.run parseOscMetadata ops).Owned := by
  induction ops using List.reverseRecOn with
  | nil => exact h
  | append_singleton ops op ih =>
    rw [run_snoc]
    exact ih.step parseOscMetadata op

theorem Attachments.Kept.run (h : attachments.Kept) (ops : List AttachmentOp)
    (hops : ∀ before op, before ++ [op] <+: ops →
      ¬ (attachments.run parseOscMetadata before).SetsSilently op) :
    (attachments.run parseOscMetadata ops).Kept := by
  induction ops using List.reverseRecOn with
  | nil => exact h
  | append_singleton ops op ih =>
    have hkept := ih fun before other hpre =>
      hops before other (hpre.trans (List.prefix_append ops [op]))
    rw [run_snoc]
    exact hkept.step parseOscMetadata op (hops ops op List.prefix_rfl)

theorem run_current_iff (hkept : attachments.Kept) (howned : attachments.Owned)
    (ops : List AttachmentOp) :
    (∀ before, before <+: ops → (attachments.run parseOscMetadata before).Current) ↔
      ∀ before op, before ++ [op] <+: ops →
        ¬ (attachments.run parseOscMetadata before).SetsSilently op := by
  constructor
  · intro hcurrent before op hpre hop
    refine silent_breaks parseOscMetadata (howned.run parseOscMetadata before)
      (hcurrent before ((List.prefix_append before [op]).trans hpre)) op hop ?_
    rw [← run_snoc]
    exact hcurrent _ hpre
  · intro hops before hpre
    exact (hkept.run parseOscMetadata before fun earlier op hearlier =>
      hops earlier op (hearlier.trans hpre)).current

/-- A refused takeover leaves the control alone, and in every run the events tell every stream the
control, exactly if the host does not fail on a takeover that sets something new. -/
theorem take_control_events :
    (∀ (session : TerminalSession) (found : Bool) (request : TakeTerminalControlReq)
      (resize : Except ServiceError Unit),
      (∀ err, (session.handleTakeControl found request resize).2 = .error err →
        (session.handleTakeControl found request resize).1.info.control = session.info.control) ↔
        ¬ (found = true ∧ session.SetsSilently request resize)) ∧
    ∀ (request : CreateTerminalSessionReq) (terminalSessionId : ℕ) (creatorClientId : String)
      (initialCwd : Option String) (nextAttachId now : ℕ) (ops : List AttachmentOp),
      let created := Attachments.created request terminalSessionId creatorClientId initialCwd
        nextAttachId now
      (∀ before, before <+: ops → (created.run parseOscMetadata before).Current) ↔
        ∀ before op, before ++ [op] <+: ops →
          ¬ (created.run parseOscMetadata before).SetsSilently op := by
  refine ⟨fun session found request resize => handleTakeControl_error_iff found, ?_⟩
  intro request terminalSessionId creatorClientId initialCwd nextAttachId now ops
  refine run_current_iff parseOscMetadata ⟨?_, ?_⟩ ?_ ops
  · exact fun _ hmem => absurd hmem List.not_mem_nil
  · exact fun _ hmem => absurd hmem List.not_mem_nil
  · exact fun _ hmem => absurd hmem List.not_mem_nil

end

def resizeFailed : Except ServiceError Unit := .error (.operationFailed "resize")

def firstTry : List AttachmentOp :=
  [.attach 0 80 24 7 none 0, .takeControl ⟨1, 7, 100, 30⟩ resizeFailed]

def secondTry : List AttachmentOp := firstTry ++ [.takeControl ⟨1, 7, 100, 30⟩ (.ok ())]

theorem take_control_refused_stays :
    (∃ session : TerminalSession, ∃ request err,
      (session.handleTakeControl true request resizeFailed).2 = .error err ∧
      (session.handleTakeControl true request resizeFailed).1.info.control ≠ session.info.control) ∧
    ∀ ops ∈ [firstTry, secondTry], ¬ Attachments.Current ((Attachments.created ⟨80, 24, none⟩ 1
      "client" none 1 0).run (fun _ => none) ops) := by
  constructor
  · refine ⟨((Attachments.created ⟨80, 24, none⟩ 1 "client" none 1 0).run (fun _ => none)
      (firstTry.take 1)).session, ⟨1, 7, 100, 30⟩, _, rfl, ?_⟩
    decide
  · decide

end Rieul.Terminal
