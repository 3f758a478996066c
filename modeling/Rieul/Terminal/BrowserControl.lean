import Rieul.Terminal.Replay
import Rieul.Lib.Calls
import Rieul.Lib.System

/-!
# Control in the browser (web/src/view/workbench/tool/terminal/index.tsx, host/src/terminal.rs)

A view learns who has control from the events of its attach, which arrive in order,
and from the responses to its own requests, which arrive whenever they do. Events do
not fall out of their channel here. A view that is reopened is another view.
-/

namespace Rieul.Terminal
open Bytes Fallible Broadcast

def stalePrimaryAttach : ServiceError := .operationFailed "attach is not the live primary attach"

/-- `write_input` under the lock; the last argument is what the host does with the bytes. -/
def TerminalSession.writeInput (session : TerminalSession) (attachId rpcSessionId : ℕ)
    (host : Except ServiceError Unit) : Except ServiceError Unit := do
  validateAttachOwner session attachId rpcSessionId
  ensure (session.info.primaryAttachId = some attachId) stalePrimaryAttach
  host

inductive ViewPhase where
  | waiting
  | attached
  | viewing
  | closed
  | error

/-- `next` is the place of the next event among all that the session sent; until the snapshot of the
attach is delivered there is no `attachId`. -/
structure BrowserView where
  attached : AttachedTerminal
  rpcSessionId : ℕ
  next : ℕ
  attachId : Option ℕ
  primaryAttachId : Option ℕ
  finished : Bool
  phase : ViewPhase

def BrowserView.opened (attached : AttachedTerminal) (rpcSessionId : ℕ) : BrowserView :=
  ⟨attached, rpcSessionId, attached.receiver, none, none, false, .waiting⟩

namespace BrowserView
variable (view : BrowserView)

/-- `handleTerminalEvent` on the snapshot of the attach. -/
def handleAttached : BrowserView :=
  { view with
    attachId := some view.attached.attachId
    primaryAttachId := view.attached.primaryAttachId
    finished := view.attached.session.exit.isSome
    phase :=
      if view.attached.session.exit.isSome then .closed
      else if view.attached.primaryAttachId = some view.attached.attachId then .attached
      else .viewing }

def handleTerminalEvent : TerminalEvent → BrowserView
  | .historyGap _ => { view with phase := .viewing }
  | .controlChanged primaryAttachId => { view with
      primaryAttachId := some primaryAttachId
      phase := if some primaryAttachId = view.attachId then .attached else .viewing }
  | .sessionExited _ => { view with finished := true }
  | .sessionClosed _ => { view with finished := true, primaryAttachId := none, phase := .closed }
  | _ => view

/-- What `takeCurrentControl` does with the response. -/
def handleResponse : Except ServiceError ℕ → BrowserView
  | .ok primaryAttachId => { view with primaryAttachId := some primaryAttachId, phase := .attached }
  | .error _ => { view with phase := .error }

def deliver (sent : List TerminalEvent) : Option BrowserView :=
  if view.finished then none
  else match view.attachId with
    | none => some view.handleAttached
    | some _ => sent[view.next]?.map fun event =>
        { view with next := view.next + 1 }.handleTerminalEvent event

end BrowserView

structure TakeTerminalControlReq where
  attachId : ℕ
  rpcSessionId : ℕ
  cols : ℕ
  rows : ℕ

structure TakeTerminalControlRes where
  attachId : ℕ
  result : Except ServiceError ℕ

structure SharedTerminal where
  session : TerminalSession
  nextAttachId : ℕ
  views : List BrowserView
  requests : List TakeTerminalControlReq
  responses : List TakeTerminalControlRes

def SharedTerminal.created (request : CreateTerminalSessionReq) (terminalSessionId : ℕ)
    (creatorClientId : String) (initialCwd : Option String) (now : ℕ) : SharedTerminal :=
  ⟨.new request terminalSessionId creatorClientId initialCwd now, 1, [], [], []⟩

inductive ControlStep where
  | op (op : SessionOp)
  | attach (rpcSessionId : ℕ) (afterSeq : Option ℕ) (now : ℕ)
  | leave (index : ℕ)
  | request (index cols rows : ℕ)
  | process (index : ℕ) (resize : Except ServiceError Unit)
  | respond (index : ℕ)
  | deliver (index : ℕ)

def SessionOp.takesControl : SessionOp → Bool
  | takeControl _ _ _ _ _ => true
  | _ => false

variable (parseOscMetadata : Str → Option TerminalMetadata)

namespace SharedTerminal
variable (shared : SharedTerminal)

/-- `take_control` and its response. -/
def takeControl (request : TakeTerminalControlReq) (resize : Except ServiceError Unit) :
    TerminalSession × TakeTerminalControlRes :=
  match validateSize request.cols request.rows with
  | .error err => (shared.session, ⟨request.attachId, .error err⟩)
  | .ok () =>
    let (session, result) := shared.session.takeControl request.attachId request.rpcSessionId
      request.cols request.rows resize
    (session, ⟨request.attachId, result.map fun _ => request.attachId⟩)

def step : ControlStep → Option SharedTerminal
  | .op op =>
    if op.takesControl then none
    else some { shared with session := shared.session.apply parseOscMetadata op }
  | .attach rpcSessionId afterSeq now =>
    match shared.session.attach shared.nextAttachId rpcSessionId afterSeq now with
    | .error _ => some { shared with nextAttachId := shared.nextAttachId + 1 }
    | .ok (session, attached) => some { shared with
        session := session
        nextAttachId := shared.nextAttachId + 1
        views := shared.views ++ [.opened attached rpcSessionId] }
  | .leave index => some { shared with views := shared.views.eraseIdx index }
  | .request index cols rows =>
    (shared.views[index]?).bind fun view =>
      if view.finished then none
      else view.attachId.map fun attachId => { shared with
        requests := shared.requests ++ [⟨attachId, view.rpcSessionId, cols, rows⟩] }
  | .process index resize =>
    (shared.requests[index]?).map fun request =>
      let (session, response) := shared.takeControl request resize
      { shared with
        session := session
        requests := shared.requests.eraseIdx index
        responses := shared.responses ++ [response] }
  | .respond index =>
    (shared.responses[index]?).map fun response => { shared with
      responses := shared.responses.eraseIdx index
      views := shared.views.map fun view =>
        if view.attachId = some response.attachId then view.handleResponse response.result
        else view }
  | .deliver index =>
    (shared.views[index]?).bind fun view =>
      (view.deliver shared.session.sent).map fun next => { shared with
        views := shared.views.set index next }

end SharedTerminal

end Rieul.Terminal
