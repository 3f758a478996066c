import Mathlib.Data.List.Infix
import Rieul.Screen.HeldInput

/-!
# The order of input frames

The frames of an attachment are numbered by its client.
-/

namespace Rieul.Screen
open Stateful

def DesktopInputEvent.isFeedback : DesktopInputEvent → Bool
  | .Feedback .. => true
  | _ => false

/-- `input` as far as the send. -/
def admitInput (auth : Auth) (connection now : ℕ) (frame : DesktopInputFrame) : Call Unit := do
  let a ← authorize auth connection frame.attachId now
  let d ← get
  ensure (d.holder = some frame.attachId ∧ frame.inputEpoch = d.epoch) .Stale
  ensure (frame.sequence = a.sequence + 1 ∧ frame.sequence ≤ maxSafe) .Stale
  modify fun d => d.update frame.attachId fun a => { a with sequence := frame.sequence }
  admitPoint a frame.layoutEpoch frame.event
  admitEvent a.keyboardMode frame.event

def forward (event : DesktopInputEvent) (attachId : String) : Call Unit := do
  let sent ← send event attachId
  if sent then pure ()
  else do
    attempt release
    throw .Backend

theorem input_eq (auth : Auth) (connection now : ℕ) (frame : DesktopInputFrame) :
    input auth connection now frame =
      (do admitInput auth connection now frame; forward frame.event frame.attachId) := by
  simp only [input, admitInput, deliver, forward, bind_assoc]

structure Delivery where
  connection : ℕ
  frame : DesktopInputFrame
  desktop : Desktop

def Runtime.delivery (r : Runtime) : Action → Option Delivery
  | .acceptInput auth connection now frame =>
    if frame.event.isFeedback ∨ r.desktop.input.generation ≠ r.desktop.backendGeneration then none
    else match exec (admitInput auth connection now frame) r.desktop with
      | (.ok _, d) => some ⟨connection, frame, d⟩
      | (.error _, _) => none
  | _ => none

/-- The sends of the adapter are the delivered events, in their order, and releases of the state
machine between them. -/
inductive Accounted : List DesktopInputEvent → List DesktopInputEvent → Prop where
  | nil : Accounted [] []
  | release {log events} : Accounted log events → Accounted (log ++ [.ReleaseAll]) events
  | deliver {log events} (event) : Accounted log events →
      Accounted (log ++ [event]) (events ++ [event])

def Runtime.addressed (r : Runtime) (auth : Auth) (connection now : ℕ)
    (frame : DesktopInputFrame) : Bool :=
  r.desktop.input.generation = r.desktop.backendGeneration &&
    match exec (authorize auth connection frame.attachId now) r.desktop with
    | (.ok _, d) => frame.event.isFeedback || d.holder = some frame.attachId
    | (.error _, _) => false

/-- The next number after `used`; a frame has no larger one than `maxSafe`. -/
def DesktopInputFrame.Next (frame : DesktopInputFrame) (used : String → ℕ) : Prop :=
  frame.sequence = used frame.attachId + 1 ∧ frame.sequence ≤ maxSafe

instance (frame : DesktopInputFrame) (used : String → ℕ) : Decidable (frame.Next used) :=
  inferInstanceAs (Decidable (_ ∧ _))

/-- The numbers that the clients have used for their attachments, after an action; whatever the
answer is. -/
def Runtime.uses (r : Runtime) (used : String → ℕ) : Action → String → ℕ
  | .acceptInput auth connection now frame =>
    if r.addressed auth connection now frame ∧ frame.Next used then
      Function.update used frame.attachId frame.sequence
    else used
  | _ => used

/-- Feedback names a track of the present configuration, with values inside the limits; input is of
the present input epoch. -/
def Runtime.Current (r : Runtime) (frame : DesktopInputFrame) : Prop :=
  match frame.event with
  | .Feedback trackId codecEpoch groupId decodeMicros renderMicros queueDepth _ _ =>
    (∃ config, r.configurations.lookup frame.attachId = some config ∧
      frame.layoutEpoch = config.layoutEpoch ∧ (trackId, codecEpoch) ∈ config.tracks) ∧
    0 < groupId ∧ decodeMicros ≤ 60000000 ∧ renderMicros ≤ 60000000 ∧ queueDepth ≤ 256
  | _ => frame.inputEpoch = r.desktop.epoch

def DesktopInputEvent.lifts (keyboardMode : DesktopKeyboardMode) : DesktopInputEvent → Bool
  | .PhysicalKey usage false false =>
    (keyboardMode = .Physical || 224 ≤ usage) && 4 ≤ usage && usage ≤ 231
  | .Button _ _ _ button false => 1 ≤ button && button ≤ 5
  | .ReleaseAll => true
  | _ => false

structure Watched where
  runtime : Runtime
  delivered : List Delivery
  used : String → ℕ

def Watched.step (w : Watched) (a : Action) : Watched where
  runtime := w.runtime.step a
  delivered := w.delivered ++ (w.runtime.delivery a).toList
  used := w.runtime.uses w.used a

def Watched.run (script : ℕ → SendResult) (actions : List Action) : Watched :=
  actions.foldl Watched.step ⟨.new script, [], fun _ => 0⟩

theorem Watched.run_concat (script : ℕ → SendResult) (actions : List Action) (a : Action) :
    Watched.run script (actions ++ [a]) = (Watched.run script actions).step a :=
  List.foldl_concat ..

namespace Watched
variable (w : Watched)

structure Exclusive : Prop where
  accounted : Accounted (w.runtime.desktop.input.log.map (·.1)) (w.delivered.map (·.frame.event))
  holder (x : Delivery) : x ∈ w.delivered → x.frame.event.isFeedback = false ∧
    x.desktop.holder = some x.frame.attachId ∧ x.frame.inputEpoch = x.desktop.epoch ∧
    ∃ a, x.desktop.attachments.lookup x.frame.attachId = some a ∧ a.connection = x.connection
  increasing : w.delivered.Pairwise fun x y =>
    x.frame.attachId = y.frame.attachId → x.frame.sequence < y.frame.sequence

structure InOrder : Prop where
  consumed (id : String) (a : Attachment) :
    w.runtime.desktop.attachments.lookup id = some a → a.sequence = w.used id
  lifts (auth : Auth) (connection now : ℕ) (frame : DesktopInputFrame) (a : Attachment) :
    w.runtime.addressed auth connection now frame → frame.inputEpoch = w.runtime.desktop.epoch →
      frame.Next w.used → w.runtime.desktop.attachments.lookup frame.attachId = some a →
        frame.event.lifts a.keyboardMode →
          (w.runtime.delivery (.acceptInput auth connection now frame)).isSome

def Fits : Action → Prop
  | .acceptInput auth connection now frame =>
    w.runtime.addressed auth connection now frame → frame.Next w.used → w.runtime.Current frame
  | _ => True

end Watched

end Rieul.Screen
