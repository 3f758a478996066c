import Mathlib.Data.Finset.Erase
import Mathlib.Data.Finset.SDiff
import Mathlib.Data.List.Sort
import Mathlib.Data.Finset.Union
import Rieul.Screen.Control

/-!
# The helper's channel (daemon/host/src/desktop_ipc.rs)

The daemon reaches the desktop through a helper process of the user's session.
One stream carries the requests, numbered from one, and one the responses. A key
or a button that the helper pressed stays down when the helper dies; the daemon's
`Ledger` remembers what may be down.
-/

namespace Rieul.Screen.Ipc

deriving instance DecidableEq for DesktopRect, DesktopViewport

structure DesktopCodec where
  codec : String
  description : Option (List UInt8)
  hardware : Bool
  deriving DecidableEq

structure DesktopStripe where
  y : ℕ
  height : ℕ
  deriving DecidableEq

structure DesktopTrack where
  trackId : ℕ
  viewport : DesktopViewport
  codec : DesktopCodec
  codecEpoch : ℕ
  stripes : Option (List DesktopStripe)
  deriving DecidableEq

def DesktopTrack.key (track : DesktopTrack) : ℕ × ℕ := (track.trackId, track.codecEpoch)

inductive UserDesktopCommand where
  | StreamGroup (track : DesktopTrack) (refresh : Bool) (bitrate : ℕ)
  | ProbeVideo (track : DesktopTrack)
  | Ping
  | Capabilities
  | Displays
  | Cursor (layoutEpoch : ℕ)
  | Input (event : DesktopInputEvent) (viewport : Option DesktopViewport)
  | RecoverInput (keys buttons : List ℕ)
  | EndTrack (track : DesktopTrack)

structure UserDesktopRequest where
  requestId : ℕ
  command : UserDesktopCommand

inductive UserDesktopResult where
  | GroupFrame (bytes : ℕ)
  | VideoProbe
  | Done
  | Capabilities
  | Displays
  | Cursor
  | Failed (code : Error)
  deriving DecidableEq

structure Message where
  start : Bool
  request : UserDesktopRequest

abbrev Message.id (m : Message) : ℕ := m.request.requestId
abbrev Message.command (m : Message) : UserDesktopCommand := m.request.command

structure UserDesktopResponse where
  requestId : ℕ
  result : UserDesktopResult

def UserDesktopCommand.isRecovery : UserDesktopCommand → Bool
  | .RecoverInput .. => true
  | _ => false

def UserDesktopCommand.isPing : UserDesktopCommand → Bool
  | .Ping => true
  | _ => false

def UserDesktopCommand.isCapture : UserDesktopCommand → Bool
  | .StreamGroup .. => true
  | .EndTrack _ => true
  | _ => false

def UserDesktopCommand.isInput : UserDesktopCommand → Bool
  | .Input .. => true
  | .RecoverInput .. => true
  | _ => false

def UserDesktopCommand.presses : UserDesktopCommand → Option Pressed
  | .Input (.PhysicalKey usage true _) _ => some (.key usage)
  | .Input (.Button _ _ _ button true) _ => some (.button button)
  | _ => none

/-- The command, when it succeeds, leaves `p` up if this helper pressed it. -/
def UserDesktopCommand.releases (p : Pressed) : UserDesktopCommand → Bool
  | .Input (.PhysicalKey usage false _) _ => p = .key usage
  | .Input (.Button _ _ _ button false) _ => p = .button button
  | .Input .ReleaseAll _ => true
  | _ => false

section
variable (command : UserDesktopCommand)
include command

theorem releases_isInput (p : Pressed)
    (h : command.releases p) : command.isInput := by
  cases command with
  | Input event viewport => rfl
  | _ => exact absurd h Bool.false_ne_true

theorem isPing_not_input (h : command.isPing) :
    command.isInput = false := by
  cases command with
  | Ping => rfl
  | _ => cases h

theorem isRecovery_isInput (h : command.isRecovery) :
    command.isInput := by
  cases command with
  | RecoverInput keys buttons => rfl
  | _ => cases h

theorem releases_not_recovery (p : Pressed)
    (h : command.releases p) : command.isRecovery = false := by
  cases command with
  | RecoverInput keys buttons => cases h
  | _ => rfl

theorem presses_isInput (p : Pressed)
    (h : command.presses = some p) : command.isInput := by
  cases command with
  | Input event viewport => rfl
  | _ => cases h

theorem presses_not_recovery (p : Pressed)
    (h : command.presses = some p) : command.isRecovery = false := by
  cases command with
  | RecoverInput keys buttons => cases h
  | _ => rfl

end

structure Ledger where
  keys : List (ℕ × ℕ)
  buttons : List (ℕ × ℕ)

def insertEntry (entries : List (ℕ × ℕ)) (k id : ℕ) : List (ℕ × ℕ) :=
  (k, id) :: entries.filter (·.1 ≠ k)

def Ledger.record (l : Ledger) (command : UserDesktopCommand) (id : ℕ) : Ledger :=
  match command with
  | .Input (.PhysicalKey usage true _) _ => { l with keys := insertEntry l.keys usage id }
  | .Input (.Button _ _ _ button true) _ => { l with buttons := insertEntry l.buttons button id }
  | _ => l

def Ledger.ack (l : Ledger) (command : UserDesktopCommand) (id : ℕ) : Ledger :=
  match command with
  | .RecoverInput .. => ⟨[], []⟩
  | .Input (.PhysicalKey usage false _) _ =>
    { l with keys := l.keys.filter fun e => e.1 ≠ usage ∨ id < e.2 }
  | .Input (.Button _ _ _ button false) _ =>
    { l with buttons := l.buttons.filter fun e => e.1 ≠ button ∨ id < e.2 }
  | .Input .ReleaseAll _ => ⟨l.keys.filter (id < ·.2), l.buttons.filter (id < ·.2)⟩
  | _ => l

def Ledger.recovery (l : Ledger) : UserDesktopCommand :=
  .RecoverInput ((l.keys.map Prod.fst).insertionSort (· ≤ ·))
    ((l.buttons.map Prod.fst).insertionSort (· ≤ ·))

/-- `p` was pressed last by the request `id`. -/
def Ledger.Records (l : Ledger) (p : Pressed) (id : ℕ) : Prop :=
  match p with
  | .key usage => (usage, id) ∈ l.keys
  | .button button => (button, id) ∈ l.buttons

theorem mem_insertEntry (entries : List (ℕ × ℕ)) (k id k' id' : ℕ) :
    (k', id') ∈ insertEntry entries k id ↔ if k' = k then id' = id else (k', id') ∈ entries := by
  unfold insertEntry
  by_cases h : k' = k
  · simp [h]
  · simp [h]

@[simp] theorem records_nil (p : Pressed) (id : ℕ) : ¬ Ledger.Records ⟨[], []⟩ p id := by
  cases p with
  | key usage => exact List.not_mem_nil
  | button button => exact List.not_mem_nil

theorem records_record (l : Ledger) (command : UserDesktopCommand) (id : ℕ) (p : Pressed) (n : ℕ) :
    (l.record command id).Records p n ↔
      if command.presses = some p then n = id else l.Records p n := by
  cases command with
  | Input event viewport =>
    cases event with
    | PhysicalKey usage down repeats =>
      cases down with
      | true =>
        cases p with
        | key u => simp [Ledger.record, Ledger.Records, UserDesktopCommand.presses, mem_insertEntry,
            eq_comm]
        | button b => simp [Ledger.record, Ledger.Records, UserDesktopCommand.presses]
      | false => simp [Ledger.record, UserDesktopCommand.presses]
    | Button v x y button down =>
      cases down with
      | true =>
        cases p with
        | key u => simp [Ledger.record, Ledger.Records, UserDesktopCommand.presses]
        | button b => simp [Ledger.record, Ledger.Records, UserDesktopCommand.presses,
            mem_insertEntry, eq_comm]
      | false => simp [Ledger.record, UserDesktopCommand.presses]
    | _ => simp [Ledger.record, UserDesktopCommand.presses]
  | _ => simp [Ledger.record, UserDesktopCommand.presses]

theorem records_ack (l : Ledger) (command : UserDesktopCommand) (hc : command.isRecovery = false)
    (id : ℕ) (p : Pressed) (n : ℕ) :
    (l.ack command id).Records p n ↔ l.Records p n ∧ (command.releases p → id < n) := by
  cases command with
  | Input event viewport =>
    cases event with
    | PhysicalKey usage down repeats =>
      cases down with
      | true => simp [Ledger.ack, UserDesktopCommand.releases]
      | false =>
        cases p with
        | key u =>
          simp only [Ledger.ack, Ledger.Records, UserDesktopCommand.releases, List.mem_filter,
            decide_eq_true_eq, Pressed.key.injEq]
          grind
        | button b => simp [Ledger.ack, Ledger.Records, UserDesktopCommand.releases]
    | Button v x y button down =>
      cases down with
      | true => simp [Ledger.ack, UserDesktopCommand.releases]
      | false =>
        cases p with
        | key u => simp [Ledger.ack, Ledger.Records, UserDesktopCommand.releases]
        | button b =>
          simp only [Ledger.ack, Ledger.Records, UserDesktopCommand.releases, List.mem_filter,
            decide_eq_true_eq, Pressed.button.injEq]
          grind
    | ReleaseAll =>
      cases p with
      | key u | button b => simp [Ledger.ack, Ledger.Records, UserDesktopCommand.releases]
    | _ => simp [Ledger.ack, UserDesktopCommand.releases]
  | RecoverInput keys buttons => cases hc
  | _ => simp [Ledger.ack, UserDesktopCommand.releases]

/-- How a native call ended: it succeeded, was refused at once, or failed after it had taken
effect on some keys and buttons. -/
inductive Outcome where
  | done
  | refused (code : Error)
  | failed (code : Error) (effective : Finset Pressed)

/-- The keys and buttons that are down; those of them that the backend of this helper knows of, and
the tracks whose capture it has open. -/
structure Native where
  held : Finset Pressed
  tracked : Finset Pressed
  captures : Finset (ℕ × ℕ)

def Native.press (n : Native) (p : Pressed) : Outcome → Native
  | .done => { n with held := insert p n.held, tracked := insert p n.tracked }
  | .refused _ => n
  | .failed _ effective => { n with
      held := if p ∈ effective then insert p n.held else n.held
      tracked := insert p n.tracked }

def Native.release (n : Native) (p : Pressed) : Outcome → Native
  | .done => { n with held := n.held.erase p, tracked := n.tracked.erase p }
  | .refused _ => n
  | .failed _ effective => { n with held := if p ∈ effective then n.held.erase p else n.held }

def Native.releaseAll (n : Native) : Outcome → Native
  | .done => { n with held := n.held \ n.tracked, tracked := ∅ }
  | .refused _ => n
  | .failed _ effective => { n with
      held := n.held \ (n.tracked ∩ effective)
      tracked := n.tracked \ effective }

def Native.input (n : Native) (event : DesktopInputEvent) (outcome : Outcome) : Native :=
  match event with
  | .PhysicalKey usage true _ => n.press (.key usage) outcome
  | .PhysicalKey usage false _ => n.release (.key usage) outcome
  | .Button _ _ _ button true => n.press (.button button) outcome
  | .Button _ _ _ button false => n.release (.button button) outcome
  | .ReleaseAll => n.releaseAll outcome
  | _ => n

def recovered (keys buttons : List ℕ) : Finset Pressed :=
  (keys.map Pressed.key ++ buttons.map Pressed.button).toFinset

def recoverValid (keys buttons : List ℕ) : Bool :=
  ¬ (228 < keys.length ∨ 5 < buttons.length ∨ keys.any (fun k => ¬ (4 ≤ k ∧ k ≤ 231)) ∨
    buttons.any fun b => ¬ (1 ≤ b ∧ b ≤ 5))

def Native.recoverInput (n : Native) (keys buttons : List ℕ) : Outcome → Native
  | .refused _ => n
  | outcome => Native.releaseAll { n with tracked := n.tracked ∪ recovered keys buttons } outcome

def Native.exit (n : Native) : Native := ⟨n.held, ∅, ∅⟩

def Native.endTrack (n : Native) (key : ℕ × ℕ) : Outcome → Native
  | .done => { n with captures := n.captures.erase key }
  | _ => n

def Outcome.result (outcome : Outcome) (value : UserDesktopResult) : UserDesktopResult :=
  match outcome with
  | .done => value
  | .refused code => .Failed code
  | .failed code _ => .Failed code

def execute (n : Native) (command : UserDesktopCommand) (outcome : Outcome) :
    Native × UserDesktopResult :=
  match command with
  | .RecoverInput keys buttons =>
    if recoverValid keys buttons then
      (n.recoverInput keys buttons outcome, outcome.result .Done)
    else (n, .Failed .Invalid)
  | .ProbeVideo _ => (n, outcome.result .VideoProbe)
  | .Ping => (n, .Done)
  | .Capabilities => (n, outcome.result .Capabilities)
  | .Displays => (n, outcome.result .Displays)
  | .Cursor _ => (n, outcome.result .Cursor)
  | .Input event _ => (n.input event outcome, outcome.result .Done)
  | .EndTrack track => (n.endTrack track.key outcome, outcome.result .Done)
  | .StreamGroup .. => (n, .Failed .Unsupported)

theorem mem_press (n : Native) (p q : Pressed) (outcome : Outcome)
    (h : q ∈ (n.press p outcome).held) : q ∈ n.held ∨ p = q := by
  cases outcome with
  | done =>
    rcases Finset.mem_insert.mp h with h | h
    · exact .inr h.symm
    · exact .inl h
  | refused code => exact .inl h
  | failed code effective =>
    simp only [Native.press] at h
    split at h
    · rcases Finset.mem_insert.mp h with h | h
      · exact .inr h.symm
      · exact .inl h
    · exact .inl h

theorem mem_release (n : Native) (p q : Pressed) (outcome : Outcome)
    (h : q ∈ (n.release p outcome).held) : q ∈ n.held ∧ (outcome = .done → p ≠ q) := by
  cases outcome with
  | done =>
    obtain ⟨hne, hq⟩ := Finset.mem_erase.mp h
    exact ⟨hq, fun _ => hne.symm⟩
  | refused code => exact ⟨h, nofun⟩
  | failed code effective =>
    simp only [Native.release] at h
    refine ⟨?_, nofun⟩
    split at h
    · exact (Finset.mem_erase.mp h).2
    · exact h

theorem mem_releaseAll (n : Native) (q : Pressed) (outcome : Outcome)
    (h : q ∈ (n.releaseAll outcome).held) :
    q ∈ n.held ∧ (outcome = .done → q ∉ n.tracked) := by
  cases outcome with
  | done =>
    obtain ⟨hq, hne⟩ := Finset.mem_sdiff.mp h
    exact ⟨hq, fun _ => hne⟩
  | refused code => exact ⟨h, nofun⟩
  | failed code effective => exact ⟨(Finset.mem_sdiff.mp h).1, nofun⟩

theorem press_tracked (n : Native) (p : Pressed) (outcome : Outcome) (h : n.held ⊆ n.tracked) :
    (n.press p outcome).held ⊆ (n.press p outcome).tracked := by
  cases outcome with
  | done => exact Finset.insert_subset_insert p h
  | refused code => exact h
  | failed code effective =>
    simp only [Native.press]
    split
    · exact Finset.insert_subset_insert p h
    · exact h.trans (Finset.subset_insert p n.tracked)

theorem release_tracked (n : Native) (p : Pressed) (outcome : Outcome) (h : n.held ⊆ n.tracked) :
    (n.release p outcome).held ⊆ (n.release p outcome).tracked := by
  cases outcome with
  | done => exact Finset.erase_subset_erase p h
  | refused code => exact h
  | failed code effective =>
    simp only [Native.release]
    split
    · exact (Finset.erase_subset p n.held).trans h
    · exact h

theorem releaseAll_tracked (n : Native) (outcome : Outcome) (h : n.held ⊆ n.tracked) :
    (n.releaseAll outcome).held ⊆ (n.releaseAll outcome).tracked := by
  cases outcome with
  | done =>
    intro q hq
    exact absurd (h (Finset.mem_sdiff.mp hq).1) (Finset.mem_sdiff.mp hq).2
  | refused code => exact h
  | failed code effective =>
    intro q hq
    obtain ⟨hq, hne⟩ := Finset.mem_sdiff.mp hq
    refine Finset.mem_sdiff.mpr ⟨h hq, fun heff => hne ?_⟩
    exact Finset.mem_inter.mpr ⟨h hq, heff⟩

theorem recoverInput_cases (n : Native) (keys buttons : List ℕ) (outcome : Outcome) :
    (n.recoverInput keys buttons outcome = n ∧ outcome ≠ .done) ∨
      n.recoverInput keys buttons outcome =
        Native.releaseAll { n with tracked := n.tracked ∪ recovered keys buttons } outcome := by
  cases outcome with
  | refused code => exact .inl ⟨rfl, nofun⟩
  | done | failed code effective => exact .inr rfl

theorem recovery_recovers (l : Ledger) (p : Pressed) (id : ℕ) (h : l.Records p id)
    (keys buttons : List ℕ) (hr : l.recovery = .RecoverInput keys buttons) :
    p ∈ recovered keys buttons := by
  unfold Ledger.recovery at hr
  cases hr
  unfold recovered
  rw [List.mem_toFinset, List.mem_append]
  cases p with
  | key usage =>
    left
    apply List.mem_map_of_mem
    rw [List.mem_insertionSort]
    exact List.mem_map_of_mem h
  | button button =>
    right
    apply List.mem_map_of_mem
    rw [List.mem_insertionSort]
    exact List.mem_map_of_mem h

theorem result_done (outcome : Outcome) (value : UserDesktopResult)
    (h : outcome.result value = .Done) : outcome = .done := by
  cases outcome with
  | done => rfl
  | _ => cases h

section
variable (n : Native) (command : UserDesktopCommand) (outcome : Outcome)
include n command outcome

theorem execute_tracked (h : n.held ⊆ n.tracked) :
    (execute n command outcome).1.held ⊆ (execute n command outcome).1.tracked := by
  cases command with
  | Input event viewport =>
    show (n.input event outcome).held ⊆ (n.input event outcome).tracked
    cases event with
    | PhysicalKey usage down repeats | Button v x y button down =>
      cases down with
      | true => exact press_tracked n _ outcome h
      | false => exact release_tracked n _ outcome h
    | ReleaseAll => exact releaseAll_tracked n outcome h
    | _ => exact h
  | RecoverInput keys buttons =>
    simp only [execute]
    split
    · rcases recoverInput_cases n keys buttons outcome with ⟨heq, _⟩ | heq
      · rw [heq]
        exact h
      · rw [heq]
        apply releaseAll_tracked
        exact h.trans Finset.subset_union_left
    · exact h
  | EndTrack track =>
    cases outcome with
    | _ => exact h
  | _ => exact h

theorem execute_held (p : Pressed)
    (h : p ∈ (execute n command outcome).1.held) :
    p ∈ n.held ∨ command.presses = some p := by
  cases command with
  | Input event viewport =>
    cases event with
    | PhysicalKey usage down repeats | Button v x y button down =>
      cases down with
      | true =>
        rcases mem_press n _ p outcome h with h | h
        · exact .inl h
        · exact .inr (congrArg some h)
      | false => exact .inl (mem_release n _ p outcome h).1
    | ReleaseAll => exact .inl (mem_releaseAll n p outcome h).1
    | _ => exact .inl h
  | RecoverInput keys buttons =>
    simp only [execute] at h
    split at h
    · rcases recoverInput_cases n keys buttons outcome with ⟨heq, _⟩ | heq
      · rw [heq] at h
        exact .inl h
      · rw [heq] at h
        exact .inl (mem_releaseAll _ p outcome h).1
    · exact .inl h
  | EndTrack track =>
    cases outcome with
    | _ => exact .inl h
  | _ => exact .inl h

theorem execute_releases
    (h : n.held ⊆ n.tracked) (hdone : (execute n command outcome).2 = .Done) (p : Pressed)
    (hp : command.releases p) : p ∉ (execute n command outcome).1.held := by
  intro hmem
  cases command with
  | Input event viewport =>
    have houtcome : outcome = .done := result_done outcome .Done hdone
    cases event with
    | PhysicalKey usage down repeats | Button v x y button down =>
      cases down with
      | true => cases hp
      | false =>
        have hne := (mem_release n _ p outcome hmem).2 houtcome
        exact hne (of_decide_eq_true hp).symm
    | ReleaseAll =>
      obtain ⟨hheld, hnot⟩ := mem_releaseAll n p outcome hmem
      exact hnot houtcome (h hheld)
    | _ => cases hp
  | _ => cases hp

end

theorem execute_recovers (n : Native) (keys buttons : List ℕ) (outcome : Outcome)
    (hdone : (execute n (.RecoverInput keys buttons) outcome).2 = .Done) (p : Pressed)
    (hp : p ∈ (execute n (.RecoverInput keys buttons) outcome).1.held) :
    p ∈ n.held ∧ p ∉ recovered keys buttons := by
  simp only [execute] at hdone hp
  split at hdone
  · rename_i hvalid
    rw [if_pos hvalid] at hp
    have houtcome : outcome = .done := result_done outcome .Done hdone
    rcases recoverInput_cases n keys buttons outcome with ⟨_, hne⟩ | heq
    · exact absurd houtcome hne
    · rw [heq] at hp
      obtain ⟨hheld, hnot⟩ := mem_releaseAll _ p outcome hp
      exact ⟨hheld, fun hmem => hnot houtcome (Finset.mem_union_right _ hmem)⟩
  · cases hdone

end Rieul.Screen.Ipc
