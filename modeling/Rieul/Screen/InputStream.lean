import Rieul.Screen.HeldInput

/-!
# Input streams and control

The guard of an input stream remembers the input epoch at which the stream was opened.
-/

namespace Rieul.Screen
open Stateful System

def Desktop.Unpressed (d : Desktop) (id : String) : Prop := ∀ p ∈ d.input.held, p.2 ≠ id

def Runtime.Freed (r : Runtime) (id : String) : Prop :=
  r.desktop.holder ≠ some id ∧ r.desktop.Unpressed id

/-- A release reaches the machine. -/
def Desktop.Releases (d : Desktop) : Prop :=
  d.epoch + 1 ≤ maxSafe ∧ d.input.script d.input.log.length ≠ .failed false

/-- What the guard is for: control that it holds is the control of its stream, and what it pressed
is up already or comes up with the release. -/
structure Desktop.Frees (d : Desktop) (g : InputGuard) : Prop where
  control : d.holder = some g.id → d.Linked ∧ d.epoch = g.epoch
  pressed : d.Unpressed g.id ∨ (d.holder = some g.id ∧ d.Releases)

theorem release_held (d : Desktop) : (exec release d).2.holder = none ∧
    (d.Releases → (exec release d).2.input.held = ∅) ∧
    (¬ d.Releases → (exec release d).2.input.held = d.input.held) := by
  refine ⟨?_, ?_, ?_⟩
  · exact Triple.of_exec (release_spec.weaken (fun _ _ ht => ht.1) fun _ ht => ht.1) d trivial
  all_goals
    intro h
    unfold release
    rw [exec_bind, exec_modify]
    dsimp only
    rw [exec_bind, exec_get]
    dsimp only
    unfold Desktop.Releases at h
  · rw [if_pos h.1, exec_bind, exec_modify]
    rcases releaseHeld_cases { d with holder := none, epoch := d.epoch + 1 } with ⟨hr, -⟩ | hr
    all_goals
      dsimp only at hr ⊢
      rw [hr]
      unfold Adapter.send
      cases hs : d.input.script d.input.log.length with
      | sent => rfl
      | failed effective =>
        cases effective with
        | true => rfl
        | false => exact absurd hs h.2
  · by_cases he : d.epoch + 1 ≤ maxSafe
    · have hs : d.input.script d.input.log.length = .failed false := by
        by_contra hs
        exact h ⟨he, hs⟩
      rw [if_pos he, exec_bind, exec_modify]
      rcases releaseHeld_cases { d with holder := none, epoch := d.epoch + 1 } with ⟨hr, -⟩ | hr
      all_goals
        dsimp only at hr ⊢
        rw [hr]
        simp only [Adapter.send, hs]
        rfl
    · rw [if_neg he]
      rfl

def Desktop.cleaned (d : Desktop) (g : InputGuard) : Desktop :=
  if d.input.generation = d.backendGeneration then (exec (releaseControl g.id g.epoch) d).2 else d

theorem cleanup_desktop (r : Runtime) (n : ℕ) (g : InputGuard) (hg : r.guards n = some g)
    (hd : g.phase = .dropped) : (r.step (.cleanup n)).desktop = r.desktop.cleaned g := by
  obtain ⟨id, epoch, phase⟩ := g
  cases hd
  show (exec (cleanup n) r).2.desktop = _
  unfold cleanup
  rw [exec_bind, exec_get]
  dsimp only
  rw [hg]
  dsimp only
  rw [exec_bind, exec_attempt]
  show (exec (mutate (onDesktop (releaseControl id epoch))) r).2.desktop = _
  unfold mutate Desktop.cleaned
  rw [exec_bind, exec_get]
  dsimp only
  rw [exec_bind]
  by_cases hl : r.desktop.input.generation = r.desktop.backendGeneration
  · rw [if_pos hl, ensure, if_pos hl]
    rfl
  · rw [if_neg hl, ensure, if_neg hl]
    rfl

theorem cleaned_cases (d : Desktop) (g : InputGuard) :
    (d.holder = some g.id ∧ d.Linked ∧ d.epoch = g.epoch ∧ d.cleaned g = (exec release d).2) ∨
      (¬ (d.holder = some g.id ∧ d.Linked ∧ d.epoch = g.epoch) ∧ d.cleaned g = d) := by
  unfold Desktop.cleaned
  by_cases hl : d.input.generation = d.backendGeneration
  · rw [if_pos hl]
    unfold releaseControl
    rw [exec_bind, exec_get]
    dsimp only
    by_cases hc : d.holder = some g.id ∧ d.epoch = g.epoch
    · rw [if_pos hc]
      exact .inl ⟨hc.1, hl, hc.2, rfl⟩
    · rw [if_neg hc]
      exact .inr ⟨fun h => hc ⟨h.1, h.2.2⟩, rfl⟩
  · rw [if_neg hl]
    exact .inr ⟨fun h => hl h.2.1, rfl⟩

/-- After a stream failed, its cleanup frees the attachment if and only if the attachment has
lost control before, or holds it since before the stream was opened, and what it pressed is up
before or with the release. Without a refused release it is up once control is lost. -/
theorem cleanup_frees_iff (r : Runtime) (h : r.Reached) (n : ℕ) (g : InputGuard)
    (hg : r.guards n = some g) (hd : g.phase = .dropped) :
    ((r.step (.cleanup n)).Freed g.id ↔ r.desktop.Frees g) ∧
    (r.desktop.poisoned = false → r.desktop.holder ≠ some g.id → r.desktop.Unpressed g.id) ∧
    ∀ other, other ≠ g.id → r.desktop.holder = some other →
      (r.step (.cleanup n)).desktop.holder = some other := by
  have hclean : r.desktop.poisoned = false → r.desktop.holder ≠ some g.id →
      r.desktop.Unpressed g.id := fun hp hne p hmem hid => hne (hid ▸ (h.safe.1 hp p hmem).2)
  unfold Runtime.Freed
  rw [cleanup_desktop r n g hg hd]
  rcases cleaned_cases r.desktop g with ⟨hholder, hl, he, hreleased⟩ | ⟨hnot, hsame⟩
  · obtain ⟨hnone, hempty, hkept⟩ := release_held r.desktop
    rw [hreleased, hnone]
    refine ⟨⟨fun hfreed => ⟨fun _ => ⟨hl, he⟩, ?_⟩, fun hfrees => ⟨nofun, ?_⟩⟩, hclean, ?_⟩
    · by_cases hr : r.desktop.Releases
      · exact .inr ⟨hholder, hr⟩
      · have hup := hfreed.2
        unfold Desktop.Unpressed at hup
        rw [hkept hr] at hup
        exact .inl hup
    · unfold Desktop.Unpressed
      by_cases hr : r.desktop.Releases
      · rw [hempty hr]
        exact fun p hp => nomatch hp
      · rw [hkept hr]
        exact hfrees.pressed.resolve_right fun hp => hr hp.2
    · intro other hne hother
      rw [hholder] at hother
      exact absurd (Option.some.inj hother).symm hne
  · rw [hsame]
    refine ⟨⟨fun hfreed => ⟨fun hholder => absurd hholder hfreed.1, .inl hfreed.2⟩, ?_⟩, hclean,
      fun _ _ hother => hother⟩
    intro hfrees
    have hne : r.desktop.holder ≠ some g.id := fun hh => hnot ⟨hh, hfrees.control hh⟩
    exact ⟨hne, hfrees.pressed.resolve_right fun hp => hne hp.1⟩

def allValid : Auth := fun _ => true

def sampleViewport : DesktopViewport := ⟨"v", "d", ⟨0, 0, 100, 100⟩, 100, 100, 60, 1000000⟩

def feedbackRun : List Action :=
  [.attach allValid true 7 "client" .Physical 0 1,
    .configure allValid 7 0 ⟨"desktop-1", 1, [sampleViewport], 1000000⟩ false none,
    .authorize allValid 7 "desktop-1" 0, .beginInput 0 "desktop-1",
    .acceptInput allValid 7 0 ⟨"desktop-1", 1, 1, 1, .Feedback 1 1 1 0 0 0 false none⟩,
    .setControl allValid 7 "desktop-1" 0 .Acquire,
    .acceptInput allValid 7 0 ⟨"desktop-1", 2, 2, 1, .PhysicalKey 4 true false⟩,
    .dropGuard 0 false]

/-- The stream fails while its attachment holds control; after the cleanup the attachment still
holds control, and its key. -/
theorem feedback_keeps_control : ∃ (r : Runtime) (g : InputGuard), r.Reached ∧
    r.guards 0 = some g ∧ g.phase = .dropped ∧ r.desktop.holder = some g.id ∧ r.desktop.Linked ∧
      r.desktop.poisoned = false ∧
      (r.step (.cleanup 0)).desktop.holder = some g.id ∧
      (r.step (.cleanup 0)).desktop.input.held = {(.key 4, g.id)} ∧
      ¬ (r.step (.cleanup 0)).Freed g.id := by
  refine ⟨_, ⟨"desktop-1", 1, .dropped⟩, run_reached (fun _ => .sent) feedbackRun, rfl, rfl, rfl, rfl,
    rfl, rfl, rfl, ?_⟩
  exact fun hfreed => hfreed.1 rfl

theorem cleanup_frees_sample : ∃ r : Runtime, r.desktop.holder = some "desktop-1" ∧
    r.desktop.input.held = {(.key 4, "desktop-1")} ∧ (r.step (.cleanup 0)).Freed "desktop-1" := by
  have hreached := run_reached (fun _ => .sent) (pressRun.insertIdx 2 (.beginInput 0 "desktop-1") ++
    [.dropGuard 0 false])
  have hiff := (cleanup_frees_iff _ hreached 0 ⟨"desktop-1", 2, .dropped⟩ rfl rfl).1
  exact ⟨_, rfl, rfl, hiff.mpr ⟨fun _ => ⟨rfl, rfl⟩, .inr ⟨rfl, by decide, nofun⟩⟩⟩

end Rieul.Screen
