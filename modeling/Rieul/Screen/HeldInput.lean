import Mathlib.Logic.Relation
import Rieul.Lib.System
import Rieul.Screen.Calls

/-!
# Held input over whole runs

What the machine holds down is recorded and was pressed by the holder of control, or the state is
poisoned.
-/

namespace Rieul.Screen
open Stateful System

def Desktop.Records (d : Desktop) : Pressed → Prop
  | .key usage => usage ∈ d.keys
  | .button button => button ∈ d.buttons

def Desktop.Clean (d : Desktop) : Prop :=
  d.poisoned = false → ∀ p ∈ d.input.held, d.Records p.1 ∧ d.holder = some p.2

variable (d : Desktop)

theorem clean_of_empty (h : d.input.held = ∅) : d.Clean := by
  intro _ p hp
  rw [h] at hp
  cases hp

theorem clean_of_poisoned (h : d.poisoned = true) : d.Clean := by
  intro hp
  rw [h] at hp
  cases hp

def Desktop.Sendable (d : Desktop) (event : DesktopInputEvent) (id : String) : Prop :=
  d.holder = some id ∧ ∀ p ∈ event.effect id d.input.held, d.Records p.1 ∧ p.2 = id

theorem mem_press (held : Held) (p : Pressed) (id : String) (down : Bool) (q : Pressed × String)
    (h : q ∈ held.press p id down) :
    (down = true ∧ q = (p, id)) ∨ (q ∈ held ∧ (down = false → q.1 ≠ p)) := by
  unfold Held.press at h
  cases down with
  | true =>
    rcases Finset.mem_insert.mp h with rfl | h
    · exact .inl ⟨rfl, rfl⟩
    · exact .inr ⟨h, fun he => nomatch he⟩
  | false =>
    obtain ⟨hq, hne⟩ := Finset.mem_filter.mp h
    exact .inr ⟨hq, fun _ => hne⟩

theorem record_records (p q : Pressed) (down : Bool) :
    (d.record p down).Records q ↔ if q = p then down = true else d.Records q := by
  cases p with
  | key usage =>
    cases q with
    | key other => cases down <;> by_cases h : other = usage <;> simp [Desktop.record, Desktop.Records, h]
    | button other => cases down <;> simp [Desktop.record, Desktop.Records]
  | button button =>
    cases q with
    | key other => cases down <;> simp [Desktop.record, Desktop.Records]
    | button other =>
      cases down <;> by_cases h : other = button <;> simp [Desktop.record, Desktop.Records, h]

section
variable {d : Desktop} {id : String} (hd : d.Clean) (hp : d.poisoned = false)
  (hh : d.holder = some id)
include hd hp hh

theorem clean_holder (q : Pressed × String) (hq : q ∈ d.input.held) :
    d.Records q.1 ∧ q.2 = id := by
  obtain ⟨hrecorded, hholder⟩ := hd hp q hq
  rw [hh] at hholder
  exact ⟨hrecorded, (Option.some.inj hholder).symm⟩

theorem record_sendable (p : Pressed) (down : Bool) (q : Pressed × String)
    (hq : q ∈ d.input.held.press p id down) : (d.record p down).Records q.1 ∧ q.2 = id := by
  rw [record_records]
  rcases mem_press _ _ _ _ _ hq with ⟨hdown, rfl⟩ | ⟨hold, hup⟩
  · exact ⟨by rw [if_pos rfl]; exact hdown, rfl⟩
  · obtain ⟨hrecorded, hid⟩ := clean_holder hd hp hh q hold
    refine ⟨?_, hid⟩
    split_ifs with hqp
    · cases down with
      | true => rfl
      | false => exact absurd hqp (hup rfl)
    · exact hrecorded

end

theorem record_input (p : Pressed) (down : Bool) :
    (d.record p down).input = d.input ∧ (d.record p down).holder = d.holder := by
  cases p with
  | key usage | button button => exact ⟨rfl, rfl⟩

theorem clean_admitEvent (keyboardMode : DesktopKeyboardMode) (event : DesktopInputEvent)
    (id : String) :
    Triple (fun d => d.Clean ∧ d.poisoned = false ∧ d.holder = some id)
      (admitEvent keyboardMode event) (fun _ d => d.Sendable event id) Desktop.Clean := by
  refine .get_bind fun d hd => ?_
  obtain ⟨hclean, hp, hh⟩ := hd
  have hkept : ∀ s, s = d → s.Clean := fun s hs => hs ▸ hclean
  have hsame : event.effect id d.input.held = d.input.held → ∀ s, s = d → s.Sendable event id := by
    intro he s hs
    rw [hs]
    refine ⟨hh, ?_⟩
    rw [he]
    exact clean_holder hclean hp hh
  have hrecord : ∀ p down, (∀ held : Held, event.effect id held = held.press p id down) →
      ∀ s, s = d → (s.record p down).Sendable event id := by
    intro p down he s hs
    rw [hs]
    obtain ⟨hinput, hholder⟩ := record_input d p down
    refine ⟨hholder.trans hh, ?_⟩
    rw [hinput, he]
    exact record_sendable hclean hp hh p down
  cases event with
  | PhysicalKey usage down repeats =>
    exact .ensure_bind (fun _ => .modify (hrecord (.key usage) down fun _ => rfl)) hkept
  | Button viewportId x y button down =>
    exact .ensure_bind (fun _ => .modify (hrecord (.button button) down fun _ => rfl)) hkept
  | ReleaseAll =>
    refine .modify fun s hs => ?_
    rw [hs]
    exact ⟨hh, fun p hp => nomatch hp⟩
  | Composition text selectionStart selectionEnd | RelativePointer dx dy | Feedback =>
    exact .throw hkept
  | AbsolutePointer viewportId x y => exact .pure (hsame rfl)
  | TextCommit text => exact .ensure (fun s hs _ => hsame rfl s hs) fun s hs _ => hkept s hs
  | Wheel viewportId x y dx dy unit =>
    exact .ensure (fun s hs _ => hsame rfl s hs) fun s hs _ => hkept s hs

theorem clean_send (event : DesktopInputEvent) (id : String) :
    Triple (fun d => d.Sendable event id) (send event id)
      (fun sent d => sent = true → d.Clean) Desktop.Clean := by
  intro d hd
  rw [send_eq]
  intro hsent
  obtain ⟨hheld, -⟩ := adapterSend_sent _ _ _ hsent
  intro _ p hp
  have hp' : p ∈ event.effect id d.input.held := hheld ▸ hp
  obtain ⟨hrecorded, hid⟩ := hd.2 p hp'
  exact ⟨hrecorded, hid ▸ hd.1⟩

theorem clean_release : Triple (fun _ => True) release (fun _ => Desktop.Clean) Desktop.Clean :=
  release_spec.weaken (fun _ d hd => clean_of_empty d hd.2.1) fun d hd => clean_of_poisoned d hd.2

theorem clean_deliver (keyboardMode : DesktopKeyboardMode) (event : DesktopInputEvent)
    (id : String) : Triple (fun d => d.Clean ∧ d.poisoned = false ∧ d.holder = some id)
      (deliver keyboardMode event id) (fun _ => Desktop.Clean) Desktop.Clean := by
  refine .bind (clean_admitEvent keyboardMode event id) fun _ => .bind (clean_send event id) ?_
  intro sent
  refine .ite (fun hsent => .pure fun s hs => hs hsent) fun _ => ?_
  have hthrow : Triple Desktop.Clean (throw .Backend : Call Unit) (fun _ => Desktop.Clean)
      Desktop.Clean := .throw fun s hs => hs
  exact .bind (.attempt (clean_release.strengthen fun _ _ => trivial)) fun _ => hthrow

theorem clean_update (id : String) (f : Attachment → Attachment) (hd : d.Clean) :
    (d.update id f).Clean := by
  unfold Desktop.update
  cases d.attachments.lookup id with
  | none | some a => exact hd

theorem stable_clean : Stable Desktop.Clean Desktop.Clean where
  weaken _ hd := hd
  release := clean_release.strengthen fun _ _ => trivial
  releaseHeld := by
    intro d _
    rcases releaseHeld_cases d with ⟨h, hs⟩ | h
    · rw [h]
      exact clean_of_empty _ (adapterSend_sent _ _ _ hs).1
    · rw [h]
      exact clean_of_poisoned _ rfl
  erase _ _ hd _ := hd
  insert _ _ hd _ _ := hd
  update d id f hd _ := clean_update d id f hd
  number d id _ hd := clean_update d id _ hd
  layout _ hd := hd
  deliver := clean_deliver
  acquire id := by
    have hrelease := release_spec.weaken (fun _ _ hd => hd) fun d hd => clean_of_poisoned d hd.2
    refine .bind (hrelease.strengthen fun _ _ => trivial) fun _ => .modify ?_
    exact fun d hd => clean_of_empty _ hd.2.1

theorem mem_clearViewports (attachments : AList (fun _ : String => Attachment)) (id : String) :
    id ∈ clearViewports attachments ↔ id ∈ attachments := by
  unfold clearViewports
  generalize attachments.keys = ids
  induction ids generalizing attachments with
  | nil => rfl
  | cons other ids ih =>
    rw [List.foldl_cons, ih]
    cases attachments.lookup other with
    | none => rfl
    | some a => exact AList.mem_replace

theorem mem_update (id other : String) (f : Attachment → Attachment) :
    other ∈ (d.update id f).attachments ↔ other ∈ d.attachments := by
  unfold Desktop.update
  cases d.attachments.lookup id with
  | none => rfl
  | some a => exact AList.mem_replace

structure Desktop.Frozen (d t : Desktop) : Prop where
  poisoned : t.poisoned = true
  generation : t.backendGeneration = d.backendGeneration
  attachments (id : String) : id ∈ t.attachments ↔ id ∈ d.attachments
  holder (id : String) : t.holder = some id → d.holder = some id

theorem framed_frozen : Framed d.Frozen where
  send _ _ _ h := ⟨h.poisoned, h.generation, h.attachments, h.holder⟩
  poison _ h := ⟨rfl, h.generation, h.attachments, h.holder⟩
  records _ _ _ h := ⟨h.poisoned, h.generation, h.attachments, h.holder⟩
  drop _ h := ⟨h.poisoned, h.generation, h.attachments, fun _ he => nomatch he⟩
  epoch _ _ h := ⟨h.poisoned, h.generation, h.attachments, h.holder⟩

theorem frozen_healthy {d t : Desktop} (h : d.Frozen t) (hp : t.poisoned = false) : False := by
  rw [h.poisoned] at hp
  cases hp

theorem frozen_update (d t : Desktop) (id : String) (f : Attachment → Attachment)
    (h : d.Frozen t) : d.Frozen (t.update id f) := by
  obtain ⟨hholder, hpoisoned, hgeneration⟩ := update_holder t id f
  refine ⟨hpoisoned.trans h.poisoned, hgeneration.trans h.generation, ?_, ?_⟩
  · exact fun other => (mem_update t id other f).trans (h.attachments other)
  · exact fun other he => h.holder other (hholder ▸ he)

theorem stable_frozen : Stable d.Frozen d.Frozen where
  weaken _ h := h
  release := (framed_frozen d).release
  releaseHeld := (framed_frozen d).releaseHeld
  erase _ _ h hp := (frozen_healthy h hp).elim
  insert _ _ h hp _ := (frozen_healthy h hp).elim
  update t id f h _ := frozen_update d t id f h
  number t id _ h := frozen_update d t id _ h
  layout t h :=
    ⟨h.poisoned, h.generation,
      fun id => (mem_clearViewports t.attachments id).trans (h.attachments id), h.holder⟩
  deliver _ _ _ _ ht := (frozen_healthy ht.1 ht.2.1).elim
  acquire _ _ ht := (frozen_healthy ht.1 ht.2).elim

def DesktopInputEvent.presses : DesktopInputEvent → Bool
  | .PhysicalKey _ down _ => down
  | .Button _ _ _ _ down => down
  | _ => false

def ReleasedLast (log : List (DesktopInputEvent × SendResult)) : Prop :=
  ∃ before after, log = before ++ (.ReleaseAll, .sent) :: after ∧ ∀ e ∈ after, e.1.presses = false

def Desktop.Unheld (d t : Desktop) : Prop := t.holder = none ∨ t.holder = d.holder

def Desktop.Installed (d t : Desktop) : Prop := d.Unheld t ∨ ReleasedLast t.input.log

theorem framed_unheld : Framed d.Unheld where
  send _ _ _ h := h
  poison _ h := h
  records _ _ _ h := h
  drop _ _ := .inl rfl
  epoch _ _ h := h

theorem unheld_update (d t : Desktop) (id : String) (f : Attachment → Attachment)
    (h : d.Unheld t) : d.Unheld (t.update id f) := by
  unfold Desktop.Unheld
  rw [(update_holder t id f).1]
  exact h

theorem stable_unheld : Stable d.Unheld d.Installed where
  weaken _ h := .inl h
  release := (framed_unheld d).release
  releaseHeld := (framed_unheld d).releaseHeld
  erase _ _ h _ := h
  insert _ _ h _ _ := h
  update t id f h _ := unheld_update d t id f h
  number t id _ h := unheld_update d t id _ h
  layout _ h := h
  deliver keyboardMode event id :=
    ((framed_unheld d).deliver keyboardMode event id).strengthen fun _ h => h.1
  acquire id := by
    have hrelease : Triple (fun _ => True) release (fun _ t => ReleasedLast t.input.log)
        d.Unheld := by
      refine release_spec.weaken (fun _ t ht => ?_) fun t ht => .inl ht.1
      obtain ⟨-, -, log, hlog⟩ := ht
      exact ⟨log, [], hlog, fun e he => nomatch he⟩
    refine .bind (hrelease.strengthen fun _ _ => trivial) fun _ => .modify ?_
    exact fun t ht => .inr ht

theorem framed_linked : Framed Desktop.Linked where
  send d event id h := (adapterSend_fence d.input event id).1.trans h
  poison _ h := h
  records _ _ _ h := h
  drop _ h := h
  epoch _ _ h := h

theorem linked_update (id : String) (f : Attachment → Attachment) (h : d.Linked) :
    (d.update id f).Linked := by
  unfold Desktop.Linked Desktop.update
  cases d.attachments.lookup id with
  | none | some a => exact h

theorem stable_linked : Stable Desktop.Linked Desktop.Linked where
  weaken _ h := h
  release := framed_linked.release
  releaseHeld := framed_linked.releaseHeld
  erase _ _ h _ := h
  insert _ _ h _ _ := h
  update d id f h _ := linked_update d id f h
  number d id _ h := linked_update d id _ h
  layout _ h := h
  deliver keyboardMode event id :=
    (framed_linked.deliver keyboardMode event id).strengthen fun _ h => h.1
  acquire id :=
    .bind (framed_linked.release.strengthen fun _ h => h.1) fun _ => .modify fun _ h => h

def Desktop.Safe (d : Desktop) : Prop :=
  d.Clean ∧ (¬ d.Linked → d.input.ready = true → d.input.held = ∅)

theorem safe_of_linked (h : d.Clean ∧ d.Linked) : d.Safe :=
  ⟨h.1, fun hl => absurd h.2 hl⟩

theorem safe_lose (releases : Bool) (h : d.Safe) :
    Desktop.Safe { d with input := d.input.lose releases } := by
  refine ⟨?_, fun _ hready => nomatch hready⟩
  cases releases with
  | true => exact clean_of_empty _ rfl
  | false => exact h.1

theorem safe_recover (result : SendResult) (h : d.Safe) :
    Desktop.Safe { d with input := (d.input.recover result).2 } := by
  obtain ⟨hheld, hgeneration, hready, -⟩ := adapterRecover_cases d.input result
  rcases hheld with hheld | hheld
  · refine ⟨?_, ?_⟩
    · intro hp p hmem
      exact h.1 hp p (hheld ▸ hmem)
    · intro hl hr
      rcases hready hr with hr' | hempty
      · exact hheld.trans (h.2 (fun hd => hl (hgeneration.trans hd)) hr')
      · exact hempty
  · exact ⟨clean_of_empty _ hheld, fun _ _ => hheld⟩

theorem safe_renewed (h : d.Safe) (hl : ¬ d.Linked) (hr : d.input.ready = true) :
    (d.renewed d.input.generation).Safe :=
  ⟨clean_of_empty _ (h.2 hl hr), fun _ _ => h.2 hl hr⟩

theorem safe_step (r : Runtime) (a : Action) (h : r.desktop.Safe) : (r.step a).desktop.Safe :=
  step_keeps (stable_clean.and stable_linked) (fun _ hd hl => ⟨hd.1, hl⟩) safe_of_linked
    (fun _ hd => hd) safe_lose safe_recover (fun _ _ _ hd => hd) safe_renewed r a h

def Desktop.FrozenUntil (d t : Desktop) : Prop :=
  d.Frozen t ∨ t.backendGeneration ≠ d.backendGeneration

theorem frozen_step (r : Runtime) (a : Action) (h : d.Frozen r.desktop) :
    d.FrozenUntil (r.step a).desktop := by
  refine step_keeps (stable_frozen d) (fun _ ht _ => ht) (fun _ ht => .inl ht) (fun _ ht => .inl ht)
    ?_ ?_ ?_ ?_ r a h
  · exact fun t _ ht => ⟨ht.poisoned, ht.generation, ht.attachments, ht.holder⟩
  · exact fun t _ ht => ⟨ht.poisoned, ht.generation, ht.attachments, ht.holder⟩
  · exact fun t _ _ ht => ⟨ht.poisoned, ht.generation, ht.attachments, ht.holder⟩
  · intro t ht hl _
    exact .inr fun he => hl (he.trans ht.generation.symm)

theorem unheld_step (r : Runtime) (a : Action) (h : d.Unheld r.desktop) :
    d.Installed (r.step a).desktop :=
  step_keeps (stable_unheld d) (fun _ ht _ => ht) (fun _ ht => ht) (fun _ ht => .inl ht)
    (fun _ _ ht => ht) (fun _ _ ht => ht) (fun _ _ _ ht => ht) (fun _ _ _ _ => .inl (.inl rfl)) r a h

namespace Runtime
variable (r : Runtime)

def Reached : Prop :=
  Reachable (fun r => ∃ script, r = Runtime.new script) (fun r t => ∃ a, t = r.step a) r

def Within (r t : Runtime) : Prop :=
  Relation.ReflTransGen (fun s t => (∃ a, t = s.step a) ∧
    t.desktop.backendGeneration = r.desktop.backendGeneration) r t

structure Sound : Prop where
  recorded : r.desktop.poisoned = false → ∀ p ∈ r.desktop.input.held, r.desktop.Records p.1
  free : r.desktop.poisoned = false → r.desktop.holder = none → r.desktop.input.held = ∅
  installed (a : Action) (id : String) : (r.step a).desktop.holder = some id →
    r.desktop.holder ≠ some id → ReleasedLast (r.step a).desktop.input.log
  poisoned (t : Runtime) : r.desktop.poisoned = true → r.Within t → r.desktop.Frozen t.desktop

end Runtime

theorem Runtime.Reached.safe {r : Runtime} (h : r.Reached) : r.desktop.Safe := by
  refine h.invariant (fun r => r.desktop.Safe) ?_ ?_
  · intro s hs
    obtain ⟨script, rfl⟩ := hs
    exact ⟨clean_of_empty _ rfl, fun hl => absurd rfl hl⟩
  · intro s t hs hstep
    obtain ⟨a, rfl⟩ := hstep
    exact safe_step s a hs

theorem Runtime.Within.frozen {r t : Runtime} (h : r.Within t)
    (hp : r.desktop.poisoned = true) : r.desktop.Frozen t.desktop := by
  induction h with
  | refl => exact ⟨hp, rfl, fun _ => Iff.rfl, fun _ he => he⟩
  | tail _ hnext ih =>
    obtain ⟨⟨a, rfl⟩, hgeneration⟩ := hnext
    rcases frozen_step r.desktop _ a ih with hfrozen | hne
    · exact hfrozen
    · exact absurd hgeneration hne

theorem held_input (r : Runtime) (h : r.Reached) : r.Sound := by
  have hsafe := h.safe.1
  constructor
  · exact fun hp p hmem => (hsafe hp p hmem).1
  · intro hp hnone
    by_contra hne
    obtain ⟨p, hmem⟩ := Finset.nonempty_iff_ne_empty.mpr hne
    have hholder := (hsafe hp p hmem).2
    rw [hnone] at hholder
    cases hholder
  · intro a id hheld hnew
    rcases unheld_step r.desktop r a (.inr rfl) with (hnone | hsame) | hreleased
    · rw [hheld] at hnone
      cases hnone
    · exact absurd (hsame.symm.trans hheld) hnew
    · exact hreleased
  · exact fun t hp hwithin => hwithin.frozen hp

def pressRun : List Action :=
  [.attach (fun _ => true) true 7 "client" .Physical 0 1,
    .setControl (fun _ => true) 7 "desktop-1" 0 .Acquire,
    .acceptInput (fun _ => true) 7 0 ⟨"desktop-1", 2, 1, 1, .PhysicalKey 4 true false⟩]

theorem run_reached (script : ℕ → SendResult) (actions : List Action) :
    (actions.foldl Runtime.step (Runtime.new script)).Reached := by
  refine List.foldlRecOn actions Runtime.step (.start _ ⟨script, rfl⟩) ?_
  exact fun r hr a _ => hr.next r _ ⟨a, rfl⟩

theorem held_input_sample : ∃ r : Runtime, r.Sound ∧ r.desktop.holder = some "desktop-1" ∧
    r.desktop.input.held = {(.key 4, "desktop-1")} :=
  ⟨pressRun.foldl Runtime.step (Runtime.new fun _ => .sent),
    held_input _ (run_reached _ pressRun), rfl, rfl⟩

end Rieul.Screen
