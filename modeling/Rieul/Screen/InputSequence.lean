import Rieul.Screen.InputOrder

/-!
# The numbers of attachments

Every action keeps the numbers of the attachments, but an accepted frame, which
advances its own; new attachments start at zero under new ids.
-/

namespace Rieul.Screen
open Stateful

section
variable {κ α : Type} [DecidableEq κ]

theorem dlookup_kreplace (l : List (Sigma fun _ : κ => α)) (k i : κ) (b : α) :
    (List.kreplace k b l).dlookup i =
      if i = k then (l.dlookup k).map fun _ => b else l.dlookup i := by
  induction l with
  | nil => simp [List.kreplace]
  | cons s l ih =>
    obtain ⟨j, c⟩ := s
    by_cases hk : k = j
    · subst hk
      have hcons : List.kreplace k b (⟨k, c⟩ :: l) = ⟨k, b⟩ :: l :=
        List.lookmap_cons_some _ _ (if_pos rfl)
      rw [hcons]
      by_cases hi : i = k
      · subst hi
        simp
      · rw [if_neg hi, List.dlookup_cons_ne l ⟨k, b⟩ hi, List.dlookup_cons_ne l ⟨k, c⟩ hi]
    · have hcons : List.kreplace k b (⟨j, c⟩ :: l) = ⟨j, c⟩ :: List.kreplace k b l :=
        List.lookmap_cons_none _ _ (if_neg hk)
      rw [hcons]
      by_cases hi : i = j
      · subst hi
        simp [Ne.symm hk]
      · rw [List.dlookup_cons_ne l ⟨j, c⟩ hk]
        simpa [List.dlookup_cons_ne, hi] using ih

theorem lookup_replace (m : AList fun _ : κ => α) (k i : κ) (b : α) :
    (m.replace k b).lookup i = if i = k then (m.lookup k).map fun _ => b else m.lookup i :=
  dlookup_kreplace m.entries k i b

end

variable (d : Desktop)

theorem lookup_update (id other : String) (f : Attachment → Attachment) :
    (d.update id f).attachments.lookup other =
      if other = id then (d.attachments.lookup id).map f else d.attachments.lookup other := by
  unfold Desktop.update
  cases h : d.attachments.lookup id with
  | none =>
    by_cases ho : other = id
    · subst ho
      simpa using h
    · simp [ho]
  | some a =>
    show (d.attachments.replace id (f a)).lookup other = _
    rw [lookup_replace, h]
    rfl

theorem lookup_clearViewports (attachments : AList (fun _ : String => Attachment)) (id : String)
    (a : Attachment) (h : (clearViewports attachments).lookup id = some a) :
    ∃ b, attachments.lookup id = some b ∧ a.sequence = b.sequence := by
  unfold clearViewports at h
  generalize attachments.keys = ids at h
  induction ids generalizing attachments with
  | nil => exact ⟨a, h, rfl⟩
  | cons other ids ih =>
    rw [List.foldl_cons] at h
    cases ho : attachments.lookup other with
    | none =>
      rw [ho] at h
      exact ih attachments h
    | some c =>
      rw [ho] at h
      obtain ⟨b, hb, hseq⟩ := ih _ h
      rw [lookup_replace] at hb
      by_cases hid : id = other
      · subst hid
        rw [if_pos rfl, ho] at hb
        cases hb
        exact ⟨c, ho, hseq⟩
      · rw [if_neg hid] at hb
        exact ⟨b, hb, hseq⟩

theorem removing_lookup (id : String) : Removing fun t : Desktop =>
    ∀ a, t.attachments.lookup id = some a → d.attachments.lookup id = some a where
  release := by
    refine Releasing.release ⟨?_, ?_, ?_, ?_, ?_⟩
    · exact fun _ h => h
    · exact fun _ h => h
    · exact fun _ _ _ h => h
    · exact fun _ h => h
    · exact fun _ _ h => h
  erase t other h _ := by
    intro a ha
    by_cases hid : id = other
    · subst hid
      rw [AList.lookup_erase] at ha
      cases ha
    · rw [AList.lookup_erase_ne hid] at ha
      exact h a ha

def Desktop.Holds (d t : Desktop) : Prop :=
  t.holder = none ∨ (t.holder = d.holder ∧ t.epoch = d.epoch)

theorem removing_holds : Removing d.Holds where
  release := (release_spec.weaken (fun _ _ h => .inl h.1) fun _ h => .inl h.1).strengthen
    fun _ _ => trivial
  erase _ _ h _ := h

structure Desktop.Authorized (d t : Desktop) (connection : ℕ) (id : String) (a : Attachment) :
    Prop where
  lookup : t.attachments.lookup id = some a
  before : d.attachments.lookup id = some a
  connection : a.connection = connection
  healthy : t.poisoned = false
  holds : d.Holds t

theorem authorize_ok (auth : Auth) (connection now : ℕ) (id : String) (d t : Desktop)
    (a : Attachment) (h : exec (authorize auth connection id now) d = (.ok a, t)) :
    d.Authorized t connection id a := by
  let Kept : Desktop → Prop := fun s =>
    (∀ b, s.attachments.lookup id = some b → d.attachments.lookup id = some b) ∧ d.Holds s
  have hexpire : Keeps Kept (expire auth now) :=
    ((removing_lookup d id).expire auth now).and ((removing_holds d).expire auth now)
  have hauthorize : Triple Kept (authorize auth connection id now)
      (fun b s => d.Authorized s connection id b) (fun _ => True) := by
    refine .bind (hexpire.weaken (fun _ _ hs => hs) fun _ _ => trivial) fun _ => ?_
    refine .get_bind fun s hs => .require_bind (fun b hb => ?_) fun _ _ => trivial
    refine .ensure_bind (fun hc => .ensure_bind (fun hp => ?_) fun _ _ => trivial) fun _ _ => trivial
    refine .pure fun s' hs' => ?_
    rw [hs']
    exact ⟨hb, hs.1 b hb, hc, hp, hs.2⟩
  have hrun := hauthorize d ⟨fun _ hb => hb, .inr ⟨rfl, rfl⟩⟩
  rw [h] at hrun
  exact hrun

def attachName (n : ℕ) : String := "desktop-" ++ toString n

/-- The attachments of `t` were there with their numbers, or are new. -/
structure Desktop.Grown (d t : Desktop) : Prop where
  nextId : d.nextId ≤ t.nextId
  attachments (id : String) (a : Attachment) : t.attachments.lookup id = some a →
    (∃ b, d.attachments.lookup id = some b ∧ a.sequence = b.sequence) ∨
    (a.sequence = 0 ∧ ∃ n, d.nextId < n ∧ n ≤ t.nextId ∧ id = attachName n)

theorem Desktop.Grown.refl : d.Grown d :=
  ⟨le_rfl, fun _ a ha => .inl ⟨a, ha, rfl⟩⟩

theorem framed_grown : Framed d.Grown where
  send _ _ _ h := ⟨h.nextId, h.attachments⟩
  poison _ h := ⟨h.nextId, h.attachments⟩
  records _ _ _ h := ⟨h.nextId, h.attachments⟩
  drop _ h := ⟨h.nextId, h.attachments⟩
  epoch _ _ h := ⟨h.nextId, h.attachments⟩

theorem grown_erase (d t : Desktop) (id : String) (h : d.Grown t) :
    d.Grown { t with attachments := t.attachments.erase id } := by
  refine ⟨h.nextId, fun other a ha => ?_⟩
  by_cases ho : other = id
  · subst ho
    rw [AList.lookup_erase] at ha
    cases ha
  · rw [AList.lookup_erase_ne ho] at ha
    exact h.attachments other a ha

theorem grown_same (d t s : Desktop) (h : d.Grown t) (hnext : s.nextId = t.nextId)
    (hs : ∀ id a, s.attachments.lookup id = some a →
      ∃ b, t.attachments.lookup id = some b ∧ a.sequence = b.sequence) : d.Grown s := by
  refine ⟨hnext ▸ h.nextId, fun id a ha => ?_⟩
  obtain ⟨b, hb, hseq⟩ := hs id a ha
  rw [hnext, hseq]
  exact h.attachments id b hb

theorem quiet_grown : Quiet d.Grown d.Grown where
  release := (framed_grown d).release
  releaseHeld := (framed_grown d).releaseHeld
  weaken _ h := h
  erase t id h _ := grown_erase d t id h
  insert t a h _ ha := by
    refine ⟨Nat.le_succ_of_le h.nextId, fun id b hb => ?_⟩
    by_cases hid : id = attachName (t.nextId + 1)
    · subst hid
      have hab : some a = some b := (AList.lookup_insert t.attachments).symm.trans hb
      cases hab
      exact .inr ⟨ha, t.nextId + 1, Nat.lt_succ_of_le h.nextId, le_rfl, rfl⟩
    · have hb' := (AList.lookup_insert_ne hid).symm.trans hb
      rcases h.attachments id b hb' with hold | ⟨hzero, n, hlt, hle, hname⟩
      · exact .inl hold
      · exact .inr ⟨hzero, n, hlt, Nat.le_succ_of_le hle, hname⟩
  update t id f h hf := by
    refine grown_same d t _ h ?_ fun other a ha => ?_
    · unfold Desktop.update
      cases t.attachments.lookup id with
      | none | some b => rfl
    · rw [lookup_update] at ha
      by_cases ho : other = id
      · rw [if_pos ho] at ha
        obtain ⟨b, hb, rfl⟩ := Option.map_eq_some_iff.mp ha
        exact ⟨b, ho ▸ hb, hf b⟩
      · rw [if_neg ho] at ha
        exact ⟨a, ha, rfl⟩
  layout t h := grown_same d t _ h rfl fun id a ha => lookup_clearViewports t.attachments id a ha
  acquire id :=
    .bind ((framed_grown d).release.strengthen fun _ h => h.1) fun _ => .modify fun _ h =>
      ⟨h.nextId, h.attachments⟩

theorem grown_step (r : Runtime) (a : Action)
    (hi : ∀ auth connection now frame, a ≠ .acceptInput auth connection now frame) :
    r.desktop.Grown (r.step a).desktop := by
  let I : Desktop → Prop := r.desktop.Grown
  have hself : On I r := .refl r.desktop
  by_cases ha : ∃ admitted result, a = .reconcile admitted result
  · obtain ⟨admitted, result, rfl⟩ := ha
    refine Triple.of_exec (reconcile_on (I := I) (K := I) (fun _ h => h) ?_ ?_ ?_ admitted result)
      r hself
    · exact fun _ _ h => ⟨h.nextId, h.attachments⟩
    · exact fun _ _ _ h => ⟨h.nextId, h.attachments⟩
    · exact fun _ h _ _ => ⟨h.nextId, fun _ _ hb => by cases hb⟩
  · refine Triple.of_exec (quiet_keeps (K := I) (quiet_grown r.desktop) (fun _ h _ => h)
      (fun _ h => h) (fun _ h => h) ?_ a hi fun admitted result he => ha ⟨admitted, result, he⟩)
      r hself
    exact fun _ _ h => ⟨h.nextId, h.attachments⟩

structure Desktop.SameTable (d t : Desktop) : Prop where
  attachments : t.attachments = d.attachments
  nextId : t.nextId = d.nextId

theorem framed_sameTable : Framed d.SameTable where
  send _ _ _ h := ⟨h.attachments, h.nextId⟩
  poison _ h := ⟨h.attachments, h.nextId⟩
  records _ _ _ h := ⟨h.attachments, h.nextId⟩
  drop _ h := ⟨h.attachments, h.nextId⟩
  epoch _ _ h := ⟨h.attachments, h.nextId⟩

def Desktop.consume (d : Desktop) (frame : DesktopInputFrame) : Desktop :=
  d.update frame.attachId fun a => { a with sequence := frame.sequence }

/-- A frame over the right connection changes the attachments only by its number, which it
consumes if and only if it is addressed to the holder's state, next and current. -/
structure Consumes (d t : Desktop) (frame : DesktopInputFrame) (passes : Prop) : Prop where
  consumed : passes → (d.consume frame).SameTable t
  refused : ¬ passes → t = d

theorem input_consumes (auth : Auth) (connection now : ℕ) (frame : DesktopInputFrame)
    (d t : Desktop) (a : Attachment)
    (h : exec (authorize auth connection frame.attachId now) d = (.ok a, t)) :
    Consumes t (exec (input auth connection now frame) d).2 frame
      ((t.holder = some frame.attachId ∧ frame.inputEpoch = t.epoch) ∧
        frame.sequence = a.sequence + 1 ∧ frame.sequence ≤ maxSafe) := by
  unfold input
  rw [exec_bind, h]
  dsimp only
  rw [exec_bind, exec_get]
  dsimp only
  rw [exec_bind]
  by_cases hheld : t.holder = some frame.attachId ∧ frame.inputEpoch = t.epoch
  · rw [ensure, if_pos hheld, exec_pure]
    dsimp only
    rw [exec_bind]
    by_cases hnext : frame.sequence = a.sequence + 1 ∧ frame.sequence ≤ maxSafe
    · rw [ensure, if_pos hnext, exec_pure]
      dsimp only
      rw [exec_bind, exec_modify]
      refine ⟨fun _ => ?_, fun hn => absurd ⟨hheld, hnext⟩ hn⟩
      have hrest : Keeps (t.consume frame).SameTable (do
          admitPoint a frame.layoutEpoch frame.event
          deliver a.keyboardMode frame.event frame.attachId) :=
        .bind (admitPoint_keeps _ _ _ _) fun _ => (framed_sameTable _).deliver _ _ _
      exact hrest.exec _ ⟨rfl, rfl⟩
    · rw [ensure, if_neg hnext, exec_throw]
      exact ⟨fun hp => absurd hp.2 hnext, fun _ => rfl⟩
  · rw [ensure, if_neg hheld, exec_throw]
    exact ⟨fun hp => absurd hp.1 hheld, fun _ => rfl⟩

theorem mutate_desktop {x : Work Unit} (r : Runtime) :
    (exec (mutate x) r).2.desktop =
      if r.desktop.input.generation = r.desktop.backendGeneration then (exec x r).2.desktop
      else r.desktop := by
  unfold mutate
  rw [exec_bind, exec_get]
  dsimp only
  rw [exec_bind]
  by_cases hl : r.desktop.input.generation = r.desktop.backendGeneration
  · rw [ensure, if_pos hl, if_pos hl]
    rfl
  · rw [ensure, if_neg hl, if_neg hl]
    rfl

theorem onDesktop_eq {α : Type} (x : Call α) (r : Runtime) :
    exec (onDesktop x) r = ((exec x r.desktop).1, { r with desktop := (exec x r.desktop).2 }) := rfl

/-- Another event than feedback goes to `input`. -/
theorem acceptInput_input (auth : Auth) (connection now : ℕ) (frame : DesktopInputFrame)
    (h : frame.event.isFeedback = false) :
    acceptInput auth connection now frame = mutate (onDesktop (input auth connection now frame)) := by
  unfold acceptInput
  cases hevent : frame.event with
  | Feedback trackId codecEpoch groupId decodeMicros renderMicros queueDepth keyframe objectId =>
    rw [hevent] at h
    cases h
  | _ => rfl

section
variable (auth : Auth) (connection now : ℕ) (frame : DesktopInputFrame) (r : Runtime) (t : Desktop)
include auth connection now frame r t

theorem feedback_consumes (a : Attachment) (hf : frame.event.isFeedback = true)
    (hl : r.desktop.input.generation = r.desktop.backendGeneration)
    (h : exec (authorize auth connection frame.attachId now) r.desktop = (.ok a, t)) :
    Consumes t (exec (acceptInput auth connection now frame) r).2.desktop frame
      (r.Current frame ∧ frame.sequence = a.sequence + 1 ∧ frame.sequence ≤ maxSafe) := by
  unfold acceptInput Runtime.Current
  cases hevent : frame.event with
  | Feedback trackId codecEpoch groupId decodeMicros renderMicros queueDepth keyframe objectId =>
    dsimp only
    rw [mutate_desktop, if_pos hl, exec_bind, onDesktop_eq, h]
    dsimp only
    rw [exec_bind, exec_get]
    dsimp only
    rw [exec_bind]
    cases hc : r.configurations.lookup frame.attachId with
    | none =>
      refine ⟨fun hp => ?_, fun _ => rfl⟩
      obtain ⟨⟨⟨config, hconfig, -⟩, -⟩, -⟩ := hp
      cases hconfig
    | some config =>
      rw [require, exec_pure]
      dsimp only
      rw [exec_bind]
      by_cases htrack : frame.layoutEpoch = config.layoutEpoch ∧ (trackId, codecEpoch) ∈ config.tracks
      · rw [ensure, if_pos htrack, exec_pure]
        dsimp only
        rw [exec_bind]
        by_cases hlimit : ¬ (groupId = 0 ∨ 60000000 < decodeMicros ∨ 60000000 < renderMicros ∨
            256 < queueDepth)
        · rw [ensure, if_pos hlimit, exec_pure]
          dsimp only
          rw [exec_bind]
          have hcurrent : (∃ c, some config = some c ∧ frame.layoutEpoch = c.layoutEpoch ∧
              (trackId, codecEpoch) ∈ c.tracks) ∧ 0 < groupId ∧ decodeMicros ≤ 60000000 ∧
              renderMicros ≤ 60000000 ∧ queueDepth ≤ 256 := by
            refine ⟨⟨config, rfl, htrack⟩, ?_⟩
            omega
          by_cases hnext : frame.sequence = a.sequence + 1 ∧ frame.sequence ≤ maxSafe
          · rw [ensure, if_pos hnext, exec_pure]
            exact ⟨fun _ => ⟨rfl, rfl⟩, fun hn => absurd ⟨hcurrent, hnext⟩ hn⟩
          · rw [ensure, if_neg hnext, exec_throw]
            exact ⟨fun hp => absurd hp.2 hnext, fun _ => rfl⟩
        · rw [ensure, if_neg hlimit, exec_throw]
          refine ⟨fun hp => absurd hp.1.2 ?_, fun _ => rfl⟩
          omega
      · rw [ensure, if_neg htrack, exec_throw]
        refine ⟨fun hp => absurd hp.1.1 fun ⟨c, hc', hmem⟩ => ?_, fun _ => rfl⟩
        cases hc'
        exact htrack hmem
  | _ =>
    rw [hevent] at hf
    cases hf

theorem addressed_iff (a : Attachment) (hf : frame.event.isFeedback = false)
    (hl : r.desktop.input.generation = r.desktop.backendGeneration)
    (h : exec (authorize auth connection frame.attachId now) r.desktop = (.ok a, t)) :
    (t.holder = some frame.attachId ∧ frame.inputEpoch = t.epoch) ↔
      r.addressed auth connection now frame = true ∧ r.Current frame := by
  have haddressed : r.addressed auth connection now frame = true ↔
      t.holder = some frame.attachId := by
    simp [Runtime.addressed, hl, h, hf]
  have hcurrent : r.Current frame ↔ frame.inputEpoch = r.desktop.epoch := by
    unfold Runtime.Current
    cases hevent : frame.event with
    | Feedback => simp [hevent, DesktopInputEvent.isFeedback] at hf
    | _ => rfl
  rw [haddressed, hcurrent]
  refine and_congr_right fun hheld => ?_
  rcases (authorize_ok auth connection now frame.attachId _ t a h).holds with hnone | ⟨-, he⟩
  · rw [hheld] at hnone
    cases hnone
  · rw [he]

theorem frame_consumes (a : Attachment)
    (hl : r.desktop.input.generation = r.desktop.backendGeneration)
    (h : exec (authorize auth connection frame.attachId now) r.desktop = (.ok a, t)) :
    Consumes t (r.step (.acceptInput auth connection now frame)).desktop frame
      (r.addressed auth connection now frame ∧ r.Current frame ∧
        frame.sequence = a.sequence + 1 ∧ frame.sequence ≤ maxSafe) := by
  show Consumes t (exec (acceptInput auth connection now frame) r).2.desktop _ _
  cases hf : frame.event.isFeedback with
  | true =>
    have haddressed : r.addressed auth connection now frame = true := by
      simp [Runtime.addressed, hl, h, hf]
    have hrun := feedback_consumes auth connection now frame r t a hf hl h
    exact ⟨fun hp => hrun.consumed hp.2, fun hn => hrun.refused fun hp => hn ⟨haddressed, hp⟩⟩
  | false =>
    have hrun := input_consumes auth connection now frame r.desktop t a h
    rw [acceptInput_input auth connection now frame hf, mutate_desktop, if_pos hl, onDesktop_eq]
    have hiff := addressed_iff auth connection now frame r t a hf hl h
    exact ⟨fun hp => hrun.consumed ⟨hiff.mpr ⟨hp.1, hp.2.1⟩, hp.2.2⟩,
      fun hn => hrun.refused fun hp => hn ⟨(hiff.mp hp.1).1, (hiff.mp hp.1).2, hp.2⟩⟩

theorem frame_refused (e : Error)
    (hl : r.desktop.input.generation = r.desktop.backendGeneration)
    (h : exec (authorize auth connection frame.attachId now) r.desktop = (.error e, t)) :
    (r.step (.acceptInput auth connection now frame)).desktop = t := by
  show (exec (acceptInput auth connection now frame) r).2.desktop = t
  cases hf : frame.event.isFeedback with
  | true =>
    unfold acceptInput
    cases hevent : frame.event with
    | Feedback =>
      dsimp only
      rw [mutate_desktop, if_pos hl, exec_bind, onDesktop_eq, h]
    | _ =>
      rw [hevent] at hf
      cases hf
  | false =>
    rw [acceptInput_input auth connection now frame hf, mutate_desktop, if_pos hl, onDesktop_eq]
    unfold input
    rw [exec_bind, h]

end

end Rieul.Screen
