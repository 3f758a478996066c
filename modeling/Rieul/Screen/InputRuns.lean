import Mathlib.Data.List.Induction
import Mathlib.Tactic.ByContra
import Rieul.Screen.InputSequence
import Rieul.Screen.InputStream

/-!
# Runs of input frames

What reaches the adapter is the holder's, in the order of the numbers.
-/

namespace Rieul.Screen
open Stateful

/-- The adapter's sends are accounted for by `events`. -/
def Desktop.Accounts (events : List DesktopInputEvent) (d : Desktop) : Prop :=
  Accounted (d.input.log.map (·.1)) events

theorem adapterSend_log (a : Adapter) (event : DesktopInputEvent) (id : String) :
    (a.send event id).2.log.map (·.1) = a.log.map (·.1) ++ [event] := by
  unfold Adapter.send
  cases a.script a.log.length with
  | sent | failed effective => simp

theorem releasing_accounts (events : List DesktopInputEvent) :
    Releasing (Desktop.Accounts events) where
  sendRelease d h := by
    show Accounted _ _
    rw [adapterSend_log]
    exact .release h
  poison _ h := h
  records _ _ _ h := h
  drop _ h := h
  epoch _ _ h := h

theorem update_input (d : Desktop) (id : String) (f : Attachment → Attachment) :
    (d.update id f).input = d.input ∧ (d.update id f).epoch = d.epoch := by
  unfold Desktop.update
  cases d.attachments.lookup id with
  | none | some a => exact ⟨rfl, rfl⟩

section
variable (events : List DesktopInputEvent)
include events

theorem accounts_update (d : Desktop) (id : String)
    (f : Attachment → Attachment) (h : d.Accounts events) : (d.update id f).Accounts events := by
  unfold Desktop.Accounts
  rw [(update_input d id f).1]
  exact h

theorem quiet_accounts :
    Quiet (Desktop.Accounts events) (Desktop.Accounts events) where
  release := (releasing_accounts events).release
  releaseHeld := (releasing_accounts events).releaseHeld
  weaken _ h := h
  erase _ _ h _ := h
  insert _ _ h _ _ := h
  update d id f h _ := accounts_update events d id f h
  layout _ h := h
  acquire _ := .bind ((releasing_accounts events).release.strengthen fun _ h => h.1) fun _ =>
    .modify fun _ h => h

theorem accounts_recover (d : Desktop) (result : SendResult)
    (h : d.Accounts events) :
    Desktop.Accounts events { d with input := (d.input.recover result).2 } := by
  have hlog : (d.input.recover result).2.log = d.input.log := by
    unfold Adapter.recover
    cases d.input.ready <;> cases result <;> rfl
  show Accounted _ _
  rw [hlog]
  exact h

theorem accounts_step (r : Runtime) (a : Action)
    (hi : ∀ auth connection now frame, a ≠ .acceptInput auth connection now frame)
    (h : r.desktop.Accounts events) : (r.step a).desktop.Accounts events := by
  let I : Desktop → Prop := Desktop.Accounts events
  by_cases ha : ∃ admitted result, a = .reconcile admitted result
  · obtain ⟨admitted, result, rfl⟩ := ha
    refine Triple.of_exec (reconcile_on (I := I) (K := I) (fun _ h => h) ?_ ?_ ?_ admitted result) r h
    · exact fun d result h => accounts_recover events d result h
    · exact fun _ _ _ h => h
    · exact fun _ h _ _ => h
  · exact Triple.of_exec (quiet_keeps (K := I) (quiet_accounts events) (fun _ h _ => h)
      (fun _ h => h) (fun _ h => h) (fun _ _ h => h) a hi
      fun admitted result he => ha ⟨admitted, result, he⟩) r h

theorem admitInput_accounts (auth : Auth) (connection now : ℕ)
    (frame : DesktopInputFrame) :
    Keeps (Desktop.Accounts events) (admitInput auth connection now frame) := by
  have hauth := ((quiet_accounts events).authorize auth connection frame.attachId now).weaken
    (fun _ _ h => h.1) fun _ h => h
  refine .bind hauth fun a => .get_bind fun d hd => ?_
  have hkept : ∀ s, s = d → s.Accounts events := fun s hs => hs ▸ hd
  refine .ensure_bind (fun _ => .ensure_bind (fun _ => ?_) hkept) hkept
  refine .modify_bind (.bind (admitPoint_keeps _ _ _ _) fun _ => ?_) fun s hs =>
    accounts_update events s frame.attachId _ (hkept s hs)
  exact admitEvent_keeps (fun _ _ _ h => h) _ _

theorem forward_accounts (event : DesktopInputEvent)
    (id : String) : Triple (Desktop.Accounts events) (forward event id)
      (fun _ => Desktop.Accounts (events ++ [event])) (Desktop.Accounts (events ++ [event])) := by
  have hsend : Triple (Desktop.Accounts events) (send event id)
      (fun _ => Desktop.Accounts (events ++ [event])) (Desktop.Accounts (events ++ [event])) := by
    intro d hd
    rw [send_eq]
    show Accounted _ _
    rw [adapterSend_log]
    exact .deliver event hd
  refine .bind hsend fun sent => .ite (fun _ => .pure fun _ h => h) fun _ => ?_
  have hthrow : Triple (Desktop.Accounts (events ++ [event])) (throw .Backend : Call Unit)
      (fun _ => Desktop.Accounts (events ++ [event])) (Desktop.Accounts (events ++ [event])) :=
    .throw fun _ h => h
  exact .bind (.attempt (releasing_accounts _).release) fun _ => hthrow

end

variable (r : Runtime) (auth : Auth) (connection now : ℕ) (frame : DesktopInputFrame) (w : Watched)
  (a : Action)

theorem delivery_some (x : Delivery) (h : r.delivery a = some x) :
    ∃ auth now, a = .acceptInput auth x.connection now x.frame ∧
      x.frame.event.isFeedback = false ∧
      r.desktop.input.generation = r.desktop.backendGeneration ∧
      exec (admitInput auth x.connection now x.frame) r.desktop = (.ok (), x.desktop) := by
  unfold Runtime.delivery at h
  cases a with
  | acceptInput auth connection now frame =>
    dsimp only at h
    by_cases hc : frame.event.isFeedback ∨ r.desktop.input.generation ≠ r.desktop.backendGeneration
    · rw [if_pos hc] at h
      cases h
    · rw [if_neg hc] at h
      obtain ⟨hf, hl⟩ := not_or.mp hc
      rcases hrun : exec (admitInput auth connection now frame) r.desktop with ⟨result, d⟩
      rw [hrun] at h
      cases result with
      | error e => cases h
      | ok u =>
        cases h
        exact ⟨auth, now, rfl, by simpa using hf, not_not.mp hl, hrun⟩
  | _ => cases h

theorem accounts_delivery (events : List DesktopInputEvent) (r : Runtime) (a : Action)
    (h : r.desktop.Accounts events) : (r.step a).desktop.Accounts
      (events ++ (r.delivery a).toList.map (·.frame.event)) := by
  by_cases hi : ∃ auth connection now frame, a = .acceptInput auth connection now frame
  · obtain ⟨auth, connection, now, frame, rfl⟩ := hi
    let I : Desktop → Prop := Desktop.Accounts events
    show Desktop.Accounts _ (exec (acceptInput auth connection now frame) r).2.desktop
    unfold Runtime.delivery
    dsimp only
    cases hf : frame.event.isFeedback with
    | true =>
      have hkeeps : Triple (On I) (acceptInput auth connection now frame) (fun _ => On I) (On I) := by
        cases hevent : frame.event with
        | Feedback trackId codecEpoch groupId decodeMicros renderMicros queueDepth keyframe objectId =>
          exact keeps_feedback (quiet_accounts events) (fun _ h _ => h) (fun _ h => h)
            (fun _ h => h) (fun d id _ h => accounts_update events d id _ h) auth connection now
            frame hevent
        | _ =>
          rw [hevent] at hf
          cases hf
      have hrun : Desktop.Accounts events _ := Triple.of_exec hkeeps r h
      simpa using hrun
    | false =>
      rw [acceptInput_input auth connection now frame hf, mutate_desktop]
      by_cases hl : r.desktop.input.generation = r.desktop.backendGeneration
      · rw [if_pos hl, onDesktop_eq, input_eq, exec_bind]
        have hadmitted := admitInput_accounts events auth connection now frame r.desktop h
        rcases hrun : exec (admitInput auth connection now frame) r.desktop with ⟨result, d⟩
        rw [hrun] at hadmitted
        cases result with
        | error e => simpa [hl] using hadmitted
        | ok u =>
          have hforward := Triple.of_exec (forward_accounts events frame.event frame.attachId) d hadmitted
          simpa [hl] using hforward
      · simpa [hl] using h
  · have hnone : r.delivery a = none := by
      cases hd : r.delivery a with
      | none => rfl
      | some x =>
        obtain ⟨auth, now, ha, -⟩ := delivery_some r a x hd
        exact absurd ⟨auth, x.connection, now, x.frame, ha⟩ hi
    rw [hnone]
    simpa using accounts_step events r a
      (fun auth connection now frame he => hi ⟨auth, connection, now, frame, he⟩) h

structure Desktop.Admitted (d s : Desktop) (frame : DesktopInputFrame) (a : Attachment) : Prop where
  holder : d.holder = some frame.attachId
  epoch : frame.inputEpoch = d.epoch
  next : frame.sequence = a.sequence + 1 ∧ frame.sequence ≤ maxSafe
  recorded : ∃ keys buttons, s = { d.consume frame with keys := keys, buttons := buttons }

theorem admitInput_ok
    (d s : Desktop) (h : exec (admitInput auth connection now frame) d = (.ok (), s)) :
    ∃ a t, exec (authorize auth connection frame.attachId now) d = (.ok a, t) ∧
      t.Admitted s frame a := by
  unfold admitInput at h
  rw [exec_bind] at h
  rcases hauth : exec (authorize auth connection frame.attachId now) d with ⟨result, t⟩
  rw [hauth] at h
  cases result with
  | error e => cases h
  | ok a =>
    refine ⟨a, t, rfl, ?_⟩
    have hrest : Triple (fun u => u = t) (do
        let d ← get
        ensure (d.holder = some frame.attachId ∧ frame.inputEpoch = d.epoch) .Stale
        ensure (frame.sequence = a.sequence + 1 ∧ frame.sequence ≤ maxSafe) .Stale
        modify fun d => d.update frame.attachId fun a => { a with sequence := frame.sequence }
        admitPoint a frame.layoutEpoch frame.event
        admitEvent a.keyboardMode frame.event : Call Unit)
        (fun _ u => t.Admitted u frame a) (fun _ => True) := by
      refine .get_bind fun d hd => ?_
      subst hd
      refine .ensure_bind (fun hheld => .ensure_bind (fun hnext => ?_) fun _ _ => trivial)
        fun _ _ => trivial
      have hkeeps : Keeps (fun u => d.Admitted u frame a) (do
          admitPoint a frame.layoutEpoch frame.event
          admitEvent a.keyboardMode frame.event) := by
        refine .bind (admitPoint_keeps _ _ _ _) fun _ => admitEvent_keeps ?_ _ _
        intro u keys buttons hu
        obtain ⟨keys', buttons', rfl⟩ := hu.recorded
        exact ⟨hheld.1, hheld.2, hnext, keys, buttons, rfl⟩
      refine .modify_bind (hkeeps.weaken (fun _ _ hu => hu) fun _ _ => trivial) fun u hu => ?_
      rw [hu]
      exact ⟨hheld.1, hheld.2, hnext, (d.consume frame).keys, (d.consume frame).buttons, rfl⟩
    have hrun := hrest t rfl
    dsimp only at h
    rw [h] at hrun
    exact hrun

theorem attachName_injective : Function.Injective attachName := by
  intro n m h
  have hdigits : Nat.toDigits 10 n = Nat.toDigits 10 m := by
    rw [← Nat.toList_repr, ← Nat.toList_repr]
    exact congrArg String.toList ((String.append_right_inj "desktop-").mp h)
  rw [← Nat.ofDigitChars_ten_toDigits (n := n), hdigits, Nat.ofDigitChars_ten_toDigits]

structure Desktop.Numbered (delivered : List Delivery) (d : Desktop) : Prop where
  known (id : String) (a : Attachment) : d.attachments.lookup id = some a →
    ∃ n, n ≤ d.nextId ∧ id = attachName n
  named (x : Delivery) : x ∈ delivered → ∃ n, n ≤ d.nextId ∧ x.frame.attachId = attachName n
  last (x : Delivery) (a : Attachment) : x ∈ delivered →
    d.attachments.lookup x.frame.attachId = some a → x.frame.sequence ≤ a.sequence

structure Desktop.Counted (used : String → ℕ) (d : Desktop) : Prop where
  fresh (n : ℕ) : d.nextId < n → used (attachName n) = 0
  consumed (id : String) (a : Attachment) : d.attachments.lookup id = some a → a.sequence = used id

section
variable {d t : Desktop} {delivered : List Delivery} {used : String → ℕ}

theorem Desktop.Numbered.grown (h : d.Numbered delivered) (hg : d.Grown t) :
    t.Numbered delivered where
  known id a ha := by
    rcases hg.attachments id a ha with ⟨b, hb, -⟩ | ⟨-, n, -, hle, hname⟩
    · obtain ⟨n, hn, hname⟩ := h.known id b hb
      exact ⟨n, hn.trans hg.nextId, hname⟩
    · exact ⟨n, hle, hname⟩
  named x hx := by
    obtain ⟨n, hn, hname⟩ := h.named x hx
    exact ⟨n, hn.trans hg.nextId, hname⟩
  last x a hx ha := by
    rcases hg.attachments _ a ha with ⟨b, hb, hseq⟩ | ⟨-, n, hlt, -, hname⟩
    · rw [hseq]
      exact h.last x b hx hb
    · obtain ⟨m, hm, hname'⟩ := h.named x hx
      have hnm := attachName_injective (hname.symm.trans hname')
      omega

theorem Desktop.Counted.grown (h : d.Counted used) (hg : d.Grown t) : t.Counted used where
  fresh n hn := h.fresh n (hg.nextId.trans_lt hn)
  consumed id a ha := by
    rcases hg.attachments id a ha with ⟨b, hb, hseq⟩ | ⟨hzero, n, hlt, -, hname⟩
    · exact hseq.trans (h.consumed id b hb)
    · rw [hzero, hname, h.fresh n hlt]

theorem Desktop.SameTable.grown (h : d.SameTable t) : d.Grown t :=
  ⟨h.nextId.ge, fun _ a ha => .inl ⟨a, h.attachments ▸ ha, rfl⟩⟩

variable {frame : DesktopInputFrame} {a : Attachment}

theorem consume_nextId (d : Desktop) (frame : DesktopInputFrame) :
    (d.consume frame).nextId = d.nextId := by
  unfold Desktop.consume Desktop.update
  cases d.attachments.lookup frame.attachId with
  | none | some b => rfl

theorem lookup_consume (ha : d.attachments.lookup frame.attachId = some a) (id : String)
    (b : Attachment) (hb : (d.consume frame).attachments.lookup id = some b) :
    (id = frame.attachId ∧ b.sequence = frame.sequence) ∨
      (id ≠ frame.attachId ∧ d.attachments.lookup id = some b) := by
  unfold Desktop.consume at hb
  rw [lookup_update] at hb
  by_cases hid : id = frame.attachId
  · rw [if_pos hid, ha] at hb
    cases hb
    exact .inl ⟨hid, rfl⟩
  · rw [if_neg hid] at hb
    exact .inr ⟨hid, hb⟩

section
variable (h : d.Numbered delivered) (ha : d.attachments.lookup frame.attachId = some a)
  (hn : frame.sequence = a.sequence + 1)
include h ha hn

theorem Desktop.Numbered.consume :
    (d.consume frame).Numbered delivered where
  known id b hb := by
    rw [consume_nextId]
    rcases lookup_consume ha id b hb with ⟨rfl, -⟩ | ⟨-, hold⟩
    · exact h.known _ a ha
    · exact h.known id b hold
  named x hx := by
    rw [consume_nextId]
    exact h.named x hx
  last x b hx hb := by
    rcases lookup_consume ha _ b hb with ⟨hid, hseq⟩ | ⟨-, hold⟩
    · have hlast := h.last x a hx (hid ▸ ha)
      omega
    · exact h.last x b hx hold

theorem Desktop.Numbered.deliver
    (x : Delivery) (hx : x.frame = frame) : (d.consume frame).Numbered (delivered ++ [x]) where
  known := (h.consume ha hn).known
  named y hy := by
    rcases List.mem_append.mp hy with hy | hy
    · exact (h.consume ha hn).named y hy
    · rw [List.mem_singleton.mp hy, hx, consume_nextId]
      exact h.known _ a ha
  last y b hy hb := by
    rcases List.mem_append.mp hy with hy | hy
    · exact (h.consume ha hn).last y b hy hb
    · rw [List.mem_singleton.mp hy, hx] at hb ⊢
      rcases lookup_consume ha _ b hb with ⟨-, hseq⟩ | ⟨hne, -⟩
      · exact hseq.ge
      · exact absurd rfl hne

end

theorem Desktop.Counted.consume (h : d.Counted used) (hnumbered : d.Numbered delivered)
    (ha : d.attachments.lookup frame.attachId = some a) :
    (d.consume frame).Counted (Function.update used frame.attachId frame.sequence) where
  fresh n hn := by
    rw [consume_nextId] at hn
    obtain ⟨m, hm, hname⟩ := hnumbered.known _ a ha
    have hne : attachName n ≠ frame.attachId := by
      intro he
      have hnm := attachName_injective (he.trans hname)
      omega
    rw [Function.update_of_ne hne]
    exact h.fresh n hn
  consumed id b hb := by
    rcases lookup_consume ha id b hb with ⟨hid, hseq⟩ | ⟨hne, hold⟩
    · rw [hid, Function.update_self]
      exact hseq
    · rw [Function.update_of_ne hne]
      exact h.consumed id b hold

end

theorem authorize_grown (id : String) (d t : Desktop)
    (result : Except Error Attachment)
    (h : exec (authorize auth connection id now) d = (result, t)) : d.Grown t := by
  have hkeeps := ((quiet_grown d).authorize auth connection id now).weaken (fun _ _ hs => hs.1)
    fun _ hs => hs
  have hrun := Triple.of_exec hkeeps d (.refl d)
  rw [h] at hrun
  exact hrun

theorem frame_cases :
    (r.desktop.Grown (r.step (.acceptInput auth connection now frame)).desktop ∧
      (r.addressed auth connection now frame = true → ∀ a,
        r.desktop.attachments.lookup frame.attachId = some a →
        (r.step (.acceptInput auth connection now frame)).desktop.attachments.lookup frame.attachId =
          some a ∧ (r.Current frame →
            ¬ (frame.sequence = a.sequence + 1 ∧ frame.sequence ≤ maxSafe)))) ∨
    ∃ a t, exec (authorize auth connection frame.attachId now) r.desktop = (.ok a, t) ∧
      r.addressed auth connection now frame = true ∧ r.Current frame ∧
      (frame.sequence = a.sequence + 1 ∧ frame.sequence ≤ maxSafe) ∧
      (t.consume frame).SameTable (r.step (.acceptInput auth connection now frame)).desktop := by
  by_cases hl : r.desktop.input.generation = r.desktop.backendGeneration
  · rcases hauth : exec (authorize auth connection frame.attachId now) r.desktop with ⟨result, t⟩
    have hgrown := authorize_grown auth connection now frame.attachId _ t result hauth
    cases result with
    | error e =>
      rw [frame_refused auth connection now frame r t e hl hauth]
      exact .inl ⟨hgrown, fun ha => by simp [Runtime.addressed, hauth] at ha⟩
    | ok a =>
      have hrun := frame_consumes auth connection now frame r t a hl hauth
      by_cases hp : r.addressed auth connection now frame = true ∧ r.Current frame ∧
          frame.sequence = a.sequence + 1 ∧ frame.sequence ≤ maxSafe
      · exact .inr ⟨a, t, rfl, hp.1, hp.2.1, hp.2.2, hrun.consumed hp⟩
      · rw [hrun.refused hp]
        refine .inl ⟨hgrown, fun haddressed b hb => ?_⟩
        have hfound := authorize_ok auth connection now frame.attachId _ t a hauth
        cases hfound.before.symm.trans hb
        exact ⟨hfound.lookup, fun hcurrent hnext => hp ⟨haddressed, hcurrent, hnext⟩⟩
  · have hsame : (r.step (.acceptInput auth connection now frame)).desktop = r.desktop := by
      show (exec (acceptInput auth connection now frame) r).2.desktop = _
      unfold acceptInput
      cases frame.event <;> simp only [mutate_desktop, if_neg hl]
    rw [hsame]
    exact .inl ⟨.refl _, fun ha => by simp [Runtime.addressed, hl] at ha⟩

theorem delivery_spec (x : Delivery) (h : r.delivery a = some x) :
    ∃ auth now b t, a = .acceptInput auth x.connection now x.frame ∧
      x.frame.event.isFeedback = false ∧
      r.desktop.input.generation = r.desktop.backendGeneration ∧
      exec (authorize auth x.connection x.frame.attachId now) r.desktop = (.ok b, t) ∧
      t.Admitted x.desktop x.frame b := by
  obtain ⟨auth, now, ha, hf, hl, hrun⟩ := delivery_some r a x h
  obtain ⟨b, t, hauth, hadmitted⟩ := admitInput_ok auth x.connection now x.frame _ _ hrun
  exact ⟨auth, now, b, t, ha, hf, hl, hauth, hadmitted⟩

theorem numbered_step (h : w.runtime.desktop.Numbered w.delivered) :
    (w.step a).runtime.desktop.Numbered (w.step a).delivered := by
  show (w.runtime.step a).desktop.Numbered (w.delivered ++ (w.runtime.delivery a).toList)
  cases hd : w.runtime.delivery a with
  | some x =>
    obtain ⟨auth, now, b, t, rfl, hf, hl, hauth, hadmitted⟩ := delivery_spec w.runtime a x hd
    have hfound := authorize_ok auth x.connection now x.frame.attachId _ t b hauth
    have hpasses := (addressed_iff auth x.connection now x.frame w.runtime t b hf hl hauth).mp
      ⟨hadmitted.holder, hadmitted.epoch⟩
    have hrun := frame_consumes auth x.connection now x.frame w.runtime t b hl hauth
    have hsame := hrun.consumed ⟨hpasses.1, hpasses.2, hadmitted.next⟩
    have hgrown := authorize_grown auth x.connection now x.frame.attachId _ t _ hauth
    exact ((h.grown hgrown).deliver hfound.lookup hadmitted.next.1 x rfl).grown hsame.grown
  | none =>
    have hnil : w.delivered ++ (none : Option Delivery).toList = w.delivered := List.append_nil _
    rw [hnil]
    by_cases hi : ∃ auth connection now frame, a = .acceptInput auth connection now frame
    · obtain ⟨auth, connection, now, frame, rfl⟩ := hi
      rcases frame_cases w.runtime auth connection now frame with ⟨hgrown, -⟩ | ⟨b, t, hauth, -, -,
        hnext, hsame⟩
      · exact h.grown hgrown
      · have hfound := authorize_ok auth connection now frame.attachId _ t b hauth
        have hgrown := authorize_grown auth connection now frame.attachId _ t _ hauth
        exact ((h.grown hgrown).consume hfound.lookup hnext.1).grown hsame.grown
    · exact h.grown (grown_step w.runtime a
        fun auth connection now frame he => hi ⟨auth, connection, now, frame, he⟩)

theorem exclusive_step (h : w.Exclusive)
    (hn : w.runtime.desktop.Numbered w.delivered) : (w.step a).Exclusive where
  accounted := by
    have hrun := accounts_delivery (w.delivered.map fun x : Delivery => x.frame.event) w.runtime a
      h.accounted
    rw [← List.map_append] at hrun
    exact hrun
  holder x hx := by
    rcases List.mem_append.mp hx with hx | hx
    · exact h.holder x hx
    · obtain ⟨auth, now, b, t, -, hf, -, hauth, hadmitted⟩ :=
        delivery_spec w.runtime a x (Option.mem_toList.mp hx)
      have hfound := authorize_ok auth x.connection now x.frame.attachId _ t b hauth
      obtain ⟨keys, buttons, hs⟩ := hadmitted.recorded
      obtain ⟨hholder, -⟩ := update_holder t x.frame.attachId
        fun a => { a with sequence := x.frame.sequence }
      obtain ⟨-, hepoch⟩ := update_input t x.frame.attachId
        fun a => { a with sequence := x.frame.sequence }
      have hlookup := lookup_update t x.frame.attachId x.frame.attachId
        fun a => { a with sequence := x.frame.sequence }
      rw [if_pos rfl, hfound.lookup] at hlookup
      rw [hs]
      exact ⟨hf, hholder.trans hadmitted.holder, hadmitted.epoch.trans hepoch.symm, _, hlookup,
        hfound.connection⟩
  increasing := by
    refine List.pairwise_append.mpr ⟨h.increasing, ?_, ?_⟩
    · cases w.runtime.delivery a with
      | none => exact .nil
      | some x => exact List.pairwise_singleton _ _
    · intro y hy x hx hid
      obtain ⟨auth, now, b, t, -, -, -, hauth, hadmitted⟩ :=
        delivery_spec w.runtime a x (Option.mem_toList.mp hx)
      have hfound := authorize_ok auth x.connection now x.frame.attachId _ t b hauth
      have hlast := hn.last y b hy (hid ▸ hfound.before)
      have hnext := hadmitted.next.1
      omega

section
variable (keyboardMode : DesktopKeyboardMode) (event : DesktopInputEvent)
  (h : event.lifts keyboardMode = true)
include keyboardMode event h

theorem lifts_point : event.point = none := by
  cases event with
  | Button viewportId x y button down =>
    cases down with
    | true => cases h
    | false => rfl
  | AbsolutePointer | Wheel => cases h
  | _ => rfl

theorem lifts_admitted (d : Desktop) :
    ∃ s, exec (admitEvent keyboardMode event) d = (.ok (), s) := by
  cases event with
  | PhysicalKey usage down repeats =>
    cases down with
    | true => cases h
    | false =>
      cases repeats with
      | true => cases h
      | false =>
        simp only [DesktopInputEvent.lifts, Bool.and_eq_true, Bool.or_eq_true, decide_eq_true_eq]
          at h
        have hvalid : ¬ (keyboardMode = .Text ∧ ¬ (224 ≤ usage ∧ usage ≤ 231) ∨
            ¬ (4 ≤ usage ∧ usage ≤ 231) ∨
            false = true ∧ (false = false ∨ usage ∉ d.keys)) := by
          rintro (⟨rfl, hmode⟩ | hrange | ⟨hrepeats, -⟩)
          · obtain ⟨⟨hphysical | hlow, -⟩, hhigh⟩ := h
            · cases hphysical
            · exact hmode ⟨hlow, hhigh⟩
          · exact hrange ⟨h.1.2, h.2⟩
          · cases hrepeats
        refine ⟨d.record (.key usage) false, ?_⟩
        unfold admitEvent
        rw [exec_bind, exec_get]
        dsimp only
        rw [exec_bind, ensure, if_pos hvalid]
        rfl
  | Button viewportId x y button down =>
    cases down with
    | true => cases h
    | false =>
      simp only [DesktopInputEvent.lifts, Bool.and_eq_true, decide_eq_true_eq] at h
      refine ⟨d.record (.button button) false, ?_⟩
      unfold admitEvent
      rw [exec_bind, exec_get]
      dsimp only
      rw [exec_bind, ensure, if_pos h]
      rfl
  | ReleaseAll => exact ⟨_, rfl⟩
  | _ => cases h

end

/-- What lifts is delivered from the holder, with the next number and the input epoch, whatever
the layout and the viewports are. -/
theorem lifts_delivered (a : Attachment)
    (haddressed : r.addressed auth connection now frame = true)
    (hepoch : frame.inputEpoch = r.desktop.epoch)
    (ha : r.desktop.attachments.lookup frame.attachId = some a)
    (hnext : frame.sequence = a.sequence + 1 ∧ frame.sequence ≤ maxSafe)
    (hlifts : frame.event.lifts a.keyboardMode = true) :
    (r.delivery (.acceptInput auth connection now frame)).isSome := by
  have hf : frame.event.isFeedback = false := by
    cases hevent : frame.event with
    | Feedback =>
      rw [hevent] at hlifts
      cases hlifts
    | _ => rfl
  have hl : r.desktop.input.generation = r.desktop.backendGeneration := by
    by_contra hl
    simp [Runtime.addressed, hl] at haddressed
  rcases hauth : exec (authorize auth connection frame.attachId now) r.desktop with ⟨result, t⟩
  cases result with
  | error e => simp [Runtime.addressed, hauth] at haddressed
  | ok b =>
    have hfound := authorize_ok auth connection now frame.attachId _ t b hauth
    obtain rfl : a = b := Option.some.inj (ha.symm.trans hfound.before)
    have hcurrent : r.Current frame := by
      unfold Runtime.Current
      cases hevent : frame.event with
      | Feedback => simp [hevent, DesktopInputEvent.isFeedback] at hf
      | _ => exact hepoch
    have hheld := (addressed_iff auth connection now frame r t a hf hl hauth).mpr
      ⟨haddressed, hcurrent⟩
    obtain ⟨s, hs⟩ := lifts_admitted a.keyboardMode frame.event hlifts (t.consume frame)
    have hadmitted : exec (admitInput auth connection now frame) r.desktop = (.ok (), s) := by
      unfold admitInput
      rw [exec_bind, hauth]
      dsimp only
      rw [exec_bind, exec_get]
      dsimp only
      rw [exec_bind, ensure, if_pos hheld, exec_pure]
      dsimp only
      rw [exec_bind, ensure, if_pos hnext, exec_pure]
      dsimp only
      rw [exec_bind, exec_modify]
      dsimp only
      rw [exec_bind]
      unfold admitPoint
      rw [exec_bind, exec_get]
      dsimp only
      rw [lifts_point a.keyboardMode frame.event hlifts]
      exact hs
    unfold Runtime.delivery
    dsimp only
    rw [hadmitted, hf, if_neg (by simp [hl])]
    rfl

theorem counted_step (hn : w.runtime.desktop.Numbered w.delivered)
    (hc : w.runtime.desktop.Counted w.used) (hfits : w.Fits a) :
    (w.step a).runtime.desktop.Counted (w.step a).used := by
  show (w.runtime.step a).desktop.Counted (w.runtime.uses w.used a)
  by_cases hi : ∃ auth connection now frame, a = .acceptInput auth connection now frame
  · obtain ⟨auth, connection, now, frame, rfl⟩ := hi
    unfold Runtime.uses
    dsimp only
    rcases frame_cases w.runtime auth connection now frame with ⟨hgrown, hrefused⟩ | ⟨b, t, hauth,
      haddressed, hcurrent, hnext, hsame⟩
    · have hnot : ¬ (w.runtime.addressed auth connection now frame = true ∧ frame.Next w.used) := by
        rintro ⟨haddressed, hnext⟩
        have hcurrent := hfits haddressed hnext
        cases ha : w.runtime.desktop.attachments.lookup frame.attachId with
        | none =>
          rcases hauth : exec (authorize auth connection frame.attachId now) w.runtime.desktop with
            ⟨result, t⟩
          cases result with
          | error e => simp [Runtime.addressed, hauth] at haddressed
          | ok b =>
            have hfound := authorize_ok auth connection now frame.attachId _ t b hauth
            cases ha.symm.trans hfound.before
        | some b =>
          refine (hrefused haddressed b ha).2 hcurrent ?_
          rw [hc.consumed frame.attachId b ha]
          exact hnext
      rw [if_neg hnot]
      exact hc.grown hgrown
    · have hfound := authorize_ok auth connection now frame.attachId _ t b hauth
      have hgrown := authorize_grown auth connection now frame.attachId _ t _ hauth
      have hused : frame.Next w.used := by
        unfold DesktopInputFrame.Next
        rw [← hc.consumed frame.attachId b hfound.before]
        exact hnext
      rw [if_pos ⟨haddressed, hused⟩]
      exact ((hc.grown hgrown).consume (hn.grown hgrown) hfound.lookup).grown hsame.grown
  · have huses : w.runtime.uses w.used a = w.used := by
      cases a with
      | acceptInput auth connection now frame => exact absurd ⟨auth, connection, now, frame, rfl⟩ hi
      | _ => rfl
    rw [huses]
    exact hc.grown (grown_step w.runtime a
      fun auth connection now frame he => hi ⟨auth, connection, now, frame, he⟩)

theorem counted_inOrder (hc : w.runtime.desktop.Counted w.used) : w.InOrder where
  consumed := hc.consumed
  lifts auth connection now frame a haddressed hepoch hnext ha hlifts := by
    refine lifts_delivered w.runtime auth connection now frame a haddressed hepoch ha ?_ hlifts
    rw [hc.consumed frame.attachId a ha]
    exact hnext

theorem inOrder_fits (h : w.InOrder) (hnext : (w.step a).InOrder) :
    w.Fits a := by
  cases a with
  | acceptInput auth connection now frame =>
    intro haddressed hused
    rcases frame_cases w.runtime auth connection now frame with ⟨-, hrefused⟩ | ⟨-, -, -, -,
      hcurrent, -⟩
    · rcases hauth : exec (authorize auth connection frame.attachId now) w.runtime.desktop with
        ⟨result, t⟩
      cases result with
      | error e => simp [Runtime.addressed, hauth] at haddressed
      | ok b =>
        have hfound := authorize_ok auth connection now frame.attachId _ t b hauth
        have hsame := (hrefused haddressed b hfound.before).1
        have hafter := hnext.consumed frame.attachId b hsame
        have hbefore := h.consumed frame.attachId b hfound.before
        have huses : (w.step (.acceptInput auth connection now frame)).used =
            Function.update w.used frame.attachId frame.sequence := if_pos ⟨haddressed, hused⟩
        rw [huses, Function.update_self] at hafter
        have hseq := hused.1
        omega
    · exact hcurrent
  | _ => trivial

theorem run_exclusive (script : ℕ → SendResult) (actions : List Action) :
    (Watched.run script actions).runtime.desktop.Numbered (Watched.run script actions).delivered ∧
      (Watched.run script actions).Exclusive := by
  induction actions using List.reverseRecOn with
  | nil =>
    refine ⟨⟨?_, ?_, ?_⟩, .nil, ?_, .nil⟩
    · exact fun _ _ ha => by cases ha
    · exact fun _ hx => by cases hx
    · exact fun _ _ hx => by cases hx
    · exact fun _ hx => by cases hx
  | append_singleton actions a ih =>
    rw [Watched.run_concat]
    exact ⟨numbered_step _ a ih.1, exclusive_step _ a ih.2 ih.1⟩

theorem run_counted (script : ℕ → SendResult) (actions : List Action)
    (h : ∀ before a, before ++ [a] <+: actions → (Watched.run script before).Fits a) :
    (Watched.run script actions).runtime.desktop.Counted (Watched.run script actions).used := by
  induction actions using List.reverseRecOn with
  | nil => exact ⟨fun _ _ => rfl, fun _ _ ha => by cases ha⟩
  | append_singleton actions a ih =>
    rw [Watched.run_concat]
    have hbefore := ih fun before b hb => h before b (hb.trans (List.prefix_append actions [a]))
    exact counted_step _ a (run_exclusive script actions).1 hbefore (h actions a List.prefix_rfl)

/-- In every run, only the holder's frames reach the adapter, in the order of their numbers; the
numbers used are consumed, and what lifts gets through, if and only if every frame with the next
number is current. -/
theorem input_in_order (script : ℕ → SendResult) (actions : List Action) :
    (Watched.run script actions).Exclusive ∧
    ((∀ before, before <+: actions → (Watched.run script before).InOrder) ↔
      ∀ before a, before ++ [a] <+: actions → (Watched.run script before).Fits a) := by
  refine ⟨(run_exclusive script actions).2, fun h before a hprefix => ?_, fun h before hprefix => ?_⟩
  · have hafter := h (before ++ [a]) hprefix
    rw [Watched.run_concat] at hafter
    exact inOrder_fits _ a (h before ((List.prefix_append before [a]).trans hprefix)) hafter
  · exact counted_inOrder _ (run_counted script before
      fun earlier a ha => h earlier a (ha.trans hprefix))

theorem input_in_order_sample :
    (Watched.run (fun _ => .sent) (pressRun ++ [.acceptInput allValid 7 0
      ⟨"desktop-1", 2, 2, 1, .PhysicalKey 4 false false⟩])).Exclusive ∧
    (Watched.run (fun _ => .sent) (pressRun ++ [.acceptInput allValid 7 0
      ⟨"desktop-1", 2, 2, 1, .PhysicalKey 4 false false⟩])).delivered.map (·.frame.sequence) =
        [1, 2] :=
  ⟨(input_in_order (fun _ => .sent) _).1, rfl⟩

def reconfiguredRun : List Action :=
  [.attach allValid true 7 "client" .Physical 0 1,
    .configure allValid 7 0 ⟨"desktop-1", 1, [sampleViewport], 1000000⟩ false none,
    .setControl allValid 7 "desktop-1" 0 .Acquire,
    .acceptInput allValid 7 0 ⟨"desktop-1", 2, 1, 1, .PhysicalKey 4 true false⟩,
    .configure allValid 7 0 ⟨"desktop-1", 1, [sampleViewport], 1000000⟩ false none]

def staleFeedback : DesktopInputFrame :=
  ⟨"desktop-1", 2, 2, 1, .Feedback 1 1 1 0 0 0 false none⟩

def keyUp : DesktopInputFrame := ⟨"desktop-1", 2, 3, 1, .PhysicalKey 4 false false⟩

/-- The feedback is refused without its number, then the key-up with the next number is refused
and the key stays held. -/
theorem stale_feedback_blocks : ∃ w : Watched,
    w = Watched.run (fun _ => .sent) (reconfiguredRun ++ [.acceptInput allValid 7 0 staleFeedback]) ∧
    (Watched.run (fun _ => .sent) reconfiguredRun).runtime.addressed allValid 7 0 staleFeedback ∧
    staleFeedback.Next (Watched.run (fun _ => .sent) reconfiguredRun).used ∧
    w.runtime.addressed allValid 7 0 keyUp ∧ keyUp.Next w.used ∧
    keyUp.inputEpoch = w.runtime.desktop.epoch ∧ keyUp.event.lifts .Physical ∧
    (exec (acceptInput allValid 7 0 keyUp) w.runtime).1 = .error .Stale ∧
    (w.runtime.step (.acceptInput allValid 7 0 keyUp)).desktop.input.held =
      {(.key 4, "desktop-1")} ∧ ¬ w.InOrder := by
  refine ⟨_, rfl, rfl, by decide, rfl, by decide, rfl, rfl, rfl, rfl, fun h => ?_⟩
  have hconsumed := h.consumed "desktop-1" _ rfl
  exact absurd hconsumed (by decide)

end Rieul.Screen
