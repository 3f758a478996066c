import Rieul.Screen.Runtime

/-!
# What every call keeps

Every call is a composition of a few changes of the state machine.
-/

namespace Rieul.Screen
open Stateful

theorem send_eq (d : Desktop) (event : DesktopInputEvent) (id : String) :
    exec (send event id) d =
      (.ok (d.input.send event id).1, { d with input := (d.input.send event id).2 }) := rfl

theorem adapterSend_fence (a : Adapter) (event : DesktopInputEvent) (id : String) :
    (a.send event id).2.generation = a.generation ∧ (a.send event id).2.ready = a.ready := by
  unfold Adapter.send
  cases a.script a.log.length with
  | sent | failed effective => exact ⟨rfl, rfl⟩

theorem adapterSend_sent (a : Adapter) (event : DesktopInputEvent) (id : String)
    (h : (a.send event id).1 = true) : (a.send event id).2.held = event.effect id a.held ∧
      (a.send event id).2.log = a.log ++ [(event, .sent)] := by
  unfold Adapter.send at h ⊢
  cases hr : a.script a.log.length with
  | sent => exact ⟨rfl, rfl⟩
  | failed effective =>
    rw [hr] at h
    cases h

/-- What `release_held` leaves. -/
theorem releaseHeld_cases (d : Desktop) :
    (exec releaseHeld d = (.ok (), { d with
        input := (d.input.send .ReleaseAll "").2
        keys := ∅
        buttons := ∅ }) ∧ (d.input.send .ReleaseAll "").1 = true) ∨
    exec releaseHeld d = (.error .Backend, { d with
        input := (d.input.send .ReleaseAll "").2
        poisoned := true }) := by
  unfold releaseHeld
  rw [exec_bind, send_eq]
  cases h : (d.input.send .ReleaseAll "").1 with
  | true => exact .inl ⟨rfl, rfl⟩
  | false => exact .inr rfl

/-- `release` drops control, and unless it fails at once sends the release. -/
theorem release_cases (d : Desktop) :
    exec release d = (.error .Limit, { d with holder := none, poisoned := true }) ∨
    exec release d = exec releaseHeld { d with holder := none, epoch := d.epoch + 1 } := by
  unfold release
  rw [exec_bind, exec_modify]
  dsimp only
  rw [exec_bind, exec_get]
  dsimp only
  by_cases h : d.epoch + 1 ≤ maxSafe
  · rw [if_pos h, exec_bind, exec_modify]
    exact .inr rfl
  · rw [if_neg h, exec_bind, exec_modify]
    exact .inl rfl

theorem release_spec : Triple (fun _ => True) release
    (fun _ d => d.holder = none ∧ d.input.held = ∅ ∧
      ∃ log, d.input.log = log ++ [(.ReleaseAll, .sent)])
    (fun d => d.holder = none ∧ d.poisoned = true) := by
  intro d _
  rcases release_cases d with h | h
  · rw [h]
    exact ⟨rfl, rfl⟩
  · rw [h]
    rcases releaseHeld_cases { d with holder := none, epoch := d.epoch + 1 } with ⟨hr, hs⟩ | hr
    · rw [hr]
      obtain ⟨hheld, hlog⟩ := adapterSend_sent _ _ _ hs
      exact ⟨rfl, hheld, d.input.log, hlog⟩
    · rw [hr]
      exact ⟨rfl, rfl⟩

theorem release_healthy : Triple (fun d => d.poisoned = false) release
    (fun _ d => d.poisoned = false) (fun _ => True) := by
  intro d hd
  rcases release_cases d with h | h
  · rw [h]
    exact trivial
  · rw [h]
    rcases releaseHeld_cases { d with holder := none, epoch := d.epoch + 1 } with ⟨hr, -⟩ | hr
    · rw [hr]
      exact hd
    · rw [hr]
      exact trivial

/-- `I` is kept where attachments end. -/
structure Removing (I : Desktop → Prop) : Prop where
  release : Keeps I release
  erase (d : Desktop) (id : String) : I d → d.poisoned = false →
    I { d with attachments := d.attachments.erase id }

/-- `I` is kept by every change of the state but that of a frame, and a new holder leaves `J`. -/
structure Quiet (I J : Desktop → Prop) : Prop extends Removing I where
  weaken (d : Desktop) : I d → J d
  releaseHeld : Keeps I releaseHeld
  insert (d : Desktop) (a : Attachment) : I d → d.poisoned = false → a.sequence = 0 →
    I { d with
      nextId := d.nextId + 1
      attachments := d.attachments.insert ("desktop-" ++ toString (d.nextId + 1)) a }
  update (d : Desktop) (id : String) (f : Attachment → Attachment) : I d →
    (∀ a, (f a).sequence = a.sequence) → I (d.update id f)
  layout (d : Desktop) : I d → I { d with
    layoutEpoch := d.layoutEpoch + 1
    attachments := clearViewports d.attachments }
  acquire (id : String) : Triple (fun d => I d ∧ d.poisoned = false) (acquire id) (fun _ => J) I

/-- `I` is kept by every change of the state, and a new holder leaves `J`. -/
structure Stable (I J : Desktop → Prop) : Prop extends Quiet I J where
  number (d : Desktop) (id : String) (sequence : ℕ) : I d →
    I (d.update id fun a => { a with sequence := sequence })
  deliver (keyboardMode : DesktopKeyboardMode) (event : DesktopInputEvent) (id : String) :
    Triple (fun d => I d ∧ d.poisoned = false ∧ d.holder = some id)
      (deliver keyboardMode event id) (fun _ => I) I

theorem update_holder (d : Desktop) (id : String) (f : Attachment → Attachment) :
    (d.update id f).holder = d.holder ∧ (d.update id f).poisoned = d.poisoned ∧
      (d.update id f).backendGeneration = d.backendGeneration := by
  unfold Desktop.update
  cases d.attachments.lookup id with
  | none | some a => exact ⟨rfl, rfl, rfl⟩

theorem admitPoint_keeps (P : Desktop → Prop) (a : Attachment) (layoutEpoch : ℕ)
    (event : DesktopInputEvent) : Keeps P (admitPoint a layoutEpoch event) := by
  refine .get_bind fun d hd => ?_
  have hkept : ∀ s, s = d → P s := fun s hs => hs ▸ hd
  cases event.point with
  | none => exact .pure hkept
  | some point =>
    refine .ensure_bind (fun _ => .require_bind (fun v _ => ?_) hkept) hkept
    exact .ensure (fun s hs _ => hkept s hs) fun s hs _ => hkept s hs

section
variable {I : Desktop → Prop} (h : Removing I)
include h

theorem Removing.releaseOf (id : String) : Triple (fun d => I d ∧ d.poisoned = false)
    (Screen.releaseOf id) (fun _ d => I d ∧ d.poisoned = false) I := by
  have hrelease := (h.release.and release_healthy).weaken (fun _ _ hd => hd) (fun _ hd => hd.1)
  refine .get_bind fun d hd => .ite (fun _ => hrelease.strengthen ?_) fun _ => .pure ?_
  · exact fun s hs => hs ▸ hd
  · exact fun s hs => hs ▸ hd

theorem Removing.remove (id : String) : Keeps I (Screen.remove id) := by
  refine .get_bind fun d hd => .ensure_bind (fun hp => ?_) fun s hs => hs ▸ hd
  refine .bind ((h.releaseOf id).strengthen fun s hs => hs ▸ ⟨hd, hp⟩) fun _ => .modify ?_
  exact fun s hs => h.erase s id hs.1 hs.2

theorem Removing.expire (auth : Auth) (now : ℕ) : Keeps I (Screen.expire auth now) := by
  refine .get_bind fun d hd => ?_
  have hloop : Keeps I (forM (d.ids fun a => a.deadline ≤ now || !auth a.client) Screen.remove) :=
    Keeps.forM fun id _ => h.remove id
  exact hloop.strengthen fun s hs => hs ▸ hd

theorem Removing.disconnect (connection : ℕ) : Keeps I (Screen.disconnect connection) := by
  refine .get_bind fun d hd => ?_
  have hloop : Keeps I (forM (d.ids fun a => a.connection = connection) Screen.remove) :=
    Keeps.forM fun id _ => h.remove id
  exact hloop.strengthen fun s hs => hs ▸ hd

theorem Removing.authorize (auth : Auth) (connection : ℕ) (id : String) (now : ℕ) :
    Triple I (Screen.authorize auth connection id now) (fun _ d => I d ∧ d.poisoned = false) I := by
  refine .bind (h.expire auth now) fun _ => .get_bind fun d hd => ?_
  have hkept : ∀ s, s = d → I s := fun s hs => hs ▸ hd
  refine .require_bind (fun a _ => ?_) hkept
  refine .ensure_bind (fun _ => .ensure_bind (fun hp => ?_) hkept) hkept
  exact .pure fun s hs => hs ▸ ⟨hd, hp⟩

theorem Removing.detach (auth : Auth) (connection : ℕ) (id : String) (now : ℕ) :
    Keeps I (Screen.detach auth connection id now) :=
  .bind (h.authorize auth connection id now) fun _ => (h.remove id).strengthen fun _ hs => hs.1

end

section
variable {I J : Desktop → Prop} (h : Quiet I J)
include h
variable (auth : Auth) (connection : ℕ) (id : String)

theorem Quiet.attach (admitted : Bool) (connection : ℕ) (client : String)
    (keyboardMode : DesktopKeyboardMode) (now : ℕ) :
    Keeps I (Screen.attach auth admitted connection client keyboardMode now) := by
  refine .bind (h.expire auth now) fun _ => .ensure_bind (fun _ => ?_) fun s hs => hs
  refine .get_bind fun d hd => ?_
  have hkept : ∀ s, s = d → I s := fun s hs => hs ▸ hd
  refine .ensure_bind (fun hp => .ensure_bind (fun _ => ?_) hkept) hkept
  refine .ensure_bind (fun _ => .ensure_bind (fun _ => ?_) hkept) hkept
  have hdone : Triple I (pure ("desktop-" ++ toString (d.nextId + 1)) : Call String)
      (fun _ => I) I := .pure fun s hs => hs
  refine .modify_bind hdone fun s hs => ?_
  rw [hs]
  exact h.insert d _ hd hp rfl

theorem Quiet.renew (now : ℕ) :
    Keeps I (Screen.renew auth connection id now) :=
  .bind (h.authorize auth connection id now) fun _ => .modify fun s hs =>
    h.update s id _ hs.1 fun _ => rfl

theorem Quiet.setControl (now : ℕ)
    (action : DesktopControlAction) :
    Triple I (Screen.setControl auth connection id now action) (fun _ => J) I := by
  refine .bind (h.authorize auth connection id now) fun _ => .get_bind fun d hd => ?_
  have hkept : ∀ s, s = d → I s := fun s hs => hs ▸ hd.1
  have hsame : Triple (fun s => s = d) (pure () : Call Unit) (fun _ => J) I :=
    .pure fun s hs => h.weaken s (hkept s hs)
  have hacquire : Triple (fun s => s = d) (if d.holder = some id then (pure () : Call Unit) else do
      ensure (¬ (d.holder.isSome ∧ action = .Acquire)) .Busy
      Screen.acquire id) (fun _ => J) I := by
    refine .ite (fun _ => hsame) fun _ => .ensure_bind (fun _ => ?_) hkept
    exact (h.acquire id).strengthen fun s hs => hs ▸ hd
  cases action with
  | Release =>
    have hrelease := (h.releaseOf id).strengthen fun s (hs : s = d) => hs ▸ hd
    exact hrelease.weaken (fun _ s hs => h.weaken s hs.1) fun _ hs => hs
  | Acquire | Takeover => exact hacquire

theorem Quiet.configure (now epoch : ℕ)
    (viewports : List DesktopViewport) (budget : ℕ) :
    Keeps I (Screen.configure auth connection id now epoch viewports budget) := by
  refine .bind (h.authorize auth connection id now) fun _ => .get_bind fun d hd => ?_
  have hkept : ∀ s, s = d → I s := fun s hs => hs ▸ hd.1
  refine .ensure_bind (fun _ => .ensure_bind (fun _ => ?_) hkept) hkept
  cases collectViewports viewports ∅ 0 with
  | error e => exact .throw hkept
  | ok result =>
    refine .ensure_bind (fun _ => ?_) hkept
    exact .modify fun s hs => h.update s id _ (hkept s hs) fun _ => rfl

theorem Quiet.layoutChanged : Keeps I Screen.layoutChanged := by
  refine .get_bind fun d hd => ?_
  have hkept : ∀ s, s = d → I s := fun s hs => hs ▸ hd
  exact .ensure_bind (fun _ => .modify fun s hs => h.layout s (hkept s hs)) hkept

theorem Quiet.modifies (f : Attachment → Attachment)
    (hf : ∀ a, (f a).sequence = a.sequence) : Keeps I (modify fun d => d.update id f : Call Unit) :=
  .modify fun d hd => h.update d id f hd hf

end

section
variable {I J : Desktop → Prop} (h : Stable I J)
include h

theorem Stable.input (auth : Auth) (connection now : ℕ) (frame : DesktopInputFrame) :
    Keeps I (Screen.input auth connection now frame) := by
  refine .bind (h.authorize auth connection frame.attachId now) fun a => .get_bind fun d hd => ?_
  have hkept : ∀ s, s = d → I s := fun s hs => hs ▸ hd.1
  refine .ensure_bind (fun hholder => .ensure_bind (fun _ => ?_) hkept) hkept
  let Ready : Desktop → Prop := fun s => I s ∧ s.poisoned = false ∧ s.holder = some frame.attachId
  have hpoint : Triple Ready (admitPoint a frame.layoutEpoch frame.event) (fun _ => Ready) I :=
    (admitPoint_keeps Ready a _ _).weaken (fun _ _ hs => hs) fun _ hs => hs.1
  refine .modify_bind (.bind hpoint fun _ => h.deliver _ _ _) fun s hs => ?_
  obtain ⟨hh, hp, -⟩ := update_holder d frame.attachId fun a => { a with sequence := frame.sequence }
  rw [hs]
  exact ⟨h.number d _ _ hd.1, hp.trans hd.2, hh.trans hholder.1⟩

end

theorem Stable.and {I I' J J' : Desktop → Prop} (h : Stable I J) (h' : Stable I' J') :
    Stable (fun d => I d ∧ I' d) (fun d => J d ∧ J' d) where
  weaken d hd := ⟨h.weaken d hd.1, h'.weaken d hd.2⟩
  release := h.release.and h'.release
  releaseHeld := h.releaseHeld.and h'.releaseHeld
  erase d id hd hp := ⟨h.erase d id hd.1 hp, h'.erase d id hd.2 hp⟩
  insert d a hd hp ha := ⟨h.insert d a hd.1 hp ha, h'.insert d a hd.2 hp ha⟩
  update d id f hd hf := ⟨h.update d id f hd.1 hf, h'.update d id f hd.2 hf⟩
  number d id sequence hd := ⟨h.number d id sequence hd.1, h'.number d id sequence hd.2⟩
  layout d hd := ⟨h.layout d hd.1, h'.layout d hd.2⟩
  deliver keyboardMode event id :=
    ((h.deliver keyboardMode event id).and (h'.deliver keyboardMode event id)).strengthen
      fun _ hd => ⟨⟨hd.1.1, hd.2⟩, hd.1.2, hd.2⟩
  acquire id := ((h.acquire id).and (h'.acquire id)).strengthen
    fun _ hd => ⟨⟨hd.1.1, hd.2⟩, hd.1.2, hd.2⟩

/-- `I` is kept by each write of a release. -/
structure Releasing (I : Desktop → Prop) : Prop where
  sendRelease (d : Desktop) : I d → I { d with input := (d.input.send .ReleaseAll "").2 }
  poison (d : Desktop) : I d → I { d with poisoned := true }
  records (d : Desktop) (keys buttons : Finset ℕ) : I d →
    I { d with keys := keys, buttons := buttons }
  drop (d : Desktop) : I d → I { d with holder := none }
  epoch (d : Desktop) (epoch : ℕ) : I d → I { d with epoch := epoch }

/-- `I` is kept by each write of a release or of an event. -/
structure Framed (I : Desktop → Prop) : Prop where
  send (d : Desktop) (event : DesktopInputEvent) (id : String) : I d →
    I { d with input := (d.input.send event id).2 }
  poison (d : Desktop) : I d → I { d with poisoned := true }
  records (d : Desktop) (keys buttons : Finset ℕ) : I d →
    I { d with keys := keys, buttons := buttons }
  drop (d : Desktop) : I d → I { d with holder := none }
  epoch (d : Desktop) (epoch : ℕ) : I d → I { d with epoch := epoch }

theorem Framed.releasing {I : Desktop → Prop} (h : Framed I) : Releasing I :=
  ⟨fun d hd => h.send d _ _ hd, h.poison, h.records, h.drop, h.epoch⟩

section
variable {I : Desktop → Prop} (h : Releasing I)
include h

theorem Releasing.releaseHeld : Keeps I Screen.releaseHeld := by
  have hsend : Keeps I (send .ReleaseAll "") := by
    intro d hd
    rw [send_eq]
    exact h.sendRelease d hd
  refine .bind hsend fun sent => .ite (fun _ => ?_) fun _ => ?_
  · exact .modify fun s hs => h.records s ∅ ∅ hs
  · exact .modify_bind (.throw fun s hs => hs) fun s hs => h.poison s hs

theorem Releasing.release : Keeps I Screen.release := by
  refine .modify_bind (.get_bind fun d hd => ?_) fun s hs => h.drop s hs
  refine .ite (fun _ => ?_) fun _ => ?_
  · exact .modify_bind h.releaseHeld fun s hs => h.epoch s _ (hs ▸ hd)
  · exact .modify_bind (.throw fun s hs => hs) fun s hs => h.poison s (hs ▸ hd)

end

theorem admitEvent_keeps {I : Desktop → Prop}
    (records : ∀ d keys buttons, I d → I { d with keys := keys, buttons := buttons })
    (keyboardMode : DesktopKeyboardMode) (event : DesktopInputEvent) :
    Keeps I (admitEvent keyboardMode event) := by
  refine .get_bind fun d hd => ?_
  have hkept : ∀ s, s = d → I s := fun s hs => hs ▸ hd
  have hrecord : ∀ p down, Triple (fun s => s = d) (modify fun d => d.record p down : Call Unit)
      (fun _ => I) I := by
    refine fun p down => .modify fun s hs => ?_
    cases p with
    | key usage => exact records s _ s.buttons (hkept s hs)
    | button button => exact records s s.keys _ (hkept s hs)
  cases event with
  | PhysicalKey usage down repeats | Button viewportId x y button down =>
    exact .ensure_bind (fun _ => hrecord _ _) hkept
  | ReleaseAll => exact .modify fun s hs => records s ∅ ∅ (hkept s hs)
  | Composition text selectionStart selectionEnd | RelativePointer dx dy | Feedback =>
    exact .throw hkept
  | AbsolutePointer viewportId x y => exact .pure hkept
  | TextCommit text => exact .ensure (fun s hs _ => hkept s hs) fun s hs _ => hkept s hs
  | Wheel viewportId x y dx dy unit =>
    exact .ensure (fun s hs _ => hkept s hs) fun s hs _ => hkept s hs

section
variable {I : Desktop → Prop} (h : Framed I)
include h

theorem Framed.sendKeeps (event : DesktopInputEvent) (id : String) :
    Keeps I (Screen.send event id) := by
  intro d hd
  rw [send_eq]
  exact h.send d event id hd

theorem Framed.releaseHeld : Keeps I Screen.releaseHeld := h.releasing.releaseHeld

theorem Framed.release : Keeps I Screen.release := h.releasing.release

theorem Framed.deliver (keyboardMode : DesktopKeyboardMode) (event : DesktopInputEvent)
    (id : String) : Keeps I (Screen.deliver keyboardMode event id) := by
  refine .bind (admitEvent_keeps h.records _ _) fun _ => .bind (h.sendKeeps _ _) fun sent => ?_
  refine .ite (fun _ => .pure fun s hs => hs) fun _ => ?_
  have hthrow : Triple I (throw .Backend : Call Unit) (fun _ => I) I := .throw fun s hs => hs
  exact .bind (.attempt h.release) fun _ => hthrow

end

def Desktop.Linked (d : Desktop) : Prop := d.input.generation = d.backendGeneration

/-- `I` of the state machine of the runtime. -/
def On (I : Desktop → Prop) (r : Runtime) : Prop := I r.desktop

theorem onDesktop_on {α : Type} {P E : Desktop → Prop} {Q : α → Desktop → Prop} {x : Call α}
    (h : Triple P x Q E) :
    Triple (On P) (onDesktop x) (fun a r => Q a r.desktop) (On E) :=
  .zoom (fun _ _ => h) (fun _ hr => hr) (fun _ _ _ _ hq => hq) fun _ _ _ he => he

theorem Quiet.relayout {I J : Desktop → Prop} (h : Quiet I J) : Keeps (On I) Screen.relayout := by
  have hheld : Keeps I releaseIfHeld := by
    refine .get_bind fun d hd => .ite (fun _ => ?_) fun _ => .pure fun s hs => hs ▸ hd
    exact h.releaseHeld.strengthen fun s hs => hs ▸ hd
  refine .bind (onDesktop_on hheld) fun _ => ?_
  exact .bind (onDesktop_on h.layoutChanged) fun _ => .modify fun _ hr => hr

section
variable {I I' J K : Desktop → Prop} (h : Quiet I' J)
  (enter : ∀ d, I d → d.Linked → I' d) (leave : ∀ d, J d → K d) (stay : ∀ d, I d → K d)
include h enter leave stay

theorem mutate_on {x : Work Unit} (hx : Triple (On I') x (fun _ => On J) (On I')) :
    Triple (On I) (mutate x) (fun _ => On K) (On K) := by
  refine .get_bind fun r hr => .ensure_bind (fun hlinked => ?_) fun s hs => hs ▸ stay _ hr
  have hfence := hx.strengthen fun s (hs : s = r) => hs ▸ enter r.desktop hr hlinked
  refine .finish hfence (fun _ s hs => leave s.desktop hs) fun s hs => leave s.desktop ?_
  exact h.weaken s.desktop hs

theorem mutate_keeps {x : Call Unit} (hx : Keeps I' x) :
    Triple (On I) (mutate (onDesktop x)) (fun _ => On K) (On K) := by
  refine mutate_on h enter leave stay ?_
  exact (onDesktop_on hx).weaken (fun _ r hr => h.weaken r.desktop hr) fun _ hr => hr

theorem keeps_refreshLayout (displays : List DesktopDisplay) :
    Triple (On I) (refreshLayout displays) (fun _ => On K) (On K) := by
  refine .get_bind fun r hr => .ite (fun _ => .pure fun s hs => hs ▸ stay _ hr) fun _ => ?_
  refine (mutate_on h enter leave stay ?_).strengthen fun s hs => hs ▸ hr
  refine .get_bind fun r hr => ?_
  have hsame : ∀ s, s = r → On J s := fun s hs => hs ▸ h.weaken _ hr
  refine .ite (fun _ => .pure hsame) fun _ => .ite (fun _ => ?_) fun _ => ?_
  · refine .bind (h.relayout.strengthen fun s hs => hs ▸ hr) fun _ => ?_
    exact .modify fun s hs => h.weaken s.desktop hs
  · exact .modify fun s hs => hs ▸ h.weaken _ hr

theorem keeps_configure (auth : Auth) (connection now : ℕ)
    (request : ConfigureDesktopViewportsReq) (serverOwned : Bool) (rejected : Option Error) :
    Triple (On I) (configureImpl auth connection now request serverOwned rejected)
      (fun _ => On K) (On K) := by
  refine mutate_on h enter leave stay ?_
  have hauth := onDesktop_on ((h.authorize auth connection request.attachId now).weaken
    (fun _ _ hd => hd.1) fun _ hd => hd)
  refine .bind hauth fun a => .ensure_bind (fun _ => ?_) fun _ hr => hr
  cases rejected with
  | some e => exact .throw fun _ hr => hr
  | none =>
    refine .get_bind fun r hr => .ensure_bind (fun _ => ?_) fun s hs => hs ▸ hr
    have hconfigure := onDesktop_on (h.configure auth connection request.attachId now
      request.layoutEpoch request.viewports request.totalBitrate)
    have hupdate := onDesktop_on (h.modifies request.attachId (fun a =>
      { a with serverViewports := serverOwned }) fun _ => rfl)
    refine .modify_bind (.bind hconfigure fun _ => .bind hupdate fun _ => ?_) ?_
    · exact .modify fun s hs => h.weaken s.desktop hs
    · exact fun s hs => hs ▸ hr

theorem keeps_feedback (number : ∀ d id sequence, I' d →
      I' (d.update id fun a => { a with sequence := sequence })) (auth : Auth)
    (connection now : ℕ) (frame : DesktopInputFrame)
    {trackId codecEpoch groupId decodeMicros renderMicros queueDepth : ℕ} {keyframe : Bool}
    {objectId : Option ℕ} (hevent : frame.event = .Feedback trackId codecEpoch groupId decodeMicros
      renderMicros queueDepth keyframe objectId) :
    Triple (On I) (acceptInput auth connection now frame) (fun _ => On K) (On K) := by
  unfold acceptInput
  rw [hevent]
  refine mutate_on h enter leave stay ?_
  have hauth := onDesktop_on ((h.authorize auth connection frame.attachId now).weaken
    (fun _ _ hd => hd.1) fun _ hd => hd)
  refine .bind hauth fun a => .get_bind fun r hr => ?_
  have hkept : ∀ s, s = r → On I' s := fun s hs => hs ▸ hr
  refine .require_bind (fun config _ => .ensure_bind (fun _ => ?_) hkept) hkept
  refine .ensure_bind (fun _ => .ensure_bind (fun _ => ?_) hkept) hkept
  have hnumber : Keeps I' (modify fun d => d.update frame.attachId fun a =>
      { a with sequence := frame.sequence } : Call Unit) := .modify fun d hd => number d _ _ hd
  exact ((onDesktop_on hnumber).strengthen hkept).weaken (fun _ s hs => h.weaken s.desktop hs)
    fun _ hs => hs

theorem keeps_cleanup (n : ℕ) : Triple (On I) (cleanup n) (fun _ => On K) (On K) := by
  refine .get_bind fun r hr => ?_
  have hset : ∀ g, Keeps (On K) (setGuard n g) := fun g => .modify fun _ hs => hs
  have hkept : ∀ s, s = r → On K s := fun s hs => hs ▸ stay _ hr
  cases r.guards n with
  | none => exact .pure hkept
  | some g =>
    obtain ⟨id, epoch, phase⟩ := g
    cases phase with
    | reading => exact .pure hkept
    | dropped =>
      have hcontrol : Keeps I' (releaseControl id epoch) := by
        refine .get_bind fun d hd => .ite (fun _ => ?_) fun _ => .pure fun s hs => hs ▸ hd
        exact h.release.strengthen fun s hs => hs ▸ hd
      have hrelease := mutate_keeps h enter leave stay hcontrol
      exact .bind (.attempt (hrelease.strengthen fun s (hs : s = r) => hs ▸ hr)) fun _ => hset _
    | cleaned => exact .modify_bind (hset none) hkept

theorem quiet_keeps (lose : ∀ d releases, I d → I { d with input := d.input.lose releases })
    (a : Action) (hi : ∀ auth connection now frame, a ≠ .acceptInput auth connection now frame)
    (ha : ∀ admitted result, a ≠ .reconcile admitted result) :
    Triple (On I) a.run (fun _ => On K) (On K) := by
  cases a with
  | attach auth admitted connection client keyboardMode now profile =>
    refine mutate_keeps h enter leave stay ?_
    exact .bind (h.attach auth admitted connection client keyboardMode now) fun id =>
      h.modifies id _ fun _ => rfl
  | setControl auth connection id now action =>
    exact mutate_on h enter leave stay (onDesktop_on (h.setControl auth connection id now action))
  | acceptInput auth connection now frame => exact absurd rfl (hi auth connection now frame)
  | renew auth connection id now =>
    exact mutate_keeps h enter leave stay (h.renew auth connection id now)
  | detach auth connection id now =>
    exact mutate_keeps h enter leave stay (h.detach auth connection id now)
  | close connection => exact mutate_keeps h enter leave stay (h.disconnect connection)
  | remove id => exact mutate_keeps h enter leave stay (h.remove id)
  | expire auth now => exact mutate_keeps h enter leave stay (h.expire auth now)
  | authorize auth connection id now =>
    refine mutate_keeps h enter leave stay (.bind (h.authorize auth connection id now) fun _ => ?_)
    exact .pure fun _ hs => hs.1
  | configure auth connection now request serverOwned rejected =>
    exact keeps_configure h enter leave stay auth connection now request serverOwned rejected
  | refreshLayout displays => exact keeps_refreshLayout h enter leave stay displays
  | reconcile admitted result => exact absurd rfl (ha admitted result)
  | lose releases =>
    have hlose : Triple I (modify fun d => { d with input := d.input.lose releases } : Call Unit)
        (fun _ => I) I := .modify fun d hd => lose d releases hd
    exact (onDesktop_on hlose).weaken (fun _ r hr => stay r.desktop hr) fun r hr => stay r.desktop hr
  | beginInput n id =>
    refine .get_bind fun r hr => .ensure_bind (fun _ => ?_) fun s hs => hs ▸ stay _ hr
    have hset : Triple (On K) (setGuard n (some ⟨id, r.desktop.epoch, .reading⟩)) (fun _ => On K)
        (On K) := .modify fun _ hs => hs
    exact .modify_bind hset fun s hs => hs ▸ stay _ hr
  | dropGuard n complete =>
    refine .get_bind fun r hr => ?_
    have hkept : ∀ s, s = r → On K s := fun s hs => hs ▸ stay _ hr
    have hset : ∀ g, Keeps (On K) (setGuard n g) := fun g => .modify fun _ hs => hs
    cases r.guards n with
    | none => exact .pure hkept
    | some g =>
      obtain ⟨id, epoch, phase⟩ := g
      cases phase with
      | reading =>
        refine .ite (fun _ => ?_) fun _ => (hset _).strengthen hkept
        exact .modify_bind (hset none) hkept
      | dropped | cleaned => exact .pure hkept
  | cleanup n => exact keeps_cleanup h enter leave stay n

end

section
variable {I I' J K : Desktop → Prop} (h : Stable I' J)
  (enter : ∀ d, I d → d.Linked → I' d) (leave : ∀ d, J d → K d) (stay : ∀ d, I d → K d)
include h enter leave stay

theorem keeps_acceptInput (auth : Auth) (connection now : ℕ) (frame : DesktopInputFrame) :
    Triple (On I) (acceptInput auth connection now frame) (fun _ => On K) (On K) := by
  cases hevent : frame.event with
  | Feedback trackId codecEpoch groupId decodeMicros renderMicros queueDepth keyframe objectId =>
    exact keeps_feedback h.toQuiet enter leave stay h.number auth connection now frame hevent
  | _ =>
    unfold acceptInput
    rw [hevent]
    exact mutate_keeps h.toQuiet enter leave stay (h.input auth connection now frame)

theorem action_keeps (lose : ∀ d releases, I d → I { d with input := d.input.lose releases })
    (a : Action) (ha : ∀ admitted result, a ≠ .reconcile admitted result) :
    Triple (On I) a.run (fun _ => On K) (On K) := by
  by_cases hi : ∃ auth connection now frame, a = .acceptInput auth connection now frame
  · obtain ⟨auth, connection, now, frame, rfl⟩ := hi
    exact keeps_acceptInput h enter leave stay auth connection now frame
  · refine quiet_keeps h.toQuiet enter leave stay lose a ?_ ha
    exact fun auth connection now frame he => hi ⟨auth, connection, now, frame, he⟩

end

theorem recover_eq (d : Desktop) (result : SendResult) : exec (recover result) d =
    ((d.input.recover result).1, { d with input := (d.input.recover result).2 }) := by
  unfold recover
  rw [exec_bind, exec_get]
  dsimp only
  rw [exec_bind, exec_modify]
  dsimp only
  cases (d.input.recover result).1 with
  | ok generation | error e => rfl

theorem adapterRecover_cases (a : Adapter) (result : SendResult) :
    ((a.recover result).2.held = a.held ∨ (a.recover result).2.held = ∅) ∧
      (a.recover result).2.generation = a.generation ∧
      ((a.recover result).2.ready = true → a.ready = true ∨ (a.recover result).2.held = ∅) ∧
      ∀ generation, (a.recover result).1 = .ok generation →
        generation = a.generation ∧ (a.recover result).2.ready = true := by
  unfold Adapter.recover
  cases hr : a.ready <;> cases result with
  | sent => simp [hr]
  | failed effective => cases effective <;> simp [hr]

section
variable {I K : Desktop → Prop} (stay : ∀ d, I d → K d)
  (hrecover : ∀ d result, I d → I { d with input := (d.input.recover result).2 })
  (hepoch : ∀ d epoch layoutEpoch, I d → I { d with epoch := epoch, layoutEpoch := layoutEpoch })
  (hrenew : ∀ d, I d → ¬ d.Linked → d.input.ready = true → K (d.renewed d.input.generation))
include stay hrecover hepoch hrenew

theorem reconcile_on (admitted : Bool) (result : SendResult) :
    Triple (On I) (reconcileBackend admitted result) (fun _ => On K) (On K) := by
  have hrecovered : Triple I (recover result)
      (fun generation d => I d ∧ d.input.generation = generation ∧ d.input.ready = true) I := by
    intro d hd
    rw [recover_eq]
    have hkept := hrecover d result hd
    obtain ⟨-, hgeneration, -, hok⟩ := adapterRecover_cases d.input result
    cases hr : (d.input.recover result).1 with
    | ok generation => exact ⟨hkept, hgeneration.trans (hok generation hr).1.symm, (hok generation hr).2⟩
    | error e => exact hkept
  have hdesktop := (onDesktop_on hrecovered).weaken (fun _ _ hr => hr) fun r hr => stay r.desktop hr
  have hstay : ∀ r, On I r → On K r := fun r hr => stay r.desktop hr
  refine .ensure_bind (fun _ => ?_) hstay
  refine .bind (hdesktop.strengthen fun _ hr => hr) fun generation => .get_bind fun r hr => ?_
  obtain ⟨hkept, hgeneration, hready⟩ := hr
  have hsame : ∀ s, s = r → On K s := fun s hs => hs ▸ stay _ hkept
  refine .ite (fun hne => ?_) fun _ => .pure hsame
  have hlinked : ¬ r.desktop.Linked := fun hl => hne (hl.symm.trans hgeneration)
  let Moved : Desktop → Prop := fun d =>
    ∃ epoch layoutEpoch, d = { r.desktop with epoch := epoch, layoutEpoch := layoutEpoch }
  have hmoved : ∀ s, On Moved s → On K s := by
    intro s hs
    obtain ⟨epoch, layoutEpoch, hs⟩ := hs
    show K s.desktop
    rw [hs]
    exact stay _ (hepoch _ _ _ hkept)
  have hrenewed : ∀ d, Moved d → K (d.renewed generation) := by
    intro d hd
    obtain ⟨epoch, layoutEpoch, rfl⟩ := hd
    rw [← hgeneration]
    exact hrenew _ (hepoch _ _ _ hkept) hlinked hready
  have hmove : ∀ f : Desktop → Desktop, (∀ d, Moved d → Moved (f d)) →
      Triple (On Moved) (onDesktop (modify f)) (fun _ => On Moved) (On K) := by
    intro f hf
    have hf' : Keeps Moved (modify f : Call Unit) := .modify hf
    exact (onDesktop_on hf').weaken (fun _ _ hs => hs) hmoved
  have hepoch' := hmove (fun d => { d with epoch := d.epoch + 1 }) (by
    intro d hd
    obtain ⟨epoch, layoutEpoch, rfl⟩ := hd
    exact ⟨epoch + 1, layoutEpoch, rfl⟩)
  have hlayout' := hmove (fun d => { d with layoutEpoch := d.layoutEpoch + 1 }) (by
    intro d hd
    obtain ⟨epoch, layoutEpoch, rfl⟩ := hd
    exact ⟨epoch, layoutEpoch + 1, rfl⟩)
  have hnew : Triple Moved (modify fun d => d.renewed generation : Call Unit) (fun _ => K) K :=
    .modify hrenewed
  refine .ensure_bind (fun _ => .bind (hepoch'.strengthen ?_) fun _ => ?_) hsame
  · exact fun s hs => hs ▸ ⟨r.desktop.epoch, r.desktop.layoutEpoch, rfl⟩
  refine .ensure_bind (fun _ => .bind hlayout' fun _ => ?_) hmoved
  exact .bind (onDesktop_on hnew) fun _ => .modify fun _ hs => hs

end

theorem step_keeps {I I' J K : Desktop → Prop} (h : Stable I' J) (enter : ∀ d, I d → d.Linked → I' d)
    (leave : ∀ d, J d → K d) (stay : ∀ d, I d → K d)
    (lose : ∀ d releases, I d → I { d with input := d.input.lose releases })
    (hrecover : ∀ d result, I d → I { d with input := (d.input.recover result).2 })
    (hepoch : ∀ d epoch layoutEpoch, I d → I { d with epoch := epoch, layoutEpoch := layoutEpoch })
    (hrenew : ∀ d, I d → ¬ d.Linked → d.input.ready = true → K (d.renewed d.input.generation))
    (r : Runtime) (a : Action) (hr : I r.desktop) : K (r.step a).desktop := by
  by_cases ha : ∃ admitted result, a = .reconcile admitted result
  · obtain ⟨admitted, result, rfl⟩ := ha
    exact Triple.of_exec (reconcile_on stay hrecover hepoch hrenew admitted result) r hr
  · have hne : ∀ admitted result, a ≠ .reconcile admitted result :=
      fun admitted result he => ha ⟨admitted, result, he⟩
    exact Triple.of_exec (action_keeps h enter leave stay lose a hne) r hr

end Rieul.Screen
