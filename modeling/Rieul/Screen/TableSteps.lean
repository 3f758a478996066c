import Rieul.Screen.InputSequence
import Rieul.Screen.Tables

/-!
# What the sections of the runtime leave

Every section under the lock of the attachments ends with the same sweep.
-/

namespace Rieul.Screen.Tables
open Stateful Ipc Quality

/-- From `d` to `t` only attachments with `p` have ended. -/
structure Ended (p : Attachment → Prop) (d t : Desktop) : Prop where
  nextId : t.nextId = d.nextId
  layoutEpoch : t.layoutEpoch = d.layoutEpoch
  attachments (id : String) : t.attachments.lookup id = d.attachments.lookup id ∨
    t.attachments.lookup id = none ∧ ∃ a, d.attachments.lookup id = some a ∧ p a

def Over (auth later : Auth) (now : ℕ) (a : Attachment) : Prop :=
  a.deadline ≤ now ∨ auth a.client = false ∨ later a.client = false

variable {α : Type} {r s : Runtime} (p : Attachment → Prop) (d : Desktop)

theorem Ended.refl : Ended p d d :=
  ⟨rfl, rfl, fun _ => .inl rfl⟩

theorem Ended.trans {p : Attachment → Prop} {d t u : Desktop} (h : Ended p d t)
    (h' : Ended p t u) : Ended p d u := by
  refine ⟨h'.nextId.trans h.nextId, h'.layoutEpoch.trans h.layoutEpoch, fun id => ?_⟩
  rcases h.attachments id with hsame | ⟨hnone, hold⟩
  · rcases h'.attachments id with hsame' | ⟨hnone', a, ha, hp⟩
    · exact .inl (hsame'.trans hsame)
    · exact .inr ⟨hnone', a, hsame ▸ ha, hp⟩
  · rcases h'.attachments id with hsame' | ⟨hnone', -⟩
    · exact .inr ⟨hsame'.trans hnone, hold⟩
    · exact .inr ⟨hnone', hold⟩

theorem releasing_ended : Releasing (Ended p d) where
  sendRelease _ h := ⟨h.nextId, h.layoutEpoch, h.attachments⟩
  poison _ h := ⟨h.nextId, h.layoutEpoch, h.attachments⟩
  records _ _ _ h := ⟨h.nextId, h.layoutEpoch, h.attachments⟩
  drop _ h := ⟨h.nextId, h.layoutEpoch, h.attachments⟩
  epoch _ _ h := ⟨h.nextId, h.layoutEpoch, h.attachments⟩

theorem ended_remove (id : String)
    (hid : ∀ a, d.attachments.lookup id = some a → p a) :
    Keeps (Ended p d) (Screen.remove id) := by
  have hrelease : Keeps (Ended p d) (releaseOf id) := by
    refine .get_bind fun t ht => .ite (fun _ => ?_) fun _ => .pure fun s hs => hs ▸ ht
    exact (releasing_ended p d).release.strengthen fun s hs => hs ▸ ht
  refine .get_bind fun t ht => .ensure_bind (fun _ => ?_) fun s hs => hs ▸ ht
  refine .bind (hrelease.strengthen fun s hs => hs ▸ ht) fun _ => .modify fun s hs => ?_
  refine ⟨hs.nextId, hs.layoutEpoch, fun other => ?_⟩
  by_cases ho : other = id
  · subst ho
    have hnone := AList.lookup_erase other s.attachments
    cases ha : d.attachments.lookup other with
    | none => exact .inl hnone
    | some a => exact .inr ⟨hnone, a, rfl, hid a ha⟩
  · have hsame := AList.lookup_erase_ne (s := s.attachments) ho
    exact (hs.attachments other).imp (hsame.trans ·) fun h => ⟨hsame.trans h.1, h.2⟩

theorem mem_ids (p : Attachment → Bool) (id : String) (h : id ∈ d.ids p)
    (a : Attachment) (ha : d.attachments.lookup id = some a) : p a = true := by
  have hmem := List.mem_filter.1 ((List.mem_insertionSort _).1 h)
  have hany := hmem.2
  rw [ha] at hany
  exact hany

variable (auth : Auth)

theorem ended_expire (now : ℕ) (p : Attachment → Prop) (d : Desktop)
    (hp : ∀ a : Attachment, a.deadline ≤ now ∨ auth a.client = false → p a) :
    Triple (fun t => t = d) (Screen.expire auth now) (fun _ => Ended p d) (Ended p d) := by
  refine .get_bind fun t ht => ?_
  subst ht
  have hloop : Keeps (Ended p t) (forM (t.ids fun a => a.deadline ≤ now || !auth a.client)
      Screen.remove) := by
    refine Keeps.forM fun id hid => ended_remove p t id fun a ha => hp a ?_
    simpa using mem_ids t _ id hid a ha
  refine hloop.strengthen fun s hs => ?_
  rw [hs]
  exact .refl p t

theorem ended_authorize (connection now : ℕ) (id : String) (p : Attachment → Prop)
    (d : Desktop) (hp : ∀ a : Attachment, a.deadline ≤ now ∨ auth a.client = false → p a) :
    Triple (fun t => t = d) (Screen.authorize auth connection id now)
      (fun a t => Ended p d t ∧ t.attachments.lookup id = some a) (Ended p d) := by
  refine .bind (ended_expire auth now p d hp) fun _ => .get_bind fun t ht => ?_
  have hkept : ∀ s, s = t → Ended p d s := fun s hs => hs ▸ ht
  refine .require_bind (fun a ha => ?_) hkept
  refine .ensure_bind (fun _ => .ensure_bind (fun _ => ?_) hkept) hkept
  exact .pure fun s hs => hs ▸ ⟨ht, ha⟩

/-- The attachments of `t` were there with their viewports, or are new. -/
structure Left (d t : Desktop) : Prop where
  nextId : d.nextId ≤ t.nextId
  layoutEpoch : t.layoutEpoch = d.layoutEpoch
  attachments (id : String) (a : Attachment) : t.attachments.lookup id = some a →
    (∃ b, d.attachments.lookup id = some b ∧ a.viewports = b.viewports) ∨
    ∃ n, d.nextId < n ∧ n ≤ t.nextId ∧ id = attachName n

theorem Left.refl : Left d d :=
  ⟨le_rfl, rfl, fun _ a ha => .inl ⟨a, ha, rfl⟩⟩

theorem Ended.left {p : Attachment → Prop} {d t : Desktop} (h : Ended p d t) : Left d t := by
  refine ⟨h.nextId.ge, h.layoutEpoch, fun id a ha => .inl ?_⟩
  rcases h.attachments id with hsame | ⟨hnone, -⟩
  · exact ⟨a, hsame ▸ ha, rfl⟩
  · rw [hnone] at ha
    cases ha

theorem framed_left : Framed (Left d) where
  send _ _ _ h := ⟨h.nextId, h.layoutEpoch, h.attachments⟩
  poison _ h := ⟨h.nextId, h.layoutEpoch, h.attachments⟩
  records _ _ _ h := ⟨h.nextId, h.layoutEpoch, h.attachments⟩
  drop _ h := ⟨h.nextId, h.layoutEpoch, h.attachments⟩
  epoch _ _ h := ⟨h.nextId, h.layoutEpoch, h.attachments⟩

theorem left_erase (d t : Desktop) (id : String) (h : Left d t) :
    Left d { t with attachments := t.attachments.erase id } := by
  refine ⟨h.nextId, h.layoutEpoch, fun other a ha => ?_⟩
  by_cases ho : other = id
  · subst ho
    rw [AList.lookup_erase] at ha
    cases ha
  · rw [AList.lookup_erase_ne ho] at ha
    exact h.attachments other a ha

theorem left_removing : Removing (Left d) where
  release := (framed_left d).release
  erase t id h _ := left_erase d t id h

theorem update_fields (id : String) (f : Attachment → Attachment) :
    (d.update id f).nextId = d.nextId ∧ (d.update id f).layoutEpoch = d.layoutEpoch := by
  unfold Desktop.update
  cases d.attachments.lookup id with
  | none | some a => exact ⟨rfl, rfl⟩

theorem left_update (d t : Desktop) (id : String) (f : Attachment → Attachment)
    (hf : ∀ a, (f a).viewports = a.viewports) (h : Left d t) : Left d (t.update id f) := by
  obtain ⟨hnext, hlayout⟩ := update_fields t id f
  refine ⟨hnext ▸ h.nextId, hlayout.trans h.layoutEpoch, fun other a ha => ?_⟩
  rw [lookup_update] at ha
  rw [hnext]
  by_cases ho : other = id
  · rw [if_pos ho] at ha
    obtain ⟨b, hb, rfl⟩ := Option.map_eq_some_iff.1 ha
    rw [hf]
    exact h.attachments other b (ho ▸ hb)
  · rw [if_neg ho] at ha
    exact h.attachments other a ha

theorem left_insert (d t : Desktop) (a : Attachment) (h : Left d t) :
    Left d { t with
      nextId := t.nextId + 1
      attachments := t.attachments.insert ("desktop-" ++ toString (t.nextId + 1)) a } := by
  have hnext := h.nextId
  refine ⟨Nat.le_succ_of_le hnext, h.layoutEpoch, fun id b hb => ?_⟩
  rw [Table.lookup_insert_eq] at hb
  by_cases hid : id = "desktop-" ++ toString (t.nextId + 1)
  · exact .inr ⟨t.nextId + 1, Nat.lt_succ_of_le hnext, le_rfl, hid⟩
  · rw [if_neg hid] at hb
    refine (h.attachments id b hb).imp_right fun hnew => ?_
    obtain ⟨n, hlt, hle, hname⟩ := hnew
    exact ⟨n, hlt, Nat.le_succ_of_le hle, hname⟩

theorem left_attach (admitted : Bool) (connection : ℕ)
    (client : String) (keyboardMode : DesktopKeyboardMode) (now : ℕ) :
    Keeps (Left d) (Screen.attach auth admitted connection client keyboardMode now) := by
  refine .bind ((left_removing d).expire auth now) fun _ => .ensure_bind (fun _ => ?_)
    fun s hs => hs
  refine .get_bind fun t ht => ?_
  have hkept : ∀ s, s = t → Left d s := fun s hs => hs ▸ ht
  refine .ensure_bind (fun _ => .ensure_bind (fun _ => ?_) hkept) hkept
  refine .ensure_bind (fun _ => .ensure_bind (fun _ => ?_) hkept) hkept
  have hdone : Triple (Left d) (pure ("desktop-" ++ toString (t.nextId + 1)) : Call String)
      (fun _ => Left d) (Left d) := .pure fun s hs => hs
  refine .modify_bind hdone fun s hs => ?_
  rw [hs]
  exact left_insert d t _ ht

theorem left_renew (connection : ℕ) (id : String) (now : ℕ) :
    Keeps (Left d) (Screen.renew auth connection id now) := by
  refine .bind ((left_removing d).authorize auth connection id now) fun _ => .modify fun s hs => ?_
  exact left_update d s id _ (fun _ => rfl) hs.1

theorem left_setControl (connection : ℕ) (id : String) (now : ℕ)
    (action : DesktopControlAction) :
    Keeps (Left d) (Screen.setControl auth connection id now action) := by
  refine .bind ((left_removing d).authorize auth connection id now) fun _ =>
    .get_bind fun t ht => ?_
  have hkept : ∀ s, s = t → Left d s := fun s hs => hs ▸ ht.1
  have hrelease : Keeps (Left d) release := (framed_left d).release
  have hacquire : Triple (fun s => s = t) (if t.holder = some id then (pure () : Call Unit) else do
      ensure (¬ (t.holder.isSome ∧ action = .Acquire)) .Busy
      acquire id) (fun _ => Left d) (Left d) := by
    refine .ite (fun _ => .pure hkept) fun _ => .ensure_bind (fun _ => ?_) hkept
    refine .bind (hrelease.strengthen hkept) fun _ => .modify fun s hs => ?_
    exact ⟨hs.nextId, hs.layoutEpoch, hs.attachments⟩
  cases action with
  | Release =>
    refine .get_bind fun u hu => .ite (fun _ => ?_) fun _ => .pure fun s hs => hkept s (hs.trans hu)
    exact hrelease.strengthen fun s hs => hkept s (hs.trans hu)
  | Acquire | Takeover => exact hacquire

theorem left_releaseControl (id : String) (epoch : ℕ) :
    Keeps (Left d) (releaseControl id epoch) := by
  refine .get_bind fun t ht => .ite (fun _ => ?_) fun _ => .pure fun s hs => hs ▸ ht
  exact (framed_left d).release.strengthen fun s hs => hs ▸ ht

theorem left_input (connection now : ℕ) (frame : DesktopInputFrame) :
    Keeps (Left d) (Screen.input auth connection now frame) := by
  refine .bind ((left_removing d).authorize auth connection frame.attachId now) fun a =>
    .get_bind fun t ht => ?_
  have hkept : ∀ s, s = t → Left d s := fun s hs => hs ▸ ht.1
  refine .ensure_bind (fun _ => .ensure_bind (fun _ => ?_) hkept) hkept
  have hrest : Keeps (Left d) (do
      admitPoint a frame.layoutEpoch frame.event
      deliver a.keyboardMode frame.event frame.attachId) :=
    .bind (admitPoint_keeps _ _ _ _) fun _ => (framed_left d).deliver _ _ _
  exact .modify_bind hrest fun s hs => left_update d s _ _ (fun _ => rfl) (hkept s hs)

theorem onDesktop_eq (x : Call α) (r : Runtime) :
    exec (onDesktop x) r =
      ((exec x r.desktop).1, { r with desktop := (exec x r.desktop).2 }) := rfl

theorem quiet_state (x : Work α) (r : Runtime) : (exec (quiet x) r).2 = (exec x r).2 := by
  unfold quiet
  rw [exec_bind]
  rcases exec x r with ⟨answer, s⟩
  cases answer with
  | ok a | error e => rfl

theorem exec_mutate (x : Work α) (r : Runtime) : exec (mutate x) r = (.error .Backend, r) ∨
    exec (mutate x) r = ((exec x r).1, (exec x r).2.retain) := by
  unfold mutate
  rw [exec_bind, exec_get]
  dsimp only
  rw [exec_bind]
  by_cases hl : r.desktop.input.generation = r.desktop.backendGeneration
  · rw [ensure, if_pos hl]
    exact .inr rfl
  · rw [ensure, if_neg hl]
    exact .inl rfl

theorem mutate_triple {x : Work α} {r : Runtime} {Q : α → Runtime → Prop}
    {E : Runtime → Prop} (hx : Triple (fun s => s = r) x (fun a s => Q a s.retain)
      fun s => E s.retain) (hr : E r) :
    Triple (fun s => s = r) (mutate x) Q E := by
  refine .get_bind fun t ht => .ensure_bind (fun _ => ?_) fun s hs => (hs.trans ht) ▸ hr
  exact .finish (hx.strengthen fun s hs => hs.trans ht) (fun _ _ h => h) fun _ h => h

theorem live_iff (r : Runtime) (id : String) :
    r.live id = true ↔ ∃ a, r.desktop.attachments.lookup id = some a :=
  Option.isSome_iff_exists

theorem Left.live {r : Runtime} {d : Desktop} (h : Left r.desktop d) (id : String)
    (hid : { r with desktop := d }.live id = true) :
    r.live id = true ∨ ∃ n, r.desktop.nextId < n ∧ n ≤ d.nextId ∧ id = attachName n := by
  obtain ⟨a, ha⟩ := (live_iff _ id).1 hid
  refine (h.attachments id a ha).imp_left fun hold => ?_
  obtain ⟨b, hb, -⟩ := hold
  exact (live_iff r id).2 ⟨b, hb⟩

def Runtime.automatic (r : Runtime) :
    Option (String × Quality.DesktopConfiguration × DesktopQualityTarget) :=
  match r.operation with
  | some (.applying _ _ id config target _ false) => some (id, config, target)
  | _ => none

def Operation.config : Operation → Quality.DesktopConfiguration
  | .querying _ _ _ config _ => config
  | .setting _ _ _ config => config
  | .adjusting _ _ _ config => config
  | .applying _ _ _ config _ _ _ => config

def Readable (r : Runtime) (config : Quality.DesktopConfiguration) : Prop :=
  (∃ operation, r.operation = some operation ∧ operation.config = config) ∨
    config.tracks ≠ [] ∧ ∃ id, r.configurations.lookup id = some config

/-- The configurations and qualities of `s` were there before, their viewports too, nothing new was
received, and what was sent is timed; samples are lost only in a sweep. -/
structure Tame (swept : Bool) (r s : Runtime) : Prop where
  nextId : r.desktop.nextId ≤ s.desktop.nextId
  live (id : String) : s.live id = true → r.live id = true ∨
    ∃ n, r.desktop.nextId < n ∧ n ≤ s.desktop.nextId ∧ id = attachName n
  configurations (id : String) (config : Quality.DesktopConfiguration) :
    s.configurations.lookup id = some config → r.configurations.lookup id = some config ∧
      s.desktop.layoutEpoch = r.desktop.layoutEpoch ∧
      ∀ a, s.desktop.attachments.lookup id = some a →
        (∃ b, r.desktop.attachments.lookup id = some b ∧ a.viewports = b.viewports) ∨
        ∃ n, r.desktop.nextId < n ∧ n ≤ s.desktop.nextId ∧ id = attachName n
  nextCodecEpoch : r.nextCodecEpoch ≤ s.nextCodecEpoch
  quality (id : String) (state : Quality.State) :
    s.quality.lookup id = some state → r.quality.lookup id = some state
  received (key : String × ℕ) (sample : Sample) : s.samples.lookup key = some sample →
    sample.received = none ∨
    ∃ old, r.samples.lookup key = some old ∧ sample.received = old.received
  sent (key : String × ℕ) (sample : Sample) (sent : Sent) : s.samples.lookup key = some sample →
    sample.sent = some sent → sent.instant ≤ s.instant ∨
    ∃ old, r.samples.lookup key = some old ∧ old.sent = some sent
  kept (key : String × ℕ) (old : Sample) : r.samples.lookup key = some old →
    (swept = true → s.live key.1 = true) →
    ∃ sample, s.samples.lookup key = some sample ∧ sample.received = old.received
  automatic : s.automatic = none ∨ s.automatic = r.automatic
  operation (operation : Operation) :
    s.operation = some operation → Readable r operation.config
  instant : r.instant ≤ s.instant

theorem Tame.refl (r : Runtime) : Tame false r r where
  nextId := le_rfl
  live _ h := .inl h
  configurations _ _ h := ⟨h, rfl, fun a ha => .inl ⟨a, ha, rfl⟩⟩
  nextCodecEpoch := le_rfl
  quality _ _ h := h
  received _ sample h := .inr ⟨sample, h, rfl⟩
  sent _ sample _ h hsent := .inr ⟨sample, h, hsent⟩
  kept _ old h _ := ⟨old, h, rfl⟩
  automatic := .inr rfl
  operation operation h := .inl ⟨operation, h, rfl⟩
  instant := le_rfl

theorem Tame.swept {swept : Bool} (h : Tame swept r s) : Tame true r s where
  nextId := h.nextId
  live := h.live
  configurations := h.configurations
  nextCodecEpoch := h.nextCodecEpoch
  quality := h.quality
  received := h.received
  sent := h.sent
  kept key old hold hlive := h.kept key old hold fun _ => hlive rfl
  automatic := h.automatic
  operation := h.operation
  instant := h.instant

theorem Tame.desktop {d : Desktop} (h : Tame false r s) (hd : Left s.desktop d) :
    Tame false r { s with desktop := d } where
  nextId := h.nextId.trans hd.nextId
  live id hid := by
    rcases hd.live id hid with hold | ⟨n, hlt, hle, hname⟩
    · refine (h.live id hold).imp_right fun hnew => ?_
      obtain ⟨n, hlt, hle, hname⟩ := hnew
      exact ⟨n, hlt, hle.trans hd.nextId, hname⟩
    · exact .inr ⟨n, h.nextId.trans_lt hlt, hle, hname⟩
  configurations id config hc := by
    obtain ⟨hold, hlayout, hviewports⟩ := h.configurations id config hc
    refine ⟨hold, hd.layoutEpoch.trans hlayout, fun a ha => ?_⟩
    rcases hd.attachments id a ha with ⟨b, hb, hv⟩ | ⟨n, hlt, hle, hname⟩
    · rcases hviewports b hb with ⟨c, hc', hv'⟩ | ⟨n, hlt, hle, hname⟩
      · exact .inl ⟨c, hc', hv.trans hv'⟩
      · exact .inr ⟨n, hlt, hle.trans hd.nextId, hname⟩
    · exact .inr ⟨n, h.nextId.trans_lt hlt, hle, hname⟩
  nextCodecEpoch := h.nextCodecEpoch
  quality := h.quality
  received := h.received
  sent := h.sent
  kept key old hold _ := h.kept key old hold nofun
  automatic := h.automatic
  operation := h.operation
  instant := h.instant

theorem Tame.retain (h : Tame false r s) : Tame true r s.retain where
  nextId := h.nextId
  live := h.live
  configurations id config hc := h.configurations id config (Table.lookup_retain_some.1 hc).2
  nextCodecEpoch := h.nextCodecEpoch
  quality id state hs := h.quality id state (Table.lookup_retain_some.1 hs).2
  received key sample hs := h.received key sample (Table.lookup_retain_some.1 hs).2
  sent key sample sent hs := h.sent key sample sent (Table.lookup_retain_some.1 hs).2
  kept key old hold hlive := by
    obtain ⟨sample, hsample, hreceived⟩ := h.kept key old hold nofun
    exact ⟨sample, Table.lookup_retain_some.2 ⟨hlive rfl, hsample⟩, hreceived⟩
  automatic := h.automatic
  operation := h.operation
  instant := h.instant

/-- Only what no field of `Tame` looks at has changed, or an operation has ended. -/
theorem Tame.same {r s t : Runtime} {swept : Bool} (h : Tame swept r s)
    (hdesktop : t.desktop = s.desktop) (hconfigurations : t.configurations = s.configurations)
    (hquality : t.quality = s.quality) (hsamples : t.samples = s.samples)
    (hcodec : s.nextCodecEpoch ≤ t.nextCodecEpoch)
    (hoperation : t.operation = none ∨ t.operation = s.operation)
    (hinstant : s.instant ≤ t.instant) : Tame swept r t := by
  have hlive : ∀ id, t.live id = s.live id := fun id => by
    unfold Runtime.live
    rw [hdesktop]
  constructor
  · rw [hdesktop]
    exact h.nextId
  · intro id
    rw [hlive, hdesktop]
    exact h.live id
  · rw [hdesktop, hconfigurations]
    exact h.configurations
  · exact h.nextCodecEpoch.trans hcodec
  · rw [hquality]
    exact h.quality
  · rw [hsamples]
    exact h.received
  · rw [hsamples]
    exact fun key sample sent hs hsent =>
      (h.sent key sample sent hs hsent).imp_left fun hle => hle.trans hinstant
  · rw [hsamples]
    exact fun key old hold hkey => h.kept key old hold fun hswept => hlive _ ▸ hkey hswept
  · unfold Runtime.automatic
    rcases hoperation with hnone | hsame
    · rw [hnone]
      exact .inl rfl
    · rw [hsame]
      exact h.automatic
  · intro operation hop
    rcases hoperation with hnone | hsame
    · rw [hnone] at hop
      cases hop
    · exact h.operation operation (hsame ▸ hop)
  · exact h.instant.trans hinstant

theorem Tame.operate {swept : Bool} (h : Tame swept r s) (operation : Operation)
    (hautomatic : { s with operation := some operation }.automatic = none)
    (hconfig : Readable r operation.config) :
    Tame swept r { s with operation := some operation } where
  nextId := h.nextId
  live := h.live
  configurations := h.configurations
  nextCodecEpoch := h.nextCodecEpoch
  quality := h.quality
  received := h.received
  sent := h.sent
  kept := h.kept
  automatic := .inl hautomatic
  operation _ hop := by
    cases hop
    exact hconfig
  instant := h.instant

section
variable {r : Runtime}

theorem tame_call {α : Type} {x : Call α} (hx : ∀ d, Keeps (Left d) x) :
    Keeps (Tame false r) (onDesktop x) := by
  intro s hs
  rw [onDesktop_eq]
  have hd := (hx s.desktop).exec s.desktop (.refl _)
  cases (exec x s.desktop).1 with
  | ok a | error e => exact hs.desktop hd

theorem tame_mutate {α : Type} {x : Work α} (hx : Keeps (Tame false r) x) :
    Triple (Tame false r) (mutate x) (fun _ => Tame true r) (Tame true r) := by
  refine .get_bind fun t ht => .ensure_bind (fun _ => ?_) fun s hs => hs ▸ ht.swept
  refine .finish (hx.strengthen fun s hs => hs ▸ ht) (fun _ _ h => ?_) fun _ h => ?_
  · exact h.retain
  · exact h.retain

def Tames {α : Type} (r : Runtime) (x : Work α) : Prop :=
  Triple (Tame false r) x (fun _ => Tame true r) (Tame true r)

theorem tames_call {α : Type} {x : Call α} (hx : ∀ d, Keeps (Left d) x) :
    Tames r (mutate (onDesktop x)) :=
  tame_mutate (tame_call hx)

theorem tames_attach (auth : Auth) (admitted : Bool) (connection : ℕ) (client : String)
    (now : ℕ) (caps : DesktopCapabilities) (keyboardModeSupported : Bool)
    (request : AttachDesktopReq) :
    Tames r (attach auth admitted connection client now caps keyboardModeSupported request) := by
  have hswept : ∀ s, Tame false r s → Tame true r s := fun _ hs => hs.swept
  refine .ensure_bind (fun _ => .require_bind (fun selected _ => tame_mutate ?_) hswept) hswept
  refine .bind (tame_call fun d => left_attach d _ _ _ _ _ _) fun id => ?_
  have hprofile : ∀ d, Keeps (Left d) (modify fun d => d.update id fun a =>
      { a with profile := request.profile } : Call Unit) :=
    fun d => .modify fun t ht => left_update d t id _ (fun _ => rfl) ht
  refine .bind (tame_call hprofile) fun _ => ?_
  exact .modify_bind (.pure fun _ hs => hs) fun s hs =>
    hs.same rfl rfl rfl rfl le_rfl (.inr rfl) le_rfl

theorem left_releaseIfHeld (d : Desktop) : Keeps (Left d) releaseIfHeld := by
  refine .get_bind fun t ht => .ite (fun _ => ?_) fun _ => .pure fun s hs => hs ▸ ht
  exact (framed_left d).releaseHeld.strengthen fun s hs => hs ▸ ht

theorem Tame.cleared {r s : Runtime} (h : Tame false r s) (d : Desktop)
    (hnext : d.nextId = s.desktop.nextId)
    (hd : ∀ id a, d.attachments.lookup id = some a →
      ∃ b, s.desktop.attachments.lookup id = some b) :
    Tame false r { s with desktop := d, configurations := ∅ } where
  nextId := hnext ▸ h.nextId
  live id hid := by
    obtain ⟨a, ha⟩ := (live_iff _ id).1 hid
    have hold := h.live id ((live_iff s id).2 (hd id a ha))
    rw [← hnext] at hold
    exact hold
  configurations id config hc := by cases hc
  nextCodecEpoch := h.nextCodecEpoch
  quality := h.quality
  received := h.received
  sent := h.sent
  kept key old hold _ := h.kept key old hold nofun
  automatic := h.automatic
  operation := h.operation
  instant := h.instant

theorem tame_relayout : Keeps (Tame false r) relayout := by
  refine .bind (tame_call left_releaseIfHeld) fun _ => ?_
  let Changed : Runtime → Prop := fun s => ∃ t, Tame false r t ∧ s = { t with
    desktop := { t.desktop with
      layoutEpoch := t.desktop.layoutEpoch + 1
      attachments := clearViewports t.desktop.attachments } }
  have hlayout : Triple (Tame false r) (onDesktop layoutChanged) (fun _ => Changed)
      (Tame false r) := by
    intro s hs
    rw [onDesktop_eq]
    unfold layoutChanged
    rw [exec_bind, exec_get]
    dsimp only
    rw [exec_bind]
    by_cases hlimit : s.desktop.layoutEpoch + 1 ≤ maxSafe
    · rw [ensure, if_pos hlimit]
      exact ⟨s, hs, rfl⟩
    · rw [ensure, if_neg hlimit]
      exact hs
  refine .bind hlayout fun _ => .modify fun s hs => ?_
  obtain ⟨t, ht, rfl⟩ := hs
  refine ht.cleared _ rfl fun id a ha => ?_
  obtain ⟨b, hb, -⟩ := lookup_clearViewports t.desktop.attachments id a ha
  exact ⟨b, hb⟩

theorem tames_refreshLayout (displays : List DesktopDisplay) :
    Tames r (refreshLayout displays) := by
  refine .get_bind fun s hs => .ite (fun _ => .pure fun t ht => ht ▸ hs.swept) fun _ => ?_
  refine Triple.strengthen (tame_mutate ?_) fun t ht => ht ▸ hs
  refine .get_bind fun t ht => .ite (fun _ => .pure fun u hu => hu ▸ ht) fun _ => ?_
  have hset : Keeps (Tame false r)
      (modify fun r => { r with layoutDisplays := some displays } : Work Unit) :=
    .modify fun u hu => hu.same rfl rfl rfl rfl le_rfl (.inr rfl) le_rfl
  refine .ite (fun _ => ?_) fun _ => hset.strengthen fun u hu => hu ▸ ht
  exact (Triple.bind tame_relayout fun _ => hset).strengthen fun u hu => hu ▸ ht

theorem left_recover (d : Desktop) (result : SendResult) : Keeps (Left d) (recover result) := by
  intro t ht
  rw [recover_eq]
  cases (t.input.recover result).1 with
  | ok generation | error e => exact ⟨ht.nextId, ht.layoutEpoch, ht.attachments⟩

theorem Tame.renewed {r s : Runtime} (h : Tame false r s) (layoutEpoch generation : ℕ) :
    Tame true r ({ s with
      desktop := { s.desktop with layoutEpoch := layoutEpoch } }.renewed generation) where
  nextId := h.nextId
  live id hid := by
    obtain ⟨a, ha⟩ := (live_iff _ id).1 hid
    cases ha
  configurations id config hc := by cases hc
  nextCodecEpoch := h.nextCodecEpoch
  quality id state hs := by cases hs
  received key sample hs := by cases hs
  sent key sample sent hs := by cases hs
  kept key old hold hlive := by
    obtain ⟨a, ha⟩ := (live_iff _ _).1 (hlive rfl)
    cases ha
  automatic := h.automatic
  operation := h.operation
  instant := h.instant

theorem tames_reconcile (admitted : Bool) (result : SendResult) :
    Tames r (reconcileBackend admitted result) := by
  have hswept : ∀ s, Tame false r s → Tame true r s := fun _ hs => hs.swept
  refine .ensure_bind (fun _ => .get_bind fun s hs => ?_) hswept
  have hkept : ∀ t, t = s → Tame true r t := fun t ht => ht ▸ hs.swept
  refine .ensure_bind (fun _ => ?_) hkept
  have hrecover : Triple (fun t => t = s) (onDesktop (recover result))
      (fun _ => Tame false r) (Tame true r) :=
    ((tame_call fun d => left_recover d result).weaken (fun _ _ h => h) hswept).strengthen
      fun t ht => ht ▸ hs
  refine .bind hrecover fun generation => .get_bind fun t ht => ?_
  have hsame : ∀ u, u = t → Tame true r u := fun u hu => hu ▸ ht.swept
  refine .ite (fun _ => .ensure_bind (fun _ => ?_) hsame) fun _ => .pure hsame
  have hepoch : Triple (fun u => u = t)
      (onDesktop (modify fun d => { d with epoch := d.epoch + 1 })) (fun _ => Tame false r)
      (Tame true r) := by
    intro u hu
    rw [onDesktop_eq, hu]
    exact ht.desktop ((framed_left _).epoch _ _ (.refl _))
  refine .bind hepoch fun _ => .ensure_bind (fun _ => ?_) hswept
  intro u hu
  rw [exec_bind, onDesktop_eq]
  exact hu.renewed _ _

theorem tames_lose (releases : Bool) :
    Tames r (onDesktop (modify fun d => { d with input := d.input.lose releases })) := by
  intro s hs
  have hleft : Left s.desktop { s.desktop with input := s.desktop.input.lose releases } :=
    ⟨le_rfl, rfl, fun _ a ha => .inl ⟨a, ha, rfl⟩⟩
  exact (hs.desktop hleft).swept

theorem tames_wait (nanos : ℕ) :
    Tames r (modify fun r => { r with instant := r.instant + nanos } : Work Unit) :=
  .modify fun s hs => (hs.same (t := { s with instant := s.instant + nanos }) rfl rfl rfl rfl le_rfl
    (.inr rfl) (Nat.le_add_right s.instant nanos)).swept

theorem tames_mediaFlow (id : String) (track : DesktopTrack) : Tames r (mediaFlow id track) := by
  refine .get_bind fun s hs => ?_
  have hkept : ∀ t, t = s → Tame true r t := fun t ht => ht ▸ hs.swept
  cases s.configurations.lookup id with
  | none => exact .pure hkept
  | some config =>
    refine .ite (fun _ => .modify fun t ht => ?_) fun _ => .pure hkept
    exact (hkept t ht).same rfl rfl rfl rfl le_rfl (.inr rfl) le_rfl

theorem tames_recordDelivery (id : String) (track : DesktopTrack) (slow : Bool) :
    Tames r (recordDelivery id track slow) := by
  refine .get_bind fun s hs => .ite (fun _ => .pure fun t ht => ht ▸ hs.swept) fun _ => ?_
  refine .modify fun t ht => ?_
  subst ht
  refine ⟨hs.nextId, hs.live, hs.configurations, hs.nextCodecEpoch, hs.quality, ?_, ?_, ?_,
    hs.automatic, hs.operation, hs.instant⟩
  · intro key sample hsample
    rw [Table.lookup_upsert] at hsample
    by_cases hkey : key = (id, track.trackId)
    · rw [if_pos hkey] at hsample
      cases hsample
      cases hold : t.samples.lookup (id, track.trackId) with
      | none => exact .inl rfl
      | some old => exact hs.received _ old (hkey ▸ hold)
    · rw [if_neg hkey] at hsample
      exact hs.received key sample hsample
  · intro key sample sent hsample hsent
    rw [Table.lookup_upsert] at hsample
    by_cases hkey : key = (id, track.trackId)
    · rw [if_pos hkey] at hsample
      cases hsample
      cases hsent
      exact .inl le_rfl
    · rw [if_neg hkey] at hsample
      exact hs.sent key sample sent hsample hsent
  · intro key old hold _
    obtain ⟨sample, hsample, hreceived⟩ := hs.kept key old hold nofun
    rw [Table.lookup_upsert]
    by_cases hkey : key = (id, track.trackId)
    · rw [if_pos hkey, ← hkey, hsample]
      exact ⟨_, rfl, hreceived⟩
    · rw [if_neg hkey]
      exact ⟨sample, hsample, hreceived⟩

theorem tame_authorize (auth : Auth) (connection now : ℕ) (id : String) :
    Keeps (Tame false r) (onDesktop (Screen.authorize auth connection id now)) :=
  tame_call fun d => ((left_removing d).authorize auth connection id now).weaken
    (fun _ _ h => h.1) fun _ h => h

theorem tames_qualitySnapshot (auth : Auth) (connection now : ℕ) (id : String) :
    Triple (Tame false r) (qualitySnapshot auth connection now id)
      (fun config s => Tame true r s ∧ Readable r config) (Tame true r) := by
  let Found : Quality.DesktopConfiguration → Runtime → Prop := fun config s =>
    Tame false r s ∧ Readable r config
  refine .get_bind fun t ht => .ensure_bind (fun _ => ?_) fun s hs => hs ▸ ht.swept
  refine .finish (F := Found) (D := Tame false r) ?_ (fun _ s hs => ⟨hs.1.retain, hs.2⟩)
    fun s hs => hs.retain
  refine .bind ((tame_authorize auth connection now id).strengthen fun s hs => hs ▸ ht) fun a => ?_
  refine .ensure_bind (fun _ => .get_bind fun s hs => ?_) fun _ hs => hs
  have hkept : ∀ u, u = s → Tame false r u := fun u hu => hu ▸ hs
  refine .require_bind (fun config hconfig => .ensure_bind (fun htracks => ?_) hkept) hkept
  refine .pure fun u hu => ⟨hkept u hu, .inr ⟨htracks, id, ?_⟩⟩
  exact (hs.configurations id config hconfig).1

theorem tame_setOperation (operation : Operation)
    (hautomatic : ∀ s : Runtime, { s with operation := some operation }.automatic = none) :
    Triple (fun s => Tame true r s ∧ Readable r operation.config) (setOperation (some operation))
      (fun _ => Tame true r) (Tame true r) :=
  .modify fun s hs => hs.1.operate operation (hautomatic s) hs.2

theorem tame_tryOperation :
    Triple (Tame false r) tryOperation (fun _ => Tame false r) (Tame true r) :=
  .get_bind fun _ hs => .ensure (fun _ ht _ => ht ▸ hs) fun _ ht _ => ht ▸ hs.swept

theorem tames_queryQuality (auth : Auth) (connection now : ℕ) (request : DesktopQualityQuery) :
    Tames r (queryQuality auth connection now request) := by
  refine .bind tame_tryOperation fun _ =>
    .bind (tames_qualitySnapshot auth connection now _) fun config => ?_
  refine .ensure_bind (fun _ => .ensure_bind (fun _ => ?_) fun _ hs => hs.1) fun _ hs => hs.1
  exact tame_setOperation (.querying connection now request.attachId config _) fun _ => rfl

theorem tames_setQuality (auth : Auth) (connection now : ℕ) (request : SetDesktopQualityReq) :
    Tames r (setQuality auth connection now request) := by
  refine .bind tame_tryOperation fun _ =>
    .bind (tames_qualitySnapshot auth connection now _) fun config => ?_
  exact tame_setOperation (.setting connection now request config) fun _ => rfl

theorem tames_adjustQuality (auth : Auth) (connection now : ℕ) (id : String) :
    Tames r (adjustQuality auth connection now id) := by
  refine .get_bind fun s hs => .ite (fun _ => .pure fun t ht => ht ▸ hs.swept) fun _ => ?_
  have hsnapshot := (tames_qualitySnapshot (r := r) auth connection now id).strengthen
    fun t (ht : t = s) => ht ▸ hs
  exact .bind hsnapshot fun config => tame_setOperation (.adjusting connection now id config)
    fun _ => rfl

theorem tames_chooseQuality : Triple (fun s => s = r) chooseQuality (fun _ => Tame true r)
    (Tame true r) := by
  refine .get_bind fun s hs => ?_
  have hkept : ∀ t, t = s → Tame true r t := fun t ht => (ht.trans hs) ▸ (Tame.refl r).swept
  cases hoperation : s.operation with
  | none => exact .throw hkept
  | some operation =>
    cases operation with
    | setting connection now request config =>
      have hclear : Triple (fun t => t = s) (setOperation none)
          (fun _ t => Tame true r t ∧ Readable r config) (Tame true r) := by
        refine .modify fun t ht => ⟨?_, .inl ⟨_, hs ▸ hoperation, rfl⟩⟩
        exact (hkept t ht).same rfl rfl rfl rfl le_rfl (.inl rfl) le_rfl
      refine .bind hclear fun _ => .require_bind (fun state _ => ?_) fun _ h => h.1
      refine .ensure_bind (fun _ => .require_bind (fun target _ => ?_) fun _ h => h.1)
        fun _ h => h.1
      exact tame_setOperation (.applying connection now request.attachId config target
        request.policy true) fun _ => rfl
    | querying | adjusting | applying => exact .throw hkept

end

end Rieul.Screen.Tables
