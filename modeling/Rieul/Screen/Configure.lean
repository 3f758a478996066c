import Rieul.Screen.TableSteps

/-!
# What a configuration leaves

`configure_impl` either leaves a new configuration with the viewports that it recorded, or nothing
but the attachments that were over and a number that is used up.
-/

namespace Rieul.Screen.Tables
open Stateful Ipc Quality

def Records (config : Quality.DesktopConfiguration)
    (viewports : AList (fun _ : String => DesktopViewport)) : Prop :=
  ∀ id v, viewports.lookup id = some v ↔
    v ∈ config.tracks.map (·.viewport) ∧ v.viewportId = id

theorem collectViewports_lookup (viewports : List DesktopViewport)
    (next result : AList (fun _ : String => DesktopViewport)) (total sum : ℕ)
    (h : collectViewports viewports next total = .ok (result, sum)) (id : String)
    (v : DesktopViewport) :
    result.lookup id = some v ↔
      next.lookup id = some v ∨ (v ∈ viewports ∧ v.viewportId = id) := by
  induction viewports generalizing next total with
  | nil =>
    cases h
    simp
  | cons w rest ih =>
    rw [collectViewports] at h
    by_cases hvalid : viewportValid w
    · rw [if_neg (not_not.2 hvalid)] at h
      by_cases hsum : 2 ^ 64 ≤ total + w.bitrate
      · rw [if_pos hsum] at h
        cases h
      rw [if_neg hsum] at h
      by_cases hmem : w.viewportId ∈ next
      · rw [if_pos hmem] at h
        cases h
      rw [if_neg hmem] at h
      rw [ih _ _ h, Table.lookup_insert_eq]
      have hnone : next.lookup w.viewportId = none := AList.lookup_eq_none.2 hmem
      by_cases hid : id = w.viewportId
      · subst hid
        rw [if_pos rfl, hnone]
        constructor
        · rintro (hw | ⟨hv, hname⟩)
          · cases hw
            exact .inr ⟨List.mem_cons_self, rfl⟩
          · exact .inr ⟨List.mem_cons_of_mem w hv, hname⟩
        · rintro (hw | ⟨hv, hname⟩)
          · cases hw
          · rcases List.mem_cons.1 hv with rfl | hv
            · exact .inl rfl
            · exact .inr ⟨hv, hname⟩
      · rw [if_neg hid]
        refine or_congr_right ⟨fun hv => ⟨List.mem_cons_of_mem w hv.1, hv.2⟩, fun hv => ?_⟩
        rcases List.mem_cons.1 hv.1 with rfl | hrest
        · exact absurd hv.2.symm hid
        · exact ⟨hrest, hv.2⟩
    · rw [if_pos hvalid] at h
      cases h

variable (request : ConfigureDesktopViewportsReq)

theorem configurationOf_viewports (profile : ℕ)
    (codec : DesktopCodec) (epoch : ℕ) :
    (configurationOf request profile codec epoch).tracks.map (·.viewport) = request.viewports := by
  simp only [configurationOf, List.map_map, Function.comp_def, trackOf]
  exact List.zipIdx_map_fst 0 request.viewports

theorem configurationOf_epoch (profile : ℕ)
    (codec : DesktopCodec) (epoch : ℕ) (t : DesktopTrack)
    (ht : t ∈ (configurationOf request profile codec epoch).tracks) : t.codecEpoch = epoch := by
  obtain ⟨⟨v, i⟩, -, rfl⟩ := List.mem_map.1 ht
  rfl

variable (p : Attachment → Prop)

theorem configure_desktop (auth : Auth) (connection : ℕ) (id : String)
    (now epoch : ℕ) (viewports : List DesktopViewport) (budget : ℕ) (d : Desktop)
    (hp : ∀ a : Attachment, a.deadline ≤ now ∨ auth a.client = false → p a) :
    Triple (fun t => t = d) (Screen.configure auth connection id now epoch viewports budget)
      (fun _ t => ∃ u a next total, Ended p d u ∧ u.attachments.lookup id = some a ∧
        epoch = u.layoutEpoch ∧ collectViewports viewports ∅ 0 = .ok (next, total) ∧
        t = u.update id fun a => { a with viewports := next })
      (Ended p d) := by
  refine .bind (ended_authorize auth connection now id p d hp) fun a => .get_bind fun u hu => ?_
  obtain ⟨hended, ha⟩ := hu
  have hkept : ∀ t, t = u → Ended p d t := fun t ht => ht ▸ hended
  refine .ensure_bind (fun hepoch => .ensure_bind (fun _ => ?_) hkept) hkept
  cases hcollect : collectViewports viewports ∅ 0 with
  | error e => exact .throw hkept
  | ok result =>
    refine .ensure_bind (fun _ => .modify fun t ht => ?_) hkept
    exact ⟨u, a, result.1, result.2, hended, ha, hepoch, rfl, by rw [ht]⟩

/-- The runtime over another desktop, in which attachments with `p` have ended. -/
def Thinned (p : Attachment → Prop) (r s : Runtime) : Prop :=
  ∃ d, Ended p r.desktop d ∧ s = { r with desktop := d }

theorem authorize_section (auth : Auth) (connection now : ℕ) (id : String)
    (r : Runtime) (hp : ∀ a : Attachment, a.deadline ≤ now ∨ auth a.client = false → p a) :
    Triple (fun s => s = r) (onDesktop (Screen.authorize auth connection id now))
      (fun a s => Thinned p r s ∧ s.desktop.attachments.lookup id = some a) (Thinned p r) := by
  intro s hs
  rw [hs, onDesktop_eq]
  have h := ended_authorize auth connection now id p r.desktop hp r.desktop rfl
  cases hx : exec (Screen.authorize auth connection id now) r.desktop with
  | mk answer d =>
    rw [hx] at h
    cases answer with
    | ok a => exact ⟨⟨d, h.1, rfl⟩, h.2⟩
    | error e => exact ⟨d, h, rfl⟩

theorem Thinned.tame {p : Attachment → Prop} {r s : Runtime} (h : Thinned p r s) :
    Tame false r s := by
  obtain ⟨d, hd, rfl⟩ := h
  exact (Tame.refl r).desktop hd.left

def Allowed (r : Runtime) (id : String) (change : Option QualityChange) : Prop :=
  ∀ c, change = some c → ∃ current state, r.configurations.lookup id = some current ∧
    Quality.revision current = c.revision ∧ r.quality.lookup id = some state

def Runtime.requalified (r : Runtime) (id : String) (config : Quality.DesktopConfiguration) :
    Option QualityChange → Table.Of String Quality.State
  | none => r.quality
  | some c => match r.quality.lookup id with
    | none => r.quality
    | some state => r.quality.insert id (state.changed config c.policy c.newPolicy r.instant)

/-- `r` with a new configuration over the desktop `d`. -/
def Runtime.configured (r : Runtime) (d : Desktop)
    (next : AList (fun _ : String => DesktopViewport)) (request : ConfigureDesktopViewportsReq)
    (serverOwned : Bool) (change : Option QualityChange) (config : Quality.DesktopConfiguration) :
    Runtime :=
  { r with
    desktop := (d.update request.attachId fun a => { a with viewports := next }).update
      request.attachId fun a => { a with serverViewports := serverOwned }
    nextCodecEpoch := r.nextCodecEpoch + 1
    quality := r.requalified request.attachId config change
    configurations := r.configurations.insert request.attachId config }

/-- What a successful `configure_impl` leaves before the sweep. -/
structure Configured (p : Attachment → Prop) (r : Runtime) (request : ConfigureDesktopViewportsReq)
    (serverOwned : Bool) (change : Option QualityChange) (config : Quality.DesktopConfiguration)
    (s : Runtime) : Prop where
  allowed : Allowed r request.attachId change
  made : ∃ profile codec,
    config = configurationOf request profile codec (r.nextCodecEpoch + 1)
  result : ∃ d a next total, Ended p r.desktop d ∧
    d.attachments.lookup request.attachId = some a ∧ request.layoutEpoch = d.layoutEpoch ∧
    collectViewports request.viewports ∅ 0 = .ok (next, total) ∧
    s = r.configured d next request serverOwned change config

def Refused (p : Attachment → Prop) (r s : Runtime) : Prop :=
  ∃ d n, Ended p r.desktop d ∧ r.nextCodecEpoch ≤ n ∧
    s = { r with desktop := d, nextCodecEpoch := n }

theorem checkChange_triple (r : Runtime) (id : String) (change : Option QualityChange) :
    Triple (fun s => s = r) (checkChange id change) (fun _ s => s = r ∧ Allowed r id change)
      (fun s => s = r) := by
  cases change with
  | none => exact .pure fun s hs => ⟨hs, fun c hc => by cases hc⟩
  | some c =>
    refine .get_bind fun s hs => ?_
    have hkept : ∀ t, t = s → t = r := fun t ht => ht.trans hs
    refine .require_bind (fun current hcurrent => .ensure (fun t ht hrev => ?_) fun t ht _ =>
      hkept t ht) hkept
    refine ⟨hkept t ht, fun c' hc' => ?_⟩
    cases hc'
    obtain ⟨state, hstate⟩ := Option.isSome_iff_exists.1 hrev.2
    exact ⟨current, state, hs ▸ hcurrent, hrev.1, hs ▸ hstate⟩

theorem applyChange_exec (r s : Runtime) (id : String) (config : Quality.DesktopConfiguration)
    (change : Option QualityChange) (hallowed : Allowed r id change)
    (hquality : s.quality = r.quality) (hinstant : s.instant = r.instant) :
    exec (applyChange id config change) s =
      (.ok (), { s with quality := r.requalified id config change }) := by
  cases change with
  | none =>
    rw [Runtime.requalified, ← hquality]
    rfl
  | some c =>
    obtain ⟨current, state, -, -, hstate⟩ := hallowed c rfl
    simp only [applyChange, exec_bind, exec_get, hquality, hstate, require, exec_pure, exec_modify,
      Runtime.requalified, hinstant]

theorem configure_spec (auth later : Auth) (connection now : ℕ)
    (displays : List DesktopDisplay) (request : ConfigureDesktopViewportsReq) (serverOwned : Bool)
    (change : Option QualityChange) (r : Runtime)
    (hp : ∀ a : Attachment, a.deadline ≤ now ∨ auth a.client = false → p a)
    (hp' : ∀ a : Attachment, a.deadline ≤ now ∨ later a.client = false → p a) :
    Triple (fun s => s = r) (configureImpl auth later connection now displays request serverOwned
        change)
      (fun config s => ∃ t, Configured p r request serverOwned change config t ∧ s = t.retain)
      (fun s => s = r ∨ ∃ t, Refused p r t ∧ s = t.retain) := by
  refine mutate_triple (Triple.weaken (Q := Configured p r request serverOwned change)
    (E := Refused p r) ?_ (fun _ t ht => ⟨t, ht, rfl⟩) fun t ht => .inr ⟨t, ht, rfl⟩) (.inl rfl)
  have hrefused : ∀ s, Thinned p r s → Refused p r s := by
    rintro s ⟨d, hd, rfl⟩
    exact ⟨d, r.nextCodecEpoch, hd, le_rfl, rfl⟩
  have hauthorize := authorize_section p auth connection now request.attachId r hp
  refine .bind (hauthorize.weaken (fun _ _ hs => hs.1) hrefused) fun a => ?_
  have hcheck : Triple (Thinned p r) (checkChange request.attachId change)
      (fun _ s => Thinned p r s ∧ Allowed r request.attachId change) (Refused p r) := by
    rintro s ⟨d, hd, rfl⟩
    have h := checkChange_triple { r with desktop := d } request.attachId change _ rfl
    cases hx : exec (checkChange request.attachId change) { r with desktop := d } with
    | mk answer t =>
      rw [hx] at h
      cases answer with
      | ok u => exact ⟨⟨d, hd, h.1⟩, h.2⟩
      | error e => exact hrefused _ ⟨d, hd, h⟩
  refine .bind hcheck fun _ => ?_
  have hfail : ∀ s, Thinned p r s ∧ Allowed r request.attachId change → Refused p r s :=
    fun s hs => hrefused s hs.1
  refine .ensure_bind (fun _ => .ensure_bind (fun _ => .ensure_bind (fun _ => ?_) hfail) hfail)
    hfail
  refine .get_bind fun s hs => ?_
  obtain ⟨⟨d, hd, rfl⟩, hallowed⟩ := hs
  have hkept : ∀ t, t = { r with desktop := d } → Refused p r t :=
    fun t ht => hrefused t ⟨d, hd, ht⟩
  refine .require_bind (fun codec _ => .ensure_bind (fun _ => ?_) hkept) hkept
  let Used : Runtime → Prop := fun t =>
    t = { r with desktop := d, nextCodecEpoch := r.nextCodecEpoch + 1 }
  have hused : ∀ t, t = { r with desktop := d } →
      Used { t with nextCodecEpoch := t.nextCodecEpoch + 1 } := fun t ht => by rw [ht]
  refine .modify_bind ?_ hused
  intro t ht
  rw [ht, exec_bind, onDesktop_eq]
  have h := configure_desktop p later connection request.attachId now request.layoutEpoch
    request.viewports request.totalBitrate d hp' d rfl
  cases hx : exec (Screen.configure later connection request.attachId now request.layoutEpoch
      request.viewports request.totalBitrate) d with
  | mk answer v =>
    rw [hx] at h
    cases answer with
    | error e => exact ⟨v, r.nextCodecEpoch + 1, hd.trans h, Nat.le_succ _, rfl⟩
    | ok done =>
      obtain ⟨u, b, next, total, hu, hb, hepoch, hcollect, hv⟩ := h
      dsimp only
      rw [exec_bind, onDesktop_eq, exec_modify]
      dsimp only
      rw [exec_bind, applyChange_exec r _ request.attachId _ change hallowed ?_ ?_]
      · exact ⟨hallowed, ⟨a.profile, codec, rfl⟩,
          u, b, next, total, hd.trans hu, hb, hepoch, hcollect, by rw [hv]; rfl⟩
      · rfl
      · rfl

end Rieul.Screen.Tables
