import Rieul.Screen.InputRuns
import Rieul.Screen.TableOutcomes

/-!
# The tables of the runtime stay consistent

Between two sections every key of a table belongs to a live attachment, and a configuration
carries the present layout and the viewports of its attachment, under a codec epoch of its own.
-/

namespace Rieul.Screen.Tables
open Stateful Ipc Quality

/-- The keys of the tables are live; with `strays` those of the samples need not be. -/
structure Housed (strays : Bool) (r : Runtime) : Prop where
  codecs (id : String) : id ∈ r.codecs → r.live id = true
  configurations (id : String) : id ∈ r.configurations → r.live id = true
  quality (id : String) : id ∈ r.quality → r.live id = true
  feedback (key : String × ℕ) : key ∈ r.feedback → r.live key.1 = true
  flow (key : String × ℕ) : key ∈ r.flow → r.live key.1 = true
  samples (key : String × ℕ) : strays = false → key ∈ r.samples → r.live key.1 = true

theorem housed_retain (strays : Bool) (r : Runtime) : Housed strays r.retain where
  codecs _ h := (Table.mem_retain.1 h).1
  configurations _ h := (Table.mem_retain.1 h).1
  quality _ h := (Table.mem_retain.1 h).1
  feedback _ h := (Table.mem_retain.1 h).1
  flow _ h := (Table.mem_retain.1 h).1
  samples _ _ h := (Table.mem_retain.1 h).1

theorem housed_renewed (strays : Bool) (r : Runtime) (generation : ℕ) :
    Housed strays (r.renewed generation) where
  codecs id h := absurd h (AList.notMem_empty id)
  configurations id h := absurd h (AList.notMem_empty id)
  quality id h := absurd h (AList.notMem_empty id)
  feedback key h := absurd h (AList.notMem_empty key)
  flow key h := absurd h (AList.notMem_empty key)
  samples key _ h := absurd h (AList.notMem_empty key)

theorem Housed.desktop {strays : Bool} {r : Runtime} (h : Housed strays r) (d : Desktop)
    (hd : d.attachments = r.desktop.attachments) : Housed strays { r with desktop := d } := by
  have hlive : ∀ id, { r with desktop := d }.live id = r.live id := fun id => by
    unfold Runtime.live
    rw [hd]
  constructor
  · exact fun id hid => (hlive id).trans (h.codecs id hid)
  · exact fun id hid => (hlive id).trans (h.configurations id hid)
  · exact fun id hid => (hlive id).trans (h.quality id hid)
  · exact fun key hkey => (hlive key.1).trans (h.feedback key hkey)
  · exact fun key hkey => (hlive key.1).trans (h.flow key hkey)
  · exact fun key hs hkey => (hlive key.1).trans (h.samples key hs hkey)

theorem Housed.misc {strays : Bool} {r : Runtime} (h : Housed strays r)
    (displays : Option (List DesktopDisplay)) (operation : Option Operation) (instant : ℕ) :
    Housed strays { r with
      layoutDisplays := displays
      operation := operation
      instant := instant } :=
  ⟨h.codecs, h.configurations, h.quality, h.feedback, h.flow, h.samples⟩

section
variable {strays : Bool}
variable {α : Type} (auth : Auth) (connection now : ℕ) (id : String)

theorem housed_mutate (x : Work α) : Keeps (Housed strays) (mutate x) := by
  intro r hr
  rcases exec_mutate x r with h | h
  · rw [h]
    exact hr
  · rw [h]
    cases (exec x r).1 with
    | ok a | error e => exact housed_retain strays _

theorem housed_quiet {x : Work α} (hx : Keeps (Housed strays) x) :
    Keeps (Housed strays) (quiet x) :=
  .bind hx fun _ => .pure fun _ hs => hs

theorem housed_setOperation (operation : Option Operation) :
    Keeps (Housed strays) (setOperation operation) :=
  .modify fun r hr => hr.misc r.layoutDisplays operation r.instant

theorem housed_finishing {x : Work α} (hx : Keeps (Housed strays) x) :
    Keeps (Housed strays) (finishing x) := by
  refine .finish hx (fun _ s hs => ?_) fun s hs => ?_
  · exact hs.misc s.layoutDisplays none s.instant
  · exact hs.misc s.layoutDisplays none s.instant

theorem housed_attach (admitted : Bool) (connection : ℕ) (client : String)
    (now : ℕ) (caps : DesktopCapabilities) (keyboardModeSupported : Bool)
    (request : AttachDesktopReq) : Keeps (Housed strays)
      (attach auth admitted connection client now caps keyboardModeSupported request) := by
  have hkept : ∀ s, Housed strays s → Housed strays s := fun _ hs => hs
  exact .ensure_bind (fun _ => .require_bind (fun _ _ => housed_mutate _) hkept) hkept

theorem housed_refreshLayout (displays : List DesktopDisplay) :
    Keeps (Housed strays) (refreshLayout displays) := by
  refine .get_bind fun r hr => .ite (fun _ => .pure fun s hs => hs ▸ hr) fun _ => ?_
  exact (housed_mutate _).strengthen fun s hs => hs ▸ hr

theorem housed_onDesktop {x : Call α}
    (hx : ∀ d, (exec x d).2.attachments = d.attachments) :
    Keeps (Housed strays) (onDesktop x) := by
  intro r hr
  rw [onDesktop_eq]
  have h := hr.desktop (exec x r.desktop).2 (hx r.desktop)
  cases (exec x r.desktop).1 with
  | ok a | error e => exact h

theorem housed_reconcile (admitted : Bool) (result : SendResult) :
    Keeps (Housed strays) (reconcileBackend admitted result) := by
  have hkept : ∀ s, Housed strays s → Housed strays s := fun _ hs => hs
  have hrecover : Keeps (Housed strays) (onDesktop (recover result)) :=
    housed_onDesktop fun d => by rw [recover_eq]
  refine .ensure_bind (fun _ => .get_bind fun r hr => ?_) hkept
  have hsame : ∀ s, s = r → Housed strays s := fun s hs => hs ▸ hr
  refine .ensure_bind (fun _ => .bind (hrecover.strengthen hsame) fun generation => ?_) hsame
  refine .get_bind fun s hs => ?_
  have hsame' : ∀ t, t = s → Housed strays t := fun t ht => ht ▸ hs
  refine .ite (fun _ => .ensure_bind (fun _ => ?_) hsame') fun _ => .pure hsame'
  have hmodify : ∀ f : Desktop → Desktop, (∀ d, (f d).attachments = d.attachments) →
      Keeps (Housed strays) (onDesktop (modify f)) := fun f hf => housed_onDesktop hf
  have hepoch := hmodify (fun d => { d with epoch := d.epoch + 1 }) fun _ => rfl
  have hlayout := hmodify (fun d => { d with layoutEpoch := d.layoutEpoch + 1 }) fun _ => rfl
  refine .bind (hepoch.strengthen hsame') fun _ => .ensure_bind (fun _ => ?_) hkept
  exact .bind hlayout fun _ => .modify fun t _ => housed_renewed strays t generation

theorem housed_mediaFlow (track : DesktopTrack) :
    Keeps (Housed strays) (mediaFlow id track) := by
  refine .get_bind fun r hr => ?_
  have hsame : ∀ s, s = r → Housed strays s := fun s hs => hs ▸ hr
  cases hconfig : r.configurations.lookup id with
  | none => exact .pure hsame
  | some config =>
    refine .ite (fun _ => .modify fun s hs => ?_) fun _ => .pure hsame
    subst hs
    refine ⟨hr.codecs, hr.configurations, hr.quality, hr.feedback, fun key hkey => ?_, hr.samples⟩
    rcases (AList.mem_insert _).1 hkey with rfl | hold
    · exact hr.configurations id (Table.mem_of_lookup hconfig)
    · exact hr.flow key (Table.mem_retain.1 hold).2

theorem housed_recordDelivery (track : DesktopTrack) (slow : Bool) (r : Runtime)
    (hr : Housed strays r) (hid : strays = false → r.live id = true) :
    Housed strays (exec (recordDelivery id track slow) r).2 := by
  unfold recordDelivery
  rw [exec_bind, exec_get]
  dsimp only
  by_cases hfull : 128 ≤ r.samples.entries.length ∧ (id, track.trackId) ∉ r.samples
  · rw [if_pos hfull]
    exact hr
  · rw [if_neg hfull]
    refine ⟨hr.codecs, hr.configurations, hr.quality, hr.feedback, hr.flow, fun key hs hkey => ?_⟩
    rcases Table.mem_upsert.1 hkey with rfl | hold
    · exact hid hs
    · exact hr.samples key hs hold

theorem housed_adjustQuality :
    Keeps (Housed strays) (adjustQuality auth connection now id) := by
  refine .get_bind fun r hr => .ite (fun _ => .pure fun s hs => hs ▸ hr) fun _ => ?_
  exact .bind ((housed_mutate _).strengthen fun s hs => hs ▸ hr) fun _ => housed_setOperation _

theorem housed_queryQuality (request : DesktopQualityQuery) :
    Keeps (Housed strays) (queryQuality auth connection now request) := by
  have hkept : ∀ s, Housed strays s → Housed strays s := fun _ hs => hs
  have htry : Keeps (Housed strays) tryOperation :=
    .get_bind fun s hs => .ensure (fun t ht _ => ht ▸ hs) fun t ht _ => ht ▸ hs
  refine .bind htry fun _ => .bind (housed_mutate _) fun config => ?_
  exact .ensure_bind (fun _ => .ensure_bind (fun _ => housed_setOperation _) hkept) hkept

theorem housed_setQuality (request : SetDesktopQualityReq) :
    Keeps (Housed strays) (setQuality auth connection now request) := by
  have htry : Keeps (Housed strays) tryOperation :=
    .get_bind fun s hs => .ensure (fun t ht _ => ht ▸ hs) fun t ht _ => ht ▸ hs
  exact .bind htry fun _ => .bind (housed_mutate _) fun config => housed_setOperation _

theorem housed_chooseQuality : Keeps (Housed strays) chooseQuality := by
  have hkept : ∀ s, Housed strays s → Housed strays s := fun _ hs => hs
  refine .get_bind fun r hr => ?_
  have hsame : ∀ s, s = r → Housed strays s := fun s hs => hs ▸ hr
  cases r.operation with
  | none => exact .throw hsame
  | some operation =>
    cases operation with
    | setting connection now request config =>
      refine .bind ((housed_setOperation none).strengthen hsame) fun _ => ?_
      refine .require_bind (fun state _ => .ensure_bind (fun _ => ?_) hkept) hkept
      exact .require_bind (fun target _ => housed_setOperation _) hkept
    | querying | adjusting | applying => exact .throw hsame

theorem housed_answerQuery (elapsed : ℕ)
    (probe : DesktopQualityTarget → DesktopTrack → DesktopQualityVerification) :
    Keeps (Housed strays) (answerQuery auth elapsed probe) := by
  refine .get_bind fun r hr => ?_
  have hsame : ∀ s, s = r → Housed strays s := fun s hs => hs ▸ hr
  cases r.operation with
  | none => exact .throw hsame
  | some operation =>
    cases operation with
    | querying => exact (housed_finishing (housed_mutate _)).strengthen hsame
    | setting | adjusting | applying => exact .throw hsame

theorem housed_applyQuality (auth later : Auth) (displays : List DesktopDisplay) :
    Keeps (Housed strays) (applyQuality auth later displays) := by
  refine .get_bind fun r hr => ?_
  have hsame : ∀ s, s = r → Housed strays s := fun s hs => hs ▸ hr
  cases r.operation with
  | none => exact .throw hsame
  | some operation =>
    cases operation with
    | applying =>
      refine (housed_finishing ?_).strengthen hsame
      exact .bind (housed_mutate _) fun config => .pure fun _ hs => hs
    | querying | setting | adjusting => exact .throw hsame

theorem evaluation_quality (r : Runtime) (e : Evaluation) (h : r.evaluation = some e) :
    r.quality.lookup e.id = some e.state := by
  unfold Runtime.evaluation at h
  split at h
  · simp only [Option.bind_eq_bind, Option.bind_eq_some_iff, Option.guard_eq_some'] at h
    obtain ⟨state, hstate, -, -, latest, -, he⟩ := h
    cases he
    exact hstate
  · cases h

theorem housed_evaluateQuality : Keeps (Housed strays) evaluateQuality := by
  refine .get_bind fun r hr => ?_
  have hsame : ∀ s, s = r → Housed strays s := fun s hs => hs ▸ hr
  split
  next e _ he =>
    refine .modify fun s hs => ?_
    subst hs
    refine ⟨hr.codecs, hr.configurations, fun id hid => ?_, hr.feedback, hr.flow, hr.samples⟩
    rcases (AList.mem_insert _).1 hid with rfl | hold
    · exact hr.quality e.id (Table.mem_of_lookup (evaluation_quality s e he))
    · exact hr.quality id hold
  next => exact (housed_setOperation none).strengthen hsame
  next => exact .throw hsame

end

def Punctual (r : Runtime) : Action → Prop
  | .recordDelivery id _ _ => r.live id = true
  | _ => True

theorem housed_step (strays : Bool) (r : Runtime) (a : Action) (hr : Housed strays r)
    (ha : strays = false → Punctual r a) : Housed strays (exec a.run r).2 := by
  cases a with
  | attach auth admitted connection client now caps supported request =>
    exact (housed_quiet (housed_attach auth admitted connection client now caps supported
      request)).exec r hr
  | setControl | renew | detach | close | remove | expire | release =>
    exact (housed_quiet (housed_mutate _)).exec r hr
  | acceptInput auth connection now frame =>
    refine (housed_quiet ?_).exec r hr
    unfold acceptInput
    split
    · exact housed_mutate _
    · exact housed_mutate _
  | configure auth later connection now displays request serverOwned =>
    have hrun : Keeps (Housed strays)
        (Action.run (.configure auth later connection now displays request serverOwned)) :=
      .bind (housed_mutate _) fun config => .pure fun _ hs => hs
    exact hrun.exec r hr
  | refreshLayout displays => exact (housed_quiet (housed_refreshLayout displays)).exec r hr
  | reconcile admitted result => exact (housed_quiet (housed_reconcile admitted result)).exec r hr
  | lose releases => exact (housed_quiet (housed_onDesktop fun _ => rfl)).exec r hr
  | mediaFlow id track => exact (housed_quiet (housed_mediaFlow id track)).exec r hr
  | recordDelivery id track slow =>
    show Housed strays (exec (quiet (recordDelivery id track slow)) r).2
    rw [quiet_state]
    exact housed_recordDelivery id track slow r hr ha
  | queryQuality auth connection now request =>
    exact (housed_quiet (housed_queryQuality auth connection now request)).exec r hr
  | answerQuery auth elapsed probe =>
    exact (housed_quiet (housed_answerQuery auth elapsed probe)).exec r hr
  | setQuality auth connection now request =>
    exact (housed_quiet (housed_setQuality auth connection now request)).exec r hr
  | chooseQuality => exact (housed_quiet housed_chooseQuality).exec r hr
  | adjustQuality auth connection now id =>
    exact (housed_quiet (housed_adjustQuality auth connection now id)).exec r hr
  | evaluateQuality => exact (housed_quiet housed_evaluateQuality).exec r hr
  | applyQuality auth later displays =>
    have hrun : Keeps (Housed strays) (Action.run (.applyQuality auth later displays)) :=
      .bind (housed_applyQuality auth later displays) fun answer => .pure fun _ hs => hs
    exact hrun.exec r hr
  | wait nanos =>
    have hwait : Keeps (Housed strays)
        (modify fun r => { r with instant := r.instant + nanos } : Work Unit) :=
      .modify fun s hs => hs.misc s.layoutDisplays s.operation (s.instant + nanos)
    exact (housed_quiet hwait).exec r hr

structure Consistent (r : Runtime) : Prop where
  housed : Housed true r
  named (id : String) : r.live id = true → ∃ n, n ≤ r.desktop.nextId ∧ id = attachName n
  layout (id : String) (config : Quality.DesktopConfiguration) :
    r.configurations.lookup id = some config → config.layoutEpoch = r.desktop.layoutEpoch
  viewports (id : String) (config : Quality.DesktopConfiguration) (a : Attachment) :
    r.configurations.lookup id = some config → r.desktop.attachments.lookup id = some a →
      Records config a.viewports
  epoch (id : String) (config : Quality.DesktopConfiguration) :
    r.configurations.lookup id = some config →
      ∃ e, 1 ≤ e ∧ e ≤ r.nextCodecEpoch ∧ ∀ t ∈ config.tracks, t.codecEpoch = e
  distinct (id other : String) (config config' : Quality.DesktopConfiguration) (t u : DesktopTrack) :
    id ≠ other → r.configurations.lookup id = some config →
      r.configurations.lookup other = some config' → t ∈ config.tracks → u ∈ config'.tracks →
      t.codecEpoch ≠ u.codecEpoch

theorem Consistent.same {r s : Runtime} (h : Consistent r) (hs : Housed true s)
    (hdesktop : s.desktop = r.desktop) (hconfigurations : s.configurations = r.configurations)
    (hcodec : s.nextCodecEpoch = r.nextCodecEpoch) : Consistent s := by
  refine ⟨hs, fun id hid => ?_, ?_, ?_, ?_, ?_⟩
  · rw [hdesktop]
    exact h.named id (by rwa [Runtime.live, hdesktop] at hid)
  · rw [hdesktop, hconfigurations]
    exact h.layout
  · rw [hdesktop, hconfigurations]
    exact h.viewports
  · rw [hconfigurations, hcodec]
    exact h.epoch
  · rw [hconfigurations]
    exact h.distinct

theorem Consistent.live {r : Runtime} (h : Consistent r) {id : String}
    {config : Quality.DesktopConfiguration} (hconfig : r.configurations.lookup id = some config) :
    r.live id = true :=
  h.housed.configurations id (Table.mem_of_lookup hconfig)

theorem Consistent.old {r : Runtime} (h : Consistent r) {id : String} (hid : r.live id = true)
    (n : ℕ) (hn : r.desktop.nextId < n) : id ≠ attachName n := by
  rintro rfl
  obtain ⟨m, hm, hname⟩ := h.named _ hid
  have := attachName_injective hname
  omega

theorem Consistent.tame {r s : Runtime} (h : Consistent r) (ht : Tame true r s)
    (hs : Housed true s) : Consistent s where
  housed := hs
  named id hid := by
    rcases ht.live id hid with hold | ⟨n, -, hle, hname⟩
    · obtain ⟨n, hn, hname⟩ := h.named id hold
      exact ⟨n, hn.trans ht.nextId, hname⟩
    · exact ⟨n, hle, hname⟩
  layout id config hconfig := by
    obtain ⟨hold, hlayout, -⟩ := ht.configurations id config hconfig
    exact (h.layout id config hold).trans hlayout.symm
  viewports id config a hconfig ha := by
    obtain ⟨hold, -, hviewports⟩ := ht.configurations id config hconfig
    rcases hviewports a ha with ⟨b, hb, hv⟩ | ⟨n, hlt, -, hname⟩
    · exact hv ▸ h.viewports id config b hold hb
    · exact absurd hname (h.old (h.live hold) n hlt)
  epoch id config hconfig := by
    obtain ⟨e, hpos, hle, he⟩ := h.epoch id config (ht.configurations id config hconfig).1
    exact ⟨e, hpos, hle.trans ht.nextCodecEpoch, he⟩
  distinct id other config config' t u hne hconfig hconfig' :=
    h.distinct id other config config' t u hne (ht.configurations id config hconfig).1
      (ht.configurations other config' hconfig').1

section
variable {r : Runtime} {d : Desktop} {next : AList (fun _ : String => DesktopViewport)}
  {request : ConfigureDesktopViewportsReq} {serverOwned : Bool} {change : Option QualityChange}
include r d next request serverOwned change

theorem lookup_configured {config : Quality.DesktopConfiguration}
    (id : String) : (r.configured d next request serverOwned change config).desktop.attachments.lookup
        id = if id = request.attachId then (d.attachments.lookup id).map fun a =>
          { a with viewports := next, serverViewports := serverOwned }
      else d.attachments.lookup id := by
  simp only [Runtime.configured, lookup_update]
  by_cases hid : id = request.attachId
  · subst hid
    simp only [if_true, Option.map_map]
    rfl
  · simp only [hid, if_false]

theorem configured_fields {config : Quality.DesktopConfiguration} :
    (r.configured d next request serverOwned change config).desktop.nextId = d.nextId ∧
      (r.configured d next request serverOwned change config).desktop.layoutEpoch =
        d.layoutEpoch := by
  simp only [Runtime.configured, update_fields, and_self]

theorem lookup_configurations {config config' : Quality.DesktopConfiguration} {id : String}
    (h : (r.configured d next request serverOwned change config).retain.configurations.lookup id =
      some config') :
    (id = request.attachId ∧ config' = config) ∨
      (id ≠ request.attachId ∧ r.configurations.lookup id = some config') := by
  have hlookup := (Table.lookup_retain_some.1 h).2
  simp only [Runtime.configured, Table.lookup_insert_eq] at hlookup
  by_cases hid : id = request.attachId
  · rw [if_pos hid] at hlookup
    cases hlookup
    exact .inl ⟨hid, rfl⟩
  · rw [if_neg hid] at hlookup
    exact .inr ⟨hid, hlookup⟩

end

theorem Consistent.configured {p : Attachment → Prop} {r s : Runtime}
    {request : ConfigureDesktopViewportsReq} {serverOwned : Bool} {change : Option QualityChange}
    {config : Quality.DesktopConfiguration} (h : Consistent r)
    (hc : Configured p r request serverOwned change config s) : Consistent s.retain := by
  obtain ⟨profile, codec, hmade⟩ := hc.made
  obtain ⟨d, a, next, total, hended, ha, hepoch, hcollect, rfl⟩ := hc.result
  obtain ⟨hnext, hlayout⟩ := @configured_fields r d next request serverOwned change config
  have hold : ∀ id b, d.attachments.lookup id = some b →
      r.desktop.attachments.lookup id = some b := by
    intro id b hb
    rcases hended.attachments id with hsame | ⟨hnone, -⟩
    · exact hsame ▸ hb
    · rw [hnone] at hb
      cases hb
  have hlookup := @lookup_configured r d next request serverOwned change config
  have hepochs : ∀ t ∈ config.tracks, t.codecEpoch = r.nextCodecEpoch + 1 := by
    rw [hmade]
    exact configurationOf_epoch request profile codec _
  have hearlier : ∀ id config' t, r.configurations.lookup id = some config' →
      t ∈ config'.tracks → t.codecEpoch ≠ r.nextCodecEpoch + 1 := by
    intro id config' t hconfig ht heq
    obtain ⟨e, -, hle, he⟩ := h.epoch id config' hconfig
    have := he t ht
    omega
  refine ⟨housed_retain true _, fun id hid => ?_, fun id config' hconfig => ?_,
    fun id config' b hconfig hb => ?_, fun id config' hconfig => ?_,
    fun id other c c' t u hne hc' hc'' ht hu => ?_⟩
  · obtain ⟨b, hb⟩ := (live_iff _ id).1 hid
    have hsome : ∃ b, d.attachments.lookup id = some b := by
      by_cases hsame : id = request.attachId
      · exact ⟨a, hsame ▸ ha⟩
      · have hb' := (hlookup id).symm.trans hb
        rw [if_neg hsame] at hb'
        exact ⟨b, hb'⟩
    obtain ⟨b', hb'⟩ := hsome
    obtain ⟨n, hn, hname⟩ := h.named id ((live_iff r id).2 ⟨b', hold id b' hb'⟩)
    exact ⟨n, hn.trans (hended.nextId ▸ hnext.ge), hname⟩
  · rcases lookup_configurations hconfig with ⟨-, rfl⟩ | ⟨-, hbefore⟩
    · rw [hmade]
      exact hepoch.trans hlayout.symm
    · exact (h.layout id config' hbefore).trans (hended.layoutEpoch.symm.trans hlayout.symm)
  · have hb' := (hlookup id).symm.trans hb
    rcases lookup_configurations hconfig with ⟨rfl, rfl⟩ | ⟨hother, hbefore⟩
    · rw [if_pos rfl, ha] at hb'
      cases hb'
      intro vid v
      rw [collectViewports_lookup request.viewports ∅ next 0 total hcollect vid v, hmade,
        configurationOf_viewports]
      simp
    · rw [if_neg hother] at hb'
      exact h.viewports id config' b hbefore (hold id b hb')
  · rcases lookup_configurations hconfig with ⟨-, rfl⟩ | ⟨-, hbefore⟩
    · exact ⟨r.nextCodecEpoch + 1, Nat.le_add_left 1 _, le_rfl, hepochs⟩
    · obtain ⟨e, hpos, hle, he⟩ := h.epoch id config' hbefore
      exact ⟨e, hpos, Nat.le_succ_of_le hle, he⟩
  · rcases lookup_configurations hc' with ⟨rfl, rfl⟩ | ⟨-, hbefore⟩
    · rcases lookup_configurations hc'' with ⟨rfl, -⟩ | ⟨-, hbefore'⟩
      · exact absurd rfl hne
      · rw [hepochs t ht]
        exact (hearlier other c' u hbefore' hu).symm
    · rcases lookup_configurations hc'' with ⟨-, rfl⟩ | ⟨-, hbefore'⟩
      · rw [hepochs u hu]
        exact hearlier id c t hbefore ht
      · exact h.distinct id other c c' t u hne hbefore hbefore' ht hu

theorem consistent_step (r : Runtime) (a : Action) (h : Consistent r) :
    Consistent (exec a.run r).2 := by
  have hhoused := housed_step true r a h.housed nofun
  have houtcome := outcome_step (r := r) a
  generalize (exec a.run r).1 = answer at houtcome
  generalize (exec a.run r).2 = s at houtcome hhoused
  have hthin : ∀ d, Left r.desktop d → Consistent { r with desktop := d }.retain := fun d hd =>
    h.tame ((Tame.refl r).desktop hd).retain (housed_retain true _)
  cases houtcome with
  | tame ht => exact h.tame ht hhoused
  | fed _ hfed =>
    obtain ⟨d, b, flow, feedback, depth, decode, render, hd, -, -, rfl⟩ := hfed.result
    exact (hthin d hd).same hhoused rfl rfl rfl
  | configured hc => exact h.configured hc
  | queried hq =>
    obtain ⟨connection, now, id, config, requested, verified, d, b, -, -, hd, -, rfl⟩ := hq.result
    exact (hthin d hd).same hhoused rfl rfl rfl
  | evaluated _ => exact h.same hhoused rfl rfl rfl
  | applied happlied =>
    obtain ⟨connection, now, old, target, policy, newPolicy, -, hc⟩ := happlied.result
    exact (h.configured hc).same hhoused rfl rfl rfl

theorem codec_monotone (r : Runtime) (a : Action) :
    r.nextCodecEpoch ≤ (exec a.run r).2.nextCodecEpoch := by
  have houtcome := outcome_step (r := r) a
  generalize (exec a.run r).1 = answer at houtcome
  generalize (exec a.run r).2 = s at houtcome
  cases houtcome with
  | tame ht => exact ht.nextCodecEpoch
  | fed _ hfed =>
    obtain ⟨d, b, flow, feedback, depth, decode, render, -, -, -, rfl⟩ := hfed.result
    exact le_rfl
  | configured hc =>
    obtain ⟨d, a, next, total, -, -, -, -, rfl⟩ := hc.result
    exact Nat.le_succ _
  | queried hq =>
    obtain ⟨connection, now, id, config, requested, verified, d, b, -, -, -, -, rfl⟩ := hq.result
    exact le_rfl
  | evaluated _ => exact le_rfl
  | applied happlied =>
    obtain ⟨connection, now, old, target, policy, newPolicy, -, hc⟩ := happlied.result
    obtain ⟨d, a, next, total, -, -, -, -, rfl⟩ := hc.result
    exact Nat.le_succ _

section
variable {p : Attachment → Prop} {r s : Runtime} {request : ConfigureDesktopViewportsReq}
  {serverOwned : Bool} {change : Option QualityChange} {config : Quality.DesktopConfiguration}
  (hc : Configured p r request serverOwned change config s)
include p r s request serverOwned change config hc

theorem Configured.epoch :
    ∀ t ∈ config.tracks, t.codecEpoch = r.nextCodecEpoch + 1 := by
  obtain ⟨profile, codec, rfl⟩ := hc.made
  exact configurationOf_epoch request profile codec _

theorem Configured.nextCodecEpoch :
    s.nextCodecEpoch = r.nextCodecEpoch + 1 := by
  obtain ⟨d, a, next, total, -, -, -, -, rfl⟩ := hc.result
  rfl

end

def Watched.Numbered (w : Watched) : Prop :=
  ∀ c ∈ w.changes, ∀ t ∈ c.config.tracks, t.codecEpoch ≤ w.runtime.nextCodecEpoch

theorem numbered_step (w : Watched) (a : Action) (h : w.Numbered) : (w.step a).Numbered := by
  have hmonotone := codec_monotone w.runtime a
  have houtcome := outcome_step (r := w.runtime) a
  intro c hc t ht
  have hchanges : c ∈ w.noteChanges (exec a.run w.runtime).1 := hc
  show t.codecEpoch ≤ (exec a.run w.runtime).2.nextCodecEpoch
  generalize (exec a.run w.runtime).1 = answer at houtcome hchanges
  generalize (exec a.run w.runtime).2 = s at houtcome hmonotone
  have hold : c ∈ w.changes → t.codecEpoch ≤ s.nextCodecEpoch := fun hmem =>
    (h c hmem t ht).trans hmonotone
  have hnew : ∀ id config, (∀ u ∈ config.tracks, u.codecEpoch ≤ s.nextCodecEpoch) →
      c ∈ w.changes ++ [⟨id, config, w.runtime.instant⟩] → t.codecEpoch ≤ s.nextCodecEpoch := by
    intro id config hepochs hmem
    rcases List.mem_append.1 hmem with hmem | hmem
    · exact hold hmem
    · cases List.mem_singleton.1 hmem
      exact hepochs t ht
  cases houtcome with
  | tame _ hnote => exact hold (hnote.changes w ▸ hchanges)
  | fed | queried | evaluated => exact hold hchanges
  | configured hconfigured =>
    exact hnew _ _ (fun u hu => ((hconfigured.epoch u hu).trans hconfigured.nextCodecEpoch.symm).le)
      hchanges
  | applied happlied =>
    obtain ⟨connection, now, old, target, policy, newPolicy, -, hconfigured⟩ := happlied.result
    exact hnew _ _ (fun u hu => ((hconfigured.epoch u hu).trans hconfigured.nextCodecEpoch.symm).le)
      hchanges

theorem consistent_new (script : ℕ → SendResult) : Consistent (Runtime.new script) where
  housed := by
    refine ⟨?_, ?_, ?_, ?_, ?_, ?_⟩
    · exact fun id h => absurd h (AList.notMem_empty id)
    · exact fun id h => absurd h (AList.notMem_empty id)
    · exact fun id h => absurd h (AList.notMem_empty id)
    · exact fun key h => absurd h (AList.notMem_empty key)
    · exact fun key h => absurd h (AList.notMem_empty key)
    · exact fun key _ h => absurd h (AList.notMem_empty key)
  named id h := by cases h
  layout _ _ h := by cases h
  viewports _ _ _ h := by cases h
  epoch _ _ h := by cases h
  distinct _ _ _ _ _ _ _ h := by cases h

theorem run_consistent (script : ℕ → SendResult) (actions : List Action) :
    Consistent (Watched.run script actions).runtime ∧ (Watched.run script actions).Numbered := by
  induction actions using List.reverseRecOn with
  | nil => exact ⟨consistent_new script, fun c hc => by cases hc⟩
  | append_singleton actions a ih =>
    rw [Watched.run, List.foldl_append]
    exact ⟨consistent_step _ a ih.1, numbered_step _ a ih.2⟩

def Watched.Punctual : Watched → List Action → Prop
  | _, [] => True
  | w, a :: rest => Tables.Punctual w.runtime a ∧ (w.step a).Punctual rest

theorem run_housed (w : Watched) (actions : List Action) (hw : Housed false w.runtime)
    (hpunctual : w.Punctual actions) : Housed false (actions.foldl Watched.step w).runtime := by
  induction actions generalizing w with
  | nil => exact hw
  | cons a rest ih =>
    exact ih (w.step a) (housed_step false w.runtime a hw fun _ => hpunctual.1) hpunctual.2

structure Untouched (r s : Runtime) (id : String) : Prop where
  viewports : (s.desktop.attachments.lookup id).map (·.viewports) =
    (r.desktop.attachments.lookup id).map (·.viewports)
  serverViewports : (s.desktop.attachments.lookup id).map (·.serverViewports) =
    (r.desktop.attachments.lookup id).map (·.serverViewports)
  configuration : s.configurations.lookup id = r.configurations.lookup id
  policy : (s.quality.lookup id).map (·.policy) = (r.quality.lookup id).map (·.policy)

theorem refused_untouched (p : Attachment → Prop) (r s : Runtime) (h : Refused p r s) (id : String)
    (a : Attachment) (ha : r.desktop.attachments.lookup id = some a) :
    Untouched r s.retain id ∨ s.retain.live id = false ∧ p a := by
  obtain ⟨d, n, hd, -, rfl⟩ := h
  rcases hd.attachments id with hsame | ⟨hnone, b, hb, hp⟩
  · have hlive : { r with desktop := d, nextCodecEpoch := n }.live id = true :=
      (live_iff _ id).2 ⟨a, hsame.trans ha⟩
    refine .inl ⟨congrArg _ hsame, congrArg _ hsame, ?_, ?_⟩
    · exact (Table.lookup_retain _ _ _).trans (if_pos hlive)
    · exact congrArg _ ((Table.lookup_retain _ _ _).trans (if_pos hlive))
  · rw [ha] at hb
    cases hb
    refine .inr ⟨?_, hp⟩
    show (d.attachments.lookup id).isSome = false
    rw [hnone]
    rfl

/-- In every state that a run reaches the tables are consistent; a configuration that succeeds has
an epoch above all before it, and one that fails touches no attachment but ends what is over. -/
theorem tables_consistent (script : ℕ → SendResult) (actions : List Action) :
    Consistent (Watched.run script actions).runtime ∧
    ((Watched.new script).Punctual actions →
      Housed false (Watched.run script actions).runtime) ∧
    ∀ auth later connection now displays request serverOwned change,
      match exec (configureImpl auth later connection now displays request serverOwned change)
        (Watched.run script actions).runtime with
      | (.ok config, _) => ∀ c ∈ (Watched.run script actions).changes, ∀ t ∈ c.config.tracks,
          ∀ u ∈ config.tracks, t.codecEpoch < u.codecEpoch
      | (.error _, s) => ∀ id a,
          (Watched.run script actions).runtime.desktop.attachments.lookup id = some a →
          Untouched (Watched.run script actions).runtime s id ∨
            s.live id = false ∧ Over auth later now a := by
  obtain ⟨hconsistent, hnumbered⟩ := run_consistent script actions
  refine ⟨hconsistent, fun hpunctual => ?_, ?_⟩
  · refine run_housed (Watched.new script) actions ?_ hpunctual
    exact ⟨(consistent_new script).housed.codecs, (consistent_new script).housed.configurations,
      (consistent_new script).housed.quality, (consistent_new script).housed.feedback,
      (consistent_new script).housed.flow, fun key _ h => absurd h (AList.notMem_empty key)⟩
  · intro auth later connection now displays request serverOwned change
    have hspec := configure_spec (Over auth later now) auth later connection now displays request
      serverOwned change (Watched.run script actions).runtime
      (fun a ha => ha.imp_right .inl) (fun a ha => ha.imp_right .inr) _ rfl
    rcases hexec : exec (configureImpl auth later connection now displays request serverOwned
      change) (Watched.run script actions).runtime with ⟨answer, s⟩
    rw [hexec] at hspec
    cases answer with
    | ok config =>
      obtain ⟨t, ht, -⟩ := hspec
      intro c hc u hu v hv
      have := hnumbered c hc u hu
      have := ht.epoch v hv
      omega
    | error e =>
      intro id a ha
      rcases hspec with hsame | ⟨t, ht, hretain⟩
      · rw [hsame]
        exact .inl ⟨rfl, rfl, rfl, rfl⟩
      · rw [hretain]
        exact refused_untouched _ _ t ht id a ha

def sampleCapabilities : DesktopCapabilities := ⟨none, 1, .Available, [⟨"fixture", none, false⟩]⟩

def sampleDisplays : List DesktopDisplay := [⟨"d", ⟨0, 0, 1920, 1080⟩, .finite 1, .finite 96⟩]

def sampleViewport : DesktopViewport := ⟨"d", "d", ⟨0, 0, 1920, 1080⟩, 1920, 1080, 60, 20000000⟩

def sampleRequest : ConfigureDesktopViewportsReq := ⟨"desktop-1", 1, [sampleViewport], 20000000⟩

def sampleTrack (epoch : ℕ) : DesktopTrack :=
  ⟨1, sampleViewport, ⟨"fixture", none, false⟩, epoch, none⟩

def sampleConfigured : List Tables.Action :=
  [.refreshLayout sampleDisplays,
    .attach (fun _ => true) true 1 "client" 0 sampleCapabilities true
      ⟨1, ["fixture"], true, .Physical⟩,
    .configure (fun _ => true) (fun _ => true) 1 0 sampleDisplays sampleRequest true]

/-- The sample of a delivery that is recorded after its attachment has closed belongs to none. A
configuration that fails because the lease is over takes the attachment with all it had. -/
theorem late_delivery_and_lease :
    (let w := Watched.run (fun _ => .sent)
      (sampleConfigured ++ [.close 1, .recordDelivery "desktop-1" (sampleTrack 1) false])
    ("desktop-1", 1) ∈ w.runtime.samples ∧ w.runtime.live "desktop-1" = false) ∧
    let r := (Watched.run (fun _ => .sent) sampleConfigured).runtime
    let answer := exec (configureImpl (fun _ => true) (fun _ => true) 1 60001 sampleDisplays
      sampleRequest true none) r
    r.live "desktop-1" = true ∧ (r.configurations.lookup "desktop-1").isSome = true ∧
      answer.1.toBool = false ∧ answer.2.live "desktop-1" = false ∧
      (answer.2.configurations.lookup "desktop-1").isSome = false := by
  decide +kernel

end Rieul.Screen.Tables
