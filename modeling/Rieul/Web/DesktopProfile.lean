import Mathlib.Data.List.Basic
import Mathlib.Data.Nat.Notation
import Rieul.Lib.Calls
import Rieul.Lib.Monitor

/-!
# The profile of a screen connection (web/src/state/desktop.ts, web/src/protocol/desktop-video.ts)

A failure of the stripes reconnects with full frames, one of AV1 with H.264. What is awaited holds
the generation that it was begun in.
-/

namespace Rieul.Web.Desktop

structure DesktopCodec where
  codec : String
  hardware : Bool

def isAv1 (codec : String) : Bool := ['a', 'v', '0', '1', '.'].isPrefixOf codec.toList

def isAvc1 (codec : String) : Bool := ['a', 'v', 'c', '1', '.'].isPrefixOf codec.toList

/-- `/^avc[13]\./`. -/
def isAvc (codec : String) : Bool :=
  isAvc1 codec || ['a', 'v', 'c', '3', '.'].isPrefixOf codec.toList

def desktopCodecOrder (codecs : List DesktopCodec) (hardwareDecoded : List String) :
    List DesktopCodec :=
  codecs.filter (fun c => isAv1 c.codec && c.hardware && hardwareDecoded.contains c.codec) ++
    codecs.filter fun c => isAvc c.codec

structure Browser where
  videoDecoder : Bool
  offscreenCanvas : Bool

/-- `isConfigSupported` answers the requests one after the other. -/
def supportedDesktopCodecs (browser : Browser) (codecs : List DesktopCodec)
    (hardwareDecoded : List String) (isConfigSupported : ℕ → Bool) : List String :=
  if browser.videoDecoder then
    ((desktopCodecOrder (codecs.take 16) hardwareDecoded).zipIdx.filter fun c =>
      isConfigSupported c.2).map fun c => c.1.codec
  else []

structure DesktopCapabilities where
  available : Bool
  codecs : List DesktopCodec
  supportedProfiles : List ℕ

/-- The codecs that `connect` offers. -/
def offerable (browser : Browser) (caps : DesktopCapabilities) (h264Only : Bool)
    (isConfigSupported : ℕ → Bool) : List String :=
  let supported := supportedDesktopCodecs browser caps.codecs [] isConfigSupported
  if h264Only then supported.filter isAvc else supported

structure DesktopTrack where
  codec : String
  codecEpoch : ℕ
deriving DecidableEq

/-- `viewports` stands for the other data of the tracks. -/
structure DesktopConfiguration where
  layoutEpoch : ℕ
  tracks : List DesktopTrack
  viewports : String
deriving DecidableEq

def DesktopConfiguration.codecEpoch (c : DesktopConfiguration) : ℕ :=
  c.tracks.foldl (fun n t => max n t.codecEpoch) 0

inductive Failure where
  | rpc (code : String)
  | other

def Failure.denied : Failure → Bool
  | .rpc code => ["permissionDenied", "invalidCredentials", "unauthorized"].contains code
  | .other => false

def Failure.notFound : Failure → Bool
  | .rpc code => code = "notFound"
  | .other => false

/-- What `connect`, `retryFullFrame` and `applyConfiguration` await. -/
inductive Stage where
  | transport (h264Only fullFrame : Bool)
  | capabilities (h264Only fullFrame : Bool)
  | codecs (h264Only fullFrame : Bool) (caps : DesktopCapabilities)
  | flush (attached : Bool)
  | detach
  | configure (next : DesktopConfiguration)

structure Task where
  token : ℕ
  stage : Stage

/-- `attached` stands for the id of the attachment, next to its transport. -/
structure Store where
  active : Bool
  supported : Bool
  generation : ℕ
  attached : Bool
  configKey : Option DesktopConfiguration
  configuration : Option DesktopConfiguration
  offeredCodecs : List String
  currentCodec : String
  h264Fallback : Bool
  profileFallback : Bool
  fallbackPending : Bool
  currentProfile : ℕ
  tasks : List Task

def Store.start : Store :=
  ⟨false, false, 0, false, none, none, [], "", false, false, false, 1, []⟩

/-- What a run shows: the user connects, the page connects by itself, a video profile and codecs are
asked for, and `failed` is called with the codec that failed. -/
inductive Output where
  | userConnect
  | reconnect
  | attach (profile : ℕ) (codecs : List String)
  | failed (profile : ℕ) (codec : String)

def Output.isReconnect : Output → Bool
  | .reconnect => true
  | _ => false

def disconnect (s : Store) : Store :=
  { s with
    generation := s.generation + 1
    fallbackPending := false
    currentProfile := 1
    attached := false
    configKey := none
    configuration := none
    offeredCodecs := []
    currentCodec := "" }

def Store.await (s : Store) (stage : Stage) : Store :=
  { s with tasks := s.tasks ++ [⟨s.generation, stage⟩] }

def connect (s : Store) (h264Only fullFrame : Bool) : Store :=
  let s := { disconnect s with h264Fallback := h264Only, profileFallback := fullFrame }
  if s.active && s.supported then s.await (.transport h264Only fullFrame) else s

def failed (s : Store) (error : Failure) (codec : String) : Store × List Output :=
  if s.fallbackPending then (s, [.failed s.currentProfile codec])
  else if s.active ∧ s.currentProfile = 2 ∧ ¬ s.profileFallback ∧ ¬ error.denied then
    -- `retryFullFrame`, up to its first `await`
    (Store.await { s with profileFallback := true, fallbackPending := true } (.flush s.attached),
      [.failed s.currentProfile codec])
  else if s.active ∧ ¬ s.h264Fallback ∧ isAv1 s.currentCodec ∧ s.offeredCodecs.any isAvc then
    (connect s true false, [.failed s.currentProfile codec, .reconnect])
  else (disconnect s, [.failed s.currentProfile codec])

def applyConfiguration (s : Store) (next : DesktopConfiguration) : Store × List Output :=
  if s.configKey = some next then (s, [])
  else if s.configuration.any fun previous => next.layoutEpoch < previous.layoutEpoch ||
      (next.layoutEpoch = previous.layoutEpoch && next.codecEpoch < previous.codecEpoch)
  then (s, [])
  else
    let s := { s with configKey := some next }
    if next.tracks.any fun t => !s.offeredCodecs.contains t.codec then
      failed s .other s.currentCodec
    else
      (Store.await { s with currentCodec := (next.tracks.head?.map DesktopTrack.codec).getD "" }
        (.configure next), [])

/-- The end of `retryFullFrame`. -/
def retry (s : Store) : Store × List Output :=
  if s.active then (connect s s.h264Fallback true, [.reconnect]) else (s, [])

inductive Answer where
  | ok
  | capabilities (caps : DesktopCapabilities)
  | codecs (isConfigSupported : ℕ → Bool)
  | error (error : Failure)

def resume (browser : Browser) (s : Store) : Stage → Answer → Store × List Output
  | .transport h264Only fullFrame, .ok => (s.await (.capabilities h264Only fullFrame), [])
  | .capabilities h264Only fullFrame, .capabilities caps =>
    (if caps.available then s.await (.codecs h264Only fullFrame caps) else s, [])
  | .codecs h264Only fullFrame caps, .codecs isConfigSupported =>
    let codecs := offerable browser caps h264Only isConfigSupported
    if codecs = [] then (s, [])
    else
      let profile := if ¬ fullFrame ∧ 2 ∈ caps.supportedProfiles ∧ browser.offscreenCanvas ∧
        codecs.head?.any isAvc1 then 2 else 1
      ({ s with offeredCodecs := codecs, currentProfile := profile }, [.attach profile codecs])
  | .flush attached, _ => if s.active ∧ attached then (s.await .detach, []) else retry s
  | .detach, .error error =>
    if error.notFound then retry s
    else failed { s with fallbackPending := false } error s.currentCodec
  | .detach, _ => retry s
  | .configure next, .ok => ({ s with configuration := some next }, [])
  | _, .error error => failed s error s.currentCodec
  | _, _ => (s, [])

inductive Report where
  | attached
  | layout
  | configured (next : DesktopConfiguration)
  | error (error : Failure)
  | decoderFailed (codec : String)

def report (s : Store) : Report → Store × List Output
  | .attached => ({ s with attached := true }, [])
  | .layout => ({ s with configKey := none, configuration := none }, [])
  | .configured next => applyConfiguration s next
  | .error error => failed s error s.currentCodec
  | .decoderFailed codec =>
    if s.currentProfile = 2 ∨ isAv1 codec then failed s .other codec else (s, [])

inductive Event where
  | mount
  | unmount
  | daemonInfo (supported : Bool)
  | connect
  | disconnect
  | resume (i : ℕ) (answer : Answer)
  | report (token : ℕ) (report : Report)

def step (browser : Browser) (s : Store) : Event → Store × List Output
  | .mount => ({ s with active := true }, [])
  | .unmount => (Desktop.disconnect { s with active := false }, [])
  | .daemonInfo supported => (Desktop.disconnect { s with supported := supported }, [])
  | .connect => (Desktop.connect s false false, [.userConnect])
  | .disconnect => (Desktop.disconnect s, [])
  | .resume i answer =>
    match s.tasks[i]? with
    | none => (s, [])
    | some task =>
      let s := { s with tasks := s.tasks.eraseIdx i }
      if task.token = s.generation then Desktop.resume browser s task.stage answer else (s, [])
  | .report token report =>
    if token = s.generation then Desktop.report s report else (s, [])

def runFrom (browser : Browser) (s : Store) : List Event → List Output
  | [] => []
  | e :: rest => (step browser s e).2 ++ runFrom browser (step browser s e).1 rest

def run (browser : Browser) (events : List Event) : List Output := runFrom browser .start events

structure Past where
  stripesFailed : Bool
  reconnects : ℕ

def Past.next (p : Past) : Output → Past
  | .userConnect => ⟨false, 0⟩
  | .reconnect => { p with reconnects := p.reconnects + 1 }
  | .attach _ _ => p
  | .failed profile _ => { p with stripesFailed := p.stripesFailed || profile = 2 }

def Past.Allows (p : Past) : Output → Prop
  | .reconnect => p.reconnects = 0
  | .attach profile codecs =>
    (p.stripesFailed = true → profile ≠ 2) ∧ ∀ c ∈ codecs, isAv1 c = false
  | _ => True

abbrev Past.Fine (p : Past) (outputs : List Output) : Prop :=
  Monitor.Orderly Past.next Past.Allows p outputs

/-- A stage of `connect` before its attachment. -/
def Stage.connects : Stage → Bool
  | .transport _ _ => true
  | .capabilities _ _ => true
  | .codecs _ _ _ => true
  | _ => false

/-- A connection that is not attached yet uses no stripes after their failure; a retry is the first. -/
def Stage.Fits (s : Store) (p : Past) : Stage → Prop
  | .transport _ fullFrame => s.currentProfile = 1 ∧ (p.stripesFailed = true → fullFrame = true)
  | .capabilities _ fullFrame => s.currentProfile = 1 ∧ (p.stripesFailed = true → fullFrame = true)
  | .codecs _ fullFrame _ => s.currentProfile = 1 ∧ (p.stripesFailed = true → fullFrame = true)
  | .flush _ => s.profileFallback = true ∧ p.reconnects = 0
  | .detach => s.profileFallback = true ∧ p.reconnects = 0
  | .configure _ => True

structure Store.Kept (s : Store) (p : Past) : Prop where
  token (t : Task) : t ∈ s.tasks → t.token ≤ s.generation
  fits (t : Task) : t ∈ s.tasks → t.token = s.generation → t.stage.Fits s p
  single : s.tasks.Pairwise fun t u => t.token = s.generation → u.token = s.generation →
    t.stage.connects = true → u.stage.connects = false
  codec : isAv1 s.currentCodec = false
  offered (c : String) : c ∈ s.offeredCodecs → isAv1 c = false
  reconnected : p.reconnects ≤ 1 ∧ (p.reconnects = 1 → s.profileFallback = true)

def Leads (p : Past) (r : Store × List Output) : Prop :=
  p.Fine r.2 ∧ r.1.Kept (r.2.foldl Past.next p)

theorem not_isAv1_of_isAvc (codec : String) (h : isAvc codec = true) : isAv1 codec = false := by
  unfold isAvc isAvc1 at h
  unfold isAv1
  cases hl : codec.toList with
  | nil => rfl
  | cons a l => cases l with
    | nil => simp [List.isPrefixOf]
    | cons b l => cases l with
      | nil => simp [List.isPrefixOf]
      | cons c l =>
        simp only [hl, List.isPrefixOf, Bool.or_eq_true, Bool.and_eq_true, beq_iff_eq] at h
        have hc : c = 'c' := by rcases h with ⟨-, -, h, -⟩ | ⟨-, -, h, -⟩ <;> exact h.symm
        simp [List.isPrefixOf, hc]

theorem offerable_not_av1 (browser : Browser) (caps : DesktopCapabilities) (h264Only : Bool)
    (isConfigSupported : ℕ → Bool) (c : String)
    (h : c ∈ offerable browser caps h264Only isConfigSupported) : isAv1 c = false := by
  have hsupported : c ∈ supportedDesktopCodecs browser caps.codecs [] isConfigSupported := by
    unfold offerable at h
    cases h264Only with
    | true => exact (List.mem_filter.1 h).1
    | false => exact h
  unfold supportedDesktopCodecs at hsupported
  split at hsupported
  · obtain ⟨⟨d, i⟩, hd, rfl⟩ := List.mem_map.1 hsupported
    have hmem := List.fst_mem_of_mem_zipIdx (List.mem_filter.1 hd).1
    simp only [desktopCodecOrder, List.contains_nil, Bool.and_false, List.filter_false,
      List.nil_append] at hmem
    exact not_isAv1_of_isAvc _ (List.mem_filter.1 hmem).2
  · cases hsupported

namespace Store.Kept

variable {s : Store} {p : Past} (h : s.Kept p)

include h

theorem quiet : Leads p (s, []) := ⟨trivial, h⟩

theorem stale (t : Task) (ht : t ∈ s.tasks) : t.token ≠ s.generation + 1 := fun heq => by
  have hle := h.token t ht
  omega

theorem begun (q : Past) (h264Only fullFrame : Bool)
    (hpast : q.reconnects ≤ 1 ∧ (q.reconnects = 1 → fullFrame = true)) :
    Store.Kept { disconnect s with h264Fallback := h264Only, profileFallback := fullFrame } q where
  token t ht := Nat.le_succ_of_le (h.token t ht)
  fits t ht heq := absurd heq (h.stale t ht)
  single := h.single.imp_of_mem fun ht _ _ heq => absurd heq (h.stale _ ht)
  codec := rfl
  offered _ hc := absurd hc List.not_mem_nil
  reconnected := hpast

theorem disconnect : (disconnect s).Kept p :=
  h.begun p s.h264Fallback s.profileFallback h.reconnected

theorem await (stage : Stage) (hfits : stage.Fits s p) (hsingle : stage.connects = true →
    ∀ t ∈ s.tasks, t.token = s.generation → t.stage.connects = false) :
    (s.await stage).Kept p where
  token t ht := by
    rcases List.mem_append.1 ht with ht | ht
    · exact h.token t ht
    · rw [List.mem_singleton.1 ht]
      exact Nat.le_refl _
  fits t ht heq := by
    rcases List.mem_append.1 ht with ht | ht
    · exact h.fits t ht heq
    · rw [List.mem_singleton.1 ht]
      exact hfits
  single := by
    refine List.pairwise_append.2
      ⟨h.single, List.pairwise_singleton _ _, fun t ht u hu heq _ hc => ?_⟩
    rw [List.mem_singleton.1 hu]
    cases hstage : stage.connects with
    | false => rfl
    | true => exact absurd hc (Bool.eq_false_iff.1 (hsingle hstage t ht heq))
  codec := h.codec
  offered := h.offered
  reconnected := h.reconnected

theorem connect (q : Past) (h264Only fullFrame : Bool)
    (hpast : q.reconnects ≤ 1 ∧ (q.reconnects = 1 → fullFrame = true))
    (hstripes : q.stripesFailed = true → fullFrame = true) :
    (connect s h264Only fullFrame).Kept q := by
  have hbegun := h.begun q h264Only fullFrame hpast
  unfold Desktop.connect
  dsimp only
  split
  · exact hbegun.await _ ⟨rfl, hstripes⟩ fun _ t ht heq => absurd heq (h.stale t ht)
  · exact hbegun

theorem mono {t : Store} (hsub : t.tasks.Sublist s.tasks)
    (hgeneration : t.generation = s.generation)
    (hcodec : isAv1 t.currentCodec = false) (hoffered : t.offeredCodecs = s.offeredCodecs)
    (hfallback : t.profileFallback = s.profileFallback)
    (hprofile : t.currentProfile = s.currentProfile) : t.Kept p where
  token a ha := hgeneration ▸ h.token a (hsub.subset ha)
  fits a ha heq := by
    have hfits := h.fits a (hsub.subset ha) (hgeneration ▸ heq)
    cases hstage : a.stage <;> rw [hstage] at hfits
    all_goals simp only [Stage.Fits, hfallback, hprofile] at hfits ⊢
    all_goals exact hfits
  single := hgeneration ▸ h.single.sublist hsub
  codec := hcodec
  offered := hoffered ▸ h.offered
  reconnected := hfallback ▸ h.reconnected

theorem remembers (profile : ℕ) (codec : String)
    (hprofile : ∀ t ∈ s.tasks, t.token = s.generation → t.stage.connects = true → profile ≠ 2) :
    s.Kept (p.next (.failed profile codec)) where
  token := h.token
  fits t ht heq := by
    have hfits := h.fits t ht heq
    have hnot := hprofile t ht heq
    cases hstage : t.stage <;> rw [hstage] at hfits hnot <;>
      simp_all [Stage.Fits, Past.next, Stage.connects]
  single := h.single
  codec := h.codec
  offered := h.offered
  reconnected := h.reconnected

theorem failed (error : Failure) (codec : String) : Leads p (failed s error codec) := by
  have hattached : ∀ t ∈ s.tasks, t.token = s.generation → t.stage.connects = true →
      s.currentProfile ≠ 2 := fun t ht heq hc => by
    have hfits := h.fits t ht heq
    cases hstage : t.stage <;> rw [hstage] at hfits hc <;> simp_all [Stage.Fits, Stage.connects]
  unfold Desktop.failed
  split
  · exact ⟨⟨trivial, trivial⟩, h.remembers _ codec hattached⟩
  split
  · next hfallback =>
    obtain ⟨-, hprofile, hnone, -⟩ := hfallback
    have hfirst : p.reconnects = 0 := by
      have hle := h.reconnected.1
      have hnot : p.reconnects ≠ 1 := fun heq => hnone (h.reconnected.2 heq)
      omega
    -- the stripes were in use, so that no connection is under way
    have hflags : Store.Kept { s with profileFallback := true, fallbackPending := true }
        (p.next (.failed s.currentProfile codec)) := by
      have hnext := h.remembers _ codec hattached
      refine ⟨hnext.token, fun t ht heq => ?_, hnext.single, hnext.codec, hnext.offered,
        hnext.reconnected.1, fun _ => rfl⟩
      have hfits := hnext.fits t ht heq
      cases hstage : t.stage <;> rw [hstage] at hfits <;> simp_all [Stage.Fits]
    exact ⟨⟨trivial, trivial⟩, hflags.await _ ⟨rfl, hfirst⟩ fun hc => by cases hc⟩
  split
  · next hav1 =>
    rw [h.codec] at hav1
    exact absurd hav1.2.2.1 Bool.false_ne_true
  · exact ⟨⟨trivial, trivial⟩, h.disconnect.remembers _ codec fun t ht heq =>
      absurd heq (h.stale t ht)⟩

theorem retry (hfirst : p.reconnects = 0) : Leads p (retry s) := by
  unfold Desktop.retry
  split
  · refine ⟨⟨hfirst, trivial⟩, h.connect _ _ true ⟨?_, fun _ => rfl⟩ fun _ => rfl⟩
    simp only [List.foldl_cons, List.foldl_nil, Past.next, hfirst]
    omega
  · exact h.quiet

theorem applyConfiguration (next : DesktopConfiguration) : Leads p (applyConfiguration s next) := by
  unfold Desktop.applyConfiguration
  split
  · exact h.quiet
  split
  · exact h.quiet
  dsimp only
  split
  · have hkey : Store.Kept { s with configKey := some next } p :=
      h.mono (.refl _) rfl h.codec rfl rfl rfl
    exact hkey.failed _ _
  · next hoffered =>
    have hcodec : isAv1 ((next.tracks.head?.map DesktopTrack.codec).getD "") = false := by
      cases htracks : next.tracks with
      | nil => rfl
      | cons track rest =>
        refine h.offered _ ?_
        simp only [htracks, List.any_cons, Bool.or_eq_true, not_or, Bool.not_eq_true,
          Bool.not_eq_false', List.contains_iff_mem] at hoffered
        exact hoffered.1
    have hset : Store.Kept { s with
        configKey := some next
        currentCodec := (next.tracks.head?.map DesktopTrack.codec).getD "" } p :=
      h.mono (.refl _) rfl hcodec rfl rfl rfl
    exact ⟨trivial, hset.await _ trivial fun hc => by cases hc⟩

/-- A task goes on; it is no longer among those of `s`. -/
theorem resume (browser : Browser) (stage : Stage) (answer : Answer) (hfits : stage.Fits s p)
    (hothers : stage.connects = true →
      ∀ t ∈ s.tasks, t.token = s.generation → t.stage.connects = false) :
    Leads p (resume browser s stage answer) := by
  cases stage with
  | transport h264Only fullFrame =>
    cases answer with
    | ok => exact ⟨trivial, h.await _ hfits hothers⟩
    | error error => exact h.failed _ _
    | _ => exact h.quiet
  | capabilities h264Only fullFrame =>
    cases answer with
    | capabilities caps =>
      simp only [Desktop.resume]
      split
      · exact ⟨trivial, h.await _ hfits hothers⟩
      · exact h.quiet
    | error error => exact h.failed _ _
    | _ => exact h.quiet
  | codecs h264Only fullFrame caps =>
    cases answer with
    | codecs isConfigSupported =>
      simp only [Desktop.resume]
      split
      · exact h.quiet
      have hcodecs := offerable_not_av1 browser caps h264Only isConfigSupported
      refine ⟨⟨⟨fun hs => ?_, hcodecs⟩, trivial⟩, h.token, fun t ht heq => ?_, h.single, h.codec,
        hcodecs, h.reconnected⟩
      · rw [if_neg fun hno => hno.1 (hfits.2 hs)]
        decide
      · have hfits := h.fits t ht heq
        have hother := hothers rfl t ht heq
        cases hstage : t.stage <;> rw [hstage] at hfits hother <;>
          first | exact hfits | cases hother
    | error error => exact h.failed _ _
    | _ => exact h.quiet
  | flush attached =>
    simp only [Desktop.resume]
    split
    · exact ⟨trivial, h.await _ hfits fun hc => by cases hc⟩
    · exact h.retry hfits.2
  | detach =>
    have hclear : Store.Kept { s with fallbackPending := false } p :=
      h.mono (.refl _) rfl h.codec rfl rfl rfl
    cases answer with
    | error error =>
      simp only [Desktop.resume]
      split
      · exact h.retry hfits.2
      · exact hclear.failed _ _
    | _ => exact h.retry hfits.2
  | configure next =>
    cases answer with
    | ok => exact ⟨trivial, h.mono (.refl _) rfl h.codec rfl rfl rfl⟩
    | error error => exact h.failed _ _
    | _ => exact h.quiet

theorem step (browser : Browser) (e : Event) : Leads p (step browser s e) := by
  cases e with
  | mount => exact ⟨trivial, h.mono (.refl _) rfl h.codec rfl rfl rfl⟩
  | unmount =>
    have hinactive : Store.Kept { s with active := false } p :=
      h.mono (.refl _) rfl h.codec rfl rfl rfl
    exact ⟨trivial, hinactive.disconnect⟩
  | daemonInfo supported =>
    have hinfo : Store.Kept { s with supported := supported } p :=
      h.mono (.refl _) rfl h.codec rfl rfl rfl
    exact ⟨trivial, hinfo.disconnect⟩
  | connect =>
    exact ⟨⟨trivial, trivial⟩,
      h.connect _ _ _ ⟨Nat.zero_le _, fun h => by cases h⟩ fun h => by cases h⟩
  | disconnect => exact ⟨trivial, h.disconnect⟩
  | resume i answer =>
    simp only [Desktop.step]
    split
    · exact h.quiet
    next task ht =>
    have hmem := List.mem_of_getElem? ht
    have hrest : Store.Kept { s with tasks := s.tasks.eraseIdx i } p :=
      h.mono (List.eraseIdx_sublist ..) rfl h.codec rfl rfl rfl
    split
    · next htoken =>
      refine hrest.resume browser _ answer ?_ fun hc t hmem' heq => ?_
      · have hfits := h.fits task hmem htoken
        cases hstage : task.stage <;> rw [hstage] at hfits <;> exact hfits
      · obtain ⟨before, after, hsplit, -, -, herase⟩ := Calls.exists_split ht
        have hpairs := h.single
        rw [hsplit] at hpairs
        obtain ⟨-, hafter, hbefore⟩ := List.pairwise_append.1 hpairs
        have hother : t ∈ before ++ after := herase ▸ hmem'
        rcases List.mem_append.1 hother with hb | ha
        · refine Bool.eq_false_iff.2 fun ht => ?_
          have hnone := hbefore t hb task List.mem_cons_self heq htoken ht
          rw [hc] at hnone
          cases hnone
        · exact (List.pairwise_cons.1 hafter).1 t ha htoken heq hc
    · exact hrest.quiet
  | report token report =>
    simp only [Desktop.step]
    split
    · cases report with
      | attached | layout => exact ⟨trivial, h.mono (.refl _) rfl h.codec rfl rfl rfl⟩
      | configured next => exact h.applyConfiguration next
      | error error => exact h.failed _ _
      | decoderFailed codec =>
        simp only [Desktop.report]
        split
        · exact h.failed _ _
        · exact h.quiet
    · exact h.quiet

end Store.Kept

theorem runFrom_fine (browser : Browser) (events : List Event) {s : Store} {p : Past}
    (h : s.Kept p) : p.Fine (runFrom browser s events) := by
  induction events generalizing s p with
  | nil => trivial
  | cons e rest ih =>
    obtain ⟨hfine, hkept⟩ := h.step browser e
    exact (Monitor.orderly_append _ _ _).2 ⟨hfine, ih hkept⟩

theorem start_kept : Store.start.Kept ⟨false, 0⟩ :=
  ⟨fun t ht => absurd ht List.not_mem_nil, fun t ht => absurd ht List.not_mem_nil, .nil, by decide,
    fun c hc => absurd hc List.not_mem_nil, Nat.zero_le _, fun h => absurd h Nat.zero_ne_one⟩

theorem Past.stripesFailed_foldl (p : Past) (outputs : List Output)
    (huser : .userConnect ∉ outputs) (h : p.stripesFailed = true) :
    (outputs.foldl Past.next p).stripesFailed = true := by
  induction outputs generalizing p with
  | nil => exact h
  | cons o rest ih =>
    refine ih (p.next o) (fun hrest => huser (List.mem_cons_of_mem _ hrest)) ?_
    cases o with
    | userConnect => exact absurd List.mem_cons_self huser
    | _ => simp [Past.next, h]

theorem Past.reconnects_le (p : Past) (outputs : List Output) (h : p.Fine outputs)
    (huser : .userConnect ∉ outputs) :
    outputs.countP Output.isReconnect + min p.reconnects 1 ≤ 1 := by
  induction outputs generalizing p with
  | nil =>
    simp only [List.countP_nil]
    omega
  | cons o rest ih =>
    have hrest := ih (p.next o) h.2 fun hrest => huser (List.mem_cons_of_mem _ hrest)
    cases o with
    | userConnect => exact absurd List.mem_cons_self huser
    | reconnect =>
      have hfirst : p.reconnects = 0 := h.1
      simp only [Past.next, hfirst] at hrest
      simp only [List.countP_cons, Output.isReconnect, hfirst, if_true]
      omega
    | attach profile codecs | failed profile codec =>
      simpa [Past.next, Output.isReconnect] using hrest

theorem Past.Fine.attach {p : Past} {outputs : List Output} (h : p.Fine outputs)
    (huser : .userConnect ∉ outputs) {profile : ℕ} {codecs : List String}
    (hmem : .attach profile codecs ∈ outputs) :
    (p.stripesFailed = true → profile ≠ 2) ∧ ∀ c ∈ codecs, isAv1 c = false := by
  obtain ⟨first, rest, rfl⟩ := List.append_of_mem hmem
  obtain ⟨-, hallows, -⟩ := (Monitor.orderly_append _ _ _).1 h
  refine ⟨fun hs => hallows.1 ?_, hallows.2⟩
  exact p.stripesFailed_foldl first (fun h => huser (List.mem_append_left _ h)) hs

/-- In every run, as long as the user does not connect: after a failure of the stripes they are not
asked for, after one of AV1 it is not offered, and the page connects by itself once at most. -/
theorem fallback_is_monotone (browser : Browser) (events : List Event) :
    let outputs := run browser events
    (∀ before codec after, outputs = before ++ .failed 2 codec :: after → .userConnect ∉ after →
      ∀ profile codecs, .attach profile codecs ∈ after → profile ≠ 2) ∧
    (∀ before profile codec after, outputs = before ++ .failed profile codec :: after →
      isAv1 codec = true → .userConnect ∉ after →
        ∀ profile' codecs, .attach profile' codecs ∈ after → ∀ c ∈ codecs, isAv1 c = false) ∧
    ∀ before after, outputs = before ++ after → .userConnect ∉ after →
      after.countP Output.isReconnect ≤ 1 := by
  intro outputs
  have hfine : Past.Fine ⟨false, 0⟩ outputs := runFrom_fine browser events start_kept
  refine ⟨fun before codec after heq huser profile codecs hmem => ?_,
    fun before profile codec after heq _ huser profile' codecs hmem => ?_,
    fun before after heq huser => ?_⟩
  · rw [heq, Past.Fine, Monitor.orderly_append] at hfine
    exact (Past.Fine.attach hfine.2.2 huser hmem).1 (by simp [Past.next])
  · rw [heq, Past.Fine, Monitor.orderly_append] at hfine
    exact (Past.Fine.attach hfine.2.2 huser hmem).2
  · rw [heq, Past.Fine, Monitor.orderly_append] at hfine
    have hcount := Past.reconnects_le _ after hfine.2 huser
    omega

end Rieul.Web.Desktop
