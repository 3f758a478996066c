import Mathlib.Data.List.Basic
import Rieul.Server.CertificateReload

/-!
# What a reload drops

A batch that a scheduled renewal ends keeps none of its paths, an event for the config hides one
for a certificate, a round without an attempt remembers the key that it read, and a failed attempt
changes no watch.
-/

namespace Rieul.Server.CertificateReload

section
variable {α : Type}

def gathered (paths : List α) : List (CertificateReloadTrigger α) → List α
  | [] => paths
  | .Filesystem next :: queue => gathered (paths ++ next) queue
  | .Scheduled :: _ => paths

def batchPaths (first : CertificateReloadTrigger α) (queue : List (CertificateReloadTrigger α)) :
    List α :=
  match first with
  | .Scheduled => []
  | .Filesystem paths => gathered paths queue

theorem drainTriggers_paths (paths : List α) (queue left : List (CertificateReloadTrigger α))
    (merged : List α) (h : drainTriggers paths queue = (.Filesystem merged, left)) :
    merged = gathered paths queue := by
  induction queue generalizing paths with
  | nil =>
    cases h
    rfl
  | cons trigger queue ih =>
    cases trigger with
    | Filesystem next => exact ih (paths ++ next) h
    | Scheduled => cases h

theorem collectReloadTriggers_paths (first : CertificateReloadTrigger α)
    (queue left : List (CertificateReloadTrigger α)) (merged : List α)
    (h : collectReloadTriggers first queue = (.Filesystem merged, left)) :
    merged = batchPaths first queue := by
  cases first with
  | Scheduled => cases h
  | Filesystem paths => exact drainTriggers_paths paths queue left merged h

theorem certificateReloadKey_ne (config : SystemConfig) : certificateReloadKey config ≠ "" := by
  unfold certificateReloadKey
  split <;> simp

variable [Paths α]

def certificateFiles (configPath : α) (config : SystemConfig) : List α :=
  match configuredCertificatePaths config configPath with
  | .ok files => files
  | .error _ => []

namespace Reloader

def filesOf (configPath : α) : Option SystemConfig → List α
  | some config => certificateFiles configPath config
  | none => []

def files (s : Reloader α) : List α := filesOf s.configPath s.read

/-- An event for the file that `file` names, whatever the spelling. -/
def EventFor (paths : List α) (file : α) : Prop :=
  ∃ path ∈ paths, Paths.resolved path = Paths.resolved (absolutePath file)

def ConfigEvent (s : Reloader α) (paths : List α) : Prop := EventFor paths s.configPath

def CertificateEvent (s : Reloader α) (paths : List α) : Prop := ∃ file ∈ s.files, EventFor paths file

def Needed (s : Reloader α) (paths : List α) (config : Option SystemConfig) : Prop :=
  (s.ConfigEvent paths ∧ ∃ c ∈ config, certificateReloadKey c ≠ s.loaded) ∨
    s.CertificateEvent paths

def Watched (s : Reloader α) (file : α) : Prop :=
  absolutePath file ∈ s.watch.certificateFiles ∧
    ∀ parent ∈ Paths.parent (absolutePath file), absolutePath parent ∈ s.watch.watching

def Tried (s t : Reloader α) (config : SystemConfig) (ok : Bool) : Prop :=
  t.attempts = (config, ok) :: s.attempts

/-- Nothing is dropped in a round from `s` to `t` that merges `paths`. -/
structure Answered (s t : Reloader α) (paths : List α) (found : Found α) : Prop where
  attempt : s.Needed paths found.config → ∃ config ok, found.config = some config ∧ s.Tried t config ok
  watched : ∀ config, s.Tried t config false →
    ∀ file ∈ certificateFiles s.configPath config, t.Watched file

/-- The watcher takes the directories that it is asked for. -/
def Watchable (accepts : α → Bool) (configPath : α) (config : Option SystemConfig) : Prop :=
  ∀ path ∈ configPath :: (filesOf configPath config).map absolutePath,
    ∀ parent ∈ Paths.parent path, accepts (absolutePath parent) = true

structure Clear (s : Reloader α) (trigger : CertificateReloadTrigger α) (paths : List α)
    (found : Found α) : Prop where
  /-- Events spell a path as the config does. -/
  spelled : ∀ path ∈ paths, ∀ file ∈ s.configPath :: s.files,
    Paths.resolved path = Paths.resolved (absolutePath file) →
      normalizedPathKey path = normalizedPathKey (absolutePath file)
  readable : s.CertificateEvent paths → found.config ≠ none
  scheduled : s.Needed paths found.config → trigger = .Scheduled →
    ∀ config ∈ found.config, usesScheduledCertificateRefresh config = true
  merged : s.CertificateEvent paths → s.watch.configChanged paths = true → trigger ≠ .Scheduled →
    ∀ config ∈ found.config, certificateReloadKey config ≠ s.watch.reloadKey
  seen : ∀ config ∈ found.config, s.shouldReload trigger config = false →
    certificateReloadKey config = s.loaded
  /-- What cannot be loaded names the certificate files of the config that the watches are for. -/
  failed : ∀ config ∈ found.config, s.shouldReload trigger config = true →
    found.succeeds config = false →
      certificateFiles s.configPath config ⊆ filesOf s.configPath s.set
  watchable : Watchable found.accepts s.configPath found.config

structure Kept (s : Reloader α) : Prop where
  configFile : s.watch.configFile = absolutePath s.configPath
  key : s.watch.reloadKey = s.loaded ∨ s.watch.reloadKey = ""
  files : s.files ⊆ filesOf s.configPath s.set
  watched : ∀ file ∈ filesOf s.configPath s.set, s.Watched file
  dirs : s.watch.watchedDirs ⊆ s.watch.watching

section
variable {s : Reloader α}

theorem configChanged_of_event (hk : s.Kept) {trigger : CertificateReloadTrigger α} {paths : List α}
    {found : Found α} (hclear : s.Clear trigger paths found) (h : s.ConfigEvent paths) :
    s.watch.configChanged paths = true := by
  obtain ⟨path, hpath, hfile⟩ := h
  simp only [CertificateWatchState.configChanged, List.any_eq_true, decide_eq_true_eq, hk.configFile]
  exact ⟨path, hpath, hclear.spelled path hpath _ List.mem_cons_self hfile⟩

theorem certificateChanged_of_event (hk : s.Kept) {trigger : CertificateReloadTrigger α}
    {paths : List α} {found : Found α} (hclear : s.Clear trigger paths found)
    (h : s.CertificateEvent paths) : s.watch.certificateChanged paths = true := by
  obtain ⟨file, hfile, path, hpath, hsame⟩ := h
  simp only [CertificateWatchState.certificateChanged, List.any_eq_true, decide_eq_true_eq]
  exact ⟨path, hpath, absolutePath file, (hk.watched file (hk.files hfile)).1,
    hclear.spelled path hpath file (List.mem_cons_of_mem _ hfile) hsame⟩

theorem shouldReload_of_needed (hk : s.Kept) (trigger : CertificateReloadTrigger α) (paths : List α)
    (hpaths : ∀ merged, trigger = .Filesystem merged → merged = paths) (found : Found α)
    (config : SystemConfig) (hconfig : found.config = some config) (hclear : s.Clear trigger paths found)
    (hneeded : s.Needed paths found.config) : s.shouldReload trigger config = true := by
  cases trigger with
  | Scheduled => exact hclear.scheduled hneeded rfl config hconfig
  | Filesystem merged =>
    obtain rfl := hpaths merged rfl
    unfold shouldReload
    dsimp only
    by_cases hchanged : s.watch.configChanged merged = true
    · rw [if_pos hchanged, decide_eq_true_eq]
      rcases hneeded with ⟨_, c, hc, hkey⟩ | hcertificate
      · rw [hconfig] at hc
        obtain rfl := Option.mem_some_iff.mp hc
        rcases hk.key with hloaded | hempty
        · rwa [hloaded]
        · rw [hempty]
          exact certificateReloadKey_ne config
      · exact hclear.merged hcertificate hchanged (by simp) config hconfig
    · have hevent := hneeded.resolve_left fun h => hchanged (configChanged_of_event hk hclear h.1)
      rw [if_neg hchanged, certificateChanged_of_event hk hclear hevent, Bool.true_or]

theorem Kept.dequeue (hk : s.Kept) (queue : List (CertificateReloadTrigger α)) :
    { s with queue }.Kept :=
  ⟨hk.configFile, hk.key, hk.files, hk.watched, hk.dirs⟩

end

theorem clear_iff (s : Reloader α) (trigger : CertificateReloadTrigger α) (paths : List α)
    (found : Found α) : s.Clear trigger paths found ↔
    (∀ path ∈ paths, ∀ file ∈ s.configPath :: s.files,
      Paths.resolved path = Paths.resolved (absolutePath file) →
        normalizedPathKey path = normalizedPathKey (absolutePath file)) ∧
    (s.CertificateEvent paths → found.config ≠ none) ∧
    (s.Needed paths found.config → trigger = .Scheduled →
      ∀ config ∈ found.config, usesScheduledCertificateRefresh config = true) ∧
    (s.CertificateEvent paths → s.watch.configChanged paths = true → trigger ≠ .Scheduled →
      ∀ config ∈ found.config, certificateReloadKey config ≠ s.watch.reloadKey) ∧
    (∀ config ∈ found.config, s.shouldReload trigger config = false →
      certificateReloadKey config = s.loaded) ∧
    (∀ config ∈ found.config, s.shouldReload trigger config = true → found.succeeds config = false →
      ∀ file ∈ certificateFiles s.configPath config, file ∈ filesOf s.configPath s.set) ∧
    Watchable found.accepts s.configPath found.config :=
  ⟨fun h => ⟨h.spelled, h.readable, h.scheduled, h.merged, h.seen,
      fun config hc hreload hfails _ hfile => h.failed config hc hreload hfails hfile, h.watchable⟩,
    fun ⟨hspelled, hreadable, hscheduled, hmerged, hseen, hfailed, hwatchable⟩ =>
      ⟨hspelled, hreadable, hscheduled, hmerged, hseen,
        fun config hc hreload hfails file hfile => hfailed config hc hreload hfails file hfile,
        hwatchable⟩⟩

end Reloader

variable [DecidableEq α]

namespace Reloader

/-- `P` holds of every round of the loop; the triggers in `arrived` come while it waits for more. -/
def Along (P : Reloader α → CertificateReloadTrigger α → List α → Found α → Prop) :
    Reloader α → List (Step α) → Prop
  | _, [] => True
  | s, .trigger trigger :: rest => Along P { s with queue := s.queue ++ [trigger] } rest
  | s, .reload arrived found :: rest =>
    match s.queue with
    | [] => True
    | first :: queue =>
      let (trigger, left) := collectReloadTriggers first (queue ++ arrived)
      P { s with queue := left } trigger (batchPaths first (queue ++ arrived)) found ∧
        Along P ({ s with queue := left }.reload trigger found) rest

section
variable (s : Reloader α) (trigger : CertificateReloadTrigger α) (paths : List α) (found : Found α)

instance (file : α) : Decidable (EventFor paths file) := by
  unfold EventFor
  infer_instance

instance : Decidable (s.ConfigEvent paths) := by
  unfold ConfigEvent
  infer_instance

instance : Decidable (s.CertificateEvent paths) := by
  unfold CertificateEvent
  infer_instance

instance (config : Option SystemConfig) : Decidable (s.Needed paths config) := by
  unfold Needed
  infer_instance

instance (accepts : α → Bool) (config : Option SystemConfig) :
    Decidable (Watchable accepts s.configPath config) := by
  unfold Watchable
  infer_instance

set_option synthInstance.maxSize 512 in
instance : Decidable (s.Clear trigger paths found) := decidable_of_iff' _ (clear_iff s trigger paths found)

end

instance decidableAlong
    (P : Reloader α → CertificateReloadTrigger α → List α → Found α → Prop)
    [∀ s trigger paths found, Decidable (P s trigger paths found)] :
    (s : Reloader α) → (steps : List (Step α)) → Decidable (Along P s steps)
  | _, [] => inferInstanceAs (Decidable True)
  | s, .trigger trigger :: rest =>
    have := decidableAlong P { s with queue := s.queue ++ [trigger] } rest
    inferInstanceAs (Decidable (Along P _ rest))
  | s, .reload arrived found :: rest =>
    match hqueue : s.queue with
    | [] => .isTrue (by rw [Along, hqueue]; trivial)
    | first :: queue =>
      match hcollect : collectReloadTriggers first (queue ++ arrived) with
      | (trigger, left) =>
        have := decidableAlong P ({ s with queue := left }.reload trigger found) rest
        decidable_of_iff
          (P { s with queue := left } trigger (batchPaths first (queue ++ arrived)) found ∧
            Along P ({ s with queue := left }.reload trigger found) rest)
          (by rw [Along, hqueue]; dsimp only; rw [hcollect])

end Reloader

theorem watchParentDir_eq (accepts : α → Bool) (w : CertificateWatchState α) (path : α) :
    (w.watchParentDir accepts path).configFile = w.configFile ∧
      (w.watchParentDir accepts path).reloadKey = w.reloadKey ∧
      (w.watchParentDir accepts path).certificateFiles = w.certificateFiles := by
  unfold CertificateWatchState.watchParentDir
  split
  · exact ⟨rfl, rfl, rfl⟩
  · dsimp only
    split
    · exact ⟨rfl, rfl, rfl⟩
    · exact ⟨rfl, rfl, rfl⟩

theorem foldl_watchParentDir (accepts : α → Bool) (paths : List α) (w : CertificateWatchState α) :
    (paths.foldl (CertificateWatchState.watchParentDir accepts) w).configFile = w.configFile ∧
      (paths.foldl (CertificateWatchState.watchParentDir accepts) w).reloadKey = w.reloadKey ∧
      (paths.foldl (CertificateWatchState.watchParentDir accepts) w).certificateFiles =
        w.certificateFiles := by
  induction paths generalizing w with
  | nil => exact ⟨rfl, rfl, rfl⟩
  | cons path paths ih =>
    obtain ⟨hconfig, hkey, hfiles⟩ := ih (w.watchParentDir accepts path)
    obtain ⟨hconfig', hkey', hfiles'⟩ := watchParentDir_eq accepts w path
    exact ⟨hconfig.trans hconfig', hkey.trans hkey', hfiles.trans hfiles'⟩

theorem watchParentDir_watching (accepts : α → Bool) (w : CertificateWatchState α) (path : α)
    (hdirs : w.watchedDirs ⊆ w.watching)
    (hpath : ∀ parent ∈ Paths.parent path, accepts (absolutePath parent) = true) :
    (w.watchParentDir accepts path).watchedDirs ⊆ (w.watchParentDir accepts path).watching ∧
      w.watching ⊆ (w.watchParentDir accepts path).watching ∧
      ∀ parent ∈ Paths.parent path,
        absolutePath parent ∈ (w.watchParentDir accepts path).watching := by
  unfold CertificateWatchState.watchParentDir
  split
  · rename_i hnone
    refine ⟨hdirs, List.Subset.refl _, fun parent hparent => ?_⟩
    rw [hnone] at hparent
    cases hparent
  · rename_i parent hsome
    have hparent : ∀ other ∈ Paths.parent path, absolutePath other = absolutePath parent := by
      intro other hother
      cases hsome.symm.trans hother
      rfl
    dsimp only
    split
    · rename_i hmem
      exact ⟨hdirs, List.Subset.refl _, fun other hother => hparent other hother ▸ hdirs hmem⟩
    · dsimp only
      rw [if_pos (hpath parent hsome)]
      refine ⟨List.cons_subset_cons _ hdirs, List.subset_cons_self _ _, fun other hother => ?_⟩
      rw [hparent other hother]
      exact List.mem_cons_self

theorem foldl_watching (accepts : α → Bool) (paths : List α) (w : CertificateWatchState α)
    (hdirs : w.watchedDirs ⊆ w.watching)
    (hpaths : ∀ path ∈ paths, ∀ parent ∈ Paths.parent path, accepts (absolutePath parent) = true) :
    let w' := paths.foldl (CertificateWatchState.watchParentDir accepts) w
    w'.watchedDirs ⊆ w'.watching ∧ w.watching ⊆ w'.watching ∧
      ∀ path ∈ paths, ∀ parent ∈ Paths.parent path, absolutePath parent ∈ w'.watching := by
  induction paths generalizing w with
  | nil => exact ⟨hdirs, List.Subset.refl _, fun path hpath => nomatch hpath⟩
  | cons path paths ih =>
    obtain ⟨hpath, hrest⟩ := List.forall_mem_cons.mp hpaths
    obtain ⟨hd, hgrown, hown⟩ := watchParentDir_watching accepts w path hdirs hpath
    obtain ⟨hd', hgrown', hall⟩ := ih (w.watchParentDir accepts path) hd hrest
    refine ⟨hd', List.Subset.trans hgrown hgrown', List.forall_mem_cons.mpr ⟨?_, hall⟩⟩
    exact fun parent hparent => hgrown' (hown parent hparent)

theorem update_watching (accepts : α → Bool) (w : CertificateWatchState α) (configPath : α)
    (config : SystemConfig) (hdirs : w.watchedDirs ⊆ w.watching)
    (hw : Reloader.Watchable accepts configPath (some config)) :
    (w.update accepts configPath config).watchedDirs ⊆ (w.update accepts configPath config).watching ∧
      ∀ file ∈ certificateFiles configPath config, ∀ parent ∈ Paths.parent (absolutePath file),
        absolutePath parent ∈ (w.update accepts configPath config).watching := by
  unfold Reloader.Watchable Reloader.filesOf certificateFiles at hw
  unfold CertificateWatchState.update certificateFiles
  cases hfiles : configuredCertificatePaths config configPath with
  | error e => exact ⟨hdirs, fun file hfile => absurd hfile List.not_mem_nil⟩
  | ok files =>
    dsimp only at hw
    rw [hfiles] at hw
    dsimp only at hw ⊢
    obtain ⟨hconfig, hrest⟩ := List.forall_mem_cons.mp hw
    obtain ⟨hd, -, -⟩ := watchParentDir_watching accepts
      { w with
        configFile := absolutePath configPath
        reloadKey := certificateReloadKey config
        certificateFiles := files.map absolutePath } configPath hdirs hconfig
    obtain ⟨hd', -, hall⟩ := foldl_watching accepts (files.map absolutePath) _ hd hrest
    exact ⟨hd', fun file hfile => hall _ (List.mem_map_of_mem hfile)⟩

/-- `update_certificate_watches` remembers the config that was read. -/
theorem update_spec (accepts : α → Bool) (w : CertificateWatchState α) (configPath : α)
    (config : SystemConfig) :
    (w.update accepts configPath config).configFile = absolutePath configPath ∧
      (w.update accepts configPath config).reloadKey = certificateReloadKey config ∧
      ∀ file ∈ certificateFiles configPath config,
        absolutePath file ∈ (w.update accepts configPath config).certificateFiles := by
  unfold CertificateWatchState.update certificateFiles
  cases configuredCertificatePaths config configPath with
  | error e => exact ⟨rfl, rfl, fun file hfile => absurd hfile List.not_mem_nil⟩
  | ok files =>
    dsimp only
    obtain ⟨hconfig, hkey, hfiles⟩ := foldl_watchParentDir accepts (files.map absolutePath)
      (CertificateWatchState.watchConfigParent accepts
        { w with
          configFile := absolutePath configPath
          reloadKey := certificateReloadKey config
          certificateFiles := files.map absolutePath } configPath)
    obtain ⟨hconfig', hkey', hfiles'⟩ := watchParentDir_eq accepts
      { w with
        configFile := absolutePath configPath
        reloadKey := certificateReloadKey config
        certificateFiles := files.map absolutePath } configPath
    refine ⟨hconfig.trans hconfig', hkey.trans hkey', ?_⟩
    intro file hfile
    rw [hfiles]
    refine Eq.mpr (congrArg (absolutePath file ∈ ·) hfiles') ?_
    exact List.mem_map_of_mem hfile

namespace Reloader

variable {s : Reloader α}

theorem kept_update (accepts : α → Bool) (config : SystemConfig) (hread : s.read = some config)
    (hkey : certificateReloadKey config = s.loaded) (hdirs : s.watch.watchedDirs ⊆ s.watch.watching)
    (hw : Watchable accepts s.configPath (some config)) : (s.update accepts config).Kept := by
  obtain ⟨hconfig, hreload, hfiles⟩ := update_spec accepts s.watch s.configPath config
  obtain ⟨hd, hwatching⟩ := update_watching accepts s.watch s.configPath config hdirs hw
  refine ⟨hconfig, .inl (hreload.trans hkey), ?_, ?_, hd⟩
  · simp [Reloader.files, Reloader.update, hread]
  · exact fun file hfile => ⟨hfiles file hfile, hwatching file hfile⟩

theorem Kept.reload (hk : s.Kept) (trigger : CertificateReloadTrigger α) (paths : List α)
    (hpaths : ∀ merged, trigger = .Filesystem merged → merged = paths) (found : Found α)
    (hclear : s.Clear trigger paths found) :
    s.Answered (s.reload trigger found) paths found ∧ (s.reload trigger found).Kept := by
  have hneeded := shouldReload_of_needed hk trigger paths hpaths found
  have hw := hclear.watchable
  unfold Reloader.reload
  split
  · rename_i hnone
    refine ⟨⟨?_, ?_⟩, hk⟩
    · rintro (⟨_, config, hconfig, _⟩ | hcertificate)
      · rw [hnone] at hconfig
        cases hconfig
      · exact absurd hnone (hclear.readable hcertificate)
    · intro config htried
      exact absurd htried.symm (List.cons_ne_self _ _)
  · rename_i config hconfig
    rw [hconfig] at hw
    dsimp only
    split
    · rename_i hreload
      cases hok : found.succeeds config with
      | false =>
        have hset := hclear.failed config hconfig hreload hok
        simp only [Bool.false_eq_true, if_false]
        refine ⟨⟨fun _ => ⟨config, false, hconfig, rfl⟩, ?_⟩, ?_⟩
        · intro other htried file hfile
          obtain ⟨heq, _⟩ := List.cons.inj htried
          cases heq
          exact hk.watched file (hset hfile)
        · exact ⟨hk.configFile, hk.key, hset, hk.watched, hk.dirs⟩
      | true =>
        simp only [if_true]
        refine ⟨⟨fun _ => ⟨config, true, hconfig, rfl⟩, ?_⟩, kept_update _ config rfl rfl hk.dirs hw⟩
        intro other htried
        obtain ⟨heq, _⟩ := List.cons.inj htried
        cases heq
    · rename_i hskip
      have hseen := hclear.seen config hconfig (Bool.not_eq_true _ ▸ hskip)
      refine ⟨⟨?_, ?_⟩, kept_update _ config rfl hseen hk.dirs hw⟩
      · intro hneed
        exact absurd (hneeded config hconfig hclear hneed) hskip
      · intro other htried
        exact absurd htried.symm (List.cons_ne_self _ _)

theorem Kept.along (steps : List (Step α)) (hk : s.Kept) (hclear : Along Clear s steps) :
    Along (fun s trigger paths found => s.Answered (s.reload trigger found) paths found) s steps := by
  induction steps generalizing s with
  | nil => trivial
  | cons step steps ih =>
    cases step with
    | trigger trigger => exact ih (hk.dequeue _) hclear
    | reload arrived found =>
      unfold Along at hclear ⊢
      split
      · trivial
      · rename_i first queue hqueue
        rw [hqueue] at hclear
        dsimp only at hclear ⊢
        cases hcollect : collectReloadTriggers first (queue ++ arrived) with
        | mk trigger left =>
          rw [hcollect] at hclear
          obtain ⟨hround, hrest⟩ := hclear
          have hpaths : ∀ merged, trigger = .Filesystem merged →
              merged = batchPaths first (queue ++ arrived) := by
            rintro merged rfl
            exact collectReloadTriggers_paths first _ left merged hcollect
          obtain ⟨hanswered, hkept⟩ := (hk.dequeue left).reload trigger _ hpaths found hround
          exact ⟨hanswered, ih hkept hrest⟩

theorem kept_start (configPath : α) (loaded : String) (config : Option SystemConfig)
    (accepts : α → Bool) (hloaded : ∀ c, config = some c → certificateReloadKey c = loaded)
    (hw : Watchable accepts configPath config) :
    (start configPath loaded config accepts).Kept := by
  have hnone : (CertificateWatchState.default (α := α)).watchedDirs ⊆
      (CertificateWatchState.default (α := α)).watching := List.Subset.refl _
  cases config with
  | none =>
    obtain ⟨hconfig, hkey, _⟩ := watchParentDir_eq accepts
      { CertificateWatchState.default (α := α) with configFile := absolutePath configPath } configPath
    obtain ⟨hd, -, -⟩ := watchParentDir_watching accepts
      { CertificateWatchState.default (α := α) with configFile := absolutePath configPath } configPath
      hnone (hw configPath List.mem_cons_self)
    exact ⟨hconfig, .inr hkey, List.Subset.refl _,
      fun file hfile => absurd hfile List.not_mem_nil, hd⟩
  | some config =>
    obtain ⟨hconfig, hkey, hfiles⟩ :=
      update_spec accepts CertificateWatchState.default configPath config
    obtain ⟨hd, hwatching⟩ :=
      update_watching accepts CertificateWatchState.default configPath config hnone hw
    exact ⟨hconfig, .inl (hkey.trans (hloaded config rfl)), List.Subset.refl _,
      fun file hfile => ⟨hfiles file hfile, hwatching file hfile⟩, hd⟩

def Answers (s : Reloader α) (trigger : CertificateReloadTrigger α) (paths : List α)
    (found : Found α) : Prop :=
  s.Answered (s.reload trigger found) paths found

end Reloader

end

/-- Paths without `.`, `..` and links. -/
instance : Paths String where
  resolved path := path
  ofString path := path
  text path := path
  isAbsolute path := "/".toList.isPrefixOf path.toList
  join base path := if base.toList.getLast? = some '/' then base ++ path else base ++ "/" ++ path
  parent path :=
    let rest := String.ofList ((path.toList.reverse.dropWhile (· ≠ '/')).drop 1).reverse
    if path = "/" then none else if rest = "" ∧ "/".toList.isPrefixOf path.toList then "/" else rest
  currentDir := "/"

def sampleConfig : SystemConfig := ⟨none, some ⟨"cert.pem", "key.pem"⟩⟩

def sampleFound : Found String := ⟨some sampleConfig, fun _ => true, true, true⟩

def sampleStart : Reloader String :=
  .start "/etc/rieul/rieul.yaml" "tls:cert.pem:key.pem" (some sampleConfig) fun _ => true

def brokenCertificate : List (Step String) :=
  [.trigger (.Filesystem ["/etc/rieul/cert.pem"]),
    .reload [.Filesystem ["/etc/rieul/KEY.pem"]] { sampleFound with loads := false },
    .trigger (.Filesystem ["/etc/rieul/cert.pem"]), .reload [] sampleFound]

end Rieul.Server.CertificateReload
