import Rieul.Server.Pairing

/-!
# Reloading certificates (daemon/host/src/server.rs, daemon/host/src/cert.rs)

Events of files and scheduled renewals are queued. The loop takes one, waits for
more, reads the config and decides whether the certificate is to be loaded anew. The
operations on paths are those of the platform.
-/

namespace Rieul.Server.CertificateReload

/-- `std::path` and `std::env::current_dir`; `resolved` is the file that the system finds at a
path. -/
class Paths (α : Type) where
  resolved : α → α
  ofString : String → α
  text : α → String
  isAbsolute : α → Bool
  join : α → α → α
  parent : α → Option α
  currentDir : α

structure TlsConfig where
  certFile : String
  keyFile : String

structure SystemConfig where
  domain : Option String
  tls : Option TlsConfig

/-- `str::to_ascii_lowercase`. -/
def toAsciiLowercase (s : String) : String := String.ofList (s.toList.map Char.toLower)

/-- `str::trim_end_matches('.')`. -/
def trimEndDots (s : String) : String :=
  String.ofList (s.toList.reverse.dropWhile (· = '.')).reverse

def cleanDomain (domain : String) : String := toAsciiLowercase (trimEndDots (trim domain))

/-- `normalized_domain`; what has a `://` has a `/`. -/
def normalizedDomain : Option String → Except Unit (Option String)
  | none => .ok none
  | some domain =>
    let domain := cleanDomain domain
    if domain = "" then .ok none
    else if domain.toList.any (fun c => c = '/' || c = '\\') then .error ()
    else .ok (some domain)

def isTailscaleDomain (domain : String) : Bool := ".ts.net".toList.isSuffixOf domain.toList

def usesScheduledCertificateRefresh (config : SystemConfig) : Bool :=
  config.tls.isNone &&
    match normalizedDomain config.domain with
    | .ok (some domain) => isTailscaleDomain domain
    | _ => false

def certificateReloadKey (config : SystemConfig) : String :=
  match config.tls, config.domain with
  | some tls, _ => "tls:" ++ tls.certFile ++ ":" ++ tls.keyFile
  | none, some domain => "domain:" ++ cleanDomain domain
  | none, none => "unconfigured"

def sanitizeFilename (value : String) : String :=
  String.ofList (value.toList.map fun c => if c.isAlphanum || c = '.' || c = '-' then c else '_')

/-- `prepare_server_certificate`; `loads` says that the files, or `tailscale`, give a certificate. -/
def prepareServerCertificate (config : SystemConfig) (loads : Bool) : Bool :=
  match config.tls, normalizedDomain config.domain with
  | some _, _ => loads
  | none, .ok (some domain) => isTailscaleDomain domain && loads
  | none, _ => false

section
variable {α : Type} [DecidableEq α] [Paths α]

def absolutePath (path : α) : α :=
  if Paths.isAbsolute path then path else Paths.join Paths.currentDir path

def normalizedPathKey (path : α) : String :=
  toAsciiLowercase (String.ofList
    ((Paths.text (absolutePath path)).toList.map fun c => if c = '\\' then '/' else c))

def configDir (configPath : α) : α := (Paths.parent configPath).getD (Paths.ofString ".")

def resolveConfigRelative (configPath : α) (raw : String) : α :=
  let path : α := Paths.ofString raw
  if Paths.isAbsolute path then path else Paths.join (configDir configPath) path

def tailscaleCertPaths (configPath : α) (domain : String) : List α :=
  let base := Paths.join (Paths.join (configDir configPath) (Paths.ofString "certs"))
    (Paths.ofString "tailscale")
  let stem := sanitizeFilename domain
  [Paths.join base (Paths.ofString (stem ++ ".crt.pem")),
    Paths.join base (Paths.ofString (stem ++ ".key.pem"))]

def configuredCertificatePaths (config : SystemConfig) (configPath : α) : Except Unit (List α) :=
  match config.tls with
  | some tls =>
    .ok [resolveConfigRelative configPath tls.certFile, resolveConfigRelative configPath tls.keyFile]
  | none =>
    match normalizedDomain config.domain with
    | .error e => .error e
    | .ok none => .ok []
    | .ok (some domain) =>
      if isTailscaleDomain domain then .ok (tailscaleCertPaths configPath domain) else .ok []

/-- `CertificateWatchState`; `watching` are the directories that the watcher accepted. -/
structure CertificateWatchState (α : Type) where
  watchedDirs : List α
  configFile : α
  certificateFiles : List α
  reloadKey : String
  watching : List α

namespace CertificateWatchState

def default : CertificateWatchState α := ⟨[], Paths.ofString "", [], "", []⟩

def configChanged (w : CertificateWatchState α) (paths : List α) : Bool :=
  paths.any fun path => normalizedPathKey path = normalizedPathKey w.configFile

def certificateChanged (w : CertificateWatchState α) (paths : List α) : Bool :=
  paths.any fun path => w.certificateFiles.any fun file =>
    normalizedPathKey path = normalizedPathKey file

/-- `watch_parent_dir`; `accepts` says which directories can be watched. -/
def watchParentDir (accepts : α → Bool) (w : CertificateWatchState α) (path : α) :
    CertificateWatchState α :=
  match Paths.parent path with
  | none => w
  | some parent =>
    let parent := absolutePath parent
    if parent ∈ w.watchedDirs then w
    else
      { w with
        watchedDirs := parent :: w.watchedDirs
        watching := if accepts parent then parent :: w.watching else w.watching }

def watchConfigParent (accepts : α → Bool) (w : CertificateWatchState α) (configPath : α) :
    CertificateWatchState α :=
  { w with configFile := absolutePath configPath }.watchParentDir accepts configPath

/-- `update_certificate_watches`; an error of it is only logged. -/
def update (accepts : α → Bool) (w : CertificateWatchState α) (configPath : α)
    (config : SystemConfig) : CertificateWatchState α :=
  let w := { w with configFile := absolutePath configPath, reloadKey := certificateReloadKey config }
  match configuredCertificatePaths config configPath with
  | .error _ => w
  | .ok files =>
    let w := { w with certificateFiles := files.map absolutePath }
    w.certificateFiles.foldl (watchParentDir accepts) (w.watchConfigParent accepts configPath)

end CertificateWatchState

inductive CertificateReloadTrigger (α : Type) where
  | Filesystem (paths : List α)
  | Scheduled
  deriving DecidableEq

/-- The loop of `collect_reload_triggers`: what is merged, and what stays queued. -/
def drainTriggers (paths : List α) : List (CertificateReloadTrigger α) →
    CertificateReloadTrigger α × List (CertificateReloadTrigger α)
  | [] => (.Filesystem paths, [])
  | .Filesystem next :: queue => drainTriggers (paths ++ next) queue
  | .Scheduled :: queue => (.Scheduled, queue)

def collectReloadTriggers (first : CertificateReloadTrigger α)
    (queue : List (CertificateReloadTrigger α)) :
    CertificateReloadTrigger α × List (CertificateReloadTrigger α) :=
  match first with
  | .Scheduled => (.Scheduled, queue)
  | .Filesystem paths => drainTriggers paths queue

/-- `loaded` is the key of the config that was loaded last, `read` the config that was
read last, `set` the config that the watches were set for last and `attempts` what was tried to be
loaded, the latest first. -/
structure Reloader (α : Type) where
  configPath : α
  watch : CertificateWatchState α
  queue : List (CertificateReloadTrigger α)
  loaded : String
  read : Option SystemConfig
  set : Option SystemConfig
  attempts : List (SystemConfig × Bool)

structure Found (α : Type) where
  config : Option SystemConfig
  accepts : α → Bool
  loads : Bool
  saves : Bool

def Found.succeeds (found : Found α) (config : SystemConfig) : Bool :=
  prepareServerCertificate config found.loads && found.saves

inductive Step (α : Type) where
  | trigger (trigger : CertificateReloadTrigger α)
  | reload (arrived : List (CertificateReloadTrigger α)) (found : Found α)

namespace Reloader

/-- `reload_certificates` up to its loop: the key of what the daemon serves, and the
config that it reads for its watches. -/
def start (configPath : α) (loaded : String) (config : Option SystemConfig) (accepts : α → Bool) :
    Reloader α :=
  let watch := match config with
    | some config => CertificateWatchState.default.update accepts configPath config
    | none => CertificateWatchState.default.watchConfigParent accepts configPath
  ⟨configPath, watch, [], loaded, config, config, []⟩

def update (s : Reloader α) (accepts : α → Bool) (config : SystemConfig) : Reloader α :=
  { s with watch := s.watch.update accepts s.configPath config, set := some config }

/-- `should_reload`. -/
def shouldReload (s : Reloader α) (trigger : CertificateReloadTrigger α) (config : SystemConfig) :
    Bool :=
  match trigger with
  | .Scheduled => usesScheduledCertificateRefresh config
  | .Filesystem paths =>
    if s.watch.configChanged paths then certificateReloadKey config ≠ s.watch.reloadKey
    else s.watch.certificateChanged paths || paths.isEmpty

def reload (s : Reloader α) (trigger : CertificateReloadTrigger α) (found : Found α) : Reloader α :=
  match found.config with
  | none => s
  | some config =>
    let s := { s with read := some config }
    if s.shouldReload trigger config then
      let ok := found.succeeds config
      let s := { s with attempts := (config, ok) :: s.attempts }
      if ok then { s with loaded := certificateReloadKey config }.update found.accepts config else s
    else s.update found.accepts config

end Reloader
end
end Rieul.Server.CertificateReload
