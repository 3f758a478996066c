import Rieul.Agent.Catalog
import Rieul.Agent.EventStream

/-!
# The revision of the catalog

Rows belong to the revision they are returned with as long as no change is recorded
between the two accesses of their listing, and the channel has the stored revision
as long as revisions are sent in order and to somebody.
-/

namespace Rieul.Agent
namespace CatalogServer
variable (server : CatalogServer)

def unchanged (index : ℕ) : Bool :=
  (server.listings[index]?).all (·.since = server.catalog.revision)

/-- A listing reads the revision before another change is recorded, and a revision is sent to a
receiver, and not over a higher one. -/
def timely : CatalogServerStep → Bool
  | .readRevision index => server.unchanged index
  | .publish index =>
    0 < server.receivers ∧ (server.publishing[index]?).all (server.events ≤ ·)
  | _ => true

def stepTimely (step : CatalogServerStep) : Option CatalogServer :=
  if server.timely step then server.step step else none

def Reflects (answer : CatalogAnswer) (revision : ℕ) : Prop :=
  ∃ catalog ∈ server.past, revision ≤ catalog.revision ∧ answer.page = catalog.page answer.request

/-- What clients rely on: who refetches on a higher revision only has missed nothing once all is
published. -/
structure Trusted : Prop where
  rows : ∀ answer ∈ server.answers, server.Reflects answer answer.catalogRevision
  events : server.publishing = [] → server.events = server.catalog.revision
  fresh : server.publishing = [] → ∀ answer ∈ server.answers,
    server.events ≤ answer.catalogRevision → server.Reflects answer server.catalog.revision

structure Kept : Prop where
  present : server.catalog ∈ server.past
  listings : ∀ listing ∈ server.listings, ∃ catalog ∈ server.past,
    catalog.revision = listing.since ∧ listing.page = catalog.page listing.request
  answers : ∀ answer ∈ server.answers, server.Reflects answer answer.catalogRevision
  bounded : ∀ revision ∈ server.publishing, revision ≤ server.catalog.revision
  events : server.events ≤ server.catalog.revision
  latest : server.events = server.catalog.revision ∨ server.catalog.revision ∈ server.publishing

variable {server} {next : CatalogServer}

theorem commit_revision (catalog stored : SessionCatalog) (write : CatalogWrite)
    (h : catalog.commit write = some stored) : stored.revision = catalog.revision + 1 := by
  obtain ⟨sessions, -, heq⟩ := Option.map_eq_some_iff.mp h
  rw [← heq]
  rfl

theorem Reflects.stored {answer : CatalogAnswer} {revision : ℕ} (h : server.Reflects answer revision)
    (catalog : SessionCatalog) : (server.stored catalog).Reflects answer revision := by
  obtain ⟨old, hold, hrest⟩ := h
  exact ⟨old, List.mem_append_left _ hold, hrest⟩

theorem Kept.stored (h : server.Kept) (catalog : SessionCatalog) (publishing : List ℕ)
    (hseq : server.catalog.revision ≤ catalog.revision)
    (hpublishing : publishing = server.publishing ∧ catalog.revision = server.catalog.revision ∨
      publishing = server.publishing ++ [catalog.revision]) :
    { server.stored catalog with publishing := publishing }.Kept := by
  refine ⟨List.mem_append_right _ (List.mem_singleton_self _), ?_, ?_, ?_, ?_, ?_⟩
  · intro listing hmem
    obtain ⟨old, hold, hrest⟩ := h.listings listing hmem
    exact ⟨old, List.mem_append_left _ hold, hrest⟩
  · intro answer hmem
    exact (h.answers answer hmem).stored catalog
  · intro revision hmem
    dsimp only at hmem ⊢
    rcases hpublishing with ⟨hsame, -⟩ | hnew
    · rw [hsame] at hmem
      exact Nat.le_trans (h.bounded revision hmem) hseq
    · rw [hnew] at hmem
      rcases List.mem_append.mp hmem with hold | hlast
      · exact Nat.le_trans (h.bounded revision hold) hseq
      · rw [List.mem_singleton.mp hlast]
        exact Nat.le_refl _
  · exact Nat.le_trans h.events hseq
  · dsimp only
    rcases hpublishing with ⟨hsame, hrevision⟩ | hnew
    · rw [hsame]
      show server.events = catalog.revision ∨ catalog.revision ∈ server.publishing
      rw [hrevision]
      exact h.latest
    · rw [hnew]
      exact .inr (List.mem_append_right _ (List.mem_singleton_self _))

theorem Kept.publish (h : server.Kept) (index : ℕ) (htimely : server.timely (.publish index) = true)
    (hstep : server.step (.publish index) = some next) : next.Kept := by
  obtain ⟨revision, hindex, heq⟩ := Option.map_eq_some_iff.mp hstep
  obtain ⟨hreceivers, hle⟩ := of_decide_eq_true htimely
  rw [hindex] at hle
  have hle : server.events ≤ revision := of_decide_eq_true hle
  have hbound := h.bounded revision (Calls.mem hindex)
  rw [if_neg (by omega)] at heq
  rw [← heq]
  refine ⟨h.present, h.listings, h.answers, ?_, hbound, ?_⟩
  · exact fun other hmem => h.bounded other (List.mem_of_mem_eraseIdx hmem)
  · dsimp only
    by_cases hlast : revision = server.catalog.revision
    · exact .inl hlast
    · -- a higher revision is still to be sent
      have hevents := h.events
      rcases h.latest with hcurrent | hmem
      · omega
      · rcases Calls.mem_or_mem_eraseIdx hindex _ hmem with hsame | hrest
        · exact absurd hsame.symm hlast
        · exact .inr hrest

theorem Kept.readRevision (h : server.Kept) (index : ℕ)
    (htimely : server.timely (.readRevision index) = true)
    (hstep : server.step (.readRevision index) = some next) : next.Kept := by
  obtain ⟨listing, hindex, heq⟩ := Option.map_eq_some_iff.mp hstep
  dsimp only [timely, unchanged] at htimely
  rw [hindex] at htimely
  have hsince : listing.since = server.catalog.revision := of_decide_eq_true htimely
  obtain ⟨catalog, hmem, hrevision, hpage⟩ := h.listings listing (Calls.mem hindex)
  rw [← heq]
  refine ⟨h.present, ?_, ?_, h.bounded, h.events, h.latest⟩
  · exact fun other hother => h.listings other (List.mem_of_mem_eraseIdx hother)
  · intro answer hanswer
    rcases List.mem_append.mp hanswer with hold | hnew
    · exact h.answers answer hold
    · rw [List.mem_singleton.mp hnew]
      refine ⟨catalog, hmem, ?_, hpage⟩
      dsimp only
      omega

theorem Kept.step (h : server.Kept) (step : CatalogServerStep)
    (hstep : server.stepTimely step = some next) : next.Kept := by
  obtain ⟨htimely, hstep⟩ := Option.ite_none_right_eq_some.mp hstep
  cases step with
  | write write =>
    dsimp only [CatalogServer.step] at hstep
    split at hstep
    · cases hstep
      exact h
    · rename_i catalog hcommit
      have hrevision := commit_revision _ _ write hcommit
      cases hstep
      exact h.stored catalog _ (by omega) (.inr rfl)
  | advance sessionId nowMs =>
    cases hstep
    exact h.stored _ _ (Nat.le_refl _) (.inl ⟨rfl, rfl⟩)
  | publish index => exact h.publish index htimely hstep
  | subscribe | unsubscribe =>
    cases hstep
    exact ⟨h.present, h.listings, h.answers, h.bounded, h.events, h.latest⟩
  | listRows request =>
    dsimp only [CatalogServer.step] at hstep
    split at hstep
    · cases hstep
      exact h
    · cases hstep
      refine ⟨h.present, ?_, h.answers, h.bounded, h.events, h.latest⟩
      intro listing hmem
      rcases List.mem_append.mp hmem with hold | hnew
      · exact h.listings listing hold
      · rw [List.mem_singleton.mp hnew]
        exact ⟨server.catalog, h.present, rfl, rfl⟩
  | readRevision index => exact h.readRevision index htimely hstep

theorem opened_kept (catalog : SessionCatalog) : (opened catalog).Kept :=
  ⟨List.mem_singleton_self _, fun _ hmem => absurd hmem List.not_mem_nil,
    fun _ hmem => absurd hmem List.not_mem_nil, fun _ hmem => absurd hmem List.not_mem_nil,
    Nat.le_refl _, .inl rfl⟩

theorem Kept.trusted (h : server.Kept) : server.Trusted := by
  have hevents : server.publishing = [] → server.events = server.catalog.revision := by
    intro hnone
    refine h.latest.resolve_right ?_
    rw [hnone]
    exact List.not_mem_nil
  refine ⟨h.answers, hevents, ?_⟩
  intro hnone answer hmem hle
  obtain ⟨catalog, hcatalog, hrevision, hpage⟩ := h.answers answer hmem
  refine ⟨catalog, hcatalog, ?_, hpage⟩
  have hcurrent := hevents hnone
  omega

end CatalogServer

theorem catalog_trusted (catalog : SessionCatalog) (steps : List CatalogServerStep)
    (server : CatalogServer)
    (hrun : steps.foldlM CatalogServer.stepTimely (.opened catalog) = some server) :
    server.Trusted := by
  have hkept : server.Kept := by
    refine System.run_invariant CatalogServer.stepTimely (·.Kept) ?_ steps
      (CatalogServer.opened_kept catalog) hrun
    exact fun server step next h hstep => h.step step hstep
  exact hkept.trusted

def emptyCatalog : SessionCatalog := ⟨[], 0, []⟩

def draftSession : CatalogSession := ⟨emptyRow, none, none, 1000⟩

def everything : ListAgentSessionsReq := ⟨⟨.any, .activeOnly, none⟩, none, 20⟩

def archiveDraft : CatalogServerStep := .write (.updateSession 7 none (some true) 2000)

def promptListing : List CatalogServerStep :=
  [.subscribe, .write (.createSession draftSession), .publish 0, archiveDraft, .publish 0,
    .listRows everything, .readRevision 0]

def tornListing : List CatalogServerStep :=
  [.subscribe, .write (.createSession draftSession), .publish 0, .listRows everything,
    archiveDraft, .publish 0, .readRevision 0]

def reversedRevisions : List CatalogServerStep :=
  [.subscribe, .write (.createSession draftSession), archiveDraft, .publish 1, .publish 0]

def unheardRevision : List CatalogServerStep := [.write (.createSession draftSession), .publish 0]

theorem catalog_trusted_promptListing : ∃ server,
    promptListing.foldlM CatalogServer.stepTimely (.opened emptyCatalog) = some server ∧
    server.publishing = [] ∧ server.answers.map (·.catalogRevision) = [2] ∧ server.Trusted := by
  refine ⟨_, rfl, rfl, rfl, ?_⟩
  exact catalog_trusted emptyCatalog promptListing _ rfl

theorem catalog_misleads :
    (∃ server, tornListing.foldlM CatalogServer.step (.opened emptyCatalog) = some server ∧
      server.publishing = [] ∧ server.listings = [] ∧ ¬ server.Trusted) ∧
    (∃ server, reversedRevisions.foldlM CatalogServer.step (.opened emptyCatalog) = some server ∧
      server.publishing = [] ∧ server.events = 1 ∧ server.catalog.revision = 2 ∧
      ¬ server.Trusted) ∧
    ∃ server, unheardRevision.foldlM CatalogServer.step (.opened emptyCatalog) = some server ∧
      server.publishing = [] ∧ server.events = 0 ∧ server.catalog.revision = 1 ∧
      ¬ server.Trusted := by
  refine ⟨⟨_, rfl, rfl, rfl, ?_⟩, ⟨_, rfl, rfl, rfl, rfl, ?_⟩, _, rfl, rfl, rfl, rfl, ?_⟩
  · intro htrusted
    obtain ⟨catalog, hmem, hle, hpage⟩ := htrusted.rows _ (List.mem_singleton_self _)
    have hrows := congrArg (·.rows.length) hpage
    rcases List.mem_cons.mp hmem with hfirst | hmem
    · rw [hfirst] at hle
      exact absurd hle (by decide)
    · rcases List.mem_cons.mp hmem with hsecond | hmem
      · rw [hsecond] at hle
        exact absurd hle (by decide)
      · -- the draft is archived in the last state
        rw [List.mem_singleton.mp hmem] at hrows
        exact absurd hrows (by decide)
  · intro htrusted
    have hevents := htrusted.events rfl
    cases hevents
  · intro htrusted
    have hevents := htrusted.events rfl
    cases hevents

end Rieul.Agent
