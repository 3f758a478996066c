import Mathlib.Data.List.AList
import Mathlib.Data.List.DropRight
import Mathlib.Data.List.Induction
import Mathlib.Data.List.Sort
import Mathlib.Data.String.Basic
import Rieul.Lib.Keyed

/-!
# Table diffs (daemon/host/src/server.rs, agent.rs, web/src/state/explorer.ts,
web/src/view/workbench/tool/daemon/index.tsx)

A subscription sends the rows of a listing and then what changed against the
rows it sent last. The rows of the agent tables are any type with a key; no view
of the browser shows them, so they are taken up as `applyEntryPatch` does.
-/

namespace Rieul.Server
open Keyed

inductive FsEntryKind where
  | file
  | directory
  | symlink
  | other
  deriving DecidableEq

structure FsEntry where
  name : String
  path : String
  kind : FsEntryKind
  size : Option ℕ
  modifiedAtMs : Option ℕ
  readonly : Bool
  deriving DecidableEq

structure ClientInfo where
  clientId : String
  label : String
  createdAtUnix : ℤ
  expiresAtUnix : ℤ
  deriving DecidableEq

section
variable {ρ : Type} (key : ρ → String)

def byKey (rows : List ρ) : AList fun _ : String => ρ :=
  rows.foldl (fun map row => map.insert (key row) row) ∅

def inOrder (map : AList fun _ : String => ρ) : List (String × ρ) :=
  (map.entries.map fun entry => (entry.1, entry.2)).insertionSort fun a b => a.1 ≤ b.1

def removesOf (previous next : AList fun _ : String => ρ) : List String :=
  ((inOrder previous).map (·.1)).filter fun id => next.lookup id = none

def patchOf (removes : List String) (upserts : List ρ) : Option (List String × List ρ) :=
  if removes = [] ∧ upserts = [] then none else some (removes, upserts)

variable [DecidableEq ρ]

def tablePatch (previous next : List ρ) : Option (List String × List ρ) :=
  let previous := byKey key previous
  let next := byKey key next
  patchOf (removesOf previous next)
    (((inOrder next).filter fun entry => previous.lookup entry.1 ≠ some entry.2).map (·.2))

end

def rootsPatch : List FsEntry → List FsEntry → Option (List String × List FsEntry) :=
  tablePatch (·.path)

def directoryPatch : List FsEntry → List FsEntry → Option (List String × List FsEntry) :=
  tablePatch (·.name)

def clientsPatch (previous next : List ClientInfo) : Option (List String × List ClientInfo) :=
  let previousById := byKey (·.clientId) previous
  patchOf (removesOf previousById (byKey (·.clientId) next))
    (next.filter fun row => previousById.lookup row.clientId ≠ some row)

def kindRank : FsEntryKind → ℕ
  | .directory => 0
  | .symlink => 1
  | .file => 2
  | .other => 3

/-- What `trim` of a JavaScript string takes off. -/
def isSpace (c : Char) : Bool :=
  9 ≤ c.toNat ∧ c.toNat ≤ 13 ∨ 0x2000 ≤ c.toNat ∧ c.toNat ≤ 0x200a ∨
    c.toNat ∈ [0x20, 0xa0, 0x1680, 0x2028, 0x2029, 0x202f, 0x205f, 0x3000, 0xfeff]

def displayName (entry : FsEntry) : String :=
  let name := String.ofList ((entry.name.toList.dropWhile isSpace).rdropWhile isSpace)
  if name = "" then entry.path else name

section
variable (localeCompare : String → String → ℤ)

def sortEntries (entries : List FsEntry) : List FsEntry :=
  entries.insertionSort fun left right =>
    if kindRank left.kind ≠ kindRank right.kind then kindRank left.kind ≤ kindRank right.kind
    else localeCompare (displayName left) (displayName right) ≤ 0

def applyEntryPatch (current : List FsEntry) (removes : List String) (upserts : List FsEntry) :
    List FsEntry :=
  sortEntries localeCompare (replaced (·.path) current removes upserts)

def applyDirectoryPatch (current : List FsEntry) (removes : List String)
    (upserts : List FsEntry) : List FsEntry :=
  let remaining := current.filter fun entry => entry.name ∉ removes
  sortEntries localeCompare
    (remaining.filter (fun entry => entry.name ∉ upserts.map (·.name)) ++ upserts)

end

def applyClientsPatch (current : List ClientInfo) (removes : List String)
    (upserts : List ClientInfo) : List ClientInfo :=
  upserts.foldl (put (·.clientId)) (current.filter fun client => client.clientId ∉ removes)

structure TableOf (ρ : Type) where
  key : ρ → String
  patch : List ρ → List ρ → Option (List String × List ρ)
  apply : List ρ → List String → List ρ → List ρ

def roots (localeCompare : String → String → ℤ) : TableOf FsEntry :=
  ⟨(·.path), rootsPatch, applyEntryPatch localeCompare⟩

def directory (localeCompare : String → String → ℤ) : TableOf FsEntry :=
  ⟨(·.name), directoryPatch, applyDirectoryPatch localeCompare⟩

def clients : TableOf ClientInfo := ⟨(·.clientId), clientsPatch, applyClientsPatch⟩

def agentTable {ρ : Type} [DecidableEq ρ] (key : ρ → String) : TableOf ρ :=
  ⟨key, tablePatch key, replaced key⟩

inductive TableEvent (ρ : Type) where
  | snapshot (rows : List ρ)
  | patch (removes : List String) (upserts : List ρ)
  | closed

section
variable {ρ : Type} (table : TableOf ρ)

/-- The loop of a subscription over the listings it gets, an error being `none`. -/
def TableOf.stream (rows : List ρ) : List (Option (List ρ)) → List (TableEvent ρ)
  | [] => []
  | none :: _ => [.closed]
  | some nextRows :: rest =>
    match table.patch rows nextRows with
    | some (removes, upserts) => .patch removes upserts :: TableOf.stream nextRows rest
    | none => TableOf.stream rows rest

def TableOf.subscription (rows : List ρ) (listings : List (Option (List ρ))) :
    List (TableEvent ρ) :=
  .snapshot rows :: table.stream rows listings

def TableOf.applyEvent (current : List ρ) : TableEvent ρ → List ρ
  | .snapshot rows => rows
  | .patch removes upserts => table.apply current removes upserts
  | .closed => current

def latest (rows : List ρ) : List (Option (List ρ)) → List ρ
  | some nextRows :: rest => latest nextRows rest
  | _ => rows

theorem latest_perm {rows other : List ρ} (h : rows.Perm other)
    (listings : List (Option (List ρ))) :
    (latest rows listings).Perm (latest other listings) := by
  cases listings with
  | nil => exact h
  | cons listing rest =>
    cases listing with
    | none => exact h
    | some next => exact .refl _

structure TableOf.Exact : Prop where
  absent : ∀ previous next, UniqueKeys table.key previous → UniqueKeys table.key next →
    (table.patch previous next = none ↔ ∀ row, row ∈ previous ↔ row ∈ next)
  disjoint : ∀ previous next, UniqueKeys table.key previous → UniqueKeys table.key next →
    ∀ removes upserts, table.patch previous next = some (removes, upserts) →
      ∀ id ∈ removes, id ∉ upserts.map table.key
  taken : ∀ previous next, UniqueKeys table.key previous → UniqueKeys table.key next →
    ∀ removes upserts, table.patch previous next = some (removes, upserts) →
      ∀ current : List ρ, current.Perm previous → (table.apply current removes upserts).Perm next
  followed : ∀ rows listings, UniqueKeys table.key rows →
    (∀ next, some next ∈ listings → UniqueKeys table.key next) →
      ∀ before, ((table.subscription rows listings).foldl table.applyEvent before).Perm
        (latest rows listings)

theorem TableOf.exact_of
    (hpatch : ∀ previous next, UniqueKeys table.key previous → UniqueKeys table.key next →
      ∃ removes upserts, Diff table.key previous next removes upserts ∧
        table.patch previous next = patchOf removes upserts)
    (happly : ∀ previous next removes upserts, Diff table.key previous next removes upserts →
      UniqueKeys table.key previous → UniqueKeys table.key next → ∀ current : List ρ,
        current.Perm previous → (table.apply current removes upserts).Perm next) :
    table.Exact := by
  have habsent : ∀ previous next, UniqueKeys table.key previous → UniqueKeys table.key next →
      (table.patch previous next = none ↔ ∀ row, row ∈ previous ↔ row ∈ next) := by
    intro previous next hprevious hnext
    obtain ⟨removes, upserts, hdiff, heq⟩ := hpatch previous next hprevious hnext
    rw [heq, ← hdiff.empty_iff hprevious, patchOf]
    simp
  have hsome : ∀ previous next, UniqueKeys table.key previous → UniqueKeys table.key next →
      ∀ removes upserts, table.patch previous next = some (removes, upserts) →
        Diff table.key previous next removes upserts := by
    intro previous next hprevious hnext removes upserts hpatched
    obtain ⟨removes', upserts', hdiff, heq⟩ := hpatch previous next hprevious hnext
    rw [heq, patchOf] at hpatched
    grind
  have htaken := fun previous next hprevious hnext removes upserts hpatched =>
    happly previous next removes upserts
      (hsome previous next hprevious hnext removes upserts hpatched) hprevious hnext
  refine ⟨habsent, fun previous next hprevious hnext removes upserts hpatched =>
    (hsome previous next hprevious hnext removes upserts hpatched).disjoint, htaken, ?_⟩
  intro rows listings hrows hlistings before
  suffices hrun : ∀ sent current : List ρ, UniqueKeys table.key sent → current.Perm sent →
      ((table.stream sent listings).foldl table.applyEvent current).Perm
        (latest sent listings) from hrun rows rows hrows (.refl _)
  clear hrows
  induction listings with
  | nil => exact fun _ _ _ hcurrent => hcurrent
  | cons listing rest ih =>
    intro sent current hsent hcurrent
    have hrest := ih fun next hmem => hlistings next (List.mem_cons_of_mem _ hmem)
    cases listing with
    | none => exact hcurrent
    | some next =>
      have hnext := hlistings next List.mem_cons_self
      rw [TableOf.stream]
      cases hpatched : table.patch sent next with
      | none =>
        -- the server keeps the rows it sent, which are those of the listing
        have hsame := (habsent sent next hsent hnext).mp hpatched
        have hperm : sent.Perm next :=
          (List.perm_ext_iff_of_nodup hsent.nodup hnext.nodup).mpr fun row => hsame row
        exact (hrest sent current hsent hcurrent).trans (latest_perm hperm rest)
      | some patch =>
        exact hrest next _ hnext (htaken sent next hsent hnext patch.1 patch.2 hpatched current
          hcurrent)

end

section
variable {ρ : Type} {key : ρ → String}

theorem byKey_lookup {rows : List ρ} (h : UniqueKeys key rows) (id : String) (row : ρ) :
    (byKey key rows).lookup id = some row ↔ row ∈ rows ∧ key row = id := by
  induction rows using List.reverseRecOn with
  | nil => simp [byKey]
  | append_singleton rows last ih =>
    have hinsert : byKey key (rows ++ [last]) = (byKey key rows).insert (key last) last := by
      simp [byKey]
    unfold UniqueKeys at h ih
    rw [List.map_append, List.nodup_append] at h
    have hbefore := ih h.1
    have hnew : ∀ r ∈ rows, key r ≠ key last :=
      fun r hr => h.2.2 _ (List.mem_map_of_mem hr) _ (by simp)
    rw [hinsert]
    by_cases hid : id = key last
    · subst hid
      rw [AList.lookup_insert]
      grind
    · rw [AList.lookup_insert_ne hid, hbefore]
      grind

theorem byKey_none {rows : List ρ} (h : UniqueKeys key rows) (id : String) :
    (byKey key rows).lookup id = none ↔ id ∉ rows.map key := by
  rw [Option.eq_none_iff_forall_ne_some]
  simp only [ne_eq, byKey_lookup h, List.mem_map]
  grind

theorem mem_inOrder (map : AList fun _ : String => ρ) (id : String) (row : ρ) :
    (id, row) ∈ inOrder map ↔ map.lookup id = some row := by
  rw [inOrder, (List.perm_insertionSort _ _).mem_iff, ← Option.mem_def, AList.mem_lookup_iff]
  grind

theorem nodup_inOrder (map : AList fun _ : String => ρ) : (inOrder map).Nodup := by
  rw [inOrder, (List.perm_insertionSort _ _).nodup_iff]
  exact map.nodupKeys.nodup.map fun a b hab => by grind

variable {previous next : List ρ} (hprevious : UniqueKeys key previous) (hnext : UniqueKeys key next)
include hprevious hnext

theorem mem_removesOf (id : String) : id ∈ removesOf (byKey key previous) (byKey key next) ↔
    id ∈ previous.map key ∧ id ∉ next.map key := by
  unfold removesOf
  simp only [List.mem_filter, List.mem_map, Prod.exists, mem_inOrder, decide_eq_true_eq,
    byKey_none hnext, byKey_lookup hprevious]
  grind

theorem tablePatch_diff [DecidableEq ρ] : ∃ removes upserts,
    Diff key previous next removes upserts ∧
      tablePatch key previous next = patchOf removes upserts := by
  refine ⟨_, _, ⟨mem_removesOf hprevious hnext, ?_, ?_⟩, rfl⟩
  · intro row
    simp only [List.mem_map, List.mem_filter, Prod.exists, mem_inOrder, byKey_lookup hnext,
      byKey_lookup hprevious, decide_eq_true_eq, ne_eq]
    grind
  · have hkeys : ∀ entry ∈ inOrder (byKey key next), entry.2 ∈ next ∧ key entry.2 = entry.1 :=
      fun entry hmem => (byKey_lookup hnext _ _).mp ((mem_inOrder _ _ _).mp hmem)
    unfold UniqueKeys
    rw [List.map_map]
    refine List.Nodup.map_on ?_ ((nodup_inOrder _).filter _)
    intro a ha b hb hab
    obtain ⟨hain, hakey⟩ := hkeys a (List.mem_of_mem_filter ha)
    obtain ⟨hbin, hbkey⟩ := hkeys b (List.mem_of_mem_filter hb)
    exact Prod.ext (hakey.symm.trans (hab.trans hbkey)) (hnext.eq hain hbin hab)

end

theorem clientsPatch_diff {previous next : List ClientInfo}
    (hprevious : UniqueKeys (·.clientId) previous) (hnext : UniqueKeys (·.clientId) next) :
    ∃ removes upserts, Diff (·.clientId) previous next removes upserts ∧
      clientsPatch previous next = patchOf removes upserts := by
  refine ⟨_, _, ⟨mem_removesOf hprevious hnext, ?_, ?_⟩, rfl⟩
  · intro row
    simp only [List.mem_filter, byKey_lookup hprevious, decide_eq_true_eq, ne_eq, and_true]
  · exact hnext.sublist (List.filter_sublist.map _)

theorem table_diffs_exact (localeCompare : String → String → ℤ) :
    (roots localeCompare).Exact ∧ (directory localeCompare).Exact ∧ clients.Exact ∧
    ∀ (ρ : Type) (_ : DecidableEq ρ) (key : ρ → String), (agentTable key).Exact := by
  have hsort := fun entries => List.perm_insertionSort (fun left right : FsEntry =>
    if kindRank left.kind ≠ kindRank right.kind then kindRank left.kind ≤ kindRank right.kind
    else localeCompare (displayName left) (displayName right) ≤ 0) entries
  refine ⟨?_, ?_, ?_, ?_⟩
  · refine (roots localeCompare).exact_of (fun _ _ h h' => tablePatch_diff h h') ?_
    intro previous next removes upserts hdiff hprevious hnext current hcurrent
    exact (hsort _).trans (hdiff.replaced_perm hprevious hnext hcurrent)
  · refine (directory localeCompare).exact_of (fun _ _ h h' => tablePatch_diff h h') ?_
    intro previous next removes upserts hdiff hprevious hnext current hcurrent
    have hreplaced := hdiff.replaced_perm hprevious hnext hcurrent
    refine (hsort _).trans ?_
    rw [List.filter_filter]
    simpa [replaced, directory, Bool.and_comm] using hreplaced
  · refine clients.exact_of (fun _ _ => clientsPatch_diff) ?_
    intro previous next removes upserts hdiff hprevious hnext current hcurrent
    exact hdiff.puts_perm hprevious hnext hcurrent
  · intro ρ _ key
    refine (agentTable key).exact_of (fun _ _ h h' => tablePatch_diff h h') ?_
    intro previous next removes upserts hdiff hprevious hnext current hcurrent
    exact hdiff.replaced_perm hprevious hnext hcurrent

end Rieul.Server
