import Rieul.Screen.Capture

/-!
# The end of a capture

The steps of the channel keep what a successful `end_track` says of its key, except
for a group that the helper reads after it.
-/

namespace Rieul.Screen.Ipc
open System

structure Free (key : ℕ × ℕ) (helper : Option Helper) (n : Native) : Prop where
  entry : ∀ h, helper = some h → h.entryOf key = none
  group : ∀ h, helper = some h → h.group? key = none
  capture : key ∉ n.captures

/-- `end_track` of the key has succeeded. -/
def Succeeded (replies : List (Call × Except Error UserDesktopResult)) (key : ℕ × ℕ) : Prop :=
  ∃ r ∈ replies, r.1.command.ends key ∧ r.2 = .ok .Done

def Link.Streamed (l : Link) (key : ℕ × ℕ) : Prop := ∃ e ∈ l.written, e.2.command.streams key

def State.Ended (s : State) (key : ℕ × ℕ) : Prop :=
  Succeeded s.replies key ∨ ∃ e ∈ s.link.written.take s.link.read, e.2.command.ends key

def State.Late (s : State) (a : Action) (key : ℕ × ℕ) : Prop :=
  (∃ outcome, a = .serve outcome) ∧ s.Ended key ∧
    ∃ e, s.link.written[s.link.read]? = some e ∧ e.2.command.streams key

/-- A recovery that gives up the key's epoch is acknowledged on a connection over which a group of
the key was already sent. -/
def State.Overtaken (s : State) (a : Action) (key : ℕ × ℕ) : Prop :=
  s.link.Streamed key ∧ ∃ id call, s.Acknowledges a id call ∧ key.2 < call.minimumCodecEpoch

structure Capturing (key : ℕ × ℕ) (l : Link) (helper : Option Helper) (n : Native) (minimum : ℕ)
    (succeeded : Prop) : Prop where
  idle : helper = none → n.captures = ∅
  entry : ∀ h, helper = some h → h.entryOf key ≠ none → l.Streamed key
  groups : ∀ h, helper = some h → ∀ g ∈ h.groups, g.requestId ≠ 0 ∧
    ∃ e ∈ l.written.take l.read, e.2.id = g.requestId ∧ e.2.command.streams g.track.key
  capture : key ∈ n.captures → l.Streamed key
  ending : ∀ h r, helper = some h → h.ending = some r → r.requestId ≠ 0 ∧
    (∃ e ∈ l.written.take l.read, e.2.request = r) ∧
    ∀ track, r.command = .EndTrack track → h.entryOf track.key = none
  settled : ∀ r ∈ l.responses, r.requestId ≠ 0 → r.result = .Done → ∀ e ∈ l.written,
    e.2.id = r.requestId → e.2.command.ends key → Free key helper n
  below : key.2 < minimum → ¬ l.Streamed key
  succeeded : succeeded → Free key helper n

def State.Capturing (s : State) (key : ℕ × ℕ) : Prop :=
  Ipc.Capturing key s.link s.helper s.native s.minimumCodecEpoch (Succeeded s.replies key)

section
variable (key : ℕ × ℕ) (l : Link) (helper : Option Helper) (n : Native) (minimum : ℕ)
  (succeeded : Prop)

theorem Capturing.group (h : Capturing key l helper n minimum succeeded) (h' : Helper)
    (hh : helper = some h') (hg : h'.group? key ≠ none) : l.Streamed key := by
  cases hfind : h'.group? key with
  | none => exact absurd hfind hg
  | some g =>
    obtain ⟨hg, hkey⟩ := group?_some h' key g hfind
    obtain ⟨_, e, he, _, hstreams⟩ := h.groups h' hh g hg
    exact ⟨e, List.mem_of_mem_take he, hkey ▸ hstreams⟩

theorem Capturing.free_of_below (h : Capturing key l helper n minimum succeeded)
    (hbelow : key.2 < minimum) : Free key helper n where
  entry := by
    intro h' hh
    by_contra hentry
    exact h.below hbelow (h.entry h' hh hentry)
  group := by
    intro h' hh
    by_contra hgroup
    exact h.below hbelow (h.group key l helper n minimum succeeded h' hh hgroup)
  capture := fun hkey => h.below hbelow (h.capture hkey)

theorem Link.Streamed.append (h : l.Streamed key) (x : ℕ × Message) :
    Link.Streamed { l with written := l.written ++ [x] } key := by
  obtain ⟨e, he, hs⟩ := h
  exact ⟨e, List.mem_append_left _ he, hs⟩

theorem Capturing.write (hl : l.Ok) (h : Capturing key l helper n minimum succeeded)
    (generation : ℕ) (m : Message) (hm : l.Next m)
    (hstreams : key.2 < minimum → ¬ m.command.streams key) (write : Write) :
    Capturing key (l.write generation m write) helper n minimum succeeded := by
  unfold Link.write
  split
  · exact
      { idle := h.idle
        entry := fun h' hh he => (h.entry h' hh he).append key l _
        groups := by
          intro h' hh g hg
          obtain ⟨h0, e, he, heq⟩ := h.groups h' hh g hg
          exact ⟨h0, e, mem_take_append l.written l.read _ e he, heq⟩
        capture := fun hkey => (h.capture hkey).append key l _
        ending := by
          intro h' r hh hr
          obtain ⟨h0, ⟨e, he, heq⟩, hentry⟩ := h.ending h' r hh hr
          exact ⟨h0, ⟨e, mem_take_append l.written l.read _ e he, heq⟩, hentry⟩
        settled := by
          intro r hr h0 hdone e he hid hends
          rcases List.mem_append.mp he with he | he
          · exact h.settled r hr h0 hdone e he hid hends
          · exfalso
            rw [List.mem_singleton.mp he] at hid
            have hid : m.id = r.requestId := hid
            obtain ⟨e', he', hid'⟩ := hl.answered r hr h0
            have hlt := hm.fresh (hid ▸ h0) e' (List.mem_of_mem_take he')
            omega
        below := by
          intro hbelow hs
          obtain ⟨e, he, hs⟩ := hs
          rcases List.mem_append.mp he with he | he
          · exact h.below hbelow ⟨e, he, hs⟩
          · rw [List.mem_singleton.mp he] at hs
            exact hstreams hbelow hs
        succeeded := h.succeeded }
  · exact h

section
variable (h : Capturing key l helper n minimum succeeded)
include h

theorem Capturing.pop (r : UserDesktopResponse) (responses : List UserDesktopResponse)
    (hr : l.responses = r :: responses) :
    Capturing key { l with responses := responses } helper n minimum succeeded :=
  { h with settled := fun x hx => h.settled x (hr ▸ List.mem_cons_of_mem r hx) }

theorem Capturing.answer (succeeded' : Prop)
    (hs : succeeded' → succeeded ∨ Free key helper n) :
    Capturing key l helper n minimum succeeded' := by
  refine { h with succeeded := fun hs' => ?_ }
  rcases hs hs' with hs | hfree
  · exact h.succeeded hs
  · exact hfree

theorem Capturing.exit (n' : Native) :
    Capturing key l none n'.exit minimum succeeded where
  idle := fun _ => rfl
  entry := fun _ hh => (nomatch hh)
  groups := fun _ hh => (nomatch hh)
  capture := fun hkey => absurd hkey (Finset.notMem_empty key)
  ending := fun _ _ hh => (nomatch hh)
  settled := fun _ _ _ _ _ _ _ _ =>
    ⟨fun _ hh => (nomatch hh), fun _ hh => (nomatch hh), Finset.notMem_empty key⟩
  below := h.below
  succeeded := fun _ =>
    ⟨fun _ hh => (nomatch hh), fun _ hh => (nomatch hh), Finset.notMem_empty key⟩

end

theorem Capturing.start (h : Capturing key l none n minimum succeeded) (generation : ℕ) :
    Capturing key ⟨generation, [], 0, [], false⟩ (some .start) n minimum succeeded := by
  have hcaptures := h.idle rfl
  have hnot : key ∉ n.captures := by
    rw [hcaptures]
    exact Finset.notMem_empty key
  refine ⟨fun hh => (nomatch hh), ?_, ?_, fun hkey => absurd hkey hnot, ?_, ?_, ?_, ?_⟩
  · intro h' hh hentry
    cases hh
    exact absurd rfl hentry
  · intro h' hh g hg
    cases hh
    exact absurd hg List.not_mem_nil
  · intro h' r hh hr
    cases hh
    cases hr
  · exact fun r hr => absurd hr List.not_mem_nil
  · intro _ hs
    obtain ⟨e, he, _⟩ := hs
    exact absurd he List.not_mem_nil
  · intro _
    refine ⟨?_, ?_, hnot⟩
    · intro h' hh
      cases hh
      rfl
    · intro h' hh
      cases hh
      rfl

theorem Capturing.serve (hl : l.Ok) (h : Helper) (hc : Capturing key l (some h) n minimum succeeded)
    (g : ℕ) (m : Message) (hm : l.written[l.read]? = some (g, m)) (e : Effect)
    (hr : e.Reads h n m)
    (hlate : (succeeded ∨ ∃ e ∈ l.written.take l.read, e.2.command.ends key) →
      ¬ m.command.streams key) (hidle : h.ending = none) :
    Capturing key (Link.respond { l with read := l.read + 1 } e.2.2) (some e.1) e.2.1 minimum
      succeeded := by
  have hmem : (g, m) ∈ l.written := List.mem_of_getElem? hm
  have hfree : Free key (some h) n → ¬ m.command.streams key → Free key (some e.1) e.2.1 := by
    intro hfree hnot
    refine ⟨?_, ?_, ?_⟩
    · intro h' hh
      cases hh
      by_contra hentry
      rcases hr.entry key hentry with hentry | hs
      · exact hentry (hfree.entry h rfl)
      · exact hnot hs
    · intro h' hh
      cases hh
      apply Option.eq_none_iff_forall_ne_some.mpr
      intro x hx
      obtain ⟨hx, hkey⟩ := group?_some e.1 key x hx
      rcases hr.groups x hx with hx' | ⟨_, _, hs⟩
      · have hnone := hfree.group h rfl
        have hno := List.find?_eq_none.mp hnone x hx'
        exact hno (decide_eq_true hkey)
      · exact hnot (hkey ▸ hs)
    · rw [hr.captures]
      exact hfree.capture
  refine ⟨fun hh => (nomatch hh), ?_, ?_, ?_, ?_, ?_, hc.below, ?_⟩
  · intro h' hh hentry
    cases hh
    rcases hr.entry key hentry with hentry | hs
    · exact hc.entry h rfl hentry
    · exact ⟨(g, m), hmem, hs⟩
  · intro h' hh x hx
    cases hh
    rcases hr.groups x hx with hx | ⟨hid, h0, hs⟩
    · obtain ⟨h0, e', he', heq⟩ := hc.groups h rfl x hx
      exact ⟨h0, e', take_mono l e' he', heq⟩
    · exact ⟨hid ▸ h0, (g, m), mem_take_succ l _ hm, hid.symm, hs⟩
  · intro hkey
    rw [hr.captures] at hkey
    exact hc.capture hkey
  · intro h' r hh hending
    cases hh
    rcases hr.ending r hending with hending | ⟨hreq, h0, hentry⟩
    · rw [hidle] at hending
      cases hending
    · exact ⟨hreq ▸ h0, ⟨(g, m), mem_take_succ l _ hm, hreq.symm⟩, hentry⟩
  · intro r hres h0 hdone e' he' hid hends
    rcases (mem_respond _ _ r).mp hres with hres | hres
    · apply hfree (hc.settled r hres h0 hdone e' he' hid hends)
      apply hlate
      right
      obtain ⟨a, ha, haid⟩ := hl.answered r hres h0
      have heq := hl.unique l e' a he' (List.mem_of_mem_take ha) (hid.trans haid.symm)
        (hid ▸ h0)
      exact ⟨a, ha, heq ▸ hends⟩
    · obtain ⟨hrid, hcapture⟩ := hr.answers r hres
      have heq := hl.unique l e' (g, m) he' hmem (hid.trans hrid) (hid ▸ h0)
      have hc := ends_isCapture key _ hends
      rw [heq, hcapture (hrid ▸ h0)] at hc
      cases hc
  · intro hs
    exact hfree (hc.succeeded hs) (hlate (.inl hs))

theorem Capturing.work (hl : l.Ok) (h : Helper) (hc : Capturing key l (some h) n minimum succeeded)
    (e : Effect) (hw : e.Works h n) :
    Capturing key (l.respond e.2.2) (some e.1) e.2.1 minimum succeeded := by
  have hentry : ∀ key', e.1.entryOf key' = h.entryOf key' := by
    intro key'
    unfold Helper.entryOf
    rw [hw.tracks]
  have hgroup : ∀ key', h.group? key' = none → e.1.group? key' = none := by
    intro key' hnone
    unfold Helper.group? at hnone ⊢
    rw [List.find?_eq_none] at hnone ⊢
    exact fun x hx => hnone x (hw.groups x hx)
  have hfree : Free key (some h) n → Free key (some e.1) e.2.1 := by
    intro hfree
    refine ⟨?_, ?_, ?_⟩
    · intro h' hh
      cases hh
      rw [hentry]
      exact hfree.entry h rfl
    · intro h' hh
      cases hh
      exact hgroup key (hfree.group h rfl)
    · intro hkey
      rcases hw.captures key hkey with hkey | hrunning
      · exact hfree.capture hkey
      · exact hrunning (hfree.group h rfl)
  refine ⟨fun hh => (nomatch hh), ?_, ?_, ?_, ?_, ?_, hc.below, fun hs => hfree (hc.succeeded hs)⟩
  · intro h' hh he
    cases hh
    rw [hentry] at he
    exact hc.entry h rfl he
  · intro h' hh x hx
    cases hh
    exact hc.groups h rfl x (hw.groups x hx)
  · intro hkey
    rcases hw.captures key hkey with hkey | hrunning
    · exact hc.capture hkey
    · exact hc.group key l (some h) n minimum succeeded h rfl hrunning
  · intro h' r hh hr
    cases hh
    obtain ⟨h0, hread, hnone⟩ := hc.ending h r rfl (hw.ending r hr)
    refine ⟨h0, hread, fun track htrack => ?_⟩
    rw [hentry]
    exact hnone track htrack
  · intro r hr h0 hdone e' he' hid hends
    rcases (mem_respond l e.2.2 r).mp hr with hr | hr
    · exact hfree (hc.settled r hr h0 hdone e' he' hid hends)
    · rcases hw.done r hr hdone with ⟨x, hx, hxid⟩ | ⟨track, hending, hnogroup, hnocapture⟩
      · obtain ⟨_, a, ha, haid, hs⟩ := hc.groups h rfl x hx
        have heq := hl.unique l e' a he' (List.mem_of_mem_take ha)
          (hid.trans (hxid.symm.trans haid.symm)) (hid ▸ h0)
        rw [heq, streams_not_ends key x.track.key _ hs] at hends
        cases hends
      · obtain ⟨_, ⟨a, ha, hareq⟩, hnone⟩ := hc.ending h _ rfl hending
        have haid : a.2.id = r.requestId := congrArg UserDesktopRequest.requestId hareq
        have hacommand : a.2.command = .EndTrack track := congrArg UserDesktopRequest.command hareq
        have heq := hl.unique l e' a he' (List.mem_of_mem_take ha) (hid.trans haid.symm) (hid ▸ h0)
        rw [heq, hacommand] at hends
        have hkey : track.key = key := of_decide_eq_true hends
        refine ⟨?_, ?_, hkey ▸ hnocapture⟩
        · intro h' hh
          cases hh
          rw [hentry, ← hkey]
          exact hnone track rfl
        · intro h' hh
          cases hh
          rw [← hkey]
          exact hnogroup

end

end Rieul.Screen.Ipc
