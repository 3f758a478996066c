import Mathlib.Order.CompletePartialOrder
import Mathlib.Algebra.Order.BigOperators.Group.List
import Mathlib.Order.Interval.Set.Disjoint
import Mathlib.Order.SuccPred.Basic
import Rieul.Screen.Stripe

/-!
# Stripe layouts (daemon/core/src/desktop_stripe.rs)

The stripes of a layout share the bitrate and cut an NV12 frame: a luma plane with one
byte for a pixel, and behind it the chroma plane with one line for two.
-/

namespace Rieul.Screen.Stripe
open Bytes

structure DesktopStripe where
  y : ℕ
  height : ℕ

/-- The loop of `valid_layout`: the line behind the last stripe. -/
def layoutEnd (height : ℕ) : ℕ → List DesktopStripe → Option ℕ
  | stop, [] => some stop
  | stop, s :: stripes => do
    guard (¬ (s.y ≠ stop ∨ s.y % 2 ≠ 0 ∨ s.height = 0 ∨ s.height % 2 ≠ 0))
    let next ← (checkedAdd stop s.height).filter (· ≤ height)
    layoutEnd height next stripes

def ValidLayout (height : ℕ) (stripes : List DesktopStripe) : Prop :=
  ¬ (stripes = [] ∨ stripes.length > maxStripes ∨ height = 0 ∨ height > 2160) ∧
    layoutEnd height 0 stripes = some height

instance (height : ℕ) (stripes : List DesktopStripe) : Decidable (ValidLayout height stripes) := by
  unfold ValidLayout
  infer_instance

/-- The loop of `rates`: the last stripe gets what remains. -/
def ratesFrom (total : UInt32) (height : ℕ) : UInt32 → List DesktopStripe → Option (List UInt32)
  | _, [] => some []
  | remaining, stripe :: stripes => do
    let rate := if stripes = [] then remaining
      else UInt32.ofNat (total.toNat * stripe.height / height)
    guard (¬ (rate = 0 ∨ rate > remaining))
    let result ← ratesFrom total height (remaining - rate) stripes
    some (rate :: result)

def rates (total : UInt32) (height : ℕ) (stripes : List DesktopStripe) : Option (List UInt32) := do
  guard (¬ (¬ ValidLayout height stripes ∨ total.toNat < stripes.length))
  ratesFrom total height total stripes

/-- The bytes from `start` to before `stop`. -/
structure Span where
  start : ℕ
  stop : ℕ

def Span.slice (span : Span) (pixels : Str) : Str :=
  (pixels.drop span.start).take (span.stop - span.start)

def luma (width : ℕ) (stripe : DesktopStripe) : Span :=
  ⟨stripe.y * width, (stripe.y + stripe.height) * width⟩

def chroma (width height : ℕ) (stripe : DesktopStripe) : Span :=
  let uv := width * height + stripe.y / 2 * width
  ⟨uv, uv + stripe.height / 2 * width⟩

def nv12Region (pixels : Str) (width height : ℕ) (stripe : DesktopStripe) : Option Str := do
  guard (¬ (width = 0 ∨ width > 3840 ∨ width % 2 ≠ 0 ∨ height = 0 ∨ height > 2160 ∨
    height % 2 ≠ 0))
  guard (¬ (stripe.y % 2 ≠ 0 ∨ stripe.height = 0 ∨ stripe.height % 2 ≠ 0))
  let stop ← checkedAdd stripe.y stripe.height
  guard (¬ (stop > height ∨ pixels.length ≠ width * height * 3 / 2))
  some ((luma width stripe).slice pixels ++ (chroma width height stripe).slice pixels)

def Span.write (span : Span) (frame bytes : Str) : Str :=
  frame.take span.start ++ bytes ++ frame.drop span.stop

def putRegion (width height : ℕ) (frame : Str) (stripe : DesktopStripe) (bytes : Str) : Str :=
  let split := width * stripe.height
  (chroma width height stripe).write ((luma width stripe).write frame (bytes.take split))
    (bytes.drop split)

/-- All regions of `pixels`, one after the other over the bytes of `frame`. -/
def putRegions (pixels : Str) (width height : ℕ) (stripes : List DesktopStripe) (frame : Str) :
    Option Str :=
  stripes.foldlM (fun frame stripe => (nv12Region pixels width height stripe).map
    (putRegion width height frame stripe)) frame

/-- The stripes follow each other from `first` to `last`. -/
inductive Covers : ℕ → ℕ → List DesktopStripe → Prop where
  | nil (stop : ℕ) : Covers stop stop []
  | cons (s : DesktopStripe) (stop : ℕ) (stripes : List DesktopStripe) (hy : s.y % 2 = 0)
      (hpos : 0 < s.height) (heven : s.height % 2 = 0)
      (hrest : Covers (s.y + s.height) stop stripes) : Covers s.y stop (s :: stripes)

theorem layoutEnd_covers (height first stop : ℕ) (stripes : List DesktopStripe)
    (h : layoutEnd height first stripes = some stop) : Covers first stop stripes := by
  induction stripes generalizing first with
  | nil =>
    obtain rfl : first = stop := Option.some.inj h
    exact .nil first
  | cons s stripes ih =>
    simp only [layoutEnd, Option.bind_eq_bind, Option.bind_eq_some_iff, Option.guard_eq_some',
      Option.filter_eq_some_iff, checkedAdd, Option.ite_none_right_eq_some, exists_const] at h
    obtain ⟨hs, next, ⟨⟨_, hnext⟩, _⟩, hrest⟩ := h
    rw [not_or, not_or, not_or, not_not, not_not, not_not] at hs
    obtain ⟨hy, heven, hpos, hheight⟩ := hs
    subst hy
    cases hnext
    exact .cons s stop stripes heven (Nat.pos_of_ne_zero hpos) hheight (ih _ hrest)

variable {first stop : ℕ} {stripes : List DesktopStripe}

theorem ValidLayout.covers {height : ℕ} (h : ValidLayout height stripes) :
    Covers 0 height stripes := layoutEnd_covers height 0 height stripes h.2

section
variable (h : Covers first stop stripes)
include h

theorem Covers.le : first ≤ stop := by
  induction h with
  | nil stop => exact le_rfl
  | cons s stop stripes hy hpos heven hrest ih => omega

theorem Covers.bounds (s : DesktopStripe) (hs : s ∈ stripes) :
    first ≤ s.y ∧ s.y + s.height ≤ stop ∧ s.y % 2 = 0 ∧ 0 < s.height ∧ s.height % 2 = 0 := by
  induction h with
  | nil stop => cases hs
  | cons t stop stripes hy hpos heven hrest ih =>
    have hle := hrest.le
    rcases List.mem_cons.mp hs with rfl | hs
    · exact ⟨le_rfl, hle, hy, hpos, heven⟩
    · obtain ⟨hfirst, hstop, hrest⟩ := ih hs
      exact ⟨by omega, hstop, hrest⟩

theorem Covers.exists_line (line : ℕ) (hfirst : first ≤ line)
    (hstop : line < stop) : ∃ s ∈ stripes, s.y ≤ line ∧ line < s.y + s.height := by
  induction h with
  | nil stop => omega
  | cons s stop stripes hy hpos heven hrest ih =>
    by_cases hline : line < s.y + s.height
    · exact ⟨s, List.mem_cons_self, hfirst, hline⟩
    · obtain ⟨t, ht, hl⟩ := ih (by omega) hstop
      exact ⟨t, List.mem_cons_of_mem s ht, hl⟩

theorem Covers.pairwise :
    stripes.Pairwise fun s t => s.y + s.height ≤ t.y := by
  induction h with
  | nil stop => exact .nil
  | cons s stop stripes hy hpos heven hrest ih =>
    exact List.pairwise_cons.mpr ⟨fun t ht => (hrest.bounds t ht).1, ih⟩

end

theorem ratesFrom_last (total remaining : UInt32) (height : ℕ) (s : DesktopStripe) :
    ratesFrom total height remaining [s] =
      if remaining = 0 then none else some [remaining] := by
  by_cases h : remaining = 0
  · simp [ratesFrom, h]
  · simp [ratesFrom, h]

theorem ratesFrom_cons (total remaining : UInt32) (height : ℕ) (s : DesktopStripe)
    (hne : stripes ≠ []) (rate : UInt32)
    (hrate : rate = UInt32.ofNat (total.toNat * s.height / height)) :
    ratesFrom total height remaining (s :: stripes) =
      if rate = 0 ∨ remaining < rate then none
      else (ratesFrom total height (remaining - rate) stripes).map (rate :: ·) := by
  subst hrate
  by_cases h : UInt32.ofNat (total.toNat * s.height / height) = 0 ∨
      remaining < UInt32.ofNat (total.toNat * s.height / height)
  · simp [ratesFrom, hne, h]
  · simp [ratesFrom, hne, h, Option.map_eq_bind, Function.comp_def]

theorem ratesFrom_sum (total : UInt32) (height : ℕ) (remaining : UInt32)
    (stripes : List DesktopStripe) (v : List UInt32) (hne : stripes ≠ [])
    (h : ratesFrom total height remaining stripes = some v) :
    v.length = stripes.length ∧ (∀ r ∈ v, 1 ≤ r.toNat) ∧
      (v.map UInt32.toNat).sum = remaining.toNat := by
  induction stripes generalizing remaining v with
  | nil => exact absurd rfl hne
  | cons s stripes ih =>
    have hpos (r : UInt32) (hr : r ≠ 0) : 1 ≤ r.toNat :=
      Nat.pos_of_ne_zero fun h0 => hr (UInt32.toNat_inj.mp h0)
    by_cases hlast : stripes = []
    · subst hlast
      rw [ratesFrom_last] at h
      split at h
      · cases h
      · rename_i h0
        cases h
        simp [hpos remaining h0]
    · rw [ratesFrom_cons total remaining height s hlast _ rfl] at h
      split at h
      · cases h
      · rename_i hrate
        rw [not_or, UInt32.not_lt] at hrate
        obtain ⟨result, hresult, rfl⟩ := Option.map_eq_some_iff.mp h
        obtain ⟨hlength, hones, hsum⟩ := ih _ _ hlast hresult
        have hle := UInt32.le_iff_toNat_le.mp hrate.2
        rw [UInt32.toNat_sub_of_le _ _ hrate.2] at hsum
        refine ⟨by simp [hlength], ?_, ?_⟩
        · intro r hr
          rcases List.mem_cons.mp hr with rfl | hr
          · exact hpos _ hrate.1
          · exact hones r hr
        · rw [List.map_cons, List.sum_cons, hsum]
          omega

theorem ratesFrom_isSome (total : UInt32) (height : ℕ) (remaining : UInt32)
    (h : Covers first height stripes) (hne : stripes ≠ []) (htotal : 0 < total.toNat)
    (hbudget : total.toNat * (height - first) ≤ remaining.toNat * height) :
    (ratesFrom total height remaining stripes).isSome ↔
      ∀ s ∈ stripes.dropLast, height ≤ total.toNat * s.height := by
  generalize hstop : height = stop at h
  induction h generalizing remaining with
  | nil stop => exact absurd rfl hne
  | cons s stop stripes hy hpos heven hrest ih =>
    subst hstop
    have hstop := hrest.le
    by_cases hlast : stripes = []
    · subst hlast
      have hshare : 0 < total.toNat * (height - s.y) := Nat.mul_pos htotal (by omega)
      have h0 : remaining ≠ 0 := by
        rintro rfl
        rw [UInt32.toNat_zero, Nat.zero_mul] at hbudget
        omega
      simp [ratesFrom_last, h0]
    · have hshare : total.toNat * s.height ≤ remaining.toNat * height :=
        (Nat.mul_le_mul_left _ (by omega)).trans hbudget
      have hmax : total.toNat * s.height / height ≤ total.toNat :=
        Nat.div_le_of_le_mul (by
          rw [Nat.mul_comm height]
          exact Nat.mul_le_mul_left _ (by omega))
      have htoNat : (UInt32.ofNat (total.toNat * s.height / height)).toNat =
          total.toNat * s.height / height :=
        UInt32.toNat_ofNat_of_lt' (hmax.trans_lt total.toNat_lt)
      have hfits : ¬ remaining < UInt32.ofNat (total.toNat * s.height / height) := by
        rw [UInt32.lt_iff_toNat_lt, htoNat, not_lt]
        exact Nat.div_le_of_le_mul (by rwa [Nat.mul_comm height])
      have hzero : UInt32.ofNat (total.toNat * s.height / height) = 0 ↔
          ¬ height ≤ total.toNat * s.height := by
        rw [← UInt32.toNat_inj, htoNat, UInt32.toNat_zero, Nat.div_eq_zero_iff]
        omega
      rw [ratesFrom_cons total remaining height s hlast _ rfl, List.dropLast_cons_of_ne_nil hlast]
      by_cases hrate : height ≤ total.toNat * s.height
      · rw [if_neg (by rw [hzero]; exact fun h => h.elim (absurd hrate) hfits), Option.isSome_map,
          ih _ hlast _ rfl]
        · simp [hrate]
        · have hfits := UInt32.not_lt.mp hfits
          rw [UInt32.toNat_sub_of_le _ _ hfits, htoNat, Nat.sub_mul]
          have hrounded := Nat.div_mul_le_self (total.toNat * s.height) height
          have hsplit : total.toNat * (height - s.y) = total.toNat * s.height +
              total.toNat * (height - (s.y + s.height)) := by
            rw [← Nat.mul_add]
            congr 1
            omega
          omega
      · rw [if_pos (.inl (hzero.mpr hrate))]
        simp [hrate]

theorem rates_isSome {height : ℕ} (h : ValidLayout height stripes) (total : UInt32) :
    (rates total height stripes).isSome ↔
      stripes.length ≤ total.toNat ∧ ∀ s ∈ stripes.dropLast, height ≤ total.toNat * s.height := by
  have hne : stripes ≠ [] := fun he => h.1 (.inl he)
  have hlength := List.length_pos_of_ne_nil hne
  unfold rates
  by_cases htotal : total.toNat < stripes.length
  · simp [htotal, Nat.not_le.mpr htotal]
  · have hsome := ratesFrom_isSome total height total h.covers hne (by omega) (by simp)
    simp [h, htotal, hsome, Nat.not_lt.mp htotal]

def Span.indices (span : Span) : Set ℕ := Set.Ico span.start span.stop

def region (width height : ℕ) (stripe : DesktopStripe) : Set ℕ :=
  (luma width stripe).indices ∪ (chroma width height stripe).indices

theorem Covers.even (h : Covers first stop stripes) (hfirst : first % 2 = 0) : stop % 2 = 0 := by
  induction h with
  | nil stop => exact hfirst
  | cons s stop stripes hy hpos heven hrest ih => exact ih (by omega)

theorem frame_length (width height : ℕ) (heven : height % 2 = 0) :
    width * height * 3 / 2 = (height + height / 2) * width := by
  obtain ⟨half, rfl⟩ : ∃ half, height = 2 * half := ⟨height / 2, by omega⟩
  rw [Nat.mul_div_cancel_left half (by omega)]
  have h3 : width * (2 * half) * 3 = 2 * ((2 * half + half) * width) := by ring
  rw [h3, Nat.mul_div_cancel_left _ (by omega)]

theorem mem_lines (width first stop i : ℕ) (hpos : 0 < width) :
    i ∈ Set.Ico (first * width) (stop * width) ↔ first ≤ i / width ∧ i / width < stop := by
  rw [Set.mem_Ico, Nat.le_div_iff_mul_le hpos, Nat.div_lt_iff_lt_mul hpos]

variable {width height : ℕ} {s : DesktopStripe} {i : ℕ}

theorem mem_luma (hpos : 0 < width) :
    i ∈ (luma width s).indices ↔ s.y ≤ i / width ∧ i / width < s.y + s.height :=
  mem_lines width s.y (s.y + s.height) i hpos

theorem chroma_lines (hy : s.y % 2 = 0) (heven : s.height % 2 = 0) :
    chroma width height s =
      ⟨(height + s.y / 2) * width, (height + (s.y + s.height) / 2) * width⟩ := by
  have hhalf : (s.y + s.height) / 2 = s.y / 2 + s.height / 2 := by omega
  simp only [chroma, hhalf, Span.mk.injEq]
  constructor
  · ring
  · ring

theorem mem_chroma (hpos : 0 < width) (hy : s.y % 2 = 0) (heven : s.height % 2 = 0) :
    i ∈ (chroma width height s).indices ↔
      height + s.y / 2 ≤ i / width ∧ i / width < height + (s.y + s.height) / 2 := by
  rw [chroma_lines hy heven]
  exact mem_lines width _ _ i hpos

section
variable (h : Covers 0 height stripes) (hpos : 0 < width)
include h hpos

theorem Covers.region_disjoint :
    stripes.Pairwise fun s t => Disjoint (region width height s) (region width height t) := by
  refine h.pairwise.imp_of_mem ?_
  intro s t hs ht hst
  obtain ⟨_, hstop, hy, _, heven⟩ := h.bounds s hs
  obtain ⟨_, hstop', hy', _, heven'⟩ := h.bounds t ht
  rw [Set.disjoint_left]
  intro i hi hi'
  simp only [region, Set.mem_union, mem_luma hpos, mem_chroma hpos hy heven,
    mem_chroma hpos hy' heven'] at hi hi'
  omega

theorem Covers.luma_cover :
    ⋃ s ∈ stripes, (luma width s).indices = Set.Ico 0 (width * height) := by
  ext i
  have hline : i < width * height ↔ i / width < height := by
    rw [Nat.div_lt_iff_lt_mul hpos, Nat.mul_comm]
  simp only [Set.mem_iUnion, exists_prop, mem_luma hpos, Set.mem_Ico, Nat.zero_le, true_and, hline]
  constructor
  · rintro ⟨s, hs, hfirst, hlast⟩
    have hstop := (h.bounds s hs).2.1
    omega
  · exact h.exists_line (i / width) (Nat.zero_le _)

theorem Covers.chroma_cover :
    ⋃ s ∈ stripes, (chroma width height s).indices =
      Set.Ico (width * height) (width * height * 3 / 2) := by
  have heven := h.even rfl
  ext i
  rw [frame_length width height heven, Nat.mul_comm width height, mem_lines width _ _ i hpos]
  simp only [Set.mem_iUnion, exists_prop]
  constructor
  · rintro ⟨s, hs, hi⟩
    obtain ⟨_, hstop, hy, _, hs⟩ := h.bounds s hs
    rw [mem_chroma hpos hy hs] at hi
    omega
  · rintro ⟨hfirst, hlast⟩
    -- the chroma line stands for two lines, which are in one stripe
    obtain ⟨s, hs, hi⟩ := h.exists_line (2 * (i / width - height)) (Nat.zero_le _) (by omega)
    obtain ⟨_, hstop, hy, _, hheight⟩ := h.bounds s hs
    refine ⟨s, hs, (mem_chroma hpos hy hheight).mpr ?_⟩
    omega

end

theorem Span.slice_length (span : Span) (pixels : Str) (hstop : span.stop ≤ pixels.length) :
    (span.slice pixels).length = span.stop - span.start := by
  simp only [slice, List.length_take, List.length_drop]
  omega

section
variable (span : Span) (pixels frame : Str) (hspan : span.start ≤ span.stop)
  (hstop : span.stop ≤ pixels.length) (hframe : frame.length = pixels.length)
include span pixels frame hspan hstop hframe

theorem Span.write_length :
    (span.write frame (span.slice pixels)).length = pixels.length := by
  simp only [write, List.length_append, List.length_take, List.length_drop,
    span.slice_length pixels hstop]
  omega

theorem Span.write_slice (i : ℕ) :
    (span.write frame (span.slice pixels))[i]? =
      if span.start ≤ i ∧ i < span.stop then pixels[i]? else frame[i]? := by
  have hslice := span.slice_length pixels hstop
  have htake : (frame.take span.start).length = span.start := by
    rw [List.length_take]
    omega
  unfold write
  by_cases hbefore : i < span.start
  · rw [if_neg (by omega), List.append_assoc, List.getElem?_append_left (by omega),
      List.getElem?_take_of_lt hbefore]
  · by_cases hin : i < span.stop
    · rw [if_pos (by omega), List.append_assoc, List.getElem?_append_right (by omega), htake,
        List.getElem?_append_left (by omega), slice, List.getElem?_take_of_lt (by omega),
        List.getElem?_drop]
      congr 1
      omega
    · rw [if_neg (by omega), List.getElem?_append_right (by rw [List.length_append]; omega),
        List.length_append, htake, hslice, List.getElem?_drop]
      congr 1
      omega

end

structure Fits (width height : ℕ) (s : DesktopStripe) (pixels : Str) : Prop where
  luma : (luma width s).start ≤ (luma width s).stop ∧ (luma width s).stop ≤ pixels.length
  chroma : (chroma width height s).start ≤ (chroma width height s).stop ∧
    (chroma width height s).stop ≤ pixels.length

theorem Covers.fits (h : Covers 0 height stripes) (hs : s ∈ stripes) (pixels : Str)
    (hlength : pixels.length = width * height * 3 / 2) : Fits width height s pixels := by
  obtain ⟨_, hstop, hy, _, heven⟩ := h.bounds s hs
  rw [frame_length width height (h.even rfl)] at hlength
  constructor
  · rw [hlength]
    exact ⟨Nat.mul_le_mul_right _ (by omega), Nat.mul_le_mul_right _ (by omega)⟩
  · rw [hlength, chroma_lines hy heven]
    exact ⟨Nat.mul_le_mul_right _ (by omega), Nat.mul_le_mul_right _ (by omega)⟩

theorem putRegion_eq (pixels frame : Str) (h : Fits width height s pixels) :
    putRegion width height frame s
      ((luma width s).slice pixels ++ (chroma width height s).slice pixels) =
    (chroma width height s).write ((luma width s).write frame ((luma width s).slice pixels))
      ((chroma width height s).slice pixels) := by
  have hsplit : width * s.height = ((luma width s).slice pixels).length := by
    rw [(luma width s).slice_length pixels h.luma.2]
    simp only [luma, Nat.add_mul]
    rw [Nat.add_sub_cancel_left, Nat.mul_comm]
  simp only [putRegion, hsplit, List.take_left, List.drop_left]

theorem putRegion_get (pixels frame : Str) (h : Fits width height s pixels)
    (hframe : frame.length = pixels.length) :
    let next := putRegion width height frame s
      ((luma width s).slice pixels ++ (chroma width height s).slice pixels)
    next.length = pixels.length ∧
      ∀ i, (i ∈ region width height s → next[i]? = pixels[i]?) ∧
        (i ∉ region width height s → next[i]? = frame[i]?) := by
  dsimp only
  have hfirst := (luma width s).write_length pixels frame h.luma.1 h.luma.2 hframe
  rw [putRegion_eq pixels frame h]
  refine ⟨(chroma width height s).write_length pixels _ h.chroma.1 h.chroma.2 hfirst, fun i => ?_⟩
  rw [(chroma width height s).write_slice pixels _ h.chroma.1 h.chroma.2 hfirst i,
    (luma width s).write_slice pixels frame h.luma.1 h.luma.2 hframe i]
  simp only [region, Set.mem_union, Span.indices, Set.mem_Ico]
  constructor
  · intro hi
    split
    · rfl
    · rename_i hchroma
      rw [if_pos (hi.resolve_right hchroma)]
  · intro hi
    rw [not_or] at hi
    rw [if_neg hi.2, if_neg hi.1]

theorem Covers.nv12Region (h : Covers 0 height stripes) (hs : s ∈ stripes)
    (hwidth : 0 < width ∧ width ≤ 3840 ∧ width % 2 = 0) (hheight : 0 < height ∧ height ≤ 2160)
    (pixels : Str) (hlength : pixels.length = width * height * 3 / 2) :
    nv12Region pixels width height s =
      some ((luma width s).slice pixels ++ (chroma width height s).slice pixels) := by
  obtain ⟨_, hstop, hy, hpos, heven⟩ := h.bounds s hs
  have hframe : ¬ (width = 0 ∨ width > 3840 ∨ width % 2 ≠ 0 ∨ height = 0 ∨ height > 2160 ∨
      height % 2 ≠ 0) := by
    have hlines := h.even rfl
    omega
  have hstripe : ¬ (s.y % 2 ≠ 0 ∨ s.height = 0 ∨ s.height % 2 ≠ 0) := by omega
  have hadd : checkedAdd s.y s.height = some (s.y + s.height) := if_pos (by omega)
  have hsize : ¬ (s.y + s.height > height ∨ pixels.length ≠ width * height * 3 / 2) := by omega
  simp only [Stripe.nv12Region, guard, hframe, hstripe, hadd, hsize, not_false_eq_true, if_true,
    Option.bind_eq_bind, Option.bind_some, Option.pure_def]

theorem Covers.putRegions (h : Covers 0 height stripes)
    (hwidth : 0 < width ∧ width ≤ 3840 ∧ width % 2 = 0) (hheight : 0 < height ∧ height ≤ 2160)
    (pixels : Str) (hlength : pixels.length = width * height * 3 / 2)
    (part : List DesktopStripe) (hpart : ∀ s ∈ part, s ∈ stripes) (frame : Str)
    (hframe : frame.length = pixels.length) :
    ∃ next, putRegions pixels width height part frame = some next ∧
      next.length = pixels.length ∧
      ∀ i, (i ∈ ⋃ s ∈ part, region width height s) ∨ frame[i]? = pixels[i]? →
        next[i]? = pixels[i]? := by
  induction part generalizing frame with
  | nil => exact ⟨frame, rfl, hframe, fun i hi => by simpa using hi⟩
  | cons s rest ih =>
    have hs := hpart s List.mem_cons_self
    have hregion := h.nv12Region hs hwidth hheight pixels hlength
    obtain ⟨hnext, hget⟩ := putRegion_get pixels frame (h.fits hs pixels hlength) hframe
    obtain ⟨last, hlast, hlength', hall⟩ := ih
      (fun t ht => hpart t (List.mem_cons_of_mem s ht)) _ hnext
    refine ⟨last, ?_, hlength', fun i hi => hall i ?_⟩
    · simp only [Stripe.putRegions, List.foldlM_cons, hregion, Option.map_some] at hlast ⊢
      exact hlast
    · by_cases hin : i ∈ region width height s
      · exact .inr ((hget i).1 hin)
      · rw [(hget i).2 hin]
        rcases hi with hi | hi
        · simp only [Set.mem_iUnion, exists_prop, List.mem_cons] at hi ⊢
          obtain ⟨t, ht | ht, hregion⟩ := hi
          · exact absurd (ht ▸ hregion) hin
          · exact .inl ⟨t, ht, hregion⟩
        · exact .inr hi

theorem stripes_partition (height : ℕ) (stripes : List DesktopStripe)
    (h : ValidLayout height stripes) :
    (∀ total v, rates total height stripes = some v → v.length = stripes.length ∧
      (∀ r ∈ v, 1 ≤ r.toNat) ∧ (v.map UInt32.toNat).sum = total.toNat) ∧
    (∀ total, (rates total height stripes).isSome ↔
      stripes.length ≤ total.toNat ∧ ∀ s ∈ stripes.dropLast, height ≤ total.toNat * s.height) ∧
    ∀ width, 0 < width ∧ width ≤ 3840 ∧ width % 2 = 0 →
      (stripes.Pairwise fun s t => Disjoint (region width height s) (region width height t)) ∧
      ⋃ s ∈ stripes, (luma width s).indices = Set.Ico 0 (width * height) ∧
      ⋃ s ∈ stripes, (chroma width height s).indices =
        Set.Ico (width * height) (width * height * 3 / 2) ∧
      ∀ pixels : Str, pixels.length = width * height * 3 / 2 →
        (∀ s ∈ stripes, Fits width height s pixels ∧ nv12Region pixels width height s =
          some ((luma width s).slice pixels ++ (chroma width height s).slice pixels)) ∧
        ∀ frame : Str, frame.length = pixels.length →
          putRegions pixels width height stripes frame = some pixels := by
  have hcovers := h.covers
  obtain ⟨hlimits, _⟩ := h
  have hheight : 0 < height ∧ height ≤ 2160 := by
    rw [not_or, not_or, not_or] at hlimits
    omega
  refine ⟨?_, rates_isSome ⟨hlimits, ‹_›⟩, ?_⟩
  · intro total v hv
    obtain ⟨_, _, hv⟩ := Option.bind_eq_some_iff.mp hv
    exact ratesFrom_sum total height total stripes v (fun he => hlimits (.inl he)) hv
  · intro width hwidth
    refine ⟨hcovers.region_disjoint hwidth.1, hcovers.luma_cover hwidth.1,
      hcovers.chroma_cover hwidth.1, ?_⟩
    intro pixels hlength
    refine ⟨fun s hs => ⟨hcovers.fits hs pixels hlength,
      hcovers.nv12Region hs hwidth hheight pixels hlength⟩, ?_⟩
    intro frame hframe
    obtain ⟨next, hnext, hsize, hall⟩ := hcovers.putRegions hwidth hheight pixels hlength stripes
      (fun s hs => hs) frame hframe
    have heq : next = pixels := by
      refine List.ext_getElem? fun i => ?_
      by_cases hi : i < pixels.length
      · refine hall i (.inl ?_)
        have hcover : i ∈ Set.Ico 0 (width * height) ∪
            Set.Ico (width * height) (width * height * 3 / 2) := by
          simp only [Set.mem_union, Set.mem_Ico]
          omega
        rw [← hcovers.luma_cover hwidth.1, ← hcovers.chroma_cover hwidth.1] at hcover
        simp only [region, Set.mem_union, Set.mem_iUnion, exists_prop] at hcover ⊢
        rcases hcover with ⟨s, hs, hin⟩ | ⟨s, hs, hin⟩
        · exact ⟨s, hs, .inl hin⟩
        · exact ⟨s, hs, .inr hin⟩
      · rw [List.getElem?_eq_none (by omega), List.getElem?_eq_none (by omega)]
    rw [hnext, heq]

theorem stripes_partition_sample : (rates 5 4 [⟨0, 2⟩, ⟨2, 2⟩]).isSome ∧
    putRegions [1, 2, 3, 4, 5, 6, 7, 8, 9, 10, 11, 12] 2 4 [⟨0, 2⟩, ⟨2, 2⟩] (List.replicate 12 0) =
      some [1, 2, 3, 4, 5, 6, 7, 8, 9, 10, 11, 12] := by
  have h : ValidLayout 4 [⟨0, 2⟩, ⟨2, 2⟩] := by decide
  obtain ⟨_, hrates, hframe⟩ := stripes_partition 4 _ h
  obtain ⟨_, _, _, hpixels⟩ := hframe 2 (by decide)
  exact ⟨(hrates 5).mpr (by decide), (hpixels _ rfl).2 _ rfl⟩

end Rieul.Screen.Stripe
