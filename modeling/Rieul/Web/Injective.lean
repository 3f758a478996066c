import Rieul.Web.Cbor

/-!
# Transcripts are told apart by their encodings

A transcript is built of numbers, texts, bytes and arrays.
-/

namespace Rieul.Web
open Bytes Fallible Rieul.Cbor

namespace CborValue

mutual
def Plain : CborValue → Prop
  | .number _ | .string _ | .bytes _ => True
  | .array items => PlainItems items
  | _ => False

def PlainItems : List CborValue → Prop
  | [] => True
  | v :: vs => Plain v ∧ PlainItems vs
end

def major : CborValue → ℕ
  | .number n => if 0 ≤ n then 0 else 1
  | .string _ => 3
  | .bytes _ => 2
  | _ => 4

def argument : CborValue → ℕ
  | .number n => (if 0 ≤ n then n else -1 - n).toNat
  | .string t => (textBytes t).length
  | .bytes b => b.length
  | .array items => items.length
  | _ => 0

def body : CborValue → Checked Str
  | .string t => .ok (textBytes t)
  | .bytes b => .ok b
  | .array items => encodeAll items
  | _ => .ok []

end CborValue

open CborValue

theorem encodeTypeValue_eq_ok (major : ℕ) (value : ℤ) (x : Str)
    (h : encodeTypeValue major value = .ok x) :
    value.toNat < 2 ^ 64 ∧ x = encodeArgument major value.toNat := by
  simp only [encodeTypeValue, bind_unit_eq_ok, ensure_eq_ok, pure_eq_ok, typeValue_eq] at h
  obtain ⟨⟨hsafe, _⟩, rfl⟩ := h
  simp only [IsSafeInteger, maxSafeInteger] at hsafe
  refine ⟨?_, rfl⟩
  omega

theorem encodeCbor_head (v : CborValue) (hv : v.Plain) (x : Str) (h : encodeCbor v = .ok x) :
    v.argument < 2 ^ 64 ∧
      ∃ b, v.body = .ok b ∧ x = encodeArgument v.major v.argument ++ b := by
  cases v with
  | number n =>
    simp only [encodeCbor, bind_unit_eq_ok, ensure_eq_ok] at h
    obtain ⟨_, h⟩ := h
    by_cases hn : 0 ≤ n
    · rw [if_pos hn] at h
      obtain ⟨hlt, rfl⟩ := encodeTypeValue_eq_ok 0 n x h
      simp only [argument, major, if_pos hn]
      exact ⟨hlt, [], rfl, (List.append_nil _).symm⟩
    · rw [if_neg hn] at h
      obtain ⟨hlt, rfl⟩ := encodeTypeValue_eq_ok 1 (-1 - n) x h
      simp only [argument, major, if_neg hn]
      exact ⟨hlt, [], rfl, (List.append_nil _).symm⟩
  | string t =>
    simp only [encodeCbor, bind_eq_ok, pure_eq_ok] at h
    obtain ⟨length, hlength, rfl⟩ := h
    obtain ⟨hlt, rfl⟩ := encodeTypeValue_eq_ok 3 _ length hlength
    exact ⟨hlt, _, rfl, rfl⟩
  | bytes b =>
    simp only [encodeCbor, bind_eq_ok, pure_eq_ok] at h
    obtain ⟨length, hlength, rfl⟩ := h
    obtain ⟨hlt, rfl⟩ := encodeTypeValue_eq_ok 2 _ length hlength
    exact ⟨hlt, _, rfl, rfl⟩
  | array items =>
    simp only [encodeCbor, bind_eq_ok, pure_eq_ok] at h
    obtain ⟨length, hlength, rest, hrest, rfl⟩ := h
    obtain ⟨hlt, rfl⟩ := encodeTypeValue_eq_ok 4 _ length hlength
    exact ⟨hlt, _, hrest, rfl⟩
  | null | boolean | fraction | f64 | map => cases hv

theorem major_lt (v : CborValue) : v.major < 8 := by
  unfold major
  split
  · split <;> omega
  all_goals omega

theorem encodeCbor_parts (v w : CborValue) (hv : v.Plain) (hw : w.Plain) (x y r r' : Str)
    (hx : encodeCbor v = .ok x) (hy : encodeCbor w = .ok y) (h : x ++ r = y ++ r') :
    v.major = w.major ∧ v.argument = w.argument ∧
      ∃ b c, v.body = .ok b ∧ w.body = .ok c ∧ b ++ r = c ++ r' := by
  obtain ⟨hlt, b, hb, rfl⟩ := encodeCbor_head v hv x hx
  obtain ⟨hlt', c, hc, rfl⟩ := encodeCbor_head w hw y hy
  rw [List.append_assoc, List.append_assoc] at h
  obtain ⟨hmajor, hargument, hrest⟩ := encodeArgument_append_inj _ _ _ _ _ _ (major_lt v)
    (major_lt w) hlt hlt' h
  exact ⟨hmajor, hargument, b, c, hb, hc, hrest⟩

mutual
theorem encodeCbor_append_inj : ∀ (v w : CborValue), v.Plain → w.Plain → ∀ (x y r r' : Str),
    encodeCbor v = .ok x → encodeCbor w = .ok y → x ++ r = y ++ r' → v = w ∧ r = r'
  | .array vs, w, hv, hw, x, y, r, r', hx, hy, h => by
    obtain ⟨hmajor, hlength, b, c, hb, hc, hrest⟩ :=
      encodeCbor_parts (.array vs) w hv hw x y r r' hx hy h
    cases w with
    | array ws =>
      obtain ⟨rfl, hr⟩ := encodeAll_append_inj vs ws hv hw hlength b c r r' hb hc hrest
      exact ⟨rfl, hr⟩
    | number n =>
      simp only [major] at hmajor
      split at hmajor <;> omega
    | string | bytes => cases hmajor
    | null | boolean | fraction | f64 | map => cases hw
  | .number n, w, hv, hw, x, y, r, r', hx, hy, h => by
    obtain ⟨hmajor, hargument, b, c, hb, hc, hrest⟩ :=
      encodeCbor_parts (.number n) w hv hw x y r r' hx hy h
    cases hb
    cases w with
    | number m =>
      cases hc
      simp only [major, argument] at hmajor hargument
      refine ⟨?_, hrest⟩
      congr 1
      split at hmajor <;> split at hmajor <;> simp_all <;> omega
    | string | bytes | array =>
      simp only [major] at hmajor
      split at hmajor <;> omega
    | null | boolean | fraction | f64 | map => cases hw
  | .string t, w, hv, hw, x, y, r, r', hx, hy, h => by
    obtain ⟨hmajor, hlength, b, c, hb, hc, hrest⟩ :=
      encodeCbor_parts (.string t) w hv hw x y r r' hx hy h
    cases hb
    cases w with
    | string u =>
      cases hc
      obtain ⟨htext, hr⟩ := List.append_inj hrest hlength
      rw [textBytes_inj htext]
      exact ⟨rfl, hr⟩
    | number n =>
      simp only [major] at hmajor
      split at hmajor <;> omega
    | bytes | array => cases hmajor
    | null | boolean | fraction | f64 | map => cases hw
  | .bytes u, w, hv, hw, x, y, r, r', hx, hy, h => by
    obtain ⟨hmajor, hlength, b, c, hb, hc, hrest⟩ :=
      encodeCbor_parts (.bytes u) w hv hw x y r r' hx hy h
    cases hb
    cases w with
    | bytes u' =>
      cases hc
      obtain ⟨rfl, hr⟩ := List.append_inj hrest hlength
      exact ⟨rfl, hr⟩
    | number n =>
      simp only [major] at hmajor
      split at hmajor <;> omega
    | string | array => cases hmajor
    | null | boolean | fraction | f64 | map => cases hw
  | .null, _, hv, _, _, _, _, _, _, _, _ => by cases hv
  | .boolean _, _, hv, _, _, _, _, _, _, _, _ => by cases hv
  | .fraction _, _, hv, _, _, _, _, _, _, _, _ => by cases hv
  | .f64 _, _, hv, _, _, _, _, _, _, _, _ => by cases hv
  | .map _, _, hv, _, _, _, _, _, _, _, _ => by cases hv

theorem encodeAll_append_inj : ∀ (vs ws : List CborValue), PlainItems vs → PlainItems ws →
    vs.length = ws.length → ∀ (x y r r' : Str), encodeAll vs = .ok x → encodeAll ws = .ok y →
    x ++ r = y ++ r' → vs = ws ∧ r = r'
  | [], [], _, _, _, x, y, r, r', hx, hy, h => by
    cases hx
    cases hy
    exact ⟨rfl, h⟩
  | v :: vs, w :: ws, hv, hw, hlength, x, y, r, r', hx, hy, h => by
    simp only [encodeAll, bind_eq_ok, pure_eq_ok] at hx hy
    obtain ⟨x1, hx1, x2, hx2, rfl⟩ := hx
    obtain ⟨y1, hy1, y2, hy2, rfl⟩ := hy
    rw [List.append_assoc, List.append_assoc] at h
    obtain ⟨rfl, hrest⟩ := encodeCbor_append_inj v w hv.1 hw.1 x1 y1 _ _ hx1 hy1 h
    obtain ⟨rfl, hr⟩ := encodeAll_append_inj vs ws hv.2 hw.2 (Nat.succ.inj hlength) x2 y2 r r' hx2
      hy2 hrest
    exact ⟨rfl, hr⟩
end

theorem encodeCbor_inj (v w : CborValue) (hv : v.Plain) (hw : w.Plain) (x : Str)
    (hx : encodeCbor v = .ok x) (hy : encodeCbor w = .ok x) : v = w :=
  (encodeCbor_append_inj v w hv hw x x [] [] hx hy rfl).1

end Rieul.Web
