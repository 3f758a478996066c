import Mathlib.Data.List.DropRight
import Rieul.Command.Schedule
import Rieul.Server.Pairing

/-!
# Recurrence texts (daemon/host/src/command.rs)

The recurrence text of a schedule is stored with a DTSTART line of its start before its
other logical lines. A text is a list of characters. What the recurrence parser makes of
a text is a parameter.
-/

namespace Rieul.Command.Recurrence
open Fallible

def civil (days : ℕ) : ℕ × ℕ × ℕ :=
  let z := days + 719468
  let era := z / 146097
  let doe := z % 146097
  let yoe := (doe - doe / 1460 + doe / 36524 - doe / 146096) / 365
  let doy := doe - (365 * yoe + yoe / 4 - yoe / 100)
  let mp := (5 * doy + 2) / 153
  let m := if mp < 10 then mp + 3 else mp - 9
  (era * 400 + yoe + if m ≤ 2 then 1 else 0, m, doy - (153 * mp + 2) / 5 + 1)

def padded (width n : ℕ) : List Char :=
  List.replicate (width - (Nat.toDigits 10 n).length) '0' ++ Nat.toDigits 10 n

/-- `%Y%m%dT%H%M%SZ`; a year of more than four digits has a sign. -/
def formatDatetime (ms : ℕ) : List Char :=
  let seconds := ms / 1000
  let (y, m, d) := civil (seconds / 86400)
  (if 9999 < y then ['+'] else []) ++ padded 4 y ++ padded 2 m ++ padded 2 d ++ ['T'] ++
    padded 2 (seconds / 3600 % 24) ++ padded 2 (seconds / 60 % 60) ++ padded 2 (seconds % 60) ++ ['Z']

example : formatDatetime 1767225661000 = "20260101T000101Z".toList := by decide

/-- `str::lines`, but for the carriage return before a line feed. -/
def lines : List Char → List (List Char)
  | [] => []
  | c :: rest =>
    if c = '\n' then [] :: lines rest
    else match lines rest with
      | [] => [[c]]
      | line :: others => (c :: line) :: others

def indented (line : List Char) : Bool := line.head?.any fun c => c = ' ' || c = '\t'

def joinLine (logical : List (List Char)) (line : List Char) : List (List Char) :=
  match indented line, logical.getLast? with
  | true, some previous => logical.dropLast ++ [previous ++ line.tail]
  | _, _ => logical ++ [line]

def trimReturns (rawLine : List Char) : List Char := rawLine.rdropWhile (· = '\r')

def unfoldIcalLines (text : List Char) : List (List Char) :=
  (lines text).foldl (fun logical rawLine => joinLine logical (trimReturns rawLine)) []

def isDtstartLine (line : List Char) : Bool :=
  let property := line.takeWhile (· ≠ ':')
  let name := property.takeWhile (· ≠ ';')
  name.map Char.toUpper = "DTSTART".toList

def blank (line : List Char) : Bool := line.all Server.isWhitespace

inductive CommandErrorKind where
  | invalidRRuleSet
  deriving DecidableEq

structure CommandError where
  kind : CommandErrorKind
  message : String
  deriving DecidableEq

def CommandError.invalidRrule (message : String) : CommandError := ⟨.invalidRRuleSet, message⟩

def normalizeScheduleStartMs (ms : ℕ) : ℕ := ms - ms % 1000

def dtstartLine (startAtMs : ℕ) : List Char :=
  "DTSTART:".toList ++ formatDatetime (unixMsToDatetime startAtMs)

def keptLines (text : List Char) : List (List Char) :=
  ((unfoldIcalLines text).filter fun line => !blank line).filter fun line => !isDtstartLine line

def canonicalText (startAtMs : ℕ) (text : List Char) : List Char :=
  ['\n'].intercalate (dtstartLine startAtMs :: keptLines text)

section
variable {ρ : Type} (setFromString : List Char → Except String ρ)

def parseRruleSet (text : List Char) : Except CommandError ρ :=
  if (unfoldIcalLines text).any isDtstartLine = false then
    .error (.invalidRrule "rrule set must include DTSTART")
  else match setFromString text with
    | .ok set => .ok set
    | .error err => .error (.invalidRrule err)

def canonicalizeScheduleRruleSet (startAtMs : ℕ) (text : List Char) :
    Except CommandError (ℕ × List Char) := do
  let startAtMs := normalizeScheduleStartMs startAtMs
  let canonical := canonicalText startAtMs text
  let _ ← parseRruleSet setFromString canonical
  pure (startAtMs, canonical)

theorem lines_no_newline (text : List Char) : ∀ line ∈ lines text, '\n' ∉ line := by
  induction text with
  | nil => exact fun _ hmem => absurd hmem List.not_mem_nil
  | cons c rest ih =>
    unfold lines
    split
    · intro line hmem
      rcases List.mem_cons.mp hmem with rfl | hmem
      · exact List.not_mem_nil
      · exact ih line hmem
    · rename_i hc
      cases hrest : lines rest with
      | nil =>
        intro line hmem
        rw [List.mem_singleton.mp hmem]
        simpa using Ne.symm hc
      | cons first others =>
        rw [hrest] at ih
        intro line hmem
        rcases List.mem_cons.mp hmem with rfl | hmem
        · simpa [Ne.symm hc] using ih first List.mem_cons_self
        · exact ih line (List.mem_cons_of_mem first hmem)

theorem lines_append (line rest : List Char) (h : '\n' ∉ line) :
    lines (line ++ '\n' :: rest) = line :: lines rest := by
  induction line with
  | nil =>
    rw [List.nil_append, lines, if_pos rfl]
  | cons c line ih =>
    obtain ⟨hc, hline⟩ := not_or.mp (mt List.mem_cons.mpr h)
    rw [List.cons_append, lines, if_neg (Ne.symm hc), ih hline]

theorem lines_singleton (line : List Char) (hne : line ≠ []) (h : '\n' ∉ line) :
    lines line = [line] := by
  induction line with
  | nil => exact absurd rfl hne
  | cons c line ih =>
    obtain ⟨hc, hline⟩ := not_or.mp (mt List.mem_cons.mpr h)
    rw [lines, if_neg (Ne.symm hc)]
    cases line with
    | nil => rfl
    | cons d line => rw [ih (List.cons_ne_nil d line) hline]

theorem lines_intercalate (all : List (List Char)) (h : ∀ line ∈ all, line ≠ [] ∧ '\n' ∉ line) :
    lines (['\n'].intercalate all) = all := by
  induction all with
  | nil => rfl
  | cons line others ih =>
    obtain ⟨hne, hline⟩ := h line List.mem_cons_self
    cases others with
    | nil => rw [List.intercalate_singleton, lines_singleton line hne hline]
    | cons other others =>
      rw [List.intercalate_cons_cons, List.append_assoc, List.singleton_append,
        lines_append line _ hline, ih fun l hmem => h l (List.mem_cons_of_mem line hmem)]

structure Clean (line : List Char) : Prop where
  newline : '\n' ∉ line
  ending : line.getLast? ≠ some '\r'

theorem trimReturns_clean (rawLine : List Char) (h : '\n' ∉ rawLine) :
    Clean (trimReturns rawLine) := by
  refine ⟨fun hmem => h ((List.rdropWhile_prefix _ rawLine).subset hmem), fun hlast => ?_⟩
  have hne : trimReturns rawLine ≠ [] := by
    intro hnil
    rw [hnil] at hlast
    cases hlast
  have hkept := List.rdropWhile_last_not (fun c => c = '\r') rawLine hne
  rw [List.getLast?_eq_getLast hne, Option.some.injEq] at hlast
  exact hkept (decide_eq_true hlast)

theorem Clean.trimmed {line : List Char} (h : Clean line) : trimReturns line = line := by
  unfold trimReturns
  rw [List.rdropWhile_eq_self_iff]
  intro hne hlast
  exact h.ending (by rw [List.getLast?_eq_getLast hne, of_decide_eq_true hlast])

theorem Clean.append {previous line : List Char} (hprevious : Clean previous) (hline : Clean line) :
    Clean (previous ++ line.tail) := by
  constructor
  · rw [List.mem_append, not_or]
    exact ⟨hprevious.newline, fun hmem => hline.newline (List.mem_of_mem_tail hmem)⟩
  · rw [List.getLast?_append]
    cases line with
    | nil => exact hprevious.ending
    | cons c rest =>
      cases rest with
      | nil => exact hprevious.ending
      | cons d rest =>
        have hending := hline.ending
        rw [List.getLast?_cons_cons] at hending
        rw [List.tail_cons, List.getLast?_eq_getLast (List.cons_ne_nil d rest)] at *
        exact hending

theorem joinLine_indented (logical : List (List Char)) (previous line : List Char)
    (h : indented line = true) :
    joinLine (logical ++ [previous]) line = logical ++ [previous ++ line.tail] := by
  unfold joinLine
  rw [h, List.getLast?_concat, List.dropLast_concat]

theorem joinLine_other (logical : List (List Char)) (line : List Char)
    (h : indented line = false) : joinLine logical line = logical ++ [line] := by
  unfold joinLine
  rw [h]

theorem joinLine_clean (logical : List (List Char)) (line : List Char)
    (hlogical : ∀ l ∈ logical, Clean l) (hline : Clean line) :
    ∀ l ∈ joinLine logical line, Clean l := by
  rcases List.eq_nil_or_concat logical with rfl | ⟨others, previous, rfl⟩
  · have hone : joinLine [] line = [line] := by
      unfold joinLine
      split
      · contradiction
      · rfl
    rw [hone]
    exact fun l hmem => List.mem_singleton.mp hmem ▸ hline
  · rw [List.concat_eq_append] at hlogical ⊢
    cases hindent : indented line with
    | true =>
      rw [joinLine_indented others previous line hindent]
      intro l hmem
      rcases List.mem_append.mp hmem with hmem | hmem
      · exact hlogical l (List.mem_append_left _ hmem)
      · rw [List.mem_singleton.mp hmem]
        exact (hlogical previous (by simp)).append hline
    | false =>
      rw [joinLine_other _ line hindent]
      intro l hmem
      rcases List.mem_append.mp hmem with hmem | hmem
      · exact hlogical l hmem
      · exact List.mem_singleton.mp hmem ▸ hline

theorem unfold_clean (text : List Char) : ∀ line ∈ unfoldIcalLines text, Clean line := by
  have hall : ∀ (raw logical : List (List Char)), (∀ line ∈ raw, '\n' ∉ line) →
      (∀ line ∈ logical, Clean line) →
        ∀ line ∈ raw.foldl (fun logical rawLine => joinLine logical (trimReturns rawLine)) logical,
          Clean line := by
    intro raw
    induction raw with
    | nil => exact fun logical _ hlogical => hlogical
    | cons rawLine raw ih =>
      intro logical hraw hlogical
      exact ih _ (fun line hmem => hraw line (List.mem_cons_of_mem rawLine hmem))
        (joinLine_clean logical _ hlogical
          (trimReturns_clean rawLine (hraw rawLine List.mem_cons_self)))
  exact hall (lines text) [] (lines_no_newline text) fun _ hmem => absurd hmem List.not_mem_nil

theorem join_length (all logical : List (List Char)) (hne : logical ≠ []) :
    (all.foldl joinLine logical).length =
      logical.length + all.countP (fun line => !indented line) := by
  induction all generalizing logical with
  | nil => rfl
  | cons line all ih =>
    obtain ⟨others, previous, rfl⟩ := (List.eq_nil_or_concat logical).resolve_left hne
    rw [List.concat_eq_append, List.foldl_cons, List.countP_cons]
    cases hindent : indented line with
    | true =>
      rw [joinLine_indented others previous line hindent, ih _ (by simp)]
      simp
    | false =>
      rw [joinLine_other _ line hindent, ih _ (by simp)]
      simp
      omega

theorem join_others (all logical : List (List Char)) (h : ∀ line ∈ all, indented line = false) :
    all.foldl joinLine logical = logical ++ all := by
  induction all generalizing logical with
  | nil => exact (List.append_nil logical).symm
  | cons line all ih =>
    rw [List.foldl_cons, joinLine_other logical line (h line List.mem_cons_self),
      ih _ fun l hmem => h l (List.mem_cons_of_mem line hmem), List.append_assoc,
      List.singleton_append]

theorem unfold_intercalate (first : List Char) (others : List (List Char))
    (hfirst : indented first = false) (hclean : ∀ line ∈ first :: others, line ≠ [] ∧ Clean line) :
    unfoldIcalLines (['\n'].intercalate (first :: others)) = others.foldl joinLine [first] := by
  have hlines := lines_intercalate (first :: others)
    fun line hmem => ⟨(hclean line hmem).1, (hclean line hmem).2.newline⟩
  have htrim : (first :: others).map trimReturns = first :: others := by
    rw [List.map_congr_left fun line hmem => (hclean line hmem).2.trimmed, List.map_id']
  unfold unfoldIcalLines
  rw [hlines, ← List.foldl_map (f := trimReturns) (g := joinLine), htrim, List.foldl_cons,
    joinLine_other [] first hfirst, List.nil_append]

theorem not_indented_of_length (first : List Char) (others : List (List Char))
    (h : (others.foldl joinLine [first]).length = others.length + 1) :
    ∀ line ∈ others, indented line = false := by
  rw [join_length others [first] (List.cons_ne_nil first [])] at h
  have hall : others.countP (fun line => !indented line) = others.length := by
    simp only [List.length_cons, List.length_nil] at h
    omega
  intro line hmem
  simpa using List.countP_eq_length.mp hall line hmem

theorem padded_digits (width n : ℕ) : ∀ c ∈ padded width n, c.isDigit = true := by
  intro c hmem
  rcases List.mem_append.mp hmem with hmem | hmem
  · rw [List.eq_of_mem_replicate hmem]
    rfl
  · exact Nat.isDigit_of_mem_toDigits (by decide) (by decide) hmem

theorem formatDatetime_chars (ms : ℕ) :
    ∀ c ∈ formatDatetime ms, c.isDigit = true ∨ c ∈ ['+', 'T', 'Z'] := by
  intro c hmem
  unfold formatDatetime at hmem
  simp only [List.mem_append] at hmem
  rcases hmem with (((((((hsign | h) | h) | h) | h) | h) | h) | h) | h
  · split at hsign
    · rw [List.mem_singleton.mp hsign]
      exact .inr (by simp)
    · exact absurd hsign List.not_mem_nil
  · exact .inl (padded_digits _ _ c h)
  · exact .inl (padded_digits _ _ c h)
  · exact .inl (padded_digits _ _ c h)
  · rw [List.mem_singleton.mp h]
    exact .inr (by simp)
  · exact .inl (padded_digits _ _ c h)
  · exact .inl (padded_digits _ _ c h)
  · exact .inl (padded_digits _ _ c h)
  · rw [List.mem_singleton.mp h]
    exact .inr (by simp)

theorem dtstartLine_clean (startAtMs : ℕ) : Clean (dtstartLine startAtMs) := by
  have hchars : ∀ c ∈ dtstartLine startAtMs, c ≠ '\n' ∧ c ≠ '\r' := by
    intro c hmem
    rcases List.mem_append.mp hmem with hmem | hmem
    · have hname : ∀ c ∈ "DTSTART:".toList, c ≠ '\n' ∧ c ≠ '\r' := by simp
      exact hname c hmem
    · rcases formatDatetime_chars _ c hmem with hdigit | hother
      · constructor
        · rintro rfl
          cases hdigit
        · rintro rfl
          cases hdigit
      · have hother' : ∀ c ∈ ['+', 'T', 'Z'], c ≠ '\n' ∧ c ≠ '\r' := by simp
        exact hother' c hother
  refine ⟨fun hmem => (hchars _ hmem).1 rfl, fun hlast => ?_⟩
  exact (hchars _ (List.mem_of_getLast? hlast)).2 rfl

theorem isDtstartLine_dtstartLine (startAtMs : ℕ) : isDtstartLine (dtstartLine startAtMs) = true := by
  unfold isDtstartLine dtstartLine
  rw [show "DTSTART:".toList = "DTSTART".toList ++ [':'] from rfl, List.append_assoc,
    List.takeWhile_append_of_pos (by simp)]
  rfl

theorem formatDatetime_eq_iff (startAtMs : ℕ) :
    formatDatetime (unixMsToDatetime startAtMs) = formatDatetime startAtMs ↔
      startAtMs ≤ maxDatetimeMs := by
  unfold unixMsToDatetime
  split
  · rename_i h
    exact ⟨fun _ => h, fun _ => rfl⟩
  · rename_i h
    refine ⟨fun heq => ?_, fun hle => absurd hle h⟩
    have hyear : 9999 < (civil (startAtMs / 1000 / 86400)).1 := by
      have hdays : 95026236 ≤ startAtMs / 1000 / 86400 := by
        unfold maxDatetimeMs at h
        omega
      unfold civil
      dsimp only
      omega
    have hhead := congrArg List.head? heq
    unfold formatDatetime at hhead
    dsimp only at hhead
    rw [if_pos hyear] at hhead
    cases hhead

structure Canonical (startAtMs : ℕ) (text canonical : List Char) : Prop where
  again : canonicalizeScheduleRruleSet setFromString startAtMs canonical = .ok (startAtMs, canonical)
  first : (unfoldIcalLines canonical).head? = some ("DTSTART:".toList ++ formatDatetime startAtMs)
  only : (unfoldIcalLines canonical).countP isDtstartLine = 1
  others : (unfoldIcalLines canonical).tail = keptLines text

theorem keptLines_spec (text : List Char) : ∀ line ∈ keptLines text,
    (line ≠ [] ∧ Clean line) ∧ blank line = false ∧ isDtstartLine line = false := by
  intro line hmem
  obtain ⟨hmem, hdtstart⟩ := List.mem_filter.mp hmem
  obtain ⟨hmem, hblank⟩ := List.mem_filter.mp hmem
  have hblank : blank line = false := by simpa using hblank
  refine ⟨⟨?_, unfold_clean text line hmem⟩, hblank, by simpa using hdtstart⟩
  rintro rfl
  cases hblank

theorem unfold_canonical (startAtMs : ℕ) (text : List Char) :
    unfoldIcalLines (canonicalText startAtMs text) =
      (keptLines text).foldl joinLine [dtstartLine startAtMs] := by
  refine unfold_intercalate (dtstartLine startAtMs) (keptLines text) rfl ?_
  intro line hmem
  rcases List.mem_cons.mp hmem with rfl | hmem
  · exact ⟨List.cons_ne_nil _ _, dtstartLine_clean startAtMs⟩
  · exact (keptLines_spec text line hmem).1

section
variable (startAtMs : ℕ) (text : List Char) (h : ∀ line ∈ keptLines text, indented line = false)
include startAtMs text h

theorem unfold_canonical_kept :
    unfoldIcalLines (canonicalText startAtMs text) = dtstartLine startAtMs :: keptLines text := by
  rw [unfold_canonical, join_others _ _ h, List.singleton_append]

theorem keptLines_canonical :
    keptLines (canonicalText startAtMs text) = keptLines text := by
  have hblank : blank (dtstartLine startAtMs) = false := rfl
  conv => lhs; unfold keptLines
  rw [unfold_canonical_kept startAtMs text h, List.filter_cons_of_pos (by simp [hblank]),
    List.filter_cons_of_neg (by simp [isDtstartLine_dtstartLine]), List.filter_eq_self.mpr,
    List.filter_eq_self.mpr]
  · exact fun line hmem => by simp [(keptLines_spec text line hmem).2.1]
  · intro line hmem
    have hline := List.mem_of_mem_filter hmem
    simp [(keptLines_spec text line hline).2.2]

end

theorem normalize_normalize (startAtMs : ℕ) :
    normalizeScheduleStartMs (normalizeScheduleStartMs startAtMs) =
      normalizeScheduleStartMs startAtMs := by
  unfold normalizeScheduleStartMs
  omega

structure Folded where
  first : List Char
  rest : List (Char × List Char)

def Folded.rawLines (folded : Folded) : List (List Char) :=
  folded.first :: folded.rest.map fun piece => piece.1 :: piece.2

def Folded.line (folded : Folded) : List Char := folded.first ++ folded.rest.flatMap Prod.snd

structure Folded.WellFormed (folded : Folded) : Prop where
  first : indented folded.first = false
  rest : ∀ piece ∈ folded.rest, piece.1 = ' ' ∨ piece.1 = '\t'

theorem join_pieces (pieces : List (Char × List Char)) (logical : List (List Char))
    (previous : List Char) (h : ∀ piece ∈ pieces, piece.1 = ' ' ∨ piece.1 = '\t') :
    (pieces.map fun piece => piece.1 :: piece.2).foldl joinLine (logical ++ [previous]) =
      logical ++ [previous ++ pieces.flatMap Prod.snd] := by
  induction pieces generalizing previous with
  | nil => rw [List.map_nil, List.foldl_nil, List.flatMap_nil, List.append_nil]
  | cons piece pieces ih =>
    have hindent : indented (piece.1 :: piece.2) = true := by
      simpa [indented] using h piece List.mem_cons_self
    rw [List.map_cons, List.foldl_cons, joinLine_indented logical previous _ hindent, List.tail_cons,
      ih _ fun other hmem => h other (List.mem_cons_of_mem piece hmem), List.flatMap_cons,
      List.append_assoc]

theorem join_folded (all : List Folded) (logical : List (List Char))
    (h : ∀ folded ∈ all, folded.WellFormed) :
    (all.flatMap Folded.rawLines).foldl joinLine logical = logical ++ all.map Folded.line := by
  induction all generalizing logical with
  | nil => exact (List.append_nil logical).symm
  | cons folded all ih =>
    have hfolded := h folded List.mem_cons_self
    rw [List.flatMap_cons, List.foldl_append, Folded.rawLines, List.foldl_cons,
      joinLine_other logical _ hfolded.first, join_pieces _ _ _ hfolded.rest,
      ih _ fun other hmem => h other (List.mem_cons_of_mem folded hmem), List.append_assoc]
    rfl

theorem unfold_folded (all : List Folded) (text : List Char) (h : ∀ folded ∈ all, folded.WellFormed)
    (htext : (lines text).map trimReturns = all.flatMap Folded.rawLines) :
    unfoldIcalLines text = all.map Folded.line := by
  unfold unfoldIcalLines
  rw [← List.foldl_map (f := trimReturns) (g := joinLine), htext, join_folded all [] h,
    List.nil_append]

/-- An accepted text is canonicalized as it is to be exactly if its start is a time that can be
represented and none of the lines that stay looks like the continuation of another. The lines that stay
do not depend on how they were folded. -/
theorem canonicalize_iff (startAtMs : ℕ) (text : List Char) (stored : ℕ) (canonical : List Char)
    (h : canonicalizeScheduleRruleSet setFromString startAtMs text = .ok (stored, canonical)) :
    (Canonical setFromString stored text canonical ↔
      startAtMs ≤ maxDatetimeMs ∧ ∀ line ∈ keptLines text, indented line = false) ∧
    ∀ all : List Folded, (∀ folded ∈ all, folded.WellFormed) →
      (lines text).map trimReturns = all.flatMap Folded.rawLines →
        keptLines text = ((all.map Folded.line).filter fun line => !blank line).filter
          fun line => !isDtstartLine line := by
  have hsame : stored = normalizeScheduleStartMs startAtMs ∧
      canonical = canonicalText stored text ∧ ∃ set, parseRruleSet setFromString canonical = .ok set := by
    simp only [canonicalizeScheduleRruleSet, bind_eq_ok, pure_eq_ok, Prod.mk.injEq] at h
    obtain ⟨set, hset, rfl, rfl⟩ := h
    exact ⟨rfl, rfl, set, hset⟩
  obtain ⟨rfl, rfl, set, hset⟩ := hsame
  have hstart : normalizeScheduleStartMs startAtMs ≤ maxDatetimeMs ↔ startAtMs ≤ maxDatetimeMs := by
    unfold normalizeScheduleStartMs maxDatetimeMs
    omega
  refine ⟨⟨fun hcanonical => ?_, fun hcanonical => ?_⟩, fun all hall htext => ?_⟩
  · have hkept : ∀ line ∈ keptLines text, indented line = false := by
      have hlines := List.cons_head?_tail hcanonical.first
      rw [hcanonical.others, unfold_canonical] at hlines
      refine not_indented_of_length (dtstartLine (normalizeScheduleStartMs startAtMs)) _ ?_
      rw [← hlines, List.length_cons]
    refine ⟨hstart.mp ((formatDatetime_eq_iff _).mp ?_), hkept⟩
    have hfirst := hcanonical.first
    rw [unfold_canonical_kept _ text hkept, List.head?_cons, Option.some.injEq] at hfirst
    exact List.append_cancel_left hfirst
  · obtain ⟨hrange, hkept⟩ := hcanonical
    have hunfold := unfold_canonical_kept (normalizeScheduleStartMs startAtMs) text hkept
    have hdate := (formatDatetime_eq_iff _).mpr (hstart.mpr hrange)
    refine ⟨?_, ?_, ?_, ?_⟩
    · have htext : canonicalText (normalizeScheduleStartMs startAtMs)
          (canonicalText (normalizeScheduleStartMs startAtMs) text) =
            canonicalText (normalizeScheduleStartMs startAtMs) text :=
        congrArg (fun kept => ['\n'].intercalate (dtstartLine _ :: kept))
          (keptLines_canonical _ text hkept)
      simp only [canonicalizeScheduleRruleSet, normalize_normalize, htext, hset]
      rfl
    · have hline : dtstartLine (normalizeScheduleStartMs startAtMs) =
          "DTSTART:".toList ++ formatDatetime (normalizeScheduleStartMs startAtMs) :=
        congrArg ("DTSTART:".toList ++ ·) hdate
      rw [hunfold, List.head?_cons, hline]
    · have hothers : (keptLines text).countP isDtstartLine = 0 :=
        List.countP_eq_zero.mpr fun line hmem => by simp [(keptLines_spec text line hmem).2.2]
      rw [hunfold, List.countP_cons_of_pos (isDtstartLine_dtstartLine _), hothers]
    · rw [hunfold, List.tail_cons]
  · rw [keptLines, unfold_folded all text hall htext]

end

def readsLines (text : List Char) : Except String Unit :=
  if (lines text).any indented then .error "content line" else .ok ()

def daily : List Char := "RRULE:FREQ=DAILY;\n COUNT=2\n".toList

theorem canonicalize_iff_daily : ∃ canonical,
    canonicalizeScheduleRruleSet readsLines 1767225661999 daily = .ok (1767225661000, canonical) ∧
    Canonical readsLines 1767225661000 daily canonical := by
  have hok : canonicalizeScheduleRruleSet readsLines 1767225661999 daily =
      .ok (1767225661000, canonicalText 1767225661000 daily) := by
    decide +kernel
  refine ⟨_, hok, ?_⟩
  exact (canonicalize_iff readsLines 1767225661999 daily _ _ hok).1.mpr
    ⟨by decide, by decide +kernel⟩

theorem late_start_not_canonical : ∃ canonical,
    canonicalizeScheduleRruleSet readsLines 9000000000000000 daily =
      .ok (9000000000000000, canonical) ∧
    (lines canonical).head? = some "DTSTART:19700101T000000Z".toList ∧
    ¬ Canonical readsLines 9000000000000000 daily canonical := by
  refine ⟨canonicalText 9000000000000000 daily, by decide +kernel, by decide +kernel, ?_⟩
  intro hcanonical
  have hfirst : (unfoldIcalLines (canonicalText 9000000000000000 daily)).head? ≠
      some ("DTSTART:".toList ++ formatDatetime 9000000000000000) := by
    decide +kernel
  exact hfirst hcanonical.first

end Rieul.Command.Recurrence
