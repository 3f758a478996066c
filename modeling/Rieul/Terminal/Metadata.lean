import Mathlib.Data.List.Induction
import Mathlib.Tactic.ByContra
import Mathlib.Data.List.DropRight
import Rieul.Terminal.Session

/-!
# Titles and directories in the output (daemon/host/src/terminal.rs)

`oscPayloads` reads a stream of output at once: the payload of an operating system command is all
up to the first terminator, and a command that is too long is passed by. The parser reads the
stream byte by byte, in chunks, and reports what `oscPayloads` finds as long as no step is
irregular. A payload is text in UTF-8, in which anything else is replaced.
-/

namespace Rieul.Terminal.Metadata
open Bytes Rieul.Terminal

def REPLACEMENT_CHARACTER : Char := Char.ofNat 0xfffd

/-- The character that a byte and those after it begin with, and how many of those it takes. What
is no character is replaced up to the byte at which that shows. -/
def leadChar (byte : UInt8) (rest : Str) : Char × ℕ :=
  let within (index : ℕ) (low high : UInt8) : Bool :=
    rest[index]?.any fun next => low ≤ next && next ≤ high
  let low6 (index : ℕ) : ℕ := (rest.getD index 0).toNat % 64
  if byte ≤ 0x7f then (Char.ofNat byte.toNat, 0)
  else if 0xc2 ≤ byte ∧ byte ≤ 0xdf then
    if within 0 0x80 0xbf then (Char.ofNat (byte.toNat % 32 * 64 + low6 0), 1)
    else (REPLACEMENT_CHARACTER, 0)
  else if 0xe0 ≤ byte ∧ byte ≤ 0xef then
    if ¬ within 0 (if byte = 0xe0 then 0xa0 else 0x80) (if byte = 0xed then 0x9f else 0xbf) then
      (REPLACEMENT_CHARACTER, 0)
    else if ¬ within 1 0x80 0xbf then (REPLACEMENT_CHARACTER, 1)
    else (Char.ofNat (byte.toNat % 16 * 4096 + low6 0 * 64 + low6 1), 2)
  else if 0xf0 ≤ byte ∧ byte ≤ 0xf4 then
    if ¬ within 0 (if byte = 0xf0 then 0x90 else 0x80) (if byte = 0xf4 then 0x8f else 0xbf) then
      (REPLACEMENT_CHARACTER, 0)
    else if ¬ within 1 0x80 0xbf then (REPLACEMENT_CHARACTER, 1)
    else if ¬ within 2 0x80 0xbf then (REPLACEMENT_CHARACTER, 2)
    else (Char.ofNat (byte.toNat % 8 * 262144 + low6 0 * 4096 + low6 1 * 64 + low6 2), 3)
  else (REPLACEMENT_CHARACTER, 0)

def lossyFrom : ℕ → Str → List Char
  | _, [] => []
  | skip + 1, _ :: rest => lossyFrom skip rest
  | 0, byte :: rest => (leadChar byte rest).1 :: lossyFrom (leadChar byte rest).2 rest

def fromUtf8Lossy (bytes : Str) : List Char := lossyFrom 0 bytes

def asBytes (text : List Char) : Str := text.flatMap String.utf8EncodeChar

def isWhitespace (c : Char) : Bool :=
  (0x09 ≤ c.toNat && c.toNat ≤ 0x0d) || (0x2000 ≤ c.toNat && c.toNat ≤ 0x200a) ||
    [0x20, 0x85, 0xa0, 0x1680, 0x2028, 0x2029, 0x202f, 0x205f, 0x3000].contains c.toNat

def trimMatches (p : Char → Bool) (text : List Char) : List Char :=
  (text.dropWhile p).rdropWhile p

def splitOnce (separator : Char) : List Char → Option (List Char × List Char)
  | [] => none
  | c :: rest =>
    if c = separator then some ([], rest)
    else (splitOnce separator rest).map fun parts => (c :: parts.1, parts.2)

def hexValue (byte : UInt8) : Option UInt8 :=
  if 0x30 ≤ byte ∧ byte ≤ 0x39 then some (byte - 0x30)
  else if 0x61 ≤ byte ∧ byte ≤ 0x66 then some (byte - 0x61 + 10)
  else if 0x41 ≤ byte ∧ byte ≤ 0x46 then some (byte - 0x41 + 10)
  else none

def hexPair (high low : UInt8) : Option UInt8 := do
  let high ← hexValue high
  let low ← hexValue low
  some (high * 16 + low)

def percentBytes : Str → Str
  | [] => []
  | byte :: high :: low :: rest =>
    match if byte = 0x25 then hexPair high low else none with
    | some decoded => decoded :: percentBytes rest
    | none => byte :: percentBytes (high :: low :: rest)
  | byte :: rest => byte :: percentBytes rest

def percentDecode (text : List Char) : List Char := fromUtf8Lossy (percentBytes (asBytes text))

def osc633Bytes : Str → Str
  | [] => []
  | [byte] => [byte]
  | byte :: next :: rest =>
    if byte = 0x5c ∧ next = 0x5c then 0x5c :: osc633Bytes rest
    else
      match rest with
      | high :: low :: rest' =>
        match if byte = 0x5c ∧ next = 0x78 then hexPair high low else none with
        | some decoded => decoded :: osc633Bytes rest'
        | none => byte :: osc633Bytes (next :: high :: low :: rest')
      | rest => byte :: osc633Bytes (next :: rest)
  termination_by bytes => bytes.length

def unescapeOsc633Value (text : List Char) : List Char := fromUtf8Lossy (osc633Bytes (asBytes text))

def nonEmptyString (text : List Char) : Option String :=
  let text := trimMatches isWhitespace text
  if text = [] then none else some (String.ofList text)

def stripWrappingQuotes (text : List Char) : List Char :=
  trimMatches (· == '"') (trimMatches isWhitespace text)

def normalizeFileUrlPath (windows : Bool) (path : List Char) : Option String :=
  if path = [] then none
  else if windows ∧ (asBytes path)[0]? = some 0x2f ∧ (asBytes path)[2]? = some 0x3a then
    some (String.ofList (path.tail.map fun c => if c = '/' then Char.ofNat 0x5c else c))
  else nonEmptyString path

def parseOsc7Cwd (windows : Bool) (payload : List Char) : Option String :=
  let payload := trimMatches isWhitespace payload
  if "file://".toList.isPrefixOf payload then
    let rest := payload.drop "file://".length
    if rest.contains '/' then
      normalizeFileUrlPath windows (percentDecode (rest.dropWhile (· != '/')))
    else none
  else nonEmptyString payload

def parseOsc633Metadata (payload : List Char) : Option TerminalMetadata := do
  let (kind, rest) ← splitOnce ';' payload
  guard (kind = ['P'])
  let (name, value) ← splitOnce '=' rest
  guard (name = "Cwd".toList)
  (nonEmptyString (unescapeOsc633Value value)).map .cwd

def parseOscMetadata (windows : Bool) (text : List Char) : Option TerminalMetadata := do
  let (kind, payload) ← splitOnce ';' text
  if kind = ['0'] ∨ kind = ['2'] then (nonEmptyString payload).map .title
  else if kind = ['7'] then (parseOsc7Cwd windows payload).map .cwd
  else if kind = ['6', '3', '3'] then parseOsc633Metadata payload
  else if kind = ['9'] then do
    let (subkind, cwd) ← splitOnce ';' payload
    guard (subkind = ['9'])
    (nonEmptyString (stripWrappingQuotes cwd)).map .cwd
  else none

/-- What `finish_osc` reads of a payload. -/
def finishOsc (windows : Bool) (buffer : Str) : Option TerminalMetadata :=
  parseOscMetadata windows (fromUtf8Lossy buffer)
def skipToOsc : Str → Option Str
  | [] => none
  | byte :: rest =>
    if byte = 0x1b ∧ rest.head? = some 0x5d then some rest.tail else skipToOsc rest

def splitTerminator : Str → Option (Str × Str)
  | [] => none
  | byte :: rest =>
    if byte = 0x07 then some ([], rest)
    else if byte = 0x1b ∧ rest.head? = some 0x5c then some ([], rest.tail)
    else (splitTerminator rest).map fun parts => (byte :: parts.1, parts.2)

theorem skipToOsc_length (bytes text : Str) (h : skipToOsc bytes = some text) :
    text.length < bytes.length := by
  induction bytes with
  | nil => cases h
  | cons byte rest ih =>
    simp only [skipToOsc] at h
    by_cases hosc : byte = 0x1b ∧ rest.head? = some 0x5d
    · rw [if_pos hosc] at h
      cases h
      simp only [List.length_tail, List.length_cons]
      omega
    · rw [if_neg hosc] at h
      have := ih h
      simp only [List.length_cons]
      omega

theorem splitTerminator_length (text payload after : Str)
    (h : splitTerminator text = some (payload, after)) :
    payload.length + after.length < text.length := by
  induction text generalizing payload with
  | nil => cases h
  | cons byte rest ih =>
    simp only [splitTerminator] at h
    by_cases hbel : byte = 0x07
    · rw [if_pos hbel] at h
      cases h
      simp
    · rw [if_neg hbel] at h
      by_cases hst : byte = 0x1b ∧ rest.head? = some 0x5c
      · rw [if_pos hst] at h
        cases h
        simp only [List.length_nil, List.length_tail, List.length_cons]
        omega
      · rw [if_neg hst] at h
        obtain ⟨parts, hparts, heq⟩ := Option.map_eq_some_iff.1 h
        cases heq
        have := ih parts.1 hparts
        simp only [List.length_cons]
        omega

/-- The payloads of a stream's commands. After a command without terminator within the limit, one
looks on behind the byte that was too much. -/
def oscPayloads (bytes : Str) : List Str :=
  match _hosc : skipToOsc bytes with
  | none => []
  | some text =>
    match hend : splitTerminator text with
    | some (payload, after) =>
      if payload.length ≤ MAX_OSC_METADATA_BYTES then payload :: oscPayloads after
      else oscPayloads (text.drop (MAX_OSC_METADATA_BYTES + 1))
    | none => oscPayloads (text.drop (MAX_OSC_METADATA_BYTES + 1))
  termination_by bytes.length
  decreasing_by
    all_goals have hlt := skipToOsc_length _ _ _hosc
    · have := splitTerminator_length _ _ _ hend
      omega
    · simp only [List.length_drop]
      omega
    · simp only [List.length_drop]
      omega

/-- The payloads of a stream that goes on inside a command with `text`. -/
def afterOsc (text : Str) : List Str :=
  match splitTerminator text with
  | some (payload, after) =>
    if payload.length ≤ MAX_OSC_METADATA_BYTES then payload :: oscPayloads after
    else oscPayloads (text.drop (MAX_OSC_METADATA_BYTES + 1))
  | none => oscPayloads (text.drop (MAX_OSC_METADATA_BYTES + 1))

theorem oscPayloads_eq (bytes : Str) :
    oscPayloads bytes = ((skipToOsc bytes).map afterOsc).getD [] := by
  rw [oscPayloads]
  split
  next hosc => simp [hosc]
  next text hosc =>
    simp only [hosc, Option.map_some, Option.getD_some, afterOsc]
    split
    next payload after hend => simp [hend]
    next hend => simp [hend]

@[simp] theorem oscPayloads_nil : oscPayloads [] = [] := by
  simp [oscPayloads_eq, skipToOsc]

theorem oscPayloads_osc (rest : Str) : oscPayloads (0x1b :: 0x5d :: rest) = afterOsc rest := by
  simp [oscPayloads_eq, skipToOsc]

theorem oscPayloads_skip (byte : UInt8) (rest : Str)
    (h : ¬ (byte = 0x1b ∧ rest.head? = some 0x5d)) :
    oscPayloads (byte :: rest) = oscPayloads rest := by
  simp only [oscPayloads_eq (byte :: rest), skipToOsc, if_neg h]
  rw [← oscPayloads_eq]

/-- No terminator stands in `text`, nor between `text` and what comes next. -/
theorem splitTerminator_append (text rest : Str) (h : splitTerminator text = none)
    (hlast : text.getLast? = some 0x1b → rest.head? ≠ some 0x5c) :
    splitTerminator (text ++ rest) =
      (splitTerminator rest).map fun parts => (text ++ parts.1, parts.2) := by
  induction text with
  | nil => simp
  | cons byte text ih =>
    simp only [splitTerminator] at h
    have hbel : byte ≠ 0x07 := fun hbyte => by simp [hbyte] at h
    have hst : ¬ (byte = 0x1b ∧ text.head? = some 0x5c) := fun hbyte => by
      simp [hbyte] at h
    rw [if_neg hbel, if_neg hst] at h
    have hrest := ih (Option.map_eq_none_iff.1 h) fun hlast' => hlast (by
      rw [List.getLast?_cons, hlast']
      rfl)
    have hst' : ¬ (byte = 0x1b ∧ (text ++ rest).head? = some 0x5c) := by
      rintro ⟨hbyte, hhead⟩
      cases text with
      | nil => exact hlast (by simp [hbyte]) (by simpa using hhead)
      | cons next text => exact hst ⟨hbyte, by simpa using hhead⟩
    simp only [List.cons_append, splitTerminator, if_neg hbel, if_neg hst', hrest, Option.map_map]
    rfl

theorem splitTerminator_snoc (text : Str) (byte : UInt8) (h : splitTerminator text = none)
    (hbel : byte ≠ 0x07) (hst : ¬ (text.getLast? = some 0x1b ∧ byte = 0x5c)) :
    splitTerminator (text ++ [byte]) = none := by
  rw [splitTerminator_append text [byte] h fun hlast hhead => hst ⟨hlast, by simpa using hhead⟩]
  simp [splitTerminator, hbel]

theorem splitTerminator_escape (text : Str) (h : splitTerminator text = none) :
    splitTerminator (text ++ [0x1b]) = none :=
  splitTerminator_snoc text 0x1b h (by decide) fun hst => absurd hst.2 (by decide)

theorem splitTerminator_some_append (text rest payload after : Str)
    (h : splitTerminator text = some (payload, after)) :
    splitTerminator (text ++ rest) = some (payload, after ++ rest) := by
  induction text generalizing payload with
  | nil => cases h
  | cons byte text ih =>
    simp only [splitTerminator] at h
    by_cases hbel : byte = 0x07
    · rw [if_pos hbel] at h
      cases h
      simp [splitTerminator, hbel]
    rw [if_neg hbel] at h
    cases text with
    | nil => simp [splitTerminator] at h
    | cons next text =>
      by_cases hst : byte = 0x1b ∧ (next :: text).head? = some 0x5c
      · rw [if_pos hst] at h
        cases h
        have hnext : next = 0x5c := by simpa using hst.2
        simp [splitTerminator, hst.1, hnext]
      · rw [if_neg hst] at h
        obtain ⟨parts, hparts, heq⟩ := Option.map_eq_some_iff.1 h
        cases heq
        have hrest := ih parts.1 hparts
        have hst' : ¬ (byte = 0x1b ∧ (next :: text ++ rest).head? = some 0x5c) := hst
        rw [List.cons_append, splitTerminator, if_neg hbel, if_neg hst', hrest]
        rfl

theorem splitTerminator_bel (text rest : Str) (h : splitTerminator text = none) :
    splitTerminator (text ++ 0x07 :: rest) = some (text, rest) := by
  rw [splitTerminator_append text _ h fun _ => by simp]
  simp [splitTerminator]

theorem splitTerminator_st (text rest : Str) (h : splitTerminator text = none) :
    splitTerminator (text ++ 0x1b :: 0x5c :: rest) = some (text, rest) := by
  rw [splitTerminator_append text _ h fun _ => by simp]
  simp [splitTerminator]

/-- The payloads that a stream is still to give, which goes on with `rest` where the parser is. -/
def owed : TerminalMetadataParser → Str → List Str
  | .normal, rest => oscPayloads rest
  | .escape, rest => oscPayloads (0x1b :: rest)
  | .osc buffer false, rest => afterOsc (buffer ++ rest)
  | .osc buffer true, rest => afterOsc (buffer ++ 0x1b :: rest)

/-- No step of a parser is regular at which a payload that ends with an escape meets its terminator,
or an escape and another byte run over the limit. -/
def Regular (byte : UInt8) : TerminalMetadataParser → Prop
  | .osc buffer true =>
    byte = 0x5c ∨ byte ≠ 0x07 ∧ buffer.length + 2 ≤ MAX_OSC_METADATA_BYTES
  | .osc buffer false => ¬ (buffer.getLast? = some 0x1b ∧ byte = 0x5c)
  | _ => True

instance (byte : UInt8) : (parser : TerminalMetadataParser) → Decidable (Regular byte parser)
  | .normal => inferInstanceAs (Decidable True)
  | .escape => inferInstanceAs (Decidable True)
  | .osc buffer false => inferInstanceAs (Decidable ¬ (buffer.getLast? = some 0x1b ∧ byte = 0x5c))
  | .osc buffer true => inferInstanceAs
    (Decidable (byte = 0x5c ∨ byte ≠ 0x07 ∧ buffer.length + 2 ≤ MAX_OSC_METADATA_BYTES))

def Fits : TerminalMetadataParser → Prop
  | .osc buffer _ =>
    buffer.length ≤ MAX_OSC_METADATA_BYTES ∧ splitTerminator buffer = none
  | _ => True

variable (parse : Str → Option TerminalMetadata)

structure Agrees (parser : TerminalMetadataParser) (byte : UInt8) : Prop where
  fits : Fits (parser.pushByte parse byte).1
  reports : ∀ rest, (owed parser (byte :: rest)).filterMap parse =
    (parser.pushByte parse byte).2.toList ++
      (owed (parser.pushByte parse byte).1 rest).filterMap parse

theorem Agrees.of_push {parser next : TerminalMetadataParser} {byte : UInt8}
    {event : Option TerminalMetadata} (hpush : parser.pushByte parse byte = (next, event))
    (hfits : Fits next)
    (hreports : ∀ rest, (owed parser (byte :: rest)).filterMap parse =
      event.toList ++ (owed next rest).filterMap parse) : Agrees parse parser byte := by
  constructor
  · rw [hpush]
    exact hfits
  · rw [hpush]
    exact hreports

theorem agrees_normal (byte : UInt8) : Agrees parse .normal byte := by
  by_cases hesc : byte = 0x1b
  · subst hesc
    exact ⟨trivial, fun rest => rfl⟩
  · refine ⟨by simp [TerminalMetadataParser.pushByte, hesc, Fits], fun rest => ?_⟩
    have hskip := oscPayloads_skip byte rest fun h => hesc h.1
    simp [TerminalMetadataParser.pushByte, hesc, owed, hskip]

theorem agrees_escape (byte : UInt8) : Agrees parse .escape byte := by
  by_cases hosc : byte = 0x5d
  · subst hosc
    exact ⟨⟨Nat.zero_le _, rfl⟩, fun rest => by
      simp [TerminalMetadataParser.pushByte, owed, oscPayloads_osc]⟩
  · have hskip : ∀ rest, oscPayloads (0x1b :: byte :: rest) = oscPayloads (byte :: rest) :=
      fun rest => oscPayloads_skip 0x1b (byte :: rest) fun h => hosc (by simpa using h.2)
    by_cases hesc : byte = 0x1b
    · subst hesc
      exact ⟨trivial, fun rest => by simp [TerminalMetadataParser.pushByte, owed, hskip]⟩
    · refine ⟨by simp [TerminalMetadataParser.pushByte, hosc, hesc, Fits], fun rest => ?_⟩
      have hrest := oscPayloads_skip byte rest fun h => hesc h.1
      simp [TerminalMetadataParser.pushByte, hosc, hesc, owed, hskip, hrest]

theorem afterOsc_of_some (text payload after : Str)
    (hend : splitTerminator text = some (payload, after)) :
    afterOsc text = if payload.length ≤ MAX_OSC_METADATA_BYTES then payload :: oscPayloads after
      else oscPayloads (text.drop (MAX_OSC_METADATA_BYTES + 1)) := by
  simp only [afterOsc, hend]

theorem afterOsc_long (buffer rest : Str) (byte : UInt8)
    (hlength : buffer.length = MAX_OSC_METADATA_BYTES)
    (hnone : splitTerminator (buffer ++ [byte]) = none) (hesc : byte ≠ 0x1b) :
    afterOsc (buffer ++ byte :: rest) = oscPayloads rest := by
  have hsplit := splitTerminator_append (buffer ++ [byte]) rest hnone fun hlast =>
    absurd (by simpa using hlast) hesc
  have hdrop : (buffer ++ byte :: rest).drop (MAX_OSC_METADATA_BYTES + 1) = rest := by
    rw [← hlength, ← List.singleton_append, ← List.append_assoc]
    exact List.drop_left' (by simp)
  rw [List.append_assoc, List.singleton_append] at hsplit
  cases hrest : splitTerminator rest with
  | none =>
    simp only [hrest, Option.map_none] at hsplit
    simp only [afterOsc, hsplit, hdrop]
  | some parts =>
    simp only [hrest, Option.map_some] at hsplit
    rw [afterOsc_of_some _ _ _ hsplit, if_neg, hdrop]
    simp only [List.length_append, List.length_singleton]
    omega

theorem reports_payload (buffer text rest : Str) (hlength : buffer.length ≤ MAX_OSC_METADATA_BYTES)
    (hend : splitTerminator text = some (buffer, rest)) :
    (afterOsc text).filterMap parse =
      (parse buffer).toList ++ (owed .normal rest).filterMap parse := by
  rw [afterOsc_of_some _ _ _ hend, if_pos hlength, List.filterMap_cons]
  cases parse buffer with
  | none | some event => rfl

theorem agrees_osc (buffer : Str) (byte : UInt8) (hfits : Fits (.osc buffer false))
    (hregular : Regular byte (.osc buffer false)) : Agrees parse (.osc buffer false) byte := by
  obtain ⟨hlength, hnone⟩ := hfits
  by_cases hbel : byte = 0x07
  · subst hbel
    exact ⟨trivial, fun rest =>
      reports_payload parse buffer _ rest hlength (splitTerminator_bel buffer rest hnone)⟩
  by_cases hesc : byte = 0x1b
  · subst hesc
    exact ⟨⟨hlength, hnone⟩, fun rest => rfl⟩
  have hsnoc := splitTerminator_snoc buffer byte hnone hbel hregular
  by_cases hroom : buffer.length < MAX_OSC_METADATA_BYTES
  · have hpush : TerminalMetadataParser.pushByte parse byte (.osc buffer false) =
        (.osc (buffer ++ [byte]) false, none) := by
      simp [TerminalMetadataParser.pushByte, hbel, hesc, hroom]
    refine .of_push parse hpush ⟨?_, hsnoc⟩ fun rest => by simp [owed]
    simp only [List.length_append, List.length_singleton]
    omega
  · have hpush : TerminalMetadataParser.pushByte parse byte (.osc buffer false) =
        (.normal, none) := by
      simp [TerminalMetadataParser.pushByte, hbel, hesc, hroom]
    refine .of_push parse hpush trivial fun rest => ?_
    have hlong := afterOsc_long buffer rest byte (by omega) hsnoc hesc
    simp only [owed, hlong, Option.toList_none, List.nil_append]

theorem agrees_osc_escape (buffer : Str) (byte : UInt8) (hfits : Fits (.osc buffer true))
    (hregular : Regular byte (.osc buffer true)) : Agrees parse (.osc buffer true) byte := by
  obtain ⟨hlength, hnone⟩ := hfits
  by_cases hst : byte = 0x5c
  · subst hst
    exact ⟨trivial, fun rest =>
      reports_payload parse buffer _ rest hlength (splitTerminator_st buffer rest hnone)⟩
  obtain ⟨hbel, hroom⟩ := hregular.resolve_left hst
  have hpush : TerminalMetadataParser.pushByte parse byte (.osc buffer true) =
      (.osc (buffer ++ [0x1b] ++ [byte]) false, none) := by
    have hfirst : pushOscByte buffer 0x1b = buffer ++ [0x1b] := if_pos (by omega)
    have hsecond : pushOscByte (buffer ++ [0x1b]) byte = buffer ++ [0x1b] ++ [byte] :=
      if_pos (by simp; omega)
    simp [TerminalMetadataParser.pushByte, hst, hfirst, hsecond]
  have hesc := splitTerminator_escape buffer hnone
  refine .of_push parse hpush ⟨?_, ?_⟩ fun rest => by simp [owed]
  · simp only [List.length_append, List.length_singleton]
    omega
  · exact splitTerminator_snoc _ byte hesc hbel fun h => hst h.2

theorem agrees (parser : TerminalMetadataParser) (byte : UInt8) (hfits : Fits parser)
    (hregular : Regular byte parser) : Agrees parse parser byte := by
  cases parser with
  | normal => exact agrees_normal parse byte
  | escape => exact agrees_escape parse byte
  | osc buffer escape =>
    cases escape with
    | false => exact agrees_osc parse buffer byte hfits hregular
    | true => exact agrees_osc_escape parse buffer byte hfits hregular

def RegularFrom : TerminalMetadataParser → Str → Prop
  | _, [] => True
  | parser, byte :: rest => Regular byte parser ∧ RegularFrom (parser.pushByte parse byte).1 rest

theorem push_cons (parser : TerminalMetadataParser) (byte : UInt8) (rest : Str) :
    parser.push parse (byte :: rest) =
      (((parser.pushByte parse byte).1.push parse rest).1,
        (parser.pushByte parse byte).2.toList ++
          ((parser.pushByte parse byte).1.push parse rest).2) := rfl

theorem push_append (parser : TerminalMetadataParser) (bytes rest : Str) :
    parser.push parse (bytes ++ rest) =
      (((parser.push parse bytes).1.push parse rest).1,
        (parser.push parse bytes).2 ++ ((parser.push parse bytes).1.push parse rest).2) := by
  induction bytes generalizing parser with
  | nil => rfl
  | cons byte bytes ih =>
    rw [List.cons_append, push_cons, push_cons, ih, List.append_assoc]

def pushChunks : TerminalMetadataParser → List Str → TerminalMetadataParser × List TerminalMetadata
  | parser, [] => (parser, [])
  | parser, chunk :: chunks =>
    ((pushChunks (parser.push parse chunk).1 chunks).1,
      (parser.push parse chunk).2 ++ (pushChunks (parser.push parse chunk).1 chunks).2)

theorem pushChunks_eq (parser : TerminalMetadataParser) (chunks : List Str) :
    pushChunks parse parser chunks = parser.push parse chunks.flatten := by
  induction chunks generalizing parser with
  | nil => rfl
  | cons chunk chunks ih =>
    rw [List.flatten_cons, push_append, pushChunks, ih]

theorem push_agrees (parser : TerminalMetadataParser) (bytes rest : Str) (hfits : Fits parser)
    (hregular : RegularFrom parse parser bytes) :
    Fits (parser.push parse bytes).1 ∧ (owed parser (bytes ++ rest)).filterMap parse =
      (parser.push parse bytes).2 ++
        (owed (parser.push parse bytes).1 rest).filterMap parse := by
  induction bytes generalizing parser with
  | nil => exact ⟨hfits, rfl⟩
  | cons byte bytes ih =>
    have hstep := agrees parse parser byte hfits hregular.1
    obtain ⟨hnext, hreports⟩ := ih (parser.pushByte parse byte).1 hstep.fits hregular.2
    refine ⟨hnext, ?_⟩
    rw [List.cons_append, hstep.reports, hreports, push_cons, List.append_assoc]

theorem owed_nil (parser : TerminalMetadataParser) (hfits : Fits parser) : owed parser [] = [] := by
  cases parser with
  | normal => exact oscPayloads_nil
  | escape => simp [owed, oscPayloads_eq, skipToOsc]
  | osc buffer escape =>
    obtain ⟨hlength, hnone⟩ := hfits
    cases escape with
    | false =>
      have hdrop : buffer.drop (MAX_OSC_METADATA_BYTES + 1) = [] :=
        List.drop_eq_nil_of_le (by omega)
      simp [owed, afterOsc, hnone, hdrop]
    | true =>
      have hesc := splitTerminator_escape buffer hnone
      have hdrop : (buffer ++ [0x1b]).drop (MAX_OSC_METADATA_BYTES + 1) = [] :=
        List.drop_eq_nil_of_le (by simp; omega)
      simp [owed, afterOsc, hesc, hdrop]

theorem push_regular (bytes : Str) (hregular : RegularFrom parse .normal bytes) :
    (TerminalMetadataParser.push parse .normal bytes).2 =
      (oscPayloads bytes).filterMap parse := by
  obtain ⟨hfits, hreports⟩ := push_agrees parse .normal bytes [] trivial hregular
  rw [owed_nil _ hfits, List.append_nil, List.filterMap_nil, List.append_nil] at hreports
  exact hreports.symm

theorem owed_escape_bel (buffer : Str) (hnone : splitTerminator buffer = none)
    (hroom : buffer.length < MAX_OSC_METADATA_BYTES) :
    owed (.osc buffer true) [0x07] = [buffer ++ [0x1b]] ∧
      (TerminalMetadataParser.push parse (.osc buffer true) [0x07]).2 = [] := by
  have hesc := splitTerminator_escape buffer hnone
  have hend := splitTerminator_bel (buffer ++ [0x1b]) [] hesc
  rw [List.append_assoc, List.singleton_append] at hend
  constructor
  · rw [owed, afterOsc_of_some _ _ _ hend, if_pos (by simp; omega), oscPayloads_nil]
  · simp [TerminalMetadataParser.pushByte, TerminalMetadataParser.push]

section
variable (buffer : Str) (hlength : buffer.length ≤ MAX_OSC_METADATA_BYTES)
  (hnone : splitTerminator buffer = none)
include buffer hlength hnone

theorem owed_escape_st (hlast : buffer.getLast? = some 0x1b) :
    owed (.osc buffer false) [0x5c] = [buffer.dropLast] ∧
      (TerminalMetadataParser.push parse (.osc buffer false) [0x5c]).2 = [] := by
  have hbuffer : buffer.dropLast ++ [0x1b] = buffer :=
    List.dropLast_append_getLast? 0x1b hlast
  have hdrop : splitTerminator buffer.dropLast = none := by
    by_contra hsome
    obtain ⟨parts, hparts⟩ := Option.ne_none_iff_exists'.1 hsome
    have hmore := splitTerminator_some_append _ [0x1b] parts.1 parts.2 hparts
    rw [hbuffer, hnone] at hmore
    cases hmore
  have hend := splitTerminator_st buffer.dropLast [] hdrop
  have htext : buffer ++ [0x5c] = buffer.dropLast ++ [0x1b, 0x5c] := by
    conv_lhs => rw [← hbuffer]
    simp
  constructor
  · rw [owed, htext, afterOsc_of_some _ _ _ hend, if_pos (by simp; omega), oscPayloads_nil]
  · simp only [TerminalMetadataParser.push, TerminalMetadataParser.pushByte]
    by_cases hroom : buffer.length < MAX_OSC_METADATA_BYTES <;> simp [hroom]

theorem owed_overrun (byte : UInt8) (hst : byte ≠ 0x5c)
    (hbel : byte = 0x07 → buffer.length = MAX_OSC_METADATA_BYTES)
    (hover : MAX_OSC_METADATA_BYTES < buffer.length + 2) :
    owed (.osc buffer true) [byte, 0x07] = [] ∧
      ∃ truncated : Str, (TerminalMetadataParser.push parse (.osc buffer true) [byte, 0x07]).2 =
        (parse truncated).toList := by
  have hesc := splitTerminator_escape buffer hnone
  have hend : ∃ payload after, splitTerminator (buffer ++ 0x1b :: [byte, 0x07]) =
      some (payload, after) ∧ MAX_OSC_METADATA_BYTES < payload.length := by
    by_cases hbyte : byte = 0x07
    · have hfull := hbel hbyte
      subst hbyte
      have hend := splitTerminator_bel (buffer ++ [0x1b]) [0x07] hesc
      rw [List.append_assoc, List.singleton_append] at hend
      exact ⟨_, _, hend, by simp [hfull]⟩
    · have hsnoc := splitTerminator_snoc _ byte hesc hbyte fun h => hst h.2
      have hend := splitTerminator_bel (buffer ++ [0x1b] ++ [byte]) [] hsnoc
      rw [List.append_assoc, List.append_assoc] at hend
      exact ⟨_, _, hend, by simp; omega⟩
  have hrest : oscPayloads ((buffer ++ 0x1b :: [byte, 0x07]).drop (MAX_OSC_METADATA_BYTES + 1)) =
      [] := by
    by_cases hfull : buffer.length = MAX_OSC_METADATA_BYTES
    · rw [← hfull, List.drop_length_add_append]
      simp [oscPayloads_eq, skipToOsc]
    · rw [show MAX_OSC_METADATA_BYTES + 1 = buffer.length + 2 by omega,
        List.drop_length_add_append]
      simp [oscPayloads_eq, skipToOsc]
  obtain ⟨payload, after, hend, hlong⟩ := hend
  constructor
  · rw [owed, afterOsc_of_some _ _ _ hend, if_neg (by omega), hrest]
  · refine ⟨pushOscByte (pushOscByte buffer 0x1b) byte, ?_⟩
    simp [TerminalMetadataParser.pushByte, TerminalMetadataParser.push, hst]

end

theorem irregular_shows (parse_some : ∀ payload, (parse payload).isSome)
    (parser : TerminalMetadataParser) (byte : UInt8) (hfits : Fits parser)
    (hirregular : ¬ Regular byte parser) :
    ∃ more, (parser.push parse (byte :: more)).2 ≠
      (owed parser (byte :: more)).filterMap parse := by
  have hsome : ∀ payload, [payload].filterMap parse ≠ [] := by
    intro payload h
    obtain ⟨event, hevent⟩ := Option.isSome_iff_exists.1 (parse_some payload)
    simp [hevent] at h
  match parser, hfits with
  | .normal, _ => exact absurd trivial hirregular
  | .escape, _ => exact absurd trivial hirregular
  | .osc buffer false, ⟨hlength, hnone⟩ =>
    obtain ⟨hlast, rfl⟩ := not_not.1 hirregular
    obtain ⟨howed, hpush⟩ := owed_escape_st parse buffer hlength hnone hlast
    refine ⟨[], fun heq => hsome buffer.dropLast ?_⟩
    rw [← howed, ← heq, hpush]
  | .osc buffer true, ⟨hlength, hnone⟩ =>
    obtain ⟨hst, hother⟩ := not_or.1 hirregular
    by_cases hbel : byte = 0x07 ∧ buffer.length < MAX_OSC_METADATA_BYTES
    · obtain ⟨rfl, hroom⟩ := hbel
      obtain ⟨howed, hpush⟩ := owed_escape_bel parse buffer hnone hroom
      refine ⟨[], fun heq => hsome (buffer ++ [0x1b]) ?_⟩
      rw [← howed, ← heq, hpush]
    · have hfull : byte = 0x07 → buffer.length = MAX_OSC_METADATA_BYTES := fun hbyte =>
        hlength.antisymm (by_contra fun h => hbel ⟨hbyte, by omega⟩)
      have hover : MAX_OSC_METADATA_BYTES < buffer.length + 2 := by
        by_contra h
        exact hother ⟨fun hbyte => by have := hfull hbyte; omega, by omega⟩
      obtain ⟨howed, truncated, hpush⟩ :=
        owed_overrun parse buffer hlength hnone byte hst hfull hover
      refine ⟨[0x07], fun heq => ?_⟩
      have hreported := parse_some truncated
      rw [howed, hpush, List.filterMap_nil, Option.toList_eq_nil_iff] at heq
      rw [heq] at hreported
      cases hreported

/-- However a stream is cut into chunks, the parser reports just the commands in it, if no step of
it is irregular; and an irregular step is seen at once, or after one more terminator. -/
theorem metadata_reported :
    (∀ chunks : List Str, RegularFrom parse .normal chunks.flatten →
      (pushChunks parse .normal chunks).2 = (oscPayloads chunks.flatten).filterMap parse) ∧
    ((∀ payload, (parse payload).isSome) → ∀ (bytes : Str) (byte : UInt8),
      RegularFrom parse .normal bytes →
      ¬ Regular byte (TerminalMetadataParser.push parse .normal bytes).1 →
      ∃ more, (TerminalMetadataParser.push parse .normal (bytes ++ byte :: more)).2 ≠
        (oscPayloads (bytes ++ byte :: more)).filterMap parse) := by
  constructor
  · intro chunks hregular
    rw [pushChunks_eq]
    exact push_regular parse chunks.flatten hregular
  · intro parse_some bytes byte hregular hirregular
    obtain ⟨hfits, -⟩ := push_agrees parse .normal bytes [] trivial hregular
    obtain ⟨more, hmore⟩ := irregular_shows parse parse_some _ byte hfits hirregular
    refine ⟨more, fun heq => hmore ?_⟩
    obtain ⟨-, hreports⟩ := push_agrees parse .normal bytes (byte :: more) trivial hregular
    rw [push_append] at heq
    exact List.append_cancel_left (heq.trans hreports)

/-- A title whose introducer and terminator are cut. -/
def cutTitle : List Str := [[0x61, 0x1b], [0x5d, 0x32, 0x3b, 0x61, 0x1b], [0x5c, 0x62]]

theorem metadata_reported_cutTitle :
    (pushChunks (finishOsc false) .normal cutTitle).2 =
      (oscPayloads cutTitle.flatten).filterMap (finishOsc false) ∧
    (pushChunks (finishOsc false) .normal cutTitle).2 = [.title "a"] := by
  refine ⟨(metadata_reported _).1 cutTitle ?_, rfl⟩
  exact ⟨trivial, trivial, trivial, by decide, by decide, by decide, by decide, by decide, trivial,
    trivial⟩

theorem escape_before_bel_not_reported :
    ¬ ∀ chunks : List Str, (pushChunks (finishOsc false) .normal chunks).2 =
      (oscPayloads chunks.flatten).filterMap (finishOsc false) := by
  intro h
  have hchunks := h [[0x1b, 0x5d, 0x32, 0x3b, 0x61, 0x1b, 0x07]]
  have hpush : (pushChunks (finishOsc false) .normal
      [[0x1b, 0x5d, 0x32, 0x3b, 0x61, 0x1b, 0x07]]).2 = [] := by decide
  have hend : splitTerminator [0x32, 0x3b, 0x61, 0x1b, 0x07] =
      some ([0x32, 0x3b, 0x61, 0x1b], []) := by decide
  have hparse : (finishOsc false [0x32, 0x3b, 0x61, 0x1b]).isSome := by decide
  rw [hpush, List.flatten_singleton, oscPayloads_osc, afterOsc_of_some _ _ _ hend,
    if_pos (by decide), oscPayloads_nil] at hchunks
  obtain ⟨event, hevent⟩ := Option.isSome_iff_exists.1 hparse
  simp [hevent] at hchunks

end Rieul.Terminal.Metadata
