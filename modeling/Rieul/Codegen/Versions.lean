import Rieul.Codegen.RoundTrip

/-!
# Versions of a schema

A value is read with another version of its schema unless it uses, at a place that both versions
read, a variant that the reader lacks: such a value is rejected.
-/

namespace Rieul.Codegen
open Fallible Record Bytes Rieul.Cbor
open Rieul.Web (CborValue)

section
variable {ε ε' α : Type} {decoded : Except ε α} {adapted : Except ε' α}
  (hboth : Both (· = ·) decoded adapted)
include hboth

theorem read_adapted {uses : Prop} {typed : α → Prop}
    (hreadable : uses ∨ ∃ m, adapted = .ok m ∧ typed m) (huses : ¬ uses) :
    ∃ m, adapted = .ok m ∧ typed m ∧ decoded = .ok m := by
  obtain ⟨m, hm, htyped⟩ := hreadable.resolve_left huses
  exact ⟨m, hm, htyped, eq_of_both (hm ▸ hboth)⟩

theorem read_refused (hrefused : ∀ m, adapted ≠ .ok m) : ∃ e, decoded = .error e := by
  cases hdecoded : decoded with
  | error e => exact ⟨e, rfl⟩
  | ok m =>
    obtain ⟨_, hadapted, _⟩ := hboth.left m hdecoded
    exact absurd hadapted (hrefused _)

end

section
variable {source target : Schema}

/-- A record of the target is filled unless a field that both versions have cannot be. -/
theorem fill_readable {ε α : Type} {key : FieldDeclaration → String} {absent : α}
    {value : FieldDeclaration → Except ε α} {uses : FieldDeclaration → Prop}
    {typed : FieldDeclaration → α → Prop} (fields wanted : List FieldDeclaration)
    (hkeys : (wanted.map key).Nodup)
    (hone : ∀ field ∈ wanted, field ∈ fields ∧ uses field ∨
      ∃ m, value field = .ok m ∧ typed field m) :
    (∃ field ∈ fields, field ∈ wanted ∧ uses field) ∨
      ∃ kept, fill key absent value wanted = .ok kept ∧
        (∀ field ∈ wanted, typed field (kept (key field))) ∧
        ∀ name, name ∉ wanted.map key → kept name = absent := by
  by_cases huses : ∃ field ∈ fields, field ∈ wanted ∧ uses field
  · exact .inl huses
  · have hall : ∀ field ∈ wanted, ∃ m, value field = .ok m ∧ typed field m :=
      fun field hwanted => (hone field hwanted).resolve_left fun h =>
        huses ⟨field, h.1, hwanted, h.2⟩
    obtain ⟨kept, hkept⟩ := (fill_isOk key absent value wanted).mpr
      fun field hwanted => (hall field hwanted).imp fun _ hm => hm.1
    obtain ⟨hvalues, helsewhere⟩ := (fill_eq_ok key absent value wanted kept hkeys).mp hkept
    refine .inr ⟨kept, hkept, fun field hwanted => ?_, helsewhere⟩
    obtain ⟨m, hm, htyped⟩ := hall field hwanted
    cases (hvalues field hwanted).symm.trans hm
    exact htyped

namespace Rust

inductive UsesUnknown (source target : Schema) : Place → Model → Prop where
  | item (item : TypeRef) (m : Model) (ms : List Model) (mem : m ∈ ms)
      (uses : UsesUnknown source target (.type item) m) :
      UsesUnknown source target (.type (.array item)) (.vec ms)
  | enum (path name typePath name' typePath' : String) (variants wanted : List EnumVariantDeclaration)
      (variant : EnumVariantDeclaration)
      (named : source.named path = some (.enum name typePath variants))
      (named' : target.named path = some (.enum name' typePath' wanted))
      (mem : variant ∈ variants) (missing : variant.name ∉ wanted.map (·.name)) :
      UsesUnknown source target (.type (.named path)) (.enum variant.name)
  | struct (path name typePath name' typePath' : String) (fields wanted : List FieldDeclaration)
      (field : FieldDeclaration) (self : String → Model)
      (named : source.named path = some (.struct name typePath fields))
      (named' : target.named path = some (.struct name' typePath' wanted))
      (mem : field ∈ fields) (mem' : field ∈ wanted)
      (uses : UsesUnknown source target (.field field) (self (fieldName field.name))) :
      UsesUnknown source target (.type (.named path)) (.struct self)
  | variant (path name typePath name' typePath' : String)
      (variants wanted : List UnionVariantDeclaration) (variant : UnionVariantDeclaration)
      (self : String → Model)
      (named : source.named path = some (.union name typePath variants))
      (named' : target.named path = some (.union name' typePath' wanted))
      (mem : variant ∈ variants) (missing : variant.name ∉ wanted.map (·.name)) :
      UsesUnknown source target (.type (.named path)) (.union variant.name self)
  | union (path name typePath name' typePath' : String)
      (variants wanted : List UnionVariantDeclaration) (before after : UnionVariantDeclaration)
      (field : FieldDeclaration) (self : String → Model)
      (named : source.named path = some (.union name typePath variants))
      (named' : target.named path = some (.union name' typePath' wanted))
      (before_mem : before ∈ variants) (after_mem : after ∈ wanted)
      (same : after.name = before.name) (mem : field ∈ before.fields) (mem' : field ∈ after.fields)
      (uses : UsesUnknown source target (.field field) (self (fieldName field.name))) :
      UsesUnknown source target (.type (.named path)) (.union before.name self)
  | required (field : FieldDeclaration) (m : Model) (hfield : field.optional = false)
      (uses : UsesUnknown source target (.type field.type) m) :
      UsesUnknown source target (.field field) m
  | present (field : FieldDeclaration) (m : Model) (hfield : field.optional = true)
      (uses : UsesUnknown source target (.type field.type) m) :
      UsesUnknown source target (.field field) (.some m)

theorem adaptItems_mem (item : TypeRef) (ms values : List Model)
    (h : adaptItems source target ms item = .ok values) :
    ∀ m ∈ ms, ∃ m', adapt source target m item = .ok m' := by
  induction ms generalizing values with
  | nil => exact fun m hm => absurd hm List.not_mem_nil
  | cons m ms ih =>
    obtain ⟨first, hfirst, h⟩ := (bind_eq_ok _ _ _).mp h
    obtain ⟨rest, hrest, _⟩ := (bind_eq_ok _ _ _).mp h
    rw [List.forall_mem_cons]
    exact ⟨⟨first, hfirst⟩, ih rest hrest⟩

def Refused (source target : Schema) : Place → Model → Prop
  | .type type, m => ∀ m', adapt source target m type ≠ .ok m'
  | .field field, m => ∀ m', (if field.optional then adaptSome source target m field.type
      else adapt source target m field.type) ≠ .ok m'
  | .fields _, _ => True

theorem adaptFields_refused (fields wanted : List FieldDeclaration) (field : FieldDeclaration)
    (self kept : String → Model) (hmem : field ∈ fields) (hmem' : field ∈ wanted)
    (h : Refused source target (.field field) (self (fieldName field.name))) :
    adaptFields source target fields wanted self ≠ .ok kept := by
  intro hkept
  obtain ⟨m', hm'⟩ := (fill_isOk _ _ _ wanted).mp ⟨kept, hkept⟩ field hmem'
  rw [adaptField, if_pos hmem] at hm'
  exact h m' hm'

theorem unknown_refused (hsource : source.Accepted) (htarget : target.Accepted)
    (place : Place) (m : Model) (h : UsesUnknown source target place m) :
    Refused source target place m := by
  induction h with
  | item item m ms mem uses ih =>
    intro m' h
    obtain ⟨values, hvalues, _⟩ := (bind_eq_ok _ _ _).mp h
    obtain ⟨first, hfirst⟩ := adaptItems_mem item ms values hvalues m mem
    exact ih first hfirst
  | enum path name typePath name' typePath' variants wanted variant named named' mem missing =>
    intro m' h
    rw [adapt_enum named'] at h
    obtain ⟨after, hafter, _⟩ := (bind_eq_ok _ _ _).mp h
    have hfound := (require_eq_ok _ _ _).mp hafter
    have hname : after.name = variant.name := by simpa using List.find?_some hfound
    exact missing (hname ▸ List.mem_map_of_mem (List.mem_of_find?_eq_some hfound))
  | struct path name typePath name' typePath' fields wanted field self named named' mem mem' uses
      ih =>
    intro m' h
    rw [adapt_struct named named'] at h
    obtain ⟨kept, hkept, _⟩ := (bind_eq_ok _ _ _).mp h
    exact adaptFields_refused fields wanted field self kept mem mem' ih hkept
  | variant path name typePath name' typePath' variants wanted variant self named named' mem
      missing =>
    intro m' h
    rw [adapt_union named named'] at h
    obtain ⟨_, _, h⟩ := (bind_eq_ok _ _ _).mp h
    obtain ⟨after, hafter, _⟩ := (bind_eq_ok _ _ _).mp h
    have hfound := (require_eq_ok _ _ _).mp hafter
    have hname : after.name = variant.name := by simpa using List.find?_some hfound
    exact missing (hname ▸ List.mem_map_of_mem (List.mem_of_find?_eq_some hfound))
  | union path name typePath name' typePath' variants wanted before after field self named named'
      before_mem after_mem same mem mem' uses ih =>
    have hnames := (hsource.distinct _ (Schema.named_mem named)).2.1
    have hnames' := (htarget.distinct _ (Schema.named_mem named')).2.1
    intro m' h
    rw [adapt_union named named', find_self (·.name) variants hnames before before_mem, ← same,
      find_self (·.name) wanted hnames' after after_mem, require_some, require_some, ok_bind,
      ok_bind] at h
    obtain ⟨kept, hkept, _⟩ := (bind_eq_ok _ _ _).mp h
    exact adaptFields_refused before.fields after.fields field self kept mem mem' ih hkept
  | required field m hfield uses ih =>
    intro m' h
    rw [if_neg (Bool.eq_false_iff.mp hfield)] at h
    exact ih m' h
  | present field m hfield uses ih =>
    intro m' h
    rw [if_pos hfield, adaptSome] at h
    obtain ⟨inner, hinner, _⟩ := (map_eq_ok _ _ _).mp h
    exact ih inner hinner

def Readable (source target : Schema) : Place → Model → Prop
  | .type type, m => type.Known target → UsesUnknown source target (.type type) m ∨
    ∃ m', adapt source target m type = .ok m' ∧ Typed target (.type type) m'
  | .field field, m => field.type.Known target → UsesUnknown source target (.field field) m ∨
    ∃ m', (if field.optional then adaptSome source target m field.type
      else adapt source target m field.type) = .ok m' ∧ Typed target (.field field) m'
  | .fields fields, m => ∀ self, m = .struct self → ∀ wanted, Identified target wanted →
    Named wanted →
      (∃ field ∈ fields, field ∈ wanted ∧
        UsesUnknown source target (.field field) (self (fieldName field.name))) ∨
      ∃ kept, adaptFields source target fields wanted self = .ok kept ∧
        Typed target (.fields wanted) (.struct kept)

theorem readable_fields (htarget : target.Accepted) (fields : List FieldDeclaration)
    (self : String → Model)
    (h : ∀ field ∈ fields, Readable source target (.field field) (self (fieldName field.name))) :
    Readable source target (.fields fields) (.struct self) := by
  rintro _ ⟨⟩ wanted hidentified hnames
  refine (fill_readable fields wanted hnames.1 fun field hwanted => ?_).imp_right
    fun ⟨kept, hkept, htyped, helsewhere⟩ => ⟨kept, hkept, .fields wanted kept htyped helsewhere⟩
  by_cases hmem : field ∈ fields
  · rw [adaptField, if_pos hmem]
    exact (h field hmem (hidentified.2 field hwanted)).imp_left fun huses => ⟨hmem, huses⟩
  · rw [adaptField, if_neg hmem]
    right
    by_cases hopt : field.optional = true
    · rw [if_pos hopt]
      exact ⟨.none, rfl, .absent field hopt⟩
    · rw [if_neg hopt]
      obtain ⟨m, t, hm, _, hcorresponds⟩ :=
        default_isOk htarget field.type (hidentified.2 field hwanted)
      exact ⟨m, hm, .required field m (Bool.eq_false_iff.mpr hopt)
        (corresponds_typed (.type field.type) m t hcorresponds).1⟩

theorem typed_readable (h : Compatible source target) (hsource : source.Accepted)
    (htarget : target.Accepted) (place : Place) (m : Model)
    (hm : Typed source place m) : Readable source target place m := by
  induction hm with
  | void => exact fun _ => .inr ⟨.unit, rfl, .void⟩
  | u53 n => exact fun _ => .inr ⟨.u64 n, rfl, .u53 n⟩
  | i53 n => exact fun _ => .inr ⟨.i64 n, rfl, .i53 n⟩
  | f64 bits => exact fun _ => .inr ⟨.f64 bits, rfl, .f64 bits⟩
  | string t => exact fun _ => .inr ⟨.string t, rfl, .string t⟩
  | bool b => exact fun _ => .inr ⟨.bool b, rfl, .bool b⟩
  | bytes b => exact fun _ => .inr ⟨.bytes b, rfl, .bytes b⟩
  | nil item => exact fun _ => .inr ⟨.vec [], rfl, .nil item⟩
  | cons item m ms head tail ihHead ihTail =>
    intro hknown
    rcases ihHead hknown with huses | ⟨m', hm', htyped⟩
    · exact .inl (.item item m _ List.mem_cons_self huses)
    · rcases ihTail hknown with huses | ⟨ms', hms', htypeds⟩
      · cases huses with
        | item _ inner _ mem uses => exact .inl (.item item inner _ (List.mem_cons_of_mem _ mem) uses)
      · obtain ⟨values, hvalues, heq⟩ := (bind_eq_ok _ _ _).mp hms'
        cases heq
        refine .inr ⟨.vec (m' :: values), ?_, .cons item m' values htyped htypeds⟩
        rw [adapt_vec, adaptItems, hm', ok_bind, hvalues]
        rfl
  | enum path name typePath variants variant named mem =>
    rintro ⟨declaration, named'⟩
    have hagrees := h path _ declaration named named'
    cases declaration with
    | enum name' typePath' wanted =>
      by_cases hname : variant.name ∈ wanted.map (·.name)
      · obtain ⟨after, hafter, hsame⟩ := List.mem_map.mp hname
        have hnames := (htarget.distinct _ (Schema.named_mem named')).2
        refine .inr ⟨.enum after.name, ?_, .enum path name' typePath' wanted after named' hafter⟩
        rw [adapt_enum named', ← hsame, find_self (·.name) wanted hnames after hafter]
        rfl
      · exact .inl (.enum path name typePath name' typePath' variants wanted variant named named' mem
          hname)
    | struct | union => exact hagrees.elim
  | struct path name typePath fields self named typed ih =>
    rintro ⟨declaration, named'⟩
    have hagrees := h path _ declaration named named'
    cases declaration with
    | struct name' typePath' wanted =>
      obtain ⟨hidentified, hnames⟩ := htarget.struct_fields named'
      rcases ih self rfl wanted hidentified hnames with ⟨field, hmem, hmem', huses⟩ | ⟨kept, hkept, htyped⟩
      · exact .inl (.struct path name typePath name' typePath' fields wanted field self named named'
          hmem hmem' huses)
      · refine .inr ⟨.struct kept, ?_, .struct path name' typePath' wanted kept named' htyped⟩
        rw [adapt_struct named named', hkept]
        rfl
    | enum | union => exact hagrees.elim
  | union path name typePath variants variant self named mem typed ih =>
    rintro ⟨declaration, named'⟩
    have hagrees := h path _ declaration named named'
    cases declaration with
    | union name' typePath' wanted =>
      by_cases hname : variant.name ∈ wanted.map (·.name)
      · obtain ⟨after, hafter, hsame⟩ := List.mem_map.mp hname
        obtain ⟨hidentified, hfields, _⟩ := htarget.union_fields named' hafter
        rcases ih self rfl after.fields hidentified hfields with
          ⟨field, hmem, hmem', huses⟩ | ⟨kept, hkept, htyped⟩
        · exact .inl (.union path name typePath name' typePath' variants wanted variant after field
            self named named' mem hafter hsame hmem hmem' huses)
        · have hnames := (hsource.distinct _ (Schema.named_mem named)).2.1
          have hnames' := (htarget.distinct _ (Schema.named_mem named')).2.1
          refine .inr ⟨.union after.name kept, ?_,
            .union path name' typePath' wanted after kept named' hafter htyped⟩
          rw [adapt_union named named', find_self (·.name) variants hnames variant mem, ← hsame,
            find_self (·.name) wanted hnames' after hafter, require_some, require_some, ok_bind,
            ok_bind, hkept]
          rfl
      · exact .inl (.variant path name typePath name' typePath' variants wanted variant self named
          named' mem hname)
    | struct | enum => exact hagrees.elim
  | required field m hfield typed ih =>
    intro hknown
    rw [if_neg (Bool.eq_false_iff.mp hfield)]
    rcases ih hknown with huses | ⟨m', hm', htyped⟩
    · exact .inl (.required field m hfield huses)
    · exact .inr ⟨m', hm', .required field m' hfield htyped⟩
  | absent field hfield =>
    intro _
    rw [if_pos hfield]
    exact .inr ⟨.none, rfl, .absent field hfield⟩
  | present field m hfield typed ih =>
    intro hknown
    rw [if_pos hfield, adaptSome]
    rcases ih hknown with huses | ⟨m', hm', htyped⟩
    · exact .inl (.present field m hfield huses)
    · exact .inr ⟨.some m', (map_eq_ok _ _ _).mpr ⟨m', hm', rfl⟩, .present field m' hfield htyped⟩
  | fields fields self typed elsewhere ih => exact readable_fields htarget fields self ih

theorem evolves_known (h : Evolves source target) (place : Place) (m : Model) :
    ¬ UsesUnknown source target place m := by
  intro huses
  induction huses with
  | item _ _ _ _ _ ih | struct _ _ _ _ _ _ _ _ _ _ _ _ _ _ ih
  | union _ _ _ _ _ _ _ _ _ _ _ _ _ _ _ _ _ _ _ ih | required _ _ _ _ ih | present _ _ _ _ ih =>
    exact ih
  | enum path name typePath name' typePath' variants wanted variant named named' mem missing =>
    obtain ⟨declaration, hnamed, hextends⟩ := h path _ named
    cases hnamed.symm.trans named'
    exact missing (List.mem_map_of_mem (hextends mem))
  | variant path name typePath name' typePath' variants wanted variant self named named' mem missing =>
    obtain ⟨declaration, hnamed, hextends⟩ := h path _ named
    cases hnamed.symm.trans named'
    obtain ⟨after, hafter, _, hname, _⟩ := hextends variant mem
    exact missing (hname ▸ List.mem_map_of_mem hafter)

end Rust

namespace TypeScript

inductive UsesUnknown (source target : Schema) : Place → Model → Prop where
  | item (item : TypeRef) (m : Model) (ms : List Model) (mem : m ∈ ms)
      (uses : UsesUnknown source target (.type item) m) :
      UsesUnknown source target (.type (.array item)) (.array ms)
  | enum (path name typePath name' typePath' : String) (variants wanted : List EnumVariantDeclaration)
      (variant : EnumVariantDeclaration)
      (named : source.named path = some (.enum name typePath variants))
      (named' : target.named path = some (.enum name' typePath' wanted))
      (mem : variant ∈ variants) (missing : variant.id ∉ wanted.map (·.id)) :
      UsesUnknown source target (.type (.named path)) (.number variant.id.val)
  | struct (path name typePath name' typePath' : String) (fields wanted : List FieldDeclaration)
      (field : FieldDeclaration) (value : String → Model)
      (named : source.named path = some (.struct name typePath fields))
      (named' : target.named path = some (.struct name' typePath' wanted))
      (mem : field ∈ fields) (mem' : field ∈ wanted)
      (uses : UsesUnknown source target (.field field) (value field.name)) :
      UsesUnknown source target (.type (.named path)) (.object value)
  | variant (path name typePath name' typePath' : String)
      (variants wanted : List UnionVariantDeclaration) (variant : UnionVariantDeclaration)
      (value : String → Model)
      (named : source.named path = some (.union name typePath variants))
      (named' : target.named path = some (.union name' typePath' wanted))
      (mem : variant ∈ variants)
      (missing : lowerCamel variant.name ∉ wanted.map fun variant => lowerCamel variant.name)
      (tag : value "type" = .string (lowerCamel variant.name)) :
      UsesUnknown source target (.type (.named path)) (.object value)
  | union (path name typePath name' typePath' : String)
      (variants wanted : List UnionVariantDeclaration) (before after : UnionVariantDeclaration)
      (field : FieldDeclaration) (value : String → Model)
      (named : source.named path = some (.union name typePath variants))
      (named' : target.named path = some (.union name' typePath' wanted))
      (before_mem : before ∈ variants) (after_mem : after ∈ wanted)
      (same : lowerCamel after.name = lowerCamel before.name)
      (tag : value "type" = .string (lowerCamel before.name))
      (mem : field ∈ before.fields) (mem' : field ∈ after.fields)
      (uses : UsesUnknown source target (.field field) (value field.name)) :
      UsesUnknown source target (.type (.named path)) (.object value)
  | field (field : FieldDeclaration) (m : Model)
      (uses : UsesUnknown source target (.type field.type) m) :
      UsesUnknown source target (.field field) m

theorem adaptItems_mem (item : TypeRef) (ms values : List Model)
    (h : adaptItems source target ms item = .ok values) :
    ∀ m ∈ ms, ∃ m', adapt source target m item = .ok m' := by
  induction ms generalizing values with
  | nil => exact fun m hm => absurd hm List.not_mem_nil
  | cons m ms ih =>
    obtain ⟨first, hfirst, h⟩ := (bind_eq_ok _ _ _).mp h
    obtain ⟨rest, hrest, _⟩ := (bind_eq_ok _ _ _).mp h
    rw [List.forall_mem_cons]
    exact ⟨⟨first, hfirst⟩, ih rest hrest⟩

def Refused (source target : Schema) : Place → Model → Prop
  | .type type, m => ∀ m', adapt source target m type ≠ .ok m'
  | .field field, m => ∀ m', adaptDefined field m
      (adapt source target m field.type) ≠ .ok m'
  | .fields _, _ => True

theorem adaptFields_refused (fields wanted : List FieldDeclaration)
    (field : FieldDeclaration) (value kept : String → Model) (hmem : field ∈ fields)
    (hmem' : field ∈ wanted) (h : Refused source target (.field field) (value field.name)) :
    adaptFields source target fields wanted value ≠ .ok kept := by
  intro hkept
  obtain ⟨m', hm'⟩ := (fill_isOk _ _ _ wanted).mp ⟨kept, hkept⟩ field hmem'
  rw [adaptField, if_pos hmem] at hm'
  exact h m' hm'

theorem adaptDefined_unknown (field : FieldDeclaration) (m : Model)
    (adapted : Except Failure Model)
    (h : UsesUnknown source target (.type field.type) m) :
    adaptDefined field m adapted = adapted := by
  unfold adaptDefined
  split
  · generalize field.type = type at h
    cases h <;> rfl
  · rfl

theorem unknown_refused (hsource : source.Accepted) (htarget : target.Accepted)
    (place : Place) (m : Model) (h : UsesUnknown source target place m) :
    Refused source target place m := by
  induction h with
  | item item m ms mem uses ih =>
    intro m' h
    obtain ⟨values, hvalues, _⟩ := (bind_eq_ok _ _ _).mp h
    obtain ⟨first, hfirst⟩ := adaptItems_mem item ms values hvalues m mem
    exact ih first hfirst
  | enum path name typePath name' typePath' variants wanted variant named named' mem missing =>
    intro m' h
    rw [adapt_enum named'] at h
    obtain ⟨hmem, _⟩ := (bind_unit_eq_ok _ _ _).mp h
    obtain ⟨other, hother, hid⟩ := List.mem_map.mp ((ensure_eq_ok _ _ _).mp hmem)
    have hsame : other.id = variant.id := Fin.ext (Int.ofNat.inj hid)
    exact missing (hsame ▸ List.mem_map_of_mem hother)
  | struct path name typePath name' typePath' fields wanted field value named named' mem mem' uses
      ih =>
    intro m' h
    rw [adapt_struct named named'] at h
    obtain ⟨kept, hkept, _⟩ := (bind_eq_ok _ _ _).mp h
    exact adaptFields_refused fields wanted field value kept mem mem' ih hkept
  | variant path name typePath name' typePath' variants wanted variant value named named' mem
      missing tag =>
    intro m' h
    rw [adapt_union named named' value _ tag] at h
    obtain ⟨_, _, h⟩ := (bind_eq_ok _ _ _).mp h
    obtain ⟨after, hafter, _⟩ := (bind_eq_ok _ _ _).mp h
    have hfound := (require_eq_ok _ _ _).mp hafter
    have hname : lowerCamel after.name = lowerCamel variant.name := by
      simpa using List.find?_some hfound
    exact missing (List.mem_map.mpr ⟨after, List.mem_of_find?_eq_some hfound, hname⟩)
  | union path name typePath name' typePath' variants wanted before after field value named named'
      before_mem after_mem same tag mem mem' uses ih =>
    have htags := (hsource.distinct _ (Schema.named_mem named)).2.2.1
    have htags' := (htarget.distinct _ (Schema.named_mem named')).2.2.1
    intro m' h
    rw [adapt_union named named' value _ tag,
      find_self (fun v => lowerCamel v.name) variants htags before before_mem, ← same,
      find_self (fun v => lowerCamel v.name) wanted htags' after after_mem, require_some,
      require_some, ok_bind, ok_bind] at h
    obtain ⟨kept, hkept, _⟩ := (bind_eq_ok _ _ _).mp h
    exact adaptFields_refused before.fields after.fields field value kept mem mem' ih hkept
  | field field m uses ih =>
    intro m' h
    rw [adaptDefined_unknown field m _ uses] at h
    exact ih m' h

def Readable (source target : Schema) : Place → Model → Prop
  | .type type, m => type.Known target → UsesUnknown source target (.type type) m ∨
    ∃ m', adapt source target m type = .ok m' ∧ Typed target (.type type) m'
  | .field field, m => field.type.Known target →
    UsesUnknown source target (.field field) m ∨
    ∃ m', adaptDefined field m (adapt source target m field.type) = .ok m' ∧
      Typed target (.field field) m'
  | .fields fields, m => ∀ value, m = .object value → ∀ wanted, Identified target wanted →
    Named wanted →
      (∃ field ∈ fields, field ∈ wanted ∧
        UsesUnknown source target (.field field) (value field.name)) ∨
      ∃ kept, adaptFields source target fields wanted value = .ok kept ∧
        Typed target (.fields wanted) (.object kept)

theorem readable_fields (htarget : target.Accepted) (fields : List FieldDeclaration)
    (value : String → Model)
    (h : ∀ field ∈ fields, Readable source target (.field field) (value field.name)) :
    Readable source target (.fields fields) (.object value) := by
  rintro _ ⟨⟩ wanted hidentified hnames
  refine (fill_readable fields wanted hnames.2 fun field hwanted => ?_).imp_right
    fun ⟨kept, hkept, htyped, helsewhere⟩ => ⟨kept, hkept, .fields wanted kept htyped helsewhere⟩
  by_cases hmem : field ∈ fields
  · rw [adaptField, if_pos hmem]
    exact (h field hmem (hidentified.2 field hwanted)).imp_left fun huses => ⟨hmem, huses⟩
  · rw [adaptField, if_neg hmem]
    right
    by_cases hopt : field.optional = true
    · rw [if_pos hopt]
      exact ⟨.undefined, rfl, .absent field hopt⟩
    · rw [if_neg hopt]
      obtain ⟨m, t, _, ht, hcorresponds⟩ :=
        default_isOk htarget field.type (hidentified.2 field hwanted)
      exact ⟨t, ht, .required field t (Bool.eq_false_iff.mpr hopt)
        (corresponds_typed (.type field.type) m t hcorresponds).2⟩

theorem typed_readable (h : Compatible source target) (hsource : source.Accepted)
    (htarget : target.Accepted) (place : Place) (m : Model)
    (hm : Typed source place m) : Readable source target place m := by
  induction hm with
  | void => exact fun _ => .inr ⟨.undefined, rfl, .void⟩
  | u53 n => exact fun _ => .inr ⟨.number n, rfl, .u53 n⟩
  | i53 n => exact fun _ => .inr ⟨.number n, rfl, .i53 n⟩
  | f64 bits => exact fun _ => .inr ⟨.float bits, rfl, .f64 bits⟩
  | string t => exact fun _ => .inr ⟨.string t, rfl, .string t⟩
  | bool b => exact fun _ => .inr ⟨.boolean b, rfl, .bool b⟩
  | bytes b => exact fun _ => .inr ⟨.bytes b, rfl, .bytes b⟩
  | nil item => exact fun _ => .inr ⟨.array [], rfl, .nil item⟩
  | cons item m ms head tail ihHead ihTail =>
    intro hknown
    rcases ihHead hknown with huses | ⟨m', hm', htyped⟩
    · exact .inl (.item item m _ List.mem_cons_self huses)
    · rcases ihTail hknown with huses | ⟨ms', hms', htypeds⟩
      · cases huses with
        | item _ inner _ mem uses => exact .inl (.item item inner _ (List.mem_cons_of_mem _ mem) uses)
      · obtain ⟨values, hvalues, heq⟩ := (bind_eq_ok _ _ _).mp hms'
        cases heq
        refine .inr ⟨.array (m' :: values), ?_, .cons item m' values htyped htypeds⟩
        rw [adapt_array, adaptItems, hm', ok_bind, hvalues]
        rfl
  | enum path name typePath variants variant named mem =>
    rintro ⟨declaration, named'⟩
    have hagrees := h path _ declaration named named'
    cases declaration with
    | enum name' typePath' wanted =>
      by_cases hid : variant.id ∈ wanted.map (·.id)
      · obtain ⟨after, hafter, hsame⟩ := List.mem_map.mp hid
        have hmem : (variant.id.val : ℤ) ∈ wanted.map fun variant => (variant.id.val : ℤ) :=
          List.mem_map.mpr ⟨after, hafter, by rw [hsame]⟩
        refine .inr ⟨.number variant.id.val, ?_, ?_⟩
        · rw [adapt_enum named', ensure_of _ _ hmem]
          rfl
        · rw [← hsame]
          exact .enum path name' typePath' wanted after named' hafter
      · exact .inl (.enum path name typePath name' typePath' variants wanted variant named named' mem
          hid)
    | struct | union => exact hagrees.elim
  | struct path name typePath fields value named typed ih =>
    rintro ⟨declaration, named'⟩
    have hagrees := h path _ declaration named named'
    cases declaration with
    | struct name' typePath' wanted =>
      obtain ⟨hidentified, hnames⟩ := htarget.struct_fields named'
      rcases ih value rfl wanted hidentified hnames with
        ⟨field, hmem, hmem', huses⟩ | ⟨kept, hkept, htyped⟩
      · exact .inl (.struct path name typePath name' typePath' fields wanted field value named named'
          hmem hmem' huses)
      · refine .inr ⟨.object kept, ?_, .struct path name' typePath' wanted kept named' htyped⟩
        rw [adapt_struct named named', hkept]
        rfl
    | enum | union => exact hagrees.elim
  | union path name typePath variants variant value named mem typed ih =>
    rintro ⟨declaration, named'⟩
    have hagrees := h path _ declaration named named'
    cases declaration with
    | union name' typePath' wanted =>
      by_cases hname : lowerCamel variant.name ∈ wanted.map fun variant => lowerCamel variant.name
      · obtain ⟨after, hafter, hsame⟩ := List.mem_map.mp hname
        obtain ⟨hidentified, hfields, htype⟩ := htarget.union_fields named' hafter
        rcases ih value rfl after.fields hidentified hfields with
          ⟨field, hmem, hmem', huses⟩ | ⟨kept, hkept, htyped⟩
        · have hne : field.name ≠ "type" := fun heq => htype (heq ▸ List.mem_map_of_mem hmem')
          refine .inl (.union path name typePath name' typePath' variants wanted variant after field
            _ named named' mem hafter hsame rfl hmem hmem' ?_)
          rw [tagged, if_neg hne]
          exact huses
        · have htags := (hsource.distinct _ (Schema.named_mem named)).2.2.1
          have htags' := (htarget.distinct _ (Schema.named_mem named')).2.2.1
          refine .inr ⟨.object (tagged (lowerCamel after.name) kept), ?_,
            .union path name' typePath' wanted after kept named' hafter htyped⟩
          rw [adapt_union named named' _ (lowerCamel variant.name) rfl,
            find_self (fun v => lowerCamel v.name) variants htags variant mem, ← hsame,
            find_self (fun v => lowerCamel v.name) wanted htags' after hafter, require_some,
            require_some, ok_bind, ok_bind, adaptFields_tagged _ _ _ _ htype, hkept]
          rfl
      · exact .inl (.variant path name typePath name' typePath' variants wanted variant _ named
          named' mem hname rfl)
    | struct | enum => exact hagrees.elim
  | required field m hfield typed ih =>
    intro hknown
    unfold adaptDefined
    rw [if_neg (Bool.eq_false_iff.mp hfield)]
    rcases ih hknown with huses | ⟨m', hm', htyped⟩
    · exact .inl (.field field m huses)
    · exact .inr ⟨m', hm', .required field m' hfield htyped⟩
  | absent field hfield =>
    intro _
    unfold adaptDefined
    rw [if_pos hfield]
    exact .inr ⟨.undefined, rfl, .absent field hfield⟩
  | present field m hfield typed ih =>
    intro hknown
    unfold adaptDefined
    rw [if_pos hfield]
    cases m with
    | undefined => exact .inr ⟨.undefined, rfl, .absent field hfield⟩
    | _ =>
      rcases ih hknown with huses | ⟨m', hm', htyped⟩
      · exact .inl (.field field _ huses)
      · exact .inr ⟨m', hm', .present field m' hfield htyped⟩
  | fields fields value typed elsewhere ih => exact readable_fields htarget fields value ih

theorem evolves_known (h : Evolves source target) (place : Place)
    (m : Model) : ¬ UsesUnknown source target place m := by
  intro huses
  induction huses with
  | item _ _ _ _ _ ih | struct _ _ _ _ _ _ _ _ _ _ _ _ _ _ ih
  | union _ _ _ _ _ _ _ _ _ _ _ _ _ _ _ _ _ _ _ _ ih | field _ _ _ ih => exact ih
  | enum path name typePath name' typePath' variants wanted variant named named' mem missing =>
    obtain ⟨declaration, hnamed, hextends⟩ := h path _ named
    cases hnamed.symm.trans named'
    exact missing (List.mem_map_of_mem (hextends mem))
  | variant path name typePath name' typePath' variants wanted variant value named named' mem missing tag =>
    obtain ⟨declaration, hnamed, hextends⟩ := h path _ named
    cases hnamed.symm.trans named'
    obtain ⟨after, hafter, _, hname, _⟩ := hextends variant mem
    exact missing (List.mem_map.mpr ⟨after, hafter, congrArg lowerCamel hname⟩)

end TypeScript

structure Rust.Understood (old new : Schema) (type : TypeRef) : Prop where
  older : ∀ m v, Rust.Typed new (.type type) m → Rust.encodeExpr new m type = .ok v →
    ¬ Rust.UsesUnknown new old (.type type) m → ∃ m', Rust.adapt new old m type = .ok m' ∧
      Rust.Typed old (.type type) m' ∧ Rust.decodeExpr old v type = .ok m'
  rejected : ∀ m v, Rust.Typed new (.type type) m → Rust.encodeExpr new m type = .ok v →
    Rust.UsesUnknown new old (.type type) m → ∃ e, Rust.decodeExpr old v type = .error e
  newer : ∀ m v, Rust.Typed old (.type type) m → Rust.encodeExpr old m type = .ok v →
    ∃ m', Rust.adapt old new m type = .ok m' ∧ Rust.Typed new (.type type) m' ∧
      Rust.decodeExpr new v type = .ok m'

structure TypeScript.Understood (old new : Schema) (type : TypeRef) : Prop where
  older : ∀ t c, TypeScript.Typed new (.type type) t → TypeScript.encodeExpr new t type = .ok c →
    ¬ TypeScript.UsesUnknown new old (.type type) t → ∃ t', TypeScript.adapt new old t type = .ok t' ∧
      TypeScript.Typed old (.type type) t' ∧ TypeScript.decodeExpr old c type = .ok t'
  rejected : ∀ t c, TypeScript.Typed new (.type type) t →
    TypeScript.encodeExpr new t type = .ok c → TypeScript.UsesUnknown new old (.type type) t →
      ∃ e, TypeScript.decodeExpr old c type = .error e
  newer : ∀ t c, TypeScript.Typed old (.type type) t → TypeScript.encodeExpr old t type = .ok c →
    ∃ t', TypeScript.adapt old new t type = .ok t' ∧ TypeScript.Typed new (.type type) t' ∧
      TypeScript.decodeExpr new c type = .ok t'

end

section
variable {old new : Schema}

theorem Evolves.known (h : Evolves old new) (type : TypeRef) (hknown : type.Known old) :
    type.Known new := by
  induction type with
  | primitive | void => exact True.intro
  | array item ih => exact ih hknown
  | named path =>
    obtain ⟨declaration, hnamed⟩ := hknown
    obtain ⟨declaration', hnamed', _⟩ := h path declaration hnamed
    exact ⟨declaration', hnamed'⟩

section
variable (hold : old.Accepted) (hnew : new.Accepted) (h : Evolves old new) (type : TypeRef)
  (hknown : type.Known old)
include hold hnew h type hknown

theorem Rust.understood : Rust.Understood old new type := by
  have hcompatible := h.compatible hnew
  constructor
  · intro m v hm henc huses
    have hreadable : Rust.Readable new old (.type type) m :=
      Rust.typed_readable hcompatible.symm hnew hold (.type type) m hm
    exact read_adapted (Rust.decode_encode hnew hcompatible.symm m type v henc)
      (hreadable hknown) huses
  · intro m v _ henc huses
    have hrefused : Rust.Refused new old (.type type) m :=
      Rust.unknown_refused hnew hold (.type type) m huses
    exact read_refused (Rust.decode_encode hnew hcompatible.symm m type v henc) hrefused
  · intro m v hm henc
    have hreadable : Rust.Readable old new (.type type) m :=
      Rust.typed_readable hcompatible hold hnew (.type type) m hm
    exact read_adapted (Rust.decode_encode hold hcompatible m type v henc)
      (hreadable (h.known type hknown)) (Rust.evolves_known h (.type type) m)

theorem TypeScript.understood : TypeScript.Understood old new type := by
  have hcompatible := h.compatible hnew
  constructor
  · intro t c ht henc huses
    have hreadable : TypeScript.Readable new old (.type type) t :=
      TypeScript.typed_readable hcompatible.symm hnew hold (.type type) t ht
    exact read_adapted (TypeScript.decode_encode hnew hcompatible.symm t type c henc)
      (hreadable hknown) huses
  · intro t c _ henc huses
    have hrefused : TypeScript.Refused new old (.type type) t :=
      TypeScript.unknown_refused hnew hold (.type type) t huses
    exact read_refused (TypeScript.decode_encode hnew hcompatible.symm t type c henc) hrefused
  · intro t c ht henc
    have hreadable : TypeScript.Readable old new (.type type) t :=
      TypeScript.typed_readable hcompatible hold hnew (.type type) t ht
    exact read_adapted (TypeScript.decode_encode hold hcompatible t type c henc)
      (hreadable (h.known type hknown)) (TypeScript.evolves_known h (.type type) t)

end

theorem evolution_safe (old new : Schema) (hold : old.Accepted) (hnew : new.Accepted)
    (h : Evolves old new) (type : TypeRef) (hknown : type.Known old) :
    Rust.Understood old new type ∧ TypeScript.Understood old new type :=
  ⟨Rust.understood hold hnew h type hknown, TypeScript.understood hold hnew h type hknown⟩

def olderBox : Schema := ⟨[.enum "Kind" "app.Kind" [⟨0, "Idle"⟩],
  .struct "Box" "app.Box" [⟨1, "name", false, .primitive .string⟩]]⟩

def newerBox : Schema := ⟨[.enum "Kind" "app.Kind" [⟨0, "Idle"⟩, ⟨1, "Busy"⟩],
  .struct "Box" "app.Box"
    [⟨1, "name", false, .primitive .string⟩, ⟨2, "kind", false, .named "app.Kind"⟩]]⟩

theorem box_accepted : olderBox.Accepted ∧ newerBox.Accepted :=
  ⟨olderBox.accepted_of_rank (fun path => if path = "app.Box" then 1 else 0)
      (by decide) (by decide) (by decide),
    newerBox.accepted_of_rank (fun path => if path = "app.Box" then 1 else 0)
      (by decide) (by decide +kernel) (by decide)⟩

theorem box_evolves : Evolves olderBox newerBox := by
  intro path declaration hnamed
  have hpath := olderBox.named_typePath hnamed
  rcases List.mem_cons.mp (Schema.named_mem hnamed) with rfl | hmem
  · cases hpath
    exact ⟨_, rfl, List.subset_append_left [_] [_]⟩
  · cases List.mem_singleton.mp hmem
    cases hpath
    exact ⟨_, rfl, List.subset_append_left [_] [_]⟩

theorem box_understood : Rust.Understood olderBox newerBox (.named "app.Box") ∧
    TypeScript.Understood olderBox newerBox (.named "app.Box") :=
  evolution_safe olderBox newerBox box_accepted.1 box_accepted.2 box_evolves (.named "app.Box")
    ⟨_, rfl⟩

def busyBox (name : String) : Rust.Model :=
  if name = "name" then .string "a" else if name = "kind" then .enum "Busy" else .unit

theorem busy_skipped : olderBox.Accepted ∧ newerBox.Accepted ∧ Evolves olderBox newerBox ∧
    Rust.Typed newerBox (.type (.named "app.Box")) (.struct busyBox) ∧
    busyBox "kind" = .enum "Busy" ∧
    olderBox.named "app.Kind" = some (.enum "Kind" "app.Kind" [⟨0, "Idle"⟩]) ∧
    Rust.encodeExpr newerBox (.struct busyBox) (.named "app.Box") =
      .ok (.map [(1, .text "a"), (2, .u64 1)]) ∧
    ∃ m, Rust.decodeExpr olderBox (.map [(1, .text "a"), (2, .u64 1)]) (.named "app.Box") =
      .ok m := by
  refine ⟨box_accepted.1, box_accepted.2, box_evolves, ?_, rfl, rfl, rfl, _, rfl⟩
  apply Rust.Typed.struct "app.Box" "Box" "app.Box" _ _ rfl
  apply Rust.Typed.fields
  · rw [List.forall_mem_cons, List.forall_mem_singleton]
    exact ⟨.required _ _ rfl (.string "a"), .required _ _ rfl
      (.enum "app.Kind" "Kind" "app.Kind" _ ⟨1, "Busy"⟩ rfl (by decide))⟩
  · intro name hname
    have hne : name ≠ "name" ∧ name ≠ "kind" := by
      simpa [show fieldName "name" = "name" by decide, show fieldName "kind" = "kind" by decide]
        using hname
    rw [busyBox, if_neg hne.1, if_neg hne.2]

end

end Rieul.Codegen
