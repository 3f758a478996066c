import Rieul.Codegen.Values
import Rieul.Codegen.RustEvolution
import Rieul.Codegen.TypeScriptEvolution

/-!
# Round trips

A model that is encoded and decoded with one schema comes back, in either
language; and every default can be encoded.
-/

namespace Rieul.Codegen
open Fallible Record Bytes Rieul.Cbor
open Rieul.Web (CborValue)

section
variable {schema : Schema}

theorem eq_of_both {ε ε' α : Type} {x : Except ε α} {a : α}
    (h : Both (· = ·) x (.ok a : Except ε' α)) : x = .ok a := by
  obtain ⟨b, hb, rfl⟩ := h.right a rfl
  exact hb

namespace Rust

def Keeps (schema : Schema) : Place → Model → Prop
  | .type type, m => adapt schema schema m type = .ok m
  | .field field, m =>
    (if field.optional then adaptSome schema schema m field.type
      else adapt schema schema m field.type) = .ok m
  | .fields fields, m => Named fields → ∀ self, m = .struct self →
    adaptFields schema schema fields fields self = .ok self

theorem adapt_typed (h : schema.Accepted) (place : Place) (m : Model)
    (hm : Typed schema place m) : Keeps schema place m := by
  induction hm with
  | void | u53 | i53 | f64 | string | bool | bytes | nil => rfl
  | cons item m ms head tail ihHead ihTail =>
    have htail : adapt schema schema (.vec ms) (.array item) = .ok (.vec ms) := ihTail
    rw [adapt_vec] at htail
    obtain ⟨values, hvalues, heq⟩ := (bind_eq_ok _ _ _).mp htail
    cases heq
    show adapt schema schema (.vec (m :: ms)) (.array item) = .ok (.vec (m :: ms))
    rw [adapt_vec, adaptItems, show adapt schema schema m item = .ok m from ihHead,
      ok_bind, hvalues]
    rfl
  | enum path name typePath variants variant named mem =>
    have hnames := (h.distinct _ (Schema.named_mem named)).2
    show adapt schema schema (.enum variant.name) (.named path) = .ok (.enum variant.name)
    rw [adapt_enum named, find_self (·.name) variants hnames variant mem]
    rfl
  | struct path name typePath fields self named typed ih =>
    show adapt schema schema (.struct self) (.named path) = .ok (.struct self)
    rw [adapt_struct named named, ih (h.struct_fields named).2 self rfl]
    rfl
  | union path name typePath variants variant self named mem typed ih =>
    have hnames := (h.distinct _ (Schema.named_mem named)).2.1
    show adapt schema schema (.union variant.name self) (.named path) = .ok _
    rw [adapt_union named named, find_self (·.name) variants hnames variant mem, require_some,
      ok_bind, ok_bind, ih (h.union_fields named mem).2.1 self rfl]
    rfl
  | required field m hfield typed ih => exact (if_neg (Bool.eq_false_iff.mp hfield)).trans ih
  | absent field hfield => exact if_pos hfield
  | present field m hfield typed ih =>
    have hm : adapt schema schema m field.type = .ok m := ih
    apply (if_pos hfield).trans
    rw [adaptSome, hm]
    rfl
  | fields fields self typed elsewhere ih =>
    rintro hnames _ ⟨⟩
    apply (fill_eq_ok _ _ _ fields self hnames.1).mpr
    exact ⟨fun field hfield => (if_pos hfield).trans (ih field hfield), elsewhere⟩

theorem decode_encode_self (h : schema.Accepted) (type : TypeRef) (m : Model) (v : Value)
    (hm : Typed schema (.type type) m) (henc : encodeExpr schema m type = .ok v) :
    decodeExpr schema v type = .ok m := by
  have hadapts := decode_encode h ((Evolves.refl schema).compatible h) m type v henc
  rw [show adapt schema schema m type = .ok m from adapt_typed h (.type type) m hm] at hadapts
  exact eq_of_both hadapts

end Rust

namespace TypeScript

def Keeps (schema : Schema) : Place → Model → Prop
  | .type type, m => adapt schema schema m type = .ok m
  | .field field, m => adaptDefined field m
      (adapt schema schema m field.type) = .ok m
  | .fields fields, m => Named fields → ∀ value, m = .object value →
    adaptFields schema schema fields fields value = .ok value

theorem adaptFields_tagged {source target : Schema} (tag : String)
    (fields wanted : List FieldDeclaration) (value : String → Model)
    (htype : "type" ∉ wanted.map (·.name)) :
    adaptFields source target fields wanted (tagged tag value) =
      adaptFields source target fields wanted value := by
  apply fill_congr
  intro field hfield
  have hname : field.name ≠ "type" := fun heq => htype (heq ▸ List.mem_map_of_mem hfield)
  unfold adaptField tagged
  rw [if_neg hname]

theorem adapt_typed (h : schema.Accepted) (place : Place) (m : Model)
    (hm : Typed schema place m) : Keeps schema place m := by
  induction hm with
  | void | u53 | i53 | f64 | string | bool | bytes | nil => rfl
  | cons item m ms head tail ihHead ihTail =>
    have htail : adapt schema schema (.array ms) (.array item) = .ok (.array ms) := ihTail
    rw [adapt_array] at htail
    obtain ⟨values, hvalues, heq⟩ := (bind_eq_ok _ _ _).mp htail
    cases heq
    show adapt schema schema (.array (m :: ms)) (.array item) = .ok (.array (m :: ms))
    rw [adapt_array, adaptItems,
      show adapt schema schema m item = .ok m from ihHead, ok_bind, hvalues]
    rfl
  | enum path name typePath variants variant named mem =>
    have hmem : (variant.id.val : ℤ) ∈ variants.map fun variant => (variant.id.val : ℤ) :=
      List.mem_map_of_mem (f := fun variant : EnumVariantDeclaration => (variant.id.val : ℤ)) mem
    show adapt schema schema (.number variant.id.val) (.named path) = .ok _
    rw [adapt_enum named, ensure_of _ _ hmem]
    rfl
  | struct path name typePath fields value named typed ih =>
    show adapt schema schema (.object value) (.named path) = .ok (.object value)
    rw [adapt_struct named named, ih (h.struct_fields named).2 value rfl]
    rfl
  | union path name typePath variants variant value named mem typed ih =>
    obtain ⟨_, hnamed, htype⟩ := h.union_fields named mem
    have htags := (h.distinct _ (Schema.named_mem named)).2.2.1
    show adapt schema schema (.object _) (.named path) = .ok _
    rw [adapt_union named named _ (lowerCamel variant.name) rfl,
      find_self (fun v => lowerCamel v.name) variants htags variant mem, require_some, ok_bind,
      ok_bind, adaptFields_tagged _ _ _ _ htype, ih hnamed value rfl]
    rfl
  | required field m hfield typed ih => exact (if_neg (Bool.eq_false_iff.mp hfield)).trans ih
  | absent field hfield => exact if_pos hfield
  | present field m hfield typed ih =>
    apply (if_pos hfield).trans
    cases m with
    | undefined => rfl
    | _ => exact ih
  | fields fields value typed elsewhere ih =>
    rintro hnames _ ⟨⟩
    apply (fill_eq_ok _ _ _ fields value hnames.2).mpr
    exact ⟨fun field hfield => (if_pos hfield).trans (ih field hfield), elsewhere⟩

theorem decode_encode_self (h : schema.Accepted) (type : TypeRef) (m : Model)
    (c : CborValue) (hm : Typed schema (.type type) m)
    (henc : encodeExpr schema m type = .ok c) :
    decodeExpr schema c type = .ok m := by
  have hadapts := decode_encode h ((Evolves.refl schema).compatible h) m type c henc
  rw [show adapt schema schema m type = .ok m from
    adapt_typed h (.type type) m hm] at hadapts
  exact eq_of_both hadapts

end TypeScript

end

end Rieul.Codegen
