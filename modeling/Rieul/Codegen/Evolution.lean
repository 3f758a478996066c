import Rieul.Codegen.Schema

/-!
# Schema evolution

A newer schema has all that an older one has: more fields, more variants, more declarations, under
ids of their own.
-/

namespace Rieul.Codegen
open Fallible Record

inductive Place where
  | type (type : TypeRef)
  | field (field : FieldDeclaration)
  | fields (fields : List FieldDeclaration)

def Shared (fields fields' : List FieldDeclaration) : Prop :=
  ∀ field ∈ fields, ∀ field' ∈ fields', field.id = field'.id → field = field'

def Declaration.Agrees : Declaration → Declaration → Prop
  | .struct _ _ fields, .struct _ _ fields' => Shared fields fields'
  | .enum _ _ variants, .enum _ _ variants' =>
    ∀ variant ∈ variants, ∀ variant' ∈ variants', variant.id = variant'.id ↔
      variant.name = variant'.name
  | .union _ _ variants, .union _ _ variants' =>
    ∀ variant ∈ variants, ∀ variant' ∈ variants',
      (variant.id = variant'.id ↔ variant.name = variant'.name) ∧
      (variant.id = variant'.id ↔ lowerCamel variant.name = lowerCamel variant'.name) ∧
      (variant.id = variant'.id → Shared variant.fields variant'.fields)
  | _, _ => False

def Compatible (source target : Schema) : Prop :=
  ∀ path declaration declaration', source.named path = some declaration →
    target.named path = some declaration' → declaration.Agrees declaration'

def Declaration.Extends : Declaration → Declaration → Prop
  | .struct _ _ fields, .struct _ _ fields' => fields ⊆ fields'
  | .enum _ _ variants, .enum _ _ variants' => variants ⊆ variants'
  | .union _ _ variants, .union _ _ variants' => ∀ variant ∈ variants, ∃ variant' ∈ variants',
      variant'.id = variant.id ∧ variant'.name = variant.name ∧ variant.fields ⊆ variant'.fields
  | _, _ => False

def Evolves (old new : Schema) : Prop :=
  ∀ path declaration, old.named path = some declaration →
    ∃ declaration', new.named path = some declaration' ∧ declaration.Extends declaration'

theorem Declaration.Agrees.symm {declaration declaration' : Declaration}
    (h : declaration.Agrees declaration') : declaration'.Agrees declaration := by
  cases declaration with
  | struct name typePath fields =>
    cases declaration' with
    | struct => exact fun f hf g hg hid => (h g hg f hf hid.symm).symm
    | enum | union => exact h
  | enum name typePath variants =>
    cases declaration' with
    | enum => exact fun v hv w hw => ⟨fun hid => ((h w hw v hv).mp hid.symm).symm,
        fun hname => ((h w hw v hv).mpr hname.symm).symm⟩
    | struct | union => exact h
  | union name typePath variants =>
    cases declaration' with
    | union =>
      intro v hv w hw
      obtain ⟨hname, htag, hfields⟩ := h w hw v hv
      refine ⟨⟨fun hid => (hname.mp hid.symm).symm, fun hn => (hname.mpr hn.symm).symm⟩,
        ⟨fun hid => (htag.mp hid.symm).symm, fun ht => (htag.mpr ht.symm).symm⟩, ?_⟩
      exact fun hid f hf g hg hfg => (hfields hid.symm g hg f hf hfg.symm).symm
    | struct | enum => exact h

theorem Declaration.Extends.agrees {schema : Schema} {declaration declaration' : Declaration}
    (h : declaration.Extends declaration') (hvalid : declaration'.Valid schema)
    (hdistinct : declaration'.Distinct) : declaration.Agrees declaration' := by
  cases declaration with
  | struct name typePath fields =>
    cases declaration' with
    | struct => exact fun f hf g hg hid => List.inj_on_of_nodup_map hvalid.1 (h hf) hg hid
    | enum | union => exact h
  | enum name typePath variants =>
    cases declaration' with
    | enum =>
      intro v hv w hw
      constructor
      · intro hid
        exact congrArg (·.name) (List.inj_on_of_nodup_map hvalid (h hv) hw hid)
      · intro hname
        exact congrArg (·.id) (List.inj_on_of_nodup_map hdistinct.2 (h hv) hw hname)
    | struct | union => exact h
  | union name typePath variants =>
    cases declaration' with
    | union name' typePath' variants' =>
      intro v hv w hw
      obtain ⟨v', hv', hid', hname', hfields⟩ := h v hv
      obtain ⟨hids, hidentified⟩ := hvalid
      obtain ⟨_, hnames, htags, _⟩ := hdistinct
      rw [← hid', ← hname']
      have hsame : v'.id = w.id → v' = w := fun hid => List.inj_on_of_nodup_map hids hv' hw hid
      refine ⟨⟨?_, ?_⟩, ⟨?_, ?_⟩, ?_⟩
      · exact fun hid => congrArg (·.name) (hsame hid)
      · exact fun hn => congrArg (·.id) (List.inj_on_of_nodup_map hnames hv' hw hn)
      · exact fun hid => congrArg (fun v => lowerCamel v.name) (hsame hid)
      · exact fun ht => congrArg (·.id) (List.inj_on_of_nodup_map htags hv' hw ht)
      · intro hid f hf g hg
        have hg' : g ∈ v'.fields := (hsame hid).symm ▸ hg
        exact fun hfg => List.inj_on_of_nodup_map (hidentified v' hv').1 (hfields hf) hg' hfg
    | struct | enum => exact h

theorem Evolves.compatible {old new : Schema} (h : Evolves old new) (hnew : new.Accepted) :
    Compatible old new := by
  intro path declaration declaration' hold hnamed
  obtain ⟨d, hd, hextends⟩ := h path declaration hold
  cases hd.symm.trans hnamed
  exact hextends.agrees (validateSchema_ok new hnew.valid path _ hnamed)
    (hnew.distinct _ (Schema.named_mem hnamed))

theorem Compatible.symm {source target : Schema} (h : Compatible source target) :
    Compatible target source :=
  fun path d d' hd hd' => (h path d' d hd' hd).symm

theorem Evolves.refl (schema : Schema) : Evolves schema schema := by
  intro path declaration h
  refine ⟨declaration, h, ?_⟩
  cases declaration with
  | struct | enum => exact List.Subset.refl _
  | union => exact fun v hv => ⟨v, hv, rfl, rfl, List.Subset.refl _⟩

end Rieul.Codegen
