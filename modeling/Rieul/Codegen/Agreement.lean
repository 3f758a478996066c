import Rieul.Codegen.RoundTrip

/-!
# Two generators of one language

Models that correspond are encoded to the same value, and what conforms to a type is decoded to
models that correspond.
-/

namespace Rieul.Codegen
open Fallible Record Bytes Rieul.Cbor
open Rieul.Web (CborValue Same asInteger IsSafeInteger)

def Tellable (fields : List FieldDeclaration) : Prop :=
  ∀ field ∈ fields, field.optional = true → field.type ≠ .void

def Schema.Tellable (schema : Schema) : Prop :=
  ∀ path declaration, schema.named path = some declaration →
    ∀ fields ∈ declaration.fieldLists, Codegen.Tellable fields

/-- No arm that encodes a variant reads a field that it has shadowed. -/
def Schema.Unshadowed (schema : Schema) : Prop :=
  ∀ path name typePath variants, schema.named path = some (.union name typePath variants) →
    ∀ variant ∈ variants, ∀ field ∈ variant.fields, Rust.shadowed field = false

section
variable {schema : Schema}

def EncodesSame (schema : Schema) : Place → Rust.Model → TypeScript.Model → Prop
  | .type type, m, t =>
    Both Same (Rust.encodeExpr schema m type) (TypeScript.encodeExpr schema t type)
  | .field field, m, t => (field.optional = true → field.type ≠ .void) → ∀ owner,
    Both (Option.Rel Same)
      (if field.optional then Rust.encodeSome schema m field.type
        else some <$> Rust.encodeExpr schema m field.type)
      (TypeScript.encodeField owner field t (TypeScript.encodeExpr schema t field.type))
  | .fields fields, m, t => (fields.map (·.id)).Nodup → Tellable fields →
    ∀ owner self value, m = .struct self → t = .object value →
      Both (fun es entries => Same (.map es) (.map entries))
        (Rust.insertFields (Rust.encodeField schema self) fields)
        (TypeScript.setFields (TypeScript.encodeProperty schema owner value) fields)

theorem corresponds_undefined {type : TypeRef} {m : Rust.Model}
    (h : Corresponds schema (.type type) m .undefined) : type = .void := by
  cases h with
  | void => rfl

theorem encodeField_defined (owner : String) (field : FieldDeclaration) (value : TypeScript.Model)
    (encoded : Except TypeScript.Failure CborValue) (h : field.type ≠ .void → value ≠ .undefined)
    (hoptional : field.optional = true → field.type ≠ .void) :
    TypeScript.encodeField owner field value encoded = some <$> encoded := by
  unfold TypeScript.encodeField
  by_cases hopt : field.optional = true
  · have hdefined := h (hoptional hopt)
    rw [if_pos hopt]
    cases value with
    | undefined => exact absurd rfl hdefined
    | _ => rfl
  · rw [if_neg hopt]
    by_cases hvoid : field.type = .void
    · rw [if_pos hvoid]
    · have hdefined := h hvoid
      rw [if_neg hvoid]
      cases value with
      | undefined => exact absurd rfl hdefined
      | _ => rfl

theorem encodes_fields (owner : String) (fields : List FieldDeclaration) (self : String → Rust.Model)
    (value : String → TypeScript.Model) (hids : (fields.map (·.id)).Nodup)
    (h : ∀ field ∈ fields, Both (Option.Rel Same) (Rust.encodeField schema self field)
      (TypeScript.encodeProperty schema owner value field)) :
    Both (fun es entries => Same (.map es) (.map entries))
      (Rust.insertFields (Rust.encodeField schema self) fields)
      (TypeScript.setFields (TypeScript.encodeProperty schema owner value) fields) := by
  have hsame : ∀ es entries, Rust.insertFields (Rust.encodeField schema self) fields = .ok es →
      TypeScript.setFields (TypeScript.encodeProperty schema owner value) fields = .ok entries →
      Same (.map es) (.map entries) := by
    intro es entries hes hentries
    obtain ⟨hfields, helse⟩ := Rust.insertFields_lookup _ fields es hids hes
    obtain ⟨hfields', helse'⟩ := TypeScript.setFields_lookup _ fields entries hids hentries
    obtain ⟨hkeys, hrange⟩ := TypeScript.setFields_keys _ fields entries hids hentries
    have hlookup : ∀ id : UInt64, Option.Rel Same (es.lookup id) (entries.lookup (id.toNat : ℤ)) := by
      intro id
      by_cases hid : ∃ field ∈ fields, Rust.u64Id field.id = id
      · obtain ⟨field, hfield, rfl⟩ := hid
        have hrel := (h field hfield).of_ok _ _ (hfields field hfield) (hfields' field hfield)
        rw [Rust.u64Id_toNat]
        exact hrel
      · have hnone := helse id fun field hfield heq => hid ⟨field, hfield, heq⟩
        have hnone' := helse' (id.toNat : ℤ) fun field hfield heq => hid ⟨field, hfield, by
          apply UInt64.toNat_inj.mp
          rw [Rust.u64Id_toNat]
          omega⟩
        rw [hnone, hnone']
        exact Option.Rel.none
    apply Same.map es entries (Rust.insertFields_nodup _ fields es hids hes) hkeys hrange
    · intro id
      have hrel := hlookup id
      cases hv : es.lookup id with
      | none =>
        rw [hv] at hrel
        cases hc : entries.lookup (id.toNat : ℤ) with
        | none => exact ⟨fun _ => rfl, fun _ => rfl⟩
        | some c =>
          rw [hc] at hrel
          cases hrel
      | some v =>
        rw [hv] at hrel
        cases hc : entries.lookup (id.toNat : ℤ) with
        | none =>
          rw [hc] at hrel
          cases hrel
        | some c => exact ⟨nofun, nofun⟩
    · intro id v c hv hc
      have hrel := hlookup id
      rw [hv, hc] at hrel
      cases hrel with
      | some hvc => exact hvc
  have hok : (∃ es, Rust.insertFields (Rust.encodeField schema self) fields = .ok es) ↔
      ∃ entries, TypeScript.setFields (TypeScript.encodeProperty schema owner value) fields =
        .ok entries := by
    unfold Rust.insertFields TypeScript.setFields
    rw [collect_isOk, collect_isOk]
    constructor
    · exact fun hall field hfield => (h field hfield).isOk.mp (hall field hfield)
    · exact fun hall field hfield => (h field hfield).isOk.mpr (hall field hfield)
  constructor
  · intro es hes
    obtain ⟨entries, hentries⟩ := hok.mp ⟨es, hes⟩
    exact ⟨entries, hentries, hsame es entries hes hentries⟩
  · intro entries hentries
    obtain ⟨es, hes⟩ := hok.mpr ⟨entries, hentries⟩
    exact ⟨es, hes, hsame es entries hes hentries⟩

theorem encodeProperty_tagged (owner tag : String) (fields : List FieldDeclaration)
    (value : String → TypeScript.Model) (h : "type" ∉ fields.map (·.name)) :
    TypeScript.setFields (TypeScript.encodeProperty schema owner (TypeScript.tagged tag value))
      fields = TypeScript.setFields (TypeScript.encodeProperty schema owner value) fields := by
  apply collect_congr
  intro field hfield
  have hname : field.name ≠ "type" := fun heq => h (heq ▸ List.mem_map_of_mem hfield)
  unfold TypeScript.encodeProperty TypeScript.tagged
  rw [if_neg hname]

theorem encodes_same (h : schema.Accepted) (htell : schema.Tellable)
    (hread : schema.Unshadowed) (place : Place) (m : Rust.Model) (t : TypeScript.Model)
    (hmt : Corresponds schema place m t) : EncodesSame schema place m t := by
  induction hmt with
  | void => exact both_ok _ _ .null
  | u53 n =>
    show Both Same (liftError _ (Rust.encodeU53 n)) (TypeScript.u53 n.toNat)
    have hiff : n ≤ Rust.maxU53 ↔ IsSafeInteger (n.toNat : ℤ) ∧ 0 ≤ (n.toNat : ℤ) := by
      rw [UInt64.le_iff_toNat_le]
      show n.toNat ≤ 9007199254740991 ↔ _
      unfold IsSafeInteger Web.maxSafeInteger
      omega
    unfold Rust.encodeU53 TypeScript.u53
    by_cases hn : n ≤ Rust.maxU53
    · rw [ensure_of _ _ hn, ensure_of _ _ (hiff.mp hn)]
      exact both_ok _ _ (.u64 n)
    · rw [ensure, ensure, if_neg hn, if_neg (mt hiff.mpr hn)]
      exact both_error _ _
  | i53 n =>
    show Both Same (liftError _ (Rust.encodeI53 n)) (TypeScript.i53 n.toInt)
    unfold Rust.encodeI53 TypeScript.i53
    by_cases hn : IsSafeInteger n.toInt
    · rw [ensure_of _ _ hn, ensure_of _ _ (show Rust.minI53 ≤ n.toInt ∧ n.toInt ≤ Rust.maxI53 from hn)]
      exact both_ok _ _ (.i64 n)
    · rw [ensure, ensure, if_neg hn, if_neg (show ¬ (Rust.minI53 ≤ n.toInt ∧ n.toInt ≤ Rust.maxI53) from hn)]
      exact both_error _ _
  | f64 bits =>
    show Both Same (liftError _ (Rust.encodeF64 bits)) (TypeScript.cborF64 bits)
    unfold Rust.encodeF64 TypeScript.cborF64
    by_cases hn : IsFinite bits
    · rw [ensure_of _ _ hn, ensure_of _ _ hn]
      exact both_ok _ _ (.f64 bits)
    · rw [ensure, ensure, if_neg hn, if_neg hn]
      exact both_error _ _
  | string t => exact both_ok _ _ (.text t)
  | bool b => exact both_ok _ _ (.bool b)
  | bytes b => exact both_ok _ _ (.bytes b)
  | nil item => exact both_ok _ _ .nil
  | cons item m t ms ts head tail ihHead ihTail =>
    have hrest : Both (fun vs cs => Same (.array vs) (.array cs)) (Rust.encodeArray schema ms item)
        (TypeScript.encodeItems schema ts item) := by
      have htail : Both Same (Rust.encodeExpr schema (.vec ms) (.array item))
          (TypeScript.encodeExpr schema (.array ts) (.array item)) := ihTail
      exact htail.of_bind
    show Both Same (Rust.encodeExpr schema (.vec (m :: ms)) (.array item)) _
    rw [Rust.encode_vec, TypeScript.encode_array, Rust.encodeArray, TypeScript.encodeItems]
    have hboth : Both (fun vs cs => Same (.array vs) (.array cs))
        (do
          let first ← Rust.encodeExpr schema m item
          let rest ← Rust.encodeArray schema ms item
          .ok (first :: rest))
        (do
          let first ← TypeScript.encodeExpr schema t item
          let rest ← TypeScript.encodeItems schema ts item
          .ok (first :: rest)) := by
      apply ihHead.bind
      intro v c _ _ hvc
      apply hrest.bind
      intro vs cs _ _ hvcs
      exact both_ok _ _ (.cons v c vs cs hvc hvcs)
    apply hboth.bind
    intro vs cs _ _ hvcs
    exact both_ok _ _ hvcs
  | enum path name typePath variants variant named mem =>
    have hnames := (h.distinct _ (Schema.named_mem named)).2
    show Both Same (Rust.encodeExpr schema (.enum variant.name) (.named path)) _
    rw [Rust.encode_enum schema named, find_self (·.name) variants hnames variant mem, require_some,
      TypeScript.encode_enum schema named,
      TypeScript.integer_safe _ (TypeScript.safe_id variant.id).1]
    have hsame := Same.u64 (Rust.u64Id variant.id)
    rw [Rust.u64Id_toNat] at hsame
    exact both_ok _ _ hsame
  | struct path name typePath fields self value named corresponds ih =>
    show Both Same (Rust.encodeExpr schema (.struct self) (.named path)) _
    rw [Rust.encode_struct schema named, TypeScript.encode_struct schema named]
    apply (ih (h.struct_fields named).1.1 (htell path _ named fields List.mem_cons_self) name self
      value rfl rfl).bind
    intro es entries _ _ hsame
    exact both_ok _ _ hsame
  | union path name typePath variants variant self value named mem corresponds ih =>
    obtain ⟨hidentified, _, htype⟩ := h.union_fields named mem
    obtain ⟨_, hnames, htags, _⟩ := h.distinct _ (Schema.named_mem named)
    have htell' := htell path _ named variant.fields (List.mem_map_of_mem mem)
    show Both Same (Rust.encodeExpr schema (.union variant.name self) (.named path)) _
    rw [Rust.encode_union schema named, find_self (·.name) variants hnames variant mem,
      TypeScript.encode_union schema named _ (lowerCamel variant.name) rfl,
      find_self (fun v => lowerCamel v.name) variants htags variant mem, require_some,
      require_some, ok_bind, ok_bind, encodeProperty_tagged _ _ _ _ htype,
      Rust.insertArms_eq schema self _ (hread path name typePath variants named variant mem)]
    apply (ih hidentified.1 htell' _ self value rfl rfl).bind
    intro es entries _ _ hsame
    have hid := Same.u64 (Rust.u64Id variant.id)
    rw [Rust.u64Id_toNat] at hid
    exact both_ok _ _ (.cons _ _ _ _ hid (.cons _ _ _ _ hsame .nil))
  | required field m t hfield corresponds ih =>
    intro hoptional owner
    rw [if_neg (Bool.eq_false_iff.mp hfield), encodeField_defined owner field t _ _ hoptional]
    · exact Both.map ih fun v c hvc => Option.Rel.some hvc
    · intro hvoid hundefined
      rw [hundefined] at corresponds
      exact hvoid (corresponds_undefined corresponds)
  | absent field hfield =>
    intro _ owner
    unfold TypeScript.encodeField
    rw [if_pos hfield, if_pos hfield]
    exact both_ok _ _ .none
  | present field m t hfield corresponds ih =>
    intro hoptional owner
    rw [if_pos hfield, encodeField_defined owner field t _ _ hoptional]
    · exact Both.map ih fun v c hvc => Option.Rel.some hvc
    · intro hvoid hundefined
      rw [hundefined] at corresponds
      exact hvoid (corresponds_undefined corresponds)
  | fields fields self value corresponds _ _ ih =>
    rintro hids htell owner _ _ ⟨⟩ ⟨⟩
    exact encodes_fields owner fields self value hids fun field hfield =>
      ih field hfield (htell field hfield) owner

theorem expectU64_of (v : Value) (n : ℤ) (h : asInteger v = some n) (hpos : 0 ≤ n) :
    Rust.expectU64 v = .ok (UInt64.ofNat n.toNat) := by
  cases v with
  | u64 m =>
    cases h
    rw [Int.toNat_natCast, UInt64.ofNat_toNat]
    rfl
  | i64 m =>
    cases h
    exact if_pos hpos
  | _ => cases h

theorem expectI64_of (v : Value) (n : ℤ) (h : asInteger v = some n) (hlow : -2 ^ 63 ≤ n)
    (hhigh : n < 2 ^ 63) : ∃ m : Int64, Rust.expectI64 v = .ok m ∧ m.toInt = n := by
  cases v with
  | u64 m =>
    cases h
    have hlt : m.toNat < 2 ^ 63 := by omega
    exact ⟨Int64.ofNat m.toNat, if_pos hlt, Int64.toInt_ofNat_of_lt hlt⟩
  | i64 m =>
    cases h
    exact ⟨m, rfl, rfl⟩
  | _ => cases h

theorem expectU64_id (v : Value) (id : Id) (h : asInteger v = some (id.val : ℤ)) :
    Rust.expectU64 v = .ok (Rust.u64Id id) := by
  rw [expectU64_of v _ h (Int.natCast_nonneg _), Int.toNat_natCast]
  rfl

def DecodesSame (schema : Schema) : Place → Value → Prop
  | .type type, v => ∀ c, Same v c → Both (Corresponds schema (.type type))
      (Rust.decodeExpr schema v type) (TypeScript.decodeExpr schema c type)
  | .field _, _ => True
  | .fields fields, v => Named fields → ∀ es entries, v = .map es → Same v (.map entries) →
      Both (fun self value => Corresponds schema (.fields fields) (.struct self) (.object value))
        (Rust.decodeFields schema (Rust.entryDecoders schema es) fields)
        (TypeScript.decodeFields schema (TypeScript.entryDecoders schema entries) fields)

theorem decodes_field (h : schema.Accepted) (es : Entries) (entries : List (ℤ × CborValue))
    (hsame : Same (.map es) (.map entries)) (field : FieldDeclaration)
    (ih : ∀ v, es.lookup (Rust.u64Id field.id) = some v → ∀ c, Same v c →
      Both (Corresponds schema (.type field.type)) (Rust.decodeExpr schema v field.type)
        (TypeScript.decodeExpr schema c field.type)) :
    Both (Corresponds schema (.field field))
      (Rust.decodeFieldExpr schema (Rust.entryDecoders schema es) field)
      (TypeScript.decodeFieldExpr schema (TypeScript.entryDecoders schema entries) field) := by
  cases hsame with
  | map es entries distinct distinct' keys present values =>
    have hpresent := present (Rust.u64Id field.id)
    have hvalues := values (Rust.u64Id field.id)
    rw [Rust.u64Id_toNat] at hpresent hvalues
    cases hv : es.lookup (Rust.u64Id field.id) with
    | none =>
      rw [Rust.decodeField_none schema hv, TypeScript.decodeField_none schema (hpresent.mp hv)]
      by_cases hopt : field.optional = true
      · rw [if_pos hopt, if_pos hopt]
        exact both_ok _ _ (.absent field hopt)
      · rw [if_neg hopt, if_neg hopt]
        exact (default_corresponds h _ field.type).imp fun m t hmt =>
          .required field m t (Bool.eq_false_iff.mpr hopt) hmt
    | some v =>
      cases hc : entries.lookup (field.id.val : ℤ) with
      | none =>
        rw [hpresent.mpr hc] at hv
        cases hv
      | some c =>
        have hboth := ih v hv c (hvalues v c hv hc)
        rw [Rust.decodeField_some schema hv, TypeScript.decodeField_some schema hc]
        by_cases hopt : field.optional = true
        · rw [if_pos hopt]
          constructor
          · intro m hm
            obtain ⟨inner, hinner, rfl⟩ := (map_eq_ok _ _ _).mp hm
            obtain ⟨t, ht, hmt⟩ := hboth.left inner hinner
            exact ⟨t, ht, .present field inner t hopt hmt⟩
          · intro t ht
            obtain ⟨inner, hinner, hmt⟩ := hboth.right t ht
            exact ⟨.some inner, (map_eq_ok _ _ _).mpr ⟨inner, hinner, rfl⟩,
              .present field inner t hopt hmt⟩
        · rw [if_neg hopt]
          exact hboth.imp fun m t hmt => .required field m t (Bool.eq_false_iff.mpr hopt) hmt

theorem decodes_same (h : schema.Accepted) (place : Place) (v : Value)
    (hv : Conforms schema place v) : DecodesSame schema place v := by
  induction hv with
  | void v => exact fun c _ => both_ok _ _ .void
  | u53 v n integer range =>
    intro c hsame
    have hc := (hsame.asInteger_iff n).mp integer
    have hsafe : IsSafeInteger n := by
      unfold IsSafeInteger Web.maxSafeInteger
      omega
    have hnat : ((UInt64.ofNat n.toNat).toNat : ℤ) = n := by
      rw [UInt64.toNat_ofNat', Nat.mod_eq_of_lt (by omega)]
      omega
    rw [hc, Rust.decode_primitive, TypeScript.decode_primitive, Rust.decodePrimitive,
      TypeScript.decodePrimitive, expectU64_of v n integer range.1, TypeScript.integer_safe n hsafe]
    apply both_ok
    have hcorresponds := @Corresponds.u53 schema (UInt64.ofNat n.toNat)
    rw [hnat] at hcorresponds
    exact hcorresponds
  | i53 v n integer range =>
    intro c hsame
    have hc := (hsame.asInteger_iff n).mp integer
    obtain ⟨m, hm, hint⟩ := expectI64_of v n integer (by omega) (by omega)
    rw [hc, Rust.decode_primitive, TypeScript.decode_primitive, Rust.decodePrimitive,
      TypeScript.decodePrimitive, hm, TypeScript.integer_safe n range]
    apply both_ok
    have hcorresponds := @Corresponds.i53 schema m
    rw [hint] at hcorresponds
    exact hcorresponds
  | f64 bits finite =>
    intro c hsame
    cases hsame
    exact both_ok _ _ (.f64 bits)
  | string t =>
    intro c hsame
    cases hsame
    exact both_ok _ _ (.string t)
  | bool b =>
    intro c hsame
    cases hsame
    exact both_ok _ _ (.bool b)
  | bytes b =>
    intro c hsame
    cases hsame
    exact both_ok _ _ (.bytes b)
  | nil item =>
    intro c hsame
    cases hsame
    exact both_ok _ _ (.nil item)
  | cons item v vs head tail ihHead ihTail =>
    intro c hsame
    cases hsame with
    | cons v c vs cs hvc hvcs =>
      have hrest : Both (fun ms ts => Corresponds schema (.type (.array item)) (.vec ms) (.array ts))
          (Rust.decodeArray (vs.map (Rust.decodeExpr schema)) item)
          (TypeScript.decodeItems (cs.map (TypeScript.decodeExpr schema)) item) := by
        have htail := ihTail _ hvcs
        rw [Rust.decode_array, TypeScript.decode_array] at htail
        exact htail.of_bind
      rw [Rust.decode_array, TypeScript.decode_array, List.map_cons, List.map_cons,
        Rust.decodeArray, TypeScript.decodeItems]
      have hboth : Both
          (fun ms ts => Corresponds schema (.type (.array item)) (.vec ms) (.array ts))
          (do
            let first ← Rust.decodeExpr schema v item
            let rest ← Rust.decodeArray (vs.map (Rust.decodeExpr schema)) item
            .ok (first :: rest))
          (do
            let first ← TypeScript.decodeExpr schema c item
            let rest ← TypeScript.decodeItems (cs.map (TypeScript.decodeExpr schema)) item
            .ok (first :: rest)) := by
        apply (ihHead c hvc).bind
        intro m t _ _ hmt
        apply hrest.bind
        intro ms ts _ _ hmts
        exact both_ok _ _ (.cons item m t ms ts hmt hmts)
      apply hboth.bind
      intro ms ts _ _ hmts
      exact both_ok _ _ hmts
  | enum path name typePath variants variant v named mem id =>
    intro c hsame
    have hc := (hsame.asInteger_iff _).mp id
    have hids : (variants.map (·.id)).Nodup := validateSchema_ok schema h.valid path _ named
    have hmem : (variant.id.val : ℤ) ∈ variants.map fun variant => (variant.id.val : ℤ) :=
      List.mem_map_of_mem (f := fun variant : EnumVariantDeclaration => (variant.id.val : ℤ)) mem
    have hfind : variants.find? (fun other => Rust.u64Id other.id = Rust.u64Id variant.id) =
        some variant := by
      apply find_self (fun other : EnumVariantDeclaration => Rust.u64Id other.id) variants _ variant mem
      have hmap := hids.map fun id id' hid => Rust.u64Id_inj id id' hid
      rw [List.map_map] at hmap
      exact hmap
    rw [hc, Rust.decode_enum schema named, TypeScript.decode_enum schema named,
      expectU64_id v variant.id id, TypeScript.integer_safe _ (TypeScript.safe_id variant.id).1,
      ok_bind, ensure_of _ _ hmem]
    show Both _ ((require _ (variants.find? fun other => Rust.u64Id other.id = Rust.u64Id variant.id))
      >>= _) _
    rw [hfind]
    exact both_ok _ _ (.enum path name typePath variants variant named mem)
  | struct path name typePath fields entries named conforms ih =>
    intro c hsame
    cases c with
    | map es =>
      rw [Rust.decode_struct schema named, TypeScript.decode_struct schema named]
      apply (ih (h.struct_fields named).2 entries es rfl hsame).bind
      intro self value _ _ hcorresponds
      exact both_ok _ _ (.struct path name typePath fields self value named hcorresponds)
    | _ => cases hsame
  | union path name typePath variants variant v entries named mem id conforms ih =>
    intro c hsame
    obtain ⟨_, hnames, htype⟩ := h.union_fields named mem
    have hids : (variants.map (·.id)).Nodup := (validateSchema_ok schema h.valid path _ named).1
    cases hsame with
    | cons v c vs cs hvc hvcs =>
      cases hvcs with
      | cons _ c' _ cs' hmap hnil =>
        cases hnil
        cases c' with
        | map es =>
          have hc := (hvc.asInteger_iff _).mp id
          have hfind : variants.find? (fun other => Rust.u64Id other.id = Rust.u64Id variant.id) =
              some variant := by
            apply find_self (fun other : UnionVariantDeclaration => Rust.u64Id other.id) variants _
              variant mem
            have hmap := hids.map fun id id' hid => Rust.u64Id_inj id id' hid
            rw [List.map_map] at hmap
            exact hmap
          have hfind' : variants.find? (fun other => (other.id.val : ℤ) = variant.id.val) =
              some variant := by
            apply find_self (fun other : UnionVariantDeclaration => (other.id.val : ℤ)) variants _
              variant mem
            have hmap := hids.map fun id id' hid => TypeScript.key_inj id id' hid
            rw [List.map_map] at hmap
            exact hmap
          rw [hc, Rust.decode_union schema named (expectU64_id v variant.id id),
            TypeScript.decode_union schema named _ (TypeScript.safe_id variant.id).1, hfind, hfind',
            require_some, require_some, ok_bind, ok_bind]
          apply (ih hnames entries es rfl hmap).bind
          intro self value _ _ hcorresponds
          exact both_ok _ _
            (.union path name typePath variants variant self value named mem hcorresponds)
        | _ => cases hmap
  | fields fields entries conforms ih =>
    rintro hnames _ es ⟨⟩ hsame
    have hone : ∀ field ∈ fields, Both (Corresponds schema (.field field))
        (Rust.decodeFieldExpr schema (Rust.entryDecoders schema entries) field)
        (TypeScript.decodeFieldExpr schema (TypeScript.entryDecoders schema es) field) :=
      fun field hfield => decodes_field h entries es hsame field (ih field hfield)
    exact (both_fill fields _ _ hnames.1 hnames.2 hone).imp fun self value hrecord =>
      .fields fields self value hrecord.1 hrecord.2.1 hrecord.2.2

def EncodesConforming (schema : Schema) : Place → TypeScript.Model → Prop
  | .type type, t => ∀ c v, TypeScript.encodeExpr schema t type = .ok c → Same v c →
    Conforms schema (.type type) v
  | .field field, t => ∀ owner c v,
    TypeScript.encodeField owner field t (TypeScript.encodeExpr schema t field.type) = .ok (some c) →
      Same v c → Conforms schema (.type field.type) v
  | .fields fields, t => (fields.map (·.id)).Nodup → ∀ owner value es entries, t = .object value →
    TypeScript.setFields (TypeScript.encodeProperty schema owner value) fields = .ok entries →
      Same (.map es) (.map entries) → Conforms schema (.fields fields) (.map es)

theorem encodes_conforming_field (field : FieldDeclaration) (t : TypeScript.Model)
    (ih : ∀ c v, TypeScript.encodeExpr schema t field.type = .ok c → Same v c →
      Conforms schema (.type field.type) v) : EncodesConforming schema (.field field) t := by
  intro owner c v henc hsame
  rcases TypeScript.encodeField_eq_ok owner field t _ _ henc with ⟨_, _, hnone⟩ | ⟨_, c', hc', heq⟩
  · cases hnone
  · cases heq
    exact ih c v hc' hsame

theorem encodes_conforming (h : schema.Accepted) (place : Place) (m : Rust.Model)
    (t : TypeScript.Model) (hmt : Corresponds schema place m t) :
    EncodesConforming schema place t := by
  induction hmt with
  | void => exact fun c v _ _ => .void v
  | u53 n =>
    intro c v henc hsame
    obtain ⟨hrange, hc⟩ := (bind_unit_eq_ok _ _ _).mp henc
    cases hc
    have hsafe := (ensure_eq_ok _ _ _).mp hrange
    exact .u53 v _ ((hsame.asInteger_iff _).mpr rfl) ⟨hsafe.2, hsafe.1.2⟩
  | i53 n =>
    intro c v henc hsame
    obtain ⟨hrange, hc⟩ := (bind_unit_eq_ok _ _ _).mp henc
    cases hc
    exact .i53 v _ ((hsame.asInteger_iff _).mpr rfl) ((ensure_eq_ok _ _ _).mp hrange)
  | f64 bits =>
    intro c v henc hsame
    obtain ⟨hfinite, hc⟩ := (bind_unit_eq_ok _ _ _).mp henc
    cases hc
    cases hsame
    exact .f64 bits ((ensure_eq_ok _ _ _).mp hfinite)
  | string t =>
    intro c v henc hsame
    cases henc
    cases hsame
    exact .string t
  | bool b =>
    intro c v henc hsame
    cases henc
    cases hsame
    exact .bool b
  | bytes b =>
    intro c v henc hsame
    cases henc
    cases hsame
    exact .bytes b
  | nil item =>
    intro c v henc hsame
    cases henc
    cases hsame
    exact .nil item
  | cons item m t ms ts head tail ihHead ihTail =>
    intro c v henc hsame
    obtain ⟨cs, hcs, henc⟩ := (bind_eq_ok _ _ _).mp henc
    cases henc
    obtain ⟨first, hfirst, hcs⟩ := (bind_eq_ok _ _ _).mp hcs
    obtain ⟨rest, hrest, hcs⟩ := (bind_eq_ok _ _ _).mp hcs
    cases hcs
    have htail : TypeScript.encodeExpr schema (.array ts) (.array item) = .ok (.array rest) := by
      rw [TypeScript.encode_array, hrest]
      rfl
    cases hsame with
    | cons v _ vs _ hvc hvcs =>
      exact .cons item v vs (ihHead first v hfirst hvc) (ihTail _ _ htail hvcs)
  | enum path name typePath variants variant named mem =>
    intro c v henc hsame
    rw [TypeScript.encode_enum schema named,
      TypeScript.integer_safe _ (TypeScript.safe_id variant.id).1] at henc
    cases henc
    exact .enum path name typePath variants variant v named mem ((hsame.asInteger_iff _).mpr rfl)
  | struct path name typePath fields self value named corresponds ih =>
    intro c v henc hsame
    rw [TypeScript.encode_struct schema named] at henc
    obtain ⟨entries, hentries, henc⟩ := (bind_eq_ok _ _ _).mp henc
    cases henc
    cases v with
    | map es =>
      exact .struct path name typePath fields es named
        (ih (h.struct_fields named).1.1 name value es entries rfl hentries hsame)
    | _ => cases hsame
  | union path name typePath variants variant self value named mem corresponds ih =>
    intro c v henc hsame
    obtain ⟨hidentified, _, htype⟩ := h.union_fields named mem
    obtain ⟨_, _, htags, _⟩ := h.distinct _ (Schema.named_mem named)
    rw [TypeScript.encode_union schema named _ (lowerCamel variant.name) rfl,
      find_self (fun v => lowerCamel v.name) variants htags variant mem, require_some, ok_bind,
      encodeProperty_tagged _ _ _ _ htype] at henc
    obtain ⟨entries, hentries, henc⟩ := (bind_eq_ok _ _ _).mp henc
    cases henc
    cases hsame with
    | cons v _ vs _ hvc hvcs =>
      cases hvcs with
      | cons v' _ vs' _ hmap hnil =>
        cases hnil
        cases v' with
        | map es =>
          exact .union path name typePath variants variant v es named mem
            ((hvc.asInteger_iff _).mpr rfl)
            (ih hidentified.1 _ value es entries rfl hentries hmap)
        | _ => cases hmap
  | required field m t hfield corresponds ih | present field m t hfield corresponds ih =>
    exact encodes_conforming_field field t ih
  | absent field hfield =>
    intro owner c v henc hsame
    unfold TypeScript.encodeField at henc
    rw [if_pos hfield] at henc
    cases henc
  | fields fields self value corresponds _ _ ih =>
    rintro hids owner _ es entries ⟨⟩ hentries hsame
    obtain ⟨hfields, _⟩ := TypeScript.setFields_lookup _ fields entries hids hentries
    apply Conforms.fields fields es
    intro field hfield v hv
    cases hsame with
    | map es entries distinct distinct' keys present values =>
      have hpresent := present (Rust.u64Id field.id)
      have hvalues := values (Rust.u64Id field.id)
      rw [Rust.u64Id_toNat] at hpresent hvalues
      cases hc : entries.lookup (field.id.val : ℤ) with
      | none =>
        rw [hpresent.mpr hc] at hv
        cases hv
      | some c =>
        have henc := hfields field hfield
        rw [hc] at henc
        exact ih field hfield owner c v henc (hvalues v c hv hc)

def OneCounterpart (schema : Schema) : Place → Rust.Model → TypeScript.Model → Prop
  | .type type, m, t => (∀ t', Corresponds schema (.type type) m t' → t' = t) ∧
      ∀ m', Corresponds schema (.type type) m' t → m' = m
  | .field field, m, t => (field.optional = true → field.type ≠ .void) →
      (∀ t', Corresponds schema (.field field) m t' → t' = t) ∧
      ∀ m', Corresponds schema (.field field) m' t → m' = m
  | .fields fields, m, t => Named fields → Tellable fields →
      (∀ t', Corresponds schema (.fields fields) m t' → t' = t) ∧
      ∀ m', Corresponds schema (.fields fields) m' t → m' = m

theorem eq_of_elsewhere {κ μ φ : Type} [DecidableEq κ] {key : φ → κ} {fs : List φ} {absent : μ}
    {r r' : κ → μ} (h : ∀ f ∈ fs, r (key f) = r' (key f)) (helse : Elsewhere key fs absent r)
    (helse' : Elsewhere key fs absent r') : r = r' := by
  funext k
  by_cases hk : k ∈ fs.map key
  · obtain ⟨f, hf, rfl⟩ := List.mem_map.mp hk
    exact h f hf
  · rw [helse k hk, helse' k hk]

theorem tagged_inj {tag tag' : String} {value value' : String → TypeScript.Model}
    (h : TypeScript.tagged tag value = TypeScript.tagged tag' value')
    (htype : value "type" = value' "type") : tag = tag' ∧ value = value' := by
  constructor
  · exact TypeScript.Model.string.inj (congrFun h "type")
  · funext name
    by_cases hname : name = "type"
    · rw [hname, htype]
    · have heq := congrFun h name
      unfold TypeScript.tagged at heq
      rw [if_neg hname, if_neg hname] at heq
      exact heq

theorem corresponds_required {field : FieldDeclaration} {m : Rust.Model} {t : TypeScript.Model}
    (hfield : field.optional = false) (h : Corresponds schema (.field field) m t) :
    Corresponds schema (.type field.type) m t := by
  cases h with
  | required _ _ _ _ hmt => exact hmt
  | absent _ hopt | present _ _ _ hopt =>
    rw [hfield] at hopt
    cases hopt

theorem corresponds_optional {field : FieldDeclaration} {m : Rust.Model} {t : TypeScript.Model}
    (hfield : field.optional = true) (h : Corresponds schema (.field field) m t) :
    (m = .none ∧ t = .undefined) ∨
      ∃ inner, m = .some inner ∧ Corresponds schema (.type field.type) inner t := by
  cases h with
  | required _ _ _ hreq =>
    rw [hfield] at hreq
    cases hreq
  | absent => exact Or.inl ⟨rfl, rfl⟩
  | present _ inner _ _ hmt => exact Or.inr ⟨inner, rfl, hmt⟩

theorem one_counterpart (h : schema.Accepted) (htell : schema.Tellable) (place : Place)
    (m : Rust.Model) (t : TypeScript.Model) (hmt : Corresponds schema place m t) :
    OneCounterpart schema place m t := by
  induction hmt with
  | void | f64 | string | bool | bytes | nil =>
    constructor
    · intro t' ht'
      cases ht'
      rfl
    · intro m' hm'
      cases hm'
      rfl
  | u53 n =>
    constructor
    · intro t' ht'
      cases ht'
      rfl
    · intro m' hm'
      generalize ht : TypeScript.Model.number (n.toNat : ℤ) = t at hm'
      cases hm' with
      | u53 n' =>
        have heq : n.toNat = n'.toNat := Int.ofNat.inj (TypeScript.Model.number.inj ht)
        rw [UInt64.toNat_inj.mp heq]
  | i53 n =>
    constructor
    · intro t' ht'
      cases ht'
      rfl
    · intro m' hm'
      generalize ht : TypeScript.Model.number n.toInt = t at hm'
      cases hm' with
      | i53 n' => rw [Int64.toInt_inj.mp (TypeScript.Model.number.inj ht)]
  | cons item m t ms ts head tail ihHead ihTail =>
    constructor
    · intro t' ht'
      cases ht' with
      | cons _ _ t' _ ts' head' tail' =>
        rw [ihHead.1 t' head', TypeScript.Model.array.inj (ihTail.1 _ tail')]
    · intro m' hm'
      cases hm' with
      | cons _ m' _ ms' _ head' tail' =>
        rw [ihHead.2 m' head', Rust.Model.vec.inj (ihTail.2 _ tail')]
  | enum path name typePath variants variant named mem =>
    have hids : (variants.map (·.id)).Nodup := validateSchema_ok schema h.valid path _ named
    have hnames := (h.distinct _ (Schema.named_mem named)).2
    constructor
    · intro t' ht'
      generalize hm : Rust.Model.enum variant.name = m at ht'
      cases ht' with
      | enum _ _ _ _ variant' named' mem' =>
        cases named.symm.trans named'
        rw [List.inj_on_of_nodup_map hnames mem mem' (Rust.Model.enum.inj hm)]
      | _ => cases hm
    · intro m' hm'
      generalize ht : TypeScript.Model.number (variant.id.val : ℤ) = t at hm'
      cases hm' with
      | enum _ _ _ _ variant' named' mem' =>
        cases named.symm.trans named'
        have hid := TypeScript.key_inj _ _ (TypeScript.Model.number.inj ht)
        rw [List.inj_on_of_nodup_map hids mem mem' hid]
      | _ => cases ht
  | struct path name typePath fields self value named corresponds ih =>
    obtain ⟨hleft, hright⟩ := ih (h.struct_fields named).2
      (htell path _ named fields List.mem_cons_self)
    constructor
    · intro t' ht'
      cases ht' with
      | struct _ _ _ _ _ value' named' corresponds' =>
        cases named.symm.trans named'
        exact hleft _ corresponds'
    · intro m' hm'
      cases hm' with
      | struct _ _ _ _ self' _ named' corresponds' =>
        cases named.symm.trans named'
        exact hright _ corresponds'
      | union _ _ _ _ _ _ _ named' => cases named.symm.trans named'
  | union path name typePath variants variant self value named mem corresponds ih =>
    obtain ⟨_, hnamed, htype⟩ := h.union_fields named mem
    obtain ⟨_, hnames, htags, _⟩ := h.distinct _ (Schema.named_mem named)
    obtain ⟨hleft, hright⟩ := ih hnamed (htell path _ named _ (List.mem_map_of_mem mem))
    constructor
    · intro t' ht'
      generalize hm : Rust.Model.union variant.name self = m at ht'
      cases ht' with
      | union _ _ _ _ variant' self' value' named' mem' corresponds' =>
        cases named.symm.trans named'
        obtain ⟨hname, hself⟩ := Rust.Model.union.inj hm
        cases List.inj_on_of_nodup_map hnames mem mem' hname
        cases hself
        rw [TypeScript.Model.object.inj (hleft _ corresponds')]
      | _ => cases hm
    · intro m' hm'
      generalize ht : TypeScript.Model.object
        (TypeScript.tagged (lowerCamel variant.name) value) = t at hm'
      cases hm' with
      | union _ _ _ _ variant' self' value' named' mem' corresponds' =>
        cases named.symm.trans named'
        have htype' := (h.union_fields named mem').2.2
        have habsent : value "type" = value' "type" := by
          cases corresponds with
          | fields _ _ _ _ _ elsewhere =>
            cases corresponds' with
            | fields _ _ _ _ _ elsewhere' => rw [elsewhere _ htype, elsewhere' _ htype']
        obtain ⟨htag, hvalue⟩ := tagged_inj (TypeScript.Model.object.inj ht) habsent
        cases List.inj_on_of_nodup_map htags mem mem' htag
        cases hvalue
        rw [Rust.Model.struct.inj (hright _ corresponds')]
      | struct _ _ _ _ _ _ named' => cases named.symm.trans named'
      | _ => cases ht
  | required field m t hfield corresponds ih =>
    intro _
    exact ⟨fun t' ht' => ih.1 t' (corresponds_required hfield ht'),
      fun m' hm' => ih.2 m' (corresponds_required hfield hm')⟩
  | absent field hfield =>
    intro hvoid
    constructor
    · intro t' ht'
      rcases corresponds_optional hfield ht' with ⟨_, ht⟩ | ⟨inner, hm, _⟩
      · exact ht
      · cases hm
    · intro m' hm'
      rcases corresponds_optional hfield hm' with ⟨hm, _⟩ | ⟨inner, _, hinner⟩
      · exact hm
      · exact absurd (corresponds_undefined hinner) (hvoid hfield)
  | present field m t hfield corresponds ih =>
    intro hvoid
    constructor
    · intro t' ht'
      rcases corresponds_optional hfield ht' with ⟨hm, _⟩ | ⟨inner, hm, hinner⟩
      · cases hm
      · cases hm
        exact ih.1 t' hinner
    · intro m' hm'
      rcases corresponds_optional hfield hm' with ⟨_, ht⟩ | ⟨inner, hm, hinner⟩
      · rw [ht] at corresponds
        exact absurd (corresponds_undefined corresponds) (hvoid hfield)
      · rw [hm, ih.2 inner hinner]
  | fields fields self value corresponds elsewhere elsewhere' ih =>
    intro hnamed htell
    constructor
    · intro t' ht'
      cases ht' with
      | fields _ _ value' corresponds' _ elsewhere₂ =>
        have heq : ∀ field ∈ fields, value' field.name = value field.name := fun field hfield =>
          (ih field hfield (htell field hfield)).1 _ (corresponds' field hfield)
        rw [eq_of_elsewhere heq elsewhere₂ elsewhere']
    · intro m' hm'
      cases hm' with
      | fields _ self' _ corresponds' elsewhere₁ _ =>
        have heq : ∀ field ∈ fields, self' (fieldName field.name) = self (fieldName field.name) :=
          fun field hfield => (ih field hfield (htell field hfield)).2 _ (corresponds' field hfield)
        rw [eq_of_elsewhere heq elsewhere₁ elsewhere]

end

/-- What both generators promise about a type: either language reads back what it wrote, models that
correspond have one encoding that is read as either of them, and what is missing has one default. -/
structure OneLanguage (schema : Schema) (type : TypeRef) : Prop where
  rust : ∀ m v, Rust.Typed schema (.type type) m → Rust.encodeExpr schema m type = .ok v →
    Rust.decodeExpr schema v type = .ok m
  typeScript : ∀ t c, TypeScript.Typed schema (.type type) t →
    TypeScript.encodeExpr schema t type = .ok c → TypeScript.decodeExpr schema c type = .ok t
  encode : ∀ m t, Corresponds schema (.type type) m t →
    Both (fun v c => Same v c ∧ c.node = v.normal ∧
      (∀ c', Same v c' → TypeScript.decodeExpr schema c' type = .ok t) ∧
      ∀ v', Same v' c → Rust.decodeExpr schema v' type = .ok m)
      (Rust.encodeExpr schema m type) (TypeScript.encodeExpr schema t type)
  decode : ∀ v c, Conforms schema (.type type) v → Same v c →
    Both (Corresponds schema (.type type)) (Rust.decodeExpr schema v type)
      (TypeScript.decodeExpr schema c type)
  default : ∃ m t, Rust.default schema type = .ok m ∧ TypeScript.default schema type = .ok t ∧
    Corresponds schema (.type type) m t

theorem one_language {schema : Schema} (h : schema.Accepted) (htell : schema.Tellable)
    (hread : schema.Unshadowed) (type : TypeRef) (hknown : type.Known schema) : OneLanguage schema type := by
  refine ⟨fun m v => Rust.decode_encode_self h type m v,
    fun t c => TypeScript.decode_encode_self h type t c, ?_,
    fun v c hv => decodes_same h (.type type) v hv c, default_isOk h type hknown⟩
  intro m t hmt
  have hboth : Both Same (Rust.encodeExpr schema m type) (TypeScript.encodeExpr schema t type) :=
    encodes_same h htell hread (.type type) m t hmt
  obtain ⟨hm, ht⟩ := corresponds_typed (.type type) m t hmt
  obtain ⟨hleft, hright⟩ : (∀ t', Corresponds schema (.type type) m t' → t' = t) ∧
      ∀ m', Corresponds schema (.type type) m' t → m' = m :=
    one_counterpart h htell (.type type) m t hmt
  have hall : ∀ v c, Rust.encodeExpr schema m type = .ok v →
      TypeScript.encodeExpr schema t type = .ok c → Same v c →
        Same v c ∧ c.node = v.normal ∧
          (∀ c', Same v c' → TypeScript.decodeExpr schema c' type = .ok t) ∧
          ∀ v', Same v' c → Rust.decodeExpr schema v' type = .ok m := by
    intro v c hv hc hsame
    have hconforms : ∀ v', Same v' c → Conforms schema (.type type) v' := fun v' hv' =>
      encodes_conforming h (.type type) m t hmt c v' hc hv'
    refine ⟨hsame, hsame.node, ?_, ?_⟩
    · intro c' hc'
      obtain ⟨t', ht', hcorresponds⟩ :=
        (decodes_same h (.type type) v (hconforms v hsame) c' hc').left m
          (Rust.decode_encode_self h type m v hm hv)
      rw [ht', hleft t' hcorresponds]
    · intro v' hv'
      obtain ⟨m', hm', hcorresponds⟩ :=
        (decodes_same h (.type type) v' (hconforms v' hv') c hv').right t
          (TypeScript.decode_encode_self h type t c ht hc)
      rw [hm', hright m' hcorresponds]
  constructor
  · intro v hv
    obtain ⟨c, hc, hsame⟩ := hboth.left v hv
    exact ⟨c, hc, hall v c hv hc hsame⟩
  · intro c hc
    obtain ⟨v, hv, hsame⟩ := hboth.right c hc
    exact ⟨v, hv, hall v c hv hc hsame⟩

section
variable {schema : Schema}

theorem defaultFields_encode (owner : String) (fields : List FieldDeclaration)
    (value : String → TypeScript.Model) (hnames : (fields.map (·.name)).Nodup)
    (default : FieldDeclaration → Except TypeScript.Failure TypeScript.Model)
    (hvalue : fill (fun field => field.name) .undefined (fun field : FieldDeclaration =>
      if field.optional then .ok .undefined else default field) fields = .ok value)
    (ih : ∀ field ∈ fields, ∀ t, default field = .ok t →
      (∃ c, TypeScript.encodeExpr schema t field.type = .ok c) ∧
        (field.type ≠ .void → t ≠ .undefined)) :
    ∃ entries, TypeScript.setFields (TypeScript.encodeProperty schema owner value) fields =
      .ok entries := by
  apply (collect_isOk fields []).mpr
  intro field hfield
  have hone := ((fill_eq_ok _ _ _ fields value hnames).mp hvalue).1 field hfield
  unfold TypeScript.encodeProperty
  by_cases hopt : field.optional = true
  · rw [if_pos hopt] at hone
    unfold TypeScript.encodeField
    rw [if_pos hopt, ← Except.ok.inj hone]
    exact ⟨none, rfl⟩
  · rw [if_neg hopt] at hone
    obtain ⟨⟨c, hc⟩, hdefined⟩ := ih field hfield _ hone
    rw [encodeField_defined owner field _ _ hdefined fun h => absurd h hopt, hc]
    exact ⟨some c, rfl⟩

theorem default_encode (h : schema.Accepted) (stack : ℕ) (type : TypeRef) (t : TypeScript.Model)
    (ht : TypeScript.defaultExpr schema stack type = .ok t) :
    (∃ c, TypeScript.encodeExpr schema t type = .ok c) ∧ (type ≠ .void → t ≠ .undefined) := by
  induction stack generalizing type t with
  | zero => cases ht
  | succ stack ih =>
    cases type with
    | void =>
      cases ht
      exact ⟨⟨.null, rfl⟩, fun hvoid => absurd rfl hvoid⟩
    | array item =>
      cases ht
      exact ⟨⟨.array [], rfl⟩, fun _ => by simp⟩
    | primitive name =>
      cases ht
      have hne : .primitive name ≠ TypeRef.void →
          TypeScript.defaultPrimitive name ≠ .undefined := by
        cases name <;> simp [TypeScript.defaultPrimitive]
      cases name with
      | u53 | i53 => exact ⟨⟨.number 0, rfl⟩, hne⟩
      | f64 => exact ⟨⟨.f64 0, rfl⟩, hne⟩
      | string => exact ⟨⟨.string "", rfl⟩, hne⟩
      | bool => exact ⟨⟨.boolean false, rfl⟩, hne⟩
      | bytes => exact ⟨⟨.bytes [], rfl⟩, hne⟩
    | named path =>
      unfold TypeScript.defaultExpr at ht
      cases hnamed : schema.named path with
      | none =>
        rw [hnamed] at ht
        cases ht
      | some declaration =>
        rw [hnamed] at ht
        cases declaration with
        | struct name typePath fields =>
          obtain ⟨value, hvalue, ht⟩ := (bind_eq_ok _ _ _).mp ht
          cases ht
          obtain ⟨entries, hentries⟩ := defaultFields_encode name fields value
            (h.struct_fields hnamed).2.2 _ hvalue fun field _ t ht => ih field.type t ht
          rw [TypeScript.encode_struct schema hnamed, hentries]
          exact ⟨⟨_, rfl⟩, fun _ => by simp⟩
        | enum name typePath variants =>
          cases variants with
          | nil => cases ht
          | cons variant variants =>
            cases ht
            rw [TypeScript.encode_enum schema hnamed,
              TypeScript.integer_safe _ (TypeScript.safe_id variant.id).1]
            exact ⟨⟨_, rfl⟩, fun _ => by simp⟩
        | union name typePath variants =>
          cases variants with
          | nil => cases ht
          | cons variant variants =>
            obtain ⟨value, hvalue, ht⟩ := (bind_eq_ok _ _ _).mp ht
            cases ht
            obtain ⟨_, hnames, htype⟩ := h.union_fields hnamed List.mem_cons_self
            have htags := (h.distinct _ (Schema.named_mem hnamed)).2.2.1
            obtain ⟨entries, hentries⟩ := defaultFields_encode s!"{name}.{variant.name}"
              variant.fields value hnames.2 _ hvalue fun field _ t ht => ih field.type t ht
            rw [TypeScript.encode_union schema hnamed _ (lowerCamel variant.name) rfl,
              find_self (fun v => lowerCamel v.name) (variant :: variants) htags variant
                List.mem_cons_self, require_some, ok_bind, encodeProperty_tagged _ _ _ _ htype,
              hentries]
            exact ⟨⟨_, rfl⟩, fun _ => by simp⟩

theorem default_record (h : schema.Accepted) (fields : List FieldDeclaration)
    (hidentified : Identified schema fields) (hnames : Named fields) :
    ∃ self value, Corresponds schema (.fields fields) (.struct self) (.object value) ∧
      (∀ field ∈ fields, field.optional = true → value field.name = .undefined) ∧
      ∀ owner, ∃ entries, TypeScript.setFields (TypeScript.encodeProperty schema owner value)
        fields = .ok entries := by
  have hone : ∀ field ∈ fields, Both (Corresponds schema (.field field))
      (if field.optional then .ok .none else Rust.default schema field.type)
      (if field.optional then .ok .undefined else TypeScript.default schema field.type) := by
    intro field _
    by_cases hopt : field.optional = true
    · rw [if_pos hopt, if_pos hopt]
      exact both_ok _ _ (.absent field hopt)
    · rw [if_neg hopt, if_neg hopt]
      exact (default_corresponds h _ field.type).imp fun m t hmt =>
        .required field m t (Bool.eq_false_iff.mpr hopt) hmt
  have hboth := both_fill fields Rust.Model.unit TypeScript.Model.undefined hnames.1 hnames.2 hone
  obtain ⟨self, hself⟩ : ∃ self, fill (fun field => fieldName field.name) .unit
      (fun field : FieldDeclaration =>
        if field.optional then .ok .none else Rust.default schema field.type) fields = .ok self := by
    apply (fill_isOk _ _ _ fields).mpr
    intro field hfield
    split
    · exact ⟨_, rfl⟩
    · obtain ⟨m, _, hm, _⟩ := default_isOk h field.type (hidentified.2 field hfield)
      exact ⟨m, hm⟩
  obtain ⟨value, hvalue, hrecord, helse, helse'⟩ := hboth.left self hself
  refine ⟨self, value, .fields fields self value hrecord helse helse', ?_, ?_⟩
  · intro field hfield hopt
    have hone := ((fill_eq_ok _ _ _ fields value hnames.2).mp hvalue).1 field hfield
    rw [if_pos hopt] at hone
    exact (Except.ok.inj hone).symm
  · exact fun owner => defaultFields_encode owner fields value hnames.2 _ hvalue
      fun field _ t ht => default_encode h _ field.type t ht

def withUnit (self : String → Rust.Model) (field : FieldDeclaration) : String → Rust.Model :=
  fun name => if name = fieldName field.name then .some .unit else self name

theorem withUnit_self (self : String → Rust.Model) (field : FieldDeclaration) :
    withUnit self field (fieldName field.name) = .some .unit :=
  if_pos rfl

theorem withUnit_of_ne (self : String → Rust.Model) (field : FieldDeclaration) (name : String)
    (h : name ≠ fieldName field.name) : withUnit self field name = self name :=
  if_neg h

theorem withUnit_corresponds (fields : List FieldDeclaration) (hnames : Named fields)
    (self : String → Rust.Model) (value : String → TypeScript.Model) (field : FieldDeclaration)
    (hfield : field ∈ fields) (hopt : field.optional = true) (hvoid : field.type = .void)
    (hundefined : value field.name = .undefined)
    (h : Corresponds schema (.fields fields) (.struct self) (.object value)) :
    Corresponds schema (.fields fields) (.struct (withUnit self field)) (.object value) := by
  cases h with
  | fields _ _ _ corresponds elsewhere elsewhere' =>
    apply Corresponds.fields fields (withUnit self field) value _ _ elsewhere'
    · intro other hother
      by_cases heq : fieldName other.name = fieldName field.name
      · have hsame : other = field := List.inj_on_of_nodup_map hnames.1 hother hfield heq
        rw [hsame, withUnit_self, hundefined]
        apply Corresponds.present field _ _ hopt
        rw [hvoid]
        exact .void
      · rw [withUnit_of_ne self field _ heq]
        exact corresponds other hother
    · intro name hname
      have hne : name ≠ fieldName field.name := by
        intro heq
        rw [heq] at hname
        exact hname (List.mem_map.mpr ⟨field, hfield, rfl⟩)
      rw [withUnit_of_ne self field name hne]
      exact elsewhere name hname

theorem void_lost (h : schema.Accepted) (fields : List FieldDeclaration)
    (hidentified : Identified schema fields) (hnames : Named fields) (field : FieldDeclaration)
    (hfield : field ∈ fields) (hopt : field.optional = true) (hvoid : field.type = .void) :
    ∃ self value, Corresponds schema (.fields fields) (.struct self) (.object value) ∧
      ∀ owner, ∃ entries,
        TypeScript.setFields (TypeScript.encodeProperty schema owner value) fields = .ok entries ∧
          ∀ es, Rust.insertFields (Rust.encodeField schema self) fields = .ok es →
            ¬ Same (.map es) (.map entries) := by
  obtain ⟨self, value, hcorresponds, hundefined, hencode⟩ :=
    default_record h fields hidentified hnames
  refine ⟨withUnit self field, value,
    withUnit_corresponds fields hnames self value field hfield hopt hvoid
      (hundefined field hfield hopt) hcorresponds, fun owner => ?_⟩
  obtain ⟨entries, hentries⟩ := hencode owner
  refine ⟨entries, hentries, ?_⟩
  intro es hes hsame
  have hrust := (Rust.insertFields_lookup _ fields es hidentified.1 hes).1 field hfield
  have htypeScript :=
    (TypeScript.setFields_lookup _ fields entries hidentified.1 hentries).1 field hfield
  rw [Rust.encodeField, if_pos hopt, hvoid, withUnit_self] at hrust
  rw [TypeScript.encodeProperty, hundefined field hfield hopt, TypeScript.encodeField,
    if_pos hopt] at htypeScript
  cases hsame with
  | map _ _ _ _ _ present _ =>
    have hpresent := present (Rust.u64Id field.id)
    rw [Rust.u64Id_toNat, ← Except.ok.inj htypeScript] at hpresent
    rw [hpresent.mpr rfl] at hrust
    cases hrust

/-- What the law says of the fields of a variant: if TypeScript writes them, so does Rust. -/
theorem variant_encodes (h : schema.Accepted) {path name typePath : String}
    {variants : List UnionVariantDeclaration}
    (hnamed : schema.named path = some (.union name typePath variants))
    (hone : OneLanguage schema (.named path)) {variant : UnionVariantDeclaration}
    (hvariant : variant ∈ variants) {self : String → Rust.Model} {value : String → TypeScript.Model}
    (hcorresponds : Corresponds schema (.fields variant.fields) (.struct self) (.object value))
    {entries : List (ℤ × CborValue)}
    (hentries : TypeScript.setFields
      (TypeScript.encodeProperty schema s!"{name}.{variant.name}" value) variant.fields =
        .ok entries) :
    ∃ es, Rust.insertFields (Rust.encodeArm schema self) variant.fields = .ok es ∧
      Same (.map es) (.map entries) := by
  obtain ⟨_, _, htype⟩ := h.union_fields hnamed hvariant
  obtain ⟨_, hvariants, htags, _⟩ := h.distinct _ (Schema.named_mem hnamed)
  have hboth := hone.encode _ _
    (.union path name typePath variants variant self value hnamed hvariant hcorresponds)
  rw [Rust.encode_union schema hnamed, find_self (·.name) variants hvariants variant hvariant,
    TypeScript.encode_union schema hnamed _ (lowerCamel variant.name) rfl,
    find_self (fun v => lowerCamel v.name) variants htags variant hvariant, require_some,
    require_some, ok_bind, ok_bind, encodeProperty_tagged _ _ _ _ htype, hentries] at hboth
  obtain ⟨v, hv, hsame, _⟩ := hboth.right _ rfl
  obtain ⟨es, hes, hv⟩ := (bind_eq_ok _ _ _).mp hv
  cases hv
  refine ⟨es, hes, ?_⟩
  cases hsame with
  | cons _ _ _ _ _ hrest =>
    cases hrest with
    | cons _ _ _ _ hmap => exact hmap

theorem tellable_of_law (h : schema.Accepted)
    (hlaw : ∀ type : TypeRef, type.Known schema → OneLanguage schema type) : schema.Tellable := by
  intro path declaration hnamed fields hfields field hfield hopt hvoid
  have hone := hlaw (.named path) ⟨declaration, hnamed⟩
  cases declaration with
  | struct name typePath fields' =>
    cases List.mem_singleton.mp hfields
    obtain ⟨hidentified, hnames⟩ := h.struct_fields hnamed
    obtain ⟨self, value, hcorresponds, hlost⟩ :=
      void_lost h fields hidentified hnames field hfield hopt hvoid
    obtain ⟨entries, hentries, hlost⟩ := hlost name
    have hboth := hone.encode _ _ (.struct path name typePath fields self value hnamed hcorresponds)
    rw [Rust.encode_struct schema hnamed, TypeScript.encode_struct schema hnamed, hentries] at hboth
    obtain ⟨v, hv, hsame, _⟩ := hboth.right _ rfl
    obtain ⟨es, hes, hv⟩ := (bind_eq_ok _ _ _).mp hv
    cases hv
    exact hlost es hes hsame
  | enum => exact absurd hfields List.not_mem_nil
  | union name typePath variants =>
    obtain ⟨variant, hvariant, rfl⟩ := List.mem_map.mp hfields
    obtain ⟨hidentified, hnames, _⟩ := h.union_fields hnamed hvariant
    obtain ⟨self, value, hcorresponds, hlost⟩ :=
      void_lost h variant.fields hidentified hnames field hfield hopt hvoid
    obtain ⟨entries, hentries, hlost⟩ := hlost s!"{name}.{variant.name}"
    obtain ⟨es, hes, hsame⟩ := variant_encodes h hnamed hone hvariant hcorresponds hentries
    exact hlost es (Rust.insertArms_ok schema self variant.fields es hes).2 hsame

theorem unshadowed_of_law (h : schema.Accepted)
    (hlaw : ∀ type : TypeRef, type.Known schema → OneLanguage schema type) :
    schema.Unshadowed := by
  intro path name typePath variants hnamed variant hvariant
  obtain ⟨hidentified, hnames, _⟩ := h.union_fields hnamed hvariant
  obtain ⟨self, value, hcorresponds, _, hencode⟩ :=
    default_record h variant.fields hidentified hnames
  obtain ⟨entries, hentries⟩ := hencode s!"{name}.{variant.name}"
  obtain ⟨es, hes, _⟩ := variant_encodes h hnamed (hlaw (.named path) ⟨_, hnamed⟩) hvariant
    hcorresponds hentries
  exact (Rust.insertArms_ok schema self variant.fields es hes).1

end

def Declaration.Inhabited : Declaration → Prop
  | .struct _ _ _ => True
  | .enum _ _ variants => variants ≠ []
  | .union _ _ variants => variants ≠ []

/-- What both generators accept, with names that stay distinct when they are converted. -/
structure Schema.Checked (schema : Schema) : Prop where
  valid : validateSchema schema = .ok ()
  distinct : ∀ declaration ∈ schema.declarations, declaration.Inhabited → declaration.Distinct

/-- What `rustc` asks of the emitted types: a finite size, and an arm for each `match`. -/
structure Rust.Compiles (schema : Schema) : Prop where
  finite : schema.Finite
  inhabited : ∀ declaration ∈ schema.declarations, declaration.Inhabited

theorem Schema.Checked.accepted {schema : Schema} (h : schema.Checked)
    (hcompiles : Rust.Compiles schema) : schema.Accepted :=
  ⟨h.valid, fun declaration hmem => h.distinct declaration hmem (hcompiles.inhabited _ hmem),
    hcompiles.finite⟩

def events : Schema := ⟨[
  .enum "Kind" "app.Kind" [⟨0, "Idle"⟩, ⟨1, "Busy"⟩],
  .struct "Item" "app.Item"
    [⟨1, "itemKind", false, .named "app.Kind"⟩, ⟨2, "note", true, .primitive .string⟩],
  .union "Event" "app.Event"
    [⟨0, "Added", [⟨1, "item", false, .named "app.Item"⟩,
      ⟨2, "kinds", false, .array (.named "app.Kind")⟩]⟩, ⟨1, "Cleared", []⟩]]⟩

theorem events_accepted : events.Accepted :=
  events.accepted_of_rank
    (fun path => if path = "app.Event" then 2 else if path = "app.Item" then 1 else 0)
    (by decide) (by decide +kernel) (by decide)

def flag : FieldDeclaration := ⟨1, "flag", true, .void⟩

def flags : Schema := ⟨[.struct "Flags" "app.Flags" [flag]]⟩

theorem flags_accepted : flags.Accepted :=
  flags.accepted_of_rank (fun _ => 0) (by decide) (by decide) (by decide)

theorem flag_corresponds : Corresponds flags (.type (.named "app.Flags"))
    (.struct (withUnit (fun _ => .unit) flag)) (.object fun _ => .undefined) := by
  apply Corresponds.struct "app.Flags" "Flags" "app.Flags" [flag] _ _ rfl
  apply Corresponds.fields
  · intro field hfield
    cases List.mem_singleton.mp hfield
    exact .present flag .unit .undefined rfl .void
  · intro name hname
    exact if_neg fun heq => hname (List.mem_singleton.mpr heq)
  · exact fun _ _ => rfl

theorem flag_not_same : ¬ Same (.map [(1, .null)]) (.map []) := by
  intro hsame
  cases hsame with
  | map _ _ _ _ _ present _ => cases (present 1).mpr rfl

end Rieul.Codegen
