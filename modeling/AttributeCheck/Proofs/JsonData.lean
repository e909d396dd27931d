import AttributeCheck.Proofs.Rounding
import AttributeCheck.Proofs.StrictEquality
import AttributeCheck.Value.Json

/-! # Converting to JSON data and back

The value of a datum made from a value is a normal form: converting it again gives the same datum
and the same text. For values that consist of data only it differs from the value in nothing but the
sign of zeros. -/

namespace AttributeCheck

/-! ## Numbers -/

namespace Binary64

/-- The number with the positive zero in place of the negative one. -/
def unsignedZero (x : Binary64) : Binary64 :=
  if x.isZero then zero false else x

theorem isNaN_of_isFinite {x : Binary64} (h : x.isFinite = true) : x.isNaN = false := by
  simp_all [isFinite, isNaN]

theorem isInfinite_of_isFinite {x : Binary64} (h : x.isFinite = true) : x.isInfinite = false := by
  simp_all [isFinite, isInfinite]

theorem isFinite_unsignedZero {x : Binary64} (h : x.isFinite = true) :
    x.unsignedZero.isFinite = true := by
  rw [unsignedZero]
  split
  · rfl
  · exact h

theorem unsignedZero_equal {x : Binary64} (h : x.isFinite = true) :
    x.unsignedZero.equal x = true := by
  rw [unsignedZero]
  split
  · rename_i hx
    have hzero : (zero false).isNaN = false ∧ (zero false).isZero = true := ⟨rfl, rfl⟩
    simp [equal, hx, hzero, isNaN_of_isFinite h]
  · rw [equal_self, isNaN_of_isFinite h]
    rfl

theorem toInt?_of_isZero {x : Binary64} (h : x.isZero = true) : x.toInt? = some 0 := by
  have hfinite : x.isFinite = true := by simp_all [isZero, isFinite]
  simp [toInt?, hfinite, significand_eq_zero.mpr h]

theorem toDatum_of_isZero {x : Binary64} (h : x.isZero = true) : x.toDatum = .integer 0 := by
  have hfinite := isFinite_of_toInt? (toInt?_of_isZero h)
  simp [toDatum, hfinite, toInt?_of_isZero h]

theorem ofInt_zero : ofInt 0 = zero false := by
  decide +kernel

theorem toDatum_unsignedZero (x : Binary64) : x.unsignedZero.toDatum = x.toDatum := by
  rw [unsignedZero]
  split
  · rename_i hx
    rw [toDatum_of_isZero hx]
    exact toDatum_of_isZero rfl
  · rfl

/-- The cast of an integer undoes the cast of the number, but for the sign of a zero. -/
theorem toDatum_cases {x : Binary64} (h : x.isFinite = true) :
    (∃ n, x.toDatum = .integer n ∧ ofInt n = x.unsignedZero) ∨
      x.toDatum = .real x ∧ x.unsignedZero = x := by
  rw [toDatum, if_pos h, unsignedZero]
  cases hx : x.isZero with
  | true =>
    rw [toInt?_of_isZero hx]
    exact .inl ⟨0, rfl, ofInt_zero⟩
  | false =>
    cases hint : x.toInt? with
    | none => exact .inr ⟨rfl, rfl⟩
    | some n =>
      simp only
      split
      · exact .inl ⟨n, rfl, ofInt_of_toInt? hint hx⟩
      · exact .inr ⟨rfl, rfl⟩

theorem render_unsignedZero {x : Binary64} (h : x.isFinite = true) :
    NumberStyle.coerced.render x.unsignedZero = NumberStyle.coerced.render x := by
  rw [unsignedZero]
  split
  · rename_i hx
    have hzero : NumberStyle.coerced.render (zero false) = "0" := rfl
    rw [hzero, NumberStyle.render, isNaN_of_isFinite h, isInfinite_of_isFinite h, hx]
    rfl
  · rfl

end Binary64

namespace Value

theorem ofDatum_toDatum_number (x : Binary64) :
    ofDatum x.toDatum = if x.isFinite then number x.unsignedZero else null := by
  split
  · rename_i hfinite
    rcases Binary64.toDatum_cases hfinite with ⟨n, hdatum, hn⟩ | ⟨hdatum, hx⟩
    · rw [hdatum, ← hn]
      rfl
    · rw [hdatum, hx]
      rfl
  · rename_i hfinite
    rw [Binary64.toDatum, if_neg hfinite]
    rfl

/-! ## Items and members -/

/-- The properties that are not left out. -/
def visible (properties : List (String × Value)) : List (String × Value) :=
  properties.filter fun property => !property.2.isHidden

theorem itemData_eq_map (items : List Value) : itemData items = items.map toDatum := by
  induction items with
  | nil => rfl
  | cons item rest ih => rw [itemData, ih, List.map_cons]

theorem memberData_eq_map (properties : List (String × Value)) :
    memberData properties =
      (visible properties).map fun property => (property.1, property.2.toDatum) := by
  induction properties with
  | nil => rfl
  | cons property rest ih =>
    rw [memberData, ih, visible, visible, List.filter_cons]
    cases property.2.isHidden <;> rfl

theorem itemValues_eq_map (items : List Datum) : itemValues items = items.map ofDatum := by
  induction items with
  | nil => rfl
  | cons item rest ih => rw [itemValues, ih, List.map_cons]

theorem memberValues_eq_map (members : List (String × Datum)) :
    memberValues members = members.map fun entry => (entry.1, ofDatum entry.2) := by
  induction members with
  | nil => rfl
  | cons entry rest ih => rw [memberValues, ih, List.map_cons]

theorem itemJsonTexts_eq_map (items : List Value) : itemJsonTexts items = items.map jsonText := by
  induction items with
  | nil => rfl
  | cons item rest ih => rw [itemJsonTexts, ih, List.map_cons]

/-- A member of an object as it is written. -/
def memberText (property : String × Value) : String :=
  quoted property.1 ++ ":" ++ property.2.jsonText

theorem memberJsonTexts_eq_map (properties : List (String × Value)) :
    memberJsonTexts properties = (visible properties).map memberText := by
  induction properties with
  | nil => rfl
  | cons property rest ih =>
    rw [memberJsonTexts, ih, visible, visible, List.filter_cons]
    cases property.2.isHidden <;> rfl

theorem mem_of_mem_visible {properties : List (String × Value)} {property : String × Value}
    (h : property ∈ visible properties) : property ∈ properties :=
  List.mem_of_mem_filter h

theorem isHidden_ofDatum (d : Datum) : (ofDatum d).isHidden = false := by
  cases d <;> rfl

theorem visible_memberValues (members : List (String × Datum)) :
    visible (memberValues members) = memberValues members := by
  rw [memberValues_eq_map, visible, List.filter_eq_self]
  intro property hproperty
  obtain ⟨entry, -, rfl⟩ := List.mem_map.mp hproperty
  rw [isHidden_ofDatum]
  rfl

/-! ## The normal form -/

/-- The value that comes back from JSON data. -/
def normalized (v : Value) : Value :=
  ofDatum v.toDatum

def normalizedProperties (properties : List (String × Value)) : List (String × Value) :=
  properties.map fun property => (property.1, property.2.normalized)

theorem normalized_number {x : Binary64} (h : x.isFinite = true) :
    (number x).normalized = number x.unsignedZero := by
  rw [normalized, toDatum_number, ofDatum_toDatum_number, if_pos h]

theorem normalized_number_of_not_isFinite {x : Binary64} (h : ¬ x.isFinite = true) :
    (number x).normalized = null := by
  rw [normalized, toDatum_number, ofDatum_toDatum_number, if_neg h]

theorem normalized_array (items : List Value) :
    (array items).normalized = array (items.map normalized) := by
  rw [normalized, toDatum_array, ofDatum_list, itemValues_eq_map, itemData_eq_map, List.map_map]
  rfl

theorem memberValues_memberData (properties : List (String × Value)) :
    memberValues (memberData properties) = normalizedProperties (visible properties) := by
  rw [memberValues_eq_map, memberData_eq_map, List.map_map]
  rfl

theorem normalized_object (properties : List (String × Value)) :
    (object properties).normalized = object (normalizedProperties (visible properties)) := by
  rw [normalized, toDatum_object, ofDatum_object, memberValues_memberData]

theorem normalized_inst (cls : Class) (properties : List (String × Value)) :
    (inst cls properties).normalized = object (normalizedProperties (visible properties)) := by
  rw [normalized, toDatum_inst, ofDatum_object, memberValues_memberData]

theorem visible_normalizedProperties (properties : List (String × Value)) :
    visible (normalizedProperties (visible properties)) =
      normalizedProperties (visible properties) := by
  rw [← memberValues_memberData, visible_memberValues]

theorem memberData_normalizedProperties {properties : List (String × Value)}
    (ih : ∀ x ∈ properties.map Prod.snd, x.normalized.toDatum = x.toDatum) :
    memberData (normalizedProperties (visible properties)) = memberData properties := by
  rw [memberData_eq_map, visible_normalizedProperties, normalizedProperties, List.map_map,
    memberData_eq_map]
  refine List.map_congr_left fun property hproperty => ?_
  rw [Function.comp_apply, ih _ (mem_parts_of_entry (mem_of_mem_visible hproperty))]

/-- Converting back and forth once more changes nothing. -/
theorem toDatum_normalized (v : Value) : v.normalized.toDatum = v.toDatum := by
  induction v using induction with
  | step v ih =>
    cases v with
    | number x =>
      by_cases hfinite : x.isFinite = true
      · rw [normalized_number hfinite, toDatum_number, toDatum_number,
          Binary64.toDatum_unsignedZero]
      · rw [normalized_number_of_not_isFinite hfinite, toDatum_number, Binary64.toDatum,
          if_neg hfinite]
        rfl
    | array items =>
      rw [normalized_array, toDatum_array, toDatum_array, itemData_eq_map, itemData_eq_map,
        List.map_map]
      exact congrArg Datum.list (List.map_congr_left ih)
    | object properties =>
      rw [normalized_object, toDatum_object, toDatum_object, memberData_normalizedProperties ih]
    | inst cls properties =>
      rw [normalized_inst, toDatum_object, toDatum_inst, memberData_normalizedProperties ih]
    | _ => rfl

theorem memberJsonTexts_normalizedProperties {properties : List (String × Value)}
    (ih : ∀ x ∈ properties.map Prod.snd, x.normalized.jsonText = x.jsonText) :
    memberJsonTexts (normalizedProperties (visible properties)) = memberJsonTexts properties := by
  rw [memberJsonTexts_eq_map, visible_normalizedProperties, normalizedProperties, List.map_map,
    memberJsonTexts_eq_map]
  refine List.map_congr_left fun property hproperty => ?_
  rw [Function.comp_apply, memberText, memberText,
    ih _ (mem_parts_of_entry (mem_of_mem_visible hproperty))]

theorem jsonText_normalized (v : Value) : v.normalized.jsonText = v.jsonText := by
  induction v using induction with
  | step v ih =>
    cases v with
    | number x =>
      by_cases hfinite : x.isFinite = true
      · rw [normalized_number hfinite, jsonText_number, jsonText_number,
          if_pos (Binary64.isFinite_unsignedZero hfinite), if_pos hfinite,
          Binary64.render_unsignedZero hfinite]
      · rw [normalized_number_of_not_isFinite hfinite, jsonText_number, if_neg hfinite]
        rfl
    | array items =>
      rw [normalized_array, jsonText_array, jsonText_array, itemJsonTexts_eq_map,
        itemJsonTexts_eq_map, List.map_map]
      exact congrArg ("[" ++ ",".intercalate · ++ "]") (List.map_congr_left ih)
    | object properties =>
      rw [normalized_object, jsonText_object, jsonText_object,
        memberJsonTexts_normalizedProperties ih]
    | inst cls properties =>
      rw [normalized_inst, jsonText_object, jsonText_inst,
        memberJsonTexts_normalizedProperties ih]
    | _ => rfl

/-! ## Values that consist of data -/

/-- Null, booleans, finite numbers and strings, and arrays and objects of such values. -/
inductive IsData : Value → Prop where
  | null : IsData null
  | bool (b : Bool) : IsData (bool b)
  | number {x : Binary64} (h : x.isFinite = true) : IsData (number x)
  | string (s : String) : IsData (string s)
  | array {items : List Value} (h : ∀ v ∈ items, IsData v) : IsData (array items)
  | object {properties : List (String × Value)} (h : ∀ v ∈ properties.map Prod.snd, IsData v) :
      IsData (object properties)

theorem visible_of_isData {properties : List (String × Value)}
    (h : ∀ v ∈ properties.map Prod.snd, IsData v) : visible properties = properties := by
  rw [visible, List.filter_eq_self]
  intro property hproperty
  have hdata := h _ (mem_parts_of_entry hproperty)
  generalize property.2 = value at hdata
  cases hdata <;> rfl

theorem strictlyEqual_normalized {v : Value} (hdata : v.IsData) (hkeys : v.hasDistinctKeys = true) :
    StrictlyEqual v.normalized v := by
  induction hdata with
  | null => exact (strictlyEqual_iff_match _ _).mpr (.atom rfl)
  | bool b => exact (strictlyEqual_iff_match _ _).mpr (.atom rfl)
  | number h =>
    rw [normalized_number h]
    exact (strictlyEqual_iff_match _ _).mpr (.number (Binary64.unsignedZero_equal h))
  | string s => exact (strictlyEqual_iff_match _ _).mpr (.atom rfl)
  | array h ih =>
    obtain ⟨-, hparts⟩ := (hasDistinctKeys_iff _).mp hkeys
    rw [normalized_array, strictlyEqual_iff_match]
    refine .array ?_
    rw [List.forall₂_map_left_iff, List.forall₂_same]
    exact fun v hv => ih v hv (hparts v hv)
  | object h ih =>
    obtain ⟨hnodup, hparts⟩ := (hasDistinctKeys_iff _).mp hkeys
    rw [normalized_object, visible_of_isData h, strictlyEqual_iff_match]
    refine .object (List.length_map ..) ?_
    intro entry hentry
    obtain ⟨property, hproperty, rfl⟩ := List.mem_map.mp hentry
    have hmem := mem_parts_of_entry hproperty
    exact ⟨property.2, Entries.get?_of_mem (hnodup _ rfl) hproperty, ih _ hmem (hparts _ hmem)⟩

/-! ## The order of keys -/

/-- A step from a container to one of its parts. -/
inductive Step where
  | item (index : ℕ)
  | property (key : String)

def part? : Value → Step → Option Value
  | array items, .item index => items[index]?
  | v, .property key => v.property? key
  | _, .item _ => none

/-- The part of a value at the end of a path. -/
def at? (v : Value) : List Step → Option Value
  | [] => some v
  | step :: path => (v.part? step).bind (at? · path)

/-- The keys of the object at the end of a path, in their order. -/
def keysAt? (v : Value) (path : List Step) : Option (List String) :=
  ((v.at? path).bind properties?).map Entries.keys

theorem get?_normalizedProperties (properties : List (String × Value)) (key : String) :
    Entries.get? (normalizedProperties properties) key =
      (Entries.get? properties key).map normalized := by
  induction properties with
  | nil => rfl
  | cons property rest ih =>
    obtain ⟨k, value⟩ := property
    change (if k = key then some value.normalized else _) = _
    rw [Entries.get?]
    split
    · rfl
    · exact ih

theorem part?_normalized {v : Value} (hdata : v.IsData) (step : Step) :
    v.normalized.part? step = (v.part? step).map normalized := by
  cases hdata with
  | null => cases step <;> rfl
  | bool b => cases step <;> rfl
  | number h => cases step <;> simp [normalized_number h, part?, property?, properties?]
  | string s => cases step <;> rfl
  | array h => cases step <;> simp [normalized_array, part?, property?, properties?]
  | object h =>
    rw [normalized_object, visible_of_isData h]
    cases step with
    | item index => rfl
    | property key => exact get?_normalizedProperties _ key

theorem IsData.part {v x : Value} (hdata : v.IsData) {step : Step} (h : v.part? step = some x) :
    x.IsData := by
  cases hdata with
  | array hitems =>
    cases step with
    | item index => exact hitems x (List.mem_of_getElem? h)
    | property key => cases h
  | object hproperties =>
    cases step with
    | item index => cases h
    | property key => exact hproperties x (mem_parts_of_entry (Entries.mem_of_get? h))
  | _ => cases step <;> cases h

theorem keys_normalized {v : Value} (hdata : v.IsData) :
    v.normalized.properties?.map Entries.keys = v.properties?.map Entries.keys := by
  cases hdata with
  | number h => rw [normalized_number h]; rfl
  | array h => rw [normalized_array]; rfl
  | object h =>
    rw [normalized_object, visible_of_isData h]
    simp [properties?, normalizedProperties, Entries.keys]
  | _ => rfl

theorem keysAt?_normalized {v : Value} (hdata : v.IsData) (path : List Step) :
    v.normalized.keysAt? path = v.keysAt? path := by
  induction path generalizing v with
  | nil => exact keys_normalized hdata
  | cons step path ih =>
    simp only [keysAt?, at?, part?_normalized hdata] at ih ⊢
    cases hpart : v.part? step with
    | none => rfl
    | some x => exact ih (hdata.part hpart)

/-- Conversion to JSON data and back is a normalization. It keeps the datum and the text of every
value. It returns data unchanged up to strict equality, with every object at every depth listing its
keys as before. -/
theorem ofDatum_toDatum_normalizes (v : Value) :
    (ofDatum v.toDatum).toDatum = v.toDatum ∧ (ofDatum v.toDatum).jsonText = v.jsonText ∧
      (v.IsData → v.hasDistinctKeys = true → (ofDatum v.toDatum).strictEq v = true ∧
        ∀ path, (ofDatum v.toDatum).keysAt? path = v.keysAt? path) :=
  ⟨toDatum_normalized v, jsonText_normalized v, fun hdata hkeys =>
    ⟨strictlyEqual_normalized hdata hkeys, keysAt?_normalized hdata⟩⟩

/-- A point whose second coordinate is the negative zero. -/
def labelledPoint : Value :=
  object [("y", number (Binary64.zero true)), ("x", number (Binary64.zero false)),
    ("labels", array [string "origin", null])]

theorem ofDatum_toDatum_labelledPoint :
    labelledPoint.IsData ∧ labelledPoint.hasDistinctKeys = true ∧
      (ofDatum labelledPoint.toDatum).strictEq labelledPoint = true ∧
      ∀ path, (ofDatum labelledPoint.toDatum).keysAt? path = labelledPoint.keysAt? path := by
  have hlabels : IsData (array [string "origin", null]) :=
    .array (List.forall_mem_cons.mpr ⟨.string _, List.forall_mem_singleton.mpr .null⟩)
  have hdata : labelledPoint.IsData :=
    .object (List.forall_mem_cons.mpr ⟨.number rfl,
      List.forall_mem_cons.mpr ⟨.number rfl, List.forall_mem_singleton.mpr hlabels⟩⟩)
  have hkeys : labelledPoint.hasDistinctKeys = true := by decide
  exact ⟨hdata, hkeys, (ofDatum_toDatum_normalizes labelledPoint).2.2 hdata hkeys⟩

end Value

end AttributeCheck
