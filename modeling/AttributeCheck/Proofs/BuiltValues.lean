import AttributeCheck.Proofs.JsonText

/-! # Values that are built list no key twice

Objects and instances get their properties one after the other, and a key that comes again replaces
the value it had. So what is built in this way lists no key twice, at any depth, and whatever lists
no key twice can be built. Among it are the values of JSON data, and what functions of the host
return. -/

namespace AttributeCheck

/-! ## Inserting pairs -/

namespace Entries

variable {κ α : Type} [DecidableEq κ]

theorem mem_of_mem_insert {entries : Entries κ α} {key : κ} {value : α} {entry : κ × α}
    (h : entry ∈ insert entries key value) : entry = (key, value) ∨ entry ∈ entries := by
  induction entries with
  | nil => exact .inl (List.mem_singleton.mp h)
  | cons first rest ih =>
      obtain ⟨k, v⟩ := first
      rw [insert] at h
      split at h
      · exact (List.mem_cons.mp h).imp_right (List.mem_cons_of_mem _)
      · rcases List.mem_cons.mp h with rfl | hrest
        · exact .inr List.mem_cons_self
        · exact (ih hrest).imp_right (List.mem_cons_of_mem _)

theorem mem_of_mem_insertAll {entries : Entries κ α} {pairs : List (κ × α)} {entry : κ × α}
    (h : entry ∈ insertAll entries pairs) : entry ∈ entries ∨ entry ∈ pairs := by
  induction pairs generalizing entries with
  | nil => exact .inl h
  | cons pair rest ih =>
      rcases ih h with hinserted | hrest
      · rcases mem_of_mem_insert hinserted with rfl | hentry
        · exact .inr List.mem_cons_self
        · exact .inl hentry
      · exact .inr (List.mem_cons_of_mem _ hrest)

theorem mem_of_mem_ofPairs {pairs : List (κ × α)} {entry : κ × α} (h : entry ∈ ofPairs pairs) :
    entry ∈ pairs := by
  rcases mem_of_mem_insertAll h with hnil | hpair
  · cases hnil
  · exact hpair

theorem insert_of_not_mem_keys {entries : Entries κ α} {key : κ} (h : key ∉ keys entries)
    (value : α) : insert entries key value = entries ++ [(key, value)] := by
  induction entries with
  | nil => rfl
  | cons entry rest ih =>
      obtain ⟨k, v⟩ := entry
      obtain ⟨hk, hrest⟩ := not_or.mp (mt List.mem_cons.mpr h)
      rw [insert, if_neg (Ne.symm hk), ih hrest]
      rfl

theorem insertAll_of_nodup {entries : Entries κ α} {pairs : List (κ × α)}
    (h : (keys (entries ++ pairs)).Nodup) : insertAll entries pairs = entries ++ pairs := by
  induction pairs generalizing entries with
  | nil => exact (List.append_nil entries).symm
  | cons pair rest ih =>
      rw [List.append_cons] at h ⊢
      have hfront : (keys (entries ++ [pair])).Nodup := by
        rw [keys, List.map_append] at h
        exact (List.nodup_append.mp h).1
      have hnew : pair.1 ∉ keys entries := by
        rw [keys, List.map_append] at hfront
        exact fun hmem => (List.nodup_append.mp hfront).2.2 _ hmem _ List.mem_cons_self rfl
      have hinsert : insert entries pair.1 pair.2 = entries ++ [pair] :=
        insert_of_not_mem_keys hnew pair.2
      rw [← ih h, ← hinsert]
      rfl

theorem ofPairs_of_nodup {pairs : List (κ × α)} (h : (keys pairs).Nodup) : ofPairs pairs = pairs :=
  insertAll_of_nodup h

end Entries

/-! ## Built values -/

namespace Value

/-- The values that can be built: properties are inserted one after the other. -/
inductive Built : Value → Prop where
  | undefined : Built undefined
  | null : Built null
  | bool (b : Bool) : Built (bool b)
  | number (x : Binary64) : Built (number x)
  | string (s : String) : Built (string s)
  | array {items : List Value} (h : ∀ x ∈ items, Built x) : Built (array items)
  | object {pairs : List (String × Value)} (h : ∀ pair ∈ pairs, Built pair.2) :
      Built (object (Entries.ofPairs pairs))
  | function (f : HostFunction) : Built (function f)
  | date (t : Instant) : Built (date t)
  | pattern (source : String) : Built (pattern source)
  | inst (cls : Class) {pairs : List (String × Value)} (h : ∀ pair ∈ pairs, Built pair.2) :
      Built (inst cls (Entries.ofPairs pairs))

theorem propertiesHaveDistinctKeys_ofPairs {pairs : List (String × Value)}
    (h : ∀ pair ∈ pairs, pair.2.hasDistinctKeys = true) :
    (decide (Entries.keys (Entries.ofPairs pairs)).Nodup &&
      propertiesHaveDistinctKeys (Entries.ofPairs pairs)) = true := by
  rw [Bool.and_eq_true, decide_eq_true_iff, propertiesHaveDistinctKeys_iff, List.forall_mem_map]
  refine ⟨Entries.nodup_keys_ofPairs pairs, fun entry hentry => ?_⟩
  exact h entry (Entries.mem_of_mem_ofPairs hentry)

theorem Built.hasDistinctKeys {v : Value} (h : v.Built) : v.hasDistinctKeys = true := by
  induction h with
  | array _ ih => exact (itemsHaveDistinctKeys_iff _).mpr ih
  | object _ ih => exact propertiesHaveDistinctKeys_ofPairs ih
  | inst cls _ ih => exact propertiesHaveDistinctKeys_ofPairs ih
  | _ => rfl

theorem Built.object_of_nodup {properties : List (String × Value)}
    (hn : (Entries.keys properties).Nodup) (h : ∀ x ∈ properties.map Prod.snd, x.Built) :
    (Value.object properties).Built := by
  rw [← Entries.ofPairs_of_nodup hn]
  exact .object (List.forall_mem_map.mp h)

theorem Built.inst_of_nodup (cls : Class) {properties : List (String × Value)}
    (hn : (Entries.keys properties).Nodup) (h : ∀ x ∈ properties.map Prod.snd, x.Built) :
    (Value.inst cls properties).Built := by
  rw [← Entries.ofPairs_of_nodup hn]
  exact .inst cls (List.forall_mem_map.mp h)

/-- The values that list no key twice are the ones that can be built. -/
theorem built_iff_hasDistinctKeys (v : Value) : v.Built ↔ v.hasDistinctKeys = true := by
  refine ⟨Built.hasDistinctKeys, ?_⟩
  induction v using induction with
  | step v ih =>
      intro h
      obtain ⟨hkeys, hparts⟩ := (hasDistinctKeys_iff v).mp h
      have hbuilt : ∀ x ∈ v.parts, x.Built := fun x hx => ih x hx (hparts x hx)
      cases v with
      | undefined => exact .undefined
      | null => exact .null
      | bool b => exact .bool b
      | number x => exact .number x
      | string s => exact .string s
      | array items => exact .array hbuilt
      | object properties => exact .object_of_nodup (hkeys _ rfl) hbuilt
      | function f => exact .function f
      | date t => exact .date t
      | pattern source => exact .pattern source
      | inst cls properties => exact .inst_of_nodup cls (hkeys _ rfl) hbuilt

/-! ## Values from elsewhere -/

mutual

theorem built_ofDatum (d : Datum) (h : d.hasDistinctKeys = true) : (ofDatum d).Built := by
  cases d with
  | null => exact .null
  | bool b => exact .bool b
  | integer n => exact .number _
  | real x => exact .number x
  | string s => exact .string s
  | list items => exact .array (built_itemValues items h)
  | object members =>
      rw [Datum.hasDistinctKeys, Bool.and_eq_true, decide_eq_true_iff] at h
      have hkeys : Entries.keys (memberValues members) = Entries.keys members := by
        rw [memberValues_eq_map, Entries.keys, List.map_map]
        rfl
      exact .object_of_nodup (hkeys ▸ h.1) (built_memberValues members h.2)

theorem built_itemValues (items : List Datum) (h : Datum.itemsHaveDistinctKeys items = true) :
    ∀ x ∈ itemValues items, x.Built := by
  cases items with
  | nil => simp [itemValues]
  | cons item rest =>
      rw [Datum.itemsHaveDistinctKeys, Bool.and_eq_true] at h
      exact List.forall_mem_cons.mpr ⟨built_ofDatum item h.1, built_itemValues rest h.2⟩

theorem built_memberValues (members : List (String × Datum))
    (h : Datum.membersHaveDistinctKeys members = true) :
    ∀ x ∈ (memberValues members).map Prod.snd, x.Built := by
  cases members with
  | nil => simp [memberValues]
  | cons member rest =>
      obtain ⟨key, d⟩ := member
      rw [Datum.membersHaveDistinctKeys, Bool.and_eq_true] at h
      exact List.forall_mem_cons.mpr ⟨built_ofDatum d h.1, built_memberValues rest h.2⟩

end

theorem built_call (f : HostFunction) {arguments : List Value} (h : ∀ x ∈ arguments, x.Built) :
    (f.call arguments).Built := by
  obtain ⟨identity, name, action⟩ := f
  cases action with
  | noop => exact .undefined
  | countArguments => exact .number _
  | firstArgument =>
      cases arguments with
      | nil => exact .undefined
      | cons first rest => exact h first List.mem_cons_self
  | allArguments => exact .array h

end Value

end AttributeCheck
