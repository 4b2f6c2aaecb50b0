/-!
# Tables

A table keeps one value for each key, in the order in which the keys arrived. Keys are never
removed. `find?_upsert` and `keys_upsert` say what the one operation that changes a table does to
its two views: the value of each key, and the order of the keys.
-/

namespace LogShipper

universe u v w

/-- Values by key, in order of arrival. -/
structure Table (α : Type u) (β : Type v) where
  entries : List (α × β)
  distinct : (entries.map Prod.fst).Nodup
deriving Repr

namespace Table

variable {α : Type u} {β : Type v} {γ : Type w}

/-- The table without keys. -/
def empty : Table α β := ⟨[], .nil⟩

instance : Inhabited (Table α β) := ⟨empty⟩
instance : EmptyCollection (Table α β) := ⟨empty⟩

/-- The keys in order of arrival. -/
def keys (t : Table α β) : List α := t.entries.map Prod.fst

/-- The number of keys. -/
def size (t : Table α β) : Nat := t.entries.length

/-- Every value replaced, according to its key. -/
def mapValues (t : Table α β) (f : α → β → γ) : Table α γ :=
  ⟨t.entries.map fun e => (e.1, f e.1 e.2), by simpa [Function.comp_def] using t.distinct⟩

theorem map_fst_filterMap_sublist (f : α → β → Option γ) (es : List (α × β)) :
    ((es.filterMap fun e => (f e.1 e.2).map fun c => (e.1, c)).map Prod.fst).Sublist
      (es.map Prod.fst) := by
  induction es with
  | nil => simp
  | cons e es ih =>
    cases h : f e.1 e.2 with
    | none => simpa [h] using ih.cons e.1
    | some c => simpa [h] using ih

/-- The values that `f` keeps, according to their keys. -/
def filterMapValues (t : Table α β) (f : α → β → Option γ) : Table α γ :=
  ⟨t.entries.filterMap fun e => (f e.1 e.2).map fun c => (e.1, c),
    t.distinct.sublist (map_fst_filterMap_sublist f t.entries)⟩

@[simp] theorem entries_empty : (empty : Table α β).entries = [] := rfl
@[simp] theorem keys_empty : (empty : Table α β).keys = [] := rfl

theorem nodup_keys (t : Table α β) : t.keys.Nodup := t.distinct

@[simp] theorem entries_mapValues (t : Table α β) (f : α → β → γ) :
    (t.mapValues f).entries = t.entries.map fun e => (e.1, f e.1 e.2) := rfl

@[simp] theorem keys_mapValues (t : Table α β) (f : α → β → γ) : (t.mapValues f).keys = t.keys := by
  simp [keys, Function.comp_def]

variable [DecidableEq α]

/-- The value of a key among some entries. -/
def valueIn (k : α) : List (α × β) → Option β
  | [] => none
  | e :: es => if e.1 = k then some e.2 else valueIn k es

/-- The value of a key. -/
def find? (t : Table α β) (k : α) : Option β := valueIn k t.entries

/-- The entries after the value of a key has been set from its present one. -/
def upsertIn (k : α) (f : Option β → β) : List (α × β) → List (α × β)
  | [] => [(k, f none)]
  | e :: es => if e.1 = k then (k, f (some e.2)) :: es else e :: upsertIn k f es

theorem map_fst_upsertIn (k : α) (f : Option β → β) (es : List (α × β)) :
    (upsertIn k f es).map Prod.fst =
      if k ∈ es.map Prod.fst then es.map Prod.fst else es.map Prod.fst ++ [k] := by
  induction es with
  | nil => simp [upsertIn]
  | cons e es ih =>
    by_cases h : e.1 = k
    · simp [upsertIn, h]
    · have h' : k ≠ e.1 := fun hk => h hk.symm
      simp only [upsertIn, h, if_false, List.map_cons, ih, List.mem_cons, h', false_or]
      split <;> simp

/-- Sets the value of a key from its present one; a new key comes last. -/
def upsert (t : Table α β) (k : α) (f : Option β → β) : Table α β where
  entries := upsertIn k f t.entries
  distinct := by
    rw [map_fst_upsertIn]
    split
    · exact t.distinct
    · rename_i h
      rw [List.nodup_append]
      exact ⟨t.distinct, by simp, fun a ha b hb hab => h (by simp_all)⟩

/-- Gives a key a value. -/
def insert (t : Table α β) (k : α) (b : β) : Table α β := t.upsert k fun _ => b

/-- The table of a list of pairs; the last value of a key counts. -/
def ofList (pairs : List (α × β)) : Table α β :=
  pairs.foldl (fun t p => t.insert p.1 p.2) empty

/-- Gives every key of another table its value there. -/
def overwrite (t other : Table α β) : Table α β :=
  other.entries.foldl (fun t e => t.insert e.1 e.2) t

/-! ## The value of a key -/

@[simp] theorem find?_empty (k : α) : (empty : Table α β).find? k = none := rfl

theorem valueIn_upsertIn (k k' : α) (f : Option β → β) (es : List (α × β)) :
    valueIn k' (upsertIn k f es) = if k' = k then some (f (valueIn k es)) else valueIn k' es := by
  induction es with
  | nil => by_cases h : k = k' <;> simp [upsertIn, valueIn, h, eq_comm]
  | cons e es ih =>
    by_cases he : e.1 = k
    · by_cases h : k' = k
      · simp [upsertIn, valueIn, he, h]
      · simp [upsertIn, valueIn, he, h, Ne.symm h]
    · by_cases h : e.1 = k'
      · have hk : k' ≠ k := fun hk => he (h.trans hk)
        simp [upsertIn, valueIn, h, hk]
      · simp [upsertIn, valueIn, he, h, ih]

theorem find?_upsert (t : Table α β) (k k' : α) (f : Option β → β) :
    (t.upsert k f).find? k' = if k' = k then some (f (t.find? k)) else t.find? k' :=
  valueIn_upsertIn k k' f t.entries

@[simp] theorem find?_upsert_self (t : Table α β) (k : α) (f : Option β → β) :
    (t.upsert k f).find? k = some (f (t.find? k)) := by simp [find?_upsert]

theorem valueIn_map (k : α) (f : α → β → γ) (es : List (α × β)) :
    valueIn k (es.map fun e => (e.1, f e.1 e.2)) = (valueIn k es).map (f k) := by
  induction es with
  | nil => rfl
  | cons e es ih =>
    by_cases h : e.1 = k
    · simp [valueIn, h]
    · simp [valueIn, h, ih]

@[simp] theorem find?_mapValues (t : Table α β) (f : α → β → γ) (k : α) :
    (t.mapValues f).find? k = (t.find? k).map (f k) :=
  valueIn_map k f t.entries

theorem valueIn_isSome_iff (k : α) (es : List (α × β)) :
    (valueIn k es).isSome = true ↔ k ∈ es.map Prod.fst := by
  induction es with
  | nil => simp [valueIn]
  | cons e es ih =>
    by_cases h : e.1 = k
    · simp [valueIn, h]
    · simp [valueIn, h, ih, Ne.symm h]

theorem valueIn_eq_some_iff {k : α} {b : β} {es : List (α × β)} (h : (es.map Prod.fst).Nodup) :
    valueIn k es = some b ↔ (k, b) ∈ es := by
  induction es with
  | nil => simp [valueIn]
  | cons e es ih =>
    simp only [List.map_cons, List.nodup_cons] at h
    by_cases hk : e.1 = k
    · subst hk
      have hnot : (e.1, b) ∉ es := fun hm => h.1 (List.mem_map.2 ⟨_, hm, rfl⟩)
      simp [valueIn, hnot, Prod.ext_iff, eq_comm]
    · have hne : (k, b) ≠ e := fun he => hk (by simp [← he])
      simp [valueIn, hk, hne, ih h.2]

/-- A key has a value exactly when the pair is an entry. -/
theorem find?_eq_some_iff {t : Table α β} {k : α} {b : β} :
    t.find? k = some b ↔ (k, b) ∈ t.entries :=
  valueIn_eq_some_iff t.distinct

theorem find?_insert (t : Table α β) (k k' : α) (b : β) :
    (t.insert k b).find? k' = if k' = k then some b else t.find? k' :=
  find?_upsert t k k' fun _ => b

theorem valueIn_filterMap (k : α) (f : α → β → Option γ) {es : List (α × β)}
    (h : (es.map Prod.fst).Nodup) :
    valueIn k (es.filterMap fun e => (f e.1 e.2).map fun c => (e.1, c)) =
      (valueIn k es).bind (f k) := by
  induction es with
  | nil => rfl
  | cons e es ih =>
    simp only [List.map_cons, List.nodup_cons] at h
    by_cases hk : e.1 = k
    · subst hk
      cases hf : f e.1 e.2 with
      | some c => simp [valueIn, hf]
      | none =>
        have hnone : valueIn e.1 es = none := by
          rw [← Option.not_isSome_iff_eq_none, valueIn_isSome_iff]
          exact h.1
        simp [valueIn, hf, ih h.2, hnone]
    · cases hf : f e.1 e.2 <;> simp [valueIn, hf, hk, ih h.2]

@[simp] theorem find?_filterMapValues (t : Table α β) (f : α → β → Option γ) (k : α) :
    (t.filterMapValues f).find? k = (t.find? k).bind (f k) :=
  valueIn_filterMap k f t.distinct

theorem find?_foldl_insert (es : List (α × β)) (t : Table α β) (k : α)
    (h : (es.map Prod.fst).Nodup) :
    (es.foldl (fun t e => t.insert e.1 e.2) t).find? k = (valueIn k es).or (t.find? k) := by
  induction es generalizing t with
  | nil => rfl
  | cons e es ih =>
    simp only [List.map_cons, List.nodup_cons] at h
    rw [List.foldl_cons, ih _ h.2, find?_insert]
    by_cases hk : e.1 = k
    · have hnone : valueIn k es = none := by
        rw [← Option.not_isSome_iff_eq_none, valueIn_isSome_iff, ← hk]
        exact h.1
      simp [valueIn, hk, hnone]
    · simp [valueIn, hk, Ne.symm hk]

/-- After an overwriting the keys of the other table have its values, all other keys theirs. -/
theorem find?_overwrite (t other : Table α β) (k : α) :
    (t.overwrite other).find? k = (other.find? k).or (t.find? k) :=
  find?_foldl_insert other.entries t k other.distinct

/-! ## The order of the keys -/

theorem keys_upsert (t : Table α β) (k : α) (f : Option β → β) :
    (t.upsert k f).keys = if k ∈ t.keys then t.keys else t.keys ++ [k] :=
  map_fst_upsertIn k f t.entries

end Table

end LogShipper
