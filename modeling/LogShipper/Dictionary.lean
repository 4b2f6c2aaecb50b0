import LogShipper.Text.Basic

/-!
# Dictionaries

A dictionary keeps one value for each key of text, in the order of the keys. The order belongs to
the type, so that a dictionary is determined by the values of its keys.
-/

namespace LogShipper

universe u

/-- Values by key, in the order of the keys. -/
structure Dictionary (β : Type u) where
  entries : List (Text × β)
  sorted : entries.Pairwise fun a b => a.1 < b.1
deriving Repr

namespace Dictionary

variable {β : Type u}

/-- The dictionary without keys. -/
def empty : Dictionary β := ⟨[], .nil⟩

instance : Inhabited (Dictionary β) := ⟨empty⟩
instance : EmptyCollection (Dictionary β) := ⟨empty⟩

/-- The entries after a key has been given a value. -/
def insertIn (k : Text) (b : β) : List (Text × β) → List (Text × β)
  | [] => [(k, b)]
  | e :: es =>
    if k < e.1 then (k, b) :: e :: es
    else if e.1 = k then (k, b) :: es
    else e :: insertIn k b es

theorem mem_insertIn {k : Text} {b : β} {es : List (Text × β)} {x : Text × β}
    (h : x ∈ insertIn k b es) : x = (k, b) ∨ x ∈ es := by
  induction es with
  | nil => simpa [insertIn] using h
  | cons e es ih =>
    simp only [insertIn] at h
    split at h
    · simpa using h
    split at h
    · simp only [List.mem_cons] at h ⊢
      exact h.imp_right Or.inr
    · simp only [List.mem_cons] at h ⊢
      rcases h with h | h
      · exact Or.inr (Or.inl h)
      · exact (ih h).imp_right Or.inr

/-- Two texts neither of which comes before the other are equal. -/
theorem lt_of_not_lt_of_ne {s t : Text} (h : ¬ s < t) (hne : t ≠ s) : t < s :=
  Decidable.byContradiction fun h' => hne (List.le_antisymm (List.not_lt.1 h) (List.not_lt.1 h'))

theorem sorted_insertIn (k : Text) (b : β) {es : List (Text × β)}
    (h : es.Pairwise fun a b => a.1 < b.1) :
    (insertIn k b es).Pairwise fun a b => a.1 < b.1 := by
  induction es with
  | nil => simp [insertIn]
  | cons e es ih =>
    rw [List.pairwise_cons] at h
    simp only [insertIn]
    split
    · rename_i hlt
      refine List.pairwise_cons.2 ⟨fun x hx => ?_, List.pairwise_cons.2 h⟩
      rcases List.mem_cons.1 hx with rfl | hx
      · exact hlt
      · exact List.lt_trans hlt (h.1 x hx)
    split
    · rename_i heq
      exact List.pairwise_cons.2 ⟨fun x hx => heq ▸ h.1 x hx, h.2⟩
    · rename_i hlt hne
      refine List.pairwise_cons.2 ⟨fun x hx => ?_, ih h.2⟩
      rcases mem_insertIn hx with rfl | hx
      · exact lt_of_not_lt_of_ne hlt hne
      · exact h.1 x hx

/-- Gives a key a value. -/
def insert (d : Dictionary β) (k : Text) (b : β) : Dictionary β :=
  ⟨insertIn k b d.entries, sorted_insertIn k b d.sorted⟩

/-- The dictionary of a list of pairs; the last value of a key counts. -/
def ofList (pairs : List (Text × β)) : Dictionary β :=
  pairs.foldl (fun d p => d.insert p.1 p.2) empty

/-- The value of a key among some entries. -/
def valueIn (k : Text) : List (Text × β) → Option β
  | [] => none
  | e :: es => if e.1 = k then some e.2 else valueIn k es

/-- The value of a key. -/
def find? (d : Dictionary β) (k : Text) : Option β := valueIn k d.entries

@[simp] theorem find?_empty (k : Text) : (empty : Dictionary β).find? k = none := rfl

theorem valueIn_insertIn (k k' : Text) (b : β) (es : List (Text × β)) :
    valueIn k' (insertIn k b es) = if k' = k then some b else valueIn k' es := by
  induction es with
  | nil => by_cases h : k = k' <;> simp [insertIn, valueIn, h, eq_comm]
  | cons e es ih =>
    by_cases h : k' = k
    · subst h
      simp only [insertIn]
      split
      · simp [valueIn]
      split
      · simp [valueIn]
      · rename_i hne
        simp [valueIn, hne, ih]
    · simp only [insertIn]
      split
      · simp [valueIn, Ne.symm h]
      split
      · rename_i heq
        simp [valueIn, Ne.symm h, heq]
      · simp [valueIn, h, ih]

/-- An insertion gives its key the value and leaves all other keys alone. -/
theorem find?_insert (d : Dictionary β) (k k' : Text) (b : β) :
    (d.insert k b).find? k' = if k' = k then some b else d.find? k' :=
  valueIn_insertIn k k' b d.entries

end Dictionary

end LogShipper
