import LogShipper.Proofs.Text.Trimming
import LogShipper.Wire.Tag

/-!
# Tags that are merged

Tags are alike if their keys differ at most in ASCII case.  Merging keeps one tag of those that are
alike: it stands where the first of them stood and has its key, with the value of the last
(`Tag.merge_eq`).  Only tags count whose keys are still there once they are made names, and whose
values once they are trimmed (`Tag.proper`).

The reference that merging is compared with knows nothing of tags that are put among others.  Both
meet in one step: the first of some tags takes the value of the last that is alike it, and the
others are put among the rest as if those were not there (`Tag.putAll_cons`).
-/

namespace LogShipper

/-! ## The first of each kind -/

section FirstOfEach

universe u

variable {α : Type u} {r : α → α → Bool} {x : α} {xs : List α}

/-- Induction along what is kept: a statement about a list may use it for the rest of the list
without what is like the first. -/
@[elab_as_elim]
theorem eraseDupsBy_induction (r : α → α → Bool) {motive : List α → Prop} (nil : motive [])
    (cons : ∀ y ys, motive (ys.filter fun z => decide (r z y = false)) → motive (y :: ys))
    (xs : List α) : motive xs := by
  induction hn : xs.length using Nat.strongRecOn generalizing xs with
  | ind n ih =>
    cases xs with
    | nil => exact nil
    | cons y ys =>
      have hlength := List.length_filter_le (fun z => decide (r z y = false)) ys
      rw [List.length_cons] at hn
      exact cons y ys (ih _ (by omega) _ rfl)

theorem mem_of_mem_eraseDupsBy (h : x ∈ xs.eraseDupsBy r) : x ∈ xs := by
  induction xs using eraseDupsBy_induction r with
  | nil => exact h
  | cons y ys ih =>
    rw [List.eraseDupsBy_cons] at h
    rcases List.mem_cons.1 h with rfl | h
    · exact List.mem_cons_self
    · exact List.mem_cons_of_mem _ (List.mem_filter.1 (ih h)).1

/-- None of what is kept is like an earlier one. -/
theorem pairwise_eraseDupsBy (r : α → α → Bool) (xs : List α) :
    (xs.eraseDupsBy r).Pairwise fun x y => r y x = false := by
  induction xs using eraseDupsBy_induction r with
  | nil => exact .nil
  | cons y ys ih =>
    rw [List.eraseDupsBy_cons]
    refine List.pairwise_cons.2 ⟨fun z hz => ?_, ih⟩
    exact of_decide_eq_true (List.mem_filter.1 (mem_of_mem_eraseDupsBy hz)).2

/-- Something that is kept is like each that is not. -/
theorem exists_mem_eraseDupsBy (hrefl : ∀ x, r x x = true) (h : x ∈ xs) :
    ∃ y ∈ xs.eraseDupsBy r, r x y = true := by
  induction xs using eraseDupsBy_induction r with
  | nil => exact absurd h List.not_mem_nil
  | cons y ys ih =>
    rw [List.eraseDupsBy_cons]
    by_cases hxy : r x y = true
    · exact ⟨y, List.mem_cons_self, hxy⟩
    · have hne : x ≠ y := by
        rintro rfl
        exact hxy (hrefl x)
      have hmem := (List.mem_cons.1 h).resolve_left hne
      obtain ⟨z, hz, hxz⟩ := ih (List.mem_filter.2 ⟨hmem, by simpa using hxy⟩)
      exact ⟨z, List.mem_cons_of_mem _ hz, hxz⟩

end FirstOfEach

namespace Wire

/-! ## Names -/

/-- A text that is a name is not changed by being made one. -/
theorem sanitizeName_eq_self {t : Text} (hblank : ∀ c ∈ t, isBlank c = false)
    (hquote : ∀ c ∈ t, c ≠ '"') : sanitizeName t = t := by
  unfold sanitizeName
  rw [Text.trim_of_forall hblank]
  induction t with
  | nil => rfl
  | cons c t ih =>
    have hc : isBlank c = false := hblank c List.mem_cons_self
    rw [nameFrom, hc, if_neg (by decide), if_neg (hquote c List.mem_cons_self),
      if_neg (by decide), ih (fun d hd => hblank d (List.mem_cons_of_mem _ hd))
        fun d hd => hquote d (List.mem_cons_of_mem _ hd)]

@[simp] theorem sanitizeName_sanitizeName (t : Text) :
    sanitizeName (sanitizeName t) = sanitizeName t :=
  sanitizeName_eq_self (fun _ hc => isBlank_of_mem_sanitizeName hc)
    fun _ hc => ne_quote_of_mem_sanitizeName hc

namespace Tag

/-! ## Tags that are alike -/

/-- Whether the keys of two tags differ at most in ASCII case. -/
def alike (s t : Tag) : Bool := Text.sameIgnoringCase s.key t.key

variable {s t tag first : Tag} {tags : List Tag}

theorem alike_iff : s.alike t = true ↔ s.key.lower = t.key.lower := Text.sameIgnoringCase_iff

@[simp] theorem alike_self (t : Tag) : t.alike t = true := Text.sameIgnoringCase_self t.key

theorem alike_comm (s t : Tag) : s.alike t = t.alike s := Text.sameIgnoringCase_comm s.key t.key

theorem alike_congr (h : s.alike t = true) (tag : Tag) : s.alike tag = t.alike tag := by
  rw [Bool.eq_iff_iff, alike_iff, alike_iff, alike_iff.1 h]

/-! ## Tags that count -/

/-- The tags with their keys made names and their values trimmed, without those that then lack one
of them. -/
def proper (tags : List Tag) : List Tag :=
  (tags.map fun t => ⟨sanitizeName t.key, t.value.trim⟩).filter fun t =>
    !t.key.isEmpty && !t.value.isEmpty

theorem filterMap_normal? (tags : List Tag) : tags.filterMap normal? = proper tags := by
  induction tags with
  | nil => rfl
  | cons tag tags ih =>
    unfold proper at ih ⊢
    rw [List.filterMap_cons, List.map_cons, List.filter_cons, ih]
    unfold normal?
    cases hkey : (sanitizeName tag.key).isEmpty <;> cases hvalue : tag.value.trim.isEmpty <;>
      simp [hkey, hvalue]

/-- The tags that count as they stand. -/
theorem normal?_eq_some_self_iff {key value : Text} : normal? ⟨key, value⟩ = some ⟨key, value⟩ ↔
    (sanitizeName key = key ∧ key ≠ []) ∧ value.trim = value ∧ value ≠ [] := by
  simp only [normal?, Option.ite_none_left_eq_some, Bool.or_eq_true, List.isEmpty_iff, not_or,
    Option.some.injEq, Tag.mk.injEq]
  constructor
  · rintro ⟨⟨hkey, hvalue⟩, hsanitized, htrimmed⟩
    exact ⟨⟨hsanitized, hsanitized ▸ hkey⟩, htrimmed, htrimmed ▸ hvalue⟩
  · rintro ⟨⟨hsanitized, hkey⟩, htrimmed, hvalue⟩
    rw [hsanitized, htrimmed]
    exact ⟨⟨hkey, hvalue⟩, rfl, rfl⟩

/-- What counts of a tag counts as it stands. -/
theorem normal?_of_mem_proper (h : t ∈ proper tags) : normal? t = some t := by
  obtain ⟨ht, hkept⟩ := List.mem_filter.1 h
  obtain ⟨tag, -, rfl⟩ := List.mem_map.1 ht
  simp only [Bool.and_eq_true, Bool.not_eq_true', List.isEmpty_eq_false_iff] at hkept
  exact normal?_eq_some_self_iff.2
    ⟨⟨sanitizeName_sanitizeName tag.key, hkept.1⟩, Text.trim_trim tag.value, hkept.2⟩

theorem proper_eq_self (h : ∀ t ∈ tags, normal? t = some t) : proper tags = tags := by
  rw [← filterMap_normal?]
  induction tags with
  | nil => rfl
  | cons tag tags ih =>
    obtain ⟨htag, htags⟩ := List.forall_mem_cons.1 h
    rw [List.filterMap_cons_some htag, ih htags]

/-! ## Putting tags among others -/

/-- The value of the last of some tags that is alike a given one, or its own value if none is. -/
def lastValue (tag : Tag) (tags : List Tag) : Text :=
  ((tags.filter tag.alike).getLast?).elim tag.value Tag.value

theorem lastValue_cons (tag t : Tag) (tags : List Tag) : tag.lastValue (t :: tags) =
    if tag.alike t then lastValue ⟨tag.key, t.value⟩ tags else tag.lastValue tags := by
  have hfilter : tags.filter (alike ⟨tag.key, t.value⟩) = tags.filter tag.alike := rfl
  unfold lastValue
  rw [hfilter]
  split
  · rename_i halike
    rw [List.filter_cons_of_pos halike, List.getLast?_cons]
    cases (tags.filter tag.alike).getLast? <;> rfl
  · rename_i halike
    rw [List.filter_cons_of_neg halike]

theorem put_cons (tag first : Tag) (tags : List Tag) : put tag (first :: tags) =
    if first.alike tag then ⟨first.key, tag.value⟩ :: tags else first :: put tag tags := rfl

/-- Puts tags among others, one after the other. -/
def putAll (tags merged : List Tag) : List Tag :=
  tags.foldl (fun merged tag => put tag merged) merged

/-- The first tag takes the value of the last that is alike it, and the others are put among the
rest as if those were not there. -/
theorem putAll_cons (tags : List Tag) (first : Tag) (merged : List Tag) :
    putAll tags (first :: merged) = ⟨first.key, first.lastValue tags⟩ ::
      putAll (tags.filter fun t => !first.alike t) merged := by
  induction tags generalizing first merged with
  | nil => rfl
  | cons tag tags ih =>
    have hstep : putAll (tag :: tags) (first :: merged) = putAll tags (put tag (first :: merged)) :=
      rfl
    rw [hstep, put_cons, lastValue_cons]
    cases halike : first.alike tag with
    | true =>
      rw [if_pos rfl, if_pos rfl, ih, List.filter_cons_of_neg (by simp [halike])]
      rfl
    | false =>
      rw [if_neg (by decide), if_neg (by decide), ih, List.filter_cons_of_pos (by simp [halike])]
      rfl

theorem lastValue_filter (h : ¬first.alike tag = true) (tags : List Tag) :
    tag.lastValue (tags.filter fun t => !first.alike t) = tag.lastValue tags := by
  have hfilter : (tags.filter fun t => !first.alike t).filter tag.alike =
      tags.filter tag.alike := by
    rw [List.filter_filter]
    refine List.filter_congr fun t _ => ?_
    cases ht : tag.alike t with
    | false => rfl
    | true =>
      have hsame : first.alike t = first.alike tag := by
        rw [alike_comm, ← alike_congr ht, alike_comm]
      simp [hsame, h]
  unfold lastValue
  rw [hfilter]

/-- The value is that of the tag or of one of the others. -/
theorem exists_lastValue (tag : Tag) (tags : List Tag) :
    ∃ t, (t = tag ∨ t ∈ tags) ∧ tag.lastValue tags = t.value := by
  unfold lastValue
  cases hlast : (tags.filter tag.alike).getLast? with
  | none => exact ⟨tag, .inl rfl, rfl⟩
  | some t => exact ⟨t, .inr (List.mem_filter.1 (List.mem_of_getLast? hlast)).1, rfl⟩

/-- Tags put one after the other: the first of each kind, with the value of the last. -/
theorem putAll_nil_eq (tags : List Tag) :
    putAll tags [] = (tags.eraseDupsBy alike).map fun t => ⟨t.key, t.lastValue tags⟩ := by
  induction tags using eraseDupsBy_induction alike with
  | nil => rfl
  | cons first tags ih =>
    have hothers : (fun t : Tag => decide (t.alike first = false)) = fun t => !first.alike t := by
      funext t
      rw [alike_comm]
      cases first.alike t <;> rfl
    have hstart : putAll (first :: tags) [] = putAll tags [first] := rfl
    rw [hothers] at ih
    rw [hstart, putAll_cons, ih, List.eraseDupsBy_cons, hothers, List.map_cons, lastValue_cons,
      if_pos (alike_self first)]
    refine congrArg _ (List.map_congr_left fun t ht => ?_)
    have hkept := (List.mem_filter.1 (mem_of_mem_eraseDupsBy ht)).2
    rw [Bool.not_eq_true'] at hkept
    have hfirst : ¬t.alike first = true := by simp [alike_comm, hkept]
    rw [lastValue_cons, if_neg hfirst, lastValue_filter (by simp [hkept])]

theorem merge_eq_putAll (tags : List Tag) : merge tags = putAll (proper tags) [] := by
  unfold merge putAll
  rw [filterMap_normal?]

theorem merge_eq_map (tags : List Tag) : merge tags =
    ((proper tags).eraseDupsBy alike).map fun t => ⟨t.key, t.lastValue (proper tags)⟩ := by
  rw [merge_eq_putAll, putAll_nil_eq]

/-- No two merged tags are alike. -/
theorem pairwise_merge (tags : List Tag) : (merge tags).Pairwise fun s t => s.alike t = false := by
  rw [merge_eq_map, List.pairwise_map]
  refine (pairwise_eraseDupsBy alike (proper tags)).imp fun {s t} h => ?_
  rwa [alike_comm] at h

/-- Merged tags count as they stand. -/
theorem normal?_of_mem_merge (h : t ∈ merge tags) : normal? t = some t := by
  rw [merge_eq_map] at h
  obtain ⟨first, hfirst, rfl⟩ := List.mem_map.1 h
  have hproper := mem_of_mem_eraseDupsBy hfirst
  obtain ⟨last, hlast, hvalue⟩ := exists_lastValue first (proper tags)
  have hmem : last ∈ proper tags := by
    rcases hlast with rfl | hlast
    · exact hproper
    · exact hlast
  rw [hvalue]
  exact normal?_eq_some_self_iff.2 ⟨(normal?_eq_some_self_iff.1 (normal?_of_mem_proper hproper)).1,
    (normal?_eq_some_self_iff.1 (normal?_of_mem_proper hmem)).2⟩

/-- The keys of merged tags are names. -/
theorem sanitizeName_key_of_mem_merge (h : t ∈ merge tags) : sanitizeName t.key = t.key :=
  (normal?_eq_some_self_iff.1 (normal?_of_mem_merge h)).1.1

/-- Tags of which no two are alike stay as they are. -/
theorem putAll_nil_eq_self (h : tags.Pairwise fun s t => s.alike t = false) :
    putAll tags [] = tags := by
  induction tags with
  | nil => rfl
  | cons first tags ih =>
    obtain ⟨hfirst, htags⟩ := List.pairwise_cons.1 h
    have hnone : tags.filter first.alike = [] := by
      rw [List.filter_eq_nil_iff]
      exact fun t ht => by simp [hfirst t ht]
    have hall : (tags.filter fun t => !first.alike t) = tags := by
      rw [List.filter_eq_self]
      exact fun t ht => by simp [hfirst t ht]
    have hstart : putAll (first :: tags) [] = putAll tags [first] := rfl
    rw [hstart, putAll_cons, hall, ih htags]
    unfold lastValue
    rw [hnone]
    rfl

/-- Of the tags that count, merging keeps one of those that are alike.  It stands where the first
of them stood and has its key, with the value of the last.  What is merged stays as it is when it is
merged again. -/
theorem merge_eq (tags : List Tag) :
    merge tags =
        ((proper tags).eraseDupsBy alike).map (fun t => ⟨t.key, t.lastValue (proper tags)⟩) ∧
      ((merge tags).Pairwise fun s t => s.alike t = false) ∧
      merge (merge tags) = merge tags := by
  refine ⟨merge_eq_map tags, pairwise_merge tags, ?_⟩
  rw [merge_eq_putAll (merge tags), proper_eq_self fun t => normal?_of_mem_merge]
  exact putAll_nil_eq_self (pairwise_merge tags)

/-- The third tag gives its value to the first, and the fourth has none to give. -/
example : merge [⟨"Env", "a"⟩, ⟨"region", "eu"⟩, ⟨"ENV", " b "⟩, ⟨"env", " "⟩] =
    [⟨"Env", "b"⟩, ⟨"region", "eu"⟩] := by decide

end Tag

end Wire

end LogShipper
