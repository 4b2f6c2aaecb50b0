import LogShipper.Proofs.Aggregator.Budget

/-!
# How deep a sample goes

A depth keeps the first lines of a stack: all of them if it is unlimited, and none if it is any
other negative number (`linesWithin`).  So of any two depths one keeps a beginning of what the other
keeps, and the joined depth keeps the longer of both, though the unlimited depth is a number below
zero (`keepStack_joinDepths`).  A sample for which several triggers fire has therefore the stack
that each of them asks for, and it is what one of them asks for (`captures_joinDepths`).
-/

namespace LogShipper

/-! ## Lines within a depth -/

/-- The number of lines of a stack that a depth reaches. -/
def linesWithin (depth : Int) (stack : List Text) : Nat :=
  if depth = unlimitedStack then stack.length else depth.toNat

/-- The longer of two stacks, the first one if they are of one length. -/
def longer (s t : List Text) : List Text := if s.length < t.length then t else s

/-- Of two beginnings the longer one reaches further. -/
theorem longer_take (i j : Nat) (stack : List Text) :
    longer (stack.take i) (stack.take j) = stack.take (max i j) := by
  unfold longer
  rcases le_total i j with hle | hle
  · have hprefix : stack.take i <+: stack.take j := List.take_prefix_take_left hle
    rw [max_eq_right hle]
    split
    · rfl
    · rename_i hlength
      exact hprefix.eq_of_length_le (Nat.le_of_not_lt hlength)
  · have hprefix : stack.take j <+: stack.take i := List.take_prefix_take_left hle
    rw [max_eq_left hle, if_neg (Nat.not_lt.2 hprefix.length_le)]

variable {a b depth : Int} {depths : List Int}

theorem keepStack_eq_take (depth : Int) (stack : List Text) :
    keepStack depth stack = stack.take (linesWithin depth stack) := by
  unfold keepStack linesWithin
  split
  · exact (List.take_length).symm
  · rfl

theorem keepStack_isPrefix (depth : Int) (stack : List Text) : keepStack depth stack <+: stack := by
  rw [keepStack_eq_take]
  exact List.take_prefix _ _

/-- Of two depths that are limited the greater one reaches further. -/
theorem keepStack_isPrefix_of_le (hlimited : b ≠ unlimitedStack) (hle : a ≤ b)
    (ha : a ≠ unlimitedStack) (stack : List Text) :
    keepStack a stack <+: keepStack b stack := by
  unfold keepStack
  rw [if_neg ha, if_neg hlimited]
  exact List.take_prefix_take_left (Int.toNat_le_toNat hle)

/-- The joined depth reaches as far as the one that reaches further. -/
theorem keepStack_joinDepths_eq_take (a b : Int) (stack : List Text) :
    keepStack (joinDepths a b) stack =
      stack.take (max (linesWithin a stack) (linesWithin b stack)) := by
  unfold linesWithin
  by_cases ha : a = unlimitedStack
  · subst ha
    rw [joinDepths_unlimited_left, keepStack_unlimited, if_pos rfl,
      List.take_of_length_le (le_max_left _ _)]
  · by_cases hb : b = unlimitedStack
    · subst hb
      rw [joinDepths_unlimited_right, keepStack_unlimited, if_pos rfl,
        List.take_of_length_le (le_max_right _ _)]
    · have hjoined : max a b ≠ unlimitedStack := by
        rcases max_choice a b with heq | heq
        · rwa [heq]
        · rwa [heq]
      have hmax : (max a b).toNat = max a.toNat b.toNat := by omega
      rw [joinDepths_of_ne ha hb, keepStack, if_neg hjoined, if_neg ha, if_neg hb, hmax]

/-- The joined depth keeps the longer of the two stacks. -/
theorem keepStack_joinDepths (a b : Int) (stack : List Text) :
    keepStack (joinDepths a b) stack = longer (keepStack a stack) (keepStack b stack) := by
  rw [keepStack_joinDepths_eq_take, keepStack_eq_take, keepStack_eq_take, longer_take]

/-- The deepest of some depths keeps what each of them does. -/
theorem IsDeepest.keepStack_isPrefix (h : IsDeepest depths (some depth)) {d : Int} (hd : d ∈ depths)
    (stack : List Text) : keepStack d stack <+: keepStack depth stack := by
  cases h with
  | unlimited hmem =>
    rw [keepStack_unlimited]
    exact LogShipper.keepStack_isPrefix d stack
  | greatest hmem hlimited hle =>
    exact keepStack_isPrefix_of_le (fun heq => hlimited (heq ▸ hmem)) (hle d hd)
      (fun heq => hlimited (heq ▸ hd)) stack

/-- It is one of them. -/
theorem IsDeepest.mem (h : IsDeepest depths (some depth)) : depth ∈ depths := by
  cases h with
  | unlimited hmem => exact hmem
  | greatest hmem _ _ => exact hmem

/-! ## Samples -/

/-- Whether capturing an event up to a depth gives a sample with a stack. -/
def Reading.Captures (reading : Reading) (depth : Int) (stack : List Text) : Prop :=
  ∃ sample, Sample.capture reading depth = .ok sample ∧ sample.stack = stack

/-- Whether a trigger is about an event and forwards it at an instant. -/
def Trigger.firesFor (reading : Reading) (now : Nat) (t : Trigger Text Binary64) : Bool :=
  t.appliesTo reading.severity && (t.offer reading.key now).2

/-- The triggers that forward an event at an instant. -/
def Intake.firing (i : Intake) (now : Nat) (reading : Reading) : List (Trigger Text Binary64) :=
  i.triggers.triggers.filter (Trigger.firesFor reading now)

section Capturing

variable {reading : Reading} {message : Text}

/-- An event that can be written is captured with its stack up to the depth. -/
theorem Reading.captures_keepStack (h : reading.rendered = .ok message) (depth : Int) :
    reading.Captures depth (keepStack depth reading.stack) := by
  unfold Reading.Captures Sample.capture
  rw [h]
  exact ⟨_, rfl, rfl⟩

/-- The triggers come to the deepest of the depths of those that forward the event. -/
theorem Intake.isDeepest_offer (i : Intake) (now : Nat) (reading : Reading) :
    IsDeepest ((i.firing now reading).map fun t => t.rule.depth)
      (i.triggers.offer reading.key reading.severity now).2 := by
  have hoffer := TriggerSet.offerTo_eq ⟨reading.key, reading.severity, now⟩ none
    i.triggers.triggers
  have hjoined := isDeepest_foldl_join ((i.firing now reading).map fun t => t.rule.depth)
  have hfolded : ((i.firing now reading).map fun t => t.rule.depth).foldl TriggerSet.join none =
      (i.triggers.offer reading.key reading.severity now).2 := by
    unfold TriggerSet.offer Intake.firing Trigger.firesFor
    rw [hoffer, List.foldl_map, List.foldl_filter]
    simp only [Bool.and_eq_true]
  rwa [hfolded] at hjoined

/-- If a trigger forwards an event that can be written, a sample is taken up to the deepest
depth. -/
theorem Intake.exists_queued (h : reading.rendered = .ok message) {i : Intake} {now : Nat}
    (hfiring : i.firing now reading ≠ []) : ∃ depth sample evicted,
      IsDeepest ((i.firing now reading).map fun t => t.rule.depth) (some depth) ∧
        sample.stack = keepStack depth reading.stack ∧
        (i.sampleTriggered now reading).2 = .queued sample evicted := by
  have hdeepest := i.isDeepest_offer now reading
  have hanswers := (i.sampleTriggered_answers now reading).2
  cases hoffered : (i.triggers.offer reading.key reading.severity now).2 with
  | none =>
    rw [hoffered] at hdeepest
    exact absurd (List.map_eq_nil_iff.1 (hdeepest.eq_none_iff.1 rfl)) hfiring
  | some depth =>
    rw [hoffered] at hdeepest hanswers
    obtain ⟨sample, hsample, hstack⟩ := reading.captures_keepStack h depth
    simp only [Sampling.Answers, hsample] at hanswers
    obtain ⟨evicted, hqueued⟩ := hanswers
    exact ⟨depth, sample, evicted, hdeepest, hstack, hqueued⟩

/-- **A joined depth keeps the longer of both stacks.**  Of the stacks of one event at any two
depths one is a beginning of the other, and at the joined depth the longer one is captured.  So
where several triggers forward an event, the sample that is taken has what each of them asks for in
its stack, and nothing beyond what one of them asks for. -/
theorem captures_joinDepths (h : reading.rendered = .ok message) :
    (∀ a b : Int, ∃ s t, reading.Captures a s ∧ reading.Captures b t ∧ (s <+: t ∨ t <+: s) ∧
      reading.Captures (joinDepths a b) (longer s t)) ∧
    ∀ (i : Intake) (now : Nat), i.firing now reading ≠ [] → ∃ sample evicted,
      (i.sampleTriggered now reading).2 = .queued sample evicted ∧
        (∀ t ∈ i.firing now reading, ∃ s, reading.Captures t.rule.depth s ∧ s <+: sample.stack) ∧
        ∃ t ∈ i.firing now reading, reading.Captures t.rule.depth sample.stack := by
  refine ⟨fun a b => ?_, fun i now hfiring => ?_⟩
  · refine ⟨_, _, reading.captures_keepStack h a, reading.captures_keepStack h b,
      List.prefix_or_prefix_of_prefix (keepStack_isPrefix a _) (keepStack_isPrefix b _), ?_⟩
    rw [← keepStack_joinDepths]
    exact reading.captures_keepStack h _
  · obtain ⟨depth, sample, evicted, hdeepest, hstack, hqueued⟩ := Intake.exists_queued h hfiring
    refine ⟨sample, evicted, hqueued, fun t ht => ?_, ?_⟩
    · refine ⟨_, reading.captures_keepStack h t.rule.depth, ?_⟩
      rw [hstack]
      exact hdeepest.keepStack_isPrefix (List.mem_map_of_mem ht) _
    · obtain ⟨t, ht, rfl⟩ := List.mem_map.1 hdeepest.mem
      rw [hstack]
      exact ⟨t, ht, reading.captures_keepStack h t.rule.depth⟩

/-- An error with a stack of three lines.  The depths -5 and 2 come to two lines, and a sample for
triggers with the depths 2 and -1, which is the unlimited one, has all three. -/
theorem captures_joinDepths_of_unlimited :
    let reading : Reading :=
      { key := "app", label := "ERROR", severity := .error, rendered := .ok "down"
        stack := ["a", "b", "c"] }
    let short : TriggerRule Binary64 :=
      { severity := .error, multiplier := .ofNat 2, window := 10, depth := 2 }
    let i : Intake :=
      { counter := .empty, triggers := .ofRules [short, { short with depth := unlimitedStack }]
        queue := .new 10, urgent := [], totalEvents := 0, eventsSinceFlush := 0 }
    reading.rendered = .ok "down".toList ∧
      reading.Captures (joinDepths (-5) 2) ["a", "b"] ∧
      i.firing 0 reading ≠ [] ∧ ∃ sample evicted,
        (i.sampleTriggered 0 reading).2 = .queued sample evicted ∧
          ["a".toList, "b", "c"] <+: sample.stack := by
  intro reading short i
  obtain ⟨hjoined, htaken⟩ := @captures_joinDepths reading "down" rfl
  obtain ⟨_, _, ⟨none, hnone, rfl⟩, ⟨two, htwo, rfl⟩, -, hlonger⟩ := hjoined (-5) 2
  cases hnone
  cases htwo
  have hall : i.firing 0 reading = i.triggers.triggers :=
    List.filter_eq_self.2 (by decide +kernel)
  have hfiring : i.firing 0 reading ≠ [] := by
    rw [hall]
    exact List.cons_ne_nil _ _
  obtain ⟨sample, evicted, hqueued, hasked, -⟩ := htaken i 0 hfiring
  refine ⟨rfl, hlonger, hfiring, sample, evicted, hqueued, ?_⟩
  have hunlimited : Trigger.new { short with depth := unlimitedStack } ∈ i.firing 0 reading := by
    rw [hall]
    exact List.mem_cons_of_mem _ List.mem_cons_self
  obtain ⟨stack, ⟨own, hown, rfl⟩, hprefix⟩ := hasked _ hunlimited
  cases hown
  exact hprefix

end Capturing

end LogShipper
