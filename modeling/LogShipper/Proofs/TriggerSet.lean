import LogShipper.Proofs.Thinning

/-!
# Sets of triggers

An event is offered to every trigger of its severity.  So each trigger of a set is where it would be
alone, after the events of its own severity (`TriggerSet.triggers_offerAll`).

What a set asks for can therefore be said without its triggers: each rule of the severity is
followed through the instants of the events of the key, and of those rules that forward the event
the depths are joined (`TriggerRule.request`, `TriggerSet.offer_offerAll`).

Joining depths finds the deepest of them, where the unlimited depth lies below all others although
it is the number -1.  `IsDeepest` says so without an order of joining, and so the triggers of a set
may stand in any order (`TriggerSet.triggers_independent`).
-/

namespace LogShipper

universe u v

variable {κ : Type u} {θ : Type v}

/-! ## Offers -/

/-- An event as the triggers see it. -/
structure Offer (κ : Type u) where
  key : κ
  severity : Severity
  instant : Nat

namespace Offer

/-- What the triggers of a severity see of some events. -/
def callsOf (severity : Severity) (offers : List (Offer κ)) : List (κ × Nat) :=
  (offers.filter fun o => o.severity = severity).map fun o => (o.key, o.instant)

theorem callsOf_append (severity : Severity) (earlier later : List (Offer κ)) :
    callsOf severity (earlier ++ later) = callsOf severity earlier ++ callsOf severity later := by
  unfold callsOf
  rw [List.filter_append, List.map_append]

variable [DecidableEq κ]

/-- The instants of the events of a key and a severity. -/
def instantsOf (key : κ) (severity : Severity) (offers : List (Offer κ)) : List Nat :=
  (offers.filter fun o => o.key = key ∧ o.severity = severity).map Offer.instant

theorem instantsOf_callsOf (key : κ) (severity : Severity) (offers : List (Offer κ)) :
    Trigger.instantsOf key (callsOf severity offers) = instantsOf key severity offers := by
  unfold Trigger.instantsOf callsOf instantsOf
  rw [List.filter_map, List.map_map, List.filter_filter]
  congr 1
  apply List.filter_congr
  intro o _
  exact (Bool.decide_and _ _).symm

end Offer

/-! ## A trigger alone -/

variable [DecidableEq κ] [ThresholdArithmetic θ]

/-- Whether a trigger with the rule forwards an event at an instant, after the events of its key at
the given instants. -/
def TriggerRule.forwards (rule : TriggerRule θ) (instants : List Nat) (now : Nat) : Bool :=
  let present := (TriggerWindow.after rule instants).getD (.openAt now)
  ((present.atInstant rule.window now).advance rule.multiplier).2

/-- The depth that rules of a severity ask for, each followed through the instants of the events of
a key: nothing if none of them forwards the event, and otherwise the depth that satisfies all of
those that do. -/
def TriggerRule.request (rules : List (TriggerRule θ)) (severity : Severity) (instants : List Nat)
    (now : Nat) : Option Int :=
  rules.foldl (fun requested rule =>
    if rule.severity = severity ∧ rule.forwards instants now then
      TriggerSet.join requested rule.depth
    else requested) none

namespace Trigger

/-- A trigger forwards an event as the instants of the earlier events of its key say. -/
theorem offer_offerAll (rule : TriggerRule θ) (calls : List (κ × Nat)) (key : κ) (now : Nat) :
    (((new rule).offerAll calls).offer key now).2 = rule.forwards (instantsOf key calls) now := by
  unfold offer TriggerRule.forwards
  dsimp only
  rw [find?_offerAll, rule_offerAll]
  rfl

theorem appliesTo_offerAll (rule : TriggerRule θ) (calls : List (κ × Nat)) (severity : Severity) :
    ((new rule).offerAll calls).appliesTo severity = decide (rule.severity = severity) := by
  unfold appliesTo
  rw [rule_offerAll]
  rfl

theorem offerAll_append (t : Trigger κ θ) (earlier later : List (κ × Nat)) :
    t.offerAll (earlier ++ later) = (t.offerAll earlier).offerAll later := List.foldl_append

/-- A trigger with the rule that is alone, after the events of its own severity. -/
def alone (rule : TriggerRule θ) (offers : List (Offer κ)) : Trigger κ θ :=
  (new rule).offerAll (Offer.callsOf rule.severity offers)

/-- Whether a trigger with the rule is about a further event and, alone, forwards it. -/
def forwardsAlone (offers : List (Offer κ)) (o : Offer κ) (rule : TriggerRule θ) : Bool :=
  rule.severity = o.severity && ((alone rule offers).offer o.key o.instant).2

/-- A trigger after an event of some severity, which it counts if it is its own. -/
def afterOffer (o : Offer κ) (t : Trigger κ θ) : Trigger κ θ :=
  if t.appliesTo o.severity then (t.offer o.key o.instant).1 else t

/-- A trigger counts the events of its own severity. -/
theorem afterOffer_alone (rule : TriggerRule θ) (offers : List (Offer κ)) (o : Offer κ) :
    afterOffer o (alone rule offers) = alone rule (offers ++ [o]) := by
  unfold afterOffer alone
  rw [appliesTo_offerAll, Offer.callsOf_append, offerAll_append]
  by_cases hseverity : rule.severity = o.severity
  · have hcalls : Offer.callsOf rule.severity [o] = [(o.key, o.instant)] := by
      simp [Offer.callsOf, hseverity]
    rw [if_pos (decide_eq_true hseverity), hcalls]
    rfl
  · have hcalls : Offer.callsOf rule.severity [o] = [] := by
      simp [Offer.callsOf, Ne.symm hseverity]
    rw [if_neg (by simpa using hseverity), hcalls]
    rfl

end Trigger

/-! ## Every trigger of a set -/

namespace TriggerSet

/-- A set after some events. -/
def offerAll (set : TriggerSet κ θ) (offers : List (Offer κ)) : TriggerSet κ θ :=
  offers.foldl (fun set o => (set.offer o.key o.severity o.instant).1) set

theorem offerAll_append (set : TriggerSet κ θ) (earlier later : List (Offer κ)) :
    set.offerAll (earlier ++ later) = (set.offerAll earlier).offerAll later := List.foldl_append

/-- Each trigger of the severity is offered the event, whatever the ones before it asked for. -/
theorem offerTo_eq (o : Offer κ) (requested : Option Int) (triggers : List (Trigger κ θ)) :
    offerTo o.key o.severity o.instant requested triggers =
      (triggers.map (Trigger.afterOffer o),
        triggers.foldl (fun requested t =>
          if t.appliesTo o.severity ∧ (t.offer o.key o.instant).2 then join requested t.rule.depth
          else requested) requested) := by
  induction triggers generalizing requested with
  | nil => rfl
  | cons t triggers ih =>
    unfold offerTo
    rw [List.map_cons, List.foldl_cons]
    by_cases happlies : t.appliesTo o.severity = true
    · rw [if_pos happlies]
      dsimp only
      rw [ih]
      simp [Trigger.afterOffer, happlies]
    · rw [if_neg happlies]
      dsimp only
      rw [ih]
      simp [Trigger.afterOffer, happlies]

variable (rules : List (TriggerRule θ)) (offers : List (Offer κ))

/-- Each trigger of a set is where it would be alone, after the events of its own severity. -/
theorem triggers_offerAll : ((ofRules rules).offerAll offers).triggers =
    rules.map fun rule => Trigger.alone rule offers := by
  induction offers using List.reverseRecOn with
  | nil => rfl
  | append_singleton offers o ih =>
    have hlast : ((ofRules rules : TriggerSet κ θ).offerAll (offers ++ [o])).triggers =
        (offerTo o.key o.severity o.instant none ((ofRules rules).offerAll offers).triggers).1 :=
      congrArg triggers (offerAll_append _ offers [o])
    rw [hlast, offerTo_eq, ih, List.map_map]
    exact List.map_congr_left fun rule _ => Trigger.afterOffer_alone rule offers o

/-- A set joins the depths of the rules whose triggers, alone, forward the event. -/
theorem offer_eq_foldl (o : Offer κ) :
    (((ofRules rules).offerAll offers).offer o.key o.severity o.instant).2 =
      rules.foldl (fun requested rule =>
        if Trigger.forwardsAlone offers o rule then join requested rule.depth else requested)
        none := by
  unfold offer
  rw [offerTo_eq, triggers_offerAll]
  show List.foldl _ none (rules.map _) = _
  rw [List.foldl_map]
  congr 1
  funext requested rule
  have happlies : (Trigger.alone rule offers).appliesTo o.severity =
      decide (rule.severity = o.severity) := Trigger.appliesTo_offerAll rule _ o.severity
  have hdepth : (Trigger.alone rule offers).rule.depth = rule.depth :=
    congrArg TriggerRule.depth (Trigger.rule_offerAll (Trigger.new rule) _)
  rw [happlies, hdepth]
  simp [Trigger.forwardsAlone]

/-- What a set asks for depends on the instants of the events of the key and the severity alone. -/
theorem offer_offerAll (o : Offer κ) :
    (((ofRules rules).offerAll offers).offer o.key o.severity o.instant).2 =
      TriggerRule.request rules o.severity (Offer.instantsOf o.key o.severity offers)
        o.instant := by
  rw [offer_eq_foldl]
  unfold TriggerRule.request
  congr 1
  funext requested rule
  unfold Trigger.forwardsAlone Trigger.alone
  rw [Trigger.offer_offerAll, Offer.instantsOf_callsOf]
  by_cases hseverity : rule.severity = o.severity
  · simp [hseverity]
  · simp [hseverity]

end TriggerSet

/-! ## The deepest request -/

/-- What some depths come to: nothing if there are none, unlimited if one of them is, and the
greatest of them otherwise. -/
inductive IsDeepest (depths : List Int) : Option Int → Prop
  | nothing (hnil : depths = []) : IsDeepest depths none
  | unlimited (hmem : unlimitedStack ∈ depths) : IsDeepest depths (some unlimitedStack)
  | greatest {depth : Int} (hmem : depth ∈ depths) (hlimited : unlimitedStack ∉ depths)
      (hle : ∀ d ∈ depths, d ≤ depth) : IsDeepest depths (some depth)

namespace IsDeepest

variable {depths depths' : List Int} {requested requested' : Option Int}

/-- The order of the depths does not matter. -/
theorem perm (h : IsDeepest depths requested) (hperm : depths.Perm depths') :
    IsDeepest depths' requested := by
  cases h with
  | nothing hnil =>
    rw [hnil] at hperm
    exact .nothing hperm.symm.eq_nil
  | unlimited hmem => exact .unlimited (hperm.mem_iff.1 hmem)
  | greatest hmem hlimited hle =>
    refine .greatest (hperm.mem_iff.1 hmem) ?_ ?_
    · rwa [← hperm.mem_iff]
    · rintro d hd
      exact hle d (hperm.mem_iff.2 hd)

/-- Depths come to one thing only. -/
theorem unique (h : IsDeepest depths requested) (h' : IsDeepest depths requested') :
    requested = requested' := by
  cases h with
  | nothing hnil =>
    subst hnil
    cases h' with
    | nothing _ => rfl
    | unlimited hmem => exact absurd hmem List.not_mem_nil
    | greatest hmem _ _ => exact absurd hmem List.not_mem_nil
  | unlimited hmem =>
    cases h' with
    | nothing hnil => exact absurd (hnil ▸ hmem) List.not_mem_nil
    | unlimited _ => rfl
    | greatest _ hlimited _ => exact absurd hmem hlimited
  | greatest hmem hlimited hle =>
    cases h' with
    | nothing hnil => exact absurd (hnil ▸ hmem) List.not_mem_nil
    | unlimited hmem' => exact absurd hmem' hlimited
    | greatest hmem' _ hle' => exact congrArg some (Int.le_antisymm (hle' _ hmem) (hle _ hmem'))

theorem eq_none_iff (h : IsDeepest depths requested) : requested = none ↔ depths = [] := by
  cases h with
  | nothing hnil => exact iff_of_true rfl hnil
  | unlimited hmem => exact iff_of_false nofun (List.ne_nil_of_mem hmem)
  | greatest hmem _ _ => exact iff_of_false nofun (List.ne_nil_of_mem hmem)

/-- One more finite depth beside finite ones. -/
theorem join_of_finite {present depth : Int} (hmem : present ∈ depths)
    (hlimited : unlimitedStack ∉ depths) (hle : ∀ d ∈ depths, d ≤ present)
    (hdepth : depth ≠ unlimitedStack) :
    IsDeepest (depths ++ [depth]) (some (max present depth)) := by
  refine .greatest ?_ ?_ ?_
  · rcases max_choice present depth with heq | heq
    · rw [heq]
      exact List.mem_append_left _ hmem
    · rw [heq]
      exact List.mem_append_right _ (List.mem_singleton_self depth)
  · simp [hlimited, Ne.symm hdepth]
  · rintro d hd
    rcases List.mem_append.1 hd with hd | hd
    · exact (hle d hd).trans (le_max_left present depth)
    · rw [List.mem_singleton.1 hd]
      exact le_max_right present depth

/-- One more depth is joined to what the others come to. -/
theorem join (h : IsDeepest depths requested) (depth : Int) :
    IsDeepest (depths ++ [depth]) (TriggerSet.join requested depth) := by
  unfold TriggerSet.join
  by_cases hdepth : depth = unlimitedStack
  · subst hdepth
    have hjoined : (requested.elim unlimitedStack fun present =>
        joinDepths present unlimitedStack) = unlimitedStack := by
      cases requested <;> simp
    rw [hjoined]
    exact .unlimited (by simp)
  · cases h with
    | nothing hnil =>
      subst hnil
      exact .greatest (List.mem_singleton_self depth) (by simpa using Ne.symm hdepth) (by simp)
    | unlimited hmem =>
      rw [Option.elim_some, joinDepths_unlimited_left]
      exact .unlimited (List.mem_append_left _ hmem)
    | greatest hmem hlimited hle =>
      rw [Option.elim_some, joinDepths_of_ne (fun heq => hlimited (heq ▸ hmem)) hdepth]
      exact join_of_finite hmem hlimited hle hdepth

end IsDeepest

/-- Joined one after the other, depths come to the deepest. -/
theorem isDeepest_foldl_join (depths : List Int) :
    IsDeepest depths (depths.foldl TriggerSet.join none) := by
  induction depths using List.reverseRecOn with
  | nil => exact .nothing rfl
  | append_singleton depths depth ih =>
    rw [List.foldl_append]
    exact ih.join depth

namespace TriggerSet

variable (rules : List (TriggerRule θ)) (offers : List (Offer κ)) (o : Offer κ)

/-- **A set is its triggers, each alone.**  After any events, what a set asks for a further event is
the deepest of what its triggers of the severity ask for that forward the event when each of them
is alone on the events of its own severity; so it asks for nothing exactly when none of them
forwards it.  The order of the triggers does not matter, and every trigger goes on from where it
would be alone, whichever of the others fired. -/
theorem triggers_independent :
    let set : TriggerSet κ θ := (ofRules rules).offerAll offers
    let offered := set.offer o.key o.severity o.instant
    IsDeepest ((rules.filter (Trigger.forwardsAlone offers o)).map TriggerRule.depth) offered.2 ∧
      (offered.2 = none ↔ ∀ rule ∈ rules, rule.severity = o.severity →
        ((Trigger.alone rule offers).offer o.key o.instant).2 = false) ∧
      (∀ reordered, rules.Perm reordered →
        (((ofRules reordered).offerAll offers).offer o.key o.severity o.instant).2 = offered.2) ∧
      offered.1.triggers = rules.map fun rule => Trigger.alone rule (offers ++ [o]) := by
  intro set offered
  have hdeepest (rules : List (TriggerRule θ)) :
      IsDeepest ((rules.filter (Trigger.forwardsAlone offers o)).map TriggerRule.depth)
        (((ofRules rules).offerAll offers).offer o.key o.severity o.instant).2 := by
    rw [offer_eq_foldl, ← List.foldl_filter, ← List.foldl_map]
    exact isDeepest_foldl_join _
  refine ⟨hdeepest rules, ?_, ?_, ?_⟩
  · rw [(hdeepest rules).eq_none_iff, List.map_eq_nil_iff, List.filter_eq_nil_iff]
    simp [Trigger.forwardsAlone]
  · rintro reordered hperm
    exact (hdeepest reordered).unique ((hdeepest rules).perm ((hperm.filter _).map _))
  · rw [← triggers_offerAll]
    exact congrArg triggers (offerAll_append _ offers [o]).symm

/-- The third error of a key, after a warning too: the factor 2 holds it back, the factors 3 and 1
forward it.  Seven lines are asked for, and as many when the triggers stand in another order. -/
theorem triggers_independent_of_third :
    let doubling : TriggerRule Binary64 :=
      { severity := .error, multiplier := .ofNat 2, window := 10, depth := unlimitedStack }
    let tripling : TriggerRule Binary64 := { doubling with multiplier := .ofNat 3, depth := 7 }
    let steady : TriggerRule Binary64 := { doubling with multiplier := .ofNat 1, depth := 2 }
    let offers : List (Offer String) := [⟨"app", .error, 0⟩, ⟨"app", .warn, 1⟩, ⟨"app", .error, 4⟩]
    (((ofRules [doubling, tripling, steady]).offerAll offers).offer "app" .error 5).2 = some 7 ∧
      (((ofRules [steady, doubling, tripling]).offerAll offers).offer "app" .error 5).2 =
        some 7 := by
  intro doubling tripling steady offers
  obtain ⟨hdeepest, -, hreordered, -⟩ :=
    triggers_independent [doubling, tripling, steady] offers ⟨"app", .error, 5⟩
  have hdepths : (([doubling, tripling, steady].filter
      (Trigger.forwardsAlone offers ⟨"app", .error, 5⟩)).map TriggerRule.depth) = [7, 2] := by
    decide +kernel
  rw [hdepths] at hdeepest
  have hseven : IsDeepest [7, 2] (some 7) := .greatest (by decide) (by decide) (by decide)
  have hasked := hdeepest.unique hseven
  have hperm : [doubling, tripling, steady].Perm [steady, doubling, tripling] :=
    ((List.Perm.swap steady tripling []).cons doubling).trans (.swap steady doubling [tripling])
  exact ⟨hasked, (hreordered _ hperm).trans hasked⟩

end TriggerSet

end LogShipper
