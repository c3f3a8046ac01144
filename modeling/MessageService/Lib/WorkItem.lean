import MessageService.Lib.TransitionSystem

/-!
# A work item and its retries

A piece of work that is claimed by a worker, run, and completed, where the worker may be lost
between any two of these. An item whose worker was lost is claimed again until its attempts are
used up, and abandoned after that.

The state of an item is what is stored of it (`present`, `claimed`, `completed`, `attempts`), whether
a worker holds it and has yet to run it (`held`), and, for an observer, how often it was run and how
often it was abandoned.

* `inv_of_reach`: an item is run and attempted at most once more than it may be retried, and
  abandoned at most once.
* `Step.attempts_le`, `Step.completed`: attempts never decrease, and a completed item is final.
-/

namespace MessageService.Lib

universe u

/-- A work item; `τ` is the type of clock readings. -/
structure WorkItem (τ : Type u) where
  present : Bool := false
  claimed : Bool := false
  completed : Option τ := none
  attempts : Nat := 0
  held : Bool := false
  runs : Nat := 0
  abandoned : Nat := 0

namespace WorkItem

variable {τ : Type u} {max : Nat} {x y : WorkItem τ}

/-- What can happen to an item. A worker may be lost as soon as it has claimed it. -/
inductive Op (τ : Type u) where
  | arrive
  | claim (held : Bool)
  | reclaim (held : Bool)
  | run
  | release
  | complete (t : τ) (failed : Bool)
  | abandon (t : τ)

/-- One step of an item that may be claimed again `max` times. -/
inductive Step (max : Nat) : WorkItem τ → Op τ → WorkItem τ → Prop
  | arrive {x : WorkItem τ} (absent : x.present = false) :
      Step max x .arrive { x with present := true }
  | claim {x : WorkItem τ} (held : Bool) (present : x.present = true)
      (unclaimed : x.claimed = false) :
      Step max x (.claim held) { x with
        claimed := true
        held := held }
  | reclaim {x : WorkItem τ} (held : Bool) (claimed : x.claimed = true)
      (uncompleted : x.completed = none) (lost : x.held = false) (left : x.attempts < max) :
      Step max x (.reclaim held) { x with
        attempts := x.attempts + 1
        held := held }
  | run {x : WorkItem τ} (held : x.held = true) :
      Step max x .run { x with
        held := false
        runs := x.runs + 1 }
  | release {x : WorkItem τ} : Step max x .release { x with held := false }
  | complete {x : WorkItem τ} (t : τ) (failed : Bool) (claimed : x.claimed = true)
      (uncompleted : x.completed = none) (handled : x.held = false) :
      Step max x (.complete t failed) { x with
        completed := some t
        attempts := x.attempts + failed.toNat }
  | abandon {x : WorkItem τ} (t : τ) (claimed : x.claimed = true)
      (uncompleted : x.completed = none) (lost : x.held = false) (used : max ≤ x.attempts) :
      Step max x (.abandon t) { x with
        completed := some t
        abandoned := x.abandoned + 1 }

/-- The life of one item, from before it is there. -/
def system (τ : Type u) (max : Nat) : System (WorkItem τ) (Op τ) where
  init x := x = {}
  step := Step max

/-- The bounds. While an item is open, every claim of it but the first is an attempt, and each claim
leads to at most one run. -/
structure Inv (max : Nat) (x : WorkItem τ) : Prop where
  absent : x.present = false → x.claimed = false
  unclaimed : x.claimed = false →
    x.completed = none ∧ x.attempts = 0 ∧ x.held = false ∧ x.runs = 0
  uncompleted : x.completed = none →
    x.attempts ≤ max ∧ x.runs + x.held.toNat ≤ x.attempts + 1 ∧ x.abandoned = 0
  completed : x.completed ≠ none →
    x.attempts ≤ max + 1 ∧ x.runs ≤ max + 1 ∧ x.abandoned ≤ 1 ∧ x.held = false

theorem Inv.init : Inv max ({} : WorkItem τ) where
  absent _ := rfl
  unclaimed _ := ⟨rfl, rfl, rfl, rfl⟩
  uncompleted _ := ⟨Nat.zero_le _, Nat.zero_le _, rfl⟩
  completed h := absurd rfl h

theorem toNat_le_one (b : Bool) : b.toNat ≤ 1 := by
  cases b <;> decide

theorem Inv.step {k : Op τ} (hx : Inv max x) (h : Step max x k y) : Inv max y := by
  obtain ⟨habsent, hunclaimed, hopen, hdone⟩ := hx
  cases h with
  | arrive absent =>
    exact ⟨fun h => (Bool.noConfusion h), hunclaimed, hopen, hdone⟩
  | claim held present unclaimed =>
    obtain ⟨hc, ha, -, hr⟩ := hunclaimed unclaimed
    obtain ⟨-, -, hd⟩ := hopen hc
    refine ⟨fun h => ?_, fun h => Bool.noConfusion h, fun _ => ⟨?_, ?_, hd⟩, fun h => absurd hc h⟩
    · rw [present] at h
      exact Bool.noConfusion h
    · change x.attempts ≤ max
      omega
    · have := toNat_le_one held
      change x.runs + held.toNat ≤ x.attempts + 1
      omega
  | reclaim held claimed uncompleted lost left =>
    obtain ⟨-, hr, hd⟩ := hopen uncompleted
    refine ⟨habsent, fun h => ?_, fun _ => ⟨?_, ?_, hd⟩, fun h => absurd uncompleted h⟩
    · change x.claimed = false at h
      rw [claimed] at h
      exact Bool.noConfusion h
    · change x.attempts + 1 ≤ max
      omega
    · have := toNat_le_one held
      rw [lost] at hr
      change x.runs + held.toNat ≤ x.attempts + 1 + 1
      change x.runs + 0 ≤ _ at hr
      omega
  | run held =>
    have hc : x.completed = none := by
      by_contra hc
      obtain ⟨-, -, -, hh⟩ := hdone hc
      rw [held] at hh
      exact Bool.noConfusion hh
    obtain ⟨ha, hr, hd⟩ := hopen hc
    refine ⟨habsent, fun h => ?_, fun _ => ⟨ha, ?_, hd⟩, fun h => absurd hc h⟩
    · obtain ⟨-, -, hh, -⟩ := hunclaimed h
      rw [held] at hh
      exact Bool.noConfusion hh
    · rw [held] at hr
      exact hr
  | release =>
    refine ⟨habsent, fun h => ?_, fun h => ?_, fun h => ?_⟩
    · obtain ⟨hc, ha, -, hr⟩ := hunclaimed h
      exact ⟨hc, ha, rfl, hr⟩
    · obtain ⟨ha, hr, hd⟩ := hopen h
      exact ⟨ha, Nat.le_trans (Nat.le_add_right _ _) hr, hd⟩
    · obtain ⟨ha, hr, hd, -⟩ := hdone h
      exact ⟨ha, hr, hd, rfl⟩
  | complete t failed claimed uncompleted handled =>
    obtain ⟨ha, hr, hd⟩ := hopen uncompleted
    refine ⟨habsent, fun h => ?_, fun h => ?_, fun _ => ⟨?_, ?_, ?_, handled⟩⟩
    · change x.claimed = false at h
      rw [claimed] at h
      exact Bool.noConfusion h
    · cases h
    · have := toNat_le_one failed
      change x.attempts + failed.toNat ≤ max + 1
      omega
    · change x.runs ≤ max + 1
      omega
    · change x.abandoned ≤ 1
      omega
  | abandon t claimed uncompleted lost used =>
    obtain ⟨ha, hr, hd⟩ := hopen uncompleted
    refine ⟨habsent, fun h => ?_, fun h => ?_, fun _ => ⟨?_, ?_, ?_, lost⟩⟩
    · change x.claimed = false at h
      rw [claimed] at h
      exact Bool.noConfusion h
    · cases h
    · change x.attempts ≤ max + 1
      omega
    · change x.runs ≤ max + 1
      omega
    · change x.abandoned + 1 ≤ 1
      omega

/-- **The bounds hold in every state of every life.** -/
theorem inv_of_reach (h : (system τ max).Reach x) : Inv max x := by
  refine System.inv_of_reach (I := Inv max) ⟨?_, ?_⟩ h
  · rintro x rfl
    exact .init
  · intro x k y hx h
    exact hx.step h

/-- **Attempts never decrease.** -/
theorem Step.attempts_le {k : Op τ} (h : Step max x k y) : x.attempts ≤ y.attempts := by
  cases h <;> simp

/-- **A completed item is final**: it keeps its completion, is not run and not abandoned again. -/
theorem Step.completed {k : Op τ} (h : Step max x k y) (hx : Inv max x) {t : τ}
    (ht : x.completed = some t) :
    y.completed = some t ∧ y.runs = x.runs ∧ y.abandoned = x.abandoned := by
  have hdone : x.completed ≠ none := by rw [ht]; exact Option.some_ne_none t
  have hheld := (hx.completed hdone).2.2.2
  cases h with
  | arrive _ | claim _ _ _ | release => exact ⟨ht, rfl, rfl⟩
  | reclaim _ _ uncompleted _ _ | complete _ _ _ uncompleted _ | abandon _ _ uncompleted _ _ =>
    exact absurd uncompleted hdone
  | run held =>
    rw [held] at hheld
    exact Bool.noConfusion hheld

/-- A claim is never taken back. -/
theorem Step.claimed {k : Op τ} (h : Step max x k y) (hx : x.claimed = true) :
    y.claimed = true := by
  cases h with
  | claim _ _ _ => rfl
  | arrive _ | reclaim _ _ _ _ _ | run _ | release | complete _ _ _ _ _ | abandon _ _ _ _ _ =>
    exact hx

/-- An item whose attempts are used up is not claimed again. -/
theorem Step.not_held {k : Op τ} (h : Step max x k y) (hx : x.claimed = true)
    (hused : max ≤ x.attempts) (hh : x.held = false) : y.held = false := by
  cases h with
  | claim _ _ unclaimed =>
    rw [hx] at unclaimed
    cases unclaimed
  | reclaim _ _ _ _ left => exact absurd left (Nat.not_lt.mpr hused)
  | run _ | release => rfl
  | arrive _ | complete _ _ _ _ _ | abandon _ _ _ _ _ => exact hh

/-- An item is abandoned only when it is open and its attempts are used up, and that completes it. -/
theorem Step.of_abandoned_lt {k : Op τ} (h : Step max x k y) (hlt : x.abandoned < y.abandoned) :
    x.completed = none ∧ max ≤ x.attempts ∧ y.completed ≠ none := by
  cases h with
  | abandon t _ uncompleted _ used => exact ⟨uncompleted, used, Option.some_ne_none t⟩
  | arrive _ | claim _ _ _ | reclaim _ _ _ _ _ | run _ | release | complete _ _ _ _ _ =>
    exact absurd hlt (Nat.lt_irrefl _)

/-- **An item is abandoned at most once.** -/
theorem Inv.abandoned_le (hx : Inv max x) : x.abandoned ≤ 1 := by
  by_cases hc : x.completed = none
  · have := (hx.uncompleted hc).2.2
    omega
  · exact (hx.completed hc).2.2.1

theorem Inv.attempts_le (hx : Inv max x) : x.attempts ≤ max + 1 := by
  by_cases hc : x.completed = none
  · have := (hx.uncompleted hc).1
    omega
  · exact (hx.completed hc).1

theorem Inv.runs_le (hx : Inv max x) : x.runs ≤ max + 1 := by
  by_cases hc : x.completed = none
  · have := (hx.uncompleted hc).1
    have := (hx.uncompleted hc).2.1
    omega
  · exact (hx.completed hc).2.1

end WorkItem

end MessageService.Lib
